import ChangeImpact.Interchange.Report
import ChangeImpact.Main
import ChangeImpact.Proofs.Distinct
import ChangeImpact.Proofs.Graph.Adjacency
import ChangeImpact.Proofs.Graph.Layers
import ChangeImpact.Proofs.Graph.Exploration
import ChangeImpact.Proofs.Graph.Reachable
import ChangeImpact.Proofs.Analysis.Affected
import ChangeImpact.Proofs.Graph.PathSearch
import ChangeImpact.Proofs.Analysis.Connection
import ChangeImpact.Proofs.Analysis.Outcome
import ChangeImpact.Proofs.Analysis.Paths
import ChangeImpact.Proofs.Graph.Component
import ChangeImpact.Proofs.Graph.Cycle
import ChangeImpact.Proofs.Graph.Agreement
import ChangeImpact.Proofs.Graph.Depth
import ChangeImpact.Proofs.Analysis.Ranking
import ChangeImpact.Proofs.Graph.Merge
import ChangeImpact.Proofs.Analysis.Depth
import ChangeImpact.Proofs.Analysis.Outline
import ChangeImpact.Proofs.Analysis.Reordering
import ChangeImpact.Proofs.Analysis.Repetition
import ChangeImpact.Proofs.Impact.Score
import ChangeImpact.Proofs.Analysis.Changed
import ChangeImpact.Proofs.Graph.Pruning
import ChangeImpact.Proofs.Analysis.Visibility
import ChangeImpact.Proofs.Analysis.Shape
import ChangeImpact.Proofs.Table
import ChangeImpact.Proofs.Report.Summary
import ChangeImpact.Proofs.Risk.Metrics
import ChangeImpact.Proofs.Analysis.Consistency
import ChangeImpact.Proofs.Analysis.Ranges
import ChangeImpact.Proofs.Analysis.Coverage
import ChangeImpact.Proofs.Report.Effort
import ChangeImpact.Proofs.Analysis.Kind
import ChangeImpact.Proofs.Interchange.Form
import ChangeImpact.Proofs.Interchange.ConfigText
import ChangeImpact.Proofs.Graph.Critical
import ChangeImpact.Proofs.Graph.Mirror
import ChangeImpact.Proofs.Graph.Selection
import ChangeImpact.Proofs.Analysis.Order
import ChangeImpact.Proofs.Impact.Level
import ChangeImpact.Proofs.Glob.Component
import ChangeImpact.Proofs.Glob.Pattern
import ChangeImpact.Proofs.Glob.Exclusion
import ChangeImpact.Proofs.Text.Segment
import ChangeImpact.Proofs.Glob.Name
import ChangeImpact.Proofs.Glob.Shape
import ChangeImpact.Proofs.Analysis.Exclusion
import ChangeImpact.Proofs.ChangeSet.FilePath
import ChangeImpact.Proofs.ChangeSet.Language
import ChangeImpact.Proofs.ChangeSet.Commit
import ChangeImpact.Proofs.Analysis.Reason
import ChangeImpact.Proofs.Graph.Queue
import ChangeImpact.Proofs.Graph.Backtrack
import ChangeImpact.Proofs.CommandLine.Outcome
import ChangeImpact.Proofs.Graph.Places
