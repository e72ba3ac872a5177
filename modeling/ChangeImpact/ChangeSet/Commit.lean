/-
This file derives change sets from the files of a commit.
-/

import ChangeImpact.ChangeSet.Basic
import ChangeImpact.ChangeSet.Language
import ChangeImpact.Distinct

namespace ChangeImpact.ChangeSet

/-- What a directory may start with without being part of the name of its module. -/
def sourceRoots : List String :=
  ["./", "src/", "lib/"]

def dropStart (start characters : List Char) : List Char :=
  if start.isPrefixOf characters then characters.drop start.length else characters

/-- The directory without the source roots at its front, each dropped once and in turn. -/
def dropSourceRoots (directory : List Char) : List Char :=
  sourceRoots.foldl (fun directory root => dropStart root.toList directory) directory

/-- The module of a file; a file at the top of the repository has none. -/
def moduleOfFile? (file : String) : Option String :=
  (((FilePath.ofText file).parent?.map dropSourceRoots).filter fun directory =>
    directory ≠ [] ∧ directory ≠ ['.']).map String.ofList

def modulesOfFiles (files : List String) : List String :=
  distinct (files.filterMap moduleOfFile?)

/-- The first eight characters of a hash. -/
def shortHash (hash : String) : String :=
  String.ofList (hash.toList.take 8)

/-- The change that a commit made. The files alone do not tell additions from modifications. -/
def ofCommit (hash author : String) (files : List String) (timestamp : Timestamp) :
    ChangeSet where
  id := s!"changeset_{shortHash hash}"
  description := s!"Change set from commit {shortHash hash}"
  modules := modulesOfFiles files
  files := files
  kind := .modification
  language := Language.primary files
  author := author
  commit := some hash
  timestamp := timestamp

end ChangeImpact.ChangeSet
