/-
This file reads the one document of a YAML text and the plain values and records in it.
-/

import ChangeImpact.Record
import ChangeImpact.Yaml.Node
import ChangeImpact.Yaml.Number

namespace ChangeImpact.Yaml

structure Document where
  root : Node
  /-- The nodes with an anchor, in the order in which they start. -/
  anchored : List (Nat × Node)

namespace Node

def anchor? : Node → Option Nat
  | scalar anchor _ _ _ => anchor
  | sequence anchor _ => anchor
  | mapping anchor _ => anchor
  | reference _ => none

mutual

def anchored : Node → List (Nat × Node)
  | .sequence anchor items =>
    (anchor.map (·, .sequence anchor items)).toList ++ anchoredItems items
  | .mapping anchor entries =>
    (anchor.map (·, .mapping anchor entries)).toList ++ anchoredEntries entries
  | node => (node.anchor?.map (·, node)).toList

def anchoredItems : List Node → List (Nat × Node)
  | [] => []
  | item :: items => item.anchored ++ anchoredItems items

def anchoredEntries : List (Node × Node) → List (Nat × Node)
  | [] => []
  | (key, value) :: entries => key.anchored ++ value.anchored ++ anchoredEntries entries

end

end Node

namespace Document

def ofRoot (root : Node) : Document :=
  ⟨root, root.anchored⟩

/-- Whether nothing but ends of documents is left. -/
def isEnded (source : TokenSource) : Bool :=
  source.tokens.all (· == .documentEnd)

/-- The node of a document up to the next directive or the next bound of a document. -/
def rootNode? (source : TokenSource) : Option (Node × TokenSource) :=
  let isLeftOut := source.next?.all fun token =>
    match token with
    | .directive _ => true
    | .documentStart => true
    | .documentEnd => true
    | _ => false
  if isLeftOut then some (.omitted, source)
  else Node.node? (4 * source.tokens.length + 4) .block source

/-- The directives at the front of the tokens, and the tokens after them. -/
def splitDirectives : List Token → List Directive × List Token
  | .directive directive :: rest =>
    let (directives, rest) := splitDirectives rest
    (directive :: directives, rest)
  | tokens => ([], tokens)

/-- The only document of a text. A text without a document has an omitted node for it, and after
directives the start of the document has to be marked. -/
def ofTokens? (tokens : List Token) : Option Document := do
  let (directives, rest) := splitDirectives tokens
  let handles ← Directive.handles? directives
  let (root, source) ← match rest with
    | .documentStart :: rest => rootNode? ⟨rest, [], handles⟩
    | .documentEnd :: _ => none
    | [] => if directives.isEmpty then some (.omitted, ⟨[], [], handles⟩) else none
    | rest => if directives.isEmpty then rootNode? ⟨rest, [], handles⟩ else none
  if isEnded source then some (ofRoot root) else none

def parse? (text : String) : Option Document := do
  ofTokens? (← tokens? text)

/-- The node that is meant: a reference stands for the last node with its anchor. -/
def resolve? (document : Document) : Node → Option Node
  | .reference anchor => document.anchored.reverse.lookup anchor
  | node => some node

variable {α : Type}

def text? (document : Document) (node : Node) : Option String :=
  match document.resolve? node with
  | some (.scalar _ _ _ text) => some text
  | _ => none

/-- The characters of a scalar that may be read as a value of a type: it is plain, or a literal
block with the tag of the type. -/
def characters? (document : Document) (tag : String) (node : Node) : Option (List Char) :=
  match document.resolve? node with
  | some (.scalar _ _ .plain text) => some text.toList
  | some (.scalar _ given .literal text) => if given = some tag then some text.toList else none
  | _ => none

def flag? (document : Document) (node : Node) : Option Bool := do
  Yaml.flag? (← document.characters? "tag:yaml.org,2002:bool" node)

def count? (document : Document) (node : Node) : Option Nat := do
  Yaml.count? (← document.characters? "tag:yaml.org,2002:int" node)

def numeric? [Numeric α] (document : Document) (node : Node) : Option α := do
  Numeric.read? (← document.characters? "tag:yaml.org,2002:float" node)

/-- The items of a sequence; an empty plain scalar has none. -/
def list? (document : Document) (item? : Node → Option α) (node : Node) : Option (List α) :=
  match document.resolve? node with
  | some (.sequence _ items) => items.mapM item?
  | some (.scalar _ _ .plain "") => some []
  | _ => none

/-- A record is given as a mapping, where unknown fields are ignored and known ones occur once, or
as an empty plain scalar. -/
def record? (document : Document) (names : List String) (node : Node) : Option (Record Node) :=
  match document.resolve? node with
  | some (.mapping _ entries) => do
    let fields ← entries.mapM fun entry => do return (← document.text? entry.1, entry.2)
    Record.ofFields? names fields
  | some (.scalar _ _ .plain "") => some ⟨[]⟩
  | _ => none

end Document

end ChangeImpact.Yaml
