/-
This file defines the nodes of a YAML document and reads them from tokens.
-/

import ChangeImpact.Yaml.Layout

namespace ChangeImpact.Yaml

/-- A node of a document. Anchors and references to them are numbered. -/
inductive Node where
  | scalar (anchor : Option Nat) (tag : Option String) (style : ScalarStyle) (text : String)
  | sequence (anchor : Option Nat) (items : List Node)
  | mapping (anchor : Option Nat) (entries : List (Node × Node))
  | reference (anchor : Nat)
deriving Repr, Inhabited

/-- The tokens still to be read, and what their names and handles mean. -/
structure TokenSource where
  tokens : List Token
  /-- The anchors so far with their numbers, the last one of a name first. -/
  anchors : List (String × Nat)
  handles : List (List Char × List Char)

namespace TokenSource

def next? (source : TokenSource) : Option Token :=
  source.tokens.head?

def skip (source : TokenSource) : TokenSource :=
  { source with tokens := source.tokens.tail }

/-- The source after a token, if that token is the next one. -/
def expect? (source : TokenSource) (token : Token) : Option TokenSource :=
  if source.next? = some token then some source.skip else none

/-- An anchor gets the number of names that are known before it, so the anchor after one whose name
was known takes over its number. -/
def addAnchor (source : TokenSource) (name : String) : Nat × TokenSource :=
  let names := source.anchors.map Prod.fst
  let number := names.eraseDups.length
  (number, { source with anchors := (name, number) :: source.anchors })

/-- Whether the next token shows that a node is left out in front of it. -/
def meets (source : TokenSource) (tokens : List Token) : Bool :=
  source.next?.any tokens.contains

end TokenSource

namespace Node

/-- What stands in front of the content of a node. -/
structure Properties where
  anchor : Option Nat
  tag : Option String

namespace Properties

def anchor? (source : TokenSource) : Option Nat × TokenSource :=
  match source.tokens with
  | .anchor name :: _ =>
    let (number, source) := source.addAnchor name
    (some number, source.skip)
  | _ => (none, source)

def tag? (source : TokenSource) : Option (Option String × TokenSource) :=
  match source.tokens with
  | .tag tag :: _ => do some (some (← tag.resolve? source.handles), source.skip)
  | _ => some (none, source)

/-- An anchor and a tag, at most one of each and in either order. -/
def read? (source : TokenSource) : Option (Properties × TokenSource) := do
  let (first, source) := anchor? source
  let (tag, source) ← tag? source
  let (second, source) := if first.isNone && tag.isSome then anchor? source else (none, source)
  some (⟨first.or second, tag⟩, source)

end Properties

/-- A node that is left out is an empty scalar. -/
def omitted : Node :=
  .scalar none none .plain ""

/-- Where a node stands, which decides how its content may start. -/
inductive Place where
  /-- In a flow collection. -/
  | flow
  /-- Where a block collection has to be indented further. -/
  | block
  /-- In a block mapping, whose sequences need not be indented. -/
  | ofMapping

/-- The tokens at which an entry of a block mapping has no content. -/
def mappingBounds : List Token := [.key, .value, .blockEnd]

mutual

/-- The node at the front of the tokens. At most three steps in a row take no token. -/
def node? : Nat → Place → TokenSource → Option (Node × TokenSource)
  | 0, _, _ => none
  | steps + 1, place, source =>
    match source.tokens with
    | .reference name :: _ => do
      some (.reference (← source.anchors.lookup name), source.skip)
    | _ => do
      let (properties, source) ← Properties.read? source
      let inBlock := match place with
        | .flow => false
        | _ => true
      let inMapping := match place with
        | .ofMapping => true
        | _ => false
      match source.tokens with
      | .scalar style text :: _ =>
        some (.scalar properties.anchor properties.tag style text, source.skip)
      | .mark '[' :: _ => do
        let (items, source) ← flowItems? steps true source.skip
        some (.sequence properties.anchor items, source)
      | .mark '\x7b' :: _ => do
        let (entries, source) ← flowEntries? steps true source.skip
        some (.mapping properties.anchor entries, source)
      | token :: _ =>
        if inMapping && token == .entry then do
          let (items, source) ← sameLevelItems? steps source
          some (.sequence properties.anchor items, source)
        else if inBlock && token == .blockSequenceStart then do
          let (items, source) ← blockItems? steps source.skip
          some (.sequence properties.anchor items, source)
        else if inBlock && token == .blockMappingStart then do
          let (entries, source) ← blockEntries? steps source.skip
          some (.mapping properties.anchor entries, source)
        else if properties.anchor.isSome || properties.tag.isSome then
          some (.scalar properties.anchor properties.tag .plain "", source)
        else none
      | [] =>
        if properties.anchor.isSome || properties.tag.isSome then
          some (.scalar properties.anchor properties.tag .plain "", source)
        else none

/-- The node at the front of the tokens, unless one of the `bounds` shows that it is left out. -/
def nodeUnless? : Nat → List Token → Place → TokenSource → Option (Node × TokenSource)
  | 0, _, _, _ => none
  | steps + 1, bounds, place, source =>
    if source.meets bounds then some (omitted, source) else node? steps place source

/-- The value of an entry, if a colon starts one. -/
def valueUnless? : Nat → List Token → Place → TokenSource → Option (Node × TokenSource)
  | 0, _, _, _ => none
  | steps + 1, bounds, place, source =>
    match source.expect? .value with
    | some source => nodeUnless? steps bounds place source
    | none => some (omitted, source)

def blockItems? : Nat → TokenSource → Option (List Node × TokenSource)
  | 0, _ => none
  | steps + 1, source =>
    match source.expect? .entry with
    | some source => do
      let (item, source) ← nodeUnless? steps [.entry, .blockEnd] .block source
      let (items, source) ← blockItems? steps source
      some (item :: items, source)
    | none => do some ([], ← source.expect? .blockEnd)

/-- The items of a sequence that is not indented further than the mapping around it. -/
def sameLevelItems? : Nat → TokenSource → Option (List Node × TokenSource)
  | 0, _ => none
  | steps + 1, source =>
    match source.expect? .entry with
    | some source => do
      let (item, source) ← nodeUnless? steps (.entry :: mappingBounds) .block source
      let (items, source) ← sameLevelItems? steps source
      some (item :: items, source)
    | none => some ([], source)

def blockEntries? : Nat → TokenSource → Option (List (Node × Node) × TokenSource)
  | 0, _ => none
  | steps + 1, source =>
    match source.expect? .key with
    | some source => do
      let (key, source) ← nodeUnless? steps mappingBounds .ofMapping source
      let (value, source) ← valueUnless? steps mappingBounds .ofMapping source
      let (entries, source) ← blockEntries? steps source
      some ((key, value) :: entries, source)
    | none => do some ([], ← source.expect? .blockEnd)

/-- The items of a flow sequence. An entry of a mapping may stand for a mapping of its own; a key
that is left out there takes the token after it along. -/
def flowItems? : Nat → (first : Bool) → TokenSource → Option (List Node × TokenSource)
  | 0, _, _ => none
  | steps + 1, first, source =>
    match source.expect? (.mark ']') with
    | some source => some ([], source)
    | none => do
      let source ← if first then some source else source.expect? (.mark ',')
      match source.expect? (.mark ']'), source.expect? .key with
      | some source, _ => some ([], source)
      | none, some source => do
        let (key, source) ←
          if source.meets [.value, .mark ',', .mark ']'] then some (omitted, source.skip)
          else node? steps .flow source
        let (value, source) ← valueUnless? steps [.mark ',', .mark ']'] .flow source
        let (items, source) ← flowItems? steps false source
        some (.mapping none [(key, value)] :: items, source)
      | none, none => do
        let (item, source) ← node? steps .flow source
        let (items, source) ← flowItems? steps false source
        some (item :: items, source)

def flowEntries? : Nat → (first : Bool) → TokenSource →
    Option (List (Node × Node) × TokenSource)
  | 0, _, _ => none
  | steps + 1, first, source =>
    match source.expect? (.mark '\x7d') with
    | some source => some ([], source)
    | none => do
      let source ← if first then some source else source.expect? (.mark ',')
      match source.expect? (.mark '\x7d'), source.expect? .key with
      | some source, _ => some ([], source)
      | none, some source => do
        let bounds : List Token := [.mark ',', .mark '\x7d']
        let (key, source) ← nodeUnless? steps (.value :: bounds) .flow source
        let (value, source) ← valueUnless? steps bounds .flow source
        let (entries, source) ← flowEntries? steps false source
        some ((key, value) :: entries, source)
      | none, none => do
        let (key, source) ← node? steps .flow source
        let (entries, source) ← flowEntries? steps false source
        some ((key, omitted) :: entries, source)

end

end Node

end ChangeImpact.Yaml
