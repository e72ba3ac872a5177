/-
This file defines the tokens of YAML text.
-/

import ChangeImpact.Yaml.Directive

namespace ChangeImpact.Yaml

/-- How a scalar is written. -/
inductive ScalarStyle where
  | plain
  | singleQuoted
  | doubleQuoted
  | literal
  | folded
deriving DecidableEq, Repr

inductive Token where
  | directive (directive : Directive)
  | documentStart
  | documentEnd
  | blockSequenceStart
  | blockMappingStart
  /-- The end of a block collection, which only the indentation shows. -/
  | blockEnd
  /-- A bracket or a comma. -/
  | mark (character : Char)
  /-- A hyphen before an entry. -/
  | entry
  | key
  | value
  | anchor (name : String)
  /-- A node given by the name of its anchor. -/
  | reference (name : String)
  | tag (tag : Tag)
  | scalar (style : ScalarStyle) (text : String)
deriving DecidableEq, Repr

end ChangeImpact.Yaml
