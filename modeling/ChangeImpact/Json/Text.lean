/-
This file reads JSON values from text and writes them.
-/

import ChangeImpact.Json.Token

namespace ChangeImpact.Json

mutual

/-- The value at the front of a list of tokens. Every two steps take a token. -/
def value? : Nat → List Token → Option (Json × List Token)
  | 0, _ => none
  | steps + 1, tokens =>
    match tokens with
    | .null :: rest => some (.null, rest)
    | .bool value :: rest => some (.bool value, rest)
    | .number numeral :: rest => some (.number numeral, rest)
    | .string text :: rest => some (.string text, rest)
    | .mark '[' :: .mark ']' :: rest => some (.array [], rest)
    | .mark '[' :: rest => do
      let (items, rest) ← items? steps rest
      some (.array items, rest)
    | .mark '{' :: .mark '}' :: rest => some (.object [], rest)
    | .mark '{' :: rest => do
      let (members, rest) ← members? steps rest
      some (.object members, rest)
    | _ => none

def items? : Nat → List Token → Option (List Json × List Token)
  | 0, _ => none
  | steps + 1, tokens => do
    let (item, rest) ← value? steps tokens
    match rest with
    | .mark ',' :: rest =>
      let (items, rest) ← items? steps rest
      some (item :: items, rest)
    | .mark ']' :: rest => some ([item], rest)
    | _ => none

def members? : Nat → List Token → Option (List (Option String × Json) × List Token)
  | 0, _ => none
  | steps + 1, tokens =>
    match tokens with
    | .string name :: .mark ':' :: rest => do
      let (member, rest) ← value? steps rest
      match rest with
      | .mark ',' :: rest =>
        let (members, rest) ← members? steps rest
        some ((name, member) :: members, rest)
      | .mark '}' :: rest => some ([(name, member)], rest)
      | _ => none
    | _ => none

end

/-- The value that the tokens spell, all of them. -/
def ofTokens? (tokens : List Token) : Option Json :=
  match value? (2 * tokens.length + 1) tokens with
  | some (value, []) => some value
  | _ => none

def parse? (text : String) : Option Json := do
  ofTokens? (← Token.ofText? text.toList)

mutual

def tokens : Json → List Token
  | .null => [.null]
  | .bool value => [.bool value]
  | .number numeral => [.number numeral]
  | .string text => [.string text]
  | .array items => .mark '[' :: itemTokens items ++ [.mark ']']
  | .object members => .mark '{' :: memberTokens members ++ [.mark '}']

def itemTokens : List Json → List Token
  | [] => []
  | [item] => item.tokens
  | item :: next :: rest => item.tokens ++ .mark ',' :: itemTokens (next :: rest)

def memberTokens : List (Option String × Json) → List Token
  | [] => []
  | [(name, member)] => .string name :: .mark ':' :: member.tokens
  | (name, member) :: next :: rest =>
    .string name :: .mark ':' :: member.tokens ++ .mark ',' :: memberTokens (next :: rest)

end

/-- The text of a value, without blanks. -/
def print (value : Json) : String :=
  String.ofList (value.tokens.flatMap Token.characters)

end ChangeImpact.Json
