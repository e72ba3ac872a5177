/-
This file reads the directives in front of a document.
-/

import ChangeImpact.Yaml.Tag

namespace ChangeImpact.Yaml

inductive Directive where
  | version (major minor : Nat)
  /-- Declares what a handle stands for. -/
  | tag (handle start : List Char)
deriving DecidableEq, Repr

namespace Directive

/-- Up to nine digits. -/
def number? (characters : List Char) : Option (Nat × List Char) :=
  let digits := characters.takeWhile Char.isDigit
  if digits.isEmpty || 9 < digits.length then none
  else some (digits.foldl (fun value digit => 10 * value + (digit.toNat - '0'.toNat)) 0,
    characters.dropWhile Char.isDigit)

def version? (characters : List Char) : Option (Directive × List Char) := do
  match ← number? characters with
  | (major, '.' :: rest) =>
    let (minor, rest) ← number? rest
    some (.version major minor, rest)
  | _ => none

/-- A handle is an exclamation mark alone or a word between two of them. -/
def handle? : List Char → Option (List Char × List Char)
  | '!' :: rest =>
    let word := rest.takeWhile isWord
    match rest.dropWhile isWord with
    | '!' :: rest => some ('!' :: word ++ ['!'], rest)
    | rest => if word.isEmpty then some (['!'], rest) else none
  | _ => none

def tag? (characters : List Char) : Option (Directive × List Char) := do
  let (handle, rest) ← handle? characters
  if rest.head?.any isBlank then
    let (start, rest) ← Tag.nonemptyUri? true (rest.dropWhile isBlank)
    if startsWithGap rest then some (.tag handle start, rest) else none
  else none

/-- A directive after the percent sign that starts it, and the lines after it. -/
def read? (characters : List Char) : Option (Directive × List Char) := do
  let name := characters.takeWhile isWord
  let rest := characters.dropWhile isWord
  if !startsWithGap rest then none
  else
    let content := rest.dropWhile isBlank
    let (directive, rest) ← match String.ofList name with
      | "YAML" => version? content
      | "TAG" => tag? content
      | _ => none
    some (directive, ← nextLine? rest)

/-- What the handles of a document stand for, given its directives. The version is given at most
once, and so is each handle. -/
def handles? : List Directive → Option (List (List Char × List Char))
  | directives => do
    let versions := directives.filterMap fun directive =>
      match directive with
      | .version major minor => some (major, minor)
      | .tag _ _ => none
    let declared := directives.filterMap fun directive =>
      match directive with
      | .version _ _ => none
      | .tag handle start => some (handle, start)
    let known := versions.all fun version => version == (1, 1) || version == (1, 2)
    if known && versions.length ≤ 1 && decide (declared.map Prod.fst).Nodup then
      some (declared ++ Tag.standardHandles)
    else none

end Directive

end ChangeImpact.Yaml
