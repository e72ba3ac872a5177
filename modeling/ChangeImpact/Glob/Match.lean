/-
This file matches globs against paths, byte by byte.
-/

import ChangeImpact.Distinct
import ChangeImpact.Glob.Pattern

namespace ChangeImpact.Glob

def slash : UInt8 := 47

def characterBytes (character : Char) : List UInt8 :=
  (String.singleton character).toUTF8.toList

def bytes (text : String) : List UInt8 :=
  text.toUTF8.toList

/-- What is left of a text after a given start. -/
def afterStart (start text : List UInt8) : List (List UInt8) :=
  if start.isPrefixOf text then [text.drop start.length] else []

/-- What is left of a text after each run of bytes other than slashes. -/
def afterRuns : List UInt8 → List (List UInt8)
  | [] => [[]]
  | byte :: rest => (byte :: rest) :: if byte = slash then [] else afterRuns rest

/-- What is left of a text after any of its bytes. -/
def afterAll : List UInt8 → List (List UInt8)
  | [] => [[]]
  | byte :: rest => (byte :: rest) :: afterAll rest

/-- What is left of a text after each of its slashes. -/
def afterSlashes : List UInt8 → List (List UInt8)
  | [] => []
  | byte :: rest => if byte = slash then rest :: afterSlashes rest else afterSlashes rest

def afterSlash : List UInt8 → List (List UInt8)
  | [] => []
  | byte :: rest => if byte = slash then [rest] else []

/-- A range of bytes, both ends included. -/
structure ByteRange where
  first : UInt8
  last : UInt8
deriving DecidableEq, Repr

def ByteRange.single (byte : UInt8) : ByteRange :=
  ⟨byte, byte⟩

/-- The bytes of a range of characters. A character of several bytes counts as those bytes, so that
a range runs from the last byte of its first character to the first byte of its last one. -/
def byteRanges (range : Char × Char) : List ByteRange :=
  let first := characterBytes range.1
  let last := characterBytes range.2
  if range.1 = range.2 then first.map .single
  else
    first.dropLast.map .single ++ [⟨first.getLastD 0, last.headD 0⟩] ++ last.tail.map .single

def inClass (negated : Bool) (ranges : List (Char × Char)) (byte : UInt8) : Bool :=
  (ranges.flatMap byteRanges).any (fun range => range.first ≤ byte && byte ≤ range.last) != negated

mutual

/-- Whether a part of a pattern stands for nothing at all, so that it is left out. -/
def Piece.isVoid : Piece → Bool
  | .alternatives branches => branchesAreVoid branches
  | _ => false

def isVoid : List Piece → Bool
  | [] => true
  | piece :: rest => piece.isVoid && isVoid rest

def branchesAreVoid : List (List Piece) → Bool
  | [] => true
  | branch :: rest => isVoid branch && branchesAreVoid rest

end

mutual

/-- What is left of a text after each match of a piece with its start. -/
def Piece.after (text : List UInt8) : Piece → List (List UInt8)
  | .literal character => afterStart (characterBytes character) text
  | .any =>
    match text with
    | [] => []
    | byte :: rest => if byte = slash then [] else [rest]
  | .star => afterRuns text
  | .leadingDirectories => text :: afterSlashes text
  | .trailingPath => (afterSlash text).flatMap afterAll
  | .innerDirectories => (afterSlash text).flatMap fun rest => rest :: afterSlashes rest
  | .oneOf negated ranges =>
    match text with
    | [] => []
    | byte :: rest => if inClass negated ranges byte then [rest] else []
  | .alternatives branches =>
    if branchesAreVoid branches then [text] else afterBranches [text] branches

/-- What is left of some texts after each match of the pieces in turn. -/
def after (texts : List (List UInt8)) : List Piece → List (List UInt8)
  | [] => texts
  | piece :: rest => after (distinct (texts.flatMap fun text => piece.after text)) rest

/-- The branches that stand for nothing do not count. -/
def afterBranches (texts : List (List UInt8)) : List (List Piece) → List (List UInt8)
  | [] => []
  | branch :: rest =>
    (if isVoid branch then [] else after texts branch) ++ afterBranches texts rest

end

/-- Whether the pieces match a whole text. Directories alone match everything. -/
def matchesBytes (pieces : List Piece) (text : List UInt8) : Bool :=
  match pieces with
  | [.leadingDirectories] => true
  | _ => (after [text] pieces).any List.isEmpty

end ChangeImpact.Glob
