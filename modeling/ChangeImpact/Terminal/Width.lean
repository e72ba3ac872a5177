/-
This file says how many columns of a terminal a character takes.
-/

namespace ChangeImpact.Terminal

/-- The blocks of characters that take two columns: scripts of East Asia, fullwidth forms and
pictographs. -/
def wideBlocks : List (Nat × Nat) :=
  [(0x1100, 0x115F), (0x2E80, 0x303E), (0x3041, 0x33FF), (0x3400, 0x4DBF), (0x4E00, 0x9FFF),
    (0xA000, 0xA4CF), (0xA960, 0xA97F), (0xAC00, 0xD7A3), (0xF900, 0xFAFF), (0xFE30, 0xFE6F),
    (0xFF01, 0xFF60), (0xFFE0, 0xFFE6), (0x1F300, 0x1F64F), (0x1F680, 0x1F6FF),
    (0x1F900, 0x1F9FF), (0x20000, 0x3FFFD)]

/-- The blocks of characters that are drawn over the one before them, or not at all. -/
def combiningBlocks : List (Nat × Nat) :=
  [(0x300, 0x36F), (0x483, 0x489), (0x591, 0x5BD), (0x610, 0x61A), (0x64B, 0x65F),
    (0x1AB0, 0x1AFF), (0x1DC0, 0x1DFF), (0x200B, 0x200F), (0x20D0, 0x20FF), (0xFE00, 0xFE0F),
    (0xFE20, 0xFE2F), (0xFEFF, 0xFEFF)]

def isWithin (blocks : List (Nat × Nat)) (character : Char) : Bool :=
  blocks.any fun block => block.1 ≤ character.toNat && character.toNat ≤ block.2

def isWide : Char → Bool :=
  isWithin wideBlocks

def isCombining : Char → Bool :=
  isWithin combiningBlocks

def isControl (character : Char) : Bool :=
  character.toNat < 0x20 || 0x7F ≤ character.toNat && character.toNat < 0xA0

def columns (character : Char) : Nat :=
  if isControl character || isCombining character then 0
  else if isWide character then 2
  else 1

def width (characters : List Char) : Nat :=
  characters.foldl (fun total character => total + columns character) 0

end ChangeImpact.Terminal
