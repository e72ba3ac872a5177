/-
This file shows what is loaded from the files that are named on the command line.
-/

import ChangeImpact.CommandLine.Run

namespace ChangeImpact

section Results

variable {ε δ α β : Type}

theorem bind_eq_ok_iff {first : Except ε α} {next : α → Except ε β} {result : β} :
    first >>= next = .ok result ↔ ∃ value, first = .ok value ∧ next value = .ok result := by
  cases first <;> simp [bind, Except.bind]

end Results

namespace CommandLine

namespace Files

/-- A file holds a text if its bytes are those of the text. -/
def Holds (files : Files) (path text : String) : Prop :=
  files path = .ok text.toUTF8

variable {files : Files} {path text : String}

theorem fromUTF8?_eq_some_iff {bytes : ByteArray} :
    String.fromUTF8? bytes = some text ↔ bytes = text.toUTF8 := by
  constructor
  · intro decoded
    unfold String.fromUTF8? at decoded
    split at decoded
    · rw [← Option.some.inj decoded]
      rfl
    · cases decoded
  · rintro rfl
    exact dif_pos text.isValidUTF8

theorem text?_eq_ok_iff : files.text? path = .ok text ↔ files.Holds path text := by
  rw [text?, bind_eq_ok_iff, Holds]
  constructor
  · rintro ⟨bytes, found, decoded⟩
    split at decoded
    next read isText =>
      obtain rfl : read = text := Except.ok.inj decoded
      rw [found, fromUTF8?_eq_some_iff.mp isText]
    next => cases decoded
  · intro found
    refine ⟨_, found, ?_⟩
    rw [fromUTF8?_eq_some_iff.mpr rfl]
    rfl

end Files

end CommandLine

end ChangeImpact
