/-
This file shows what the file name and the extension of a path are: the file name is its last
segment, and the extension is what that ends with from its last point on.
-/

import ChangeImpact.Glob.Exclusion
import ChangeImpact.Proofs.Glob.Component
import ChangeImpact.Proofs.Text.Segment

namespace ChangeImpact.Glob

section Bytes

theorem bytes_eq_data (text : String) : bytes text = text.toByteArray.data.toList := by
  rw [bytes, String.toUTF8, ByteArray.toList, toList_loop]
  rfl

theorem bytes_injective : Function.Injective bytes := by
  intro first second same
  rw [bytes_eq_data, bytes_eq_data, Array.toList_inj] at same
  exact String.toByteArray_inj.mp (ByteArray.ext same)

/-- The bytes of a text are those of its characters, one after the other. -/
theorem bytes_eq_charactersBytes (text : String) : bytes text = charactersBytes text.toList := by
  rw [bytes_eq_data, ← String.utf8Encode_toList, List.utf8Encode, List.toList_data_toByteArray,
    charactersBytes]
  exact List.flatMap_congr fun character _ => (characterBytes_eq character).symm

theorem mem_charactersBytes_iff {mark : Char} {characters : List Char}
    (isAscii : mark.toNat < 128) :
    UInt8.ofNat mark.toNat ∈ charactersBytes characters ↔ mark ∈ characters := by
  simp [charactersBytes, List.mem_flatMap, mem_characterBytes_iff isAscii]

theorem charactersBytes_ne_nil {characters : List Char} (nonempty : characters ≠ []) :
    charactersBytes characters ≠ [] := by
  obtain ⟨character, rest, rfl⟩ := List.exists_cons_of_ne_nil nonempty
  rw [charactersBytes, List.flatMap_cons, characterBytes_eq]
  exact List.append_ne_nil_of_left_ne_nil String.utf8EncodeChar_ne_nil _

theorem slash_mem_charactersBytes_iff {characters : List Char} :
    slash ∈ charactersBytes characters ↔ '/' ∈ characters :=
  mem_charactersBytes_iff (by decide : '/'.toNat < 128)

end Bytes

section Name

variable {last : List UInt8} {path : String}

/-- The bytes of a path end with those of its last segment. -/
theorem exists_bytes_lastSegment (path : String) :
    slash ∉ bytes (Text.lastSegment path) ∧
      (bytes path = bytes (Text.lastSegment path) ∨
        ∃ directory, bytes path = directory ++ slash :: bytes (Text.lastSegment path)) := by
  obtain ⟨apart, place⟩ := Text.exists_lastSegment path
  simp only [bytes_eq_charactersBytes, slash_mem_charactersBytes_iff]
  refine ⟨apart, place.imp (congrArg charactersBytes) ?_⟩
  rintro ⟨directory, same⟩
  refine ⟨charactersBytes directory, ?_⟩
  rw [same, charactersBytes, List.flatMap_append, List.flatMap_cons,
    (by decide +kernel : characterBytes '/' = [slash])]
  rfl

/-- The last segment is the only part at the end of a path that holds no slash and comes after
one. -/
theorem eq_bytes_lastSegment (apart : slash ∉ last)
    (place : bytes path = last ∨ ∃ before, bytes path = before ++ slash :: last) :
    last = bytes (Text.lastSegment path) := by
  obtain ⟨apartOwn, placeOwn⟩ := exists_bytes_lastSegment path
  rw [← Text.reverse_takeWhile_reverse apart place,
    Text.reverse_takeWhile_reverse apartOwn placeOwn]

/-- An end of a path without a slash lies in the last segment. -/
theorem suffix_bytes_lastSegment (apart : slash ∉ last) (isEnd : last <:+ bytes path) :
    last <:+ bytes (Text.lastSegment path) := by
  obtain ⟨_, same | ⟨directory, same⟩⟩ := exists_bytes_lastSegment path
  · rwa [same] at isEnd
  · rw [same] at isEnd
    rcases List.suffix_or_suffix_of_suffix isEnd (List.suffix_append directory _) with own | larger
    · rcases List.suffix_cons_iff.mp own with rfl | inside
      · exact absurd List.mem_cons_self apart
      · exact inside
    · exact absurd (larger.subset List.mem_cons_self) apart

/-- A path has a file name unless it is empty or leads back up. -/
theorem fileName?_bytes (path : String) :
    fileName? (bytes path) =
      if path = "" ∨ Text.lastSegment path = ".." then none
      else some (bytes (Text.lastSegment path)) := by
  obtain ⟨apart, place⟩ := exists_bytes_lastSegment path
  have isEmpty : (bytes path).isEmpty = true ↔ path = "" := by
    rw [List.isEmpty_iff]
    exact bytes_injective.eq_iff' (by decide +kernel)
  simp only [fileName?, Text.reverse_takeWhile_reverse apart place, isEmpty, bytes_injective.eq_iff]

theorem extension?_append {stem rest : List UInt8} (apart : 46 ∉ rest) :
    extension? (stem ++ 46 :: rest) = some (46 :: rest) := by
  rw [extension?, if_pos (by simp), Text.reverse_takeWhile_reverse apart (.inr ⟨stem, rfl⟩)]

/-- The extension of a path that ends with a point and neither points nor slashes after it is just
that end. -/
theorem extension?_fileName? {rest : List Char} (noPoint : '.' ∉ rest) (noSlash : '/' ∉ rest)
    (named : Text.lastSegment path ≠ "..")
    (isEnd : charactersBytes ('.' :: rest) <:+ bytes path) :
    (fileName? (bytes path)).bind extension? = some (charactersBytes ('.' :: rest)) := by
  have fixed : charactersBytes ('.' :: rest) = 46 :: charactersBytes rest := by
    rw [charactersBytes, List.flatMap_cons, (by decide +kernel : characterBytes '.' = [46])]
    rfl
  have isFilled : path ≠ "" := by
    rintro rfl
    rw [fixed, (by decide +kernel : bytes "" = [])] at isEnd
    cases List.suffix_nil.mp isEnd
  have apart : slash ∉ charactersBytes ('.' :: rest) :=
    slash_mem_charactersBytes_iff.not.mpr (by simp [noSlash])
  have pointless : 46 ∉ charactersBytes rest :=
    (mem_charactersBytes_iff (by decide : '.'.toNat < 128)).not.mpr noPoint
  obtain ⟨stem, isName⟩ := suffix_bytes_lastSegment apart isEnd
  rw [fileName?_bytes, if_neg (not_or.mpr ⟨isFilled, named⟩), Option.bind_some, ← isName, fixed,
    extension?_append pointless]

end Name

end ChangeImpact.Glob
