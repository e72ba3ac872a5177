/-
This file shows that JSON tokens are read back from their characters.
-/

import ChangeImpact.Json.Token
import ChangeImpact.Proofs.Decimal.Digits
import ChangeImpact.Proofs.Json.Quoted
import Mathlib.Algebra.BigOperators.Group.List.Basic
import Mathlib.Data.List.Chain

namespace ChangeImpact.Json.Token

/-- No number goes on with the given characters: they start with a mark, if at all. -/
def EndsNumber (characters : List Char) : Prop :=
  ∀ first rest, characters = first :: rest → isMark first

theorem mem_of_isMark {character : Char} (mark : isMark character) :
    character ∈ ['{', '}', '[', ']', ':', ','] := by
  simpa [isMark] using mark

theorem isDigit_eq_false_of_isMark {character : Char} (mark : isMark character) :
    character.isDigit = false := by
  have all : ['{', '}', '[', ']', ':', ','].all fun mark => !mark.isDigit := by decide
  simpa using List.all_eq_true.mp all character (mem_of_isMark mark)

section Digits

variable {digits rest : List Char}

/-- A run of digits is read up to the first character that is no digit. -/
theorem digits?_append (sound : ∀ digit ∈ digits, digit.isDigit) (nonempty : digits ≠ [])
    (ended : ∀ first rest', rest = first :: rest' → first.isDigit = false) :
    digits? (digits ++ rest) = some (digits, rest) := by
  have taken : rest.takeWhile Char.isDigit = [] := by
    cases rest with
    | nil => rfl
    | cons first rest => simp [ended first rest rfl]
  have dropped : rest.dropWhile Char.isDigit = rest := by
    cases rest with
    | nil => rfl
    | cons first rest => simp [ended first rest rfl]
  simp [digits?, List.takeWhile_append_of_pos sound, List.dropWhile_append_of_pos sound, taken,
    dropped, nonempty]

end Digits

section Number

variable {numeral : Decimal.Numeral} {rest : List Char}

/-- The part of a numeral after the digits before the point. -/
def fractionCharacters (numeral : Decimal.Numeral) : List Char :=
  if numeral.fraction.isEmpty then [] else '.' :: numeral.fraction

def exponentCharacters (numeral : Decimal.Numeral) : List Char :=
  (numeral.exponent.map (Decimal.Numeral.exponentText "+")).getD []

theorem exponentDigits?_append (negative : Bool) (size : Nat) (ended : EndsNumber rest) :
    exponentDigits? negative (Nat.toDigits 10 size ++ rest) =
      some (some (if negative then -(size : Int) else size), rest) := by
  have read : digits? (Nat.toDigits 10 size ++ rest) = some (Nat.toDigits 10 size, rest) :=
    digits?_append (fun _ => Decimal.Numeral.isDigit_of_mem_toDigits) Nat.toDigits_ne_nil
      fun first rest' starts => isDigit_eq_false_of_isMark (ended first rest' starts)
  simp [exponentDigits?, read]

theorem exponent?_append (ended : EndsNumber rest) :
    exponent? (exponentCharacters numeral ++ rest) = some (numeral.exponent, rest) := by
  unfold exponentCharacters
  cases numeral.exponent with
  | none =>
      cases rest with
      | nil => rfl
      | cons first rest =>
          have mark := mem_of_isMark (ended first rest rfl)
          change exponent? (first :: rest) = some (none, first :: rest)
          rw [exponent?]
          all_goals
            rintro rest' ⟨rfl, rfl⟩
            simp at mark
  | some exponent =>
      by_cases negative : exponent < 0
      all_goals
        obtain ⟨size, named⟩ : ∃ size, exponent.natAbs = size := ⟨_, rfl⟩
        simp [Decimal.Numeral.exponentText, negative, exponent?, signedExponent?,
          exponentDigits?_append, ended, named]
        omega

theorem eq_or_isMark_of_exponentCharacters (ended : EndsNumber rest) {first : Char}
    {rest' : List Char} (starts : exponentCharacters numeral ++ rest = first :: rest') :
    first = 'e' ∨ isMark first := by
  unfold exponentCharacters at starts
  cases power : numeral.exponent with
  | none => exact .inr (ended first rest' (by simpa [power] using starts))
  | some exponent =>
      simp only [power, Option.map_some, Option.getD_some, Decimal.Numeral.exponentText,
        List.cons_append, List.cons.injEq] at starts
      exact .inl starts.1.symm

theorem fraction?_append (sound : numeral.IsSound) (ended : EndsNumber rest) :
    fraction? (fractionCharacters numeral ++ (exponentCharacters numeral ++ rest)) =
      some (numeral.fraction, exponentCharacters numeral ++ rest) := by
  have starts := @eq_or_isMark_of_exponentCharacters numeral rest ended
  unfold fractionCharacters
  cases fraction : numeral.fraction with
  | nil =>
      simp only [List.isEmpty_nil, if_true, List.nil_append]
      generalize exponentCharacters numeral ++ rest = after at starts
      rw [fraction?]
      rintro rest' rfl
      simpa [isMark] using starts rfl
  | cons first digits =>
      simp only [List.isEmpty_cons, Bool.false_eq_true, if_false, List.cons_append, fraction?]
      rw [← List.cons_append, ← fraction]
      refine digits?_append sound.fractionDigits (by simp [fraction]) fun first rest' after => ?_
      rcases starts after with rfl | mark
      · decide
      · exact isDigit_eq_false_of_isMark mark

theorem whole?_append (sound : numeral.IsSound)
    (ended : ∀ first rest', rest = first :: rest' → first.isDigit = false) :
    whole? (numeral.whole ++ rest) = some (numeral.whole, rest) := by
  rcases sound.whole with zero | ⟨first, digits, whole, nonzero⟩
  · rw [zero]
    rfl
  · have read := digits?_append sound.wholeDigits (by simp [whole]) ended
    rw [whole] at read ⊢
    rw [List.cons_append] at read ⊢
    rw [whole?, read]
    simp [nonzero]

theorem unsigned?_append (sound : numeral.IsSound) (ended : EndsNumber rest) :
    unsigned? numeral.negative (numeral.whole ++ (fractionCharacters numeral ++
      (exponentCharacters numeral ++ rest))) = some (.number numeral, rest) := by
  have afterWhole : ∀ first rest', fractionCharacters numeral ++
      (exponentCharacters numeral ++ rest) = first :: rest' → first.isDigit = false := by
    intro first rest' starts
    by_cases plain : numeral.fraction.isEmpty
    · simp only [fractionCharacters, plain, if_true, List.nil_append] at starts
      rcases eq_or_isMark_of_exponentCharacters ended starts with rfl | mark
      · decide
      · exact isDigit_eq_false_of_isMark mark
    · simp only [fractionCharacters, plain, Bool.false_eq_true, if_false, List.cons_append,
        List.cons.injEq] at starts
      rw [← starts.1]
      decide
  simp [unsigned?, whole?_append sound afterWhole, fraction?_append sound ended,
    exponent?_append ended]

end Number

/-- What a token needs to be read back: marks are marks, texts are there and numerals are sound. -/
def IsSound : Token → Prop
  | .mark character => isMark character
  | .string text => text.isSome
  | .number numeral => numeral.IsSound
  | .null => True
  | .bool _ => True

theorem first?_of_isDigit {first : Char} (digit : first.isDigit) (rest : List Char) :
    first? (first :: rest) = unsigned? false (first :: rest) := by
  have notMark : isMark first = false :=
    Bool.eq_false_iff.mpr fun mark => by simp [isDigit_eq_false_of_isMark mark] at digit
  rw [first?, notMark]
  · rfl
  all_goals
    intros
    subst first
    revert digit
    decide

theorem first?_number {numeral : Decimal.Numeral} {rest : List Char} (sound : numeral.IsSound)
    (ended : EndsNumber rest) :
    first? (numeral.characters "+" ++ rest) = some (.number numeral, rest) := by
  have read := unsigned?_append sound ended
  have spelled : numeral.characters "+" ++ rest = (if numeral.negative then ['-'] else []) ++
      (numeral.whole ++ (fractionCharacters numeral ++ (exponentCharacters numeral ++ rest))) := by
    simp [Decimal.Numeral.characters, fractionCharacters, exponentCharacters]
  rw [spelled]
  cases negative : numeral.negative with
  | true => simpa [negative, first?] using read
  | false =>
      obtain ⟨first, digits, whole, digit⟩ :
          ∃ first digits, numeral.whole = first :: digits ∧ first.isDigit := by
        rcases sound.whole with zero | ⟨first, digits, whole, -⟩
        · exact ⟨'0', [], zero, by decide⟩
        · exact ⟨first, digits, whole, sound.wholeDigits first (by simp [whole])⟩
      rw [negative, whole] at read
      simp only [Bool.false_eq_true, if_false, List.nil_append, whole, List.cons_append] at read ⊢
      rw [first?_of_isDigit digit, read]

/-- A sound token is read back, whatever follows it unless it is a number. -/
theorem first?_characters {token : Token} {rest : List Char} (sound : token.IsSound)
    (ended : ∀ numeral, token = .number numeral → EndsNumber rest) :
    first? (token.characters ++ rest) = some (token, rest) := by
  cases token with
  | mark character =>
      have all : ∀ mark ∈ ['{', '}', '[', ']', ':', ','],
          first? (mark :: rest) = some (.mark mark, rest) := by simp [first?, isMark]
      exact all character (mem_of_isMark sound)
  | string text =>
      obtain ⟨text, rfl⟩ := Option.isSome_iff_exists.mp sound
      simp [characters, first?, Quoted.points?_close_append, Quoted.join?_map_toNat]
  | number numeral => exact first?_number sound (ended numeral rfl)
  | null => rfl
  | bool value => cases value <;> rfl

/-- No token starts with a blank. -/
theorem exists_characters_eq_cons {token : Token} (sound : token.IsSound) :
    ∃ first rest, token.characters = first :: rest ∧ isBlank first = false := by
  cases token with
  | mark character =>
      have all : ['{', '}', '[', ']', ':', ','].all fun mark => !isBlank mark := by decide
      exact ⟨character, [], rfl,
        by simpa using List.all_eq_true.mp all character (mem_of_isMark sound)⟩
  | string text => exact ⟨'"', _, rfl, by decide⟩
  | number numeral =>
      obtain ⟨first, rest, whole, digit⟩ := sound.exists_whole_eq_cons
      cases negative : numeral.negative with
      | true => exact ⟨'-', _, by simp [characters, Decimal.Numeral.characters, negative]; rfl,
          by decide⟩
      | false =>
          refine ⟨first, _, by
            simp [characters, Decimal.Numeral.characters, negative, whole]; rfl, ?_⟩
          refine Bool.eq_false_iff.mpr fun blank => ?_
          simp only [isBlank, Bool.or_eq_true, beq_iff_eq] at blank
          rcases blank with ((rfl | rfl) | rfl) | rfl <;> revert digit <;> decide
  | null => exact ⟨'n', _, rfl, by decide⟩
  | bool value => cases value <;> exact ⟨_, _, rfl, by decide⟩

/-- Whether a token is a mark. -/
def marks : Token → Bool
  | .mark _ => true
  | _ => false

/-- Of two neighbours one is a mark, so that a number ends where its token does. -/
def Separated (tokens : List Token) : Prop :=
  tokens.IsChain fun left right => left.marks ∨ right.marks

/-- In a separated list the characters after a number end it. -/
theorem endsNumber_flatMap {numeral : Decimal.Numeral} {rest : List Token}
    (sound : ∀ token ∈ rest, token.IsSound) (separated : Separated (.number numeral :: rest)) :
    EndsNumber (rest.flatMap characters) := by
  cases rest with
  | nil => simp [EndsNumber]
  | cons next rest =>
      have nextMarks : next.marks := by
        simpa [marks] using (List.isChain_cons_cons.mp separated).1
      cases next with
      | mark character =>
          intro first rest' starts
          simp only [List.flatMap_cons, characters, List.cons_append, List.cons.injEq] at starts
          exact starts.1 ▸ sound _ List.mem_cons_self
      | _ => cases nextMarks

theorem tokensWithin_characters {tokens : List Token} {steps : Nat}
    (sound : ∀ token ∈ tokens, token.IsSound) (separated : Separated tokens)
    (enough : tokens.length < steps) :
    tokensWithin steps (tokens.flatMap characters) = some tokens := by
  induction tokens generalizing steps with
  | nil =>
      obtain ⟨steps, rfl⟩ := Nat.exists_eq_add_one.mpr enough
      rfl
  | cons token rest ih =>
      obtain ⟨steps, rfl⟩ := Nat.exists_eq_add_one.mpr (Nat.zero_lt_of_lt enough)
      obtain ⟨tokenSound, restSound⟩ := List.forall_mem_cons.mp sound
      obtain ⟨first, after, starts, visible⟩ := exists_characters_eq_cons tokenSound
      have ended : ∀ numeral, token = .number numeral → EndsNumber (rest.flatMap characters) := by
        rintro numeral rfl
        exact endsNumber_flatMap restSound separated
      have read := first?_characters tokenSound ended
      have later := ih restSound separated.tail (Nat.lt_of_succ_lt_succ enough)
      rw [List.flatMap_cons, starts, List.cons_append] at *
      simp [tokensWithin, visible, read, later]

/-- Sound tokens are read back from their characters. -/
theorem ofText?_characters {tokens : List Token} (sound : ∀ token ∈ tokens, token.IsSound)
    (separated : Separated tokens) : ofText? (tokens.flatMap characters) = some tokens := by
  have long : ∀ length ∈ tokens.map fun token => token.characters.length, 1 ≤ length := by
    intro length member
    obtain ⟨token, tokenMember, rfl⟩ := List.mem_map.mp member
    obtain ⟨first, rest, starts, -⟩ := exists_characters_eq_cons (sound token tokenMember)
    simp [starts]
  refine tokensWithin_characters sound separated (Nat.lt_succ_of_le ?_)
  simpa [List.length_flatMap] using List.length_le_sum_of_one_le _ long

end ChangeImpact.Json.Token
