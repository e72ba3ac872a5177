/-
This file shows that JSON values are read back from their text.
-/

import ChangeImpact.Json.Text
import ChangeImpact.Proofs.Json.Token

namespace ChangeImpact.Json

/-- Every string of a value denotes a text, and every numeral is one of JSON. -/
inductive IsSound : Json → Prop where
  | null : IsSound .null
  | bool (value : Bool) : IsSound (.bool value)
  | number {numeral : Decimal.Numeral} (sound : numeral.IsSound) : IsSound (.number numeral)
  | text (value : String) : IsSound (.text value)
  | array {items : List Json} (sound : ∀ item ∈ items, IsSound item) : IsSound (.array items)
  | object {members : List (Option String × Json)} (named : ∀ member ∈ members, member.1.isSome)
      (sound : ∀ member ∈ members, IsSound member.2) : IsSound (.object members)

section Tokens

/-- Separated tokens of which the first, if there is one, is a mark. -/
def Bounded (tokens : List Token) : Prop :=
  Token.Separated tokens ∧ ∀ first rest, tokens = first :: rest → first.marks

variable {items : List Json} {members : List (Option String × Json)} {rest : List Token}

theorem Bounded.cons (bounded : Bounded rest) (token : Token) :
    Token.Separated (token :: rest) := by
  cases rest with
  | nil => exact .singleton token
  | cons next rest =>
      exact List.isChain_cons_cons.mpr ⟨.inr (bounded.2 next rest rfl), bounded.1⟩

theorem bounded_mark_cons (character : Char) (separated : Token.Separated rest) :
    Bounded (.mark character :: rest) := by
  refine ⟨?_, by simp [Token.marks]⟩
  cases rest with
  | nil => exact .singleton _
  | cons next rest => exact List.isChain_cons_cons.mpr ⟨.inl rfl, separated⟩

theorem separated_itemTokens_append
    (separated : ∀ item ∈ items, ∀ rest, Bounded rest → Token.Separated (item.tokens ++ rest))
    (bounded : Bounded rest) : Token.Separated (itemTokens items ++ rest) := by
  induction items with
  | nil => exact bounded.1
  | cons item items ih =>
      obtain ⟨first, later⟩ := List.forall_mem_cons.mp separated
      cases items with
      | nil => exact first rest bounded
      | cons next items =>
          simpa [itemTokens] using first _ (bounded_mark_cons ',' (ih later))

theorem separated_memberTokens_append
    (separated : ∀ member ∈ members, ∀ rest, Bounded rest →
      Token.Separated (member.2.tokens ++ rest))
    (bounded : Bounded rest) : Token.Separated (memberTokens members ++ rest) := by
  induction members with
  | nil => exact bounded.1
  | cons member members ih =>
      obtain ⟨first, later⟩ := List.forall_mem_cons.mp separated
      have named : ∀ rest, Bounded rest → Token.Separated
          (.string member.1 :: .mark ':' :: (member.2.tokens ++ rest)) := fun rest bounded =>
        (bounded_mark_cons ':' (first rest bounded)).cons _
      cases members with
      | nil => exact named rest bounded
      | cons next members =>
          simpa [memberTokens] using named _ (bounded_mark_cons ',' (ih later))

/-- The tokens of a value can stand before tokens that start with a mark. -/
theorem separated_tokens_append {value : Json} (sound : value.IsSound) (bounded : Bounded rest) :
    Token.Separated (value.tokens ++ rest) := by
  induction sound generalizing rest with
  | null => exact bounded.cons _
  | bool => exact bounded.cons _
  | number => exact bounded.cons _
  | text => exact bounded.cons _
  | array _ ih =>
      have inner := separated_itemTokens_append (fun item member _ => ih item member)
        (bounded_mark_cons ']' bounded.1)
      simpa [tokens] using (bounded_mark_cons '[' inner).1
  | object _ _ ih =>
      have inner := separated_memberTokens_append (fun item member _ => ih item member)
        (bounded_mark_cons '}' bounded.1)
      simpa [tokens] using (bounded_mark_cons '{' inner).1

theorem mem_itemTokens {token : Token} (found : token ∈ itemTokens items) :
    token = .mark ',' ∨ ∃ item ∈ items, token ∈ item.tokens := by
  induction items with
  | nil => simp [itemTokens] at found
  | cons item items ih =>
      cases items <;> simp only [itemTokens, List.mem_append, List.mem_cons] at found <;> grind

theorem mem_memberTokens {token : Token} (found : token ∈ memberTokens members) :
    token = .mark ',' ∨ token = .mark ':' ∨
      ∃ member ∈ members, token = .string member.1 ∨ token ∈ member.2.tokens := by
  induction members with
  | nil => simp [memberTokens] at found
  | cons member members ih =>
      cases members <;> simp only [memberTokens, List.mem_append, List.mem_cons] at found <;> grind

theorem isSound_of_mem_tokens {value : Json} (sound : value.IsSound) {token : Token}
    (found : token ∈ value.tokens) : token.IsSound := by
  induction sound with
  | null => simp_all [tokens, Token.IsSound]
  | bool => simp_all [tokens, Token.IsSound]
  | number => simp_all [tokens, Token.IsSound]
  | text => simp_all [text, tokens, Token.IsSound]
  | array _ ih =>
      simp only [tokens, List.cons_append, List.mem_cons, List.mem_append, List.not_mem_nil,
        or_false] at found
      rcases found with rfl | inner | rfl
      · rfl
      · rcases mem_itemTokens inner with rfl | ⟨item, member, inner⟩
        · rfl
        · exact ih item member inner
      · rfl
  | object named _ ih =>
      simp only [tokens, List.cons_append, List.mem_cons, List.mem_append, List.not_mem_nil,
        or_false] at found
      rcases found with rfl | inner | rfl
      · rfl
      · rcases mem_memberTokens inner with rfl | rfl | ⟨member, inside, rfl | inner⟩
        · rfl
        · rfl
        · exact named member inside
        · exact ih member inside inner
      · rfl

end Tokens

section Values

variable {rest : List Token} {steps : Nat}

theorem items?_append {items : List Json} (nonempty : items ≠ [])
    (read : ∀ item ∈ items, ∀ steps rest, item.tokens.length ≤ steps →
      value? steps (item.tokens ++ rest) = some (item, rest))
    (enough : (itemTokens items).length < steps) :
    items? steps (itemTokens items ++ .mark ']' :: rest) = some (items, rest) := by
  induction items generalizing steps with
  | nil => exact absurd rfl nonempty
  | cons item items ih =>
      obtain ⟨steps, rfl⟩ := Nat.exists_eq_add_one.mpr (Nat.zero_lt_of_lt enough)
      obtain ⟨first, later⟩ := List.forall_mem_cons.mp read
      cases items with
      | nil =>
          simp only [itemTokens] at enough ⊢
          simp [items?, first steps _ (Nat.le_of_lt_succ enough)]
      | cons next items =>
          simp only [itemTokens, List.length_append, List.length_cons] at enough
          have here := first steps
            (.mark ',' :: (itemTokens (next :: items) ++ .mark ']' :: rest)) (by omega)
          have there := @ih steps (by simp) later (by omega)
          simp [itemTokens, items?, here, there]

theorem members?_append {members : List (Option String × Json)} (nonempty : members ≠ [])
    (read : ∀ member ∈ members, ∀ steps rest, member.2.tokens.length ≤ steps →
      value? steps (member.2.tokens ++ rest) = some (member.2, rest))
    (enough : (memberTokens members).length ≤ steps) :
    members? steps (memberTokens members ++ .mark '}' :: rest) = some (members, rest) := by
  induction members generalizing steps with
  | nil => exact absurd rfl nonempty
  | cons member members ih =>
      obtain ⟨first, later⟩ := List.forall_mem_cons.mp read
      cases members with
      | nil =>
          simp only [memberTokens, List.length_cons] at enough ⊢
          obtain ⟨steps, rfl⟩ := Nat.exists_eq_add_one.mpr (Nat.zero_lt_of_lt enough)
          simp [members?, first steps _ (by omega)]
      | cons next members =>
          simp only [memberTokens, List.length_append, List.length_cons] at enough
          obtain ⟨steps, rfl⟩ := Nat.exists_eq_add_one.mpr (Nat.zero_lt_of_lt enough)
          have here := first steps
            (.mark ',' :: (memberTokens (next :: members) ++ .mark '}' :: rest)) (by omega)
          have there := @ih steps (by simp) later (by omega)
          simp [memberTokens, members?, here, there]

/-- Neither a value nor a list of them starts with the mark that ends a list. -/
theorem exists_tokens_eq_cons (value : Json) :
    ∃ first rest, value.tokens = first :: rest ∧ first ≠ .mark ']' := by
  cases value <;> exact ⟨_, _, rfl, by simp⟩

theorem exists_itemTokens_eq_cons (item : Json) (items : List Json) :
    ∃ first rest, itemTokens (item :: items) = first :: rest ∧ first ≠ .mark ']' := by
  obtain ⟨first, rest, starts, other⟩ := exists_tokens_eq_cons item
  cases items with
  | nil => exact ⟨first, rest, starts, other⟩
  | cons next items => exact ⟨first, _, by rw [itemTokens, starts, List.cons_append], other⟩

theorem exists_memberTokens_eq_cons (member : Option String × Json)
    (members : List (Option String × Json)) :
    ∃ rest, memberTokens (member :: members) = .string member.1 :: rest := by
  cases members <;> exact ⟨_, rfl⟩

/-- As many steps as there are tokens are enough to read a value. -/
theorem value?_tokens_append {value : Json} (sound : value.IsSound)
    (enough : value.tokens.length ≤ steps) :
    value? steps (value.tokens ++ rest) = some (value, rest) := by
  induction sound generalizing steps rest with
  | null =>
      obtain ⟨steps, rfl⟩ := Nat.exists_eq_add_one.mpr enough
      simp [tokens, value?]
  | bool =>
      obtain ⟨steps, rfl⟩ := Nat.exists_eq_add_one.mpr enough
      simp [tokens, value?]
  | number =>
      obtain ⟨steps, rfl⟩ := Nat.exists_eq_add_one.mpr enough
      simp [tokens, value?]
  | text =>
      obtain ⟨steps, rfl⟩ := Nat.exists_eq_add_one.mpr enough
      simp [text, tokens, value?]
  | @array items _ ih =>
      obtain ⟨steps, rfl⟩ : ∃ fewer, steps = fewer + 1 :=
        Nat.exists_eq_add_one.mpr (Nat.zero_lt_of_lt enough)
      cases items with
      | nil => simp [tokens, itemTokens, value?]
      | cons item items =>
          simp only [tokens, List.length_append, List.length_cons, List.length_nil] at enough
          have read := @items?_append rest steps (item :: items) (by simp)
            (fun item member _ _ enough => ih item member enough) (by omega)
          obtain ⟨first, after, starts, other⟩ := exists_itemTokens_eq_cons item items
          simp only [tokens, List.cons_append, List.append_assoc, List.nil_append]
          rw [starts, List.cons_append] at read ⊢
          simp [value?, other, read]
  | @object members _ _ ih =>
      obtain ⟨steps, rfl⟩ : ∃ fewer, steps = fewer + 1 :=
        Nat.exists_eq_add_one.mpr (Nat.zero_lt_of_lt enough)
      cases members with
      | nil => simp [tokens, memberTokens, value?]
      | cons member members =>
          simp only [tokens, List.length_append, List.length_cons, List.length_nil] at enough
          have read := @members?_append rest steps (member :: members) (by simp)
            (fun member inside _ _ enough => ih member inside enough) (by omega)
          obtain ⟨after, starts⟩ := exists_memberTokens_eq_cons member members
          simp only [tokens, List.cons_append, List.append_assoc, List.nil_append]
          rw [starts, List.cons_append] at read ⊢
          simp [value?, read]

end Values

/-- A sound value is read back from the text that it is printed as. -/
theorem parse?_print {value : Json} (sound : value.IsSound) : parse? value.print = some value := by
  have read : value? (2 * value.tokens.length + 1) (value.tokens ++ []) = some (value, []) :=
    value?_tokens_append sound (by omega)
  have cut := Token.ofText?_characters (fun _ => isSound_of_mem_tokens sound)
    (List.append_nil value.tokens ▸ separated_tokens_append sound ⟨.nil, by simp⟩)
  rw [List.append_nil] at read
  simp [parse?, print, cut, ofTokens?, read]

end ChangeImpact.Json
