/-
This file defines types with a fixed list of named values.
-/

namespace ChangeImpact

/-- A type whose values are listed once each and told apart by their names. -/
class Choice (α : Type) where
  all : List α
  name : α → String

namespace Choice

variable {α : Type} [Choice α]

def ofName? (text : String) : Option α :=
  all.find? fun choice => name choice == text

instance (priority := low) : ToString α := ⟨name⟩

end Choice

/-- A type whose values stand for rising levels. -/
class Graded (α : Type) where
  level : α → Nat

namespace Graded

variable {α : Type} [Graded α]

instance (priority := low) : LE α := ⟨fun left right => level left ≤ level right⟩

instance (priority := low) : LT α := ⟨fun left right => level left < level right⟩

instance (left right : α) : Decidable (left ≤ right) :=
  inferInstanceAs (Decidable (level left ≤ level right))

instance (left right : α) : Decidable (left < right) :=
  inferInstanceAs (Decidable (level left < level right))

end Graded

end ChangeImpact
