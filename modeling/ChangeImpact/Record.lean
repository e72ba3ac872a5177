/-
This file defines records: named fields whose values are still to be read.
-/

namespace ChangeImpact

/-- The first value of a name is the value of the field. -/
structure Record (ν : Type) where
  fields : List (String × ν)

namespace Record

variable {ν α : Type}

/-- Whether a field of one of the names occurs twice. -/
def repeats (names : List String) : List (String × ν) → Bool
  | [] => false
  | (name, _) :: rest =>
    (names.contains name && rest.any fun field => field.1 == name) || repeats names rest

/-- Fields of other names are ignored, but those of the given names occur at most once. -/
def ofFields? (names : List String) (fields : List (String × ν)) : Option (Record ν) :=
  if repeats names fields then none else some ⟨fields⟩

def get? (record : Record ν) (name : String) : Option ν :=
  record.fields.lookup name

def required (record : Record ν) (name : String) (field? : ν → Option α) : Option α := do
  field? (← record.get? name)

def withDefault (record : Record ν) (name : String) (default : α) (field? : ν → Option α) :
    Option α :=
  match record.get? name with
  | none => some default
  | some value => field? value

end Record

end ChangeImpact
