/-
This file defines timestamps and moves them between offsets.
-/

import ChangeImpact.Timestamp.Date

namespace ChangeImpact

/-- A moment in universal time. The second `60` is a leap second. -/
structure Timestamp where
  date : Date
  hour : Fin 24
  minute : Fin 60
  second : Fin 61
  nanosecond : Fin 1000000000
deriving DecidableEq, Repr

namespace Timestamp

def epoch : Timestamp :=
  ⟨⟨1970, 1, 1, by decide⟩, 0, 0, 0, 0⟩

instance : Inhabited Timestamp := ⟨epoch⟩

/-- The day and the minute of that day, `offset` minutes before the given minute. -/
def moveBack? (date : Date) (minute offset : Int) : Option (Date × Int) :=
  let moved := minute - offset
  if moved < 0 then date.previous?.map (·, moved + 1440)
  else if 1440 ≤ moved then date.next?.map (·, moved - 1440)
  else some (date, moved)

/-- The moment at which clocks `offset` minutes ahead of universal time show the given time. The
offset is less than a day. -/
def ofLocal? (date : Date) (hour minute second nanosecond : Nat) (offset : Int) :
    Option Timestamp := do
  guard (-1440 < offset ∧ offset < 1440)
  if hour < 24 ∧ minute < 60 then
    let (date, moved) ← moveBack? date (60 * hour + minute : Nat) offset
    let hour := moved.toNat / 60
    let minute := moved.toNat % 60
    if inRange : hour < 24 ∧ minute < 60 ∧ second < 61 ∧ nanosecond < 1000000000 then
      some ⟨date, ⟨hour, inRange.1⟩, ⟨minute, inRange.2.1⟩, ⟨second, inRange.2.2.1⟩,
        ⟨nanosecond, inRange.2.2.2⟩⟩
    else none
  else none

end Timestamp

end ChangeImpact
