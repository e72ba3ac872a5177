/-
This file names the powers of two and of ten.
-/

namespace ChangeImpact.Decimal

def twoTo (exponent : Nat) : Nat :=
  Nat.pow 2 exponent

def tenTo (exponent : Nat) : Nat :=
  Nat.pow 10 exponent

end ChangeImpact.Decimal
