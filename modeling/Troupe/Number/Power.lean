/-! # Powers of two and ten

The scales of binary and of decimal numbers.
-/

namespace Troupe.Number

def powerOfTwo (n : Nat) : Nat :=
  Nat.pow 2 n

def powerOfTen (n : Nat) : Nat :=
  Nat.pow 10 n

example : powerOfTwo 10 = 1024 ∧ powerOfTen 3 = 1000 := by decide

end Troupe.Number
