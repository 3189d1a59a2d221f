/-! # Rounded quotients

`nearestQuotient n d` is the integer nearest to `n / d`; a quotient that lies halfway
between two integers goes to the even one.
-/

namespace Troupe.Number

/-- The integer nearest to `n / d`, a half going to the even neighbour.
    Twice the remainder is compared with the divisor, so nothing is rounded before. -/
def nearestQuotient (n d : Nat) : Nat :=
  let floor := n / d
  let twice := 2 * (n % d)
  if twice < d then floor
  else if d < twice then floor + 1
  else if floor % 2 = 0 then floor
  else floor + 1

example : nearestQuotient 5 2 = 2 ∧ nearestQuotient 7 2 = 4 ∧ nearestQuotient 8 3 = 3 := by
  decide

end Troupe.Number
