/-!
Powers, and quotients rounded to the nearest integer, a half to the even one.
-/

namespace Ascent

namespace Power

/-- Powers of natural numbers as they are computed, whichever others are known where a definition
is read. -/
scoped instance (priority := 2000) ofNat : Pow Nat Nat := instPowNat

/-- Powers of integers as they are computed. -/
scoped instance (priority := 2000) ofInt : Pow Int Nat := instPowNat

end Power

/-- The quotient of natural numbers, rounded to the nearest one, a half to the even one. -/
def roundQuotient (num den : Nat) : Nat :=
  let whole := num / den
  let rest := num % den
  if 2 * rest < den ∨ (2 * rest = den ∧ whole % 2 = 0) then whole else whole + 1

/-- The quotient of an integer by a natural number, rounded to the nearest integer, a half to the
even one. -/
def roundSignedQuotient (num : Int) (den : Nat) : Int :=
  if num < 0 then -(roundQuotient num.natAbs den : Int) else (roundQuotient num.natAbs den : Int)

end Ascent
