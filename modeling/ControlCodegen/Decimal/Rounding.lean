import ControlCodegen.Decimal.Power

/-!
# `Decimal.Rounding`: rounding of exact quotients

`roundDiv num den` : the integer nearest to `num / den`, of two equally near ones the even one.
`floorLog10 num den` : the exponent of the leading decimal digit of `num / den`.
-/

namespace ControlCodegen.Decimal

set_option autoImplicit false

/-- The integer nearest to `num / den`; a half goes to the even neighbour. -/
def roundDiv (num den : Nat) : Nat :=
  let q := num / den
  let r := num % den
  if 2 * r < den then q
  else if den < 2 * r then q + 1
  else q + q % 2

/-- The number of decimal digits, one for zero. -/
def digitCount (n : Nat) : Nat :=
  if n < 10 then 1 else 1 + digitCount (n / 10)
termination_by n
decreasing_by omega

/-- `num / den` times a power of ten, as a pair of numerator and denominator. -/
def scale10 (num den : Nat) (shift : Int) : Nat × Nat :=
  (num * tenPow shift.toNat, den * tenPow (-shift).toNat)

/-- The exponent `k` with `10 ^ k ≤ num / den < 10 ^ (k + 1)`, for positive arguments. -/
def floorLog10 (num den : Nat) : Int :=
  let k : Int := (digitCount num : Int) - (digitCount den : Int)
  let (a, b) := scale10 num den (-k)
  if b ≤ a then k else k - 1

end ControlCodegen.Decimal
