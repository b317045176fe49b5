import ControlCodegen.Decimal.Rounding

/-!
# `Decimal.Binary`: the exact value of a double

A double is a not-a-number, an infinity or an exact dyadic number `± significand · 2 ^ exponent`. `Binary64.ofFloat`
takes it apart, and `Binary64.nearest` finds the double nearest to a quotient of naturals, ties to the even significand.
-/

namespace ControlCodegen.Decimal

set_option autoImplicit false

/-- What a double denotes. -/
inductive Binary64 where
  | notANumber
  | infinite (negative : Bool)
  /-- The number `± significand · 2 ^ exponent`. -/
  | finite (negative : Bool) (significand : Nat) (exponent : Int)
  deriving DecidableEq, Repr

namespace Binary64

/-- Reads the fields of a 64-bit word: sign, eleven exponent bits, fifty-two fraction bits. -/
def ofBits (bits : Nat) : Binary64 :=
  let negative := decide (twoPow 63 ≤ bits)
  let biased : Nat := bits / twoPow 52 % twoPow 11
  let fraction : Nat := bits % twoPow 52
  if biased = 2047 then
    if fraction = 0 then .infinite negative else .notANumber
  else if biased = 0 then .finite negative fraction (-1074)
  else .finite negative (twoPow 52 + fraction) ((biased : Int) - 1075)

/-- The word of a value whose significand has at most 53 bits and whose exponent is in range. -/
def toBits : Binary64 → Nat
  | .notANumber => 2047 * twoPow 52 + twoPow 51
  | .infinite negative => negative.toNat * twoPow 63 + 2047 * twoPow 52
  | .finite negative significand exponent =>
    let magnitude :=
      if significand < twoPow 52 then significand
      else (exponent + 1075).toNat * twoPow 52 + (significand - twoPow 52)
    negative.toNat * twoPow 63 + magnitude

/-- The exact value of a double. -/
def ofFloat (v : Float) : Binary64 := ofBits v.toBits.toNat

def toFloat (b : Binary64) : Float := Float.ofBits (UInt64.ofNat b.toBits)

/-- The exponent `k` with `2 ^ k ≤ num / den < 2 ^ (k + 1)`, for positive arguments. -/
def floorLog2 (num den : Nat) : Int :=
  let k : Int := (num.log2 : Int) - (den.log2 : Int)
  if den * twoPow k.toNat ≤ num * twoPow (-k).toNat then k else k - 1

/-- The double nearest to `± num / den`; ties go to the even significand, and what is too large is infinite. -/
def nearest (negative : Bool) (num den : Nat) : Binary64 :=
  if num = 0 then .finite negative 0 (-1074)
  else
    let exponent := max (floorLog2 num den - 52) (-1074)
    let significand := roundDiv (num * twoPow (-exponent).toNat) (den * twoPow exponent.toNat)
    let (significand, exponent) :=
      if significand = twoPow 53 then (twoPow 52, exponent + 1) else (significand, exponent)
    if 971 < exponent then .infinite negative else .finite negative significand exponent

/-- The double nearest to `± coefficient · 10 ^ exponent`. Powers of ten far outside the range are not computed. -/
def nearestDecimal (negative : Bool) (coefficient : Nat) (exponent : Int) : Binary64 :=
  let lead := exponent + digitCount coefficient
  if coefficient = 0 ∨ lead < -330 then .finite negative 0 (-1074)
  else if 320 < lead then .infinite negative
  else nearest negative (coefficient * tenPow exponent.toNat) (tenPow (-exponent).toNat)

end Binary64

end ControlCodegen.Decimal
