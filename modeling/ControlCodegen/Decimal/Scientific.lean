import ControlCodegen.Decimal.Binary

/-!
# `Decimal.Scientific`: decimal digits of a double

* `Scientific` : a decimal number `± d.ddd · 10 ^ exponent` with a stated number of digits.
* `rounded` : the exact value at a given number of significant digits, a half to the even digit.
* `shortest` : the fewest digits that read back as the same double, and of those the nearest to it.
-/

namespace ControlCodegen.Decimal

set_option autoImplicit false

/-- The decimal number `± coefficient · 10 ^ (exponent + 1 - count)`, written with `count` digits. -/
structure Scientific where
  negative : Bool
  coefficient : Nat
  count : Nat
  exponent : Int
  deriving DecidableEq, Repr

namespace Scientific

/-- A coefficient of `10 ^ count` has one digit too many: the last zero goes into the exponent. -/
def normalized (negative : Bool) (coefficient count : Nat) (exponent : Int) : Scientific :=
  if coefficient = tenPow count then ⟨negative, tenPow (count - 1), count, exponent + 1⟩
  else ⟨negative, coefficient, count, exponent⟩

/-- The positive quotient `num / den` at `count` significant digits. -/
def ofRatio (count : Nat) (negative : Bool) (num den : Nat) : Scientific :=
  let k := floorLog10 num den
  let (a, b) := scale10 num den ((count : Int) - 1 - k)
  normalized negative (roundDiv a b) count k

/-- The exact value `± significand · 2 ^ exponent` at `count` significant digits. -/
def rounded (count : Nat) (negative : Bool) (significand : Nat) (exponent : Int) : Scientific :=
  if significand = 0 then ⟨negative, 0, count, 0⟩
  else ofRatio count negative (significand * twoPow exponent.toNat) (twoPow (-exponent).toNat)

/-- The reals that round to one double, in quarters of its last place: the value lies at `4 · significand`. -/
structure Interval where
  value : Nat
  lower : Nat
  upper : Nat
  /-- Whether the ends round to the double as well. -/
  closed : Bool
  deriving DecidableEq, Repr

/-- Below a power of two the neighbour is only half as far; ties round to an even significand. -/
def interval (significand : Nat) (exponent : Int) : Interval where
  value := 4 * significand
  lower := if significand = twoPow 52 ∧ -1074 < exponent then 4 * significand - 1 else 4 * significand - 2
  upper := 4 * significand + 2
  closed := significand % 2 = 0

/-- The point with `count` digits that rounds to the double, if there is one; an exact tie goes to the larger. -/
def withDigits? (count : Nat) (negative : Bool) (i : Interval) (quarter : Int) : Option Scientific :=
  let num (n : Nat) := n * twoPow quarter.toNat
  let den := twoPow (-quarter).toNat
  let k := floorLog10 (num i.value) den
  let shift : Int := (count : Int) - 1 - k
  let (v, b) := scale10 (num i.value) den shift
  let lower := (scale10 (num i.lower) den shift).1
  let upper := (scale10 (num i.upper) den shift).1
  let below := v / b
  let above := below + 1
  let belowFits := if i.closed then lower ≤ below * b else lower < below * b
  let aboveFits := if i.closed then above * b ≤ upper else above * b < upper
  if v % b = 0 then some (normalized negative below count k)
  else if belowFits ∧ aboveFits then
    some (normalized negative (if v - below * b < above * b - v then below else above) count k)
  else if belowFits then some (normalized negative below count k)
  else if aboveFits then some (normalized negative above count k)
  else none

/-- The fewest digits that read back. Seventeen digits always do. -/
def shortest (negative : Bool) (significand : Nat) (exponent : Int) : Scientific :=
  if significand = 0 then ⟨negative, 0, 1, 0⟩
  else
    let i := interval significand exponent
    let found := (List.range 17).findSome? fun n => withDigits? (n + 1) negative i (exponent - 2)
    found.getD (rounded 17 negative significand exponent)

/-- The digits of the coefficient, with leading zeros up to `count`. -/
def digits (s : Scientific) : List Char :=
  let written := Nat.toDigits 10 s.coefficient
  List.replicate (s.count - written.length) '0' ++ written

/-- One digit, a point and the others if there are any, `e` and the exponent. -/
def exponential (s : Scientific) : String :=
  let sign := if s.negative then "-" else ""
  let mantissa := match s.digits with
    | [] => ""
    | [d] => String.ofList [d]
    | d :: ds => String.ofList (d :: '.' :: ds)
  s!"{sign}{mantissa}e{s.exponent}"

/-- The digits without an exponent, filled up with zeros on the side of the point. -/
def positional (s : Scientific) : String :=
  let sign := if s.negative then "-" else ""
  let ds := s.digits
  let body :=
    if s.exponent < 0 then
      "0." ++ String.ofList (List.replicate (-s.exponent - 1).toNat '0' ++ ds)
    else
      let whole := s.exponent.toNat + 1
      if ds.length ≤ whole then String.ofList (ds ++ List.replicate (whole - ds.length) '0')
      else String.ofList (ds.take whole ++ '.' :: ds.drop whole)
  sign ++ body

end Scientific

/-- Writes a double by its digits; a not-a-number is `NaN` and an infinity `inf` with its sign. -/
def write (finite : Bool → Nat → Int → String) (v : Float) : String :=
  match Binary64.ofFloat v with
  | .notANumber => "NaN"
  | .infinite negative => if negative then "-inf" else "inf"
  | .finite negative significand exponent => finite negative significand exponent

/-- The shortest digits with an exponent: `1.25e2`. -/
def exponential : Float → String := write fun n m e => (Scientific.shortest n m e).exponential

/-- The shortest digits without an exponent: `125`. -/
def plain : Float → String := write fun n m e => (Scientific.shortest n m e).positional

/-- Exactly `max count 1` significant digits with an exponent: `1.250e2`. -/
def literal (count : Nat) : Float → String := write fun n m e => (Scientific.rounded (max count 1) n m e).exponential

end ControlCodegen.Decimal
