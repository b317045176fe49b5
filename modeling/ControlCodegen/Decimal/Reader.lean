import ControlCodegen.Decimal.Binary

/-!
# `Decimal.Reader`: decimal text as a double

`readFloat?` reads an optional sign and either digits with an optional fraction and exponent, or one of the words `inf`,
`infinity` and `nan` in any case. The value is the double nearest to the decimal.
-/

namespace ControlCodegen.Decimal

set_option autoImplicit false

/-- Whether a character is one of the ten ASCII digits. -/
def isDigit (c : Char) : Bool := '0' ≤ c && c ≤ '9'

def ofDigits (ds : List Char) : Nat := ds.foldl (fun n d => 10 * n + (d.toNat - '0'.toNat)) 0

def spanDigits (cs : List Char) : List Char × List Char := cs.span isDigit

/-- The exponent part: nothing, or `e`, an optional sign and digits. -/
def exponentPart? : List Char → Option Int
  | [] => some 0
  | c :: r =>
    if c = 'e' || c = 'E' then
      let (negative, ds) : Bool × List Char := match r with
        | '-' :: ds => (true, ds)
        | '+' :: ds => (false, ds)
        | ds => (false, ds)
      if ds.isEmpty || !ds.all isDigit then none
      else some (if negative then -(ofDigits ds : Int) else ofDigits ds)
    else none

/-- An unsigned decimal as coefficient and power of ten. At least one digit stands on a side of the point. -/
def unsigned? (cs : List Char) : Option (Nat × Int) :=
  let (whole, r) := spanDigits cs
  let (fraction, r) := match r with
    | '.' :: r => spanDigits r
    | r => ([], r)
  if whole.isEmpty && fraction.isEmpty then none
  else (exponentPart? r).map fun e => (ofDigits (whole ++ fraction), e - fraction.length)

/-- The double that an ASCII text denotes. -/
def readFloat? (s : String) : Option Float :=
  let (negative, cs) : Bool × List Char := match s.toList with
    | '-' :: cs => (true, cs)
    | '+' :: cs => (false, cs)
    | cs => (false, cs)
  let word := String.ofList (cs.map Char.toLower)
  if word = "inf" || word = "infinity" then some (Binary64.infinite negative).toFloat
  else if word = "nan" then some Binary64.notANumber.toFloat
  else (unsigned? cs).map fun (coefficient, e) => (Binary64.nearestDecimal negative coefficient e).toFloat

end ControlCodegen.Decimal
