import ControlCodegen.Decimal.Reader
import ControlCodegen.Document.Data
import ControlCodegen.Document.Toml.Token
import ControlCodegen.Time.Moment

/-!
# `Document.Toml.Number`: numbers, dates and times

* `number` : a whole number of 64 bits with a sign, in base ten, sixteen, eight or two, or the double nearest to a
  decimal. A decimal above all doubles is refused, one below them all counts as minus infinity.
* `moment` : a date of the calendar, a time of the day, or both with an offset.
-/

namespace ControlCodegen.Document.Toml

open Text

set_option autoImplicit false

/-! ## Numbers -/

/-- One digit or more; a single underscore may stand between two of them. -/
def grouped (base : Nat) : Reader (List Char) := do
  let first ← Reader.satisfy (isDigitOf base)
  let rest ← Reader.many ((do Reader.char '_'; Reader.satisfy (isDigitOf base)) <|> Reader.satisfy (isDigitOf base))
  return first :: rest

/-- The digits of a whole part: a zero stands alone. -/
def wholePart : Reader (List Char) := do
  let ds ← grouped 10
  if ds.head? = some '0' ∧ ds ≠ ['0'] then failure else return ds

/-- An optional sign: whether it is a minus. -/
def sign : Reader Bool := do
  let c ← Reader.optional (Reader.satisfy fun c => c = '+' || c = '-')
  return c = some '-'

/-- Whether a whole number fits 64 bits with a sign. -/
def fits (n : Int) : Bool := -9223372036854775808 ≤ n && n < 9223372036854775808

/-- A whole number of 64 bits. -/
def wholeOf (n : Int) : Reader Data := if fits n then return .whole n else failure

def decimal : Reader Data := do
  let negative ← sign
  let n := ofDigits 10 (← wholePart)
  wholeOf (if negative then -(n : Int) else n)

def based (mark : Char) (base : Nat) : Reader Data := do
  Reader.literal ['0', mark]
  wholeOf (ofDigits base (← grouped base))

def exponent : Reader Int := do
  let _ ← Reader.satisfy fun c => c = 'e' || c = 'E'
  let negative ← sign
  let n := ofDigits 10 (← grouped 10)
  return if negative then -(n : Int) else n

/-- A decimal with a fraction or an exponent. -/
def real : Reader Data := do
  let negative ← sign
  let whole ← wholePart
  let fraction ← Reader.optional (do Reader.char '.'; grouped 10)
  let power ← Reader.optional exponent
  if fraction.isNone ∧ power.isNone then failure
  else
    let fraction := fraction.getD []
    let value := Decimal.Binary64.nearestDecimal negative (ofDigits 10 (whole ++ fraction))
      (power.getD 0 - fraction.length)
    if value = .infinite false then failure else return .real value.toFloat

/-- An infinity, or what is not a number. -/
def special : Reader Data := do
  let negative ← sign
  (do Reader.literal ['i', 'n', 'f']; return .real (Decimal.Binary64.infinite negative).toFloat) <|>
    (do Reader.literal ['n', 'a', 'n']; return .real Decimal.Binary64.notANumber.toFloat)

def number : Reader Data := real <|> special <|> based 'x' 16 <|> based 'o' 8 <|> based 'b' 2 <|> decimal

/-! ## Dates and times -/

/-- A number of so many digits, within bounds. -/
def within (digits low high : Nat) : Reader Nat := do
  let n := ofDigits 10 (← Reader.exactly digits (isDigitOf 10))
  if low ≤ n ∧ n ≤ high then return n else failure

def date : Reader Unit := do
  let year ← within 4 0 9999
  Reader.char '-'
  let month ← within 2 1 12
  Reader.char '-'
  let day ← within 2 1 31
  if Date.isValid ⟨year, month, day⟩ then pure () else failure

/-- A time of the day; the last minute may have a leap second. -/
def time : Reader Unit := do
  let _ ← within 2 0 23
  Reader.char ':'
  let _ ← within 2 0 59
  Reader.char ':'
  let _ ← within 2 0 60
  let _ ← Reader.optional do
    Reader.char '.'
    let _ ← Reader.satisfy (isDigitOf 10)
    Reader.takeWhile (isDigitOf 10)

/-- The distance of a time from that of the prime meridian. -/
def offset : Reader Unit :=
  (do let _ ← Reader.satisfy fun c => c = 'Z' || c = 'z') <|> do
    let _ ← Reader.satisfy fun c => c = '+' || c = '-'
    let _ ← within 2 0 23
    Reader.char ':'
    let _ ← within 2 0 59

def timeOfDate : Reader Unit := do
  let _ ← Reader.satisfy fun c => c = 'T' || c = 't' || c = ' '
  time
  let _ ← Reader.optional offset

/-- A date, a time or both. -/
def moment : Reader Data := do
  let cs ← Reader.taken ((do date; let _ ← Reader.optional timeOfDate) <|> time)
  return .moment (String.ofList cs)

end ControlCodegen.Document.Toml
