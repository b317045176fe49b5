import ControlCodegen.Decimal.Reader
import ControlCodegen.Text.Blank
import ControlCodegen.Text.Reader

/-!
# `Time.Moment`: moments in universal time

* `Date` : a date of the proleptic Gregorian calendar; `Date.toDays` and `Date.ofDays` count its days from 1970-01-01.
* `Moment.stamp` : the notation of RFC 3339 in universal time, with as many digits of the second as are needed.
* `Moment.parse?` : reads that notation with any offset. Blanks are allowed around the parts, a blank or a small letter
  may stand for the `T`, and a second numbered 60 is a leap second.
-/

namespace ControlCodegen

open Text

set_option autoImplicit false

/-- A date of the Gregorian calendar. -/
structure Date where
  year : Int
  month : Nat
  day : Nat
  deriving DecidableEq, Repr

namespace Date

/-- Whether a year has a 29th of February. -/
def isLeap (year : Int) : Bool := year % 4 = 0 && (year % 100 ≠ 0 || year % 400 = 0)

def daysIn (year : Int) (month : Nat) : Nat :=
  if month = 2 then if isLeap year then 29 else 28
  else if month = 4 ∨ month = 6 ∨ month = 9 ∨ month = 11 then 30 else 31

def isValid (d : Date) : Bool := 1 ≤ d.month && d.month ≤ 12 && 1 ≤ d.day && d.day ≤ daysIn d.year d.month

/-- Days since 1970-01-01. Years are counted from March, so that the leap day is the last of its year. -/
def toDays (d : Date) : Int :=
  let year := if d.month ≤ 2 then d.year - 1 else d.year
  let era := year / 400
  let yearOfEra := year % 400
  let dayOfYear : Int := (153 * ((d.month + 9) % 12) + 2) / 5 + d.day - 1
  era * 146097 + yearOfEra * 365 + yearOfEra / 4 - yearOfEra / 100 + dayOfYear - 719468

/-- The date so many days after 1970-01-01. -/
def ofDays (days : Int) : Date :=
  let shifted := days + 719468
  let era := shifted / 146097
  let dayOfEra := shifted % 146097
  let yearOfEra := (dayOfEra - dayOfEra / 1460 + dayOfEra / 36524 - dayOfEra / 146096) / 365
  let dayOfYear := dayOfEra - (365 * yearOfEra + yearOfEra / 4 - yearOfEra / 100)
  let shiftedMonth := (5 * dayOfYear + 2) / 153
  let month := (if shiftedMonth < 10 then shiftedMonth + 3 else shiftedMonth - 9).toNat
  let year := yearOfEra + era * 400
  ⟨if month ≤ 2 then year + 1 else year, month, (dayOfYear - (153 * shiftedMonth + 2) / 5 + 1).toNat⟩

/-- The first day that a moment may have. -/
def firstDay : Int := toDays ⟨-262143, 1, 1⟩

/-- The last day that a moment may have. -/
def lastDay : Int := toDays ⟨262142, 12, 31⟩

end Date

/-- A moment in universal time. -/
structure Moment where
  /-- Days since 1970-01-01. -/
  days : Int
  /-- Seconds of the day. -/
  second : Nat
  /-- Nanoseconds of the second; a leap second goes on beyond `10 ^ 9`. -/
  nano : Nat
  deriving DecidableEq, Repr

namespace Moment

/-- The start of 1970. -/
def epoch : Moment := ⟨0, 0, 0⟩

/-- The moment so many nanoseconds after the start of 1970. -/
def ofNanos (n : Int) : Moment :=
  let seconds := n / 1000000000
  ⟨seconds / 86400, (seconds % 86400).toNat, (n % 1000000000).toNat⟩

/-- Microseconds since the start of 1970. -/
def micros (m : Moment) : Int := (m.days * 86400 + m.second) * 1000000 + m.nano / 1000

/-- Microseconds that have passed since an earlier moment. -/
def since (m earlier : Moment) : Nat := (m.micros - earlier.micros).toNat

/-! ## Writing -/

/-- A number with leading zeros up to a width. -/
def padded (width n : Nat) : String :=
  let ds := Nat.toDigits 10 n
  String.ofList (List.replicate (width - ds.length) '0' ++ ds)

/-- A year: four digits, or a sign and five digits or more. -/
def yearText (year : Int) : String :=
  if 0 ≤ year ∧ year ≤ 9999 then padded 4 year.toNat
  else (if year < 0 then "-" else "+") ++ padded 4 year.natAbs

/-- A fraction of a second in groups of three digits; none if it is zero. -/
def fractionText (nano : Nat) : String :=
  if nano = 0 then ""
  else if nano % 1000000 = 0 then "." ++ padded 3 (nano / 1000000)
  else if nano % 1000 = 0 then "." ++ padded 6 (nano / 1000)
  else "." ++ padded 9 nano

def dateText (m : Moment) : String :=
  let d := Date.ofDays m.days
  s!"{yearText d.year}-{padded 2 d.month}-{padded 2 d.day}"

def timeText (m : Moment) : String :=
  let second := m.second % 60 + m.nano / 1000000000
  s!"{padded 2 (m.second / 3600)}:{padded 2 (m.second / 60 % 60)}:{padded 2 second}" ++
    fractionText (m.nano % 1000000000)

/-- The moment in data. -/
def stamp (m : Moment) : String := s!"{m.dateText}T{m.timeText}Z"

def display (m : Moment) : String := s!"{m.dateText} {m.timeText} UTC"

/-! ## Reading -/

def blanks : Reader Unit := do let _ ← Reader.takeWhile isBlank

/-- One digit or more, up to a number of them. -/
def digitsUpTo (most : Nat) : Reader Nat := fun cs =>
  let ds := (cs.take most).takeWhile Decimal.isDigit
  if ds.isEmpty then none else some (Decimal.ofDigits ds, cs.drop ds.length)

/-- A year: a sign and digits, or up to four digits. -/
def year : Reader Int := do
  match ← Reader.peek? with
  | some '-' => do
    Reader.char '-'
    let ds ← Reader.takeWhile Decimal.isDigit
    if ds.isEmpty then failure else return -(Decimal.ofDigits ds : Int)
  | some '+' => do
    Reader.char '+'
    let ds ← Reader.takeWhile Decimal.isDigit
    if ds.isEmpty then failure else return Decimal.ofDigits ds
  | _ => return (← digitsUpTo 4)

/-- A mark between two parts, after blanks. -/
def mark (c : Char) : Reader Unit := do blanks; Reader.char c

/-- A number of up to two digits, after blanks. -/
def twoDigits : Reader Nat := do blanks; digitsUpTo 2

/-- The nanoseconds that digits after a point stand for; digits after the ninth do not count. -/
def nanoOfDigits (ds : List Char) : Nat :=
  let first := ds.take 9
  Decimal.ofDigits first * Decimal.tenPow (9 - first.length)

def fraction : Reader Nat := do
  if (← Reader.peek?) = some '.' then
    Reader.char '.'
    let ds ← Reader.takeWhile Decimal.isDigit
    if ds.isEmpty then failure else return nanoOfDigits ds
  else return 0

/-- The name of universal time, in capitals or small letters. -/
def universal : Reader Int := do
  let _ ← Reader.satisfy fun c => c = 'u' || c = 'U'
  let _ ← Reader.satisfy fun c => c = 't' || c = 'T'
  let _ ← Reader.satisfy fun c => c = 'c' || c = 'C'
  return 0

def numericOffset : Reader Int := do
  let sign ← Reader.satisfy fun c => c = '+' || c = '-' || c = '\u2212'
  let hours ← Reader.exactly 2 Decimal.isDigit
  let _ ← Reader.takeWhile fun c => c = ':' || isBlank c
  let minutes ← Reader.exactly 2 Decimal.isDigit
  if 60 ≤ Decimal.ofDigits minutes then failure
  else
    let seconds : Int := Decimal.ofDigits hours * 3600 + Decimal.ofDigits minutes * 60
    return if sign = '+' then seconds else -seconds

def offset : Reader Int :=
  universal <|> (do let _ ← Reader.satisfy fun c => c = 'z' || c = 'Z'; return 0) <|> numericOffset

/-- The moment of a local time, if there is one. -/
def ofLocal? (d : Date) (hour minute second nano : Nat) (offset : Int) : Option Moment :=
  if !d.isValid ∨ 23 < hour ∨ 59 < minute ∨ 60 < second ∨ 86400 ≤ offset.natAbs then none
  else
    let days := d.toDays
    let leap := second = 60
    let total : Int := hour * 3600 + minute * 60 + (if leap then 59 else second) - offset
    let universalDays := days + total / 86400
    if Date.firstDay ≤ days ∧ days ≤ Date.lastDay ∧ Date.firstDay ≤ universalDays ∧ universalDays ≤ Date.lastDay then
      some ⟨universalDays, (total % 86400).toNat, if leap then nano + 1000000000 else nano⟩
    else none

/-- A moment with its offset, to the end of the text. -/
def reader : Reader Moment := do
  blanks
  let y ← year
  mark '-'
  let month ← twoDigits
  mark '-'
  let day ← twoDigits
  let _ ← Reader.satisfy fun c => c = 't' || c = 'T' || c = ' '
  let hour ← twoDigits
  mark ':'
  let minute ← twoDigits
  mark ':'
  let second ← twoDigits
  let nano ← fraction
  blanks
  let o ← offset
  blanks
  match ofLocal? ⟨y, month, day⟩ hour minute second nano o with
  | some m => return m
  | none => failure

def parse? (s : String) : Option Moment := reader.run? s.toList

end Moment

end ControlCodegen
