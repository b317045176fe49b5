import ControlCodegen.Document.Fields
import ControlCodegen.Decimal.Reader
import ControlCodegen.Decimal.Scientific
import ControlCodegen.Text.Hex
import ControlCodegen.Text.Reader

/-!
# `Document.Json`: data in JSON notation

* `parse?` : reads a JSON text. A whole number that fits 64 bits stays a whole number, every other number is the nearest
  double; the only number outside the doubles' range that a caller may see is an infinity, and `strict?` refuses it.
* `compact` and `pretty` : write data on one line, or indented by two blanks for each level.
-/

namespace ControlCodegen.Document.Json

open Text

set_option autoImplicit false

/-- Levels of nesting that a reader follows. -/
def maxDepth : Nat := 127

def blanks : Reader Unit := do let _ ← Reader.takeWhile fun c => c = ' ' || c = '\t' || c = '\n' || c = '\r'

def token (c : Char) : Reader Unit := do Reader.char c; blanks

/-- Four hexadecimal digits after `\u`. -/
def codeUnit : Reader Nat := do
  let ds ← Reader.exactly 4 (isDigitOf 16)
  return ofDigits 16 ds

/-- The character of an escape after its backslash. Code units above the basic plane come as a pair of surrogates. -/
def escape : Reader Char := do
  let c ← Reader.satisfy fun _ => true
  match c with
  | '"' => return '"'
  | '\\' => return '\\'
  | '/' => return '/'
  | 'b' => return '\x08'
  | 'f' => return '\x0c'
  | 'n' => return '\n'
  | 'r' => return '\r'
  | 't' => return '\t'
  | 'u' =>
    let unit ← codeUnit
    if 0xD800 ≤ unit ∧ unit < 0xDC00 then
      Reader.literal ['\\', 'u']
      let low ← codeUnit
      if 0xDC00 ≤ low ∧ low < 0xE000 then
        return Char.ofNat (0x10000 + (unit - 0xD800) * 0x400 + (low - 0xDC00))
      else failure
    else if 0xDC00 ≤ unit ∧ unit < 0xE000 then failure
    else return Char.ofNat unit
  | _ => failure

def quotedChar : Reader Char := do
  let c ← Reader.satisfy fun c => c ≠ '"' && 0x20 ≤ c.toNat
  if c = '\\' then escape else return c

def quoted : Reader String := do
  Reader.char '"'
  let cs ← Reader.many quotedChar
  Reader.char '"'
  return String.ofList cs

/-- The digits of a whole part: a zero stands alone. -/
def wholePart : Reader (List Char) := do
  let ds ← Reader.takeWhile Decimal.isDigit
  match ds with
  | [] => failure
  | ['0'] => return ds
  | '0' :: _ => failure
  | _ => return ds

def digits1 : Reader (List Char) := do
  let ds ← Reader.takeWhile Decimal.isDigit
  if ds.isEmpty then failure else return ds

def exponent : Reader Int := do
  let _ ← Reader.satisfy fun c => c = 'e' || c = 'E'
  let sign ← Reader.optional (Reader.satisfy fun c => c = '+' || c = '-')
  let ds ← digits1
  return if sign = some '-' then -(Decimal.ofDigits ds : Int) else Decimal.ofDigits ds

def number : Reader Data := do
  let sign ← Reader.optional (Reader.char '-')
  let negative := sign.isSome
  let whole ← wholePart
  let fraction ← Reader.optional (do Reader.char '.'; digits1)
  let power ← Reader.optional exponent
  let n := Decimal.ofDigits whole
  if fraction.isNone ∧ power.isNone ∧ (if negative then 0 < n ∧ n ≤ 9223372036854775808 else n < Decimal.wordBound) then
    return .whole (if negative then -(n : Int) else n)
  else
    let fraction := fraction.getD []
    let value := Decimal.Binary64.nearestDecimal negative (Decimal.ofDigits (whole ++ fraction))
      (power.getD 0 - fraction.length)
    return .real value.toFloat

def word (cs : List Char) (d : Data) : Reader Data := do Reader.literal cs; return d

/-- A value that holds no other values. -/
def atom : Reader Data :=
  word ['n', 'u', 'l', 'l'] .null <|> word ['t', 'r', 'u', 'e'] (.flag true) <|>
    word ['f', 'a', 'l', 's', 'e'] (.flag false) <|> (Data.text <$> quoted) <|> number

def listOf (item : Reader Data) : Reader Data := do
  token '['
  let items ← Reader.separated item (token ',') <|> pure []
  Reader.char ']'
  return .list items

def entryOf (item : Reader Data) : Reader (String × Data) := do
  let key ← quoted
  blanks
  token ':'
  let d ← item
  return (key, d)

def tableOf (item : Reader Data) : Reader Data := do
  token '\x7b'
  let entries ← Reader.separated (entryOf item) (token ',') <|> pure []
  Reader.char '\x7d'
  return .table entries

/-- A value and the blanks after it, with at most that many levels of lists and tables. -/
def value : Nat → Reader Data
  | 0 => do
    let d ← atom
    blanks
    return d
  | depth + 1 => do
    let d ← atom <|> listOf (value depth) <|> tableOf (value depth)
    blanks
    return d

def parse? (s : String) : Option Data := (do blanks; value maxDepth : Reader Data).run? s.toList

def allFinite : Nat → Data → Bool
  | _, .real v => v.isFinite
  | depth + 1, .list items => items.all (allFinite depth)
  | depth + 1, .table entries => entries.all fun e => allFinite depth e.2
  | _, _ => true

/-- The data of a JSON text whose numbers are all in the range of doubles. -/
def strict? (s : String) : Option Data := (parse? s).filter (allFinite maxDepth)

def escaped (c : Char) : List Char :=
  match c with
  | '"' => ['\\', '"']
  | '\\' => ['\\', '\\']
  | '\x08' => ['\\', 'b']
  | '\x0c' => ['\\', 'f']
  | '\n' => ['\\', 'n']
  | '\r' => ['\\', 'r']
  | '\t' => ['\\', 't']
  | c =>
    if c.toNat < 0x20 then
      ['\\', 'u', '0', '0', Nat.digitChar (c.toNat / 16), Nat.digitChar (c.toNat % 16)]
    else [c]

def quote (s : String) : String := "\"" ++ String.ofList (s.toList.flatMap escaped) ++ "\""

/-- Data without lists and tables. Numbers have the fewest digits that read back. -/
def scalar : Data → String
  | .null => "null"
  | .flag b => if b then "true" else "false"
  | .whole n => toString n
  | .real v => Decimal.exponential v
  | .text s => quote s
  | .moment s => quote s
  | .list _ => "[]"
  | .table _ => "\x7b\x7d"

mutual

def compact : Data → String
  | .list items => "[" ++ ",".intercalate (compactItems items) ++ "]"
  | .table entries => "\x7b" ++ ",".intercalate (compactEntries entries) ++ "\x7d"
  | d => scalar d

/-- The items of a list, each on one line. -/
def compactItems : List Data → List String
  | [] => []
  | d :: ds => compact d :: compactItems ds

/-- The entries of a table, each on one line. -/
def compactEntries : List (String × Data) → List String
  | [] => []
  | (key, d) :: es => (quote key ++ ":" ++ compact d) :: compactEntries es

end

/-- A bracketed block with one part on each line; nothing stands between the brackets when there are no parts. -/
def block (indent left right : String) (parts : List String) : String :=
  if parts.isEmpty then left ++ right
  else
    let inner := indent ++ "  "
    left ++ "\n" ++ ",\n".intercalate (parts.map (inner ++ ·)) ++ "\n" ++ indent ++ right

mutual

/-- The data over several lines, the first of which stands after what is written already. -/
def prettyAt (indent : String) : Data → String
  | .list items => block indent "[" "]" (prettyItems (indent ++ "  ") items)
  | .table entries => block indent "\x7b" "\x7d" (prettyEntries (indent ++ "  ") entries)
  | d => scalar d

/-- The items of a list at an indentation. -/
def prettyItems (indent : String) : List Data → List String
  | [] => []
  | d :: ds => prettyAt indent d :: prettyItems indent ds

/-- The entries of a table at an indentation. -/
def prettyEntries (indent : String) : List (String × Data) → List String
  | [] => []
  | (key, d) :: es => (quote key ++ ": " ++ prettyAt indent d) :: prettyEntries indent es

end

/-- The data over several lines, two blanks for each level. -/
def pretty (d : Data) : String := prettyAt "" d

/-- Structured values in JSON: a list has no items besides the fields, and nothing is null. -/
def fieldNotation : Notation where
  openLists := false
  repeats := false
  isNothing
    | .null => true
    | _ => false

end ControlCodegen.Document.Json
