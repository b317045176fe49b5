import ControlCodegen.Text.Hex
import ControlCodegen.Text.Reader

/-!
# `Document.Toml.Token`: blanks, comments, quoted texts and keys

* `trailing` : what may stand behind an expression on its line; `gap` : what may stand between the items of a list.
* `quoted` : a text in double quotes, where a backslash escapes, or in single quotes, where all stands for itself. Three
  quotes open a text that may go over several lines, and up to two quotes right before the closing three are its end.
* `key` : names separated by dots.
-/

namespace ControlCodegen.Document.Toml

open Text

set_option autoImplicit false

/-! ## Blanks and comments -/

/-- Whether a character may stand on a line: a tab, or none of the control characters. -/
def isPlain (c : Char) : Bool := c = '\t' || (0x20 ≤ c.toNat && c.toNat ≠ 0x7F)

def blanks : Reader Unit := do let _ ← Reader.takeWhile fun c => c = ' ' || c = '\t'

def newline : Reader Unit := Reader.char '\n' <|> Reader.literal ['\r', '\n']

/-- A comment without the end of its line. -/
def comment : Reader Unit := do
  Reader.char '#'
  let _ ← Reader.takeWhile isPlain

/-- The end of a line or of the text. -/
def lineEnd : Reader Unit := newline <|> Reader.atEnd

/-- The rest of a line behind an expression. -/
def trailing : Reader Unit := do
  blanks
  let _ ← Reader.optional comment
  lineEnd

/-- Blanks, comments and ends of lines. -/
def gap : Reader Unit := do
  blanks
  let _ ← Reader.many do
    let _ ← Reader.optional comment
    newline
    blanks

/-! ## Quoted texts -/

/-- The character with a code of so many hexadecimal digits. -/
def codePoint (digits : Nat) : Reader Char := do
  let n := ofDigits 16 (← Reader.exactly digits (isDigitOf 16))
  if n.isValidChar then return Char.ofNat n else failure

/-- The character of an escape after its backslash. -/
def escape : Reader Char := do
  let c ← Reader.satisfy fun _ => true
  match c with
  | 'b' => return '\x08'
  | 't' => return '\t'
  | 'n' => return '\n'
  | 'f' => return '\x0c'
  | 'r' => return '\r'
  | '"' => return '"'
  | '\\' => return '\\'
  | 'u' => codePoint 4
  | 'U' => codePoint 8
  | _ => failure

def escapable : Reader Char := do
  let c ← Reader.satisfy fun c => isPlain c && c ≠ '"'
  if c = '\\' then escape else return c

def verbatim : Reader Char := Reader.satisfy fun c => isPlain c && c ≠ '\''

/-- A text on one line. -/
def onLine (quote : Char) (content : Reader Char) : Reader String := do
  Reader.char quote
  let cs ← Reader.many content
  Reader.char quote
  return String.ofList cs

/-- A backslash at the end of a line, with all blanks and ends of lines behind it. -/
def lineJoin : Reader Unit := do
  Reader.char '\\'
  blanks
  newline
  let _ ← Reader.takeWhile fun c => c = ' ' || c = '\t' || c = '\n'
  let _ ← Reader.many do
    newline
    Reader.takeWhile fun c => c = ' ' || c = '\t' || c = '\n'

/-- A quote that does not begin three of them. -/
def loneQuote (quote : Char) : Reader Char
  | [] => none
  | c :: r => if c = quote ∧ ¬[quote, quote].isPrefixOf r then some (c, r) else none

/-- The closing quotes, and how many of them still belong to the text. -/
def closing (quote : Char) : Reader (List Char) := do
  let quotes ← Reader.takeWhile (· = quote)
  if 3 ≤ quotes.length ∧ quotes.length ≤ 5 then return quotes.drop 3 else failure

/-- A text over several lines; the end of a line right behind the opening quotes does not count. -/
def overLines (quote : Char) (content : Reader (List Char)) : Reader String := do
  Reader.literal [quote, quote, quote]
  let _ ← Reader.optional newline
  let parts ← Reader.many <|
    content <|> (do newline; return ['\n']) <|> (do return [← loneQuote quote])
  let quotes ← closing quote
  return String.ofList (parts.flatten ++ quotes)

def quotedOnLine : Reader String := onLine '"' escapable <|> onLine '\'' verbatim

def quoted : Reader String :=
  overLines '"' ((do lineJoin; return []) <|> (do return [← escapable])) <|>
    overLines '\'' (do return [← verbatim]) <|> quotedOnLine

/-! ## Keys -/

/-- Where an entry stands: the tables on the way to it and its name in the last one. -/
structure Key where
  path : List String
  name : String
  deriving DecidableEq, Repr

/-- The most names that a key may have. -/
def maxNames : Nat := 79

/-- Whether a character may stand in a name without quotes. -/
def isBare (c : Char) : Bool := ('a' ≤ c && c ≤ 'z') || ('A' ≤ c && c ≤ 'Z') || isDigitOf 10 c || c = '-' || c = '_'

def bareName : Reader String := do
  let cs ← Reader.takeWhile isBare
  if cs.isEmpty then failure else return String.ofList cs

def name : Reader String := do
  blanks
  let s ← quotedOnLine <|> bareName
  blanks
  return s

def key : Reader Key := do
  let names ← Reader.separated name (Reader.char '.')
  match names.getLast? with
  | some last => if names.length ≤ maxNames then return ⟨names.dropLast, last⟩ else failure
  | none => failure

end ControlCodegen.Document.Toml
