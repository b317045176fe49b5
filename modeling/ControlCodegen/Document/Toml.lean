import ControlCodegen.Document.Fields
import ControlCodegen.Document.Toml.Number
import ControlCodegen.Document.Toml.Outline

/-!
# `Document.Toml`: data in TOML notation

`parse?` reads a document of the notation's version 1.0. A document is a sequence of lines; each of them opens a table
or adds an entry to the table that is open.
-/

namespace ControlCodegen.Document.Toml

open Text

set_option autoImplicit false

/-- In this notation a list may go on after the last field, and an empty table or list stands for nothing. No key is
given twice. -/
def fieldNotation : Notation where
  openLists := true
  repeats := false
  isNothing
    | .table [] | .list [] => true
    | _ => false

/-! ## Values -/

/-- Levels of lists and tables that a value may have. -/
def maxDepth : Nat := 79

def flag : Reader Data :=
  (do Reader.literal ['t', 'r', 'u', 'e']; return .flag true) <|>
    (do Reader.literal ['f', 'a', 'l', 's', 'e']; return .flag false)

/-- A value that holds no other values. -/
def atom : Reader Data := (Data.text <$> quoted) <|> flag <|> moment <|> number

/-- A list; a comma may stand behind its last item. -/
def listOf (item : Reader Data) : Reader Data := do
  Reader.char '['
  let spaced : Reader Data := do
    gap
    let d ← item
    gap
    return d
  let items ← (do
    let items ← Reader.separated spaced (Reader.char ',')
    let _ ← Reader.optional (Reader.char ',')
    return items) <|> pure []
  gap
  Reader.char ']'
  return .list items

def entryOf (item : Reader Data) : Reader (Key × Data) := do
  let k ← key
  Reader.char '='
  blanks
  let d ← item
  return (k, d)

def tableOf (item : Reader Data) : Reader Data := do
  Reader.char '\x7b'
  let entry : Reader (Key × Data) := do
    let e ← entryOf item
    blanks
    return e
  let entries ← Reader.separated entry (Reader.char ',') <|> pure []
  blanks
  Reader.char '\x7d'
  match (Outline.empty .header).insertAll entries with
  | some t => return t.toData
  | none => failure

/-- A value with at most that many levels of lists and tables. -/
def value : Nat → Reader Data
  | 0 => atom
  | depth + 1 => atom <|> listOf (value depth) <|> tableOf (value depth)

/-! ## Documents -/

/-- A line of a document. -/
inductive Line where
  | blank
  | entry (key : Key) (value : Data)
  | tableHeader (key : Key)
  | itemHeader (key : Key)

/-- A line with the blanks in front of the next one. -/
def line : Reader Line := do
  let l ← (do newline; return .blank) <|>
    (do comment; lineEnd; return .blank) <|>
    (do
      Reader.literal ['[', '[']
      let k ← key
      Reader.literal [']', ']']
      trailing
      return .itemHeader k) <|>
    (do
      Reader.char '['
      let k ← key
      Reader.char ']'
      trailing
      return .tableHeader k) <|>
    (do
      let (k, d) ← entryOf (value maxDepth)
      trailing
      return .entry k d)
  blanks
  return l

/-- A document with the path of the table that is open. -/
structure Draft where
  whole : Outline := .empty .header
  here : List String := []

def Draft.add (d : Draft) : Line → Option Draft
  | .blank => some d
  | .entry k v => do return { d with whole := ← d.whole.descend .passage (Outline.insert k v) d.here }
  | .tableHeader k => do return ⟨← d.whole.openTable k, k.path ++ [k.name]⟩
  | .itemHeader k => do return ⟨← d.whole.openItem k, k.path ++ [k.name]⟩

/-- The lines of a document, which a byte order mark may precede. -/
def document : Reader (List Line) := do
  let _ ← Reader.optional (Reader.char '\ufeff')
  blanks
  Reader.many line

def parse? (s : String) : Option Data := do
  let ls ← document.run? s.toList
  let d ← ls.foldlM Draft.add {}
  return d.whole.toData

end ControlCodegen.Document.Toml
