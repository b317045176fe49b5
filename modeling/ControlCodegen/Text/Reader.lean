/-!
# `Text.Reader`: reading structured text

A `Reader α` takes a value off the front of a text or refuses the text; `p <|> q` tries `q` on the same text when `p`
refuses. `many p` goes on until `p` refuses, at most once for each character.
-/

namespace ControlCodegen.Text

set_option autoImplicit false

/-- Takes a value off the front of a text. -/
abbrev Reader (α : Type) := StateT (List Char) Option α

namespace Reader

variable {α β : Type}

/-- The value of a text that is read to its end. -/
def run? (p : Reader α) (cs : List Char) : Option α :=
  match p cs with
  | some (a, []) => some a
  | _ => none

/-- The next character stays in the text. -/
def peek? : Reader (Option Char) := fun cs => some (cs.head?, cs)

def satisfy (ok : Char → Bool) : Reader Char
  | [] => none
  | c :: r => if ok c then some (c, r) else none

def char (c : Char) : Reader Unit := do let _ ← satisfy (· == c)

/-- Exactly these characters. -/
def literal (word : List Char) : Reader Unit := fun cs => (word.isPrefixOf? cs).map fun rest => ((), rest)

/-- The longest run of characters with a property. -/
def takeWhile (ok : Char → Bool) : Reader (List Char) := fun cs => some (cs.takeWhile ok, cs.dropWhile ok)

/-- Exactly `n` characters with a property. -/
def exactly (n : Nat) (ok : Char → Bool) : Reader (List Char) := fun cs =>
  let front := cs.take n
  if front.length = n ∧ front.all ok then some (front, cs.drop n) else none

/-- The characters that `p` takes. -/
def taken (p : Reader α) : Reader (List Char) := fun cs =>
  (p cs).map fun (_, rest) => (cs.take (cs.length - rest.length), rest)

def atEnd : Reader Unit
  | [] => some ((), [])
  | _ :: _ => none

/-- What `p` reads, over and over, until it refuses; at most one value for each character of the bound. -/
def manyWithin (p : Reader α) : List Char → Reader (List α)
  | [], cs => some ([], cs)
  | _ :: bound, cs =>
    match p cs with
    | none => some ([], cs)
    | some (a, rest) => (manyWithin p bound rest).map fun (as, last) => (a :: as, last)

/-- What `p` reads, over and over, until it refuses. It cannot go on for longer than the text if it takes something each
time. -/
def many (p : Reader α) : Reader (List α) := fun cs => manyWithin p cs cs

def optional (p : Reader α) : Reader (Option α) := (some <$> p) <|> pure none

/-- One value or more, each but the last followed by a separator. -/
def separated (p : Reader α) (separator : Reader Unit) : Reader (List α) := do
  let first ← p
  let others ← many (do separator; p)
  return first :: others

end Reader

end ControlCodegen.Text
