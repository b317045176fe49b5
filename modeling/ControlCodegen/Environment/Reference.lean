import ControlCodegen.Environment.Basic
import ControlCodegen.Error
import ControlCodegen.Text.Blank
import ControlCodegen.Text.Lines
import ControlCodegen.Text.Marks
import ControlCodegen.Text.Replace

/-!
# `Environment.Reference`: references to variables in a text

A reference is written `$\x7bNAME\x7d`, where a name has capitals, digits and underscores and does not start with a digit.

* `references` : the names of the references of a line, from the left.
* `fillLine` : puts values in place of references, one reference after the other, so that a value may itself bring in
  a reference to a variable whose turn comes later.
* `fill` : fills a text in line by line, and refuses it when a variable has no value. Comment lines stay as they are.
-/

namespace ControlCodegen.Environment

open Text

set_option autoImplicit false

def isNameStart (c : Char) : Bool := c.isUpper || c = '_'

/-- Whether a character may stand in a name. -/
def isNameChar (c : Char) : Bool := isNameStart c || c.isDigit

def reference : Reader String := do
  Reader.literal ['$', '\x7b']
  let name ← nameOf isNameStart isNameChar
  Reader.char '\x7d'
  return name

/-- The names of the references of a line, from the left. -/
def references (line : String) : List String := words reference line

def written (name : String) : List Char := ['$', '\x7b'] ++ name.toList ++ ['\x7d']

/-- Puts the value of a variable in place of its references. -/
def fillName (env : Environment) (text : List Char) (name : String) : List Char :=
  match env name with
  | some value => replaceAll (written name) value.toList text
  | none => text

/-- Puts values in place of the references of a line. -/
def fillLine (env : Environment) (line : String) : String :=
  String.ofList ((references line).foldl (fillName env) line.toList)

def isComment (line : String) : Bool := (trimStart line.toList).head? = some '#'

/-- The names without a value, each once, in the order in which they come first. -/
def missingNames (env : Environment) (text : String) : List String :=
  (((lines text).filter (!isComment ·)).flatMap references).filter (fun name => (env name).isNone) |>.eraseDups

def fill (env : Environment) (text : String) : Except Cause String :=
  let missing := missingNames env text
  if missing.isEmpty then .ok (unlines ((lines text).map fun l => if isComment l then l else fillLine env l))
  else .error (.missingVariables missing)

end ControlCodegen.Environment
