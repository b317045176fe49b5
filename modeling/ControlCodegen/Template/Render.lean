import ControlCodegen.Error
import ControlCodegen.Template.Basic
import ControlCodegen.Text.Lines
import ControlCodegen.Text.Marks
import ControlCodegen.Version

/-!
# `Template.Render`: filling in a template

`Template.fillLine` puts values in place of the placeholders of a line, from the left; what is filled in is not looked at
again. `Template.render` gives the text of a file, or the placeholders that have no value.
-/

namespace ControlCodegen

set_option autoImplicit false

/-- Values by the names of their placeholders; of two values of one name the first counts. -/
abbrev Substitutions := List (String × String)

def Substitutions.value? (subs : Substitutions) (name : String) : Option String := subs.lookup name

def ModuleName.substitutions (m : ModuleName) : Substitutions :=
  [("MODULE_NAME", m.text), ("MODULE_PREFIX", m.capitals)]

namespace Template

open Text

/-- The characters of placeholder names: capitals, digits and underscores. -/
def isNameChar (c : Char) : Bool := c.isUpper || c.isDigit || c = '_'

/-- A placeholder: a name that starts with a capital, between two `@`. -/
def placeholder : Reader String := do
  Reader.char '@'
  let name ← nameOf Char.isUpper isNameChar
  Reader.char '@'
  return name

/-- A part of a line with its value; without one it stays as it is. -/
def fillPiece (subs : Substitutions) : Piece → String
  | .literal c => c.toString
  | .word name => (subs.value? name).getD s!"@{name}@"

def fillLine (subs : Substitutions) (line : String) : String :=
  String.join ((pieces placeholder line.toList).map (fillPiece subs))

def isNote (line : String) : Bool := ['@', '@'].isPrefixOf line.toList

/-- The lines that go into a file: with notes or without. -/
def keptLines (t : Template) (strip : Bool) : List String :=
  if strip then t.lines.filter (!isNote ·) else t.lines

/-- The names without a value, each once, in the order in which they come first. -/
def missingNames (t : Template) (strip : Bool) (subs : Substitutions) : List String :=
  (((t.keptLines strip).flatMap (words placeholder)).filter fun name => (subs.value? name).isNone).eraseDups

/-- The text of a file. When notes are stripped the notice stands on top, behind the comment token. -/
def render (t : Template) (token : String) (strip : Bool) (subs : Substitutions) : Except Cause String :=
  let missing := t.missingNames strip subs
  if missing.isEmpty then
    .ok ((if strip then notice token else "") ++ unlines ((t.keptLines strip).map (fillLine subs)))
  else .error (.missingPlaceholders (Choice.name t) missing)

/-- Writes the text of a template to a file. -/
def copy {m : Type → Type} [Monad m] [Files.FileSystem m] (t : Template) (dest : Files.Path) (token : String)
    (strip : Bool) (subs : Substitutions) : Files.Action m Cause Unit := do
  match t.render token strip subs with
  | .error cause => throw cause
  | .ok text => (Files.writeText dest text).adapt Cause.file

end Template

end ControlCodegen
