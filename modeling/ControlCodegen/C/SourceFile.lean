import ControlCodegen.C.Printer
import ControlCodegen.Files.System
import ControlCodegen.Text.Lines

/-!
# `C.SourceFile`: a generated source file

A source file collects lines below the include line of its common header. `SourceFile.add` appends the items of a
program, and `SourceFile.save` writes the file.
-/

namespace ControlCodegen.C

set_option autoImplicit false

/-- A source file while it is generated. -/
structure SourceFile where
  path : Files.Path
  /-- The header to include; none if empty. -/
  header : String := ""
  types : TypeNames := {}
  /-- Significant digits of constants; one at least is written. -/
  precision : Nat := 16
  lines : List String := []

namespace SourceFile

def addLine (f : SourceFile) (line : String) : SourceFile := { f with lines := f.lines ++ [line] }

def addBlank (f : SourceFile) : SourceFile := f.addLine ""

/-- The style of the file for the code of a module. -/
def style (f : SourceFile) (instanceName : Struct → String) : Style where
  types := f.types
  digits := f.precision
  instanceName := instanceName

def addItem (f : SourceFile) (instanceName : Struct → String) (item : Item) : SourceFile :=
  { f with lines := f.lines ++ item.lines (f.style instanceName) }

def addComment (f : SourceFile) (text : String) : SourceFile := f.addLine s!"/* {text} */"

def addDefine (f : SourceFile) (name value : String) : SourceFile := f.addLine s!"#define {name} {value}"

/-- A constant with the digits of the file. -/
def literal (f : SourceFile) (value : Float) : String := Decimal.literal f.precision value

/-- Appends a function with the given lines as its body. -/
def addFunction (f : SourceFile) (prototype : Prototype) (body : List String) : SourceFile :=
  { f with lines := f.lines ++ functionLines (prototype.signature f.types) body }

def add (f : SourceFile) (instanceName : Struct → String) (items : List Item) : SourceFile :=
  items.foldl (fun f item => f.addItem instanceName item) f

def contents (f : SourceFile) : String :=
  (if f.header.isEmpty then "" else s!"#include \"{f.header}\"\n\n") ++ Text.unlines f.lines

def save {m : Type → Type} [Monad m] [Files.FileSystem m] (f : SourceFile) : Files.Action m Files.FileError Unit :=
  Files.writeText f.path f.contents

end SourceFile

end ControlCodegen.C
