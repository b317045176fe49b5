import ControlCodegen.ModuleName

/-!
# `C.Declaration`: what the common header declares

* `Struct` : the two global structs of a module, the variables and the workspace.
* `Member` : a matrix in one of the structs; with a single element it is a scalar.
* `Prototype` : the signature of a C function.

Real and integer types are named when a declaration is written, so that one declaration serves every precision.
-/

namespace ControlCodegen.C

set_option autoImplicit false

/-- The global structs of a module. -/
inductive Struct where
  /-- What the user of the solver reads and writes. -/
  | vars
  /-- What the solver keeps for itself. -/
  | workspace
  deriving DecidableEq, Repr

namespace Struct

/-- The C type of the struct, such as `ACADOworkspace`. -/
def typeName (s : Struct) (m : ModuleName) : String :=
  match s with
  | vars => m.capitals ++ "variables"
  | workspace => m.capitals ++ "workspace"

/-- The global variable of the struct, such as `acadoWorkspace`. -/
def instanceName (s : Struct) (m : ModuleName) : String :=
  match s with
  | vars => m.text ++ "Variables"
  | workspace => m.text ++ "Workspace"

end Struct

/-- The C types of real and of integer numbers. -/
structure TypeNames where
  real : String := "real_t"
  int : String := "int"
  deriving DecidableEq, Repr

/-- The type of a scalar. -/
inductive Scalar where
  | real
  | int
  | void
  deriving DecidableEq, Repr

def Scalar.spell (names : TypeNames) : Scalar → String
  | real => names.real
  | int => names.int
  | void => "void"

/-- A line under the comment that describes it, if there is one. -/
def described (description : Option String) (line : String) : String :=
  match description with
  | some text => s!"/** {text} */\n{line}"
  | none => line

/-- A matrix in one of the structs. -/
structure Member where
  name : String
  type : Scalar := .real
  rows : Nat
  cols : Nat
  owner : Struct
  description : Option String := none
  deriving DecidableEq, Repr

namespace Member

def size (d : Member) : Nat := d.rows * d.cols

/-- Whether there are no elements; such a member is not declared. -/
def isEmpty (d : Member) : Bool := d.size = 0

/-- Whether the member is declared as a scalar. -/
def isScalar (d : Member) : Bool := d.size = 1

/-- The member as a line of its struct. -/
def render (names : TypeNames) (d : Member) : String :=
  described d.description <|
    if d.isScalar then s!"{d.type.spell names} {d.name};"
    else s!"{d.type.spell names} {d.name}[ {d.size} ];"

/-- The members that have elements, one on each line. -/
def renderAll (names : TypeNames) (ds : List Member) : String :=
  "\n".intercalate ((ds.filter fun d => !d.isEmpty).map (render names))

end Member

/-- A parameter of a function. -/
structure Parameter where
  name : String
  type : Scalar
  /-- Passed by address and not by value. -/
  byPointer : Bool
  /-- The function only reads what the address leads to. -/
  readOnly : Bool
  deriving DecidableEq, Repr

namespace Parameter

/-- Real data that the function may change. -/
def realOut (name : String) : Parameter := ⟨name, .real, true, false⟩

/-- Real data that the function only reads. -/
def realIn (name : String) : Parameter := ⟨name, .real, true, true⟩

/-- Integers that the function may change. -/
def intOut (name : String) : Parameter := ⟨name, .int, true, false⟩

def intValue (name : String) : Parameter := ⟨name, .int, false, false⟩

def render (names : TypeNames) (p : Parameter) : String :=
  let type := p.type.spell names
  if p.byPointer then
    if p.readOnly then s!"const {type}* {p.name}" else s!"{type}* const {p.name}"
  else s!"{type} {p.name}"

end Parameter

/-- The signature of a function. -/
structure Prototype where
  name : String
  returns : Scalar := .void
  params : List Parameter := []
  description : Option String := none
  deriving DecidableEq, Repr

namespace Prototype

def signature (names : TypeNames) (f : Prototype) : String :=
  let params :=
    if f.params.isEmpty then "void" else ", ".intercalate (f.params.map (Parameter.render names))
  s!"{f.returns.spell names} {f.name}( {params} )"

def render (names : TypeNames) (f : Prototype) : String := described f.description (f.signature names ++ ";")

/-- Prototypes with a blank line between them. -/
def renderAll (names : TypeNames) (fs : List Prototype) : String := "\n\n".intercalate (fs.map (render names))

end Prototype

end ControlCodegen.C
