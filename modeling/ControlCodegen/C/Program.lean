import ControlCodegen.C.Declaration

/-!
# `C.Program`: the fragment of C that is generated

* `IntExpr`, `RealExpr`, `Cond`, `Test` : expressions, typed by what they denote.
* `Stmt` : statements. `seq` and `beside` both run one statement after the other; they differ on the page only, and so
  do the layouts of loop bodies.
* `Item` : what stands at the top of a source file.

Indices count elements from zero; a matrix is stored by rows.
-/

namespace ControlCodegen.C

set_option autoImplicit false

/-- A named datum: a variable, parameter or static of the file, or a member of one of the global structs. -/
inductive Ref where
  | name (n : String)
  | member (owner : Struct) (n : String)
  deriving DecidableEq, Repr

/-- Integer expressions. -/
inductive IntExpr where
  | lit (n : Nat)
  | var (name : String)
  | elem (array : Ref) (index : IntExpr)
  | add (a b : IntExpr)
  | mul (a b : IntExpr)
  deriving DecidableEq, Repr

/-- Conditions on integers and addresses. -/
inductive Cond where
  | eq (a b : IntExpr)
  | ne (a b : IntExpr)
  | notNull (pointer : String)
  | both (a b : Cond)
  deriving DecidableEq, Repr

/-- Real expressions. -/
inductive RealExpr where
  /-- A constant of the problem, written with the digits of the file. -/
  | literal (value : Float)
  /-- The whole number `n.0`. -/
  | whole (n : Nat)
  | scalar (ref : Ref)
  | elem (array : Ref) (index : IntExpr)
  | add (a b : RealExpr)
  | sub (a b : RealExpr)
  | mul (a b : RealExpr)
  | div (a b : RealExpr)
  | abs (a : RealExpr)
  | choice (c : Cond) (yes no : RealExpr)

/-- What a branch asks. -/
inductive Test where
  | cond (c : Cond)
  | greater (a b : RealExpr)
  | isZero (a : RealExpr)

/-- What is handed to a function. -/
inductive Arg where
  | value (e : IntExpr)
  | array (array : Ref)
  /-- The address of an element. -/
  | tail (array : Ref) (index : IntExpr)
  deriving DecidableEq, Repr

/-- A call of a function. -/
structure Call where
  function : String
  args : List Arg
  deriving DecidableEq, Repr

/-- How an assignment combines the old value with the new one. -/
inductive Update where
  | set
  | add
  | sub
  | mul
  | div
  deriving DecidableEq, Repr

/-- What an assignment changes: a scalar, or the element at an index. -/
structure Target where
  ref : Ref
  index : Option IntExpr := none
  deriving DecidableEq, Repr

/-- Where the body of a loop or branch stands. A body of several statements is braced whatever its layout. -/
inductive Layout where
  | braces
  /-- On the line of the head. -/
  | inline
  /-- On the next line, indented. -/
  | hanging
  /-- On the next line, below the head. -/
  | flush
  deriving DecidableEq, Repr

/-- Statements. -/
inductive Stmt where
  | skip
  | seq (a b : Stmt)
  /-- Both statements on one line. -/
  | beside (a b : Stmt)
  | declareInts (names : List String)
  | declareInt (name : String) (value : IntExpr)
  | declareResult (name : String) (call : Call)
  | declareReal (name : String) (value : Option RealExpr)
  | declareArray (name : String) (length : Nat)
  /-- Marks a parameter as unused. -/
  | ignore (name : String)
  | assign (target : Target) (update : Update) (value : RealExpr)
  | assignInt (target : Target) (value : IntExpr)
  | assignResult (name : String) (call : Call)
  | call (call : Call)
  /-- The counter goes from `first` up to `bound - 1`. -/
  | countUp (counter : String) (first bound : IntExpr) (layout : Layout) (body : Stmt)
  /-- The counter goes from `last` down to zero. -/
  | countDown (counter : String) (last : Int) (layout : Layout) (body : Stmt)
  | when (test : Test) (layout : Layout) (body : Stmt)
  | branch (test : Test) (yes no : Stmt)
  | returnInt (value : IntExpr)
  | returnReal (value : RealExpr)
  | returnTest (test : Test)
  | returnResult (call : Call)
  /-- Fills a global struct with zero bytes. -/
  | clear (owner : Struct)

/-- One statement after the other. -/
def Stmt.block : List Stmt → Stmt
  | [] => .skip
  | [s] => s
  | s :: ss => .seq s (block ss)

/-- A function with its body. -/
structure Function where
  prototype : Prototype
  body : Stmt

/-- What stands at the top of a source file. -/
inductive Item where
  | blank
  | comment (text : String)
  /-- A constant array of the file. -/
  | constants (name : String) (values : List Float)
  /-- A constant of the file. -/
  | constant (name : String) (value : Float)
  | function (f : Function)

/-- The functions that a list of items defines. -/
def Item.functions (items : List Item) : List Function :=
  items.filterMap fun
    | .function f => some f
    | _ => none

/-! ## Shorthands for expressions -/

namespace IntExpr

instance (n : Nat) : OfNat IntExpr n := ⟨lit n⟩

instance : Coe Nat IntExpr := ⟨lit⟩

instance : Coe String IntExpr := ⟨var⟩

instance : Add IntExpr := ⟨add⟩

instance : Mul IntExpr := ⟨mul⟩

end IntExpr

namespace RealExpr

instance : Add RealExpr := ⟨add⟩

instance : Sub RealExpr := ⟨sub⟩

instance : Mul RealExpr := ⟨mul⟩

instance : Div RealExpr := ⟨div⟩

/-- A variable or constant by name. -/
def var (n : String) : RealExpr := scalar (.name n)

end RealExpr

def Ref.entry (r : Ref) (index : IntExpr) : Target := ⟨r, some index⟩

def Ref.whole (r : Ref) : Target := ⟨r, none⟩

/-- Runs the body for each value of a counter below a bound. -/
def Stmt.each (counter : String) (bound : IntExpr) (layout : Layout) (body : Stmt) : Stmt :=
  .countUp counter 0 bound layout body

end ControlCodegen.C
