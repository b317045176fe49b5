import ControlCodegen.C.Program

/-!
# `C.Memory`: what generated C runs on

* `Arithmetic` : the operations on real numbers, so that a program can be read over doubles and over exact numbers.
* `Block`, `View` : a piece of memory, and the elements of one that a name gives access to.
* `Memory`, `State` : the contents of all blocks, and the variables of the function that runs.
* `Fault` : what ends a run that C leaves undefined.

A block has no end of its own: how many of its elements may be touched is a matter of the view. The elements of an array
are numbered from zero, and a scalar member of a struct is the element zero of its block.
-/

namespace ControlCodegen.C

set_option autoImplicit false

/-- The operations of generated code on real numbers. -/
class Arithmetic (R : Type) where
  ofFloat : Float → R
  ofNat : Nat → R
  add : R → R → R
  sub : R → R → R
  mul : R → R → R
  div : R → R → R
  abs : R → R
  less : R → R → Bool
  isZero : R → Bool

/-- Doubles, as the compiled program computes with them. -/
instance : Arithmetic Float where
  ofFloat v := v
  ofNat := Float.ofNat
  add := (· + ·)
  sub := (· - ·)
  mul := (· * ·)
  div := (· / ·)
  abs := Float.abs
  less a b := a < b
  isZero a := a == 0.0

/-- A piece of memory. -/
inductive Block where
  | member (owner : Struct) (name : String)
  /-- A constant array of a source file. -/
  | static (name : String)
  /-- An array of a function, for as long as the function runs. -/
  | auto (function name : String)
  /-- Memory of a caller outside the generated code. -/
  | outside (name : String)
  deriving DecidableEq, Repr

/-- So many elements of a block, from some element on. -/
structure View where
  block : Block
  first : Nat
  length : Nat
  deriving DecidableEq, Repr

/-- What ends a run. -/
inductive Fault where
  /-- A subscript that is not below the number of elements. -/
  | outOfBounds (array : Ref) (index : Int)
  /-- A variable is read before it has a value. -/
  | unset (name : String)
  /-- A loop goes on beyond the rounds that lie between its bounds at the start. -/
  | runaway (counter : String)
  /-- A function that nothing defines. -/
  | undefined (function : String)
  /-- Arguments or an answer that do not fit the function. -/
  | mismatch (function : String)
  deriving DecidableEq, Repr

/-- What is handed to a function. -/
inductive Value where
  | int (n : Int)
  | array (v : View)
  /-- The null pointer. -/
  | null
  deriving DecidableEq, Repr

/-- What a function hands back. -/
inductive Answer (R : Type) where
  | nothing
  | int (n : Int)
  | real (r : R)

/-- The contents of all blocks. -/
structure Memory (R : Type) where
  reals : Block → Nat → R
  ints : Block → Nat → Int
  /-- The calls of functions from outside so far; their answers may differ from call to call. -/
  clock : Nat

/-- Memory, and the variables of the function that runs. -/
structure State (R : Type) where
  function : String
  ints : String → Option Int
  reals : String → Option R
  /-- Arrays by name; a null pointer and what is no array have none. -/
  arrays : String → Option View
  memory : Memory R

variable {R : Type}

namespace Memory

/-- Writes a real element. -/
def setReal (m : Memory R) (b : Block) (i : Nat) (r : R) : Memory R :=
  { m with reals := fun b' i' => if b' = b ∧ i' = i then r else m.reals b' i' }

/-- Writes an integer element. -/
def setInt (m : Memory R) (b : Block) (i : Nat) (n : Int) : Memory R :=
  { m with ints := fun b' i' => if b' = b ∧ i' = i then n else m.ints b' i' }

/-- Writes so many elements from some element on. -/
def fill (m : Memory R) (b : Block) (first count : Nat) (f : Nat → R) : Memory R :=
  { m with
    reals := fun b' i => if b' = b ∧ first ≤ i ∧ i < first + count then f (i - first) else m.reals b' i }

/-- Fills a struct with zeros. -/
def clear [Arithmetic R] (m : Memory R) (owner : Struct) : Memory R :=
  { m with
    reals := fun b i => match b with
      | .member o _ => if o = owner then Arithmetic.ofNat 0 else m.reals b i
      | _ => m.reals b i
    ints := fun b i => match b with
      | .member o _ => if o = owner then 0 else m.ints b i
      | _ => m.ints b i }

@[simp] theorem ints_setReal (m : Memory R) (b : Block) (i : Nat) (r : R) : (m.setReal b i r).ints = m.ints := rfl

end Memory

namespace State

/-- Sets an integer variable. -/
def setInt (s : State R) (n : String) (k : Int) : State R :=
  { s with ints := fun n' => if n' = n then some k else s.ints n' }

/-- Sets a real variable. -/
def setReal (s : State R) (n : String) (r : R) : State R :=
  { s with reals := fun n' => if n' = n then some r else s.reals n' }

/-- Gives a name an array, or takes it away. -/
def setArray (s : State R) (n : String) (v : Option View) : State R :=
  { s with arrays := fun n' => if n' = n then v else s.arrays n' }

/-- The state with other memory. -/
def withMemory (s : State R) (m : Memory R) : State R := { s with memory := m }

@[simp] theorem ints_setInt_self (s : State R) (n : String) (k : Int) : (s.setInt n k).ints n = some k := if_pos rfl

theorem ints_setInt_of_ne (s : State R) {n n' : String} (k : Int) (h : n' ≠ n) :
    (s.setInt n k).ints n' = s.ints n' := if_neg h

@[simp] theorem memory_setInt (s : State R) (n : String) (k : Int) : (s.setInt n k).memory = s.memory := rfl

@[simp] theorem ints_setReal (s : State R) (n : String) (r : R) : (s.setReal n r).ints = s.ints := rfl

@[simp] theorem memory_withMemory (s : State R) (m : Memory R) : (s.withMemory m).memory = m := rfl

end State

end ControlCodegen.C
