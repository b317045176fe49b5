import ControlCodegen.Proofs.C.Memory

/-!
# `C.Semantics`: what generated C does

* `IntExpr.eval`, `Cond.eval`, `RealExpr.eval`, `Test.eval`, `Call.eval` : expressions in a state.
* `Stmt.exec` : statements; a run goes on with a state or returns with an answer, or ends in a `Fault`.
* `Function.invoke` : a call of a function with its parameters bound.
* `link` : the functions of a source file, on top of those that it may call.

Integers are those of mathematics. A loop tests its condition before every round, as in C; it is given as many rounds as
lie between its bounds at the start and faults if it asks for more, so that a run without a fault is a run that ends. A
function can call what comes before it, and no generated function calls itself.
-/

namespace ControlCodegen.C

set_option autoImplicit false

variable {R : Type}

/-- The functions that can be called: the arguments and the memory give an answer and the memory afterwards. -/
abbrev Calls (R : Type) := String → List Value → Memory R → Except Fault (Answer R × Memory R)

/-- What a function body refers to beyond its own variables. -/
structure Context (R : Type) where
  /-- The elements of the members of the global structs. -/
  size : Struct → String → Nat
  call : Calls R

/-! ## Arrays -/

/-- The elements that a reference gives access to. -/
def viewOf (size : Struct → String → Nat) (arrays : String → Option View) : Ref → Option View
  | .name n => arrays n
  | .member owner n => some ⟨.member owner n, 0, size owner n⟩

/-- The number of elements of an array. -/
def lengthOf (size : Struct → String → Nat) (arrays : String → Option View) (r : Ref) : Nat :=
  ((viewOf size arrays r).map View.length).getD 0

/-- What is left of an array behind an index below its length. -/
def tailOf (size : Struct → String → Nat) (arrays : String → Option View) (r : Ref) (i : Int) : Option View :=
  (viewOf size arrays r).bind fun v =>
    if 0 ≤ i ∧ i < v.length then some ⟨v.block, v.first + i.toNat, v.length - i.toNat⟩ else none

namespace State

/-- An element of an array, as a view that starts with it. -/
def locate (size : Struct → String → Nat) (s : State R) (r : Ref) (i : Int) : Except Fault View :=
  match tailOf size s.arrays r i with
  | some v => .ok v
  | none => .error (.outOfBounds r i)

end State

/-! ## Expressions -/

section Expressions

variable (size : Struct → String → Nat) (s : State R)

def IntExpr.eval : IntExpr → Except Fault Int
  | .lit n => .ok n
  | .var n =>
    match s.ints n with
    | some k => .ok k
    | none => .error (.unset n)
  | .elem a i => do
    let v ← s.locate size a (← i.eval)
    return s.memory.ints v.block v.first
  | .add a b => do return (← a.eval) + (← b.eval)
  | .mul a b => do return (← a.eval) * (← b.eval)

def Cond.eval : Cond → Except Fault Bool
  | .eq a b => do return decide ((← a.eval size s) = (← b.eval size s))
  | .ne a b => do return decide ((← a.eval size s) ≠ (← b.eval size s))
  | .notNull p => .ok (s.arrays p).isSome
  | .both a b => do if ← a.eval then b.eval else return false

/-- A scalar, which is a variable or the single element of a member. -/
def Ref.readScalar : Ref → Except Fault R
  | .name n =>
    match s.reals n with
    | some r => .ok r
    | none => .error (.unset n)
  | .member owner n => do
    let v ← s.locate size (.member owner n) 0
    return s.memory.reals v.block v.first

variable [Arithmetic R]

def RealExpr.eval : RealExpr → Except Fault R
  | .literal v => .ok (Arithmetic.ofFloat v)
  | .whole n => .ok (Arithmetic.ofNat n)
  | .scalar r => r.readScalar size s
  | .elem a i => do
    let v ← s.locate size a (← i.eval size s)
    return s.memory.reals v.block v.first
  | .add a b => do return Arithmetic.add (← a.eval) (← b.eval)
  | .sub a b => do return Arithmetic.sub (← a.eval) (← b.eval)
  | .mul a b => do return Arithmetic.mul (← a.eval) (← b.eval)
  | .div a b => do return Arithmetic.div (← a.eval) (← b.eval)
  | .abs a => do return Arithmetic.abs (← a.eval)
  | .choice c a b => do if ← c.eval size s then a.eval else b.eval

def Test.eval : Test → Except Fault Bool
  | .cond c => c.eval size s
  | .greater a b => do return Arithmetic.less (← b.eval size s) (← a.eval size s)
  | .isZero a => do return Arithmetic.isZero (← a.eval size s)

omit [Arithmetic R]

/-- An argument; the address of an element stands for the rest of its array. -/
def Arg.eval : Arg → Except Fault Value
  | .value e => do return .int (← e.eval size s)
  | .array a => .ok (((viewOf size s.arrays a).map Value.array).getD .null)
  | .tail a i => do return .array (← s.locate size a (← i.eval size s))

end Expressions

/-- A call from a state. -/
def Call.eval (ctx : Context R) (s : State R) (c : Call) : Except Fault (Answer R × Memory R) := do
  let vs ← c.args.mapM (Arg.eval ctx.size s)
  ctx.call c.function vs s.memory

/-- A call whose answer is used as an integer. -/
def Call.evalInt (ctx : Context R) (s : State R) (c : Call) : Except Fault (Int × Memory R) := do
  match ← c.eval ctx s with
  | (.int k, m) => .ok (k, m)
  | _ => .error (.mismatch c.function)

/-! ## Statements -/

/-- How a statement ends. -/
inductive Outcome (R : Type) where
  | next (s : State R)
  | done (answer : Answer R) (memory : Memory R)

/-- Goes on unless the function has returned. -/
def Outcome.andThen (o : Except Fault (Outcome R)) (f : State R → Except Fault (Outcome R)) :
    Except Fault (Outcome R) := do
  match ← o with
  | .next s => f s
  | .done a m => return .done a m

/-- Runs a body while a test holds, for so many rounds at most. -/
def rounds (counter : String) (test : State R → Except Fault Bool) (body : State R → Except Fault (Outcome R)) :
    Nat → State R → Except Fault (Outcome R)
  | n, s => do
    if ← test s then
      match n with
      | 0 => .error (.runaway counter)
      | n + 1 => Outcome.andThen (body s) (rounds counter test body n)
    else return .next s

section Statements

variable [Arithmetic R]

/-- The new value of what is assigned to. -/
def Update.apply (old new : R) : Update → R
  | .set => new
  | .add => Arithmetic.add old new
  | .sub => Arithmetic.sub old new
  | .mul => Arithmetic.mul old new
  | .div => Arithmetic.div old new

/-- Changes a real variable. Only a change that combines it with the old value needs one. -/
def State.updateReal (s : State R) (n : String) (u : Update) (r : R) : Except Fault (State R) :=
  match u, s.reals n with
  | .set, _ => .ok (s.setReal n r)
  | _, none => .error (.unset n)
  | _, some old => .ok (s.setReal n (u.apply old r))

theorem State.updateReal_of_some {s : State R} {n : String} {old : R} (h : s.reals n = some old) (u : Update) (r : R) :
    s.updateReal n u r = .ok (s.setReal n (u.apply old r)) := by
  unfold State.updateReal
  rw [h]
  cases u <;> rfl

/-- Changes the first element of a view. -/
def State.updateElement (s : State R) (v : View) (u : Update) (r : R) : State R :=
  s.withMemory (s.memory.setReal v.block v.first (u.apply (s.memory.reals v.block v.first) r))

/-- An assignment to a scalar or to an element. -/
def Target.assign (size : Struct → String → Nat) (s : State R) (t : Target) (u : Update) (r : R) :
    Except Fault (State R) :=
  match t.ref, t.index with
  | .name n, none => s.updateReal n u r
  | .member owner n, none => do return s.updateElement (← s.locate size (.member owner n) 0) u r
  | a, some i => do return s.updateElement (← s.locate size a (← i.eval size s)) u r

omit [Arithmetic R] in
/-- An assignment to an integer variable or element. -/
def Target.assignInt (size : Struct → String → Nat) (s : State R) (t : Target) (k : Int) : Except Fault (State R) :=
  match t.ref, t.index with
  | .name n, none => .ok (s.setInt n k)
  | .member owner n, none => do
    let v ← s.locate size (.member owner n) 0
    return s.withMemory (s.memory.setInt v.block v.first k)
  | a, some i => do
    let v ← s.locate size a (← i.eval size s)
    return s.withMemory (s.memory.setInt v.block v.first k)

omit [Arithmetic R] in
/-- Moves a counter on. -/
def State.step (s : State R) (counter : String) (by' : Int) : Except Fault (Outcome R) :=
  match s.ints counter with
  | some k => .ok (.next (s.setInt counter (k + by')))
  | none => .error (.unset counter)

/-- Runs a statement. -/
def Stmt.exec (ctx : Context R) : Stmt → State R → Except Fault (Outcome R)
  | .skip, s => .ok (.next s)
  | .seq a b, s => Outcome.andThen (a.exec ctx s) (b.exec ctx)
  | .beside a b, s => Outcome.andThen (a.exec ctx s) (b.exec ctx)
  | .declareInts _, s => .ok (.next s)
  | .declareInt n e, s => do return .next (s.setInt n (← e.eval ctx.size s))
  | .declareResult n c, s => do
    let (k, m) ← c.evalInt ctx s
    return .next ((s.withMemory m).setInt n k)
  | .declareReal _ none, s => .ok (.next s)
  | .declareReal n (some e), s => do return .next (s.setReal n (← e.eval ctx.size s))
  | .declareArray n length, s => .ok (.next (s.setArray n (some ⟨.auto s.function n, 0, length⟩)))
  | .ignore _, s => .ok (.next s)
  | .assign t u e, s => do return .next (← t.assign ctx.size s u (← e.eval ctx.size s))
  | .assignInt t e, s => do return .next (← t.assignInt ctx.size s (← e.eval ctx.size s))
  | .assignResult n c, s => do
    let (k, m) ← c.evalInt ctx s
    return .next ((s.withMemory m).setInt n k)
  | .call c, s => do
    let (_, m) ← c.eval ctx s
    return .next (s.withMemory m)
  | .countUp c first bound _ body, s => do
    let a ← first.eval ctx.size s
    let s := s.setInt c a
    let b ← bound.eval ctx.size s
    rounds c (fun s => do return decide ((← (IntExpr.var c).eval ctx.size s) < (← bound.eval ctx.size s)))
      (fun s => Outcome.andThen (body.exec ctx s) fun s => s.step c 1) (b - a).toNat s
  | .countDown c last _ body, s =>
    rounds c (fun s => do return decide (0 ≤ (← (IntExpr.var c).eval ctx.size s)))
      (fun s => Outcome.andThen (body.exec ctx s) fun s => s.step c (-1)) (last + 1).toNat (s.setInt c last)
  | .when t _ body, s => do if ← t.eval ctx.size s then body.exec ctx s else return .next s
  | .branch t yes no, s => do if ← t.eval ctx.size s then yes.exec ctx s else no.exec ctx s
  | .returnInt e, s => do return .done (.int (← e.eval ctx.size s)) s.memory
  | .returnReal e, s => do return .done (.real (← e.eval ctx.size s)) s.memory
  | .returnTest t, s => do return .done (.int (if ← t.eval ctx.size s then 1 else 0)) s.memory
  | .returnResult c, s => do
    let (k, m) ← c.evalInt ctx s
    return .done (.int k) m
  | .clear owner, s => .ok (.next (s.withMemory (s.memory.clear owner)))

/-! ## Functions and files -/

omit [Arithmetic R] in
/-- The state in which a function starts: its parameters have the values of the arguments. -/
def bindParameters : List Parameter → List Value → State R → Option (State R)
  | [], [], s => some s
  | p :: ps, v :: vs, s =>
    match p.byPointer, v with
    | true, .array w => bindParameters ps vs (s.setArray p.name (some w))
    | true, .null => bindParameters ps vs (s.setArray p.name none)
    | false, .int k => bindParameters ps vs (s.setInt p.name k)
    | _, _ => none
  | _, _, _ => none

/-- The constants of a source file. -/
structure Statics (R : Type) where
  reals : String → Option R
  arrays : String → Option View

omit [Arithmetic R] in
/-- No constants. -/
def Statics.none : Statics R := ⟨fun _ => .none, fun _ => .none⟩

/-- A call of a function of a file. -/
def Function.invoke (ctx : Context R) (file : Statics R) (f : Function) (args : List Value) (m : Memory R) :
    Except Fault (Answer R × Memory R) :=
  match bindParameters f.prototype.params args ⟨f.prototype.name, fun _ => none, file.reals, file.arrays, m⟩ with
  | none => .error (.mismatch f.prototype.name)
  | some s => do
    match ← f.body.exec ctx s with
    | .next s => return (.nothing, s.memory)
    | .done a m => return (a, m)

/-- Adds an item to the constants and functions before it. -/
def Item.add (size : Struct → String → Nat) (file : Statics R × Calls R) : Item → Statics R × Calls R
  | .blank | .comment _ => file
  | .constants n vs =>
    ({ file.1 with arrays := fun n' => if n' = n then some ⟨.static n, 0, vs.length⟩ else file.1.arrays n' }, file.2)
  | .constant n v =>
    ({ file.1 with reals := fun n' => if n' = n then some (Arithmetic.ofFloat v) else file.1.reals n' }, file.2)
  | .function f =>
    (file.1, fun name =>
      if name = f.prototype.name then f.invoke ⟨size, file.2⟩ file.1 else file.2 name)

/-- What can be called once a source file is added to the functions that it may call. -/
def link (size : Struct → String → Nat) (items : List Item) (calls : Calls R) : Calls R :=
  (items.foldl (Item.add size) (.none, calls)).2

end Statements

end ControlCodegen.C
