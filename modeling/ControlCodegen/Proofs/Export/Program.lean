import ControlCodegen.Proofs.C.Link
import ControlCodegen.Proofs.Export.Members
import ControlCodegen.Proofs.Integrator.Bounds
import ControlCodegen.Proofs.Solver.Bounds

/-!
# `Export.Program`: the generated program

* `Surroundings` : what the user and the backend provide, as functions of memory.
* `modelCall`, `outside` : calls of what is provided.
* `Export.program` : the functions of the integrator and of the solver, on top of what is provided.
* `Argument`, `CallFits` : the arguments that callers promise.
* `Clash`, `OwnNames` : the fault of a model function that has the name of another function, and that none has.

A function of the model reads the augmented state and writes a result of known length; where there is less room than that,
the call is out of bounds. What it writes may depend on all of memory and on the number of calls before.
-/

namespace ControlCodegen.Export

open C Integrator

set_option autoImplicit false

/-- What is provided from outside: the entries that the functions of the model write, given memory and the augmented state,
and the status and the memory that the backend leaves. -/
structure Surroundings (R : Type) where
  rhs : Memory R → View → Nat → R
  jacobian : Memory R → View → Nat → R
  solve : Memory R → Int × Memory R

section

variable {R : Type}

/-- A call of a function of the model. -/
def modelCall (name : String) (reads writes : Nat) (f : Memory R → View → Nat → R) (args : List Value) (m : Memory R) :
    Except Fault (Answer R × Memory R) :=
  match args with
  | [.array v, .array w] =>
    if v.length < reads then .error (.outOfBounds (.name "in") v.length)
    else if w.length < writes then .error (.outOfBounds (.name "out") w.length)
    else .ok (.nothing, { m.fill w.block w.first writes (f m v) with clock := m.clock + 1 })
  | _ => .error (.mismatch name)

/-- A call of the backend. -/
def backendCall (name : String) (f : Memory R → Int × Memory R) (args : List Value) (m : Memory R) :
    Except Fault (Answer R × Memory R) :=
  match args with
  | [] => .ok (.int (f m).1, { (f m).2 with clock := m.clock + 1 })
  | _ => .error (.mismatch name)

/-- The functions that the generated files rely on. -/
def outside (b : Binding) (s : Solver) (user : Surroundings R) : Calls R := fun name =>
  if name = b.rhs then modelCall name b.length b.integratedLength user.rhs
  else if name = b.jacobian then modelCall name b.length (b.integratedLength * b.integratedLength) user.jacobian
  else if name = s.qpSolvePrototype.name then backendCall name user.solve
  else fun _ _ => .error (.undefined name)

variable [Arithmetic R]

/-- The functions of both generated files. -/
def functions (plan : Plan) : Except Cause (List Function) := do
  return Item.functions (← plan.integrator.items) ++ Item.functions (← plan.solver.items)

/-- Constants are no functions. -/
theorem functions_constants (g : Integrator) (b : Binding) : Item.functions (Integrator.constants g b) = [] := by
  unfold Integrator.constants
  cases b.stepSize <;> rfl

/-- The functions before that of the integrator are those of the linear solver. -/
theorem functions_start (g : Integrator) (b : Binding) :
    Item.functions (Integrator.constants g b ++ ((g.newtonSystem b).map LinearSystem.items).getD []) =
      ((g.newtonSystem b).map fun system => [system.solve, system.solveAgain]).getD [] := by
  rw [Item.functions_append, functions_constants, List.nil_append]
  cases g.newtonSystem b <;> rfl

/-- What can be called once both generated files are compiled. -/
def program (plan : Plan) (user : Surroundings R) : Except Cause (Calls R) := do
  let b ← plan.integrator.bound
  let file := link (elements plan) (← plan.integrator.items) (outside b plan.solver user)
  return link (elements plan) (← plan.solver.items) file

end

/-- An array with so many elements. -/
def IsArray (length : Nat) (v : Value) : Prop := ∃ w : View, v = .array w ∧ w.length = length

/-- The functions of the model have names of their own, beside those in the file of the integrator. -/
structure OwnNames (g : Integrator) (b : Binding) (items : List Item) : Prop where
  rhs : b.rhs ∉ Item.names items
  jacobian : ∀ system, g.newtonSystem b = some system → b.jacobian ∉ Item.names items

end ControlCodegen.Export
