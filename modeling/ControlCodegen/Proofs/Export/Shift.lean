import ControlCodegen.Proofs.Export.Prototypes
import ControlCodegen.Proofs.Integrator.StepSize
import ControlCodegen.Proofs.Solver.Shift

/-!
# `Export.Shift`: the generated program shifts by one interval

* `RowFits` : what callers promise of a last row.
* `TrajectoriesShift` : states and controls move up by one interval, and nothing else changes.
* `trajectories_shift` : they do in the program of every plan.

The last row may be a part of the trajectory itself, or overlap it.
-/

namespace ControlCodegen.Export

open C Integrator Plan Solver

set_option autoImplicit false

/-- A row has its elements, all of them within the member that it is a part of. -/
def RowFits (plan : Plan) (width : Nat) (row : Option View) : Prop :=
  ∀ v, row = some v → width ≤ v.length ∧
    ∀ owner name, v.block = .member owner name → v.first + v.length ≤ elements plan owner name

/-- A row of a trajectory starts in the last row of that or before it. -/
theorem RowFits.reaches {plan : Plan} {trajectory : String} {last width : Nat} {row : Option View}
    (h : RowFits plan width row) (hsize : elements plan .vars trajectory = last + width) :
    Reaches (.member .vars trajectory) last width row := by
  intro v hv
  obtain ⟨hlength, hwithin⟩ := h v hv
  refine ⟨hlength, fun hb => ?_⟩
  have hend := hwithin _ _ hb
  omega

section Program

variable {R : Type}

/-- Both trajectories shift by one interval, whatever memory a call finds. A last state is given by a strategy of one and
a pointer, a last control by a pointer. -/
structure TrajectoriesShift (p : Problem) (plan : Plan) (calls : Calls R) : Prop where
  room : elements plan .vars "x" = (p.horizon + 1) * p.dimensions.nx ∧
    elements plan .vars "u" = p.horizon * p.dimensions.nu
  states : ∀ strategy xEnd m, RowFits plan p.dimensions.nx (if strategy = 1 then xEnd else none) →
    ∃ m', calls plan.solver.shiftStatesPrototype.name [.int strategy, pointer xEnd] m = .ok (.nothing, m') ∧
      Shifted "x" (p.horizon + 1) p.dimensions.nx (if strategy = 1 then xEnd else none) m m'
  controls : ∀ uEnd m, RowFits plan p.dimensions.nu uEnd →
    ∃ m', calls plan.solver.shiftControlsPrototype.name [pointer uEnd] m = .ok (.nothing, m') ∧
      Shifted "u" p.horizon p.dimensions.nu uEnd m m'

variable [Arithmetic R] (p : Problem) (o : Options) (k : Strategy) (g : Integrator) (user : Surroundings R)

/-- What the solver of a plan can call. -/
def integratorCalls : Calls R :=
  link (elements (assemble p o k g)) (integratorItems p o g)
    (outside (bindingOf p o) (solverWith p o k (linkTo p o g)) user)

/-- The program of a plan. -/
def assembled : Calls R := link (elements (assemble p o k g)) (solverItems p o k g) (integratorCalls p o k g user)

theorem program_assemble : program (assemble p o k g) user = .ok (assembled p o k g user) := rfl

/-- The functions of the solver before a position, on top of what it can call. -/
def contextAt (i : Nat) : Context R :=
  ⟨elements (assemble p o k g), (Item.addAll (elements (assemble p o k g))
    ((((solverWith p o k (linkTo p o g)).functions (linkTo p o g)).take i).map .function)
    (.none, integratorCalls p o k g user)).2⟩

theorem assembled_getElem {i : Nat} (hi : i < ((solverWith p o k (linkTo p o g)).functions (linkTo p o g)).length) :
    assembled p o k g user ((solverWith p o k (linkTo p o g)).functions (linkTo p o g))[i].prototype.name =
      ((solverWith p o k (linkTo p o g)).functions (linkTo p o g))[i].invoke (contextAt p o k g user i) .none := by
  let file : Statics R × Calls R := (.none, integratorCalls p o k g user)
  have hcall : (Item.addAll (elements (assemble p o k g)) _ file).2 _ = _ :=
    Item.addAll_getElem (nodup_solver (solverWith p o k (linkTo p o g)) (linkTo p o g)) hi
  exact hcall

variable {p o k g user}

theorem trajectoriesShift_assemble (hhorizon : 0 < p.horizon) :
    TrajectoriesShift p (assemble p o k g) (assembled p o k g user) := by
  have hx : elements (assemble p o k g) .vars "x" = (p.horizon + 1) * p.dimensions.nx :=
    elements_of_size? (solverSizes (assemble p o k g)).x
  have hu : elements (assemble p o k g) .vars "u" = p.horizon * p.dimensions.nu :=
    elements_of_size? (solverSizes (assemble p o k g)).u
  have hstates : elements (assemble p o k g) .vars "x" = p.horizon * p.dimensions.nx + p.dimensions.nx :=
    hx.trans (Nat.succ_mul _ _)
  have hcontrols : elements (assemble p o k g) .vars "u" =
      (p.horizon - 1) * p.dimensions.nu + p.dimensions.nu := by
    rw [hu, ← Nat.succ_mul, Nat.succ_eq_add_one, Nat.sub_add_cancel hhorizon]
  refine ⟨⟨hx, hu⟩, fun strategy xEnd m hrow => ?_, fun uEnd m hrow => ?_⟩
  · have hreach := hrow.reaches hstates
    refine ⟨_, ?_, shifted_shift (Nat.succ_pos _) hreach⟩
    exact (congrFun (congrFun (assembled_getElem p o k g user (show 5 < 9 by decide)) _) m).trans
      (invoke_shiftStates (Nat.le_of_eq hstates.symm) hreach)
  · have hreach := hrow.reaches hcontrols
    refine ⟨_, ?_, shifted_shift hhorizon hreach⟩
    exact (congrFun (congrFun (assembled_getElem p o k g user (show 6 < 9 by decide)) _) m).trans
      (invoke_shiftControls (Nat.le_of_eq hcontrols.symm) hreach)

end Program

/-- The generated program shifts the states and the controls by one interval, and changes nothing else. -/
theorem trajectories_shift {p : Problem} {o : Options} {r : Registry} {plan : Plan}
    (hresolve : resolve p o r = .ok plan) {R : Type} [Arithmetic R] (user : Surroundings R) :
    ∃ calls, program plan user = .ok calls ∧ TrajectoriesShift p plan calls := by
  obtain ⟨g, k, -, rfl, -, hmodel, -⟩ := resolve_assemble hresolve
  exact ⟨_, program_assemble p o k g user, trajectoriesShift_assemble (checkModel_ok hmodel).1⟩

/-- One interval without controls. -/
def shortProblem : Problem where
  horizon := 1
  dimensions := { nx := 2, nu := 0 }
  objective := { leastSquares := some { ny := 2 } }

theorem trajectories_shift_shortProblem :
    ∃ plan calls, resolve shortProblem {} .builtin = .ok plan ∧
      program plan (⟨fun _ _ _ => 0, fun _ _ _ => 0, fun m => (0, m)⟩ : Surroundings Float) = .ok calls ∧
      TrajectoriesShift shortProblem plan calls := by
  have hresolve : ∃ plan, resolve shortProblem {} .builtin = .ok plan := ⟨_, by rfl⟩
  obtain ⟨plan, hresolve⟩ := hresolve
  obtain ⟨calls, hcalls⟩ := trajectories_shift hresolve
    (⟨fun _ _ _ => 0, fun _ _ _ => 0, fun m => (0, m)⟩ : Surroundings Float)
  exact ⟨plan, calls, hresolve, hcalls⟩

end ControlCodegen.Export
