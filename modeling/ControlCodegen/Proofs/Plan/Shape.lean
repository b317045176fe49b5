import ControlCodegen.Plan.Session

/-!
# `Plan.Shape`: what a plan is made of

* `Plan.bindingOf`, `Plan.integratorOf`, `Plan.linkOf`, `Plan.solverOf`, `Plan.of` : the parts of a plan, from the problem,
  the options and the strategy alone.
* `Plan.boundTo`, `Plan.linkTo`, `Plan.solverWith`, `Plan.assemble` : the same around the integrator that a registry makes.
* `Plan.solverCheck` : what the configuration of a solver asks for.
* `Plan.resolve_eq_assemble`, `Plan.resolve_assemble` : a problem is resolved by its checks, whatever the registry.
* `Plan.resolve_eq`, `Plan.resolve_ok`, `Session.setup_ok` : the same with the standard integrators.
-/

namespace ControlCodegen

open Integrator

set_option autoImplicit false

namespace Plan

section

variable (p : Problem) (o : Options) (k : Strategy)

/-- What the integrator takes from the problem. -/
def bindingOf : Binding where
  dims := p.dimensions
  rhs := p.model.rhs
  discretized := p.model.discretized
  stepsPerInterval := o.stepsOver p.horizon / p.horizon
  stepSize := .ofGrid Float.ofNat p.grid p.hasEquidistantGrid (o.stepsOver p.horizon / p.horizon) (o.stepsOver p.horizon)

/-- The integrator of the options, with nothing bound to it. -/
def unboundOf : Integrator where
  scheme := o.scheme
  moduleName := o.moduleName
  linearSolver := o.linearSolver

/-- The integrator of the plan. -/
def integratorOf : Integrator := { unboundOf o with binding := some (bindingOf p o) }

/-- What the solver knows of the integrator. -/
def linkOf : Link where
  function := (integratorOf p o).functionName
  takesIndex := (bindingOf p o).stepSize.isPerInterval
  stages := (integratorOf p o).stages
  stepsPerInterval := (bindingOf p o).stepsPerInterval
  integratedLength := (bindingOf p o).integratedLength
  length := (bindingOf p o).length

/-- The solver of the plan. -/
def solverOf : Solver :=
  { Solver.ofOptions k o with
    extent := some ⟨p.horizon, p.dimensions⟩
    link := some (linkOf p o)
    objective := some p.objective
    constraints := p.constraints
    levenbergMarquardt := o.levenbergMarquardt
    ready := true }

/-- The plan of a problem for a strategy. -/
def of : Plan := ⟨integratorOf p o, solverOf p o k, .collect p o (integratorOf p o) (solverOf p o k)⟩

/-- What the configuration of the solver asks for. -/
def solverCheck : Except Cause Unit :=
  if !k.usesExactHessian ∧ !p.objective.hasLeastSquares then .error (.leastSquaresRequired k)
  else if k.layout = .block ∧ (o.blockSize = 0 ∨ p.horizon % o.blockSize ≠ 0) then
    .error (.unevenBlocks p.horizon o.blockSize)
  else .ok ()

/-! ## Around an integrator of any make -/

/-- An integrator, bound to the problem. -/
def boundTo (g : Integrator) : Integrator := { g with binding := some (bindingOf p o) }

/-- What the solver knows of the bound integrator. -/
def linkTo (g : Integrator) : Link where
  function := g.functionName
  takesIndex := (bindingOf p o).stepSize.isPerInterval
  stages := g.stages
  stepsPerInterval := (bindingOf p o).stepsPerInterval
  integratedLength := (bindingOf p o).integratedLength
  length := (bindingOf p o).length

/-- The solver that calls the function behind a link. -/
def solverWith (l : Link) : Solver :=
  { Solver.ofOptions k o with
    extent := some ⟨p.horizon, p.dimensions⟩
    link := some l
    objective := some p.objective
    constraints := p.constraints
    levenbergMarquardt := o.levenbergMarquardt
    ready := true }

/-- The plan of a problem for a strategy and an integrator. -/
def assemble (g : Integrator) : Plan :=
  ⟨boundTo p o g, solverWith p o k (linkTo p o g),
    .collect p o (boundTo p o g) (solverWith p o k (linkTo p o g))⟩

theorem configureSolver_eq (l : Link) :
    configureSolver p o k l = (solverCheck p o k).map fun _ => solverWith p o k l := by
  let s := ((Solver.ofOptions k o).setExtent ⟨p.horizon, p.dimensions⟩).attachIntegrator l
  change (s.setObjective p.objective >>= _) = _
  unfold solverCheck
  by_cases hls : !k.usesExactHessian ∧ !p.objective.hasLeastSquares
  · have hset : s.setObjective p.objective = .error (.leastSquaresRequired k) := if_pos hls
    rw [hset, if_pos hls]
    rfl
  · have hset : s.setObjective p.objective = .ok { s with objective := some p.objective, ready := false } := if_neg hls
    rw [hset, if_neg hls]
    change (if k.layout = .block ∧ (o.blockSize = 0 ∨ p.horizon % o.blockSize ≠ 0) then _ else _) = _
    by_cases hblocks : k.layout = .block ∧ (o.blockSize = 0 ∨ p.horizon % o.blockSize ≠ 0)
    · rw [if_pos hblocks, if_pos hblocks]
      rfl
    · rw [if_neg hblocks, if_neg hblocks]
      rfl

/-- A problem is resolved by the checks of all parts, in turn. -/
theorem resolve_eq_assemble (r : Registry) :
    resolve p o r = (do
      checkConsistency p o
      let g ← r.create o.scheme o.moduleName o.linearSolver
      g.checkModel p (o.stepsOver p.horizon)
      let k ← selectStrategy o
      solverCheck p o k
      return assemble p o k g) := by
  unfold resolve
  cases checkConsistency p o with
  | error c => rfl
  | ok u =>
    change (r.create o.scheme o.moduleName o.linearSolver >>= _) = (r.create o.scheme o.moduleName o.linearSolver >>= _)
    cases r.create o.scheme o.moduleName o.linearSolver with
    | error c => rfl
    | ok g =>
      change (g.bind p (o.stepsOver p.horizon) >>= _) = (g.checkModel p (o.stepsOver p.horizon) >>= _)
      unfold Integrator.bind
      cases g.checkModel p (o.stepsOver p.horizon) with
      | error c => rfl
      | ok u =>
        change (selectStrategy o >>= fun k => configureSolver p o k (linkTo p o g) >>= _) = (selectStrategy o >>= _)
        cases selectStrategy o with
        | error c => rfl
        | ok k =>
          change (configureSolver p o k (linkTo p o g) >>= _) = (solverCheck p o k >>= _)
          rw [configureSolver_eq]
          cases solverCheck p o k <;> rfl

/-- The checks of all parts, with the standard integrators. -/
theorem resolve_eq :
    resolve p o .builtin = (do
      checkConsistency p o
      (unboundOf o).checkModel p (o.stepsOver p.horizon)
      let k ← selectStrategy o
      solverCheck p o k
      return of p o k) := by
  rw [resolve_eq_assemble]
  rfl

end

variable {p : Problem} {o : Options} {plan : Plan}

/-- A computation that succeeds has succeeded in its first step. -/
theorem bind_eq_ok {α β : Type} {e : Except Cause α} {f : α → Except Cause β} {b : β} (h : e >>= f = .ok b) :
    ∃ a, e = .ok a ∧ f a = .ok b := by
  cases e with
  | error c => cases h
  | ok a => exact ⟨a, rfl, h⟩

/-- The plan that comes of a problem, and what its checks have found. -/
theorem resolve_assemble {r : Registry} (h : resolve p o r = .ok plan) :
    ∃ g k, r.create o.scheme o.moduleName o.linearSolver = .ok g ∧ plan = assemble p o k g ∧
      checkConsistency p o = .ok () ∧ g.checkModel p (o.stepsOver p.horizon) = .ok () ∧ selectStrategy o = .ok k ∧
      solverCheck p o k = .ok () := by
  rw [resolve_eq_assemble] at h
  obtain ⟨⟨⟩, hconsistency, h⟩ := bind_eq_ok h
  obtain ⟨g, hg, h⟩ := bind_eq_ok h
  obtain ⟨⟨⟩, hmodel, h⟩ := bind_eq_ok h
  obtain ⟨k, hk, h⟩ := bind_eq_ok h
  obtain ⟨⟨⟩, hsolver, h⟩ := bind_eq_ok h
  exact ⟨g, k, hg, (Except.ok.inj h).symm, hconsistency, hmodel, hk, hsolver⟩

/-- A plan is for the module of its options. -/
theorem moduleName_of_resolve {r : Registry} (h : resolve p o r = .ok plan) :
    plan.constants.moduleName = o.moduleName := by
  obtain ⟨g, k, -, rfl, -⟩ := resolve_assemble h
  rfl

/-- The solver of a block strategy has a horizon of whole blocks. -/
theorem blocks_of_solverCheck {k : Strategy} (h : solverCheck p o k = .ok ()) (hk : k.layout = .block) :
    0 < o.blockSize ∧ o.blockSize ∣ p.horizon := by
  unfold solverCheck at h
  split at h
  · cases h
  · split at h
    · cases h
    · rename_i hblocks
      rw [not_and, not_or] at hblocks
      obtain ⟨hsize, hmod⟩ := hblocks hk
      exact ⟨Nat.pos_of_ne_zero hsize, Nat.dvd_of_mod_eq_zero (Decidable.not_not.1 hmod)⟩

theorem resolve_ok (h : resolve p o .builtin = .ok plan) :
    ∃ k, plan = of p o k ∧ checkConsistency p o = .ok () ∧
      (unboundOf o).checkModel p (o.stepsOver p.horizon) = .ok () ∧ selectStrategy o = .ok k ∧
      solverCheck p o k = .ok () := by
  obtain ⟨g, k, hg, hplan, hconsistency, hmodel, hk, hsolver⟩ := resolve_assemble h
  obtain rfl : unboundOf o = g := Except.ok.inj hg
  exact ⟨k, hplan, hconsistency, hmodel, hk, hsolver⟩

end Plan

/-- A session that has no plan yet makes the plan of its problem. -/
theorem Session.setup_ok {p : Problem} {o : Options} {s : Session} {plan : Plan}
    (h : Session.setup { problem := p, options := o } = .ok (s, plan)) : Plan.resolve p o .builtin = .ok plan := by
  change (Plan.resolve p o .builtin >>= fun plan => Except.ok (_, plan)) = _ at h
  cases hr : Plan.resolve p o .builtin with
  | error c =>
    rw [hr] at h
    cases h
  | ok plan' =>
    rw [hr] at h
    exact congrArg Except.ok (congrArg Prod.snd (Except.ok.inj h))

end ControlCodegen
