import ControlCodegen.Proofs.Plan.Shape

/-!
# `Plan.Session`: sessions and why their setup fails

* `Session.Coherent` : a session whose plan, if it has one, is that of its problem. New sessions are coherent, and a
  setup keeps them so.
* `Session.Coherent.setup_ok` : the plan of a coherent session, also when it was made before.
* `Cause.isOfSetup`, `Session.isOfSetup_of_setup` : the causes for which a setup fails, whatever the registry.
-/

namespace ControlCodegen

set_option autoImplicit false

/-! ## Causes -/

namespace Cause

/-- What a setup can find wrong with a problem and its options. -/
def isOfSetup : Cause → Bool
  | generalTerms .. | uncontrolledInputs _ | freeParameters _ | unsupportedHessian _ | unsupportedDiscretization _
  | unregisteredScheme _ | emptyHorizon | tooFewSteps .. | unevenSteps .. | explicitScheme _ | linearSolverScheme ..
  | discretizedSteps | noStrategy .. | leastSquaresRequired _ | unevenBlocks .. => true
  | _ => false

/-- What can be wrong with a template and its values. -/
def isOfTemplate : Cause → Bool
  | missingPlaceholders .. | regularizationDimension | regularizationFloor _ | simulinkBackend _ => true
  | _ => false

theorem isOfTemplate_of_isOfSetup {c : Cause} (h : c.isOfSetup = true) : c.isOfTemplate = false := by
  cases c with
  | missingPlaceholders | regularizationDimension | regularizationFloor | simulinkBackend => cases h
  | _ => rfl

/-- The setup blames the problem or its options. -/
theorem kind_of_isOfSetup {c : Cause} (h : c.isOfSetup = true) :
    c.kind = .invalidArguments ∨ c.kind = .invalidOption ∨ c.kind = .invalidObjective := by
  cases c with
  | generalTerms | leastSquaresRequired => exact .inr (.inr rfl)
  | uncontrolledInputs | freeParameters | emptyHorizon | noStrategy => exact .inl rfl
  | unsupportedHessian | unsupportedDiscretization | unregisteredScheme | tooFewSteps | unevenSteps | explicitScheme
  | linearSolverScheme | discretizedSteps | unevenBlocks => exact .inr (.inl rfl)
  | _ => cases h

end Cause

namespace Plan

/-- A computation that fails only for what a setup can find wrong. -/
def FailsInSetup {α : Type} (e : Except Cause α) : Prop := ∀ c, e = .error c → c.isOfSetup = true

section

variable {α β : Type} {e : Except Cause α}

theorem failsInSetup_ok (a : α) : FailsInSetup (.ok a) := fun _ h => (by cases h)

theorem failsInSetup_error {c : Cause} (hc : c.isOfSetup = true) : FailsInSetup (.error c : Except Cause α) := by
  rintro c' h
  obtain rfl := Except.error.inj h
  exact hc

theorem FailsInSetup.bind {f : α → Except Cause β} (h : FailsInSetup e) (hf : ∀ a, FailsInSetup (f a)) :
    FailsInSetup (e >>= f) := by
  cases e with
  | error c => exact failsInSetup_error (h c rfl)
  | ok a => exact hf a

theorem FailsInSetup.check {cond : Prop} [Decidable cond] {c : Cause} (hc : c.isOfSetup = true) (h : FailsInSetup e) :
    FailsInSetup (if cond then .error c else e) := by
  by_cases hcond : cond
  · rw [if_pos hcond]
    exact failsInSetup_error hc
  · rw [if_neg hcond]
    exact h

end

variable {p : Problem} {o : Options}

theorem failsInSetup_checkConsistency : FailsInSetup (checkConsistency p o) := by
  unfold checkConsistency
  refine .check rfl (.check rfl (.check rfl ?_))
  cases o.hessian with
  | gaussNewton | exact =>
    cases o.discretization with
    | singleShooting | multipleShooting => exact failsInSetup_ok ()
    | collocation => exact failsInSetup_error rfl
  | constant | fullBfgsUpdate | blockBfgsUpdate | gaussNewtonWithBlockBfgs => exact failsInSetup_error rfl

theorem failsInSetup_create (r : Integrator.Registry) :
    FailsInSetup (r.create o.scheme o.moduleName o.linearSolver) := by
  unfold Integrator.Registry.create
  split
  · exact failsInSetup_ok _
  · exact failsInSetup_error rfl

theorem failsInSetup_checkModel (g : Integrator) (steps : Nat) : FailsInSetup (g.checkModel p steps) := by
  unfold Integrator.checkModel
  exact .check rfl (.check rfl (.check rfl (.check rfl (.check rfl (.check rfl (failsInSetup_ok ()))))))

theorem failsInSetup_selectStrategy : FailsInSetup (selectStrategy o) := by
  unfold selectStrategy
  cases Strategy.select o.qpSolver o.qpMethod o.hessian with
  | error gap => exact failsInSetup_error rfl
  | ok k => exact failsInSetup_ok k

theorem failsInSetup_solverCheck (k : Strategy) : FailsInSetup (solverCheck p o k) := by
  unfold solverCheck
  exact .check rfl (.check rfl (failsInSetup_ok ()))

theorem failsInSetup_resolve (r : Integrator.Registry) : FailsInSetup (resolve p o r) := by
  rw [resolve_eq_assemble]
  refine failsInSetup_checkConsistency.bind fun _ => (failsInSetup_create r).bind fun g => ?_
  refine (failsInSetup_checkModel g _).bind fun _ => failsInSetup_selectStrategy.bind fun k => ?_
  exact (failsInSetup_solverCheck k).bind fun _ => failsInSetup_ok _

end Plan

/-! ## Sessions -/

namespace Session

variable {s s' : Session} {plan : Plan} {c : Cause}

/-- The plan of a session, if there is one, is that of its problem. -/
def Coherent (s : Session) : Prop := ∀ plan, s.plan = some plan → Plan.resolve s.problem s.options s.registry = .ok plan

theorem coherent_of_none (h : s.plan = none) : s.Coherent := by
  intro plan hplan
  rw [h] at hplan
  cases hplan

/-- A setup gives the plan of the problem, and keeps it. -/
theorem Coherent.setup_ok (h : s.Coherent) (hsetup : s.setup = .ok (s', plan)) :
    Plan.resolve s.problem s.options s.registry = .ok plan ∧ s' = { s with plan := some plan } := by
  unfold setup at hsetup
  split at hsetup
  · rename_i plan' hplan
    obtain ⟨rfl, rfl⟩ := Prod.mk.inj (Except.ok.inj hsetup)
    exact ⟨h _ hplan, by rw [← hplan]⟩
  · obtain ⟨plan', hresolve, hsetup⟩ := Plan.bind_eq_ok hsetup
    obtain ⟨rfl, rfl⟩ := Prod.mk.inj (Except.ok.inj hsetup)
    exact ⟨hresolve, rfl⟩

/-- A session stays coherent. -/
theorem Coherent.setup (h : s.Coherent) (hsetup : s.setup = .ok (s', plan)) : s'.Coherent := by
  obtain ⟨hresolve, rfl⟩ := h.setup_ok hsetup
  intro plan' hplan
  obtain rfl := Option.some.inj hplan
  exact hresolve

/-- Without a plan, a setup comes to what comes of the problem. -/
theorem setup_of_none (h : s.plan = none) :
    s.setup = (Plan.resolve s.problem s.options s.registry).map fun plan => ({ s with plan := some plan }, plan) := by
  unfold setup
  rw [h]
  cases Plan.resolve s.problem s.options s.registry <;> rfl

/-- A coherent session for a problem that has a plan can be set up, whether or not it was before. -/
theorem Coherent.setup_of_resolve (h : s.Coherent) (hplan : Plan.resolve s.problem s.options s.registry = .ok plan) :
    s.setup = .ok ({ s with plan := some plan }, plan) := by
  cases hkept : s.plan with
  | none =>
    rw [setup_of_none hkept, hplan]
    rfl
  | some plan' =>
    obtain rfl := Except.ok.inj ((h plan' hkept).symm.trans hplan)
    unfold Session.setup
    rw [hkept]
    dsimp only
    rw [← hkept]

theorem plan_of_setup_error (hsetup : s.setup = .error c) : s.plan = none := by
  unfold setup at hsetup
  split at hsetup
  · cases hsetup
  · assumption

theorem isOfSetup_of_setup (hsetup : s.setup = .error c) : c.isOfSetup = true := by
  have hfails : Plan.FailsInSetup s.setup := by
    unfold Session.setup
    split
    · exact Plan.failsInSetup_ok _
    · exact (Plan.failsInSetup_resolve _).bind fun _ => Plan.failsInSetup_ok _
  exact hfails c hsetup

end Session

end ControlCodegen
