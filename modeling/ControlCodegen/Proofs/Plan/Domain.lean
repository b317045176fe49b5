import ControlCodegen.Proofs.Plan.Shape
import Mathlib.Data.List.Basic

/-!
# `Plan.Domain`: which problems have a plan

* `Selects` : the decision table of the strategies, row by row.
* `Requirement`, `Requirement.all` : what a problem and its options have to meet, in the order in which it is asked for.
* `Decides` : a computation that fails at the first requirement that is not met.
* `setup_domain` : a plan is made if and only if all requirements are met; else the first one that is not gives the error.
-/

namespace ControlCodegen

set_option autoImplicit false

/-! ## The decision table -/

/-- The strategy for a backend, a method and a Hessian. -/
inductive Selects : QpSolver → QpMethod → Hessian → Strategy → Prop where
  | fullCondensing (h : Hessian) : Selects .qpOases .fullCondensing h .condensedGaussNewton
  | condensing (h : Hessian) : Selects .qpOases .condensing h .condensedGaussNewton
  | fullCondensingN2 : Selects .qpOases .fullCondensingN2 .gaussNewton .gaussNewtonN2
  | condensingN2 : Selects .qpOases .condensingN2 .gaussNewton .gaussNewtonN2
  | fullCondensingN2Exact : Selects .qpOases .fullCondensingN2 .exact .exactHessianN2
  | condensingN2Exact : Selects .qpOases .condensingN2 .exact .exactHessianN2
  | factorization (h : Hessian) : Selects .qpOases .fullCondensingN2Factorization h .factorizedN2
  | blockQpDunes : Selects .qpDunes .blockCondensingN2 .gaussNewton .blockQpDunes
  | blockForces : Selects .forces .blockCondensingN2 .gaussNewton .blockForces
  | sparseForces (h : Hessian) : Selects .forces .sparseSolver h .sparseForces
  | sparseHpmpc (h : Hessian) : Selects .hpmpc .sparseSolver h .sparseHpmpc
  | sparseQpDunesExact : Selects .qpDunes .sparseSolver .exact .exactHessianQpDunes
  | sparseQpDunes (h : Hessian) : h ≠ .exact → Selects .qpDunes .sparseSolver h .sparseQpDunes

theorem select_eq_ok_iff {b : QpSolver} {m : QpMethod} {h : Hessian} {k : Strategy} :
    Strategy.select b m h = .ok k ↔ Selects b m h k := by
  constructor
  · intro hselect
    cases m <;> cases b <;> cases h <;> cases hselect <;> constructor <;> simp
  · rintro ⟨⟩
    all_goals first | rfl | exact if_neg ‹_›

/-! ## Requirements -/

/-- What a problem and its options have to meet. -/
inductive Requirement where
  | generalTerms
  | uncontrolledInputs
  | freeParameters
  | hessian
  | discretization
  | horizon
  | integratorSteps
  | explicitScheme
  | newtonMethod
  | discretizedModel
  | strategy
  | leastSquares
  | blocks
  deriving DecidableEq, Repr

namespace Requirement

/-- All requirements, in the order in which they are asked for. -/
def all : List Requirement :=
  [generalTerms, uncontrolledInputs, freeParameters, hessian, discretization, horizon, integratorSteps, explicitScheme,
    newtonMethod, discretizedModel, strategy, leastSquares, blocks]

theorem mem_all (q : Requirement) : q ∈ all := by
  cases q <;> decide

/-- The kind of error where a requirement is not met. -/
def kind : Requirement → ErrorKind
  | generalTerms | leastSquares => .invalidObjective
  | uncontrolledInputs | freeParameters | horizon | strategy => .invalidArguments
  | hessian | discretization | integratorSteps | explicitScheme | newtonMethod | discretizedModel | blocks =>
    .invalidOption

/-- A requirement is met. Those on a strategy are about the one that the options select, if there is one. -/
def Holds (p : Problem) (o : Options) : Requirement → Prop
  | generalTerms => p.objective.mayerTerms = 0 ∧ p.objective.lagrangeTerms = 0 ∨
      o.hessian = .exact ∧ (p.objective.mayerTerms = 1 ∨ p.objective.lagrangeTerms = 1)
  | uncontrolledInputs => p.model.nui = 0
  | freeParameters => p.model.np = 0
  | hessian => o.hessian = .gaussNewton ∨ o.hessian = .exact
  | discretization => o.discretization = .singleShooting ∨ o.discretization = .multipleShooting
  | horizon => 0 < p.horizon
  | integratorSteps => p.horizon ≤ o.stepsOver p.horizon ∧ p.horizon ∣ o.stepsOver p.horizon
  | explicitScheme => o.scheme.isImplicit = false → p.dimensions.nxa = 0 ∧ p.dimensions.ndx = 0
  | newtonMethod => o.linearSolver = .simplifiedNewton →
      o.scheme.isImplicit = true ∧ (Integrator.Tableau.ofScheme o.scheme).stages = 3
  | discretizedModel => p.model.discretized = true → o.stepsOver p.horizon = p.horizon
  | strategy => ∃ k, Selects o.qpSolver o.qpMethod o.hessian k
  | leastSquares => ∀ k, Selects o.qpSolver o.qpMethod o.hessian k → k.usesExactHessian = false →
      p.objective.leastSquares.isSome = true ∨ p.objective.terminalLeastSquares.isSome = true
  | blocks => ∀ k, Selects o.qpSolver o.qpMethod o.hessian k → k.layout = .block →
      o.blockSize ≠ 0 ∧ o.blockSize ∣ p.horizon

end Requirement

/-! ## Computations that decide requirements -/

section Decides

variable {α β : Type} {p : Problem} {o : Options} {q : Requirement} {qs rs : List Requirement} {e : Except Cause α}

/-- A computation fails at the first requirement that is not met, with an error of its kind. -/
def Decides (p : Problem) (o : Options) {α : Type} : List Requirement → Except Cause α → Prop
  | [], e => ∃ a, e = .ok a
  | q :: qs, e => (q.Holds p o → Decides p o qs e) ∧ (¬q.Holds p o → ∃ c, e = .error c ∧ c.kind = q.kind)

theorem Decides.pass (hq : q.Holds p o) (h : Decides p o qs e) : Decides p o (q :: qs) e :=
  ⟨fun _ => h, fun hne => absurd hq hne⟩

theorem Decides.fail {c : Cause} (hq : ¬q.Holds p o) (hkind : c.kind = q.kind) :
    Decides p o (q :: qs) (.error c : Except Cause α) :=
  ⟨fun h => absurd h hq, fun _ => ⟨c, rfl, hkind⟩⟩

/-- A check of a requirement that others follow. -/
theorem Decides.refuse {cond : Prop} [Decidable cond] {c : Cause} (hcond : cond → ¬q.Holds p o) (hkind : c.kind = q.kind)
    (h : ¬cond → Decides p o (q :: qs) e) : Decides p o (q :: qs) (if cond then .error c else e) := by
  by_cases hc : cond
  · rw [if_pos hc]
    exact .fail (hcond hc) hkind
  · rw [if_neg hc]
    exact h hc

/-- The check of a requirement. -/
theorem Decides.check {cond : Prop} [Decidable cond] {c : Cause} (hcond : cond ↔ ¬q.Holds p o) (hkind : c.kind = q.kind)
    (h : q.Holds p o → Decides p o qs e) : Decides p o (q :: qs) (if cond then .error c else e) :=
  .refuse hcond.1 hkind fun hc =>
    have hq : q.Holds p o := not_not.1 fun hq => hc (hcond.2 hq)
    .pass hq (h hq)

theorem Decides.bind {f : α → Except Cause β} (h : Decides p o qs e) (hf : ∀ a, e = .ok a → Decides p o rs (f a)) :
    Decides p o (qs ++ rs) (e >>= f) := by
  induction qs with
  | nil =>
    obtain ⟨a, rfl⟩ := h
    exact hf a rfl
  | cons q qs ih =>
    refine ⟨fun hq => ih (h.1 hq), fun hq => ?_⟩
    obtain ⟨c, rfl, hkind⟩ := h.2 hq
    exact ⟨c, rfl, hkind⟩

/-- All requirements are met if and only if the computation succeeds. -/
theorem Decides.ok_iff (h : Decides p o qs e) : (∃ a, e = .ok a) ↔ ∀ q ∈ qs, q.Holds p o := by
  induction qs with
  | nil => exact ⟨fun _ _ hq => absurd hq List.not_mem_nil, fun _ => h⟩
  | cons q qs ih =>
    rw [List.forall_mem_cons]
    refine ⟨fun hok => ?_, fun hall => (ih (h.1 hall.1)).2 hall.2⟩
    have hq : q.Holds p o := by
      by_contra hq
      obtain ⟨c, hc, -⟩ := h.2 hq
      obtain ⟨a, ha⟩ := hok
      rw [hc] at ha
      cases ha
    exact ⟨hq, (ih (h.1 hq)).1 hok⟩

/-- The first requirement that is not met gives the error. -/
theorem Decides.error (h : Decides p o (qs ++ q :: rs) e) (hqs : ∀ r ∈ qs, r.Holds p o) (hq : ¬q.Holds p o) :
    ∃ c, e = .error c ∧ c.kind = q.kind := by
  induction qs with
  | nil => exact h.2 hq
  | cons r qs ih =>
    rw [List.forall_mem_cons] at hqs
    exact ih (h.1 hqs.1) hqs.2

end Decides

/-! ## The checks -/

namespace Plan

variable {p : Problem} {o : Options}

theorem generalTerms_iff : (p.objective.hasGeneralTerms = true ∧
    ¬(o.hessian = .exact ∧ (p.objective.mayerTerms = 1 ∨ p.objective.lagrangeTerms = 1))) ↔
      ¬Requirement.generalTerms.Holds p o := by
  have hterms : p.objective.hasGeneralTerms = true ↔ ¬(p.objective.mayerTerms = 0 ∧ p.objective.lagrangeTerms = 0) := by
    unfold Objective.hasGeneralTerms
    rw [Bool.or_eq_true, decide_eq_true_iff, decide_eq_true_iff]
    omega
  unfold Requirement.Holds
  rw [hterms, not_or]

theorem checkConsistency_decides :
    Decides p o [.generalTerms, .uncontrolledInputs, .freeParameters, .hessian, .discretization] (checkConsistency p o) := by
  have hpositive : ∀ n : Nat, 0 < n ↔ ¬n = 0 := fun n => Nat.pos_iff_ne_zero
  unfold checkConsistency
  refine .check generalTerms_iff rfl fun _ => .check (hpositive _) rfl fun _ => .check (hpositive _) rfl fun _ => ?_
  cases hh : o.hessian with
  | gaussNewton | exact =>
    refine .pass (by simp [Requirement.Holds, hh]) ?_
    cases hd : o.discretization with
    | singleShooting => exact .pass (.inl hd) ⟨(), rfl⟩
    | multipleShooting => exact .pass (.inr hd) ⟨(), rfl⟩
    | collocation => exact .fail (by simp [Requirement.Holds, hd]) rfl
  | constant | fullBfgsUpdate | blockBfgsUpdate | gaussNewtonWithBlockBfgs =>
    exact .fail (by simp [Requirement.Holds, hh]) rfl

theorem checkModel_decides :
    Decides p o [.horizon, .integratorSteps, .explicitScheme, .newtonMethod, .discretizedModel]
      ((unboundOf o).checkModel p (o.stepsOver p.horizon)) := by
  unfold Integrator.checkModel
  refine .check Nat.pos_iff_ne_zero.not_left.symm rfl fun hhorizon => ?_
  refine .refuse (fun h hq => absurd hq.1 (Nat.not_le.2 h)) rfl fun hfew => ?_
  refine .check ?_ rfl fun hsteps => .check ?_ rfl fun _ => .check ?_ rfl fun _ => .check ?_ rfl fun _ => ⟨_, rfl⟩
  · rw [Requirement.Holds, Nat.dvd_iff_mod_eq_zero]
    exact ⟨fun h hq => h hq.2, fun h hmod => h ⟨Nat.not_lt.1 hfew, hmod⟩⟩
  · rw [Requirement.Holds, Classical.not_imp, Bool.not_eq_true']
    refine and_congr_right fun _ => ?_
    omega
  · exact Classical.not_imp.symm
  · rw [Requirement.Holds, Classical.not_imp]
    refine and_congr_right fun _ => not_congr ?_
    rw [Nat.div_eq_iff_eq_mul_right hhorizon hsteps.2, Nat.mul_one]

theorem selectStrategy_eq_ok_iff {k : Strategy} :
    selectStrategy o = .ok k ↔ Selects o.qpSolver o.qpMethod o.hessian k := by
  rw [← select_eq_ok_iff]
  unfold selectStrategy
  cases Strategy.select o.qpSolver o.qpMethod o.hessian with
  | error gap => exact ⟨fun h => (by cases h), fun h => (by cases h)⟩
  | ok k' => exact ⟨fun h => congrArg Except.ok (Except.ok.inj h), fun h => congrArg Except.ok (Except.ok.inj h)⟩

theorem selectStrategy_decides : Decides p o [.strategy] (selectStrategy o) := by
  refine ⟨fun h => ?_, fun h => ?_⟩
  · obtain ⟨k, hk⟩ := h
    exact ⟨k, selectStrategy_eq_ok_iff.2 hk⟩
  cases hselect : selectStrategy o with
  | error c =>
    refine ⟨c, rfl, ?_⟩
    unfold selectStrategy at hselect
    cases hs : Strategy.select o.qpSolver o.qpMethod o.hessian with
    | error gap =>
      rw [hs] at hselect
      rw [← Except.error.inj hselect]
      rfl
    | ok k =>
      rw [hs] at hselect
      cases hselect
  | ok k => exact absurd ⟨k, selectStrategy_eq_ok_iff.1 hselect⟩ h

theorem solverCheck_decides {k : Strategy} (hk : selectStrategy o = .ok k) :
    Decides p o [.leastSquares, .blocks] (solverCheck p o k) := by
  have honly : ∀ {k'}, Selects o.qpSolver o.qpMethod o.hessian k' ↔ k' = k := by
    intro k'
    rw [← selectStrategy_eq_ok_iff, hk]
    exact ⟨fun h => (Except.ok.inj h).symm, fun h => by rw [h]⟩
  unfold solverCheck
  refine .check ?_ rfl fun _ => .check ?_ rfl fun _ => ⟨_, rfl⟩
  · simp only [Requirement.Holds, honly, forall_eq, Classical.not_imp]
    unfold Objective.hasLeastSquares
    simp
  · simp only [Requirement.Holds, honly, forall_eq, Classical.not_imp, Nat.dvd_iff_mod_eq_zero]
    refine and_congr_right fun _ => ?_
    omega

theorem resolve_decides : Decides p o Requirement.all (resolve p o .builtin) := by
  rw [resolve_eq]
  refine checkConsistency_decides.bind fun _ _ => checkModel_decides.bind fun _ _ => ?_
  exact selectStrategy_decides.bind fun k hk => (solverCheck_decides hk).bind fun _ _ => ⟨of p o k, rfl⟩

end Plan

/-- A plan is made if and only if all requirements are met. Else the first one that is not met gives the kind of error. -/
theorem setup_domain (p : Problem) (o : Options) :
    ((∃ s plan, Session.setup { problem := p, options := o } = .ok (s, plan)) ↔
      ∀ q : Requirement, q.Holds p o) ∧
    ∀ before q after, Requirement.all = before ++ q :: after → (∀ r ∈ before, r.Holds p o) → ¬q.Holds p o →
      ∃ c, Session.setup { problem := p, options := o } = .error c ∧ c.kind = q.kind := by
  have hsetup : Decides p o (Requirement.all ++ []) (Session.setup { problem := p, options := o }) :=
    Plan.resolve_decides.bind fun plan _ => ⟨_, rfl⟩
  rw [List.append_nil] at hsetup
  refine ⟨?_, fun before q after hall hbefore hq => ?_⟩
  · refine (Prod.exists.symm.trans hsetup.ok_iff).trans ?_
    exact ⟨fun h q => h q q.mem_all, fun h q _ => h q⟩
  · rw [hall] at hsetup
    exact hsetup.error hbefore hq

end ControlCodegen
