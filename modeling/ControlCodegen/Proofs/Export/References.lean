import ControlCodegen.Proofs.C.References
import ControlCodegen.Proofs.Export.Bounds

/-!
# `Export.References`: the members that the generated files refer to

* `Declared` : a member that stands in the common header, where members without elements are left out.
* `Integrator.referenced`, `Solver.referenced` : the members that the generated functions refer to.
* `members_declared_iff` : all of them are declared if and only if there are controls.

The copy of the online data is left out where there are none. The controls and their sensitivities are referred to in any
case.
-/

namespace ControlCodegen

open C

set_option autoImplicit false

/-- A closed list is compared entry by entry. -/
theorem subset_of_all {α : Type} [DecidableEq α] {xs ys : List α} (h : xs.all (fun x => decide (x ∈ ys)) = true) :
    xs ⊆ ys := fun x hx => of_decide_eq_true (List.all_eq_true.1 h x hx)

/-! ## The integrator -/

namespace Integrator

/-- The members that the integrator refers to. -/
def referenced (g : Integrator) (b : Binding) : List (Struct × String) :=
  [(.workspace, "rk_ttt"), (.workspace, "rk_xxx"), (.workspace, "rk_kkk")] ++
    if (g.newtonSystem b).isSome then
      [(.workspace, "rk_A"), (.workspace, "rk_b"), (.workspace, "rk_perm"), (.workspace, "rk_jac")]
    else []

theorem members_prologue (g : Integrator) (b : Binding) : (prologue g b).members ⊆ referenced g b := by
  have hlist : (prologue g b).members = [(.workspace, "rk_ttt"), (.workspace, "rk_xxx")] := by
    unfold prologue
    cases b.discretized with
    | true => rfl
    | false =>
      unfold stepSize
      cases b.stepSize <;> rfl
  rw [hlist]
  exact List.Subset.trans (by decide) (List.subset_append_left _ _)

theorem members_steps (g : Integrator) (b : Binding) : (steps g b).members ⊆ referenced g b := by
  unfold steps referenced
  by_cases hdiscretized : b.discretized = true
  · rw [if_pos hdiscretized]
    refine List.Subset.trans ?_ (List.subset_append_left _ _)
    exact subset_of_all rfl
  · rw [if_neg hdiscretized]
    unfold computeStages
    cases g.newtonSystem b with
    | none => exact subset_of_all rfl
    | some system => exact subset_of_all rfl

theorem members_function (g : Integrator) (b : Binding) : (function g b).body.members ⊆ referenced g b := by
  have hparts : (function g b).body.members = (prologue g b).members ++ ((steps g b).members ++ []) := rfl
  rw [hparts, List.append_nil]
  exact List.append_subset.2 ⟨members_prologue g b, members_steps g b⟩

end Integrator

/-! ## The solver -/

namespace Solver

/-- The members that every solver refers to. -/
def alwaysReferenced : List (Struct × String) :=
  [(.workspace, "state"), (.vars, "x"), (.vars, "u"), (.workspace, "d"), (.workspace, "evGx"), (.workspace, "evGu"),
    (.workspace, "H"), (.workspace, "g"), (.workspace, "dz"), (.workspace, "objValue")]

/-- The members that the solver refers to. -/
def referenced (s : Solver) : List (Struct × String) :=
  alwaysReferenced ++ (if 0 < s.dims.nod then [(.vars, "od")] else []) ++
    if s.fixedInitialState then [(.vars, "x0")] else []

theorem alwaysReferenced_subset (s : Solver) : alwaysReferenced ⊆ referenced s :=
  List.Subset.trans (List.subset_append_left _ _) (List.subset_append_left _ _)

theorem members_simulationBody (s : Solver) (l : Integrator.Link) : (simulationBody s l).members ⊆ referenced s := by
  unfold simulationBody referenced
  refine List.Subset.trans ?_ (List.subset_append_left _ _)
  dsimp only
  by_cases hnod : 0 < s.dims.nod
  · rw [if_pos hnod, if_pos hnod]
    cases l.takesIndex <;> exact subset_of_all rfl
  · rw [if_neg hnod, if_neg hnod]
    cases l.takesIndex <;> exact subset_of_all rfl

theorem members_feedbackBody (s : Solver) : (feedbackBody s).members ⊆ referenced s := by
  unfold feedbackBody
  cases hfixed : s.fixedInitialState with
  | true =>
    have hx : [(Struct.vars, "x")] ⊆ referenced s :=
      List.Subset.trans (subset_of_all rfl) (alwaysReferenced_subset s)
    have hx0 : [(Struct.vars, "x0")] ⊆ referenced s := by
      unfold referenced
      rw [hfixed]
      exact List.subset_append_right _ _
    change [(Struct.vars, "x")] ++ [(Struct.vars, "x0")] ⊆ referenced s
    exact List.append_subset.2 ⟨hx, hx0⟩
  | false => exact List.nil_subset _

theorem members_functions {s : Solver} {l : Integrator.Link} {f : Function} (hf : f ∈ functions s l) :
    f.body.members ⊆ referenced s := by
  have hfirst : ∀ {qs}, qs ⊆ alwaysReferenced → qs ⊆ referenced s := fun h =>
    List.Subset.trans h (alwaysReferenced_subset s)
  have hbodies : ∀ f ∈ functions s l, f.body.members ⊆ referenced s := by
    unfold functions
    simp only [List.forall_mem_cons]
    refine ⟨members_simulationBody s l, hfirst (subset_of_all rfl), hfirst (subset_of_all rfl),
      hfirst (subset_of_all rfl), members_feedbackBody s, hfirst (subset_of_all rfl), hfirst (subset_of_all rfl),
      hfirst (subset_of_all rfl), hfirst (subset_of_all rfl), ?_⟩
    exact fun f hf => absurd hf List.not_mem_nil
  exact hbodies f hf

end Solver

/-! ## Declarations -/

namespace Export

open Integrator Plan

/-- A member that is declared in the common header, where those without elements are left out. -/
def Declared (plan : Plan) (q : Struct × String) : Prop :=
  ∃ d ∈ (members plan q.1).filter fun d => !d.isEmpty, d.name = q.2

theorem declared_iff {plan : Plan} {q : Struct × String} : Declared plan q ↔ 0 < elements plan q.1 q.2 := by
  have hempty : ∀ d : Member, (!d.isEmpty) = true ↔ 0 < d.size := by
    intro d
    rw [Member.isEmpty, Bool.not_eq_true', decide_eq_false_iff_not, Nat.pos_iff_ne_zero]
  constructor
  · rintro ⟨d, hd, hname⟩
    obtain ⟨hmem, hd⟩ := List.mem_filter.1 hd
    rw [← hname, elements_of_mem hmem]
    exact (hempty d).1 hd
  · intro h
    unfold elements at h
    cases hfind : (members plan q.1).find? fun d => d.name = q.2 with
    | none =>
      rw [hfind] at h
      cases h
    | some d =>
      rw [hfind] at h
      have hname := List.find?_some hfind
      exact ⟨d, List.mem_filter.2 ⟨List.mem_of_find?_eq_some hfind, (hempty d).2 h⟩, of_decide_eq_true hname⟩

variable {p : Problem} {o : Options} {k : Strategy}

theorem integratedLength_pos (hp : p.Checked) : 0 < (bindingOf p o).integratedLength :=
  Nat.mul_pos (Nat.lt_of_lt_of_le hp.states (Nat.le_add_right _ _)) (by omega)

/-- The integrator refers to declared members only. -/
theorem declared_of_integrator (hp : p.Checked) :
    ∀ q ∈ Integrator.referenced (integratorOf p o) (bindingOf p o), Declared (of p o k) q := by
  have hlength := integratedLength_pos (o := o) hp
  have hunknowns : 0 < (integratorOf p o).unknowns (bindingOf p o) := Nat.mul_pos (stages_pos _) hlength
  unfold Integrator.referenced
  rw [List.forall_mem_append]
  refine ⟨?_, ?_⟩
  · simp only [List.forall_mem_cons, declared_iff]
    refine ⟨Nat.one_pos, ?_, hunknowns, fun q hq => absurd hq List.not_mem_nil⟩
    change 0 < 1 * (bindingOf p o).length
    rw [(bindingOf p o).length_eq]
    omega
  · cases hsystem : (integratorOf p o).newtonSystem (bindingOf p o) with
    | none => exact fun q hq => absurd hq List.not_mem_nil
    | some system =>
      obtain ⟨hA, hb, hperm, hjacobian, -⟩ :=
        integrator_newtonRoom (S := memberScope (of p o k)) rfl hsystem fun _ _ _ _ => trivial
      change ∀ q ∈ [(Struct.workspace, "rk_A"), (.workspace, "rk_b"), (.workspace, "rk_perm"), (.workspace, "rk_jac")], _
      simp only [List.forall_mem_cons, declared_iff]
      refine ⟨?_, ?_, ?_, ?_, fun q hq => absurd hq List.not_mem_nil⟩
      · exact Nat.lt_of_lt_of_eq (Nat.mul_pos hunknowns hunknowns) hA.symm
      · exact Nat.lt_of_lt_of_eq hunknowns hb.symm
      · exact Nat.lt_of_lt_of_eq hunknowns hperm.symm
      · exact Nat.lt_of_lt_of_eq (Nat.mul_pos hlength hlength) hjacobian.symm

/-- The quadratic program has the controls among its variables. -/
theorem controls_le_qpVariables (s : Solver) : s.horizon * s.dims.nu ≤ s.qpVariables := by
  unfold Solver.qpVariables
  cases s.strategy.layout with
  | condensed => exact Nat.le_add_right _ _
  | block => exact Nat.le_add_left _ _
  | sparse => exact Nat.le_add_left _ _

/-- With controls, the solver refers to declared members only. -/
theorem declared_of_solver (hp : p.Checked) (hnu : 0 < p.dimensions.nu) :
    ∀ q ∈ Solver.referenced (solverOf p o k), Declared (of p o k) q := by
  have hS : Solver.Room (solverOf p o k) (linkOf p o) (memberScope (of p o k)) := simulation_room
  have hlength := integratedLength_pos (o := o) hp
  have hrows : ∀ {n}, 0 < n → 0 < p.horizon * n := Nat.mul_pos hp.horizon
  have hqp : 0 < (solverOf p o k).qpVariables := Nat.lt_of_lt_of_le (hrows hnu) (controls_le_qpVariables (solverOf p o k))
  unfold Solver.referenced Solver.alwaysReferenced
  simp only [List.forall_mem_append, List.forall_mem_cons, declared_iff]
  refine ⟨⟨⟨?_, ?_, ?_, ?_, ?_, ?_, ?_, ?_, ?_, ?_, fun q hq => absurd hq List.not_mem_nil⟩, ?_⟩, ?_⟩
  · refine Nat.lt_of_lt_of_le (Nat.lt_of_lt_of_le hlength ?_) hS.state
    exact Nat.le_trans (Nat.le_add_right _ _) (Nat.le_of_eq (bindingOf p o).length_eq.symm)
  · exact Nat.lt_of_lt_of_le (Nat.mul_pos (Nat.succ_pos _) hp.states) hS.x
  · exact Nat.lt_of_lt_of_le (hrows hnu) hS.u
  · exact Nat.lt_of_lt_of_le (hrows hp.states) hS.d
  · exact Nat.lt_of_lt_of_le (Nat.mul_pos (hrows hp.states) hp.states) hS.evGx
  · exact Nat.lt_of_lt_of_le (Nat.mul_pos (hrows hp.states) hnu) hS.evGu
  · exact Nat.lt_of_lt_of_le (Nat.mul_pos hqp hqp) hS.H
  · exact Nat.lt_of_lt_of_le hqp hS.g
  · exact Nat.lt_of_lt_of_le hqp hS.dz
  · exact hS.objValue
  · split
    · rename_i hnod
      simp only [List.forall_mem_cons]
      exact ⟨Nat.lt_of_lt_of_le (Nat.mul_pos (Nat.succ_pos _) hnod) hS.od, fun q hq => absurd hq List.not_mem_nil⟩
    · exact fun q hq => absurd hq List.not_mem_nil
  · split
    · rename_i hfixed
      simp only [List.forall_mem_cons]
      exact ⟨Nat.lt_of_lt_of_le hp.states (hS.x0 hfixed), fun q hq => absurd hq List.not_mem_nil⟩
    · exact fun q hq => absurd hq List.not_mem_nil

/-- The simulation refers to the controls, whether there are any or not. -/
theorem controls_mem_simulationBody (s : Solver) (l : Link) :
    (Struct.vars, "u") ∈ (Solver.simulationBody s l).members := by
  unfold Solver.simulationBody
  dsimp only
  by_cases hnod : 0 < s.dims.nod
  · rw [if_pos hnod]
    exact of_decide_eq_true rfl
  · rw [if_neg hnod]
    exact of_decide_eq_true rfl

/-- Without controls there is no member for them. -/
theorem not_declared_controls (hnu : p.dimensions.nu = 0) : ¬Declared (of p o k) (.vars, "u") := by
  rw [declared_iff]
  change ¬0 < p.horizon * p.dimensions.nu
  rw [hnu]
  exact Nat.lt_irrefl 0

/-- What a generated function refers to belongs to the integrator or to the solver. -/
theorem referenced_of_generated {f : Function} (hf : f ∈ generated p o k) {q : Struct × String}
    (hq : q ∈ f.body.members) :
    q ∈ Integrator.referenced (integratorOf p o) (bindingOf p o) ∨ q ∈ Solver.referenced (solverOf p o k) := by
  rcases List.mem_append.1 hf with hf | hf
  · -- The linear solver works on its arguments alone.
    obtain ⟨system, -, rfl | rfl⟩ := mem_functions_start hf
    · cases hq
    · cases hq
  · rcases List.mem_cons.1 hf with rfl | hf
    · exact .inl (members_function _ _ hq)
    · exact .inr (Solver.members_functions hf hq)

theorem members_declared (hp : p.Checked) (hnu : 0 < p.dimensions.nu) :
    ∀ f ∈ generated p o k, ∀ q ∈ f.body.members, Declared (of p o k) q := by
  intro f hf q hq
  rcases referenced_of_generated hf hq with hq | hq
  · exact declared_of_integrator hp q hq
  · exact declared_of_solver hp hnu q hq

/-- Every member that the generated functions refer to is declared in the common header if and only if there are
controls. -/
theorem members_declared_iff (hcheck : p.check = .ok ()) {s : Session} {plan : Plan}
    (hsetup : Session.setup { problem := p, options := o } = .ok (s, plan)) :
    ∃ fs, functions plan = .ok fs ∧
      ((∀ f ∈ fs, ∀ q ∈ f.body.members, Declared plan q) ↔ 0 < p.dimensions.nu) := by
  obtain ⟨k, rfl, -⟩ := Plan.resolve_ok (Session.setup_ok hsetup)
  refine ⟨generated p o k, functions_of, fun hall => ?_, members_declared (Problem.check_ok hcheck)⟩
  by_contra hnu
  have hmem : ⟨(solverOf p o k).simulationPrototype, Solver.simulationBody (solverOf p o k) (linkOf p o)⟩ ∈
      generated p o k := List.mem_append_right _ (List.mem_cons_of_mem _ List.mem_cons_self)
  exact not_declared_controls (Nat.eq_zero_of_not_pos hnu) (hall _ hmem _ (controls_mem_simulationBody _ _))

theorem members_declared_iff_smallProblem :
    ∃ s plan fs, smallProblem.check = .ok () ∧
      Session.setup { problem := smallProblem, options := {} } = .ok (s, plan) ∧ functions plan = .ok fs ∧
      ∀ f ∈ fs, ∀ q ∈ f.body.members, Declared plan q := by
  have hcheck : smallProblem.check = .ok () := by rfl
  have hsetup : ∃ s plan, Session.setup { problem := smallProblem, options := {} } = .ok (s, plan) := ⟨_, _, by rfl⟩
  obtain ⟨s, plan, hsetup⟩ := hsetup
  obtain ⟨fs, hfs, hdeclared⟩ := members_declared_iff hcheck hsetup
  exact ⟨s, plan, fs, hcheck, hsetup, hfs, hdeclared.2 Nat.one_pos⟩

/-- Two states over two intervals, and no controls. -/
def autonomousProblem : Problem where
  horizon := 2
  dimensions := { nx := 2, nu := 0 }
  objective := { leastSquares := some { ny := 2 } }

/-- The text of the solver has the controls, the header has not. -/
theorem dangling_member_autonomousProblem :
    ∃ s plan items, autonomousProblem.check = .ok () ∧
      Session.setup { problem := autonomousProblem, options := {} } = .ok (s, plan) ∧
      plan.solver.items = .ok items ∧
      (∀ st : Style, OccursIn (st.memberText (.vars, "u")) (items.flatMap (Item.lines st))) ∧
      ¬Declared plan (.vars, "u") := by
  have hcheck : autonomousProblem.check = .ok () := by rfl
  have hsetup : ∃ s plan, Session.setup { problem := autonomousProblem, options := {} } = .ok (s, plan) :=
    ⟨_, _, by rfl⟩
  obtain ⟨s, plan, hsetup⟩ := hsetup
  obtain ⟨k, rfl, -⟩ := Plan.resolve_ok (Session.setup_ok hsetup)
  refine ⟨s, _, _, hcheck, hsetup, rfl, fun st => ?_, not_declared_controls rfl⟩
  exact Item.mem_lines List.mem_cons_self (controls_mem_simulationBody _ (linkOf autonomousProblem {}))

end Export

end ControlCodegen
