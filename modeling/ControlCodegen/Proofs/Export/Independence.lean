import ControlCodegen.Proofs.Export.Layout
import ControlCodegen.Proofs.Export.Prototypes
import ControlCodegen.Proofs.Integrator.Dependence

/-!
# `Export.Independence`: what the results of an interval depend on

* `Modelled` : the functions of the model are functions of the augmented state.
* `simulatedOver` : the generated simulation over the first intervals, with the generated integrator behind it.
* `SameInterval` : two memories with the same data of one interval.
* `Independent` : what an interval writes depends on the data of that interval only, and stays.
* `Concludes` : the simulation always comes to its end, and the data of an interval decide whether it fails there.
* `independent_iff` : an interval is independent if and only if time is continuous and there are no algebraic states, or
  nothing is written for want of differential states.

The augmented state is one array for all intervals. The simulation loads the differential states and the inputs, and the
integrator sets the sensitivities to where they start; a map in discrete time does not, and nothing ever sets the algebraic
states. What is not set is what the interval before has left, or whatever was in the workspace.

A grid with too few points leaves intervals without a step size, and for those the integrator reads behind the end of its
table. No run comes through such an interval; the grid of a problem without a defect has none.
-/

namespace ControlCodegen.Export

open C Integrator Plan Solver

set_option autoImplicit false

/-- The functions of the model are functions of the states, with their sensitivities, and of the inputs. That of the
Jacobian is provided where it is called. -/
structure Modelled {R : Type} [Arithmetic R] (g : Integrator) (b : Binding) (calls : Calls R)
    (F : (Fin b.integratedLength → R) → (Fin b.inputs → R) → Fin b.integratedLength → R)
    (G : (Fin b.integratedLength → R) → (Fin b.inputs → R) → Fin (b.integratedLength * b.integratedLength) → R) :
    Prop where
  rhs : Writes (calls b.rhs) b.length b.integratedLength (b.model F)
  jacobian : ∀ system, g.newtonSystem b = some system →
    Writes (calls b.jacobian) b.length (b.integratedLength * b.integratedLength) (b.model G)

/-- The simulation over the first intervals of a plan. It calls the integrator in its file, and that calls the model. -/
def simulatedOver {R : Type} [Arithmetic R] (plan : Plan) (l : Link) (items : List Item) (calls : Calls R) (n : ℕ)
    (m : Memory R) : Except Fault (Answer R × Memory R) :=
  (simulationOver plan.solver l n).invoke ⟨elements plan, link (elements plan) items calls⟩ .none [] m

/-- The constants are the same, and so are the data of an interval: the states at both of its ends, its controls and its
online data. -/
structure SameInterval {R : Type} (b : Binding) (k : ℕ) (m m' : Memory R) : Prop where
  constants : ∀ n, m.reals (.static n) = m'.reals (.static n)
  states : ∀ j < b.dims.nx, row m "x" b.dims.nx k j = row m' "x" b.dims.nx k j
  next : ∀ j < b.dims.nx, row m "x" b.dims.nx (k + 1) j = row m' "x" b.dims.nx (k + 1) j
  controls : ∀ j < b.dims.nu, row m "u" b.dims.nu k j = row m' "u" b.dims.nu k j
  onlineData : ∀ j < b.dims.nod, row m "od" b.dims.nod k j = row m' "od" b.dims.nod k j

/-- What an interval writes depends on the data of that interval only. -/
structure Independent (plan : Plan) (b : Binding) (l : Link) (items : List Item) : Prop where
  /-- Two runs that both come through the interval, with the same data there, write the same values. -/
  alike : ∀ (R : Type) [Arithmetic R] (calls : Calls R) F G, Modelled plan.integrator b calls F G →
    ∀ k < plan.solver.horizon, ∀ m m' : Memory R, SameInterval b k m m' → ∀ after after' : Memory R,
    simulatedOver plan l items calls (k + 1) m = .ok (.int 0, after) →
    simulatedOver plan l items calls (k + 1) m' = .ok (.int 0, after') →
    ∀ B i, Written plan.solver k B i → after.reals B i = after'.reals B i
  /-- The values stay until the simulation ends. -/
  kept : ∀ (R : Type) [Arithmetic R] (calls : Calls R) F G, Modelled plan.integrator b calls F G →
    ∀ k < plan.solver.horizon, ∀ (m after : Memory R) (status : ℤ) (finish : Memory R),
    simulatedOver plan l items calls (k + 1) m = .ok (.int 0, after) →
    simulatedOver plan l items calls plan.solver.horizon m = .ok (.int status, finish) →
    ∀ B i, Written plan.solver k B i → finish.reals B i = after.reals B i

/-- The simulation comes to its end from every memory. Two runs that both reach an interval, with the same data there, get
the same status from the integrator. -/
structure Concludes (plan : Plan) (b : Binding) (l : Link) (items : List Item) : Prop where
  ends : ∀ (R : Type) [Arithmetic R] (calls : Calls R) F G, Modelled plan.integrator b calls F G → ∀ m : Memory R,
    ∃ status finish, simulatedOver plan l items calls plan.solver.horizon m = .ok (.int status, finish)
  status : ∀ (R : Type) [Arithmetic R] (calls : Calls R) F G, Modelled plan.integrator b calls F G →
    ∀ k < plan.solver.horizon, ∀ m m' : Memory R, SameInterval b k m m' →
    (∃ before, simulatedOver plan l items calls k m = .ok (.int 0, before)) →
    (∃ before, simulatedOver plan l items calls k m' = .ok (.int 0, before)) →
    ∃ status after after', simulatedOver plan l items calls (k + 1) m = .ok (.int status, after) ∧
      simulatedOver plan l items calls (k + 1) m' = .ok (.int status, after')

variable {p : Problem} {o : Options} {k : Strategy}

/-! ## The integrator of a plan -/

section Integrated

variable {R : Type} [Arithmetic R] {calls : Calls R}
  {F : (Fin (bindingOf p o).integratedLength → R) → (Fin (bindingOf p o).inputs → R) →
    Fin (bindingOf p o).integratedLength → R}
  {G : (Fin (bindingOf p o).integratedLength → R) → (Fin (bindingOf p o).inputs → R) →
    Fin ((bindingOf p o).integratedLength * (bindingOf p o).integratedLength) → R}
  {m m' : Memory R} {n i : ℕ} {B : Block}

/-- What a call of the integrator of a plan may rely on. -/
abbrev PlanSetting (p : Problem) (o : Options) (k : Strategy) (calls : Calls R)
    (F : (Fin (bindingOf p o).integratedLength → R) → (Fin (bindingOf p o).inputs → R) →
      Fin (bindingOf p o).integratedLength → R)
    (G : (Fin (bindingOf p o).integratedLength → R) → (Fin (bindingOf p o).inputs → R) →
      Fin ((bindingOf p o).integratedLength * (bindingOf p o).integratedLength) → R) : Prop :=
  Setting (integratorOf p o) (bindingOf p o) (integratorItems p o (integratorOf p o)) (elements (of p o k)) calls F G
    (stateView (of p o k))

/-- A call of the integrator finds what it needs. -/
theorem planSetting (hnx : 0 < p.dimensions.nx)
    (hnames : OwnNames (integratorOf p o) (bindingOf p o) (integratorItems p o (integratorOf p o)))
    (hmodel : Modelled (integratorOf p o) (bindingOf p o) calls F G) : PlanSetting p o k calls F G := by
  have hpreamble : ∀ n, n ∉ Item.names (integratorItems p o (integratorOf p o)) →
      n ∉ Item.names (preamble (integratorOf p o) (bindingOf p o)) := by
    intro n hn hmem
    refine hn ?_
    unfold integratorItems
    rw [Item.names_append]
    exact List.mem_append_left _ hmem
  refine ⟨rfl, rfl, ?_, ?_, hpreamble _ hnames.rhs, hmodel.rhs, ?_, ?_⟩
  · show 0 < p.dimensions.nx + p.dimensions.nxa
    omega
  · intro d hd
    have hmember : d ∈ (of p o k).integrator.members .workspace ++ (of p o k).solver.members .workspace :=
      List.mem_append_left _ hd
    exact elements_of_mem hmember
  · intro system hsystem
    exact ⟨hpreamble _ (hnames.jacobian system hsystem), hmodel.jacobian system hsystem⟩
  · refine ⟨elements_state, ?_, fun n => Block.noConfusion⟩
    simp [stateView, stateBlock, workBlocks]

omit [Arithmetic R] in
theorem etaAt_stateView : etaAt (stateView (of p o k)) m i = m.reals stateBlock i := by
  show m.reals stateBlock (0 + i) = _
  rw [Nat.zero_add]

/-- The integrator in its file, as a function of the interval and of memory. Where a call does not come back, that is a
failure. -/
def integrated (p : Problem) (o : Options) (k : Strategy) (calls : Calls R) (i : ℕ) (m : Memory R) : ℤ × Memory R :=
  match link (elements (of p o k)) (integratorItems p o (integratorOf p o)) calls (linkOf p o).function
    (integratorArguments (linkOf p o) (elements (of p o k) .workspace "state") i) m with
  | .ok (.int e, m') => (e, m')
  | _ => (1, m)

theorem integrated_eq {e : ℤ}
    (h : link (elements (of p o k)) (integratorItems p o (integratorOf p o)) calls (linkOf p o).function
      (integratorArguments (linkOf p o) (elements (of p o k) .workspace "state") i) m = .ok (.int e, m')) :
    integrated p o k calls i m = (e, m') := by
  unfold integrated
  rw [h]

/-- There is a step size for an interval, if one is needed. -/
abbrev Stepped (p : Problem) (o : Options) (i : ℕ) : Prop :=
  p.model.discretized = false → ∀ hs, (bindingOf p o).stepSize = .perInterval hs → i < hs.length

/-- What is kept of an interval, from the integrated part and the states at its end. -/
theorem keep_alike {b : Binding} {s : Solver} {y : Fin b.integratedLength → R} {after after' : Memory R}
    (hy : ∀ i (hi : i < b.integratedLength), after.reals stateBlock i = y ⟨i, hi⟩)
    (hy' : ∀ i (hi : i < b.integratedLength), after'.reals stateBlock i = y ⟨i, hi⟩)
    (hx : ∀ j < s.dims.nx, row after "x" s.dims.nx (n + 1) j = row after' "x" s.dims.nx (n + 1) j)
    (hlength : s.dims.nx + s.dims.nx * s.dims.nx + s.dims.nx * s.dims.nu ≤ b.integratedLength)
    (hB : Written s n B i) : (keep s n after).reals B i = (keep s n after').reals B i := by
  have hstate : ∀ i < b.integratedLength, after.reals stateBlock i = after'.reals stateBlock i := fun i hi =>
    (hy i hi).trans (hy' i hi).symm
  cases hB with
  | @d j hj =>
    have hnext := hx j hj
    unfold row at hnext
    rw [Nat.succ_mul] at hnext
    rw [keep_d hj, keep_d hj, hstate j (by omega), hnext]
  | @evGx j hj => rw [keep_evGx hj, keep_evGx hj, hstate _ (by omega)]
  | @evGu j hj => rw [keep_evGu hj, keep_evGu hj, hstate _ (by omega)]

namespace PlanSetting

variable (h : PlanSetting p o k calls F G)
include h

/-- With a step size for the interval the integrator comes back, and changes nothing but the augmented state and its own
arrays. -/
theorem exists_progress (hstep : Stepped p o i) (m : Memory R) :
    ∃ e y m', link (elements (of p o k)) (integratorItems p o (integratorOf p o)) calls (linkOf p o).function
        (integratorArguments (linkOf p o) (elements (of p o k) .workspace "state") i) m = .ok (.int e, m') ∧
      Progress (integratorOf p o) (bindingOf p o) (stateView (of p o k)) m y m' := by
  cases hd : p.model.discretized with
  | true =>
    obtain ⟨m', hcall, hprogress⟩ := h.exists_map hd m 1 i
    exact ⟨0, _, m', hcall, hprogress⟩
  | false =>
    obtain ⟨c, m', hcall, -, hprogress⟩ := h.exists_integrate hd m 1 (hstep hd)
    exact ⟨c.1, c.2, m', hcall, hprogress⟩

theorem integrated_call (hstep : Stepped p o i) (m : Memory R) :
    link (elements (of p o k)) (integratorItems p o (integratorOf p o)) calls (linkOf p o).function
        (integratorArguments (linkOf p o) (elements (of p o k) .workspace "state") i) m =
      .ok (.int (integrated p o k calls i m).1, (integrated p o k calls i m).2) := by
  obtain ⟨e, y, m', hcall, -⟩ := h.exists_progress hstep m
  rw [integrated_eq hcall, hcall]

/-- Without a step size for the interval the integrator does not come back. -/
theorem integrated_of_not_stepped (hstep : ¬Stepped p o i) (m : Memory R) :
    (∃ f, link (elements (of p o k)) (integratorItems p o (integratorOf p o)) calls (linkOf p o).function
        (integratorArguments (linkOf p o) (elements (of p o k) .workspace "state") i) m = .error f) ∧
      integrated p o k calls i m = (1, m) := by
  unfold integrated
  cases hcall : link (elements (of p o k)) (integratorItems p o (integratorOf p o)) calls (linkOf p o).function
      (integratorArguments (linkOf p o) (elements (of p o k) .workspace "state") i) m with
  | error f => exact ⟨⟨f, rfl⟩, rfl⟩
  | ok r => exact absurd (fun hd => h.has_stepSize hd 1 hcall) hstep

/-- A call of the integrator computes its result, if it comes back. -/
theorem meets_integrated (i : ℕ) (m : Memory R) :
    Meets (fun _ => True) (link (elements (of p o k)) (integratorItems p o (integratorOf p o)) calls (linkOf p o).function
        (integratorArguments (linkOf p o) (elements (of p o k) .workspace "state") i) m)
      fun r => r = (.int (integrated p o k calls i m).1, (integrated p o k calls i m).2) := by
  by_cases hstep : Stepped p o i
  · rw [h.integrated_call hstep]
    rfl
  · obtain ⟨⟨f, hcall⟩, -⟩ := h.integrated_of_not_stepped hstep m
    rw [hcall]
    trivial

/-- Where the integrator succeeds there is a step size. -/
theorem stepped_of_integrated (hzero : (integrated p o k calls i m).1 = 0) : Stepped p o i := by
  by_contra hstep
  rw [(h.integrated_of_not_stepped hstep m).2] at hzero
  exact one_ne_zero hzero

theorem integrated_other (i : ℕ) (m : Memory R) (hB : B ∉ workBlocks (integratorOf p o) (bindingOf p o))
    (hne : B ≠ stateBlock) : (integrated p o k calls i m).2.reals B = m.reals B := by
  by_cases hstep : Stepped p o i
  · obtain ⟨e, y, m', hcall, hprogress⟩ := h.exists_progress hstep m
    rw [integrated_eq hcall]
    exact hprogress.others B hB hne
  · rw [(h.integrated_of_not_stepped hstep m).2]

theorem integrated_kept (i : ℕ) (m : Memory R) (hB : B ∈ keptBlocks) :
    (integrated p o k calls i m).2.reals B = m.reals B := by
  refine h.integrated_other i m ?_ (ne_stateBlock hB)
  revert B
  unfold workBlocks keptBlocks
  simp

theorem leaves : Leaves (integrated p o k calls) := fun i m _ hB => h.integrated_kept i m hB

/-- The first intervals compute what the integrator of the plan makes of them, if they come to an end. -/
theorem eq_simulated (hn : n ≤ p.horizon) {r : Answer R × Memory R}
    (hrun : simulatedOver (of p o k) (linkOf p o) (integratorItems p o (integratorOf p o)) calls n m = .ok r) :
    r = (.int (simulated p o k (integrated p o k calls) n m).1, (simulated p o k (integrated p o k calls) n m).2) := by
  have hmeets : Meets (fun _ => True)
      (simulatedOver (of p o k) (linkOf p o) (integratorItems p o (integratorOf p o)) calls n m) _ :=
    meets_simulationOver simulation_room rfl hn fun i _ => h.meets_integrated i _
  rw [hrun] at hmeets
  exact hmeets

/-- With a step size for each of them the first intervals do come to an end. -/
theorem simulatedOver_eq (hn : n ≤ p.horizon) (hsteps : ∀ i < n, Stepped p o i) (m : Memory R) :
    simulatedOver (of p o k) (linkOf p o) (integratorItems p o (integratorOf p o)) calls n m =
      .ok (.int (simulated p o k (integrated p o k calls) n m).1, (simulated p o k (integrated p o k calls) n m).2) :=
  invoke_simulationOver simulation_room rfl hn fun i hi => h.integrated_call (hsteps i hi) _

/-- Before an interval the trajectories and the constants are still those of the start. -/
theorem loaded_other (n : ℕ) (m : Memory R) (hB : B ∈ keptBlocks ∨ ∃ s, B = .static s) (hwritten : B ∉ writtenBlocks) :
    (loaded p o k (integrated p o k calls) m n).reals B = m.reals B := by
  have hstate : B ≠ stateBlock := by
    rintro rfl
    exact hwritten List.mem_cons_self
  refine (reals_load hstate).trans (simulate_other hwritten fun i hi m => ?_)
  rcases hB with hB | ⟨s, rfl⟩
  · exact h.integrated_kept i m hB
  · refine h.integrated_other i m ?_ hstate
    simp [workBlocks]

/-- What the integrator finds in the state for an interval, without algebraic states. -/
theorem loaded_alike (hnxa : p.dimensions.nxa = 0) (hsame : SameInterval (bindingOf p o) n m m') :
    statesAt (bindingOf p o) (stateView (of p o k)) (loaded p o k (integrated p o k calls) m n) =
        statesAt (bindingOf p o) (stateView (of p o k)) (loaded p o k (integrated p o k calls) m' n) ∧
      inputsAt (bindingOf p o) (stateView (of p o k)) (loaded p o k (integrated p o k calls) m n) =
        inputsAt (bindingOf p o) (stateView (of p o k)) (loaded p o k (integrated p o k calls) m' n) := by
  obtain ⟨hx, hu, hod⟩ := loaded_rows (p := p) (o := o) (k := k) (m := m) (i := n) h.leaves
  obtain ⟨hx', hu', hod'⟩ := loaded_rows (p := p) (o := o) (k := k) (m := m') (i := n) h.leaves
  constructor
  · funext i
    obtain ⟨j, hj⟩ := i
    have hj : j < p.dimensions.nx := by
      change j < p.dimensions.nx + p.dimensions.nxa at hj
      omega
    rw [statesAt, statesAt, etaAt_stateView, etaAt_stateView]
    exact (hx j hj).trans ((hsame.states j hj).trans (hx' j hj).symm)
  · funext i
    obtain ⟨j, hj⟩ := i
    change j < p.dimensions.nu + p.dimensions.nod at hj
    rw [inputsAt, inputsAt, etaAt_stateView, etaAt_stateView]
    by_cases hcontrol : j < p.dimensions.nu
    · exact (hu j hcontrol).trans ((hsame.controls j hcontrol).trans (hu' j hcontrol).symm)
    · obtain ⟨c, rfl⟩ := Nat.exists_eq_add_of_le (Nat.le_of_not_lt hcontrol)
      have hc : c < p.dimensions.nod := by omega
      exact (hod c hc).trans ((hsame.onlineData c hc).trans (hod' c hc).symm)

/-- In continuous time and without algebraic states, the integrator makes the same of equal data of an interval. -/
theorem integrated_alike (hcontinuous : p.model.discretized = false) (hnxa : p.dimensions.nxa = 0) (hstep : Stepped p o n)
    (hsame : SameInterval (bindingOf p o) n m m') :
    ∃ e y after after', integrated p o k calls n (loaded p o k (integrated p o k calls) m n) = (e, after) ∧
      integrated p o k calls n (loaded p o k (integrated p o k calls) m' n) = (e, after') ∧
      Progress (integratorOf p o) (bindingOf p o) (stateView (of p o k)) (loaded p o k (integrated p o k calls) m n) y after ∧
      Progress (integratorOf p o) (bindingOf p o) (stateView (of p o k)) (loaded p o k (integrated p o k calls) m' n) y
        after' := by
  have hconstants : ∀ s, (loaded p o k (integrated p o k calls) m n).reals (.static s) =
      (loaded p o k (integrated p o k calls) m' n).reals (.static s) := by
    intro s
    rw [h.loaded_other n m (.inr ⟨s, rfl⟩) (by simp [writtenBlocks, stateBlock]),
      h.loaded_other n m' (.inr ⟨s, rfl⟩) (by simp [writtenBlocks, stateBlock]), hsame.constants]
  obtain ⟨hstates, hinputs⟩ := h.loaded_alike hnxa hsame
  obtain ⟨e, y, after, after', hcall, hcall', hprogress, hprogress'⟩ :=
    h.integrate_alike hcontinuous 1 (hstep hcontinuous) hconstants hstates hinputs
  exact ⟨e, y, after, after', integrated_eq hcall, integrated_eq hcall', hprogress, hprogress'⟩

/-- Equal data of an interval then give equal results, where the interval succeeds. -/
theorem interval_alike (hcontinuous : p.model.discretized = false) (hnxa : p.dimensions.nxa = 0)
    (hsame : SameInterval (bindingOf p o) n m m') (hdone : (simulated p o k (integrated p o k calls) (n + 1) m).1 = 0)
    (hdone' : (simulated p o k (integrated p o k calls) (n + 1) m').1 = 0) {i : ℕ} (hB : Written (solverOf p o k) n B i) :
    (simulated p o k (integrated p o k calls) (n + 1) m).2.reals B i =
      (simulated p o k (integrated p o k calls) (n + 1) m').2.reals B i := by
  have hstep : Stepped p o n := h.stepped_of_integrated (integrate_of_done hdone)
  obtain ⟨e, y, after, after', hafter, hafter', hprogress, hprogress'⟩ := h.integrated_alike hcontinuous hnxa hstep hsame
  rw [simulate_succ_of_done hdone, simulate_succ_of_done hdone', hafter, hafter']
  refine keep_alike (b := bindingOf p o) (y := y) ?_ ?_ ?_ ?_ hB
  · intro i hi
    exact etaAt_stateView.symm.trans (hprogress.integrated ⟨i, hi⟩)
  · intro i hi
    exact etaAt_stateView.symm.trans (hprogress'.integrated ⟨i, hi⟩)
  · intro j hj
    have hx : Block.member .vars "x" ∉ workBlocks (integratorOf p o) (bindingOf p o) := by simp [workBlocks]
    have hne : Block.member .vars "x" ≠ stateBlock := ne_stateBlock (by decide)
    unfold row
    rw [hprogress.others _ hx hne, hprogress'.others _ hx hne,
      h.loaded_other n m (.inl (by decide)) (by decide), h.loaded_other n m' (.inl (by decide)) (by decide)]
    exact hsame.next j hj
  · exact (simulation_room (p := p) (o := o) (k := k)).sensitivities

/-- They give equal statuses where the interval is reached. -/
theorem status_alike (hcontinuous : p.model.discretized = false) (hnxa : p.dimensions.nxa = 0) (hstep : Stepped p o n)
    (hsame : SameInterval (bindingOf p o) n m m') (hdone : (simulated p o k (integrated p o k calls) n m).1 = 0)
    (hdone' : (simulated p o k (integrated p o k calls) n m').1 = 0) :
    (simulated p o k (integrated p o k calls) (n + 1) m).1 = (simulated p o k (integrated p o k calls) (n + 1) m').1 := by
  obtain ⟨e, y, after, after', hafter, hafter', -, -⟩ := h.integrated_alike hcontinuous hnxa hstep hsame
  have hnext : simulated p o k (integrated p o k calls) (n + 1) m = _ := simulate_succ hdone
  have hnext' : simulated p o k (integrated p o k calls) (n + 1) m' = _ := simulate_succ hdone'
  rw [hafter] at hnext
  rw [hafter'] at hnext'
  rw [hnext, hnext']
  by_cases he : e = 0
  · rw [if_neg (not_not.2 he), if_neg (not_not.2 he)]
  · rw [if_pos he, if_pos he]

end PlanSetting

end Integrated

/-! ## Independence -/

/-- In continuous time and without algebraic states an interval stands on its own. -/
theorem independent_of (hnx : 0 < p.dimensions.nx)
    (hnames : OwnNames (integratorOf p o) (bindingOf p o) (integratorItems p o (integratorOf p o)))
    (hcontinuous : p.model.discretized = false) (hnxa : p.dimensions.nxa = 0) :
    Independent (of p o k) (bindingOf p o) (linkOf p o) (integratorItems p o (integratorOf p o)) := by
  constructor
  · intro R _ calls F G hmodel n hn m m' hsame after after' hafter hafter' B i hB
    have h : PlanSetting p o k calls F G := planSetting hnx hnames hmodel
    obtain ⟨hdone, rfl⟩ := Prod.mk.inj (h.eq_simulated hn hafter)
    obtain ⟨hdone', rfl⟩ := Prod.mk.inj (h.eq_simulated hn hafter')
    exact h.interval_alike hcontinuous hnxa hsame (Answer.int.inj hdone).symm (Answer.int.inj hdone').symm hB
  · intro R _ calls F G hmodel n hn m after status finish hafter hfinish B i hB
    have h : PlanSetting p o k calls F G := planSetting hnx hnames hmodel
    obtain ⟨-, rfl⟩ := Prod.mk.inj (h.eq_simulated hn hafter)
    obtain ⟨-, rfl⟩ := Prod.mk.inj (h.eq_simulated (Nat.le_refl _) hfinish)
    exact hB.simulate_eq hn fun j _ m => h.integrated_kept j m hB.mem_keptBlocks

/-- Without differential states an interval writes nothing. -/
theorem independent_of_nx_eq_zero (hnx : p.dimensions.nx = 0) :
    Independent (of p o k) (bindingOf p o) (linkOf p o) (integratorItems p o (integratorOf p o)) := by
  have hnone : ∀ {n : ℕ} {B : Block} {i : ℕ}, ¬Written (solverOf p o k) n B i := by
    intro n B i hB
    have hdims : (solverOf p o k).dims.nx = 0 := hnx
    cases hB with
    | d hj => simp [hdims] at hj
    | evGx hj => simp [hdims] at hj
    | evGu hj => simp [hdims] at hj
  exact ⟨fun _ _ _ _ _ _ _ _ _ _ _ _ _ _ _ _ _ hB => absurd hB hnone,
    fun _ _ _ _ _ _ _ _ _ _ _ _ _ _ _ _ hB => absurd hB hnone⟩

/-- For a problem without a defect the simulation comes to its end, and an interval alone decides whether it fails. -/
theorem concludes_of (hp : p.Checked)
    (hnames : OwnNames (integratorOf p o) (bindingOf p o) (integratorItems p o (integratorOf p o)))
    (hcontinuous : p.model.discretized = false) (hnxa : p.dimensions.nxa = 0) :
    Concludes (of p o k) (bindingOf p o) (linkOf p o) (integratorItems p o (integratorOf p o)) := by
  have hstepped : ∀ i < p.horizon, Stepped p o i := fun i hi _ hs => lt_length_of_perInterval hp hi
  constructor
  · intro R _ calls F G hmodel m
    have h : PlanSetting p o k calls F G := planSetting hp.states hnames hmodel
    exact ⟨_, _, h.simulatedOver_eq (Nat.le_refl _) hstepped m⟩
  · rintro R _ calls F G hmodel n hn m m' hsame ⟨before, hbefore⟩ ⟨before', hbefore'⟩
    have h : PlanSetting p o k calls F G := planSetting hp.states hnames hmodel
    have hrun : ∀ m : Memory R, simulatedOver (of p o k) (linkOf p o) (integratorItems p o (integratorOf p o)) calls (n + 1)
        m = _ := h.simulatedOver_eq hn fun i hi => hstepped i (Nat.lt_of_lt_of_le hi hn)
    have hdone := Answer.int.inj (Prod.mk.inj (h.eq_simulated (Nat.le_of_lt hn) hbefore)).1
    have hdone' := Answer.int.inj (Prod.mk.inj (h.eq_simulated (Nat.le_of_lt hn) hbefore')).1
    refine ⟨_, _, (simulated p o k (integrated p o k calls) (n + 1) m').2, hrun m, ?_⟩
    rw [hrun m', h.status_alike hcontinuous hnxa (hstepped n hn) hsame hdone.symm hdone'.symm]

/-! ## What is left in the state -/

theorem nx_lt_integratedLength (hnx : 0 < p.dimensions.nx) : p.dimensions.nx < (bindingOf p o).integratedLength := by
  have hpos : 0 < p.dimensions.nx * p.dimensions.nx := Nat.mul_pos hnx hnx
  have hroom : p.dimensions.nx + p.dimensions.nx * p.dimensions.nx + p.dimensions.nx * p.dimensions.nu ≤
      (bindingOf p o).integratedLength := (simulation_room (p := p) (o := o) (k := .condensedGaussNewton)).sensitivities
  omega

section Leftover

variable {R : Type} [Arithmetic R] {calls : Calls R}
  {F : (Fin (bindingOf p o).integratedLength → R) → (Fin (bindingOf p o).inputs → R) →
    Fin (bindingOf p o).integratedLength → R}
  {G : (Fin (bindingOf p o).integratedLength → R) → (Fin (bindingOf p o).inputs → R) →
    Fin ((bindingOf p o).integratedLength * (bindingOf p o).integratedLength) → R}

omit [Arithmetic R] in
/-- Data of an interval are not in the augmented state. -/
theorem sameInterval_setReal (b : Binding) (n : ℕ) (m : Memory R) (i : ℕ) (r : R) :
    SameInterval b n m (m.setReal stateBlock i r) := by
  have hother : ∀ {B : Block}, B ≠ stateBlock → m.reals B = (m.setReal stateBlock i r).reals B := fun hB =>
    (Memory.reals_setReal_of_ne hB).symm
  have hvars : ∀ trajectory, Block.member .vars trajectory ≠ stateBlock := by
    intro trajectory
    unfold stateBlock
    simp
  refine ⟨fun n => hother Block.noConfusion, ?_, ?_, ?_, ?_⟩ <;>
  · intro j _
    exact congrFun (hother (hvars _)) _

/-- Where the integrator leaves the element behind the differential states as it is, the first interval keeps it. -/
theorem keeps_leftover (hnx : 0 < p.dimensions.nx)
    (hleft : ∀ m, (integrated p o k calls 0 m).1 = 0 ∧
      (integrated p o k calls 0 m).2.reals stateBlock p.dimensions.nx = m.reals stateBlock p.dimensions.nx)
    (m : Memory R) :
    (simulated p o k (integrated p o k calls) 1 m).1 = 0 ∧
      (simulated p o k (integrated p o k calls) 1 m).2.reals (.member .workspace "evGx") 0 =
        m.reals stateBlock p.dimensions.nx := by
  obtain ⟨hzero, hvalue⟩ := hleft (loaded p o k (integrated p o k calls) m 0)
  have hnext : simulated p o k (integrated p o k calls) 1 m =
      (0, keep (solverOf p o k) 0 (integrated p o k calls 0 (loaded p o k (integrated p o k calls) m 0)).2) := by
    rw [show simulated p o k (integrated p o k calls) 1 m = _ from simulate_succ rfl]
    exact if_neg (not_not.2 hzero)
  have hfirst := keep_evGx (s := solverOf p o k) (k := 0)
    (m := (integrated p o k calls 0 (loaded p o k (integrated p o k calls) m 0)).2) (j := 0)
    (Nat.mul_pos hnx hnx)
  rw [Nat.zero_mul, Nat.zero_add] at hfirst
  rw [hnext]
  exact ⟨rfl, hfirst.trans (hvalue.trans (load_between (Nat.le_refl _) (nx_lt_integratedLength hnx)))⟩

/-- The first interval has a step size. -/
theorem stepped_zero : Stepped p o 0 := fun _ _ hsteps => pos_of_perInterval hsteps

/-- The element comes from before the interval, and cannot be told from the data of the interval. -/
theorem eq_of_leftover (hnx : 0 < p.dimensions.nx) (hhorizon : 0 < p.horizon) (h : PlanSetting p o k calls F G)
    (hmodel : Modelled (integratorOf p o) (bindingOf p o) calls F G)
    (hindependent :
      Independent (of p o k) (bindingOf p o) (linkOf p o) (integratorItems p o (integratorOf p o)))
    (hleft : ∀ m, (integrated p o k calls 0 m).1 = 0 ∧
      (integrated p o k calls 0 m).2.reals stateBlock p.dimensions.nx = m.reals stateBlock p.dimensions.nx)
    (r r' : R) : r = r' := by
  let m : Memory R := ⟨fun _ _ => r, fun _ _ => 0, 0⟩
  have hkept := keeps_leftover (k := k) hnx hleft
  have hrun : ∀ m : Memory R, simulatedOver (of p o k) (linkOf p o) (integratorItems p o (integratorOf p o)) calls (0 + 1) m =
      .ok (.int 0, (simulated p o k (integrated p o k calls) 1 m).2) := by
    intro m
    have hfirst := h.simulatedOver_eq hhorizon (n := 1) (fun i hi => (Nat.lt_one_iff.1 hi) ▸ stepped_zero) m
    rwa [(hkept m).1] at hfirst
  have hwritten : Written (solverOf p o k) 0 (.member .workspace "evGx") 0 := by
    have hfirst : Written (solverOf p o k) 0 (.member .workspace "evGx") (0 * _ + 0) := .evGx (Nat.mul_pos hnx hnx)
    rwa [Nat.zero_mul] at hfirst
  have heq := hindependent.alike R calls F G hmodel 0 hhorizon m _ (sameInterval_setReal _ 0 m p.dimensions.nx r') _ _
    (hrun _) (hrun _) _ _ hwritten
  rw [(hkept m).2, (hkept _).2, Memory.reals_setReal_self] at heq
  exact heq

end Leftover

/-! ## The functions of a model -/

theorem modelCall_writes {R : Type} (name : String) (reads writes : ℕ) (f : Memory R → View → ℕ → R) :
    Writes (modelCall name reads writes f) reads writes f := by
  intro v w m hv hw
  unfold modelCall
  dsimp only
  rw [if_neg (Nat.not_lt.2 hv), if_neg (Nat.not_lt.2 hw)]

/-- Functions of the model that a program may come with. -/
theorem exists_modelled {R : Type} [Arithmetic R] (g : Integrator) (b : Binding)
    (F : (Fin b.integratedLength → R) → (Fin b.inputs → R) → Fin b.integratedLength → R)
    (G : (Fin b.integratedLength → R) → (Fin b.inputs → R) → Fin (b.integratedLength * b.integratedLength) → R) :
    ∃ calls : Calls R, Modelled g b calls F G := by
  let rhs := modelCall b.rhs b.length b.integratedLength (b.model F)
  let jacobian := modelCall b.jacobian b.length (b.integratedLength * b.integratedLength) (b.model G)
  refine ⟨fun n => if n = b.rhs then rhs else jacobian, ?_, ?_⟩
  · rw [if_pos rfl]
    exact modelCall_writes _ _ _ _
  · intro system hsystem
    rw [if_neg (ne_jacobian b)]
    exact modelCall_writes _ _ _ _

/-! ## The two exceptions -/

/-- A map that leaves everything as it is takes the sensitivities from the workspace. -/
theorem continuous_of (hnx : 0 < p.dimensions.nx) (hhorizon : 0 < p.horizon)
    (hnames : OwnNames (integratorOf p o) (bindingOf p o) (integratorItems p o (integratorOf p o)))
    (h : Independent (of p o k) (bindingOf p o) (linkOf p o) (integratorItems p o (integratorOf p o))) :
    p.model.discretized = false := by
  by_contra hd
  have hdiscrete : (bindingOf p o).discretized = true := Bool.eq_true_of_not_eq_false hd
  obtain ⟨calls, hmodel⟩ := exists_modelled (R := ℚ) (integratorOf p o) (bindingOf p o) (fun y _ => y) fun _ _ _ => 0
  have hsetting : PlanSetting p o k calls (fun y _ => y) fun _ _ _ => 0 := planSetting hnx hnames hmodel
  refine absurd (eq_of_leftover hnx hhorizon hsetting hmodel h (fun m => ?_) 0 1) zero_ne_one
  obtain ⟨m', hcall, hprogress⟩ := hsetting.exists_map hdiscrete m 1 0
  have hafter : integrated p o k calls 0 m = (0, m') := integrated_eq hcall
  rw [hafter]
  refine ⟨rfl, etaAt_stateView.symm.trans ((hprogress.integrated ⟨p.dimensions.nx, nx_lt_integratedLength hnx⟩).trans ?_)⟩
  exact etaAt_stateView

/-- A model at rest keeps an algebraic state as it is, which then is taken for a sensitivity. -/
theorem nxa_eq_zero_of_independent (hnx : 0 < p.dimensions.nx) (hhorizon : 0 < p.horizon)
    (hnames : OwnNames (integratorOf p o) (bindingOf p o) (integratorItems p o (integratorOf p o)))
    (h : Independent (of p o k) (bindingOf p o) (linkOf p o) (integratorItems p o (integratorOf p o))) :
    p.dimensions.nxa = 0 := by
  by_contra hnxa
  have hcontinuous : (bindingOf p o).discretized = false := continuous_of hnx hhorizon hnames h
  obtain ⟨calls, hmodel⟩ := exists_modelled (R := ℚ) (integratorOf p o) (bindingOf p o) (fun _ _ _ => 0) fun _ _ _ => 0
  have hsetting : PlanSetting p o k calls (fun _ _ _ => 0) fun _ _ _ => 0 := planSetting hnx hnames hmodel
  refine absurd (eq_of_leftover hnx hhorizon hsetting hmodel h (fun m => ?_) 0 1) zero_ne_one
  obtain ⟨m', hcall, hprogress⟩ := hsetting.integrate_rest hcontinuous m 1 (stepped_zero hcontinuous)
  have hafter : integrated p o k calls 0 m = (0, m') := integrated_eq hcall
  have hstate : p.dimensions.nx < (bindingOf p o).states := Nat.lt_add_of_pos_right (Nat.pos_of_ne_zero hnxa)
  rw [hafter]
  refine ⟨rfl, etaAt_stateView.symm.trans ((hprogress.integrated ⟨p.dimensions.nx, nx_lt_integratedLength hnx⟩).trans ?_)⟩
  rw [start, dif_pos hstate]
  exact etaAt_stateView

/-- What an interval writes depends on the data of that interval only, if and only if time is continuous and there are no
algebraic states, or there are no differential states and nothing is written. -/
theorem independent_iff {s : Session} {plan : Plan}
    (hsetup : Session.setup { problem := p, options := o } = .ok (s, plan)) :
    ∃ b l items, plan.integrator.binding = some b ∧ plan.solver.link = some l ∧ plan.integrator.items = .ok items ∧
      (OwnNames plan.integrator b items →
        (Independent plan b l items ↔
          p.model.discretized = false ∧ p.dimensions.nxa = 0 ∨ p.dimensions.nx = 0) ∧
        (p.check = .ok () → p.model.discretized = false → p.dimensions.nxa = 0 → Concludes plan b l items)) := by
  obtain ⟨k, rfl, -, hmodel, -⟩ := Plan.resolve_ok (Session.setup_ok hsetup)
  have hhorizon : 0 < p.horizon := (checkModel_ok hmodel).1
  refine ⟨bindingOf p o, linkOf p o, integratorItems p o (integratorOf p o), rfl, rfl, rfl, fun hnames =>
    ⟨⟨fun h => ?_, ?_⟩, fun hcheck => concludes_of (Problem.check_ok hcheck) hnames⟩⟩
  · rcases Nat.eq_zero_or_pos p.dimensions.nx with hnx | hnx
    · exact .inr hnx
    · exact .inl ⟨continuous_of hnx hhorizon hnames h, nxa_eq_zero_of_independent hnx hhorizon hnames h⟩
  · rcases Nat.eq_zero_or_pos p.dimensions.nx with hnx | hnx
    · exact fun _ => independent_of_nx_eq_zero hnx
    · rintro (⟨hcontinuous, hnxa⟩ | hzero)
      · exact independent_of hnx hnames hcontinuous hnxa
      · exact absurd hzero hnx.ne'

theorem independent_iff_smallProblem :
    ∃ s plan b l items, Session.setup { problem := smallProblem, options := {} } = .ok (s, plan) ∧
      plan.integrator.binding = some b ∧ plan.solver.link = some l ∧ plan.integrator.items = .ok items ∧
      OwnNames plan.integrator b items ∧ Independent plan b l items ∧ Concludes plan b l items := by
  have hcheck : smallProblem.check = .ok () := by rfl
  have hsetup : ∃ s plan, Session.setup { problem := smallProblem, options := {} } = .ok (s, plan) := ⟨_, _, by rfl⟩
  obtain ⟨s, plan, hsetup⟩ := hsetup
  obtain ⟨b, l, items, hb, hl, hitems, h⟩ := independent_iff hsetup
  obtain ⟨k, rfl, -⟩ := Plan.resolve_ok (Session.setup_ok hsetup)
  obtain rfl := Option.some.inj hb
  obtain rfl := Except.ok.inj hitems
  have hnames : OwnNames (integratorOf smallProblem {}) (bindingOf smallProblem {})
      (integratorItems smallProblem {} (integratorOf smallProblem {})) := ⟨by decide, by decide⟩
  exact ⟨s, _, _, l, _, hsetup, rfl, hl, rfl, hnames, (h hnames).1.2 (.inl ⟨rfl, rfl⟩), (h hnames).2 hcheck rfl rfl⟩

/-- A map in discrete time, with two states and a control over two intervals. -/
def mapProblem : Problem where
  horizon := 2
  dimensions := { nx := 2, nu := 1 }
  model := { discretized := true }
  objective := { leastSquares := some { ny := 3 } }

/-- Nothing sets the sensitivities of a map. -/
theorem dependent_mapProblem :
    ∃ s plan b l items, mapProblem.check = .ok () ∧
      Session.setup { problem := mapProblem, options := {} } = .ok (s, plan) ∧
      plan.integrator.binding = some b ∧ plan.solver.link = some l ∧ plan.integrator.items = .ok items ∧
      OwnNames plan.integrator b items ∧ ¬Independent plan b l items := by
  have hcheck : mapProblem.check = .ok () := by rfl
  have hsetup : ∃ s plan, Session.setup { problem := mapProblem, options := {} } = .ok (s, plan) := ⟨_, _, by rfl⟩
  obtain ⟨s, plan, hsetup⟩ := hsetup
  obtain ⟨k, rfl, -⟩ := Plan.resolve_ok (Session.setup_ok hsetup)
  have hnames : OwnNames (integratorOf mapProblem {}) (bindingOf mapProblem {})
      (integratorItems mapProblem {} (integratorOf mapProblem {})) := ⟨by decide, by decide⟩
  refine ⟨s, _, _, _, _, hcheck, hsetup, rfl, rfl, rfl, hnames, fun h => ?_⟩
  exact absurd (continuous_of (by decide) (by decide) hnames h) (by decide)

end ControlCodegen.Export
