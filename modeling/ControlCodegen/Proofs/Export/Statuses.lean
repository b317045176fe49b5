import ControlCodegen.Proofs.Export.Layout
import ControlCodegen.Proofs.Export.Prototypes
import ControlCodegen.Proofs.Integrator.Status
import ControlCodegen.Proofs.Integrator.StepSize

/-!
# `Export.Statuses`: what the generated functions tell of failures

* `unsolved` : the file of the integrator, whose linear solver is provided from outside.
* `Tells` : a function comes back, and its status is zero only if no factorization so far has failed.
* `IntegratorTells`, `SimulationTells` : the function of the integrator does so, and the simulation.
* `failures_told_iff` : both do if and only if an interval has one step.

The status of a factorization is assigned to a variable in each step and looked at after the last one. What the linear
solver answers is left open, so that it may fail in any steps.
-/

namespace ControlCodegen.Export

open C Integrator Plan Solver

set_option autoImplicit false

/-! ## Calls -/

section Calls

variable {R : Type} [Arithmetic R]

/-- The file of the integrator without its linear solver, on top of what is provided. -/
def unsolved (plan : Plan) (b : Binding) (calls : Calls R) : Calls R :=
  link (elements plan) (constants plan.integrator b ++ [.function (function plan.integrator b)]) calls

/-- A call of the integrator in an interval, as the simulation makes it. -/
def integrateIn (plan : Plan) (b : Binding) (l : Link) (calls : Calls R) (i : ℕ) (m : Memory R) :
    Except Fault (Answer R × Memory R) :=
  unsolved plan b calls l.function (integratorArguments l (elements plan .workspace "state") i) m

/-- A call of the simulation. -/
def simulateWith (plan : Plan) (b : Binding) (l : Link) (calls : Calls R) (m : Memory R) :
    Except Fault (Answer R × Memory R) :=
  Function.invoke ⟨elements plan, unsolved plan b calls⟩ .none
    ⟨plan.solver.simulationPrototype, simulationBody plan.solver l⟩ [] m

end Calls

/-- A call comes back with a status, which is not zero if a factorization has failed. -/
def Tells {R : Type} (statuses : ℕ → ℤ) (r : Except Fault (Answer R × Memory R)) : Prop :=
  ∃ status m, r = .ok (.int status, m) ∧ ((∃ i < factorizations m, statuses i ≠ 0) → status ≠ 0)

/-- Whatever the factorizations answer, the function of the integrator tells of a failure. -/
def IntegratorTells (plan : Plan) (b : Binding) (l : Link) : Prop :=
  ∀ (R : Type) [Arithmetic R] (calls : Calls R) (statuses : ℕ → ℤ), Answering plan.integrator b calls statuses →
    ∀ i < plan.solver.horizon, ∀ m, Tallied 0 m.ints → Tells statuses (integrateIn plan b l calls i m)

/-- Whatever the factorizations answer, the simulation tells of a failure in any interval that it has run. -/
def SimulationTells (plan : Plan) (b : Binding) (l : Link) : Prop :=
  ∀ (R : Type) [Arithmetic R] (calls : Calls R) (statuses : ℕ → ℤ), Answering plan.integrator b calls statuses →
    ∀ m, Tallied 0 m.ints → Tells statuses (simulateWith plan b l calls m)

variable {p : Problem} {o : Options} {k : Strategy}

/-! ## An interval -/

section Interval

variable {R : Type} [Arithmetic R] {calls : Calls R} {statuses : ℕ → ℤ} {m : Memory R} {n i : ℕ}

theorem newtonSystem_of (himplicit : o.scheme.isImplicit = true) (hcontinuous : p.model.discretized = false) :
    (integratorOf p o).newtonSystem (bindingOf p o) =
      some ⟨o.moduleName.text, (integratorOf p o).unknowns (bindingOf p o)⟩ := by
  have hd : (bindingOf p o).discretized = false := hcontinuous
  refine if_pos ⟨himplicit, ?_⟩
  rw [hd]
  decide

/-- Constants are not called. -/
theorem addAll_constants {size : Struct → String → ℕ} {g : Integrator} {b : Binding} :
    (Item.addAll size (constants g b) (.none, calls)).2 = calls := by
  funext n
  refine Item.addAll_of_notMem ?_
  unfold Item.names
  rw [functions_constants]
  exact List.not_mem_nil

omit [Arithmetic R] in
/-- A call that leaves integers alone keeps what is known of them. -/
theorem meets_of_ints {E : Fault → Prop} {I : (Block → ℕ → ℤ) → Prop} {r : Except Fault (Answer R × Memory R)}
    (h : ∃ a m', r = .ok (a, m') ∧ m'.ints = m.ints) (hI : I m.ints) : Meets E r fun r => I r.2.ints := by
  obtain ⟨a, m', rfl, hints⟩ := h
  show I m'.ints
  rw [hints]
  exact hI

/-- A call of the integrator factorizes once in each step, and returns the status of the last factorization. -/
theorem exists_status (hp : p.Checked) (himplicit : o.scheme.isImplicit = true) (hcontinuous : p.model.discretized = false)
    (h : Answering (integratorOf p o) (bindingOf p o) calls statuses) (hi : i < p.horizon) (hm : Tallied n m.ints) :
    ∃ m', integrateIn (of p o k) (bindingOf p o) (linkOf p o) calls i m =
        .ok (.int (lastStatus statuses n (bindingOf p o).stepsPerInterval), m') ∧
      Tallied (n + (bindingOf p o).stepsPerInterval) m'.ints := by
  let ctx : Context R := ⟨elements (of p o k), calls⟩
  let file := coefficients (elements (of p o k)) calls (integratorOf p o) (bindingOf p o)
  let S := ctx.scope (fun _ => False) (fun _ => True) fun n => if n = "rk_eta" then some (stateView (of p o k)) else
    file.arrays n
  have hcall : unsolved (of p o k) (bindingOf p o) calls (linkOf p o).function =
      (function (integratorOf p o) (bindingOf p o)).invoke ctx file := by
    have hlink : unsolved (of p o k) (bindingOf p o) calls (linkOf p o).function =
        (function (integratorOf p o) (bindingOf p o)).invoke
          ⟨elements (of p o k), (Item.addAll (elements (of p o k)) (constants (integratorOf p o) (bindingOf p o))
            (.none, calls)).2⟩ file := Item.addAll_function List.not_mem_nil
    rw [hlink, addAll_constants]
  have hS : Room (integratorOf p o) (bindingOf p o) S :=
    integrator_room hp rfl rfl elements_state fun v w hv hw I m _ hI => meets_of_ints (h.rhs v w m hv hw) hI
  have hN : NewtonRoom (integratorOf p o) (bindingOf p o) S :=
    integrator_newtonRoom rfl (newtonSystem_of himplicit hcontinuous) fun v w hv hw I m _ hI =>
      meets_of_ints (h.jacobian v w m hv hw) hI
  have hmeets : Meets (fun _ => False) ((function (integratorOf p o) (bindingOf p o)).invoke ctx file
      ((bindingOf p o).arguments (stateView (of p o k)) 1 i) m) fun r =>
        r.1 = .int (lastStatus statuses n (bindingOf p o).stepsPerInterval) ∧
          Tallied (n + (bindingOf p o).stepsPerInterval) r.2.ints :=
    meets_status (fun I => Context.scope_serves trivial) rfl hS hN hcontinuous (newtonSystem_of himplicit hcontinuous)
      (Answering.solverAnswers h hN) (stepGiven rfl fun hs => lt_length_of_perInterval hp hi)
      hm
  obtain ⟨⟨a, m'⟩, hok, rfl, htally⟩ := hmeets.exists_ok
  refine ⟨m', ?_, htally⟩
  unfold integrateIn
  rw [hcall]
  exact hok

end Interval

/-! ## Intervals -/

section Intervals

variable {R : Type} [Arithmetic R] {calls : Calls R} {statuses : ℕ → ℤ} {m : Memory R} {n i : ℕ}

/-- A call of the integrator, as a function of the interval and of memory. -/
def integratedWith (p : Problem) (o : Options) (k : Strategy) (calls : Calls R) (i : ℕ) (m : Memory R) : ℤ × Memory R :=
  match integrateIn (of p o k) (bindingOf p o) (linkOf p o) calls i m with
  | .ok (.int e, m') => (e, m')
  | _ => (0, m)

/-- What so many intervals have done: where all have succeeded, each has made its factorizations and the last of these has
succeeded. -/
structure Ran (statuses : ℕ → ℤ) (steps n : ℕ) (r : ℤ × Memory R) : Prop where
  tallied : ∃ j, Tallied j r.2.ints
  done : r.1 = 0 ↔ ∀ k < n, lastStatus statuses (k * steps) steps = 0
  complete : r.1 = 0 → Tallied (n * steps) r.2.ints

omit [Arithmetic R] in
/-- After a failure nothing more is done. -/
theorem Ran.of_failed {steps : ℕ} {r : ℤ × Memory R} (hran : Ran statuses steps n r) (hfailed : r.1 ≠ 0) (hi : n ≤ i) :
    Ran statuses steps i r := by
  refine ⟨hran.tallied, ⟨fun hdone => absurd hdone hfailed, fun hall => ?_⟩, fun hdone => absurd hdone hfailed⟩
  exact hran.done.2 fun k hk => hall k (Nat.lt_of_lt_of_le hk hi)

omit [Arithmetic R] in
/-- One more interval. -/
theorem Ran.next {steps : ℕ} {r r' : ℤ × Memory R} (hran : Ran statuses steps n r) (hdone : r.1 = 0)
    (hstatus : r'.1 = lastStatus statuses (n * steps) steps) (htally : Tallied (n * steps + steps) r'.2.ints) :
    Ran statuses steps (n + 1) r' := by
  refine ⟨⟨_, htally⟩, ⟨fun hzero k hk => ?_, fun hall => ?_⟩, fun _ => ?_⟩
  · rcases Nat.lt_succ_iff_lt_or_eq.1 hk with hk | rfl
    · exact hran.done.1 hdone k hk
    · rw [← hstatus]
      exact hzero
  · rw [hstatus]
    exact hall n (Nat.lt_succ_self n)
  · rw [Nat.succ_mul]
    exact htally

variable (hp : p.Checked) (himplicit : o.scheme.isImplicit = true) (hcontinuous : p.model.discretized = false)
  (h : Answering (integratorOf p o) (bindingOf p o) calls statuses)
include hp himplicit hcontinuous h

theorem integratedWith_status (hi : i < p.horizon) (hm : Tallied n m.ints) :
    integrateIn (of p o k) (bindingOf p o) (linkOf p o) calls i m =
        .ok (.int (integratedWith p o k calls i m).1, (integratedWith p o k calls i m).2) ∧
      (integratedWith p o k calls i m).1 = lastStatus statuses n (bindingOf p o).stepsPerInterval ∧
      Tallied (n + (bindingOf p o).stepsPerInterval) (integratedWith p o k calls i m).2.ints := by
  obtain ⟨m', hcall, htally⟩ := exists_status (k := k) hp himplicit hcontinuous h hi hm
  unfold integratedWith
  rw [hcall]
  exact ⟨rfl, rfl, htally⟩

/-- The invariant of the loop over the intervals. -/
theorem simulated_ran (hm : Tallied 0 m.ints) (hn : n ≤ p.horizon) :
    Ran statuses (bindingOf p o).stepsPerInterval n (simulated p o k (integratedWith p o k calls) n m) := by
  induction n with
  | zero =>
    refine ⟨⟨0, hm⟩, ⟨fun _ k hk => absurd hk (Nat.not_lt_zero k), fun _ => rfl⟩, fun _ => ?_⟩
    rw [Nat.zero_mul]
    exact hm
  | succ n ih =>
    have hran := ih (Nat.le_of_succ_le hn)
    by_cases hdone : (simulated p o k (integratedWith p o k calls) n m).1 = 0
    · have hnext : simulated p o k (integratedWith p o k calls) (n + 1) m = _ := simulate_succ hdone
      obtain ⟨-, hstatus, htally⟩ := integratedWith_status (k := k) hp himplicit hcontinuous h hn
        (m := loaded p o k (integratedWith p o k calls) m n) (hran.complete hdone)
      rw [hnext]
      by_cases hafter : (integratedWith p o k calls n (loaded p o k (integratedWith p o k calls) m n)).1 = 0
      · rw [if_neg (not_not.2 hafter)]
        exact hran.next hdone (hafter.symm.trans hstatus) htally
      · rw [if_pos hafter]
        exact hran.next hdone hstatus htally
    · have hlast : simulated p o k (integratedWith p o k calls) (n + 1) m = _ := simulate_of_failed hdone (Nat.le_succ n)
      rw [hlast]
      exact hran.of_failed hdone (Nat.le_succ n)

/-- The simulation computes the status and the memory after all intervals. -/
theorem simulateWith_eq (hm : Tallied 0 m.ints) :
    simulateWith (of p o k) (bindingOf p o) (linkOf p o) calls m =
      .ok (.int (simulated p o k (integratedWith p o k calls) p.horizon m).1,
        (simulated p o k (integratedWith p o k calls) p.horizon m).2) := by
  have hstands : Stands ⟨elements (of p o k), unsolved (of p o k) (bindingOf p o) calls⟩ (solverOf p o k) (linkOf p o)
      (integratedWith p o k calls) (loaded p o k (integratedWith p o k calls) m) := by
    intro i hi
    obtain ⟨j, hj⟩ := (simulated_ran (k := k) hp himplicit hcontinuous h hm (Nat.le_of_lt hi)).tallied
    exact (integratedWith_status (k := k) hp himplicit hcontinuous h
      (m := loaded p o k (integratedWith p o k calls) m i) hi hj).1
  exact invoke_simulation simulation_room rfl hstands

end Intervals

/-! ## One step in each interval -/

section OneStep

variable (hp : p.Checked) (himplicit : o.scheme.isImplicit = true) (hcontinuous : p.model.discretized = false)
include hp himplicit hcontinuous

theorem integratorTells_of (hone : (bindingOf p o).stepsPerInterval = 1) :
    IntegratorTells (of p o k) (bindingOf p o) (linkOf p o) := by
  intro R _ calls statuses h i hi m hm
  obtain ⟨m', hcall, htally⟩ := exists_status (k := k) hp himplicit hcontinuous h hi hm
  rw [hone] at hcall htally
  refine ⟨_, m', hcall, ?_⟩
  rintro ⟨j, hj, hfailed⟩
  rw [htally.factorizations_eq] at hj
  obtain rfl : j = 0 := by omega
  exact hfailed

theorem simulationTells_of (hone : (bindingOf p o).stepsPerInterval = 1) :
    SimulationTells (of p o k) (bindingOf p o) (linkOf p o) := by
  intro R _ calls statuses h m hm
  have hran := simulated_ran (k := k) hp himplicit hcontinuous h hm (Nat.le_refl _)
  rw [hone] at hran
  refine ⟨_, _, simulateWith_eq hp himplicit hcontinuous h hm, ?_⟩
  rintro ⟨j, hj, hfailed⟩ hzero
  rw [(hran.complete hzero).factorizations_eq, Nat.mul_one] at hj
  have hlast := hran.done.1 hzero j hj
  rw [Nat.mul_one] at hlast
  exact hfailed hlast

end OneStep

/-! ## More steps -/

/-- Only the first factorization fails. -/
def firstFails (n : ℕ) : ℤ := if n = 0 then 1 else 0

/-- A linear solver that does nothing but answer, beside a model that does nothing. -/
def answering {R : Type} (g : Integrator) (b : Binding) (statuses : ℕ → ℤ) : Calls R := fun n _ m =>
  if n = LinearSystem.solveName ⟨g.moduleName.text, g.unknowns b⟩ then
    .ok (.int (statuses (factorizations m)), m.setInt tally 0 (factorizations m + 1))
  else .ok (.nothing, m)

theorem answering_answering {R : Type} {g : Integrator} {b : Binding} {statuses : ℕ → ℤ}
    (hrhs : b.rhs ≠ LinearSystem.solveName ⟨g.moduleName.text, g.unknowns b⟩)
    (hjacobian : b.jacobian ≠ LinearSystem.solveName ⟨g.moduleName.text, g.unknowns b⟩) :
    Answering g b (answering (R := R) g b statuses) statuses := by
  have hagain := (LinearSystem.solveName_ne ⟨g.moduleName.text, g.unknowns b⟩).symm
  refine ⟨fun v w m _ _ => ?_, fun v w m _ _ => ?_, fun n va vb w m _ _ _ hm => ?_, fun n va vb w m _ _ _ hm => ?_⟩
  · exact ⟨.nothing, m, if_neg hrhs, rfl⟩
  · exact ⟨.nothing, m, if_neg hjacobian, rfl⟩
  · refine ⟨m.setInt tally 0 (factorizations m + 1), ?_, ?_⟩
    · unfold answering
      rw [if_pos rfl, hm.factorizations_eq]
    · have hcount : (m.setInt tally 0 (factorizations m + 1)).ints tally 0 = factorizations m + 1 := by
        simp [Memory.setInt]
      rw [Tallied, hcount, hm.factorizations_eq, Nat.cast_add, Nat.cast_one]
  · exact ⟨.nothing, m, if_neg hagain, hm⟩

/-- With more than one step, the last status of every interval is zero. -/
theorem lastStatus_firstFails {steps : ℕ} (hsteps : 1 < steps) (n : ℕ) : lastStatus firstFails n steps = 0 := by
  obtain ⟨k, rfl⟩ := Nat.exists_eq_add_of_le' (Nat.le_of_succ_le hsteps)
  exact if_neg (by omega)

/-- A status of zero tells nothing of the first factorization. -/
theorem not_tells {R : Type} {r : Except Fault (Answer R × Memory R)} {m : Memory R} (hr : r = .ok (.int 0, m)) {n : ℕ}
    (hn : 0 < n) (hm : Tallied n m.ints) : ¬Tells firstFails r := by
  rintro ⟨status, m', hstatus, htells⟩
  obtain ⟨hzero, rfl⟩ := Prod.mk.inj (Except.ok.inj (hr.symm.trans hstatus))
  rw [hm.factorizations_eq] at htells
  exact htells ⟨0, hn, by decide⟩ (Answer.int.inj hzero).symm

section MoreSteps

variable (hp : p.Checked) (himplicit : o.scheme.isImplicit = true) (hcontinuous : p.model.discretized = false)
  (hnames : OwnNames (integratorOf p o) (bindingOf p o) (integratorItems p o (integratorOf p o)))
include himplicit hcontinuous hnames

/-- A linear solver whose first factorization fails. -/
theorem answering_firstFails {R : Type} :
    Answering (integratorOf p o) (bindingOf p o) (answering (R := R) (integratorOf p o) (bindingOf p o) firstFails)
      firstFails := by
  have hsystem := newtonSystem_of (p := p) himplicit hcontinuous
  have hmem : LinearSystem.solveName ⟨o.moduleName.text, (integratorOf p o).unknowns (bindingOf p o)⟩ ∈
      Item.names (integratorItems p o (integratorOf p o)) := by
    unfold integratorItems
    rw [hsystem, Item.names_append, Item.names_append]
    exact List.mem_append_left _ (List.mem_append_right _ List.mem_cons_self)
  refine answering_answering (fun heq => hnames.rhs ?_) fun heq => hnames.jacobian _ hsystem ?_
  · rw [heq]
    exact hmem
  · rw [heq]
    exact hmem

include hp

theorem not_integratorTells (hsteps : 1 < (bindingOf p o).stepsPerInterval) :
    ¬IntegratorTells (of p o k) (bindingOf p o) (linkOf p o) := by
  intro htells
  have h := answering_firstFails (R := ℚ) himplicit hcontinuous hnames
  let m : Memory ℚ := ⟨fun _ _ => 0, fun _ _ => 0, 0⟩
  obtain ⟨m', hcall, htally⟩ := exists_status (k := k) hp himplicit hcontinuous h hp.horizon (m := m) (n := 0) rfl
  rw [lastStatus_firstFails hsteps] at hcall
  rw [Nat.zero_add] at htally
  exact not_tells hcall (by omega) htally (htells ℚ _ _ h 0 hp.horizon m rfl)

theorem not_simulationTells (hsteps : 1 < (bindingOf p o).stepsPerInterval) :
    ¬SimulationTells (of p o k) (bindingOf p o) (linkOf p o) := by
  intro htells
  have h := answering_firstFails (R := ℚ) himplicit hcontinuous hnames
  let m : Memory ℚ := ⟨fun _ _ => 0, fun _ _ => 0, 0⟩
  have hran := simulated_ran (k := k) hp himplicit hcontinuous h (m := m) rfl (Nat.le_refl _)
  have hdone := hran.done.2 fun i _ => lastStatus_firstFails hsteps _
  have hcall := simulateWith_eq (k := k) hp himplicit hcontinuous h (m := m) rfl
  rw [hdone] at hcall
  exact not_tells hcall (Nat.mul_pos hp.horizon (by omega)) (hran.complete hdone) (htells ℚ _ _ h m rfl)

end MoreSteps

/-- The function of the integrator tells of every failure if and only if an interval has one step, and so does the
simulation. -/
theorem failures_told_iff (hcheck : p.check = .ok ()) {s : Session} {plan : Plan}
    (hsetup : Session.setup { problem := p, options := o } = .ok (s, plan)) (himplicit : o.scheme.isImplicit = true)
    (hcontinuous : p.model.discretized = false) :
    ∃ b l items, plan.integrator.binding = some b ∧ plan.solver.link = some l ∧ plan.integrator.items = .ok items ∧
      (OwnNames plan.integrator b items →
        (IntegratorTells plan b l ↔ b.stepsPerInterval = 1) ∧ (SimulationTells plan b l ↔ b.stepsPerInterval = 1)) := by
  obtain ⟨k, rfl, -, hmodel, -⟩ := Plan.resolve_ok (Session.setup_ok hsetup)
  have hp := Problem.check_ok hcheck
  obtain ⟨hhorizon, hle⟩ := checkModel_ok hmodel
  have hsteps : 0 < (bindingOf p o).stepsPerInterval := Nat.div_pos hle hhorizon
  refine ⟨bindingOf p o, linkOf p o, integratorItems p o (integratorOf p o), rfl, rfl, rfl, fun hnames => ?_⟩
  refine ⟨⟨fun htells => ?_, ?_⟩, ⟨fun htells => ?_, ?_⟩⟩
  · by_contra hmore
    exact not_integratorTells hp himplicit hcontinuous hnames (by omega) htells
  · exact integratorTells_of hp himplicit hcontinuous
  · by_contra hmore
    exact not_simulationTells hp himplicit hcontinuous hnames (by omega) htells
  · exact simulationTells_of hp himplicit hcontinuous

theorem failures_told_iff_smallProblem :
    ∃ s plan b l items, smallProblem.check = .ok () ∧
      Session.setup { problem := smallProblem, options := { scheme := .gaussLegendre4 } } = .ok (s, plan) ∧
      Scheme.gaussLegendre4.isImplicit = true ∧ smallProblem.model.discretized = false ∧
      plan.integrator.binding = some b ∧ plan.solver.link = some l ∧ plan.integrator.items = .ok items ∧
      OwnNames plan.integrator b items ∧ IntegratorTells plan b l ∧ SimulationTells plan b l := by
  have hcheck : smallProblem.check = .ok () := by rfl
  have hsetup : ∃ s plan,
      Session.setup { problem := smallProblem, options := { scheme := .gaussLegendre4 } } = .ok (s, plan) := ⟨_, _, by rfl⟩
  obtain ⟨s, plan, hsetup⟩ := hsetup
  obtain ⟨b, l, items, hb, hl, hitems, h⟩ := failures_told_iff hcheck hsetup rfl rfl
  obtain ⟨k, rfl, -⟩ := Plan.resolve_ok (Session.setup_ok hsetup)
  obtain rfl := Option.some.inj hb
  obtain rfl := Except.ok.inj hitems
  have hnames : OwnNames (integratorOf smallProblem { scheme := .gaussLegendre4 })
      (bindingOf smallProblem { scheme := .gaussLegendre4 })
      (integratorItems smallProblem { scheme := .gaussLegendre4 }
        (integratorOf smallProblem { scheme := .gaussLegendre4 })) :=
    ⟨by decide, by decide⟩
  obtain ⟨hintegrator, hsimulation⟩ := h hnames
  exact ⟨s, _, _, l, _, hcheck, hsetup, rfl, rfl, rfl, hl, rfl, hnames, hintegrator.2 rfl, hsimulation.2 rfl⟩

/-- With two steps in each interval the status of the first one is lost. -/
theorem failures_lost_smallProblem :
    ∃ s plan b l items, smallProblem.check = .ok () ∧
      Session.setup { problem := smallProblem, options := { scheme := .gaussLegendre4, integratorSteps := some 4 } } =
        .ok (s, plan) ∧
      smallProblem.model.discretized = false ∧ plan.integrator.binding = some b ∧ plan.solver.link = some l ∧
      plan.integrator.items = .ok items ∧ OwnNames plan.integrator b items ∧
      ¬IntegratorTells plan b l ∧ ¬SimulationTells plan b l := by
  have hcheck : smallProblem.check = .ok () := by rfl
  have hsetup : ∃ s plan,
      Session.setup { problem := smallProblem, options := { scheme := .gaussLegendre4, integratorSteps := some 4 } } =
        .ok (s, plan) := ⟨_, _, by rfl⟩
  obtain ⟨s, plan, hsetup⟩ := hsetup
  obtain ⟨k, rfl, -⟩ := Plan.resolve_ok (Session.setup_ok hsetup)
  have hp := Problem.check_ok hcheck
  have hnames : OwnNames (integratorOf smallProblem { scheme := .gaussLegendre4, integratorSteps := some 4 })
      (bindingOf smallProblem { scheme := .gaussLegendre4, integratorSteps := some 4 })
      (integratorItems smallProblem { scheme := .gaussLegendre4, integratorSteps := some 4 }
        (integratorOf smallProblem { scheme := .gaussLegendre4, integratorSteps := some 4 })) := ⟨by decide, by decide⟩
  refine ⟨s, _, _, _, _, hcheck, hsetup, rfl, rfl, rfl, rfl, hnames, ?_, ?_⟩
  · exact not_integratorTells hp rfl rfl hnames (by decide)
  · exact not_simulationTells hp rfl rfl hnames (by decide)

end ControlCodegen.Export
