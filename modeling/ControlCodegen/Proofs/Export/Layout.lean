import ControlCodegen.Proofs.Export.Bounds
import ControlCodegen.Proofs.Integrator.Layout
import ControlCodegen.Proofs.Integrator.StepSize
import ControlCodegen.Proofs.Solver.Simulation

/-!
# `Export.Layout`: the augmented state as both files see it

* `Reads` : what the simulation loads into the augmented state for an interval, and what it takes from there.
* `LayoutsAgree` : the integrator starts with its sensitivities where the simulation takes them from.
* `layouts_agree_iff` : they agree if and only if there are no algebraic states, or no differential ones either.

The integrator counts algebraic states among the rows of its sensitivities. The simulation skips only the differential ones,
so that with algebraic states it takes the sensitivities from too early a place, if there are any to be taken. The inputs are
where both expect them.
-/

namespace ControlCodegen.Export

open C Integrator Plan Solver

set_option autoImplicit false

/-- One interval of the simulation: the state before the integrator is called has the rows of the trajectories, and the
sensitivities afterwards are kept. Memory is that at the start, at the end, and around the call. -/
structure Reads {R : Type} (b : Binding) (k : Nat) (start finish before after : Memory R) : Prop where
  x : ∀ j < b.dims.nx, before.reals stateBlock j = start.reals (.member .vars "x") (k * b.dims.nx + j)
  u : ∀ j < b.dims.nu, before.reals stateBlock (b.input j) = start.reals (.member .vars "u") (k * b.dims.nu + j)
  od : ∀ j < b.dims.nod,
    before.reals stateBlock (b.input (b.dims.nu + j)) = start.reals (.member .vars "od") (k * b.dims.nod + j)
  evGx : ∀ r < b.dims.nx, ∀ c < b.dims.nx,
    finish.reals (.member .workspace "evGx") (k * (b.dims.nx * b.dims.nx) + (r * b.dims.nx + c)) =
      after.reals stateBlock (b.stateSensitivity r c)
  evGu : ∀ r < b.dims.nx, ∀ c < b.dims.nu,
    finish.reals (.member .workspace "evGu") (k * (b.dims.nx * b.dims.nu) + (r * b.dims.nu + c)) =
      after.reals stateBlock (b.controlSensitivity r c)

/-- The augmented state of a plan. -/
def stateView (plan : Plan) : View := ⟨stateBlock, 0, elements plan .workspace "state"⟩

/-- Integrator and solver have the same layout of the augmented state. Whatever stands in the place of the integrator, and
leaves the trajectories and the linearization alone, the simulation reads what is there. Where the grid has too few points,
the last intervals have no step size, and the function of the integrator does not begin. -/
structure LayoutsAgree (plan : Plan) (b : Binding) (l : Link) : Prop where
  /-- The function of the integrator begins with the identity, and takes its inputs from behind the sensitivities. -/
  starts : ∃ items rest, plan.integrator.items =
      .ok (items ++ [.function ⟨plan.integrator.prototype b, .block (prologue plan.integrator b :: rest)⟩]) ∧
    ∀ (R : Type) [Arithmetic R] (calls : Calls R) (m : Memory R) (reset : Int), ∀ k < plan.solver.horizon,
      (∀ hs, b.stepSize = .perInterval hs → k < hs.length) → ∃ s,
      bindParameters (plan.integrator.prototype b).params (b.arguments (stateView plan) reset k)
        ⟨plan.integrator.functionName, fun _ => none, (Item.addAll (elements plan) items (.none, calls)).1.reals,
          (Item.addAll (elements plan) items (.none, calls)).1.arrays, m⟩ = some s ∧
      Runs (fun _ => False) ⟨elements plan, calls⟩ (prologue plan.integrator b) s
        (fun τ => Seeded b (stateView plan) b.dims.nx m τ.memory ∧ ∀ j < b.inputs,
          τ.memory.reals (.member .workspace "rk_xxx") (b.input j) = m.reals stateBlock (b.input j)) fun _ _ => False
  /-- The simulation loads and keeps what belongs there. It calls the integrator in `before` and nowhere else, as the calls
  need to be answered only there. -/
  reads : ∀ (R : Type) [Arithmetic R] (integrate : Nat → Memory R → Int × Memory R), Leaves integrate → ∀ m,
    ∃ before status finish,
      (∀ ctx : Context R, ctx.size = elements plan → Stands ctx plan.solver l integrate before →
        Function.invoke ctx .none ⟨plan.solver.simulationPrototype, simulationBody plan.solver l⟩ [] m =
          .ok (.int status, finish)) ∧
      (status = 0 → ∀ k < plan.solver.horizon, Reads b k m finish (before k) (integrate k (before k)).2)

variable {p : Problem} {o : Options} {k : Strategy}

/-! ## The integrator -/

theorem starts_of (hcontinuous : p.model.discretized = false) {R : Type} [Arithmetic R] (calls : Calls R) (m : Memory R)
    (reset : Int) {i : Nat} (hi : ∀ hs, (bindingOf p o).stepSize = .perInterval hs → i < hs.length) : ∃ s,
      bindParameters ((integratorOf p o).prototype (bindingOf p o)).params
        ((bindingOf p o).arguments (stateView (of p o k)) reset i)
        ⟨(integratorOf p o).functionName, fun _ => none,
          (Item.addAll (elements (of p o k)) (integratorStart p o) (.none, calls)).1.reals,
          (Item.addAll (elements (of p o k)) (integratorStart p o) (.none, calls)).1.arrays, m⟩ = some s ∧
      Runs (fun _ => False) ⟨elements (of p o k), calls⟩ (prologue (integratorOf p o) (bindingOf p o)) s
        (fun τ => Seeded (bindingOf p o) (stateView (of p o k)) (bindingOf p o).dims.nx m τ.memory ∧
          ∀ j < (bindingOf p o).inputs, τ.memory.reals (.member .workspace "rk_xxx") ((bindingOf p o).input j) =
            m.reals stateBlock ((bindingOf p o).input j)) fun _ _ => False := by
  let S : Scope := {
    size := elements (of p o k)
    arrays := fun n => if n = "rk_eta" then some (stateView (of p o k)) else
      (coefficients (elements (of p o k)) calls (integratorOf p o) (bindingOf p o)).arrays n
    callable := fun _ _ => True
    answering := fun _ _ => True }
  have hlen : (bindingOf p o).length ≤ (stateView (of p o k)).length := Nat.le_of_eq elements_state.symm
  have hxxx : (bindingOf p o).length ≤ S.size .workspace "rk_xxx" := Nat.le_of_eq (Nat.one_mul _).symm
  obtain ⟨s, K, ρ, hs, hm, hreadable, hfits⟩ := exists_start (S := S) rfl reset (stepGiven rfl hi) m
  rw [statics_integratorStart]
  refine ⟨s, hs, ?_⟩
  have hpoint : stateBlock ≠ .member .workspace "rk_xxx" := by decide
  have htime : stateBlock ≠ .member .workspace "rk_ttt" := by decide
  have hruns : Runs (fun _ => False) ⟨elements (of p o k), calls⟩ (prologue (integratorOf p o) (bindingOf p o)) s
      (fun τ => Seeded (bindingOf p o) (stateView (of p o k)) (bindingOf p o).dims.nx s.memory τ.memory ∧
        ∀ j < (bindingOf p o).inputs, τ.memory.reals (.member .workspace "rk_xxx") ((bindingOf p o).input j) =
          s.memory.reals stateBlock (0 + (bindingOf p o).input j)) fun _ _ => False :=
    prologue_runs (v := stateView (of p o k)) hcontinuous rfl hreadable hfits rfl hlen hxxx Nat.one_pos hpoint htime
  rw [hm] at hruns
  refine hruns.mono (fun τ hτ => ⟨hτ.1, fun j hj => ?_⟩) fun _ _ h => h
  rw [hτ.2 j hj, Nat.zero_add]

/-! ## The simulation -/

section Simulation

variable {R : Type} [Arithmetic R] {ctx : Context R} {integrate : Nat → Memory R → Int × Memory R} {m : Memory R} {i : Nat}

/-- The simulation of a plan, with something in the place of the integrator. -/
abbrev simulated (p : Problem) (o : Options) (k : Strategy) (integrate : Nat → Memory R → Int × Memory R) (n : Nat)
    (m : Memory R) : Int × Memory R :=
  simulate (solverOf p o k) (linkOf p o) integrate n m

/-- Memory when the integrator is called for an interval. -/
abbrev loaded (p : Problem) (o : Options) (k : Strategy) (integrate : Nat → Memory R → Int × Memory R) (m : Memory R)
    (i : Nat) : Memory R :=
  called (solverOf p o k) (linkOf p o) integrate m i

/-- The sensitivities are taken from behind the differential states, whatever follows them. -/
theorem sensitivities_of (hleaves : Leaves integrate) (hdone : (simulated p o k integrate p.horizon m).1 = 0)
    (hi : i < p.horizon) {r : Nat} (hr : r < p.dimensions.nx) :
    (∀ c < p.dimensions.nx,
      (simulated p o k integrate p.horizon m).2.reals (.member .workspace "evGx")
          (i * (p.dimensions.nx * p.dimensions.nx) + (r * p.dimensions.nx + c)) =
        (integrate i (loaded p o k integrate m i)).2.reals stateBlock (p.dimensions.nx + (r * p.dimensions.nx + c))) ∧
    ∀ c < p.dimensions.nu,
      (simulated p o k integrate p.horizon m).2.reals (.member .workspace "evGu")
          (i * (p.dimensions.nx * p.dimensions.nu) + (r * p.dimensions.nu + c)) =
        (integrate i (loaded p o k integrate m i)).2.reals stateBlock
          (p.dimensions.nx + p.dimensions.nx * p.dimensions.nx + (r * p.dimensions.nu + c)) := by
  obtain ⟨hx, hu⟩ := simulate_sensitivities hleaves hi hdone
  exact ⟨fun c hc => hx _ (row_index_lt hr hc), fun c hc => hu _ (row_index_lt hr hc)⟩

/-- The integrator finds the rows of the interval in the state, as they stand in memory at the start. -/
theorem loaded_rows (hleaves : Leaves integrate) :
    (∀ j < p.dimensions.nx, (loaded p o k integrate m i).reals stateBlock j = row m "x" p.dimensions.nx i j) ∧
    (∀ j < p.dimensions.nu,
      (loaded p o k integrate m i).reals stateBlock ((bindingOf p o).input j) = row m "u" p.dimensions.nu i j) ∧
    ∀ j < p.dimensions.nod, (loaded p o k integrate m i).reals stateBlock ((bindingOf p o).input (p.dimensions.nu + j)) =
      row m "od" p.dimensions.nod i j := by
  have hrow : ∀ trajectory, Block.member .vars trajectory ∈ keptBlocks → ∀ width,
      row (simulated p o k integrate i m).2 trajectory width i = row m trajectory width i := by
    intro trajectory hb width
    unfold row
    rw [simulate_other (by simp [writtenBlocks, stateBlock]) fun k _ m => hleaves k m _ hb]
  have hnx : (solverOf p o k).dims.nx ≤ (linkOf p o).integratedLength := by
    have hsens := (simulation_room (p := p) (o := o) (k := k)).sensitivities
    omega
  obtain ⟨hx, hu, hod⟩ := load_rows (k := i) (m := (simulated p o k integrate i m).2) hnx
  refine ⟨fun j hj => ?_, fun j hj => ?_, fun j hj => ?_⟩
  · exact (hx j hj).trans (congrFun (hrow "x" (by decide) _) j)
  · exact (hu j hj).trans (congrFun (hrow "u" (by decide) _) j)
  · rw [Binding.input, ← Nat.add_assoc]
    exact (hod j hj).trans (congrFun (hrow "od" (by decide) _) j)

/-- Without algebraic states, or without any others, the simulation keeps what the integrator has computed. -/
theorem reads_of (hnxa : p.dimensions.nxa = 0 ∨ p.dimensions.nx = 0) (hleaves : Leaves integrate)
    (hdone : (simulated p o k integrate p.horizon m).1 = 0) (hi : i < p.horizon) :
    Reads (bindingOf p o) i m (simulated p o k integrate p.horizon m).2 (loaded p o k integrate m i)
      (integrate i (loaded p o k integrate m i)).2 := by
  obtain ⟨hx, hu, hod⟩ := loaded_rows (p := p) (o := o) (k := k) (m := m) (i := i) hleaves
  have hstates : ∀ {r}, r < p.dimensions.nx → (bindingOf p o).states = p.dimensions.nx := by
    intro r hr
    change p.dimensions.nx + p.dimensions.nxa = _
    rcases hnxa with hnxa | hnx
    · rw [hnxa, Nat.add_zero]
    · omega
  refine ⟨hx, hu, hod, fun r hr c hc => ?_, fun r hr c hc => ?_⟩
  · rw [Binding.stateSensitivity, hstates hr, Nat.add_assoc]
    exact (sensitivities_of hleaves hdone hi hr).1 c hc
  · rw [Binding.controlSensitivity, hstates hr, Nat.add_assoc]
    exact (sensitivities_of hleaves hdone hi hr).2 c hc

end Simulation

/-- Without algebraic states both files have the same layout, and without any others. -/
theorem layoutsAgree_of (hcontinuous : p.model.discretized = false)
    (hnxa : p.dimensions.nxa = 0 ∨ p.dimensions.nx = 0) : LayoutsAgree (of p o k) (bindingOf p o) (linkOf p o) := by
  refine ⟨⟨integratorStart p o, [steps (integratorOf p o) (bindingOf p o), .returnInt "error"], rfl, ?_⟩, ?_⟩
  · intro R _ calls m reset i _ hinterval
    exact starts_of hcontinuous calls m reset hinterval
  · intro R _ integrate hleaves m
    refine ⟨loaded p o k integrate m, _, _, fun ctx hsize => invoke_simulation simulation_room hsize, ?_⟩
    exact fun hdone i hi => reads_of hnxa hleaves hdone hi

/-! ## Algebraic states -/

/-- Natural numbers are enough to tell elements apart. -/
abbrev countingArithmetic : Arithmetic Nat where
  ofFloat _ := 0
  ofNat n := n
  add a b := a + b
  sub a b := a - b
  mul a b := a * b
  div a b := a / b
  abs a := a
  less a b := a < b
  isZero a := a = 0

/-- Leaves in each element of the state where it is. -/
def markState (m : Memory Nat) : Memory Nat :=
  { m with reals := fun b i => if b = stateBlock then i else m.reals b i }

theorem markState_leaves : Leaves fun _ m => ((0 : Int), markState m) := by
  intro k m b hb
  funext i
  exact if_neg (ne_stateBlock hb)

/-- With algebraic states the first sensitivity is taken from the element of an algebraic state. -/
theorem nxa_eq_zero_of (hnx : 0 < p.dimensions.nx) (hhorizon : 0 < p.horizon)
    (h : LayoutsAgree (of p o k) (bindingOf p o) (linkOf p o)) : p.dimensions.nxa = 0 := by
  let _ := countingArithmetic
  let ctx : Context Nat := ⟨elements (of p o k), fun _ _ m => .ok (.int 0, markState m)⟩
  let m : Memory Nat := ⟨fun _ _ => 0, fun _ _ => 0, 0⟩
  have hstands : ∀ before, Stands ctx (solverOf p o k) (linkOf p o) (fun _ m => (0, markState m)) before :=
    fun _ _ _ => rfl
  have hdone : (simulated p o k (fun _ m => (0, markState m)) p.horizon m).1 = 0 := simulate_done fun _ _ => rfl
  obtain ⟨before, status, finish, hinvoke, hreads⟩ := h.reads Nat _ markState_leaves m
  have hsame : (Answer.int _, _) = (Answer.int status, finish) :=
    Except.ok.inj ((invoke_simulation simulation_room rfl (hstands _)).symm.trans (hinvoke ctx rfl (hstands before)))
  obtain ⟨hstatus, hfinish⟩ := Prod.mk.inj hsame
  have hbefore := hreads ((Answer.int.inj hstatus).symm.trans hdone) 0 hhorizon
  have hwanted := hbefore.evGx 0 hnx 0 hnx
  have hread := (sensitivities_of (m := m) markState_leaves hdone hhorizon hnx).1 0 hnx
  rw [← hfinish] at hwanted
  have hindex : p.dimensions.nx + (0 * p.dimensions.nx + 0) = (bindingOf p o).stateSensitivity 0 0 :=
    hread.symm.trans hwanted
  have hstates : (bindingOf p o).stateSensitivity 0 0 = p.dimensions.nx + p.dimensions.nxa + 0 * p.dimensions.nx + 0 := rfl
  omega

/-- Integrator and simulation have the same layout of the augmented state if and only if there are no algebraic states, or no
differential states whose sensitivities could be taken. -/
theorem layouts_agree_iff {s : Session} {plan : Plan}
    (hsetup : Session.setup { problem := p, options := o } = .ok (s, plan)) (hcontinuous : p.model.discretized = false) :
    ∃ b l, plan.integrator.binding = some b ∧ plan.solver.link = some l ∧ b.dims = p.dimensions ∧
      (LayoutsAgree plan b l ↔ p.dimensions.nxa = 0 ∨ p.dimensions.nx = 0) := by
  obtain ⟨k, rfl, -, hmodel, -⟩ := Plan.resolve_ok (Session.setup_ok hsetup)
  have hhorizon : 0 < p.horizon := (checkModel_ok hmodel).1
  refine ⟨bindingOf p o, linkOf p o, rfl, rfl, rfl, fun h => ?_, layoutsAgree_of hcontinuous⟩
  rcases Nat.eq_zero_or_pos p.dimensions.nx with hnx | hnx
  · exact .inr hnx
  · exact .inl (nxa_eq_zero_of hnx hhorizon h)

theorem layouts_agree_iff_smallProblem :
    ∃ s plan b l, Session.setup { problem := smallProblem, options := {} } = .ok (s, plan) ∧
      smallProblem.model.discretized = false ∧ plan.integrator.binding = some b ∧ plan.solver.link = some l ∧
      b.dims = smallProblem.dimensions ∧ LayoutsAgree plan b l := by
  have hsetup : ∃ s plan, Session.setup { problem := smallProblem, options := {} } = .ok (s, plan) := ⟨_, _, by rfl⟩
  obtain ⟨s, plan, hsetup⟩ := hsetup
  obtain ⟨b, l, hb, hl, hdims, hagree⟩ := layouts_agree_iff hsetup rfl
  exact ⟨s, plan, b, l, hsetup, rfl, hb, hl, hdims, hagree.2 (.inl rfl)⟩

/-- Two differential states, an algebraic state and a control over two intervals. -/
def algebraicProblem : Problem where
  horizon := 2
  dimensions := { nx := 2, nxa := 1, nu := 1 }
  objective := { leastSquares := some { ny := 3 } }

/-- An implicit scheme integrates the algebraic state, and the simulation then takes sensitivities from where they are
not. -/
theorem layouts_disagree_algebraicProblem :
    ∃ s plan b l, algebraicProblem.check = .ok () ∧
      Session.setup { problem := algebraicProblem, options := { scheme := .gaussLegendre4 } } = .ok (s, plan) ∧
      algebraicProblem.model.discretized = false ∧ plan.integrator.binding = some b ∧ plan.solver.link = some l ∧
      ¬LayoutsAgree plan b l := by
  have hcheck : algebraicProblem.check = .ok () := by rfl
  have hsetup : ∃ s plan,
      Session.setup { problem := algebraicProblem, options := { scheme := .gaussLegendre4 } } = .ok (s, plan) := ⟨_, _, by rfl⟩
  obtain ⟨s, plan, hsetup⟩ := hsetup
  obtain ⟨k, rfl, -⟩ := Plan.resolve_ok (Session.setup_ok hsetup)
  refine ⟨s, _, _, _, hcheck, hsetup, rfl, rfl, rfl, fun hagree => ?_⟩
  exact absurd (nxa_eq_zero_of (by decide) (by decide) hagree) (by decide)

end ControlCodegen.Export
