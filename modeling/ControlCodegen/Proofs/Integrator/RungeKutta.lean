import ControlCodegen.Proofs.C.Division
import ControlCodegen.Proofs.Integrator.File
import Mathlib.Algebra.BigOperators.Fin
import Mathlib.Algebra.BigOperators.Pi
import Mathlib.Algebra.Module.Pi

/-!
# `Integrator.RungeKutta`: explicit schemes

* `explicitStage`, `explicitStep` : the method of a scheme, with sums in the order of the program.
* `explicit_makes` : a step of the generated function is a step of the method.
* `rungeKuttaStage`, `rungeKuttaStep` : the method over exact numbers.
-/

namespace ControlCodegen.Integrator

open C C.IntExpr

set_option autoImplicit false

section Method

variable {R : Type} [Arithmetic R] {n : ℕ} (x : R) (a : ℕ → ℕ → R) (w : ℕ → R) (f : (Fin n → R) → Fin n → R)
  (y : Fin n → R)

/-- A stage of an explicit scheme, from those before it. -/
def explicitStage (s : ℕ) : Fin n → R :=
  f fun i => weighted x (a s) (fun t => if t < s then explicitStage t i else y i) (y i) s
termination_by s

theorem explicitStage_eq (s : ℕ) :
    explicitStage x a f y s = f fun i => weighted x (a s) (fun t => explicitStage x a f y t i) (y i) s := by
  rw [explicitStage]
  congr 1
  funext i
  exact weighted_congr (fun _ _ => rfl) fun t ht => if_pos ht

/-- A step with so many stages. -/
def explicitStep (stages : ℕ) : Fin n → R := fun i => weighted x w (fun s => explicitStage x a f y s i) (y i) stages

end Method

/-! ## The generated function -/

section Program

variable {R : Type} [Arithmetic R] {E : Fault → Prop} {ctx : Context R} {D : Answer R → Memory R → Prop} {g : Integrator}
  {b : Binding} {state : View} {arrays : String → Option View} {reals : String → Option R} {before m : Memory R}
  {τ : State R} {ρ : Known} {x : R} {y : Fin b.integratedLength → R}
  {F : (Fin b.integratedLength → R) → (Fin b.inputs → R) → Fin b.integratedLength → R}

variable (hA : Arrays g b ctx.size state arrays)
  (hrhs : Writes (ctx.call b.rhs) b.length b.integratedLength (b.model F)) (hx : reals "h" = some x)
include hA hrhs hx

/-- The stages of an explicit scheme are evaluated one after the other. -/
theorem explicitStages_exact (h : Holding arrays reals m τ) (hρ : ρ.Of τ.ints) (hp : Progress g b state before y m) :
    Runs E ctx (explicitStages g b) τ (fun τ' => (ρ.forget ["s", "i", "t"]).Of τ'.ints ∧
      ∃ m', Holding arrays reals m' τ' ∧ Progress g b state before y m' ∧
        HasRows b stageBlock g.stages (explicitStage x (storedCoefficient g before)
          (fun v => F v (inputsAt b state before)) y) m') D := by
  let K : ℕ → Fin b.integratedLength → R :=
    explicitStage x (storedCoefficient g before) (fun v => F v (inputsAt b state before)) y
  refine Runs.each_known (fun k τ' => ∃ m', Holding arrays reals m' τ' ∧ Progress g b state before y m' ∧
    HasRows b stageBlock k K m') ?_ hρ (by simp) ⟨m, h, hp, fun s hs => absurd hs (Nat.not_lt_zero s)⟩ fun k ρ' τ' hk hr => ?_
  · rintro k τ' v ⟨m', hm', hp', hK⟩
    exact ⟨m', hm'.setInt "s" v, hp', hK⟩
  · obtain ⟨m', hm', hp', hK⟩ := hr.property
    have hcount : ∀ ρ'', ρ'.Keeps ρ'' ["i", "t"] → (var "s").Counts ρ'' k := fun ρ'' hkeep => hkeep.counts (by simp) hr.count
    refine Runs.seq (stagePoint_exact hA hm' hr.known hx hcount (Nat.le_of_lt hk) hr.count hk) fun τ₁ h₁ => ?_
    obtain ⟨hρ₁, h₁⟩ := h₁
    refine (evaluateAt_exact hA h₁ hρ₁ hrhs hA.view_stage (Nat.le_refl _) (hcount _ (.forget ρ' _)) hk).mono
      (fun τ₂ h₂ => ⟨h₂.1, _, h₂.2, ?_, ?_⟩) fun _ _ h => h
    · have hstage : stageBlock ≠ pointBlock := by decide
      exact ((hp'.fill_point hA.outside).fill hA.outside (by simp [workBlocks]) hstage).tick
    · have hpoint := hK.point (x := x) (s := k) hp' hA.outside_static
      have hK₁ : HasRows b stageBlock k K (m'.fill pointBlock 0 b.integratedLength (stagePointAt g b state m' x k k)) :=
        hK.congr (Memory.reals_fill_of_ne (by decide))
      have hstage : K k = F (fun i => weighted x (storedCoefficient g before k) (fun t => K t i) (y i) k)
          (inputsAt b state before) := explicitStage_eq _ _ _ _ k
      rw [Nat.zero_add]
      refine hK₁.fill fun i => ?_
      rw [hstage]
      refine (hp'.fill_point hA.outside).model_point (fun i => ?_) i
      exact (Memory.reals_fill_zero i.2).trans (hpoint i)

/-- A step of the generated function is a step of the method. The status stays as it is. -/
theorem explicit_makes (hsystem : g.newtonSystem b = none) :
    Makes ctx g b state before arrays reals fun a a' => a' = (a.1, explicitStep x (storedCoefficient g before)
      (storedWeight g before) (fun v => F v (inputsAt b state before)) a.2 g.stages) := by
  intro D ρ τ a hρ hbetween
  obtain ⟨hstatus, m, hm, hp⟩ := hbetween
  unfold computeStages
  rw [hsystem]
  refine Runs.seq (explicitStages_exact hA hrhs hx hm (hρ.learn hstatus) hp) fun τ₁ h₁ => ?_
  obtain ⟨hρ₁, m₁, hm₁, hp₁, hK₁⟩ := h₁
  refine (advance_exact hA hm₁ hρ₁ hx).mono (fun τ₂ h₂ => ?_) fun _ _ h => h
  obtain ⟨hρ₂, r, hm₂⟩ := h₂
  have hprogress : Progress g b state before (fun i => advancedAt g b state m₁ x i) _ := hp₁.advance (r := r) hA.outside
  have hstep : (fun i : Fin b.integratedLength => advancedAt g b state m₁ x i) = explicitStep x (storedCoefficient g before)
      (storedWeight g before) (fun v => F v (inputsAt b state before)) a.2 g.stages :=
    funext (hK₁.advanced hp₁ hA.outside_static)
  rw [hstep] at hprogress
  have hkeep : ρ.Keeps (((ρ.set "error" (some a.1)).forget ["s", "i", "t"]).forget ["i", "s"]) stepNames :=
    (((Known.Keeps.refl ρ stepNames).set (by decide) _).trans (.forget _ _) (by decide)).trans (.forget _ _) (by decide)
  exact ⟨hρ₂.mono hkeep, _, rfl, hρ₂.value (by simp [Known.forget, Known.set]), _, hm₂, hprogress⟩

end Program

/-! ## Exact numbers -/

section Exact

variable {R : Type} [Field R] {n : ℕ}

/-- A stage of an explicit Runge-Kutta method: the model at the state and the weighted stages before. -/
def rungeKuttaStage (h : R) (A : ℕ → ℕ → R) (f : (Fin n → R) → Fin n → R) (y : Fin n → R) (s : ℕ) : Fin n → R :=
  f (y + h • ∑ t : Fin s, A s t • rungeKuttaStage h A f y t)
termination_by s
decreasing_by exact t.2

/-- A step of the method: the state and all weighted stages. -/
def rungeKuttaStep (h : R) (A : ℕ → ℕ → R) (w : ℕ → R) (stages : ℕ) (f : (Fin n → R) → Fin n → R) (y : Fin n → R) :
    Fin n → R :=
  y + h • ∑ s : Fin stages, w s • rungeKuttaStage h A f y s

/-- The method with one stage. -/
theorem rungeKuttaStep_one (h : R) (A : ℕ → ℕ → R) (w : ℕ → R) (f : (Fin n → R) → Fin n → R) (y : Fin n → R) :
    rungeKuttaStep h A w 1 f y = y + (h * w 0) • f y := by
  have hstage : rungeKuttaStage h A f y 0 = f y := by
    rw [rungeKuttaStage, Fin.sum_univ_zero, smul_zero, add_zero]
  rw [rungeKuttaStep, Fin.sum_univ_one, Fin.val_zero, hstage, smul_smul]

variable [LinearOrder R] [Reading R] {h : R} {a A : ℕ → ℕ → R} {v w : ℕ → R} {f : (Fin n → R) → Fin n → R}
  {y : Fin n → R} {stages : ℕ}

theorem weighted_exact (a z : ℕ → R) (r : R) (k : ℕ) : weighted h a z r k = r + h * ∑ t : Fin k, a t * z t := by
  induction k with
  | zero => simp [weighted]
  | succ k ih =>
    change weighted h a z r k + h * a k * z k = _
    rw [ih, Fin.sum_univ_castSucc, mul_add, add_assoc, mul_assoc]
    rfl

/-- A weighted sum of vectors, entry by entry. -/
theorem weighted_exact_vector (c : ℕ → R) (z : ℕ → Fin n → R) (k : ℕ) :
    (fun i => weighted h c (fun t => z t i) (y i) k) = y + h • ∑ t : Fin k, c t • z t := by
  funext i
  rw [weighted_exact, Pi.add_apply, Pi.smul_apply, Finset.sum_apply]
  rfl

theorem explicitStage_exact (hA : ∀ s < stages, ∀ t < stages, a s t = A s t) {s : ℕ} (hs : s < stages) :
    explicitStage h a f y s = rungeKuttaStage h A f y s := by
  induction s using Nat.strong_induction_on with
  | _ s ih =>
    rw [explicitStage_eq, rungeKuttaStage, weighted_exact_vector]
    congr 3
    refine Finset.sum_congr rfl fun t _ => ?_
    rw [hA s hs t (t.2.trans hs), ih t t.2 (t.2.trans hs)]

/-- With exact numbers the order of the sums does not matter. -/
theorem explicitStep_exact (hA : ∀ s < stages, ∀ t < stages, a s t = A s t) (hw : ∀ s < stages, v s = w s) :
    explicitStep h a v f y stages = rungeKuttaStep h A w stages f y := by
  unfold explicitStep rungeKuttaStep
  rw [weighted_exact_vector]
  congr 2
  refine Finset.sum_congr rfl fun s _ => ?_
  rw [hw s s.2, explicitStage_exact hA s.2]

/-- So many steps of a function are its iterate. -/
theorem Steps.iterate {α : Type} {step : α → α} {k : ℕ} {a a' : α} (hs : Steps (fun a a' => a' = step a) k a a') :
    a' = step^[k] a := by
  induction hs with
  | zero a => rfl
  | succ _ hstep ih => rw [hstep, ih, Function.iterate_succ_apply']

end Exact

section Integrates

variable {R : Type} [Field R] [LinearOrder R] [Reading R]

/-- The generated integrator of an explicit scheme makes the steps of its method. It starts with the given states, with the
identity and zero as their sensitivities; what stands in the workspace does not matter. The inputs stay as they are. -/
theorem integrates_rungeKutta {g : Integrator} {b : Binding} {items : List Item} (hb : g.binding = some b)
    (hitems : g.items = .ok items) (hexplicit : g.scheme.isImplicit = false) (hcontinuous : b.discretized = false)
    (hstates : 0 < b.states) {size : Struct → String → ℕ} (hsize : Sized (g.members .workspace) .workspace size)
    {calls : Calls R} {F : (Fin b.integratedLength → R) → (Fin b.inputs → R) → Fin b.integratedLength → R}
    (hrhs : Writes (calls b.rhs) b.length b.integratedLength (b.model F)) {state : View} (hstate : Handed g b state)
    {m : Memory R} (hloaded : Loaded items m) (reset : ℤ) {interval : ℕ}
    (hinterval : ∀ hs, b.stepSize = .perInterval hs → interval < hs.length) :
    ∃ m', C.link size items calls g.functionName (b.arguments state reset interval) m = .ok (.int 0, m') ∧
      (∀ i : Fin b.integratedLength, etaAt state m' i =
        (rungeKuttaStep (Reading.ofFloat (b.stepLength interval)) (fun s t => Reading.ofFloat (g.tableau.coefficient s t))
          (fun s => Reading.ofFloat (g.tableau.weight s)) g.stages
          (fun y => F y (inputsAt b state m)))^[b.stepsPerInterval] (start b (statesAt b state m)) i) ∧
      inputsAt b state m' = inputsAt b state m := by
  have hsystem : g.newtonSystem b = none := if_neg fun h => by simp [hexplicit] at h
  have hconstants := hloaded.constants hb hitems
  let ctx : Context R := ⟨size, (surroundings g b size calls).2⟩
  have hmodel : Writes (ctx.call b.rhs) b.length b.integratedLength (b.model F) := by
    change Writes ((surroundings g b size calls).2 b.rhs) _ _ _
    rw [surroundings_call (by rw [names_preamble hsystem]; exact List.not_mem_nil)]
    exact hrhs
  have hA : Arrays g b ctx.size state (seen (surroundings g b size calls).1 state) := arrays_of hb hstates hsize hstate
  have hmakes : Makes ctx g b state m (seen (surroundings g b size calls).1 state)
      (fun n => if n = "h" then some (Arithmetic.ofFloat (b.stepLength interval)) else (surroundings g b size calls).1.reals n)
      _ := explicit_makes hA hmodel (if_pos rfl) hsystem
  obtain ⟨⟨answer, m'⟩, hcall, a, hsteps, rfl, hp⟩ :=
    (invoke_exact hcontinuous hA (stepLength_of hconstants hinterval) hmakes).exists_ok
  have hmethod := hsteps.iterate
  have hiterate : (fun c : ℤ × (Fin b.integratedLength → R) => (c.1, explicitStep (Arithmetic.ofFloat (b.stepLength interval))
      (storedCoefficient g m) (storedWeight g m) (fun v => F v (inputsAt b state m)) c.2 g.stages)) = Prod.map id
        (rungeKuttaStep (Reading.ofFloat (b.stepLength interval)) (fun s t => Reading.ofFloat (g.tableau.coefficient s t))
          (fun s => Reading.ofFloat (g.tableau.weight s)) g.stages (fun y => F y (inputsAt b state m))) := by
    funext c
    exact Prod.ext rfl (explicitStep_exact (fun s hs t ht => storedCoefficient_of hconstants hs ht)
      fun s hs => storedWeight_of hconstants hs)
  rw [hiterate, Prod.map_iterate, Function.iterate_id] at hmethod
  subst hmethod
  refine ⟨m', ?_, hp.integrated, funext fun j => ?_⟩
  · rw [link_function hb hitems]
    exact hcall
  · exact hp.rest _ (by unfold Binding.input; omega)

end Integrates

/-! ## Exponential growth -/

/-- One state and two steps. -/
def growth : Binding where
  dims := { nx := 1, nu := 0 }
  rhs := "acado_rhs"
  discretized := false
  stepsPerInterval := 2
  stepSize := .uniform 0.1

def eulerIntegrator : Integrator where
  scheme := .explicitEuler
  moduleName := .standard
  linearSolver := .gaussLu
  binding := some growth

/-- The state grows by itself, and so does its sensitivity. -/
def growthModel (y : Fin growth.integratedLength → ℚ) (_ : Fin growth.inputs → ℚ) : Fin growth.integratedLength → ℚ := y

def growthCalls : Calls ℚ := fun name args m =>
  match args with
  | [.array v, .array w] =>
    .ok (.nothing, { m.fill w.block w.first growth.integratedLength (growth.model growthModel m v) with clock := m.clock + 1 })
  | _ => .error (.mismatch name)

/-- The state is three. -/
def growthMemory : Memory ℚ where
  reals
    | .static n, _ => Reading.ofFloat (if n = "acado_rk_tableau_b" then 1.0 else 0.0)
    | _, _ => 3
  ints _ _ := 0
  clock := 0

/-- Two explicit steps multiply twice. -/
theorem integrates_rungeKutta_growth :
    ∃ items m', eulerIntegrator.items = .ok items ∧
      C.link (fun _ name => if name = "rk_ttt" then 1 else 2) items growthCalls "acado_integrate"
        [.array ⟨.outside "eta", 0, 2⟩, .int 0] growthMemory = .ok (.int 0, m') ∧
      m'.reals (.outside "eta") 0 = (1 + Reading.ofFloat 0.1 * Reading.ofFloat 1.0) ^ 2 * 3 ∧
      m'.reals (.outside "eta") 1 = (1 + Reading.ofFloat 0.1 * Reading.ofFloat 1.0) ^ 2 := by
  have hstate : Handed eulerIntegrator growth ⟨.outside "eta", 0, 2⟩ :=
    ⟨rfl, by simp [workBlocks], fun n => Block.noConfusion⟩
  have hsize : Sized (eulerIntegrator.members .workspace) .workspace fun _ name => if name = "rk_ttt" then 1 else 2 := by
    unfold Sized
    decide
  have hloaded : Loaded (preamble eulerIntegrator growth ++ [.function (function eulerIntegrator growth)]) growthMemory := by
    intro name values hmem i hi
    have hitems : preamble eulerIntegrator growth =
        [.comment _, .constants "acado_rk_tableau_A" [0.0], .constants "acado_rk_tableau_b" [1.0],
          .constant "acado_rk_h" 0.1, .blank] := rfl
    rw [hitems] at hmem
    obtain ⟨rfl, rfl⟩ | ⟨rfl, rfl⟩ : (name = "acado_rk_tableau_A" ∧ values = [0.0]) ∨
        (name = "acado_rk_tableau_b" ∧ values = [1.0]) := by simpa using hmem
    · obtain rfl : i = 0 := Nat.lt_one_iff.1 hi
      rfl
    · obtain rfl : i = 0 := Nat.lt_one_iff.1 hi
      rfl
  have hrhs : Writes (growthCalls growth.rhs) growth.length growth.integratedLength (growth.model growthModel) :=
    fun v w m _ _ => rfl
  have hinterval : ∀ hs, growth.stepSize = .perInterval hs → 0 < hs.length := fun hs h => by cases h
  obtain ⟨m', hcall, heta, -⟩ := integrates_rungeKutta rfl rfl rfl rfl (by decide) hsize hrhs hstate hloaded 0 hinterval
  have hstep : rungeKuttaStep (Reading.ofFloat (growth.stepLength 0))
      (fun s t => Reading.ofFloat (eulerIntegrator.tableau.coefficient s t))
      (fun s => Reading.ofFloat (eulerIntegrator.tableau.weight s)) eulerIntegrator.stages
      (fun y => growthModel y (inputsAt growth ⟨.outside "eta", 0, 2⟩ growthMemory)) =
        fun y => (1 + Reading.ofFloat 0.1 * Reading.ofFloat 1.0 : ℚ) • y := by
    funext y
    rw [add_smul, one_smul]
    exact rungeKuttaStep_one _ _ _ _ y
  rw [hstep, smul_iterate] at heta
  exact ⟨_, m', rfl, hcall, heta ⟨0, by decide⟩, (heta ⟨1, by decide⟩).trans (mul_one _)⟩

end ControlCodegen.Integrator
