import ControlCodegen.Proofs.Integrator.Affine
import ControlCodegen.Proofs.Integrator.Discrete

/-!
# `Integrator.Dependence`: what a call of the generated integrator depends on

* `Iterated.same` : the iterations of a step leave the same stages, whatever stood in the workspace.
* `MethodStep` : a step of any scheme; it is determined by the state at its start.
* `Setting` : what a call may rely on.
* `Setting.exists_integrate`, `Setting.exists_map` : what a call does, in continuous and in discrete time.
* `Setting.has_stepSize` : a call for an interval without a step size does not come back.
* `Setting.integrate_alike` : in continuous time, calls with the same states and inputs give the same status and the same
  integrated part.
* `Setting.integrate_rest` : a state at rest stays as it is, and its algebraic part with it.

The arithmetic may be any, but for the last one.
-/

namespace ControlCodegen.Integrator

open C Matrix
open scoped Kronecker

set_option autoImplicit false

/-! ## Steps -/

section Steps

variable {α : Type} {Step : α → α → Prop} {n : ℕ} {a a' a'' : α}

/-- Where a step is determined by its start, so are several. -/
theorem Steps.unique (hstep : ∀ a a' a'', Step a a' → Step a a'' → a' = a'') (h : Steps Step n a a')
    (h' : Steps Step n a a'') : a' = a'' := by
  induction n generalizing a' a'' with
  | zero =>
    cases h
    cases h'
    rfl
  | succ n ih =>
    cases h with
    | succ h hlast =>
      cases h' with
      | succ h' hlast' =>
        obtain rfl := ih h h'
        exact hstep _ _ _ hlast hlast'

/-- Where a step stays, so do several. -/
theorem Steps.stay (hstep : ∀ a', Step a a' → a' = a) (h : Steps Step n a a') : a' = a := by
  induction h with
  | zero a => rfl
  | succ _ hlast ih =>
    obtain rfl := ih hstep
    exact hstep _ hlast

end Steps

/-! ## Arrays with the same entries -/

section Arrays

variable {R : Type} {g : Integrator} {b : Binding} {m m' : Memory R}

theorem exists_row {rows cols p : ℕ} (hp : p < rows * cols) : ∃ r < rows, ∃ c < cols, p = r * cols + c := by
  have hcols : 0 < cols := Nat.pos_of_ne_zero fun h => by simp [h] at hp
  exact ⟨p / cols, Nat.div_lt_of_lt_mul (by rwa [Nat.mul_comm]), p % cols, Nat.mod_lt _ hcols, (Nat.div_add_mod' p cols).symm⟩

theorem HasRows.eq_of {B : Block} {rows : ℕ} {K K' : ℕ → Fin b.integratedLength → R} (h : HasRows b B rows K m)
    (h' : HasRows b B rows K' m') (hK : ∀ s < rows, K s = K' s) {p : ℕ} (hp : p < rows * b.integratedLength) :
    m.reals B p = m'.reals B p := by
  obtain ⟨s, hs, i, hi, rfl⟩ := exists_row hp
  exact (h s hs ⟨i, hi⟩).trans ((congrFun (hK s hs) _).trans (h' s hs ⟨i, hi⟩).symm)

theorem HasMatrix.eq_of {entry : ℕ → ℕ → ℕ → ℕ → R} (h : HasMatrix g b entry m) (h' : HasMatrix g b entry m') {p : ℕ}
    (hp : p < g.unknowns b * g.unknowns b) : m.reals matrixBlock p = m'.reals matrixBlock p := by
  obtain ⟨q, hq, r, hr, rfl⟩ := exists_row hp
  obtain ⟨s, hs, i, hi, rfl⟩ := exists_row hq
  obtain ⟨t, ht, j, hj, rfl⟩ := exists_row hr
  rw [← Nat.add_assoc]
  exact (h s hs t ht i hi j hj).trans (h' s hs t ht i hi j hj).symm

theorem operands_agree (hmatrix : ∀ p < g.unknowns b * g.unknowns b, m.reals matrixBlock p = m'.reals matrixBlock p)
    (hresidual : ∀ p < g.unknowns b, m.reals residualBlock p = m'.reals residualBlock p) (B : Block) (i : ℕ)
    (hB : LinearSystem.Operand (matrixView g b) (residualView g b) B i) : m.reals B i = m'.reals B i := by
  rcases hB with ⟨rfl, -, hi⟩ | ⟨rfl, -, hi⟩
  · exact hmatrix i (by rwa [Nat.zero_add] at hi)
  · exact hresidual i (by rwa [Nat.zero_add] at hi)

end Arrays

/-! ## Iterations -/

section Iterations

variable {R : Type} [Arithmetic R] {ctx : Context R} {g : Integrator} {b : Binding} {x : R} {a J : ℕ → ℕ → R}
  {f : (Fin b.integratedLength → R) → Fin b.integratedLength → R} {y : Fin b.integratedLength → R} {k : ℕ} {e e' : ℤ}
  {K K' : ℕ → Fin b.integratedLength → R} {m m' : Memory R}

/-- What two runs of the iterations have in common: the status, the stages, and what the linear solver works on. -/
structure SameIteration (g : Integrator) (b : Binding) (e e' : ℤ) (K K' : ℕ → Fin b.integratedLength → R)
    (m m' : Memory R) : Prop where
  status : e = e'
  stages : ∀ s < g.stages, K s = K' s
  operands : Memory.Agree (LinearSystem.Operand (matrixView g b) (residualView g b)) (permutationView g b).Has m m'
  rows : IsRows (g.unknowns b) (permutationView g b) m.ints

theorem residualOf_congr {stages : ℕ} (hK : ∀ s < stages, K s = K' s) {s : ℕ} (hs : s < stages) :
    residualOf x a f y stages K s = residualOf x a f y stages K' s := by
  funext i
  have hpoint : (fun i => weighted x (a s) (fun t => K t i) (y i) stages) =
      fun i => weighted x (a s) (fun t => K' t i) (y i) stages := funext fun i =>
    weighted_congr (fun _ _ => rfl) fun t ht => congrFun (hK t ht) i
  rw [residualOf, residualOf, hpoint, hK s hs]

theorem corrected_congr (hK : ∀ s < g.stages, K s = K' s)
    (hm : ∀ B i, LinearSystem.Operand (matrixView g b) (residualView g b) B i → m.reals B i = m'.reals B i) {s : ℕ}
    (hs : s < g.stages) : corrected b K m s = corrected b K' m' s := by
  funext i
  have hentry : m.reals residualBlock (s * b.integratedLength + i) = m'.reals residualBlock (s * b.integratedLength + i) :=
    hm _ _ (.inr ⟨rfl, Nat.zero_le _, by rw [Nat.zero_add]; exact row_index_lt hs i.2⟩)
  rw [corrected, corrected, hK s hs, hentry]

/-- What the linear solver works on is the same before its next call, with the residuals of the stages on the right side. -/
theorem SameIteration.operands_again {n n' : Memory R} (h : SameIteration g b e e' K K' m m')
    (hsame : LinearSystem.SameFactors (matrixView g b) (permutationView g b) m n)
    (hsame' : LinearSystem.SameFactors (matrixView g b) (permutationView g b) m' n')
    (hresidual : HasRows b residualBlock g.stages (residualOf x a f y g.stages K) n)
    (hresidual' : HasRows b residualBlock g.stages (residualOf x a f y g.stages K') n') :
    Memory.Agree (LinearSystem.Operand (matrixView g b) (residualView g b)) (permutationView g b).Has n n' := by
  have hmatrix : ∀ p < g.unknowns b * g.unknowns b, n.reals matrixBlock p = n'.reals matrixBlock p := fun p hp => by
    have hleft := hsame.matrix p hp
    have hright := hsame'.matrix p hp
    rw [Nat.zero_add] at hleft hright
    rw [hleft, hright]
    exact h.operands.reals _ _ (.inl ⟨rfl, Nat.zero_le _, by rwa [Nat.zero_add]⟩)
  refine ⟨operands_agree hmatrix fun p hp => hresidual.eq_of hresidual' (fun s hs => residualOf_congr h.stages hs) hp, ?_⟩
  rintro B i ⟨rfl, -, hi⟩
  rw [Nat.zero_add] at hi
  have hleft := hsame.perm i hi
  have hright := hsame'.perm i hi
  rw [Nat.zero_add] at hleft hright
  rw [hleft, hright]
  exact h.operands.ints _ _ ⟨rfl, Nat.zero_le _, by rwa [Nat.zero_add]⟩

omit [Arithmetic R] in
theorem SameIteration.rows_again {n : Memory R} (h : SameIteration g b e e' K K' m m')
    (hsame : LinearSystem.SameFactors (matrixView g b) (permutationView g b) m n) :
    IsRows (g.unknowns b) (permutationView g b) n.ints := by
  intro r hr
  rw [hsame.perm r hr]
  exact h.rows r hr

variable (hsolver : (newton g b).CalledIn ctx)
include hsolver

/-- Two calls that factorize the same matrix for the same right side. -/
theorem solve_same {n n' : Memory R} (hmatrix : HasMatrix g b (newtonEntry x a J) m)
    (hmatrix' : HasMatrix g b (newtonEntry x a J) m')
    (hresidual : HasRows b residualBlock g.stages (residualOf x a f y g.stages (noStages R _)) m)
    (hresidual' : HasRows b residualBlock g.stages (residualOf x a f y g.stages (noStages R _)) m')
    (hcall : ctx.call (newton g b).solveName (newtonArguments g b) m = .ok (.int e, n))
    (hcall' : ctx.call (newton g b).solveName (newtonArguments g b) m' = .ok (.int e', n')) :
    SameIteration g b e e' (corrected b (noStages R _) n) (corrected b (noStages R _) n') n n' := by
  obtain ⟨e₁, n₁, hcall₁, hrows, -⟩ := hsolver.exists_solve m
  obtain ⟨rfl⟩ := Except.ok.inj (hcall₁.symm.trans hcall)
  obtain ⟨ctx', file, hsolve⟩ := hsolver.solve
  have hagree := operands_agree (fun p hp => hmatrix.eq_of hmatrix' hp)
    fun p hp => hresidual.eq_of hresidual' (fun _ _ => rfl) hp
  have halike : Matches _ ((newton g b).solve.invoke ctx' file (newtonArguments g b) m)
    ((newton g b).solve.invoke ctx' file (newtonArguments g b) m') :=
      LinearSystem.solve_alike rfl ⟨hagree, fun _ _ h => h.elim⟩
  rw [← hsolve, hcall, hcall'] at halike
  exact ⟨Answer.int.inj halike.1, fun s hs => corrected_congr (fun _ _ => rfl) halike.2.reals hs, halike.2, hrows⟩

/-- Two calls that solve again with the same factors for the same right side. -/
theorem solveAgain_same {n n' : Memory R} {answer answer' : Answer R} (hstages : ∀ s < g.stages, K s = K' s)
    (hagree : Memory.Agree (LinearSystem.Operand (matrixView g b) (residualView g b)) (permutationView g b).Has m m')
    (hrows : IsRows (g.unknowns b) (permutationView g b) m.ints)
    (hcall : ctx.call (newton g b).solveAgainName (newtonArguments g b) m = .ok (answer, n))
    (hcall' : ctx.call (newton g b).solveAgainName (newtonArguments g b) m' = .ok (answer', n')) :
    SameIteration g b e e (corrected b K n) (corrected b K' n') n n' := by
  obtain ⟨answer₁, n₁, hcall₁, hints, -⟩ := hsolver.exists_solveAgain m hrows
  obtain ⟨rfl⟩ := Except.ok.inj (hcall₁.symm.trans hcall)
  obtain ⟨ctx', file, hsolve⟩ := hsolver.solveAgain
  have halike : Matches _ ((newton g b).solveAgain.invoke ctx' file (newtonArguments g b) m)
    ((newton g b).solveAgain.invoke ctx' file (newtonArguments g b) m') :=
      LinearSystem.solveAgain_alike rfl rfl Block.noConfusion hrows hagree
  rw [← hsolve, hcall, hcall'] at halike
  exact ⟨rfl, fun s hs => corrected_congr hstages halike.2.reals hs, halike.2, by rw [hints]; exact hrows⟩

/-- From the first iteration on, nothing depends on what stood in the workspace. -/
theorem Iterated.same (h : Iterated ctx g b x a J f y (k + 1) e K m) (h' : Iterated ctx g b x a J f y (k + 1) e' K' m') :
    SameIteration g b e e' K K' m m' := by
  induction k generalizing e e' K K' m m' with
  | zero =>
    cases h with
    | first hmatrix hresidual hcall =>
      cases h' with
      | first hmatrix' hresidual' hcall' => exact solve_same hsolver hmatrix hmatrix' hresidual hresidual' hcall hcall'
  | succ k ih =>
    cases h with
    | again h hsame hresidual hcall =>
      cases h' with
      | again h' hsame' hresidual' hcall' =>
        have hbefore := ih h h'
        obtain rfl := hbefore.status
        exact solveAgain_same hsolver hbefore.stages
          (hbefore.operands_again hsame hsame' hresidual hresidual') (hbefore.rows_again hsame) hcall hcall'

variable {w : ℕ → R} {Jm : (Fin b.integratedLength → R) → ℕ → ℕ → R} {c c' c'' : ℤ × (Fin b.integratedLength → R)}

/-- An implicit step is determined by its start. -/
theorem NewtonStep.unique (h : NewtonStep ctx g b x a w Jm f c c') (h' : NewtonStep ctx g b x a w Jm f c c'') :
    c' = c'' := by
  obtain ⟨K, m, hiterated, hadvanced⟩ := h
  obtain ⟨K', m', hiterated', hadvanced'⟩ := h'
  have hsame := Iterated.same (k := 2) hsolver hiterated hiterated'
  refine Prod.ext hsame.status (hadvanced.trans (Eq.trans (funext fun i => ?_) hadvanced'.symm))
  exact weighted_congr (fun _ _ => rfl) fun s hs => congrFun (hsame.stages s hs) i

end Iterations

/-! ## Steps of any scheme -/

section Method

variable {R : Type} [Arithmetic R] {ctx : Context R} {g : Integrator} {b : Binding} {x : R} {a : ℕ → ℕ → R} {w : ℕ → R}
  {J : (Fin b.integratedLength → R) → ℕ → ℕ → R} {f : (Fin b.integratedLength → R) → Fin b.integratedLength → R}
  {c c' c'' : ℤ × (Fin b.integratedLength → R)}

/-- A step of the scheme, with the Newton method where it has one. -/
def MethodStep (ctx : Context R) (g : Integrator) (b : Binding) (x : R) (a : ℕ → ℕ → R) (w : ℕ → R)
    (J : (Fin b.integratedLength → R) → ℕ → ℕ → R) (f : (Fin b.integratedLength → R) → Fin b.integratedLength → R)
    (c c' : ℤ × (Fin b.integratedLength → R)) : Prop :=
  match g.newtonSystem b with
  | some _ => NewtonStep ctx g b x a w J f c c'
  | none => c' = (c.1, explicitStep x a w f c.2 g.stages)

theorem methodStep_newton (hsystem : g.newtonSystem b = some (newton g b)) :
    MethodStep ctx g b x a w J f = NewtonStep ctx g b x a w J f := by
  funext c c'
  rw [MethodStep, hsystem]

theorem methodStep_explicit (hsystem : g.newtonSystem b = none) :
    MethodStep ctx g b x a w J f = fun c c' => c' = (c.1, explicitStep x a w f c.2 g.stages) := by
  funext c c'
  rw [MethodStep, hsystem]

theorem newtonSystem_cases (g : Integrator) (b : Binding) :
    g.newtonSystem b = none ∨ g.newtonSystem b = some (newton g b) := by
  cases hsystem : g.newtonSystem b with
  | none => exact .inl rfl
  | some system => exact .inr (congrArg some (newtonSystem_eq_some hsystem).symm)

/-- A step is determined by its start. -/
theorem MethodStep.unique (hsolver : g.newtonSystem b = some (newton g b) → (newton g b).CalledIn ctx)
    (h : MethodStep ctx g b x a w J f c c') (h' : MethodStep ctx g b x a w J f c c'') : c' = c'' := by
  rcases newtonSystem_cases g b with hsystem | hsystem
  · rw [methodStep_explicit hsystem] at h h'
    rw [h, h']
  · rw [methodStep_newton hsystem] at h h'
    exact h.unique (hsolver hsystem) h'

end Method

/-! ## Calls -/

/-- What a call of the generated integrator may rely on: it is bound and written, the workspace has its members, the
functions of the model are provided under names of their own, that of the Jacobian where it is called, and the caller hands
an augmented state on. -/
structure Setting {R : Type} [Arithmetic R] (g : Integrator) (b : Binding) (items : List Item)
    (size : Struct → String → ℕ) (calls : Calls R)
    (F : (Fin b.integratedLength → R) → (Fin b.inputs → R) → Fin b.integratedLength → R)
    (G : (Fin b.integratedLength → R) → (Fin b.inputs → R) → Fin (b.integratedLength * b.integratedLength) → R)
    (state : View) : Prop where
  bound : g.binding = some b
  written : g.items = .ok items
  states : 0 < b.states
  sizes : Sized (g.members .workspace) .workspace size
  rhs_name : b.rhs ∉ Item.names (preamble g b)
  rhs : Writes (calls b.rhs) b.length b.integratedLength (b.model F)
  jacobian : ∀ system, g.newtonSystem b = some system → b.jacobian ∉ Item.names (preamble g b) ∧
    Writes (calls b.jacobian) b.length (b.integratedLength * b.integratedLength) (b.model G)
  handed : Handed g b state

section Calls

variable {R : Type} [Arithmetic R] {g : Integrator} {b : Binding} {items : List Item} {size : Struct → String → ℕ}
  {calls : Calls R} {F : (Fin b.integratedLength → R) → (Fin b.inputs → R) → Fin b.integratedLength → R}
  {G : (Fin b.integratedLength → R) → (Fin b.inputs → R) → Fin (b.integratedLength * b.integratedLength) → R}
  {state : View} {m m' : Memory R} {interval : ℕ}

/-- What the function refers to. -/
abbrev inside (g : Integrator) (b : Binding) (size : Struct → String → ℕ) (calls : Calls R) : Context R :=
  ⟨size, (surroundings g b size calls).2⟩

/-- A step of a call, from what is in memory before it. -/
def CallStep (g : Integrator) (b : Binding) (size : Struct → String → ℕ) (calls : Calls R)
    (F : (Fin b.integratedLength → R) → (Fin b.inputs → R) → Fin b.integratedLength → R)
    (G : (Fin b.integratedLength → R) → (Fin b.inputs → R) → Fin (b.integratedLength * b.integratedLength) → R)
    (state : View) (interval : ℕ) (m : Memory R) : ℤ × (Fin b.integratedLength → R) → ℤ × (Fin b.integratedLength → R) → Prop :=
  MethodStep (inside g b size calls) g b (storedStepLength g b interval m) (storedCoefficient g m) (storedWeight g m)
    (fun y => entryOf (G y (inputsAt b state m))) fun v => F v (inputsAt b state m)

/-- A step depends on the inputs and on the constants of the file. -/
theorem callStep_congr (hconstants : ∀ n, m.reals (.static n) = m'.reals (.static n))
    (hinputs : inputsAt b state m = inputsAt b state m') :
    CallStep g b size calls F G state interval m = CallStep g b size calls F G state interval m' := by
  have hlength : storedStepLength g b interval m = storedStepLength g b interval m' := by
    unfold storedStepLength
    cases b.stepSize with
    | uniform h => rfl
    | perInterval hs => exact congrFun (hconstants _) _
  have hcoefficient : storedCoefficient g m = storedCoefficient g m' := funext₂ fun _ _ => congrFun (hconstants _) _
  have hweight : storedWeight g m = storedWeight g m' := hconstants _
  unfold CallStep
  rw [hlength, hcoefficient, hweight, hinputs]

namespace Setting

variable (h : Setting g b items size calls F G state)
include h

theorem arrays : Arrays g b size state (seen (surroundings g b size calls).1 state) :=
  arrays_of h.bound h.states h.sizes h.handed

theorem rhs_inside : Writes ((inside g b size calls).call b.rhs) b.length b.integratedLength (b.model F) := by
  change Writes ((surroundings g b size calls).2 b.rhs) _ _ _
  rw [surroundings_call h.rhs_name]
  exact h.rhs

theorem jacobian_inside (hsystem : g.newtonSystem b = some (newton g b)) :
    Writes ((inside g b size calls).call b.jacobian) b.length (b.integratedLength * b.integratedLength) (b.model G) := by
  obtain ⟨hname, hjacobian⟩ := h.jacobian _ hsystem
  change Writes ((surroundings g b size calls).2 b.jacobian) _ _ _
  rw [surroundings_call hname]
  exact hjacobian

theorem makes {reals : String → Option R} (hreals : reals "h" = some (storedStepLength g b interval m)) :
    Makes (inside g b size calls) g b state m (seen (surroundings g b size calls).1 state) reals
      (CallStep g b size calls F G state interval m) := by
  unfold CallStep
  rcases newtonSystem_cases g b with hsystem | hsystem
  · rw [methodStep_explicit hsystem]
    exact explicit_makes h.arrays h.rhs_inside hreals hsystem
  · rw [methodStep_newton hsystem]
    exact implicit_makes h.arrays (newtonSizes_of h.bound hsystem h.sizes) (calledIn_surroundings hsystem) hreals hsystem
      h.rhs_inside (h.jacobian_inside hsystem)

/-- In continuous time a call makes the steps of its scheme from the states it is given. -/
theorem exists_integrate (hcontinuous : b.discretized = false) (m : Memory R) (reset : ℤ)
    (hinterval : ∀ hs, b.stepSize = .perInterval hs → interval < hs.length) :
    ∃ c m', C.link size items calls g.functionName (b.arguments state reset interval) m = .ok (.int c.1, m') ∧
      Steps (CallStep g b size calls F G state interval m) b.stepsPerInterval (0, start b (statesAt b state m)) c ∧
      Progress g b state m c.2 m' := by
  have hmakes : Makes (inside g b size calls) g b state m (seen (surroundings g b size calls).1 state)
      (fun n => if n = "h" then some (storedStepLength g b interval m) else (surroundings g b size calls).1.reals n) _ :=
    h.makes (if_pos rfl)
  obtain ⟨⟨answer, m'⟩, hcall, c, hsteps, rfl, hp⟩ :=
    (invoke_exact hcontinuous h.arrays (stepLength_stored hinterval) hmakes).exists_ok
  refine ⟨c, m', ?_, hsteps, hp⟩
  rw [link_function h.bound h.written]
  exact hcall

/-- In continuous time a call that comes back has found a step size for its interval. -/
theorem has_stepSize (hcontinuous : b.discretized = false) (reset : ℤ) {r : Answer R × Memory R}
    (hcall : C.link size items calls g.functionName (b.arguments state reset interval) m = .ok r) :
    ∀ hs, b.stepSize = .perInterval hs → interval < hs.length := by
  intro hs hsize
  by_contra hinterval
  rw [link_function h.bound h.written,
    invoke_outside hcontinuous hsize (stepSizes_stored hsize) (Nat.le_of_not_lt hinterval)] at hcall
  cases hcall

/-- In discrete time a call applies the model to all that stands in the augmented state. -/
theorem exists_map (hdiscrete : b.discretized = true) (m : Memory R) (reset : ℤ) (interval : ℕ) :
    ∃ m', C.link size items calls g.functionName (b.arguments state reset interval) m = .ok (.int 0, m') ∧
      Progress g b state m (F (fun i => etaAt state m i) (inputsAt b state m)) m' := by
  have hmeets : Meets (fun _ => False) ((function g b).invoke (inside g b size calls) (surroundings g b size calls).1
    (b.arguments state reset interval) m) _ := discrete_exact hdiscrete h.arrays h.rhs_inside reset interval
  obtain ⟨⟨answer, m'⟩, hcall, rfl, hp⟩ := hmeets.exists_ok
  refine ⟨m', ?_, hp⟩
  rw [link_function h.bound h.written]
  exact hcall

/-- In continuous time the status and the integrated part depend on the states and on the inputs, and on nothing else that
may differ between two calls. -/
theorem integrate_alike (hcontinuous : b.discretized = false) (reset : ℤ)
    (hinterval : ∀ hs, b.stepSize = .perInterval hs → interval < hs.length)
    (hconstants : ∀ n, m.reals (.static n) = m'.reals (.static n)) (hstates : statesAt b state m = statesAt b state m')
    (hinputs : inputsAt b state m = inputsAt b state m') :
    ∃ e y n n', C.link size items calls g.functionName (b.arguments state reset interval) m = .ok (.int e, n) ∧
      C.link size items calls g.functionName (b.arguments state reset interval) m' = .ok (.int e, n') ∧
      Progress g b state m y n ∧ Progress g b state m' y n' := by
  obtain ⟨c, n, hcall, hsteps, hp⟩ := h.exists_integrate hcontinuous m reset hinterval
  obtain ⟨c', n', hcall', hsteps', hp'⟩ := h.exists_integrate hcontinuous m' reset hinterval
  rw [← callStep_congr hconstants hinputs, ← hstates] at hsteps'
  obtain rfl := hsteps.unique (fun _ _ _ hstep => hstep.unique calledIn_surroundings) hsteps'
  exact ⟨c.1, c.2, n, n', hcall, hcall', hp, hp'⟩

end Setting

end Calls

/-! ## Rest -/

section Rest

variable {R : Type} [Field R] [LinearOrder R] [Reading R] [IsStrictOrderedRing R] {ctx : Context R} {g : Integrator}
  {b : Binding} {x : R} {a : ℕ → ℕ → R} {w : ℕ → R} {items : List Item} {size : Struct → String → ℕ} {calls : Calls R}
  {state : View} {interval : ℕ}

omit [IsStrictOrderedRing R] in
theorem weighted_rest {n stages : ℕ} {K : ℕ → Fin n → R} (hK : ∀ s < stages, K s = 0)
    (y : Fin n → R) : (fun i => weighted x w (fun s => K s i) (y i) stages) = y := by
  rw [weighted_exact_vector, Finset.sum_eq_zero fun s _ => by rw [hK s s.2, smul_zero], smul_zero, add_zero]

/-- A model at rest makes no step. -/
theorem MethodStep.rest (hstates : 0 < b.states)
    (hsolver : g.newtonSystem b = some (newton g b) → (newton g b).CalledIn ctx)
    {y : Fin b.integratedLength → R} {c : ℤ × (Fin b.integratedLength → R)}
    (h : MethodStep ctx g b x a w (fun _ => entryOf fun _ : Fin (b.integratedLength * b.integratedLength) => 0)
      (fun _ _ => 0) (0, y) c) : c = (0, y) := by
  rcases newtonSystem_cases g b with hsystem | hsystem
  · rw [methodStep_explicit hsystem] at h
    rw [h]
    refine Prod.ext rfl (weighted_rest (fun s _ => ?_) y)
    exact explicitStage_eq _ _ _ _ s
  · rw [methodStep_newton hsystem] at h
    obtain ⟨K, m, hiterated, hadvanced⟩ := h
    have hdet : (1 - x • (stageCoefficients g a ⊗ₖ (0 : Matrix (Fin b.integratedLength) (Fin b.integratedLength) R))).det ≠ 0 := by
      rw [kronecker_zero, smul_zero, sub_zero, det_one]
      exact one_ne_zero
    have hf : ∀ v : Fin b.integratedLength → R,
        (fun _ => 0 : Fin b.integratedLength → R) = (0 : Matrix (Fin b.integratedLength) (Fin b.integratedLength) R) *ᵥ v + 0 := by
      intro v
      rw [zero_mulVec, add_zero]
      rfl
    obtain ⟨hzero, hsolved, -⟩ := hiterated.solves (hsolver hsystem) (unknowns_pos hstates) hdet hf
      (entryOf_rows (S := R) 0) (by decide)
    refine Prod.ext hzero (hadvanced.trans (weighted_rest (fun s hs => ?_) y))
    exact stageResidual_eq_zero hsolved ⟨s, hs⟩

/-- Where the model is at rest, a call leaves the states as they are, with the start of the sensitivities. -/
theorem Setting.integrate_rest (h : Setting g b items size calls (fun _ _ _ => 0) (fun _ _ _ => 0) state)
    (hcontinuous : b.discretized = false) (m : Memory R) (reset : ℤ)
    (hinterval : ∀ hs, b.stepSize = .perInterval hs → interval < hs.length) :
    ∃ m', C.link size items calls g.functionName (b.arguments state reset interval) m = .ok (.int 0, m') ∧
      Progress g b state m (start b (statesAt b state m)) m' := by
  obtain ⟨c, m', hcall, hsteps, hp⟩ := h.exists_integrate hcontinuous m reset hinterval
  obtain rfl := hsteps.stay fun c hstep => MethodStep.rest h.states calledIn_surroundings hstep
  exact ⟨m', hcall, hp⟩

end Rest

end ControlCodegen.Integrator
