import ControlCodegen.Proofs.Integrator.Newton
import ControlCodegen.Proofs.Integrator.RungeKutta
import Mathlib.LinearAlgebra.Matrix.Kronecker

/-!
# `Integrator.Affine`: implicit schemes on affine models

* `stageResidual` : by how much vectors miss the stage equations of a scheme.
* `Iterated.solves` : over exact numbers, one iteration on an affine model solves the stage equations; further ones keep
  that.
* `ImplicitStep` : a step of an implicit Runge-Kutta method.
* `integrates_affine` : the generated integrator makes these steps.
-/

namespace ControlCodegen.Integrator

open C Matrix
open scoped Kronecker

set_option autoImplicit false

/-! ## Stage equations -/

section Equations

variable {R : Type} [Field R] {n stages : ℕ} (h : R) (A : Matrix (Fin stages) (Fin stages) R)
  (f : (Fin n → R) → Fin n → R) (y : Fin n → R)

/-- By how much vectors miss the equations of the stages. -/
def stageResidual (K : Fin stages → Fin n → R) (s : Fin stages) : Fin n → R := f (y + h • ∑ t, A s t • K t) - K s

/-- A step of an implicit Runge-Kutta method: the stages solve their equations, the state moves on by their weighted sum. -/
def ImplicitStep (w : Fin stages → R) (y y' : Fin n → R) : Prop :=
  ∃ K : Fin stages → Fin n → R, (∀ s, K s = f (y + h • ∑ t, A s t • K t)) ∧ y' = y + h • ∑ s, w s • K s

variable {h A f y}

theorem stageResidual_eq_zero {K : Fin stages → Fin n → R} (hK : stageResidual h A f y K = 0) (s : Fin stages) :
    K s = f (y + h • ∑ t, A s t • K t) := (sub_eq_zero.1 (congrFun hK s)).symm

/-- The matrix of the stage equations, row by row. -/
theorem stageMatrix_mulVec (J : Matrix (Fin n) (Fin n) R) (δ : Fin stages → Fin n → R) (s : Fin stages) (i : Fin n) :
    ((1 - h • (A ⊗ₖ J)) *ᵥ fun p => δ p.1 p.2) (s, i) = δ s i - (h • ∑ t, A s t • J *ᵥ δ t) i := by
  have hproduct : ((A ⊗ₖ J) *ᵥ fun p => δ p.1 p.2) (s, i) = (∑ t, A s t • J *ᵥ δ t) i := by
    rw [Finset.sum_apply, mulVec, dotProduct, Fintype.sum_prod_type]
    refine Finset.sum_congr rfl fun t _ => ?_
    rw [Pi.smul_apply, smul_eq_mul, mulVec, dotProduct, Finset.mul_sum]
    exact Finset.sum_congr rfl fun j _ => mul_assoc _ _ _
  rw [sub_mulVec, one_mulVec, smul_mulVec, Pi.sub_apply, Pi.smul_apply, hproduct, Pi.smul_apply]

/-- On an affine model, a change of the stages moves the residual by the matrix. -/
theorem stageResidual_add {J : Matrix (Fin n) (Fin n) R} {c : Fin n → R} (hf : ∀ v, f v = J *ᵥ v + c)
    (K δ : Fin stages → Fin n → R) (s : Fin stages) (i : Fin n) :
    stageResidual h A f y (K + δ) s i =
      stageResidual h A f y K s i - ((1 - h • (A ⊗ₖ J)) *ᵥ fun p => δ p.1 p.2) (s, i) := by
  have hsplit : y + h • ∑ t, A s t • (K + δ) t = y + h • ∑ t, A s t • K t + h • ∑ t, A s t • δ t := by
    simp only [Pi.add_apply, smul_add, Finset.sum_add_distrib, add_assoc]
  have hlinear : J *ᵥ (h • ∑ t, A s t • δ t) = h • ∑ t, A s t • J *ᵥ δ t := by
    rw [mulVec_smul, mulVec_sum]
    simp only [mulVec_smul]
  rw [stageMatrix_mulVec, stageResidual, stageResidual, hsplit, hf, hf, mulVec_add, hlinear]
  simp only [Pi.add_apply, Pi.sub_apply]
  ring

end Equations

/-! ## Memory -/

section Arrays

variable {R : Type} {g : Integrator} {b : Binding} {m : Memory R}

/-- The unknowns are the entries of the stages, one stage after the other. -/
def unknown (g : Integrator) (b : Binding) : Fin g.stages × Fin b.integratedLength ≃ Fin (g.unknowns b) := finProdFinEquiv

theorem unknown_val (s : Fin g.stages) (i : Fin b.integratedLength) :
    (unknown g b (s, i) : ℕ) = s * b.integratedLength + i := by
  change (i : ℕ) + b.integratedLength * s = _
  rw [Nat.mul_comm, Nat.add_comm]

theorem vectorAt_residual (m : Memory R) (s : Fin g.stages) (i : Fin b.integratedLength) :
    LinearSystem.vectorAt (residualView g b) (g.unknowns b) m (unknown g b (s, i)) =
      m.reals residualBlock (s * b.integratedLength + i) := by
  have hindex : 0 + (unknown g b (s, i) : ℕ) = s * b.integratedLength + i := by rw [unknown_val, Nat.zero_add]
  exact congrArg (m.reals residualBlock) hindex

variable [Field R] {x : R} {a Jn : ℕ → ℕ → R} {J : Matrix (Fin b.integratedLength) (Fin b.integratedLength) R}

/-- The stage matrix of a scheme, without what stands beside it. -/
def stageCoefficients (g : Integrator) (a : ℕ → ℕ → R) : Matrix (Fin g.stages) (Fin g.stages) R := fun s t => a s t

/-- The matrix of the stage equations, in the order of memory. -/
def newtonMatrixOf (g : Integrator) (b : Binding) (x : R) (a : ℕ → ℕ → R)
    (J : Matrix (Fin b.integratedLength) (Fin b.integratedLength) R) : Matrix (Fin (g.unknowns b)) (Fin (g.unknowns b)) R :=
  (1 - x • (stageCoefficients g a ⊗ₖ J)).submatrix (unknown g b).symm (unknown g b).symm

theorem newtonMatrixOf_apply (s t : Fin g.stages) (i j : Fin b.integratedLength) :
    newtonMatrixOf g b x a J (unknown g b (s, i)) (unknown g b (t, j)) =
      (1 - x • (stageCoefficients g a ⊗ₖ J)) (s, i) (t, j) := by
  unfold newtonMatrixOf
  rw [submatrix_apply, Equiv.symm_apply_apply, Equiv.symm_apply_apply]

theorem newtonMatrixOf_mulVec (v : Fin (g.unknowns b) → R) (s : Fin g.stages) (i : Fin b.integratedLength) :
    (newtonMatrixOf g b x a J *ᵥ v) (unknown g b (s, i)) =
      ((1 - x • (stageCoefficients g a ⊗ₖ J)) *ᵥ fun p => v (unknown g b p)) (s, i) := by
  unfold newtonMatrixOf
  rw [submatrix_mulVec_equiv]
  exact congrArg _ (Equiv.symm_apply_apply (unknown g b) (s, i))

theorem det_newtonMatrixOf : (newtonMatrixOf g b x a J).det = (1 - x • (stageCoefficients g a ⊗ₖ J)).det :=
  det_submatrix_equiv_self _ _

variable [LinearOrder R] [Reading R]

/-- The matrix that the function assembles. -/
theorem HasMatrix.matrixAt_eq (h : HasMatrix g b (newtonEntry x a Jn) m)
    (hJ : ∀ i j : Fin b.integratedLength, Jn i j = J i j) :
    LinearSystem.matrixAt (matrixView g b) (g.unknowns b) m = newtonMatrixOf g b x a J := by
  ext p q
  obtain ⟨⟨s, i⟩, rfl⟩ := (unknown g b).surjective p
  obtain ⟨⟨t, j⟩, rfl⟩ := (unknown g b).surjective q
  have hindex : 0 + ((unknown g b (s, i) : ℕ) * g.unknowns b + (unknown g b (t, j) : ℕ)) = matrixIndex g b s t i j := by
    rw [unknown_val, unknown_val, matrixIndex, Nat.zero_add, Nat.add_assoc]
  have hone : (1 : Matrix (Fin g.stages × Fin b.integratedLength) _ R) (s, i) (t, j) =
      ((if (s : ℕ) = t ∧ (i : ℕ) = j then 1 else 0 : ℕ) : R) := by
    simp only [one_apply, Prod.mk.injEq, Fin.ext_iff, Nat.cast_ite, Nat.cast_one, Nat.cast_zero]
  have hentry : m.reals matrixBlock _ = _ := h s s.2 t t.2 i i.2 j j.2
  rw [← hindex] at hentry
  refine hentry.trans ?_
  rw [newtonMatrixOf_apply, Matrix.sub_apply, hone, Matrix.smul_apply, kronecker_apply, newtonEntry, hJ, smul_eq_mul, ← mul_assoc]
  rfl

/-- The residual that the function forms. -/
theorem HasRows.stageResidual {f : (Fin b.integratedLength → R) → Fin b.integratedLength → R}
    {y : Fin b.integratedLength → R} {K : ℕ → Fin b.integratedLength → R}
    (h : HasRows b residualBlock g.stages (residualOf x a f y g.stages K) m) (s : Fin g.stages) (i : Fin b.integratedLength) :
    LinearSystem.vectorAt (residualView g b) (g.unknowns b) m (unknown g b (s, i)) =
      stageResidual x (stageCoefficients g a) f y (fun s => K s) s i := by
  rw [vectorAt_residual, h s s.2 i, residualOf, weighted_exact_vector, Integrator.stageResidual]
  rfl

end Arrays

/-! ## Iterations -/

section Iterations

variable {R : Type} [Field R] [LinearOrder R] [Reading R] [IsStrictOrderedRing R] {ctx : Context R} {g : Integrator}
  {b : Binding} {x : R} {a Jn : ℕ → ℕ → R} {J : Matrix (Fin b.integratedLength) (Fin b.integratedLength) R}
  {f : (Fin b.integratedLength → R) → Fin b.integratedLength → R} {y c : Fin b.integratedLength → R} {k : ℕ} {e : ℤ}
  {K : ℕ → Fin b.integratedLength → R} {m m' : Memory R}

omit [LinearOrder R] [Reading R] [IsStrictOrderedRing R] in
/-- The solution of a linear system with the residual on its right side, added to the stages, leaves no residual. -/
theorem corrected_solves {v r : Fin (g.unknowns b) → R} (hf : ∀ u, f u = J *ᵥ u + c)
    {K δ : Fin g.stages → Fin b.integratedLength → R}
    (hr : ∀ s i, r (unknown g b (s, i)) = stageResidual x (stageCoefficients g a) f y K s i)
    (hδ : ∀ s i, v (unknown g b (s, i)) = δ s i) (hv : newtonMatrixOf g b x a J *ᵥ v = r) :
    stageResidual x (stageCoefficients g a) f y (K + δ) = 0 := by
  ext s i
  have hsolution := congrFun hv (unknown g b (s, i))
  rw [newtonMatrixOf_mulVec, hr] at hsolution
  simp only [hδ] at hsolution
  rw [stageResidual_add hf, hsolution]
  exact sub_self _

/-- One iteration on an affine model solves the stage equations, and further ones keep that. -/
theorem Iterated.solves (hsolver : (newton g b).CalledIn ctx) (hdim : 0 < g.unknowns b)
    (hdet : (1 - x • (stageCoefficients g a ⊗ₖ J)).det ≠ 0) (hf : ∀ v, f v = J *ᵥ v + c)
    (hJ : ∀ i j : Fin b.integratedLength, Jn i j = J i j) (h : Iterated ctx g b x a Jn f y k e K m) (hk : 0 < k) :
    e = 0 ∧ stageResidual x (stageCoefficients g a) f y (fun s => K s) = 0 ∧
      ∃ M π, LinearSystem.Factored (s := newton g b) (newtonMatrixOf g b x a J) (matrixView g b) (permutationView g b) M π
        m := by
  have hargs := newton_arguments g b
  induction h with
  | start e m => exact absurd hk (Nat.lt_irrefl 0)
  | @first e m m' hmatrix hresidual hcall =>
    obtain ⟨ctx', file, hsolve⟩ := hsolver.solve
    have hmeets := LinearSystem.meets_solve_exact ctx' file m hargs
    have hassembled : LinearSystem.matrixAt (matrixView g b) (newton g b).dim m = newtonMatrixOf g b x a J :=
      hmatrix.matrixAt_eq hJ
    change Meets _ ((newton g b).solve.invoke ctx' file (newtonArguments g b) m) _ at hmeets
    rw [← hsolve, hcall, hassembled] at hmeets
    rcases hmeets with ⟨-, hsingular⟩ | ⟨hzero, hsolved⟩
    · exact absurd (det_newtonMatrixOf.symm.trans hsingular) hdet
    · refine ⟨Answer.int.inj hzero, ?_, hsolved.factored⟩
      exact corrected_solves hf hresidual.stageResidual (vectorAt_residual m') hsolved.solution
  | @again k e K m m' m'' answer h hsame hresidual hcall ih =>
    obtain ⟨hzero, -, M, π, hfactored⟩ := ih (Nat.succ_pos k)
    obtain ⟨ctx', file, hsolve⟩ := hsolver.solveAgain
    have hmeets := LinearSystem.meets_solveAgain_exact ctx' file m' hargs hdim (hfactored.same hargs hsame)
    change Meets _ ((newton g b).solveAgain.invoke ctx' file (newtonArguments g b) m') _ at hmeets
    rw [← hsolve, hcall] at hmeets
    obtain ⟨-, hsolved⟩ := hmeets
    refine ⟨hzero, ?_, hsolved.factored⟩
    exact corrected_solves hf hresidual.stageResidual (vectorAt_residual m'') hsolved.solution

variable {w : ℕ → R} {Jm : (Fin b.integratedLength → R) → ℕ → ℕ → R}

/-- The steps of the generated function, on an affine model. -/
theorem Steps.implicit (hsolver : (newton g b).CalledIn ctx) (hdim : 0 < g.unknowns b)
    (hdet : (1 - x • (stageCoefficients g a ⊗ₖ J)).det ≠ 0) (hf : ∀ v, f v = J *ᵥ v + c)
    (hJ : ∀ y, ∀ i j : Fin b.integratedLength, Jm y i j = J i j) {d d' : ℤ × (Fin b.integratedLength → R)}
    (h : Steps (NewtonStep ctx g b x a w Jm f) k d d') (hd : d.1 = 0) :
    d'.1 = 0 ∧ Steps (ImplicitStep x (stageCoefficients g a) f fun s => w s) k d.2 d'.2 := by
  induction h with
  | zero d => exact ⟨hd, .zero d.2⟩
  | succ _ hstep ih =>
    obtain ⟨K, m, hiterated, hadvanced⟩ := hstep
    obtain ⟨hzero, hsolved, -⟩ := hiterated.solves hsolver hdim hdet hf (hJ _) (by decide)
    refine ⟨hzero, .succ (ih hd).2 ⟨fun s => K s, stageResidual_eq_zero hsolved, ?_⟩⟩
    rw [hadvanced, weighted_exact_vector]

end Iterations

/-! ## Calls -/

section Integrates

variable {R : Type} [Field R] [LinearOrder R] [Reading R]

/-- The stage matrix of a scheme in exact numbers. -/
def exactStageMatrix (R : Type) [Reading R] (g : Integrator) : Matrix (Fin g.stages) (Fin g.stages) R := fun s t =>
  Reading.ofFloat (g.tableau.coefficient s t)

/-- The weights of a scheme in exact numbers. -/
def exactWeights (R : Type) [Reading R] (g : Integrator) (s : Fin g.stages) : R := Reading.ofFloat (g.tableau.weight s)

/-- A matrix written by rows. -/
theorem entryOf_rows {S : Type} [Arithmetic S] {n : ℕ} (J : Matrix (Fin n) (Fin n) S) (i j : Fin n) :
    entryOf (fun p => J p.divNat p.modNat) i j = J i j := by
  have hpair : (⟨i * n + j, row_index_lt i.2 j.2⟩ : Fin (n * n)) = finProdFinEquiv (i, j) := by
    ext
    change (i : ℕ) * n + j = j + n * i
    rw [Nat.mul_comm, Nat.add_comm]
  have hsymm := Equiv.symm_apply_apply finProdFinEquiv (i, j)
  rw [entryOf, dif_pos (row_index_lt i.2 j.2), hpair]
  exact congrArg (fun q : Fin n × Fin n => J q.1 q.2) hsymm

variable {g : Integrator} {b : Binding}

theorem unknowns_pos (hstates : 0 < b.states) : 0 < g.unknowns b :=
  Nat.mul_pos (stages_pos g.scheme)
    (Nat.mul_pos hstates (Nat.lt_of_lt_of_le Nat.one_pos (Nat.le_add_right _ _ |>.trans (Nat.le_add_right _ _))))

theorem stageCoefficients_stored {m : Memory R} (h : Loaded (constants g b) m) :
    stageCoefficients g (storedCoefficient g m) = exactStageMatrix R g := by
  ext s t
  exact storedCoefficient_of h s.2 t.2

/-- The Newton loop of a step leaves stages that solve their equations, where the model is affine. -/
theorem newtonLoop_solves [IsStrictOrderedRing R] {ctx : Context R} {state : View} {arrays : String → Option View}
    {reals : String → Option R} {before : Memory R} {x : R}
    {J : (Fin b.inputs → R) → Matrix (Fin b.integratedLength) (Fin b.integratedLength) R}
    {c : (Fin b.inputs → R) → Fin b.integratedLength → R}
    (hA : Arrays g b ctx.size state arrays) (hN : NewtonSizes g b ctx.size) (hsolver : (newton g b).CalledIn ctx)
    (hsystem : g.newtonSystem b = some (newton g b)) (hx : reals "h" = some x)
    (hrhs : Writes (ctx.call b.rhs) b.length b.integratedLength (b.model fun y u => J u *ᵥ y + c u))
    (hjac : Writes (ctx.call b.jacobian) b.length (b.integratedLength * b.integratedLength)
      (b.model fun _ u p => J u p.divNat p.modNat))
    (hdet : (1 - x • (stageCoefficients g (storedCoefficient g before) ⊗ₖ J (inputsAt b state before))).det ≠ 0)
    {d : ℤ × (Fin b.integratedLength → R)} {τ : State R} (h : Between g b state before arrays reals d τ) :
    ∃ τ', (computeStages g b).exec ctx τ = .ok (.next τ') ∧ τ'.ints "error" = some 0 ∧
      ∃ K : Fin g.stages → Fin b.integratedLength → R,
        (∀ (s : Fin g.stages) (i : Fin b.integratedLength),
          τ'.memory.reals stageBlock (s * b.integratedLength + i) = K s i) ∧
        ∀ s, K s = J (inputsAt b state before) *ᵥ
          (d.2 + x • ∑ t, stageCoefficients g (storedCoefficient g before) s t • K t) + c (inputsAt b state before) := by
  obtain ⟨hstatus, m, hm, hp⟩ := h
  have hruns := implicitStages_exact (D := fun _ _ => False) hA hm (Known.of_none τ.ints) hN hsolver hx hrhs hjac hp hstatus
  unfold computeStages
  rw [hsystem]
  obtain ⟨τ' | ⟨answer, m'⟩, hresult, hends⟩ := hruns.exists_ok
  · obtain ⟨-, e, m', hstatus', hm', hiterating⟩ := hends
    obtain ⟨K, mf, hiterated, hK, -⟩ := hiterating.iterated
    obtain ⟨rfl, hsolved, -⟩ := hiterated.solves hsolver (unknowns_pos hA.states) hdet (fun _ => rfl) (entryOf_rows _)
      (by decide)
    refine ⟨τ', hresult, hstatus', fun s => K s, fun s i => ?_, stageResidual_eq_zero hsolved⟩
    rw [hm'.memory]
    exact hK s s.2 i
  · exact hends.elim

/-- The generated integrator of an implicit scheme makes the steps of its method exactly where the model is affine and the
stage equations have one solution. In each step the Newton loop finds that solution, and the status is zero. -/
theorem integrates_affine [IsStrictOrderedRing R] {g : Integrator} {b : Binding} {items : List Item}
    (hb : g.binding = some b) (hitems : g.items = .ok items) (himplicit : g.scheme.isImplicit = true)
    (hcontinuous : b.discretized = false) (hstates : 0 < b.states) {size : Struct → String → ℕ}
    (hsize : Sized (g.members .workspace) .workspace size) {calls : Calls R}
    (hnames : b.rhs ∉ Item.names (preamble g b) ∧ b.jacobian ∉ Item.names (preamble g b))
    {J : (Fin b.inputs → R) → Matrix (Fin b.integratedLength) (Fin b.integratedLength) R}
    {c : (Fin b.inputs → R) → Fin b.integratedLength → R}
    (hrhs : Writes (calls b.rhs) b.length b.integratedLength (b.model fun y u => J u *ᵥ y + c u))
    (hjac : Writes (calls b.jacobian) b.length (b.integratedLength * b.integratedLength)
      (b.model fun _ u p => J u p.divNat p.modNat))
    {state : View} (hstate : Handed g b state) {m : Memory R} (hloaded : Loaded items m) (reset : ℤ) {interval : ℕ}
    (hinterval : ∀ hs, b.stepSize = .perInterval hs → interval < hs.length) {h : R}
    (hh : h = Reading.ofFloat (b.stepLength interval))
    (hdet : (1 - h • (exactStageMatrix R g ⊗ₖ J (inputsAt b state m))).det ≠ 0) :
    (∀ reals : String → Option R, reals "h" = some h → ∀ a τ,
      Between g b state m (seen (surroundings g b size calls).1 state) reals a τ →
      ∃ τ', (computeStages g b).exec ⟨size, (surroundings g b size calls).2⟩ τ = .ok (.next τ') ∧
        τ'.ints "error" = some 0 ∧ ∃ K : Fin g.stages → Fin b.integratedLength → R,
          (∀ (s : Fin g.stages) (i : Fin b.integratedLength),
            τ'.memory.reals stageBlock (s * b.integratedLength + i) = K s i) ∧
          ∀ s : Fin g.stages,
            K s = J (inputsAt b state m) *ᵥ (a.2 + h • ∑ t, exactStageMatrix R g s t • K t) + c (inputsAt b state m)) ∧
    ∃ m' y, C.link size items calls g.functionName (b.arguments state reset interval) m = .ok (.int 0, m') ∧
      Steps (ImplicitStep h (exactStageMatrix R g)
        (fun y => J (inputsAt b state m) *ᵥ y + c (inputsAt b state m)) (exactWeights R g)) b.stepsPerInterval
        (start b (statesAt b state m)) y ∧
      (∀ i : Fin b.integratedLength, etaAt state m' i = y i) ∧ inputsAt b state m' = inputsAt b state m := by
  subst hh
  have hsystem := newtonSystem_eq himplicit hcontinuous
  have hconstants := hloaded.constants hb hitems
  have hstored := stageCoefficients_stored hconstants
  let ctx : Context R := ⟨size, (surroundings g b size calls).2⟩
  have hA : Arrays g b ctx.size state (seen (surroundings g b size calls).1 state) := arrays_of hb hstates hsize hstate
  have hN : NewtonSizes g b ctx.size := newtonSizes_of hb hsystem hsize
  have hsolver : (newton g b).CalledIn ctx := calledIn_surroundings hsystem
  have hmodel : Writes (ctx.call b.rhs) b.length b.integratedLength (b.model fun y u => J u *ᵥ y + c u) := by
    change Writes ((surroundings g b size calls).2 b.rhs) _ _ _
    rw [surroundings_call hnames.1]
    exact hrhs
  have hjacobian : Writes (ctx.call b.jacobian) b.length (b.integratedLength * b.integratedLength)
      (b.model fun _ u p => J u p.divNat p.modNat) := by
    change Writes ((surroundings g b size calls).2 b.jacobian) _ _ _
    rw [surroundings_call hnames.2]
    exact hjac
  rw [← hstored] at hdet ⊢
  refine ⟨fun reals hreals d τ hbetween => newtonLoop_solves hA hN hsolver hsystem hreals hmodel hjacobian hdet hbetween, ?_⟩
  have hmakes : Makes ctx g b state m (seen (surroundings g b size calls).1 state)
      (fun n => if n = "h" then some (Arithmetic.ofFloat (b.stepLength interval)) else (surroundings g b size calls).1.reals n)
      _ := implicit_makes hA hN hsolver (if_pos rfl) hsystem hmodel hjacobian
  obtain ⟨⟨answer, m'⟩, hcall, d, hsteps, rfl, hp⟩ :=
    (invoke_exact hcontinuous hA (stepLength_of hconstants hinterval) hmakes).exists_ok
  obtain ⟨hzero, hexact⟩ := hsteps.implicit hsolver (unknowns_pos hstates) hdet (fun _ => rfl) (fun _ => entryOf_rows _) rfl
  refine ⟨m', d.2, ?_, ?_, hp.integrated, funext fun j => ?_⟩
  · rw [link_function hb hitems, ← hzero]
    exact hcall
  · have hweights : (fun s : Fin g.stages => storedWeight g m s) = exactWeights R g :=
      funext fun s => storedWeight_of hconstants s.2
    rw [← hweights]
    exact hexact
  · exact hp.rest _ (by unfold Binding.input; omega)

end Integrates

/-! ## A drift -/

/-- One state and one step. -/
def drift : Binding where
  dims := { nx := 1, nu := 0 }
  rhs := "acado_rhs"
  discretized := false
  stepsPerInterval := 1
  stepSize := .uniform 0.1

def midpointIntegrator : Integrator where
  scheme := .gaussLegendre2
  moduleName := .standard
  linearSolver := .gaussLu
  binding := some drift

/-- The first entry follows the second one, and that grows at the rate one. -/
def driftMatrix : Matrix (Fin drift.integratedLength) (Fin drift.integratedLength) ℚ := fun i j => if i < j then 1 else 0

def driftRate (i : Fin drift.integratedLength) : ℚ := i

def driftCalls : Calls ℚ := fun name args m =>
  match args with
  | [.array v, .array w] =>
    if name = "acado_rhs" then
      .ok (.nothing, { m.fill w.block w.first drift.integratedLength
        (drift.model (fun y _ => driftMatrix *ᵥ y + driftRate) m v) with clock := m.clock + 1 })
    else
      .ok (.nothing, { m.fill w.block w.first (drift.integratedLength * drift.integratedLength)
        (drift.model (fun _ _ p => driftMatrix p.divNat p.modNat) m v) with clock := m.clock + 1 })
  | _ => .error (.mismatch name)

/-- The state is three. -/
def driftMemory : Memory ℚ where
  reals
    | .static n, _ => Reading.ofFloat (if n = "acado_rk_tableau_b" then 1.0 else 0.5)
    | _, _ => 3
  ints _ _ := 0
  clock := 0

def driftSizes (_ : Struct) (name : String) : ℕ :=
  if name = "rk_ttt" then 1 else if name = "rk_A" ∨ name = "rk_jac" then 4 else 2

theorem driftMatrix_mulVec (v : Fin drift.integratedLength → ℚ) :
    driftMatrix *ᵥ v = fun i : Fin drift.integratedLength => if (i : ℕ) = 0 then v ⟨1, by decide⟩ else 0 := by
  funext i
  have hsum : (driftMatrix *ᵥ v) i =
      driftMatrix i ⟨0, by decide⟩ * v ⟨0, by decide⟩ + driftMatrix i ⟨1, by decide⟩ * v ⟨1, by decide⟩ :=
    Fin.sum_univ_two fun j : Fin 2 => driftMatrix i j * v j
  rw [hsum]
  unfold driftMatrix
  obtain ⟨i, hi⟩ := i
  simp only [Fin.mk_lt_mk, Nat.not_lt_zero, Nat.lt_one_iff, if_false, zero_mul, zero_add, ite_mul, one_mul]

/-- A product of nilpotent matrices leaves the identity regular. -/
theorem det_drift (A : Matrix (Fin midpointIntegrator.stages) (Fin midpointIntegrator.stages) ℚ) (h : ℚ) :
    (1 - h • (A ⊗ₖ driftMatrix)).det ≠ 0 := by
  have hsquare : driftMatrix * driftMatrix = 0 := by
    ext i j
    rw [mul_apply]
    refine Finset.sum_eq_zero fun k _ => ?_
    have hj : (j : ℕ) < 2 := j.2
    by_cases hik : i < k
    · have hkj : ¬k < j := by
        rw [Fin.lt_def] at hik ⊢
        omega
      exact mul_eq_zero_of_right _ (if_neg hkj)
    · exact mul_eq_zero_of_left (if_neg hik) _
  have hnilpotent : h • (A ⊗ₖ driftMatrix) * h • (A ⊗ₖ driftMatrix) = 0 := by
    rw [smul_mul_smul_comm, ← mul_kronecker_mul, hsquare, kronecker_zero, smul_zero]
  have hinverse : (1 - h • (A ⊗ₖ driftMatrix)) * (1 + h • (A ⊗ₖ driftMatrix)) = 1 := by
    rw [sub_mul, one_mul, mul_add, mul_one, hnilpotent, add_zero, add_sub_cancel_right]
  have hdet := congrArg det hinverse
  rw [det_mul, det_one] at hdet
  exact left_ne_zero_of_mul_eq_one hdet

/-- An implicit step sees the second entry at the middle of the step. -/
theorem integrates_affine_drift :
    ∃ items m', midpointIntegrator.items = .ok items ∧
      C.link driftSizes items driftCalls "acado_integrate" [.array ⟨.outside "eta", 0, 2⟩, .int 0] driftMemory =
        .ok (.int 0, m') ∧
      m'.reals (.outside "eta") 0 = 3 + Reading.ofFloat 0.1 * (Reading.ofFloat 1.0 *
        (1 + Reading.ofFloat 0.1 * Reading.ofFloat 0.5)) ∧
      m'.reals (.outside "eta") 1 = 1 + Reading.ofFloat 0.1 * Reading.ofFloat 1.0 := by
  have hstate : Handed midpointIntegrator drift ⟨.outside "eta", 0, 2⟩ :=
    ⟨rfl, by simp [workBlocks], fun n => Block.noConfusion⟩
  have hsize : Sized (midpointIntegrator.members .workspace) .workspace driftSizes := by
    unfold Sized
    decide
  have hnames : drift.rhs ∉ Item.names (preamble midpointIntegrator drift) ∧
      drift.jacobian ∉ Item.names (preamble midpointIntegrator drift) := by decide
  have hloaded : Loaded (preamble midpointIntegrator drift ++ [.function (function midpointIntegrator drift)])
      driftMemory := by
    intro name values hmem i hi
    have hitems : preamble midpointIntegrator drift =
        [.comment _, .constants "acado_rk_tableau_A" [0.5], .constants "acado_rk_tableau_b" [1.0],
          .constant "acado_rk_h" 0.1, .blank, .function _, .function _] := rfl
    rw [hitems] at hmem
    obtain ⟨rfl, rfl⟩ | ⟨rfl, rfl⟩ : (name = "acado_rk_tableau_A" ∧ values = [0.5]) ∨
        (name = "acado_rk_tableau_b" ∧ values = [1.0]) := by simpa using hmem
    · obtain rfl : i = 0 := Nat.lt_one_iff.1 hi
      rfl
    · obtain rfl : i = 0 := Nat.lt_one_iff.1 hi
      rfl
  have hrhs : Writes (driftCalls drift.rhs) drift.length drift.integratedLength
      (drift.model fun y _ => driftMatrix *ᵥ y + driftRate) := fun v w m _ _ => rfl
  have hjac : Writes (driftCalls drift.jacobian) drift.length (drift.integratedLength * drift.integratedLength)
      (drift.model fun _ _ p => driftMatrix p.divNat p.modNat) := fun v w m _ _ => rfl
  have hinterval : ∀ hs, drift.stepSize = .perInterval hs → 0 < hs.length := fun hs h => by cases h
  obtain ⟨-, m', y, hcall, hsteps, heta, -⟩ := integrates_affine (J := fun _ => driftMatrix) (c := fun _ => driftRate)
    rfl rfl rfl rfl (by decide) hsize hnames hrhs hjac hstate hloaded 0 hinterval rfl (det_drift _ _)
  obtain ⟨K, hK, rfl⟩ : ImplicitStep _ _ _ _ (start drift (statesAt drift ⟨.outside "eta", 0, 2⟩ driftMemory)) y := by
    cases hsteps with
    | succ hzero hstep =>
      cases hzero
      exact hstep
  let first : Fin midpointIntegrator.stages := ⟨0, by decide⟩
  have hone : ∀ z : Fin midpointIntegrator.stages → Fin drift.integratedLength → ℚ, ∑ t, z t = z first := fun z =>
    Fin.sum_univ_one z
  have hstage : K first = driftMatrix *ᵥ (start drift (statesAt drift ⟨.outside "eta", 0, 2⟩ driftMemory) +
      (Reading.ofFloat 0.1 : ℚ) • (Reading.ofFloat 0.5 : ℚ) • K first) + driftRate := by
    refine (hK first).trans ?_
    rw [hone]
    rfl
  rw [driftMatrix_mulVec] at hstage
  have hslope : K first ⟨1, by decide⟩ = 1 := (congrFun hstage ⟨1, by decide⟩).trans (by simp [driftRate])
  have hseed : start drift (statesAt drift ⟨.outside "eta", 0, 2⟩ driftMemory) ⟨1, by decide⟩ = 1 := Nat.cast_one
  have hvalue : K first ⟨0, by decide⟩ = 1 + Reading.ofFloat 0.1 * Reading.ofFloat 0.5 := by
    have hentry := congrFun hstage ⟨0, by decide⟩
    change K first ⟨0, by decide⟩ = start drift (statesAt drift ⟨.outside "eta", 0, 2⟩ driftMemory) ⟨1, by decide⟩ +
      Reading.ofFloat 0.1 * (Reading.ofFloat 0.5 * K first ⟨1, by decide⟩) + ((0 : ℕ) : ℚ) at hentry
    rw [hentry, hslope, hseed, mul_one, Nat.cast_zero, add_zero]
  rw [hone] at heta
  refine ⟨_, m', rfl, hcall, (heta ⟨0, by decide⟩).trans ?_, (heta ⟨1, by decide⟩).trans ?_⟩
  · rw [← hvalue]
    rfl
  · change start drift (statesAt drift ⟨.outside "eta", 0, 2⟩ driftMemory) ⟨1, by decide⟩ +
      Reading.ofFloat 0.1 * (Reading.ofFloat 1.0 * K first ⟨1, by decide⟩) = _
    rw [hseed, hslope, mul_one]

end ControlCodegen.Integrator
