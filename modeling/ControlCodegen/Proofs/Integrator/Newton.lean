import ControlCodegen.Proofs.Integrator.File
import ControlCodegen.Proofs.Integrator.Locality

/-!
# `Integrator.Newton`: implicit schemes

* `residualOf`, `newtonEntry` : the residual of the stage equations, and the matrix of the Newton method.
* `residuals_exact`, `assembleMatrix_exact` : memory after these parts of an iteration.
* `CalledIn` : the linear solver is called as it stands in the file.
* `Iterated` : so many iterations of the Newton method; the linear solver is called as the function calls it.
* `implicit_makes` : a step of the generated function is `newtonIterations` iterations.

The arithmetic may be any; sums are formed in the order of the program.
-/

namespace ControlCodegen.Integrator

open C C.IntExpr

set_option autoImplicit false

/-! ## The method -/

section Method

variable {R : Type} [Arithmetic R] {n : ℕ}

/-- The residual of the equation of a stage, where the model is evaluated with all stages. -/
def residualOf (x : R) (a : ℕ → ℕ → R) (f : (Fin n → R) → Fin n → R) (y : Fin n → R) (stages : ℕ) (K : ℕ → Fin n → R)
    (s : ℕ) (i : Fin n) : R :=
  Arithmetic.sub (f (fun i => weighted x (a s) (fun t => K t i) (y i) stages) i) (K s i)

/-- An entry of the matrix of the Newton method. -/
def newtonEntry (x : R) (a J : ℕ → ℕ → R) (s t i j : ℕ) : R :=
  Arithmetic.sub (Arithmetic.ofNat (if s = t ∧ i = j then 1 else 0)) (Arithmetic.mul (Arithmetic.mul x (a s t)) (J i j))

/-- Stages that are zero. -/
def noStages (R : Type) [Arithmetic R] (n : ℕ) (_ : ℕ) (_ : Fin n) : R := Arithmetic.ofNat 0

/-- An entry of a square matrix by rows. -/
def entryOf (J : Fin (n * n) → R) (i j : ℕ) : R := if h : i * n + j < n * n then J ⟨i * n + j, h⟩ else Arithmetic.ofNat 0

end Method

/-! ## Memory -/

section Arrays

variable {R : Type}

/-- The linear system of a step. -/
def newton (g : Integrator) (b : Binding) : LinearSystem := ⟨g.moduleName.text, g.unknowns b⟩

abbrev matrixView (g : Integrator) (b : Binding) : View := ⟨matrixBlock, 0, g.unknowns b * g.unknowns b⟩

abbrev residualView (g : Integrator) (b : Binding) : View := ⟨residualBlock, 0, g.unknowns b⟩

abbrev permutationView (g : Integrator) (b : Binding) : View := ⟨permutationBlock, 0, g.unknowns b⟩

/-- What the linear solver is called with. -/
def newtonArguments (g : Integrator) (b : Binding) : List Value :=
  [.array (matrixView g b), .array (residualView g b), .array (permutationView g b)]

/-- The members of the workspace for the Newton method. -/
structure NewtonSizes (g : Integrator) (b : Binding) (size : Struct → String → ℕ) : Prop where
  matrix : size .workspace "rk_A" = g.unknowns b * g.unknowns b
  residual : size .workspace "rk_b" = g.unknowns b
  permutation : size .workspace "rk_perm" = g.unknowns b
  jacobian : size .workspace "rk_jac" = b.integratedLength * b.integratedLength

variable {g : Integrator} {b : Binding} {size : Struct → String → ℕ} {arrays : String → Option View}

theorem newton_arguments (g : Integrator) (b : Binding) :
    (newton g b).Arguments (matrixView g b) (residualView g b) (permutationView g b) :=
  ⟨⟨rfl, rfl, View.apart_of_block_ne (by decide : matrixBlock ≠ residualBlock)⟩, rfl, Block.noConfusion, Block.noConfusion⟩

namespace NewtonSizes

variable (h : NewtonSizes g b size)
include h

theorem view_matrix : viewOf size arrays newtonMatrix = some (matrixView g b) := by
  rw [matrixView, ← h.matrix]
  rfl

theorem view_residual : viewOf size arrays Integrator.residual = some (residualView g b) := by
  rw [residualView, ← h.residual]
  rfl

theorem view_jacobian :
    viewOf size arrays Integrator.jacobian = some ⟨jacobianBlock, 0, b.integratedLength * b.integratedLength⟩ := by
  rw [← h.jacobian]
  rfl

theorem eval_arguments (τ : State R) :
    [Arg.array newtonMatrix, .array Integrator.residual, .array Integrator.permutation].mapM (Arg.eval size τ) =
      .ok (newtonArguments g b) := by
  have hperm : viewOf size τ.arrays Integrator.permutation = some (permutationView g b) := by
    rw [permutationView, ← h.permutation]
    rfl
  rw [List.mapM_cons, Arg.eval, h.view_matrix, List.mapM_cons, Arg.eval, h.view_residual, List.mapM_cons, Arg.eval, hperm]
  rfl

end NewtonSizes

/-- The index of an entry of the matrix of the Newton method. -/
def matrixIndex (g : Integrator) (b : Binding) (s t i j : ℕ) : ℕ :=
  (s * b.integratedLength + i) * g.unknowns b + t * b.integratedLength + j

/-- The matrix of the Newton method stands in memory. -/
def HasMatrix (g : Integrator) (b : Binding) (entry : ℕ → ℕ → ℕ → ℕ → R) (m : Memory R) : Prop :=
  ∀ s < g.stages, ∀ t < g.stages, ∀ i < b.integratedLength, ∀ j < b.integratedLength,
    m.reals matrixBlock (matrixIndex g b s t i j) = entry s t i j

/-- The Jacobian stands in memory. -/
def HasJacobian (b : Binding) (J : ℕ → ℕ → R) (m : Memory R) : Prop :=
  ∀ i < b.integratedLength, ∀ j < b.integratedLength, m.reals jacobianBlock (i * b.integratedLength + j) = J i j

theorem matrixIndex_lt {s t i j : ℕ} (hs : s < g.stages) (ht : t < g.stages) (hi : i < b.integratedLength)
    (hj : j < b.integratedLength) : matrixIndex g b s t i j < g.unknowns b * g.unknowns b := by
  have hrow : s * b.integratedLength + i < g.unknowns b := row_index_lt hs hi
  have hcol : t * b.integratedLength + j < g.unknowns b := row_index_lt ht hj
  have hlt := row_index_lt hrow hcol
  rw [← Nat.add_assoc] at hlt
  exact hlt

/-- The value of an entry, from its index. -/
def entryAt (g : Integrator) (b : Binding) (entry : ℕ → ℕ → ℕ → ℕ → R) (p : ℕ) : R :=
  entry (p / g.unknowns b / b.integratedLength) (p % g.unknowns b / b.integratedLength)
    (p / g.unknowns b % b.integratedLength) (p % g.unknowns b % b.integratedLength)

theorem div_mod_row {q r c : ℕ} (h : r < c) : (q * c + r) / c = q ∧ (q * c + r) % c = r := by
  refine (Nat.div_mod_unique (Nat.zero_lt_of_lt h)).2 ⟨?_, h⟩
  rw [Nat.mul_comm, Nat.add_comm]

theorem entryAt_matrixIndex {entry : ℕ → ℕ → ℕ → ℕ → R} {s t i j : ℕ} (ht : t < g.stages) (hi : i < b.integratedLength)
    (hj : j < b.integratedLength) : entryAt g b entry (matrixIndex g b s t i j) = entry s t i j := by
  have hcol : t * b.integratedLength + j < g.unknowns b := row_index_lt ht hj
  obtain ⟨hdiv, hmod⟩ := div_mod_row (q := s * b.integratedLength + i) hcol
  obtain ⟨hs, hi'⟩ := div_mod_row (q := s) hi
  obtain ⟨ht', hj'⟩ := div_mod_row (q := t) hj
  rw [entryAt, matrixIndex, Nat.add_assoc, hdiv, hmod, hs, hi', ht', hj']

end Arrays

/-! ## Parts of an iteration -/

section Parts

variable {R : Type} [Arithmetic R] {E : Fault → Prop} {ctx : Context R} {D : Answer R → Memory R → Prop} {g : Integrator}
  {b : Binding} {state : View} {arrays : String → Option View} {reals : String → Option R} {before m m' : Memory R}
  {τ : State R} {ρ : Known} {x : R} {y : Fin b.integratedLength → R} {K : ℕ → Fin b.integratedLength → R}
  {F : (Fin b.integratedLength → R) → (Fin b.inputs → R) → Fin b.integratedLength → R}

omit [Arithmetic R] in
/-- Changes in other arrays of the integrator are no progress. -/
theorem Progress.beside {blocks : List Block} (h : Progress g b state before y m) (hstate : state.block ∉ workBlocks g b)
    (hm : Memory.Beside blocks m m') (hblocks : ∀ B ∈ blocks, B ∈ workBlocks g b) (hpoint : pointBlock ∉ blocks) :
    Progress g b state before y m' :=
  h.of_outside hstate (fun _ _ => by rw [hm.reals _ hpoint]) fun B hB => hm.reals B fun hB' => hB (hblocks B hB')

variable (hA : Arrays g b ctx.size state arrays) (hN : NewtonSizes g b ctx.size)
  (h : Holding arrays reals m τ) (hρ : ρ.Of τ.ints) (hx : reals "h" = some x)

include hA hN h hρ hx

/-- The residual of the equation of one stage. -/
theorem residualRow_exact (hrhs : Writes (ctx.call b.rhs) b.length b.integratedLength (b.model F))
    (hp : Progress g b state before y m) (hK : HasRows b stageBlock g.stages K m) {k : ℕ} (hk : k < g.stages)
    (hs : (var "s").Counts ρ k) {r : ℕ → Fin b.integratedLength → R}
    (hr : r = residualOf x (storedCoefficient g before) (fun v => F v (inputsAt b state before)) y g.stages K)
    (hrows : HasRows b residualBlock k r m) :
    Runs E ctx
      (.block [
        stagePoint g b g.stages,
        evaluateAt b residual,
        .each "i" b.integratedLength .inline
          (.assign (residual.entry (var "s" * .lit b.integratedLength + var "i")) .sub
            (.elem stage (var "s" * .lit b.integratedLength + var "i")))])
      τ (fun τ' => (ρ.forget ["i", "t"]).Of τ'.ints ∧ ∃ m', Holding arrays reals m' τ' ∧ Progress g b state before y m' ∧
        Memory.Beside [pointBlock, residualBlock] m m' ∧ HasRows b residualBlock (k + 1) r m') D := by
  have hmem : residualBlock ∈ workBlocks g b := by simp [workBlocks]
  have hend := row_end_le b.integratedLength hk
  have hs₁ := (Known.Keeps.forget ρ ["i", "t"]).counts (by simp) hs
  refine Runs.block_cons (stagePoint_exact hA h hρ hx (fun _ _ => counts_lit g.stages) (Nat.le_refl _) hs hk)
    fun τ₁ h₁ => ?_
  obtain ⟨hρ₁, h₁⟩ := h₁
  let m₁ := m.fill pointBlock 0 b.integratedLength (stagePointAt g b state m x k g.stages)
  have hp₁ : Progress g b state before y m₁ := hp.fill_point hA.outside
  have hbeside₁ : Memory.Beside [pointBlock, residualBlock] m m₁ := (Memory.Beside.refl _ m).fill (by simp) _ _ _
  have hrows₁ : HasRows b residualBlock k r m₁ := hrows.congr (Memory.reals_fill_of_ne (by decide))
  have hK₁ : HasRows b stageBlock g.stages K m₁ := hK.congr (Memory.reals_fill_of_ne (by decide))
  have hvalue : ∀ i : Fin b.integratedLength, b.model F m₁ ⟨pointBlock, 0, b.length⟩ i =
      F (fun i => weighted x (storedCoefficient g before k) (fun t => K t i) (y i) g.stages) (inputsAt b state before) i :=
    fun i => hp₁.model_point (fun i => (Memory.reals_fill_zero i.2).trans (hK.point hp hA.outside_static i)) i
  have hevaluate : Runs E ctx (evaluateAt b residual) τ₁ (fun τ' => (ρ.forget ["i", "t"]).Of τ'.ints ∧
      ∃ m₂, Holding arrays reals m₂ τ' ∧ Progress g b state before y m₂ ∧
        Memory.Beside [pointBlock, residualBlock] m m₂ ∧ m₂.reals = (m₁.fill residualBlock (k * b.integratedLength)
          b.integratedLength (b.model F m₁ ⟨pointBlock, 0, b.length⟩)).reals) D := by
    refine (evaluateAt_exact hA h₁ hρ₁ hrhs hN.view_residual (Nat.le_refl _) hs₁ hk).mono (fun τ' h' => ?_) fun _ _ h => h
    have hfilled := hbeside₁.fill (b := residualBlock) (by simp) (k * b.integratedLength) b.integratedLength
      (b.model F m₁ ⟨pointBlock, 0, b.length⟩)
    have hτ' := h'.2
    rw [residualView, Nat.zero_add] at hτ'
    exact ⟨h'.1, _, hτ', (hp₁.fill hA.outside hmem (by decide)).tick, ⟨hfilled.reals, hfilled.ints⟩, rfl⟩
  refine Runs.block_cons hevaluate fun τ₂ h₂ => ?_
  obtain ⟨hρ₂, m₂, h₂, hp₂, hbeside₂, hreals⟩ := h₂
  have hcounts : ∀ j ρ', j < b.integratedLength → (ρ.forget ["i", "t"]).Keeps ρ' ["i"] → (var "i").Counts ρ' j →
      (var "s" * .lit b.integratedLength + var "i").Counts ρ' (k * b.integratedLength + j) := fun j ρ' _ hkeep hj =>
    ((hkeep.counts (by simp) hs₁).mul (counts_lit _)).add hj
  refine (Runs.each_update (r := fun j => stageAt b m k j) h₂ hρ₂ hN.view_residual hend hcounts
    fun j ρ' τ' f hj hkeep hcount hρ' hτ' => ?_).mono (fun τ₃ h₃ => ?_) fun _ _ h => h
  · have hentry := hτ'.eval_elem hρ' hA.view_stage (hcounts j ρ' hj hkeep hcount) (row_index_lt hk hj)
    have hne : stageBlock ≠ residualBlock := by decide
    have hother : stageBlock ∉ [pointBlock, residualBlock] := by decide
    rw [Memory.reals_fill_of_ne hne, hbeside₂.reals _ hother, Nat.zero_add] at hentry
    exact hentry
  · obtain ⟨hρ₃, h₃⟩ := h₃
    rw [residualView, Nat.zero_add] at h₃
    have hrows₂ : HasRows b residualBlock k r m₂ := fun s hs i => by
      rw [hreals, Memory.reals_fill_of_outside (.inl (row_index_lt hs i.2))]
      exact hrows₁ s hs i
    refine ⟨hρ₃.mono ((Known.Keeps.forget ρ _).trans (.forget _ ["i"]) (by simp)), _, h₃,
      hp₂.fill hA.outside hmem (by decide), hbeside₂.fill (by simp) _ _ _, hrows₂.fill fun i => ?_⟩
    rw [hr, hreals, Memory.reals_fill i.2, hvalue i, residualOf, stageAt, hK k hk i]
    rfl

/-- The residuals of the equations of all stages. -/
theorem residuals_exact (hrhs : Writes (ctx.call b.rhs) b.length b.integratedLength (b.model F))
    (hp : Progress g b state before y m) (hK : HasRows b stageBlock g.stages K m) :
    Runs E ctx (residuals g b) τ (fun τ' => (ρ.forget ["s", "i", "t"]).Of τ'.ints ∧ ∃ m', Holding arrays reals m' τ' ∧
      Progress g b state before y m' ∧ Memory.Beside [pointBlock, residualBlock] m m' ∧
      HasRows b residualBlock g.stages (residualOf x (storedCoefficient g before)
        (fun v => F v (inputsAt b state before)) y g.stages K) m') D := by
  let r := residualOf x (storedCoefficient g before) (fun v => F v (inputsAt b state before)) y g.stages K
  refine Runs.each_known (fun k τ' => ∃ m', Holding arrays reals m' τ' ∧ Progress g b state before y m' ∧
    Memory.Beside [pointBlock, residualBlock] m m' ∧ HasRows b residualBlock k r m') ?_ hρ (by simp)
    ⟨m, h, hp, .refl _ m, fun s hs => absurd hs (Nat.not_lt_zero s)⟩ fun k ρ' τ' hk hr => ?_
  · rintro k τ' v ⟨m', hm', hrest⟩
    exact ⟨m', hm'.setInt "s" v, hrest⟩
  · obtain ⟨m', hm', hp', hbeside, hrows⟩ := hr.property
    refine (residualRow_exact hA hN hm' hr.known hx hrhs hp' (hK.congr (hbeside.reals _ (by decide))) hk hr.count rfl
      hrows).mono (fun τ'' h'' => ⟨h''.1, ?_⟩) fun _ _ h => h
    obtain ⟨-, m'', hm'', hp'', hbeside', hrows'⟩ := h''
    exact ⟨m'', hm'', hp'', hbeside.trans hbeside', hrows'⟩

/-- The matrix of the Newton method. -/
theorem assembleMatrix_exact {J : ℕ → ℕ → R} (hJ : HasJacobian b J m) :
    Runs E ctx (assembleMatrix g b) τ (fun τ' => (ρ.forget ["s", "t", "i", "j"]).Of τ'.ints ∧
      ∃ m', Holding arrays reals m' τ' ∧ Memory.Beside [matrixBlock] m m' ∧ HasMatrix g b (newtonEntry x (storedCoefficient g m) J) m') D := by
  let value := entryAt g b (newtonEntry x (storedCoefficient g m) J)
  let set (s t i j : ℕ) (m' : Memory R) : Prop :=
    m'.reals matrixBlock (matrixIndex g b s t i j) = value (matrixIndex g b s t i j)
  have hcoefficient : viewOf ctx.size arrays g.stageMatrix =
      some ⟨.static g.stageMatrixName, 0, g.stages * g.stages⟩ := hA.stageMatrix
  have hloops : Runs E ctx (assembleMatrix g b) τ (fun τ' => (ρ.forget ["s", "t", "i", "j"]).Of τ'.ints ∧
      ∃ m', Holding arrays reals m' τ' ∧ Memory.Grows matrixBlock value m m' ∧
        ∀ s < g.stages, ∀ t < g.stages, ∀ i < b.integratedLength, ∀ j < b.integratedLength, set s t i j m') D := by
    refine Runs.each_grows h hρ (by simp) _
      (fun s _ _ hg hset t ht i hi j hj => hg.kept (hset t ht i hi j hj)) fun s ρs τs ms hs hks hcs hρs hgs hms => ?_
    refine Runs.each_grows hms hρs (by simp) _
      (fun t _ _ hg hset i hi j hj => hg.kept (hset i hi j hj)) fun t ρt τt mt ht hkt hct hρt hgt hmt => ?_
    refine Runs.each_grows hmt hρt (by simp) _
      (fun i _ _ hg hset j hj => hg.kept (hset j hj)) fun i ρi τi mi hi hki hci hρi hgi hmi => ?_
    refine Runs.each_grows hmi hρi (by simp) _ (fun j _ _ hg hset => hg.kept hset) fun j ρj τj mj hj hkj hcj hρj hgj hmj => ?_
    have hij := hkj.counts (by simp) hci
    have htj := hkj.counts (by simp) (hki.counts (by simp) hct)
    have hsj := hkj.counts (by simp) (hki.counts (by simp) (hkt.counts (by simp) hcs))
    have hgrown : Memory.Grows matrixBlock value m mj := ((hgs.trans hgt).trans hgi).trans hgj
    have hone : (RealExpr.choice (.both (.eq (var "s") (var "t")) (.eq (var "i") (var "j"))) (.whole 1) (.whole 0)).eval
        ctx.size τj = .ok (Arithmetic.ofNat (if s = t ∧ i = j then 1 else 0)) := by
      rw [RealExpr.eval_choice (Cond.eval_both (Cond.eval_eq (hsj.eval hρj) (htj.eval hρj))
        (Cond.eval_eq (hij.eval hρj) (hcj.eval hρj))) rfl rfl, ← apply_ite Arithmetic.ofNat]
      simp only [Int.natCast_inj, Bool.and_eq_true, decide_eq_true_eq]
    have hstored := hmj.eval_elem hρj hcoefficient ((hsj.mul (counts_lit _)).add htj) (row_index_lt hs ht)
    have hjacobian := hmj.eval_elem hρj hN.view_jacobian ((hij.mul (counts_lit _)).add hcj) (row_index_lt hi hj)
    rw [hgrown.reals _ (by simp), Nat.zero_add] at hstored hjacobian
    rw [hJ i hi j hj] at hjacobian
    have hentry := RealExpr.eval_sub hone (RealExpr.eval_mul (RealExpr.eval_mul
      (RealExpr.eval_var (by rw [hmj.reals]; exact hx)) hstored) hjacobian)
    have hindex := (((hsj.mul (counts_lit b.integratedLength)).add hij).mul (counts_lit (g.unknowns b))).add
      (htj.mul (counts_lit b.integratedLength)) |>.add hcj
    refine (Runs.assignHolding hmj hρj hentry hN.view_matrix hindex (matrixIndex_lt hs ht hi hj)).mono (fun τ' h' => ?_)
      fun _ _ h => h
    have hvalue : value (matrixIndex g b s t i j) = newtonEntry x (storedCoefficient g m) J s t i j :=
      entryAt_matrixIndex ht hi hj
    obtain ⟨hρ', h'⟩ := h'
    rw [Nat.zero_add] at h'
    change Holding arrays reals (mj.setReal matrixBlock (matrixIndex g b s t i j)
      (newtonEntry x (storedCoefficient g m) J s t i j)) τ' at h'
    rw [← hvalue] at h'
    exact ⟨hρ'.forget _, _, h', .setReal mj _, Memory.reals_setReal_self⟩
  refine hloops.mono (fun τ' h' => ⟨h'.1, ?_⟩) fun _ _ h => h
  obtain ⟨-, m', hm', hg, hset⟩ := h'
  exact ⟨m', hm', hg.toBeside, fun s hs t ht i hi j hj => (hset s hs t ht i hi j hj).trans (entryAt_matrixIndex ht hi hj)⟩

end Parts

/-! ## The linear solver -/

section Calls

variable {R : Type} [Arithmetic R]

/-- The functions of the linear solver are called as they stand in the file. -/
structure LinearSystem.CalledIn (system : LinearSystem) (ctx : Context R) : Prop where
  solve : ∃ ctx' file, ctx.call system.solveName = system.solve.invoke ctx' file
  solveAgain : ∃ ctx' file, ctx.call system.solveAgainName = system.solveAgain.invoke ctx' file

variable {ctx : Context R} {g : Integrator} {b : Binding} (h : (newton g b).CalledIn ctx) (m : Memory R)
include h

/-- A call that factorizes leaves rows of the system in the permutation. -/
theorem LinearSystem.CalledIn.exists_solve :
    ∃ k m', ctx.call (newton g b).solveName (newtonArguments g b) m = .ok (.int k, m') ∧
      IsRows (g.unknowns b) (permutationView g b) m'.ints ∧
      ∀ B, B ≠ matrixBlock → B ≠ residualBlock → m'.reals B = m.reals B := by
  obtain ⟨ctx', file, hcall⟩ := h.solve
  have hmeets : Meets (fun _ => False) ((newton g b).solve.invoke ctx' file (newtonArguments g b) m) _ :=
    (LinearSystem.meets_solve rfl rfl rfl).and LinearSystem.meets_solve_kept
  obtain ⟨⟨answer, m'⟩, hresult, ⟨k, rfl, hrows⟩, hkept⟩ := hmeets.exists_ok
  refine ⟨k, m', by rw [hcall, hresult], hrows, fun B hmatrix hright => hkept.reals_block fun i hi => ?_⟩
  rcases hi with ⟨rfl, -⟩ | ⟨rfl, -⟩
  · exact hmatrix rfl
  · exact hright rfl

/-- A call that solves again leaves the factors and the permutation as they are. -/
theorem LinearSystem.CalledIn.exists_solveAgain (hrows : IsRows (g.unknowns b) (permutationView g b) m.ints) :
    ∃ answer m', ctx.call (newton g b).solveAgainName (newtonArguments g b) m = .ok (answer, m') ∧ m'.ints = m.ints ∧
      ∀ B, B ≠ residualBlock → B ≠ (newton g b).ownArray.block → m'.reals B = m.reals B := by
  obtain ⟨ctx', file, hcall⟩ := h.solveAgain
  have hmeets : Meets (fun _ => False) ((newton g b).solveAgain.invoke ctx' file (newtonArguments g b) m) _ :=
    (LinearSystem.meets_solveAgain rfl rfl rfl hrows).and LinearSystem.meets_solveAgain_kept
  obtain ⟨⟨answer, m'⟩, hresult, -, hkept⟩ := hmeets.exists_ok
  refine ⟨answer, m', by rw [hcall, hresult], funext₂ fun B i => hkept.ints B i not_false,
    fun B hright hown => hkept.reals_block fun i hi => ?_⟩
  rcases hi with ⟨rfl, -⟩ | ⟨rfl, -⟩
  · exact hright rfl
  · exact hown rfl

end Calls

/-! ## Iterations -/

section Iterations

variable {R : Type} [Arithmetic R]

/-- Stages to which the Newton step in memory has been added. -/
def corrected (b : Binding) (K : ℕ → Fin b.integratedLength → R) (m : Memory R) (s : ℕ) (i : Fin b.integratedLength) : R :=
  Arithmetic.add (K s i) (m.reals residualBlock (s * b.integratedLength + i))

/-- So many iterations of a step: the status, the stages, and memory after the last call of the linear solver. The first
iteration starts from zero and factorizes; the later ones solve again with the factors that are in memory still. -/
inductive Iterated (ctx : Context R) (g : Integrator) (b : Binding) (x : R) (a J : ℕ → ℕ → R)
    (f : (Fin b.integratedLength → R) → Fin b.integratedLength → R) (y : Fin b.integratedLength → R) :
    ℕ → ℤ → (ℕ → Fin b.integratedLength → R) → Memory R → Prop
  | start (e : ℤ) (m : Memory R) : Iterated ctx g b x a J f y 0 e (noStages R _) m
  | first {e : ℤ} {m m' : Memory R} (hmatrix : HasMatrix g b (newtonEntry x a J) m)
      (hresidual : HasRows b residualBlock g.stages (residualOf x a f y g.stages (noStages R _)) m)
      (hcall : ctx.call (newton g b).solveName (newtonArguments g b) m = .ok (.int e, m')) :
      Iterated ctx g b x a J f y 1 e (corrected b (noStages R _) m') m'
  | again {k : ℕ} {e : ℤ} {K : ℕ → Fin b.integratedLength → R} {m m' m'' : Memory R} {answer : Answer R}
      (h : Iterated ctx g b x a J f y (k + 1) e K m)
      (hsame : LinearSystem.SameFactors (matrixView g b) (permutationView g b) m m')
      (hresidual : HasRows b residualBlock g.stages (residualOf x a f y g.stages K) m')
      (hcall : ctx.call (newton g b).solveAgainName (newtonArguments g b) m' = .ok (answer, m'')) :
      Iterated ctx g b x a J f y (k + 2) e (corrected b K m'') m''

/-- A step with the stages of the last iteration. The status is that of the factorization. -/
def NewtonStep (ctx : Context R) (g : Integrator) (b : Binding) (x : R) (a : ℕ → ℕ → R) (w : ℕ → R)
    (J : (Fin b.integratedLength → R) → ℕ → ℕ → R) (f : (Fin b.integratedLength → R) → Fin b.integratedLength → R)
    (c c' : ℤ × (Fin b.integratedLength → R)) : Prop :=
  ∃ K m, Iterated ctx g b x a (J c.2) f c.2 newtonIterations c'.1 K m ∧
    c'.2 = fun i => weighted x w (fun s => K s i) (c.2 i) g.stages

/-- Memory between two iterations: the stages, and the factors of the last call where there has been one. -/
structure Iterating (ctx : Context R) (g : Integrator) (b : Binding) (state : View) (before : Memory R) (x : R)
    (a J : ℕ → ℕ → R) (f : (Fin b.integratedLength → R) → Fin b.integratedLength → R) (y : Fin b.integratedLength → R)
    (k : ℕ) (e : ℤ) (m : Memory R) : Prop where
  iterated : ∃ K m', Iterated ctx g b x a J f y k e K m' ∧ HasRows b stageBlock g.stages K m ∧
    LinearSystem.SameFactors (matrixView g b) (permutationView g b) m' m
  progress : Progress g b state before y m
  jacobian : HasJacobian b J m
  rows : 0 < k → IsRows (g.unknowns b) (permutationView g b) m.ints

variable {ctx : Context R} {D : Answer R → Memory R → Prop} {g : Integrator} {b : Binding} {state : View}
  {arrays : String → Option View} {reals : String → Option R} {before m m' : Memory R} {τ : State R} {ρ : Known} {x : R}
  {y : Fin b.integratedLength → R} {K : ℕ → Fin b.integratedLength → R} {J : ℕ → ℕ → R}
  {F : (Fin b.integratedLength → R) → (Fin b.inputs → R) → Fin b.integratedLength → R}
  {G : (Fin b.integratedLength → R) → (Fin b.inputs → R) → Fin (b.integratedLength * b.integratedLength) → R}
  {f : (Fin b.integratedLength → R) → Fin b.integratedLength → R} {k : ℕ} {e : ℤ}

omit [Arithmetic R] in
theorem HasJacobian.congr (h : HasJacobian b J m) (hm : m'.reals jacobianBlock = m.reals jacobianBlock) :
    HasJacobian b J m' := by
  intro i hi j hj
  rw [hm]
  exact h i hi j hj

omit [Arithmetic R] in
/-- The residuals leave the factors alone. -/
theorem same_of_beside {blocks : List Block} (h : Memory.Beside blocks m m') (hmatrix : matrixBlock ∉ blocks) :
    LinearSystem.SameFactors (matrixView g b) (permutationView g b) m m' := by
  refine ⟨fun i _ => ?_, fun i _ => ?_⟩
  · rw [h.reals _ hmatrix]
  · rw [h.ints]

variable (hA : Arrays g b ctx.size state arrays) (h : Holding arrays reals m τ) (hρ : ρ.Of τ.ints)
include hA h hρ

/-- The iterations start with stages that are zero. -/
theorem clearStages_exact (hp : Progress g b state before y m) (hJ : HasJacobian b J m) (e : ℤ) :
    Runs (fun _ => False) ctx (.each "i" (g.unknowns b) .inline (.assign (stage.entry "i") .set (.whole 0))) τ
      (fun τ' => (ρ.forget ["i"]).Of τ'.ints ∧ ∃ m', Holding arrays reals m' τ' ∧
        Iterating ctx g b state before x (storedCoefficient g before) J f y 0 e m') D := by
  refine (Runs.each_update_first (r := fun _ => Arithmetic.ofNat 0) h hρ hA.view_stage (Nat.le_refl _)
    fun j ρ' τ' f _ _ _ _ => rfl).mono (fun τ' h' => ⟨h'.1, _, h'.2, ?_⟩) fun _ _ h => h
  have hbeside := (Memory.Beside.refl [stageBlock] m).fill (List.mem_singleton_self _) 0 (g.unknowns b)
    fun _ => Arithmetic.ofNat 0
  exact ⟨⟨_, _, .start e _, fun s hs i => Memory.reals_fill_zero (row_index_lt hs i.2), LinearSystem.SameFactors.refl _⟩,
    hp.beside hA.outside hbeside (by simp [workBlocks]) (by decide), hJ.congr (hbeside.reals _ (by decide)),
    fun h => absurd h (Nat.lt_irrefl 0)⟩

variable (hN : NewtonSizes g b ctx.size)
include hN

/-- The Jacobian is evaluated at the state. -/
theorem callJacobian_exact
    (hjac : Writes (ctx.call b.jacobian) b.length (b.integratedLength * b.integratedLength) (b.model G))
    (hp : Progress g b state before y m) (hpoint : ∀ i : Fin b.integratedLength, m.reals pointBlock i = y i) :
    Runs (fun _ => False) ctx (.call ⟨b.jacobian, [.array point, .array jacobian]⟩) τ (fun τ' => ρ.Of τ'.ints ∧
      ∃ m', Holding arrays reals m' τ' ∧ Progress g b state before y m' ∧
        HasJacobian b (entryOf (G y (inputsAt b state before))) m') D := by
  have hargs : [Arg.array point, .array jacobian].mapM (Arg.eval ctx.size τ) =
      .ok [.array ⟨pointBlock, 0, b.length⟩, .array ⟨jacobianBlock, 0, b.integratedLength * b.integratedLength⟩] := by
    rw [List.mapM_cons, Arg.eval, h.arrays, hA.view_point, List.mapM_cons, Arg.eval, h.arrays, hN.view_jacobian]
    rfl
  have hfilled : Progress g b state before y (m.fill jacobianBlock 0 (b.integratedLength * b.integratedLength)
      (b.model G m ⟨pointBlock, 0, b.length⟩)) := hp.fill hA.outside (by simp [workBlocks]) (by decide)
  refine (Runs.callHolding h hρ hargs (hjac _ _ m (Nat.le_refl _) (Nat.le_refl _))).mono
    (fun τ' h' => ⟨h'.1, _, h'.2, hfilled.tick, fun i hi j hj => ?_⟩) fun _ _ h => h
  have hlt := row_index_lt hi hj
  refine (Memory.reals_fill_zero hlt).trans ?_
  rw [entryOf, dif_pos hlt]
  exact hp.model_point hpoint ⟨_, hlt⟩

variable (hsolver : (newton g b).CalledIn ctx) (hx : reals "h" = some x)
include hsolver hx

/-- The linear system of an iteration is solved. -/
theorem solveStep_exact {mf : Memory R} (hiterated : Iterated ctx g b x (storedCoefficient g before) J f y k e K mf)
    (hsame : LinearSystem.SameFactors (matrixView g b) (permutationView g b) mf m)
    (hresidual : HasRows b residualBlock g.stages (residualOf x (storedCoefficient g before) f y g.stages K) m)
    (hp : Progress g b state before y m) (hK : HasRows b stageBlock g.stages K m) (hJ : HasJacobian b J m)
    (hrows : 0 < k → IsRows (g.unknowns b) (permutationView g b) m.ints) (hstatus : τ.ints "error" = some e)
    (hit : (var "it").Counts ρ k) :
    Runs (fun _ => False) ctx
      (.branch (.cond (.eq "it" 0))
        (.seq (assembleMatrix g b) (.assignResult "error" ⟨(newton g b).solveName,
          [.array newtonMatrix, .array residual, .array permutation]⟩))
        (.call ⟨(newton g b).solveAgainName, [.array newtonMatrix, .array residual, .array permutation]⟩))
      τ (fun τ' => (ρ.forget ["s", "t", "i", "j", "error"]).Of τ'.ints ∧ ∃ e' m', τ'.ints "error" = some e' ∧
        Holding arrays reals m' τ' ∧ Iterated ctx g b x (storedCoefficient g before) J f y (k + 1) e' (corrected b K m') m' ∧
        HasRows b stageBlock g.stages K m' ∧ Progress g b state before y m' ∧ HasJacobian b J m' ∧
        IsRows (g.unknowns b) (permutationView g b) m'.ints) D := by
  have htest : (Test.cond (.eq "it" 0)).eval ctx.size τ = .ok (decide ((k : ℤ) = (0 : ℕ))) :=
    Cond.eval_eq (hit.eval hρ) rfl
  have hpoint : pointBlock ≠ matrixBlock ∧ pointBlock ≠ residualBlock := by decide
  have hstage : stageBlock ≠ matrixBlock ∧ stageBlock ≠ residualBlock := by decide
  have hjacobian : jacobianBlock ≠ matrixBlock ∧ jacobianBlock ≠ residualBlock := by decide
  refine Runs.branch htest (fun hzero => ?_) fun hpos => ?_
  · obtain rfl : k = 0 := Int.ofNat_inj.1 (of_decide_eq_true hzero)
    obtain rfl : K = noStages R _ := by
      cases hiterated
      rfl
    refine Runs.seq (assembleMatrix_exact hA hN h hρ hx hJ) fun τ₁ h₁ => ?_
    obtain ⟨hρ₁, m₁, h₁, hbeside, hmatrix⟩ := h₁
    rw [hp.storedCoefficient hA.outside_static] at hmatrix
    obtain ⟨e', m', hcall, hrows', hkept⟩ := hsolver.exists_solve m₁
    have hp₁ : Progress g b state before y m₁ := hp.beside hA.outside hbeside (by simp [workBlocks]) (by decide)
    have hresidual₁ := hresidual.congr (hbeside.reals residualBlock (by decide))
    refine Runs.assignResult (P := fun k m => k = e' ∧ m = m') (hN.eval_arguments τ₁) ?_ ?_
    · rw [h₁.memory, hcall]
      exact ⟨e', rfl, rfl, rfl⟩
    · rintro _ _ ⟨rfl, rfl⟩
      refine ⟨(hρ₁.setInt "error" _).mono ?_, _, _, State.ints_setInt_self _ _ _, (h₁.withMemory _).setInt _ _,
        .first hmatrix hresidual₁ hcall, ?_, ?_, ?_, hrows'⟩
      · exact ((Known.Keeps.forget ρ ["s", "t", "i", "j"]).mono_names (by simp)).set (by simp) _
      · exact (hK.congr (hbeside.reals _ (by decide))).congr (hkept _ hstage.1 hstage.2)
      · refine hp₁.of_outside hA.outside (fun _ _ => by rw [hkept _ hpoint.1 hpoint.2]) fun B hB => hkept B ?_ ?_
        · rintro rfl
          exact hB (by simp [workBlocks])
        · rintro rfl
          exact hB (by simp [workBlocks])
      · exact (hJ.congr (hbeside.reals _ (by decide))).congr (hkept _ hjacobian.1 hjacobian.2)
  · have hk : 0 < k := Nat.pos_of_ne_zero fun hzero => of_decide_eq_false hpos (congrArg Nat.cast hzero)
    obtain ⟨k, rfl⟩ := Nat.exists_eq_succ_of_ne_zero (Nat.ne_of_gt hk)
    obtain ⟨answer, m', hcall, hints, hkept⟩ := hsolver.exists_solveAgain m (hrows hk)
    refine Runs.call (P := fun r => r = (answer, m')) (hN.eval_arguments τ) ?_ ?_
    · rw [h.memory, hcall]
      exact rfl
    · rintro _ _ ⟨⟩
      refine ⟨hρ.forget _, e, m', hstatus, h.withMemory _, .again hiterated hsame hresidual hcall, ?_, ?_, ?_, ?_⟩
      · exact hK.congr (hkept _ hstage.2 Block.noConfusion)
      · refine hp.of_outside hA.outside (fun _ _ => by rw [hkept _ hpoint.2 Block.noConfusion]) fun B hB => hkept B ?_ ?_
        · rintro rfl
          exact hB (by simp [workBlocks])
        · rintro rfl
          exact hB (by simp [workBlocks, LinearSystem.ownArray, newton])
      · exact hJ.congr (hkept _ hjacobian.2 Block.noConfusion)
      · rw [hints]
        exact hrows hk

/-- One iteration of a step. -/
theorem iteration_exact (hrhs : Writes (ctx.call b.rhs) b.length b.integratedLength (b.model F))
    (hm : Iterating ctx g b state before x (storedCoefficient g before) J (fun v => F v (inputsAt b state before)) y k e m)
    (hstatus : τ.ints "error" = some e) (hit : (var "it").Counts ρ k) :
    Runs (fun _ => False) ctx
      (.block [
        residuals g b,
        .branch (.cond (.eq "it" 0))
          (.seq (assembleMatrix g b) (.assignResult "error" ⟨(newton g b).solveName,
            [.array newtonMatrix, .array residual, .array permutation]⟩))
          (.call ⟨(newton g b).solveAgainName, [.array newtonMatrix, .array residual, .array permutation]⟩),
        .each "i" (g.unknowns b) .inline (.assign (stage.entry "i") .add (.elem residual (.var "i")))])
      τ (fun τ' => (ρ.forget ["s", "t", "i", "j", "error"]).Of τ'.ints ∧ ∃ e' m', τ'.ints "error" = some e' ∧
        Holding arrays reals m' τ' ∧ Iterating ctx g b state before x (storedCoefficient g before) J
          (fun v => F v (inputsAt b state before)) y (k + 1) e' m') D := by
  obtain ⟨K, mf, hiterated, hK, hsame⟩ := hm.iterated
  have hkeep : ρ.Keeps (ρ.set "error" (some e)) ["s", "t", "i", "j", "error"] := (Known.Keeps.refl ρ _).set (by simp) _
  have hit₀ := counts_set_of_ne (n := "error") hit (by decide) (some e)
  refine Runs.block_cons (residuals_exact hA hN h (hρ.learn hstatus) hx hrhs hm.progress hK) fun τ₁ h₁ => ?_
  obtain ⟨hρ₁, m₁, h₁, hp₁, hbeside, hresidual⟩ := h₁
  have hsame₁ : LinearSystem.SameFactors (matrixView g b) (permutationView g b) mf m₁ :=
    hsame.trans (same_of_beside hbeside (by decide))
  have hstatus₁ : τ₁.ints "error" = some e := hρ₁.value (by simp [Known.forget, Known.set])
  have hit₁ := (Known.Keeps.forget (ρ.set "error" (some e)) ["s", "i", "t"]).counts (by simp) hit₀
  have hrows₁ : 0 < k → IsRows (g.unknowns b) (permutationView g b) m₁.ints := fun hk => by
    rw [hbeside.ints]
    exact hm.rows hk
  refine Runs.block_cons (solveStep_exact hA h₁ hρ₁ hN hsolver hx hiterated hsame₁ hresidual hp₁
    (hK.congr (hbeside.reals _ (by decide))) (hm.jacobian.congr (hbeside.reals _ (by decide))) hrows₁ hstatus₁ hit₁)
    fun τ₂ h₂ => ?_
  obtain ⟨hρ₂, e', m₂, hstatus₂, h₂, hiterated₂, hK₂, hp₂, hJ₂, hrows₂⟩ := h₂
  refine (Runs.each_update_first (r := fun j => m₂.reals residualBlock j) h₂ (hρ₂.learn hstatus₂) hA.view_stage
    (Nat.le_refl _) fun j ρ' τ' f hj hcount hρ' hτ' => ?_).mono (fun τ₃ h₃ => ?_) fun _ _ h => h
  · have hentry := hτ'.eval_elem hρ' hN.view_residual hcount hj
    have hne : residualBlock ≠ stageBlock := by decide
    rw [Memory.reals_fill_of_ne hne, Nat.zero_add] at hentry
    exact hentry
  · obtain ⟨hρ₃, h₃⟩ := h₃
    simp only [Nat.zero_add] at h₃
    have hbeside₃ := (Memory.Beside.refl [stageBlock] m₂).fill (List.mem_singleton_self _) 0 (g.unknowns b)
      fun j => Update.apply (m₂.reals stageBlock j) (m₂.reals residualBlock j) .add
    refine ⟨hρ₃.mono ?_, e', _, hρ₃.value (by simp [Known.forget, Known.set]), h₃,
      ⟨_, m₂, hiterated₂, fun s hs i => ?_, same_of_beside hbeside₃ (by decide)⟩,
      hp₂.beside hA.outside hbeside₃ (by simp [workBlocks]) (by decide), hJ₂.congr (hbeside₃.reals _ (by decide)),
      fun _ => hrows₂⟩
    · exact ((hkeep.trans (.forget _ ["s", "i", "t"]) (by simp)).trans (.forget _ _) (by simp)).set (by simp) _ |>.trans
        (.forget _ ["i"]) (by simp)
    · refine (Memory.reals_fill_zero (row_index_lt hs i.2)).trans ?_
      rw [hK₂ s hs i]
      rfl

/-- The stages of an implicit scheme. -/
theorem implicitStages_exact (hrhs : Writes (ctx.call b.rhs) b.length b.integratedLength (b.model F))
    (hjac : Writes (ctx.call b.jacobian) b.length (b.integratedLength * b.integratedLength) (b.model G))
    (hp : Progress g b state before y m) (hstatus : τ.ints "error" = some e) :
    Runs (fun _ => False) ctx (implicitStages g b (newton g b)) τ
      (fun τ' => (ρ.forget stepNames).Of τ'.ints ∧ ∃ e' m', τ'.ints "error" = some e' ∧ Holding arrays reals m' τ' ∧
        Iterating ctx g b state before x (storedCoefficient g before) (entryOf (G y (inputsAt b state before)))
          (fun v => F v (inputsAt b state before)) y newtonIterations e' m') D := by
  unfold implicitStages
  refine Runs.block_cons (copyState_exact hA h (hρ.learn hstatus)) fun τ₁ h₁ => ?_
  obtain ⟨hρ₁, h₁⟩ := h₁
  have hp₁ : Progress g b state before y (m.fill pointBlock 0 b.integratedLength (etaAt state m)) := hp.fill_point hA.outside
  refine Runs.block_cons (callJacobian_exact hA h₁ hρ₁ hN hjac hp₁
    fun i => (Memory.reals_fill_zero i.2).trans (hp.integrated i)) fun τ₂ h₂ => ?_
  obtain ⟨hρ₂, m₂, h₂, hp₂, hJ₂⟩ := h₂
  refine Runs.block_cons (clearStages_exact (x := x) (f := fun v => F v (inputsAt b state before)) hA h₂ hρ₂ hp₂ hJ₂ e)
    fun τ₃ h₃ => ?_
  obtain ⟨hρ₃, m₃, h₃, hm₃⟩ := h₃
  have hstatus₃ : τ₃.ints "error" = some e := hρ₃.value (by simp [Known.forget, Known.set])
  refine (Runs.each_known (fun k τ' => ∃ e' m', τ'.ints "error" = some e' ∧
    Holding arrays reals m' τ' ∧ Iterating ctx g b state before x (storedCoefficient g before)
      (entryOf (G y (inputsAt b state before))) (fun v => F v (inputsAt b state before)) y k e' m') ?_ hρ₃
    (by simp : "it" ∉ ["s", "t", "i", "j", "error"]) ⟨e, m₃, hstatus₃, h₃, hm₃⟩ fun k ρ' τ' hk hr => ?_).mono
    (fun τ' h' => ⟨h'.1.mono ?_, h'.2⟩) fun _ _ h => h
  · rintro k τ' v ⟨e', m', hstatus', hm', hiterating⟩
    exact ⟨e', m', (State.ints_setInt_of_ne _ _ (by decide)).trans hstatus', hm'.setInt "it" v, hiterating⟩
  · obtain ⟨e', m', hstatus', hm', hiterating⟩ := hr.property
    refine (iteration_exact hA hm' hr.known hN hsolver hx hrhs hiterating hstatus' hr.count).mono
      (fun τ'' h'' => ⟨h''.1, ?_⟩) fun _ _ h => h
    obtain ⟨-, e'', m'', hstatus'', hm'', hiterating'⟩ := h''
    exact ⟨e'', m'', hstatus'', hm'', hiterating'⟩
  · exact ((((Known.Keeps.refl ρ stepNames).set (by decide) _).trans (.forget _ ["i"]) (by decide)).trans (.forget _ ["i"])
      (by decide)).trans (.forget _ _) (by decide)

end Iterations

/-! ## Steps -/

section Step

variable {R : Type} [Arithmetic R] {ctx : Context R} {g : Integrator} {b : Binding} {state : View}
  {arrays : String → Option View} {reals : String → Option R} {before : Memory R} {x : R}
  {F : (Fin b.integratedLength → R) → (Fin b.inputs → R) → Fin b.integratedLength → R}
  {G : (Fin b.integratedLength → R) → (Fin b.inputs → R) → Fin (b.integratedLength * b.integratedLength) → R}

/-- A step of the generated function is a step of the method. -/
theorem implicit_makes (hA : Arrays g b ctx.size state arrays) (hN : NewtonSizes g b ctx.size)
    (hsolver : (newton g b).CalledIn ctx) (hx : reals "h" = some x) (hsystem : g.newtonSystem b = some (newton g b))
    (hrhs : Writes (ctx.call b.rhs) b.length b.integratedLength (b.model F))
    (hjac : Writes (ctx.call b.jacobian) b.length (b.integratedLength * b.integratedLength) (b.model G)) :
    Makes ctx g b state before arrays reals (NewtonStep ctx g b x (storedCoefficient g before) (storedWeight g before)
      (fun y => entryOf (G y (inputsAt b state before))) fun v => F v (inputsAt b state before)) := by
  intro D ρ τ c hρ hbetween
  obtain ⟨hstatus, m, hm, hp⟩ := hbetween
  unfold computeStages
  rw [hsystem]
  refine Runs.seq (implicitStages_exact hA hm hρ hN hsolver hx hrhs hjac hp hstatus) fun τ₁ h₁ => ?_
  obtain ⟨hρ₁, e, m₁, hstatus₁, hm₁, hiterating⟩ := h₁
  obtain ⟨K, m', hiterated, hK, -⟩ := hiterating.iterated
  refine (advance_exact hA hm₁ (hρ₁.learn hstatus₁) hx).mono (fun τ₂ h₂ => ?_) fun _ _ h => h
  obtain ⟨hρ₂, r, hm₂⟩ := h₂
  have hprogress : Progress g b state before (fun i => advancedAt g b state m₁ x i) _ :=
    hiterating.progress.advance (r := r) hA.outside
  have hkeep : ρ.Keeps (((ρ.forget stepNames).set "error" (some e)).forget ["i", "s"]) stepNames :=
    ((Known.Keeps.forget ρ stepNames).set (by decide) _).trans (.forget _ _) (by decide)
  exact ⟨hρ₂.mono hkeep, (e, _), ⟨K, m', hiterated, funext (hK.advanced hiterating.progress hA.outside_static)⟩,
    hρ₂.value (by simp [Known.forget, Known.set]), _, hm₂, hprogress⟩

end Step

/-! ## The file -/

section File

variable {R : Type} [Arithmetic R] {g : Integrator} {b : Binding} {size : Struct → String → ℕ} {calls : Calls R}

theorem newtonSystem_eq (himplicit : g.scheme.isImplicit = true) (hcontinuous : b.discretized = false) :
    g.newtonSystem b = some (newton g b) := if_pos ⟨himplicit, by simp [hcontinuous]⟩

theorem newtonSizes_of (hb : g.binding = some b) (hsystem : g.newtonSystem b = some (newton g b))
    (hsize : Sized (g.members .workspace) .workspace size) : NewtonSizes g b size := by
  unfold Sized members at hsize
  rw [hb] at hsize
  dsimp only at hsize
  rw [hsystem] at hsize
  have hmembers := fun d hd => hsize d (List.mem_append_right _ hd)
  have hrest := fun d hd => hmembers d (List.mem_cons_of_mem _ (List.mem_cons_of_mem _ hd))
  exact ⟨hmembers _ List.mem_cons_self, (hmembers _ (List.mem_cons_of_mem _ List.mem_cons_self)).trans (Nat.mul_one _),
    (hrest _ List.mem_cons_self).trans (Nat.mul_one _), hrest _ (List.mem_cons_of_mem _ List.mem_cons_self)⟩

/-- The linear solver stands before the function. -/
theorem calledIn_surroundings (hsystem : g.newtonSystem b = some (newton g b)) :
    (newton g b).CalledIn ⟨size, (surroundings g b size calls).2⟩ := by
  have hitems : preamble g b = constants g b ++ [.function (newton g b).solve, .function (newton g b).solveAgain] := by
    unfold preamble
    rw [hsystem]
    rfl
  have hnames : (Item.names (preamble g b)).Nodup := by
    have hconstants : Item.names (constants g b) = [] := by
      unfold constants
      cases b.stepSize <;> rfl
    rw [hitems, Item.names_append, hconstants]
    exact List.nodup_cons.2 ⟨fun h => (newton g b).solveName_ne (List.mem_singleton.1 h), List.nodup_singleton _⟩
  have hsolve : .function (newton g b).solve ∈ preamble g b := by simp [hitems]
  have hagain : .function (newton g b).solveAgain ∈ preamble g b := by simp [hitems]
  exact ⟨Item.exists_addAll_function hnames hsolve, Item.exists_addAll_function hnames hagain⟩

end File

end ControlCodegen.Integrator
