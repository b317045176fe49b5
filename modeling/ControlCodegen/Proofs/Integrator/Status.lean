import ControlCodegen.Proofs.C.Rounds
import ControlCodegen.Proofs.Integrator.Bounds

/-!
# `Integrator.Status`: the status that the generated integrator returns

* `Answering` : all calls come back, and the factorizations answer with one status after another.
* `implicitSteps_runs` : each step factorizes once, and its status takes the place of the one before.
* `meets_status` : a call returns the status of its last factorization.

What the linear solver does to the matrix and to the right side is left open, so that every sequence of statuses may occur.
The factorizations are counted in memory that the program has no name for.
-/

namespace ControlCodegen.Integrator

open C C.IntExpr C.Stmt

set_option autoImplicit false

/-! ## Answers -/

/-- The factorizations so far are counted here. -/
def tally : Block := .outside "factorizations"

/-- The factorizations so far. -/
def factorizations {R : Type} (m : Memory R) : ℕ := (m.ints tally 0).toNat

/-- So many factorizations have been made. -/
def Tallied (n : ℕ) (ints : Block → ℕ → ℤ) : Prop := ints tally 0 = n

theorem Tallied.factorizations_eq {R : Type} {n : ℕ} {m : Memory R} (h : Tallied n m.ints) : factorizations m = n := by
  unfold factorizations
  rw [h]
  exact Int.toNat_natCast n

/-- What the integrator calls comes back. The functions of the model leave the integers in memory alone; the factorizations
answer with one status after another, and only they are counted. -/
structure Answering {R : Type} (g : Integrator) (b : Binding) (calls : Calls R) (statuses : ℕ → ℤ) : Prop where
  rhs : ∀ v w m, b.length ≤ v.length → b.integratedLength ≤ w.length →
    ∃ a m', calls b.rhs [.array v, .array w] m = .ok (a, m') ∧ m'.ints = m.ints
  jacobian : ∀ v w m, b.length ≤ v.length → b.integratedLength * b.integratedLength ≤ w.length →
    ∃ a m', calls b.jacobian [.array v, .array w] m = .ok (a, m') ∧ m'.ints = m.ints
  solve : ∀ n va vb w m, va.length = g.unknowns b * g.unknowns b → vb.length = g.unknowns b → w.length = g.unknowns b →
    Tallied n m.ints → ∃ m', calls (LinearSystem.solveName ⟨g.moduleName.text, g.unknowns b⟩)
      [.array va, .array vb, .array w] m = .ok (.int (statuses n), m') ∧ Tallied (n + 1) m'.ints
  solveAgain : ∀ n va vb w m, va.length = g.unknowns b * g.unknowns b → vb.length = g.unknowns b →
    w.length = g.unknowns b → Tallied n m.ints →
    ∃ a m', calls (LinearSystem.solveAgainName ⟨g.moduleName.text, g.unknowns b⟩)
      [.array va, .array vb, .array w] m = .ok (a, m') ∧ Tallied n m'.ints

section Answers

variable {R : Type} {E : Fault → Prop} {g : Integrator} {b : Binding} {ctx : Context R} {S : Scope} {statuses : ℕ → ℤ}

theorem Answering.solverAnswers (h : Answering g b ctx.call statuses) (hN : NewtonRoom g b S) :
    SolverAnswers E ctx ⟨g.moduleName.text, g.unknowns b⟩ S Tallied (fun _ => True) fun n => some (statuses n) := by
  refine ⟨fun n m hm => ?_, fun n m hm _ => ?_⟩
  · obtain ⟨m', hcall, hnext⟩ := h.solve n (solverView S "rk_A") (solverView S "rk_b") (solverView S "rk_perm") m
      hN.matrix hN.residual hN.permutation hm
    show Meets E (ctx.call _ [_, _, _] m) _
    rw [hcall]
    exact ⟨statuses n, rfl, .inr rfl, hnext, trivial⟩
  · obtain ⟨a, m', hcall, hnext⟩ := h.solveAgain n (solverView S "rk_A") (solverView S "rk_b") (solverView S "rk_perm") m
      hN.matrix hN.residual hN.permutation hm
    show Meets E (ctx.call _ [_, _, _] m) _
    rw [hcall]
    exact ⟨hnext, trivial⟩

end Answers

/-! ## Steps -/

/-- The status of the last of so many factorizations from some factorization on. It is zero if there is none. -/
def lastStatus (statuses : ℕ → ℤ) (n : ℕ) : ℕ → ℤ
  | 0 => 0
  | k + 1 => statuses (n + k)

variable {R : Type} [Arithmetic R] {E : Fault → Prop} {ctx : Context R} {τ : State R} {g : Integrator} {b : Binding}
  {S : Scope} {K : List String} {ρ : Known} {I : ℕ → (Block → ℕ → ℤ) → Prop} {Q : (Block → ℕ → ℤ) → Prop}
  {statuses : ℕ → ℤ} {n : ℕ}

/-- The steps of an interval. The invariant is that the variable of the status has that of the last factorization. -/
theorem implicitSteps_runs (hctx : ∀ I, S.Serves E I ctx) (hS : Room g b S) (hN : NewtonRoom g b S)
    (hcontinuous : b.discretized = false) (hsystem : g.newtonSystem b = some ⟨g.moduleName.text, g.unknowns b⟩)
    (hanswers : SolverAnswers E ctx ⟨g.moduleName.text, g.unknowns b⟩ S I Q fun n => some (statuses n)) (hh : "h" ∈ K)
    (hρ : KnownStatus (some 0) ρ) (hs : Fits S (I n) K ρ τ) :
    Runs E ctx (steps g b) τ (fun τ' => ∃ ρ', KnownStatus (some (lastStatus statuses n b.stepsPerInterval)) ρ' ∧
      Fits S (I (n + b.stepsPerInterval)) K ρ' τ') fun _ _ => True := by
  unfold steps
  rw [hcontinuous]
  refine (hs.runs_each_known (I := fun k => I (n + k)) (fun k ρ => KnownStatus (some (lastStatus statuses n k)) ρ)
    ["run1", "it", "s", "t", "i", "j", "error"] (by simp) (fun k ρ x h => h.set (by decide) x) hρ
    fun k ρ' τ' _ hk' hrun _ hτ' => ?_).mono (fun τ₁ hnext => ?_) fun _ _ h => h
  · unfold computeStages
    rw [hsystem]
    refine Runs.seq (implicitStages_runs hctx hS hN hanswers hh hτ') fun τ₁ hnext => ?_
    obtain ⟨ρ₁, hk₁, hstatus, h₁⟩ := hnext
    refine ((advance_inBounds hS hh).runs_keeps (hctx _) h₁).mono (fun τ₂ hnext => ?_) fun _ _ h => h
    obtain ⟨ρ₂, hk₂, h₂⟩ := hnext
    refine ⟨ρ₂, ?_, ?_, ?_, h₂⟩
    · exact (hk'.trans hk₁ (by simp)).trans hk₂ (by simp [advance])
    · exact hk₂.counts (by simp [advance]) (hk₁.counts (by simp) hrun)
    · exact hstatus.keeps hk₂ (by simp [advance])
  · obtain ⟨ρ₁, -, hstatus, h₁⟩ := hnext
    exact ⟨ρ₁, hstatus, h₁⟩

/-- The function begins with a status of zero. -/
theorem knownStatus_prologue (g : Integrator) (b : Binding) (ρ : Known) :
    KnownStatus (some 0) ((prologue g b).after ρ) := by
  have hform : ∃ rest, prologue g b = .block (.declareInts (g.counters b) :: .declareInt "error" 0 :: rest) ∧
      "error" ∉ (Stmt.block rest).assigned := by
    refine ⟨_, rfl, ?_⟩
    cases b.discretized <;> simp [seedSensitivities, copyInputs, assigned]
  obtain ⟨rest, hrest, herror⟩ := hform
  rw [hrest, after_block_cons, after_block_cons]
  exact KnownStatus.keeps (KnownStatus.of_set _ _) (Known.keeps_after (.block rest) _) herror

/-! ## The function -/

omit [Arithmetic R] in
/-- Neither the beginning of the function nor its steps return. -/
theorem gives_prologue (g : Integrator) (b : Binding) {A : Answer R → Prop} : (prologue g b).Gives A := by
  refine gives_block ?_
  cases b.discretized <;> simp [seedSensitivities, copyInputs, each, Gives]

omit [Arithmetic R] in
theorem gives_steps (g : Integrator) (b : Binding) {A : Answer R → Prop} : (steps g b).Gives A := by
  have hstages : (computeStages g b).Gives A := by
    unfold computeStages
    cases g.newtonSystem b <;>
      simp [implicitStages, explicitStages, copyState, residuals, stagePoint, evaluateAt, assembleMatrix, block, each,
        Gives]
  unfold steps
  cases b.discretized
  · exact ⟨hstages, by simp [advance, each, Gives]⟩
  · simp [discreteStep, copyState, block, each, Gives]

/-- A call of the function of an implicit scheme factorizes once in each step. It returns the status of the last
factorization, whatever those before it have been. -/
theorem meets_status (hctx : ∀ I, S.Serves E I ctx) {file : Statics R} {state : View}
    (harrays : S.arrays = fun n => if n = "rk_eta" then some state else file.arrays n) (hS : Room g b S)
    (hN : NewtonRoom g b S) (hcontinuous : b.discretized = false)
    (hsystem : g.newtonSystem b = some ⟨g.moduleName.text, g.unknowns b⟩)
    (hanswers : SolverAnswers E ctx ⟨g.moduleName.text, g.unknowns b⟩ S I Q fun n => some (statuses n)) {reset : ℤ}
    {interval : ℕ} (hstep : StepGiven g b S file interval) {m : Memory R} (hm : I n m.ints) :
    Meets E ((function g b).invoke ctx file (b.arguments state reset interval) m) fun r =>
      r.1 = .int (lastStatus statuses n b.stepsPerInterval) ∧ I (n + b.stepsPerInterval) r.2.ints := by
  obtain ⟨s, K, ρ, hs, rfl, hreadable, hfits⟩ := exists_start harrays reset hstep m
  have hbegin : Fits S (I n) K ρ s := ⟨hfits.known, hfits.reals, hfits.arrays, hm⟩
  refine Function.meets_invoke hs ?_
  unfold function
  refine Runs.block_cons (((prologue_inBounds hS hreadable).runs (hctx _) hbegin).of_never (gives_prologue g b))
    fun τ₁ h₁ => ?_
  have hh : "h" ∈ (prologue g b).sets ++ K := List.mem_append_left _ (h_mem_sets_prologue g hcontinuous)
  refine Runs.block_cons ((implicitSteps_runs hctx hS hN hcontinuous hsystem hanswers hh (knownStatus_prologue g b ρ)
    h₁).of_never (gives_steps g b)) fun τ₂ hnext => ?_
  obtain ⟨ρ₂, hstatus, h₂⟩ := hnext
  have hreturn : (var "error").eval ctx.size τ₂ = .ok (lastStatus statuses n b.stepsPerInterval) :=
    IntExpr.eval_of_value (S := S) h₂.known (hstatus _ rfl)
  exact Runs.returnInt hreturn ⟨rfl, h₂.memory⟩

end ControlCodegen.Integrator
