import ControlCodegen.Integrator.Program
import ControlCodegen.Proofs.Integrator.LinearSystem
import Mathlib.Tactic.Ring

/-!
# `Integrator.Bounds`: the integrator stays within its arrays

* `Room`, `NewtonRoom` : the arrays that the generated function works on have the elements that it needs, and the
  functions of the model may be called with them.
* `stepBody_inBounds`, `newton_runs` : one step of an explicit scheme, and of an implicit one.
* `SolverAnswers` : what is known of the answers of the linear solver, whichever it is.
* `meets_function` : a call of the generated function ends well.

The stages of all schemes lie one after the other, `n` entries each. The Newton method of a step factorizes in its first
iteration, so that the later ones find a permutation of rows.
-/

namespace ControlCodegen.Integrator

open C C.IntExpr C.Stmt

set_option autoImplicit false

/-- The arrays of the generated function. -/
structure Room (g : Integrator) (b : Binding) (S : Scope) : Prop where
  integrated : 0 < b.integratedLength
  stages : 0 < g.stages
  eta : b.length ≤ S.length eta
  point : b.length ≤ S.length point
  stage : g.stages * b.integratedLength ≤ S.length stage
  time : 0 < S.length time
  stageMatrix : g.stages * g.stages ≤ S.length g.stageMatrix
  weights : g.stages ≤ S.length g.weights
  rhs : ∀ v w, b.length ≤ v.length → b.integratedLength ≤ w.length → S.callable b.rhs [.array v, .array w]

/-- The arrays of the Newton method. -/
structure NewtonRoom (g : Integrator) (b : Binding) (S : Scope) : Prop where
  matrix : S.size .workspace "rk_A" = g.unknowns b * g.unknowns b
  residual : S.size .workspace "rk_b" = g.unknowns b
  permutation : S.size .workspace "rk_perm" = g.unknowns b
  jacobian : S.size .workspace "rk_jac" = b.integratedLength * b.integratedLength
  jac : ∀ v w, b.length ≤ v.length → b.integratedLength * b.integratedLength ≤ w.length →
    S.callable b.jacobian [.array v, .array w]

variable {g : Integrator} {b : Binding} {S : Scope} {K : List String} {ρ : Known}

theorem Binding.length_eq (b : Binding) : b.length = b.integratedLength + b.inputs := by
  unfold length inputs
  omega

/-- The states, then their sensitivities to the initial states, then those to the controls. -/
theorem Binding.integratedLength_eq (b : Binding) :
    b.integratedLength = b.states + b.states * b.dims.nx + b.states * b.dims.nu := by
  unfold integratedLength
  ring

theorem length_stageMatrix (s : Scheme) :
    (Tableau.ofScheme s).a.flatten.length = (Tableau.ofScheme s).stages * (Tableau.ofScheme s).stages := by
  cases s <;> rfl

theorem stages_pos (s : Scheme) : 0 < (Tableau.ofScheme s).stages := by
  rw [Tableau.stages_ofScheme]
  cases s <;> decide

/-- The names of constants are longer than that of the augmented state. -/
theorem ne_eta (m : String) : m ++ "_rk_tableau_A" ≠ "rk_eta" ∧ m ++ "_rk_tableau_b" ≠ "rk_eta" ∧
    m ++ "_rk_h" ≠ "rk_eta" := by
  refine ⟨fun h => ?_, fun h => ?_, fun h => ?_⟩ <;>
  · have hlast := congrArg (fun t : String => t.toList.getLast?) h
    simp at hlast

theorem newtonSystem_eq_some {system : LinearSystem} (h : g.newtonSystem b = some system) :
    ⟨g.moduleName.text, g.unknowns b⟩ = system := by
  unfold newtonSystem at h
  split_ifs at h
  exact Option.some.inj h

/-! ## The parts of the function -/

section Parts

variable (hS : Room g b S)
include hS

theorem seedSensitivities_inBounds : (seedSensitivities b).InBounds S K ρ := by
  have hlen := b.length_eq
  have heta := hS.eta
  have hsplit := b.integratedLength_eq
  have hnx : b.dims.nx * b.dims.nx ≤ b.states * b.dims.nx := Nat.mul_le_mul_right _ (Nat.le_add_right _ _)
  refine ⟨inBounds_each (by simp) fun i ρi hi hci _ => ?_, inBounds_each (by simp) fun i ρi hi hci _ => ?_⟩
  · exact inBounds_assign_entry (((counts_lit _).add hci).within (by omega)) trivial
  · have hrow := row_index_lt hi hi
    refine inBounds_assign_entry ((((counts_lit _).add (hci.mul (counts_lit _))).add hci).within ?_) trivial
    omega

theorem copyInputs_inBounds : (copyInputs b).InBounds S K ρ := by
  have hlen := b.length_eq
  have heta := hS.eta
  have hpoint := hS.point
  refine inBounds_each (by simp) fun i ρi hi hci _ => ?_
  have hat := (counts_lit (ρ := ρi) b.integratedLength).add hci
  exact inBounds_assign_entry (hat.within (by omega)) (hat.within (by omega))

theorem copyState_inBounds : (copyState b).InBounds S K ρ := by
  have hlen := b.length_eq
  have heta := hS.eta
  have hpoint := hS.point
  refine inBounds_each (by simp) fun i ρi hi hci _ => ?_
  exact inBounds_assign_entry (hci.within (by omega)) (hci.within (by omega))

/-- The entry of a stage lies in the stages. -/
theorem within_stage {s i : IntExpr} {k j : Nat} (hs : s.Counts ρ k) (hi : i.Counts ρ j) (hk : k < g.stages)
    (hj : j < b.integratedLength) : S.Within ρ stage (s * .lit b.integratedLength + i) :=
  ((hs.mul (counts_lit _)).add hi).within (Nat.lt_of_lt_of_le (row_index_lt hk hj) hS.stage)

theorem within_coefficient {row col : IntExpr} {r c : Nat} (hrow : row.Counts ρ r) (hcol : col.Counts ρ c)
    (hr : r < g.stages) (hc : c < g.stages) : (g.coefficient row col).InBounds S K ρ :=
  ((hrow.mul (counts_lit _)).add hcol).within (Nat.lt_of_lt_of_le (row_index_lt hr hc) hS.stageMatrix)

theorem stagePoint_inBounds {count : IntExpr} {m k : Nat} (hh : "h" ∈ K)
    (hcount : ∀ ρ', ρ.Keeps ρ' ["i", "t"] → count.Counts ρ' m) (hm : m ≤ g.stages) (hs : (var "s").Counts ρ k)
    (hk : k < g.stages) : (stagePoint g b count).InBounds S K ρ := by
  have hlen := b.length_eq
  have heta := hS.eta
  have hpoint := hS.point
  refine inBounds_each (by simp) fun i ρi hi hci hki => ?_
  refine ⟨inBounds_assign_entry (hci.within (by omega)) (hci.within (by omega)), ?_⟩
  rw [after_assign]
  have hbound : count.Counts (ρi.forget ["t"]) m := hcount _ (hki.trans (.forget ρi ["t"]) (by simp))
  refine inBounds_countUp (by simp) (counts_lit 0) hbound fun t ρt _ ht hct hkt => ?_
  have hit := hkt.counts (by simp) hci
  have hst := hkt.counts (by simp) (hki.counts (by simp) hs)
  refine inBounds_assign_entry (hit.within (by omega)) ⟨⟨?_, ?_⟩, ?_⟩
  · exact List.mem_append_right _ hh
  · exact within_coefficient hS hst hct hk (by omega)
  · exact within_stage hS hct hit (by omega) hi

/-- The model may write a stage wherever there is room for all of them. -/
theorem evaluateAt_inBounds {target : Ref} {k : Nat} (htarget : g.stages * b.integratedLength ≤ S.length target)
    (hs : (var "s").Counts ρ k) (hk : k < g.stages) : (evaluateAt b target).InBounds S K ρ := by
  have hn := hS.integrated
  have hroom := row_end_le b.integratedLength hk
  obtain ⟨v, hv, hlen⟩ := Scope.exists_tail (S := S) (a := target) (m := k * b.integratedLength) (by omega)
  obtain ⟨w, hw, hwlen⟩ := Scope.exists_view (Nat.lt_of_lt_of_le (by rw [b.length_eq]; omega) hS.point)
  have hat : (var "s" * .lit b.integratedLength).value ρ = some ((k * b.integratedLength : Nat) : Int) :=
    hs.mul (counts_lit b.integratedLength)
  have hfirst : (Arg.array point).known S ρ = some (.array w) := by
    rw [Arg.known, hw]
    rfl
  have hsecond : (Arg.tail target (var "s" * .lit b.integratedLength)).known S ρ = some (.array v) := by
    rw [Arg.known, hat]
    change (tailOf S.size S.arrays target _).map Value.array = _
    rw [hv]
    rfl
  refine ⟨[.array w, .array v], ?_, hS.rhs w v (by rw [hwlen]; exact hS.point) (by omega)⟩
  rw [List.mapM_cons, hfirst, List.mapM_cons, hsecond]
  rfl

theorem residuals_inBounds (hres : g.stages * b.integratedLength ≤ S.length residual) (hh : "h" ∈ K) :
    (residuals g b).InBounds S K ρ := by
  refine inBounds_each (by simp [stagePoint, evaluateAt]) fun s ρs hs hcs hks => ?_
  refine inBounds_block_step ?_ fun ρ₁ h₁ => ?_
  · exact stagePoint_inBounds hS hh (fun ρ' _ => counts_lit g.stages) (Nat.le_refl _) hcs hs
  have hs₁ := h₁.counts (by simp [stagePoint]) hcs
  refine inBounds_block_step (evaluateAt_inBounds hS hres hs₁ hs) fun ρ₂ h₂ => ?_
  have hs₂ := h₂.counts (by simp [evaluateAt]) hs₁
  refine inBounds_each (by simp) fun i ρi hi hci hki => ?_
  have hsi := hki.counts (by simp) hs₂
  have hat := (hsi.mul (counts_lit b.integratedLength)).add hci
  have hlt := row_index_lt hs hi
  exact inBounds_assign_entry (hat.within (by omega)) (within_stage hS hsi hci hs hi)

theorem assembleMatrix_inBounds (hN : NewtonRoom g b S) (hh : "h" ∈ K) : (assembleMatrix g b).InBounds S K ρ := by
  refine inBounds_each (by simp) fun s ρs hs hcs hks => inBounds_each (by simp) fun t ρt ht hct hkt =>
    inBounds_each (by simp) fun i ρi hi hci hki => inBounds_each (by simp) fun j ρj hj hcj hkj => ?_
  have hij := hkj.counts (by simp) hci
  have htj := hkj.counts (by simp) (hki.counts (by simp) hct)
  have hsj := hkj.counts (by simp) (hki.counts (by simp) (hkt.counts (by simp) hcs))
  have hrow : s * b.integratedLength + i < g.unknowns b := row_index_lt hs hi
  have hcol : t * b.integratedLength + j < g.unknowns b := row_index_lt ht hj
  have hat := row_index_lt hrow hcol
  have hlen : S.length newtonMatrix = g.unknowns b * g.unknowns b := hN.matrix
  refine inBounds_assign_entry ?_ ⟨⟨⟨⟨hsj.isSome, htj.isSome⟩, hij.isSome, hcj.isSome⟩, trivial, trivial⟩,
    ⟨hh, within_coefficient hS hsj htj hs ht⟩, ?_⟩
  · refine IntExpr.Counts.within ((((hsj.mul (counts_lit _)).add hij).mul (counts_lit _)).add
      (htj.mul (counts_lit _)) |>.add hcj) ?_
    omega
  · have hjac := row_index_lt hi hj
    exact ((hij.mul (counts_lit _)).add hcj).within (Nat.lt_of_lt_of_le hjac (Nat.le_of_eq hN.jacobian.symm))

theorem advance_inBounds (hh : "h" ∈ K) : (advance g b).InBounds S K ρ := by
  have hlen := b.length_eq
  have heta := hS.eta
  refine ⟨?_, hS.time, trivial, trivial⟩
  refine inBounds_each (by simp) fun i ρi hi hci _ => inBounds_each (by simp) fun s ρs hs hcs hks => ?_
  have his := hks.counts (by simp) hci
  exact inBounds_assign_entry (his.within (by omega))
    ⟨⟨hh, hcs.within (Nat.lt_of_lt_of_le hs hS.weights)⟩, within_stage hS hcs his hs hi⟩

end Parts

/-! ## The Newton method -/

section Newton

variable {R : Type} [Arithmetic R] {E : Fault → Prop} {ctx : Context R} {τ : State R}

/-- The functions of the linear solver can be called as the Newton method calls them. -/
structure SolverCalls (E : Fault → Prop) (ctx : Context R) (system : LinearSystem) : Prop where
  solve : ∀ va vb w m, va.length = system.dim * system.dim → vb.length = system.dim → w.length = system.dim →
    Meets E (ctx.call system.solveName [.array va, .array vb, .array w] m)
      fun r => ∃ k, r.1 = .int k ∧ IsRows system.dim w r.2.ints
  solveAgain : ∀ va vb w m, va.length = system.dim * system.dim → vb.length = system.dim → w.length = system.dim →
    IsRows system.dim w m.ints →
    Meets E (ctx.call system.solveAgainName [.array va, .array vb, .array w] m) fun r => IsRows system.dim w r.2.ints

/-- An array in the workspace. -/
def solverView (S : Scope) (name : String) : View := ⟨.member .workspace name, 0, S.size .workspace name⟩

/-- The arguments of the linear solver. -/
def solverArguments (S : Scope) : List Value :=
  [.array (solverView S "rk_A"), .array (solverView S "rk_b"), .array (solverView S "rk_perm")]

/-- What is known of the answers of the linear solver. `I n` holds of the integers in memory when there have been `n`
factorizations, and `Q` from a factorization to the end of the step. The status of factorization `n` may be known. -/
structure SolverAnswers (E : Fault → Prop) (ctx : Context R) (system : LinearSystem) (S : Scope)
    (I : Nat → (Block → Nat → Int) → Prop) (Q : (Block → Nat → Int) → Prop) (status : Nat → Option Int) : Prop where
  solve : ∀ n m, I n m.ints → Meets E (ctx.call system.solveName (solverArguments S) m) fun r =>
    ∃ k, r.1 = .int k ∧ (status n = none ∨ status n = some k) ∧ I (n + 1) r.2.ints ∧ Q r.2.ints
  solveAgain : ∀ n m, I n m.ints → Q m.ints → Meets E (ctx.call system.solveAgainName (solverArguments S) m) fun r =>
    I n r.2.ints ∧ Q r.2.ints

omit [Arithmetic R] in
/-- The permutation in the workspace is one of rows from the factorization on. -/
theorem SolverCalls.answers (h : SolverCalls E ctx ⟨g.moduleName.text, g.unknowns b⟩) (hN : NewtonRoom g b S) :
    SolverAnswers E ctx ⟨g.moduleName.text, g.unknowns b⟩ S (fun _ _ => True)
      (IsRows (g.unknowns b) (solverView S "rk_perm")) fun _ => none := by
  refine ⟨fun n m _ => ?_, fun n m _ hm => ?_⟩
  · refine (h.solve _ _ _ m hN.matrix hN.residual hN.permutation).mono fun r hr => ?_
    obtain ⟨k, hk, hrows⟩ := hr
    exact ⟨k, hk, .inl rfl, trivial, hrows⟩
  · exact (h.solveAgain _ _ _ m hN.matrix hN.residual hN.permutation hm).mono fun r hr => ⟨trivial, hr⟩

/-- The integers in memory before an iteration of step `n`: in the first one nothing is factorized yet. -/
def BeforeIteration (I : Nat → (Block → Nat → Int) → Prop) (Q : (Block → Nat → Int) → Prop) (n iteration : Nat)
    (ints : Block → Nat → Int) : Prop :=
  if iteration = 0 then I n ints else I (n + 1) ints ∧ Q ints

/-- The variable of the status is known, if there is something to know. -/
def KnownStatus (x : Option Int) (ρ : Known) : Prop := ∀ e, x = some e → (var "error").value ρ = some e

theorem KnownStatus.keeps {x : Option Int} {ρ' : Known} {ns : List String} (h : KnownStatus x ρ) (hk : ρ.Keeps ρ' ns)
    (hns : "error" ∉ ns) : KnownStatus x ρ' :=
  fun e he => hk.value hns (h e he)

theorem KnownStatus.set {x : Option Int} (h : KnownStatus x ρ) {n : String} (hn : n ≠ "error") (y : Option Int) :
    KnownStatus x (ρ.set n y) := by
  intro e he
  rw [IntExpr.value, Known.set, if_neg hn.symm]
  exact h e he

theorem KnownStatus.of_set (ρ : Known) (x : Option Int) : KnownStatus x (ρ.set "error" x) := by
  rintro e rfl
  rw [IntExpr.value, Known.set, if_pos rfl]
  rfl

variable {I : Nat → (Block → Nat → Int) → Prop} {Q : (Block → Nat → Int) → Prop} {status : Nat → Option Int}

/-- The linear system is solved in each iteration: the first factorizes, the others use the factors. -/
theorem solveStep_runs (hctx : ∀ I, S.Serves E I ctx) (hS : Room g b S) (hN : NewtonRoom g b S)
    (hanswers : SolverAnswers E ctx ⟨g.moduleName.text, g.unknowns b⟩ S I Q status) (hh : "h" ∈ K) {n k : Nat}
    (hit : (var "it").Counts ρ k) (hρ : 0 < k → KnownStatus (status n) ρ)
    (hs : Fits S (BeforeIteration I Q n k) K ρ τ) :
    Runs E ctx
      (.branch (.cond (.eq (var "it") 0))
        (.seq (assembleMatrix g b) (.assignResult "error"
          ⟨LinearSystem.solveName ⟨g.moduleName.text, g.unknowns b⟩,
            [.array newtonMatrix, .array residual, .array permutation]⟩))
        (.call ⟨LinearSystem.solveAgainName ⟨g.moduleName.text, g.unknowns b⟩,
          [.array newtonMatrix, .array residual, .array permutation]⟩))
      τ (fun τ' => ∃ ρ', ρ.Keeps ρ' ["s", "t", "i", "j", "error"] ∧ KnownStatus (status n) ρ' ∧
        Fits S (fun ints => I (n + 1) ints ∧ Q ints) K ρ' τ') fun _ _ => True := by
  have hargs : ∀ τ : State R, [Arg.array newtonMatrix, .array residual, .array permutation].mapM
      (Arg.eval ctx.size τ) = .ok (solverArguments S) := by
    intro τ
    rw [(hctx fun _ => True).size]
    rfl
  have htest : (Test.cond (.eq (var "it") 0)).eval ctx.size τ = .ok (decide ((k : Int) = 0)) := by
    rw [(hctx fun _ => True).size, Test.eval, Cond.eval, IntExpr.eval_of_value hs.known hit]
    rfl
  have hmemory := hs.memory
  unfold BeforeIteration at hmemory
  refine Runs.branch htest (fun hk => ?_) fun hk => ?_
  · obtain rfl : k = 0 := by simpa using hk
    refine Runs.seq ((assembleMatrix_inBounds hS hN hh).runs_keeps (hctx _) hs) fun τ₁ hnext => ?_
    obtain ⟨ρ₁, hk₁, h₁⟩ := hnext
    refine Runs.assignResult
      (P := fun k m => (status n = none ∨ status n = some k) ∧ I (n + 1) m.ints ∧ Q m.ints)
      (hargs τ₁) (hanswers.solve n _ h₁.memory) fun e m hm => ⟨ρ₁.set "error" (status n), ?_, KnownStatus.of_set ρ₁ _, ?_⟩
    · exact (hk₁.mono_names (by simp [assembleMatrix])).set (by simp) _
    · exact Fits.setInt (s := τ₁.withMemory m) ⟨h₁.known, h₁.reals, h₁.arrays, hm.2⟩ "error" hm.1
  · have hne : k ≠ 0 := by simpa using hk
    rw [if_neg hne] at hmemory
    refine Runs.call (hargs τ) (hanswers.solveAgain (n + 1) _ hmemory.1 hmemory.2) fun a m hm => ?_
    exact ⟨ρ, .refl ρ _, hρ (Nat.pos_of_ne_zero hne), hs.known, hs.reals, hs.arrays, hm⟩

/-- The stages of an implicit scheme. They are computed with one factorization, and its status is kept. -/
theorem implicitStages_runs (hctx : ∀ I, S.Serves E I ctx) (hS : Room g b S) (hN : NewtonRoom g b S)
    (hanswers : SolverAnswers E ctx ⟨g.moduleName.text, g.unknowns b⟩ S I Q status) (hh : "h" ∈ K) {n : Nat}
    (hs : Fits S (I n) K ρ τ) :
    Runs E ctx (implicitStages g b ⟨g.moduleName.text, g.unknowns b⟩) τ
      (fun τ' => ∃ ρ', ρ.Keeps ρ' ["it", "s", "t", "i", "j", "error"] ∧ KnownStatus (status n) ρ' ∧
        Fits S (I (n + 1)) K ρ' τ') fun _ _ => True := by
  have hresidual : g.stages * b.integratedLength ≤ S.length residual := Nat.le_of_eq hN.residual.symm
  have hunknown : ∀ {ρ : Known} {r : Ref}, g.stages * b.integratedLength ≤ S.length r → ∀ {i : Nat},
      (var "i").Counts ρ i → i < g.unknowns b → S.Within ρ r (var "i") := fun hr _ hi hlt =>
    hi.within (Nat.lt_of_lt_of_le hlt hr)
  have hjac : ∀ ρ, (Stmt.call ⟨b.jacobian, [.array point, .array jacobian]⟩).InBounds S K ρ := fun _ =>
    ⟨_, rfl, hN.jac _ _ hS.point (Nat.le_of_eq hN.jacobian.symm)⟩
  have hclear : ∀ ρ, (Stmt.each "i" (g.unknowns b) .inline (.assign (stage.entry "i") .set (.whole 0))).InBounds S K ρ :=
    fun _ => inBounds_each (by simp) fun i ρi hi hci _ => inBounds_assign_entry (hunknown hS.stage hci hi) trivial
  unfold implicitStages
  refine Runs.block_cons ((copyState_inBounds hS).runs_keeps (hctx _) hs) fun τ₁ hnext => ?_
  obtain ⟨ρ₁, hk₁, h₁⟩ := hnext
  refine Runs.block_cons ((hjac ρ₁).runs_keeps (hctx _) h₁) fun τ₂ hnext => ?_
  obtain ⟨ρ₂, hk₂, h₂⟩ := hnext
  refine Runs.block_cons ((hclear ρ₂).runs_keeps (hctx _) h₂) fun τ₃ hnext => ?_
  obtain ⟨ρ₃, hk₃, h₃⟩ := hnext
  have hkeep : ρ.Keeps ρ₃ ["i"] := (hk₁.trans hk₂ (by simp)).trans hk₃ (by simp [copyState])
  have hbegin : Fits S (BeforeIteration I Q n 0) K ρ₃ τ₃ := ⟨h₃.known, h₃.reals, h₃.arrays, h₃.memory⟩
  refine (hbegin.runs_each_known (I := BeforeIteration I Q n) (fun k ρ => 0 < k → KnownStatus (status n) ρ)
    ["it", "s", "t", "i", "j", "error"] (by simp) (fun k ρ x h hk => (h hk).set (by decide) x)
    (fun h => absurd h (Nat.lt_irrefl 0))
    fun k ρ' τ' _ hk' hit hstatus hτ' => ?_).mono (fun τ₄ hnext => ?_) fun _ _ h => h
  · refine Runs.block_cons ((residuals_inBounds hS hresidual hh).runs_keeps (hctx _) hτ') fun τ₁ hnext => ?_
    obtain ⟨ρ₁, hk₁, h₁⟩ := hnext
    have hit₁ := hk₁.counts (by simp [residuals, stagePoint, evaluateAt]) hit
    have hstatus₁ := fun h => (hstatus h).keeps hk₁ (by simp [residuals, stagePoint, evaluateAt])
    refine Runs.block_cons (solveStep_runs hctx hS hN hanswers hh hit₁ hstatus₁ h₁) fun τ₂ hnext => ?_
    obtain ⟨ρ₂, hk₂, hstatus₂, h₂⟩ := hnext
    have hadd : (Stmt.each "i" (g.unknowns b) .inline
        (.assign (stage.entry "i") .add (.elem residual (.var "i")))).InBounds S K ρ₂ :=
      inBounds_each (by simp) fun i ρi hi hci _ =>
        inBounds_assign_entry (hunknown hS.stage hci hi) (hunknown hresidual hci hi)
    refine (hadd.runs_keeps (hctx _) h₂).mono (fun τ₃ hnext => ?_) fun _ _ h => h
    obtain ⟨ρ₃, hk₃, h₃⟩ := hnext
    refine ⟨ρ₃, ?_, ?_, fun _ => hstatus₂.keeps hk₃ (by simp), h₃⟩
    · exact ((hk'.trans hk₁ (by simp [residuals, stagePoint, evaluateAt])).trans hk₂ (by simp)).trans hk₃ (by simp)
    · exact hk₃.counts (by simp) (hk₂.counts (by simp) hit₁)
  · obtain ⟨ρ₄, hk₄, hstatus, h₄⟩ := hnext
    exact ⟨ρ₄, (hkeep.mono_names (by simp)).trans hk₄ (by simp), hstatus (by decide), h₄.known, h₄.reals, h₄.arrays,
      h₄.memory.1⟩

end Newton

/-! ## The function -/

theorem ne_stepSizeName (g : Integrator) {suffix : String} (h : suffix ≠ "_rk_h") :
    g.stepSizeName ≠ g.moduleName.text ++ suffix := by
  intro heq
  exact h ((String.append_right_inj g.moduleName.text).1 heq).symm

/-- The step size of the interval can be read. -/
def StepReadable (g : Integrator) (b : Binding) (S : Scope) (K : List String) (ρ : Known) : Prop :=
  match b.stepSize with
  | .uniform _ => g.stepSizeName ∈ K
  | .perInterval _ => ∃ k : Nat, (var "rk_index").Counts ρ k ∧ k < S.length (.name g.stepSizeName)

theorem stepSize_inBounds (h : StepReadable g b S K ρ) : (stepSize g b).InBounds S K ρ := by
  unfold StepReadable at h
  unfold stepSize
  cases hstep : b.stepSize with
  | uniform h' =>
    rw [hstep] at h
    exact h
  | perInterval hs =>
    rw [hstep] at h
    obtain ⟨k, hk, hlt⟩ := h
    exact hk.within hlt

theorem StepReadable.keeps (h : StepReadable g b S K ρ) {ρ' : Known} {ns : List String} (hk : ρ.Keeps ρ' ns)
    (hns : "rk_index" ∉ ns) : StepReadable g b S K ρ' := by
  unfold StepReadable at h ⊢
  cases hstep : b.stepSize with
  | uniform h' =>
    rw [hstep] at h
    exact h
  | perInterval hs =>
    rw [hstep] at h
    obtain ⟨k, hc, hlt⟩ := h
    exact ⟨k, hk.counts hns hc, hlt⟩

theorem prologue_inBounds (hS : Room g b S) (hstep : StepReadable g b S K ρ) : (prologue g b).InBounds S K ρ := by
  unfold prologue
  cases hd : b.discretized with
  | true =>
    refine inBounds_block_step trivial fun ρ₁ _ => inBounds_block_step trivial fun ρ₂ _ => ?_
    refine inBounds_block_step trivial fun ρ₃ _ => inBounds_block_step ⟨hS.time, trivial⟩ fun ρ₄ _ => ?_
    exact copyInputs_inBounds hS
  | false =>
    refine inBounds_block_step trivial fun ρ₁ h₁ => inBounds_block_step trivial fun ρ₂ h₂ => ?_
    have hstep₂ := (hstep.keeps h₁ (by simp [assigned])).keeps h₂ (by simp [assigned])
    refine inBounds_block_step (stepSize_inBounds hstep₂) fun ρ₃ _ => ?_
    refine inBounds_block_step trivial fun ρ₄ _ => inBounds_block_step ⟨hS.time, trivial⟩ fun ρ₅ _ => ?_
    exact inBounds_block_step (seedSensitivities_inBounds hS) fun ρ₆ _ => copyInputs_inBounds hS

theorem h_mem_sets_prologue (g : Integrator) (hd : b.discretized = false) : "h" ∈ (prologue g b).sets := by
  unfold prologue
  rw [hd]
  simp [sets]

section Function

variable {R : Type} [Arithmetic R] {E : Fault → Prop} {ctx : Context R} {τ : State R}

/-- The arguments of a call of the generated function. -/
def Binding.arguments (b : Binding) (state : View) (reset : Int) (interval : Nat) : List Value :=
  [.array state, .int reset] ++ if b.stepSize.isPerInterval then [.int interval] else []

/-- The step size is a constant of the file, or one of as many as there are intervals. -/
def StepGiven (g : Integrator) (b : Binding) (S : Scope) (file : Statics R) (interval : Nat) : Prop :=
  match b.stepSize with
  | .uniform _ => (file.reals g.stepSizeName).isSome
  | .perInterval _ => interval < S.length (.name g.stepSizeName)

omit [Arithmetic R] in
/-- The state in which the generated function starts. -/
theorem exists_start {file : Statics R} {state : View}
    (harrays : S.arrays = fun n => if n = "rk_eta" then some state else file.arrays n) (reset : Int) {interval : Nat}
    (hstep : StepGiven g b S file interval) (m : Memory R) :
    ∃ s K ρ, bindParameters (g.prototype b).params (b.arguments state reset interval)
        ⟨g.functionName, fun _ => none, file.reals, file.arrays, m⟩ = some s ∧ s.memory = m ∧
      StepReadable g b S K ρ ∧ Fits S (fun _ => True) K ρ s := by
  have hparams : (g.prototype b).params = [.realOut "rk_eta", .intValue "resetIntegrator"] ++
    if b.stepSize.isPerInterval then [.intValue "rk_index"] else [] := rfl
  unfold StepGiven at hstep
  unfold Binding.arguments StepReadable
  rw [hparams]
  cases hsize : b.stepSize with
  | uniform h =>
    rw [hsize] at hstep
    refine ⟨_, [g.stepSizeName], Known.none, rfl, rfl, List.mem_singleton_self _, Known.of_none _, fun n hn => ?_,
      harrays.symm, trivial⟩
    rw [List.mem_singleton.1 hn]
    exact hstep
  | perInterval hs =>
    rw [hsize] at hstep
    exact ⟨_, [], Known.none.set "rk_index" (some interval), rfl, rfl,
      ⟨interval, counts_set_self _ "rk_index" interval, hstep⟩, (Known.of_none _).set "rk_index" (.inr rfl),
      fun n hn => absurd hn List.not_mem_nil, harrays.symm, trivial⟩

end Function

end ControlCodegen.Integrator
