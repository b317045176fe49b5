import ControlCodegen.Proofs.C.Updates
import ControlCodegen.Proofs.Integrator.Layout

/-!
# `Integrator.Stages`: what the parts of the integrator compute

* `Arrays` : the arrays of the generated function, each in its own block.
* `Writes`, `Binding.model` : functions of the model, which write what follows from the states and inputs they read.
* `stagePoint_exact`, `evaluateAt_exact`, `copyState_exact`, `advance_exact` : memory after a part of a step.
* `Progress` : between two steps the augmented state has a certain integrated part; the inputs are what they were, and
  memory outside the integrator is as before.

The arithmetic may be any; sums are formed in the order of the program.
-/

namespace ControlCodegen.Integrator

open C C.IntExpr

set_option autoImplicit false

/-! ## Arrays -/

abbrev pointBlock : Block := .member .workspace "rk_xxx"

abbrev stageBlock : Block := .member .workspace "rk_kkk"

abbrev timeBlock : Block := .member .workspace "rk_ttt"

abbrev matrixBlock : Block := .member .workspace "rk_A"

abbrev residualBlock : Block := .member .workspace "rk_b"

abbrev permutationBlock : Block := .member .workspace "rk_perm"

abbrev jacobianBlock : Block := .member .workspace "rk_jac"

/-- The blocks that the integrator writes, beside the augmented state. -/
def workBlocks (g : Integrator) (b : Binding) : List Block :=
  [pointBlock, stageBlock, timeBlock, matrixBlock, residualBlock, jacobianBlock,
    .auto (LinearSystem.solveAgainName ⟨g.moduleName.text, g.unknowns b⟩) "rk_bPerm"]

theorem static_notMem_workBlocks (g : Integrator) (b : Binding) (n : String) : .static n ∉ workBlocks g b := by
  simp [workBlocks]

def stageMatrixName (g : Integrator) : String := s!"{g.moduleName}_rk_tableau_A"

def weightsName (g : Integrator) : String := s!"{g.moduleName}_rk_tableau_b"

/-- The arrays of the generated function. The augmented state is memory of the caller. -/
structure Arrays (g : Integrator) (b : Binding) (size : Struct → String → ℕ) (state : View)
    (arrays : String → Option View) : Prop where
  states : 0 < b.states
  eta : arrays "rk_eta" = some state
  length : state.length = b.length
  outside : state.block ∉ workBlocks g b
  outside_static : ∀ n, state.block ≠ .static n
  stageMatrix : arrays g.stageMatrixName = some ⟨.static g.stageMatrixName, 0, g.stages * g.stages⟩
  weights : arrays g.weightsName = some ⟨.static g.weightsName, 0, g.stages⟩
  point : size .workspace "rk_xxx" = b.length
  stage : size .workspace "rk_kkk" = g.stages * b.integratedLength
  time : size .workspace "rk_ttt" = 1

variable {R : Type}

/-- A coefficient of the scheme, as it stands in memory. -/
def storedCoefficient (g : Integrator) (m : Memory R) (s t : ℕ) : R :=
  m.reals (.static g.stageMatrixName) (s * g.stages + t)

/-- A weight of the scheme, as it stands in memory. -/
def storedWeight (g : Integrator) (m : Memory R) (s : ℕ) : R := m.reals (.static g.weightsName) s

/-- An entry of the augmented state. -/
def etaAt (state : View) (m : Memory R) (i : ℕ) : R := m.reals state.block (state.first + i)

/-- The states of the augmented state. -/
def statesAt (b : Binding) (state : View) (m : Memory R) (j : Fin b.states) : R := etaAt state m j

/-- The inputs of the augmented state. -/
def inputsAt (b : Binding) (state : View) (m : Memory R) (j : Fin b.inputs) : R := etaAt state m (b.input j)

/-- An entry of a stage. -/
def stageAt (b : Binding) (m : Memory R) (t i : ℕ) : R := m.reals stageBlock (t * b.integratedLength + i)

/-- An entry of the point of a stage, from so many stages. -/
def stagePointAt [Arithmetic R] (g : Integrator) (b : Binding) (state : View) (m : Memory R) (x : R) (s count i : ℕ) : R :=
  weighted x (storedCoefficient g m s) (fun t => stageAt b m t i) (etaAt state m i) count

/-- An entry of the augmented state after a step. -/
def advancedAt [Arithmetic R] (g : Integrator) (b : Binding) (state : View) (m : Memory R) (x : R) (i : ℕ) : R :=
  weighted x (storedWeight g m) (fun s => stageAt b m s i) (etaAt state m i) g.stages

variable {g : Integrator} {b : Binding} {size : Struct → String → ℕ} {state : View} {arrays : String → Option View}

namespace Arrays

variable (h : Arrays g b size state arrays)
include h

theorem integrated_pos : 0 < b.integratedLength :=
  Nat.mul_pos h.states (Nat.lt_of_lt_of_le Nat.one_pos (Nat.le_add_right _ _ |>.trans (Nat.le_add_right _ _)))

theorem ne_point : state.block ≠ pointBlock := fun heq => h.outside (by simp [heq, workBlocks])

theorem ne_stage : state.block ≠ stageBlock := fun heq => h.outside (by simp [heq, workBlocks])

theorem ne_time : state.block ≠ timeBlock := fun heq => h.outside (by simp [heq, workBlocks])

theorem integrated_le : b.integratedLength ≤ state.length := by
  rw [h.length, b.length_eq]
  exact Nat.le_add_right _ _

theorem view_eta : viewOf size arrays Integrator.eta = some state := h.eta

theorem view_point : viewOf size arrays Integrator.point = some ⟨pointBlock, 0, b.length⟩ := by
  rw [← h.point]
  rfl

theorem view_stage : viewOf size arrays Integrator.stage = some ⟨stageBlock, 0, g.stages * b.integratedLength⟩ := by
  rw [← h.stage]
  rfl

end Arrays

/-! ## The model -/

section Model

/-- Calls of a function of the model write so many elements. -/
def Writes (call : List Value → Memory R → Except Fault (Answer R × Memory R)) (reads writes : ℕ)
    (f : Memory R → View → ℕ → R) : Prop :=
  ∀ v w m, reads ≤ v.length → writes ≤ w.length →
    call [.array v, .array w] m = .ok (.nothing, { m.fill w.block w.first writes (f m v) with clock := m.clock + 1 })

/-- What a function of the model writes that reads the states with their sensitivities, and the inputs. -/
def Binding.model [Arithmetic R] (b : Binding) {outputs : ℕ}
    (F : (Fin b.integratedLength → R) → (Fin b.inputs → R) → Fin outputs → R) (m : Memory R) (v : View) (i : ℕ) : R :=
  if h : i < outputs then
    F (fun j => m.reals v.block (v.first + j)) (fun j => m.reals v.block (v.first + b.input j)) ⟨i, h⟩
  else Arithmetic.ofNat 0

end Model

/-! ## Parts of a step -/

section Parts

variable [Arithmetic R] {E : Fault → Prop} {ctx : Context R} {D : Answer R → Memory R → Prop}
  {reals : String → Option R} {m : Memory R} {τ : State R} {ρ : Known} {x : R}

/-- A weighted entry of a stage. -/
theorem eval_product (hA : Arrays g b ctx.size state arrays) (h : Holding arrays reals m τ) (hρ : ρ.Of τ.ints)
    (hx : reals "h" = some x) {coefficients : Ref} {index row col : IntExpr} {v : View} {k t i : ℕ}
    (hv : viewOf ctx.size arrays coefficients = some v) (hindex : index.Counts ρ k) (hk : k < v.length)
    (hrow : row.Counts ρ t) (hcol : col.Counts ρ i) (ht : t < g.stages) (hi : i < b.integratedLength) :
    (RealExpr.mul (.mul (.var "h") (.elem coefficients index)) (.elem stage (row * .lit b.integratedLength + col))).eval
      ctx.size τ = .ok (Arithmetic.mul (Arithmetic.mul x (m.reals v.block (v.first + k))) (stageAt b m t i)) := by
  have hentry := h.eval_elem hρ hA.view_stage ((hrow.mul (counts_lit _)).add hcol) (row_index_lt ht hi)
  rw [Nat.zero_add] at hentry
  exact RealExpr.eval_mul (RealExpr.eval_mul (RealExpr.eval_var (by rw [h.reals]; exact hx)) (h.eval_elem hρ hv hindex hk)) hentry

variable (hA : Arrays g b ctx.size state arrays) (h : Holding arrays reals m τ) (hρ : ρ.Of τ.ints)
include hA h hρ

/-- The point of a stage: the state and the weighted stages before it. -/
theorem stagePoint_exact (hx : reals "h" = some x) {count : IntExpr} {c k : ℕ}
    (hcount : ∀ ρ', ρ.Keeps ρ' ["i", "t"] → count.Counts ρ' c) (hc : c ≤ g.stages) (hs : (var "s").Counts ρ k)
    (hk : k < g.stages) :
    Runs E ctx (stagePoint g b count) τ (fun τ' => (ρ.forget ["i", "t"]).Of τ'.ints ∧ Holding arrays reals
      (m.fill pointBlock 0 b.integratedLength (stagePointAt g b state m x k c)) τ') D := by
  have hlen := b.length_eq
  have hstate := hA.ne_point
  have hcoefficient : viewOf ctx.size arrays g.stageMatrix =
      some ⟨.static g.stageMatrixName, 0, g.stages * g.stages⟩ := hA.stageMatrix
  refine Runs.each_round h hρ (by simp) fun i ρi τi hi hki hci hρi hτi => ?_
  have hpoint : i < b.length := by omega
  have heta := hτi.eval_elem hρi hA.view_eta hci (Nat.lt_of_lt_of_le hi hA.integrated_le)
  rw [Memory.reals_fill_of_ne hstate] at heta
  refine Runs.seq (Runs.assignHolding hτi hρi heta hA.view_point hci hpoint) fun τ₁ h₁ => ?_
  obtain ⟨hρ₁, h₁⟩ := h₁
  refine (Runs.accumulate (x := x) (a := storedCoefficient g m k) (z := fun t => stageAt b m t i) h₁ hρ₁
    (fun ρ' hk' => hcount ρ' (hki.trans hk' (by simp))) hA.view_point (fun ρ' hk' => hk'.counts (by simp) hci) hpoint
    fun t ρt τt y ht hkt hct hρt hτt => ?_).mono (fun τ' h' => ?_) fun _ _ h => h
  · have hst := hkt.counts (by simp) (hki.counts (by simp) hs)
    have hit := hkt.counts (by simp) hci
    have hts := Nat.lt_of_lt_of_le ht hc
    have hproduct := eval_product hA hτt hρt hx hcoefficient ((hst.mul (counts_lit _)).add hct) (row_index_lt hk hts) hct hit
      hts hi
    have hne : stageBlock ≠ pointBlock := by decide
    rw [stageAt, Memory.reals_setReal_of_ne Block.noConfusion, Memory.reals_setReal_of_ne Block.noConfusion,
      Memory.reals_fill_of_ne Block.noConfusion, Memory.reals_setReal_of_ne hne, Memory.reals_setReal_of_ne hne,
      Memory.reals_fill_of_ne hne, Nat.zero_add] at hproduct
    exact hproduct
  · rw [Memory.reals_setReal_self, Memory.setReal_setReal] at h'
    exact h'

/-- The model is evaluated at the point, for one stage. -/
theorem evaluateAt_exact {target : Ref} {w : View} {k : ℕ} {f : Memory R → View → ℕ → R}
    (hrhs : Writes (ctx.call b.rhs) b.length b.integratedLength f) (hw : viewOf ctx.size arrays target = some w)
    (hlen : g.stages * b.integratedLength ≤ w.length) (hs : (var "s").Counts ρ k) (hk : k < g.stages) :
    Runs E ctx (evaluateAt b target) τ (fun τ' => ρ.Of τ'.ints ∧ Holding arrays reals
      { m.fill w.block (w.first + k * b.integratedLength) b.integratedLength (f m ⟨pointBlock, 0, b.length⟩) with
        clock := m.clock + 1 } τ') D := by
  have hroom := row_end_le b.integratedLength hk
  have hat : (var "s" * .lit b.integratedLength).eval ctx.size τ = .ok ((k * b.integratedLength : ℕ) : ℤ) :=
    (hs.mul (counts_lit b.integratedLength)).eval hρ
  have hpos := hA.integrated_pos
  have hargs : [Arg.array point, .tail target (var "s" * .lit b.integratedLength)].mapM (Arg.eval ctx.size τ) =
      .ok [.array ⟨pointBlock, 0, b.length⟩,
        .array ⟨w.block, w.first + k * b.integratedLength, w.length - k * b.integratedLength⟩] := by
    have hview : viewOf ctx.size τ.arrays target = some w := by
      rw [h.arrays]
      exact hw
    have hfirst : (Arg.array point).eval ctx.size τ = .ok (.array ⟨pointBlock, 0, b.length⟩) := by
      rw [Arg.eval, h.arrays, hA.view_point]
      rfl
    have hsecond : (Arg.tail target (var "s" * .lit b.integratedLength)).eval ctx.size τ =
        .ok (.array ⟨w.block, w.first + k * b.integratedLength, w.length - k * b.integratedLength⟩) := by
      rw [Arg.eval, hat]
      change (do return Value.array (← τ.locate ctx.size target (k * b.integratedLength : ℕ))) = _
      rw [State.locate_of_viewOf hview (by omega)]
      rfl
    rw [List.mapM_cons, hfirst, List.mapM_cons, hsecond]
    rfl
  have hleft : b.integratedLength ≤ w.length - k * b.integratedLength := by omega
  have hcall := hrhs ⟨pointBlock, 0, b.length⟩
    ⟨w.block, w.first + k * b.integratedLength, w.length - k * b.integratedLength⟩ m (Nat.le_refl _) hleft
  have hruns := Runs.callHolding (E := E) (D := D)
    (c := ⟨b.rhs, [.array point, .tail target (.var "s" * .lit b.integratedLength)]⟩) h hρ hargs hcall
  exact hruns

/-- The state goes to the point of evaluation. -/
theorem copyState_exact :
    Runs E ctx (copyState b) τ (fun τ' => (ρ.forget ["i"]).Of τ'.ints ∧ Holding arrays reals
      (m.fill pointBlock 0 b.integratedLength (etaAt state m)) τ') D := by
  have hlen := b.length_eq
  have hstate := hA.ne_point
  have hle := hA.integrated_le
  have hcounts : ∀ j ρ', (var "i").Counts ρ' j → (var "i").Counts ρ' (0 + j) := fun j ρ' hj => by
    rw [Nat.zero_add]
    exact hj
  have hpoint : 0 + b.integratedLength ≤ b.length := by omega
  refine (Runs.each_copied h hρ hA.view_point hA.view_eta hstate hpoint (by omega) hcounts hcounts).mono
    (fun τ' h' => ?_) fun _ _ h => h
  simp only [Nat.zero_add] at h'
  exact h'

/-- The state moves on by the weighted stages, and so does the time. -/
theorem advance_exact (hx : reals "h" = some x) :
    Runs E ctx (advance g b) τ (fun τ' => (ρ.forget ["i", "s"]).Of τ'.ints ∧ ∃ r, Holding arrays reals
      ((m.fill state.block state.first b.integratedLength (advancedAt g b state m x)).setReal timeBlock 0 r) τ') D := by
  have hle := hA.integrated_le
  have hstage : stageBlock ≠ state.block := hA.ne_stage.symm
  have hstatic : ∀ n, Block.static n ≠ state.block := fun n => (hA.outside_static n).symm
  have hweights : viewOf ctx.size arrays g.weights = some ⟨.static g.weightsName, 0, g.stages⟩ := hA.weights
  have hstate : Runs E ctx
      (.each "i" b.integratedLength .hanging <| .each "s" g.stages .inline <|
        .assign (Integrator.eta.entry (var "i")) .add
          (.var "h" * .elem g.weights (var "s") * .elem stage (var "s" * .lit b.integratedLength + var "i")))
      τ (fun τ' => (ρ.forget ["i", "s"]).Of τ'.ints ∧ Holding arrays reals
        (m.fill state.block state.first b.integratedLength (advancedAt g b state m x)) τ') D := by
    refine Runs.each_round h hρ (by simp) fun i ρi τi hi hki hci hρi hτi => ?_
    refine (Runs.accumulate (x := x) (a := storedWeight g m) (z := fun s => stageAt b m s i) hτi hρi
      (fun ρ' _ => counts_lit g.stages) hA.view_eta (fun ρ' hk' => hk'.counts (by simp) hci) (Nat.lt_of_lt_of_le hi hle)
      fun s ρs τs y hs hks hcs hρs hτs => ?_).mono (fun τ' h' => ?_) fun _ _ h => h
    · have his := hks.counts (by simp) hci
      have hproduct := eval_product hA hτs hρs hx hweights hcs hs hcs his hs hi
      rw [stageAt, Memory.reals_setReal_of_ne (hstatic _), Memory.reals_fill_of_ne (hstatic _),
        Memory.reals_setReal_of_ne hstage, Memory.reals_fill_of_ne hstage, Nat.zero_add] at hproduct
      exact hproduct
    · rw [Memory.reals_fill_of_outside (.inr (Nat.le_refl _))] at h'
      exact h'
  refine Runs.seq hstate fun τ₁ h₁ => ?_
  exact (Runs.assignMember h₁.2 h₁.1 rfl (by rw [hA.time]; exact Nat.one_pos)).mono (fun τ' h' => ⟨h'.1, _, h'.2⟩)
    fun _ _ h => h

end Parts

end ControlCodegen.Integrator
