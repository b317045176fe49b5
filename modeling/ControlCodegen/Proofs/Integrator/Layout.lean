import ControlCodegen.Proofs.C.Fill
import ControlCodegen.Proofs.Integrator.Bounds

/-!
# `Integrator.Layout`: where the augmented state has what

* `Binding.stateSensitivity`, `controlSensitivity`, `input` : the elements of the augmented state behind the states.
* `Seeded` : the sensitivities of a state to the initial state are those of the identity, those to the controls are zero.
* `prologue_runs` : the generated function starts from there, and copies the inputs to the point of evaluation.

Rows of sensitivities belong to all states that are integrated, algebraic ones among them; columns belong to the states
whose initial value is free.
-/

namespace ControlCodegen.Integrator

open C C.IntExpr C.Stmt

set_option autoImplicit false

/-- The sensitivity of a state to an initial state. -/
def Binding.stateSensitivity (b : Binding) (r c : Nat) : Nat := b.states + r * b.dims.nx + c

/-- The sensitivity of a state to a control. -/
def Binding.controlSensitivity (b : Binding) (r c : Nat) : Nat := b.states + b.states * b.dims.nx + r * b.dims.nu + c

/-- An input: the controls, then the online data. -/
def Binding.input (b : Binding) (j : Nat) : Nat := b.integratedLength + j

section Places

variable {b : Binding} {r c r' c' : Nat}

/-- Entries of a matrix that is stored by rows are at different places. -/
theorem row_index_inj {cols r c r' c' : Nat} (hc : c < cols) (hc' : c' < cols) (h : r * cols + c = r' * cols + c') :
    r = r' ∧ c = c' := by
  have hr : r = r' := by
    rcases Nat.lt_trichotomy r r' with hlt | heq | hgt
    · have hrow := row_index_lt hlt hc
      omega
    · exact heq
    · have hrow := row_index_lt hgt hc'
      omega
  subst hr
  exact ⟨rfl, by omega⟩

theorem Binding.stateSensitivity_inj (hc : c < b.dims.nx) (hc' : c' < b.dims.nx)
    (h : b.stateSensitivity r c = b.stateSensitivity r' c') : r = r' ∧ c = c' := by
  unfold stateSensitivity at h
  exact row_index_inj hc hc' (by omega)

theorem Binding.stateSensitivity_lt (hr : r < b.states) (hc : c < b.dims.nx) :
    b.stateSensitivity r c < b.states + b.states * b.dims.nx := by
  have hrow := row_index_lt hr hc
  unfold stateSensitivity
  omega

theorem Binding.controlSensitivity_lt (hr : r < b.states) (hc : c < b.dims.nu) :
    b.controlSensitivity r c < b.integratedLength := by
  have hrow := row_index_lt hr hc
  rw [b.integratedLength_eq]
  unfold controlSensitivity
  omega

end Places

section Seeds

variable {R : Type} [Arithmetic R]

/-- The start of the sensitivities, with so many ones on the diagonal so far. The states and the inputs are as before. -/
structure Seeded (b : Binding) (v : View) (ones : Nat) (before m : Memory R) : Prop where
  states : ∀ j < b.states, m.reals v.block (v.first + j) = before.reals v.block (v.first + j)
  toStates : ∀ r < b.states, ∀ c < b.dims.nx,
    m.reals v.block (v.first + b.stateSensitivity r c) = Arithmetic.ofNat (if r = c ∧ r < ones then 1 else 0)
  toControls : ∀ r < b.states, ∀ c < b.dims.nu, m.reals v.block (v.first + b.controlSensitivity r c) = Arithmetic.ofNat 0
  inputs : ∀ j < b.inputs, m.reals v.block (v.first + b.input j) = before.reals v.block (v.first + b.input j)

variable {b : Binding} {v : View} {before m : Memory R}

/-- All sensitivities are zero at first. -/
theorem Seeded.zero :
    Seeded b v 0 m (m.fill v.block (v.first + b.states) (b.integratedLength - b.states) fun _ => Arithmetic.ofNat 0) := by
  have hlength := b.integratedLength_eq
  have hzero : ∀ i, b.states ≤ i → i < b.integratedLength →
      (m.fill v.block (v.first + b.states) (b.integratedLength - b.states) fun _ => Arithmetic.ofNat 0).reals v.block
        (v.first + i) = Arithmetic.ofNat 0 := by
    intro i hi hlt
    have hat : v.first + i = v.first + b.states + (i - b.states) := by omega
    rw [hat, Memory.reals_fill (by omega)]
  refine ⟨fun j hj => ?_, fun r hr c hc => ?_, fun r hr c hc => ?_, fun j _ => ?_⟩
  · exact Memory.reals_fill_of_outside (.inl (by omega))
  · have hlt := Binding.stateSensitivity_lt hr hc
    rw [if_neg fun h => Nat.not_lt_zero r h.2]
    refine hzero _ ?_ (by omega)
    unfold Binding.stateSensitivity
    omega
  · refine hzero _ ?_ (Binding.controlSensitivity_lt hr hc)
    unfold Binding.controlSensitivity
    omega
  · unfold Binding.input
    exact Memory.reals_fill_of_outside (.inr (by omega))

/-- The next one on the diagonal. -/
theorem Seeded.succ {n : Nat} (h : Seeded b v n before m) (hn : n < b.dims.nx) :
    Seeded b v (n + 1) before (m.setReal v.block (v.first + b.stateSensitivity n n) (Arithmetic.ofNat 1)) := by
  have hstates : n < b.states := Nat.lt_of_lt_of_le hn (Nat.le_add_right _ _)
  have hlt := Binding.stateSensitivity_lt hstates hn
  have hle : b.states ≤ b.stateSensitivity n n := by
    unfold Binding.stateSensitivity
    omega
  have hlength := b.integratedLength_eq
  have hother : ∀ i, i ≠ b.stateSensitivity n n →
      (m.setReal v.block (v.first + b.stateSensitivity n n) (Arithmetic.ofNat 1)).reals v.block (v.first + i) =
        m.reals v.block (v.first + i) := fun i hi => if_neg fun heq => hi (Nat.add_left_cancel heq.2)
  refine ⟨fun j hj => ?_, fun r hr c hc => ?_, fun r hr c hc => ?_, fun j hj => ?_⟩
  · rw [hother j (by omega), h.states j hj]
  · by_cases hat : b.stateSensitivity r c = b.stateSensitivity n n
    · obtain ⟨rfl, rfl⟩ := Binding.stateSensitivity_inj hc hn hat
      rw [if_pos ⟨rfl, Nat.lt_succ_self _⟩]
      exact if_pos ⟨rfl, rfl⟩
    · rw [hother _ hat, h.toStates r hr c hc]
      have hiff : (r = c ∧ r < n) ↔ (r = c ∧ r < n + 1) := by
        refine ⟨fun h => ⟨h.1, by omega⟩, fun h => ⟨h.1, ?_⟩⟩
        have hne : r ≠ n := by
          rintro rfl
          exact hat (by rw [h.1])
        omega
      simp only [hiff]
  · rw [hother _ ?_, h.toControls r hr c hc]
    unfold Binding.controlSensitivity
    omega
  · rw [hother _ ?_, h.inputs j hj]
    unfold Binding.input
    omega

end Seeds

/-! ## The start of the function -/

section Prologue

variable {R : Type} [Arithmetic R] {E : Fault → Prop} {ctx : Context R} {g : Integrator} {b : Binding} {v : View}
  {m : Memory R} {τ : State R} {D : Answer R → Memory R → Prop}

/-- The seeds are sown in the array of the augmented state and nowhere else. -/
theorem seedSensitivities_runs (hv : τ.arrays "rk_eta" = some v) (hlen : b.length ≤ v.length) (hm : τ.memory = m) :
    Runs E ctx (seedSensitivities b) τ
      (fun τ' => τ'.arrays = τ.arrays ∧ Seeded b v b.dims.nx m τ'.memory) D := by
  have hlength := b.length_eq
  have hsplit := b.integratedLength_eq
  have hview : viewOf ctx.size τ.arrays eta = some v := hv
  subst hm
  have hzeros : Runs E ctx (.each "i" (b.integratedLength - b.states : Nat) .inline
      (.assign (eta.entry (.lit b.states + .var "i")) .set (.whole 0))) τ
      (fun τ' => τ'.arrays = τ.arrays ∧ Seeded b v 0 τ.memory τ'.memory) D := by
    refine Runs.each_fill (f := fun _ => Arithmetic.ofNat 0) (Known.of_none τ.ints) hview (by omega) (fun j _ => ?_)
      (fun j _ => rfl) ⟨rfl, Seeded.zero⟩
    exact (counts_lit _).add (counts_set_self _ "i" j)
  unfold seedSensitivities
  refine Runs.seq hzeros fun τ₁ hnext => ?_
  obtain ⟨ha, hs⟩ := hnext
  · refine Runs.countUp (a := 0) (b := b.dims.nx) (fun k τ' => ∃ n : Nat, k = n ∧ τ'.ints "i" = some k ∧
      τ'.arrays = τ.arrays ∧ Seeded b v n τ.memory τ'.memory) rfl (fun _ _ _ => rfl) ?_ ?_ ?_ ?_
    · exact ⟨0, rfl, State.ints_setInt_self _ _ _, ha, hs⟩
    · rintro k τ' ⟨n, rfl, hi, -⟩
      exact hi
    · rintro k τ' - hk ⟨n, rfl, hi, ha, hs⟩
      have hn : n < b.dims.nx := Int.ofNat_lt.1 hk
      have hat : (IntExpr.lit b.states + .var "i" * .lit b.dims.nx + .var "i").eval ctx.size τ' =
          .ok ((b.stateSensitivity n n : Nat) : Int) := by
        have hρ : (Known.none.set "i" (some (n : Int))).Of τ'.ints := Known.of_single hi
        exact (((counts_lit _).add ((counts_set_self _ "i" n).mul (counts_lit _))).add (counts_set_self _ "i" n)).eval hρ
      have hstates : n < b.states := Nat.lt_of_lt_of_le hn (Nat.le_add_right _ _)
      have hlt := Binding.stateSensitivity_lt hstates hn
      refine Runs.assignEntry (r := Arithmetic.ofNat 1) rfl (by rw [ha]; exact hview) hat (by omega) ?_
      exact ⟨hi, n + 1, rfl, State.ints_setInt_self _ _ _, ha, hs.succ hn⟩
    · rintro τ' ⟨n, hn, -, ha, hs⟩
      have hall : n = b.dims.nx := by omega
      subst hall
      exact ⟨ha, hs⟩

/-- Seeds are about the array of the augmented state alone. -/
theorem Seeded.congr {n : Nat} {before before' m m' : Memory R} (h : Seeded b v n before m)
    (hbefore : before'.reals v.block = before.reals v.block) (hm : m'.reals v.block = m.reals v.block) :
    Seeded b v n before' m' := by
  refine ⟨fun j hj => ?_, fun r hr c hc => ?_, fun r hr c hc => ?_, fun j hj => ?_⟩
  · rw [hm, hbefore, h.states j hj]
  · rw [hm, h.toStates r hr c hc]
  · rw [hm, h.toControls r hr c hc]
  · rw [hm, hbefore, h.inputs j hj]

/-- The inputs are copied to the point of evaluation. -/
theorem copyInputs_runs (hv : τ.arrays "rk_eta" = some v) (hlen : b.length ≤ v.length)
    (hroom : b.length ≤ ctx.size .workspace "rk_xxx") (hne : v.block ≠ .member .workspace "rk_xxx") :
    Runs E ctx (copyInputs b) τ
      (fun τ' => τ'.memory.reals v.block = τ.memory.reals v.block ∧ ∀ j < b.inputs,
        τ'.memory.reals (.member .workspace "rk_xxx") (b.input j) = τ.memory.reals v.block (v.first + b.input j)) D := by
  have hlength := b.length_eq
  have hview : viewOf ctx.size τ.arrays eta = some v := hv
  have hat : ∀ j < b.inputs, (IntExpr.lit b.integratedLength + .var "i").Counts (Known.none.set "i" (some (j : Int)))
      (b.integratedLength + j) := fun j _ => (counts_lit _).add (counts_set_self _ "i" j)
  unfold copyInputs
  refine Runs.each_copy (Known.of_none τ.ints) rfl hview hne (by dsimp only; omega) (by omega) hat hat ⟨?_, fun j hj => ?_⟩
  · rw [State.memory_setInt, State.memory_withMemory]
    exact Memory.reals_fill_of_ne hne
  · rw [State.memory_setInt, State.memory_withMemory, Nat.zero_add, Binding.input, Memory.reals_fill hj]

/-- The function starts with the seeds, and with the inputs at the point of evaluation. -/
theorem prologue_runs {S : Scope} {K : List String} {ρ : Known} (hd : b.discretized = false) (hsize : ctx.size = S.size)
    (hstep : StepReadable g b S K ρ) (hs : Fits S (fun _ => True) K ρ τ) (hv : S.arrays "rk_eta" = some v)
    (hlen : b.length ≤ v.length) (hxxx : b.length ≤ S.size .workspace "rk_xxx") (httt : 0 < S.size .workspace "rk_ttt")
    (hpoint : v.block ≠ .member .workspace "rk_xxx") (htime : v.block ≠ .member .workspace "rk_ttt") :
    Runs E ctx (prologue g b) τ (fun τ' => Seeded b v b.dims.nx τ.memory τ'.memory ∧ ∀ j < b.inputs,
      τ'.memory.reals (.member .workspace "rk_xxx") (b.input j) = τ.memory.reals v.block (v.first + b.input j)) D := by
  have hroom : b.length ≤ ctx.size .workspace "rk_xxx" := by
    rw [hsize]
    exact hxxx
  unfold prologue
  rw [hd]
  refine Runs.block_cons (.next rfl rfl) fun τ₁ h₁ => Runs.block_cons (.next rfl rfl) fun τ₂ h₂ => ?_
  subst h₁ h₂
  have hs₂ : Fits S (fun _ => True) K (ρ.set "error" (some 0)) (τ.setInt "error" 0) := hs.setInt "error" (.inr rfl)
  have hstep₂ : StepReadable g b S K (ρ.set "error" (some 0)) :=
    hstep.keeps ((Known.Keeps.refl ρ ["error"]).set (List.mem_singleton_self _) _) (by decide)
  obtain ⟨r, hr⟩ := RealExpr.InBounds.eval hs₂ (stepSize_inBounds hstep₂)
  rw [← hsize] at hr
  let τ₂ := τ.setInt "error" 0
  have hdeclare : (Stmt.declareReal "h" (some (g.stepSize b))).exec ctx τ₂ = .ok (.next (τ₂.setReal "h" r)) := by
    rw [Stmt.exec, hr]
    rfl
  let m₁ := τ.memory.setReal (.member .workspace "rk_ttt") 0 (Arithmetic.ofNat 0)
  have hsettime : (Stmt.assign time.whole .set (.whole 0)).exec ctx (τ₂.setReal "h" r) =
      .ok (.next ((τ₂.setReal "h" r).withMemory m₁)) := by
    refine Stmt.exec_assign_member rfl ?_
    rw [hsize]
    exact httt
  refine Runs.block_cons (.next hdeclare rfl) fun τ₃ h₃ => Runs.block_cons (.next rfl rfl) fun τ₄ h₄ => ?_
  subst h₃ h₄
  refine Runs.block_cons (.next hsettime rfl) fun τ₅ h₅ => ?_
  subst h₅
  have hm₁ : m₁.reals v.block = τ.memory.reals v.block := by
    funext i
    exact if_neg fun h => htime h.1
  have harrays : τ.arrays "rk_eta" = some v := by
    rw [hs.arrays]
    exact hv
  refine Runs.block_cons (seedSensitivities_runs harrays hlen rfl) fun τ₆ hnext => ?_
  obtain ⟨ha, hseeds⟩ := hnext
  refine (copyInputs_runs (by rw [ha]; exact harrays) hlen hroom hpoint).mono (fun τ₇ hnext => ?_) fun _ _ h => h
  obtain ⟨hkeep, hinputs⟩ := hnext
  refine ⟨hseeds.congr hm₁.symm hkeep, fun j hj => ?_⟩
  rw [hinputs j hj, hseeds.inputs j hj, State.memory_withMemory, hm₁]

end Prologue

end ControlCodegen.Integrator
