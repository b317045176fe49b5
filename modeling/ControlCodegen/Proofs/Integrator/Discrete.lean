import ControlCodegen.Proofs.Integrator.Steps

/-!
# `Integrator.Discrete`: maps in discrete time

* `discretePrologue_exact` : the function begins with the augmented state as it is, sensitivities included.
* `discreteStep_exact` : the integrated part is replaced by what the model makes of it.
* `discrete_exact` : a call does that once and always succeeds.

The arithmetic may be any.
-/

namespace ControlCodegen.Integrator

open C C.IntExpr

set_option autoImplicit false

variable {R : Type} [Arithmetic R] {E : Fault → Prop} {ctx : Context R} {D : Answer R → Memory R → Prop} {g : Integrator}
  {b : Binding} {state : View} {arrays : String → Option View} {reals : String → Option R} {before m : Memory R}
  {τ : State R} {ρ : Known} {y : Fin b.integratedLength → R}
  {F : (Fin b.integratedLength → R) → (Fin b.inputs → R) → Fin b.integratedLength → R}

/-- Nothing is seeded: the function begins with all that the caller has left in the augmented state. -/
theorem discretePrologue_exact (hd : b.discretized = true) (hA : Arrays g b ctx.size state τ.arrays) :
    Runs E ctx (prologue g b) τ (fun τ' => τ'.ints "error" = some 0 ∧
      ∃ m', Holding τ.arrays τ.reals m' τ' ∧ Progress g b state τ.memory (fun i => etaAt state τ.memory i) m') D := by
  unfold prologue
  rw [hd]
  have hρ : (Known.none.set "error" (some 0)).Of (τ.setInt "error" 0).ints := (Known.of_none τ.ints).setInt "error" 0
  have hstart : Holding τ.arrays τ.reals τ.memory (τ.setInt "error" 0) := ⟨rfl, rfl, rfl⟩
  refine Runs.block_cons (.next rfl rfl) fun τ₁ h₁ => Runs.block_cons (.next rfl rfl) fun τ₂ h₂ => ?_
  subst h₁ h₂
  refine Runs.block_cons (.next rfl rfl) fun τ₃ h₃ => ?_
  subst h₃
  refine Runs.block_cons (Runs.assignMember hstart hρ rfl (by rw [hA.time]; exact Nat.one_pos)) fun τ₄ h₄ => ?_
  refine (copyInputs_exact hA h₄.2 h₄.1).mono (fun τ₅ h₅ => ⟨?_, _, h₅.2, ?_⟩) fun _ _ h => h
  · exact h₅.1.value (Option.join_eq_some_iff.1
      ((Known.Keeps.forget _ ["i"]).counts (by simp) (counts_set_self Known.none "error" 0)))
  · refine .of_inputs hA.outside (fun i => ?_) (fun i _ => ?_) fun B hB _ => ?_
    · rw [etaAt, Memory.reals_setReal_of_ne hA.ne_time]
      rfl
    · rw [Memory.reals_setReal_of_ne hA.ne_time]
    · rw [Memory.reals_setReal_of_ne fun heq => hB (by simp [heq, workBlocks])]

/-- The integrated part is replaced by what the model makes of it. -/
theorem discreteStep_exact (hA : Arrays g b ctx.size state arrays)
    (hrhs : Writes (ctx.call b.rhs) b.length b.integratedLength (b.model F)) (h : Holding arrays reals m τ)
    (hρ : ρ.Of τ.ints) (hp : Progress g b state before y m) :
    Runs E ctx (discreteStep b) τ (fun τ' => (ρ.forget ["i"]).Of τ'.ints ∧
      ∃ m', Holding arrays reals m' τ' ∧ Progress g b state before (F y (inputsAt b state before)) m') D := by
  have hstage : b.integratedLength ≤ g.stages * b.integratedLength := Nat.le_mul_of_pos_left _ (stages_pos g.scheme)
  unfold discreteStep
  refine Runs.block_cons (copyState_exact hA h hρ) fun τ₁ h₁ => ?_
  obtain ⟨hρ₁, h₁⟩ := h₁
  let m₁ := m.fill pointBlock 0 b.integratedLength (etaAt state m)
  have hp₁ : Progress g b state before y m₁ := hp.fill_point hA.outside
  have hargs : [Arg.array point, .array stage].mapM (Arg.eval ctx.size τ₁) =
      .ok [.array ⟨pointBlock, 0, b.length⟩, .array ⟨stageBlock, 0, g.stages * b.integratedLength⟩] := by
    rw [List.mapM_cons, Arg.eval, h₁.arrays, hA.view_point, List.mapM_cons, Arg.eval, h₁.arrays, hA.view_stage]
    rfl
  refine Runs.block_cons (Runs.callHolding h₁ hρ₁ hargs (hrhs _ _ m₁ (Nat.le_refl _) hstage)) fun τ₂ h₂ => ?_
  obtain ⟨hρ₂, h₂⟩ := h₂
  let m₂ : Memory R := { m₁.fill stageBlock 0 b.integratedLength (b.model F m₁ ⟨pointBlock, 0, b.length⟩) with
    clock := m₁.clock + 1 }
  have hp₂ : Progress g b state before y m₂ := (hp₁.fill hA.outside (by simp [workBlocks]) (by decide)).tick
  have hvalue : ∀ i : Fin b.integratedLength, m₂.reals stageBlock i = F y (inputsAt b state before) i := fun i =>
    (Memory.reals_fill_zero i.2).trans
      (hp₁.model_point (fun i => (Memory.reals_fill_zero i.2).trans (hp.integrated i)) i)
  have hcounts : ∀ j ρ', (var "i").Counts ρ' j → (var "i").Counts ρ' (0 + j) := fun j ρ' hj => by
    rw [Nat.zero_add]
    exact hj
  refine Runs.block_cons (Runs.each_copied h₂ hρ₂ hA.view_eta hA.view_stage hA.ne_stage.symm
    (by rw [Nat.zero_add]; exact hA.integrated_le) (by rw [Nat.zero_add]; exact hstage) hcounts hcounts) fun τ₃ h₃ => ?_
  obtain ⟨hρ₃, h₃⟩ := h₃
  refine (Runs.assignMember h₃ hρ₃ rfl (by rw [hA.time]; exact Nat.one_pos)).mono (fun τ₄ h₄ => ⟨?_, _, h₄.2, ?_⟩)
    fun _ _ h => h
  · exact h₄.1.mono ((Known.Keeps.forget ρ ["i"]).trans (.forget _ ["i"]) (by simp))
  · have hadvanced : (fun i : Fin b.integratedLength => m₂.reals stageBlock (0 + (0 + (i : ℕ)))) =
        F y (inputsAt b state before) := funext fun i => by
      rw [Nat.zero_add, Nat.zero_add]
      exact hvalue i
    rw [← hadvanced]
    exact hp₂.advance (f := fun j => m₂.reals stageBlock (0 + (0 + j))) hA.outside

/-- A call applies the model once, to all that stands in the integrated part, and succeeds. -/
theorem discrete_exact (hd : b.discretized = true) {file : Statics R} (hA : Arrays g b ctx.size state (seen file state))
    (hrhs : Writes (ctx.call b.rhs) b.length b.integratedLength (b.model F)) (reset : ℤ) (interval : ℕ) :
    Meets (fun _ => False) ((function g b).invoke ctx file (b.arguments state reset interval) m) fun r =>
      r.1 = .int 0 ∧ Progress g b state m (F (fun i => etaAt state m i) (inputsAt b state m)) r.2 := by
  obtain ⟨s, hs, harrays, hreals, rfl, -⟩ := exists_bound g b file state reset interval m
  refine Function.meets_invoke hs ?_
  rw [← harrays] at hA
  unfold function
  refine Runs.block_cons (discretePrologue_exact hd hA) fun τ₁ h₁ => ?_
  obtain ⟨hstatus, m₁, h₁, hp₁⟩ := h₁
  have hstep : Runs (fun _ => False) ctx (steps g b) τ₁ (fun τ' => τ'.ints "error" = some 0 ∧ ∃ m', Holding s.arrays s.reals m' τ' ∧
      Progress g b state s.memory (F (fun i => etaAt state s.memory i) (inputsAt b state s.memory)) m') fun a m' =>
      a = .int 0 ∧ Progress g b state s.memory (F (fun i => etaAt state s.memory i) (inputsAt b state s.memory)) m' := by
    unfold steps
    rw [hd]
    refine (discreteStep_exact hA hrhs h₁ ((Known.of_none τ₁.ints).learn hstatus) hp₁).mono (fun τ' h' => ⟨?_, h'.2⟩)
      fun _ _ h => h
    exact h'.1.value (by simp [Known.forget, Known.set])
  refine Runs.block_cons hstep fun τ₂ h₂ => ?_
  obtain ⟨hstatus₂, m₂, h₂, hp₂⟩ := h₂
  refine Runs.returnInt (IntExpr.eval_var hstatus₂) ⟨rfl, ?_⟩
  rw [h₂.memory]
  exact hp₂

end ControlCodegen.Integrator
