import ControlCodegen.Proofs.Integrator.Stages

/-!
# `Integrator.Steps`: the generated function as a sequence of steps

* `start` : the integrated part of the augmented state before the first step.
* `Progress` : the integrated part between two steps; the inputs and all memory outside the integrator are as before the
  call.
* `prologue_exact` : the function begins with `start`.
* `Steps` : so many steps of a relation.
* `invoke_exact` : a call makes a step for each step of the interval, whatever one step is.
* `invoke_outside` : where there is no step size for the interval, a call ends in a fault.
-/

namespace ControlCodegen.Integrator

open C C.IntExpr

set_option autoImplicit false

variable {R : Type} {g : Integrator} {b : Binding} {state : View} {before m m' : Memory R}
  {y : Fin b.integratedLength → R}

/-! ## Memory between two steps -/

/-- Between two steps: the integrated part of the augmented state, and the inputs at the point of evaluation. The rest is as
before the call. -/
structure Progress (g : Integrator) (b : Binding) (state : View) (before : Memory R) (y : Fin b.integratedLength → R)
    (m : Memory R) : Prop where
  integrated : ∀ i : Fin b.integratedLength, etaAt state m i = y i
  inputs : ∀ j < b.inputs, m.reals pointBlock (b.input j) = etaAt state before (b.input j)
  rest : ∀ i, ¬(state.first ≤ i ∧ i < state.first + b.integratedLength) → m.reals state.block i = before.reals state.block i
  others : ∀ B, B ∉ workBlocks g b → B ≠ state.block → m.reals B = before.reals B

namespace Progress

/-- Writing to the arrays of the integrator is no progress, as long as the inputs stay at the point of evaluation. -/
theorem of_outside (h : Progress g b state before y m) (hstate : state.block ∉ workBlocks g b)
    (hpoint : ∀ j < b.inputs, m'.reals pointBlock (b.input j) = m.reals pointBlock (b.input j))
    (hothers : ∀ B, B ∉ workBlocks g b → m'.reals B = m.reals B) : Progress g b state before y m' := by
  refine ⟨fun i => ?_, fun j hj => (hpoint j hj).trans (h.inputs j hj), fun i hi => ?_, fun B hB hne => ?_⟩
  · rw [etaAt, hothers _ hstate]
    exact h.integrated i
  · rw [hothers _ hstate]
    exact h.rest i hi
  · rw [hothers B hB]
    exact h.others B hB hne

/-- The inputs go to the point of evaluation, and what is in the augmented state is where the first step starts. -/
theorem of_inputs (hstate : state.block ∉ workBlocks g b)
    (hintegrated : ∀ i : Fin b.integratedLength, etaAt state m i = y i)
    (hrest : ∀ i, ¬(state.first ≤ i ∧ i < state.first + b.integratedLength) →
      m.reals state.block i = before.reals state.block i)
    (hothers : ∀ B, B ∉ workBlocks g b → B ≠ state.block → m.reals B = before.reals B) :
    Progress g b state before y (m.fill pointBlock b.integratedLength b.inputs fun j => etaAt state m (b.input j)) := by
  have hpoint : state.block ≠ pointBlock := fun heq => hstate (by simp [heq, workBlocks])
  refine ⟨fun i => ?_, fun j hj => ?_, fun i hi => ?_, fun B hB hne => ?_⟩
  · rw [etaAt, Memory.reals_fill_of_ne hpoint]
    exact hintegrated i
  · rw [Binding.input, Memory.reals_fill hj]
    exact hrest _ (by unfold Binding.input; omega)
  · rw [Memory.reals_fill_of_ne hpoint]
    exact hrest i hi
  · rw [Memory.reals_fill_of_ne fun heq => hB (by simp [heq, workBlocks])]
    exact hothers B hB hne

theorem fill (h : Progress g b state before y m) (hstate : state.block ∉ workBlocks g b) {B : Block}
    (hB : B ∈ workBlocks g b) (hpoint : B ≠ pointBlock) {first n : ℕ} {f : ℕ → R} :
    Progress g b state before y (m.fill B first n f) := by
  refine h.of_outside hstate (fun j _ => ?_) fun B' hB' => Memory.reals_fill_of_ne ?_
  · rw [Memory.reals_fill_of_ne hpoint.symm]
  · rintro rfl
    exact hB' hB

theorem fill_point (h : Progress g b state before y m) (hstate : state.block ∉ workBlocks g b) {f : ℕ → R} :
    Progress g b state before y (m.fill pointBlock 0 b.integratedLength f) := by
  refine h.of_outside hstate (fun j _ => ?_) fun B' hB' => Memory.reals_fill_of_ne ?_
  · refine Memory.reals_fill_of_outside (.inr ?_)
    rw [Nat.zero_add]
    exact Nat.le_add_right _ _
  · rintro rfl
    exact hB' (by simp [workBlocks])

theorem tick (h : Progress g b state before y m) : Progress g b state before y { m with clock := m.clock + 1 } :=
  ⟨h.integrated, h.inputs, h.rest, h.others⟩

/-- The integrated part gets other values, and so does the time. -/
theorem advance (h : Progress g b state before y m) (hstate : state.block ∉ workBlocks g b) {f : ℕ → R} {r : R} :
    Progress g b state before (fun i => f i)
      ((m.fill state.block state.first b.integratedLength f).setReal timeBlock 0 r) := by
  have hpoint : pointBlock ≠ state.block := fun heq => hstate (by simp [← heq, workBlocks])
  have htime : state.block ≠ timeBlock := fun heq => hstate (by simp [heq, workBlocks])
  refine ⟨fun i => ?_, fun j hj => ?_, fun i hi => ?_, fun B hB hne => ?_⟩
  · rw [etaAt, Memory.reals_setReal_of_ne htime, Memory.reals_fill i.2]
  · rw [Memory.reals_setReal_of_ne (by decide), Memory.reals_fill_of_ne hpoint]
    exact h.inputs j hj
  · rw [Memory.reals_setReal_of_ne htime, Memory.reals_fill_of_outside (by omega)]
    exact h.rest i hi
  · have hne' : B ≠ timeBlock := fun heq => hB (by simp [heq, workBlocks])
    rw [Memory.reals_setReal_of_ne hne', Memory.reals_fill_of_ne hne]
    exact h.others B hB hne

/-- The scheme stands in memory as before the call. -/
theorem storedCoefficient (h : Progress g b state before y m) (hstate : ∀ n, state.block ≠ .static n) :
    storedCoefficient g m = storedCoefficient g before := by
  funext s t
  exact congrFun (h.others _ (static_notMem_workBlocks g b _) (hstate _).symm) _

theorem storedWeight (h : Progress g b state before y m) (hstate : ∀ n, state.block ≠ .static n) :
    storedWeight g m = storedWeight g before := by
  funext s
  exact congrFun (h.others _ (static_notMem_workBlocks g b _) (hstate _).symm) _

/-- The model at the point of evaluation sees that point and the inputs. -/
theorem model_point [Arithmetic R] {outputs : ℕ} {F : (Fin b.integratedLength → R) → (Fin b.inputs → R) → Fin outputs → R}
    {v : Fin b.integratedLength → R} (h : Progress g b state before y m)
    (hv : ∀ i : Fin b.integratedLength, m.reals pointBlock i = v i) (i : Fin outputs) :
    b.model F m ⟨pointBlock, 0, b.length⟩ i = F v (inputsAt b state before) i := by
  have hinputs : (fun j : Fin b.inputs => m.reals pointBlock (b.input j)) = inputsAt b state before :=
    funext fun j => h.inputs j j.2
  rw [Binding.model, dif_pos i.2]
  simp only [Nat.zero_add, hinputs, hv]

end Progress

/-! ## Rows in memory -/

section Rows

variable {K : ℕ → Fin b.integratedLength → R} {k : ℕ} {B : Block}

/-- So many rows stand in a block, one after the other. -/
def HasRows (b : Binding) (B : Block) (rows : ℕ) (K : ℕ → Fin b.integratedLength → R) (m : Memory R) : Prop :=
  ∀ s < rows, ∀ i : Fin b.integratedLength, m.reals B (s * b.integratedLength + i) = K s i

theorem HasRows.congr (h : HasRows b B k K m) (hm : m'.reals B = m.reals B) : HasRows b B k K m' := by
  intro s hs i
  rw [hm]
  exact h s hs i

/-- One more row is written. -/
theorem HasRows.fill (h : HasRows b B k K m) {f : ℕ → R} (hf : ∀ i : Fin b.integratedLength, f i = K k i) :
    HasRows b B (k + 1) K (m.fill B (k * b.integratedLength) b.integratedLength f) := by
  intro s hs i
  rcases Nat.lt_succ_iff_lt_or_eq.1 hs with hs | rfl
  · rw [Memory.reals_fill_of_outside (.inl (row_index_lt hs i.2))]
    exact h s hs i
  · rw [Memory.reals_fill i.2]
    exact hf i

/-- The point of a stage follows from the state and the stages that stand in memory, -/
theorem HasRows.point [Arithmetic R] {x : R} {s : ℕ} (h : HasRows b stageBlock k K m) (hp : Progress g b state before y m)
    (hstate : ∀ n, state.block ≠ .static n) (i : Fin b.integratedLength) :
    stagePointAt g b state m x s k i = weighted x (storedCoefficient g before s) (fun t => K t i) (y i) k := by
  rw [stagePointAt, hp.storedCoefficient hstate, hp.integrated i]
  exact weighted_congr (fun _ _ => rfl) fun t ht => h t ht i

/-- and so does the state after a step. -/
theorem HasRows.advanced [Arithmetic R] {x : R} (h : HasRows b stageBlock g.stages K m) (hp : Progress g b state before y m)
    (hstate : ∀ n, state.block ≠ .static n) (i : Fin b.integratedLength) :
    advancedAt g b state m x i = weighted x (storedWeight g before) (fun s => K s i) (y i) g.stages := by
  rw [advancedAt, hp.storedWeight hstate, hp.integrated i]
  exact weighted_congr (fun _ _ => rfl) fun t ht => h t ht i

end Rows

/-! ## The start -/

section Start

variable [Arithmetic R]

/-- The integrated part before the first step: the states, with the identity and zero as their sensitivities to the initial
states and to the controls. -/
def start (b : Binding) (x : Fin b.states → R) (i : Fin b.integratedLength) : R :=
  if h : i < b.states then x ⟨i, h⟩
  else Arithmetic.ofNat (if ∃ r < b.dims.nx, i = b.stateSensitivity r r then 1 else 0)

theorem start_stateSensitivity (x : Fin b.states → R) {r c : ℕ} (hr : r < b.states) (hc : c < b.dims.nx)
    (hi : b.stateSensitivity r c < b.integratedLength) :
    start b x ⟨b.stateSensitivity r c, hi⟩ = Arithmetic.ofNat (if r = c then 1 else 0) := by
  have hle : ¬b.stateSensitivity r c < b.states := by
    unfold Binding.stateSensitivity
    omega
  have hiff : (∃ r' < b.dims.nx, b.stateSensitivity r c = b.stateSensitivity r' r') ↔ r = c := by
    refine ⟨fun ⟨r', hr', heq⟩ => ?_, fun heq => ⟨c, hc, by rw [heq]⟩⟩
    obtain ⟨rfl, rfl⟩ := Binding.stateSensitivity_inj hc hr' heq
    rfl
  rw [start, dif_neg hle]
  simp only [hiff]

theorem start_controlSensitivity (x : Fin b.states → R) {r c : ℕ}
    (hi : b.controlSensitivity r c < b.integratedLength) :
    start b x ⟨b.controlSensitivity r c, hi⟩ = Arithmetic.ofNat 0 := by
  have hle : ¬b.controlSensitivity r c < b.states := by
    unfold Binding.controlSensitivity
    omega
  have hno : ¬∃ r' < b.dims.nx, b.controlSensitivity r c = b.stateSensitivity r' r' := by
    rintro ⟨r', hr', heq⟩
    have hlt := Binding.stateSensitivity_lt (Nat.lt_of_lt_of_le hr' (Nat.le_add_right _ _) : r' < b.states) hr'
    unfold Binding.controlSensitivity at heq
    omega
  rw [start, dif_neg hle, if_neg hno]

/-- The start of the sensitivities, with so many ones so far. The states are there, and nothing else has changed. -/
structure Sown (b : Binding) (state : View) (ones : ℕ) (before m : Memory R) : Prop where
  integrated : ∀ i < b.integratedLength, etaAt state m i =
    if i < b.states then etaAt state before i
    else Arithmetic.ofNat (if ∃ r < ones, i = b.stateSensitivity r r then 1 else 0)
  rest : ∀ i, ¬(state.first ≤ i ∧ i < state.first + b.integratedLength) → m.reals state.block i = before.reals state.block i
  others : ∀ B, B ≠ state.block → m.reals B = before.reals B

theorem Sown.zero : Sown b state 0 m
    (m.fill state.block (state.first + b.states) (b.integratedLength - b.states) fun _ => Arithmetic.ofNat 0) := by
  have hsplit := b.integratedLength_eq
  refine ⟨fun i hi => ?_, fun i hi => ?_, fun B hB => Memory.reals_fill_of_ne hB⟩
  · have hno : ¬∃ r < 0, i = b.stateSensitivity r r := fun ⟨r, hr, _⟩ => Nat.not_lt_zero r hr
    rw [if_neg hno]
    split_ifs with hstate
    · exact Memory.reals_fill_of_outside (.inl (by omega))
    · have hat : state.first + i = state.first + b.states + (i - b.states) := by omega
      rw [etaAt, hat, Memory.reals_fill (by omega)]
  · exact Memory.reals_fill_of_outside (by omega)

/-- The next one on the diagonal. -/
theorem Sown.succ {k : ℕ} (h : Sown b state k before m) (hk : k < b.dims.nx) :
    Sown b state (k + 1) before (m.setReal state.block (state.first + b.stateSensitivity k k) (Arithmetic.ofNat 1)) := by
  have hstates : k < b.states := Nat.lt_of_lt_of_le hk (Nat.le_add_right _ _)
  have hlt := Binding.stateSensitivity_lt hstates hk
  have hsplit := b.integratedLength_eq
  refine ⟨fun i hi => ?_, fun i hi => ?_, fun B hB => (Memory.reals_setReal_of_ne hB).trans (h.others B hB)⟩
  · by_cases hat : i = b.stateSensitivity k k
    · have hle : ¬i < b.states := by
        rw [hat, Binding.stateSensitivity]
        omega
      rw [if_neg hle, if_pos ⟨k, Nat.lt_succ_self k, hat⟩, etaAt, hat, Memory.reals_setReal_self]
    · have hsame : (∃ r < k + 1, i = b.stateSensitivity r r) ↔ ∃ r < k, i = b.stateSensitivity r r := by
        refine ⟨fun ⟨r, hr, heq⟩ => ⟨r, ?_, heq⟩, fun ⟨r, hr, heq⟩ => ⟨r, Nat.lt_succ_of_lt hr, heq⟩⟩
        refine Nat.lt_of_le_of_ne (Nat.le_of_lt_succ hr) ?_
        rintro rfl
        exact hat heq
      simp only [hsame]
      rw [← h.integrated i hi]
      exact if_neg fun heq => hat (Nat.add_left_cancel heq.2)
  · refine Eq.trans (if_neg ?_) (h.rest i hi)
    rintro ⟨-, rfl⟩
    exact hi ⟨Nat.le_add_right _ _, by omega⟩

variable {E : Fault → Prop} {ctx : Context R} {D : Answer R → Memory R → Prop} {arrays : String → Option View}
  {reals : String → Option R} {τ : State R} {ρ : Known}

theorem seedSensitivities_exact (hA : Arrays g b ctx.size state arrays) (h : Holding arrays reals m τ) (hρ : ρ.Of τ.ints) :
    Runs E ctx (seedSensitivities b) τ (fun τ' => (ρ.forget ["i"]).Of τ'.ints ∧
      ∃ m', Holding arrays reals m' τ' ∧ Sown b state b.dims.nx m m') D := by
  have hle := hA.integrated_le
  have hsplit := b.integratedLength_eq
  have hzeros : Runs E ctx (.each "i" (b.integratedLength - b.states : ℕ) .inline
      (.assign (Integrator.eta.entry (.lit b.states + .var "i")) .set (.whole 0))) τ
      (fun τ' => (ρ.forget ["i"]).Of τ'.ints ∧ Holding arrays reals
        (m.fill state.block (state.first + b.states) (b.integratedLength - b.states) fun _ => Arithmetic.ofNat 0) τ') D :=
    Runs.each_update h hρ hA.view_eta (by omega) (fun j ρ' _ _ hj => (counts_lit _).add hj) fun j ρ' τ' f _ _ _ _ _ => rfl
  unfold seedSensitivities
  refine Runs.seq hzeros fun τ₁ h₁ => ?_
  refine (Runs.each_known (fun k τ' => ∃ m', Holding arrays reals m' τ' ∧ Sown b state k m m') ?_ h₁.1
    (by simp : "i" ∉ []) ⟨_, h₁.2, .zero⟩ fun k ρ' τ' hk hr => ?_).mono
    (fun τ' h' => ⟨h'.1.mono ((Known.Keeps.forget ρ ["i"]).trans (.forget _ ["i"]) (by simp)), h'.2⟩) fun _ _ h => h
  · rintro k τ' v ⟨m', hm', hs⟩
    exact ⟨m', hm'.setInt "i" v, hs⟩
  · obtain ⟨m', hm', hs⟩ := hr.property
    have hstates : k < b.states := Nat.lt_of_lt_of_le hk (Nat.le_add_right _ _)
    have hlt : b.states + k * b.dims.nx + k < b.states + b.states * b.dims.nx := Binding.stateSensitivity_lt hstates hk
    exact (Runs.assignHolding (r := Arithmetic.ofNat 1) hm' hr.known rfl hA.view_eta
      (((counts_lit _).add (hr.count.mul (counts_lit _))).add hr.count) (by omega)).mono
      (fun τ₂ h₂ => ⟨h₂.1.forget _, _, h₂.2, hs.succ hk⟩) fun _ _ h => h

/-- The inputs are at the point of evaluation once. -/
theorem copyInputs_exact (hA : Arrays g b ctx.size state arrays) (h : Holding arrays reals m τ) (hρ : ρ.Of τ.ints) :
    Runs E ctx (copyInputs b) τ (fun τ' => (ρ.forget ["i"]).Of τ'.ints ∧ Holding arrays reals
      (m.fill pointBlock b.integratedLength b.inputs fun j => etaAt state m (b.input j)) τ') D := by
  have hlen := b.length_eq
  have heta := hA.length
  have hpoint : b.integratedLength + b.inputs ≤ b.length := by omega
  have hcounts : ∀ j ρ', (var "i").Counts ρ' j →
      (IntExpr.lit b.integratedLength + .var "i").Counts ρ' (b.integratedLength + j) := fun j ρ' hj => (counts_lit _).add hj
  refine (Runs.each_copied h hρ hA.view_point hA.view_eta hA.ne_point hpoint (by omega) hcounts hcounts).mono
    (fun τ' h' => ?_) fun _ _ h => h
  rw [Nat.zero_add] at h'
  exact h'

/-- What is sown, with the inputs at the point of evaluation and the time at zero, is where the first step starts. -/
theorem Sown.progress {r : R} (hstate : state.block ∉ workBlocks g b)
    (h : Sown b state b.dims.nx (before.setReal timeBlock 0 r) m) :
    Progress g b state before (start b (statesAt b state before))
      (m.fill pointBlock b.integratedLength b.inputs fun j => etaAt state m (b.input j)) := by
  have htime : state.block ≠ timeBlock := fun heq => hstate (by simp [heq, workBlocks])
  have heta : ∀ i, etaAt state (before.setReal timeBlock 0 r) i = etaAt state before i := fun i => by
    rw [etaAt, Memory.reals_setReal_of_ne htime]
    rfl
  refine .of_inputs hstate (fun i => ?_) (fun i hi => ?_) fun B hB hne => ?_
  · refine (h.integrated i i.2).trans ?_
    rw [start]
    simp only [heta]
    rfl
  · rw [h.rest i hi, Memory.reals_setReal_of_ne htime]
  · rw [h.others B hne, Memory.reals_setReal_of_ne fun heq => hB (by simp [heq, workBlocks])]

/-- The function begins with the start of the first step. -/
theorem prologue_exact (hd : b.discretized = false) (hA : Arrays g b ctx.size state τ.arrays) {x : R}
    (hx : (g.stepSize b).eval ctx.size (τ.setInt "error" 0) = .ok x) :
    Runs E ctx (prologue g b) τ (fun τ' => τ'.ints "error" = some 0 ∧
      ∃ m', Holding τ.arrays (τ.setReal "h" x).reals m' τ' ∧
        Progress g b state τ.memory (start b (statesAt b state τ.memory)) m') D := by
  unfold prologue
  rw [hd]
  have hdeclare : (Stmt.declareReal "h" (some (g.stepSize b))).exec ctx (τ.setInt "error" 0) =
      .ok (.next ((τ.setInt "error" 0).setReal "h" x)) := by
    rw [Stmt.exec, hx]
    rfl
  have hρ : (Known.none.set "error" (some 0)).Of (τ.setInt "error" 0).ints := (Known.of_none τ.ints).setInt "error" 0
  have hstart : Holding τ.arrays (τ.setReal "h" x).reals τ.memory ((τ.setInt "error" 0).setReal "h" x) := ⟨rfl, rfl, rfl⟩
  refine Runs.block_cons (.next rfl rfl) fun τ₁ h₁ => Runs.block_cons (.next rfl rfl) fun τ₂ h₂ => ?_
  subst h₁ h₂
  refine Runs.block_cons (.next hdeclare rfl) fun τ₃ h₃ => Runs.block_cons (.next rfl rfl) fun τ₄ h₄ => ?_
  subst h₃ h₄
  refine Runs.block_cons (Runs.assignMember hstart hρ rfl (by rw [hA.time]; exact Nat.one_pos)) fun τ₅ h₅ => ?_
  refine Runs.block_cons (seedSensitivities_exact hA h₅.2 h₅.1) fun τ₆ h₆ => ?_
  obtain ⟨hρ₆, m₆, h₆, hsown⟩ := h₆
  refine (copyInputs_exact hA h₆ hρ₆).mono (fun τ₇ h₇ => ⟨?_, _, h₇.2, hsown.progress hA.outside⟩) fun _ _ h => h
  have herror := (Known.Keeps.forget _ ["i"]).counts (by simp)
    ((Known.Keeps.forget _ ["i"]).counts (by simp) (counts_set_self Known.none "error" 0))
  exact h₇.1.value (Option.join_eq_some_iff.1 herror)

end Start

/-! ## Steps -/

/-- So many steps. -/
inductive Steps {α : Type} (Step : α → α → Prop) : ℕ → α → α → Prop
  | zero (a : α) : Steps Step 0 a a
  | succ {n : ℕ} {a a' a'' : α} (h : Steps Step n a a') (hstep : Step a' a'') : Steps Step (n + 1) a a''

/-- The counters and the status, which a step may change. -/
def stepNames : List String := ["it", "s", "t", "i", "j", "error"]

section Function

variable [Arithmetic R] {E : Fault → Prop} {ctx : Context R} {D : Answer R → Memory R → Prop}
  {arrays : String → Option View} {reals : String → Option R} {τ : State R}

/-- Between two steps: the status, and the integrated part of the augmented state. -/
structure Between (g : Integrator) (b : Binding) (state : View) (before : Memory R) (arrays : String → Option View)
    (reals : String → Option R) (a : ℤ × (Fin b.integratedLength → R)) (τ : State R) : Prop where
  status : τ.ints "error" = some a.1
  memory : ∃ m, Holding arrays reals m τ ∧ Progress g b state before a.2 m

/-- The generated function makes a step as some relation says. -/
def Makes (ctx : Context R) (g : Integrator) (b : Binding) (state : View) (before : Memory R)
    (arrays : String → Option View) (reals : String → Option R)
    (Step : ℤ × (Fin b.integratedLength → R) → ℤ × (Fin b.integratedLength → R) → Prop) : Prop :=
  ∀ (D : Answer R → Memory R → Prop) (ρ : Known) (τ : State R) (a : ℤ × (Fin b.integratedLength → R)), ρ.Of τ.ints →
    Between g b state before arrays reals a τ → Runs (fun _ => False) ctx (.seq (computeStages g b) (advance g b)) τ
      (fun τ' => (ρ.forget stepNames).Of τ'.ints ∧ ∃ a', Step a a' ∧ Between g b state before arrays reals a' τ') D

variable {Step : ℤ × (Fin b.integratedLength → R) → ℤ × (Fin b.integratedLength → R) → Prop}

theorem steps_exact (hd : b.discretized = false) (hmakes : Makes ctx g b state before arrays reals Step)
    {a : ℤ × (Fin b.integratedLength → R)} (h : Between g b state before arrays reals a τ) :
    Runs (fun _ => False) ctx (steps g b) τ
      (fun τ' => ∃ a', Steps Step b.stepsPerInterval a a' ∧ Between g b state before arrays reals a' τ') D := by
  unfold steps
  rw [hd]
  refine (Runs.each_known (fun k τ' => ∃ a', Steps Step k a a' ∧ Between g b state before arrays reals a' τ') ?_
    (Known.of_none τ.ints) (by decide : "run1" ∉ stepNames) ⟨a, .zero a, h⟩ fun k ρ' τ' _ hr => ?_).mono
    (fun _ h => h.2) fun _ _ h => h
  · rintro k τ' v ⟨a', hsteps, hstatus, m', hm', hp⟩
    exact ⟨a', hsteps, (State.ints_setInt_of_ne _ _ (by decide)).trans hstatus, m', hm'.setInt "run1" v, hp⟩
  · obtain ⟨a', hsteps, hbetween⟩ := hr.property
    refine (hmakes _ _ _ _ hr.known hbetween).mono (fun τ'' h' => ⟨h'.1, ?_⟩) fun _ _ h => h
    obtain ⟨-, a'', hstep, h''⟩ := h'
    exact ⟨a'', .succ hsteps hstep, h''⟩

/-- The length of a step of an interval, as it stands in the constants of the file or in memory. -/
def StepLength (g : Integrator) (b : Binding) (file : Statics R) (interval : ℕ) (m : Memory R) (x : R) : Prop :=
  match b.stepSize with
  | .uniform _ => file.reals g.stepSizeName = some x
  | .perInterval hs => file.arrays g.stepSizeName = some ⟨.static g.stepSizeName, 0, hs.length⟩ ∧ interval < hs.length ∧
      m.reals (.static g.stepSizeName) interval = x

/-- The arrays that the function sees. -/
def seen (file : Statics R) (state : View) (n : String) : Option View :=
  if n = "rk_eta" then some state else file.arrays n

omit [Arithmetic R] in
/-- The state in which the function starts, when it is called for an interval. -/
theorem exists_bound (g : Integrator) (b : Binding) (file : Statics R) (state : View) (reset : ℤ) (interval : ℕ)
    (m : Memory R) : ∃ s, bindParameters (g.prototype b).params (b.arguments state reset interval)
        ⟨g.functionName, fun _ => none, file.reals, file.arrays, m⟩ = some s ∧
      s.arrays = seen file state ∧ s.reals = file.reals ∧ s.memory = m ∧
      (b.stepSize.isPerInterval = true → s.ints "rk_index" = some (interval : ℤ)) := by
  have hparams : (g.prototype b).params = [.realOut "rk_eta", .intValue "resetIntegrator"] ++
    if b.stepSize.isPerInterval then [.intValue "rk_index"] else [] := rfl
  unfold Binding.arguments
  rw [hparams]
  cases hsize : b.stepSize.isPerInterval with
  | false => exact ⟨_, rfl, rfl, rfl, rfl, fun h => by cases h⟩
  | true => exact ⟨_, rfl, rfl, rfl, rfl, fun _ => State.ints_setInt_self _ _ _⟩

omit [Arithmetic R] in
/-- Where the intervals differ, the function finds the table of the step sizes, and the index of the interval. -/
theorem stepSize_operands {file : Statics R} {s : State R} (harrays : s.arrays = seen file state) {v : View}
    (hfile : file.arrays g.stepSizeName = some v) {interval : ℕ} (hindex : s.ints "rk_index" = some (interval : ℤ))
    (size : Struct → String → ℕ) :
    viewOf size (s.setInt "error" 0).arrays (.name g.stepSizeName) = some v ∧
      (var "rk_index").eval size (s.setInt "error" 0) = .ok (interval : ℤ) := by
  have hname : g.stepSizeName ≠ "rk_eta" := (ne_eta g.moduleName.text).2.2
  refine ⟨?_, IntExpr.eval_var ((State.ints_setInt_of_ne _ _ (by decide)).trans hindex)⟩
  change s.arrays g.stepSizeName = _
  rw [harrays, seen, if_neg hname, hfile]

/-- A call makes so many steps from the start of the states it is given. It answers with the status of the last one. -/
theorem invoke_exact (hd : b.discretized = false) {file : Statics R} (hA : Arrays g b ctx.size state (seen file state))
    {x : R} {interval : ℕ} (hx : StepLength g b file interval m x) {reset : ℤ}
    (hmakes : Makes ctx g b state m (seen file state) (fun n => if n = "h" then some x else file.reals n) Step) :
    Meets (fun _ => False) ((function g b).invoke ctx file (b.arguments state reset interval) m) fun r =>
      ∃ a, Steps Step b.stepsPerInterval (0, start b (statesAt b state m)) a ∧ r.1 = .int a.1 ∧
        Progress g b state m a.2 r.2 := by
  obtain ⟨s, hs, harrays, hreals, hmemory, hindex⟩ := exists_bound g b file state reset interval m
  refine Function.meets_invoke hs ?_
  have hlength : (g.stepSize b).eval ctx.size (s.setInt "error" 0) = .ok x := by
    unfold StepLength at hx
    unfold stepSize
    cases hsize : b.stepSize with
    | uniform h =>
      rw [hsize] at hx
      exact RealExpr.eval_var ((congrFun hreals _).trans hx)
    | perInterval hs =>
      rw [hsize] at hx hindex
      obtain ⟨hview, hlt, rfl⟩ := hx
      obtain ⟨hseen, hi⟩ := stepSize_operands harrays hview (hindex rfl) ctx.size
      have helem := RealExpr.eval_elem hseen hi hlt
      rw [Nat.zero_add, State.memory_setInt, hmemory] at helem
      exact helem
  have hA' : Arrays g b ctx.size state s.arrays := by
    rw [harrays]
    exact hA
  unfold function
  refine Runs.block_cons (prologue_exact hd hA' hlength) fun τ₁ h₁ => ?_
  obtain ⟨herror, m₁, h₁, hp₁⟩ := h₁
  have hbetween : Between g b state m (seen file state) (fun n => if n = "h" then some x else file.reals n)
      (0, start b (statesAt b state m)) τ₁ := by
    refine ⟨herror, m₁, ?_, ?_⟩
    · rw [← harrays, ← hreals]
      exact h₁
    · rw [← hmemory]
      exact hp₁
  refine Runs.block_cons (steps_exact hd hmakes hbetween) fun τ₂ h₂ => ?_
  obtain ⟨a, hsteps, hstatus, m₂, h₂, hp₂⟩ := h₂
  refine Runs.returnInt (IntExpr.eval_var hstatus) ⟨a, hsteps, rfl, ?_⟩
  rw [h₂.memory]
  exact hp₂

/-- The step size of an interval behind the end of the table. -/
theorem stepSize_outside {hs : List Float} (hsize : b.stepSize = .perInterval hs) {s : State R} {v : View} {interval : ℕ}
    (hv : viewOf ctx.size s.arrays (.name g.stepSizeName) = some v)
    (hi : (var "rk_index").eval ctx.size s = .ok (interval : ℤ)) (hinterval : v.length ≤ interval) :
    (g.stepSize b).eval ctx.size s = .error (.outOfBounds (.name g.stepSizeName) interval) := by
  have hlocate : s.locate ctx.size (.name g.stepSizeName) interval =
      .error (.outOfBounds (.name g.stepSizeName) interval) := by
    rw [State.locate, tailOf, hv, Option.bind_some, if_neg fun h => Int.not_lt.2 (Int.ofNat_le.2 hinterval) h.2]
  unfold stepSize
  rw [hsize]
  dsimp only
  rw [RealExpr.eval, hi]
  change (do
    let w ← s.locate ctx.size (.name g.stepSizeName) interval
    return s.memory.reals w.block w.first) = _
  rw [hlocate]
  rfl

/-- A call for an interval behind those that have a step size reads behind the end of the table. -/
theorem invoke_outside (hd : b.discretized = false) {file : Statics R} {hs : List Float}
    (hsize : b.stepSize = .perInterval hs)
    (hfile : file.arrays g.stepSizeName = some ⟨.static g.stepSizeName, 0, hs.length⟩) {interval : ℕ}
    (hinterval : hs.length ≤ interval) (reset : ℤ) :
    (function g b).invoke ctx file (b.arguments state reset interval) m =
      .error (.outOfBounds (.name g.stepSizeName) interval) := by
  refine Meets.eq_error ?_
  obtain ⟨s, hs', harrays, -, -, hindex⟩ := exists_bound g b file state reset interval m
  refine Function.meets_invoke hs' ?_
  obtain ⟨hseen, hi⟩ := stepSize_operands harrays hfile (hindex (by rw [hsize]; rfl)) ctx.size
  have hlength := stepSize_outside hsize hseen hi hinterval
  have hfault : Runs (fun f => f = .outOfBounds (.name g.stepSizeName) interval) ctx
      (.declareReal "h" (some (g.stepSize b))) (s.setInt "error" 0) (fun _ => False) fun _ _ => False := by
    unfold Runs
    rw [Stmt.exec, hlength]
    rfl
  have hprologue : Runs (fun f => f = .outOfBounds (.name g.stepSizeName) interval) ctx (prologue g b) s
      (fun _ => False) fun _ _ => False := by
    unfold prologue
    rw [hd]
    refine Runs.block_cons (.next rfl rfl) fun τ₁ h₁ => Runs.block_cons (.next rfl rfl) fun τ₂ h₂ => ?_
    subst h₁ h₂
    exact Runs.block_cons hfault fun _ h => h.elim
  unfold function
  exact Runs.block_cons hprologue fun _ h => h.elim

end Function

end ControlCodegen.Integrator
