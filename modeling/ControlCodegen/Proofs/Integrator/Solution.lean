import ControlCodegen.Proofs.C.Link
import ControlCodegen.Proofs.Integrator.Reduction
import Mathlib.Tactic.FinCases
import Mathlib.Tactic.NormNum

/-!
# `Integrator.Solution`: the generated linear solver solves

* `matrixAt`, `vectorAt` : what stands in the arrays of a call.
* `solve_computes`, `solveAgain_computes` : the bodies of the two functions.
* `Factored` : the factors of a matrix and the order of its rows stand in memory.
* `solves_systems` : a call finds out whether its matrix is singular; if it is not, it and all calls that solve again
  leave the only solution.

All of it is over exact numbers.
-/

namespace ControlCodegen

open C C.IntExpr Finset

set_option autoImplicit false

namespace Integrator

namespace LinearSystem

/-! ## The function that factorizes -/

section Solve

variable {R : Type}

/-- The matrix that stands in an array. -/
def matrixAt (v : View) (n : ℕ) (m : Memory R) : Matrix (Fin n) (Fin n) R := fun r c =>
  m.reals v.block (v.first + (r * n + c))

/-- The vector that stands in an array. -/
def vectorAt (v : View) (n : ℕ) (m : Memory R) : Fin n → R := fun r => m.reals v.block (v.first + r)

/-- While a function factorizes: the product of the pivots so far, the matrix, the right side and the permutation. No
other memory has changed. -/
structure Factorizing (s : LinearSystem) (arrays : String → Option View) (va vb w : View) (before : Memory R) (d : R)
    (M : ℕ → ℕ → R) (x : ℕ → R) (π : Equiv.Perm (Fin s.dim)) (τ : State R) : Prop where
  arrays : τ.arrays = arrays
  det : τ.reals "det" = some d
  perm : Permutes s.dim w π τ.memory.ints
  holds : Holds s.dim va vb M x τ.memory
  reals : ∀ B l, ¬va.Has B l → ¬vb.Has B l → τ.memory.reals B l = before.reals B l
  ints : ∀ B l, ¬w.Has B l → τ.memory.ints B l = before.ints B l

variable {s : LinearSystem} {arrays : String → Option View} {va vb w : View} {before : Memory R} {d : R}
  {M M' : ℕ → ℕ → R} {x x' : ℕ → R} {π : Equiv.Perm (Fin s.dim)} {τ τ' : State R} {ρ : Known}

namespace Factorizing

theorem work (h : Factorizing s arrays va vb w before d M x π τ) : Work s va vb τ M x τ :=
  ⟨rfl, fun _ _ => rfl, rfl, fun _ _ _ _ => rfl, h.holds⟩

theorem of_work (h : Factorizing s arrays va vb w before d M x π τ) (hτ' : Work s va vb τ M' x' τ') :
    Factorizing s arrays va vb w before d M' x' π τ' where
  arrays := hτ'.arrays.trans h.arrays
  det := (hτ'.reals "det" (by decide)).trans h.det
  perm := by
    rw [hτ'.ints]
    exact h.perm
  holds := hτ'.holds
  reals B l ha hb := (hτ'.others B l ha hb).trans (h.reals B l ha hb)
  ints B l hw := by
    rw [hτ'.ints]
    exact h.ints B l hw

theorem setInt (h : Factorizing s arrays va vb w before d M x π τ) (v : String) (k : ℤ) :
    Factorizing s arrays va vb w before d M x π (τ.setInt v k) :=
  ⟨h.arrays, h.det, h.perm, h.holds, h.reals, h.ints⟩

theorem setDet (h : Factorizing s arrays va vb w before d M x π τ) (d' : R) :
    Factorizing s arrays va vb w before d' M x π (τ.setReal "det" d') :=
  ⟨h.arrays, State.reals_setReal_self τ "det" d', h.perm, h.holds, h.reals, h.ints⟩

end Factorizing

/-- The arrays that a call hands over. -/
structure Arguments (s : LinearSystem) (va vb w : View) : Prop where
  operands : Operands s.dim va vb
  perm : w.length = s.dim
  /-- The array of a function is not there when it is called. -/
  matrix_ne : va.block ≠ .auto s.solveAgainName "rk_bPerm"
  right_ne : vb.block ≠ .auto s.solveAgainName "rk_bPerm"

theorem Arguments.site (hS : Arguments s va vb w) {outer : String → Option View}
    (h : Factorizing s (argumentArrays outer va vb w) va vb w before d M x π τ) : Site s "b" va vb τ := by
  refine ⟨?_, ?_, hS.operands⟩ <;> rw [h.arrays] <;> rfl

variable [Field R] [LinearOrder R] [Reading R] {ctx : Context R} {D : Answer R → Memory R → Prop}

section

variable (hS : Arguments s va vb w) {outer : String → Option View}
include hS

/-- The pivot of a column is moved to its row. -/
theorem pivot_computes (hρ : ρ.Of τ.ints) {k : ℕ} (hi : (var "i").Counts ρ k) (hk : k < s.dim)
    (hτ : Factorizing s (argumentArrays outer va vb w) va vb w before d M x π τ) :
    Computes ctx s.pivot τ (fun τ' => (ρ.forget ["p", "j", "k"]).Of τ'.ints ∧
      ∃ (q : ℕ) (hq : q < s.dim), k ≤ q ∧ (∀ r, k ≤ r → r < s.dim → |M r k| ≤ |M q k|) ∧
        Factorizing s (argumentArrays outer va vb w) va vb w before d (fun r c => M (Equiv.swap k q r) c)
          (fun r => x (Equiv.swap k q r)) (π * Equiv.swap ⟨k, hk⟩ ⟨q, hq⟩) τ') D := by
  have hsite := hS.site hτ
  have hρ₁ : (ρ.set "p" (some (k : ℤ))).Of (τ.setInt "p" k).ints := hρ.setInt "p" k
  have hi₁ : (var "i").Counts (ρ.set "p" (some (k : ℤ))) k := counts_set_of_ne hi (by decide) _
  unfold pivot
  refine Computes.block_cons (.of_noDivision trivial (Runs.assignInt (hi.eval hρ) rfl rfl)) fun τ₁ h₁ => ?_
  subst h₁
  refine Computes.block_cons (findPivot_computes hsite hρ₁ hi₁ (State.ints_setInt_self _ _ _) hk (hτ.work.setInt "p" k))
    fun τ₂ h₂ => ?_
  obtain ⟨q, hkq, hq, hmax, hρ₂, hτ₂⟩ := h₂
  have hi₂ := counts_set_of_ne (n := "p") ((Known.Keeps.forget _ ["j", "p"]).counts (by simp) hi₁) (by simp) (some (q : ℤ))
  have hp₂ := counts_set_self ((ρ.set "p" (some (k : ℤ))).forget ["j", "p"]) "p" q
  have hkeep : ρ.Keeps (((ρ.set "p" (some (k : ℤ))).forget ["j", "p"]).set "p" (some (q : ℤ))) ["p", "j", "k"] :=
    (((Known.Keeps.refl ρ _).set (by simp) _).trans (Known.Keeps.forget _ ["j", "p"]) (by simp)).set (by simp) _
  have htest : (Test.cond (.ne (.var "p") (.var "i"))).eval ctx.size τ₂ = .ok (decide ((q : ℤ) ≠ k)) := by
    rw [Test.eval, Cond.eval, hp₂.eval hρ₂, hi₂.eval hρ₂]
    rfl
  refine Computes.when htest trivial (fun _ => ?_) fun hsame => ?_
  · refine Computes.block_cons (exchangeRows_computes hsite hρ₂ hi₂ hp₂ hk hq hτ₂) fun τ₃ h₃ => ?_
    obtain ⟨hρ₃, hτ₃⟩ := h₃
    have hi₃ := (Known.Keeps.forget _ ["k"]).counts (by simp) hi₂
    have hp₃ := (Known.Keeps.forget _ ["k"]).counts (by simp) hp₂
    refine Computes.block_cons (exchangeRight_computes hsite hρ₃ hi₃ hp₃ hk hq hτ₃) fun τ₄ h₄ => ?_
    obtain ⟨hρ₄, hτ₄⟩ := h₄
    have h₄ := hτ.of_work hτ₄
    have hview : viewOf ctx.size τ₄.arrays perm = some w := by
      rw [h₄.arrays]
      rfl
    refine (exchangePerm_computes hview hS.perm hρ₄ hi₃ hp₃ hk hq h₄.perm).mono (fun τ₅ h₅ => ?_) fun _ _ h => h
    obtain ⟨hρ₅, harrays, hreals, hmemory, hints, hperm⟩ := h₅
    refine ⟨hρ₅.mono ((hkeep.trans (.forget _ ["k"]) (by simp)).trans (.forget _ ["k"]) (by simp)), q, hq, hkq, hmax,
      harrays.trans h₄.arrays, ?_, hperm, ?_, fun B l ha hb => ?_, fun B l hw => ?_⟩
    · rw [hreals]
      exact h₄.det
    · refine ⟨fun r hr c hc => ?_, fun r hr => ?_⟩
      · rw [hmemory]
        exact h₄.holds.matrix r hr c hc
      · rw [hmemory]
        exact h₄.holds.right r hr
    · rw [hmemory]
      exact h₄.reals B l ha hb
    · exact (hints B l hw).trans (h₄.ints B l hw)
  · obtain rfl : q = k := by
      have hqk := not_not.1 (of_decide_eq_false hsame)
      exact Int.ofNat_inj.1 hqk
    refine ⟨hρ₂.mono hkeep, q, hq, hkq, hmax, ?_⟩
    simp only [Equiv.swap_self, Equiv.refl_apply]
    exact hτ.of_work hτ₂

/-- One column is reduced. Where it has no pivot the matrix is singular, and the function returns. -/
theorem reduce_computes [IsStrictOrderedRing R] (hρ : ρ.Of τ.ints) {k : ℕ} (hi : (var "i").Counts ρ k) (hk : k < s.dim)
    (hd : d ≠ 0) {A : Matrix (Fin s.dim) (Fin s.dim) R} {rhs : Fin s.dim → R} (hA : Reduced A k M π)
    (hb : ReducedRight rhs k M π x) (hτ : Factorizing s (argumentArrays outer va vb w) va vb w before d M x π τ)
    (hD : ∀ m, A.det = 0 → D (.int 1) m) :
    Computes ctx
      (.block [
        s.pivot,
        .assign ⟨.name "det", none⟩ .mul (s.entry (.var "i") (.var "i")),
        .when (.isZero (s.entry (.var "i") (.var "i"))) .inline (.returnInt 1),
        s.eliminate])
      τ (fun τ' => (ρ.forget ["p", "j", "k"]).Of τ'.ints ∧ ∃ d M x π, d ≠ 0 ∧ Reduced A (k + 1) M π ∧
        ReducedRight rhs (k + 1) M π x ∧ Factorizing s (argumentArrays outer va vb w) va vb w before d M x π τ') D := by
  refine Computes.block_cons (pivot_computes hS hρ hi hk hτ) fun τ₁ h₁ => ?_
  obtain ⟨hρ₁, q, hq, hkq, hmax, h₁⟩ := h₁
  have hi₁ := (Known.Keeps.forget ρ ["p", "j", "k"]).counts (by simp) hi
  have hpivot := h₁.work.eval_entry ctx.size (hS.site h₁) hρ₁ hi₁ hi₁ hk hk
  rw [Equiv.swap_apply_left] at hpivot
  refine Computes.block_cons (Computes.assignReal trivial (fun hu => by cases hu) hpivot
    (State.updateReal_of_some h₁.det _ _) rfl) fun τ₂ h₂ => ?_
  subst h₂
  have h₂ := h₁.setDet (Update.apply d (M q k) .mul)
  have hpivot₂ := h₂.work.eval_entry ctx.size (hS.site h₂) hρ₁ hi₁ hi₁ hk hk
  rw [Equiv.swap_apply_left] at hpivot₂
  have htest : (Test.isZero (s.entry (.var "i") (.var "i"))).eval ctx.size
      (τ₁.setReal "det" (Update.apply d (M q k) .mul)) = .ok (decide (M q k = 0)) := by
    rw [Test.eval, hpivot₂]
    rfl
  have hpass : Computes ctx (.when (.isZero (s.entry (.var "i") (.var "i"))) .inline (.returnInt 1))
      (τ₁.setReal "det" (Update.apply d (M q k) .mul))
      (fun τ' => M q k ≠ 0 ∧ τ' = τ₁.setReal "det" (Update.apply d (M q k) .mul)) D := by
    refine Computes.when htest trivial (fun hzero => ?_) fun hne => ⟨of_decide_eq_false hne, rfl⟩
    have hzero := of_decide_eq_true hzero
    refine .of_noDivision trivial (Runs.returnInt rfl (hD _ (hA.singular hk fun r hkr hr => ?_)))
    have hle := hmax r hkr hr
    rw [hzero, abs_zero] at hle
    exact abs_eq_zero.1 (le_antisymm hle (abs_nonneg _))
  refine Computes.block_cons hpass fun τ₃ h₃ => ?_
  obtain ⟨hne, rfl⟩ := h₃
  have hne' : M (Equiv.swap k q k) k ≠ 0 := by
    rw [Equiv.swap_apply_left]
    exact hne
  have hρ₂ : (ρ.forget ["p", "j", "k"]).Of (τ₁.setReal "det" (Update.apply d (M q k) .mul)).ints := hρ₁
  refine (eliminate_computes (hS.site h₂) hρ₂ hi₁ hk hne' h₂.work).mono (fun τ₄ h₄ => ?_) fun _ _ h => h
  exact ⟨h₄.1.mono ((Known.Keeps.forget ρ _).trans (.forget _ ["j", "k"]) (by simp)), d * M q k, _, _, _,
    mul_ne_zero hd hne, (hA.exchange hk hkq hq).eliminate hne', (hb.exchange hk hkq hq).eliminate, h₂.of_work h₄.2⟩

/-- The permutation starts as the identity. -/
theorem identity_computes (hρ : ρ.Of τ.ints) (harrays : τ.arrays = argumentArrays outer va vb w)
    (hdet : τ.reals "det" = some d) (hmemory : τ.memory = before) :
    Computes ctx (.each "i" s.dim .inline (.assignInt (perm.entry (.var "i")) (.var "i"))) τ
      (fun τ' => (ρ.forget ["i"]).Of τ'.ints ∧ Factorizing s (argumentArrays outer va vb w) va vb w before d
        (fun r c => before.reals va.block (va.first + (r * s.dim + c))) (fun r => before.reals vb.block (vb.first + r)) 1
        τ') D := by
  refine .of_noDivision trivial ?_
  refine (Runs.each_known (fun k τ' => τ'.arrays = argumentArrays outer va vb w ∧ τ'.reals "det" = some d ∧
    τ'.memory.reals = before.reals ∧ (∀ B l, ¬w.Has B l → τ'.memory.ints B l = before.ints B l) ∧
    ∀ r < k, τ'.memory.ints w.block (w.first + r) = (r : ℤ)) (fun _ _ _ h => h) hρ
    (by simp : "i" ∉ []) ?_ fun k ρ' τ' hk h => ?_).mono (fun τ' h => ?_) fun _ _ h => h
  · subst hmemory
    exact ⟨harrays, hdet, rfl, fun _ _ _ => rfl, fun r hr => absurd hr (Nat.not_lt_zero r)⟩
  · obtain ⟨harrays', hdet', hreals, hints, hrows⟩ := h.property
    have hlen := hS.perm
    have hview : viewOf ctx.size τ'.arrays perm = some w := by
      rw [harrays']
      rfl
    refine Runs.assignIntEntry (h.count.eval h.known) hview (h.count.eval h.known) (by omega)
      ⟨h.known.forget _, harrays', hdet', hreals, fun B l hB => ?_, fun r hr => ?_⟩
    · refine (if_neg ?_).trans (hints B l hB)
      rintro ⟨rfl, rfl⟩
      exact hB (View.has_of_lt (by omega))
    · rcases Nat.lt_succ_iff_lt_or_eq.1 hr with hr | rfl
      · exact (if_neg fun heq => by omega).trans (hrows r hr)
      · exact if_pos ⟨rfl, rfl⟩
  · obtain ⟨hρ', harrays', hdet', hreals, hints, hrows⟩ := h
    refine ⟨hρ', harrays', hdet', fun r => hrows r r.2, ⟨fun r _ c _ => ?_, fun r _ => ?_⟩, fun B l _ _ => ?_, hints⟩
    · rw [hreals]
    · rw [hreals]
    · rw [hreals]

/-- The factors of a matrix and the order of its rows stand in memory. -/
structure Factored (A : Matrix (Fin s.dim) (Fin s.dim) R) (va w : View) (M : ℕ → ℕ → R) (π : Equiv.Perm (Fin s.dim))
    (m : Memory R) : Prop where
  reduced : Reduced A s.dim M π
  matrix : ∀ r < s.dim, ∀ c < s.dim, m.reals va.block (va.first + (r * s.dim + c)) = M r c
  perm : Permutes s.dim w π m.ints

/-- What a call that has factorized leaves. -/
structure Solved (s : LinearSystem) (A : Matrix (Fin s.dim) (Fin s.dim) R) (rhs : Fin s.dim → R) (va vb w : View)
    (before m : Memory R) : Prop where
  factored : ∃ M π, Factored A va w M π m
  solution : A.mulVec (vectorAt vb s.dim m) = rhs
  reals : ∀ B l, ¬va.Has B l → ¬vb.Has B l → m.reals B l = before.reals B l
  ints : ∀ B l, ¬w.Has B l → m.ints B l = before.ints B l

/-- The function that factorizes finds out whether the matrix is singular, and solves the system if it is not. -/
theorem solve_computes [IsStrictOrderedRing R] (harrays : τ.arrays = argumentArrays outer va vb w)
    (hmemory : τ.memory = before) :
    Computes ctx s.solve.body τ (fun _ => False) fun r m => (r = .int 1 ∧ (matrixAt va s.dim before).det = 0) ∨
      (r = .int 0 ∧ Solved s (matrixAt va s.dim before) (vectorAt vb s.dim before) va vb w before m) := by
  unfold solve
  refine Computes.block_cons (.of_noDivision trivial (.next rfl rfl)) fun τ₁ h₁ => ?_
  subst h₁
  have hwhole : (Stmt.declareReal "det" (some (.whole 1))).NoDivision := trivial
  refine Computes.block_cons (.of_noDivision hwhole (.next rfl rfl)) fun τ₂ h₂ => ?_
  subst h₂
  refine Computes.block_cons (.of_noDivision trivial (.next rfl rfl)) fun τ₃ h₃ => ?_
  subst h₃
  have hnone : Known.none.Of (τ.setReal "det" (Arithmetic.ofNat 1)).ints := Known.of_none _
  refine Computes.block_cons (identity_computes hS hnone harrays (State.reals_setReal_self τ "det" _) hmemory)
    fun τ₄ h₄ => ?_
  obtain ⟨hρ₄, h₄⟩ := h₄
  refine Computes.block_cons (Computes.each_known (fun k τ' => ∃ d M x π, d ≠ 0 ∧
      Reduced (matrixAt va s.dim before) k M π ∧ ReducedRight (vectorAt vb s.dim before) k M π x ∧
      Factorizing s (argumentArrays outer va vb w) va vb w before d M x π τ') ?_ hρ₄ (by simp : "i" ∉ ["p", "j", "k"])
    ⟨Arithmetic.ofNat 1, _, _, 1, ?_, .zero fun _ _ => rfl, .zero fun _ => rfl, h₄⟩ fun k ρ' τ' hk h => ?_) fun τ₅ h₅ => ?_
  · rintro k τ' v ⟨d, M, x, π, hd, hA, hb, hτ'⟩
    exact ⟨d, M, x, π, hd, hA, hb, hτ'.setInt "i" v⟩
  · exact Nat.cast_ne_zero.2 one_ne_zero
  · obtain ⟨d, M, x, π, hd, hA, hb, hτ'⟩ := h.property
    exact reduce_computes hS h.known h.count hk hd hA hb hτ' fun m hzero => .inl ⟨rfl, hzero⟩
  obtain ⟨hρ₅, d, M, x, π, hd, hA, hb, h₅⟩ := h₅
  refine Computes.block_cons (substitute_computes (hS.site h₅) hρ₅ hA.pivots h₅.work) fun τ₆ h₆ => ?_
  obtain ⟨-, y, hy, h₆⟩ := h₆
  have h₆ := h₅.of_work h₆
  have hvector : vectorAt vb s.dim τ₆.memory = fun r : Fin s.dim => y r := funext fun r => h₆.holds.right r r.2
  have htest : (Test.isZero (.var "det")).eval ctx.size τ₆ = .ok false := by
    have hdet : (RealExpr.var "det").eval ctx.size τ₆ = .ok d := by
      change (Ref.name "det").readScalar ctx.size τ₆ = _
      rw [Ref.readScalar, h₆.det]
    rw [Test.eval, hdet]
    exact congrArg Except.ok (decide_eq_false hd)
  refine .of_noDivision trivial ?_
  change Meets _ ((Stmt.returnTest _).exec ctx τ₆) _
  rw [Stmt.exec, htest]
  refine .inr ⟨rfl, ⟨M, π, hA, h₆.holds.matrix, h₆.perm⟩, ?_, h₆.reals, h₆.ints⟩
  rw [hvector]
  exact hA.forward_backward hb hy

end

/-! ## The function that solves again -/

section Again

variable {A : Matrix (Fin s.dim) (Fin s.dim) R} {σ : State R} {own : View} {rhs : Fin s.dim → R}

/-- The right side is brought into the order of the rows. -/
theorem permute_computes (hS : Site s "rk_bPerm" va own σ) (hρ : ρ.Of τ.ints)
    (hw : σ.arrays "rk_perm" = some w) (hlen : w.length = s.dim) (hvb : σ.arrays "b" = some vb) (hright : vb.length = s.dim)
    (hapart : va.Apart vb) (hown : own.Apart vb) (hperm : Permutes s.dim w π σ.memory.ints)
    (hrhs : vectorAt vb s.dim σ.memory = rhs) (hτ : Work s va own σ M x τ) :
    Computes ctx (.each "i" s.dim .inline (.assign (permuted.entry (.var "i")) .set (.elem b (.elem perm (.var "i"))))) τ
      (fun τ' => (ρ.forget ["i"]).Of τ'.ints ∧ ∃ z, (∀ r : Fin s.dim, z r = rhs (π r)) ∧ Work s va own σ M z τ') D := by
  refine (Computes.each_known (fun k τ' => ∃ z, (∀ r : Fin s.dim, (r : ℕ) < k → z r = rhs (π r)) ∧
    Work s va own σ M z τ') ?_ hρ (by simp : "i" ∉ []) ⟨x, fun r hr => absurd hr (Nat.not_lt_zero _), hτ⟩
    fun k ρ' τ' hk h => ?_).mono (fun τ' h => ?_) fun _ _ h => h
  · rintro k τ' v ⟨z, hz, hτ'⟩
    exact ⟨z, hz, hτ'.setInt "i" v⟩
  · obtain ⟨z, hz, hτ'⟩ := h.property
    have hpview : viewOf ctx.size τ'.arrays perm = some w := by
      rw [hτ'.arrays]
      exact hw
    have hbview : viewOf ctx.size τ'.arrays b = some vb := by
      rw [hτ'.arrays]
      exact hvb
    have hrow : (IntExpr.elem perm (.var "i")).eval ctx.size τ' = .ok ((π ⟨k, hk⟩ : ℕ) : ℤ) := by
      rw [IntExpr.eval_elem hpview (h.count.eval h.known) (by omega), hτ'.ints]
      exact congrArg Except.ok (hperm ⟨k, hk⟩)
    have hlt : (π ⟨k, hk⟩ : ℕ) < vb.length := by
      rw [hright]
      exact (π ⟨k, hk⟩).2
    have hkept : τ'.memory.reals vb.block (vb.first + (π ⟨k, hk⟩ : ℕ)) = rhs (π ⟨k, hk⟩) := by
      have hhas := View.has_of_lt hlt
      rw [hτ'.others _ _ (fun ha => hapart _ _ ha hhas) fun ho => hown _ _ ho hhas, ← hrhs]
      rfl
    have hvalue : (RealExpr.elem b (.elem perm (.var "i"))).eval ctx.size τ' = .ok (rhs (π ⟨k, hk⟩)) := by
      rw [RealExpr.eval_elem hbview hrow hlt, hkept]
    have hnodiv : (RealExpr.elem b (.elem perm (.var "i"))).NoDivision := trivial
    refine (hτ'.assignRight hS h.known h.count hk hnodiv (fun hu => by cases hu) hvalue).mono
      (fun τ₁ h₁ => ⟨h₁.1.forget _, _, fun r hr => ?_, h₁.2⟩) fun _ _ h => h
    rcases Nat.lt_succ_iff_lt_or_eq.1 hr with hr | hr
    · rw [Function.update_of_ne (Nat.ne_of_lt hr)]
      exact hz r hr
    · obtain rfl : r = ⟨k, hk⟩ := Fin.ext hr
      exact Function.update_self ..
  · obtain ⟨hρ', z, hz, hτ'⟩ := h
    exact ⟨hρ', z, fun r => hz r r.2, hτ'⟩

/-- Substitution through the lower triangle. -/
theorem forward_computes (hS : Site s "rk_bPerm" va own σ) (hdim : 0 < s.dim) (hρ : ρ.Of τ.ints) {z : ℕ → R}
    (hz : ∀ r : Fin s.dim, z r = rhs (π r)) (hτ : Work s va own σ M z τ) :
    Computes ctx
      (.countUp "i" 1 s.dim .hanging
        (.each "j" (.var "i") .inline
          (.assign (permuted.entry (.var "i")) .sub (s.entry (.var "i") (.var "j") * .elem permuted (.var "j")))))
      τ (fun τ' => (ρ.forget ["i", "j"]).Of τ'.ints ∧ ∃ z, ReducedRight rhs s.dim M π z ∧ Work s va own σ M z τ') D := by
  refine (Computes.countUp_known (fun k τ' => ∃ z, Forwarded rhs M π k z ∧ Work s va own σ M z τ') ?_ hρ
    (by simp : "i" ∉ ["j"]) (counts_lit 1) (fun _ _ => counts_lit s.dim) hdim ⟨z, .one hz, hτ⟩
    fun k ρ' τ' _ hk h => ?_).mono (fun τ' h => ?_) fun _ _ h => h
  · rintro k τ' v ⟨z, hz, hτ'⟩
    exact ⟨z, hz, hτ'.setInt "i" v⟩
  · obtain ⟨z, hz, hτ'⟩ := h.property
    exact (subtractProducts_computes hS h.known h.count (counts_lit 0) (fun _ hk => hk.counts (by simp) h.count)
      (Nat.zero_le k) hk (Nat.le_of_lt hk) (.inr (Nat.le_refl k)) hτ').mono (fun τ₁ h₁ => ⟨h₁.1, _, hz.step, h₁.2⟩)
      fun _ _ h => h
  · obtain ⟨hρ', z, hz, hτ'⟩ := h
    exact ⟨hρ', z, hz.reducedRight, hτ'⟩

/-- What a call that solves again leaves: the factors are there still. -/
structure SolvedAgain (s : LinearSystem) (A : Matrix (Fin s.dim) (Fin s.dim) R) (rhs : Fin s.dim → R) (va vb w : View)
    (before m : Memory R) : Prop where
  factored : ∃ M π, Factored A va w M π m
  solution : A.mulVec (vectorAt vb s.dim m) = rhs
  reals : ∀ B l, ¬va.Has B l → ¬vb.Has B l → B ≠ .auto s.solveAgainName "rk_bPerm" → m.reals B l = before.reals B l
  ints : m.ints = before.ints

/-- The array of the function that solves again. -/
def ownArray (s : LinearSystem) : View := ⟨.auto s.solveAgainName "rk_bPerm", 0, s.dim⟩

/-- The function that solves again solves the system that has been factorized. -/
theorem solveAgain_computes (hS : Arguments s va vb w) (hdim : 0 < s.dim) {outer : String → Option View}
    (hF : Factored A va w M π before) (hfunction : τ.function = s.solveAgainName)
    (harrays : τ.arrays = argumentArrays outer va vb w) (hmemory : τ.memory = before) :
    Computes ctx s.solveAgain.body τ (fun _ => False) fun r m =>
      r = .int 0 ∧ SolvedAgain s A (vectorAt vb s.dim before) va vb w before m := by
  subst hmemory
  let σ := τ.setArray "rk_bPerm" (some s.ownArray)
  have hσ : ∀ n, n ≠ "rk_bPerm" → σ.arrays n = argumentArrays outer va vb w n := fun n hn =>
    (if_neg hn).trans (congrFun harrays n)
  have hown : s.ownArray.Apart vb := View.apart_of_block_ne fun h => hS.right_ne h.symm
  have hsite : Site s "rk_bPerm" va s.ownArray σ := ⟨hσ "A" (by decide), State.arrays_setArray_self .., hS.operands.matrix, rfl,
    View.apart_of_block_ne hS.matrix_ne⟩
  have hstart : Work s va s.ownArray σ M (fun r => σ.memory.reals s.ownArray.block (s.ownArray.first + r)) σ :=
    ⟨rfl, fun _ _ => rfl, rfl, fun _ _ _ _ => rfl, hF.matrix, fun _ _ => rfl⟩
  have hdeclared : (Stmt.declareArray "rk_bPerm" s.dim).exec ctx τ = .ok (.next σ) := by
    rw [Stmt.exec, hfunction]
    rfl
  unfold solveAgain
  refine Computes.block_cons (.of_noDivision trivial (.next rfl rfl)) fun τ₁ h₁ => ?_
  subst h₁
  refine Computes.block_cons (.of_noDivision trivial (.next hdeclared rfl)) fun τ₂ h₂ => ?_
  subst h₂
  refine Computes.block_cons (permute_computes hsite (Known.of_none _) (hσ "rk_perm" (by decide)) hS.perm
    (hσ "b" (by decide)) hS.operands.right hS.operands.apart hown hF.perm rfl hstart) fun τ₃ h₃ => ?_
  obtain ⟨hρ₃, z₃, hz₃, h₃⟩ := h₃
  refine Computes.block_cons (forward_computes hsite hdim hρ₃ hz₃ h₃) fun τ₄ h₄ => ?_
  obtain ⟨hρ₄, z, hz, h₄⟩ := h₄
  refine Computes.block_cons (substitute_computes hsite hρ₄ hF.reduced.pivots h₄) fun τ₅ h₅ => ?_
  obtain ⟨hρ₅, y, hy, h₅⟩ := h₅
  have hbview : viewOf ctx.size τ₅.arrays b = some vb := by
    rw [h₅.arrays]
    exact hσ "b" (by decide)
  have hoview : viewOf ctx.size τ₅.arrays permuted = some s.ownArray := by
    rw [h₅.arrays]
    exact hsite.right
  have hlen := hS.operands.right
  have hcounts : ∀ ρ : Known, ∀ j < s.dim, (var "i").Counts (ρ.set "i" (some (j : ℤ))) (0 + j) := fun ρ j _ => by
    rw [Nat.zero_add]
    exact counts_set_self ρ "i" j
  have hcopy : Computes ctx (.each "i" s.dim .inline (.assign (b.entry (.var "i")) .set (.elem permuted (.var "i")))) τ₅
      (fun τ' => τ'.memory = τ₅.memory.fill vb.block vb.first s.dim
        fun j => τ₅.memory.reals s.ownArray.block (s.ownArray.first + (0 + j))) fun r m =>
          r = .int 0 ∧ SolvedAgain s A (vectorAt vb s.dim τ.memory) va vb w τ.memory m :=
    .of_noDivision ⟨trivial, by decide⟩ (Runs.each_copy hρ₅ hbview hoview (fun h => hS.right_ne h.symm)
      (by omega : 0 + s.dim ≤ vb.length) (Nat.le_of_eq (Nat.zero_add s.dim)) (hcounts _) (hcounts _) rfl)
  refine Computes.block_cons hcopy fun τ₆ h₆ => .of_noDivision trivial (Runs.returnInt rfl ⟨rfl, ?_⟩)
  have hkept : ∀ B l, ¬vb.Has B l → τ₆.memory.reals B l = τ₅.memory.reals B l := by
    intro B l hB
    rw [h₆]
    unfold View.Has at hB
    rw [hlen] at hB
    exact if_neg hB
  have hints : τ₆.memory.ints = τ.memory.ints := by
    rw [h₆]
    exact h₅.ints
  have hvector : vectorAt vb s.dim τ₆.memory = fun r : Fin s.dim => y r := by
    funext r
    unfold vectorAt
    rw [h₆, Memory.reals_fill r.2, Nat.zero_add]
    exact h₅.holds.right r r.2
  refine ⟨⟨M, π, hF.reduced, fun r hr c hc => ?_, ?_⟩, ?_, fun B l ha hb hB => ?_, hints⟩
  · have hhas := View.has_of_lt (v := va) (i := r * s.dim + c) (by rw [hS.operands.matrix]; exact row_index_lt hr hc)
    rw [hkept _ _ (hS.operands.apart _ _ hhas)]
    exact h₅.holds.matrix r hr c hc
  · rw [hints]
    exact hF.perm
  · rw [hvector]
    exact hF.reduced.forward_backward hz hy
  · rw [hkept B l hb]
    exact h₅.others B l ha fun ho => hB ho.1

end Again

/-! ## Calls -/

section Calls

variable (ctx : Context R) (file : Statics R) (m : Memory R)

/-- A call that factorizes. -/
theorem meets_solve_exact [IsStrictOrderedRing R] (hS : Arguments s va vb w) :
    Meets (fun _ => False) (s.solve.invoke ctx file [.array va, .array vb, .array w] m) fun r =>
      (r.1 = .int 1 ∧ (matrixAt va s.dim m).det = 0) ∨
        (r.1 = .int 0 ∧ Solved s (matrixAt va s.dim m) (vectorAt vb s.dim m) va vb w m r.2) :=
  Function.meets_invoke rfl ((solve_computes hS rfl rfl).runs.mono (fun _ h => h.elim) fun _ _ h => h)

/-- A call that solves again. -/
theorem meets_solveAgain_exact (hS : Arguments s va vb w) (hdim : 0 < s.dim) {A : Matrix (Fin s.dim) (Fin s.dim) R}
    (hF : Factored A va w M π m) :
    Meets (fun _ => False) (s.solveAgain.invoke ctx file [.array va, .array vb, .array w] m) fun r =>
      r.1 = .int 0 ∧ SolvedAgain s A (vectorAt vb s.dim m) va vb w m r.2 :=
  Function.meets_invoke rfl ((solveAgain_computes hS hdim hF rfl rfl rfl).runs.mono (fun _ h => h.elim) fun _ _ h => h)

variable {ctx file m}

theorem solve_dividesWell [IsStrictOrderedRing R] (hS : Arguments s va vb w) :
    s.solve.DividesWell ctx file [.array va, .array vb, .array w] m := by
  rintro σ ⟨⟩
  exact (solve_computes hS rfl rfl).divides

theorem solveAgain_dividesWell (hS : Arguments s va vb w) (hdim : 0 < s.dim) {A : Matrix (Fin s.dim) (Fin s.dim) R}
    (hF : Factored A va w M π m) : s.solveAgain.DividesWell ctx file [.array va, .array vb, .array w] m := by
  rintro σ ⟨⟩
  exact (solveAgain_computes hS hdim hF rfl rfl rfl).divides

end Calls

/-- The factors and the order of the rows are as a call has left them. -/
structure SameFactors (va w : View) (m m' : Memory R) : Prop where
  matrix : ∀ i < va.length, m'.reals va.block (va.first + i) = m.reals va.block (va.first + i)
  perm : ∀ i < w.length, m'.ints w.block (w.first + i) = m.ints w.block (w.first + i)

omit [Field R] [LinearOrder R] [Reading R] in
theorem SameFactors.refl (m : Memory R) : SameFactors va w m m := ⟨fun _ _ => rfl, fun _ _ => rfl⟩

omit [Field R] [LinearOrder R] [Reading R] in
theorem SameFactors.trans {m m' m'' : Memory R} (h : SameFactors va w m m') (h' : SameFactors va w m' m'') :
    SameFactors va w m m'' :=
  ⟨fun i hi => (h'.matrix i hi).trans (h.matrix i hi), fun i hi => (h'.perm i hi).trans (h.perm i hi)⟩

omit [LinearOrder R] [Reading R] in
theorem Factored.same {A : Matrix (Fin s.dim) (Fin s.dim) R} {m m' : Memory R} (h : Factored A va w M π m)
    (hS : Arguments s va vb w) (hsame : SameFactors va w m m') : Factored A va w M π m' := by
  have hlen := hS.perm
  refine ⟨h.reduced, fun r hr c hc => ?_, fun r => ?_⟩
  · rw [hsame.matrix _ (by rw [hS.operands.matrix]; exact row_index_lt hr hc)]
    exact h.matrix r hr c hc
  · rw [hsame.perm _ (by omega)]
    exact h.perm r

section Link

variable {size : Struct → String → ℕ} {calls : Calls R}

theorem link_solve : C.link size s.items calls s.solveName = s.solve.invoke ⟨size, calls⟩ .none :=
  (if_neg s.solveName_ne).trans (if_pos rfl)

theorem link_solveAgain : C.link size s.items calls s.solveAgainName =
    s.solveAgain.invoke ⟨size, C.link size [.function s.solve] calls⟩ .none := if_pos rfl

end Link

/-- A call that factorizes answers zero exactly if the matrix is not singular. It then leaves the only solution and a
permutation of the rows, and so do calls that solve again, for any right side, with what it has left. No division is by
zero. -/
theorem solves_systems [IsStrictOrderedRing R] (s : LinearSystem) (hdim : 0 < s.dim) (size : Struct → String → ℕ)
    (calls : Calls R) {va vb w : View} (hargs : Arguments s va vb w) (m : Memory R) :
    s.solve.DividesWell ⟨size, calls⟩ .none [.array va, .array vb, .array w] m ∧
    ∃ k m₁, C.link size s.items calls s.solveName [.array va, .array vb, .array w] m = .ok (.int k, m₁) ∧
      (k = 0 ↔ (matrixAt va s.dim m).det ≠ 0) ∧
      (k = 0 →
        (∀ x, (matrixAt va s.dim m).mulVec x = vectorAt vb s.dim m ↔ x = vectorAt vb s.dim m₁) ∧
        (∃ π, Permutes s.dim w π m₁.ints) ∧
        ∀ vb' m', Arguments s va vb' w → SameFactors va w m₁ m' →
          s.solveAgain.DividesWell ⟨size, C.link size [.function s.solve] calls⟩ .none
            [.array va, .array vb', .array w] m' ∧
          ∃ m₂, C.link size s.items calls s.solveAgainName [.array va, .array vb', .array w] m' = .ok (.int 0, m₂) ∧
            ∀ x, (matrixAt va s.dim m).mulVec x = vectorAt vb' s.dim m' ↔ x = vectorAt vb' s.dim m₂) := by
  refine ⟨solve_dividesWell hargs, ?_⟩
  rw [link_solve]
  obtain ⟨⟨answer, m₁⟩, hcall, hanswer⟩ := (meets_solve_exact ⟨size, calls⟩ .none m hargs).exists_ok
  rcases hanswer with ⟨rfl, hdet⟩ | ⟨rfl, hsolved⟩
  · exact ⟨1, m₁, hcall, iff_of_false one_ne_zero (not_not.2 hdet), fun h => absurd h one_ne_zero⟩
  · obtain ⟨M, π, hF⟩ := hsolved.factored
    have hdet := hF.reduced.nonsingular
    refine ⟨0, m₁, hcall, iff_of_true rfl hdet, fun _ => ⟨mulVec_eq_iff hdet hsolved.solution, ⟨π, hF.perm⟩,
      fun vb' m' hargs' hsame => ?_⟩⟩
    have hF' := hF.same hargs hsame
    rw [link_solveAgain]
    obtain ⟨⟨answer, m₂⟩, hcall', rfl, hagain⟩ := (meets_solveAgain_exact ⟨size, C.link size [.function s.solve] calls⟩
      .none m' hargs' hdim hF').exists_ok
    exact ⟨solveAgain_dividesWell hargs' hdim hF', m₂, hcall', mulVec_eq_iff hdet hagain.solution⟩

end Solve

/-! ## Two unknowns -/

/-- An array of the workspace. -/
def workArray (name : String) (length : ℕ) : View := ⟨.member .workspace name, 0, length⟩

/-- The first row of the matrix has no pivot. -/
def zeroFirst : Memory ℚ where
  reals b i :=
    if b = .member .workspace "rk_A" then [0, 1, 2, 3].getD i 0
    else if b = .member .workspace "rk_b" then [1, 8].getD i 0
    else 0
  ints _ _ := 0
  clock := 0

theorem arguments_workArray (right : String) (h : "rk_A" ≠ right) :
    Arguments ⟨"acado", 2⟩ (workArray "rk_A" 4) (workArray right 2) (workArray "rk_perm" 2) :=
  ⟨⟨rfl, rfl, View.apart_of_block_ne fun heq => h (Block.member.inj heq).2⟩, rfl, Block.noConfusion, Block.noConfusion⟩

theorem solves_systems_zeroFirst :
    ∃ m₁ m₂,
      C.link (fun _ _ => 0) (LinearSystem.items ⟨"acado", 2⟩) (fun _ _ _ => .error (.undefined "")) "acado_solve_dim2_system"
        [.array (workArray "rk_A" 4), .array (workArray "rk_b" 2), .array (workArray "rk_perm" 2)] zeroFirst =
          .ok (.int 0, m₁) ∧
      vectorAt (workArray "rk_b" 2) 2 m₁ = ![5 / 2, 1] ∧
      C.link (fun _ _ => 0) (LinearSystem.items ⟨"acado", 2⟩) (fun _ _ _ => .error (.undefined ""))
        "acado_solve_dim2_system_reuse"
        [.array (workArray "rk_A" 4), .array (workArray "rk_kkk" 2), .array (workArray "rk_perm" 2)]
        (m₁.fill (.member .workspace "rk_kkk") 0 2 fun i => if i = 0 then 0 else 2) = .ok (.int 0, m₂) ∧
      vectorAt (workArray "rk_kkk" 2) 2 m₂ = ![1, 0] := by
  have hmatrix : matrixAt (workArray "rk_A" 4) 2 zeroFirst = !![0, 1; 2, 3] := by
    ext r c
    fin_cases r <;> fin_cases c <;> rfl
  have hdet : (matrixAt (workArray "rk_A" 4) 2 zeroFirst).det ≠ 0 := by
    rw [hmatrix, Matrix.det_fin_two_of]
    norm_num
  have hright : vectorAt (workArray "rk_b" 2) 2 zeroFirst = ![1, 8] := by
    ext r
    fin_cases r <;> rfl
  obtain ⟨-, k, m₁, hcall, hzero, hsolved⟩ := solves_systems ⟨"acado", 2⟩ (by decide) (fun _ _ => 0)
    (fun _ _ _ => .error (.undefined "")) (arguments_workArray "rk_b" (by decide)) zeroFirst
  obtain rfl := hzero.2 hdet
  obtain ⟨hsolution, -, hagain⟩ := hsolved rfl
  let m' := m₁.fill (.member .workspace "rk_kkk") 0 2 fun i => if i = 0 then (0 : ℚ) else 2
  have hsame : SameFactors (workArray "rk_A" 4) (workArray "rk_perm" 2) m₁ m' :=
    ⟨fun i _ => congrFun (Memory.reals_fill_of_ne (by decide)) _, fun _ _ => rfl⟩
  obtain ⟨-, m₂, hcall', hsolution'⟩ := hagain (workArray "rk_kkk" 2) m' (arguments_workArray "rk_kkk" (by decide)) hsame
  refine ⟨m₁, m₂, hcall, ((hsolution _).1 ?_).symm, hcall', ((hsolution' _).1 ?_).symm⟩
  · change (matrixAt (workArray "rk_A" 4) 2 zeroFirst).mulVec _ = vectorAt (workArray "rk_b" 2) 2 zeroFirst
    rw [hmatrix, hright]
    ext r
    fin_cases r <;> norm_num [Matrix.mulVec, dotProduct, Fin.sum_univ_two]
  · have hright' : vectorAt (workArray "rk_kkk" 2) 2 m' = ![0, 2] := by
      ext r
      fin_cases r <;> rfl
    change (matrixAt (workArray "rk_A" 4) 2 zeroFirst).mulVec _ = vectorAt (workArray "rk_kkk" 2) 2 m'
    rw [hmatrix, hright']
    ext r
    fin_cases r <;> norm_num [Matrix.mulVec, dotProduct, Fin.sum_univ_two]

end LinearSystem

end Integrator

end ControlCodegen
