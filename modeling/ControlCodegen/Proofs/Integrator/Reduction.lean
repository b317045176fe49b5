import ControlCodegen.Proofs.C.Rounds
import ControlCodegen.Proofs.Integrator.Elimination
import ControlCodegen.Proofs.Integrator.Layout

/-!
# `Integrator.Reduction`: the steps of the generated linear solver

* `Holds`, `Permutes` : a matrix, a right side and a permutation stand in memory.
* `Work` : a function has changed the matrix, the right side, its counters and its temporary, and nothing else.
* `eliminate_computes` : the rows below a pivot are reduced, as `Elimination` has it.
* `substitute_computes` : substitution from the last row up, for the right side of either function.
* `findPivot_computes`, `exchangeRows_computes`, `exchangeRight_computes`, `exchangePerm_computes` : pivoting.

All of it is over exact numbers. The entries of a matrix and of a right side are functions of natural numbers; only those
within the dimension count.
-/

namespace ControlCodegen

open C C.IntExpr Finset

set_option autoImplicit false

namespace C

/-- An element that the view gives access to. -/
def View.Has (v : View) (b : Block) (i : ℕ) : Prop := b = v.block ∧ v.first ≤ i ∧ i < v.first + v.length

/-- No element belongs to both. -/
def View.Apart (v w : View) : Prop := ∀ b i, v.Has b i → ¬w.Has b i

theorem View.has_of_lt {v : View} {i : ℕ} (h : i < v.length) : v.Has v.block (v.first + i) := ⟨rfl, by omega, by omega⟩

theorem View.apart_of_block_ne {v w : View} (h : v.block ≠ w.block) : v.Apart w := fun _ _ hv hw =>
  h (hv.1.symm.trans hw.1)

variable {R : Type}

/-- Two elements change places. -/
def Memory.exchange (m : Memory R) (b : Block) (i j : ℕ) : Memory R :=
  (m.setReal b i (m.reals b j)).setReal b j (m.reals b i)

theorem Memory.reals_exchange (m : Memory R) (b : Block) (i j l : ℕ) :
    (m.exchange b i j).reals b l = m.reals b (Equiv.swap i j l) := by
  unfold exchange setReal
  dsimp only
  rw [Equiv.swap_apply_def]
  by_cases hj : l = j
  · rw [if_pos ⟨rfl, hj⟩]
    split_ifs with hi
    · rw [← hj, hi]
    · rfl
  · rw [if_neg fun h => hj h.2, if_neg hj]
    by_cases hi : l = i
    · rw [if_pos ⟨rfl, hi⟩, if_pos hi]
    · rw [if_neg fun h => hi h.2, if_neg hi]

theorem Memory.reals_exchange_of_ne (m : Memory R) {b b' : Block} {i j l : ℕ} (hi : ¬(b' = b ∧ l = i))
    (hj : ¬(b' = b ∧ l = j)) : (m.exchange b i j).reals b' l = m.reals b' l :=
  (if_neg hj).trans (if_neg hi)

end C

namespace Integrator

namespace LinearSystem

/-! ## Memory -/

section Memory

variable {R : Type}

/-- A matrix and a right side stand in memory. -/
structure Holds (n : ℕ) (va vx : View) (M : ℕ → ℕ → R) (x : ℕ → R) (m : Memory R) : Prop where
  matrix : ∀ r < n, ∀ c < n, m.reals va.block (va.first + (r * n + c)) = M r c
  right : ∀ r < n, m.reals vx.block (vx.first + r) = x r

/-- A permutation stands in memory. -/
def Permutes (n : ℕ) (w : View) (π : Equiv.Perm (Fin n)) (ints : Block → ℕ → ℤ) : Prop :=
  ∀ r : Fin n, ints w.block (w.first + r) = (π r : ℕ)

/-- Arrays for a matrix and for a right side. -/
structure Operands (n : ℕ) (va vx : View) : Prop where
  matrix : va.length = n * n
  right : vx.length = n
  apart : va.Apart vx

variable {n : ℕ} {va vx : View} {M M' : ℕ → ℕ → R} {x x' : ℕ → R} {m : Memory R}

/-- No entry of the matrix is one of the right side. -/
theorem Operands.ne (h : Operands n va vx) {r c k : ℕ} (hr : r < n) (hc : c < n) (hk : k < n) :
    ¬(vx.block = va.block ∧ vx.first + k = va.first + (r * n + c)) := by
  rintro ⟨hblock, heq⟩
  have hva := View.has_of_lt (v := va) (i := r * n + c) (by rw [h.matrix]; exact row_index_lt hr hc)
  have hvx := View.has_of_lt (v := vx) (i := k) (by rw [h.right]; exact hk)
  rw [hblock, heq] at hvx
  exact h.apart _ _ hva hvx

namespace Holds

theorem congr (h : Holds n va vx M x m) (hM : ∀ r < n, ∀ c < n, M r c = M' r c) (hx : ∀ r < n, x r = x' r) :
    Holds n va vx M' x' m :=
  ⟨fun r hr c hc => (h.matrix r hr c hc).trans (hM r hr c hc), fun r hr => (h.right r hr).trans (hx r hr)⟩

/-- An entry of the matrix is set. -/
theorem setMatrix (h : Holds n va vx M x m) (ho : Operands n va vx) {r c : ℕ} (hr : r < n) (hc : c < n) (y : R) :
    Holds n va vx (Function.update M r (Function.update (M r) c y)) x
      (m.setReal va.block (va.first + (r * n + c)) y) := by
  refine ⟨fun r' hr' c' hc' => ?_, fun k hk => ?_⟩
  · unfold Memory.setReal
    dsimp only
    by_cases hat : r' = r ∧ c' = c
    · obtain ⟨rfl, rfl⟩ := hat
      rw [if_pos ⟨rfl, rfl⟩, Function.update_self, Function.update_self]
    · rw [if_neg, h.matrix r' hr' c' hc']
      · by_cases hrr : r' = r
        · subst hrr
          rw [Function.update_self, Function.update_of_ne fun hcc => hat ⟨rfl, hcc⟩]
        · rw [Function.update_of_ne hrr]
      · rintro ⟨-, heq⟩
        exact hat (row_index_inj hc' hc (by omega))
  · exact (if_neg (ho.ne hr hc hk)).trans (h.right k hk)

/-- An entry of the right side is set. -/
theorem setRight (h : Holds n va vx M x m) (ho : Operands n va vx) {k : ℕ} (hk : k < n) (y : R) :
    Holds n va vx M (Function.update x k y) (m.setReal vx.block (vx.first + k) y) := by
  refine ⟨fun r hr c hc => ?_, fun r hr => ?_⟩
  · refine (if_neg ?_).trans (h.matrix r hr c hc)
    rintro ⟨hblock, heq⟩
    exact ho.ne hr hc hk ⟨hblock.symm, heq.symm⟩
  · unfold Memory.setReal
    dsimp only
    by_cases hrk : r = k
    · rw [hrk, if_pos ⟨rfl, rfl⟩, Function.update_self]
    · rw [if_neg fun heq => hrk (by omega), Function.update_of_ne hrk, h.right r hr]

/-- Two entries of a column change places. -/
theorem exchangeColumn (h : Holds n va vx M x m) (ho : Operands n va vx) {i q c : ℕ} (hi : i < n) (hq : q < n)
    (hc : c < n) :
    Holds n va vx (fun r k => if k = c then M (Equiv.swap i q r) k else M r k) x
      (m.exchange va.block (va.first + (i * n + c)) (va.first + (q * n + c))) := by
  refine ⟨fun r hr k hk => ?_, fun k hk => ?_⟩
  · have hat : ∀ {p : ℕ}, va.first + (r * n + k) = va.first + (p * n + c) ↔ r = p ∧ k = c := fun {p} =>
      ⟨fun heq => row_index_inj hk hc (by omega), fun h => by rw [h.1, h.2]⟩
    rw [Memory.reals_exchange, Equiv.swap_apply_def]
    simp only [hat, Equiv.swap_apply_def]
    by_cases hkc : k = c
    · subst hkc
      simp only [and_true, if_true]
      split_ifs
      · exact h.matrix q hq k hk
      · exact h.matrix i hi k hk
      · exact h.matrix r hr k hk
    · simp only [hkc, and_false, if_false]
      exact h.matrix r hr k hk
  · rw [Memory.reals_exchange_of_ne _ (ho.ne hi hc hk) (ho.ne hq hc hk)]
    exact h.right k hk

/-- Two entries of the right side change places. -/
theorem exchangeRight (h : Holds n va vx M x m) (ho : Operands n va vx) {i q : ℕ} (hi : i < n) (hq : q < n) :
    Holds n va vx M (fun r => x (Equiv.swap i q r)) (m.exchange vx.block (vx.first + i) (vx.first + q)) := by
  refine ⟨fun r hr c hc => ?_, fun r hr => ?_⟩
  · have hne : ∀ {k : ℕ}, k < n → ¬(va.block = vx.block ∧ va.first + (r * n + c) = vx.first + k) := fun hk heq =>
      ho.ne hr hc hk ⟨heq.1.symm, heq.2.symm⟩
    rw [Memory.reals_exchange_of_ne _ (hne hi) (hne hq)]
    exact h.matrix r hr c hc
  · simp only [Memory.reals_exchange, Equiv.swap_apply_def, Nat.add_left_cancel_iff]
    split_ifs
    · exact h.right q hq
    · exact h.right i hi
    · exact h.right r hr

end Holds

end Memory

/-! ## Steps of the functions -/

section Steps

variable {R : Type} {s : LinearSystem} {name : String} {va vx w : View} {σ τ : State R} {M M' : ℕ → ℕ → R}
  {x x' : ℕ → R} {ρ : Known}

/-- The matrix and a right side that goes by some name can be reached. -/
structure Site (s : LinearSystem) (name : String) (va vx : View) (σ : State R) : Prop where
  matrix : σ.arrays "A" = some va
  right : σ.arrays name = some vx
  operands : Operands s.dim va vx

/-- Beside the matrix, the right side, counters and the temporary nothing has changed since the state `σ`. -/
structure Work (s : LinearSystem) (va vx : View) (σ : State R) (M : ℕ → ℕ → R) (x : ℕ → R) (τ : State R) : Prop where
  arrays : τ.arrays = σ.arrays
  reals : ∀ v, v ≠ "tmp" → τ.reals v = σ.reals v
  ints : τ.memory.ints = σ.memory.ints
  others : ∀ B l, ¬va.Has B l → ¬vx.Has B l → τ.memory.reals B l = σ.memory.reals B l
  holds : Holds s.dim va vx M x τ.memory

theorem Work.setInt (h : Work s va vx σ M x τ) (v : String) (k : ℤ) : Work s va vx σ M x (τ.setInt v k) :=
  ⟨h.arrays, h.reals, h.ints, h.others, h.holds⟩

theorem Work.congr (h : Work s va vx σ M x τ) (hM : ∀ r < s.dim, ∀ c < s.dim, M r c = M' r c)
    (hx : ∀ r < s.dim, x r = x' r) : Work s va vx σ M' x' τ :=
  ⟨h.arrays, h.reals, h.ints, h.others, h.holds.congr hM hx⟩

theorem counts_index {row col : IntExpr} {r c : ℕ} (hrow : row.Counts ρ r) (hcol : col.Counts ρ c) :
    (s.index row col).Counts ρ (r * s.dim + c) :=
  (hrow.mul (counts_lit s.dim)).add hcol

section Reads

variable [Arithmetic R] (size : Struct → String → ℕ) (hS : Site s name va vx σ) (hτ : Work s va vx σ M x τ)
  (hρ : ρ.Of τ.ints)
include hS hτ hρ

theorem Work.eval_entry {row col : IntExpr} {r c : ℕ} (hrow : row.Counts ρ r) (hcol : col.Counts ρ c) (hr : r < s.dim)
    (hc : c < s.dim) : (s.entry row col).eval size τ = .ok (M r c) := by
  have hlt := row_index_lt hr hc
  have hview : viewOf size τ.arrays (.name "A") = some va := by
    rw [hτ.arrays]
    exact hS.matrix
  rw [← hτ.holds.matrix r hr c hc]
  exact RealExpr.eval_elem hview ((counts_index hrow hcol).eval hρ) (by rw [hS.operands.matrix]; exact hlt)

theorem Work.eval_right {i : IntExpr} {r : ℕ} (hi : i.Counts ρ r) (hr : r < s.dim) :
    (RealExpr.elem (.name name) i).eval size τ = .ok (x r) := by
  have hview : viewOf size τ.arrays (.name name) = some vx := by
    rw [hτ.arrays]
    exact hS.right
  rw [← hτ.holds.right r hr]
  exact RealExpr.eval_elem hview (hi.eval hρ) (by rw [hS.operands.right]; exact hr)

end Reads

variable [Field R] [LinearOrder R] [Reading R] {ctx : Context R} {D : Answer R → Memory R → Prop}

section Writes

variable (hS : Site s name va vx σ) (hτ : Work s va vx σ M x τ) (hρ : ρ.Of τ.ints)
include hS hτ hρ

/-- An entry of the matrix changes. -/
theorem Work.assignEntry {row col : IntExpr} {r c : ℕ} (hrow : row.Counts ρ r) (hcol : col.Counts ρ c) (hr : r < s.dim)
    (hc : c < s.dim) {u : Update} {e : RealExpr} {y : R} (hdiv : e.NoDivision) (hy : u = .div → y ≠ 0)
    (he : e.eval ctx.size τ = .ok y) :
    Computes ctx (.assign (a.entry (s.index row col)) u e) τ (fun τ' => ρ.Of τ'.ints ∧
      Work s va vx σ (Function.update M r (Function.update (M r) c (u.apply (M r c) y))) x τ') D := by
  have hlt := row_index_lt hr hc
  have hview : viewOf ctx.size τ.arrays a = some va := by
    rw [hτ.arrays]
    exact hS.matrix
  refine Computes.assignEntry hdiv (fun hu => decide_eq_false (hy hu)) he hview ((counts_index hrow hcol).eval hρ)
    (by rw [hS.operands.matrix]; exact hlt) ⟨hρ, hτ.arrays, hτ.reals, hτ.ints, fun B l ha hx => ?_, ?_⟩
  · refine (if_neg ?_).trans (hτ.others B l ha hx)
    rintro ⟨rfl, rfl⟩
    exact ha (View.has_of_lt (by rw [hS.operands.matrix]; exact hlt))
  · rw [hτ.holds.matrix r hr c hc]
    exact hτ.holds.setMatrix hS.operands hr hc _

/-- An entry of the right side changes. -/
theorem Work.assignRight {i : IntExpr} {r : ℕ} (hi : i.Counts ρ r) (hr : r < s.dim) {u : Update} {e : RealExpr} {y : R}
    (hdiv : e.NoDivision) (hy : u = .div → y ≠ 0) (he : e.eval ctx.size τ = .ok y) :
    Computes ctx (.assign ((Ref.name name).entry i) u e) τ (fun τ' => ρ.Of τ'.ints ∧
      Work s va vx σ M (Function.update x r (u.apply (x r) y)) τ') D := by
  have hview : viewOf ctx.size τ.arrays (.name name) = some vx := by
    rw [hτ.arrays]
    exact hS.right
  refine Computes.assignEntry hdiv (fun hu => decide_eq_false (hy hu)) he hview (hi.eval hρ)
    (by rw [hS.operands.right]; exact hr) ⟨hρ, hτ.arrays, hτ.reals, hτ.ints, fun B l ha hx => ?_, ?_⟩
  · refine (if_neg ?_).trans (hτ.others B l ha hx)
    rintro ⟨rfl, rfl⟩
    exact hx (View.has_of_lt (by rw [hS.operands.right]; exact hr))
  · rw [hτ.holds.right r hr]
    exact hτ.holds.setRight hS.operands hr _

end Writes

/-! ## Eliminating -/

/-- The rest of a row below the pivot. -/
theorem reduceRow_computes (hS : Site s "b" va vx σ) (hρ : ρ.Of τ.ints) {k j : ℕ} (hi : (var "i").Counts ρ k)
    (hj : (var "j").Counts ρ j) (hk : k < s.dim) (hkj : k < j) (hjn : j < s.dim)
    (hτ : Work s va vx σ (rowReduced k j (k + 1) M) x τ) :
    Computes ctx
      (.countUp "k" (.var "i" + 1) s.dim .inline
        (.assign (a.entry (s.index (.var "j") (.var "k"))) .sub (s.entry (.var "j") (.var "i") * s.entry (.var "i") (.var "k"))))
      τ (fun τ' => (ρ.forget ["k"]).Of τ'.ints ∧ Work s va vx σ (rowReduced k j s.dim M) x τ') D := by
  refine Computes.countUp_known (fun l τ' => Work s va vx σ (rowReduced k j l M) x τ') (fun _ _ y h => h.setInt "k" y) hρ
    (by simp) (hi.add (counts_lit 1)) (fun _ _ => counts_lit s.dim) hk hτ fun l ρ' τ' hkl hl h => ?_
  have hi' := h.keeps.counts (by simp) hi
  have hj' := h.keeps.counts (by simp) hj
  have hfactor := h.property.eval_entry ctx.size hS h.known hj' hi' hjn hk
  have hpivot := h.property.eval_entry ctx.size hS h.known hi' h.count hk hl
  have hvalue : (RealExpr.mul (s.entry (.var "j") (.var "i")) (s.entry (.var "i") (.var "k"))).eval ctx.size τ' =
      .ok (rowReduced k j l M j k * rowReduced k j l M k l) := by
    rw [RealExpr.eval, hfactor, hpivot]
    rfl
  have hnodiv : (RealExpr.mul (s.entry (.var "j") (.var "i")) (s.entry (.var "i") (.var "k"))).NoDivision :=
    ⟨trivial, trivial⟩
  refine (h.property.assignEntry hS h.known hj' h.count hjn hl hnodiv (fun hu => by cases hu) hvalue).mono
    (fun τ₁ h₁ => ⟨h₁.1.forget _, ?_⟩) fun _ _ h => h
  rw [← rowReduced_succ hkj hkl]
  exact h₁.2

/-- The rows below a pivot are reduced with it. -/
theorem eliminate_computes (hS : Site s "b" va vx σ) (hρ : ρ.Of τ.ints) {k : ℕ} (hi : (var "i").Counts ρ k)
    (hk : k < s.dim) (hpivot : M k k ≠ 0) (hτ : Work s va vx σ M x τ) :
    Computes ctx s.eliminate τ (fun τ' => (ρ.forget ["j", "k"]).Of τ'.ints ∧
      Work s va vx σ (eliminated k M) (eliminatedRight k M x) τ') D := by
  have hstart : Work s va vx σ (rowReduced k (k + 1) 0 M) (rightReduced k (k + 1) M x) τ := by
    refine hτ.congr (fun r _ c _ => ?_) fun r _ => ?_
    · unfold rowReduced
      split_ifs with h
      · exact (eliminated_of_le (by omega)).symm
      · rfl
    · unfold rightReduced eliminatedRight
      split_ifs <;> first | rfl | omega
  unfold eliminate
  refine (Computes.countUp_known (fun j τ' => Work s va vx σ (rowReduced k j 0 M) (rightReduced k j M x) τ')
    (fun _ _ y h => h.setInt "j" y) hρ (by simp : "j" ∉ ["k"]) (hi.add (counts_lit 1)) (fun _ _ => counts_lit s.dim) hk
    hstart fun j ρ' τ' hkj hj h => ?_).mono (fun τ' h => ⟨h.1, h.2.congr (fun r hr c _ => ?_) fun r hr => if_pos hr⟩)
    fun _ _ h => h
  · have hkj : k < j := hkj
    have hi' := h.keeps.counts (by simp) hi
    have hone : rowReduced k j 0 M k k ≠ 0 := by
      unfold rowReduced
      rw [if_pos (.inl hkj), eliminated_of_le (Nat.le_refl k)]
      exact hpivot
    have hdivisor := h.property.eval_entry ctx.size hS h.known hi' hi' hk hk
    refine Computes.block_cons (h.property.assignEntry hS h.known h.count hi' hj hk trivial (fun _ => hone) hdivisor)
      fun τ₁ h₁ => ?_
    obtain ⟨hρ₁, hτ₁⟩ := h₁
    change Work s va vx σ (Function.update _ _ (Function.update _ _ (_ / _))) _ τ₁ at hτ₁
    rw [rowReduced_zero hkj] at hτ₁
    refine Computes.block_cons (reduceRow_computes hS hρ₁ hi' h.count hk hkj hj hτ₁) fun τ₂ h₂ => ?_
    obtain ⟨hρ₂, hτ₂⟩ := h₂
    have hkeep := Known.Keeps.forget ρ' ["k"]
    have hi₂ := hkeep.counts (by simp) hi'
    have hj₂ := hkeep.counts (by simp) h.count
    have hfactor := hτ₂.eval_entry ctx.size hS hρ₂ hj₂ hi₂ hj hk
    have hright := hτ₂.eval_right ctx.size hS hρ₂ hi₂ hk
    have hvalue : (RealExpr.mul (s.entry (.var "j") (.var "i")) (.elem b (.var "i"))).eval ctx.size τ₂ =
        .ok (rowReduced k j s.dim M j k * rightReduced k j M x k) := by
      rw [RealExpr.eval, hfactor, b, hright]
      rfl
    have hnodiv : (RealExpr.mul (s.entry (.var "j") (.var "i")) (.elem b (.var "i"))).NoDivision := ⟨trivial, trivial⟩
    refine (hτ₂.assignRight hS hρ₂ hj₂ hj hnodiv (fun hu => by cases hu) hvalue).mono
      (fun τ₃ h₃ => ⟨h₃.1, h₃.2.congr (fun r _ c hc => ?_) fun r _ => ?_⟩) fun _ _ h => h
    · exact if_congr (by omega) rfl rfl
    · exact congrFun (rightReduced_succ hkj hk) r
  · unfold rowReduced
    rw [if_pos (.inl hr)]

/-! ## Substituting -/

/-- Products with other entries are subtracted from an entry of the right side. -/
theorem subtractProducts_computes (hS : Site s name va vx σ) (hρ : ρ.Of τ.ints) {layout : Layout}
    {first bound : IntExpr} {i lo hi : ℕ} (hvar : (var "i").Counts ρ i) (hfirst : first.Counts ρ lo)
    (hbound : ∀ ρ', ρ.Keeps ρ' ["j"] → bound.Counts ρ' hi) (hlohi : lo ≤ hi) (hi' : i < s.dim) (hhi : hi ≤ s.dim)
    (hout : i < lo ∨ hi ≤ i) {y : ℕ → R} (hτ : Work s va vx σ M y τ) :
    Computes ctx
      (.countUp "j" first bound layout
        (.assign ((Ref.name name).entry (.var "i")) .sub (s.entry (.var "i") (.var "j") * .elem (.name name) (.var "j"))))
      τ (fun τ' => (ρ.forget ["j"]).Of τ'.ints ∧
        Work s va vx σ M (Function.update y i (y i - ∑ c ∈ Ico lo hi, M i c * y c)) τ') D := by
  refine Computes.countUp_known
    (fun j τ' => Work s va vx σ M (Function.update y i (y i - ∑ c ∈ Ico lo j, M i c * y c)) τ')
    (fun _ _ k h => h.setInt "j" k) hρ (by simp) hfirst hbound hlohi ?_ fun j ρ' τ' hlo hj h => ?_
  · rw [Ico_self, sum_empty, sub_zero, Function.update_eq_self]
    exact hτ
  have hvar' := h.keeps.counts (by simp) hvar
  have hjn : j < s.dim := Nat.lt_of_lt_of_le hj hhi
  have hentry := h.property.eval_entry ctx.size hS h.known hvar' h.count hi' hjn
  have hright := h.property.eval_right ctx.size hS h.known h.count hjn
  rw [Function.update_of_ne (by omega)] at hright
  have hvalue : (RealExpr.mul (s.entry (.var "i") (.var "j")) (.elem (.name name) (.var "j"))).eval ctx.size τ' =
      .ok (M i j * y j) := by
    rw [RealExpr.eval, hentry, hright]
    rfl
  have hnodiv : (RealExpr.mul (s.entry (.var "i") (.var "j")) (.elem (.name name) (.var "j"))).NoDivision :=
    ⟨trivial, trivial⟩
  refine (h.property.assignRight hS h.known hvar' hi' hnodiv (fun hu => by cases hu) hvalue).mono
    (fun τ₁ h₁ => ⟨h₁.1.forget _, ?_⟩) fun _ _ h => h
  have hnext := h₁.2
  rw [Function.update_self, Function.update_idem] at hnext
  rw [sum_Ico_succ_top hlo, ← sub_sub]
  exact hnext

/-- Substitution from the last row up solves the upper triangle. -/
theorem substitute_computes (hS : Site s name va vx σ) (hρ : ρ.Of τ.ints) (hpivots : ∀ k < s.dim, M k k ≠ 0)
    (hτ : Work s va vx σ M x τ) :
    Computes ctx (s.substitute (.name name)) τ (fun τ' => (ρ.forget ["i", "j"]).Of τ'.ints ∧
      ∃ y, SolvesUpper s.dim M x y ∧ Work s va vx σ M y τ') D := by
  unfold substitute
  refine (Computes.countDown_known (fun k τ' => ∃ y, Substituted s.dim M x k y ∧ Work s va vx σ M y τ') ?_ hρ
    (by simp : "i" ∉ ["j"]) ?_ fun k ρ' τ' hk _ hi hρ' hτ' => ?_).mono (fun τ' hτ' => ⟨hτ'.1, ?_⟩) fun _ _ h => h
  · rintro k τ' v ⟨y, hy, hτ'⟩
    exact ⟨y, hy, hτ'.setInt "i" v⟩
  · exact ⟨x, ⟨fun _ _ => rfl, fun r hr hn => absurd hn (Nat.not_lt.2 hr)⟩, hτ⟩
  · obtain ⟨y, hy, hτ'⟩ := hτ'
    refine Computes.block_cons (subtractProducts_computes hS hρ' hi (hi.add (counts_lit 1)) (fun _ _ => counts_lit s.dim)
      hk hk (Nat.le_refl _) (.inl (Nat.lt_succ_self k)) hτ') fun τ₁ h₁ => ?_
    obtain ⟨hρ₁, hτ₁⟩ := h₁
    have hi₁ := (Known.Keeps.forget ρ' ["j"]).counts (by simp) hi
    have hpivot := hτ₁.eval_entry ctx.size hS hρ₁ hi₁ hi₁ hk hk
    have hnodiv : (s.entry (.var "i") (.var "i")).NoDivision := trivial
    refine (hτ₁.assignRight hS hρ₁ hi₁ hk hnodiv (fun _ => hpivots k hk) hpivot).mono
      (fun τ₂ h₂ => ⟨h₂.1, _, hy.step, ?_⟩) fun _ _ h => h
    have hnext := h₂.2
    rw [Function.update_self, Function.update_idem] at hnext
    exact hnext
  · obtain ⟨y, hy, hτ'⟩ := hτ'.2
    exact ⟨y, hy.solvesUpper hpivots, hτ'⟩

/-! ## Pivoting -/

/-- Two elements change places through the temporary. -/
theorem exchange_computes {array : Ref} {v : View} (hv : viewOf ctx.size τ.arrays array = some v) (hρ : ρ.Of τ.ints)
    {first second : IntExpr} {i q : ℕ} (hfirst : first.Counts ρ i) (hsecond : second.Counts ρ q) (hi : i < v.length)
    (hq : q < v.length) :
    Computes ctx (exchange array first second) τ (fun τ' => τ' =
      (τ.setReal "tmp" (τ.memory.reals v.block (v.first + i))).withMemory
        (τ.memory.exchange v.block (v.first + i) (v.first + q))) D := by
  have hread : ∀ {e : IntExpr} {k : ℕ}, e.Counts ρ k → k < v.length → ∀ τ' : State R, τ'.ints = τ.ints →
      τ'.arrays = τ.arrays →
      (RealExpr.elem array e).eval ctx.size τ' = .ok (τ'.memory.reals v.block (v.first + k)) := by
    intro e k he hk τ' hints harrays
    exact RealExpr.eval_elem (by rw [harrays]; exact hv) (he.eval (by rw [hints]; exact hρ)) hk
  unfold exchange
  refine Computes.beside (Computes.assignReal trivial (fun hu => by cases hu) (hread hfirst hi τ rfl rfl) (by rw [State.updateReal])
    rfl) fun τ₁ h₁ => ?_
  subst h₁
  refine Computes.beside (Computes.assignEntry trivial (fun hu => by cases hu) (hread hsecond hq _ rfl rfl) hv
    (hfirst.eval hρ) hi rfl) fun τ₂ h₂ => ?_
  subst h₂
  exact Computes.assignEntry (r := τ.memory.reals v.block (v.first + i)) trivial (fun hu => by cases hu) rfl hv
    (hsecond.eval hρ) hq rfl

variable {i q : ℕ}

/-- Two rows of the matrix change places. -/
theorem exchangeRows_computes (hS : Site s name va vx σ) (hρ : ρ.Of τ.ints) (hi : (var "i").Counts ρ i)
    (hp : (var "p").Counts ρ q) (hin : i < s.dim) (hqn : q < s.dim) (hτ : Work s va vx σ M x τ) :
    Computes ctx (.each "k" s.dim .braces (exchange a (s.index (.var "i") (.var "k")) (s.index (.var "p") (.var "k")))) τ
      (fun τ' => (ρ.forget ["k"]).Of τ'.ints ∧ Work s va vx σ (fun r c => M (Equiv.swap i q r) c) x τ') D := by
  refine (Computes.each_known
    (fun k τ' => Work s va vx σ (fun r c => if c < k then M (Equiv.swap i q r) c else M r c) x τ')
    (fun _ _ k h => h.setInt "k" k) hρ (by simp) ?_ fun k ρ' τ' hk h => ?_).mono (fun τ' h => ⟨h.1, h.2.congr ?_ ?_⟩)
    fun _ _ h => h
  · exact hτ.congr (fun r _ c _ => (if_neg (Nat.not_lt_zero c)).symm) fun _ _ => rfl
  · have hview : viewOf ctx.size τ'.arrays a = some va := by
      rw [h.property.arrays]
      exact hS.matrix
    have hlt : ∀ {r : ℕ}, r < s.dim → r * s.dim + k < va.length := fun hr => by
      rw [hS.operands.matrix]
      exact row_index_lt hr hk
    refine (exchange_computes hview h.known (counts_index (h.keeps.counts (by simp) hi) h.count)
      (counts_index (h.keeps.counts (by simp) hp) h.count) (hlt hin) (hlt hqn)).mono (fun τ₁ h₁ => ?_) fun _ _ h => h
    subst h₁
    refine ⟨h.known.forget _, h.property.arrays, fun v hv => ?_, h.property.ints, fun B l ha hx => ?_, ?_⟩
    · exact (if_neg hv).trans (h.property.reals v hv)
    · have hne : ∀ {r : ℕ}, r < s.dim → ¬(B = va.block ∧ l = va.first + (r * s.dim + k)) := by
        rintro r hr ⟨rfl, rfl⟩
        exact ha (View.has_of_lt (hlt hr))
      exact (Memory.reals_exchange_of_ne _ (hne hin) (hne hqn)).trans (h.property.others B l ha hx)
    · refine (h.property.holds.exchangeColumn hS.operands hin hqn hk).congr (fun r _ c _ => ?_) fun _ _ => rfl
      rcases Nat.lt_trichotomy c k with hck | rfl | hck
      · rw [if_neg (Nat.ne_of_lt hck), if_pos hck, if_pos (Nat.lt_succ_of_lt hck)]
      · rw [if_pos rfl, if_neg (Nat.lt_irrefl c), if_pos (Nat.lt_succ_self c)]
      · rw [if_neg (Nat.ne_of_gt hck), if_neg (by omega), if_neg (by omega)]
  · exact fun r _ c hc => if_pos hc
  · exact fun _ _ => rfl

/-- Two entries of the right side change places. -/
theorem exchangeRight_computes (hS : Site s name va vx σ) (hρ : ρ.Of τ.ints) (hi : (var "i").Counts ρ i)
    (hp : (var "p").Counts ρ q) (hin : i < s.dim) (hqn : q < s.dim) (hτ : Work s va vx σ M x τ) :
    Computes ctx (exchange (.name name) (.var "i") (.var "p")) τ
      (fun τ' => ρ.Of τ'.ints ∧ Work s va vx σ M (fun r => x (Equiv.swap i q r)) τ') D := by
  have hview : viewOf ctx.size τ.arrays (.name name) = some vx := by
    rw [hτ.arrays]
    exact hS.right
  have hlen := hS.operands.right
  refine (exchange_computes hview hρ hi hp (by omega) (by omega)).mono (fun τ₁ h₁ => ?_) fun _ _ h => h
  subst h₁
  refine ⟨hρ, hτ.arrays, fun v hv => (if_neg hv).trans (hτ.reals v hv), hτ.ints, fun B l ha hx => ?_,
    hτ.holds.exchangeRight hS.operands hin hqn⟩
  have hne : ∀ {r : ℕ}, r < s.dim → ¬(B = vx.block ∧ l = vx.first + r) := by
    rintro r hr ⟨rfl, rfl⟩
    exact hx (View.has_of_lt (by omega))
  exact (Memory.reals_exchange_of_ne _ (hne hin) (hne hqn)).trans (hτ.others B l ha hx)

/-- Two entries of the permutation change places. -/
theorem exchangePerm_computes (hw : viewOf ctx.size τ.arrays perm = some w) (hlen : w.length = s.dim) (hρ : ρ.Of τ.ints)
    (hi : (var "i").Counts ρ i) (hp : (var "p").Counts ρ q) (hin : i < s.dim) (hqn : q < s.dim)
    {π : Equiv.Perm (Fin s.dim)} (hπ : Permutes s.dim w π τ.memory.ints) :
    Computes ctx (exchangePerm (.var "i") (.var "p")) τ (fun τ' => (ρ.forget ["k"]).Of τ'.ints ∧
      τ'.arrays = τ.arrays ∧ τ'.reals = τ.reals ∧ τ'.memory.reals = τ.memory.reals ∧
      (∀ B l, ¬w.Has B l → τ'.memory.ints B l = τ.memory.ints B l) ∧
      Permutes s.dim w (π * Equiv.swap ⟨i, hin⟩ ⟨q, hqn⟩) τ'.memory.ints) D := by
  let x := τ.memory.ints w.block (w.first + i)
  have hi' : (var "i").Counts (ρ.set "k" (some x)) i := counts_set_of_ne hi (by decide) _
  have hp' : (var "p").Counts (ρ.set "k" (some x)) q := counts_set_of_ne hp (by decide) _
  have hρ' : (ρ.set "k" (some x)).Of (τ.setInt "k" x).ints := hρ.setInt "k" x
  refine .of_noDivision ⟨trivial, trivial, trivial⟩ ?_
  unfold exchangePerm
  refine Runs.beside (Runs.assignInt (IntExpr.eval_elem hw (hi.eval hρ) (by omega)) rfl rfl) fun τ₁ h₁ => ?_
  subst h₁
  refine Runs.beside (Runs.assignIntEntry (IntExpr.eval_elem hw (hp'.eval hρ') (by omega)) hw (hi'.eval hρ') (by omega)
    rfl) fun τ₂ h₂ => ?_
  subst h₂
  refine Runs.assignIntEntry (x := x) ?_ hw (hp'.eval hρ') (by omega) ⟨hρ'.mono (ρ.forget_le_set (by simp) _), rfl, rfl,
    rfl, fun B l hB => ?_, fun r => ?_⟩
  · exact IntExpr.eval_var (State.ints_setInt_self τ "k" x)
  · have hne : ∀ {r : ℕ}, r < s.dim → ¬(B = w.block ∧ l = w.first + r) := by
      rintro r hr ⟨rfl, rfl⟩
      exact hB (View.has_of_lt (by omega))
    exact (if_neg (hne hqn)).trans (if_neg (hne hin))
  · rw [Equiv.Perm.mul_apply, ← hπ, val_swap hin hqn, Equiv.swap_apply_def]
    change (if w.block = w.block ∧ w.first + (r : ℕ) = w.first + q then x else
      if w.block = w.block ∧ w.first + (r : ℕ) = w.first + i then τ.memory.ints w.block (w.first + q) else
        τ.memory.ints w.block (w.first + r)) = _
    simp only [true_and, Nat.add_left_cancel_iff]
    split_ifs with hrq hri hri
    · rw [← hrq, hri]
    · rfl
    · rfl
    · rfl

/-- The largest entry of a column, at or below the diagonal. -/
theorem findPivot_computes (hS : Site s name va vx σ) (hρ : ρ.Of τ.ints) {k : ℕ} (hi : (var "i").Counts ρ k)
    (hp : τ.ints "p" = some (k : ℤ)) (hk : k < s.dim) (hτ : Work s va vx σ M x τ) :
    Computes ctx
      (.countUp "j" (.var "i" + 1) s.dim .hanging
        (.when (.greater (.abs (s.entry (.var "j") (.var "i"))) (.abs (s.entry (.var "p") (.var "i")))) .inline
          (.assignInt ⟨.name "p", none⟩ (.var "j"))))
      τ (fun τ' => ∃ q, k ≤ q ∧ q < s.dim ∧ (∀ r, k ≤ r → r < s.dim → |M r k| ≤ |M q k|) ∧
        ((ρ.forget ["j", "p"]).set "p" (some (q : ℤ))).Of τ'.ints ∧ Work s va vx σ M x τ') D := by
  refine .of_noDivision ⟨⟨trivial, trivial⟩, trivial⟩ ?_
  refine (Runs.countUp_known
    (fun j τ' => ∃ q, k ≤ q ∧ q < s.dim ∧ τ'.ints "p" = some (q : ℤ) ∧ (∀ r, k ≤ r → r < j → |M r k| ≤ |M q k|) ∧
      Work s va vx σ M x τ') ?_ hρ (by simp : "j" ∉ ["p"]) (hi.add (counts_lit 1)) (fun _ _ => counts_lit s.dim) hk ?_
    fun j ρ' τ' _ hj h => ?_).mono (fun τ' h => ?_) fun _ _ h => h
  · rintro j τ' v ⟨q, hkq, hq, hpq, hmax, hτ'⟩
    exact ⟨q, hkq, hq, hpq, hmax, hτ'.setInt "j" v⟩
  · refine ⟨k, Nat.le_refl k, hk, hp, fun r hkr hr => ?_, hτ⟩
    obtain rfl : r = k := by omega
    exact le_rfl
  · obtain ⟨q, hkq, hq, hpq, hmax, hτ'⟩ := h.property
    have hρ' := h.known.learn hpq
    have hi' := counts_set_of_ne (n := "p") (h.keeps.counts (by simp) hi) (by simp) (some (q : ℤ))
    have hj' := counts_set_of_ne (n := "p") h.count (by simp) (some (q : ℤ))
    have hp' := counts_set_self ρ' "p" q
    have hnew := hτ'.eval_entry ctx.size hS hρ' hj' hi' hj hk
    have hold := hτ'.eval_entry ctx.size hS hρ' hp' hi' hq hk
    have htest : (Test.greater (.abs (s.entry (.var "j") (.var "i"))) (.abs (s.entry (.var "p") (.var "i")))).eval ctx.size
        τ' = .ok (decide (|M q k| < |M j k|)) := by
      rw [Test.eval, RealExpr.eval, RealExpr.eval, hnew, hold]
      rfl
    refine Runs.when htest (fun hlt => ?_) fun hge => ?_
    · have hlt := of_decide_eq_true hlt
      refine Runs.assignInt (h.count.eval h.known) rfl ⟨?_, j, by omega, hj, State.ints_setInt_self _ _ _, fun r hkr hr => ?_,
        hτ'.setInt "p" j⟩
      · exact (h.known.setInt "p" j).mono (ρ'.forget_le_set (by simp) _)
      · rcases Nat.lt_succ_iff_lt_or_eq.1 hr with hr | rfl
        · exact (hmax r hkr hr).trans hlt.le
        · exact le_rfl
    · have hge := not_lt.1 (of_decide_eq_false hge)
      refine ⟨h.known.forget _, q, hkq, hq, hpq, fun r hkr hr => ?_, hτ'⟩
      rcases Nat.lt_succ_iff_lt_or_eq.1 hr with hr | rfl
      · exact hmax r hkr hr
      · exact hge
  · obtain ⟨hρ', q, hkq, hq, hpq, hmax, hτ'⟩ := h
    exact ⟨q, hkq, hq, hmax, hρ'.learn hpq, hτ'⟩

end Steps

end LinearSystem

end Integrator

end ControlCodegen
