import Mathlib.LinearAlgebra.Matrix.Block
import Mathlib.Logic.Equiv.Fin.Basic

/-!
# `Integrator.Elimination`: the mathematics of elimination with row exchanges

* `Reduced` : the first columns of a matrix have been reduced in place. What has been subtracted stands below the
  diagonal, so that the original rows, in the order of a permutation, can be read off.
* `Reduced.exchange`, `Reduced.eliminate` : what one round of the elimination does.
* `Reduced.singular`, `Reduced.nonsingular` : a column without a pivot means a singular matrix, a full set of pivots a
  nonsingular one.
* `Reduced.forward_backward` : substitution through both triangles solves the original system.

Rows and columns are numbered by natural numbers, as in the program; the original matrix is one over `Fin n`.
-/

namespace ControlCodegen.Integrator

open Finset

set_option autoImplicit false

variable {R : Type} [Field R] {n i q : ℕ} {A : Matrix (Fin n) (Fin n) R} {a : ℕ → ℕ → R} {x : ℕ → R}
  {π : Equiv.Perm (Fin n)}

/-- The upper triangle. -/
def upperEntry (a : ℕ → ℕ → R) (k c : ℕ) : R := if k ≤ c then a k c else 0

/-- The first `i` columns have been reduced: each row of the original is a combination of pivot rows, with the factors
that stand below the diagonal, and of what is left of the row. -/
structure Reduced (A : Matrix (Fin n) (Fin n) R) (i : ℕ) (a : ℕ → ℕ → R) (π : Equiv.Perm (Fin n)) : Prop where
  rows : ∀ r c : Fin n, A (π r) c =
    ∑ k ∈ range (min r i), a r k * upperEntry a k c + if min (r : ℕ) i ≤ c then a r c else 0
  pivots : ∀ k < i, a k k ≠ 0

/-- The right side has been reduced along with the matrix. -/
def ReducedRight (b : Fin n → R) (i : ℕ) (a : ℕ → ℕ → R) (π : Equiv.Perm (Fin n)) (x : ℕ → R) : Prop :=
  ∀ r : Fin n, b (π r) = ∑ k ∈ range (min r i), a r k * x k + x r

theorem Reduced.zero (h : ∀ r c : Fin n, a r c = A r c) : Reduced A 0 a 1 := by
  refine ⟨fun r c => ?_, fun k hk => absurd hk (Nat.not_lt_zero k)⟩
  simp [h]

theorem ReducedRight.zero {b : Fin n → R} (h : ∀ r : Fin n, x r = b r) : ReducedRight b 0 a 1 x := by
  intro r
  simp [h]

/-! ## Exchanging rows -/

/-- Rows are numbered alike by natural numbers and in `Fin n`. -/
theorem val_swap (hi : i < n) (hq : q < n) (r : Fin n) :
    ((Equiv.swap (⟨i, hi⟩ : Fin n) ⟨q, hq⟩ r : Fin n) : ℕ) = Equiv.swap i q (r : ℕ) := by
  simp only [Equiv.swap_apply_def, Fin.ext_iff]
  split_ifs <;> rfl

/-- Rows from the `i`-th on change places among each other. -/
theorem min_swap (hiq : i ≤ q) (r : ℕ) : min (Equiv.swap i q r) i = min r i := by
  rw [Equiv.swap_apply_def]
  split_ifs <;> omega

theorem swap_of_lt (hiq : i ≤ q) {k : ℕ} (hk : k < i) : Equiv.swap i q k = k :=
  Equiv.swap_apply_of_ne_of_ne (by omega) (by omega)

/-- Two rows that have not been pivots yet change places. -/
theorem Reduced.exchange (h : Reduced A i a π) (hi : i < n) (hiq : i ≤ q) (hq : q < n) :
    Reduced A i (fun r c => a (Equiv.swap i q r) c) (π * Equiv.swap ⟨i, hi⟩ ⟨q, hq⟩) := by
  refine ⟨fun r c => ?_, fun k hk => ?_⟩
  · have hrow := h.rows (Equiv.swap ⟨i, hi⟩ ⟨q, hq⟩ r) c
    rw [val_swap hi hq, min_swap hiq] at hrow
    rw [Equiv.Perm.mul_apply, hrow]
    congr 1
    refine sum_congr rfl fun k hk => ?_
    have hk' : k < i := by
      rw [mem_range] at hk
      omega
    simp only [upperEntry, swap_of_lt hiq hk']
  · rw [swap_of_lt hiq hk]
    exact h.pivots k hk

theorem ReducedRight.exchange {b : Fin n → R} (h : ReducedRight b i a π x) (hi : i < n) (hiq : i ≤ q) (hq : q < n) :
    ReducedRight b i (fun r c => a (Equiv.swap i q r) c) (π * Equiv.swap ⟨i, hi⟩ ⟨q, hq⟩)
      fun r => x (Equiv.swap i q r) := by
  intro r
  have hrow := h (Equiv.swap ⟨i, hi⟩ ⟨q, hq⟩ r)
  rw [val_swap hi hq, min_swap hiq] at hrow
  rw [Equiv.Perm.mul_apply, hrow]
  congr 1
  refine sum_congr rfl fun k hk => ?_
  have hk' : k < i := by
    rw [mem_range] at hk
    omega
  simp only [swap_of_lt hiq hk']

/-! ## Eliminating below a pivot -/

/-- The matrix after its column `i` has been reduced with the pivot in row `i`. -/
def eliminated (i : ℕ) (a : ℕ → ℕ → R) (r c : ℕ) : R :=
  if i < r then
    if c < i then a r c else if c = i then a r i / a i i else a r c - a r i / a i i * a i c
  else a r c

/-- The right side after that. -/
def eliminatedRight (i : ℕ) (a : ℕ → ℕ → R) (x : ℕ → R) (r : ℕ) : R :=
  if i < r then x r - a r i / a i i * x i else x r

theorem eliminated_of_le {r c : ℕ} (h : r ≤ i) : eliminated i a r c = a r c := if_neg (Nat.not_lt.2 h)

theorem eliminated_of_lt {r c : ℕ} (h : c < i) : eliminated i a r c = a r c := by
  unfold eliminated
  rw [if_pos h, ite_self]

theorem eliminated_pivot {r : ℕ} (h : i < r) : eliminated i a r i = a r i / a i i := by
  unfold eliminated
  rw [if_pos h, if_neg (Nat.lt_irrefl i), if_pos rfl]

theorem eliminated_behind {r c : ℕ} (hr : i < r) (hc : i < c) :
    eliminated i a r c = a r c - a r i / a i i * a i c := by
  unfold eliminated
  rw [if_pos hr, if_neg (by omega), if_neg (by omega)]

theorem upperEntry_eliminated {k : ℕ} (hk : k ≤ i) (c : ℕ) :
    upperEntry (eliminated i a) k c = upperEntry a k c := by
  unfold upperEntry
  rw [eliminated_of_le hk]

/-- The factors of the rows that are pivots already stay as they are. -/
theorem sum_eliminated (r : ℕ) (f : ℕ → R) :
    ∑ k ∈ range (min r i), eliminated i a r k * f k = ∑ k ∈ range (min r i), a r k * f k := by
  refine sum_congr rfl fun k hk => ?_
  rw [mem_range] at hk
  rw [eliminated_of_lt (by omega)]

/-- Column `i` is reduced with the pivot in row `i`. -/
theorem Reduced.eliminate (h : Reduced A i a π) (hpivot : a i i ≠ 0) : Reduced A (i + 1) (eliminated i a) π := by
  refine ⟨fun r c => ?_, fun k hk => ?_⟩
  · have hupper : ∀ m ≤ i + 1, ∑ k ∈ range m, eliminated i a r k * upperEntry (eliminated i a) k c =
        ∑ k ∈ range m, eliminated i a r k * upperEntry a k c := fun m hm =>
      sum_congr rfl fun k hk => by
        rw [mem_range] at hk
        rw [upperEntry_eliminated (by omega)]
    rw [h.rows r c, hupper _ (Nat.min_le_right _ _)]
    rcases Nat.lt_or_ge i r with hir | hri
    · have hmin : min (r : ℕ) i = i := Nat.min_eq_right (Nat.le_of_lt hir)
      have hmin' : min (r : ℕ) (i + 1) = i + 1 := Nat.min_eq_right hir
      have hsum := sum_eliminated (i := i) (a := a) (r : ℕ) fun k => upperEntry a k c
      rw [hmin] at hsum ⊢
      rw [hmin', sum_range_succ, hsum, add_assoc]
      congr 1
      rw [eliminated_pivot hir]
      unfold upperEntry
      rcases Nat.lt_trichotomy (c : ℕ) i with hc | hc | hc
      · rw [if_neg (Nat.not_le.2 hc), if_neg (Nat.not_le.2 hc), if_neg (by omega), mul_zero, add_zero]
      · rw [hc, if_pos (Nat.le_refl i), if_pos (Nat.le_refl i), if_neg (Nat.not_succ_le_self i), add_zero,
          div_mul_cancel₀ _ hpivot]
      · rw [if_pos (Nat.le_of_lt hc), if_pos (Nat.le_of_lt hc), if_pos (Nat.succ_le_of_lt hc), eliminated_behind hir hc,
          add_sub_cancel]
    · have hmin : min (r : ℕ) i = r := Nat.min_eq_left hri
      have hmin' : min (r : ℕ) (i + 1) = r := Nat.min_eq_left (Nat.le_succ_of_le hri)
      have hsum := sum_eliminated (i := i) (a := a) (r : ℕ) fun k => upperEntry a k c
      rw [hmin] at hsum ⊢
      rw [hmin', hsum, eliminated_of_le hri]
  · rw [eliminated_of_le (Nat.lt_succ_iff.1 hk)]
    rcases Nat.lt_succ_iff_lt_or_eq.1 hk with hk | rfl
    · exact h.pivots k hk
    · exact hpivot

theorem ReducedRight.eliminate {b : Fin n → R} (h : ReducedRight b i a π x) :
    ReducedRight b (i + 1) (eliminated i a) π (eliminatedRight i a x) := by
  intro r
  have hright : ∀ k ≤ i, eliminatedRight i a x k = x k := fun k hk => if_neg (Nat.not_lt.2 hk)
  have hsum : ∑ k ∈ range (min r i), eliminated i a r k * eliminatedRight i a x k =
      ∑ k ∈ range (min r i), a r k * x k := by
    refine (sum_congr rfl fun k hk => ?_).trans (sum_eliminated (r : ℕ) x)
    rw [mem_range] at hk
    rw [hright k (by omega)]
  rw [h r]
  rcases Nat.lt_or_ge i r with hir | hri
  · have hmin : min (r : ℕ) i = i := Nat.min_eq_right (Nat.le_of_lt hir)
    have hmin' : min (r : ℕ) (i + 1) = i + 1 := Nat.min_eq_right hir
    rw [hmin] at hsum ⊢
    rw [hmin', sum_range_succ, hsum, eliminated_pivot hir, hright i (Nat.le_refl i), add_assoc]
    unfold eliminatedRight
    rw [if_pos hir, add_sub_cancel]
  · have hmin : min (r : ℕ) i = r := Nat.min_eq_left hri
    have hmin' : min (r : ℕ) (i + 1) = r := Nat.min_eq_left (Nat.le_succ_of_le hri)
    rw [hmin] at hsum ⊢
    rw [hmin', hsum, hright r hri]

/-- Row `j` once its first entries have been reduced with pivot `k`, and the rows above it. -/
def rowReduced (k j l : ℕ) (a : ℕ → ℕ → R) (r c : ℕ) : R :=
  if r < j ∨ r = j ∧ c < l then eliminated k a r c else a r c

def rightReduced (k j : ℕ) (a : ℕ → ℕ → R) (x : ℕ → R) (r : ℕ) : R :=
  if r < j then eliminatedRight k a x r else x r

/-- The next entry of a row is reduced. -/
theorem rowReduced_succ {k j l : ℕ} (hkj : k < j) (hkl : k < l) :
    Function.update (rowReduced k j l a) j
        (Function.update (rowReduced k j l a j) l
          (rowReduced k j l a j l - rowReduced k j l a j k * rowReduced k j l a k l)) =
      rowReduced k j (l + 1) a := by
  have hfactor : rowReduced k j l a j k = a j k / a k k := by
    unfold rowReduced
    rw [if_pos (.inr ⟨rfl, hkl⟩), eliminated_pivot hkj]
  have hpivot : rowReduced k j l a k l = a k l := by
    unfold rowReduced
    rw [if_pos (.inl hkj), eliminated_of_le (Nat.le_refl k)]
  have hentry : rowReduced k j l a j l = a j l := if_neg (by omega)
  rw [hfactor, hpivot, hentry]
  funext r c
  rcases eq_or_ne r j with rfl | hrj
  · rw [Function.update_self]
    rcases eq_or_ne c l with rfl | hcl
    · rw [Function.update_self]
      unfold rowReduced
      rw [if_pos (.inr ⟨rfl, Nat.lt_succ_self c⟩), eliminated_behind hkj hkl]
    · rw [Function.update_of_ne hcl]
      exact if_congr (by omega) rfl rfl
  · rw [Function.update_of_ne hrj]
    exact if_congr (by omega) rfl rfl

/-- A row starts with its factor. -/
theorem rowReduced_zero {k j : ℕ} (hkj : k < j) :
    Function.update (rowReduced k j 0 a) j
        (Function.update (rowReduced k j 0 a j) k (rowReduced k j 0 a j k / rowReduced k j 0 a k k)) =
      rowReduced k j (k + 1) a := by
  have hpivot : rowReduced k j 0 a k k = a k k := by
    unfold rowReduced
    rw [if_pos (.inl hkj), eliminated_of_le (Nat.le_refl k)]
  have hentry : ∀ c, rowReduced k j 0 a j c = a j c := fun c => if_neg (by omega)
  rw [hentry k, hpivot]
  funext r c
  rcases eq_or_ne r j with rfl | hrj
  · rw [Function.update_self]
    rcases Nat.lt_trichotomy c k with hck | rfl | hck
    · rw [Function.update_of_ne (Nat.ne_of_lt hck), hentry c]
      unfold rowReduced
      rw [if_pos (.inr ⟨rfl, by omega⟩), eliminated_of_lt hck]
    · rw [Function.update_self]
      unfold rowReduced
      rw [if_pos (.inr ⟨rfl, Nat.lt_succ_self c⟩), eliminated_pivot hkj]
    · rw [Function.update_of_ne (Nat.ne_of_gt hck), hentry c]
      exact (if_neg (by omega)).symm
  · rw [Function.update_of_ne hrj]
    exact if_congr (by omega) rfl rfl

/-- The right side of a row is reduced. -/
theorem rightReduced_succ {k j : ℕ} (hkj : k < j) (hkn : k < n) :
    Function.update (rightReduced k j a x) j
        (rightReduced k j a x j - rowReduced k j n a j k * rightReduced k j a x k) =
      rightReduced k (j + 1) a x := by
  have hfactor : rowReduced k j n a j k = a j k / a k k := by
    unfold rowReduced
    rw [if_pos (.inr ⟨rfl, hkn⟩), eliminated_pivot hkj]
  have hpivot : rightReduced k j a x k = x k := by
    unfold rightReduced eliminatedRight
    rw [if_pos hkj, if_neg (Nat.lt_irrefl k)]
  have hentry : rightReduced k j a x j = x j := if_neg (Nat.lt_irrefl j)
  rw [hfactor, hpivot, hentry]
  funext r
  rcases eq_or_ne r j with rfl | hrj
  · rw [Function.update_self]
    unfold rightReduced eliminatedRight
    rw [if_pos (Nat.lt_succ_self r), if_pos hkj]
  · rw [Function.update_of_ne hrj]
    exact if_congr (by omega) rfl rfl

/-! ## Determinants -/

/-- The factors, with ones on the diagonal. -/
def lowerFactor (n i : ℕ) (a : ℕ → ℕ → R) : Matrix (Fin n) (Fin n) R := fun r k =>
  if (k : ℕ) < min (r : ℕ) i then a r k else if k = r then 1 else 0

/-- What is left of the matrix. -/
def upperFactor (n i : ℕ) (a : ℕ → ℕ → R) : Matrix (Fin n) (Fin n) R := fun k c =>
  if min (k : ℕ) i ≤ c then a k c else 0

theorem Reduced.factors (h : Reduced A i a π) : A.submatrix π id = lowerFactor n i a * upperFactor n i a := by
  ext r c
  rw [Matrix.submatrix_apply, id, h.rows r c, Matrix.mul_apply]
  have hbelow : ∑ k : Fin n, (if (k : ℕ) < min (r : ℕ) i then a r k * upperFactor n i a k c else 0) =
      ∑ k ∈ range (min r i), a r k * upperEntry a k c := by
    have hrange : range (min (r : ℕ) i) = {k ∈ range n | k < min (r : ℕ) i} := by
      ext k
      simp only [mem_range, mem_filter]
      omega
    rw [hrange, sum_filter, sum_range]
    refine sum_congr rfl fun k _ => ?_
    split_ifs with hk
    · have hki : min (k : ℕ) i = k := by omega
      unfold upperFactor upperEntry
      rw [hki]
    · rfl
  have hdiagonal : ∑ k : Fin n, (if k = r then upperFactor n i a k c else 0) = upperFactor n i a r c := by
    rw [sum_ite_eq' univ r, if_pos (mem_univ r)]
  have hsplit : ∀ k : Fin n, lowerFactor n i a r k * upperFactor n i a k c =
      (if (k : ℕ) < min (r : ℕ) i then a r k * upperFactor n i a k c else 0) +
        if k = r then upperFactor n i a k c else 0 := by
    intro k
    unfold lowerFactor
    by_cases hk : (k : ℕ) < min (r : ℕ) i
    · have hne : k ≠ r := by
        rintro rfl
        omega
      rw [if_pos hk, if_pos hk, if_neg hne, add_zero]
    · rw [if_neg hk, if_neg hk, zero_add, ite_mul, one_mul, zero_mul]
  rw [sum_congr rfl fun k _ => hsplit k, sum_add_distrib, hbelow, hdiagonal]
  rfl

theorem det_lowerFactor : (lowerFactor n i a).det = 1 := by
  rw [Matrix.det_of_isLowerTriangular]
  · refine prod_eq_one fun r _ => ?_
    unfold lowerFactor
    rw [if_neg (by omega), if_pos rfl]
  · intro r k hrk
    have hlt : r < k := hrk
    unfold lowerFactor
    rw [if_neg (by omega), if_neg (Fin.ne_of_gt hlt)]

/-- The determinant is that of what is left, up to its sign. -/
theorem Reduced.det_eq_zero_iff (h : Reduced A i a π) : A.det = 0 ↔ (upperFactor n i a).det = 0 := by
  have hdet : (Equiv.Perm.sign π : R) * A.det = (upperFactor n i a).det := by
    rw [← Matrix.det_permute, h.factors, Matrix.det_mul, det_lowerFactor, one_mul]
  rw [← hdet, mul_eq_zero, or_iff_right]
  rcases Int.units_eq_one_or (Equiv.Perm.sign π) with hs | hs <;> simp [hs]

/-- Where a column has nothing to be a pivot the matrix is singular. -/
theorem Reduced.singular (h : Reduced A i a π) (hi : i < n) (hcolumn : ∀ r, i ≤ r → r < n → a r i = 0) : A.det = 0 := by
  rw [h.det_eq_zero_iff, Matrix.twoBlockTriangular_det _ fun c : Fin n => (c : ℕ) < i]
  · have hzero : (Matrix.toSquareBlockProp (upperFactor n i a) fun c : Fin n => ¬(c : ℕ) < i).det = 0 := by
      refine Matrix.det_eq_zero_of_column_eq_zero ⟨⟨i, hi⟩, Nat.lt_irrefl i⟩ fun r => ?_
      obtain ⟨r, hr⟩ := r
      have hle : i ≤ (r : ℕ) := Nat.not_lt.1 hr
      change (if min (r : ℕ) i ≤ i then a r i else 0) = 0
      rw [if_pos (Nat.min_le_right _ _), hcolumn r hle r.2]
    rw [hzero, mul_zero]
  · intro r hr c hc
    unfold upperFactor
    rw [if_neg (by omega)]

/-- Where every column has a pivot the matrix is nonsingular. -/
theorem Reduced.nonsingular (h : Reduced A n a π) : A.det ≠ 0 := by
  rw [Ne, h.det_eq_zero_iff, Matrix.det_of_isUpperTriangular]
  · refine Finset.prod_ne_zero_iff.2 fun r _ => ?_
    unfold upperFactor
    rw [if_pos (Nat.min_le_left _ _)]
    exact h.pivots r r.2
  · intro r c hrc
    have hlt : c < r := hrc
    unfold upperFactor
    rw [if_neg (by omega)]

/-! ## Substitution -/

/-- The vector solves the upper triangle. -/
def SolvesUpper (n : ℕ) (a : ℕ → ℕ → R) (z y : ℕ → R) : Prop :=
  ∀ r < n, ∑ c ∈ range n, upperEntry a r c * y c = z r

/-- Substitution through both triangles solves the original system. -/
theorem Reduced.forward_backward (h : Reduced A n a π) {b : Fin n → R} {z y : ℕ → R} (hz : ReducedRight b n a π z)
    (hy : SolvesUpper n a z y) : A.mulVec (fun c => y c) = b := by
  have hrow : ∀ r : Fin n, A.mulVec (fun c => y c) (π r) = b (π r) := by
    intro r
    have hmin : min (r : ℕ) n = r := Nat.min_eq_left (Nat.le_of_lt r.2)
    have hentry : ∀ c : Fin n, A (π r) c * y c =
        ∑ k ∈ range r, a r k * (upperEntry a k c * y c) + upperEntry a r c * y c := by
      intro c
      rw [h.rows r c, hmin, add_mul, sum_mul]
      congr 1
      exact sum_congr rfl fun k _ => mul_assoc _ _ _
    have hupper : ∀ k < n, ∑ c : Fin n, upperEntry a k c * y c = z k := fun k hk => by
      rw [← hy k hk, sum_range]
    calc A.mulVec (fun c => y c) (π r) = ∑ c : Fin n, A (π r) c * y c := rfl
      _ = ∑ c : Fin n, (∑ k ∈ range r, a r k * (upperEntry a k c * y c) + upperEntry a r c * y c) :=
        sum_congr rfl fun c _ => hentry c
      _ = ∑ k ∈ range r, a r k * z k + z r := by
        rw [sum_add_distrib, sum_comm, hupper r r.2]
        congr 1
        refine sum_congr rfl fun k hk => ?_
        rw [← mul_sum, hupper k (Nat.lt_trans (mem_range.1 hk) r.2)]
      _ = b (π r) := by
        have hb := hz r
        rw [hmin] at hb
        exact hb.symm
  funext r
  have hr := hrow (π.symm r)
  rw [Equiv.apply_symm_apply] at hr
  exact hr

/-- A nonsingular system has one solution. -/
theorem mulVec_eq_iff (hA : A.det ≠ 0) {b y : Fin n → R} (hy : A.mulVec y = b) (y' : Fin n → R) :
    A.mulVec y' = b ↔ y' = y := by
  refine ⟨fun h => ?_, fun h => h ▸ hy⟩
  exact Matrix.mulVec_injective_of_isUnit ((Matrix.isUnit_iff_isUnit_det A).2 (isUnit_iff_ne_zero.2 hA)) (h.trans hy.symm)

/-- Substitution from the last row up: each entry follows from those behind it. -/
theorem solvesUpper_of_rows {z y : ℕ → R} (hpivots : ∀ k < n, a k k ≠ 0)
    (hy : ∀ r < n, y r = (z r - ∑ c ∈ Ico (r + 1) n, a r c * y c) / a r r) : SolvesUpper n a z y := by
  intro r hr
  have hbelow : ∑ c ∈ Ico 0 r, upperEntry a r c * y c = 0 := by
    refine sum_eq_zero fun c hc => ?_
    unfold upperEntry
    rw [if_neg (Nat.not_le.2 (mem_Ico.1 hc).2), zero_mul]
  have habove : ∑ c ∈ Ico (r + 1) n, upperEntry a r c * y c = ∑ c ∈ Ico (r + 1) n, a r c * y c := by
    refine sum_congr rfl fun c hc => ?_
    unfold upperEntry
    rw [if_pos (Nat.le_of_succ_le (mem_Ico.1 hc).1)]
  have hself : upperEntry a r r * y r = z r - ∑ c ∈ Ico (r + 1) n, a r c * y c := by
    unfold upperEntry
    rw [if_pos (Nat.le_refl r), hy r hr, mul_div_cancel₀ _ (hpivots r hr)]
  rw [range_eq_Ico, ← sum_Ico_consecutive _ (Nat.zero_le r) (Nat.le_of_lt hr), hbelow, zero_add,
    sum_eq_sum_Ico_succ_bot hr, habove, hself, sub_add_cancel]

/-- The rows from the `k`-th on have been solved for, the others still have their right side. -/
structure Substituted (n : ℕ) (a : ℕ → ℕ → R) (z : ℕ → R) (k : ℕ) (y : ℕ → R) : Prop where
  above : ∀ r < k, y r = z r
  solved : ∀ r, k ≤ r → r < n → y r = (z r - ∑ c ∈ Ico (r + 1) n, a r c * y c) / a r r

/-- One more row is solved for. -/
theorem Substituted.step {z y : ℕ → R} {k : ℕ} (h : Substituted n a z (k + 1) y) :
    Substituted n a z k (Function.update y k ((y k - ∑ c ∈ Ico (k + 1) n, a k c * y c) / a k k)) := by
  have hbehind : ∀ w : R, ∀ r, k ≤ r →
      ∑ c ∈ Ico (r + 1) n, a r c * Function.update y k w c = ∑ c ∈ Ico (r + 1) n, a r c * y c := by
    intro w r hkr
    refine sum_congr rfl fun c hc => ?_
    rw [mem_Ico] at hc
    rw [Function.update_of_ne (by omega)]
  refine ⟨fun r hr => ?_, fun r hkr hr => ?_⟩
  · rw [Function.update_of_ne (Nat.ne_of_lt hr), h.above r (Nat.lt_succ_of_lt hr)]
  · rw [hbehind _ r hkr]
    rcases eq_or_ne r k with rfl | hne
    · rw [Function.update_self, h.above r (Nat.lt_succ_self r)]
    · rw [Function.update_of_ne hne, h.solved r (by omega) hr]

/-- Once all rows are solved for, the upper triangle is. -/
theorem Substituted.solvesUpper {z y : ℕ → R} (h : Substituted n a z 0 y) (hpivots : ∀ k < n, a k k ≠ 0) :
    SolvesUpper n a z y :=
  solvesUpper_of_rows hpivots fun r hr => h.solved r (Nat.zero_le r) hr

/-- The rows before the `k`-th of a right side, brought into the order of the rows, have been reduced. -/
def Forwarded (b : Fin n → R) (a : ℕ → ℕ → R) (π : Equiv.Perm (Fin n)) (k : ℕ) (z : ℕ → R) : Prop :=
  ∀ r : Fin n, b (π r) = (if (r : ℕ) < k then ∑ c ∈ Ico 0 (r : ℕ), a r c * z c else 0) + z r

/-- The first row needs nothing. -/
theorem Forwarded.one {b : Fin n → R} {z : ℕ → R} (h : ∀ r : Fin n, z r = b (π r)) : Forwarded b a π 1 z := by
  intro r
  rw [h r]
  split_ifs with hr
  · rw [Nat.lt_one_iff.1 hr, Ico_self, sum_empty, zero_add]
  · rw [zero_add]

/-- One more row is reduced. -/
theorem Forwarded.step {b : Fin n → R} {z : ℕ → R} {k : ℕ} (h : Forwarded b a π k z) :
    Forwarded b a π (k + 1) (Function.update z k (z k - ∑ c ∈ Ico 0 k, a k c * z c)) := by
  intro r
  have hsum : (r : ℕ) < k + 1 → ∀ w : R,
      ∑ c ∈ Ico 0 (r : ℕ), a r c * Function.update z k w c = ∑ c ∈ Ico 0 (r : ℕ), a r c * z c := by
    intro hr w
    refine sum_congr rfl fun c hc => ?_
    rw [mem_Ico] at hc
    rw [Function.update_of_ne (by omega)]
  have hrow := h r
  rcases Nat.lt_trichotomy (r : ℕ) k with hlt | heq | hgt
  · rw [if_pos hlt] at hrow
    rw [if_pos (Nat.lt_succ_of_lt hlt), hsum (Nat.lt_succ_of_lt hlt), Function.update_of_ne (Nat.ne_of_lt hlt), hrow]
  · rw [if_neg (by omega), zero_add] at hrow
    rw [if_pos (by omega), hsum (by omega), ← heq, Function.update_self, add_sub_cancel, hrow]
  · rw [if_neg (by omega)] at hrow
    rw [if_neg (by omega), Function.update_of_ne (Nat.ne_of_gt hgt), hrow]

theorem Forwarded.reducedRight {b : Fin n → R} {z : ℕ → R} (h : Forwarded b a π n z) : ReducedRight b n a π z := by
  intro r
  rw [h r, if_pos r.2, range_eq_Ico, Nat.min_eq_left (Nat.le_of_lt r.2)]

end ControlCodegen.Integrator
