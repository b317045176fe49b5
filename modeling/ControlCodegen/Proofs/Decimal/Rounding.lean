import ControlCodegen.Decimal.Binary
import Mathlib.Data.Int.Log
import Mathlib.Data.Rat.Floor
import Mathlib.Tactic.FieldSimp
import Mathlib.Tactic.Linarith
import Mathlib.Tactic.Positivity
import Mathlib.Tactic.Ring

/-!
# `Decimal.Rounding`: what exact quotients are rounded to

* `RoundsToEven` : a whole number that is half a unit away at most, and even if so far.
* `roundsToEven_roundDiv` : `roundDiv` finds it.
* `digitCount_eq`, `floorLog10_eq`, `floorLog2_eq` : digits are counted as logarithms are.
-/

namespace ControlCodegen.Decimal

set_option autoImplicit false

/-! ## Powers -/

@[simp]
theorem cast_twoPow (k : Nat) : ((twoPow k : Nat) : ℚ) = 2 ^ k := Nat.cast_pow 2 k

@[simp]
theorem cast_tenPow (k : Nat) : ((tenPow k : Nat) : ℚ) = 10 ^ k := Nat.cast_pow 10 k

/-- One of the two powers has an exponent of zero. -/
theorem zpow_eq_div {b : ℚ} (hb : b ≠ 0) (s : ℤ) : b ^ s = b ^ s.toNat / b ^ (-s).toNat := by
  rw [← zpow_natCast, ← zpow_natCast, ← zpow_sub₀ hb, Int.toNat_sub_toNat_neg]

/-- Multiplied by the two powers, a quotient is multiplied by one. -/
theorem mul_div_mul_pow (num den : Nat) {b : ℚ} (hb : b ≠ 0) (s : ℤ) :
    (num * b ^ s.toNat) / (den * b ^ (-s).toNat) = (num : ℚ) / den * b ^ s := by
  rw [zpow_eq_div hb s, mul_div_mul_comm]

theorem scale10_pos (num : Nat) {den : Nat} (hden : 0 < den) (s : ℤ) : 0 < (scale10 num den s).2 :=
  Nat.mul_pos hden (tenPow_pos _)

theorem scale10_eq (num den : Nat) (s : ℤ) :
    ((scale10 num den s).1 : ℚ) / (scale10 num den s).2 = (num : ℚ) / den * 10 ^ s := by
  unfold scale10
  push_cast [cast_tenPow]
  exact mul_div_mul_pow num den (by norm_num) s

/-! ## Whole numbers -/

/-- Two whole numbers are a unit apart. -/
theorem one_le_dist (q : ℚ) {n : Nat} {z : ℤ} (h : (n : ℤ) ≠ z) : 1 ≤ |(n : ℚ) - q| + |z - q| := by
  have hone : (1 : ℚ) ≤ |(n : ℚ) - z| := by exact_mod_cast Int.one_le_abs (sub_ne_zero.2 h)
  have htriangle := abs_sub_le (n : ℚ) q z
  rw [abs_sub_comm q] at htriangle
  exact hone.trans htriangle

/-- A whole number that is half a unit away at most, and even if it is so far. -/
structure RoundsToEven (q : ℚ) (n : Nat) : Prop where
  near : |(n : ℚ) - q| ≤ 1 / 2
  even : |(n : ℚ) - q| = 1 / 2 → Even n

namespace RoundsToEven

variable {q : ℚ} {n m : Nat}

/-- No whole number is nearer. -/
theorem closest (h : RoundsToEven q n) (z : ℤ) : |(n : ℚ) - q| ≤ |z - q| := by
  by_cases hz : (n : ℤ) = z
  · rw [← hz]
    rfl
  · have hapart := one_le_dist q hz
    linarith [h.near]

/-- If another one is as near, this one is even. -/
theorem even_of_tie (h : RoundsToEven q n) {z : ℤ} (hz : (n : ℤ) ≠ z) (htie : |z - q| = |(n : ℚ) - q|) : Even n := by
  have hapart := one_le_dist q hz
  exact h.even (le_antisymm h.near (by linarith))

/-- What is less than half a unit away is what is rounded to. -/
theorem eq_of_lt (h : RoundsToEven q n) (hm : |(m : ℚ) - q| < 1 / 2) : n = m := by
  by_contra hne
  have hapart : 1 ≤ |(n : ℚ) - q| + |(m : ℚ) - q| := one_le_dist q (z := m) fun heq => hne (Int.ofNat.inj heq)
  linarith [h.near]

/-- Rounding does not go below a whole number, -/
theorem le_of_le (h : RoundsToEven q n) (hm : (m : ℚ) ≤ q) : m ≤ n := by
  have hnear := (abs_le.1 h.near).1
  have hlt : (m : ℚ) < n + 1 := by linarith
  exact Nat.lt_succ_iff.1 (by exact_mod_cast hlt)

/-- nor above one. -/
theorem ge_of_le (h : RoundsToEven q n) (hm : q ≤ m) : n ≤ m := by
  have hnear := (abs_le.1 h.near).2
  have hlt : (n : ℚ) < m + 1 := by linarith
  exact Nat.lt_succ_iff.1 (by exact_mod_cast hlt)

end RoundsToEven

/-- A quotient is rounded half to even. -/
theorem roundsToEven_roundDiv (num : Nat) {den : Nat} (hden : 0 < den) :
    RoundsToEven ((num : ℚ) / den) (roundDiv num den) := by
  have hpos : (0 : ℚ) < den := Nat.cast_pos.2 hden
  have hdiv : (num : ℚ) / den = (num / den : Nat) + (num % den : Nat) / den := by
    rw [eq_comm, eq_div_iff hpos.ne', add_mul, div_mul_cancel₀ _ hpos.ne', mul_comm]
    exact_mod_cast Nat.div_add_mod num den
  have hrest : ((num % den : Nat) : ℚ) / den < 1 := (div_lt_one hpos).2 (Nat.cast_lt.2 (Nat.mod_lt num hden))
  have hrest0 : (0 : ℚ) ≤ ((num % den : Nat) : ℚ) / den := by positivity
  unfold roundDiv
  dsimp only
  rw [hdiv]
  generalize num / den = q
  generalize num % den = r at *
  split
  · rename_i hlow
    have hhalf : (r : ℚ) / den < 1 / 2 := by
      rw [div_lt_div_iff₀ hpos two_pos]
      exact_mod_cast (by omega : r * 2 < 1 * den)
    have habs : |(q : ℚ) - (q + r / den)| = r / den := by
      rw [sub_add_cancel_left, abs_neg, abs_of_nonneg hrest0]
    exact ⟨by linarith, fun h => by linarith⟩
  · split
    · rename_i hhigh
      have hhalf : 1 / 2 < (r : ℚ) / den := by
        rw [div_lt_div_iff₀ two_pos hpos]
        exact_mod_cast (by omega : 1 * den < r * 2)
      have habs : |((q + 1 : Nat) : ℚ) - (q + r / den)| = 1 - r / den := by
        rw [Nat.cast_succ, add_sub_add_left_eq_sub, abs_of_pos (sub_pos.2 hrest)]
      exact ⟨by linarith, fun h => by linarith⟩
    · rename_i hlow hhigh
      have hhalf : (r : ℚ) / den = 1 / 2 := by
        rw [div_eq_div_iff hpos.ne' two_ne_zero]
        exact_mod_cast (by omega : r * 2 = 1 * den)
      have heven : Even (q + q % 2) := by
        rw [Nat.even_iff]
        omega
      refine ⟨?_, fun _ => heven⟩
      rcases Nat.mod_two_eq_zero_or_one q with hq | hq
      · rw [hq, hhalf]
        norm_num
      · rw [hq, hhalf]
        norm_num

/-! ## Logarithms -/

theorem digitCount_eq (n : Nat) : digitCount n = Nat.log 10 n + 1 := by
  induction n using digitCount.induct with
  | case1 n h =>
    rw [digitCount, if_pos h, Nat.log_of_lt h]
  | case2 n h ih =>
    rw [digitCount, if_neg h, ih, Nat.log_div_base, Nat.add_comm, Nat.sub_add_cancel]
    exact Nat.log_pos (by decide) (Nat.not_lt.1 h)

section Quotients

variable {b num den : Nat}

/-- The logarithm of a quotient is the difference of the logarithms, or one less. -/
theorem log_div (hb : 1 < b) (hnum : 0 < num) (hden : 0 < den) {k : ℤ} (hk : k = Nat.log b num - Nat.log b den) :
    k - 1 ≤ Int.log b ((num : ℚ) / den) ∧ Int.log b ((num : ℚ) / den) ≤ k := by
  have hpos : (0 : ℚ) < num / den := div_pos (Nat.cast_pos.2 hnum) (Nat.cast_pos.2 hden)
  have hb0 : (0 : ℚ) < b := Nat.cast_pos.2 (Nat.zero_lt_of_lt hb)
  have hnumLow : (b : ℚ) ^ Nat.log b num ≤ num := by exact_mod_cast Nat.pow_log_le_self b hnum.ne'
  have hnumHigh : (num : ℚ) < b ^ (Nat.log b num + 1) := by exact_mod_cast Nat.lt_pow_succ_log_self hb num
  have hdenLow : (b : ℚ) ^ Nat.log b den ≤ den := by exact_mod_cast Nat.pow_log_le_self b hden.ne'
  have hdenHigh : (den : ℚ) < b ^ (Nat.log b den + 1) := by exact_mod_cast Nat.lt_pow_succ_log_self hb den
  constructor
  · rw [← Int.zpow_le_iff_le_log hb hpos]
    calc (b : ℚ) ^ (k - 1)
      _ = b ^ Nat.log b num / b ^ (Nat.log b den + 1) := by
        rw [hk, sub_sub, zpow_sub₀ hb0.ne', zpow_natCast, ← Nat.cast_succ, zpow_natCast]
      _ ≤ num / den := div_le_div₀ (Nat.cast_nonneg _) hnumLow (Nat.cast_pos.2 hden) hdenHigh.le
  · rw [← Int.lt_add_one_iff, ← Int.lt_zpow_iff_log_lt hb hpos]
    calc (num : ℚ) / den
      _ < b ^ (Nat.log b num + 1) / b ^ Nat.log b den :=
        div_lt_div₀ hnumHigh hdenLow (pow_nonneg hb0.le _) (pow_pos hb0 _)
      _ = b ^ (k + 1) := by
        rw [hk, sub_add_eq_add_sub, zpow_sub₀ hb0.ne', ← Nat.cast_succ, zpow_natCast, zpow_natCast]

/-- A power is compared with a quotient. -/
theorem scaled_le_iff (hb : 0 < b) (hden : 0 < den) (k : ℤ) :
    den * b ^ k.toNat ≤ num * b ^ (-k).toNat ↔ (b : ℚ) ^ k ≤ (num : ℚ) / den := by
  have hpow : (0 : ℚ) < b ^ (-k).toNat := pow_pos (Nat.cast_pos.2 hb) _
  rw [zpow_eq_div (Nat.cast_pos.2 hb).ne', div_le_div_iff₀ hpow (Nat.cast_pos.2 hden), mul_comm ((b : ℚ) ^ _)]
  norm_cast

/-- So one comparison finds the logarithm. -/
theorem ite_eq_log (hb : 1 < b) (hnum : 0 < num) (hden : 0 < den) {k : ℤ} (hk : k = Nat.log b num - Nat.log b den) :
    (if den * b ^ k.toNat ≤ num * b ^ (-k).toNat then k else k - 1) = Int.log b ((num : ℚ) / den) := by
  have hpos : (0 : ℚ) < num / den := div_pos (Nat.cast_pos.2 hnum) (Nat.cast_pos.2 hden)
  obtain ⟨hlow, hhigh⟩ := log_div hb hnum hden hk
  have htest : den * b ^ k.toNat ≤ num * b ^ (-k).toNat ↔ (b : ℚ) ^ k ≤ (num : ℚ) / den :=
    scaled_le_iff (Nat.zero_lt_of_lt hb) hden k
  rw [Int.zpow_le_iff_le_log hb hpos] at htest
  split
  · rename_i h
    exact le_antisymm (htest.1 h) hhigh
  · rename_i h
    have hlt := not_le.1 fun hle => h (htest.2 hle)
    omega

theorem floorLog10_eq (hnum : 0 < num) (hden : 0 < den) :
    floorLog10 num den = Int.log 10 ((num : ℚ) / den) := by
  have hk : (digitCount num : ℤ) - digitCount den = Nat.log 10 num - Nat.log 10 den := by
    rw [digitCount_eq, digitCount_eq]
    push_cast
    ring
  rw [← ite_eq_log (by decide) hnum hden hk]
  unfold floorLog10 scale10
  dsimp only
  rw [neg_neg]
  rfl

theorem floorLog2_eq (hnum : 0 < num) (hden : 0 < den) :
    Binary64.floorLog2 num den = Int.log 2 ((num : ℚ) / den) := by
  have hk : (num.log2 : ℤ) - den.log2 = Nat.log 2 num - Nat.log 2 den := by
    rw [Nat.log2_eq_log_two, Nat.log2_eq_log_two]
  rw [← ite_eq_log (by decide) hnum hden hk]
  rfl

end Quotients

end ControlCodegen.Decimal
