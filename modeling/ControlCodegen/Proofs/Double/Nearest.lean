import ControlCodegen.Proofs.Decimal.Rounding
import Mathlib

/-!
# `Double.Nearest`: doubles near to a number

* `IsDouble m e` : the significands and exponents that doubles have.
* `isDouble_ofFloat`, `toFloat_ofFloat` : a finite double is taken apart into such, and put together again.
* `le_distance` : doubles that differ are a part of `2 ^ -53` of either of them apart.
* `nearest_eq`, `nearestDecimal_eq` : a number that is nearer than that is read as the double.
-/

namespace ControlCodegen.Double

open Decimal

set_option autoImplicit false

/-! ## Significands and exponents -/

/-- The significands and exponents that doubles have: one that is not subnormal has all its bits. -/
structure IsDouble (m : Nat) (e : ℤ) : Prop where
  significand : m < 2 ^ 53
  low : -1074 ≤ e
  high : e ≤ 971
  normal : 2 ^ 52 ≤ m ∨ e = -1074

section

variable {negative : Bool} {m : Nat} {e : ℤ} {v : Float}

/-- The fields of the word of a finite double. -/
theorem fields_ofBits {bits : Nat} (hbits : bits < 2 ^ 64) (h : Binary64.ofBits bits = .finite negative m e) :
    ∃ biased fraction : Nat, biased < 2047 ∧ fraction < 2 ^ 52 ∧
      bits = negative.toNat * 2 ^ 63 + biased * 2 ^ 52 + fraction ∧
      (biased = 0 ∧ m = fraction ∧ e = -1074 ∨ 0 < biased ∧ m = 2 ^ 52 + fraction ∧ e = biased - 1075) := by
  have hsign (c : Prop) [Decidable c] : (decide c).toNat = if c then 1 else 0 := by split <;> simp [*]
  have h11 : twoPow 11 = 2 ^ 11 := rfl
  have h52 : twoPow 52 = 2 ^ 52 := rfl
  have h63 : twoPow 63 = 2 ^ 63 := rfl
  unfold Binary64.ofBits at h
  dsimp only at h
  rw [h11, h52, h63] at h
  refine ⟨bits / 2 ^ 52 % 2 ^ 11, bits % 2 ^ 52, ?_⟩
  split at h
  · split at h <;> cases h
  · split at h
    · cases h
      rw [hsign]
      split <;> omega
    · cases h
      rw [hsign]
      split <;> omega

theorem toNat_toBits_lt (v : Float) : v.toBits.toNat < 2 ^ 64 := v.toBits.toBitVec.isLt

theorem isDouble_ofFloat (h : Binary64.ofFloat v = .finite negative m e) : IsDouble m e := by
  obtain ⟨biased, fraction, hbiased, hfraction, -, hfields⟩ := fields_ofBits (toNat_toBits_lt v) h
  constructor <;> omega

/-- A finite double is put together again. -/
theorem toFloat_ofFloat (h : Binary64.ofFloat v = .finite negative m e) :
    (Binary64.finite negative m e).toFloat = v := by
  obtain ⟨biased, fraction, hbiased, hfraction, hbits, hfields⟩ := fields_ofBits (toNat_toBits_lt v) h
  have h52 : twoPow 52 = 2 ^ 52 := rfl
  have h63 : twoPow 63 = 2 ^ 63 := rfl
  have hword : (Binary64.finite negative m e).toBits = v.toBits.toNat := by
    unfold Binary64.toBits
    dsimp only
    rw [h52, h63, hbits]
    split <;> omega
  unfold Binary64.toFloat
  rw [hword, UInt64.ofNat_toNat, Float.ofBits_toBits]

end

/-! ## Distances -/

section

variable {m m' : Nat} {e e' : ℤ}

/-- A number with a larger exponent, in the units of a smaller one. -/
theorem mul_zpow_eq (he : e ≤ e') : (m' : ℚ) * 2 ^ e' = ((m' * 2 ^ (e' - e).toNat : Nat) : ℚ) * 2 ^ e := by
  push_cast
  rw [← zpow_natCast (2 : ℚ), Int.toNat_of_nonneg (sub_nonneg.2 he), mul_assoc, ← zpow_add₀ two_ne_zero, sub_add_cancel]

/-- Doubles that differ are a part of `2 ^ -53` of either of them apart. -/
theorem le_distance (h : IsDouble m e) (h' : IsDouble m' e') (hne : (m : ℚ) * 2 ^ e ≠ m' * 2 ^ e') :
    (m : ℚ) * 2 ^ e ≤ 2 ^ 53 * |(m : ℚ) * 2 ^ e - m' * 2 ^ e'| := by
  have hunit : (0 : ℚ) < 2 ^ e := zpow_pos two_pos e
  rcases le_or_gt e e' with he | he
  · -- whole units apart
    rw [mul_zpow_eq he] at hne ⊢
    generalize m' * 2 ^ (e' - e).toNat = k at hne
    have hapart : (1 : ℚ) ≤ |(m : ℚ) - k| := by
      have hmk : (m : ℤ) - k ≠ 0 := sub_ne_zero.2 fun heq => hne (by rw [Int.ofNat.inj heq])
      exact_mod_cast Int.one_le_abs hmk
    have hm : (m : ℚ) ≤ 2 ^ 53 := by exact_mod_cast h.significand.le
    rw [← sub_mul, abs_mul, abs_of_pos hunit, ← mul_assoc]
    refine mul_le_mul_of_nonneg_right (hm.trans ?_) hunit.le
    exact le_mul_of_one_le_right (by norm_num) hapart
  · -- the other one is below the leading power of two, half a unit at least
    have hm : (2 : ℚ) ^ 52 ≤ m := by exact_mod_cast h.normal.resolve_right (by have := h'.low; omega)
    have hm' : (m' : ℚ) ≤ 2 ^ 53 - 1 := by
      rw [le_sub_iff_add_le]
      exact_mod_cast h'.significand
    have hhalf : (0 : ℚ) < 2 ^ (e - 1) := zpow_pos two_pos _
    have htwo : (2 : ℚ) ^ e = 2 * 2 ^ (e - 1) := by rw [← zpow_one_add₀ two_ne_zero, add_sub_cancel]
    have hother : (m' : ℚ) * 2 ^ e' ≤ (2 ^ 53 - 1) * 2 ^ (e - 1) :=
      mul_le_mul hm' (zpow_le_zpow_right₀ one_le_two (by omega)) (zpow_nonneg two_pos.le _) (by norm_num)
    calc (m : ℚ) * 2 ^ e
      _ = 2 * m * 2 ^ (e - 1) := by rw [htwo]; ring
      _ ≤ 2 ^ 53 * (2 * m - (2 ^ 53 - 1)) * 2 ^ (e - 1) := mul_le_mul_of_nonneg_right (by linarith) hhalf.le
      _ = 2 ^ 53 * (m * 2 ^ e - (2 ^ 53 - 1) * 2 ^ (e - 1)) := by rw [htwo]; ring
      _ ≤ 2 ^ 53 * (m * 2 ^ e - m' * 2 ^ e') := by linarith
      _ ≤ 2 ^ 53 * |(m : ℚ) * 2 ^ e - m' * 2 ^ e'| := mul_le_mul_of_nonneg_left (le_abs_self _) (by norm_num)

end

/-! ## Nearest doubles -/

section

variable {m : Nat} {e : ℤ} {q : ℚ} {num den : Nat}

/-- A number that is nearer to a positive double than half the distance to the next one. -/
def Near (q : ℚ) (m : Nat) (e : ℤ) : Prop := 2 ^ 54 * |(m : ℚ) * 2 ^ e - q| < m * 2 ^ e

/-- In units of the last place. -/
theorem Near.div (h : Near q m e) : 2 ^ 54 * |(m : ℚ) - q / 2 ^ e| < m := by
  have hunit : (0 : ℚ) < 2 ^ e := zpow_pos two_pos e
  have hdist : |(m : ℚ) * 2 ^ e - q| = |(m : ℚ) - q / 2 ^ e| * 2 ^ e := by
    rw [← abs_of_pos hunit, ← abs_mul, abs_of_pos hunit, sub_mul, div_mul_cancel₀ _ hunit.ne']
  unfold Near at h
  rw [hdist, ← mul_assoc] at h
  exact lt_of_mul_lt_mul_right h hunit.le

theorem Near.bounds (h : Near q m e) : (m : ℚ) - m / 2 ^ 54 < q / 2 ^ e ∧ q / 2 ^ e < m + m / 2 ^ 54 := by
  have hdist : |(m : ℚ) - q / 2 ^ e| < m / 2 ^ 54 := by
    rw [lt_div_iff₀' (by norm_num)]
    exact h.div
  obtain ⟨hlow, hhigh⟩ := abs_lt.1 hdist
  constructor <;> linarith

theorem Near.pos (h : Near q m e) : 0 < q := by
  have hm : (0 : ℚ) ≤ m := Nat.cast_nonneg m
  have hlow : (0 : ℚ) < q / 2 ^ e := by linarith [h.bounds.1]
  exact (div_pos_iff_of_pos_right (zpow_pos two_pos e)).1 hlow

theorem Near.one_le (h : Near q m e) : (1 : ℚ) ≤ m := by
  have hpos : (0 : ℚ) < m := lt_of_le_of_lt (by positivity) h.div
  exact_mod_cast hpos

theorem log_lt_iff (hq : 0 < q) (k : Nat) : Int.log 2 q < k + e ↔ q / 2 ^ e < 2 ^ k := by
  rw [div_lt_iff₀ (zpow_pos two_pos e), ← zpow_natCast, ← zpow_add₀ two_ne_zero]
  exact (Int.lt_zpow_iff_log_lt (by decide) hq).symm

/-- The exponent is found, or the next smaller one below a power of two. -/
theorem exponent_of_near (h : IsDouble m e) (hnear : Near q m e) :
    max (Int.log 2 q - 52) (-1074) = e ∨ m = 2 ^ 52 ∧ max (Int.log 2 q - 52) (-1074) = e - 1 := by
  have hlow := h.low
  obtain ⟨hbelow, habove⟩ := hnear.bounds
  have hhigh : Int.log 2 q < (53 : Nat) + e := by
    rw [log_lt_iff hnear.pos]
    have hm : (m : ℚ) ≤ 2 ^ 53 - 1 := by
      rw [le_sub_iff_add_le]
      exact_mod_cast h.significand
    linarith
  rcases h.normal with hnormal | rfl
  · rcases Nat.lt_or_eq_of_le hnormal with hlt | heq
    · have hfull : ¬Int.log 2 q < (52 : Nat) + e := by
        rw [log_lt_iff hnear.pos, not_lt]
        have hm : (2 : ℚ) ^ 52 + 1 ≤ m := by exact_mod_cast hlt
        linarith
      exact .inl (by omega)
    · have hhalf : ¬Int.log 2 q < (51 : Nat) + e := by
        rw [log_lt_iff hnear.pos, not_lt]
        have hm : (m : ℚ) = 2 ^ 52 := by exact_mod_cast heq.symm
        rw [hm] at hbelow
        linarith
      omega
  · exact .inl (by omega)

theorem roundsToEven_nearest (num : Nat) (hden : 0 < den) (e : ℤ) :
    RoundsToEven ((num : ℚ) / den / 2 ^ e) (roundDiv (num * twoPow (-e).toNat) (den * twoPow e.toNat)) := by
  have hquotient : ((num * twoPow (-e).toNat : Nat) : ℚ) / (den * twoPow e.toNat : Nat) = (num : ℚ) / den / 2 ^ e := by
    have hscaled := mul_div_mul_pow num den two_ne_zero (-e)
    rw [neg_neg, zpow_neg, ← div_eq_mul_inv] at hscaled
    push_cast [cast_twoPow]
    exact hscaled
  rw [← hquotient]
  exact roundsToEven_roundDiv _ (Nat.mul_pos hden (twoPow_pos _))

/-- A quotient that is near to a double is taken to the double. -/
theorem nearest_eq (h : IsDouble m e) (hden : 0 < den) (hnear : Near ((num : ℚ) / den) m e) (negative : Bool) :
    Binary64.nearest negative num den = .finite negative m e := by
  have hnum : 0 < num := by
    refine Nat.pos_of_ne_zero fun hzero => ?_
    have hpos := hnear.pos
    rw [hzero, Nat.cast_zero, zero_div] at hpos
    exact lt_irrefl _ hpos
  have hm : (m : ℚ) < 2 ^ 53 := by exact_mod_cast h.significand
  have hhigh := h.high
  have hdiv := hnear.div
  unfold Binary64.nearest
  rw [if_neg hnum.ne', floorLog2_eq hnum hden]
  dsimp only
  rcases exponent_of_near h hnear with hexponent | ⟨heven, hexponent⟩
  · have hround : roundDiv (num * twoPow (-e).toNat) (den * twoPow e.toNat) = m :=
      (roundsToEven_nearest num hden e).eq_of_lt (by linarith)
    have hfull : m ≠ twoPow 53 := h.significand.ne
    rw [hexponent, hround, if_neg hfull, if_neg (by omega)]
  · -- The number is below a power of two, to which it is rounded.
    have hround : roundDiv (num * twoPow (-(e - 1)).toNat) (den * twoPow (e - 1).toNat) = twoPow 53 := by
      refine (roundsToEven_nearest num hden (e - 1)).eq_of_lt ?_
      have htwo : (num : ℚ) / den / 2 ^ (e - 1) = 2 * ((num : ℚ) / den / 2 ^ e) := by
        rw [zpow_sub_one₀ two_ne_zero, div_mul_eq_div_div, div_inv_eq_mul, mul_comm]
      have hm' : (m : ℚ) = 2 ^ 52 := by exact_mod_cast heven
      have hdist : |((twoPow 53 : Nat) : ℚ) - 2 * ((num : ℚ) / den / 2 ^ e)| =
          2 * |(m : ℚ) - (num : ℚ) / den / 2 ^ e| := by
        rw [cast_twoPow, hm', ← abs_two, ← abs_mul, abs_two]
        ring_nf
      rw [htwo, hdist]
      rw [hm'] at hdiv ⊢
      linarith
    rw [hexponent, hround, if_pos rfl, sub_add_cancel, if_neg (by omega), heven]
    rfl

/-- The leading digit of a decimal. -/
theorem log_decimal {coefficient : Nat} (h : 0 < coefficient) (exponent : ℤ) :
    Int.log 10 ((coefficient : ℚ) * 10 ^ exponent) + 1 = exponent + digitCount coefficient := by
  have hc : (0 : ℚ) < coefficient := Nat.cast_pos.2 h
  have hpow : (0 : ℚ) < 10 ^ exponent := zpow_pos (by norm_num) _
  have hlog : Int.log 10 ((coefficient : ℚ) * 10 ^ exponent) = Nat.log 10 coefficient + exponent := by
    have hle := Int.zpow_log_le_self (b := 10) (by decide) hc
    have hlt := Int.lt_zpow_succ_log_self (b := 10) (by decide) (coefficient : ℚ)
    rw [Int.log_natCast] at hle hlt
    apply le_antisymm
    · rw [← Int.lt_add_one_iff, ← Int.lt_zpow_iff_log_lt (by decide) (mul_pos hc hpow), add_right_comm]
      push_cast at hlt ⊢
      rw [zpow_add₀ (by norm_num)]
      exact mul_lt_mul_of_pos_right hlt hpow
    · rw [← Int.zpow_le_iff_le_log (by decide) (mul_pos hc hpow)]
      push_cast at hle ⊢
      rw [zpow_add₀ (by norm_num)]
      exact mul_le_mul_of_nonneg_right hle hpow.le
  rw [hlog, digitCount_eq]
  push_cast
  ring

/-- Doubles are well within the powers of ten that are computed. -/
theorem log_ten_of_near (h : IsDouble m e) (hnear : Near q m e) : -330 ≤ Int.log 10 q ∧ Int.log 10 q < 320 := by
  have hunit : (0 : ℚ) < 2 ^ e := zpow_pos two_pos e
  obtain ⟨hbelow, habove⟩ := hnear.bounds
  rw [lt_div_iff₀ hunit] at hbelow
  rw [div_lt_iff₀ hunit] at habove
  have hm : (m : ℚ) < 2 ^ 53 := by exact_mod_cast h.significand
  have hone := hnear.one_le
  have hsmall : (2 : ℕ) ^ 1075 ≤ 10 ^ 330 := by decide +kernel
  have hlarge : (2 : ℕ) ^ 1025 ≤ 10 ^ 320 := by decide +kernel
  constructor
  · rw [← Int.zpow_le_iff_le_log (by decide) hnear.pos]
    calc ((10 : Nat) : ℚ) ^ (-330 : ℤ)
      _ ≤ 2 ^ (-1075 : ℤ) := by
        rw [zpow_neg, zpow_neg, inv_le_inv₀ (by positivity) (by positivity)]
        exact_mod_cast hsmall
      _ = 1 / 2 * 2 ^ (-1074 : ℤ) := by
        rw [show (-1075 : ℤ) = -1 + -1074 by rfl, zpow_add₀ two_ne_zero, zpow_neg_one, one_div]
      _ ≤ (m - m / 2 ^ 54) * 2 ^ e :=
        mul_le_mul (by linarith) (zpow_le_zpow_right₀ one_le_two h.low) (by positivity) (by linarith)
      _ ≤ q := hbelow.le
  · rw [← Int.lt_zpow_iff_log_lt (by decide) hnear.pos]
    calc q
      _ < (m + m / 2 ^ 54) * 2 ^ e := habove
      _ ≤ 2 ^ 54 * 2 ^ (971 : ℤ) :=
        mul_le_mul (by linarith) (zpow_le_zpow_right₀ one_le_two h.high) hunit.le (by norm_num)
      _ = 2 ^ 1025 := by rw [← zpow_natCast, ← zpow_add₀ two_ne_zero]; rfl
      _ ≤ ((10 : Nat) : ℚ) ^ (320 : ℤ) := by exact_mod_cast hlarge

theorem nearestDecimal_zero (negative : Bool) (exponent : ℤ) :
    Binary64.nearestDecimal negative 0 exponent = .finite negative 0 (-1074) := by
  unfold Binary64.nearestDecimal
  dsimp only
  rw [if_pos (.inl rfl)]

/-- A decimal that is near to a double is taken to the double. -/
theorem nearestDecimal_eq {coefficient : Nat} {exponent : ℤ} (h : IsDouble m e)
    (hnear : Near (coefficient * 10 ^ exponent) m e) (negative : Bool) :
    Binary64.nearestDecimal negative coefficient exponent = .finite negative m e := by
  have hcoefficient : 0 < coefficient := by
    refine Nat.pos_of_ne_zero fun hzero => ?_
    have hpos := hnear.pos
    rw [hzero, Nat.cast_zero, zero_mul] at hpos
    exact lt_irrefl _ hpos
  obtain ⟨hlow, hhigh⟩ := log_ten_of_near h hnear
  have hlead := log_decimal hcoefficient exponent
  unfold Binary64.nearestDecimal
  dsimp only
  rw [if_neg (by omega), if_neg (by omega)]
  refine nearest_eq h (tenPow_pos _) ?_ negative
  push_cast [cast_tenPow]
  rw [mul_div_assoc, ← zpow_eq_div (by norm_num)]
  exact hnear

end

end ControlCodegen.Double
