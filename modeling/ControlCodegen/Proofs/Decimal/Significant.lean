import ControlCodegen.Decimal.Scientific
import ControlCodegen.Proofs.Decimal.Rounding

/-!
# `Decimal.Significant`: numbers of so many significant digits

* `HasDigits n` : the numbers that have `n` significant decimal digits or fewer.
* `RoundsTo n v x` : of all these, `x` is nearest to `v`; of two that are as near it is the even one.
* `roundsTo_of_roundsToEven` : what the leading `n` digits are rounded to is nearest among all of them.
* `Scientific.roundsTo_rounded`, `Scientific.error_rounded` : this is what `Scientific.rounded` finds.

Numbers with the exponent of `v` are whole multiples of one unit, so that rounding to whole numbers decides among them.
Those with a smaller exponent are all below the power of ten that is next to `v`.
-/

namespace ControlCodegen.Decimal

set_option autoImplicit false

/-! ## Nearest numbers -/

/-- A number that has `n` significant decimal digits or fewer. -/
def HasDigits (n : Nat) (x : ℚ) : Prop := ∃ c e : ℤ, |c| < 10 ^ n ∧ x = c * 10 ^ e

/-- The place of the last of `n` digits. -/
def lastPlace (n : Nat) (v : ℚ) : ℚ := 10 ^ (Int.log 10 |v| + 1 - n)

/-- The number with `n` digits that is nearest to `v`. Where two are equally near, this one is an even multiple of the
last place. -/
structure RoundsTo (n : Nat) (v x : ℚ) : Prop where
  hasDigits : HasDigits n x
  nearest : ∀ y, HasDigits n y → |x - v| ≤ |y - v|
  even : ∀ y, HasDigits n y → y ≠ x → |y - v| = |x - v| → ∃ c : ℤ, Even c ∧ x = c * lastPlace n v

section

variable {n : Nat} {v x q : ℚ}

theorem HasDigits.neg (h : HasDigits n x) : HasDigits n (-x) := by
  obtain ⟨c, e, hc, rfl⟩ := h
  exact ⟨-c, e, (abs_neg c).symm ▸ hc, by push_cast; ring⟩

theorem RoundsTo.neg (h : RoundsTo n v x) : RoundsTo n (-v) (-x) := by
  have hflip (y : ℚ) : |y - -v| = |-y - v| := by
    rw [← abs_neg]
    congr 1
    ring
  have hx : |-x - -v| = |x - v| := by rw [hflip, neg_neg]
  have hplace : lastPlace n (-v) = lastPlace n v := by
    unfold lastPlace
    rw [abs_neg]
  refine ⟨h.hasDigits.neg, fun y hy => ?_, fun y hy hne htie => ?_⟩
  · rw [hx, hflip]
    exact h.nearest (-y) hy.neg
  · rw [hx, hflip] at htie
    obtain ⟨c, hc, heq⟩ := h.even (-y) hy.neg (fun heq => hne (by rw [← heq, neg_neg])) htie
    exact ⟨-c, hc.neg, by rw [heq, hplace]; push_cast; ring⟩

/-- A number with `n` digits is a multiple of the last place, or is below the leading power of ten. -/
theorem HasDigits.multiple_or_lt (h : HasDigits n x) :
    (∃ z : ℤ, x = z * lastPlace n v) ∨ x < 10 ^ Int.log 10 |v| := by
  obtain ⟨c, e, hc, rfl⟩ := h
  unfold lastPlace
  by_cases he : Int.log 10 |v| + 1 - n ≤ e
  · refine .inl ⟨c * 10 ^ (e - (Int.log 10 |v| + 1 - n)).toNat, ?_⟩
    have hpow : (10 : ℚ) ^ (e - (Int.log 10 |v| + 1 - n)).toNat = 10 ^ (e - (Int.log 10 |v| + 1 - n)) := by
      rw [← zpow_natCast, Int.toNat_of_nonneg (sub_nonneg.2 he)]
    push_cast
    rw [hpow, mul_assoc, ← zpow_add₀ (by norm_num), sub_add_cancel]
  · refine .inr ?_
    have hc' : |(c : ℚ)| < 10 ^ n := by exact_mod_cast hc
    have hpos : (0 : ℚ) < 10 ^ e := zpow_pos (by norm_num) e
    calc (c : ℚ) * 10 ^ e
      _ ≤ |(c : ℚ)| * 10 ^ e := mul_le_mul_of_nonneg_right (le_abs_self _) hpos.le
      _ < 10 ^ n * 10 ^ e := mul_lt_mul_of_pos_right hc' hpos
      _ = 10 ^ (n + e) := by rw [← zpow_natCast, ← zpow_add₀ (by norm_num)]
      _ ≤ 10 ^ Int.log 10 |v| := zpow_le_zpow_right₀ (by norm_num) (by omega)

/-! ## Rounding to the last place -/

theorem lastPlace_pos : 0 < lastPlace n v := zpow_pos (by norm_num) _

/-- The leading power of ten in units of the last place. -/
theorem pow_mul_lastPlace (k : Nat) : (10 : ℚ) ^ k * lastPlace n v = 10 ^ (Int.log 10 |v| + 1 - n + k) := by
  unfold lastPlace
  rw [← zpow_natCast, ← zpow_add₀ (by norm_num), add_comm]

/-- Distances in units of the last place. -/
theorem abs_mul_lastPlace_sub (z : ℚ) : |z * lastPlace n v - q| = lastPlace n v * |z - q / lastPlace n v| := by
  have hpos := lastPlace_pos (n := n) (v := v)
  rw [← abs_of_pos hpos, ← abs_mul, abs_of_pos hpos, mul_sub, mul_div_cancel₀ _ hpos.ne', mul_comm]

section

variable {c : Nat} (hn : 0 < n) (hq : 0 < q) (hc : RoundsToEven (q / lastPlace n q) c)

include hn hq in
/-- In units of the last place there are `n` digits before the point. -/
theorem div_lastPlace_bounds : (10 : ℚ) ^ (n - 1) ≤ q / lastPlace n q ∧ q / lastPlace n q < 10 ^ n := by
  have hpos := lastPlace_pos (n := n) (v := q)
  rw [le_div_iff₀ hpos, div_lt_iff₀ hpos, pow_mul_lastPlace, pow_mul_lastPlace, abs_of_pos hq]
  have hlow := Int.zpow_log_le_self (b := 10) (by decide) hq
  have hhigh := Int.lt_zpow_succ_log_self (b := 10) (by decide) q
  push_cast at hlow hhigh
  have hexponent : Int.log 10 q + 1 - n + (n - 1 : Nat) = Int.log 10 q := by omega
  rw [hexponent, sub_add_cancel]
  exact ⟨hlow, hhigh⟩

include hn hq hc

theorem coefficient_bounds : 10 ^ (n - 1) ≤ c ∧ c ≤ 10 ^ n := by
  obtain ⟨hlow, hhigh⟩ := div_lastPlace_bounds hn hq
  exact ⟨hc.le_of_le (by push_cast; exact hlow), hc.ge_of_le (by push_cast; exact hhigh.le)⟩

/-- What is below the leading power of ten is further away than that. -/
theorem dist_lt_of_lt {y : ℚ} (hy : y < 10 ^ Int.log 10 |q|) : |c * lastPlace n q - q| < |y - q| := by
  have hlead : (10 : ℚ) ^ Int.log 10 |q| = 10 ^ (n - 1) * lastPlace n q := by
    rw [pow_mul_lastPlace]
    congr 1
    omega
  have hle : (10 : ℚ) ^ Int.log 10 |q| ≤ q := by
    rw [hlead, ← le_div_iff₀ lastPlace_pos]
    exact (div_lastPlace_bounds hn hq).1
  calc |c * lastPlace n q - q|
    _ ≤ |10 ^ Int.log 10 |q| - q| := by
      rw [hlead, abs_mul_lastPlace_sub, abs_mul_lastPlace_sub]
      refine mul_le_mul_of_nonneg_left ?_ lastPlace_pos.le
      exact_mod_cast hc.closest (10 ^ (n - 1))
    _ = q - 10 ^ Int.log 10 |q| := by rw [abs_sub_comm, abs_of_nonneg (sub_nonneg.2 hle)]
    _ < q - y := sub_lt_sub_left hy q
    _ ≤ |y - q| := by
      rw [abs_sub_comm]
      exact le_abs_self _

/-- What the leading digits are rounded to is nearest among all numbers with so many digits. -/
theorem roundsTo_of_roundsToEven : RoundsTo n q (c * lastPlace n q) := by
  refine ⟨?_, fun y hy => ?_, fun y hy hne htie => ?_⟩
  · rcases Nat.lt_or_eq_of_le (coefficient_bounds hn hq hc).2 with hlt | heq
    · exact ⟨c, _, by rw [abs_of_nonneg (Int.natCast_nonneg c)]; exact_mod_cast hlt, rfl⟩
    · refine ⟨1, Int.log 10 |q| + 1 - n + n, ?_, ?_⟩
      · rw [abs_one]
        exact one_lt_pow₀ (by decide) hn.ne'
      · rw [heq, Int.cast_one, one_mul, ← pow_mul_lastPlace]
        push_cast
        rfl
  · rcases hy.multiple_or_lt (v := q) with ⟨z, rfl⟩ | hlt
    · rw [abs_mul_lastPlace_sub, abs_mul_lastPlace_sub]
      exact mul_le_mul_of_nonneg_left (hc.closest z) lastPlace_pos.le
    · exact (dist_lt_of_lt hn hq hc hlt).le
  · rcases hy.multiple_or_lt (v := q) with ⟨z, rfl⟩ | hlt
    · refine ⟨c, ?_, rfl⟩
      rw [abs_mul_lastPlace_sub, abs_mul_lastPlace_sub] at htie
      have heven := hc.even_of_tie (z := z) (fun heq => hne (by rw [← heq]; rfl))
        (mul_left_cancel₀ lastPlace_pos.ne' htie)
      exact_mod_cast heven
    · exact absurd htie (dist_lt_of_lt hn hq hc hlt).ne'

omit hn in
/-- The error is five units of the next place at most. -/
theorem error_le : |c * lastPlace n q - q| ≤ 5 * 10 ^ (-n : ℤ) * q := by
  have hle := Int.zpow_log_le_self (b := 10) (by decide) hq
  push_cast at hle
  have hplace : lastPlace n q = 10 * 10 ^ (-n : ℤ) * 10 ^ Int.log 10 q := by
    unfold lastPlace
    rw [abs_of_pos hq, ← zpow_one_add₀ (by norm_num), ← zpow_add₀ (by norm_num)]
    congr 1
    ring
  have hpos : (0 : ℚ) < 10 ^ (-n : ℤ) := zpow_pos (by norm_num) _
  calc |c * lastPlace n q - q|
    _ = lastPlace n q * |c - q / lastPlace n q| := abs_mul_lastPlace_sub _
    _ ≤ lastPlace n q * (1 / 2) := mul_le_mul_of_nonneg_left hc.near lastPlace_pos.le
    _ = 5 * 10 ^ (-n : ℤ) * 10 ^ Int.log 10 q := by
      rw [hplace]
      ring
    _ ≤ 5 * 10 ^ (-n : ℤ) * q := mul_le_mul_of_nonneg_left hle (by positivity)

end

end

/-! ## Decimals of doubles -/

/-- The factor that a sign stands for. -/
def signOf (negative : Bool) : ℚ := if negative then -1 else 1

theorem abs_signOf (negative : Bool) : |signOf negative| = 1 := by
  cases negative with
  | false => exact abs_one
  | true => exact (abs_neg 1).trans abs_one

theorem RoundsTo.signed {n : Nat} {v x : ℚ} (h : RoundsTo n v x) (negative : Bool) :
    RoundsTo n (signOf negative * v) (signOf negative * x) := by
  cases negative with
  | false => simpa [signOf] using h
  | true => simpa [signOf] using h.neg

theorem roundsTo_zero (n : Nat) : RoundsTo n 0 0 := by
  refine ⟨⟨0, 0, by simp, by simp⟩, fun y _ => ?_, fun y _ hne htie => ?_⟩
  · rw [sub_zero, abs_zero]
    exact abs_nonneg _
  · rw [sub_zero, sub_zero, abs_zero] at htie
    exact absurd (abs_eq_zero.1 htie) hne

namespace Scientific

/-- The number that is written. -/
def value (s : Scientific) : ℚ := signOf s.negative * (s.coefficient * 10 ^ (s.exponent + 1 - s.count))

/-- A positive number with so many digits, the first of which is not zero, that its leading digits are rounded to. -/
structure IsRounding (count : Nat) (negative : Bool) (q : ℚ) (s : Scientific) : Prop where
  sign : s.negative = negative
  length : s.count = count
  low : 10 ^ (count - 1) ≤ s.coefficient
  high : s.coefficient < 10 ^ count
  value : ∃ c : Nat, RoundsToEven (q / lastPlace count q) c ∧
    s.coefficient * (10 : ℚ) ^ (s.exponent + 1 - count) = c * lastPlace count q

section

variable {count : Nat} {negative : Bool} {q : ℚ} {s : Scientific}

theorem IsRounding.roundsTo (h : IsRounding count negative q s) (hcount : 0 < count) (hq : 0 < q) :
    RoundsTo count (signOf negative * q) s.value := by
  obtain ⟨c, hc, hvalue⟩ := h.value
  unfold Scientific.value
  rw [h.sign, h.length, hvalue]
  exact (roundsTo_of_roundsToEven hcount hq hc).signed negative

theorem IsRounding.error_le (h : IsRounding count negative q s) (hq : 0 < q) :
    |s.value - signOf negative * q| ≤ 5 * 10 ^ (-count : ℤ) * |signOf negative * q| := by
  obtain ⟨c, hc, hvalue⟩ := h.value
  unfold Scientific.value
  rw [h.sign, h.length, hvalue, ← mul_sub, abs_mul, abs_mul, abs_signOf, one_mul, one_mul, abs_of_pos hq]
  exact Decimal.error_le hq hc

/-- A carry into a new digit is moved into the exponent. -/
theorem isRounding_normalized (hcount : 0 < count) (hq : 0 < q) {c : Nat}
    (hc : RoundsToEven (q / lastPlace count q) c) :
    IsRounding count negative q (normalized negative c count (Int.log 10 q)) := by
  obtain ⟨hlow, hhigh⟩ := coefficient_bounds hcount hq hc
  unfold normalized
  split
  · rename_i hcarry
    refine ⟨rfl, rfl, Nat.le_refl _, ?_, c, hc, ?_⟩
    · exact Nat.pow_lt_pow_right (by decide) (by omega)
    · dsimp only
      unfold lastPlace
      rw [hcarry, cast_tenPow, cast_tenPow, abs_of_pos hq, ← zpow_natCast, ← zpow_natCast, ← zpow_add₀ (by norm_num),
        ← zpow_add₀ (by norm_num)]
      congr 1
      omega
  · rename_i hne
    refine ⟨rfl, rfl, hlow, Nat.lt_of_le_of_ne hhigh hne, c, hc, ?_⟩
    dsimp only
    unfold lastPlace
    rw [abs_of_pos hq]

theorem isRounding_ofRatio (hcount : 0 < count) {num den : Nat} (hnum : 0 < num) (hden : 0 < den) :
    IsRounding count negative ((num : ℚ) / den) (ofRatio count negative num den) := by
  have hq : (0 : ℚ) < num / den := div_pos (Nat.cast_pos.2 hnum) (Nat.cast_pos.2 hden)
  have hscaled : ((scale10 num den ((count : ℤ) - 1 - Int.log 10 ((num : ℚ) / den))).1 : ℚ) /
      (scale10 num den ((count : ℤ) - 1 - Int.log 10 ((num : ℚ) / den))).2 =
        (num : ℚ) / den / lastPlace count ((num : ℚ) / den) := by
    unfold lastPlace
    rw [scale10_eq, abs_of_pos hq, div_eq_mul_inv _ ((10 : ℚ) ^ _), ← zpow_neg]
    congr 2
    ring
  unfold ofRatio
  rw [floorLog10_eq hnum hden]
  refine isRounding_normalized hcount hq ?_
  rw [← hscaled]
  exact roundsToEven_roundDiv _ (scale10_pos num hden _)

/-- The exact value of a double as a quotient. -/
theorem cast_ratio (m : Nat) (e : ℤ) : ((m * twoPow e.toNat : Nat) : ℚ) / (twoPow (-e).toNat : Nat) = m * 2 ^ e := by
  push_cast [cast_twoPow]
  rw [zpow_eq_div two_ne_zero, mul_div_assoc]

theorem isRounding_rounded (hcount : 0 < count) {m : Nat} (hm : 0 < m) (e : ℤ) :
    IsRounding count negative (m * 2 ^ e) (rounded count negative m e) := by
  unfold rounded
  rw [if_neg hm.ne', ← cast_ratio]
  exact isRounding_ofRatio hcount (Nat.mul_pos hm (twoPow_pos _)) (twoPow_pos _)

theorem rounded_zero (e : ℤ) : rounded count negative 0 e = ⟨negative, 0, count, 0⟩ := if_pos rfl

theorem value_rounded_zero (e : ℤ) : (rounded count negative 0 e).value = 0 := by
  rw [rounded_zero]
  unfold value
  rw [Nat.cast_zero, zero_mul, mul_zero]

/-- Of all numbers with so many digits the nearest one is found, -/
theorem roundsTo_rounded (hcount : 0 < count) (negative : Bool) (m : Nat) (e : ℤ) :
    RoundsTo count (signOf negative * (m * 2 ^ e)) (rounded count negative m e).value := by
  rcases Nat.eq_zero_or_pos m with rfl | hm
  · rw [value_rounded_zero, Nat.cast_zero, zero_mul, mul_zero]
    exact roundsTo_zero count
  · exact (isRounding_rounded hcount hm e).roundsTo hcount (mul_pos (Nat.cast_pos.2 hm) (zpow_pos two_pos e))

/-- which is off by five units of the next place at most. -/
theorem error_rounded (hcount : 0 < count) (negative : Bool) (m : Nat) (e : ℤ) :
    |(rounded count negative m e).value - signOf negative * (m * 2 ^ e)| ≤
      5 * 10 ^ (-count : ℤ) * |signOf negative * ((m : ℚ) * 2 ^ e)| := by
  rcases Nat.eq_zero_or_pos m with rfl | hm
  · rw [value_rounded_zero, Nat.cast_zero, zero_mul, mul_zero, sub_zero, abs_zero, mul_zero]
  · exact (isRounding_rounded hcount hm e).error_le (mul_pos (Nat.cast_pos.2 hm) (zpow_pos two_pos e))

end

end Scientific

end ControlCodegen.Decimal
