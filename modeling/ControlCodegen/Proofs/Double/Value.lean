import ControlCodegen.Proofs.C.Division
import ControlCodegen.Proofs.Double.Arithmetic
import ControlCodegen.Proofs.Double.Literal

/-!
# `Double.Value`: the exact values of doubles

* `exactValue` : the number that is unpacked from a double.
* `ofFloat_eq` : a double reads as this number.
* `ofFloat_lt` : finite doubles are compared as what they read as.
-/

namespace ControlCodegen.Double

open Decimal (Binary64 twoPow)
open C (Reading rationalValue)
open Float.Model (Format UnpackedFloat)
open Float.Model.UnpackedFloat

set_option autoImplicit false

/-- The factor that a sign stands for. -/
def signValue : Sign → ℚ
  | .negative => -1
  | .positive => 1

/-- The number that is unpacked from a double; infinities and a not-a-number are read as zero. -/
def exactValue : UnpackedFloat → ℚ
  | .finite s m e _ => signValue s * m * 2 ^ e
  | .zero _ | .infinity _ | .notANumber => 0

/-! ## Fields -/

section

variable {x y : Float}

theorem fraction_eq (x : Float) :
    x.toBits.toNat % twoPow 52 = (@unpackMantissa .binary64 x.toModel.toBits.toBitVec).toNat := by
  rw [unpackMantissa_def, BitVec.extractLsb'_toNat, Nat.shiftRight_eq_div_pow, Nat.pow_zero, Nat.div_one]
  rfl

theorem signValue_eq (x : Float) :
    (if decide (twoPow 63 ≤ x.toBits.toNat) then -1 else 1 : ℚ) =
      signValue (Sign.ofBitVec (@unpackSign .binary64 x.toModel.toBits.toBitVec)) := by
  have hsign : (@unpackSign .binary64 x.toModel.toBits.toBitVec).toNat = x.toBits.toNat / 2 ^ 63 % 2 := by
    rw [unpackSign_def, BitVec.extractLsb'_toNat, Nat.shiftRight_eq_div_pow]
    rfl
  have hlt : x.toBits.toNat < 2 ^ 64 := x.toBits.toBitVec.isLt
  have hpow : twoPow 63 = 2 ^ 63 := rfl
  unfold Sign.ofBitVec
  rw [hpow]
  split
  · rename_i hnegative
    have hle : 2 ^ 63 ≤ x.toBits.toNat := of_decide_eq_true hnegative
    rw [if_neg fun hzero => ?_]
    · rfl
    · rw [hzero] at hsign
      change 0 = _ at hsign
      omega
  · rename_i hpositive
    have hlow : ¬2 ^ 63 ≤ x.toBits.toNat := fun h => hpositive (decide_eq_true h)
    rw [if_pos (BitVec.eq_of_toNat_eq ?_)]
    · rfl
    · rw [hsign]
      change _ = 0
      omega

/-! ## Values -/

/-- The number that is unpacked, by the fields. -/
theorem exactValue_unpack (b : Bits) : exactValue (unpack .binary64 b) =
    if unpackExponent b = -1#11 then 0
    else if unpackExponent b = 0#11 then
      signValue (Sign.ofBitVec (unpackSign b)) * ((unpackMantissa b).toNat : Nat) * 2 ^ (-1074 : Int)
    else signValue (Sign.ofBitVec (unpackSign b)) * ((twoPow 52 + (unpackMantissa b).toNat : Nat) : ℚ) *
      2 ^ (((unpackExponent b).toNat : Int) - 1075) := by
  have hlead : (1#1 ++ unpackMantissa b).toNat = twoPow 52 + (unpackMantissa b).toNat :=
    toNat_leadingBit (unpackMantissa b)
  unfold unpack
  dsimp only
  by_cases hlargest : unpackExponent b = -1#11
  · rw [if_pos hlargest, if_pos hlargest]
    split <;> rfl
  · rw [if_neg hlargest, if_neg hlargest]
    by_cases hsubnormal : unpackExponent b = 0#11
    · rw [if_pos hsubnormal, if_pos hsubnormal, hsubnormal]
      by_cases hfraction : unpackMantissa b = 0#52
      · rw [dif_pos hfraction, hfraction]
        simp [exactValue]
      · rw [dif_neg hfraction]
        rfl
    · rw [if_neg hsubnormal, if_neg hsubnormal, exponentBias_eq, mantissaBits_eq]
      simp only [exactValue, hlead]
      rfl

/-- A double reads as the number that is unpacked from it. -/
theorem ofFloat_eq (x : Float) : Reading.ofFloat x = exactValue (unpacked x) := by
  change rationalValue (Binary64.ofBits x.toBits.toNat) = exactValue (unpack .binary64 x.toModel.toBits.toBitVec)
  unfold Binary64.ofBits
  dsimp only
  rw [exactValue_unpack, biased_eq, fraction_eq, ← signValue_eq]
  generalize @unpackExponent .binary64 x.toModel.toBits.toBitVec = exponent
  by_cases hlargest : exponent = -1#11
  · have hmax : exponent.toNat = 2047 := by rw [hlargest]; rfl
    rw [if_pos hmax, if_pos hlargest]
    split <;> rfl
  · have hne : exponent.toNat ≠ 2047 := fun h => hlargest (BitVec.eq_of_toNat_eq h)
    rw [if_neg hne, if_neg hlargest]
    by_cases hsubnormal : exponent = 0#11
    · rw [hsubnormal]
      rfl
    · have hpos : exponent.toNat ≠ 0 := fun h => hsubnormal (BitVec.eq_of_toNat_eq h)
      rw [if_neg hpos, if_neg hsubnormal]
      rfl

/-! ## Order -/

/-- A mantissa has a leading bit, unless the exponent is the smallest. -/
theorem le_mantissa_of_unpack {b : Bits} {s : Sign} {m : Nat} {e : Int} {hm : 0 < m}
    (h : unpack .binary64 b = .finite s m e hm) : 2 ^ 52 ≤ m ∨ e = minExponent := by
  unfold unpack at h
  dsimp only at h
  rw [exponentBias_eq, mantissaBits_eq] at h
  split at h
  · split at h <;> cases h
  · split at h
    · rename_i hsubnormal
      split at h
      · cases h
      · cases h
        rw [hsubnormal]
        exact .inr rfl
    · cases h
      have hlead : (1#1 ++ unpackMantissa b).toNat = _ := toNat_leadingBit (unpackMantissa b)
      rw [hlead]
      exact .inl (Nat.le_add_right _ _)

/-- Mantissas of doubles with exponents in order are in order. -/
theorem mul_zpow_lt {m m' : Nat} {e e' : Int} (hm : m < 2 ^ 53) (hm' : 2 ^ 52 ≤ m') (he : e < e') :
    (m : ℚ) * 2 ^ e < m' * 2 ^ e' := by
  have hlow : (2 : ℚ) ^ 52 ≤ m' := by exact_mod_cast hm'
  have hhigh : (m : ℚ) < 2 ^ 53 := by exact_mod_cast hm
  calc (m : ℚ) * 2 ^ e
    _ < 2 ^ 53 * 2 ^ e := mul_lt_mul_of_pos_right hhigh (zpow_pos two_pos e)
    _ = 2 ^ 52 * 2 ^ (e + 1) := by rw [zpow_add_one₀ two_ne_zero]; ring
    _ ≤ 2 ^ 52 * 2 ^ e' := mul_le_mul_of_nonneg_left (zpow_le_zpow_right₀ one_le_two he) (by positivity)
    _ ≤ m' * 2 ^ e' := mul_le_mul_of_nonneg_right hlow (zpow_nonneg zero_le_two e')

/-- Positive doubles are compared by their exponents first. -/
theorem mul_zpow_lt_of_compare {m m' : Nat} {e e' : Int} (hm : m < 2 ^ 53) (hm' : 2 ^ 52 ≤ m' ∨ e' = minExponent)
    (he : minExponent ≤ e) (h : (compare e e').then (compare m m') = .lt) : (m : ℚ) * 2 ^ e < m' * 2 ^ e' := by
  rcases Ordering.then_eq_lt.1 h with hexponent | ⟨hexponent, hmantissa⟩
  · have hlt : e < e' := compare_lt_iff_lt.1 hexponent
    exact mul_zpow_lt hm (hm'.resolve_right (by omega)) hlt
  · have hlt : (m : ℚ) < m' := by exact_mod_cast compare_lt_iff_lt.1 hmantissa
    rw [compare_eq_iff_eq.1 hexponent]
    exact mul_lt_mul_of_pos_right hlt (zpow_pos two_pos e')

/-- Doubles that are not zero are compared as their numbers are. -/
theorem finite_lt {b b' : Bits} {s s' : Sign} {m m' : Nat} {e e' : Int} {hm : 0 < m} {hm' : 0 < m'}
    (hb : unpack .binary64 b = .finite s m e hm) (hb' : unpack .binary64 b' = .finite s' m' e' hm')
    (h : UnpackedFloat.compare (.finite s m e hm) (.finite s' m' e' hm') = some .lt) :
    signValue s * m * (2 : ℚ) ^ e < signValue s' * m' * 2 ^ e' := by
  obtain ⟨hbits, hlow, -⟩ := bounds_of_unpack hb
  obtain ⟨hbits', hlow', -⟩ := bounds_of_unpack hb'
  have hpos : (0 : ℚ) < m * 2 ^ e := mul_pos (Nat.cast_pos.2 hm) (zpow_pos two_pos e)
  have hpos' : (0 : ℚ) < m' * 2 ^ e' := mul_pos (Nat.cast_pos.2 hm') (zpow_pos two_pos e')
  cases s with
  | negative =>
    cases s' with
    | negative =>
      -- Among negative doubles the order is the other way.
      have hswap : ((compare e e').then (compare m m')).swap = .lt := Option.some.inj h
      rw [Ordering.swap_then, ← Std.OrientedCmp.eq_swap, ← Std.OrientedCmp.eq_swap] at hswap
      have hlt := mul_zpow_lt_of_compare hbits' (le_mantissa_of_unpack hb) hlow' hswap
      simpa [signValue] using hlt
    | positive =>
      simp only [signValue]
      linarith
  | positive =>
    cases s' with
    | negative => cases h
    | positive =>
      have hlt := mul_zpow_lt_of_compare hbits (le_mantissa_of_unpack hb') hlow (Option.some.inj h)
      simpa [signValue] using hlt

/-- Finite doubles are compared as what they read as. -/
theorem ofFloat_lt (hx : x.isFinite = true) (hy : y.isFinite = true) (h : x < y) :
    (Reading.ofFloat x : ℚ) < Reading.ofFloat y := by
  rw [ofFloat_eq, ofFloat_eq]
  rw [lt_iff] at h
  rw [isFinite_eq] at hx hy
  have hpos {m : Nat} {e : Int} (hm : 0 < m) : (0 : ℚ) < m * 2 ^ e := mul_pos (Nat.cast_pos.2 hm) (zpow_pos two_pos e)
  cases hu : unpacked x with
  | notANumber | infinity =>
    rw [hu] at hx
    cases hx
  | zero s =>
    rw [hu] at h
    cases hv : unpacked y with
    | notANumber | infinity =>
      rw [hv] at hy
      cases hy
    | zero s' =>
      rw [hv] at h
      cases h
    | finite s' m' e' hm' =>
      rw [hv] at h
      cases s' with
      | negative => cases h
      | positive => simpa [exactValue, signValue] using hpos hm'
  | finite s m e hm =>
    rw [hu] at h
    cases hv : unpacked y with
    | notANumber | infinity =>
      rw [hv] at hy
      cases hy
    | zero s' =>
      rw [hv] at h
      cases s with
      | negative => simpa [exactValue, signValue] using hpos hm
      | positive => cases h
    | finite s' m' e' hm' =>
      rw [hv] at h
      exact finite_lt hu hv h

end

end ControlCodegen.Double
