import ControlCodegen.Proofs.Double.Packing

/-!
# `Double.Rounding`: how results are rounded to doubles

A result comes as a mantissa of any size, an exponent, and how far the true value is above them. Rounding drops bits
until the mantissa has no more than 53, and adds one to it where the dropped bits ask for that.

* `Rounds`, `rounds_roundWithAccuracy` : what comes of rounding, from the mantissa after bits were dropped.
* `isFinite_roundWithAccuracy` : a value that is no larger than the largest double does not become infinite.
* `normal_roundWithAccuracy` : a value that is not subnormal does not become so, nor does it get a smaller exponent.
-/

namespace ControlCodegen.Double

open Float.Model (Format UnpackedFloat totalExponent)
open Float.Model.UnpackedFloat

set_option autoImplicit false

section

variable {s : Sign} {m : Nat} {e : Int} {acc : Accuracy}

/-- How many bits are dropped from a mantissa. -/
def dropped (m : Nat) (e : Int) : Nat := (max ((m.log2 : Int) - 52 + e) minExponent - e).toNat

theorem targetExponent_eq (m : Nat) (e : Int) :
    Format.binary64.targetExponent (totalExponent m e) = max ((m.log2 : Int) - 52 + e) minExponent := by
  unfold Format.targetExponent totalExponent
  have hbits : ((Format.binary64.mantissaBits : Nat) : Int) = 53 := rfl
  have hmin : Format.binary64.minExponent = minExponent := by decide
  rw [hbits, hmin]
  congr 1
  omega

/-- The mantissa that is left. -/
theorem mantissa_shiftRight (em : ExtendedMantissa) (k : Nat) : (em >>> k).mantissa = em.mantissa / 2 ^ k := by
  induction k with
  | zero => exact (Nat.div_one _).symm
  | succ k ih =>
    change (em >>> k).mantissa / 2 = _
    rw [ih, Nat.div_div_eq_div_mul, Nat.pow_succ]

/-- Nothing is missing from a mantissa. -/
def Whole (em : ExtendedMantissa) : Prop := em.roundBit = false ∧ em.stickyBit = false

/-- Nothing is missing where all bits that are dropped are zero. -/
theorem whole_shiftRight {em : ExtendedMantissa} (h : Whole em) {k : Nat} (hdvd : 2 ^ k ∣ em.mantissa) :
    Whole (em >>> k) := by
  induction k with
  | zero => exact h
  | succ k ih =>
    obtain ⟨hround, hsticky⟩ := ih (Nat.dvd_trans (Nat.pow_dvd_pow 2 k.le_succ) hdvd)
    have heven : (em >>> k).mantissa % 2 = 0 := by
      rw [mantissa_shiftRight]
      obtain ⟨q, hq⟩ := hdvd
      rw [hq, Nat.pow_succ, Nat.mul_assoc, Nat.mul_div_cancel_left _ (Nat.two_pow_pos k)]
      exact Nat.mul_mod_right 2 q
    change ((em >>> k).mantissa % 2 != 0) = false ∧ ((em >>> k).roundBit || (em >>> k).stickyBit) = false
    rw [heven, hround, hsticky]
    exact ⟨rfl, rfl⟩

theorem roundedMantissa_of_whole {em : ExtendedMantissa} (h : Whole em) : em.roundedMantissa = em.mantissa := by
  obtain ⟨m, r, t⟩ := em
  obtain ⟨rfl, rfl⟩ : r = false ∧ t = false := h
  rfl

/-- One is added to a mantissa at most. -/
theorem roundedMantissa_bounds (em : ExtendedMantissa) :
    em.mantissa ≤ em.roundedMantissa ∧ em.roundedMantissa ≤ em.mantissa + 1 := by
  obtain ⟨m, r, t⟩ := em
  unfold ExtendedMantissa.roundedMantissa ExtendedMantissa.accuracy Accuracy.roundToNearestEven
  cases r <;> cases t <;> dsimp only <;> omega

theorem mantissa_ofMantissaAndAccuracy (m : Nat) (acc : Accuracy) :
    (ExtendedMantissa.ofMantissaAndAccuracy m acc).mantissa = m := by
  cases acc with
  | exact => rfl
  | inexact o => cases o <;> rfl

/-! ## Rounding -/

/-- A mantissa without the bits that are dropped. -/
def kept (m : Nat) (e : Int) (acc : Accuracy) : ExtendedMantissa :=
  ExtendedMantissa.ofMantissaAndAccuracy m acc >>> dropped m e

theorem mantissa_kept (m : Nat) (e : Int) (acc : Accuracy) : (kept m e acc).mantissa = m / 2 ^ dropped m e := by
  unfold kept
  rw [mantissa_shiftRight, mantissa_ofMantissaAndAccuracy]

theorem shiftToTargetExponent_eq (m : Nat) (e : Int) (acc : Accuracy) :
    shiftToTargetExponent .binary64 m e acc = (kept m e acc, e + dropped m e) := by
  unfold shiftToTargetExponent
  rw [targetExponent_eq]
  rfl

/-- No more than 53 bits are kept. -/
theorem kept_lt (m : Nat) (e : Int) (acc : Accuracy) : (kept m e acc).mantissa < 2 ^ 53 := by
  rw [mantissa_kept, Nat.div_lt_iff_lt_mul (Nat.two_pow_pos _), ← Nat.pow_add]
  refine Nat.lt_of_lt_of_le Nat.lt_log2_self (Nat.pow_le_pow_right (by decide) ?_)
  unfold dropped
  omega

theorem minExponent_le (m : Nat) (e : Int) : minExponent ≤ e + dropped m e := by
  unfold dropped
  omega

theorem log2_lt_of_lt {n k : Nat} (hk : 0 < k) (h : n < 2 ^ k) : n.log2 < k := by
  by_cases hn : n = 0
  · rw [hn]
    exact hk
  · exact (Nat.log2_lt hn).2 h

/-- What comes of rounding. -/
inductive Rounds (s : Sign) (r : Nat) (e : Int) (u : UnpackedFloat) : Prop where
  | zero (hr : r = 0) (h : u = .zero s)
  | kept (hr : r < 2 ^ 53) (hpos : 0 < r) (h : u = .finite s r e hpos)
  /-- One bit more is dropped. -/
  | carried (hr : r = 2 ^ 53) (hpos : 0 < 2 ^ 52) (h : u = .finite s (2 ^ 52) (e + 1) hpos)

theorem rounds_roundWithAccuracy (s : Sign) (m : Nat) (e : Int) (acc : Accuracy) :
    Rounds s (kept m e acc).roundedMantissa (e + dropped m e) (roundWithAccuracy .binary64 s m e acc) := by
  have hbounds := roundedMantissa_bounds (kept m e acc)
  have hlt := kept_lt m e acc
  have hmin := minExponent_le m e
  generalize hr : (kept m e acc).roundedMantissa = r at hbounds
  generalize he' : e + dropped m e = e' at hmin
  have hresult : roundWithAccuracy .binary64 s m e acc =
      if h : r / 2 ^ dropped r e' = 0 then .zero s
      else .finite s (r / 2 ^ dropped r e') (e' + dropped r e') (Nat.pos_of_ne_zero h) := by
    unfold roundWithAccuracy
    rw [shiftToTargetExponent_eq]
    simp only [hr, he', shiftToTargetExponent_eq, mantissa_kept]
  rw [hresult]
  rcases Nat.lt_or_ge r (2 ^ 53) with hlow | hhigh
  · have hdropped : dropped r e' = 0 := by
      have hlog := log2_lt_of_lt (by decide) hlow
      unfold dropped
      omega
    rw [hdropped, Nat.pow_zero, Nat.div_one]
    by_cases hzero : r = 0
    · rw [dif_pos hzero]
      exact .zero hzero rfl
    · rw [dif_neg hzero]
      exact .kept hlow (Nat.pos_of_ne_zero hzero) (by congr 1; omega)
  · obtain rfl : r = 2 ^ 53 := by omega
    have hdropped : dropped (2 ^ 53) e' = 1 := by
      unfold dropped
      rw [Nat.log2_two_pow]
      omega
    rw [hdropped]
    exact .carried rfl (by decide) (dif_neg (by decide))

/-- A value that is no larger than the largest double does not become infinite. -/
theorem isFinite_roundWithAccuracy (he : e ≤ maxExponent) (hle : m ≤ (2 ^ 53 - 1) * 2 ^ (maxExponent - e).toNat)
    (hexact : m = (2 ^ 53 - 1) * 2 ^ (maxExponent - e).toNat → acc = .exact) :
    (unpack .binary64 (UnpackedFloat.pack .binary64 (roundWithAccuracy .binary64 s m e acc))).isFinite = true := by
  generalize hd : (maxExponent - e).toNat = d at hle hexact
  have hlog : m.log2 < 53 + d := by
    refine log2_lt_of_lt (by omega) (Nat.lt_of_le_of_lt hle ?_)
    rw [Nat.pow_add]
    exact Nat.mul_lt_mul_of_pos_right (by decide) (Nat.two_pow_pos d)
  have hexponent : e + dropped m e ≤ maxExponent := by
    unfold dropped minExponent at *
    unfold maxExponent at *
    omega
  cases rounds_roundWithAccuracy s m e acc with
  | zero _ h =>
    rw [h]
    exact isFinite_unpack_pack_zero s
  | kept _ hpos h =>
    rw [h]
    exact isFinite_unpack_pack hpos hexponent
  | carried hr hpos h =>
    rw [h]
    -- With the largest exponent, a mantissa can be carried only if it is above the largest one.
    refine isFinite_unpack_pack hpos (Decidable.byContradiction fun hmax => ?_)
    have hdropped : dropped m e = d := by omega
    have hbounds := roundedMantissa_bounds (kept m e acc)
    rw [hr, mantissa_kept, hdropped] at hbounds
    have hlarge : (2 ^ 53 - 1) * 2 ^ d ≤ m := (Nat.le_div_iff_mul_le (Nat.two_pow_pos d)).1 (by omega)
    have hm : m = (2 ^ 53 - 1) * 2 ^ d := Nat.le_antisymm hle hlarge
    have hwhole : Whole (kept m e acc) := by
      unfold kept
      rw [hexact hm, hdropped]
      refine whole_shiftRight ⟨rfl, rfl⟩ ?_
      rw [mantissa_ofMantissaAndAccuracy, hm]
      exact Nat.dvd_mul_left _ _
    have hround := roundedMantissa_of_whole hwhole
    have hlt := kept_lt m e acc
    omega

/-- A value with so large an exponent does not get a smaller one. -/
theorem normal_roundWithAccuracy (hm : 2 ^ 52 ≤ m) (he : minExponent ≤ (m.log2 : Int) - 52 + e) :
    ∃ r e' hpos, roundWithAccuracy .binary64 s m e acc = .finite s r e' hpos ∧ 2 ^ 52 ≤ r ∧ r < 2 ^ 53 ∧
      (m.log2 : Int) - 52 + e ≤ e' := by
  have hlog : 52 ≤ m.log2 := (Nat.le_log2 (by omega)).2 hm
  have hdropped : dropped m e = m.log2 - 52 := by
    unfold dropped
    omega
  have hkept : 2 ^ 52 ≤ (kept m e acc).mantissa := by
    rw [mantissa_kept, hdropped, Nat.le_div_iff_mul_le (Nat.two_pow_pos _), ← Nat.pow_add,
      Nat.add_sub_of_le hlog]
    exact Nat.log2_self_le (by omega)
  have hbounds := roundedMantissa_bounds (kept m e acc)
  cases rounds_roundWithAccuracy s m e acc with
  | zero hr => omega
  | kept hr hpos h => exact ⟨_, _, hpos, h, by omega, hr, by omega⟩
  | carried hr hpos h => exact ⟨_, _, hpos, h, by decide, by decide, by omega⟩

end

end ControlCodegen.Double
