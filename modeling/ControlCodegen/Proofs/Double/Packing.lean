import Mathlib

/-!
# `Double.Packing`: doubles as bits

The value of a double is unpacked from its bits into a sign, a mantissa and an exponent. What is computed with these is
packed again.

* `bounds_of_unpack` : the mantissas and exponents that doubles have.
* `isNaN_unpack_pack` : packing neither makes a not-a-number nor loses one.
* `isFinite_unpack_pack` : what has no larger exponent than doubles have stays finite.
* `unpack_pack_normal` : a mantissa of all bits is kept.
-/

namespace ControlCodegen.Double

open Float.Model (Format UnpackedFloat)
open Float.Model.UnpackedFloat

set_option autoImplicit false

/-- The bits of a double. -/
abbrev Bits := BitVec Format.binary64.numBits

/-- The smallest exponent of a double. -/
def minExponent : Int := -1074

/-- The largest one. -/
def maxExponent : Int := 971

section

variable {s : Sign} {m : Nat} {e : Int}

/-- The mantissa of a number that is not subnormal has a leading bit, which is not among the bits of the double. -/
theorem toNat_leadingBit (v : BitVec 52) : (1#1 ++ v).toNat = 2 ^ 52 + v.toNat := by
  rw [BitVec.toNat_append, ← Nat.shiftLeft_add_eq_or_of_lt v.isLt]
  rfl

theorem exponentBias_eq : ((Format.binary64.exponentBias : Nat) : Int) = 1023 := rfl

theorem mantissaBits_eq : ((Format.binary64.mantissaBitsWithoutImplicit : Nat) : Int) = 52 := rfl

/-- Doubles have so many bits in their mantissas, and such exponents. -/
theorem bounds_of_unpack {b : Bits} {hm : 0 < m} (h : unpack .binary64 b = .finite s m e hm) :
    m < 2 ^ 53 ∧ minExponent ≤ e ∧ e ≤ maxExponent := by
  have hmantissa : (unpackMantissa b).toNat < 2 ^ 52 := (unpackMantissa b).isLt
  have hexponent : (unpackExponent b).toNat < 2 ^ 11 := (unpackExponent b).isLt
  unfold minExponent maxExponent
  unfold unpack at h
  dsimp only at h
  rw [exponentBias_eq, mantissaBits_eq] at h
  split at h
  · split at h <;> cases h
  · rename_i hfinite
    split at h
    · rename_i hsubnormal
      have hzero : (unpackExponent b).toNat = 0 := congrArg BitVec.toNat hsubnormal
      split at h
      · cases h
      · cases h
        omega
    · rename_i hnormal
      have hpos : (unpackExponent b).toNat ≠ 0 := fun hzero => hnormal (BitVec.eq_of_toNat_eq hzero)
      have hmax : (unpackExponent b).toNat ≠ 2047 := fun hzero => hfinite (BitVec.eq_of_toNat_eq hzero)
      cases h
      have hlead : (1#1 ++ unpackMantissa b).toNat = _ := toNat_leadingBit (unpackMantissa b)
      rw [hlead]
      omega

/-- All exponents but that of infinity and not-a-number belong to finite doubles. -/
theorem isFinite_unpack_iff {b : Bits} : (unpack .binary64 b).isFinite = true ↔ unpackExponent b ≠ -1#11 := by
  unfold unpack
  dsimp only
  split
  · rename_i hexponent
    refine iff_of_false ?_ fun hne => hne hexponent
    split <;> exact Bool.false_ne_true
  · rename_i hexponent
    refine iff_of_true ?_ hexponent
    split
    · split <;> rfl
    · rfl

theorem isFinite_unpack_packComponents {ev : BitVec 11} (hev : ev ≠ -1#11) (s : Sign) (mv : BitVec 52) :
    (unpack .binary64 (packComponents .binary64 s ev mv)).isFinite = true := by
  rw [isFinite_unpack_iff, unpackExponent_packComponents]
  exact hev

/-- The exponent as it stands in the bits. -/
theorem biasedExponent_eq (e : Int) :
    (e + Format.binary64.exponentBias + Format.binary64.mantissaBitsWithoutImplicit).toNat = (e + 1075).toNat := by
  rw [exponentBias_eq, mantissaBits_eq]
  omega

theorem ofNat_ne_max {n : Nat} (h : n + 1 < 2 ^ 11) : BitVec.ofNat 11 n ≠ -1#11 := by
  intro heq
  have htoNat : n % 2 ^ 11 = 2047 := by
    rw [← BitVec.toNat_ofNat, heq]
    rfl
  omega

/-- A number with a larger exponent than doubles have becomes infinite. -/
theorem pack_of_large (hm : 0 < m) (he : maxExponent < e) :
    UnpackedFloat.pack .binary64 (.finite s m e hm) = packedInfinity .binary64 s := by
  unfold maxExponent at he
  unfold UnpackedFloat.pack
  dsimp only
  rw [biasedExponent_eq]
  exact if_pos (by omega)

/-- What has no larger exponent than doubles have stays finite. -/
theorem isFinite_unpack_pack (hm : 0 < m) (he : e ≤ maxExponent) :
    (unpack .binary64 (UnpackedFloat.pack .binary64 (.finite s m e hm))).isFinite = true := by
  unfold maxExponent at he
  unfold UnpackedFloat.pack
  dsimp only
  rw [biasedExponent_eq, if_neg (by omega)]
  split
  · exact isFinite_unpack_packComponents (ofNat_ne_max (by omega)) s _
  · exact isFinite_unpack_packComponents (by decide) s _

theorem isFinite_unpack_pack_zero (s : Sign) :
    (unpack .binary64 (UnpackedFloat.pack .binary64 (.zero s))).isFinite = true := by
  cases s <;> rfl

/-- What is not finite does not become so. -/
theorem not_isFinite_unpack_pack {u : UnpackedFloat} (h : u.isFinite = false) :
    (unpack .binary64 (UnpackedFloat.pack .binary64 u)).isFinite = false := by
  cases u with
  | notANumber => rfl
  | infinity s => cases s <;> rfl
  | zero s | finite s => cases h

/-- Packing neither makes a not-a-number nor loses one. -/
theorem isNaN_unpack_pack (u : UnpackedFloat) : (unpack .binary64 (UnpackedFloat.pack .binary64 u)).isNaN = u.isNaN := by
  cases u with
  | notANumber => rfl
  | infinity s | zero s => cases s <;> rfl
  | finite s m e hm =>
    by_cases he : e ≤ maxExponent
    · have hfinite := isFinite_unpack_pack (s := s) hm he
      cases hunpack : unpack .binary64 (UnpackedFloat.pack .binary64 (.finite s m e hm)) with
      | notANumber =>
        rw [hunpack] at hfinite
        cases hfinite
      | infinity | zero | finite => rfl
    · rw [pack_of_large hm (by omega)]
      cases s <;> rfl

/-- A mantissa of all bits is kept. -/
theorem unpack_pack_normal (hm : 0 < m) (hlow : 2 ^ 52 ≤ m) (hhigh : m < 2 ^ 53) (hmin : minExponent ≤ e)
    (hmax : e ≤ maxExponent) :
    unpack .binary64 (UnpackedFloat.pack .binary64 (.finite s m e hm)) = .finite s m e hm := by
  have hlog : m.log2 = 52 := by
    have hlow' := (Nat.le_log2 (Nat.ne_of_gt hm)).2 hlow
    have hhigh' := (Nat.log2_lt (Nat.ne_of_gt hm)).2 hhigh
    omega
  have hmantissa : (1#1 ++ BitVec.ofNat 52 m).toNat = m := by
    rw [toNat_leadingBit, BitVec.toNat_ofNat]
    omega
  unfold minExponent at hmin
  unfold maxExponent at hmax
  have hzero : BitVec.ofNat 11 (e + 1075).toNat ≠ 0#11 := by
    intro heq
    have htoNat : (e + 1075).toNat % 2 ^ 11 = 0 := by
      rw [← BitVec.toNat_ofNat, heq]
      rfl
    omega
  have hexponent : ((BitVec.ofNat 11 (e + 1075).toNat).toNat : Int) - 1075 = e := by
    rw [BitVec.toNat_ofNat]
    omega
  unfold UnpackedFloat.pack
  dsimp only
  rw [biasedExponent_eq, if_neg (by omega), hlog, if_pos (show 52 + 1 = Format.binary64.mantissaBits from rfl)]
  unfold unpack
  simp only [unpackMantissa_packComponents, unpackExponent_packComponents, unpackSign_packComponents,
    Sign.ofBitVec_toBitVec, hmantissa]
  rw [if_neg (ofNat_ne_max (by omega)), if_neg hzero]
  congr 1

end

end ControlCodegen.Double
