import ControlCodegen.Decimal.Scientific
import ControlCodegen.Proofs.Double.Packing

/-!
# `Double.Literal`: doubles as constants of C

* `IsConstant` : the floating constants of C, perhaps with a minus.
* `exists_ofFloat_iff` : a double is finite if and only if it is written by its digits.
* `isConstant_literal_iff` : what is written for a double is a constant of C if and only if the double is finite.
-/

namespace ControlCodegen.Double

open Decimal
open Float.Model (Format UnpackedFloat)
open Float.Model.UnpackedFloat

set_option autoImplicit false

/-! ## Constants -/

/-- One digit or more. -/
def IsDigits (cs : List Char) : Prop := cs ≠ [] ∧ ∀ c ∈ cs, c.isDigit = true

/-- Characters that may have a minus before them. -/
def Signed (P : List Char → Prop) (cs : List Char) : Prop := P cs ∨ ∃ ds, cs = '-' :: ds ∧ P ds

/-- Digits, a point and more digits if there are any, and an exponent. -/
def IsUnsigned (cs : List Char) : Prop :=
  ∃ whole fraction power, cs = whole ++ fraction ++ 'e' :: power ∧ IsDigits whole ∧
    (fraction = [] ∨ ∃ ds, fraction = '.' :: ds ∧ IsDigits ds) ∧ Signed IsDigits power

/-- A floating constant of C, perhaps with a minus. -/
def IsConstant (cs : List Char) : Prop := Signed IsUnsigned cs

/-- A constant has an exponent. -/
theorem mem_of_isConstant {cs : List Char} (h : IsConstant cs) : 'e' ∈ cs := by
  have hunsigned {ds : List Char} (hds : IsUnsigned ds) : 'e' ∈ ds := by
    obtain ⟨whole, fraction, power, rfl, -⟩ := hds
    exact List.mem_append_right _ List.mem_cons_self
  rcases h with h | ⟨ds, rfl, h⟩
  · exact hunsigned h
  · exact List.mem_cons_of_mem _ (hunsigned h)

theorem isDigits_toString (n : Nat) : IsDigits (toString n).toList := by
  rw [Nat.toString_eq_ofList_toDigits, String.toList_ofList]
  exact ⟨Nat.toDigits_ne_nil, fun c hc => Nat.isDigit_of_mem_toDigits (by decide) (by decide) hc⟩

theorem signed_toString (e : Int) : Signed IsDigits (toString e).toList := by
  cases e with
  | ofNat n => exact .inl (isDigits_toString n)
  | negSucc n =>
    refine .inr ⟨(toString (n + 1)).toList, ?_, isDigits_toString (n + 1)⟩
    exact String.toList_append

theorem isDigits_digits (s : Scientific) : IsDigits s.digits := by
  unfold Scientific.digits
  dsimp only
  constructor
  · exact List.append_ne_nil_of_right_ne_nil _ Nat.toDigits_ne_nil
  · intro c hc
    rcases List.mem_append.1 hc with hc | hc
    · rw [List.eq_of_mem_replicate hc]
      decide
    · exact Nat.isDigit_of_mem_toDigits (by decide) (by decide) hc

/-- A sign may stand before a constant. -/
theorem isConstant_of_isUnsigned (negative : Bool) {mantissa power : String}
    (h : IsUnsigned (mantissa.toList ++ 'e' :: power.toList)) :
    IsConstant (toString (if negative then "-" else "") ++ toString mantissa ++ toString "e" ++ power).toList := by
  have hlist (sign : String) : (sign ++ mantissa ++ "e" ++ power).toList =
      sign.toList ++ (mantissa.toList ++ 'e' :: power.toList) := by
    simp [String.toList_append]
  cases negative with
  | false =>
    refine .inl ?_
    rw [if_neg Bool.false_ne_true]
    exact (hlist "").symm ▸ h
  | true =>
    refine .inr ⟨_, ?_, h⟩
    exact hlist "-"

/-- Digits with an exponent are a constant. -/
theorem isConstant_exponential (s : Scientific) : IsConstant s.exponential.toList := by
  have hdigits := isDigits_digits s
  have hpower := signed_toString s.exponent
  unfold Scientific.exponential
  dsimp only
  generalize s.digits = ds at hdigits
  rcases ds with _ | ⟨d, _ | ⟨d', ds⟩⟩
  · exact absurd rfl hdigits.1
  · refine isConstant_of_isUnsigned _ ?_
    rw [String.toList_ofList]
    exact ⟨[d], [], _, rfl, hdigits, .inl rfl, hpower⟩
  · refine isConstant_of_isUnsigned _ ?_
    rw [String.toList_ofList]
    have hmem : ∀ c ∈ d' :: ds, c.isDigit = true := fun c hc => hdigits.2 c (List.mem_cons_of_mem _ hc)
    have hhead : IsDigits [d] := ⟨List.cons_ne_nil _ _, fun c hc => ?_⟩
    · exact ⟨[d], '.' :: d' :: ds, _, rfl, hhead, .inr ⟨_, rfl, List.cons_ne_nil _ _, hmem⟩, hpower⟩
    · obtain rfl := List.mem_singleton.1 hc
      exact hdigits.2 c List.mem_cons_self

/-! ## Finite doubles -/

theorem biased_eq (v : Float) :
    v.toBits.toNat / twoPow 52 % twoPow 11 = (@unpackExponent .binary64 v.toModel.toBits.toBitVec).toNat := by
  rw [unpackExponent_def, BitVec.extractLsb'_toNat, Nat.shiftRight_eq_div_pow]
  rfl

/-- A double is finite if and only if it is written by its digits. -/
theorem exists_ofFloat_iff (v : Float) :
    (∃ negative significand exponent, Binary64.ofFloat v = .finite negative significand exponent) ↔
      v.isFinite = true := by
  change _ ↔ (unpack .binary64 v.toModel.toBits.toBitVec).isFinite = true
  rw [isFinite_unpack_iff, Ne, ← BitVec.toNat_inj, ← biased_eq]
  unfold Binary64.ofFloat Binary64.ofBits
  dsimp only
  by_cases hbiased : v.toBits.toNat / twoPow 52 % twoPow 11 = 2047
  · rw [if_pos hbiased]
    refine iff_of_false ?_ fun hne => hne hbiased
    split <;> rintro ⟨_, _, _, ⟨⟩⟩
  · rw [if_neg hbiased]
    refine iff_of_true ?_ hbiased
    split <;> exact ⟨_, _, _, rfl⟩

/-- What is written for a double is a constant of C if and only if the double is finite. -/
theorem isConstant_literal_iff (count : Nat) (v : Float) :
    IsConstant (literal count v).toList ↔ v.isFinite = true := by
  rw [← exists_ofFloat_iff]
  unfold literal write
  cases Binary64.ofFloat v with
  | notANumber =>
    refine iff_of_false (fun h => ?_) nofun
    have hmem : 'e' ∈ "NaN".toList := mem_of_isConstant h
    exact absurd hmem (by decide)
  | infinite negative =>
    refine iff_of_false (fun h => ?_) nofun
    have hmem : 'e' ∈ (if negative then "-inf" else "inf").toList := mem_of_isConstant h
    cases negative <;> exact absurd hmem (by decide)
  | finite negative significand exponent => exact iff_of_true (isConstant_exponential _) ⟨_, _, _, rfl⟩

end ControlCodegen.Double
