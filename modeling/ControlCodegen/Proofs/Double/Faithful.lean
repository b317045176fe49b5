import ControlCodegen.C.SourceFile
import ControlCodegen.Proofs.C.Division
import ControlCodegen.Proofs.Decimal.Numeral
import ControlCodegen.Proofs.Double.Literal
import ControlCodegen.Proofs.Double.Nearest

/-!
# `Double.Faithful`: constants stand for their doubles

* `numberOf` : the exact number that a finite double is.
* `Faithful` : a constant is the decimal of its length that is nearest to the double; from seventeen digits on it is
  read back as the double, and no other double is written like this.
* `literal_faithful` : the constants of generated files are.

Seventeen digits are off by five units of the next place at most, which is less than half the distance between two
doubles.
-/

namespace ControlCodegen.Double

open Decimal

set_option autoImplicit false

/-- The exact number that a finite double is. -/
def numberOf (v : Float) : ℚ := C.rationalValue (Binary64.ofFloat v)

/-- The constant for a double says what number is nearest to it, and the double is read from it. -/
structure Faithful (f : C.SourceFile) (v : Float) (x : ℚ) : Prop where
  /-- It has one digit at least. -/
  denotes : Denotes (max f.precision 1) (f.literal v) x
  unique : ∀ n y, Denotes n (f.literal v) y → y = x
  zero_iff : x = 0 ↔ numberOf v = 0
  /-- The number is nearest among all of so many digits. -/
  rounds : RoundsTo (max f.precision 1) (numberOf v) x
  error : |x - numberOf v| ≤ 5 * 10 ^ (-(max f.precision 1 : ℕ) : ℤ) * |numberOf v|
  /-- With seventeen digits the double is nearest to the number. -/
  separated : 17 ≤ f.precision → ∀ w : Float, w.isFinite = true → numberOf w ≠ numberOf v →
    |x - numberOf v| < |x - numberOf w|
  readBack : 17 ≤ f.precision → readFloat? (f.literal v) = some v
  /-- No other double is written like this. -/
  distinct : 17 ≤ f.precision → ∀ w : Float, f.literal w = f.literal v → w = v

/-! ## Distances -/

section

variable {negative : Bool} {m : Nat} {e : ℤ} {v w : Float} {x : ℚ}

theorem numberOf_eq (h : Binary64.ofFloat v = .finite negative m e) : numberOf v = signOf negative * (m * 2 ^ e) := by
  unfold numberOf
  rw [h]
  exact mul_assoc _ _ _

theorem abs_numberOf (h : Binary64.ofFloat v = .finite negative m e) : |numberOf v| = m * 2 ^ e := by
  rw [numberOf_eq h, abs_mul, abs_signOf, one_mul, abs_of_nonneg (by positivity)]

/-- Doubles that differ are a part of `2 ^ -53` apart, whatever their signs. -/
theorem abs_numberOf_le (hv : v.isFinite = true) (hw : w.isFinite = true) (hne : numberOf v ≠ numberOf w) :
    |numberOf v| ≤ 2 ^ 53 * |numberOf v - numberOf w| := by
  obtain ⟨negative, m, e, hv⟩ := (exists_ofFloat_iff v).2 hv
  obtain ⟨negative', m', e', hw⟩ := (exists_ofFloat_iff w).2 hw
  rw [abs_numberOf hv]
  rw [numberOf_eq hv, numberOf_eq hw] at hne ⊢
  by_cases hsign : negative = negative'
  · subst hsign
    rw [← mul_sub, abs_mul, abs_signOf, one_mul]
    exact le_distance (isDouble_ofFloat hv) (isDouble_ofFloat hw) fun heq => hne (by rw [heq])
  · -- zero is between them
    have hopposite : signOf negative' = -signOf negative := by
      cases negative <;> cases negative' <;> simp [signOf] at hsign ⊢
    have hpos : (0 : ℚ) ≤ m * 2 ^ e := by positivity
    have hpos' : (0 : ℚ) ≤ m' * 2 ^ e' := by positivity
    rw [hopposite, neg_mul, sub_neg_eq_add, ← mul_add, abs_mul, abs_signOf, one_mul,
      abs_of_nonneg (add_nonneg hpos hpos')]
    linarith

/-- A number of seventeen digits is nearer to its double than to any other. -/
theorem dist_lt_of_error (hv : v.isFinite = true) (hw : w.isFinite = true) (hne : numberOf w ≠ numberOf v)
    (herror : |x - numberOf v| ≤ 5 * 10 ^ (-17 : ℤ) * |numberOf v|) : |x - numberOf v| < |x - numberOf w| := by
  have hapart := abs_numberOf_le hv hw hne.symm
  have hpos : 0 < |numberOf v - numberOf w| := abs_pos.2 (sub_ne_zero.2 hne.symm)
  have htriangle := abs_sub_le (numberOf v) x (numberOf w)
  rw [abs_sub_comm (numberOf v) x] at htriangle
  norm_num at herror
  linarith

end

/-! ## Constants -/

section

variable {negative : Bool} {m count : Nat} {e : ℤ} {v w : Float}

theorem literal_eq (h : Binary64.ofFloat v = .finite negative m e) (count : Nat) :
    literal count v = (Scientific.rounded (max count 1) negative m e).exponential := by
  unfold literal write
  rw [h]

/-- Seventeen digits are near enough to be read back. -/
theorem near_of_error {s : Scientific} (hs : s.negative = negative) (hm : 0 < m)
    (herror : |s.value - signOf negative * (m * 2 ^ e)| ≤ 5 * 10 ^ (-17 : ℤ) * |signOf negative * ((m : ℚ) * 2 ^ e)|) :
    Near (s.coefficient * 10 ^ (s.exponent + 1 - s.count)) m e := by
  have hpos : (0 : ℚ) < m * 2 ^ e := by positivity
  unfold Scientific.value at herror
  rw [hs, ← mul_sub, abs_mul, abs_mul, abs_signOf, one_mul, one_mul, abs_of_pos hpos, abs_sub_comm] at herror
  unfold Near
  norm_num at herror
  linarith

theorem readFloat?_rounded (hcount : 17 ≤ count) (h : Binary64.ofFloat v = .finite negative m e)
    (herror : |(Scientific.rounded count negative m e).value - numberOf v| ≤ 5 * 10 ^ (-17 : ℤ) * |numberOf v|) :
    readFloat? (Scientific.rounded count negative m e).exponential = some v := by
  have hdouble := isDouble_ofFloat h
  rcases Nat.eq_zero_or_pos m with rfl | hm
  · obtain rfl : e = -1074 := hdouble.normal.resolve_left (by decide)
    rw [Scientific.rounded_zero, Scientific.readFloat?_exponential (by dsimp only; omega) (Nat.pow_pos (by decide)),
      nearestDecimal_zero, toFloat_ofFloat h]
  · have hs : Scientific.IsRounding count negative (m * 2 ^ e) (Scientific.rounded count negative m e) :=
      Scientific.isRounding_rounded (by omega) hm e
    have hnear := near_of_error hs.sign hm (numberOf_eq h ▸ herror)
    rw [Scientific.readFloat?_exponential (by rw [hs.length]; omega) (by rw [hs.length]; exact hs.high), hs.sign,
      nearestDecimal_eq hdouble hnear, toFloat_ofFloat h]

/-- More than seventeen digits are no further off. -/
theorem error_le_seventeen {x : ℚ} (hcount : 17 ≤ count)
    (herror : |x - numberOf v| ≤ 5 * 10 ^ (-count : ℤ) * |numberOf v|) :
    |x - numberOf v| ≤ 5 * 10 ^ (-17 : ℤ) * |numberOf v| := by
  have hpow : (10 : ℚ) ^ (-count : ℤ) ≤ 10 ^ (-17 : ℤ) := zpow_le_zpow_right₀ (by norm_num) (by omega)
  exact herror.trans (mul_le_mul_of_nonneg_right (by linarith) (abs_nonneg _))

/-- A small relative error does not make a number zero. -/
theorem eq_zero_iff_of_error {x y : ℚ} (hcount : 0 < count) (herror : |x - y| ≤ 5 * 10 ^ (-count : ℤ) * |y|) :
    x = 0 ↔ y = 0 := by
  have hpow : (10 : ℚ) ^ (-count : ℤ) ≤ 10 ^ (-1 : ℤ) := zpow_le_zpow_right₀ (by norm_num) (by omega)
  have hhalf : 5 * 10 ^ (-count : ℤ) * |y| ≤ 5 * 10 ^ (-1 : ℤ) * |y| :=
    mul_le_mul_of_nonneg_right (mul_le_mul_of_nonneg_left hpow (by norm_num)) (abs_nonneg y)
  rw [zpow_neg_one] at hhalf
  constructor
  · rintro rfl
    rw [zero_sub, abs_neg] at herror
    exact abs_eq_zero.1 (le_antisymm (by linarith) (abs_nonneg y))
  · rintro rfl
    rw [sub_zero, abs_zero, mul_zero] at herror
    exact abs_eq_zero.1 (le_antisymm herror (abs_nonneg x))

/-- Constants of seventeen digits are read back. -/
theorem readFloat?_literal {f : C.SourceFile} (hprecision : 17 ≤ f.precision) (hv : v.isFinite = true) :
    readFloat? (f.literal v) = some v := by
  obtain ⟨negative, m, e, h⟩ := (exists_ofFloat_iff v).2 hv
  have hcount : 0 < max f.precision 1 := by omega
  have herror := Scientific.error_rounded hcount negative m e
  rw [← numberOf_eq h] at herror
  exact (congrArg readFloat? (literal_eq h f.precision)).trans
    (readFloat?_rounded (by omega) h (error_le_seventeen (by omega) herror))

/-- So no two doubles are written alike. -/
theorem eq_of_literal_eq {f : C.SourceFile} (hprecision : 17 ≤ f.precision) (hv : v.isFinite = true)
    (h : f.literal w = f.literal v) : w = v := by
  have hconstant : IsConstant (f.literal w).toList := h ▸ (isConstant_literal_iff f.precision v).2 hv
  have hread := readFloat?_literal hprecision ((isConstant_literal_iff f.precision w).1 hconstant)
  rw [h, readFloat?_literal hprecision hv] at hread
  exact (Option.some.inj hread).symm

end

/-- The constants of finite doubles are faithful. -/
theorem literal_faithful (f : C.SourceFile) {v : Float} (hv : v.isFinite = true) : ∃ x, Faithful f v x := by
  obtain ⟨negative, m, e, h⟩ := (exists_ofFloat_iff v).2 hv
  have hcount : 0 < max f.precision 1 := by omega
  have htext : f.literal v = _ := literal_eq h f.precision
  have hdenotes := Scientific.denotes_rounded hcount negative m e
  have hrounds := Scientific.roundsTo_rounded hcount negative m e
  have herror := Scientific.error_rounded hcount negative m e
  rw [← htext] at hdenotes
  rw [← numberOf_eq h] at hrounds herror
  exact ⟨_, {
    denotes := hdenotes
    unique := fun n y hy => hy.unique hdenotes
    zero_iff := eq_zero_iff_of_error hcount herror
    rounds := hrounds
    error := herror
    separated := fun hprecision w hw hne => dist_lt_of_error hv hw hne (error_le_seventeen (by omega) herror)
    readBack := fun hprecision => readFloat?_literal hprecision hv
    distinct := fun hprecision w heq => eq_of_literal_eq hprecision hv heq }⟩

theorem literal_faithful_tenth :
    (0.1 : Float).isFinite = true ∧ ∃ x, Faithful { path := ⟨"solver.c"⟩, precision := 17 } 0.1 x :=
  ⟨by decide, literal_faithful _ (by decide)⟩

end ControlCodegen.Double
