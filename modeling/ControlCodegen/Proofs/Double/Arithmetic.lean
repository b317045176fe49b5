import ControlCodegen.Proofs.Double.Rounding

/-!
# `Double.Arithmetic`: comparisons, differences and quotients of doubles

* `lt_of_not_le` : doubles that are numbers are ordered one way or the other.
* `isNaN_sub` : finite doubles have a difference, if perhaps an infinite one.
* `oneOrMore_ofNat` : a positive whole number is made a double of one or more.
* `isFinite_div_ofNat`, `not_isFinite_div` : a finite double stays finite when it is divided by such a number, and no
  other double becomes finite.
-/

namespace ControlCodegen.Double

open Float.Model (Format UnpackedFloat totalExponent)
open Float.Model.UnpackedFloat

set_option autoImplicit false

/-- The value of a double. -/
def unpacked (x : Float) : UnpackedFloat := x.toModel.unpack

section

variable {x y : Float} {n : Nat}

theorem isNaN_eq (x : Float) : x.isNaN = (unpacked x).isNaN := rfl

theorem isFinite_eq (x : Float) : x.isFinite = (unpacked x).isFinite := rfl

theorem isInf_eq (x : Float) : x.isInf = (unpacked x).isInf := rfl

/-! ## Order -/

theorem lt_iff : x < y ↔ (unpacked x).compare (unpacked y) = some .lt := by
  have hlt : x < y ↔ (unpacked x).lt (unpacked y) = true := ⟨fun h => of_decide_eq_true h, fun h => decide_eq_true h⟩
  rw [hlt]
  unfold UnpackedFloat.lt
  exact beq_iff_eq

theorem le_iff : x ≤ y ↔ ∃ o : Ordering, (unpacked x).compare (unpacked y) = some o ∧ o.isLE = true := by
  have hle : x ≤ y ↔ (unpacked x).le (unpacked y) = true := ⟨fun h => of_decide_eq_true h, fun h => decide_eq_true h⟩
  rw [hle]
  unfold UnpackedFloat.le
  cases (unpacked x).compare (unpacked y) with
  | none => simp
  | some o => simp

/-- Numbers can be compared. -/
theorem exists_compare {u v : UnpackedFloat} (hu : u.isNaN = false) (hv : v.isNaN = false) :
    ∃ o, u.compare v = some o := by
  cases u with
  | notANumber => cases hu
  | infinity s | zero s | finite s =>
    cases v with
    | notANumber => cases hv
    | infinity s' | zero s' | finite s' => cases s <;> cases s' <;> exact ⟨_, rfl⟩

/-- A comparison the other way gives the opposite. -/
theorem compare_swap (u v : UnpackedFloat) : v.compare u = (u.compare v).map Ordering.swap := by
  have hfinite (m m' : Nat) (e e' : Int) :
      (compare e' e).then (compare m' m) = ((compare e e').then (compare m m')).swap := by
    rw [Ordering.swap_then, ← Std.OrientedCmp.eq_swap, ← Std.OrientedCmp.eq_swap]
  cases u with
  | notANumber => cases v <;> rfl
  | infinity s =>
    cases v with
    | notANumber => cases s <;> rfl
    | infinity s' | zero s' | finite s' => cases s <;> cases s' <;> rfl
  | zero s =>
    cases v with
    | notANumber => rfl
    | infinity s' | zero s' | finite s' => cases s <;> cases s' <;> rfl
  | finite s m e =>
    cases v with
    | notANumber => cases s <;> rfl
    | infinity s' | zero s' => cases s <;> cases s' <;> rfl
    | finite s' m' e' =>
      cases s with
      | negative =>
        cases s' with
        | negative => exact congrArg (fun o => some o.swap) (hfinite m m' e e')
        | positive => rfl
      | positive =>
        cases s' with
        | negative => rfl
        | positive => exact congrArg some (hfinite m m' e e')

/-- Numbers are ordered one way or the other. -/
theorem lt_of_not_le (hx : x.isNaN = false) (hy : y.isNaN = false) (h : ¬y ≤ x) : x < y := by
  obtain ⟨o, ho⟩ := exists_compare hy hx
  have hgt : o = .gt := by
    have hle : ¬o.isLE = true := fun hle => h (le_iff.2 ⟨o, ho, hle⟩)
    cases o with
    | lt | eq => exact absurd rfl hle
    | gt => rfl
  rw [lt_iff, compare_swap (unpacked y), show (unpacked y).compare (unpacked x) = some o from ho, hgt]
  rfl

/-- What is below another double is not the largest infinity, and what is above another one not the smallest. -/
theorem ne_infinity_of_lt (h : x < y) :
    unpacked x ≠ .infinity .positive ∧ unpacked y ≠ .infinity .negative := by
  have hcompare := lt_iff.1 h
  constructor
  · intro hx
    rw [hx] at hcompare
    cases hy : unpacked y with
    | notANumber | zero | finite =>
      rw [hy] at hcompare
      cases hcompare
    | infinity s =>
      rw [hy] at hcompare
      cases s <;> cases hcompare
  · intro hy
    rw [hy] at hcompare
    cases hx : unpacked x with
    | notANumber | zero | finite =>
      rw [hx] at hcompare
      cases hcompare
    | infinity s =>
      rw [hx] at hcompare
      cases s <;> cases hcompare

theorem isFinite_iff : x.isFinite = true ↔
    x.isNaN = false ∧ unpacked x ≠ .infinity .positive ∧ unpacked x ≠ .infinity .negative := by
  rw [isFinite_eq, isNaN_eq]
  cases unpacked x with
  | notANumber => exact ⟨nofun, fun h => nomatch h.1⟩
  | infinity s =>
    cases s with
    | positive => exact ⟨nofun, fun h => absurd rfl h.2.1⟩
    | negative => exact ⟨nofun, fun h => absurd rfl h.2.2⟩
  | zero s | finite s m e hm => exact ⟨fun _ => ⟨rfl, nofun, nofun⟩, fun _ => rfl⟩

theorem isInf_of_isFinite (h : x.isFinite = true) : x.isInf = false := by
  rw [isFinite_eq] at h
  rw [isInf_eq]
  cases hu : unpacked x with
  | infinity s =>
    rw [hu] at h
    cases h
  | notANumber | zero | finite => rfl

theorem isFinite_or_isInf (h : x.isNaN = false) : x.isFinite = true ∨ x.isInf = true := by
  rw [isNaN_eq] at h
  rw [isFinite_eq, isInf_eq]
  cases hu : unpacked x with
  | notANumber =>
    rw [hu] at h
    cases h
  | infinity s => exact .inr rfl
  | zero s | finite s m e hm => exact .inl rfl

theorem ne_infinity_of_isInf (h : x.isInf = false) (s : Sign) : unpacked x ≠ .infinity s := by
  intro hu
  rw [isInf_eq, hu] at h
  cases h

/-! ## Differences -/

/-- Rounding does not make a not-a-number. -/
theorem isNaN_roundWithAccuracy (s : Sign) (m : Nat) (e : Int) (acc : Accuracy) :
    (roundWithAccuracy .binary64 s m e acc).isNaN = false := by
  cases rounds_roundWithAccuracy s m e acc with
  | zero _ h | kept _ _ h | carried _ _ h => rw [h]; rfl

theorem isNaN_normalize (m e : Int) (s : Sign) : (UnpackedFloat.normalize .binary64 m e s).isNaN = false := by
  unfold UnpackedFloat.normalize UnpackedFloat.round
  split
  · exact isNaN_roundWithAccuracy ..
  · rfl
  · exact isNaN_roundWithAccuracy ..

/-- Finite doubles have a difference, if perhaps an infinite one. -/
theorem isNaN_sub (hx : x.isFinite = true) (hy : y.isFinite = true) : (x - y).isNaN = false := by
  change (unpack .binary64 (UnpackedFloat.pack .binary64
    (UnpackedFloat.sub .binary64 (unpacked x) (unpacked y)))).isNaN = false
  rw [isNaN_unpack_pack]
  rw [isFinite_eq] at hx hy
  cases hu : unpacked x with
  | notANumber | infinity =>
    rw [hu] at hx
    cases hx
  | zero s =>
    cases hv : unpacked y with
    | notANumber | infinity =>
      rw [hv] at hy
      cases hy
    | zero s' => cases s <;> cases s' <;> rfl
    | finite s' => rfl
  | finite s =>
    cases hv : unpacked y with
    | notANumber | infinity =>
      rw [hv] at hy
      cases hy
    | zero s' => rfl
    | finite s' => exact isNaN_normalize ..

/-! ## Quotients by whole numbers -/

/-- A double that is one or more, perhaps the largest infinity. -/
inductive OneOrMore (u : UnpackedFloat) : Prop where
  | infinity (h : u = .infinity .positive)
  | finite (m : Nat) (e : Int) (hm : 0 < m) (h : u = .finite .positive m e hm) (hlow : 2 ^ 52 ≤ m) (he : -52 ≤ e)

/-- Rounding keeps a value one or more. -/
theorem oneOrMore_roundWithAccuracy {m : Nat} {e : Int} (hm : 2 ^ 52 ≤ m) (he : 0 ≤ (m.log2 : Int) + e)
    (acc : Accuracy) :
    OneOrMore (unpack .binary64 (UnpackedFloat.pack .binary64 (roundWithAccuracy .binary64 .positive m e acc))) := by
  have hnormal : minExponent ≤ (m.log2 : Int) - 52 + e := by
    unfold minExponent
    omega
  obtain ⟨r, e', hr, hround, hlow, hhigh, hexponent⟩ : ∃ r e' hr,
      roundWithAccuracy .binary64 .positive m e acc = .finite .positive r e' hr ∧ 2 ^ 52 ≤ r ∧ r < 2 ^ 53 ∧
        (m.log2 : Int) - 52 + e ≤ e' := normal_roundWithAccuracy hm hnormal
  rw [hround]
  by_cases hmax : e' ≤ maxExponent
  · rw [unpack_pack_normal hr hlow hhigh (by omega) hmax]
    exact .finite r e' hr rfl hlow (by omega)
  · rw [pack_of_large hr (by omega)]
    exact .infinity rfl

/-- A shift by so many bits makes a mantissa longer by as many. -/
theorem log2_shiftLeft {m : Nat} (hm : 0 < m) (k : Nat) : m.log2 + k ≤ (m <<< k).log2 := by
  have hpow : 2 ^ (m.log2 + k) ≤ m <<< k := by
    rw [Nat.shiftLeft_eq, Nat.pow_add]
    exact Nat.mul_le_mul_right _ (Nat.log2_self_le (Nat.ne_of_gt hm))
  have hpos : m <<< k ≠ 0 := Nat.ne_of_gt (Nat.lt_of_lt_of_le (Nat.two_pow_pos _) hpow)
  exact (Nat.le_log2 hpos).2 hpow

/-- A mantissa that is shifted to 53 bits has a leading one. -/
theorem le_of_log2 {m : Nat} (h : 52 ≤ m.log2) : 2 ^ 52 ≤ m := by
  have hm : m ≠ 0 := by
    rintro rfl
    exact absurd h (by decide)
  exact (Nat.le_log2 hm).1 h

/-- A positive whole number is one or more. -/
theorem oneOrMore_normalize (hn : 0 < n) :
    OneOrMore (unpack .binary64 (UnpackedFloat.pack .binary64 (UnpackedFloat.normalize .binary64 n 0 .positive))) := by
  have hcompare : compare (n : Int) 0 = .gt := by
    rw [Int.compare_eq_gt]
    omega
  have hshift : (0 - Format.binary64.targetExponent (totalExponent n 0)).toNat = 52 - n.log2 := by
    rw [targetExponent_eq]
    unfold minExponent
    omega
  have hround : UnpackedFloat.normalize .binary64 n 0 .positive =
      roundWithAccuracy .binary64 .positive (n <<< (52 - n.log2)) (0 - (52 - n.log2 : Nat)) .exact := by
    unfold UnpackedFloat.normalize UnpackedFloat.round decreaseExponent
    rw [hcompare]
    dsimp only
    rw [Int.toNat_natCast, hshift]
  have hlog := log2_shiftLeft hn (52 - n.log2)
  rw [hround]
  exact oneOrMore_roundWithAccuracy (le_of_log2 (by omega)) (by omega) .exact

theorem unpacked_one : ∃ hpos, unpacked (Float.ofBits 0x3FF0000000000000) = .finite .positive (2 ^ 52) (-52) hpos :=
  ⟨by decide, rfl⟩

/-- A product with one is no smaller. -/
theorem oneOrMore_mul_one {u : UnpackedFloat} (h : OneOrMore u) :
    OneOrMore (unpack .binary64 (UnpackedFloat.pack .binary64
      (UnpackedFloat.mul .binary64 u (unpacked (Float.ofBits 0x3FF0000000000000))))) := by
  obtain ⟨hpos, hone⟩ := unpacked_one
  rw [hone]
  cases h with
  | infinity h =>
    have hinfinity : UnpackedFloat.mul .binary64 (.infinity .positive) (.finite .positive (2 ^ 52) (-52) hpos) =
        .infinity .positive := rfl
    rw [h, hinfinity]
    exact .infinity rfl
  | finite m e hm h hlow he =>
    have hlog := log2_shiftLeft hm 52
    have hlog' : 52 ≤ m.log2 := (Nat.le_log2 (Nat.ne_of_gt hm)).2 hlow
    rw [Nat.shiftLeft_eq] at hlog
    rw [h]
    exact oneOrMore_roundWithAccuracy (le_of_log2 (by omega)) (by omega) .exact

/-- A large whole number is made with more bits than are kept. -/
theorem ofScientific_eq (hn : 0 < n) : UnpackedFloat.ofScientific .binary64 n 0 =
    roundWithAccuracy .binary64 .positive (n <<< 53) (-53) .exact := by
  have hpow : (0 : Int) ≤ 2 ^ Format.binary64.exponentBits := by decide
  unfold UnpackedFloat.ofScientific
  rw [dif_neg (Nat.ne_of_gt hn), if_neg (by decide), if_neg (by omega), if_pos (Int.le_refl 0)]
  unfold UnpackedFloat.mul
  dsimp only
  rw [show (10 : Nat) ^ (0 : Int).toNat = 1 from rfl, Nat.mul_one]
  rfl

theorem oneOrMore_ofNat (hn : 0 < n) : OneOrMore (unpacked (Float.ofNat n)) := by
  by_cases hsmall : n < 2 ^ 53
  · have htoNat : n.toUInt64.toNat = n := by
      rw [Nat.toUInt64_eq, UInt64.toNat_ofNat']
      omega
    have hmul : Float.ofNat n = n.toUInt64.toFloat * Float.ofBits 0x3FF0000000000000 := dif_pos ⟨hsmall, by decide⟩
    rw [hmul]
    refine oneOrMore_mul_one (u := unpacked n.toUInt64.toFloat) ?_
    change OneOrMore (unpack .binary64 (UnpackedFloat.pack .binary64
      (UnpackedFloat.normalize .binary64 n.toUInt64.toNat 0 .positive)))
    rw [htoNat]
    exact oneOrMore_normalize hn
  · -- From here on the number is made with more bits than are kept.
    have hlog := log2_shiftLeft hn 53
    have hscientific : Float.ofNat n = Float.ofModel (Float.Model.ofScientific n 0) := dif_neg fun h => hsmall h.1
    rw [hscientific]
    change OneOrMore (unpack .binary64 (UnpackedFloat.pack .binary64 (UnpackedFloat.ofScientific .binary64 n 0)))
    rw [ofScientific_eq hn]
    exact oneOrMore_roundWithAccuracy (le_of_log2 (by omega)) (by omega) .exact

/-- The quotient of a finite double by one or more is no larger than the largest double. -/
theorem isFinite_divCore {s : Sign} {m₁ m₂ : Nat} {e₁ e₂ : Int} (hm₁ : m₁ < 2 ^ 53) (he₁ : e₁ ≤ maxExponent)
    (hm₂ : 2 ^ 52 ≤ m₂) (he₂ : -52 ≤ e₂) :
    (unpack .binary64 (UnpackedFloat.pack .binary64 (roundWithAccuracy .binary64 s
      (divCore .binary64 m₁ e₁ m₂ e₂).1 (divCore .binary64 m₁ e₁ m₂ e₂).2.1
      (divCore .binary64 m₁ e₁ m₂ e₂).2.2))).isFinite = true := by
  have hlog₁ : m₁.log2 < 53 := log2_lt_of_lt (by decide) hm₁
  have hlog₂ : 52 ≤ m₂.log2 := (Nat.le_log2 (by omega)).2 hm₂
  unfold divCore
  dsimp only
  generalize ht : min (e₁ - e₂) (Format.binary64.targetExponent (totalExponent m₁ e₁ - totalExponent m₂ e₂)) = t
  have hmax : t ≤ maxExponent := by
    have hbits : ((Format.binary64.mantissaBits : Nat) : Int) = 53 := rfl
    have hmin : Format.binary64.minExponent = -1074 := by decide
    unfold Format.targetExponent totalExponent at ht
    rw [hbits, hmin] at ht
    unfold maxExponent at *
    omega
  -- The divisor makes up for the bits by which the dividend is shifted.
  have hle : m₁ <<< (e₁ - e₂ - t).toNat ≤ (2 ^ 53 - 1) * 2 ^ (maxExponent - t).toNat * m₂ := by
    have hpow : 2 ^ (e₁ - e₂ - t).toNat ≤ 2 ^ (maxExponent - t).toNat * m₂ :=
      calc 2 ^ (e₁ - e₂ - t).toNat
        _ ≤ 2 ^ ((maxExponent - t).toNat + 52) := Nat.pow_le_pow_right (by decide) (by omega)
        _ = 2 ^ (maxExponent - t).toNat * 2 ^ 52 := Nat.pow_add ..
        _ ≤ 2 ^ (maxExponent - t).toNat * m₂ := Nat.mul_le_mul_left _ hm₂
    rw [Nat.shiftLeft_eq, Nat.mul_assoc]
    exact Nat.mul_le_mul (by omega) hpow
  refine isFinite_roundWithAccuracy hmax ?_ fun hmaximal => ?_
  · exact Nat.div_le_of_le_mul (by rwa [Nat.mul_comm])
  · have hrest : m₁ <<< (e₁ - e₂ - t).toNat % m₂ = 0 := by
      have hdiv := Nat.div_add_mod (m₁ <<< (e₁ - e₂ - t).toNat) m₂
      rw [hmaximal, Nat.mul_comm] at hdiv
      omega
    rw [hrest]
    exact if_pos rfl

/-- A finite double stays finite when it is divided by a positive whole number. -/
theorem isFinite_div_ofNat (hx : x.isFinite = true) (hn : 0 < n) : (x / Float.ofNat n).isFinite = true := by
  change (unpack .binary64 (UnpackedFloat.pack .binary64
    (UnpackedFloat.div .binary64 (unpacked x) (unpacked (Float.ofNat n))))).isFinite = true
  rw [isFinite_eq] at hx
  cases hu : unpacked x with
  | notANumber | infinity =>
    rw [hu] at hx
    cases hx
  | zero s =>
    cases oneOrMore_ofNat hn with
    | infinity h | finite _ _ _ h =>
      rw [h]
      exact isFinite_unpack_pack_zero _
  | finite s m e hm =>
    cases oneOrMore_ofNat hn with
    | infinity h =>
      rw [h]
      exact isFinite_unpack_pack_zero _
    | finite m' e' hm' h hlow he' =>
      obtain ⟨hbits, -, he⟩ := bounds_of_unpack hu
      rw [h]
      exact isFinite_divCore hbits he hlow he'

/-- An infinite double does not become finite by a division. -/
theorem not_isFinite_div (hx : x.isInf = true) (y : Float) : (x / y).isFinite = false := by
  refine not_isFinite_unpack_pack (u := UnpackedFloat.div .binary64 (unpacked x) (unpacked y)) ?_
  rw [isInf_eq] at hx
  cases hu : unpacked x with
  | notANumber | zero | finite =>
    rw [hu] at hx
    cases hx
  | infinity s => cases unpacked y <;> rfl

end

end ControlCodegen.Double
