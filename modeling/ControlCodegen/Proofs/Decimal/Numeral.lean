import ControlCodegen.Decimal.Reader
import ControlCodegen.Proofs.Decimal.Significant
import Mathlib.Data.List.TakeWhile

/-!
# `Decimal.Numeral`: decimal numbers as texts

* `Numeral` : a decimal number with an exponent as it is written, and the number it stands for.
* `Denotes n text x` : a text of `n` digits, the first of which is not zero unless the number is.
* `Scientific.denotes_rounded` : what a number is rounded to is written like this.
* `readFloat?_text` : a reader takes the number to the nearest double.
-/

namespace ControlCodegen.Decimal

set_option autoImplicit false

/-! ## Digits -/

theorem toNat_of_isDigit {c : Char} (h : isDigit c = true) : 48 ≤ c.toNat ∧ c.toNat ≤ 57 := by
  unfold isDigit at h
  rw [Bool.and_eq_true, decide_eq_true_eq, decide_eq_true_eq] at h
  exact h

theorem toLower_of_isDigit {c : Char} (h : isDigit c = true) : c.toLower = c := by
  refine dif_neg fun hupper => ?_
  have hlow : 65 ≤ c.toNat := hupper.1
  have hhigh := (toNat_of_isDigit h).2
  omega

theorem isDigit_of_mem_toDigits {n : Nat} {c : Char} (h : c ∈ Nat.toDigits 10 n) : isDigit c = true :=
  Nat.isDigit_of_mem_toDigits (by decide) (by decide) h

theorem ofDigits_eq (ds : List Char) : ofDigits ds = Nat.ofDigitChars 10 ds 0 :=
  Nat.ofDigitChars_eq_foldl.symm

theorem ofDigits_toDigits (n : Nat) : ofDigits (Nat.toDigits 10 n) = n := by
  rw [ofDigits_eq, Nat.ofDigitChars_ten_toDigits]

/-- Digits stand for less than the power of ten with as many zeros. -/
theorem ofDigits_lt {ds : List Char} (h : ∀ c ∈ ds, isDigit c = true) : ofDigits ds < 10 ^ ds.length := by
  induction ds using List.reverseRecOn with
  | nil => decide
  | append_singleton ds d ih =>
    have hds := ih fun c hc => h c (List.mem_append_left _ hc)
    have hd := toNat_of_isDigit (h d (List.mem_append_right _ (List.mem_singleton_self d)))
    have hstep : ofDigits (ds ++ [d]) = 10 * ofDigits ds + (d.toNat - 48) := List.foldl_append
    rw [hstep, List.length_append, List.length_singleton, Nat.pow_succ]
    omega

/-! ## Numerals -/

/-- A decimal number with an exponent, as it is written. -/
structure Numeral where
  negative : Bool
  lead : Char
  rest : List Char
  power : ℤ

namespace Numeral

def digits (a : Numeral) : List Char := a.lead :: a.rest

/-- A digit, a point and the other digits if there are any. -/
def mantissa (a : Numeral) : List Char := a.lead :: if a.rest = [] then [] else '.' :: a.rest

/-- A minus if the number is negative, the digits, and an exponent. -/
def text (a : Numeral) : String :=
  (if a.negative then "-" else "") ++ String.ofList a.mantissa ++ "e" ++ toString a.power

/-- All digits stand for a whole number. The point is moved before the last digits by the exponent. -/
def value (a : Numeral) : ℚ := signOf a.negative * (ofDigits a.digits * 10 ^ (a.power - a.rest.length))

/-- All its digits are digits. -/
def WellFormed (a : Numeral) : Prop := ∀ c ∈ a.digits, isDigit c = true

end Numeral

/-- A text that denotes a number with `n` digits, the first of which is not zero unless the number is. -/
def Denotes (n : Nat) (text : String) (x : ℚ) : Prop :=
  ∃ a : Numeral, a.WellFormed ∧ text = a.text ∧ a.digits.length = n ∧ (a.lead = '0' → x = 0) ∧ a.value = x

namespace Scientific

variable {s : Scientific}

theorem length_digits (hcount : 0 < s.count) (h : s.coefficient < 10 ^ s.count) : s.digits.length = s.count := by
  have hlength := (Nat.length_toDigits_le_iff (by decide) hcount).2 h
  unfold digits
  dsimp only
  rw [List.length_append, List.length_replicate, Nat.sub_add_cancel hlength]

theorem ofDigits_digits (s : Scientific) : ofDigits s.digits = s.coefficient := by
  unfold digits
  dsimp only
  rw [ofDigits_eq, Nat.ofDigitChars_append, Nat.ofDigitChars_replicate_zero, Nat.mul_zero,
    Nat.ofDigitChars_ten_toDigits]

theorem isDigit_of_mem_digits {c : Char} (h : c ∈ s.digits) : isDigit c = true := by
  rcases List.mem_append.1 h with h | h
  · rw [List.eq_of_mem_replicate h]
    rfl
  · exact isDigit_of_mem_toDigits h

theorem exists_digits (s : Scientific) : ∃ d ds, s.digits = d :: ds := by
  refine List.exists_cons_of_ne_nil ?_
  exact List.append_ne_nil_of_right_ne_nil _ Nat.toDigits_ne_nil

/-- Digits with an exponent are a numeral. -/
theorem exponential_eq {d : Char} {ds : List Char} (h : s.digits = d :: ds) :
    s.exponential = Numeral.text ⟨s.negative, d, ds, s.exponent⟩ := by
  unfold exponential
  rw [h]
  cases ds <;> rfl

/-- A number is written as a numeral with its sign, its digits and its exponent. -/
theorem exists_numeral (hcount : 0 < s.count) (h : s.coefficient < 10 ^ s.count) :
    ∃ a : Numeral, a.WellFormed ∧ s.exponential = a.text ∧ a.negative = s.negative ∧ a.digits.length = s.count ∧
      ofDigits a.digits = s.coefficient ∧ a.power - a.rest.length = s.exponent + 1 - s.count := by
  obtain ⟨d, ds, hdigits⟩ := s.exists_digits
  have hlength := length_digits hcount h
  have hwhole := s.ofDigits_digits
  have hall : ∀ c ∈ s.digits, isDigit c = true := fun c hc => isDigit_of_mem_digits hc
  rw [hdigits] at hlength hwhole hall
  refine ⟨⟨s.negative, d, ds, s.exponent⟩, hall, exponential_eq hdigits, rfl, hlength, hwhole, ?_⟩
  rw [List.length_cons] at hlength
  dsimp only
  omega

/-- A number is written with its digits; it is zero if the first one is. -/
theorem denotes_exponential (hcount : 0 < s.count) (hhigh : s.coefficient < 10 ^ s.count)
    (hlow : s.coefficient = 0 ∨ 10 ^ (s.count - 1) ≤ s.coefficient) : Denotes s.count s.exponential s.value := by
  obtain ⟨a, ha, htext, hnegative, hlength, hwhole, hpower⟩ := exists_numeral hcount hhigh
  refine ⟨a, ha, htext, hlength, fun hlead => ?_, ?_⟩
  · have hlt := ofDigits_lt fun c hc => ha c (List.mem_cons_of_mem _ hc)
    have hrest : ofDigits a.digits = ofDigits a.rest := by
      unfold Numeral.digits
      rw [hlead]
      rfl
    have hdigits : a.rest.length = s.count - 1 := by
      rw [← hlength]
      rfl
    have hzero : s.coefficient = 0 := hlow.resolve_right (Nat.not_le.2 (by rwa [← hdigits, ← hwhole, hrest]))
    unfold value
    rw [hzero, Nat.cast_zero, zero_mul, mul_zero]
  · unfold Numeral.value value
    rw [hnegative, hwhole, hpower]

theorem denotes_rounded {count : Nat} (hcount : 0 < count) (negative : Bool) (m : Nat) (e : ℤ) :
    Denotes count (rounded count negative m e).exponential (rounded count negative m e).value := by
  rcases Nat.eq_zero_or_pos m with rfl | hm
  · rw [rounded_zero]
    exact denotes_exponential hcount (Nat.pow_pos (by decide)) (.inl rfl)
  · have h : IsRounding count negative (m * 2 ^ e) (rounded count negative m e) := isRounding_rounded hcount hm e
    have hdenotes := denotes_exponential (s := rounded count negative m e) (h.length.symm ▸ hcount)
      (h.length.symm ▸ h.high) (.inr (h.length.symm ▸ h.low))
    rw [h.length] at hdenotes
    exact hdenotes

end Scientific

/-! ## Readers -/

theorem span_digits {ds r : List Char} {c : Char} (hds : ∀ d ∈ ds, isDigit d = true) (hc : isDigit c = false) :
    spanDigits (ds ++ c :: r) = (ds, c :: r) := by
  unfold spanDigits
  rw [List.span_eq_takeWhile_dropWhile, List.takeWhile_append_of_pos hds, List.dropWhile_append_of_pos hds,
    List.takeWhile_cons_of_neg (by simp [hc]), List.dropWhile_cons_of_neg (by simp [hc]), List.append_nil]

/-- A digit is no sign. -/
theorem ne_sign {c : Char} (h : isDigit c = true) : c ≠ '-' ∧ c ≠ '+' := by
  constructor
  · rintro rfl
    cases h
  · rintro rfl
    cases h

theorem exponentPart?_digits {d : Char} {ds : List Char} (h : ∀ c ∈ d :: ds, isDigit c = true) :
    exponentPart? ('e' :: d :: ds) = some (ofDigits (d :: ds) : ℤ) ∧
      exponentPart? ('e' :: '-' :: d :: ds) = some (-(ofDigits (d :: ds) : ℤ)) := by
  obtain ⟨hminus, hplus⟩ := ne_sign (h d List.mem_cons_self)
  have hall : (d :: ds).all isDigit = true := List.all_eq_true.2 h
  constructor
  · unfold exponentPart?
    dsimp only
    rw [if_pos (by decide)]
    split
    · rename_i heq
      exact absurd (List.cons.inj heq).1 hminus
    · rename_i heq
      exact absurd (List.cons.inj heq).1 hplus
    · dsimp only
      rw [hall]
      rfl
  · change (if ((d :: ds).isEmpty || !(d :: ds).all isDigit) = true then none
      else some (-(ofDigits (d :: ds) : ℤ))) = some (-(ofDigits (d :: ds) : ℤ))
    rw [hall]
    rfl

theorem exponentPart?_toString (power : ℤ) : exponentPart? ('e' :: (toString power).toList) = some power := by
  have hdigits (n : Nat) : ∃ d ds, (toString n).toList = d :: ds ∧ (∀ c ∈ d :: ds, isDigit c = true) ∧
      ofDigits (d :: ds) = n := by
    obtain ⟨d, ds, heq⟩ := List.exists_cons_of_ne_nil (Nat.toDigits_ne_nil (n := n) (b := 10))
    rw [Nat.toString_eq_ofList_toDigits, String.toList_ofList]
    exact ⟨d, ds, heq, fun c hc => isDigit_of_mem_toDigits (heq ▸ hc), heq ▸ ofDigits_toDigits n⟩
  cases power with
  | ofNat n =>
    obtain ⟨d, ds, heq, hall, hvalue⟩ := hdigits n
    have htext : (toString (Int.ofNat n)).toList = d :: ds := heq
    rw [htext, (exponentPart?_digits hall).1, hvalue]
    rfl
  | negSucc n =>
    obtain ⟨d, ds, heq, hall, hvalue⟩ := hdigits (n + 1)
    have htext : (toString (Int.negSucc n)).toList = '-' :: d :: ds :=
      String.toList_append.trans (congrArg ('-' :: ·) heq)
    rw [htext, (exponentPart?_digits hall).2, hvalue]
    rfl

namespace Numeral

variable {a : Numeral}

theorem unsigned?_mantissa (ha : a.WellFormed) (power : List Char) :
    unsigned? (a.mantissa ++ 'e' :: power) =
      (exponentPart? ('e' :: power)).map fun e : ℤ => (ofDigits a.digits, e - a.rest.length) := by
  obtain ⟨negative, lead, rest, exponent⟩ := a
  have hlead : ∀ d ∈ [lead], isDigit d = true := List.forall_mem_singleton.2 (ha lead List.mem_cons_self)
  cases rest with
  | nil =>
    have hspan : spanDigits (lead :: 'e' :: power) = ([lead], 'e' :: power) := span_digits hlead rfl
    change unsigned? (lead :: 'e' :: power) = _
    unfold unsigned?
    rw [hspan]
    rfl
  | cons d ds =>
    have hspan : spanDigits (lead :: '.' :: (d :: ds ++ 'e' :: power)) = ([lead], '.' :: (d :: ds ++ 'e' :: power)) :=
      span_digits hlead rfl
    have hrest : spanDigits (d :: ds ++ 'e' :: power) = (d :: ds, 'e' :: power) :=
      span_digits (fun c hc => ha c (List.mem_cons_of_mem _ hc)) rfl
    change unsigned? (lead :: '.' :: (d :: ds ++ 'e' :: power)) = _
    unfold unsigned?
    rw [hspan]
    simp only [hrest]
    rfl

theorem toList_text (a : Numeral) : a.text.toList =
    (if a.negative then ['-'] else []) ++ (a.mantissa ++ 'e' :: (toString a.power).toList) := by
  unfold text mantissa
  cases a.negative <;> simp [String.toList_append]

end Numeral

/-- What is read after a sign. -/
def readUnsigned? (negative : Bool) (cs : List Char) : Option Float :=
  let word := String.ofList (cs.map Char.toLower)
  if word = "inf" || word = "infinity" then some (Binary64.infinite negative).toFloat
  else if word = "nan" then some Binary64.notANumber.toFloat
  else (unsigned? cs).map fun (coefficient, e) => (Binary64.nearestDecimal negative coefficient e).toFloat

theorem readFloat?_of_minus {text : String} {cs : List Char} (h : text.toList = '-' :: cs) :
    readFloat? text = readUnsigned? true cs := by
  unfold readFloat?
  rw [h]
  rfl

theorem readFloat?_of_digit {text : String} {d : Char} {cs : List Char} (h : text.toList = d :: cs)
    (hd : isDigit d = true) : readFloat? text = readUnsigned? false (d :: cs) := by
  unfold readFloat?
  rw [h]
  split
  rename_i negative cs' heq
  split at heq
  · rename_i heq'
    exact absurd (List.cons.inj heq').1 (ne_sign hd).1
  · rename_i heq'
    exact absurd (List.cons.inj heq').1 (ne_sign hd).2
  · cases heq
    rfl

/-- What starts with a digit is none of the words. -/
theorem readUnsigned?_of_digit {negative : Bool} {d : Char} {cs : List Char} (hd : isDigit d = true) :
    readUnsigned? negative (d :: cs) =
      (unsigned? (d :: cs)).map fun r => (Binary64.nearestDecimal negative r.1 r.2).toFloat := by
  have hne {w : Char} {ws : List Char} (hw : isDigit w = false) :
      String.ofList ((d :: cs).map Char.toLower) ≠ String.ofList (w :: ws) := by
    intro h
    rw [String.ofList_inj, List.map_cons, toLower_of_isDigit hd] at h
    rw [(List.cons.inj h).1, hw] at hd
    cases hd
  have hinf : String.ofList ((d :: cs).map Char.toLower) ≠ "inf" := hne (w := 'i') rfl
  have hinfinity : String.ofList ((d :: cs).map Char.toLower) ≠ "infinity" := hne (w := 'i') rfl
  have hnan : String.ofList ((d :: cs).map Char.toLower) ≠ "nan" := hne (w := 'n') rfl
  unfold readUnsigned?
  dsimp only
  rw [decide_eq_false hinf, decide_eq_false hinfinity, if_neg (by decide), if_neg hnan]

/-- A reader takes a numeral to the nearest double. -/
theorem Numeral.readFloat?_text {a : Numeral} (ha : a.WellFormed) :
    readFloat? a.text =
      some (Binary64.nearestDecimal a.negative (ofDigits a.digits) (a.power - a.rest.length)).toFloat := by
  have hlead : isDigit a.lead = true := ha a.lead List.mem_cons_self
  have hsigned : readFloat? a.text =
      readUnsigned? a.negative (a.mantissa ++ 'e' :: (toString a.power).toList) := by
    have htext := a.toList_text
    cases hnegative : a.negative with
    | true =>
      rw [hnegative] at htext
      exact readFloat?_of_minus htext
    | false =>
      rw [hnegative] at htext
      exact readFloat?_of_digit htext hlead
  rw [hsigned]
  refine (readUnsigned?_of_digit hlead).trans ?_
  change (unsigned? (a.mantissa ++ 'e' :: (toString a.power).toList)).map _ = _
  rw [unsigned?_mantissa ha, exponentPart?_toString]
  rfl

/-- A text denotes one number. -/
theorem Denotes.unique {n n' : Nat} {text : String} {x x' : ℚ} (h : Denotes n text x) (h' : Denotes n' text x') :
    x = x' := by
  obtain ⟨a, ha, rfl, -, -, rfl⟩ := h
  obtain ⟨b, hb, htext, -, -, rfl⟩ := h'
  have hchars := congrArg String.toList htext
  rw [a.toList_text, b.toList_text] at hchars
  have hlead : a.lead ≠ '-' := (ne_sign (ha a.lead List.mem_cons_self)).1
  have hlead' : b.lead ≠ '-' := (ne_sign (hb b.lead List.mem_cons_self)).1
  have hsplit : a.negative = b.negative ∧
      a.mantissa ++ 'e' :: (toString a.power).toList = b.mantissa ++ 'e' :: (toString b.power).toList := by
    cases hnegative : a.negative <;> cases hnegative' : b.negative <;> rw [hnegative, hnegative'] at hchars
    · exact ⟨rfl, hchars⟩
    · exact absurd (List.cons.inj hchars).1 hlead
    · exact absurd (List.cons.inj hchars).1.symm hlead'
    · exact ⟨rfl, (List.cons.inj hchars).2⟩
  have hread := congrArg unsigned? hsplit.2
  rw [Numeral.unsigned?_mantissa ha, Numeral.unsigned?_mantissa hb, exponentPart?_toString,
    exponentPart?_toString] at hread
  obtain ⟨hwhole, hpower⟩ := Prod.mk.inj (Option.some.inj hread)
  unfold Numeral.value
  rw [hsplit.1, hwhole, hpower]

/-- A number is read as it is written. -/
theorem Scientific.readFloat?_exponential {s : Scientific} (hcount : 0 < s.count) (h : s.coefficient < 10 ^ s.count) :
    readFloat? s.exponential =
      some (Binary64.nearestDecimal s.negative s.coefficient (s.exponent + 1 - s.count)).toFloat := by
  obtain ⟨a, ha, htext, hnegative, -, hwhole, hpower⟩ := exists_numeral hcount h
  rw [htext, Numeral.readFloat?_text ha, hnegative, hwhole, hpower]

end ControlCodegen.Decimal
