import ControlCodegen.Proofs.Double.Arithmetic
import ControlCodegen.Proofs.Problem.Check

/-!
# `Problem.Grid`: the order of a checked time grid

The checks refuse a grid that is reversed and points that do not increase. They let a not-a-number pass, which is not
below anything, and infinite times.

* `TimeGrid.Ordered` : finite times, one after the other.
* `TimeGrid.Proper` : no time is a not-a-number, and the grid starts and ends at finite ones.
* `ordered_iff_proper` : a checked grid is ordered if and only if it is proper.
-/

namespace ControlCodegen

open Double

set_option autoImplicit false

namespace TimeGrid

/-- A grid of finite times, one after the other. -/
structure Ordered (g : TimeGrid Float) : Prop where
  start : g.start.isFinite = true
  stop : g.stop.isFinite = true
  span : g.start < g.stop
  points : ∀ points, g.points = some points → (∀ t ∈ points, t.isFinite = true) ∧ points.IsChain (· < ·)

/-- A grid without a not-a-number, which starts and ends at finite times. -/
structure Proper (g : TimeGrid Float) : Prop where
  start : g.start.isFinite = true
  stop : g.stop.isFinite = true
  numbers : ∀ points, g.points = some points → ∀ t ∈ points, t.isNaN = false
  ends : ∀ points, g.points = some points → ∀ t, points.head? = some t ∨ points.getLast? = some t → t.isInf = false

theorem Ordered.proper {g : TimeGrid Float} (h : g.Ordered) : g.Proper where
  start := h.start
  stop := h.stop
  numbers points hpoints t ht := (isFinite_iff.1 ((h.points points hpoints).1 t ht)).1
  ends points hpoints t ht := by
    have hmem : t ∈ points := ht.elim List.mem_of_mem_head? List.mem_of_getLast?
    exact isInf_of_isFinite ((h.points points hpoints).1 t hmem)

end TimeGrid

/-! ## Points in order -/

section Points

variable {points : List Float}

/-- Points that have passed the check do not fall behind their predecessors. -/
theorem isChain_of_any (h : (List.zipWith (fun a b => decide (b ≤ a)) points points.tail).any id = false) :
    points.IsChain fun a b => ¬b ≤ a := by
  induction points with
  | nil => exact .nil
  | cons a rest ih =>
    cases rest with
    | nil => exact .singleton a
    | cons b rest =>
      obtain ⟨hhead, htail⟩ := Bool.or_eq_false_iff.1 h
      exact .cons_cons (of_decide_eq_false hhead) (ih htail)

/-- Numbers that do not fall behind increase. -/
theorem isChain_lt (h : points.IsChain fun a b => ¬b ≤ a) (hnumbers : ∀ t ∈ points, t.isNaN = false) :
    points.IsChain (· < ·) :=
  h.imp_of_mem_imp fun a b ha hb hab => lt_of_not_le (hnumbers a ha) (hnumbers b hb) hab

/-- Between finite ends, points that increase are finite. -/
theorem isFinite_of_isChain (h : points.IsChain (· < ·)) (hnumbers : ∀ t ∈ points, t.isNaN = false)
    (hfirst : ∀ t, points.head? = some t → unpacked t ≠ .infinity .negative)
    (hlast : ∀ t, points.getLast? = some t → unpacked t ≠ .infinity .positive) :
    ∀ t ∈ points, t.isFinite = true := by
  induction h with
  | nil => exact fun t ht => absurd ht List.not_mem_nil
  | singleton a =>
    intro t ht
    obtain rfl := List.mem_singleton.1 ht
    exact isFinite_iff.2 ⟨hnumbers t ht, hlast t rfl, hfirst t rfl⟩
  | @cons_cons a b rest hab hrest ih =>
    -- The smaller one is not the largest infinity, and the larger one not the smallest.
    obtain ⟨ha, hb⟩ := ne_infinity_of_lt hab
    intro t ht
    rcases List.mem_cons.1 ht with rfl | ht
    · exact isFinite_iff.2 ⟨hnumbers t (List.mem_cons_self ..), ha, hfirst t rfl⟩
    · refine ih (fun u hu => hnumbers u (List.mem_cons_of_mem _ hu)) ?_ ?_ t ht
      · rintro u hu
        cases hu
        exact hb
      · intro u hu
        exact hlast u (by rwa [List.getLast?_cons_cons])

end Points

namespace Problem

variable {p : Problem}

/-- What the checks say of the times. -/
theorem times_of_check (h : p.check = .ok ()) :
    ¬p.grid.stop ≤ p.grid.start ∧ ∀ points, p.grid.points = some points → points.IsChain fun a b => ¬b ≤ a := by
  unfold check at h
  obtain ⟨-, h⟩ := guard_ok h
  obtain ⟨-, h⟩ := guard_ok h
  obtain ⟨-, h⟩ := guard_ok h
  obtain ⟨hspan, h⟩ := guard_ok h
  refine ⟨hspan, fun points hpoints => ?_⟩
  simp only [hpoints] at h
  cases hcheck : checkPoints p.horizon points with
  | error d =>
    rw [hcheck] at h
    cases h
  | ok u =>
    unfold checkPoints at hcheck
    rw [if_neg (Decidable.not_not.2 (length_of_checkPoints hcheck))] at hcheck
    cases hany : (List.zipWith (fun a b => decide (b ≤ a)) points points.tail).any id with
    | false => exact isChain_of_any hany
    | true =>
      rw [hany] at hcheck
      cases hcheck

/-- A checked grid of numbers between finite times is ordered. -/
theorem ordered_iff_proper (h : p.check = .ok ()) : p.grid.Ordered ↔ p.grid.Proper := by
  obtain ⟨hspan, hpoints⟩ := times_of_check h
  refine ⟨TimeGrid.Ordered.proper, fun hproper => ?_⟩
  refine ⟨hproper.start, hproper.stop, ?_, fun points hsome => ?_⟩
  · exact lt_of_not_le (isFinite_iff.1 hproper.start).1 (isFinite_iff.1 hproper.stop).1 hspan
  · have hnumbers := hproper.numbers points hsome
    have hends := hproper.ends points hsome
    have hincreasing := isChain_lt (hpoints points hsome) hnumbers
    refine ⟨isFinite_of_isChain hincreasing hnumbers ?_ ?_, hincreasing⟩
    · exact fun t ht => ne_infinity_of_isInf (hends t (.inl ht)) _
    · exact fun t ht => ne_infinity_of_isInf (hends t (.inr ht)) _

end Problem

end ControlCodegen
