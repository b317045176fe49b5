import ControlCodegen.Problem.Check

/-!
# `Problem.Check`: what a checked problem has

* `Checked`, `check_ok` : a problem without a defect has intervals and states, and a grid with points has one at each end of
  every interval.
-/

namespace ControlCodegen.Problem

set_option autoImplicit false

variable {p : Problem}

/-- A problem without a defect. -/
structure Checked (p : Problem) : Prop where
  horizon : 0 < p.horizon
  states : 0 < p.dimensions.nx
  points : ∀ points, p.grid.points = some points → points.length = p.horizon + 1

/-- A check that has passed. -/
theorem guard_eq_ok_iff {ε α : Type} {c : Prop} [Decidable c] {e : ε} {f : Unit → Except ε α} {a : α} :
    (if c then throw e >>= f else f ()) = .ok a ↔ ¬c ∧ f () = .ok a := by
  by_cases hc : c
  · rw [if_pos hc]
    exact iff_of_false nofun fun h => h.1 hc
  · rw [if_neg hc, and_iff_right hc]

theorem guard_ok {ε α : Type} {c : Prop} [Decidable c] {e : ε} {f : Unit → Except ε α} {a : α}
    (h : (if c then throw e >>= f else f ()) = .ok a) : ¬c ∧ f () = .ok a :=
  guard_eq_ok_iff.1 h

theorem length_of_checkPoints {horizon : Nat} {points : List Float} (h : checkPoints horizon points = .ok ()) :
    points.length = horizon + 1 := by
  unfold checkPoints at h
  by_cases hlength : points.length ≠ horizon + 1
  · rw [if_pos hlength] at h
    cases h
  · exact Decidable.not_not.1 hlength

theorem check_ok (h : p.check = .ok ()) : Checked p := by
  unfold check at h
  obtain ⟨hhorizon, h⟩ := guard_ok h
  obtain ⟨hstates, h⟩ := guard_ok h
  obtain ⟨-, h⟩ := guard_ok h
  obtain ⟨-, h⟩ := guard_ok h
  refine ⟨Nat.pos_of_ne_zero hhorizon, Nat.pos_of_ne_zero hstates, fun points hpoints => ?_⟩
  simp only [hpoints] at h
  cases hcheck : checkPoints p.horizon points with
  | error d =>
    rw [hcheck] at h
    cases h
  | ok u => exact length_of_checkPoints hcheck

end ControlCodegen.Problem
