import ControlCodegen.Proofs.Double.Value
import ControlCodegen.Proofs.Integrator.StepSize

/-!
# `Integrator.Coverage`: the steps of an integrator cover the horizon

The times of a grid are doubles, which stand for exact numbers. Over these the steps add up, however the test of the
doubles for equal intervals has gone.

* `TimeGrid.exact` : the grid of the exact numbers.
* `TimeGrid.Increasing` : a grid that is checked has increasing times, also as exact numbers.
* `StepSize.Spans` : the steps are positive and lead from the first time to the last; where the intervals have steps
  of their own, from each point to the next.
* `StepSize.Near` : one step for all intervals misses the next point by less than the test for equal intervals allows.
* `spans_of_bind` : the integrator that is bound to a checked problem has such steps.
-/

namespace ControlCodegen

open C (Reading)
open Double

set_option autoImplicit false

namespace TimeGrid

section

variable {R : Type}

/-- All times of a grid. -/
def times (g : TimeGrid R) : List R := g.start :: g.stop :: g.points.getD []

def first (g : TimeGrid R) : R := (g.points.bind List.head?).getD g.start

def last (g : TimeGrid R) : R := (g.points.bind List.getLast?).getD g.stop

variable {g : TimeGrid R}

theorem ends_of_none (h : g.points = none) : g.first = g.start ∧ g.last = g.stop := by
  unfold first last
  rw [h]
  exact ⟨rfl, rfl⟩

theorem ends_of_some {t : R} {rest : List R} (h : g.points = some (t :: rest)) :
    g.first = t ∧ g.last = rest.getLastD t := by
  unfold first last
  rw [h, Option.bind_some, Option.bind_some, List.getLast?_cons, List.getLastD_eq_getLast?]
  exact ⟨rfl, rfl⟩

end

/-- The grid of the numbers that the times stand for. -/
def exact (g : TimeGrid Float) : TimeGrid ℚ where
  start := Reading.ofFloat g.start
  stop := Reading.ofFloat g.stop
  points := g.points.map (List.map Reading.ofFloat)

/-- Times one after the other, around so many intervals if there are points. -/
structure Increasing (g : TimeGrid ℚ) (intervals : Nat) : Prop where
  span : g.start < g.stop
  points : ∀ points, g.points = some points → points.length = intervals + 1 ∧ points.IsChain (· < ·)

/-- The lengths of the intervals are those between neighbours. -/
theorem getElem?_differences (points : List ℚ) {k : Nat} (h : k + 1 < points.length) :
    ∃ t u, points[k]? = some t ∧ points[k + 1]? = some u ∧ (differences points)[k]? = some (u - t) := by
  refine ⟨points[k], points[k + 1], List.getElem?_eq_getElem _, List.getElem?_eq_getElem _, ?_⟩
  unfold differences
  rw [List.getElem?_zipWith, List.getElem?_tail, List.getElem?_eq_getElem (by omega), List.getElem?_eq_getElem h]

theorem length_differences (points : List ℚ) : (differences points).length = points.length - 1 := by
  unfold differences
  rw [List.length_zipWith, List.length_tail]
  omega

/-- The intervals between the points make up the way from the first point to the last. -/
theorem sum_differences (t : ℚ) (rest : List ℚ) : (differences (t :: rest)).sum = rest.getLastD t - t := by
  induction rest generalizing t with
  | nil => exact (sub_self t).symm
  | cons u rest ih =>
    have hcons : differences (t :: u :: rest) = (u - t) :: differences (u :: rest) := rfl
    rw [hcons, List.sum_cons, ih, List.getLastD_cons]
    ring

/-- Increasing points have positive intervals. -/
theorem pos_of_mem_differences {points : List ℚ} (h : points.IsChain (· < ·)) : ∀ d ∈ differences points, 0 < d := by
  induction h with
  | nil | singleton => exact fun d hd => absurd hd List.not_mem_nil
  | cons_cons hlt _ ih =>
    intro d hd
    rcases List.mem_cons.1 hd with rfl | hd
    · exact sub_pos.2 hlt
    · exact ih d hd

/-- A grid of increasing times leads forward. -/
theorem Increasing.first_lt_last {g : TimeGrid ℚ} {intervals : Nat} (hg : g.Increasing intervals)
    (hintervals : 0 < intervals) : g.first < g.last := by
  cases hpoints : g.points with
  | none =>
    obtain ⟨hfirst, hlast⟩ := ends_of_none hpoints
    rw [hfirst, hlast]
    exact hg.span
  | some points =>
    obtain ⟨hlength, hchain⟩ := hg.points points hpoints
    cases points with
    | nil => exact absurd hlength (by simp)
    | cons t rest =>
      obtain ⟨hfirst, hlast⟩ := ends_of_some hpoints
      have hne : differences (t :: rest) ≠ [] := by
        rw [← List.length_pos_iff, length_differences, hlength]
        exact hintervals
      have hsum : 0 < (differences (t :: rest)).sum := List.sum_pos _ (pos_of_mem_differences hchain) hne
      rw [sum_differences] at hsum
      rw [hfirst, hlast]
      exact sub_pos.1 hsum

/-! ## Equal intervals -/

theorem size_eq (r : ℚ) : size r = |r| := by
  have hzero : (0.0 : ℚ) = 0 := by norm_num
  unfold size
  rw [hzero]
  by_cases hr : r < 0
  · rw [if_pos hr, abs_of_neg hr]
  · rw [if_neg hr, abs_of_nonneg (not_lt.1 hr)]

theorem tolerance_eq (r : ℚ) : tolerance r = 1e-10 * max 1 |r| := by
  have hone : (1.0 : ℚ) = 1 := by norm_num
  unfold tolerance
  rw [size_eq, hone, max_def_lt]

theorem tolerance_nonneg (r : ℚ) : 0 ≤ tolerance r := by
  rw [tolerance_eq]
  positivity

/-- Intervals that pass for equal are as long as the first one up to the tolerance. -/
theorem near_of_isEquidistant {g : TimeGrid ℚ} {points rest : List ℚ} {d₀ : ℚ} (h : g.isEquidistant = true)
    (hpoints : g.points = some points) (hd : differences points = d₀ :: rest) :
    ∀ d ∈ d₀ :: rest, |d - d₀| ≤ tolerance d₀ := by
  unfold isEquidistant at h
  simp only [hpoints, hd] at h
  intro d hmem
  cases rest with
  | nil =>
    obtain rfl := List.mem_singleton.1 hmem
    rw [sub_self, abs_zero]
    exact tolerance_nonneg d
  | cons d₁ rest =>
    have hle := of_decide_eq_true (List.all_eq_true.1 h d hmem)
    rwa [size_eq] at hle

/-- Numbers near to another one have a sum near to its multiple. -/
theorem abs_sum_sub_le {ds : List ℚ} {c r : ℚ} (h : ∀ d ∈ ds, |d - c| ≤ r) :
    |ds.sum - ds.length * c| ≤ ds.length * r := by
  induction ds with
  | nil => simp
  | cons d ds ih =>
    have hhead := h d List.mem_cons_self
    have htail := ih fun e he => h e (List.mem_cons_of_mem _ he)
    rw [List.sum_cons, List.length_cons, Nat.cast_add, Nat.cast_one]
    calc |d + ds.sum - (ds.length + 1) * c|
      _ = |(d - c) + (ds.sum - ds.length * c)| := congrArg abs (by ring)
      _ ≤ |d - c| + |ds.sum - ds.length * c| := abs_add_le _ _
      _ ≤ r + ds.length * r := add_le_add hhead htail
      _ = (ds.length + 1) * r := by ring

/-- The mean of numbers that are near to another one is as near to it. -/
theorem abs_mean_sub_le {ds : List ℚ} {c r : ℚ} (hpos : 0 < ds.length) (h : ∀ d ∈ ds, |d - c| ≤ r) :
    |ds.sum / ds.length - c| ≤ r := by
  have hlength : (0 : ℚ) < ds.length := Nat.cast_pos.2 hpos
  have hsum : ds.sum / ds.length - c = (ds.sum - ds.length * c) / ds.length := by field_simp
  rw [hsum, abs_div, abs_of_pos hlength, div_le_iff₀ hlength, mul_comm r]
  exact abs_sum_sub_le h

end TimeGrid

/-! ## Steps -/

namespace StepSize

/-- The step in an interval. -/
def within {R : Type} : StepSize R → Nat → Option R
  | uniform h, _ => some h
  | perInterval hs, k => hs[k]?

/-- So many positive steps in each of the intervals lead along the whole grid. -/
structure Spans (steps : StepSize ℚ) (g : TimeGrid ℚ) (intervals per : Nat) : Prop where
  positive : ∀ k < intervals, ∃ h, steps.within k = some h ∧ 0 < h
  total : ∑ k ∈ Finset.range intervals, per * (steps.within k).getD 0 = g.last - g.first
  /-- Where the intervals have steps of their own, these lead along each. -/
  own : ∀ hs, steps = .perInterval hs → hs.length = intervals ∧ ∃ points, g.points = some points ∧
    ∀ k < intervals, ∃ h t u, hs[k]? = some h ∧ points[k]? = some t ∧ points[k + 1]? = some u ∧ per * h = u - t

/-- So many steps of one length in each of the intervals do not lead far from the next point. -/
def Near (steps : StepSize ℚ) (g : TimeGrid ℚ) (intervals per : Nat) : Prop :=
  ∀ h t₀ t₁ rest, steps = .uniform h → g.points = some (t₀ :: t₁ :: rest) →
    ∀ k < intervals, ∃ t u, (t₀ :: t₁ :: rest)[k]? = some t ∧ (t₀ :: t₁ :: rest)[k + 1]? = some u ∧
      |per * h - (u - t)| ≤ 2 * 1e-10 * max 1 |t₁ - t₀|

/-- The exact steps on a grid. -/
def exact (g : TimeGrid ℚ) (equidistant : Bool) (per total : Nat) : StepSize ℚ :=
  .ofGrid (fun n => (n : ℚ)) g equidistant per total

section

variable {g : TimeGrid ℚ} {intervals per total : Nat}

/-- One step divides the whole way. -/
theorem spans_uniform {h : ℚ} (hper : 0 < per) (hspan : g.first < g.last)
    (hintervals : 0 < intervals) (hh : h = (g.last - g.first) / (per * intervals : Nat)) :
    (uniform h).Spans g intervals per := by
  have hper' : (0 : ℚ) < per := Nat.cast_pos.2 hper
  have hintervals' : (0 : ℚ) < intervals := Nat.cast_pos.2 hintervals
  refine ⟨fun k _ => ⟨h, rfl, ?_⟩, ?_, fun hs heq => nomatch heq⟩
  · rw [hh]
    exact div_pos (sub_pos.2 hspan) (Nat.cast_pos.2 (Nat.mul_pos hper hintervals))
  · have hsum : ∑ k ∈ Finset.range intervals, per * ((uniform h).within k).getD 0 = intervals * (per * h) := by
      simp [within]
    rw [hsum, hh, Nat.cast_mul]
    field_simp

/-- What stands in the places of a list adds up to its sum. -/
theorem sum_getD (hs : List ℚ) : ∑ k ∈ Finset.range hs.length, (hs[k]?).getD 0 = hs.sum := by
  induction hs with
  | nil => rfl
  | cons h hs ih =>
    rw [List.length_cons, Finset.sum_range_succ', List.sum_cons, ← ih, add_comm]
    rfl

/-- Steps of their own divide the way from each point to the next. -/
theorem spans_perInterval {points : List ℚ} (hper : 0 < per) (hpoints : g.points = some points)
    (hlength : points.length = intervals + 1) (hchain : points.IsChain (· < ·)) :
    (perInterval ((TimeGrid.differences points).map (· / (per : ℚ)))).Spans g intervals per := by
  have hper' : (0 : ℚ) < per := Nat.cast_pos.2 hper
  have hcount : (TimeGrid.differences points).length = intervals := by
    rw [TimeGrid.length_differences, hlength, Nat.add_sub_cancel]
  have hown : ∀ k < intervals, ∃ d t u, (TimeGrid.differences points)[k]? = some d ∧ points[k]? = some t ∧
      points[k + 1]? = some u ∧ d = u - t := by
    intro k hk
    obtain ⟨t, u, ht, hu, hd⟩ := TimeGrid.getElem?_differences points (k := k) (by omega)
    exact ⟨u - t, t, u, hd, ht, hu, rfl⟩
  refine ⟨fun k hk => ?_, ?_, ?_⟩
  · obtain ⟨d, t, u, hd, -⟩ := hown k hk
    refine ⟨d / per, ?_, ?_⟩
    · show ((TimeGrid.differences points).map (· / (per : ℚ)))[k]? = _
      rw [List.getElem?_map, hd, Option.map_some]
    · exact div_pos (TimeGrid.pos_of_mem_differences hchain d (List.mem_of_getElem? hd)) hper'
  · have hends : (TimeGrid.differences points).sum = g.last - g.first := by
      cases points with
      | nil => exact absurd hlength (by simp)
      | cons t rest =>
        obtain ⟨hfirst, hlast⟩ := TimeGrid.ends_of_some hpoints
        rw [TimeGrid.sum_differences, hfirst, hlast]
    rw [← hends, ← sum_getD, hcount]
    refine Finset.sum_congr rfl fun k hk => ?_
    obtain ⟨d, t, u, hd, -⟩ := hown k (Finset.mem_range.1 hk)
    show (per : ℚ) * (((TimeGrid.differences points).map (· / (per : ℚ)))[k]?).getD 0 = _
    rw [List.getElem?_map, hd]
    exact mul_div_cancel₀ d hper'.ne'
  · rintro hs ⟨⟩
    refine ⟨by rw [List.length_map, hcount], points, hpoints, fun k hk => ?_⟩
    obtain ⟨d, t, u, hd, ht, hu, rfl⟩ := hown k hk
    refine ⟨(u - t) / per, t, u, ?_, ht, hu, mul_div_cancel₀ _ hper'.ne'⟩
    rw [List.getElem?_map, hd, Option.map_some]

/-- The exact steps lead along a grid of increasing times, whether its intervals pass for equal or not. -/
theorem spans_exact (hg : g.Increasing intervals) (hintervals : 0 < intervals) (hper : 0 < per)
    (htotal : total = per * intervals) (equidistant : Bool) :
    (exact g equidistant per total).Spans g intervals per := by
  have hspan := hg.first_lt_last hintervals
  unfold exact ofGrid
  cases hpoints : g.points with
  | none =>
    obtain ⟨hfirst, hlast⟩ := TimeGrid.ends_of_none hpoints
    refine spans_uniform hper hspan hintervals ?_
    rw [hfirst, hlast, htotal]
  | some points =>
    obtain ⟨hlength, hchain⟩ := hg.points points hpoints
    cases equidistant with
    | false => exact spans_perInterval hper hpoints hlength hchain
    | true =>
      rcases points with _ | ⟨t, _ | ⟨u, rest⟩⟩
      · exact absurd hlength (by simp)
      · exact absurd hlength (by simp; omega)
      · obtain ⟨hfirst, hlast⟩ := TimeGrid.ends_of_some hpoints
        refine spans_uniform hper hspan hintervals ?_
        rw [hfirst, hlast, htotal, List.getLastD_cons]

/-- Where intervals pass for equal, one step for all is near to each. -/
theorem near_exact (hg : g.Increasing intervals) (hper : 0 < per) (htotal : total = per * intervals) :
    (exact g g.isEquidistant per total).Near g intervals per := by
  intro h t₀ t₁ rest hstep hpoints k hk
  obtain ⟨hlength, -⟩ := hg.points _ hpoints
  have hper' : (per : ℚ) ≠ 0 := Nat.cast_ne_zero.2 hper.ne'
  obtain ⟨hequal, hh⟩ : g.isEquidistant = true ∧ h = (rest.getLastD t₁ - t₀) / (total : ℚ) := by
    unfold exact ofGrid at hstep
    simp only [hpoints] at hstep
    cases hequal : g.isEquidistant with
    | false =>
      rw [hequal] at hstep
      cases hstep
    | true =>
      rw [hequal] at hstep
      cases hstep
      exact ⟨rfl, rfl⟩
  have hcons : TimeGrid.differences (t₀ :: t₁ :: rest) = (t₁ - t₀) :: TimeGrid.differences (t₁ :: rest) := rfl
  have hcount : (TimeGrid.differences (t₀ :: t₁ :: rest)).length = intervals := by
    rw [TimeGrid.length_differences, hlength, Nat.add_sub_cancel]
  have hnear := TimeGrid.near_of_isEquidistant hequal hpoints hcons
  rw [← hcons] at hnear
  -- All steps of an interval together are the mean of the intervals.
  have hmean : per * h = (TimeGrid.differences (t₀ :: t₁ :: rest)).sum /
      (TimeGrid.differences (t₀ :: t₁ :: rest)).length := by
    rw [TimeGrid.sum_differences, List.getLastD_cons, hcount, hh, htotal, Nat.cast_mul, mul_div_assoc',
      mul_div_mul_left _ _ hper']
  obtain ⟨t, u, ht, hu, hd⟩ := TimeGrid.getElem?_differences (t₀ :: t₁ :: rest) (k := k) (by omega)
  refine ⟨t, u, ht, hu, ?_⟩
  have hfirst : |per * h - (t₁ - t₀)| ≤ TimeGrid.tolerance (t₁ - t₀) := by
    rw [hmean]
    exact TimeGrid.abs_mean_sub_le (by omega) hnear
  have hinterval : |u - t - (t₁ - t₀)| ≤ TimeGrid.tolerance (t₁ - t₀) := hnear _ (List.mem_of_getElem? hd)
  calc |per * h - (u - t)|
    _ = |(per * h - (t₁ - t₀)) - (u - t - (t₁ - t₀))| := congrArg abs (by ring)
    _ ≤ |per * h - (t₁ - t₀)| + |u - t - (t₁ - t₀)| := abs_sub _ _
    _ ≤ TimeGrid.tolerance (t₁ - t₀) + TimeGrid.tolerance (t₁ - t₀) := add_le_add hfirst hinterval
    _ = 2 * 1e-10 * max 1 |t₁ - t₀| := by rw [TimeGrid.tolerance_eq]; ring

end

end StepSize

/-! ## Bound integrators -/

/-- The times of a checked grid increase as exact numbers. -/
theorem Problem.increasing_exact {p : Problem} (hcheck : p.check = .ok ())
    (hfinite : ∀ t ∈ p.grid.times, t.isFinite = true) : p.grid.exact.Increasing p.horizon := by
  obtain ⟨hspan, hchain⟩ := times_of_check hcheck
  have hstart : p.grid.start.isFinite = true := hfinite _ List.mem_cons_self
  have hstop : p.grid.stop.isFinite = true := hfinite _ (List.mem_cons_of_mem _ List.mem_cons_self)
  refine ⟨?_, fun points hpoints => ?_⟩
  · exact ofFloat_lt hstart hstop (lt_of_not_le (isFinite_iff.1 hstart).1 (isFinite_iff.1 hstop).1 hspan)
  · obtain ⟨doubles, hdoubles, rfl⟩ := Option.map_eq_some_iff.1 hpoints
    have hmem : ∀ t ∈ doubles, t.isFinite = true := by
      intro t ht
      refine hfinite t (List.mem_cons_of_mem _ (List.mem_cons_of_mem _ ?_))
      rw [hdoubles]
      exact ht
    refine ⟨by rw [List.length_map, (check_ok hcheck).points doubles hdoubles], ?_⟩
    rw [List.isChain_map]
    have hlt := isChain_lt (hchain doubles hdoubles) fun t ht => (isFinite_iff.1 (hmem t ht)).1
    exact hlt.imp_of_mem_imp fun t u ht hu h => ofFloat_lt (hmem t ht) (hmem u hu) h

namespace Integrator

variable {g g' : Integrator} {p : Problem} {steps : Nat}

/-- All intervals have the same number of steps. -/
theorem mul_horizon_of_checkModel (h : g.checkModel p steps = .ok ()) : steps / p.horizon * p.horizon = steps := by
  unfold checkModel at h
  obtain ⟨-, h⟩ := Problem.guard_ok h
  obtain ⟨-, h⟩ := Problem.guard_ok h
  obtain ⟨hrest, -⟩ := Problem.guard_ok h
  exact Nat.div_mul_cancel (Nat.dvd_of_mod_eq_zero (Decidable.not_not.1 hrest))

/-- The steps of an integrator that is bound to a checked problem of finite times cover the horizon: taken with the
exact numbers that the times stand for they lead along the whole grid, however the doubles have passed the test for
equal intervals, and where the numbers pass it they do not lead far from any point. -/
theorem covers_of_bind (hcheck : p.check = .ok ()) (hfinite : ∀ t ∈ p.grid.times, t.isFinite = true)
    (hbind : g.bind p steps = .ok g') :
    ∃ b, g'.binding = some b ∧ b.stepSize = .ofGrid Float.ofNat p.grid p.grid.isEquidistant b.stepsPerInterval steps ∧
      b.stepsPerInterval * p.horizon = steps ∧
      (∀ equidistant, (StepSize.exact p.grid.exact equidistant b.stepsPerInterval steps).Spans p.grid.exact p.horizon
        b.stepsPerInterval) ∧
      (StepSize.exact p.grid.exact p.grid.exact.isEquidistant b.stepsPerInterval steps).Near p.grid.exact p.horizon
        b.stepsPerInterval := by
  have hgrid := Problem.increasing_exact hcheck hfinite
  unfold bind at hbind
  cases hmodel : g.checkModel p steps with
  | error c =>
    rw [hmodel] at hbind
    cases hbind
  | ok u =>
    rw [hmodel] at hbind
    cases hbind
    obtain ⟨hhorizon, hsteps⟩ := checkModel_ok hmodel
    have hper : 0 < steps / p.horizon := Nat.div_pos hsteps hhorizon
    have htotal := mul_horizon_of_checkModel hmodel
    refine ⟨_, rfl, rfl, htotal, fun equidistant => ?_, ?_⟩
    · exact StepSize.spans_exact hgrid hhorizon hper htotal.symm equidistant
    · exact StepSize.near_exact hgrid hper htotal.symm

theorem covers_of_bind_unevenGrid :
    (twoIntervals unevenGrid).check = .ok () ∧ (∀ t ∈ unevenGrid.times, t.isFinite = true) ∧
      ∃ g' b, rungeKutta.bind (twoIntervals unevenGrid) 4 = .ok g' ∧ g'.binding = some b ∧ b.stepsPerInterval = 2 ∧
        (∀ equidistant, (StepSize.exact unevenGrid.exact equidistant 2 4).Spans unevenGrid.exact 2 2) ∧
        (StepSize.exact unevenGrid.exact unevenGrid.exact.isEquidistant 2 4).Near unevenGrid.exact 2 2 := by
  have hcheck : (twoIntervals unevenGrid).check = .ok () := by rfl
  have hfinite : ∀ t ∈ unevenGrid.times, t.isFinite = true := by decide
  obtain ⟨g', hbind⟩ : ∃ g', rungeKutta.bind (twoIntervals unevenGrid) 4 = .ok g' := ⟨_, by rfl⟩
  obtain ⟨b, hb, -, hsteps, hspans, hnear⟩ := covers_of_bind hcheck hfinite hbind
  have hper : b.stepsPerInterval = 2 := by
    have hmul : b.stepsPerInterval * 2 = 4 := hsteps
    omega
  rw [hper] at hspans hnear
  exact ⟨hcheck, hfinite, g', b, hbind, hb, hper, hspans, hnear⟩

end Integrator

end ControlCodegen
