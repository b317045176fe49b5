import ControlCodegen.C.Printer
import ControlCodegen.Proofs.Double.Literal
import ControlCodegen.Proofs.Integrator.Bounds
import ControlCodegen.Proofs.Problem.Grid

/-!
# `Integrator.StepSize`: the steps of a bound integrator

* `TimeGrid.lengths`, `toList_ofGrid` : the lengths that are divided into steps.
* `Item.values`, `values_items` : the steps stand in the generated file as they are.
* `Usable` : the times are in order, and a step is finite and written as a number unless its length is beyond the
  largest double.
* `usable_iff_proper` : what an integrator takes from a checked grid is usable if and only if the grid is proper.
-/

namespace ControlCodegen

open C Double

set_option autoImplicit false

/-! ## Lengths -/

/-- The lengths that are divided into steps: those of the intervals, or that of the whole grid if all intervals are
equally long. -/
def TimeGrid.lengths {R : Type} [Sub R] (g : TimeGrid R) (equidistant : Bool) : List R :=
  match g.points with
  | some points =>
    if !equidistant then differences points
    else
      match points with
      | first :: second :: rest => [rest.getLastD second - first]
      | [] | [_] => [g.stop - g.start]
  | none => [g.stop - g.start]

namespace StepSize

variable {R : Type}

/-- All steps. -/
def toList : StepSize R → List R
  | uniform h => [h]
  | perInterval hs => hs

/-- The steps divide the lengths by their number in each. -/
theorem toList_ofGrid [Sub R] [Div R] (ofNat : Nat → R) (g : TimeGrid R) (equidistant : Bool) (perInterval total : Nat) :
    ∃ n, (n = perInterval ∨ n = total) ∧
      (ofGrid ofNat g equidistant perInterval total).toList = (g.lengths equidistant).map (· / ofNat n) := by
  unfold ofGrid TimeGrid.lengths
  cases g.points with
  | none => exact ⟨total, .inr rfl, rfl⟩
  | some points =>
    cases equidistant with
    | false => exact ⟨perInterval, .inl rfl, rfl⟩
    | true =>
      rcases points with _ | ⟨first, _ | ⟨second, rest⟩⟩
      · exact ⟨total, .inr rfl, rfl⟩
      · exact ⟨total, .inr rfl, rfl⟩
      · exact ⟨total, .inr rfl, rfl⟩

end StepSize

namespace TimeGrid

/-- Finite points have lengths between them. -/
theorem isNaN_differences {points : List Float} (h : ∀ t ∈ points, t.isFinite = true) :
    ∀ d ∈ differences points, d.isNaN = false := by
  unfold differences
  induction points with
  | nil => exact fun d hd => absurd hd List.not_mem_nil
  | cons a rest ih =>
    cases rest with
    | nil => exact fun d hd => absurd hd List.not_mem_nil
    | cons b rest =>
      intro d hd
      rcases List.mem_cons.1 hd with rfl | hd
      · exact isNaN_sub (h b (List.mem_cons_of_mem _ (List.mem_cons_self ..))) (h a (List.mem_cons_self ..))
      · exact ih (fun t ht => h t (List.mem_cons_of_mem _ ht)) d hd

/-- No length of an ordered grid is a not-a-number. -/
theorem isNaN_lengths {g : TimeGrid Float} (h : g.Ordered) (equidistant : Bool) :
    ∀ d ∈ g.lengths equidistant, d.isNaN = false := by
  have hspan : (g.stop - g.start).isNaN = false := isNaN_sub h.stop h.start
  unfold lengths
  cases hpoints : g.points with
  | none => simpa using hspan
  | some points =>
    obtain ⟨hfinite, -⟩ := h.points points hpoints
    cases equidistant with
    | false => exact isNaN_differences hfinite
    | true =>
      rcases points with _ | ⟨first, _ | ⟨second, rest⟩⟩
      · simpa using hspan
      · simpa using hspan
      · have hlast : (rest.getLastD second).isFinite = true :=
          hfinite _ (List.mem_cons_of_mem _ (List.getLastD_mem_cons ..))
        simpa using isNaN_sub hlast (hfinite first (List.mem_cons_self ..))

end TimeGrid

/-! ## The generated file -/

/-- What the constants of a name hold. -/
def C.Item.values (name : String) (items : List Item) : List Float :=
  items.flatMap fun
    | .constant n v => if n = name then [v] else []
    | .constants n vs => if n = name then vs else []
    | .blank | .comment _ | .function _ => []

theorem C.Item.values_append (name : String) (is js : List Item) :
    Item.values name (is ++ js) = Item.values name is ++ Item.values name js := List.flatMap_append

namespace Integrator

variable {g g' : Integrator} {b : Binding} {p : Problem} {steps : Nat}

/-- Among the coefficients, only the steps go by their name. -/
theorem values_constants (g : Integrator) (b : Binding) :
    Item.values g.stepSizeName (constants g b) = b.stepSize.toList := by
  have hmatrix : s!"{g.moduleName}_rk_tableau_A" ≠ g.stepSizeName := (ne_stepSizeName g (by decide)).symm
  have hweights : s!"{g.moduleName}_rk_tableau_b" ≠ g.stepSizeName := (ne_stepSizeName g (by decide)).symm
  unfold constants Item.values
  cases b.stepSize with
  | uniform h => simp [hmatrix, hweights, StepSize.toList]
  | perInterval hs => simp [hmatrix, hweights, StepSize.toList]

/-- The steps stand in the generated file as they are. -/
theorem values_items (hb : g.binding = some b) :
    ∃ is, g.items = .ok is ∧ Item.values g.stepSizeName is = b.stepSize.toList := by
  have hbound : g.bound = .ok b := by
    unfold bound
    rw [hb]
  have hsystem : Item.values g.stepSizeName (((g.newtonSystem b).map LinearSystem.items).getD []) = [] := by
    cases g.newtonSystem b <;> rfl
  refine ⟨constants g b ++ ((g.newtonSystem b).map LinearSystem.items).getD [] ++ [.function (function g b)], ?_, ?_⟩
  · unfold items
    rw [hbound]
    rfl
  · rw [Item.values_append, Item.values_append, values_constants, hsystem, List.append_nil]
    exact List.append_nil _

/-! ## Usable steps -/

/-- There is a step in each interval at least. -/
theorem checkModel_ok (h : g.checkModel p steps = .ok ()) : 0 < p.horizon ∧ p.horizon ≤ steps := by
  unfold checkModel at h
  obtain ⟨hhorizon, h⟩ := Problem.guard_ok h
  obtain ⟨hsteps, -⟩ := Problem.guard_ok h
  exact ⟨Nat.pos_of_ne_zero hhorizon, Nat.not_lt.1 hsteps⟩

/-- What a bound integrator takes from a problem. -/
theorem bind_ok (h : g.bind p steps = .ok g') :
    0 < p.horizon ∧ p.horizon ≤ steps ∧ ∃ b, g'.binding = some b ∧
      b.stepSize = .ofGrid Float.ofNat p.grid p.hasEquidistantGrid (steps / p.horizon) steps := by
  unfold bind at h
  cases hmodel : g.checkModel p steps with
  | error c =>
    rw [hmodel] at h
    cases h
  | ok u =>
    obtain ⟨hhorizon, hsteps⟩ := checkModel_ok hmodel
    rw [hmodel] at h
    cases h
    exact ⟨hhorizon, hsteps, _, rfl, rfl⟩

/-- What can be made of the steps on a grid. -/
structure Usable (p : Problem) (hs : List Float) : Prop where
  ordered : p.grid.Ordered
  /-- A step is finite if and only if the length that it divides is not beyond the largest double, -/
  finite : List.Forall₂ (fun length h => h.isFinite = true ↔ length.isInf = false)
    (p.grid.lengths p.hasEquidistantGrid) hs
  /-- and then its literal is a constant of C. -/
  written : ∀ h ∈ hs, h.isFinite = true → ∀ st : Style, IsConstant (st.constant h).toList

/-- A bound integrator has usable steps if the times are in order. -/
theorem usable_of_ordered (h : g.bind p steps = .ok g') (hordered : p.grid.Ordered) (hb : g'.binding = some b) :
    Usable p b.stepSize.toList := by
  obtain ⟨hhorizon, hsteps, b', hb', hsize⟩ := bind_ok h
  obtain rfl : b' = b := Option.some.inj (hb'.symm.trans hb)
  obtain ⟨n, hn, htoList⟩ := StepSize.toList_ofGrid Float.ofNat p.grid p.hasEquidistantGrid (steps / p.horizon) steps
  have hpos : 0 < n := by
    rcases hn with rfl | rfl
    · exact Nat.div_pos hsteps hhorizon
    · exact Nat.lt_of_lt_of_le hhorizon hsteps
  refine ⟨hordered, ?_, fun h _ hfinite st => (isConstant_literal_iff st.digits h).2 hfinite⟩
  rw [hsize, htoList, List.forall₂_map_right_iff, List.forall₂_same]
  intro d hd
  rcases isFinite_or_isInf (TimeGrid.isNaN_lengths hordered _ d hd) with hfinite | hinf
  · exact iff_of_true (isFinite_div_ofNat hfinite hpos) (isInf_of_isFinite hfinite)
  · rw [not_isFinite_div hinf, hinf]
    decide

/-- What an integrator takes from a checked grid, and what stands in the file that is generated for it, is usable if and
only if the grid is proper. -/
theorem usable_iff_proper (hcheck : p.check = .ok ()) (hbind : g.bind p steps = .ok g') :
    ∃ b is, g'.binding = some b ∧ g'.items = .ok is ∧ Item.values g'.stepSizeName is = b.stepSize.toList ∧
      (Usable p b.stepSize.toList ↔ p.grid.Proper) := by
  obtain ⟨-, -, b, hb, -⟩ := bind_ok hbind
  obtain ⟨is, his, hvalues⟩ := values_items hb
  refine ⟨b, is, hb, his, hvalues, fun h => h.ordered.proper, fun hproper => ?_⟩
  exact usable_of_ordered hbind ((Problem.ordered_iff_proper hcheck).2 hproper) hb

/-- One state over two intervals of a grid. -/
def twoIntervals (grid : TimeGrid Float) : Problem where
  horizon := 2
  dimensions := { nx := 1, nu := 1 }
  grid := grid

/-- An integrator to which nothing is bound yet. -/
def rungeKutta : Integrator where
  scheme := .rk4
  moduleName := .standard
  linearSolver := .gaussLu

/-- Two intervals of different lengths. -/
def unevenGrid : TimeGrid Float where
  start := 0.0
  stop := 1.0
  points := some [0.0, 0.25, 1.0]

theorem usable_iff_proper_unevenGrid :
    ∃ g' b is, (twoIntervals unevenGrid).check = .ok () ∧ rungeKutta.bind (twoIntervals unevenGrid) 4 = .ok g' ∧
      g'.binding = some b ∧ g'.items = .ok is ∧ Item.values "acado_rk_h" is = b.stepSize.toList ∧
      Usable (twoIntervals unevenGrid) b.stepSize.toList := by
  have hcheck : (twoIntervals unevenGrid).check = .ok () := by rfl
  obtain ⟨g', hbind⟩ : ∃ g', rungeKutta.bind (twoIntervals unevenGrid) 4 = .ok g' := ⟨_, by rfl⟩
  obtain ⟨b, is, hb, his, hvalues, husable⟩ := usable_iff_proper hcheck hbind
  have hname : g'.stepSizeName = "acado_rk_h" := by
    cases hbind
    rfl
  rw [hname] at hvalues
  refine ⟨g', b, is, hcheck, hbind, hb, his, hvalues, husable.2 ⟨by decide, by decide, ?_, ?_⟩⟩
  · rintro points ⟨⟩
    decide
  · rintro points ⟨⟩ t (ht | ht)
    · cases ht
      decide
    · cases ht
      decide

/-- The grid ends at what is not a number. -/
def endlessGrid : TimeGrid Float where
  start := 0.0
  stop := Decimal.Binary64.notANumber.toFloat

/-- It is checked, and the step is written to the generated file. -/
theorem nan_step_endlessGrid :
    ∃ g' is h, (twoIntervals endlessGrid).check = .ok () ∧ rungeKutta.bind (twoIntervals endlessGrid) 2 = .ok g' ∧
      g'.items = .ok is ∧ Item.values "acado_rk_h" is = [h] ∧ h.isNaN = true ∧
      (∀ st : Style, s!"static const {st.types.real} acado_rk_h = NaN;" ∈ is.flatMap (Item.lines st)) ∧
      ¬endlessGrid.start < endlessGrid.stop ∧ endlessGrid.stop.isFinite = false ∧
      ∀ d ∈ endlessGrid.lengths true, d.isInf = false := by
  have hcheck : (twoIntervals endlessGrid).check = .ok () := by rfl
  refine ⟨_, _, _, hcheck, by rfl, by rfl, by rfl, by decide, fun st => ?_, by decide, by decide, by decide⟩
  refine List.mem_flatMap.2 ⟨.constant "acado_rk_h" ((endlessGrid.stop - endlessGrid.start) / Float.ofNat 2), ?_, ?_⟩
  · exact List.mem_append_left _ (List.mem_append_left _ (.tail _ (.tail _ (.tail _ (.head _)))))
  · have hliteral : st.constant ((endlessGrid.stop - endlessGrid.start) / Float.ofNat 2) = "NaN" := by rfl
    refine List.mem_singleton.2 ?_
    rw [hliteral]
    simp only [String.append_assoc]
    rfl

end Integrator

end ControlCodegen
