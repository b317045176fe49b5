import ControlCodegen.Proofs.Export.Program
import ControlCodegen.Proofs.Plan.Shape
import ControlCodegen.Proofs.Problem.Check

/-!
# `Export.Room`: the arrays of the generated functions are long enough

* `length_of_perInterval`, `pos_of_perInterval` : the constants of the integrator.
* `integrator_room`, `integrator_newtonRoom`, `solver_room` : the arrays that the functions of a plan work on have the
  elements that they need. A subscript of the integrator is bounded by the dimensions that it took from the problem; the
  declarations take theirs from the same place.
-/

namespace ControlCodegen.Export

open C Integrator Plan

set_option autoImplicit false

variable {p : Problem} {o : Options} {k : Strategy}

/-! ## Constants -/

/-- Where the intervals differ the grid has points, and there is one step size for each two neighbours. -/
theorem points_of_perInterval {hs : List Float} (h : (bindingOf p o).stepSize = .perInterval hs) :
    ∃ points, p.grid.points = some points ∧ p.hasEquidistantGrid = false ∧
      hs.length = (TimeGrid.differences points).length := by
  have hgrid : StepSize.ofGrid Float.ofNat p.grid p.hasEquidistantGrid (o.stepsOver p.horizon / p.horizon)
      (o.stepsOver p.horizon) = .perInterval hs := h
  unfold StepSize.ofGrid at hgrid
  cases hpoints : p.grid.points with
  | none =>
    rw [hpoints] at hgrid
    cases hgrid
  | some points =>
    rw [hpoints] at hgrid
    dsimp only at hgrid
    split at hgrid
    next hequidistant =>
      cases hgrid
      exact ⟨points, rfl, by simpa using hequidistant, List.length_map _⟩
    · split at hgrid <;> cases hgrid

/-- Where the intervals differ there is one step size for each. -/
theorem length_of_perInterval (hp : p.Checked) {hs : List Float} (h : (bindingOf p o).stepSize = .perInterval hs) :
    hs.length = p.horizon := by
  obtain ⟨points, hpoints, -, hlength⟩ := points_of_perInterval h
  rw [hlength, TimeGrid.differences, List.length_zipWith, List.length_tail, hp.points points hpoints]
  omega

theorem lt_length_of_perInterval (hp : p.Checked) {i : Nat} (hi : i < p.horizon) {hs : List Float}
    (h : (bindingOf p o).stepSize = .perInterval hs) : i < hs.length := by
  rw [length_of_perInterval hp h]
  exact hi

/-- A grid whose intervals differ has intervals. -/
theorem pos_of_perInterval {hs : List Float} (h : (bindingOf p o).stepSize = .perInterval hs) : 0 < hs.length := by
  obtain ⟨points, hpoints, hdiffer, hlength⟩ := points_of_perInterval h
  refine Nat.pos_of_ne_zero fun hzero => ?_
  have hnone : TimeGrid.differences points = [] := List.length_eq_zero_iff.1 (hlength.symm.trans hzero)
  rw [Problem.hasEquidistantGrid, TimeGrid.isEquidistant, hpoints] at hdiffer
  dsimp only at hdiffer
  rw [hnone] at hdiffer
  cases hdiffer

section Constants

variable {R : Type} [Arithmetic R] (size : Struct → String → Nat) (calls : Calls R) (g : Integrator) (b : Binding)

/-- The constants of the integrator. -/
def coefficients : Statics R := (Item.addAll size (Integrator.constants g b) (.none, calls)).1

theorem coefficients_stageMatrix :
    ∃ v : View, (coefficients size calls g b).arrays (g.moduleName.text ++ "_rk_tableau_A") = some v ∧
      v.length = g.tableau.a.flatten.length := by
  have hb : g.moduleName.text ++ "_rk_tableau_A" ≠ g.moduleName.text ++ "_rk_tableau_b" := by simp
  have hh : g.moduleName.text ++ "_rk_tableau_A" ≠ g.moduleName.text ++ "_rk_h" := by simp
  unfold coefficients Integrator.constants
  cases b.stepSize with
  | uniform h => exact ⟨_, (if_neg hb).trans (if_pos rfl), rfl⟩
  | perInterval hs => exact ⟨_, (if_neg hh).trans ((if_neg hb).trans (if_pos rfl)), rfl⟩

theorem coefficients_weights :
    ∃ v : View, (coefficients size calls g b).arrays (g.moduleName.text ++ "_rk_tableau_b") = some v ∧
      v.length = g.stages := by
  have hh : g.moduleName.text ++ "_rk_tableau_b" ≠ g.moduleName.text ++ "_rk_h" := by simp
  unfold coefficients Integrator.constants
  cases b.stepSize with
  | uniform h => exact ⟨_, if_pos rfl, rfl⟩
  | perInterval hs => exact ⟨_, (if_neg hh).trans (if_pos rfl), rfl⟩

end Constants

/-! ## The integrator -/

section Integrator

variable {R : Type} [Arithmetic R] {calls : Calls R} {S : Scope} {state : View}

theorem integrator_room (hp : p.Checked) (hsize : S.size = elements (of p o k))
    (harrays : S.arrays = fun n => if n = "rk_eta" then some state else
      (coefficients S.size calls (integratorOf p o) (bindingOf p o)).arrays n)
    (hstate : state.length = (bindingOf p o).length)
    (hrhs : ∀ v w, (bindingOf p o).length ≤ v.length → (bindingOf p o).integratedLength ≤ w.length →
      S.callable p.model.rhs [.array v, .array w]) :
    Room (integratorOf p o) (bindingOf p o) S := by
  obtain ⟨va, hva, hvalen⟩ := coefficients_stageMatrix S.size calls (integratorOf p o) (bindingOf p o)
  obtain ⟨vb, hvb, hvblen⟩ := coefficients_weights S.size calls (integratorOf p o) (bindingOf p o)
  obtain ⟨hneA, hneb, -⟩ := ne_eta o.moduleName.text
  have hstates : 0 < (bindingOf p o).states := Nat.lt_of_lt_of_le hp.states (Nat.le_add_right _ _)
  have heta : S.arrays "rk_eta" = some state := by
    rw [harrays]
    exact if_pos rfl
  have hA : S.arrays (o.moduleName.text ++ "_rk_tableau_A") = some va := by
    rw [harrays]
    exact (if_neg hneA).trans hva
  have hb : S.arrays (o.moduleName.text ++ "_rk_tableau_b") = some vb := by
    rw [harrays]
    exact (if_neg hneb).trans hvb
  have hpoint : S.size .workspace "rk_xxx" = (bindingOf p o).length := by
    rw [hsize]
    exact Nat.one_mul _
  refine ⟨Nat.mul_pos hstates (by omega), stages_pos _, ?_, Nat.le_of_eq hpoint.symm, ?_, ?_, ?_, ?_, hrhs⟩
  · rw [eta, Scope.length_name heta, hstate]
  · change _ ≤ S.size .workspace "rk_kkk"
    rw [hsize]
    exact Nat.le_refl _
  · change 0 < S.size .workspace "rk_ttt"
    rw [hsize]
    exact Nat.one_pos
  · exact Nat.le_of_eq ((length_stageMatrix _).symm.trans (hvalen.symm.trans (Scope.length_name hA).symm))
  · exact Nat.le_of_eq (hvblen.symm.trans (Scope.length_name hb).symm)

/-- The members of the Newton method, where there is one. -/
theorem integrator_newtonRoom (hsize : S.size = elements (of p o k)) {system : LinearSystem}
    (h : (integratorOf p o).newtonSystem (bindingOf p o) = some system)
    (hjac : ∀ v w, (bindingOf p o).length ≤ v.length →
      (bindingOf p o).integratedLength * (bindingOf p o).integratedLength ≤ w.length →
      S.callable (bindingOf p o).jacobian [.array v, .array w]) :
    NewtonRoom (integratorOf p o) (bindingOf p o) S := by
  have hroom : ∀ {name : String} {n : Nat}, size? (of p o k) .workspace name = some n → S.size .workspace name = n := by
    intro name n h
    rw [hsize]
    exact elements_of_size? h
  have hsizes : IntegratorSizes (of p o k) (bindingOf p o) := integratorSizes rfl
  obtain ⟨hA, hb, hperm, hjacobian⟩ := hsizes.newton system h
  obtain rfl := newtonSystem_eq_some h
  exact ⟨hroom hA, hroom hb, hroom hperm, hroom hjacobian, hjac⟩

end Integrator

/-! ## The solver -/

/-- The augmented state of the solver is that of the integrator. -/
theorem elements_state : elements (of p o k) .workspace "state" = (bindingOf p o).length :=
  elements_of_size? (solverSizes (of p o k)).state

theorem solver_room {S : Scope} (hsize : S.size = elements (of p o k))
    (hintegrate : ∀ i < p.horizon, S.answering (linkOf p o).function
      ([.array ⟨.member .workspace "state", 0, S.size .workspace "state"⟩, .int 1] ++
        if (linkOf p o).takesIndex then [.int (i : Int)] else [])) :
    Solver.Room (solverOf p o k) (linkOf p o) S := by
  have hsizes := solverSizes (of p o k)
  have hroom : ∀ {owner : Struct} {name : String} {n : Nat}, size? (of p o k) owner name = some n →
      n ≤ S.size owner name := by
    intro owner name n h
    rw [hsize]
    exact Nat.le_of_eq (elements_of_size? h).symm
  have hsensitivities := (bindingOf p o).integratedLength_eq
  have hnx : p.dimensions.nx * p.dimensions.nx ≤ (bindingOf p o).states * p.dimensions.nx :=
    Nat.mul_le_mul_right _ (Nat.le_add_right _ _)
  have hnu : p.dimensions.nx * p.dimensions.nu ≤ (bindingOf p o).states * p.dimensions.nu :=
    Nat.mul_le_mul_right _ (Nat.le_add_right _ _)
  have hstates : p.dimensions.nx ≤ (bindingOf p o).states := Nat.le_add_right _ _
  exact {
    sensitivities := Nat.le_trans (Nat.add_le_add (Nat.add_le_add hstates hnx) hnu) (Nat.le_of_eq hsensitivities.symm)
    inputs := Nat.le_refl _
    state := hroom hsizes.state
    x := hroom hsizes.x
    u := hroom hsizes.u
    od := hroom hsizes.od
    x0 := fun hfixed => hroom (hsizes.x0 hfixed)
    d := hroom hsizes.d
    evGx := hroom hsizes.evGx
    evGu := hroom hsizes.evGu
    H := hroom hsizes.H
    g := hroom hsizes.g
    dz := hroom hsizes.dz
    objValue := hroom hsizes.objValue
    integrate := hintegrate }

/-- What can be said of the members alone: every call is allowed. -/
def memberScope (plan : Plan) : Scope := ⟨elements plan, fun _ => none, fun _ _ => True, fun _ _ => True⟩

theorem simulation_room : Solver.Room (solverOf p o k) (linkOf p o) (memberScope (of p o k)) :=
  solver_room rfl fun _ _ => trivial

end ControlCodegen.Export
