import ControlCodegen.Proofs.C.Link
import ControlCodegen.Proofs.Integrator.Steps
import Mathlib.Data.List.GetD

/-!
# `Integrator.File`: the generated function in its file

* `Tableau.coefficient`, `Tableau.weight` : the coefficients of a scheme; they stand in the file by rows.
* `Loaded` : the constants of the file stand in memory.
* `Handed`, `Sized` : what the function may rely on: the array of its caller, and the members of the workspace.
* `arrays_of`, `stepLength_of`, `link_function` : the function finds what it needs in its file.
-/

namespace ControlCodegen.Integrator

open C C.IntExpr

set_option autoImplicit false

/-! ## Constants -/

/-- A coefficient of the stage matrix. -/
def Tableau.coefficient (t : Tableau) (row col : ℕ) : Float := (t.a.getD row []).getD col 0

/-- The weight of a stage. -/
def Tableau.weight (t : Tableau) (s : ℕ) : Float := t.b.getD s 0

/-- The length of a step in an interval. -/
def Binding.stepLength (b : Binding) (interval : ℕ) : Float :=
  match b.stepSize with
  | .uniform h => h
  | .perInterval hs => hs.getD interval 0

theorem Tableau.length_row (s : Scheme) : ∀ row ∈ (Tableau.ofScheme s).a, row.length = (Tableau.ofScheme s).stages := by
  cases s <;> simp [Tableau.ofScheme, Tableau.stages]

/-- The entries of rows of equal length, one row after the other. -/
theorem getD_flatten {rows : List (List Float)} {cols : ℕ} (h : ∀ row ∈ rows, row.length = cols) {r c : ℕ} (hc : c < cols) :
    rows.flatten.getD (r * cols + c) 0 = (rows.getD r []).getD c 0 := by
  induction rows generalizing r with
  | nil => simp
  | cons row rows ih =>
    have hrow := h row List.mem_cons_self
    have hrest := fun row' hrow' => h row' (List.mem_cons_of_mem _ hrow')
    cases r with
    | zero =>
      rw [Nat.zero_mul, Nat.zero_add, List.flatten_cons, List.getD_append _ _ _ _ (by omega)]
      rfl
    | succ r =>
      have hat : (r + 1) * cols + c - row.length = r * cols + c := by
        rw [hrow, Nat.succ_mul]
        omega
      have hge : row.length ≤ (r + 1) * cols + c := by
        rw [hrow, Nat.succ_mul]
        omega
      rw [List.flatten_cons, List.getD_append_right _ _ _ _ hge, hat, ih hrest]
      rfl

variable {R : Type}

section Loaded

variable [Arithmetic R]

/-- The constant arrays of a file stand in memory. -/
def Loaded (items : List Item) (m : Memory R) : Prop :=
  ∀ name values, .constants name values ∈ items → ∀ i < values.length,
    m.reals (.static name) i = Arithmetic.ofFloat (values.getD i 0)

variable {g : Integrator} {b : Binding} {m : Memory R}

theorem storedCoefficient_of (h : Loaded (constants g b) m) {s t : ℕ} (hs : s < g.stages) (ht : t < g.stages) :
    storedCoefficient g m s t = Arithmetic.ofFloat (g.tableau.coefficient s t) := by
  have hlength : g.tableau.a.flatten.length = g.stages * g.stages := length_stageMatrix g.scheme
  have hmem : .constants g.stageMatrixName g.tableau.a.flatten ∈ constants g b := by simp [constants, stageMatrixName]
  rw [storedCoefficient, h _ _ hmem _ (by rw [hlength]; exact row_index_lt hs ht)]
  exact congrArg _ (getD_flatten (Tableau.length_row g.scheme) ht)

theorem storedWeight_of (h : Loaded (constants g b) m) {s : ℕ} (hs : s < g.stages) :
    storedWeight g m s = Arithmetic.ofFloat (g.tableau.weight s) := by
  have hmem : .constants g.weightsName g.tableau.b ∈ constants g b := by simp [constants, weightsName]
  exact h _ _ hmem s hs

end Loaded

/-! ## The file -/

/-- The items before the function. -/
def preamble (g : Integrator) (b : Binding) : List Item :=
  constants g b ++ ((g.newtonSystem b).map LinearSystem.items).getD []

/-- The array of a caller holds an augmented state, and is none of those that the integrator has itself. -/
structure Handed (g : Integrator) (b : Binding) (state : View) : Prop where
  length : state.length = b.length
  outside : state.block ∉ workBlocks g b
  outside_static : ∀ n, state.block ≠ .static n

/-- The members of a struct have as many elements as they are declared with. -/
def Sized (members : List Member) (owner : Struct) (size : Struct → String → ℕ) : Prop :=
  ∀ d ∈ members, size owner d.name = d.size

section File

variable [Arithmetic R] {g : Integrator} {b : Binding} {m : Memory R} {size : Struct → String → ℕ} {calls : Calls R}
  {state : View}

/-- The constants and functions before the function. -/
def surroundings (g : Integrator) (b : Binding) (size : Struct → String → ℕ) (calls : Calls R) : Statics R × Calls R :=
  Item.addAll size (preamble g b) (.none, calls)

omit [Arithmetic R] in
theorem items_eq {items : List Item} (hb : g.binding = some b) (hitems : g.items = .ok items) :
    items = preamble g b ++ [.function (function g b)] := by
  have hbound : g.bound = .ok b := by
    unfold bound
    rw [hb]
  unfold Integrator.items at hitems
  rw [hbound] at hitems
  exact (Except.ok.inj hitems).symm

theorem Loaded.constants {items : List Item} (h : Loaded items m) (hb : g.binding = some b) (hitems : g.items = .ok items) :
    Loaded (constants g b) m := fun name values hmem => h name values (by
  rw [items_eq hb hitems, preamble]
  exact List.mem_append_left _ (List.mem_append_left _ hmem))

/-- A call of the function runs it in its file. -/
theorem link_function {items : List Item} (hb : g.binding = some b) (hitems : g.items = .ok items) :
    C.link size items calls g.functionName =
      (function g b).invoke ⟨size, (surroundings g b size calls).2⟩ (surroundings g b size calls).1 := by
  rw [items_eq hb hitems]
  exact Item.addAll_function List.not_mem_nil

/-- What the file does not define is called where it comes from. -/
theorem surroundings_call {n : String} (hn : n ∉ Item.names (preamble g b)) : (surroundings g b size calls).2 n = calls n :=
  Item.addAll_of_notMem hn

omit [Arithmetic R] in
theorem names_preamble (h : g.newtonSystem b = none) : Item.names (preamble g b) = [] := by
  unfold preamble constants
  rw [h]
  cases b.stepSize <;> rfl

theorem statics_surroundings :
    (surroundings g b size calls).1 = (Item.addAll size (constants g b) (.none, calls)).1 := by
  unfold surroundings preamble
  rw [Item.addAll_append]
  cases g.newtonSystem b with
  | none => rfl
  | some system => exact Item.statics_addAll_functions [system.solve, system.solveAgain]

theorem seen_stageMatrix :
    seen (surroundings g b size calls).1 state g.stageMatrixName = some ⟨.static g.stageMatrixName, 0, g.stages * g.stages⟩ := by
  have heta : g.stageMatrixName ≠ "rk_eta" := (ne_eta g.moduleName.text).1
  have hweights : g.stageMatrixName ≠ g.weightsName := fun h =>
    absurd ((String.append_right_inj g.moduleName.text).1 h) (by decide)
  have hstep : g.stageMatrixName ≠ g.stepSizeName := (ne_stepSizeName g (by decide)).symm
  have hlength : g.tableau.a.flatten.length = g.stages * g.stages := length_stageMatrix g.scheme
  rw [seen, if_neg heta, statics_surroundings, ← hlength]
  unfold constants
  cases b.stepSize with
  | uniform h => exact (if_neg hweights).trans (if_pos rfl)
  | perInterval hs => exact (if_neg hstep).trans ((if_neg hweights).trans (if_pos rfl))

theorem seen_weights :
    seen (surroundings g b size calls).1 state g.weightsName = some ⟨.static g.weightsName, 0, g.stages⟩ := by
  have heta : g.weightsName ≠ "rk_eta" := (ne_eta g.moduleName.text).2.1
  have hstep : g.weightsName ≠ g.stepSizeName := (ne_stepSizeName g (by decide)).symm
  rw [seen, if_neg heta, statics_surroundings]
  unfold constants
  cases b.stepSize with
  | uniform h => exact if_pos rfl
  | perInterval hs => exact (if_neg hstep).trans (if_pos rfl)

/-- The function has its arrays. -/
theorem arrays_of (hb : g.binding = some b) (hstates : 0 < b.states) (hsize : Sized (g.members .workspace) .workspace size)
    (hstate : Handed g b state) : Arrays g b size state (seen (surroundings g b size calls).1 state) := by
  unfold Sized members at hsize
  rw [hb] at hsize
  have htime := hsize _ (List.mem_append_left _ List.mem_cons_self)
  have hpoint := hsize _ (List.mem_append_left _ (List.mem_cons_of_mem _ List.mem_cons_self))
  have hstage := hsize _ (List.mem_append_left _ (List.mem_cons_of_mem _ (List.mem_cons_of_mem _ List.mem_cons_self)))
  exact ⟨hstates, if_pos rfl, hstate.length, hstate.outside, hstate.outside_static, seen_stageMatrix, seen_weights,
    hpoint.trans (Nat.one_mul _), hstage, htime⟩

/-- The length of a step in an interval, as the function finds it: a constant, or an element of memory. -/
def storedStepLength (g : Integrator) (b : Binding) (interval : ℕ) (m : Memory R) : R :=
  match b.stepSize with
  | .uniform h => Arithmetic.ofFloat h
  | .perInterval _ => m.reals (.static g.stepSizeName) interval

/-- The table of the step sizes, where the intervals differ. -/
theorem stepSizes_stored {hs : List Float} (hsize : b.stepSize = .perInterval hs) :
    (surroundings g b size calls).1.arrays g.stepSizeName = some ⟨.static g.stepSizeName, 0, hs.length⟩ := by
  rw [statics_surroundings]
  unfold constants
  rw [hsize]
  exact if_pos rfl

theorem stepLength_stored {interval : ℕ} (hinterval : ∀ hs, b.stepSize = .perInterval hs → interval < hs.length) :
    StepLength g b (surroundings g b size calls).1 interval m (storedStepLength g b interval m) := by
  unfold StepLength storedStepLength
  cases hsize : b.stepSize with
  | uniform h =>
    dsimp only
    rw [statics_surroundings]
    unfold constants
    rw [hsize]
    exact if_pos rfl
  | perInterval hs => exact ⟨stepSizes_stored hsize, hinterval hs hsize, rfl⟩

theorem storedStepLength_of (hloaded : Loaded (constants g b) m) {interval : ℕ}
    (hinterval : ∀ hs, b.stepSize = .perInterval hs → interval < hs.length) :
    storedStepLength g b interval m = Arithmetic.ofFloat (b.stepLength interval) := by
  unfold constants at hloaded
  unfold storedStepLength Binding.stepLength
  cases hsize : b.stepSize with
  | uniform h => rfl
  | perInterval hs =>
    rw [hsize] at hloaded
    exact hloaded _ _ (by simp) _ (hinterval hs hsize)

/-- The function has the length of its steps. -/
theorem stepLength_of (hloaded : Loaded (constants g b) m) {interval : ℕ}
    (hinterval : ∀ hs, b.stepSize = .perInterval hs → interval < hs.length) :
    StepLength g b (surroundings g b size calls).1 interval m (Arithmetic.ofFloat (b.stepLength interval)) := by
  rw [← storedStepLength_of hloaded hinterval]
  exact stepLength_stored hinterval

end File

end ControlCodegen.Integrator
