import ControlCodegen.Plan.Constants

/-!
# `Plan.Macros`: the values of the macros

* `Constants.value?` : the value of the macro of a name, if the header defines it.
* `Constants.names_macros`, `Constants.nodup_macroNames` : which macros are defined; no two have the same name.
* `Constants.MacroValues`, `Constants.macroValues` : the values by names; flags are 0 or 1, and some macros are defined on a
  condition.
-/

namespace ControlCodegen

set_option autoImplicit false

/-- Where no two entries have the same name, each one is found by its own. -/
theorem find?_of_nodup {α : Type} {name : α → String} {as : List α} (hnodup : (as.map name).Nodup) {a : α} (h : a ∈ as) :
    as.find? (fun b => name b = name a) = some a := by
  induction as with
  | nil => cases h
  | cons b as ih =>
    rw [List.map_cons, List.nodup_cons] at hnodup
    rcases List.mem_cons.1 h with rfl | h
    · exact List.find?_cons_of_pos (by simp)
    · have hne : name b ≠ name a := fun heq => hnodup.1 (heq ▸ List.mem_map_of_mem h)
      rw [List.find?_cons_of_neg (by simpa using hne)]
      exact ih hnodup.2 h

namespace Constants

/-! ## Names -/

/-- The names of the macros, some of which are defined for blocks, for listed bounds and for a single number of steps. -/
def macroNames (blocks bounds steps : Bool) : List String :=
  ["BLOCK_CONDENSING", "COMPUTE_COVARIANCE_MATRIX", "HARDCODED_CONSTRAINT_VALUES", "INITIAL_STATE_FIXED", "N", "NOD", "NU",
    "NX", "NXA", "NXD", "NY", "NYN"] ++
  (if blocks then ["QP_NCA"] else []) ++ (if bounds then ["QP_NLB"] else []) ++ (if bounds then ["QP_NUB"] else []) ++
  ["QP_NV"] ++ (if steps then ["RK_NIS"] else []) ++
  ["RK_NSTAGES", "USE_ARRIVAL_COST", "USE_LINEAR_TERMS", "WEIGHTING_MATRICES_TYPE"]

theorem nodup_macroNames (blocks bounds steps : Bool) : (macroNames blocks bounds steps).Nodup := by
  have hall : (macroNames true true true).Nodup := by decide
  have hsome : ∀ (b : Bool) (names : List String), (if b then names else []).Sublist names := by
    intro b names
    cases b with
    | true => exact List.Sublist.refl names
    | false => exact List.nil_sublist names
  refine hall.sublist ?_
  unfold macroNames
  refine List.Sublist.append ?_ (List.Sublist.refl _)
  refine List.Sublist.append ?_ (hsome steps _)
  refine List.Sublist.append ?_ (List.Sublist.refl _)
  refine List.Sublist.append ?_ (hsome bounds _)
  refine List.Sublist.append ?_ (hsome bounds _)
  exact List.Sublist.append (List.Sublist.refl _) (hsome blocks _)

theorem notMem_macroNames_blocks : ∀ bounds steps, "QP_NCA" ∉ macroNames false bounds steps := by decide

theorem notMem_macroNames_bounds :
    ∀ blocks steps, "QP_NLB" ∉ macroNames blocks false steps ∧ "QP_NUB" ∉ macroNames blocks false steps := by decide

theorem notMem_macroNames_steps : ∀ blocks bounds, "RK_NIS" ∉ macroNames blocks bounds false := by decide

variable (c : Constants)

theorem names_macros :
    c.macros.map Macro.name = macroNames c.blocks.isSome c.bounds.isSome c.stepsPerInterval.isSome := by
  unfold macros
  cases c.blocks <;> cases c.bounds <;> cases c.stepsPerInterval <;> rfl

/-! ## Values -/

/-- The value of the macro of that name, without the common beginning; none if the macro is not defined. -/
def value? (name : String) : Option Nat := (c.macros.find? fun d => d.name = name).map Macro.value

variable {c}

theorem value?_of_mem {d : Macro} (h : d ∈ c.macros) : c.value? d.name = some d.value := by
  have hnodup : (c.macros.map Macro.name).Nodup := by
    rw [names_macros]
    exact nodup_macroNames _ _ _
  unfold value?
  rw [find?_of_nodup hnodup h]
  rfl

theorem value?_of_notMem {name : String} (h : name ∉ c.macros.map Macro.name) : c.value? name = none := by
  unfold value?
  rw [Option.map_eq_none_iff, List.find?_eq_none]
  intro d hd hname
  exact h (of_decide_eq_true hname ▸ List.mem_map_of_mem hd)

/-- The values of the macros that declarations depend on. -/
structure MacroValues (c : Constants) : Prop where
  blockCondensing : c.value? "BLOCK_CONDENSING" = some c.blocks.isSome.toNat
  covarianceMatrix : c.value? "COMPUTE_COVARIANCE_MATRIX" = some c.covarianceMatrix.toNat
  hardcodedConstraints : c.value? "HARDCODED_CONSTRAINT_VALUES" = some c.hardcodedConstraints.toNat
  fixedInitialState : c.value? "INITIAL_STATE_FIXED" = some c.fixedInitialState.toNat
  horizon : c.value? "N" = some c.horizon
  nod : c.value? "NOD" = some c.dims.nod
  nu : c.value? "NU" = some c.dims.nu
  nx : c.value? "NX" = some c.dims.nx
  ny : c.value? "NY" = some c.ny
  nyn : c.value? "NYN" = some c.nyn
  affineConstraints : c.value? "QP_NCA" = c.blocks.map blockConstraints
  lowerBounds : c.value? "QP_NLB" = c.bounds.map Solver.Bounds.lower
  upperBounds : c.value? "QP_NUB" = c.bounds.map Solver.Bounds.upper
  qpVariables : c.value? "QP_NV" = some c.qpVariables
  stepsPerInterval : c.value? "RK_NIS" = c.stepsPerInterval
  stages : c.value? "RK_NSTAGES" = some c.stages
  arrivalCost : c.value? "USE_ARRIVAL_COST" = some c.arrivalCost.toNat

theorem macroValues (c : Constants) : MacroValues c := by
  have hvalues : ∀ d ∈ c.macros, c.value? d.name = some d.value := fun d hd => value?_of_mem hd
  have habsent : ∀ name ∉ macroNames c.blocks.isSome c.bounds.isSome c.stepsPerInterval.isSome,
      c.value? name = none := by
    intro name h
    apply value?_of_notMem
    rw [names_macros]
    exact h
  unfold macros at hvalues
  simp only [List.append_assoc, List.forall_mem_append, List.forall_mem_cons] at hvalues
  obtain ⟨⟨hblock, hcovariance, hhard, hfixed, hN, hnod, hnu, hnx, -, -, hny, hnyn, -⟩, hnca, hnlb, hnub, ⟨hnv, -⟩, hnis,
    hstages, harrival, -⟩ := hvalues
  refine ⟨hblock, hcovariance, hhard, hfixed, hN, hnod, hnu, hnx, hny, hnyn, ?_, ?_, ?_, hnv, ?_, hstages, harrival⟩
  · cases hblocks : c.blocks with
    | none =>
      apply habsent
      rw [hblocks]
      exact notMem_macroNames_blocks _ _
    | some b =>
      rw [hblocks] at hnca
      exact hnca _ (List.mem_singleton_self _)
  · cases hbounds : c.bounds with
    | none =>
      apply habsent
      rw [hbounds]
      exact (notMem_macroNames_bounds _ _).1
    | some b =>
      rw [hbounds] at hnlb
      exact hnlb _ (List.mem_singleton_self _)
  · cases hbounds : c.bounds with
    | none =>
      apply habsent
      rw [hbounds]
      exact (notMem_macroNames_bounds _ _).2
    | some b =>
      rw [hbounds] at hnub
      exact hnub _ (List.mem_singleton_self _)
  · cases hsteps : c.stepsPerInterval with
    | none =>
      apply habsent
      rw [hsteps]
      exact notMem_macroNames_steps _ _
    | some n =>
      rw [hsteps] at hnis
      exact hnis _ (List.mem_singleton_self _)

end Constants

end ControlCodegen
