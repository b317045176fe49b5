import ControlCodegen.Export.Regularization
import ControlCodegen.Proofs.Template.Digest

/-!
# `Template.Values`: the values that each template is given

* `Template.valueNames` : the names of the values that an export has for a template.
* `Template.complete` : no place of a template is without one of them.
* `Template.exists_render_of_names` : with values of these names a template can be rendered, whatever they are.
* `Regularization.exists_text` : the regularization of blocks that are not empty can be rendered.
-/

namespace ControlCodegen

open Text

set_option autoImplicit false

namespace Template

variable {t : Template} {subs : Substitutions}

/-- Whether a name has a value is seen from the names. -/
theorem isSome_value?_of_mem {name : String} (h : name ∈ subs.map Prod.fst) : (subs.value? name).isSome = true := by
  obtain ⟨s, hs, rfl⟩ := List.mem_map.1 h
  rw [Option.isSome_iff_ne_none]
  intro hnone
  have hne := List.lookup_eq_none_iff.1 hnone s hs
  rw [bne_self_eq_false] at hne
  cases hne

/-- The names of the values that there are for a template. -/
def valueNames : Template → List String
  | .sFunctionHeader | .sFunctionSource | .sFunctionScript => sFunctionPlaces
  | .regularization => modulePlaces ++ ["DIM", "REGULARIZATION_VALUE"]
  | _ => modulePlaces

/-- All places are among the names of the values. -/
def Complete (t : Template) : Prop := ∀ name, Piece.word name ∈ t.outline → name ∈ t.valueNames

theorem complete_of_spells {ls : List (List Char)} (hls : Spells t.lines ls)
    (h : (wordsOf (outlineOf ls)).all (· ∈ t.valueNames) = true) : t.Complete := by
  intro name hname
  unfold outline at hname
  rw [hls.map_toList] at hname
  rw [List.all_eq_true] at h
  exact of_decide_eq_true (h name (List.mem_filterMap.2 ⟨_, hname, rfl⟩))

theorem complete_of_copied (ht : t ∈ copied) (hplaces : t.places ⊆ t.valueNames) : t.Complete := by
  obtain ⟨source, hdigest⟩ := exists_digest ht
  exact fun name hname => hplaces (hdigest.places name hname)

set_option maxRecDepth 100000

theorem complete_makefile (ht : t ∈ [.makefileQpOases, .makefileExactQpOases, .makefileQpDunes, .makefileExactQpDunes,
    .makefileForces, .makefileHpmpc]) : t.Complete := by
  simp only [List.mem_cons, List.not_mem_nil, or_false] at ht
  rcases ht with rfl | rfl | rfl | rfl | rfl | rfl
  all_goals
    apply complete_of_spells
    · simp only [lines, makefile, makefileRules, qpOasesBuild, qpDunesBuild, forcesBuild, hpmpcBuild, sourceList,
        solverSources, List.map, List.dropLast, List.getLast?, List.getLast, Option.map, Option.toList,
        List.cons_append, List.nil_append, String.reduceAppend, if_true, if_false, Bool.false_eq_true]
      repeat' (first | exact Spells.nil | apply Spells.cons rfl)
    · decide +kernel

theorem complete_mexScript (ht : t ∈ [.mexQpOases, .mexExactQpOases, .mexForces, .mexQpDunes, .mexExactQpDunes,
    .mexBlockQpDunes]) : t.Complete := by
  simp only [List.mem_cons, List.not_mem_nil, or_false] at ht
  rcases ht with rfl | rfl | rfl | rfl | rfl | rfl
  all_goals
    apply complete_of_spells
    · simp only [lines, mexScript, mexScriptHead, mexScriptTail, qpOasesScript, qpDunesScript, forcesScript,
        blockQpDunesScript, cellList, List.map, List.cons_append, List.nil_append, String.reduceAppend, if_true,
        if_false, Bool.false_eq_true]
      repeat' (first | exact Spells.nil | apply Spells.cons rfl)
    · decide +kernel

theorem complete_sFunctionScript : sFunctionScript.Complete := by
  apply complete_of_spells
  · simp only [lines, sFunctionScriptLines]
    repeat' (first | exact Spells.nil | apply Spells.cons rfl)
  · decide +kernel

theorem complete_regularization : regularization.Complete := by
  apply complete_of_spells
  · simp only [lines, regularizationLines]
    repeat' (first | exact Spells.nil | apply Spells.cons rfl)
  · decide +kernel

theorem complete (t : Template) : t.Complete := by
  cases t with
  | makefileQpOases | makefileExactQpOases | makefileQpDunes | makefileExactQpDunes | makefileForces | makefileHpmpc =>
    exact complete_makefile (by decide)
  | mexQpOases | mexExactQpOases | mexForces | mexQpDunes | mexExactQpDunes | mexBlockQpDunes =>
    exact complete_mexScript (by decide)
  | testProgram | auxiliaryHeader | auxiliarySource | mexWrapper | mexExactWrapper | sFunctionHeader =>
    exact complete_of_copied (by decide) (List.Subset.refl _)
  | sFunctionSource => exact complete_of_copied (by decide) (List.subset_append_left _ _)
  | sFunctionScript => exact complete_sFunctionScript
  | regularization => exact complete_regularization

/-- With values for all its names a template can be rendered. -/
theorem exists_render_of_names (h : t.valueNames ⊆ subs.map Prod.fst) (token : String) :
    ∃ text, t.render token true subs = .ok text :=
  exists_render (fun name hname => isSome_value?_of_mem (h (t.complete name hname))) token

theorem exists_render_of_values {values : Except Cause Substitutions} (hvalues : values = .ok subs)
    (h : t.valueNames ⊆ subs.map Prod.fst) (token : String) :
    ∃ text, (do t.render token true (← values)) = .ok text := by
  rw [hvalues]
  exact exists_render_of_names h token

end Template

/-! ## The regularization -/

namespace Export.Regularization

/-- The least size of an eigenvalue is a positive number where nothing else is asked for. -/
theorem floor_standard : (1e-12 : Float).isFinite = true ∧ (0.0 : Float) < 1e-12 := by
  decide

theorem substitutions_of_pos (m : ModuleName) {dim : Nat} (hdim : 0 < dim) :
    ∃ size, Regularization.substitutions { moduleName := m, dim } =
      .ok (m.substitutions ++ [("DIM", toString dim), ("REGULARIZATION_VALUE", size)]) := by
  refine ⟨Decimal.exponential 1e-12, ?_⟩
  unfold substitutions
  rw [if_neg (Nat.pos_iff_ne_zero.1 hdim), if_neg (not_not_intro floor_standard)]
  rfl

theorem exists_text (m : ModuleName) {dim : Nat} (hdim : 0 < dim) :
    ∃ text, Regularization.text { moduleName := m, dim } = .ok text := by
  obtain ⟨size, hsubs⟩ := substitutions_of_pos m hdim
  exact Template.exists_render_of_values hsubs (List.Subset.refl _) ""

end Export.Regularization

end ControlCodegen
