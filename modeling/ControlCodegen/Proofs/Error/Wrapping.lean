import ControlCodegen.Error

/-!
# `Error.Wrapping`: errors that are wrapped again and again

An error is a cause in the wrappers of some artifacts, to any depth. Whatever it is wrapped for later, the cause stays,
and with it what a command makes of the error.

* `artifacts`, `wrapped` : the artifacts of an error, and a cause that is wrapped for artifacts. `eq_wrapped_iff` says
  that every error is such a cause, in one way.
* `message_eq` : the text of an error from its artifacts and its cause.
* `whileExportingAll` : an error that is wrapped for one artifact after the other.
* `Preserved`, `preserved_whileExportingAll` : what wrapping leaves of an error.
-/

namespace ControlCodegen.ExportError

set_option autoImplicit false

/-! ## Causes in their wrappers -/

/-- The artifacts that an error is wrapped for, the outermost first. -/
def artifacts : ExportError → List String
  | plain _ => []
  | unableToExport a source => a :: source.artifacts

/-- A cause wrapped for artifacts, the first of them outermost. -/
def wrapped (c : Cause) : List String → ExportError
  | [] => plain c
  | a :: as => unableToExport a (wrapped c as)

section

variable {e e' : ExportError} {c : Cause} {as : List String}

theorem rootCause_wrapped : (wrapped c as).rootCause = c := by
  induction as with
  | nil => rfl
  | cons a as ih => exact ih

theorem artifacts_wrapped : (wrapped c as).artifacts = as := by
  induction as with
  | nil => rfl
  | cons a as ih => exact congrArg (a :: ·) ih

theorem wrapped_artifacts (e : ExportError) : wrapped e.rootCause e.artifacts = e := by
  induction e with
  | plain c => rfl
  | unableToExport a source ih => exact congrArg (unableToExport a) ih

/-- An error is one cause wrapped for one list of artifacts. -/
theorem eq_wrapped_iff : e = wrapped c as ↔ c = e.rootCause ∧ as = e.artifacts := by
  constructor
  · rintro rfl
    exact ⟨rootCause_wrapped.symm, artifacts_wrapped.symm⟩
  · rintro ⟨rfl, rfl⟩
    exact (wrapped_artifacts e).symm

theorem eq_plain_of_artifacts (h : e.artifacts = []) : e = plain e.rootCause :=
  eq_wrapped_iff.2 ⟨rfl, h.symm⟩

/-- The words that a wrapper puts in front of the text. -/
def heading (artifact : String) : String := s!"Unable to export {artifact}: "

/-- The text names the artifacts, the outermost first, and then the cause. -/
theorem message_eq (e : ExportError) :
    e.message = String.join (e.artifacts.map heading) ++ e.rootCause.message := by
  induction e with
  | plain c => exact String.empty_append.symm
  | unableToExport a source ih =>
    calc (unableToExport a source).message
      _ = heading a ++ source.message := rfl
      _ = heading a ++ (String.join (source.artifacts.map heading) ++ source.rootCause.message) := by rw [ih]
      _ = String.join ((unableToExport a source).artifacts.map heading) ++ source.rootCause.message := by
        rw [artifacts, List.map_cons, String.join_cons, String.append_assoc]

/-! ## Wrapping -/

theorem rootCause_whileExporting (a : String) (e : ExportError) : (e.whileExporting a).rootCause = e.rootCause := by
  cases e <;> rfl

/-- An error that is wrapped is not wrapped again. -/
theorem whileExporting_of_wrapped (a : String) (h : e.artifacts ≠ []) : e.whileExporting a = e := by
  cases e with
  | plain c => exact absurd rfl h
  | unableToExport b source => rfl

/-- An error wrapped for one artifact after the other. -/
def whileExportingAll (e : ExportError) (names : List String) : ExportError :=
  names.foldl (fun e a => e.whileExporting a) e

theorem whileExportingAll_cons (e : ExportError) (a : String) (names : List String) :
    e.whileExportingAll (a :: names) = (e.whileExporting a).whileExportingAll names := rfl

theorem rootCause_whileExportingAll (e : ExportError) (names : List String) :
    (e.whileExportingAll names).rootCause = e.rootCause := by
  induction names generalizing e with
  | nil => rfl
  | cons a names ih => rw [whileExportingAll_cons, ih, rootCause_whileExporting]

theorem whileExportingAll_of_wrapped (names : List String) (h : e.artifacts ≠ []) : e.whileExportingAll names = e := by
  induction names with
  | nil => rfl
  | cons a names ih => rw [whileExportingAll_cons, whileExporting_of_wrapped a h, ih]

/-- The first artifact is the one that counts. -/
theorem whileExportingAll_plain (c : Cause) (a : String) (names : List String) :
    (plain c).whileExportingAll (a :: names) = unableToExport a (plain c) :=
  whileExportingAll_of_wrapped names (List.cons_ne_nil a [])

/-! ## What a command makes of an error -/

theorem isConfigurationError_of_rootCause (h : e.rootCause = e'.rootCause) :
    e.isConfigurationError = e'.isConfigurationError := by
  unfold isConfigurationError
  rw [h]

theorem exitCode_of_rootCause (h : e.rootCause = e'.rootCause) : e.exitCode = e'.exitCode := by
  unfold exitCode
  rw [h]

end

/-- What becomes of an error that is wrapped for artifacts of some names. -/
structure Preserved (e : ExportError) (names : List String) (e' : ExportError) : Prop where
  /-- The cause is the same, and so is what a command makes of it. -/
  rootCause : e'.rootCause = e.rootCause
  isConfigurationError : e'.isConfigurationError = e.isConfigurationError
  exitCode : e'.exitCode = e.exitCode
  /-- The cause is no wrapper, -/
  unwrapped : ∀ a source, (e'.rootCause : ExportError) ≠ unableToExport a source
  /-- and it is what the error is without its wrappers. -/
  innermost : ∀ c as, e' = wrapped c as ↔ c = e'.rootCause ∧ as = e'.artifacts
  /-- An error without a wrapper gets one, for the first name. -/
  once : e.artifacts = [] → ∀ a rest, names = a :: rest → e' = unableToExport a e ∧ e'.artifacts = [a]
  /-- A wrapped one stays as it is. -/
  unchanged : names = [] ∨ e.artifacts ≠ [] → e' = e
  /-- The text has a heading for each wrapper, the outermost first, and then the text of the cause. -/
  message : e'.message = String.join (e'.artifacts.map heading) ++ e'.rootCause.message

/-- Wrapping preserves the cause. -/
theorem preserved_whileExportingAll (e : ExportError) (names : List String) :
    Preserved e names (e.whileExportingAll names) := by
  have hcause := rootCause_whileExportingAll e names
  refine ⟨hcause, isConfigurationError_of_rootCause hcause, exitCode_of_rootCause hcause, nofun,
    fun c as => eq_wrapped_iff, ?_, ?_, message_eq _⟩
  · rintro he a rest rfl
    rw [eq_plain_of_artifacts he, whileExportingAll_plain]
    exact ⟨rfl, rfl⟩
  · rintro (rfl | he)
    · rfl
    · exact whileExportingAll_of_wrapped names he

end ControlCodegen.ExportError
