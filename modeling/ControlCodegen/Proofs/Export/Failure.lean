import ControlCodegen.Proofs.Export.Success

/-!
# `Export.Failure`: what a failed export leaves

* `Partial` : the first files of the selection are on the disk with their contents, and all others are as they were.
* `exists_error_of_selected` : an export for an interface fails without hard-coded constraint values.
* `partial_of_exportOn` : every failed export leaves its disk so.
-/

namespace ControlCodegen.Export

open Files

set_option autoImplicit false

/-- A disk after a failed export, with the files that the export has written. -/
structure Partial (s : Session) (target : Target) (d d' : Disk) (files : List File) : Prop where
  /-- Directories were made, then the files were written, and there are no other changes. -/
  filled : d.tree.Filled (files.map File.content) d'.tree
  /-- They are the first files of the selection, with all of their contents. -/
  first : ∀ s' plan, s.setup = .ok (s', plan) →
    files.map File.draft <+: (artifacts s.options).map fun a => a.draft s.options plan target
  /-- There are none if there is no directory for them, -/
  noDirectory : ∀ e d₀, makeTargetOn target d = (.error e, d₀) → files = []
  /-- and none without a plan. -/
  noPlan : ∀ c, s.setup = .error c → files = []
  /-- The later files of the selection are as they were. -/
  later : ∀ x ∈ (inventory s.options).drop files.length,
    d.tree.Untouched d'.tree (place target (x.2.text s.options.moduleName))
  /-- So are all other files. -/
  others : ∀ l, (∀ f ∈ files, ¬d'.tree.LeadsTo f.path l) → d'.tree.file? l = d.tree.file? l
  /-- No file of an interface is touched if it needs hard-coded constraint values and there are none. -/
  interfaces : s.options.hardcodedConstraints = false → ∀ x ∈ inventory s.options, isInterface x.1 = true →
    d.tree.Untouched d'.tree (place target (x.2.text s.options.moduleName))

section

variable {s s' : Session} {target : Target} {d d' : Disk} {plan : Plan} {files : List File}
  {rest : List (ArtifactKind × Draft)}

/-- Where only directories were made. -/
theorem partial_nil (h : d.tree.Grown d'.tree) : Partial s target d d' [] := by
  have hfilled : d.tree.Filled [] d'.tree := ⟨d'.tree, h, .refl _⟩
  have huntouched (p : Path) : d.tree.Untouched d'.tree p := hfilled.untouched fun _ h => absurd h List.not_mem_nil
  exact ⟨hfilled, fun _ _ _ => List.nil_prefix, fun _ _ _ => rfl, fun _ _ => rfl, fun _ _ => huntouched _,
    fun l _ => h.file? l, fun _ _ _ _ => huntouched _⟩

/-- A file is as it was if it is none of those that were written. -/
theorem untouched_of_rest (hfilled : d.tree.Filled (files.map File.content) d'.tree)
    (hall : (artifacts s.options).map (fun a => a.draft s.options plan target) = files.map File.draft ++ rest)
    {a : Artifact} (h : a.draft s.options plan target ∈ rest) :
    d.tree.Untouched d'.tree (a.path s.options target) := by
  have hseparate := separate_artifacts s.options plan target
  rw [hall] at hseparate
  apply hfilled.untouched
  rw [List.forall_mem_map]
  intro f hf
  have hapart := (List.pairwise_append.1 hseparate).2.2
  exact hapart f.draft (List.mem_map_of_mem hf) (a.draft s.options plan target) h

/-- Where the first files of the selection were written. -/
theorem partial_of_prefix (hplan : Plan.resolve s.problem s.options s.registry = .ok plan)
    (hsetup : s.setup = .ok (s', plan)) (hdir : ∃ d₀, makeTargetOn target d = (.ok (), d₀))
    (hfilled : d.tree.Filled (files.map File.content) d'.tree)
    (hfirst : files.map File.draft <+: (artifacts s.options).map fun a => a.draft s.options plan target) :
    Partial s target d d' files := by
  obtain ⟨rest, hall⟩ := hfirst
  have hrest : rest = ((artifacts s.options).drop files.length).map fun a => a.draft s.options plan target := by
    rw [List.map_drop, ← hall, ← List.length_map (f := File.draft), List.drop_left]
  have huntouched {a : Artifact} (h : a.draft s.options plan target ∈ rest) :=
    untouched_of_rest hfilled hall.symm h
  refine ⟨hfilled, fun _ _ hsetup' => ?_, fun _ _ hdir' => ?_, fun _ hsetup' => ?_, fun x hx => ?_, fun l hl => ?_,
    fun hconstraints x hx hinterface => ?_⟩
  · obtain ⟨-, rfl⟩ := Prod.mk.inj (Except.ok.inj (hsetup.symm.trans hsetup'))
    exact ⟨rest, hall⟩
  · obtain ⟨d₀, hdir⟩ := hdir
    cases (Prod.mk.inj (hdir.symm.trans hdir')).1
  · cases hsetup.symm.trans hsetup'
  · rw [← entries_artifacts, ← List.map_drop] at hx
    obtain ⟨a, ha, rfl⟩ := List.mem_map.1 hx
    exact huntouched (hrest ▸ List.mem_map_of_mem ha)
  · exact hfilled.file? (List.forall_mem_map.2 hl)
  · rw [← entries_artifacts] at hx
    obtain ⟨a, ha, rfl⟩ := List.mem_map.1 hx
    obtain ⟨c, hc⟩ := exists_error_of_interface hplan ha hinterface hconstraints target.types target.precision
    have hmem : a.draft s.options plan target ∈ files.map File.draft ++ rest := hall ▸ List.mem_map_of_mem ha
    exact huntouched ((List.mem_append.1 hmem).resolve_left (notMem_of_error hc files))

end

/-- An export for an interface fails without hard-coded constraint values. -/
theorem exists_error_of_selected {s : Session} (hs : s.Coherent) {x : ArtifactKind × FileName}
    (hx : x ∈ inventory s.options) (hinterface : isInterface x.1 = true)
    (hconstraints : s.options.hardcodedConstraints = false) {target : Target} {now : Moment} {d d' : Disk}
    {outcome : Outcome} (h : exportOn s target now d = (outcome, d')) : ∃ e, outcome.result = .error e := by
  cases hresult : outcome.result with
  | error e => exact ⟨e, rfl⟩
  | ok summary =>
    obtain ⟨plan, files, hc⟩ := completed_of_ok hs h hresult
    obtain ⟨s', hsetup⟩ := hc.setup
    rw [← entries_artifacts] at hx
    obtain ⟨a, ha, rfl⟩ := List.mem_map.1 hx
    obtain ⟨c, htext⟩ := exists_error_of_interface (hs.setup_ok hsetup).1 ha hinterface hconstraints target.types
      target.precision
    have hmem : a.draft s.options plan target ∈ files.map File.draft := hc.all ▸ List.mem_map_of_mem ha
    exact absurd hmem (notMem_of_error htext files)

/-- A session for an interface that needs hard-coded constraint values, without them. -/
def unboundInterface : Session :=
  { problem := smallProblem, options := { matlabInterface := true, hardcodedConstraints := false } }

theorem coherent_unboundInterface : unboundInterface.Coherent := Session.coherent_of_none rfl

theorem exists_error_unboundInterface {target : Target} {now : Moment} {d d' : Disk} {outcome : Outcome}
    (h : exportOn unboundInterface target now d = (outcome, d')) : ∃ e, outcome.result = .error e := by
  have hx : (ArtifactKind.mexInterface, FileName.ofModule "solver_mex.c") ∈ inventory unboundInterface.options := by
    decide
  exact exists_error_of_selected coherent_unboundInterface hx rfl rfl h

/-- Every failed export leaves the first files of the selection with their contents, and nothing else. -/
theorem partial_of_exportOn {s : Session} (hs : s.Coherent) {target : Target} {now : Moment} {d d' : Disk}
    {outcome : Outcome} (h : exportOn s target now d = (outcome, d')) {e : ExportError}
    (herror : outcome.result = .error e) : ∃ files : List File, Partial s target d d' files := by
  have hcomes := comes_exportOn hs target now d
  rw [h] at hcomes
  cases hcomes with
  | finished => cases herror
  | directory hdir | setup hdir => exact ⟨[], partial_nil (grown_makeTargetOn hdir).tree⟩
  | interrupted hdir hsetup hi =>
    have hname := moduleName_of_setup hs hsetup
    obtain ⟨hplan, rfl⟩ := hs.setup_ok hsetup
    obtain ⟨rest, hes, -⟩ := hi.stops
    have hfilled : d.tree.Filled _ d'.tree := ⟨_, (grown_makeTargetOn hdir).tree, hi.written.tree⟩
    exact ⟨_, partial_of_prefix hplan hsetup ⟨_, hdir⟩ hfilled (prefix_artifacts hname ⟨rest, hes.symm⟩)⟩

theorem partial_of_exportOn_unboundInterface :
    ∃ outcome d' e files, exportOn unboundInterface { dir := ⟨""⟩ } ⟨0, 0, 0⟩ {} = (outcome, d') ∧
      outcome.result = .error e ∧ Partial unboundInterface { dir := ⟨""⟩ } {} d' files := by
  rcases hexport : exportOn unboundInterface { dir := ⟨""⟩ } ⟨0, 0, 0⟩ {} with ⟨outcome, d'⟩
  obtain ⟨e, herror⟩ := exists_error_unboundInterface hexport
  obtain ⟨files, hpartial⟩ := partial_of_exportOn coherent_unboundInterface hexport herror
  exact ⟨outcome, d', e, files, rfl, herror, hpartial⟩

end ControlCodegen.Export
