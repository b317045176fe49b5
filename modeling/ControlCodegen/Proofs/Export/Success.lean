import ControlCodegen.Proofs.Export.Outcome

/-!
# `Export.Success`: exports that succeed

* `Free` : nothing is in the way of a file in the working directory.
* `blocked_of_text_error` : which files of a checked problem have no contents.
* `not_interrupted`, `exists_summary` : an export into the working directory succeeds where nothing is in the way of its
  files.
* `exists_summary_smallProblem` : it does for the small problem, where there is nothing.
-/

namespace ControlCodegen.Export

open Files

set_option autoImplicit false

/-- Nothing is in the way of a file in the working directory: its name is not too long, and not that of a directory. -/
structure Free (t : Tree) (name : String) : Prop where
  size : name.utf8ByteSize ≤ Tree.maxName
  noDirectory : t.entry? [name] ≠ some .directory

/-- The file of a draft can be written where nothing is in the way. -/
theorem exists_write_of_free {o : Options} {target : Target} (hdir : target.dir = ⟨""⟩) {a : Artifact}
    (ha : a ∈ artifacts o) {d : Disk} (hrefusal : d.refusal = fun _ => none)
    (hfree : Free d.tree (a.name.text o.moduleName)) (bytes : ByteArray) :
    ∃ t, d.write (a.path o target) bytes = .ok t := by
  have hname := isFileName_of_mem ha
  have hpath : a.path o target = ⟨a.name.text o.moduleName⟩ := by
    unfold Artifact.path place
    rw [hdir, Path.empty_join hname]
  have hentry : a.entry ∈ inventory o := entries_artifacts o ▸ List.mem_map_of_mem ha
  have hnul : '\x00' ∉ (a.name.text o.moduleName).toList :=
    FileName.notMem_text (mem_all_of_mem hentry) o.moduleName (by decide)
  obtain ⟨t, ht⟩ := Tree.exists_write hname hnul hfree.size hfree.noDirectory bytes
  refine ⟨t, Disk.allow_eq_ok_iff.2 ⟨by rw [hrefusal], ?_⟩⟩
  rw [hpath]
  exact ht

/-- The files of an export are selected ones. -/
theorem exists_artifact_of_mem {o : Options} {plan : Plan} {target : Target}
    (hname : plan.constants.moduleName = o.moduleName) {x : ArtifactKind × Draft} (hx : x ∈ draftsOf o plan target) :
    ∃ a ∈ artifacts o, a.draft o plan target = x :=
  List.mem_map.1 ((sublist_steps hname).subset hx)

/-- A file without contents is that of an interface that needs hard-coded constraint values, and there are none. -/
theorem blocked_of_text_error {s : Session} {plan : Plan} (hcheck : s.problem.check = .ok ())
    (hplan : Plan.resolve s.problem s.options s.registry = .ok plan) {target : Target} {c : Cause}
    (h : ∃ x ∈ draftsOf s.options plan target, x.2.text = .error c) :
    s.options.hardcodedConstraints = false ∧
      (s.options.matlabInterface = true ∧ c = .matlabConstraints ∨
        s.options.simulinkInterface = true ∧ c = .simulinkConstraints) := by
  obtain ⟨x, hx, htext⟩ := h
  obtain ⟨a, ha, rfl⟩ := exists_artifact_of_mem (Plan.moduleName_of_resolve hplan) hx
  cases hasText_artifacts hcheck hplan ha target.types target.precision with
  | text text _ h => cases htext.symm.trans h
  | matlab _ ho hconstraints h => exact ⟨hconstraints, .inl ⟨ho, Except.error.inj (htext.symm.trans h)⟩⟩
  | simulink _ ho hconstraints h => exact ⟨hconstraints, .inr ⟨ho, Except.error.inj (htext.symm.trans h)⟩⟩

/-- An export into the working directory is not interrupted if no interface needs constraint values that are not
hard-coded, and if the disk refuses nothing and has no directory in the way. -/
theorem not_interrupted {s s' : Session} {plan : Plan} (hs : s.Coherent) (hcheck : s.problem.check = .ok ())
    (hsetup : s.setup = .ok (s', plan))
    (hinterfaces : s.options.matlabInterface = true ∨ s.options.simulinkInterface = true →
      s.options.hardcodedConstraints = true)
    {target : Target} (hdir : target.dir = ⟨""⟩) {d d' : Disk} (hrefusal : d.refusal = fun _ => none)
    (hfree : ∀ x ∈ inventory s.options, Free d.tree (x.2.text s.options.moduleName)) {files : List File} {c : Cause} :
    ¬Interrupted d (draftsOf s'.options plan target) files d' c := by
  intro h
  obtain ⟨hplan, rfl⟩ := hs.setup_ok hsetup
  have htext := h.exists_text_error (fun f hf => ?_) fun f _ => by rw [hrefusal]
  · obtain ⟨hconstraints, ho⟩ := blocked_of_text_error hcheck hplan htext
    exact absurd (hinterfaces (ho.imp And.left And.left)) (by rw [hconstraints]; decide)
  · obtain ⟨a, ha, hdraft⟩ := exists_artifact_of_mem (Plan.moduleName_of_resolve hplan) hf
    have hpath : a.path s.options target = f.path := congrArg (fun x => x.2.path) hdraft
    have hentry : a.entry ∈ inventory s.options := entries_artifacts s.options ▸ List.mem_map_of_mem ha
    -- No directory is made while files are written.
    have hnow : Free d'.tree (a.name.text s.options.moduleName) :=
      ⟨(hfree _ hentry).size, fun hdirectory =>
        (hfree _ hentry).noDirectory (h.written.tree.entry?_of_directory hdirectory)⟩
    rw [← hpath]
    exact exists_write_of_free hdir ha (h.written.refusal.trans hrefusal) hnow f.text.toUTF8

/-- Such an export succeeds. -/
theorem exists_summary {s s' : Session} {plan : Plan} (hs : s.Coherent) (hcheck : s.problem.check = .ok ())
    (hsetup : s.setup = .ok (s', plan))
    (hinterfaces : s.options.matlabInterface = true ∨ s.options.simulinkInterface = true →
      s.options.hardcodedConstraints = true)
    {target : Target} (hdir : target.dir = ⟨""⟩) {d : Disk} (hrefusal : d.refusal = fun _ => none)
    (hfree : ∀ x ∈ inventory s.options, Free d.tree (x.2.text s.options.moduleName)) (now : Moment) :
    ∃ summary, (exportOn s target now d).1.result = .ok summary := by
  have hmake : makeTargetOn target d = (.ok (), d) := by
    unfold makeTargetOn
    rw [hdir]
    rfl
  obtain ⟨outcome, d', files, hexport, hok, -⟩ := finished_of_not_interrupted hs hsetup hmake
    (fun _ _ _ => not_interrupted hs hcheck hsetup hinterfaces hdir hrefusal hfree) now
  rw [hexport]
  exact ⟨_, hok⟩

/-- Options for both interfaces. -/
def bothInterfaces : Options := { matlabInterface := true, simulinkInterface := true }

/-- Where there is nothing, there is nothing in the working directory. -/
theorem entry?_empty {name : String} (hname : IsFileName name) : Tree.entry? {} [name] = none := by
  have hroot : name ≠ "/" := by
    rintro rfl
    exact hname.noSlash (by decide)
  have hgiven : Location.isGiven [name] = false := by
    unfold Location.isGiven
    simp [Location.root, hname.notAbove, hroot]
  unfold Tree.entry?
  rw [hgiven]
  rfl

/-- Nothing is in the way there. -/
theorem free_empty {name : String} (hsize : name.utf8ByteSize ≤ Tree.maxName) (hname : IsFileName name) :
    Free {} name := by
  refine ⟨hsize, fun h => ?_⟩
  rw [entry?_empty hname] at h
  cases h

theorem size_text_standard : ∀ n ∈ FileName.all, (n.text .standard).utf8ByteSize ≤ Tree.maxName := by
  decide

/-- An export for the standard module into the working directory, where there is nothing. -/
theorem exists_summary_empty {s : Session} (hs : s.Coherent) (hcheck : s.problem.check = .ok ())
    (hsetup : ∃ s' plan, s.setup = .ok (s', plan)) (hname : s.options.moduleName = .standard)
    (hconstraints : s.options.hardcodedConstraints = true) {target : Target} (hdir : target.dir = ⟨""⟩) (now : Moment) :
    ∃ summary, (exportOn s target now {}).1.result = .ok summary := by
  obtain ⟨s', plan, hsetup⟩ := hsetup
  have hfree : ∀ x ∈ inventory s.options, Free ({} : Tree) (x.2.text s.options.moduleName) := fun x hx => by
    rw [hname]
    exact free_empty (size_text_standard x.2 (mem_all_of_mem hx)) (FileName.isFileName (mem_all_of_mem hx) _)
  exact exists_summary hs hcheck hsetup (fun _ => hconstraints) hdir rfl hfree now

end ControlCodegen.Export
