import ControlCodegen.Proofs.Export.Classification

/-!
# `Export.Acceptance`: exports to a place that takes all files

* `Accepts` : a directory in which every file of an export can be written.
* `error_of_accepts`, `result_of_accepts` : such an export fails only where there is no plan, or for an interface that needs
  hard-coded constraint values.
* `accepts_of_free` : a disk that refuses nothing accepts all files, if nothing is in their way.
-/

namespace ControlCodegen.Export

open Files

set_option autoImplicit false

/-- The directory of an export can be made, and then each of its files can be written and read, whatever files were
written before. -/
structure Accepts (d : Disk) (target : Target) (o : Options) : Prop where
  directory : ∃ d₀, makeTargetOn target d = (.ok (), d₀)
  write : ∀ d₀ fs d', makeTargetOn target d = (.ok (), d₀) → d₀.Written fs d' → ∀ x ∈ inventory o, ∀ bytes,
    ∃ t, d'.write (place target (x.2.text o.moduleName)) bytes = .ok t
  read : ∀ x ∈ inventory o, d.refusal (.read (place target (x.2.text o.moduleName))) = none

section

variable {s s' : Session} {plan : Plan} {target : Target} {d : Disk} {c : Cause}

/-- Only a file without contents can be in the way of an export to such a place. -/
theorem Accepts.exists_text_error {o : Options} {p : Problem} {r : Integrator.Registry} (h : Accepts d target o)
    (hplan : Plan.resolve p o r = .ok plan) {d₀ d' : Disk} (hdir : makeTargetOn target d = (.ok (), d₀))
    {files : List File} (hi : Interrupted d₀ (draftsOf o plan target) files d' c) :
    ∃ x ∈ draftsOf o plan target, x.2.text = .error c := by
  have hplace {f : File} (hf : f.draft ∈ draftsOf o plan target) :
      ∃ y ∈ inventory o, f.path = place target (y.2.text o.moduleName) := by
    obtain ⟨a, ha, hdraft⟩ := exists_artifact_of_mem (Plan.moduleName_of_resolve hplan) hf
    exact ⟨a.entry, entries_artifacts o ▸ List.mem_map_of_mem ha, (congrArg (fun x => x.2.path) hdraft).symm⟩
  refine hi.exists_text_error (fun f hf => ?_) fun f hf => ?_
  · obtain ⟨y, hy, hpath⟩ := hplace hf
    rw [hpath]
    exact h.write d₀ _ d' hdir hi.written y hy f.text.toUTF8
  · obtain ⟨y, hy, hpath⟩ := hplace hf
    rw [(grown_makeTargetOn hdir).refusal, hpath]
    exact h.read y hy

/-- In a checked problem it is that of an interface that needs hard-coded constraint values. -/
theorem blocked_of_accepts (hs : s.Coherent) (hcheck : s.problem.check = .ok ()) (h : Accepts d target s.options)
    (hsetup : s.setup = .ok (s', plan)) {d₀ d' : Disk} (hdir : makeTargetOn target d = (.ok (), d₀)) {files : List File}
    (hi : Interrupted d₀ (draftsOf s'.options plan target) files d' c) :
    s.options.hardcodedConstraints = false ∧
      (s.options.matlabInterface = true ∧ c = .matlabConstraints ∨
        s.options.simulinkInterface = true ∧ c = .simulinkConstraints) := by
  obtain ⟨hplan, rfl⟩ := hs.setup_ok hsetup
  exact blocked_of_text_error hcheck hplan (h.exists_text_error hplan hdir hi)

/-- An export to such a place fails where there is no plan. -/
theorem error_of_accepts (h : Accepts d target s.options) (hsetup : s.setup = .error c) (now : Moment) :
    (exportOn s target now d).1.result = .error (.plain c) := by
  obtain ⟨d₀, hdir⟩ := h.directory
  rw [exportOn_of_setup_error hdir hsetup]

/-- Where there is one, it succeeds, unless an interface is in the way. -/
theorem result_of_accepts (hs : s.Coherent) (hcheck : s.problem.check = .ok ()) (h : Accepts d target s.options)
    (hsetup : s.setup = .ok (s', plan)) (now : Moment) :
    (∃ summary, (exportOn s target now d).1.result = .ok summary) ∨
      s.options.hardcodedConstraints = false ∧
        (s.options.matlabInterface = true ∨ s.options.simulinkInterface = true) ∧
        ∃ e, (exportOn s target now d).1.result = .error e ∧ e.rootCause.kind = .notImplemented := by
  obtain ⟨d₀, hdir⟩ := h.directory
  have hcomes := comes_exportOn hs target now d
  generalize exportOn s target now d = ended at hcomes ⊢
  cases hcomes with
  | directory hdir' => cases (Prod.mk.inj (hdir.symm.trans hdir')).1
  | setup _ hsetup' => cases hsetup.symm.trans hsetup'
  | finished => exact .inl ⟨_, rfl⟩
  | interrupted hdir' hsetup' hi =>
    obtain ⟨hconstraints, ⟨ho, rfl⟩ | ⟨ho, rfl⟩⟩ := blocked_of_accepts hs hcheck h hsetup' hdir' hi
    · exact .inr ⟨hconstraints, .inl ho, _, rfl, rfl⟩
    · exact .inr ⟨hconstraints, .inr ho, _, rfl, rfl⟩

end

/-- The directory of an export is made where that can be done at once. -/
theorem makeTargetOn_of_makeDirectory {d : Disk} {target : Target} {t : Tree} (hrefusal : d.refusal = fun _ => none)
    (hempty : target.dir.text.isEmpty = false) (h : d.tree.makeDirectory target.dir = .ok t) :
    makeTargetOn target d = (.ok (), { d with tree := t }) := by
  have hmake : d.makeDirectory target.dir = .ok t := Disk.allow_eq_ok_iff.2 ⟨by rw [hrefusal], h⟩
  have hfirst : d.after (makeDirectory target.dir) = (.ok (), { d with tree := t }) := by
    change Disk.change (fun d => d.makeDirectory target.dir) d = _
    unfold Disk.change
    dsimp only
    rw [hmake]
  unfold makeTargetOn makeDirectories
  rw [hempty, if_neg Bool.false_ne_true, Disk.after_tryCatch, hfirst]

/-- A disk that refuses nothing accepts all files where nothing is in their way. -/
theorem accepts_of_free {d d₀ : Disk} {target : Target} {o : Options} {l : Location}
    (hdir : makeTargetOn target d = (.ok (), d₀)) (hrefusal : d.refusal = fun _ => none)
    (hlocate : d₀.tree.locate target.dir = .ok (.existing l .directory))
    (hpath : ∀ x ∈ inventory o, (place target (x.2.text o.moduleName)).text.utf8ByteSize ≤ Tree.maxPath)
    (hname : ∀ x ∈ inventory o, (x.2.text o.moduleName).utf8ByteSize ≤ Tree.maxName)
    (hfree : ∀ x ∈ inventory o, d₀.tree.entry? (l ++ [x.2.text o.moduleName]) ≠ some .directory) :
    Accepts d target o := by
  refine ⟨⟨d₀, hdir⟩, fun d₁ fs d' hdir' hwritten x hx bytes => ?_, fun x _ => by rw [hrefusal]⟩
  obtain ⟨-, rfl⟩ := Prod.mk.inj (hdir.symm.trans hdir')
  have hrefusal' : d'.refusal = fun _ => none :=
    hwritten.refusal.trans ((grown_makeTargetOn hdir).refusal.trans hrefusal)
  have hmem := mem_all_of_mem hx
  have hkept := hwritten.tree.keeps l (Tree.entry?_of_locate hlocate)
  have hlocate' := Tree.locate_of_keeps hwritten.tree.keeps hlocate hkept
  -- No directory is made while files are written.
  have hfree' : d'.tree.entry? (l ++ [x.2.text o.moduleName]) ≠ some .directory := fun hdirectory =>
    hfree x hx (hwritten.tree.entry?_of_directory hdirectory)
  obtain ⟨t, ht⟩ := Tree.exists_write_join (FileName.isFileName hmem _) (FileName.notMem_text hmem _ (by decide))
    (hname x hx) (hpath x hx) hlocate' hfree' bytes
  exact ⟨t, Disk.allow_eq_ok_iff.2 ⟨by rw [hrefusal'], ht⟩⟩

end ControlCodegen.Export
