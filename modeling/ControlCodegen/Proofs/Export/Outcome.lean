import ControlCodegen.Proofs.Export.Run

/-!
# `Export.Outcome`: what an export comes to

* `exportOn` : an export on a disk.
* `Comes`, `comes_exportOn` : the four ways in which an export can end.
* `separate_artifacts` : its files go to different places, whatever the module is called.
* `finished_of_not_interrupted` : an export succeeds if nothing is in the way of its files.
* `completed_of_ok` : what is known of an export that succeeds.
-/

namespace ControlCodegen

set_option autoImplicit false

/-- What the user is warned of. -/
def Message.warning? : Message → Option String
  | .warning text => some text
  | _ => none

namespace Export

open Files

/-- An export on a disk: what it comes to, and the disk after it. -/
def exportOn (s : Session) (target : Target) (now : Moment) (d : Disk) : Outcome × Disk :=
  (exportCode s target now : StateM Disk Outcome).run d

/-- The directory of an export is made, with those on the way to it. -/
def makeTargetOn (target : Target) (d : Disk) : Except FileError Unit × Disk :=
  d.after (makeDirectories target.dir)

/-- On the way to the target directories are all that is made. -/
theorem grown_makeTargetOn {target : Target} {d d' : Disk} {result : Except FileError Unit}
    (h : makeTargetOn target d = (result, d')) : d.Grown d' := by
  have hgrown := Disk.grows_makeDirectories target.dir d
  change d.Grown (makeTargetOn target d).2 at hgrown
  rw [h] at hgrown
  exact hgrown

section

variable {σ : Progress} {d : Disk}

theorem after_makeTarget (target : Target) :
    Run.after (makeTarget target) σ d =
      match makeTargetOn target d with
      | (.ok (), d') => ((.ok (), σ), d')
      | (.error e, d') => ((.error (.unableToExport target.dir.text (.plain (.file e))), σ), d') := by
  unfold makeTarget makeTargetOn
  rw [Run.after_attempt, Disk.after_adapt]
  rcases d.after (makeDirectories target.dir) with ⟨e | u, d'⟩ <;> rfl

theorem after_setUp (σ : Progress) (d : Disk) :
    Run.after setUp σ d =
      match σ.1.setup with
      | .ok (s, plan) => ((.ok plan, s, σ.2), d)
      | .error c => ((.error (.plain c), σ), d) := by
  unfold setUp
  rw [Run.after_bind]
  change Run.after (match σ.1.setup with
    | .ok (session, plan) => do
      set (session, σ.2)
      return plan
    | .error cause => throw (.plain cause)) σ d = _
  cases σ.1.setup <;> rfl

end

/-- What a session with a plan tells of it. -/
def infos (s : Session) : List Message := (s.dimensionsMessage.map Message.info).toList

/-- The steps of an export that has its plan. -/
def takeAll (s : Session) (plan : Plan) (target : Target) (now : Moment) : Run (StateM Disk) Summary :=
  (steps plan s.options target).foldlM Step.take { moduleName := s.options.moduleName, startedAt := now }

theorem after_get (σ : Progress) (d : Disk) : Run.after get σ d = ((.ok σ, σ), d) := rfl

/-- What an export comes to: its directory is made, its session is set up, and then its steps are taken. -/
theorem after_produce (s : Session) (target : Target) (now : Moment) (d : Disk) :
    Run.after (produce target now) (s, []) d =
      match makeTargetOn target d with
      | (.error e, d') =>
        ((.error (.unableToExport target.dir.text (.plain (.file e))), s, [.banner bannerText]), d')
      | (.ok (), d') =>
        match s.setup with
        | .error c => ((.error (.plain c), s, [.banner bannerText]), d')
        | .ok (s', plan) => Run.after (takeAll s' plan target now) (s', .banner bannerText :: infos s') d' := by
  unfold produce
  rw [Run.after_bind]
  change Run.after (makeTarget target >>= _) (s, [.banner bannerText]) d = _
  rw [Run.after_bind, after_makeTarget]
  rcases makeTargetOn target d with ⟨e | u, d'⟩
  · rfl
  · dsimp only
    rw [Run.after_bind, after_setUp]
    dsimp only
    rcases s.setup with c | ⟨s', plan⟩
    · rfl
    · dsimp only
      rw [Run.after_bind, after_get]
      unfold infos
      dsimp only
      cases s'.dimensionsMessage <;> rfl

/-- The ways in which an export can end. -/
inductive Comes (s : Session) (target : Target) (now : Moment) (d : Disk) : Outcome × Disk → Prop where
  /-- The directory cannot be made. -/
  | directory {e : FileError} {d' : Disk} (hdir : makeTargetOn target d = (.error e, d')) :
    Comes s target now d
      (⟨.error (.unableToExport target.dir.text (.plain (.file e))), s, [.banner bannerText]⟩, d')
  /-- The session has no plan. -/
  | setup {c : Cause} {d' : Disk} (hdir : makeTargetOn target d = (.ok (), d')) (hsetup : s.setup = .error c) :
    Comes s target now d (⟨.error (.plain c), s, [.banner bannerText]⟩, d')
  /-- The first files are written. -/
  | interrupted {s' : Session} {plan : Plan} {artifact : String} {c : Cause} {told : List Message} {d₀ d' : Disk}
    {files : List File} (hdir : makeTargetOn target d = (.ok (), d₀)) (hsetup : s.setup = .ok (s', plan))
    (h : Interrupted d₀ ((steps plan s'.options target).flatMap Step.drafts) files d' c) :
    Comes s target now d (⟨.error (.unableToExport artifact (.plain c)), s', told⟩, d')
  /-- All files are written. -/
  | finished {s' : Session} {plan : Plan} {d₀ d' : Disk} {files : List File}
    (hdir : makeTargetOn target d = (.ok (), d₀)) (hsetup : s.setup = .ok (s', plan))
    (h : Finished d₀ ((steps plan s'.options target).flatMap Step.drafts) files d') :
    Comes s target now d
      (⟨.ok (extend { moduleName := s'.options.moduleName, startedAt := now } files
          ((steps plan s'.options target).filterMap Step.warning?)), s',
        .banner bannerText :: infos s' ++
          ((steps plan s'.options target).filterMap Step.warning?).map Message.warning⟩, d')

/-! ## Places -/

section

variable {o : Options} {plan : Plan} {target : Target}

theorem isFileName_of_mem {a : Artifact} (h : a ∈ artifacts o) : IsFileName (a.name.text o.moduleName) := by
  have hentry : a.entry ∈ inventory o := entries_artifacts o ▸ List.mem_map_of_mem h
  exact FileName.isFileName (mem_all_of_mem hentry) o.moduleName

theorem nodup_artifacts (o : Options) : ((artifacts o).map fun a => a.name.text o.moduleName).Nodup := by
  have hnodup := nodup_inventory o o.moduleName
  rw [← entries_artifacts, List.map_map] at hnodup
  exact hnodup

/-- The selected files go to different places. -/
theorem separate_artifacts (o : Options) (plan : Plan) (target : Target) :
    Separate ((artifacts o).map fun a => a.draft o plan target) := by
  refine List.pairwise_map.2 ((List.pairwise_map.1 (nodup_artifacts o)).imp_of_mem fun ha hb hne => ?_)
  exact Path.apart_join (isFileName_of_mem ha) (isFileName_of_mem hb) hne

theorem separate_steps (hname : plan.constants.moduleName = o.moduleName) :
    Separate ((steps plan o target).flatMap Step.drafts) :=
  (separate_artifacts o plan target).sublist (sublist_steps hname)

/-- The plan of a session is for the module of its options. -/
theorem moduleName_of_setup {s s' : Session} (hs : s.Coherent) (hsetup : s.setup = .ok (s', plan)) :
    plan.constants.moduleName = s'.options.moduleName := by
  obtain ⟨hplan, rfl⟩ := hs.setup_ok hsetup
  exact Plan.moduleName_of_resolve hplan

end

theorem exportOn_eq (s : Session) (target : Target) (now : Moment) (d : Disk) :
    exportOn s target now d =
      (⟨(Run.after (produce target now) (s, []) d).1.1, (Run.after (produce target now) (s, []) d).1.2.1,
        (Run.after (produce target now) (s, []) d).1.2.2⟩, (Run.after (produce target now) (s, []) d).2) :=
  rfl

/-- An export ends in one of these ways. -/
theorem comes_exportOn {s : Session} (hs : s.Coherent) (target : Target) (now : Moment) (d : Disk) :
    Comes s target now d (exportOn s target now d) := by
  rw [exportOn_eq, after_produce]
  rcases hdir : makeTargetOn target d with ⟨e | u, d₀⟩
  · exact .directory hdir
  rcases hsetup : s.setup with c | ⟨s', plan⟩
  · exact .setup hdir hsetup
  have hends := ends_steps (steps plan s'.options target) { moduleName := s'.options.moduleName, startedAt := now }
    (s', .banner bannerText :: infos s') d₀ (separate_steps (moduleName_of_setup hs hsetup))
  unfold takeAll
  cases hends with
  | finished files d' h hafter =>
    dsimp only
    rw [hafter]
    exact .finished hdir hsetup h
  | interrupted files d' artifact c told h hafter =>
    dsimp only
    rw [hafter]
    exact .interrupted hdir hsetup h

/-- An export that gets to a setup which fails. -/
theorem exportOn_of_setup_error {s : Session} {target : Target} {now : Moment} {d d' : Disk} {c : Cause}
    (hdir : makeTargetOn target d = (.ok (), d')) (hsetup : s.setup = .error c) :
    exportOn s target now d = (⟨.error (.plain c), s, [.banner bannerText]⟩, d') := by
  rw [exportOn_eq, after_produce, hdir]
  dsimp only
  rw [hsetup]

/-! ## Exports that succeed -/

/-- The files of an export, before they are written. -/
def draftsOf (o : Options) (plan : Plan) (target : Target) : List (ArtifactKind × Draft) :=
  (steps plan o target).flatMap Step.drafts

/-- The summary of an export that has written files. -/
def summaryOf (o : Options) (plan : Plan) (target : Target) (now : Moment) (files : List File) : Summary :=
  extend { moduleName := o.moduleName, startedAt := now } files ((steps plan o target).filterMap Step.warning?)

/-- An export that nothing interrupts succeeds. -/
theorem finished_of_not_interrupted {s s' : Session} (hs : s.Coherent) {plan : Plan}
    (hsetup : s.setup = .ok (s', plan)) {target : Target} {d d₀ : Disk} (hdir : makeTargetOn target d = (.ok (), d₀))
    (hready : ∀ files d' c, ¬Interrupted d₀ (draftsOf s'.options plan target) files d' c) (now : Moment) :
    ∃ outcome d' files, exportOn s target now d = (outcome, d') ∧
      outcome.result = .ok (summaryOf s'.options plan target now files) ∧
      Finished d₀ (draftsOf s'.options plan target) files d' := by
  have hcomes := comes_exportOn hs target now d
  rcases hexport : exportOn s target now d with ⟨outcome, d'⟩
  rw [hexport] at hcomes
  cases hcomes with
  | directory hdir' => cases (Prod.mk.inj (hdir.symm.trans hdir')).1
  | setup _ hsetup' => cases hsetup.symm.trans hsetup'
  | interrupted hdir' hsetup' h =>
    obtain ⟨-, rfl⟩ := Prod.mk.inj (hdir.symm.trans hdir')
    obtain ⟨rfl, rfl⟩ := Prod.mk.inj (Except.ok.inj (hsetup.symm.trans hsetup'))
    exact absurd h (hready _ _ _)
  | finished hdir' hsetup' h =>
    obtain ⟨-, rfl⟩ := Prod.mk.inj (hdir.symm.trans hdir')
    obtain ⟨rfl, rfl⟩ := Prod.mk.inj (Except.ok.inj (hsetup.symm.trans hsetup'))
    exact ⟨_, d', _, rfl, rfl, h⟩

/-- An export that has written all files of a plan. -/
structure Completed (s : Session) (target : Target) (now : Moment) (d : Disk) (outcome : Outcome) (d' : Disk)
    (plan : Plan) (files : List File) : Prop where
  setup : ∃ s', s.setup = .ok (s', plan)
  all : files.map File.draft = (artifacts s.options).map fun a => a.draft s.options plan target
  result : outcome.result =
    .ok (extend { moduleName := s.options.moduleName, startedAt := now } files (warnings s.options))
  told : outcome.messages.filterMap Message.warning? = warnings s.options
  filled : d.tree.Filled (files.map File.content) d'.tree
  reads : ∀ f ∈ files, d'.read f.path = .ok f.text.toUTF8

theorem warnings_messages (s : Session) (texts : List String) :
    (.banner bannerText :: infos s ++ texts.map Message.warning).filterMap Message.warning? = texts := by
  have hinfos : (infos s).filterMap Message.warning? = [] := by
    unfold infos
    cases s.dimensionsMessage <;> rfl
  rw [List.cons_append, List.filterMap_cons_none rfl, List.filterMap_append, hinfos, List.nil_append,
    List.filterMap_map]
  exact List.filterMap_some

theorem completed_of_ok {s : Session} (hs : s.Coherent) {target : Target} {now : Moment} {d d' : Disk}
    {outcome : Outcome} (h : exportOn s target now d = (outcome, d')) {summary : Summary} (hok : outcome.result = .ok summary) :
    ∃ plan files, Completed s target now d outcome d' plan files := by
  have hcomes := comes_exportOn hs target now d
  rw [h] at hcomes
  cases hcomes with
  | directory | setup | interrupted => cases hok
  | finished hdir hsetup hfinished =>
    rename_i s' plan d₀ files
    obtain ⟨hplan, rfl⟩ := hs.setup_ok hsetup
    have hname := moduleName_of_setup hs hsetup
    have hmatlab := hardcoded_of_files hfinished.all
    have hwarnings : (steps plan s.options target).filterMap Step.warning? = warnings s.options :=
      warnings_steps hmatlab
    refine ⟨plan, files, ⟨_, hsetup⟩, ?_, ?_, ?_, ?_, hfinished.reads⟩
    · rw [← hfinished.all]
      exact drafts_steps hname hmatlab
    · rw [hwarnings]
    · rw [warnings_messages]
      exact hwarnings
    · exact ⟨d₀.tree, (grown_makeTargetOn hdir).tree, hfinished.written.tree⟩

section

variable {s : Session} {target : Target} {now : Moment} {d d' : Disk} {outcome : Outcome} {plan : Plan}
  {files : List File} {summary : Summary}

/-- The summary has the records of the files, in their order. -/
theorem Completed.artifacts_eq (h : Completed s target now d outcome d' plan files)
    (hok : outcome.result = .ok summary) : summary.artifacts = files.map File.record := by
  rw [Except.ok.inj (hok.symm.trans h.result)]
  exact List.nil_append _

/-- The plan is that of the session. -/
theorem Completed.resolve (h : Completed s target now d outcome d' plan files) (hs : s.Coherent) :
    Plan.resolve s.problem s.options s.registry = .ok plan := by
  obtain ⟨s', hsetup⟩ := h.setup
  exact (hs.setup_ok hsetup).1

theorem Completed.moduleName_eq (h : Completed s target now d outcome d' plan files) (hs : s.Coherent) :
    plan.constants.moduleName = s.options.moduleName :=
  Plan.moduleName_of_resolve (h.resolve hs)

/-- A selected file is on the disk with its contents. -/
theorem Completed.exists_record (h : Completed s target now d outcome d' plan files)
    (hok : outcome.result = .ok summary) {a : Artifact} (ha : a ∈ artifacts s.options) :
    ∃ r ∈ summary.artifacts, r.path = a.path s.options target ∧
      ∃ text, a.text plan target.types target.precision = .ok text ∧ d'.read r.path = .ok text.toUTF8 := by
  have hdraft : a.draft s.options plan target ∈ files.map File.draft := h.all ▸ List.mem_map_of_mem ha
  obtain ⟨f, hf, hdraft⟩ := List.mem_map.1 hdraft
  refine ⟨f.record, h.artifacts_eq hok ▸ List.mem_map_of_mem hf, congrArg (fun x => x.2.path) hdraft, f.text, ?_,
    h.reads f hf⟩
  exact (congrArg (fun x => x.2.text) hdraft).symm

/-- A file that is recorded is a selected one. -/
theorem Completed.exists_artifact (h : Completed s target now d outcome d' plan files)
    (hok : outcome.result = .ok summary) {r : ArtifactRecord} (hr : r ∈ summary.artifacts) :
    ∃ a ∈ artifacts s.options, r.path = a.path s.options target ∧
      ∃ text, a.text plan target.types target.precision = .ok text ∧ d'.read r.path = .ok text.toUTF8 := by
  rw [h.artifacts_eq hok] at hr
  obtain ⟨f, hf, rfl⟩ := List.mem_map.1 hr
  have hdraft : f.draft ∈ (artifacts s.options).map fun a => a.draft s.options plan target :=
    h.all ▸ List.mem_map_of_mem hf
  obtain ⟨a, ha, hdraft⟩ := List.mem_map.1 hdraft
  exact ⟨a, ha, (congrArg (fun x => x.2.path) hdraft).symm, f.text, congrArg (fun x => x.2.text) hdraft, h.reads f hf⟩

/-- There is a common header at least. -/
theorem Completed.ne_nil (h : Completed s target now d outcome d' plan files) : files ≠ [] := by
  rintro rfl
  have hentries := entries_artifacts s.options
  rw [List.map_eq_nil_iff.1 h.all.symm] at hentries
  cases hentries

end

end Export

end ControlCodegen
