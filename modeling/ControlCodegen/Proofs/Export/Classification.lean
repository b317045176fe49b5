import ControlCodegen.Proofs.Export.Failure

/-!
# `Export.Classification`: the errors of an export

* `Fails` : the three classes of errors. They are told apart by how far the export has come.
* `fails_of_exportOn` : every error of an export of a checked problem is in one of them.
* `classified_of_exportOn` : it is in one only, it is wrapped once at most, it blames no template, and its class decides
  what a command makes of it.
-/

namespace ControlCodegen.Export

open Files

set_option autoImplicit false

/-- How far an export has come when it fails. -/
inductive FailureClass where
  | directory
  | setup
  | artifact
  deriving DecidableEq, Repr

/-- What a file cannot be produced for: the file itself, or an interface that needs hard-coded constraint values. -/
inductive BlocksArtifact (o : Options) : Cause → Prop where
  | file (e : FileError) : BlocksArtifact o (.file e)
  | matlab (ho : o.matlabInterface = true) (hconstraints : o.hardcodedConstraints = false) :
    BlocksArtifact o .matlabConstraints
  | simulink (ho : o.simulinkInterface = true) (hconstraints : o.hardcodedConstraints = false) :
    BlocksArtifact o .simulinkConstraints

/-- The errors of each class. -/
inductive Fails (s : Session) (target : Target) (d : Disk) : FailureClass → ExportError → Prop where
  /-- The directory cannot be made, and it is named. -/
  | directory {e : FileError} {d₀ : Disk} (hdir : makeTargetOn target d = (.error e, d₀)) :
    Fails s target d .directory (.unableToExport target.dir.text (.plain (.file e)))
  /-- There is no plan, for the reason that the setup gives. -/
  | setup {c : Cause} {d₀ : Disk} (hdir : makeTargetOn target d = (.ok (), d₀)) (hsetup : s.setup = .error c) :
    Fails s target d .setup (.plain c)
  /-- A file cannot be produced, and it is named. -/
  | artifact {s' : Session} {plan : Plan} {c : Cause} {d₀ : Disk} (hdir : makeTargetOn target d = (.ok (), d₀))
    (hsetup : s.setup = .ok (s', plan)) (name : String) (hc : BlocksArtifact s.options c) :
    Fails s target d .artifact (.unableToExport name (.plain c))

section

variable {s : Session} {target : Target} {d : Disk} {k k' : FailureClass} {e e' : ExportError}

/-- The class follows from the session, the directory and the disk alone. -/
theorem Fails.class_eq (h : Fails s target d k e) (h' : Fails s target d k' e') : k = k' := by
  cases h with
  | directory hdir =>
    cases h' with
    | directory => rfl
    | setup hdir' | artifact hdir' => cases (Prod.mk.inj (hdir.symm.trans hdir')).1
  | setup hdir hsetup =>
    cases h' with
    | directory hdir' => cases (Prod.mk.inj (hdir.symm.trans hdir')).1
    | setup => rfl
    | artifact _ hsetup' => cases hsetup.symm.trans hsetup'
  | artifact hdir hsetup =>
    cases h' with
    | directory hdir' => cases (Prod.mk.inj (hdir.symm.trans hdir')).1
    | setup _ hsetup' => cases hsetup.symm.trans hsetup'
    | artifact => rfl

/-- An error is wrapped once at most. -/
theorem Fails.once (h : Fails s target d k e) {name : String} {source : ExportError}
    (he : e = .unableToExport name source) : ∃ c, source = .plain c := by
  cases h with
  | setup => cases he
  | directory | artifact => exact ⟨_, (ExportError.unableToExport.inj he).2.symm⟩

theorem BlocksArtifact.kind {o : Options} {c : Cause} (h : BlocksArtifact o c) :
    c.kind = .io ∨ c.kind = .notImplemented := by
  cases h with
  | file => exact .inl rfl
  | matlab | simulink => exact .inr rfl

theorem Fails.not_isOfTemplate (h : Fails s target d k e) : e.rootCause.isOfTemplate = false := by
  cases h with
  | directory => rfl
  | setup _ hsetup => exact Cause.isOfTemplate_of_isOfSetup (Session.isOfSetup_of_setup hsetup)
  | artifact _ _ _ hc => cases hc <;> rfl

/-- The kinds of errors of each class. -/
theorem Fails.kind (h : Fails s target d k e) :
    match k with
    | .directory => e.rootCause.kind = .io
    | .setup => e.rootCause.kind = .invalidArguments ∨ e.rootCause.kind = .invalidOption ∨
        e.rootCause.kind = .invalidObjective
    | .artifact => e.rootCause.kind = .io ∨ e.rootCause.kind = .notImplemented := by
  cases h with
  | directory => rfl
  | setup _ hsetup => exact Cause.kind_of_isOfSetup (Session.isOfSetup_of_setup hsetup)
  | artifact _ _ _ hc => exact hc.kind

theorem Fails.isConfigurationError_iff (h : Fails s target d k e) : e.isConfigurationError = true ↔ k = .setup := by
  have hkind := h.kind
  unfold ExportError.isConfigurationError
  cases k with
  | directory =>
    rw [show e.rootCause.kind = .io from hkind]
    decide
  | setup =>
    rcases hkind with hkind | hkind | hkind <;> rw [hkind] <;> decide
  | artifact =>
    rcases hkind with hkind | hkind <;> rw [hkind] <;> decide

end

/-- An error with its class, and what follows from it. -/
structure Classified (s : Session) (target : Target) (d d' : Disk) (e : ExportError) (k : FailureClass) : Prop where
  fails : Fails s target d k e
  /-- It is in no other class. -/
  unique : ∀ k', Fails s target d k' e → k' = k
  /-- It is wrapped once at most. -/
  once : ∀ name source, e = .unableToExport name source → ∃ c, source = .plain c
  /-- It blames no template. -/
  noTemplate : e.rootCause.isOfTemplate = false
  /-- It speaks of the configuration if it comes from the setup, -/
  configuration : e.isConfigurationError = true ↔ k = .setup
  /-- and then no file was touched. -/
  before : e.isConfigurationError = true → d.tree.Grown d'.tree
  /-- The problem is to blame for what the setup finds and for what is not implemented, -/
  problem : k = .setup ∨ e.rootCause.kind = .notImplemented → e.exitCode = 3
  /-- and the disk for what cannot be read or written. -/
  disk : e.rootCause.kind = .io → e.exitCode = 5

/-- What is in the way of an export of a checked problem. -/
theorem blocksArtifact_of_interrupted {s s' : Session} {plan : Plan} (hs : s.Coherent)
    (hcheck : s.problem.check = .ok ()) (hsetup : s.setup = .ok (s', plan)) {target : Target} {d d' : Disk}
    {files : List File} {c : Cause}
    (h : Interrupted d ((steps plan s'.options target).flatMap Step.drafts) files d' c) :
    BlocksArtifact s.options c := by
  obtain ⟨hplan, rfl⟩ := hs.setup_ok hsetup
  rcases h.cause with htext | ⟨e, rfl⟩
  · obtain ⟨hconstraints, ⟨ho, rfl⟩ | ⟨ho, rfl⟩⟩ := blocked_of_text_error hcheck hplan htext
    · exact .matlab ho hconstraints
    · exact .simulink ho hconstraints
  · exact .file e

/-- Every error of an export of a checked problem is in one of the classes. -/
theorem fails_of_exportOn {s : Session} (hs : s.Coherent) (hcheck : s.problem.check = .ok ()) {target : Target}
    {now : Moment} {d d' : Disk} {outcome : Outcome} (h : exportOn s target now d = (outcome, d')) {e : ExportError}
    (herror : outcome.result = .error e) : ∃ k, Fails s target d k e ∧ (k = .setup → d.tree.Grown d'.tree) := by
  have hcomes := comes_exportOn hs target now d
  rw [h] at hcomes
  cases hcomes with
  | finished => cases herror
  | directory hdir =>
    obtain rfl := Except.error.inj herror
    exact ⟨.directory, .directory hdir, nofun⟩
  | setup hdir hsetup =>
    obtain rfl := Except.error.inj herror
    exact ⟨.setup, .setup hdir hsetup, fun _ => (grown_makeTargetOn hdir).tree⟩
  | interrupted hdir hsetup hi =>
    obtain rfl := Except.error.inj herror
    exact ⟨.artifact, .artifact hdir hsetup _ (blocksArtifact_of_interrupted hs hcheck hsetup hi), nofun⟩

/-- Every error of an export of a checked problem has its class. -/
theorem classified_of_exportOn {s : Session} (hs : s.Coherent) (hcheck : s.problem.check = .ok ()) {target : Target}
    {now : Moment} {d d' : Disk} {outcome : Outcome} (h : exportOn s target now d = (outcome, d')) {e : ExportError}
    (herror : outcome.result = .error e) : ∃ k, Classified s target d d' e k := by
  obtain ⟨k, hfails, hgrown⟩ := fails_of_exportOn hs hcheck h herror
  have hconfiguration := hfails.isConfigurationError_iff
  refine ⟨k, hfails, fun k' h' => h'.class_eq hfails, fun _ _ => hfails.once, hfails.not_isOfTemplate, hconfiguration,
    fun h => hgrown (hconfiguration.1 h), ?_, fun hio => ?_⟩
  · have hkind := hfails.kind
    unfold ExportError.exitCode
    rintro (rfl | hkind)
    · rcases hkind with hkind | hkind | hkind <;> rw [hkind]
    · rw [hkind]
  · unfold ExportError.exitCode
    rw [hio]

theorem classified_of_exportOn_unboundInterface :
    ∃ outcome d' e, exportOn unboundInterface { dir := ⟨""⟩ } ⟨0, 0, 0⟩ {} = (outcome, d') ∧
      outcome.result = .error e ∧ Classified unboundInterface { dir := ⟨""⟩ } {} d' e .artifact := by
  rcases hexport : exportOn unboundInterface { dir := ⟨""⟩ } ⟨0, 0, 0⟩ {} with ⟨outcome, d'⟩
  obtain ⟨e, herror⟩ := exists_error_unboundInterface hexport
  obtain ⟨k, hclass⟩ := classified_of_exportOn coherent_unboundInterface (by rfl) hexport herror
  obtain rfl : k = .artifact := by
    have hdir : makeTargetOn { dir := ⟨""⟩ } {} = (.ok (), {}) := by rfl
    have hsetup : ∃ s plan, unboundInterface.setup = .ok (s, plan) := ⟨_, _, by rfl⟩
    obtain ⟨s, plan, hsetup⟩ := hsetup
    exact hclass.fails.class_eq (.artifact hdir hsetup "" (.file .notFound))
  exact ⟨outcome, d', e, rfl, herror, hclass⟩

end ControlCodegen.Export
