import ControlCodegen.Proofs.Export.Success
import ControlCodegen.Proofs.Files.Journal

/-!
# `Export.Blame`: which artifact a failed export names

* `Run.Tracks` : a part of an export does the same with a journal as without one, and its errors go with the first
  failure in the journal.
* `Step.Fails`, `tracks_take` : the ways in which a step fails, each with the name that is given for it.
* `FileName.blamed` : under which name a file is reported that cannot be written.
* `names_failed_iff` : an export names the file that could not be written or read back, but for the files that are
  written together with a source and reported under its name.
-/

namespace ControlCodegen.Export

open Files

set_option autoImplicit false

/-! ## Parts of an export with and without a journal -/

section

variable {S α β : Type}

/-- What a part of an export comes to with a journal and without one. -/
inductive Run.Agree (Q : α → Progress → Prop) (R : ExportError → Option Journal.Failure → Prop) :
    (Except ExportError α × Progress) × Journal S → (Except ExportError α × Progress) × S → Prop where
  | ok (x : α) (σ : Progress) {j : Journal S} (hx : Q x σ) (h : j.failed? = none) :
    Agree Q R ((.ok x, σ), j) ((.ok x, σ), j.state)
  | error (e : ExportError) (σ : Progress) {j : Journal S} (h : R e j.failed?) :
    Agree Q R ((.error e, σ), j) ((.error e, σ), j.state)

/-- A part of an export that does the same with a journal as without one. If it succeeds then nothing has failed, and
if it fails then the journal goes with the error. -/
def Run.Tracks (σ : Progress) (j : Journal S) (a : Run (StateM (Journal S)) α) (b : Run (StateM S) α)
    (Q : α → Progress → Prop) (R : ExportError → Option Journal.Failure → Prop) : Prop :=
  Run.Agree Q R ((a.run.run σ).run j) ((b.run.run σ).run j.state)

theorem Run.run_bind (a : Run (StateM S) α) (f : α → Run (StateM S) β) (σ : Progress) (x : S) :
    ((a >>= f).run.run σ).run x =
      match (a.run.run σ).run x with
      | ((.ok y, σ'), x') => ((f y).run.run σ').run x'
      | ((.error e, σ'), x') => ((.error e, σ'), x') := by
  change StateT.run (StateT.run (ExceptT.bindCont f ((a.run.run σ).run x).1.1) ((a.run.run σ).run x).1.2)
    ((a.run.run σ).run x).2 = _
  rcases (a.run.run σ).run x with ⟨⟨e | y, σ'⟩, x'⟩ <;> rfl

theorem Run.run_attempt {σ : Progress} {x : S} (artifact : String) (a : Action (StateM S) Cause α) :
    ((attempt artifact a : Run (StateM S) α).run.run σ).run x =
      match a.run.run x with
      | (.ok y, x') => ((.ok y, σ), x')
      | (.error c, x') => ((.error (.unableToExport artifact (.plain c)), σ), x') := by
  have hlift : ((liftM a.run : Run (StateM S) (Except Cause α)).run.run σ).run x =
      ((.ok (a.run.run x).1, σ), (a.run.run x).2) := rfl
  unfold attempt
  rw [Run.run_bind, hlift]
  rcases a.run.run x with ⟨c | y, x'⟩ <;> rfl

variable {σ : Progress} {j : Journal S} {a : Run (StateM (Journal S)) α} {b : Run (StateM S) α}
  {Q : α → Progress → Prop} {R R' : ExportError → Option Journal.Failure → Prop}

theorem Run.Tracks.bind (h : Run.Tracks σ j a b Q R) {f : α → Run (StateM (Journal S)) β} {g : α → Run (StateM S) β}
    {Q' : β → Progress → Prop}
    (hf : ∀ x σ' (j' : Journal S), Q x σ' → j'.failed? = none → Run.Tracks σ' j' (f x) (g x) Q' R) :
    Run.Tracks σ j (a >>= f) (b >>= g) Q' R := by
  unfold Run.Tracks at h ⊢
  rw [Run.run_bind, Run.run_bind]
  generalize (a.run.run σ).run j = left, (b.run.run σ).run j.state = right at h ⊢
  cases h with
  | ok x σ' hx hnone => exact hf x σ' _ hx hnone
  | error e σ' he => exact .error e σ' he

theorem Run.Tracks.mono (h : Run.Tracks σ j a b Q R) (hR : ∀ e failure, R e failure → R' e failure) :
    Run.Tracks σ j a b Q R' := by
  unfold Run.Tracks at h ⊢
  generalize (a.run.run σ).run j = left, (b.run.run σ).run j.state = right at h ⊢
  cases h with
  | ok x σ' hx hnone => exact .ok x σ' hx hnone
  | error e σ' he => exact .error e σ' (hR e _ he)

/-- A step on files, whose failure is that of an artifact. -/
theorem Run.tracks_attempt {artifact : String} {a : Action (StateM (Journal S)) Cause α} {b : Action (StateM S) Cause α}
    {P : Cause → Option Journal.Failure → Prop} (h : Files.Tracks a b P) (hj : j.failed? = none)
    (hR : ∀ c failure, (b.run.run j.state).1 = .error c → P c failure →
      R (.unableToExport artifact (.plain c)) failure) :
    Run.Tracks σ j (attempt artifact a) (attempt artifact b) (fun _ σ' => σ' = σ) R := by
  have hagree := h j hj
  unfold Run.Tracks
  rw [Run.run_attempt, Run.run_attempt]
  generalize a.run.run j = left, b.run.run j.state = right at hagree hR ⊢
  cases hagree with
  | ok x hnone => exact .ok x σ rfl hnone
  | error c hc => exact .error _ σ (hR c _ rfl hc)

end

/-! ## The failures of a step -/

/-- The files that a step writes, each with the name under which it is reported if it cannot be written. -/
def Step.reports : Step → List (Path × String)
  | .produce _ blame drafts => drafts.map fun d => (d.path, blame)
  | .warn _ => []

/-- Why a step fails, and which failure of a file goes with it. -/
inductive Step.Fails (step : Step) : ExportError → Option Journal.Failure → Prop where
  /-- A file has no contents. -/
  | text {x : ArtifactKind × Draft} {artifact : String} {c : Cause} (hx : x ∈ step.drafts) (h : x.2.text = .error c) :
    Step.Fails step (.unableToExport artifact (.plain c)) none
  /-- A file cannot be written. -/
  | write {x : Path × String} {bytes : ByteArray} {e : FileError} (hx : x ∈ step.reports) :
    Step.Fails step (.unableToExport x.2 (.plain (.file e))) (some (.write x.1 bytes, e))
  /-- A file that was written cannot be read. -/
  | read {x : Path × String} {e : FileError} (hx : x ∈ step.reports) :
    Step.Fails step (.unableToExport x.1.shownName (.plain (.file e))) (some (.read x.1, e))

section

variable {S : Type} [FileSystem (StateM S)]

/-- A draft is not written because it has no contents, or because the file system refuses. -/
theorem tracks_write (d : Draft) : Files.Tracks (σ := S) d.write d.write fun c failure =>
    (d.text = .error c ∧ failure = none) ∨
      ∃ bytes e, c = .file e ∧ failure = some (.write d.path bytes, e) := by
  unfold Draft.write
  cases htext : d.text with
  | error c => exact tracks_throw (.inl ⟨rfl, rfl⟩)
  | ok text =>
    refine .adapt Cause.file ((tracks_writeText d.path text).mono fun e failure h => ?_)
    exact .inr ⟨_, e, rfl, h⟩

theorem tracks_record (s : Summary) (kind : ArtifactKind) (p : Path) :
    Files.Tracks (σ := S) ((s.record kind p).adapt Cause.file) ((s.record kind p).adapt Cause.file) fun c failure =>
      ∃ e, c = .file e ∧ failure = some (.read p, e) := by
  have hrecord : Files.Tracks (σ := S) (s.record kind p) (s.record kind p) fun e failure =>
      failure = some (.read p, e) := (tracks_read p).bind fun _ => tracks_pure _
  exact .adapt Cause.file (hrecord.mono fun e _ h => ⟨e, rfl, h⟩)

variable {σ : Progress} {j : Journal S} {step : Step}

theorem tracks_writes {kind : ArtifactKind} {blame : String} {drafts : List Draft}
    (hdrafts : ∀ d ∈ drafts, (kind, d) ∈ step.drafts ∧ (d.path, blame) ∈ step.reports) (hj : j.failed? = none) :
    Run.Tracks σ j (drafts.forM fun d => attempt blame d.write) (drafts.forM fun d => attempt blame d.write)
      (fun _ _ => True) step.Fails := by
  induction drafts generalizing σ j with
  | nil => exact .ok () σ trivial hj
  | cons d drafts ih =>
    rw [List.forall_mem_cons] at hdrafts
    have hfirst : Run.Tracks σ j (attempt blame d.write) (attempt blame d.write) (fun _ σ' => σ' = σ) step.Fails := by
      refine Run.tracks_attempt (tracks_write d) hj fun c failure _ hc => ?_
      rcases hc with ⟨htext, rfl⟩ | ⟨bytes, e, rfl, rfl⟩
      · exact .text hdrafts.1.1 htext
      · exact .write hdrafts.1.2
    exact hfirst.bind fun _ _ _ _ hj' => ih hdrafts.2 hj'

theorem tracks_records {kind : ArtifactKind} {drafts : List Draft} (s : Summary)
    (hdrafts : ∀ d ∈ drafts, ∃ blame, (d.path, blame) ∈ step.reports) (hj : j.failed? = none) :
    Run.Tracks σ j
      (drafts.foldlM (fun s d => attempt d.path.shownName ((s.record kind d.path).adapt Cause.file)) s)
      (drafts.foldlM (fun s d => attempt d.path.shownName ((s.record kind d.path).adapt Cause.file)) s)
      (fun _ _ => True) step.Fails := by
  induction drafts generalizing s σ j with
  | nil => exact .ok s σ trivial hj
  | cons d drafts ih =>
    rw [List.forall_mem_cons] at hdrafts
    obtain ⟨⟨blame, hblame⟩, hrest⟩ := hdrafts
    rw [List.foldlM_cons, List.foldlM_cons]
    refine (Run.tracks_attempt (tracks_record s kind d.path) hj ?_).bind fun s' _ _ _ hj' => ih s' hrest hj'
    rintro _ _ - ⟨e, rfl, rfl⟩
    exact Step.Fails.read (x := (d.path, blame)) hblame

/-- A step does the same with a journal as without one, and fails in one of these ways. -/
theorem tracks_take (step : Step) (s : Summary) (hj : j.failed? = none) :
    Run.Tracks σ j (step.take s) (step.take s) (fun _ _ => True) step.Fails := by
  cases step with
  | warn text => exact Run.Agree.ok (Q := fun _ _ => True) (s.warn text) (σ.1, σ.2 ++ [.warning text]) trivial hj
  | produce kind blame drafts =>
    have hdrafts : ∀ d ∈ drafts, (kind, d) ∈ (Step.produce kind blame drafts).drafts ∧
        (d.path, blame) ∈ (Step.produce kind blame drafts).reports := fun d hd =>
      ⟨List.mem_map_of_mem hd, List.mem_map_of_mem hd⟩
    refine (tracks_writes hdrafts hj).bind fun _ _ _ _ hj' => ?_
    exact tracks_records s (fun d hd => ⟨blame, (hdrafts d hd).2⟩) hj'

/-- The failures of several steps are those of the single ones. -/
theorem tracks_steps (ss : List Step) (s : Summary) (hj : j.failed? = none) :
    Run.Tracks σ j (ss.foldlM Step.take s) (ss.foldlM Step.take s) (fun _ _ => True) fun e failure =>
      ∃ step ∈ ss, step.Fails e failure := by
  induction ss generalizing s σ j with
  | nil => exact .ok s σ trivial hj
  | cons step ss ih =>
    rw [List.foldlM_cons, List.foldlM_cons]
    have hfirst : Run.Tracks σ j (step.take s) (step.take s) (fun _ _ => True) fun e failure =>
        ∃ step' ∈ step :: ss, step'.Fails e failure :=
      (tracks_take step s hj).mono fun _ _ h => ⟨step, List.mem_cons_self, h⟩
    refine hfirst.bind fun s' _ _ _ hj' => (ih s' hj').mono ?_
    rintro e failure ⟨step', hstep', h⟩
    exact ⟨step', List.mem_cons_of_mem step hstep', h⟩

end

/-! ## The failures of an export -/

/-- Why an export of a session fails, and which failure of a file goes with it. -/
inductive FailsWith {S : Type} [FileSystem (StateM S)] (s : Session) (target : Target) (x : S) :
    ExportError → Option Journal.Failure → Prop where
  /-- The directory cannot be made. -/
  | directory {e : FileError}
    (h : ((makeDirectories target.dir : Action (StateM S) FileError Unit).run.run x).1 = .error e) :
    FailsWith s target x (.unableToExport target.dir.text (.plain (.file e))) none
  /-- The session has no plan. -/
  | setup {c : Cause} (h : s.setup = .error c) : FailsWith s target x (.plain c) none
  /-- A step fails. -/
  | step {s' : Session} {plan : Plan} {step : Step} {e : ExportError} {failure : Option Journal.Failure}
    (hsetup : s.setup = .ok (s', plan)) (hstep : step ∈ steps plan s'.options target) (h : step.Fails e failure) :
    FailsWith s target x e failure

section

variable {S : Type} [FileSystem (StateM S)] {σ : Progress} {j : Journal S} {s : Session} {target : Target}

theorem tracks_makeTarget (hj : j.failed? = none) :
    Run.Tracks σ j (makeTarget target) (makeTarget target) (fun _ σ' => σ' = σ) (FailsWith s target j.state) := by
  have hmake : Files.Tracks (σ := S) ((makeDirectories target.dir).adapt Cause.file)
      ((makeDirectories target.dir).adapt Cause.file) fun _ failure => failure = none :=
    .adapt Cause.file (blameless_makeDirectories target.dir)
  refine Run.tracks_attempt hmake hj ?_
  rintro c _ hc rfl
  change ((makeDirectories target.dir : Action (StateM S) FileError Unit).run.run j.state).1.mapError Cause.file =
    .error c at hc
  cases hresult : ((makeDirectories target.dir : Action (StateM S) FileError Unit).run.run j.state).1 with
  | ok _ =>
    rw [hresult] at hc
    cases hc
  | error e =>
    rw [hresult] at hc
    obtain rfl := Except.error.inj hc
    exact .directory hresult

theorem tracks_setUp {told : List Message} {x : S} (hj : j.failed? = none) :
    Run.Tracks (s, told) j setUp setUp (fun plan σ => s.setup = .ok (σ.1, plan)) (FailsWith s target x) := by
  have hget : Run.Tracks (S := S) (s, told) j get get (fun y σ => y = (s, told) ∧ σ = (s, told))
      (FailsWith s target x) :=
    .ok _ _ ⟨rfl, rfl⟩ hj
  refine hget.bind ?_
  rintro _ _ j' ⟨rfl, rfl⟩ hj'
  dsimp only
  cases hsetup : s.setup with
  | error c =>
    refine Run.Agree.error (.plain c) (s, told) ?_
    rw [hj']
    exact .setup hsetup
  | ok found => exact Run.Agree.ok found.2 (found.1, told) rfl hj'

/-- An export does the same with a journal as without one, and fails in one of these ways. -/
theorem tracks_produce (s : Session) (target : Target) (now : Moment) (x : S) :
    Run.Tracks (s, []) ⟨x, []⟩ (produce target now) (produce target now) (fun _ _ => True) (FailsWith s target x) := by
  have htell {σ : Progress} {j : Journal S} (message : Message) (hj : j.failed? = none) :
      Run.Tracks σ j (tell message) (tell message) (fun _ σ' => σ'.1 = σ.1) (FailsWith s target x) :=
    Run.Agree.ok () (σ.1, σ.2 ++ [message]) rfl hj
  unfold produce
  change Run.Tracks (s, [.banner bannerText]) ⟨x, []⟩ (makeTarget target >>= _) (makeTarget target >>= _) _ _
  refine (tracks_makeTarget rfl).bind ?_
  rintro - _ j rfl hj
  refine (tracks_setUp hj).bind fun plan σ j hsetup hj => ?_
  have hget : Run.Tracks (S := S) σ j get get (fun y σ' => y = σ ∧ σ' = σ) (FailsWith s target x) :=
    .ok σ σ ⟨rfl, rfl⟩ hj
  refine hget.bind ?_
  rintro ⟨s', told⟩ _ j ⟨rfl, rfl⟩ hj
  have hsteps {σ : Progress} {j : Journal S} (hj : j.failed? = none) :
      Run.Tracks σ j ((steps plan s'.options target).foldlM Step.take _)
        ((steps plan s'.options target).foldlM Step.take _) (fun _ _ => True) (FailsWith s target x) :=
    (tracks_steps _ { moduleName := s'.options.moduleName, startedAt := now } hj).mono
      fun e failure ⟨step, hstep, h⟩ => .step hsetup hstep h
  dsimp only
  cases s'.dimensionsMessage with
  | none => exact hsteps hj
  | some text => exact (htell (.info text) hj).bind fun _ _ _ _ hj => hsteps hj

/-- The first file that could not be read or written, according to the journal of an export. -/
def firstFailure (s : Session) (target : Target) (now : Moment) (x : S) : Option Journal.Failure :=
  ((exportCode s target now : StateM (Journal S) Outcome).run ⟨x, []⟩).2.failed?

theorem run_exportCode (s : Session) (target : Target) (now : Moment) (x : S) :
    (exportCode s target now : StateM S Outcome).run x =
      let r := ((produce target now : Run (StateM S) Summary).run.run (s, [])).run x
      (⟨r.1.1, r.1.2.1, r.1.2.2⟩, r.2) :=
  rfl

/-- A journal does not change an export. -/
theorem exportCode_journal (s : Session) (target : Target) (now : Moment) (x : S) :
    (((exportCode s target now : StateM (Journal S) Outcome).run ⟨x, []⟩).1,
        ((exportCode s target now : StateM (Journal S) Outcome).run ⟨x, []⟩).2.state) =
      (exportCode s target now : StateM S Outcome).run x := by
  have htracks := tracks_produce s target now x
  unfold Run.Tracks at htracks
  rw [run_exportCode, run_exportCode]
  generalize ((produce target now : Run (StateM (Journal S)) Summary).run.run (s, [])).run ⟨x, []⟩ = left,
    ((produce target now : Run (StateM S) Summary).run.run (s, [])).run (Journal.mk x []).state = right at htracks ⊢
  cases htracks <;> rfl

/-- An export that fails does so in one of these ways. -/
theorem fails_of_error {now : Moment} {x x' : S} {outcome : Outcome}
    (h : (exportCode s target now : StateM S Outcome).run x = (outcome, x')) {e : ExportError}
    (herror : outcome.result = .error e) : FailsWith s target x e (firstFailure s target now x) := by
  have htracks := tracks_produce s target now x
  unfold Run.Tracks at htracks
  rw [run_exportCode] at h
  unfold firstFailure
  rw [run_exportCode]
  generalize ((produce target now : Run (StateM (Journal S)) Summary).run.run (s, [])).run ⟨x, []⟩ = left,
    ((produce target now : Run (StateM S) Summary).run.run (s, [])).run (Journal.mk x []).state = right at htracks h ⊢
  obtain ⟨rfl, -⟩ := Prod.mk.inj h
  cases htracks with
  | ok summary σ _ _ => cases herror
  | error e' σ hfails =>
    obtain rfl := Except.error.inj herror
    exact hfails

end

/-! ## Exports whose operations are known -/

section

variable {S : Type} [FileSystem (StateM S)] {σ : Progress} {x x' x'' : S} {kind : ArtifactKind} {path : Path}
  {text : String}

theorem run_attempt_write {blame : String} {e : Except FileError Unit}
    (hwrite : (FileSystem.write path text.toUTF8 : StateM S (Except FileError Unit)).run x = (e, x')) :
    ((attempt blame (Draft.write ⟨path, .ok text⟩) : Run (StateM S) Unit).run.run σ).run x =
      ((e.mapError fun e => .unableToExport blame (.plain (.file e)), σ), x') := by
  have hrun : (Draft.write ⟨path, .ok text⟩ : Action (StateM S) Cause Unit).run.run x =
      (e.mapError Cause.file, x') := by
    change (((FileSystem.write path text.toUTF8 : StateM S (Except FileError Unit)).run x).1.mapError Cause.file,
      ((FileSystem.write path text.toUTF8 : StateM S (Except FileError Unit)).run x).2) = _
    rw [hwrite]
  rw [Run.run_attempt, hrun]
  cases e <;> rfl

/-- A step whose file can be written and read. -/
theorem run_take_single (s : Summary) {bytes : ByteArray}
    (hwrite : (FileSystem.write path text.toUTF8 : StateM S (Except FileError Unit)).run x = (.ok (), x'))
    (hread : (FileSystem.read path : StateM S (Except FileError ByteArray)).run x' = (.ok bytes, x'')) :
    (((Step.single kind path (.ok text)).take s : Run (StateM S) Summary).run.run σ).run x =
      ((.ok { s with artifacts := s.artifacts ++ [.ofBytes kind path bytes] }, σ), x'') := by
  have hbytes : (Files.read path : Action (StateM S) FileError ByteArray).run.run x' = (.ok bytes, x'') := hread
  have hrun : (s.record kind path : Action (StateM S) FileError Summary).run.run x' =
      (.ok { s with artifacts := s.artifacts ++ [.ofBytes kind path bytes] }, x'') := by
    unfold Summary.record
    rw [run_bind, hbytes]
    rfl
  have hrecord : (((s.record kind path).adapt Cause.file : Action (StateM S) Cause Summary)).run.run x' =
      (.ok { s with artifacts := s.artifacts ++ [.ofBytes kind path bytes] }, x'') := by
    change (((s.record kind path : Action (StateM S) FileError Summary).run.run x').1.mapError Cause.file,
      ((s.record kind path : Action (StateM S) FileError Summary).run.run x').2) = _
    rw [hrun]
    rfl
  have htake : (Step.single kind path (.ok text)).take s = (do
      attempt path.shownName (Draft.write ⟨path, .ok text⟩)
      attempt path.shownName ((s.record kind path).adapt Cause.file) : Run (StateM S) Summary) := by
    unfold Step.single Step.take
    simp
  rw [htake, Run.run_bind, run_attempt_write hwrite]
  dsimp only [Except.mapError]
  rw [Run.run_attempt, hrecord]

/-- A step whose first file cannot be written. -/
theorem run_take_refused (s : Summary) {blame : String} {drafts : List Draft} {e : FileError}
    (hwrite : (FileSystem.write path text.toUTF8 : StateM S (Except FileError Unit)).run x = (.error e, x')) :
    (((Step.produce kind blame (⟨path, .ok text⟩ :: drafts)).take s : Run (StateM S) Summary).run.run σ).run x =
      ((.error (.unableToExport blame (.plain (.file e))), σ), x') := by
  have hwrites : (((⟨path, .ok text⟩ :: drafts).forM fun d => attempt blame d.write : Run (StateM S) Unit).run.run
      σ).run x = ((.error (.unableToExport blame (.plain (.file e))), σ), x') := by
    change (((attempt blame (Draft.write ⟨path, .ok text⟩) >>= fun _ => drafts.forM fun d => attempt blame d.write :
      Run (StateM S) Unit)).run.run σ).run x = _
    rw [Run.run_bind, run_attempt_write hwrite]
    rfl
  unfold Step.take
  rw [Run.run_bind, hwrites]


variable {s s' : Session} {plan : Plan}

/-- An export whose directory can be made and whose session has a plan comes to what its steps come to. -/
theorem run_produce (target : Target) (now : Moment) (hsetup : s.setup = .ok (s', plan))
    (hdir : (makeDirectories target.dir : Action (StateM S) FileError Unit).run.run x = (.ok (), x')) :
    ((produce target now : Run (StateM S) Summary).run.run (s, [])).run x =
      (((steps plan s'.options target).foldlM Step.take { moduleName := s'.options.moduleName, startedAt := now } :
        Run (StateM S) Summary).run.run (s', .banner bannerText :: infos s')).run x' := by
  have hmake : ((makeTarget target : Run (StateM S) Unit).run.run (s, [.banner bannerText])).run x =
      ((.ok (), s, [.banner bannerText]), x') := by
    have hadapt : ((makeDirectories target.dir).adapt Cause.file : Action (StateM S) Cause Unit).run.run x =
        (.ok (), x') := by
      change (((makeDirectories target.dir : Action (StateM S) FileError Unit).run.run x).1.mapError Cause.file,
        ((makeDirectories target.dir : Action (StateM S) FileError Unit).run.run x).2) = _
      rw [hdir]
      rfl
    unfold makeTarget
    rw [Run.run_attempt, hadapt]
  have hsetUp : ((setUp : Run (StateM S) Plan).run.run (s, [.banner bannerText])).run x' =
      ((.ok plan, s', [.banner bannerText]), x') := by
    unfold setUp
    have hget : ((get : Run (StateM S) Progress).run.run (s, [.banner bannerText])).run x' =
        ((.ok (s, [.banner bannerText]), s, [.banner bannerText]), x') := rfl
    rw [Run.run_bind, hget]
    dsimp only
    rw [hsetup]
    rfl
  unfold produce
  change ((makeTarget target >>= fun _ => _ : Run (StateM S) Summary).run.run (s, [.banner bannerText])).run x = _
  rw [Run.run_bind, hmake]
  dsimp only
  rw [Run.run_bind, hsetUp]
  dsimp only
  have hget : ((get : Run (StateM S) Progress).run.run (s', [.banner bannerText])).run x' =
      ((.ok (s', [.banner bannerText]), s', [.banner bannerText]), x') := rfl
  rw [Run.run_bind, hget]
  unfold infos
  dsimp only
  cases s'.dimensionsMessage <;> rfl

end

/-! ## Names -/

/-- The file under whose name a file is reported that cannot be written. -/
def FileName.blamed : FileName → FileName
  | ofModule "auxiliary_functions.h" => ofModule "auxiliary_functions.c"
  | ofModule "solver_sfunction.h" => ofModule "solver_sfunction.c"
  | script "solver_sfunction.m" => ofModule "solver_sfunction.c"
  | n => n

/-- The files that are written together with a source and reported under its name. -/
def FileName.companions : List FileName :=
  [.ofModule "auxiliary_functions.h", .ofModule "solver_sfunction.h", .script "solver_sfunction.m"]

theorem FileName.blamed_mem : ∀ n ∈ all, n.blamed ∈ all := by
  decide

theorem FileName.blamed_eq_iff : ∀ n ∈ all, (n.blamed = n ↔ n ∉ companions) := by
  decide

theorem shownName_place {n : FileName} (hn : n ∈ FileName.all) (target : Target) (m : ModuleName) :
    (place target (n.text m)).shownName = n.text m := by
  unfold Path.shownName
  rw [fileName_place (FileName.isFileName hn m)]
  rfl

section

variable {o : Options} {plan : Plan} {target : Target}

/-- A file of the selection, with the name under which it is reported. -/
def Reported (o : Options) (target : Target) (x : Path × String) : Prop :=
  ∃ y ∈ inventory o, x = (place target (y.2.text o.moduleName), y.2.blamed.text o.moduleName)

theorem reported_single {kind : ArtifactKind} {n : FileName} (hn : (kind, n) ∈ inventory o) (hself : n.blamed = n)
    {name : String} (hname : name = n.text o.moduleName) (text : Except Cause String) :
    ∀ x ∈ (Step.single kind (place target name) text).reports, Reported o target x := by
  intro x hx
  obtain rfl : x = (place target name, (place target name).shownName) := List.mem_singleton.1 hx
  refine ⟨(kind, n), hn, ?_⟩
  rw [hself, hname, shownName_place (mem_all_of_mem hn)]

theorem reported_auxiliaryStep : ∀ x ∈ (auxiliaryStep o target).reports, Reported o target x := by
  have hheader : o.moduleName.fileName "auxiliary_functions" "h" =
      (FileName.ofModule "auxiliary_functions.h").text o.moduleName := fileName_eq_text _ (by rfl)
  have hsource : o.moduleName.fileName "auxiliary_functions" "c" =
      (FileName.ofModule "auxiliary_functions.c").text o.moduleName := fileName_eq_text _ (by rfl)
  unfold auxiliaryStep
  dsimp only
  rw [hheader, hsource]
  intro x hx
  simp only [Step.reports, List.map_cons, List.map_nil, List.mem_cons, List.not_mem_nil, or_false] at hx
  rcases hx with rfl | rfl
  · exact ⟨(.auxiliaryFunctions, .ofModule "auxiliary_functions.h"), by simp [inventory], rfl⟩
  · exact ⟨(.auxiliaryFunctions, .ofModule "auxiliary_functions.c"), by simp [inventory], rfl⟩

theorem reported_simulinkStep (hname : plan.constants.moduleName = o.moduleName) (ho : o.simulinkInterface = true) :
    ∀ x ∈ (simulinkStep plan o target).reports, Reported o target x := by
  have hheader : o.moduleName.fileName "solver_sfunction" "h" =
      (FileName.ofModule "solver_sfunction.h").text o.moduleName := fileName_eq_text _ (by rfl)
  have hsource : o.moduleName.fileName "solver_sfunction" "c" =
      (FileName.ofModule "solver_sfunction.c").text o.moduleName := fileName_eq_text _ (by rfl)
  have hscript : s!"make_{o.moduleName}_solver_sfunction.m" =
      (FileName.script "solver_sfunction.m").text o.moduleName := make_eq_text _ (by rfl)
  unfold simulinkStep simulinkFiles
  rw [hname, hheader, hsource, hscript]
  cases hbackend : o.qpSolver.hasSFunction with
  | false => exact fun x hx => absurd hx List.not_mem_nil
  | true =>
    have hselected : o.qpSolver = .qpOases ∨ o.qpSolver = .qpDunes := hasSFunction_iff.1 hbackend
    intro x hx
    rw [if_neg (by decide)] at hx
    simp only [Step.reports, List.map_cons, List.map_nil, List.mem_cons, List.not_mem_nil, or_false] at hx
    rcases hx with rfl | rfl | rfl
    · exact ⟨(.simulinkInterface, .ofModule "solver_sfunction.h"), by simp [inventory, ho, hselected], rfl⟩
    · exact ⟨(.simulinkInterface, .ofModule "solver_sfunction.c"), by simp [inventory, ho, hselected], rfl⟩
    · exact ⟨(.simulinkInterface, .script "solver_sfunction.m"), by simp [inventory, ho, hselected], rfl⟩

theorem reported_mexSteps (ho : o.matlabInterface = true) {step : Step} (hstep : step ∈ mexSteps o target) :
    ∀ x ∈ step.reports, Reported o target x := by
  have hscript : s!"make_{o.moduleName}_solver.m" = (FileName.script "solver.m").text o.moduleName :=
    make_eq_text _ (by rfl)
  have hwrapper : (ArtifactKind.mexInterface, FileName.ofModule "solver_mex.c") ∈ inventory o := by
    simp [inventory, ho]
  unfold mexSteps at hstep
  dsimp only at hstep
  rw [mexWrapper_eq_text, hscript] at hstep
  split at hstep
  · obtain rfl := List.mem_singleton.1 hstep
    exact reported_single hwrapper rfl rfl _
  · rcases List.mem_cons.1 hstep with rfl | hstep
    · exact reported_single hwrapper rfl rfl _
    · obtain rfl := List.mem_singleton.1 hstep
      split
      · rename_i t hmex
        have hbackend : o.qpSolver ≠ .hpmpc := fun h => by
          rw [mexTemplate_eq_none_iff.2 h] at hmex
          cases hmex
        exact reported_single (n := .script "solver.m") (by simp [inventory, ho, hbackend]) rfl rfl _
      · exact fun x hx => absurd hx List.not_mem_nil

/-- All files that an export writes are reported under the names of their sources. -/
theorem reported_of_mem_steps (hname : plan.constants.moduleName = o.moduleName) {step : Step}
    (hstep : step ∈ steps plan o target) : ∀ x ∈ step.reports, Reported o target x := by
  unfold steps at hstep
  simp only [List.mem_append, List.mem_cons, List.not_mem_nil, or_false, List.mem_ite_nil_right] at hstep
  rcases hstep with (((((rfl | rfl | rfl | rfl) | ⟨ho, rfl⟩) | ⟨ho, rfl⟩) | ⟨ho, hstep⟩) | ⟨ho, rfl⟩) | ⟨ho, rfl⟩
  · exact reported_single (n := .ofModule "common.h") (by simp [inventory]) rfl (fileName_eq_text _ (by rfl)) _
  · exact reported_single (n := .ofModule "integrator.c") (by simp [inventory]) rfl (fileName_eq_text _ (by rfl)) _
  · exact reported_single (n := .ofModule "solver.c") (by simp [inventory]) rfl (fileName_eq_text _ (by rfl)) _
  · exact reported_auxiliaryStep
  · exact reported_single (n := .fixed "Makefile") (by simp [inventory, ho]) rfl rfl _
  · exact reported_single (n := .fixed "test.c") (by simp [inventory, ho]) rfl rfl _
  · exact reported_mexSteps ho hstep
  · exact reported_simulinkStep hname ho
  · exact reported_single (n := .ofModule "hessian_regularization.c") (by simp [inventory, ho]) rfl
      (fileName_eq_text _ (by rfl)) _

end

/-! ## Which artifact is named -/

/-- A regularization without contents has no dimension. -/
theorem kind_regularization {m : ModuleName} {dim : Nat} {c : Cause}
    (h : Regularization.text { moduleName := m, dim } = .error c) : c.kind ≠ .io := by
  cases dim with
  | zero =>
    obtain rfl : Cause.regularizationDimension = c := Except.error.inj h
    decide
  | succ n =>
    obtain ⟨text, htext⟩ := Regularization.exists_text m (Nat.succ_pos n)
    cases htext.symm.trans h

/-- A file that has no contents is not missed by the file system. -/
theorem kind_of_text_error {p : Problem} {o : Options} {r : Integrator.Registry} {plan : Plan} {target : Target}
    (hplan : Plan.resolve p o r = .ok plan) (hname : plan.constants.moduleName = o.moduleName) {step : Step}
    (hstep : step ∈ steps plan o target) {x : ArtifactKind × Draft} (hx : x ∈ step.drafts) {c : Cause}
    (htext : x.2.text = .error c) : c.kind ≠ .io := by
  obtain ⟨a, ha, rfl⟩ := List.mem_map.1 ((sublist_steps hname).subset (List.mem_flatMap.2 ⟨step, hstep, hx⟩))
  rcases hasText_or_eq hplan ha target.types target.precision with hhas | rfl
  · cases hhas with
    | text s _ h => cases htext.symm.trans h
    | matlab _ _ _ h | simulink _ _ _ h =>
      obtain rfl := Except.error.inj (htext.symm.trans h)
      decide
  · exact kind_regularization htext

/-- A name is that of the file that could not be written or read. -/
def Names (artifact : String) (failure : Option Journal.Failure) : Prop :=
  ∃ op e, failure = some (op, e) ∧ op.path.fileName? = some artifact

/-- A file could not be written that is reported under the name of a source. -/
def OfCompanion (o : Options) (target : Target) (failure : Option Journal.Failure) : Prop :=
  ∃ n ∈ FileName.companions, ∃ bytes e, failure = some (.write (place target (n.text o.moduleName)) bytes, e)

/-- A file that cannot be written is named unless it is reported under the name of a source. -/
theorem names_write_iff {o : Options} {n : FileName} (hn : n ∈ FileName.all) (target : Target) (bytes : ByteArray)
    (e : FileError) :
    Names (n.blamed.text o.moduleName) (some (.write (place target (n.text o.moduleName)) bytes, e)) ↔
      ¬OfCompanion o target (some (.write (place target (n.text o.moduleName)) bytes, e)) := by
  have hnames : Names (n.blamed.text o.moduleName) (some (.write (place target (n.text o.moduleName)) bytes, e)) ↔
      n.blamed = n := by
    constructor
    · rintro ⟨op, e', h, hname⟩
      obtain ⟨rfl, -⟩ := Prod.mk.inj (Option.some.inj h)
      exact FileName.text_inj (FileName.blamed_mem n hn) hn
        (Option.some.inj (hname.symm.trans (fileName_place (FileName.isFileName hn o.moduleName) target)))
    · intro h
      rw [h]
      exact ⟨_, e, rfl, fileName_place (FileName.isFileName hn o.moduleName) target⟩
  have hcompanion : OfCompanion o target (some (.write (place target (n.text o.moduleName)) bytes, e)) ↔
      n ∈ FileName.companions := by
    constructor
    · rintro ⟨n', hn', bytes', e', h⟩
      obtain ⟨hop, -⟩ := Prod.mk.inj (Option.some.inj h)
      have hall : n' ∈ FileName.all := (by decide : FileName.companions ⊆ FileName.all) hn'
      rw [FileName.text_inj hn hall (place_inj (FileName.isFileName hn _) (FileName.isFileName hall _)
        (Operation.write.inj hop).1)]
      exact hn'
    · exact fun h => ⟨n, h, bytes, e, rfl⟩
  rw [hnames, hcompanion]
  exact FileName.blamed_eq_iff n hn

/-- A file that cannot be read back is named. -/
theorem names_read {n : FileName} (hn : n ∈ FileName.all) (o : Options) (target : Target) (e : FileError) :
    Names (place target (n.text o.moduleName)).shownName (some (.read (place target (n.text o.moduleName)), e)) ∧
      ¬OfCompanion o target (some (.read (place target (n.text o.moduleName)), e)) := by
  rw [shownName_place hn]
  refine ⟨⟨_, e, rfl, fileName_place (FileName.isFileName hn o.moduleName) target⟩, ?_⟩
  rintro ⟨n', -, bytes, e', h⟩
  cases (Prod.mk.inj (Option.some.inj h)).1

/-- An export that fails on the file system once its directory is made and its session set up names the first file that
could not be written or read back, unless that file could not be written and is reported under the name of a source. -/
theorem names_failed_iff {S : Type} [FileSystem (StateM S)] {s : Session} (hs : s.Coherent) {target : Target}
    {now : Moment} {x x' : S} {outcome : Outcome}
    (hdir : ((makeDirectories target.dir : Action (StateM S) FileError Unit).run.run x).1 = .ok ())
    (h : (exportCode s target now : StateM S Outcome).run x = (outcome, x')) {artifact : String}
    {source : ExportError} (herror : outcome.result = .error (.unableToExport artifact source))
    (hio : source.rootCause.kind = .io) :
    Names artifact (firstFailure s target now x) ↔
      ¬OfCompanion s.options target (firstFailure s target now x) := by
  have hfails := fails_of_error h herror
  generalize firstFailure s target now x = failure at hfails ⊢
  cases hfails with
  | directory hfailed => cases hdir.symm.trans hfailed
  | step hsetup hstep hfails =>
    have hname := moduleName_of_setup hs hsetup
    obtain ⟨hplan, rfl⟩ := hs.setup_ok hsetup
    cases hfails with
    | text hx htext => exact absurd hio (kind_of_text_error hplan hname hstep hx htext)
    | write hx =>
      obtain ⟨y, hy, rfl⟩ := reported_of_mem_steps hname hstep _ hx
      exact names_write_iff (mem_all_of_mem hy) target _ _
    | read hx =>
      obtain ⟨y, hy, rfl⟩ := reported_of_mem_steps hname hstep _ hx
      obtain ⟨hnames, hcompanion⟩ := names_read (mem_all_of_mem hy) s.options target _
      exact iff_of_true hnames hcompanion

/-! ## Directories in the way -/

/-- The small problem with the standard options. -/
def smallSession : Session := { problem := smallProblem, options := {} }

/-- The working directory. -/
def workingTarget : Target := { dir := ⟨""⟩ }

/-- A tree with a directory of a given name. -/
def treeWith (name : String) : Tree := { entries := [([name], .directory)] }

/-- The first files of the small problem. -/
theorem steps_smallSession : ∃ s plan auxiliary drafts header integrator solver rest,
    smallSession.setup = .ok (s, plan) ∧
      steps plan s.options workingTarget =
        .single .commonHeader ⟨"acado_common.h"⟩ (.ok header) ::
        .single .integratorSource ⟨"acado_integrator.c"⟩ (.ok integrator) ::
        .single .solverSource ⟨"acado_solver.c"⟩ (.ok solver) ::
        .produce .auxiliaryFunctions "acado_auxiliary_functions.c"
          (⟨⟨"acado_auxiliary_functions.h"⟩, .ok auxiliary⟩ :: drafts) :: rest := by
  obtain ⟨s, plan, hsetup⟩ : ∃ s plan, smallSession.setup = .ok (s, plan) := ⟨_, _, by rfl⟩
  have hresolve := (Session.coherent_of_none rfl).setup_ok hsetup
  obtain ⟨hplan, rfl⟩ := hresolve
  obtain ⟨g, k, -, rfl, -⟩ := Plan.resolve_assemble hplan
  obtain ⟨auxiliary, htext⟩ := exists_text_copy (o := {}) (t := .auxiliaryHeader) rfl "" .auxiliaryFunctions
    (.ofModule "auxiliary_functions.h") (Plan.assemble smallProblem {} k g) {} 16
  have hauxiliary : ∃ drafts, auxiliaryStep {} workingTarget =
      .produce .auxiliaryFunctions "acado_auxiliary_functions.c"
        (⟨⟨"acado_auxiliary_functions.h"⟩, .ok auxiliary⟩ :: drafts) := by
    unfold auxiliaryStep
    rw [← htext]
    exact ⟨_, rfl⟩
  obtain ⟨drafts, hdrafts⟩ := hauxiliary
  have hsteps : ∃ header integrator solver rest, steps (Plan.assemble smallProblem {} k g) {} workingTarget =
      .single .commonHeader ⟨"acado_common.h"⟩ (.ok header) ::
      .single .integratorSource ⟨"acado_integrator.c"⟩ (.ok integrator) ::
      .single .solverSource ⟨"acado_solver.c"⟩ (.ok solver) :: auxiliaryStep {} workingTarget :: rest :=
    ⟨_, _, _, _, rfl⟩
  rw [hdrafts] at hsteps
  obtain ⟨header, integrator, solver, rest, hsteps⟩ := hsteps
  exact ⟨_, _, auxiliary, drafts, header, integrator, solver, rest, hsetup, hsteps⟩

/-- A header that is a directory is named. -/
theorem names_failed_iff_smallSession : ∃ outcome t source,
    (exportCode smallSession workingTarget ⟨0, 0, 0⟩ : StateM Tree Outcome).run (treeWith "acado_common.h") =
        (outcome, t) ∧
      outcome.result = .error (.unableToExport "acado_common.h" source) ∧
      (Names "acado_common.h" (firstFailure smallSession workingTarget ⟨0, 0, 0⟩ (treeWith "acado_common.h")) ↔
        ¬OfCompanion smallSession.options workingTarget
          (firstFailure smallSession workingTarget ⟨0, 0, 0⟩ (treeWith "acado_common.h"))) := by
  obtain ⟨s, plan, auxiliary, drafts, header, integrator, solver, rest, hsetup, hsteps⟩ := steps_smallSession
  have hrun := run_produce (S := Tree) (x := treeWith "acado_common.h") workingTarget ⟨0, 0, 0⟩ hsetup rfl
  have hexport := run_exportCode smallSession workingTarget ⟨0, 0, 0⟩ (treeWith "acado_common.h")
  rw [hsteps, List.foldlM_cons, Run.run_bind, Step.single, run_take_refused _ rfl] at hrun
  rw [hrun] at hexport
  exact ⟨_, _, _, hexport, rfl, names_failed_iff (Session.coherent_of_none rfl) rfl hexport rfl rfl⟩

/-- An auxiliary header that is a directory is not named, but the source that has not been written yet. -/
theorem misnamed_auxiliaryHeader : ∃ outcome t bytes,
    (exportCode smallSession workingTarget ⟨0, 0, 0⟩ : StateM Tree Outcome).run
        (treeWith "acado_auxiliary_functions.h") = (outcome, t) ∧
      outcome.result = .error (.unableToExport "acado_auxiliary_functions.c" (.plain (.file .isDirectory))) ∧
      firstFailure smallSession workingTarget ⟨0, 0, 0⟩ (treeWith "acado_auxiliary_functions.h") =
        some (.write ⟨"acado_auxiliary_functions.h"⟩ bytes, .isDirectory) ∧
      ¬Names "acado_auxiliary_functions.c"
        (firstFailure smallSession workingTarget ⟨0, 0, 0⟩ (treeWith "acado_auxiliary_functions.h")) := by
  obtain ⟨s, plan, auxiliary, drafts, header, integrator, solver, rest, hsetup, hsteps⟩ := steps_smallSession
  have hrun := run_produce (S := Journal Tree) (x := ⟨treeWith "acado_auxiliary_functions.h", []⟩) workingTarget
    ⟨0, 0, 0⟩ hsetup rfl
  rw [hsteps, List.foldlM_cons, Run.run_bind, run_take_single _ rfl rfl] at hrun
  dsimp only at hrun
  rw [List.foldlM_cons, Run.run_bind, run_take_single _ rfl rfl] at hrun
  dsimp only at hrun
  rw [List.foldlM_cons, Run.run_bind, run_take_single _ rfl rfl] at hrun
  dsimp only at hrun
  rw [List.foldlM_cons, Run.run_bind, run_take_refused _ rfl] at hrun
  have hsame := exportCode_journal smallSession workingTarget ⟨0, 0, 0⟩ (treeWith "acado_auxiliary_functions.h")
  have hfailure : firstFailure smallSession workingTarget ⟨0, 0, 0⟩ (treeWith "acado_auxiliary_functions.h") =
      some (.write ⟨"acado_auxiliary_functions.h"⟩ auxiliary.toUTF8, .isDirectory) := by
    unfold firstFailure
    rw [run_exportCode, hrun]
    rfl
  rw [run_exportCode, hrun] at hsame
  refine ⟨_, _, _, hsame.symm, rfl, hfailure, ?_⟩
  rw [hfailure]
  rintro ⟨op, e, h, hname⟩
  obtain ⟨rfl, -⟩ := Prod.mk.inj (Option.some.inj h)
  have hother : (⟨"acado_auxiliary_functions.h"⟩ : Files.Path).fileName? ≠ some "acado_auxiliary_functions.c" := by
    decide
  exact hother hname

end ControlCodegen.Export
