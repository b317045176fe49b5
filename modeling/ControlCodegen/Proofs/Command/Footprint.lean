import ControlCodegen.Proofs.Command.Preparation
import ControlCodegen.Proofs.Export.Footprint
import ControlCodegen.Proofs.Export.Verification

/-!
# `Command.Footprint`: what the commands change of a disk

* `Still`, `Quiet` : steps and runs that leave every disk as it is.
* `ExportRequest.Leaves`, `CreateRequest.Leaves`, `Request.Leaves` : what a command may leave of a disk.
* `leaves_on` : no command leaves anything else.
* `leaves_runProgram` : neither does the program, whatever it is called with.
-/

namespace ControlCodegen.Command

set_option autoImplicit false

open Export Files

/-! ## Runs that change nothing -/

section

variable {α β : Type}

/-- A step that leaves every disk as it is. -/
def Still (a : StateM Disk α) : Prop := ∀ d, (a.run d).2 = d

theorem Still.bind {a : StateM Disk α} {f : α → StateM Disk β} (ha : Still a) (hf : ∀ x, Still (f x)) :
    Still (a >>= f) := by
  intro d
  change ((f (a.run d).1).run (a.run d).2).2 = d
  rw [hf, ha]

/-- A run that leaves every disk as it is, whatever it prints. -/
def Quiet (a : Printing (StateM Disk) α) : Prop := ∀ t, Still (a.run t)

theorem quiet_pure (x : α) : Quiet (pure x) := fun _ _ => rfl

theorem quiet_say (texts : List String) : Quiet (say texts) := fun _ _ => rfl

theorem quiet_complain (text : String) : Quiet (complain text) := fun _ _ => rfl

theorem quiet_lift {a : StateM Disk α} (h : Still a) : Quiet (StateT.lift a) := fun _ d => h d

theorem Quiet.after {a : Printing (StateM Disk) α} (h : Quiet a) (t : Transcript) (d : Disk) :
    (Printing.after a t d).2 = d :=
  h t d

/-- What is quiet afterwards does not matter. -/
theorem after_bind_of_quiet (a : Printing (StateM Disk) α) {f : α → Printing (StateM Disk) β} (hf : ∀ x, Quiet (f x))
    (t : Transcript) (d : Disk) : (Printing.after (a >>= f) t d).2 = (Printing.after a t d).2 := by
  rw [Printing.after_bind, (hf _).after]

theorem Quiet.bind {a : Printing (StateM Disk) α} {f : α → Printing (StateM Disk) β} (ha : Quiet a)
    (hf : ∀ x, Quiet (f x)) : Quiet (a >>= f) := by
  intro t d
  change (Printing.after (a >>= f) t d).2 = d
  rw [after_bind_of_quiet a hf, ha.after]

end

theorem still_readText (p : Path) : Still (readText p : Action (StateM Disk) FileError String).run := by
  intro d
  change (d.after (readText p)).2 = d
  unfold readText
  rw [Disk.after_bind, Disk.after_read]
  cases d.read p with
  | error e => rfl
  | ok bytes =>
    dsimp only
    cases String.fromUTF8? bytes <;> rfl

/-- Files of variables are looked for and read. -/
theorem still_loadFrom (env : Environment) (ps : List Path) : Still (Environment.File.loadFrom env ps) := by
  induction ps with
  | nil => exact fun _ => rfl
  | cons p ps ih =>
    have hcontains : Still (FileSystem.contains p) := fun _ => rfl
    have hdirectory : Still (FileSystem.isDirectory p) := fun _ => rfl
    unfold Environment.File.loadFrom
    refine hcontains.bind fun there => hdirectory.bind fun directory => ?_
    split
    · refine (still_readText p).bind fun text => ?_
      cases text <;> exact fun _ => rfl
    · exact ih

/-- A clock that goes as it likes. -/
def ticking (clock : Disk → Moment) : StateM Disk Moment := fun d => (clock d, d)

theorem quiet_now (clock : Disk → Moment) : Quiet (StateT.lift (ticking clock)) := quiet_lift fun _ => rfl

/-- Verification reads the files. -/
theorem quiet_verifyFiles (r : ExportRequest) (s : Summary) (clock : Disk → Moment) :
    Quiet (r.verifyFiles s (ticking clock)) := by
  unfold ExportRequest.verifyFiles
  split
  · refine (quiet_now clock).bind fun begun => (quiet_lift fun d => ?_).bind fun report => ?_
    · exact congrArg Prod.snd (verifyOn_eq s begun d)
    · exact (quiet_now clock).bind fun ended => (quiet_say _).bind fun _ => quiet_pure _
  · exact quiet_pure _

/-! ## What commands leave -/

/-- The export of a project on a disk. -/
def exported (p : Project) (now : Moment) (d : Disk) : Outcome × Disk :=
  exportOn { problem := p.problem, options := p.options } (targetOf p.output) now d

/-- What the export of a project leaves. -/
structure ExportRequest.Leaves (r : ExportRequest) (p : Project) (now : Moment) (d d' : Disk) : Prop where
  footprint : Footprint p.options ⟨p.output.folder⟩ d (exported p now d).2
  /-- Then there may be a report, but only if all files of the export are there. -/
  report : d' = (exported p now d).2 ∨ ∃ path text summary s plan, r.report = some path ∧
    (exported p now d).1.result = .ok summary ∧
    Session.setup { problem := p.problem, options := p.options } = .ok (s, plan) ∧
    AllStand p.options plan (targetOf p.output) (exported p now d).2 ∧
    (exported p now d).2.Written [(⟨path⟩, String.toUTF8 text)] d'

/-- What a new project file leaves. -/
structure CreateRequest.Leaves (r : CreateRequest) (d d' : Disk) : Prop where
  written : d' = d ∨ d.Written [(⟨r.path⟩, (sampleText r.withExamples).toUTF8)] d'
  /-- What is there stays unless it may be overwritten. It has to be seen, if it may be written at all. -/
  kept : r.force = false → (∃ l, d.tree.LeadsTo ⟨r.path⟩ l) →
    (∀ bytes, d.refusal (.write ⟨r.path⟩ bytes) = none → d.refusal (.look ⟨r.path⟩) = none) → d' = d

/-- What a command may leave of a disk. -/
def Request.Leaves (r : Request) (env : Environment) (config : Path) (clock : Disk → Moment) (d d' : Disk) : Prop :=
  match r with
  | .validate | .plan _ => d' = d
  | .create r => r.Leaves d d'
  | .exportCode r => d' = d ∨ ∃ p, Begins r env config d p ∧ r.Leaves p (clock d) d d'

section

variable {env : Environment} {config : Path} {clock : Disk → Moment} {d : Disk}

/-- A text is written to its path, or nothing is. -/
theorem after_writeText_cases (p : Path) (text : String) (d : Disk) :
    (d.after (writeText p text : Action (StateM Disk) FileError Unit)).2 = d ∨
      d.Written [(p, text.toUTF8)] (d.after (writeText p text : Action (StateM Disk) FileError Unit)).2 := by
  rw [Disk.after_writeText]
  cases h : d.write p text.toUTF8 with
  | error e => exact .inl rfl
  | ok t => exact .inr (Disk.written_write h)

/-! ## Export -/

/-- The report is all that is written behind an export. -/
theorem after_finish (r : ExportRequest) (s : Summary) (t : Transcript) (d : Disk) :
    (Printing.after (r.finish s (ticking clock)) t d).2 = d ∨ ∃ path text, r.report = some path ∧
      d.Written [(⟨path⟩, String.toUTF8 text)] (Printing.after (r.finish s (ticking clock)) t d).2 := by
  have hreport : (Printing.after (r.finish s (ticking clock)) t d).2 =
      (Printing.after (r.writeReport s) (Printing.after (say (summaryLines s)) t d).1.2 d).2 := by
    unfold ExportRequest.finish
    rw [Printing.after_bind, after_bind_of_quiet, (quiet_say _).after]
    intro written
    split
    · exact quiet_pure _
    · refine (quiet_verifyFiles r s clock).bind fun verified => ?_
      split
      · exact quiet_pure _
      · exact (quiet_say _).bind fun _ => quiet_pure _
  rw [hreport]
  unfold ExportRequest.writeReport
  cases r.report with
  | none => exact .inl rfl
  | some path =>
    dsimp only
    rw [after_bind_of_quiet, Printing.after_outcome]
    · exact (after_writeText_cases ⟨path⟩ s.toJson d).imp_right fun h => ⟨path, s.toJson, rfl, h⟩
    · intro result
      cases result with
      | error e => exact (quiet_complain _).bind fun _ => quiet_pure _
      | ok u => exact (quiet_say _).bind fun _ => quiet_pure _

/-- What follows an export. -/
def ExportRequest.conclude (r : ExportRequest) (begun : Moment) (result : Except ExportError Summary)
    (now : StateM Disk Moment) : Printing (StateM Disk) Nat :=
  match result with
  | .error e => do
    complain s!"❌ Export failed: {e.message}"
    return e.exitCode
  | .ok s => do r.finish { s with duration := (← StateT.lift now).since begun } now

/-- What an export changes is changed by the export itself or, if that succeeds, behind it. -/
theorem after_carryOut (r : ExportRequest) (p : Project) (clock : Disk → Moment) (d : Disk) :
    (Printing.after (r.carryOut p (ticking clock)) [] d).2 = (exported p (clock d) d).2 ∨
      ∃ summary s t, (exported p (clock d) d).1.result = .ok summary ∧
        (Printing.after (r.carryOut p (ticking clock)) [] d).2 =
          (Printing.after (r.finish s (ticking clock)) t (exported p (clock d) d).2).2 := by
  have hcarry : Printing.after (r.carryOut p (ticking clock)) [] d =
      Printing.after (r.conclude (clock d) (exported p (clock d) d).1.result (ticking clock))
        [.out s!"🚀 Exporting to {p.output.folder}", .out ""] (exported p (clock d) d).2 := rfl
  rw [hcarry]
  cases (exported p (clock d) d).1.result with
  | error e => exact .inl (((quiet_complain _).bind fun _ => quiet_pure _).after _ _)
  | ok summary =>
    right
    unfold ExportRequest.conclude
    dsimp only
    rw [Printing.after_bind, (quiet_now clock).after]
    exact ⟨summary, _, _, rfl, rfl⟩

theorem leaves_carryOut (r : ExportRequest) (p : Project) (clock : Disk → Moment) (d : Disk) :
    r.Leaves p (clock d) d (Printing.after (r.carryOut p (ticking clock)) [] d).2 := by
  let s : Session := { problem := p.problem, options := p.options }
  have hs : s.Coherent := Session.coherent_of_none rfl
  have hexport : exportOn s (targetOf p.output) (clock d) d =
      ((exported p (clock d) d).1, (exported p (clock d) d).2) := rfl
  refine ⟨footprint_exportOn hs hexport, ?_⟩
  rcases after_carryOut r p clock d with hsame | ⟨summary, final, t, hresult, hafter⟩
  · exact .inl hsame
  · obtain ⟨s', plan, hsetup, hall⟩ := allStand_of_ok hs hexport hresult
    rw [hafter]
    refine (after_finish r final t _).imp_right fun ⟨path, text, hreport, hwritten⟩ => ?_
    exact ⟨path, text, summary, s', plan, hreport, hresult, hsetup, hall, hwritten⟩

theorem leaves_export (r : ExportRequest) (env : Environment) (config : Path) (clock : Disk → Moment) (d : Disk) :
    Request.Leaves (.exportCode r) env config clock d (Printing.after (r.run env config (ticking clock)) [] d).2 := by
  rw [run_eq_prepare, Printing.after_bind]
  cases hprepared : (Printing.after (r.prepare env config) [] d).1.1 with
  | error code =>
    left
    dsimp only
    rw [(quiet_pure code).after, after_prepare]
    cases Project.loaded env config d with
    | error c => rfl
    | ok p =>
      dsimp only
      cases r.options p.options <;> rfl
  | ok p =>
    right
    have hprepare := after_prepare_of_begins hprepared
    rw [hprepare]
    exact ⟨p, hprepared, leaves_carryOut r p clock d⟩

/-! ## New project files -/

theorem leaves_create (r : CreateRequest) (d : Disk) : r.Leaves d (Printing.after r.run [] d).2 := by
  let there : Bool := (d.refusal (.look ⟨r.path⟩)).isNone && d.tree.contains ⟨r.path⟩
  have hrun : (Printing.after r.run [] d).2 =
      if (there && !r.force) = true then d
      else (d.after (writeText ⟨r.path⟩ (sampleText r.withExamples) : Action (StateM Disk) FileError Unit)).2 := by
    unfold CreateRequest.run
    rw [Printing.after_bind, Printing.after_bind]
    change (Printing.after (if (there && !r.force) = true then _ else _) _ d).2 = _
    split
    · exact ((quiet_say _).bind fun _ => quiet_pure _).after _ d
    · rw [after_bind_of_quiet, Printing.after_outcome]
      intro result
      cases result with
      | error e => exact (quiet_say _).bind fun _ => quiet_pure _
      | ok u => exact (quiet_say _).bind fun _ => quiet_pure _
  rw [hrun]
  refine ⟨?_, fun hforce hleads hseen => ?_⟩
  · split
    · exact .inl rfl
    · exact after_writeText_cases _ _ d
  · split
    · rfl
    · rename_i hthere
      rw [Disk.after_writeText]
      cases hwrite : d.write ⟨r.path⟩ (sampleText r.withExamples).toUTF8 with
      | error e => rfl
      | ok t =>
        -- what can be written is seen, so it would not have been written
        obtain ⟨hrefusal, hok⟩ := Disk.allow_eq_ok_iff.1 hwrite
        obtain ⟨l, hleads⟩ := hleads
        have hcontains := Tree.contains_of_leadsTo hleads (Tree.write_ok hok).1
        refine absurd ?_ hthere
        change ((d.refusal (.look ⟨r.path⟩)).isNone && d.tree.contains ⟨r.path⟩ && !r.force) = true
        rw [hseen _ hrefusal, hcontains, hforce]
        rfl

/-! ## All commands -/

theorem leaves_on (r : Request) (env : Environment) (config : Path) (clock : Disk → Moment) (d : Disk) :
    r.Leaves env config clock d (r.on env config clock d).2 := by
  cases r with
  | exportCode r => exact leaves_export r env config clock d
  | validate => exact congrArg Prod.snd on_validate
  | plan constants => exact congrArg Prod.snd (on_plan constants)
  | create r => exact leaves_create r d

theorem Request.leaves_refl (r : Request) : r.Leaves env config clock d d := by
  cases r with
  | exportCode r => exact .inl rfl
  | validate => rfl
  | plan constants => rfl
  | create r => exact ⟨.inl rfl, fun _ _ _ => rfl⟩

/-- Log files are not wanted, so making ready for them changes nothing. -/
theorem after_prepareLogging (level : String) (d : Disk) :
    d.after (({} : Logging).prepare level : Action (StateM Disk) Cause Unit) =
      (if Logging.isLevel level = true then .ok () else .error (.invalidLogLevel level), d) := by
  unfold Logging.prepare
  cases Logging.isLevel level <;> rfl

theorem quiet_report (e : UsageError) : Quiet (e.report : Printing (StateM Disk) Nat) := by
  unfold UsageError.report
  split
  · exact (quiet_say _).bind fun _ => quiet_pure _
  · exact (quiet_complain _).bind fun _ => quiet_pure _

/-- The environment with the variables of the files on a disk. -/
def environmentOn (env : Environment) (levels : Nat) (d : Disk) : Environment :=
  ((Environment.File.load env levels : StateM Disk Environment).run d).1

/-- Whatever the program is called with, it changes of a disk what its command may change. -/
theorem leaves_runProgram (env : Environment) (levels : Nat) (clock : Disk → Moment) (args : List String) (d : Disk) :
    match Arguments.read (environmentOn env levels d) args with
    | .error _ => (Printing.after (runProgram env levels (ticking clock) args) [] d).2 = d
    | .ok a => a.request.Leaves (environmentOn env levels d) ⟨a.config⟩ clock d
      (Printing.after (runProgram env levels (ticking clock) args) [] d).2 := by
  have hload : (Printing.after (StateT.lift (Environment.File.load env levels)) [] d) =
      ((environmentOn env levels d, []), d) :=
    congrArg (Prod.mk _) (still_loadFrom env _ d)
  unfold runProgram
  rw [Printing.after_bind, hload]
  dsimp only
  cases Arguments.read (environmentOn env levels d) args with
  | error e =>
    exact (quiet_report e).after _ d
  | ok a =>
    dsimp only
    unfold Arguments.run
    rw [Printing.after_bind, Printing.after_outcome, after_prepareLogging]
    dsimp only
    split
    · exact (((quiet_complain _).bind fun _ => quiet_pure _).after _ d).symm ▸ a.request.leaves_refl
    · exact leaves_on a.request _ _ clock d

end

end ControlCodegen.Command
