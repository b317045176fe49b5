import ControlCodegen.Command.Run
import ControlCodegen.Proofs.Export.Acceptance
import ControlCodegen.Proofs.Project.Load

/-!
# `Command.Agreement`: validation, plan and export of one project file

* `Request.on` : a command on a disk, with its exit code.
* `on_validate`, `on_plan`, `on_export` : the exit codes, by what comes of the project file, of its setup and of its
  export.
* `Agree`, `agree_on` : how far the commands get with a project file, if its folder takes all files.
-/

namespace ControlCodegen.Command

set_option autoImplicit false

open Export Files

/-! ## Commands on a disk -/

section

variable {α : Type}

/-- What a run that prints comes to. -/
def Printing.after (a : Printing (StateM Disk) α) (t : Transcript) (d : Disk) : (α × Transcript) × Disk := (a.run t).run d

theorem Printing.after_outcome {ε : Type} (a : Action (StateM Disk) ε α) (t : Transcript) (d : Disk) :
    Printing.after (outcome a) t d = (((d.after a).1, t), (d.after a).2) :=
  rfl

end

/-- The exit code of a run, and the disk after it. -/
def Printing.exit (a : Printing (StateM Disk) Nat) (t : Transcript) (d : Disk) : Nat × Disk :=
  ((Printing.after a t d).1.1, (Printing.after a t d).2)

theorem Printing.exit_bind {α : Type} (a : Printing (StateM Disk) α) (f : α → Printing (StateM Disk) Nat)
    (t : Transcript) (d : Disk) :
    Printing.exit (a >>= f) t d =
      Printing.exit (f (Printing.after a t d).1.1) (Printing.after a t d).1.2 (Printing.after a t d).2 :=
  rfl

/-- A command on a disk: its exit code, and the disk after it. The clock may go as it likes. -/
def Request.on (r : Request) (env : Environment) (config : Path) (clock : Disk → Moment) (d : Disk) : Nat × Disk :=
  Printing.exit (r.run env config (fun d => (clock d, d) : StateM Disk Moment)) [] d

/-- Where the files of an export go that is asked for nothing else. -/
def targetOf (o : Output) : Target := ⟨⟨o.folder⟩, ⟨o.realType, o.intType⟩, o.precision⟩

section

variable {env : Environment} {config : Path} {clock : Disk → Moment} {d : Disk}

theorem on_validate :
    Request.on .validate env config clock d =
      (match Project.loaded env config d with
        | .error _ => 2
        | .ok p =>
          match checkConsistency p.problem p.options with
          | .error _ => 3
          | .ok _ => 0,
        d) := by
  change Printing.exit (showValidity env config) [] d = _
  unfold showValidity
  rw [Printing.exit_bind]
  change Printing.exit (outcome _ >>= _) _ d = _
  rw [Printing.exit_bind, Printing.after_outcome, Project.after_load]
  dsimp only
  cases Project.loaded env config d with
  | error c => rfl
  | ok p =>
    dsimp only
    rw [Printing.exit_bind]
    cases checkConsistency p.problem p.options <;> rfl

theorem on_plan (constants : Bool) :
    Request.on (.plan constants) env config clock d =
      (match Project.loaded env config d with
        | .error c => (ExportError.plain c).exitCode
        | .ok p =>
          match Session.setup { problem := p.problem, options := p.options } with
          | .error c => (ExportError.plain c).exitCode
          | .ok _ => 0,
        d) := by
  change Printing.exit (showPlan constants env config) [] d = _
  unfold showPlan
  rw [Printing.exit_bind, Printing.after_outcome, Project.after_load]
  dsimp only
  cases Project.loaded env config d with
  | error c => rfl
  | ok p =>
    dsimp only
    cases Session.setup { problem := p.problem, options := p.options } <;> rfl

theorem on_export :
    Request.on (.exportCode {}) env config clock d =
      match Project.loaded env config d with
      | .error c => ((ExportError.plain c).exitCode, d)
      | .ok p =>
        let ended := exportOn { problem := p.problem, options := p.options } (targetOf p.output) (clock d) d
        (match ended.1.result with
          | .error e => e.exitCode
          | .ok _ => 0,
          ended.2) := by
  change Printing.exit (ExportRequest.run {} env config (fun d => (clock d, d))) [] d = _
  unfold ExportRequest.run
  rw [Printing.exit_bind, Printing.after_outcome, Project.after_load]
  dsimp only
  cases Project.loaded env config d with
  | error c => rfl
  | ok p =>
    dsimp only
    unfold ExportRequest.exportProject
    change Printing.exit (say _ >>= _) [] d = _
    rw [Printing.exit_bind, Printing.exit_bind, Printing.exit_bind]
    change Printing.exit (match (exportOn { problem := p.problem, options := p.options } (targetOf p.output) (clock d)
      d).1.result with | .error e => _ | .ok s => _) _ _ = _
    cases (exportOn { problem := p.problem, options := p.options } (targetOf p.output) (clock d) d).1.result <;> rfl

end

/-! ## Agreement -/

/-- What comes of a project file. -/
inductive Fate (env : Environment) (config : Path) (d : Disk) : Prop where
  | unloaded (c : Cause) (h : Project.loaded env config d = .error c)
  | inconsistent (p : Project) (c : Cause) (hp : Project.loaded env config d = .ok p)
    (h : checkConsistency p.problem p.options = .error c)
  | unresolved (p : Project) (c : Cause) (hp : Project.loaded env config d = .ok p)
    (hconsistent : checkConsistency p.problem p.options = .ok ())
    (h : Plan.resolve p.problem p.options .builtin = .error c)
  | resolved (p : Project) (plan : Plan) (hp : Project.loaded env config d = .ok p)
    (h : Plan.resolve p.problem p.options .builtin = .ok plan)

section

variable {p : Problem} {o : Options} {r : Integrator.Registry} {plan : Plan} {c : Cause}

/-- A problem that does not go with its options has no plan, -/
theorem resolve_of_inconsistent (h : checkConsistency p o = .error c) : Plan.resolve p o r = .error c := by
  unfold Plan.resolve
  rw [h]
  rfl

/-- and one that has a plan goes with them. -/
theorem consistent_of_resolve (h : Plan.resolve p o r = .ok plan) : checkConsistency p o = .ok () := by
  cases hconsistent : checkConsistency p o with
  | error c => cases h.symm.trans (resolve_of_inconsistent hconsistent)
  | ok u => rfl

/-- The problem is to blame where there is no plan. -/
theorem exitCode_of_resolve (h : Plan.resolve p o r = .error c) : (ExportError.plain c).exitCode = 3 := by
  unfold ExportError.exitCode ExportError.rootCause
  rcases Cause.kind_of_isOfSetup (Plan.failsInSetup_resolve r c h) with hkind | hkind | hkind <;> rw [hkind]

end

section

variable {env : Environment} {config : Path} {clock : Disk → Moment} {d : Disk} {p : Project} {plan : Plan} {c : Cause}

theorem fate (env : Environment) (config : Path) (d : Disk) : Fate env config d := by
  cases hp : Project.loaded env config d with
  | error c => exact .unloaded c hp
  | ok p =>
    cases hconsistent : checkConsistency p.problem p.options with
    | error c => exact .inconsistent p c hp hconsistent
    | ok u =>
      cases hresolve : Plan.resolve p.problem p.options .builtin with
      | error c => exact .unresolved p c hp hconsistent hresolve
      | ok plan => exact .resolved p plan hp hresolve

/-- All commands stop where there is no project. -/
theorem on_of_unloaded (h : Project.loaded env config d = .error c) :
    Request.on .validate env config clock d = (2, d) ∧
      (∀ constants, Request.on (.plan constants) env config clock d = (2, d)) ∧
      Request.on (.exportCode {}) env config clock d = (2, d) := by
  have hcode : (ExportError.plain c).exitCode = 2 := by
    unfold ExportError.exitCode ExportError.rootCause
    rw [Project.kind_of_loaded h]
  refine ⟨?_, fun constants => ?_, ?_⟩
  · rw [on_validate, h]
  · rw [on_plan, h]
    exact congrArg (·, d) hcode
  · rw [on_export, h]
    exact congrArg (·, d) hcode

/-- Where there is no plan, none is shown, and nothing is exported. -/
theorem on_of_unresolved (hp : Project.loaded env config d = .ok p)
    (haccepts : Accepts d (targetOf p.output) p.options)
    (h : Plan.resolve p.problem p.options .builtin = .error c) :
    (∀ constants, (Request.on (.plan constants) env config clock d).1 = 3) ∧
      (Request.on (.exportCode {}) env config clock d).1 = 3 := by
  have hcode := exitCode_of_resolve h
  have hsetup : Session.setup { problem := p.problem, options := p.options } = .error c := by
    rw [Session.setup_of_none rfl, h]
    rfl
  refine ⟨fun constants => ?_, ?_⟩
  · rw [on_plan, hp]
    dsimp only
    rw [hsetup]
    exact hcode
  · rw [on_export, hp]
    dsimp only
    rw [error_of_accepts haccepts hsetup]
    exact hcode

/-- Where there is one, it is shown, and the export depends on the interfaces. -/
theorem on_of_resolved (hp : Project.loaded env config d = .ok p)
    (haccepts : Accepts d (targetOf p.output) p.options)
    (h : Plan.resolve p.problem p.options .builtin = .ok plan) :
    (∀ constants, (Request.on (.plan constants) env config clock d).1 = 0) ∧
      ((Request.on (.exportCode {}) env config clock d).1 = 0 ∨
        (Request.on (.exportCode {}) env config clock d).1 = 3 ∧ p.options.hardcodedConstraints = false ∧
          (p.options.matlabInterface = true ∨ p.options.simulinkInterface = true)) := by
  let s : Session := { problem := p.problem, options := p.options }
  have hsetup : s.setup = .ok ({ s with plan := some plan }, plan) := by
    rw [Session.setup_of_none rfl, h]
    rfl
  have hcheck : s.problem.check = .ok () := Project.check_problem (Project.check_of_loaded hp)
  refine ⟨fun constants => ?_, ?_⟩
  · rw [on_plan, hp]
    dsimp only
    rw [hsetup]
  · rw [on_export, hp]
    dsimp only
    rcases result_of_accepts (Session.coherent_of_none rfl) hcheck haccepts hsetup (clock d) with
      ⟨summary, hok⟩ | ⟨hconstraints, ho, e, herror, hkind⟩
    · rw [hok]
      exact .inl rfl
    · rw [herror]
      refine .inr ⟨?_, hconstraints, ho⟩
      dsimp only
      unfold ExportError.exitCode
      rw [hkind]

theorem on_validate_of_loaded (hp : Project.loaded env config d = .ok p) :
    (Request.on .validate env config clock d).1 =
      match checkConsistency p.problem p.options with
      | .error _ => 3
      | .ok _ => 0 := by
  rw [on_validate, hp]

end

/-- How far the commands get with a project file. -/
structure Agree (env : Environment) (config : Path) (clock : Disk → Moment) (d : Disk) : Prop where
  /-- A project that is loaded passes its check. -/
  checked : ∀ p, Project.loaded env config d = .ok p → p.check = .ok ()
  /-- Else the configuration is to blame, all commands say so, and nothing is written. -/
  configuration : ∀ c, Project.loaded env config d = .error c → c.kind = .configuration ∧
    Request.on .validate env config clock d = (2, d) ∧
    (∀ constants, Request.on (.plan constants) env config clock d = (2, d)) ∧
    Request.on (.exportCode {}) env config clock d = (2, d)
  /-- All commands find a problem that does not go with its options. -/
  consistency : ∀ p c, Project.loaded env config d = .ok p → checkConsistency p.problem p.options = .error c →
    (Request.on .validate env config clock d).1 = 3 ∧
    (∀ constants, (Request.on (.plan constants) env config clock d).1 = 3) ∧
    (Request.on (.exportCode {}) env config clock d).1 = 3
  /-- What is found later is not found by the validation. -/
  resolution : ∀ p c, Project.loaded env config d = .ok p → checkConsistency p.problem p.options = .ok () →
    Plan.resolve p.problem p.options .builtin = .error c →
    (Request.on .validate env config clock d).1 = 0 ∧
    (∀ constants, (Request.on (.plan constants) env config clock d).1 = 3) ∧
    (Request.on (.exportCode {}) env config clock d).1 = 3
  /-- Where there is a plan, only an interface that needs hard-coded constraint values can be in the way. -/
  resolved : ∀ p plan, Project.loaded env config d = .ok p → Plan.resolve p.problem p.options .builtin = .ok plan →
    (Request.on .validate env config clock d).1 = 0 ∧
    (∀ constants, (Request.on (.plan constants) env config clock d).1 = 0) ∧
    ((Request.on (.exportCode {}) env config clock d).1 = 0 ∨
      (Request.on (.exportCode {}) env config clock d).1 = 3 ∧ p.options.hardcodedConstraints = false ∧
        (p.options.matlabInterface = true ∨ p.options.simulinkInterface = true))
  /-- What can be exported can be planned, -/
  planned : (Request.on (.exportCode {}) env config clock d).1 = 0 →
    ∀ constants, (Request.on (.plan constants) env config clock d).1 = 0
  /-- and what can be planned is valid. -/
  valid : ∀ constants, (Request.on (.plan constants) env config clock d).1 = 0 →
    (Request.on .validate env config clock d).1 = 0

/-- The commands agree on every project file, in every environment, if the folder of the project takes all files. -/
theorem agree_on (env : Environment) (config : Path) (clock : Disk → Moment) (d : Disk)
    (haccepts : ∀ p, Project.loaded env config d = .ok p → Accepts d (targetOf p.output) p.options) :
    Agree env config clock d := by
  refine ⟨fun p hp => Project.check_of_loaded hp, fun c hc => ⟨Project.kind_of_loaded hc, on_of_unloaded hc⟩,
    fun p c hp hc => ?_, fun p c hp hconsistent hc => ?_, fun p plan hp hplan => ?_, fun hexport => ?_,
    fun constants hplan => ?_⟩
  · exact ⟨by rw [on_validate_of_loaded hp, hc], on_of_unresolved hp (haccepts p hp) (resolve_of_inconsistent hc)⟩
  · exact ⟨by rw [on_validate_of_loaded hp, hconsistent], on_of_unresolved hp (haccepts p hp) hc⟩
  · exact ⟨by rw [on_validate_of_loaded hp, consistent_of_resolve hplan], on_of_resolved hp (haccepts p hp) hplan⟩
  · cases fate env config d with
    | unloaded c hc =>
      rw [(on_of_unloaded hc).2.2] at hexport
      cases hexport
    | inconsistent p c hp hc =>
      rw [(on_of_unresolved hp (haccepts p hp) (resolve_of_inconsistent hc)).2] at hexport
      cases hexport
    | unresolved p c hp _ hc =>
      rw [(on_of_unresolved hp (haccepts p hp) hc).2] at hexport
      cases hexport
    | resolved p plan hp hplan => exact (on_of_resolved hp (haccepts p hp) hplan).1
  · cases fate env config d with
    | unloaded c hc =>
      rw [(on_of_unloaded hc).2.1] at hplan
      cases hplan
    | inconsistent p c hp hc =>
      rw [(on_of_unresolved hp (haccepts p hp) (resolve_of_inconsistent hc)).1] at hplan
      cases hplan
    | unresolved p c hp hconsistent => rw [on_validate_of_loaded hp, hconsistent]
    | resolved p plan' hp hplan' => rw [on_validate_of_loaded hp, consistent_of_resolve hplan']

/-- A disk with the file of a small project, and nothing else. -/
def smallDisk : Disk :=
  let text := "[ocp]\nhorizon = 2\n[ocp.dimensions]\nnx = 1\nnu = 1\n[ocp.objective.least_squares]\nny = 1\n"
  { tree := ⟨[(["ocpgen.toml"], .file text.toUTF8)]⟩ }

theorem loaded_smallDisk : ∃ p, Project.loaded .empty ⟨standardPath⟩ smallDisk = .ok p ∧ p.output.folder = "export" ∧
    p.options.moduleName = .standard := by
  have hcheck : ((Project.loaded .empty ⟨standardPath⟩ smallDisk).toOption.any fun p =>
      p.output.folder = "export" ∧ p.options.moduleName = .standard) = true := by
    decide +kernel
  cases hloaded : Project.loaded .empty ⟨standardPath⟩ smallDisk with
  | error c =>
    rw [hloaded] at hcheck
    cases hcheck
  | ok p =>
    rw [hloaded] at hcheck
    exact ⟨p, rfl, of_decide_eq_true hcheck⟩

/-- The files of the project can be written: their directory is new, and their names are short. -/
theorem accepts_smallDisk {o : Output} {options : Options} (hfolder : o.folder = "export")
    (hname : options.moduleName = .standard) : Accepts smallDisk (targetOf o) options := by
  let t : Tree := smallDisk.tree.insert ["export"] .directory
  have htarget : (targetOf o).dir = ⟨"export"⟩ := by
    unfold targetOf
    rw [hfolder]
  have hmake : smallDisk.tree.makeDirectory (targetOf o).dir = .ok t := by
    rw [htarget]
    rfl
  have hdir := makeTargetOn_of_makeDirectory (d := smallDisk) rfl (by rw [htarget]; rfl) hmake
  have hlocate : t.locate (targetOf o).dir = .ok (.existing ["export"] .directory) := by
    rw [htarget]
    rfl
  have hpaths : ∀ n ∈ FileName.all,
      ((Files.Path.mk "export").join (n.text .standard)).text.utf8ByteSize ≤ Tree.maxPath := by
    decide
  have hfree : ∀ n ∈ FileName.all, (t.entry? ["export", n.text .standard]).isNone = true := by
    decide
  refine accepts_of_free hdir rfl hlocate (fun x hx => ?_) (fun x hx => ?_) fun x hx hdirectory => ?_
  · unfold place
    rw [htarget, hname]
    exact hpaths x.2 (mem_all_of_mem hx)
  · rw [hname]
    exact size_text_standard x.2 (mem_all_of_mem hx)
  · have hnone := hfree x.2 (mem_all_of_mem hx)
    rw [hname] at hdirectory
    rw [show t.entry? ["export", _] = _ from hdirectory] at hnone
    cases hnone

theorem agree_on_smallDisk :
    (∃ p, Project.loaded .empty ⟨standardPath⟩ smallDisk = .ok p ∧ Accepts smallDisk (targetOf p.output) p.options) ∧
      Agree .empty ⟨standardPath⟩ (fun _ => ⟨0, 0, 0⟩) smallDisk := by
  obtain ⟨p, hloaded, hfolder, hname⟩ := loaded_smallDisk
  have haccepts := accepts_smallDisk hfolder hname
  refine ⟨⟨p, hloaded, haccepts⟩, agree_on _ _ _ _ fun p' hloaded' => ?_⟩
  obtain rfl := Except.ok.inj (hloaded.symm.trans hloaded')
  exact haccepts

end ControlCodegen.Command
