import ControlCodegen.Proofs.Command.Agreement

/-!
# `Command.Preparation`: the project that an export works on

* `ExportRequest.prepare`, `ExportRequest.carryOut`, `run_eq_prepare` : an export first settles what it exports.
* `Project.check_settled` : what may be wrong with a checked project that goes elsewhere under another name.
* `InForce`, `inForce_of_begins` : the project that is exported passes the check, unless a blank folder was asked for.
-/

namespace ControlCodegen

set_option autoImplicit false

open Export Files

/-! ## Checks -/

namespace Project

/-- The part of the check behind the folder. -/
def checkRest (p : Project) : Except Defect Unit := do
  if Text.allBlank p.output.realType ∨ Text.allBlank p.output.intType then throw .blankTypes
  if p.output.precision = 0 ∨ maxPrecision < p.output.precision then throw (.precision p.output.precision)
  if p.logging.rotation ∉ rotations then throw (.rotation p.logging.rotation)
  if p.logging.enabled ∧ Text.allBlank p.logging.folder then throw .blankLogFolder

section

variable {p : Project}

/-- The check, if nothing is wrong before it comes to the folder. -/
theorem check_of_front (hlevel : p.application.logLevel ∈ logLevels) (hproblem : p.problem.check = .ok ())
    (hoptions : p.options.check = .ok ()) :
    p.check = if Text.allBlank p.output.folder = true then .error .blankFolder else p.checkRest := by
  unfold check checkRest
  dsimp only
  rw [if_neg (not_not.2 hlevel), hproblem, hoptions]
  change (if Text.allBlank p.output.folder = true then _ else _) = _
  by_cases hfolder : Text.allBlank p.output.folder = true
  · rw [if_pos hfolder, if_pos hfolder]
    rfl
  · rw [if_neg hfolder, if_neg hfolder]

theorem logLevel_of_check (h : p.check = .ok ()) : p.application.logLevel ∈ logLevels := by
  unfold check at h
  exact not_not.1 (Problem.guard_ok h).1

theorem options_of_check (h : p.check = .ok ()) : p.options.check = .ok () := by
  have hproblem := check_problem h
  unfold check at h
  obtain ⟨-, h⟩ := Problem.guard_ok h
  rw [hproblem] at h
  cases hoptions : p.options.check with
  | error defect =>
    rw [hoptions] at h
    cases h
  | ok u => rfl

theorem folder_of_check (h : p.check = .ok ()) : Text.allBlank p.output.folder = false := by
  rw [check_of_front (logLevel_of_check h) (check_problem h) (options_of_check h)] at h
  by_cases hfolder : Text.allBlank p.output.folder = true
  · rw [if_pos hfolder] at h
    cases h
  · exact Bool.eq_false_iff.2 hfolder

/-- A checked project under another name and with another folder: only the folder may be wrong. -/
theorem check_settled (h : p.check = .ok ()) (name : ModuleName) (folder : String) :
    Project.check { p with options.moduleName := name, output.folder := folder } =
      if Text.allBlank folder = true then .error .blankFolder else .ok () := by
  have hlevel := logLevel_of_check h
  have hproblem := check_problem h
  have hoptions := options_of_check h
  have hfolder := folder_of_check h
  rw [check_of_front hlevel hproblem hoptions, if_neg (Bool.eq_false_iff.1 hfolder)] at h
  -- neither the options nor what comes behind the folder depend on what is changed
  rw [check_of_front (p := { p with options.moduleName := name, output.folder := folder }) hlevel hproblem hoptions]
  exact congrArg (if Text.allBlank folder = true then .error .blankFolder else ·) h

end

end Project

namespace Command

/-! ## Preparation -/

section

variable {m : Type → Type} [Monad m] [FileSystem m]

/-- What is exported, or the exit code if nothing is. -/
def ExportRequest.prepare (r : ExportRequest) (env : Environment) (config : Path) :
    Printing m (Except Nat Project) := do
  match ← outcome (Project.load env config : Action m Cause Project) with
  | .error cause =>
    complain s!"❌ Failed to load configuration: {cause.message}"
    return .error (ExportError.plain cause).exitCode
  | .ok p =>
    match r.options p.options with
    | .error e =>
      complain s!"❌ Invalid module name: {e.message}"
      return .error 2
    | .ok options => return .ok { p with options, output := r.output p.output }

/-- Exports a project as it is. -/
def ExportRequest.carryOut (r : ExportRequest) (p : Project) (now : m Moment) : Printing m Nat := do
  say [s!"🚀 Exporting to {p.output.folder}", ""]
  let begun ← StateT.lift now
  let o ← StateT.lift (exportCode { problem := p.problem, options := p.options } (targetOf p.output) begun)
  match o.result with
  | .error e =>
    complain s!"❌ Export failed: {e.message}"
    return e.exitCode
  | .ok s => r.finish { s with duration := (← StateT.lift now).since begun } now

theorem run_eq_prepare [LawfulMonad m] (r : ExportRequest) (env : Environment) (config : Path) (now : m Moment) :
    r.run env config now = (do
      match ← r.prepare env config with
      | .error code => return code
      | .ok p => r.carryOut p now) := by
  unfold ExportRequest.run ExportRequest.prepare
  rw [bind_assoc]
  refine bind_congr fun result => ?_
  cases result with
  | error c =>
    dsimp only
    rw [bind_assoc]
    simp only [pure_bind]
  | ok p =>
    dsimp only
    unfold ExportRequest.exportProject
    cases r.options p.options with
    | error e =>
      dsimp only
      rw [bind_assoc]
      simp only [pure_bind]
    | ok o =>
      dsimp only
      rw [pure_bind]
      rfl

end

/-! ## The project in force -/

/-- An export on a disk begins, with a certain project. -/
def Begins (r : ExportRequest) (env : Environment) (config : Path) (d : Disk) (p : Project) : Prop :=
  (Printing.after (r.prepare env config) [] d).1.1 = .ok p

/-- A folder that is asked for is not blank. -/
def ExportRequest.NamesFolder (r : ExportRequest) : Prop :=
  ∀ folder, r.folder = some folder → Text.allBlank folder = false

/-- A project that is exported. -/
structure InForce (r : ExportRequest) (env : Environment) (config : Path) (d : Disk) (p : Project) : Prop where
  exported : ∀ now, Printing.after (r.run env config now) [] d = Printing.after (r.carryOut p now) [] d
  checked_iff : p.check = .ok () ↔ r.NamesFolder
  folder_iff : Text.allBlank p.output.folder = false ↔ r.NamesFolder
  /-- Nothing but the folder can be wrong with it. -/
  defect : ¬r.NamesFolder → p.check = .error .blankFolder

section

variable {r : ExportRequest} {env : Environment} {config : Path} {d : Disk} {p p₀ : Project}

theorem Printing.after_bind {α β : Type} (a : Printing (StateM Disk) α) (f : α → Printing (StateM Disk) β)
    (t : Transcript) (d : Disk) :
    Printing.after (a >>= f) t d =
      Printing.after (f (Printing.after a t d).1.1) (Printing.after a t d).1.2 (Printing.after a t d).2 :=
  rfl

theorem after_prepare (r : ExportRequest) (env : Environment) (config : Path) (d : Disk) :
    Printing.after (r.prepare env config) [] d =
      match Project.loaded env config d with
      | .error c =>
        ((.error (ExportError.plain c).exitCode, [.err s!"❌ Failed to load configuration: {c.message}"]), d)
      | .ok p =>
        match r.options p.options with
        | .error e => ((.error 2, [.err s!"❌ Invalid module name: {e.message}"]), d)
        | .ok options => ((.ok { p with options, output := r.output p.output }, []), d) := by
  unfold ExportRequest.prepare
  rw [Printing.after_bind, Printing.after_outcome, Project.after_load]
  dsimp only
  cases Project.loaded env config d with
  | error c => rfl
  | ok p =>
    dsimp only
    cases r.options p.options <;> rfl

/-- The options of a request differ in the module name at most. -/
theorem exists_moduleName_of_options {o o' : Options} (h : r.options o = .ok o') :
    ∃ name, o' = { o with moduleName := name } := by
  unfold ExportRequest.options at h
  cases hname : r.moduleName with
  | none =>
    rw [hname] at h
    exact ⟨o.moduleName, (Except.ok.inj h).symm⟩
  | some text =>
    rw [hname] at h
    dsimp only at h
    cases hread : ModuleName.ofString text with
    | error e =>
      rw [hread] at h
      cases h
    | ok name =>
      rw [hread] at h
      exact ⟨name, (Except.ok.inj h).symm⟩

/-- An export that begins has a project to load, and a module name at most to change in its options. -/
theorem exists_options_of_begins (h : Begins r env config d p) :
    ∃ p₀ o, Project.loaded env config d = .ok p₀ ∧ r.options p₀.options = .ok o ∧
      p = { p₀ with options := o, output := r.output p₀.output } := by
  unfold Begins at h
  rw [after_prepare] at h
  cases hp : Project.loaded env config d with
  | error c =>
    rw [hp] at h
    cases h
  | ok p₀ =>
    rw [hp] at h
    dsimp only at h
    cases ho : r.options p₀.options with
    | error e =>
      rw [ho] at h
      cases h
    | ok o =>
      rw [ho] at h
      exact ⟨p₀, o, rfl, ho, (Except.ok.inj h).symm⟩

/-- It begins on the disk as it was, and nothing has been printed. -/
theorem after_prepare_of_begins (h : Begins r env config d p) :
    Printing.after (r.prepare env config) [] d = ((.ok p, []), d) := by
  obtain ⟨p₀, o, hp, ho, rfl⟩ := exists_options_of_begins h
  rw [after_prepare, hp]
  dsimp only
  rw [ho]

/-- An export works on the project of the file, under some name, in the folder that is asked for. -/
theorem exists_loaded_of_begins (h : Begins r env config d p) :
    ∃ p₀ name, Project.loaded env config d = .ok p₀ ∧
      p = { p₀ with options.moduleName := name, output.folder := r.folder.getD p₀.output.folder } := by
  obtain ⟨p₀, o, hp, ho, rfl⟩ := exists_options_of_begins h
  obtain ⟨name, rfl⟩ := exists_moduleName_of_options ho
  exact ⟨p₀, name, hp, rfl⟩

theorem folder_iff_namesFolder {folder : String} (h : Text.allBlank folder = false) :
    Text.allBlank (r.folder.getD folder) = false ↔ r.NamesFolder := by
  unfold ExportRequest.NamesFolder
  cases r.folder with
  | none => exact iff_of_true h fun _ hfolder => nomatch hfolder
  | some asked =>
    constructor
    · intro hasked folder' hfolder
      exact Option.some.inj hfolder ▸ hasked
    · exact fun hasked => hasked asked rfl

end

/-- The project that is exported has passed its check, but for a folder that was asked for: this one may be blank. -/
theorem inForce_of_begins (r : ExportRequest) (env : Environment) (config : Path) (d : Disk) (p : Project)
    (h : Begins r env config d p) : InForce r env config d p := by
  obtain ⟨p₀, name, hloaded, hp⟩ := exists_loaded_of_begins h
  have hchecked := Project.check_of_loaded hloaded
  have hcheck : p.check = if Text.allBlank p.output.folder = true then .error .blankFolder else .ok () := by
    rw [hp]
    exact Project.check_settled hchecked name _
  have hfolder : Text.allBlank p.output.folder = false ↔ r.NamesFolder := by
    rw [hp]
    exact folder_iff_namesFolder (Project.folder_of_check hchecked)
  refine ⟨fun now => ?_, ?_, hfolder, fun hblank => ?_⟩
  · rw [run_eq_prepare, Printing.after_bind, after_prepare_of_begins h]
  · rw [← hfolder, hcheck]
    cases Text.allBlank p.output.folder with
    | false => exact iff_of_true rfl rfl
    | true => exact iff_of_false (fun hok => nomatch hok) fun hf => nomatch hf
  · rw [hcheck, if_pos]
    exact Bool.of_not_eq_false fun hf => hblank (hfolder.1 hf)

/-- A folder that is asked for on the small disk. -/
theorem inForce_smallDisk : ∃ p,
    Begins { folder := some "out", moduleName := some "plant" } .empty ⟨standardPath⟩ smallDisk p ∧
      InForce { folder := some "out", moduleName := some "plant" } .empty ⟨standardPath⟩ smallDisk p := by
  obtain ⟨p, hloaded, -⟩ := loaded_smallDisk
  obtain ⟨o, ho⟩ : ∃ o, ExportRequest.options { folder := some "out", moduleName := some "plant" } p.options = .ok o :=
    ⟨_, rfl⟩
  have hbegins : Begins { folder := some "out", moduleName := some "plant" } .empty ⟨standardPath⟩ smallDisk
      { p with options := o, output := ExportRequest.output { folder := some "out" } p.output } := by
    unfold Begins
    rw [after_prepare, hloaded]
    dsimp only
    rw [ho]
    rfl
  exact ⟨_, hbegins, inForce_of_begins _ _ _ _ _ hbegins⟩

/-- An empty folder that is asked for is not refused, and the export begins. -/
theorem begins_unchecked : ∃ p, Begins { folder := some "" } .empty ⟨standardPath⟩ smallDisk p ∧
    p.output.folder = "" ∧ p.check = .error .blankFolder := by
  obtain ⟨p, hloaded, -⟩ := loaded_smallDisk
  refine ⟨{ p with output := { p.output with folder := "" } }, ?_, rfl, ?_⟩
  · unfold Begins
    rw [after_prepare, hloaded]
    rfl
  · exact Project.check_settled (Project.check_of_loaded hloaded) p.options.moduleName ""

end Command

end ControlCodegen
