import ControlCodegen.Command.Arguments
import ControlCodegen.Command.Sample
import ControlCodegen.Environment.File
import ControlCodegen.Export.Run
import ControlCodegen.Export.Verification
import ControlCodegen.Project.Load

/-!
# `Command.Run`: the commands of the program

A command prints lines and ends with an exit code: 0 for success, 2 for a faulty configuration, 3 for a problem that
cannot be exported, 5 for all else.

* `Request.run` : a command for a project file.
* `Arguments.run` : a whole command line, whose log level is looked at first.
* `runProgram` : the program, which also reads variables from a file.
-/

namespace ControlCodegen.Command

set_option autoImplicit false

/-- A printed line. -/
inductive Line where
  | out (text : String)
  /-- A line among the errors. -/
  | err (text : String)
  deriving DecidableEq, Repr

/-- What has been printed. -/
abbrev Transcript := List Line

/-- The text that was printed, apart from errors. -/
def Transcript.output (t : Transcript) : String :=
  Text.unlines (t.filterMap fun
    | .out text => some text
    | .err _ => none)

/-- The text that was printed among the errors. -/
def Transcript.errors (t : Transcript) : String :=
  Text.unlines (t.filterMap fun
    | .err text => some text
    | .out _ => none)

/-- A run that prints lines. -/
abbrev Printing (m : Type → Type) (α : Type) := StateT Transcript m α

section

variable {m : Type → Type} [Monad m] [Files.FileSystem m]

def say (texts : List String) : Printing m Unit := modify (· ++ texts.map .out)

def complain (text : String) : Printing m Unit := modify (· ++ [.err text])

/-- Takes a step on files, and says how it went. -/
def outcome {ε α : Type} (action : Files.Action m ε α) : Printing m (Except ε α) := StateT.lift action.run

/-! ## Export -/

/-- The options with the module name that was asked for. -/
def ExportRequest.options (r : ExportRequest) (o : Options) : Except ModuleName.Error Options :=
  match r.moduleName with
  | none => .ok o
  | some name => (ModuleName.ofString name).map fun moduleName => { o with moduleName }

/-- The output settings with the folder that was asked for. -/
def ExportRequest.output (r : ExportRequest) (o : Output) : Output := { o with folder := r.folder.getD o.folder }

/-- Microseconds in seconds, with three digits behind the point. -/
def secondsText (micros : Nat) : String :=
  let millis := Decimal.roundDiv micros 1000
  s!"{millis / 1000}.{Moment.padded 3 (millis % 1000)}s"

def summaryLines (s : Summary) : List String :=
  ["📊 Export Summary:", s!"  Module: {s.moduleName}", s!"  Artifacts: {s.artifacts.length}"] ++
  s.artifacts.map (fun a => s!"    - {a.path} ({a.size} bytes)") ++
  [s!"  Duration: {secondsText s.duration}"] ++
  (if s.warnings.isEmpty then [] else ["", "⚠️  Warnings:"] ++ s.warnings.map (s!"  - {·}")) ++ [""]

/-- Writes the report that was asked for; whether that went well. -/
def ExportRequest.writeReport (r : ExportRequest) (s : Summary) : Printing m Bool :=
  match r.report with
  | none => return true
  | some path => do
    match ← outcome (s.writeReport ⟨path⟩ : Files.Action m Files.FileError Unit) with
    | .ok _ =>
      say [s!"📝 Report written to {path}"]
      return true
    | .error e =>
      complain s!"❌ Failed to write report {path}: {(Cause.file e).message}"
      return false

/-- Verifies the written files if that was asked for; whether that went well. -/
def ExportRequest.verifyFiles (r : ExportRequest) (s : Summary) (now : m Moment) : Printing m Bool :=
  if r.verify then do
    let begun ← StateT.lift now
    let report : VerificationReport ← StateT.lift (ControlCodegen.verify s begun)
    let report := { report with duration := (← StateT.lift now).since begun / 1000 }
    say [report.text]
    return report.isSuccess
  else return true

def ExportRequest.finish (r : ExportRequest) (s : Summary) (now : m Moment) : Printing m Nat := do
  say (summaryLines s)
  if !(← r.writeReport s) then return 5
  if !(← r.verifyFiles s now) then return 5
  say ["✅ Export completed successfully!"]
  return 0

def ExportRequest.exportProject (r : ExportRequest) (p : Project) (now : m Moment) : Printing m Nat := do
  match r.options p.options with
  | .error e =>
    complain s!"❌ Invalid module name: {e.message}"
    return 2
  | .ok options =>
    let output := r.output p.output
    say [s!"🚀 Exporting to {output.folder}", ""]
    let begun ← StateT.lift now
    let target : Export.Target := ⟨⟨output.folder⟩, ⟨output.realType, output.intType⟩, output.precision⟩
    let o ← StateT.lift (Export.exportCode { problem := p.problem, options } target begun)
    match o.result with
    | .error e =>
      complain s!"❌ Export failed: {e.message}"
      return e.exitCode
    | .ok s => r.finish { s with duration := (← StateT.lift now).since begun } now

def ExportRequest.run (r : ExportRequest) (env : Environment) (config : Files.Path) (now : m Moment) :
    Printing m Nat := do
  match ← outcome (Project.load env config : Files.Action m Cause Project) with
  | .error cause =>
    complain s!"❌ Failed to load configuration: {cause.message}"
    return (ExportError.plain cause).exitCode
  | .ok p => r.exportProject p now

/-! ## Validation -/

def projectLines (p : Project) : List String :=
  ["✅ Configuration is valid", "", "Configuration Summary:", s!"  Log Level: {p.application.logLevel}",
    s!"  Module: {p.options.moduleName}", s!"  Horizon: {p.problem.horizon}",
    s!"  States / Controls: {p.problem.dimensions.nx} / {p.problem.dimensions.nu}",
    s!"  QP Solver: {p.options.qpSolver.display}", s!"  QP Solution: {Choice.name p.options.qpMethod}",
    s!"  Hessian Approximation: {Choice.name p.options.hessian}", s!"  Integrator: {Choice.name p.options.scheme}",
    s!"  Output Folder: {p.output.folder}", ""]

def showValidity (env : Environment) (config : Files.Path) : Printing m Nat := do
  say [s!"🔍 Validating project file: {config}", ""]
  match ← outcome (Project.load env config : Files.Action m Cause Project) with
  | .error cause =>
    say ["❌ Failed to load project file", s!"   Error: {cause.message}"]
    return 2
  | .ok p =>
    say ["✅ Project file loaded successfully"]
    match checkConsistency p.problem p.options with
    | .error cause =>
      say ["❌ Problem cannot be exported with these options", s!"   Error: {cause.message}", ""]
      return 3
    | .ok _ =>
      say (projectLines p)
      return 0

/-! ## Plan -/

/-- A text with blanks behind it up to a width. -/
def padRight (width : Nat) (s : String) : String := s ++ String.ofList (List.replicate (width - s.length) ' ')

/-- The constants of the common header in words. -/
def constantLines (c : Constants) : List String :=
  ["Header constants:"] ++
  c.macros.map (fun d => s!"  {padRight 32 d.fullName} {padRight 8 (toString d.value)} {d.description}") ++ [""]

def planLines (plan : Plan) (constants : Bool) : List String :=
  ["📐 Export Plan", s!"  Integrator: {Choice.name plan.integrator.scheme}",
    s!"  Solver: {plan.solver.strategy.display}", ""] ++
  (if constants then constantLines plan.constants else []) ++
  [s!"  QP variables: {plan.constants.qpVariables}",
    s!"  Path and point constraints: {plan.constants.complexConstraints}"]

/-- Shows the plan for the project of a file. -/
def showPlan (constants : Bool) (env : Environment) (config : Files.Path) : Printing m Nat := do
  match ← outcome (Project.load env config : Files.Action m Cause Project) with
  | .error cause =>
    say ["❌ Failed to load project file", s!"   Error: {cause.message}"]
    return (ExportError.plain cause).exitCode
  | .ok p =>
    match ({ problem := p.problem, options := p.options } : Session).setup with
    | .error cause =>
      say ["❌ Failed to resolve export plan", s!"   Error: {cause.message}"]
      return (ExportError.plain cause).exitCode
    | .ok (_, plan) =>
      say (planLines plan constants)
      return 0

/-! ## New project files -/

/-- What the user may do with a new project file. -/
def nextSteps (path : String) : List String :=
  [s!"✅ Project file created: {path}", "", "Next steps:", s!"  1. Describe your problem in the [ocp] section of {path}",
    s!"  2. Validate it: {programName} validate-config",
    s!"  3. Inspect the resolved plan: {programName} plan --constants",
    s!"  4. Export the solver: {programName} export", ""]

def CreateRequest.run (r : CreateRequest) : Printing m Nat := do
  say [s!"📝 Initializing {programName} project", ""]
  let there : Bool ← StateT.lift (Files.FileSystem.contains ⟨r.path⟩)
  if there && !r.force then
    say [s!"❌ Project file already exists: {r.path}", "   Use --force to overwrite"]
    return 2
  else
    match ← outcome (Files.writeText ⟨r.path⟩ (sampleText r.withExamples) : Files.Action m Files.FileError Unit) with
    | .ok _ =>
      say (nextSteps r.path)
      return 0
    | .error e =>
      say ["❌ Failed to write project file", s!"   Error: {e.message}"]
      return 5

/-! ## The program -/

def Request.run (r : Request) (env : Environment) (config : Files.Path) (now : m Moment) : Printing m Nat :=
  match r with
  | .exportCode r => r.run env config now
  | .validate => showValidity env config
  | .plan constants => showPlan constants env config
  | .create r => r.run

/-- Follows a command line. The program itself writes no log files. -/
def Arguments.run (env : Environment) (now : m Moment) (a : Arguments) : Printing m Nat := do
  match ← outcome (({} : Logging).prepare (a.logLevel.getD standardLevel) : Files.Action m Cause Unit) with
  | .error cause =>
    complain s!"Failed to initialize logging: {cause.message}"
    return 2
  | .ok _ => a.request.run env ⟨a.config⟩ now

/-- Prints what is wrong with a command line. Help and the version are no errors. -/
def UsageError.report (e : UsageError) : Printing m Nat := do
  if e.exitCode = 0 then say [e.message] else complain e.message
  return e.exitCode

/-- The program: its variables may also stand in a file in the working directory or so many levels above it. -/
def runProgram (env : Environment) (levels : Nat) (now : m Moment) (args : List String) : Printing m Nat := do
  let env ← StateT.lift (Environment.File.load env levels)
  match Arguments.read env args with
  | .error e => e.report
  | .ok a => a.run env now

end

end ControlCodegen.Command
