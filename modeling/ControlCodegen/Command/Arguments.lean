import ControlCodegen.Command.Switch
import ControlCodegen.Environment.Basic

/-!
# `Command.Arguments`: what the program is asked to do

The switches in front of the command may also be set by variables. The switches of a command come behind its word.
-/

namespace ControlCodegen.Command

set_option autoImplicit false

/-- What an export is asked to do beyond the project file. -/
structure ExportRequest where
  /-- A folder instead of the project's. -/
  folder : Option String := none
  /-- A module name instead of the project's. -/
  moduleName : Option String := none
  /-- Where the report goes. -/
  report : Option String := none
  /-- Whether the written files are verified. -/
  verify : Bool := false
  deriving DecidableEq, Repr

/-- How a project file is begun. -/
structure CreateRequest where
  path : String
  /-- Whether every option is spelled out. -/
  withExamples : Bool := false
  /-- Whether an existing file is overwritten. -/
  force : Bool := false
  deriving DecidableEq, Repr

/-- A command of the program. -/
inductive Request where
  | exportCode (r : ExportRequest)
  | validate
  | plan (constants : Bool)
  | create (r : CreateRequest)
  deriving DecidableEq, Repr

/-- A whole command line. -/
structure Arguments where
  /-- The path of the project file. -/
  config : String
  logLevel : Option String
  request : Request
  deriving DecidableEq, Repr

/-- The path of the project file if none is given. -/
def standardPath : String := "ocpgen.toml"

def standardLevel : String := "info"

def helpSwitch : Switch := ⟨"help", some 'h', .help⟩

def root : Grammar where
  switches :=
    [⟨"config", some 'c', .value⟩, ⟨"log-level", some 'l', .value⟩, helpSwitch, ⟨"version", some 'V', .version⟩]
  words := ["export", "validate-config", "plan", "init", "help"]

def exportGrammar : Grammar where
  switches :=
    [⟨"output", some 'o', .value⟩, ⟨"module-name", none, .value⟩, ⟨"report", none, .value⟩, ⟨"verify", none, .flag⟩,
      helpSwitch]

def validateGrammar : Grammar where
  switches := [helpSwitch]

def planGrammar : Grammar where
  switches := [⟨"constants", none, .flag⟩, helpSwitch]

def createGrammar : Grammar where
  switches := [⟨"output", some 'o', .value⟩, ⟨"with-examples", none, .flag⟩, ⟨"force", none, .flag⟩, helpSwitch]

/-- What asking for help comes to: help is given about one command or about all. -/
def helpOn : List String → UsageError
  | [] => .help
  | w :: rest =>
    if w ∈ root.words then
      match rest with
      | [] => .help
      | x :: _ => .unknownCommand x
    else .unknownCommand w

/-- A command from its word and what comes behind it. -/
def Request.read (word : String) (args : List String) : Except UsageError Request :=
  match word with
  | "export" => do
    let f ← exportGrammar.read args
    return .exportCode ⟨f.value? "output", f.value? "module-name", f.value? "report", f.has "verify"⟩
  | "validate-config" => do
    let _ ← validateGrammar.read args
    return .validate
  | "plan" => do
    let f ← planGrammar.read args
    return .plan (f.has "constants")
  | "init" => do
    let f ← createGrammar.read args
    return .create ⟨(f.value? "output").getD standardPath, f.has "with-examples", f.has "force"⟩
  | _ => .error (helpOn args)

def Arguments.read (env : Environment) (args : List String) : Except UsageError Arguments := do
  let (f, rest) ← root.scan {} args
  let request ← match rest with
    | [] => pure none
    | word :: more => some <$> Request.read word more
  let f ← f.settle
  let config := (f.value? "config").or (env "OCPGEN_CONFIG")
  let logLevel := (f.value? "log-level").or (env "OCPGEN_LOG_LEVEL")
  match request with
  | some request => return ⟨config.getD standardPath, logLevel, request⟩
  | none => throw (if config.isNone ∧ logLevel.isNone then .nothingGiven else .missingCommand)

end ControlCodegen.Command
