import ControlCodegen.Decimal.Power
import ControlCodegen.Environment.Basic
import ControlCodegen.Error
import ControlCodegen.Project.Basic

/-!
# `Project.Overrides`: settings that variables take over

Ten settings of a project have a variable each, which overrides the project file when it is set. A truth value that
cannot be read is the standard value of its setting, and a number that cannot be read overrides nothing.
-/

namespace ControlCodegen

set_option autoImplicit false

def readFlag? (s : String) : Option Bool :=
  if s = "true" then some true else if s = "false" then some false else none

/-- The whole number of 64 bits that a text spells, with or without a plus. -/
def readWhole? (s : String) : Option Nat :=
  let ds := match s.toList with
    | '+' :: r => r
    | cs => cs
  if ds.isEmpty ∨ ¬ds.all Char.isDigit then none
  else
    let n := ds.foldl (fun n d => 10 * n + (d.toNat - '0'.toNat)) 0
    if n < Decimal.wordBound then some n else none

namespace Project

def variableOf (setting : String) : String := "OCPGEN_" ++ setting

def overrideApplication (env : Environment) (a : Application) : Application :=
  { a with logLevel := (env (variableOf "APPLICATION_LOG_LEVEL")).getD a.logLevel }

def overrideOutput (env : Environment) (o : Output) : Output :=
  { o with
    folder := (env (variableOf "OUTPUT_FOLDER")).getD o.folder
    realType := (env (variableOf "OUTPUT_REAL_TYPE")).getD o.realType
    precision := ((env (variableOf "OUTPUT_PRECISION")).bind readWhole?).getD o.precision }

/-- A truth value with its override, which is `standard` when it cannot be read. -/
def overrideFlag (env : Environment) (setting : String) (standard value : Bool) : Bool :=
  match env (variableOf setting) with
  | some s => (readFlag? s).getD standard
  | none => value

def overrideOptions (env : Environment) (o : Options) : Except Cause Options := do
  let moduleName ← match env (variableOf "OPTIONS_MODULE_NAME") with
    | some s => (ModuleName.ofString s).mapError Cause.invalidModuleName
    | none => pure o.moduleName
  return { o with
    moduleName
    makefile := overrideFlag env "OPTIONS_GENERATE_MAKEFILE" true o.makefile
    testFile := overrideFlag env "OPTIONS_GENERATE_TEST_FILE" true o.testFile
    singlePrecision := overrideFlag env "OPTIONS_USE_SINGLE_PRECISION" false o.singlePrecision }

def overrideLogging (env : Environment) (l : Logging) : Logging :=
  { l with
    enabled := overrideFlag env "LOGGING_LOCAL_ENABLED" false l.enabled
    folder := (env (variableOf "LOGGING_LOCAL_PATH")).getD l.folder }

def override (env : Environment) (p : Project) : Except Cause Project := do
  return { p with
    application := overrideApplication env p.application
    options := ← overrideOptions env p.options
    output := overrideOutput env p.output
    logging := overrideLogging env p.logging }

end Project

end ControlCodegen
