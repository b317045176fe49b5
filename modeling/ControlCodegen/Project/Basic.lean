import ControlCodegen.Options.Basic
import ControlCodegen.Problem.Check

/-!
# `Project`: a project file's contents

A project states one problem, the options of its export and where the output goes. `Project.check` goes through the
sections in the order of the file and reports the first `Project.Defect`.
-/

namespace ControlCodegen

set_option autoImplicit false

/-- Settings of the program itself. -/
structure Application where
  logLevel : String := "info"
  deriving DecidableEq, Repr

/-- Where generated files go, and how they spell numbers. -/
structure Output where
  folder : String := "export"
  realType : String := "real_t"
  intType : String := "int"
  /-- Significant digits of constants. -/
  precision : Nat := 16
  deriving DecidableEq, Repr

/-- Log files. -/
structure Logging where
  enabled : Bool := false
  folder : String := "logs"
  rotation : String := "daily"
  deriving DecidableEq, Repr

/-- The contents of a project file. -/
structure Project where
  application : Application := {}
  problem : Problem
  options : Options := {}
  output : Output := {}
  logging : Logging := {}

namespace Project

/-- What is wrong with a project. -/
inductive Defect where
  | logLevel (value : String)
  | problem (defect : Problem.Defect)
  | options (defect : Options.Defect)
  | blankFolder
  | blankTypes
  | precision (value : Nat)
  | rotation (value : String)
  | blankLogFolder

/-- The log levels that a project may ask for. -/
def logLevels : List String := ["trace", "debug", "info", "warn", "error"]

/-- How often a new log file may be begun. -/
def rotations : List String := ["daily", "hourly", "never"]

/-- The most digits that a constant may have. -/
def maxPrecision : Nat := 17

def Defect.message : Defect → String
  | .logLevel value => s!"Invalid log_level '{value}'. Must be one of: " ++ ", ".intercalate logLevels
  | .problem defect => defect.message
  | .options defect => defect.message
  | .blankFolder => "output.folder cannot be empty"
  | .blankTypes => "output.real_type and output.int_type cannot be empty"
  | .precision value => s!"output.precision must be between 1 and {maxPrecision}, got {value}"
  | .rotation value => s!"Invalid logging.local_rotation '{value}'. Must be one of: " ++ ", ".intercalate rotations
  | .blankLogFolder => "logging.local_path cannot be empty when local_enabled"

def check (p : Project) : Except Defect Unit := do
  if p.application.logLevel ∉ logLevels then throw (.logLevel p.application.logLevel)
  (p.problem.check).mapError .problem
  (p.options.check).mapError .options
  if Text.allBlank p.output.folder then throw .blankFolder
  if Text.allBlank p.output.realType ∨ Text.allBlank p.output.intType then throw .blankTypes
  if p.output.precision = 0 ∨ maxPrecision < p.output.precision then throw (.precision p.output.precision)
  if p.logging.rotation ∉ rotations then throw (.rotation p.logging.rotation)
  if p.logging.enabled ∧ Text.allBlank p.logging.folder then throw .blankLogFolder

end Project

end ControlCodegen
