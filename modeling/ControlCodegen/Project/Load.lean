import ControlCodegen.Document.Toml
import ControlCodegen.Environment.Reference
import ControlCodegen.Project.Decode
import ControlCodegen.Project.Overrides

/-!
# `Project.Load`: reading a project file

A project file is filled in with the values of variables, read as TOML, overridden and checked, in this order; the first
failure counts.

`Logging.prepare` makes ready for log files: the level has to be known, and the folder is made if files are wanted.
-/

namespace ControlCodegen

open Document

set_option autoImplicit false

namespace Project

def ofText (env : Environment) (text : String) : Except Cause Project := do
  let text ← env.fill text
  match (Toml.parse? text).bind (decode? Toml.fieldNotation) with
  | none => throw .unparsedConfiguration
  | some p =>
    let p ← p.override env
    (p.check).mapError fun defect => .invalidConfiguration defect.message
    return p

variable {m : Type → Type} [Monad m] [Files.FileSystem m]

def load (env : Environment) (path : Files.Path) : Files.Action m Cause Project := do
  if (← (Files.FileSystem.contains path : m Bool)) then
    let text ← (Files.readText path).adapt (Cause.unreadableConfiguration path)
    match ofText env text with
    | .ok p => return p
    | .error cause => throw cause
  else throw (.missingConfiguration path)

end Project

namespace Logging

/-- Whether a log level is known, in capitals or not. -/
def isLevel (level : String) : Bool := String.ofList (level.toList.map Char.toLower) ∈ Project.logLevels

variable {m : Type → Type} [Monad m] [Files.FileSystem m]

/-- Makes ready for log files. -/
def prepare (l : Logging) (level : String) : Files.Action m Cause Unit := do
  if !isLevel level then throw (.invalidLogLevel level)
  if l.enabled then (Files.makeDirectories ⟨l.folder⟩).adapt (Cause.logDirectory ⟨l.folder⟩)

end Logging

end ControlCodegen
