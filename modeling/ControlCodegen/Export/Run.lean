import ControlCodegen.Export.Steps
import ControlCodegen.Export.Summary

/-!
# `Export.Run`: an export from start to end

An export makes the target directory, sets the session up and takes the steps of the plan one after the other. The first
failure ends it, and files that are already written stay. What the user is told goes out as `Message`s, also when the
export fails.
-/

namespace ControlCodegen

set_option autoImplicit false

/-- Something that the user is told. -/
inductive Message where
  | banner (text : String)
  | info (text : String)
  | warning (text : String)
  deriving DecidableEq, Repr

namespace Export

/-- The line at the start of an export. -/
def bannerText : String := s!"{programName} - code generation of real-time optimal control solvers"

/-- An export that is going on: it tells the user things, keeps a session and may fail. -/
abbrev Run (m : Type → Type) (α : Type) := ExceptT ExportError (StateT (Session × List Message) m) α

section

variable {m : Type → Type} [Monad m] [Files.FileSystem m]

def tell (message : Message) : Run m Unit := modify fun (session, told) => (session, told ++ [message])

/-- A step on files, whose failure is that of an artifact. -/
def attempt {α : Type} (artifact : String) (action : Files.Action m Cause α) : Run m α := do
  match ← (action.run : m (Except Cause α)) with
  | .ok a => return a
  | .error cause => throw (ExportError.whileExporting artifact cause)

def Draft.write (d : Draft) : Files.Action m Cause Unit := do
  match d.text with
  | .ok text => (Files.writeText d.path text).adapt Cause.file
  | .error cause => throw cause

def Step.take (s : Summary) : Step → Run m Summary
  | .produce kind blame drafts => do
    drafts.forM fun d => attempt blame d.write
    drafts.foldlM (fun s d => attempt d.path.shownName ((s.record kind d.path).adapt Cause.file)) s
  | .warn text => do
    tell (.warning text)
    return s.warn text

def makeTarget (target : Target) : Run m Unit :=
  attempt target.dir.text ((Files.makeDirectories target.dir).adapt Cause.file)

def setUp : Run m Plan := do
  let (session, told) ← get
  match session.setup with
  | .ok (session, plan) =>
    set (session, told)
    return plan
  | .error cause => throw (.plain cause)

/-- The export of a session, from the directory to the last file. -/
def produce (target : Target) (startedAt : Moment) : Run m Summary := do
  tell (.banner bannerText)
  makeTarget target
  let plan ← setUp
  let (session, _) ← get
  if let some text := session.dimensionsMessage then tell (.info text)
  (steps plan session.options target).foldlM Step.take { moduleName := session.options.moduleName, startedAt }

/-- What an export leaves. -/
structure Outcome where
  result : Except ExportError Summary
  session : Session
  messages : List Message

def exportCode (session : Session) (target : Target) (startedAt : Moment) : m Outcome := do
  let (result, session, messages) ← ((produce target startedAt : Run m Summary).run).run (session, [])
  return { result, session, messages }

end

end Export

end ControlCodegen
