import ControlCodegen.Command.Run
import Std.Time.DateTime.Timestamp

/-!
# `Main`: the program

The files, the variables and the clock of the system that the program runs on.
-/

namespace ControlCodegen

set_option autoImplicit false

def Files.FileError.ofIO (e : IO.Error) : Files.FileError :=
  match e with
  | .noFileOrDirectory .. => .notFound
  | .alreadyExists .. => .alreadyExists
  | .inappropriateType _ code _ =>
    if code = 20 then .notDirectory else if code = 21 then .isDirectory else .other (toString e)
  | .invalidArgument _ code _ => if code = 36 then .nameTooLong else .other (toString e)
  | _ => .other (toString e)

/-- An action of the system with its errors in hand. -/
def tryAction {α : Type} (action : IO α) : IO (Except Files.FileError α) := do
  match ← action.toBaseIO with
  | .ok a => return .ok a
  | .error e => return .error (.ofIO e)

/-- Opens what is at the end of a path and reads a byte of it. -/
def probe (p : Files.Path) : IO (Except Files.FileError Unit) :=
  tryAction do
    let h ← IO.FS.Handle.mk p.text .read
    let _ ← h.read 1

instance : Files.FileSystem IO where
  contains p := do
    match ← probe p with
    | .error .notFound | .error .notDirectory | .error .nameTooLong => return false
    | _ => return true
  isDirectory p := do
    match ← probe p with
    | .error .isDirectory => return true
    | _ => return false
  read p := tryAction (IO.FS.readBinFile p.text)
  write p bytes := tryAction (IO.FS.writeBinFile p.text bytes)
  makeDirectory p := tryAction (IO.FS.createDir p.text)

def systemVariables : IO Environment := do
  match ← tryAction (IO.FS.readBinFile "/proc/self/environ") with
  | .error _ => return .empty
  | .ok bytes => return .ofBlock bytes

def presentMoment : IO Moment := do
  return .ofNanos (← Std.Time.Timestamp.now).toNanosecondsSinceUnixEpoch.val

def Command.Line.print : Command.Line → IO Unit
  | .out text => IO.println text
  | .err text => IO.eprintln text

end ControlCodegen

open ControlCodegen in
/-- Follows the command line, prints what there is to say and ends with the exit code. -/
def main (args : List String) : IO UInt32 := do
  let above := (Files.Path.mk (toString (← IO.currentDir))).components.length
  let (code, lines) ← (Command.runProgram (← systemVariables) above presentMoment args).run []
  lines.forM Command.Line.print
  return code.toUInt32
