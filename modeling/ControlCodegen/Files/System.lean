import ControlCodegen.Files.Path

/-!
# `Files.System`: files of a surrounding system

* `FileSystem m` : a monad `m` in which files can be read and written. A real file system is one, and so is the state
  monad over a file tree, in which a program can be reasoned about.
* `Action m ε α` : a step in such a monad that may fail. What was changed before a failure stays changed.
* `readText`, `writeText`, `makeDirectories` : steps that are put together from the operations of the system.
-/

namespace ControlCodegen.Files

set_option autoImplicit false

/-- Why a file operation fails. -/
inductive FileError where
  | notFound
  | alreadyExists
  | notDirectory
  | isDirectory
  | nameTooLong
  | nulInName
  | notUtf8
  /-- An error that is known by its text only. -/
  | other (text : String)
  deriving DecidableEq, Repr

/-- The wording of a failed operation, with the number of the error where the system has one. -/
def FileError.message : FileError → String
  | .notFound => "No such file or directory (os error 2)"
  | .alreadyExists => "File exists (os error 17)"
  | .notDirectory => "Not a directory (os error 20)"
  | .isDirectory => "Is a directory (os error 21)"
  | .nameTooLong => "File name too long (os error 36)"
  | .nulInName => "file name contained an unexpected NUL byte"
  | .notUtf8 => "stream did not contain valid UTF-8"
  | .other text => text

/-- A monad with files. -/
class FileSystem (m : Type → Type) where
  /-- Whether there is something at the end of a path. -/
  contains : Path → m Bool
  /-- Whether a path leads to a directory. -/
  isDirectory : Path → m Bool
  /-- The bytes of a file. -/
  read : Path → m (Except FileError ByteArray)
  /-- Puts bytes into a file, which is made if its directory exists. -/
  write : Path → ByteArray → m (Except FileError Unit)
  /-- Makes a directory in an existing one. -/
  makeDirectory : Path → m (Except FileError Unit)

/-- A step that may fail. -/
abbrev Action (m : Type → Type) (ε α : Type) := ExceptT ε m α

section

variable {m : Type → Type} [Monad m] [FileSystem m]

def read (p : Path) : Action m FileError ByteArray := ExceptT.mk (FileSystem.read p)

def readText (p : Path) : Action m FileError String := do
  match String.fromUTF8? (← read p) with
  | some s => return s
  | none => throw .notUtf8

def writeText (p : Path) (text : String) : Action m FileError Unit := ExceptT.mk (FileSystem.write p text.toUTF8)

def makeDirectory (p : Path) : Action m FileError Unit := ExceptT.mk (FileSystem.makeDirectory p)

/-- Lets an error pass where there is a directory all the same. -/
def unlessDirectory (p : Path) (e : FileError) : Action m FileError Unit := do
  if (← (FileSystem.isDirectory p : m Bool)) then pure () else throw e

/-- Makes the directory that the components, last one first, lead to, and those on the way to it. -/
def makeChain (absolute : Bool) : List String → Action m FileError Unit
  | [] => pure ()
  | c :: above =>
    let p := Path.ofComponents absolute (c :: above).reverse
    tryCatch (makeDirectory p) fun
      | .notFound => do
        makeChain absolute above
        tryCatch (makeDirectory p) (unlessDirectory p)
      | e => unlessDirectory p e

/-- Makes a directory and those on the way to it. Nothing is made for the empty path. -/
def makeDirectories (p : Path) : Action m FileError Unit :=
  if p.text.isEmpty then pure ()
  else
    tryCatch (makeDirectory p) fun
      | .notFound => do
        makeChain p.isAbsolute p.components.reverse.tail
        tryCatch (makeDirectory p) (unlessDirectory p)
      | e => unlessDirectory p e

end

end ControlCodegen.Files
