import ControlCodegen.Files.System

/-!
# `Files.Tree`: a file system as a value

* `Tree` : files and directories by location. The working directory exists, and so do the directories above it and the
  root.
* `Tree.locate` : follows a path from the working directory, through existing directories only.
* The state monad over trees is a `FileSystem`, with the errors of a POSIX system.
-/

namespace ControlCodegen.Files

set_option autoImplicit false

/-- What stands at a location. -/
inductive Entry where
  | directory
  | file (bytes : ByteArray)

/-- A location: the names from the working directory down. It begins with `..` above the working directory, and with `/`
if it is counted from the root. -/
abbrev Location := List String

namespace Location

/-- The working directory. -/
def working : Location := []

def root : Location := ["/"]

/-- Whether a location exists whatever the files are. -/
def isGiven (l : Location) : Bool := l.all (· = "..") || l = root

/-- The location above. -/
def above (l : Location) : Location := if l = root then root else if l.all (· = "..") then l ++ [".."] else l.dropLast

end Location

/-- Files and directories. -/
structure Tree where
  entries : List (Location × Entry) := []

namespace Tree

def entry? (t : Tree) (l : Location) : Option Entry :=
  if l.isGiven then some .directory else t.entries.lookup l

/-- Puts an entry at a location, in place of what was there. -/
def insert (t : Tree) (l : Location) (e : Entry) : Tree := ⟨(l, e) :: t.entries.filter fun x => x.1 ≠ l⟩

/-- Drops a location and all below it. -/
def erase (t : Tree) (l : Location) : Tree := ⟨t.entries.filter fun x => !l.isPrefixOf x.1⟩

/-- Where a path leads. -/
inductive Target where
  | existing (l : Location) (e : Entry)
  /-- Nothing stands there, but its directory exists. -/
  | missing (l : Location)

/-- The longest name of a file, in bytes. -/
def maxName : Nat := 255

/-- The longest path, in bytes. -/
def maxPath : Nat := 4095

def follow (t : Tree) (here : Location) : List String → Except FileError Target
  | [] =>
    match t.entry? here with
    | some e => .ok (.existing here e)
    | none => .error .notFound
  | s :: rest =>
    match t.entry? here with
    | none => .error .notFound
    | some (.file _) => .error .notDirectory
    | some .directory =>
      if s = "." then follow t here rest
      else if s = ".." then follow t here.above rest
      else if maxName < s.utf8ByteSize then .error .nameTooLong
      else
        let next := here ++ [s]
        if (t.entry? next).isSome then follow t next rest
        else if rest.isEmpty then .ok (.missing next)
        else .error .notFound

def locate (t : Tree) (p : Path) : Except FileError Target :=
  if p.text.toList.any (· = '\x00') then .error .nulInName
  else if p.text.isEmpty then .error .notFound
  else if maxPath < p.text.utf8ByteSize then .error .nameTooLong
  else t.follow (if p.isAbsolute then .root else .working) p.segments

/-- What stands at the end of a path. A slash at the end asks for a directory. -/
def look (t : Tree) (p : Path) : Except FileError Entry :=
  match t.locate p with
  | .error e => .error e
  | .ok (.missing _) => .error .notFound
  | .ok (.existing _ .directory) => .ok .directory
  | .ok (.existing _ (.file bytes)) => if p.endsInSlash then .error .notDirectory else .ok (.file bytes)

/-- Whether there is something at the end of a path. -/
def contains (t : Tree) (p : Path) : Bool := (t.look p).isOk

def isDirectory (t : Tree) (p : Path) : Bool :=
  match t.look p with
  | .ok .directory => true
  | _ => false

def read (t : Tree) (p : Path) : Except FileError ByteArray :=
  match t.look p with
  | .error e => .error e
  | .ok .directory => .error .isDirectory
  | .ok (.file bytes) => .ok bytes

/-- The tree after bytes were put into a file. -/
def write (t : Tree) (p : Path) (bytes : ByteArray) : Except FileError Tree :=
  match t.locate p with
  | .error e => .error e
  | .ok (.existing _ .directory) => .error .isDirectory
  | .ok (.existing l (.file _)) | .ok (.missing l) =>
    if p.endsInSlash then .error .isDirectory else .ok (t.insert l (.file bytes))

def makeDirectory (t : Tree) (p : Path) : Except FileError Tree :=
  match t.locate p with
  | .error e => .error e
  | .ok (.existing _ _) => .error .alreadyExists
  | .ok (.missing l) => .ok (t.insert l .directory)

/-- The tree after a file, or a directory with all it holds, was removed. -/
def remove (t : Tree) (p : Path) : Except FileError Tree :=
  match t.look p, t.locate p with
  | .error e, _ => .error e
  | .ok _, .ok (.existing l _) => .ok (t.erase l)
  | .ok _, _ => .error .notFound

/-- A change of the tree that may be refused. -/
def change (f : Tree → Except FileError Tree) : StateM Tree (Except FileError Unit) := fun t =>
  match f t with
  | .ok t' => (.ok (), t')
  | .error e => (.error e, t)

instance : FileSystem (StateM Tree) where
  contains p := fun t => (t.contains p, t)
  isDirectory p := fun t => (t.isDirectory p, t)
  read p := fun t => (t.read p, t)
  write p bytes := change fun t => t.write p bytes
  makeDirectory p := change fun t => t.makeDirectory p

end Tree

end ControlCodegen.Files
