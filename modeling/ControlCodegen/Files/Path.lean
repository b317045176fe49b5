/-!
# `Files.Path`: paths as text and by their parts

A path is shown as it was given. Its `segments` are what stands between slashes; its `components` leave out the single
dots after the start, and two paths are the same when their components are.
-/

namespace ControlCodegen.Files

set_option autoImplicit false

/-- A path in the notation of the file system. -/
structure Path where
  text : String
  deriving DecidableEq, Repr, Inhabited

namespace Path

instance : ToString Path := ⟨Path.text⟩

def isAbsolute (p : Path) : Bool := p.text.toList.head? = some '/'

def endsInSlash (p : Path) : Bool := p.text.toList.getLast? = some '/'

/-- Splits a text at slashes. -/
def splitSlash : List Char → List (List Char)
  | [] => [[]]
  | c :: r =>
    if c = '/' then [] :: splitSlash r
    else
      match splitSlash r with
      | [] => [[c]]
      | s :: ss => (c :: s) :: ss

/-- The nonempty texts between slashes. -/
def segments (p : Path) : List String :=
  ((splitSlash p.text.toList).filter (!·.isEmpty)).map String.ofList

/-- The segments without single dots, of which only one at the start of a relative path counts. -/
def components (p : Path) : List String :=
  match p.segments with
  | [] => []
  | s :: rest =>
    let rest := rest.filter (· ≠ ".")
    if s = "." ∧ p.isAbsolute then rest else s :: rest

/-- Whether two paths have the same components. -/
def same (p q : Path) : Bool := p.isAbsolute = q.isAbsolute && p.components = q.components

/-- A path below another; an absolute one replaces it. -/
def join (p : Path) (name : String) : Path :=
  if (Path.mk name).isAbsolute then ⟨name⟩
  else if p.text.isEmpty || p.endsInSlash then ⟨p.text ++ name⟩
  else ⟨p.text ++ "/" ++ name⟩

/-- The last component, unless it leads upwards. -/
def fileName? (p : Path) : Option String :=
  p.components.getLast?.filter fun s => s ≠ ".." ∧ s ≠ "."

/-- How a path is called in messages about the file: its last component, else the path itself. -/
def shownName (p : Path) : String := p.fileName?.getD p.text

def ofComponents (absolute : Bool) (cs : List String) : Path :=
  ⟨(if absolute then "/" else "") ++ "/".intercalate cs⟩

def parent? (p : Path) : Option Path :=
  if p.components.isEmpty then none else some (ofComponents p.isAbsolute p.components.dropLast)

end Path

end ControlCodegen.Files
