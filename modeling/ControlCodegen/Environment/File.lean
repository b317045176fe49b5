import ControlCodegen.Environment.Basic
import ControlCodegen.Files.System
import ControlCodegen.Text.Alphanumeric
import ControlCodegen.Text.Blank

/-!
# `Environment.File`: a file of variables

Each line assigns a value to a variable; variables that are set already stay as they are. A quoted value may go over
several lines. The first line that cannot be read ends the file.

* `logicalLines` : the lines of a file, put together where quotes or a backslash leave one open.
* `value` : what a written value stands for, with the values of other variables in place of `$NAME` and `$\x7bNAME\x7d`.
* `assignment?` : the variable and the value of a line.
* `extend` : an environment with the variables of a file.
-/

namespace ControlCodegen.Environment.File

open Text

set_option autoImplicit false

/-! ## Lines -/

/-- What a character of a line stands in. -/
inductive Quoting where
  | outside
  /-- Behind a blank, where a comment may begin. -/
  | blank
  | escape
  | single
  | singleEscape
  | double
  | doubleEscape
  deriving DecidableEq, Repr

/-- What comes after a character outside of quotes, whose class of blanks is given. -/
def Quoting.opened (c : Char) (blank : Bool) : Quoting :=
  if blank then .blank
  else if c = '\\' then .escape
  else if c = '"' then .double
  else if c = '\'' then .single
  else .outside

def Quoting.next (q : Quoting) (c : Char) : Quoting :=
  match q with
  | outside => opened c (isBlank c && c ≠ '\n' && c ≠ '\r')
  | blank => opened c false
  | escape => outside
  | single => if c = '\\' then singleEscape else if c = '\'' then outside else single
  | singleEscape => single
  | double => if c = '\\' then doubleEscape else if c = '"' then outside else double
  | doubleEscape => double

/-- The text in front of a comment, if a comment begins, and what the text ends in. -/
def scan (q : Quoting) : List Char → Option (List Char) × Quoting
  | [] => (none, q)
  | c :: cs =>
    if q = .blank ∧ c = '#' then (some [], q)
    else
      let (before, last) := scan (q.next c) cs
      (before.map (c :: ·), last)

/-- The lines of a text with their endings. -/
def linesWithEndings : List Char → List (List Char)
  | [] => []
  | '\n' :: r => ['\n'] :: linesWithEndings r
  | c :: r =>
    match linesWithEndings r with
    | [] => [[c]]
    | l :: ls => (c :: l) :: ls

def dropEnding (l : List Char) : List Char :=
  match l.reverse with
  | '\n' :: '\r' :: r => r.reverse
  | '\n' :: r => r.reverse
  | _ => l

def isComment (l : List Char) : Bool := (trimStart l).head? = some '#'

/-- Puts lines together, with `opened` in front of the first one. A line that is still open at the end does not count. -/
def joinLines (q : Quoting) (opened : List Char) : List (List Char) → List (List Char)
  | [] => []
  | l :: ls =>
    if isComment (opened ++ l) then [] :: joinLines .outside [] ls
    else
      match scan q l with
      | (some before, _) => (opened ++ before) :: joinLines .outside [] ls
      | (none, .outside) => dropEnding (opened ++ l) :: joinLines .outside [] ls
      | (none, open_) => joinLines open_ (opened ++ l) ls

/-- The lines of a file. A byte order mark in front does not count. -/
def logicalLines (text : List Char) : List (List Char) :=
  let text := match text with
    | '\ufeff' :: r => r
    | cs => cs
  joinLines .outside [] (linesWithEndings text)

/-! ## Values -/

/-- What a character of a value stands in. -/
inductive Mode where
  | plain
  | single
  | double
  /-- Behind a backslash. -/
  | escape (quoted : Bool)
  /-- In a name behind `$`. -/
  | name (quoted : Bool) (read : List Char)
  /-- In a name in braces. -/
  | braced (quoted : Bool) (read : List Char)
  /-- Behind the value, where only a comment may follow. -/
  | ended

/-- Where a value goes on that stands in double quotes or not. -/
def Mode.back (quoted : Bool) : Mode := if quoted then .double else .plain

/-- The value of a variable, which is empty if it has none. -/
def valueOf (env : Environment) (name : List Char) : List Char := ((env (String.ofList name)).getD "").toList

/-- Whether a character stands for itself behind a backslash. -/
def isEscapable (c : Char) : Bool := c = '\\' || c = '\'' || c = '"' || c = '$' || c = ' '

def value (env : Environment) : Mode → List Char → Option (List Char)
  | .plain, [] | .escape false, [] | .ended, [] => some []
  | .name false read, [] => some (valueOf env read)
  | .single, [] | .double, [] | .escape true, [] | .name true _, [] | .braced _ _, [] => none
  | .ended, c :: r => if c = ' ' ∨ c = '\t' then value env .ended r else if c = '#' then some [] else none
  | .escape quoted, c :: r =>
    if isEscapable c then (value env (.back quoted) r).map (c :: ·)
    else if c = 'n' then (value env (.back quoted) r).map ('\n' :: ·)
    else none
  | .single, c :: r => if c = '\'' then value env .plain r else (value env .single r).map (c :: ·)
  | .name quoted read, c :: r =>
    if isAlphanumeric c then value env (.name quoted (read ++ [c])) r
    else if c = '\x7b' ∧ read = [] then value env (.braced quoted []) r
    else if c = '$' then (value env (.name quoted []) r).map (valueOf env read ++ ·)
    else (value env (.back quoted) r).map (valueOf env read ++ c :: ·)
  | .braced quoted read, c :: r =>
    if c = '\x7d' then (value env (.back quoted) r).map (valueOf env read ++ ·)
    else value env (.braced quoted (read ++ [c])) r
  | .double, c :: r =>
    if c = '$' then value env (.name true []) r
    else if c = '"' then value env .plain r
    else if c = '\\' then value env (.escape true) r
    else (value env .double r).map (c :: ·)
  | .plain, c :: r =>
    if c = '$' then value env (.name false []) r
    else if c = '\'' then value env .single r
    else if c = '"' then value env .double r
    else if c = '\\' then value env (.escape false) r
    else if c = ' ' ∨ c = '\t' then value env .ended r
    else (value env .plain r).map (c :: ·)

/-! ## Assignments -/

/-- What a line does. -/
inductive Assignment where
  | nothing
  | set (name value : String)

/-- A name and the text behind it and the blanks after it. -/
def name? : List Char → Option (String × List Char)
  | [] => none
  | c :: r =>
    if c.isAlpha || c = '_' then
      let inside (c : Char) : Bool := c.isAlphanum || c = '_' || c = '.'
      some (String.ofList (c :: r.takeWhile inside), trimStart (r.dropWhile inside))
    else none

/-- The text behind an equals sign and blanks. -/
def equals? : List Char → Option (List Char)
  | '=' :: r => some (trimStart r)
  | _ => none

/-- The name that a line assigns to and the written value. The word `export` may stand in front. -/
def target? (l : List Char) : Option (String × List Char) := do
  let (name, rest) ← name? l
  match equals? rest with
  | some written => return (name, written)
  | none =>
    if name = "export" then
      let (name, rest) ← name? rest
      return (name, ← equals? rest)
    else failure

/-- What a line does, if it can be read. -/
def assignment? (env : Environment) (l : List Char) : Option Assignment :=
  let l := trim l
  if l.isEmpty ∨ l.head? = some '#' then some .nothing
  else do
    let (name, written) ← target? l
    if written.isEmpty ∨ written.head? = some '#' then return .set name ""
    else return .set name (String.ofList (← value env .plain written))

def assignAll (env : Environment) : List (List Char) → Environment
  | [] => env
  | l :: ls =>
    match assignment? env l with
    | none => env
    | some .nothing => assignAll env ls
    | some (.set name value) => assignAll (env.add name value) ls

/-- The environment with the variables of a file. -/
def extend (env : Environment) (text : String) : Environment := assignAll env (logicalLines text.toList)

/-! ## Finding the file -/

/-- Where the file may be: in the working directory or in one of so many directories above it. -/
def candidates (levels : Nat) : List Files.Path :=
  (List.range (levels + 1)).map fun k => ⟨String.join (List.replicate k "../") ++ ".env"⟩

variable {m : Type → Type} [Monad m] [Files.FileSystem m]

/-- The environment with the variables of the first file that is found. A file that cannot be read has none. -/
def loadFrom (env : Environment) : List Files.Path → m Environment
  | [] => return env
  | p :: ps => do
    if (← Files.FileSystem.contains p) && !(← Files.FileSystem.isDirectory p) then
      match ← (Files.readText p : Files.Action m Files.FileError String).run with
      | .ok text => return extend env text
      | .error _ => return env
    else loadFrom env ps

/-- The environment with the variables of a file in the working directory or above it. -/
def load (env : Environment) (levels : Nat) : m Environment := loadFrom env (candidates levels)

end ControlCodegen.Environment.File
