import ControlCodegen.Version

/-!
# `Command.Switch`: switches on a command line

A `Grammar` has the switches and the command words of a command line. A switch is written with two dashes and its name,
or with one dash and its letter; letters may share a dash. `Grammar.scan` goes through the words of a command line up to
the first command word.

The value of a switch comes behind an equals sign, behind the letter or as the next word. A value that comes as a word of
its own is taken in when the next switch is met, or at the end, and only then is it seen that a switch is repeated.
-/

namespace ControlCodegen.Command

set_option autoImplicit false

/-- Why a command line cannot be followed, or need not. -/
inductive UsageError where
  /-- Help is asked for. -/
  | help
  /-- The version is asked for. -/
  | version
  | nothingGiven
  | missingCommand
  | unknownCommand (word : String)
  | unknownArgument (word : String)
  | missingValue (switch : String)
  | unexpectedValue (switch : String)
  | repeated (switch : String)
  deriving DecidableEq, Repr

namespace UsageError

/-- The exit code: asking for help or the version is no failure. -/
def exitCode : UsageError → Nat
  | help | version => 0
  | _ => 2

def message : UsageError → String
  | help | nothingGiven => s!"Usage: {programName} [OPTIONS] <COMMAND>"
  | version => s!"{programName} {ControlCodegen.version}"
  | missingCommand => s!"error: '{programName}' requires a subcommand but one was not provided"
  | unknownCommand word => s!"error: unrecognized subcommand '{word}'"
  | unknownArgument word => s!"error: unexpected argument '{word}' found"
  | missingValue switch => s!"error: a value is required for '--{switch}' but none was supplied"
  | unexpectedValue switch => s!"error: unexpected value for '--{switch}' found; no more were expected"
  | repeated switch => s!"error: the argument '--{switch}' cannot be used multiple times"

end UsageError

/-- What a switch is for. -/
inductive SwitchKind where
  /-- It has a value. -/
  | value
  /-- It is given or not. -/
  | flag
  | help
  | version
  deriving DecidableEq, Repr

/-- A switch. -/
structure Switch where
  name : String
  letter : Option Char := none
  kind : SwitchKind
  deriving DecidableEq, Repr

/-- The switches and command words of a command line. -/
structure Grammar where
  switches : List Switch
  words : List String := []

/-- What has been found on a command line. -/
structure Findings where
  /-- The values of switches by name, in the order in which they were taken in. -/
  given : List (String × String) := []
  /-- A switch that is not taken in yet, and its value once there is one. -/
  open? : Option (Switch × Option String) := none

namespace Findings

/-- Takes in the value of a switch. -/
def record (f : Findings) (w : Switch) (value : String) : Except UsageError Findings :=
  if (f.given.lookup w.name).isSome then .error (.repeated w.name)
  else .ok { f with given := f.given ++ [(w.name, value)] }

/-- Takes in the open switch. -/
def settle (f : Findings) : Except UsageError Findings :=
  match f.open? with
  | none => .ok f
  | some (w, none) => .error (.missingValue w.name)
  | some (w, some value) => ({ f with open? := none } : Findings).record w value

def awaitsValue (f : Findings) : Bool :=
  match f.open? with
  | some (_, none) => true
  | _ => false

/-- Meets a switch, with its value if that is attached. -/
def meet (f : Findings) (w : Switch) (attached : Option String) : Except UsageError Findings := do
  let f ← f.settle
  match w.kind with
  | .help => throw .help
  | .version => throw .version
  | .flag => f.record w ""
  | .value =>
    match attached with
    | some value => f.record w value
    | none => return { f with open? := some (w, none) }

def value? (f : Findings) (name : String) : Option String := f.given.lookup name

def has (f : Findings) (name : String) : Bool := (f.value? name).isSome

end Findings

namespace Grammar

/-- A word behind two dashes: the name of a switch, and its value behind an equals sign. -/
def long (g : Grammar) (f : Findings) (text : List Char) : Except UsageError Findings :=
  let name := String.ofList (text.takeWhile (· ≠ '='))
  let attached := match text.dropWhile (· ≠ '=') with
    | [] => none
    | _ :: value => some (String.ofList value)
  match g.switches.find? (·.name = name) with
  | none => .error (.unknownArgument s!"--{name}")
  | some w => if w.kind ≠ .value ∧ attached.isSome then .error (.unexpectedValue name) else f.meet w attached

def attachedTo : List Char → Option String
  | [] => none
  | '=' :: value => some (String.ofList value)
  | value => some (String.ofList value)

def letters (g : Grammar) (f : Findings) : List Char → Except UsageError Findings
  | [] => .ok f
  | c :: r =>
    match g.switches.find? (·.letter = some c) with
    | none => .error (.unknownArgument s!"-{c}")
    | some w =>
      if w.kind = .value then f.meet w (attachedTo r)
      else do letters g (← f.meet w none) r

/-- What is wrong with a word that is neither switch nor value. Behind a double dash a command word is just a word. -/
def stray (g : Grammar) (behindDashes : Bool) (word : String) : UsageError :=
  if g.words.isEmpty ∨ (behindDashes ∧ word ∈ g.words) then .unknownArgument word else .unknownCommand word

/-- Goes through a command line up to the first command word, which begins the rest. -/
def scan (g : Grammar) (f : Findings) : List String → Except UsageError (Findings × List String)
  | [] => .ok (f, [])
  | a :: rest =>
    if a ∈ g.words ∧ ¬f.awaitsValue then .ok (f, a :: rest)
    else if a = "--" then
      match rest with
      | [] => .ok (f, [])
      | b :: _ => .error (g.stray true b)
    else
      match a.toList, f.open? with
      | '-' :: '-' :: text, _ => do scan g (← g.long f text) rest
      | '-' :: c :: text, _ => do scan g (← g.letters f (c :: text)) rest
      | _, some (w, none) => scan g { f with open? := some (w, some a) } rest
      | _, _ => .error (g.stray false a)

/-- The findings on a command line without command words. -/
def read (g : Grammar) (args : List String) : Except UsageError Findings := do
  let (f, _) ← g.scan {} args
  f.settle

end Grammar

end ControlCodegen.Command
