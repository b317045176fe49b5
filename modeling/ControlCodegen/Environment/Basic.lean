/-!
# `Environment`: variables of the surrounding system
-/

namespace ControlCodegen

set_option autoImplicit false

/-- The values of variables by name. -/
abbrev Environment := String → Option String

namespace Environment

def empty : Environment := fun _ => none

/-- The variables of a list; of two values of one name the first counts. -/
def ofList (vs : List (String × String)) : Environment := fun name => vs.lookup name

/-- The variable of a text `NAME=VALUE`. -/
def assignment? (cs : List Char) : Option (String × String) :=
  match cs.dropWhile (· ≠ '=') with
  | [] => none
  | _ :: value => some (String.ofList (cs.takeWhile (· ≠ '=')), String.ofList value)

/-- The variables of a block of assignments, each ended by a zero byte. One that is not in UTF-8 is left out. -/
def ofBlock (block : ByteArray) : Environment :=
  let texts := (block.toList.splitOn 0).map fun bytes => String.fromUTF8? ⟨bytes.toArray⟩
  ofList (texts.filterMap fun text => text.bind fun s => assignment? s.toList)

/-- Gives a variable a value, unless it has one. -/
def add (env : Environment) (name value : String) : Environment := fun n =>
  if n = name ∧ (env name).isNone then some value else env n

theorem add_of_isSome {env : Environment} {name value : String} (h : (env name).isSome) :
    env.add name value = env := by
  funext n
  have hn : (env name).isNone = false := by simpa using h
  simp [add, hn]

theorem add_of_ne {env : Environment} {name value n : String} (h : n ≠ name) : env.add name value n = env n := by
  simp [add, h]

end Environment

end ControlCodegen
