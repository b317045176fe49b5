import ControlCodegen.Decimal.Binary
import ControlCodegen.Document.Data

/-!
# `Document.Fields`: structured values inside data

* `Notation` : what the notations of data disagree on when they spell out structured values.
* `Fields` : the fields of a structured value, which is a table of them or the list of them in order; a field that is
  not known is ignored.
* `asWhole`, `asReal`, `asFlag`, `asText`, `asList`, `asChoice`, `asOptional` : values of one type.
-/

namespace ControlCodegen.Document

set_option autoImplicit false

/-- What notations disagree on. -/
structure Notation where
  /-- Whether a list may go on after the last field. -/
  openLists : Bool
  /-- Whether a table may have a field more than once; the last one counts then. -/
  repeats : Bool
  /-- What stands beside the name of a choice that is written as a table. -/
  isNothing : Data → Bool

/-- The fields of a structured value by name. -/
abbrev Fields := String → Option Data

namespace Fields

/-- The fields of a value, whose names are given in order. A moment counts as a table without known fields. -/
def of? (nt : Notation) (names : List String) (d : Data) : Option Fields :=
  match d with
  | .table entries =>
    let known := (entries.map Prod.fst).filter (· ∈ names)
    if nt.repeats ∨ known.Nodup then some d.get? else none
  | .moment _ => some fun _ => none
  | .list items =>
    if items.length ≤ names.length ∨ nt.openLists then some fun name => (names.zip items).lookup name else none
  | .null | .flag _ | .whole _ | .real _ | .text _ => none

variable {α : Type}

/-- A field that has to be there. -/
def required (f : Fields) (name : String) (read : Data → Option α) : Option α := (f name).bind read

/-- A field that may be left out. -/
def default (f : Fields) (name : String) (read : Data → Option α) (standard : α) : Option α :=
  match f name with
  | none => some standard
  | some d => read d

end Fields

variable {α : Type}

/-- A whole number of 64 bits without a sign. -/
def asWhole : Data → Option Nat
  | .whole n => if 0 ≤ n ∧ n < Decimal.wordBound then some n.toNat else none
  | _ => none

/-- A real number; a whole number stands for the nearest double. -/
def asReal : Data → Option Float
  | .real v => some v
  | .whole n => some (Decimal.Binary64.nearestDecimal (decide (n < 0)) n.natAbs 0).toFloat
  | _ => none

def asFlag : Data → Option Bool
  | .flag b => some b
  | _ => none

def asText : Data → Option String
  | .text s => some s
  | _ => none

def asList (read : Data → Option α) : Data → Option (List α)
  | .list items => items.mapM read
  | _ => none

def asOptional (read : Data → Option α) : Data → Option (Option α)
  | .null => some none
  | d => (read d).map some

/-- A member of an enumeration, by its name or as a table with that name and nothing else. -/
def asNamed (nt : Notation) (ofName? : String → Option α) : Data → Option α
  | .text s => ofName? s
  | .table [(s, d)] => if nt.isNothing d then ofName? s else none
  | _ => none

end ControlCodegen.Document
