/-!
# `Document.Data`: structured data

The values that a project file or a report holds, whatever its notation: tables keep their entries in the order they
were read.
-/

namespace ControlCodegen.Document

set_option autoImplicit false

/-- A structured value. -/
inductive Data where
  | null
  | flag (value : Bool)
  | whole (value : Int)
  | real (value : Float)
  | text (value : String)
  /-- A date, a time or both. -/
  | moment (value : String)
  | list (items : List Data)
  | table (entries : List (String × Data))

namespace Data

/-- The value under a key of a table; of two entries with one key the last counts. -/
def get? (d : Data) (key : String) : Option Data :=
  match d with
  | table entries => (entries.reverse.find? fun e => e.1 = key).map Prod.snd
  | _ => none

end Data

end ControlCodegen.Document
