import ControlCodegen.Document.Data
import ControlCodegen.Document.Toml.Token

/-!
# `Document.Toml.Outline`: tables under construction

A document names its tables in headers and in dotted keys, and each kind of naming limits what may be added later. An
`Outline` is a table whose parts still know how they were named.

* `Outline.descend` : changes the table at the end of a path, and makes the tables that are missing on the way.
* `Outline.insert` : an entry under a dotted key. No key is given twice, and a dotted key adds to tables only that
  dotted keys made.
* `Outline.openTable`, `Outline.openItem` : a header of a table, and a header of the next table of a list.
-/

namespace ControlCodegen.Document.Toml

set_option autoImplicit false

/-- How a table came to be. -/
inductive Origin where
  /-- Under a header of its own, or as a whole document. -/
  | header
  /-- On the way to a header. -/
  | passage
  /-- On the way to a dotted key. -/
  | dotted
  deriving DecidableEq, Repr

mutual

/-- What a name in a table stands for. -/
inductive Item where
  | value (d : Data)
  | table (t : Outline)
  /-- A list of tables that headers extend. -/
  | tables (earlier : List Outline) (last : Outline)

/-- A table that may still get entries. -/
inductive Outline where
  | mk (origin : Origin) (entries : List (String × Item))

end

namespace Outline

def origin : Outline → Origin
  | mk origin _ => origin

def entries : Outline → List (String × Item)
  | mk _ entries => entries

def empty (origin : Origin) : Outline := mk origin []

def get? (t : Outline) (name : String) : Option Item := t.entries.lookup name

/-- Gives a name a meaning, in place of what it had. -/
def put (t : Outline) (name : String) (i : Item) : Outline :=
  if (t.get? name).isSome then mk t.origin (t.entries.map fun e => if e.1 = name then (name, i) else e)
  else mk t.origin (t.entries ++ [(name, i)])

/-- Changes the table at the end of a path. A list of tables stands for its last one, and a table with a header is
closed to dotted keys. -/
def descend (made : Origin) (change : Outline → Option Outline) : List String → Outline → Option Outline
  | [], t => change t
  | name :: path, t =>
    match t.get? name with
    | none => do return t.put name (.table (← descend made change path (empty made)))
    | some (.value _) => none
    | some (.tables earlier last) => do return t.put name (.tables earlier (← descend made change path last))
    | some (.table inner) =>
      if made = .dotted ∧ inner.origin = .header then none
      else do return t.put name (.table (← descend made change path inner))

def insert (k : Key) (d : Data) (t : Outline) : Option Outline :=
  descend .dotted (fun inner =>
    if (k.path = [] ∨ inner.origin = .dotted) ∧ (inner.get? k.name).isNone then some (inner.put k.name (.value d))
    else none) k.path t

/-- The table of a header. Only a table that lies on the way to another header may have been there before. -/
def openTable (k : Key) (t : Outline) : Option Outline :=
  descend .passage (fun parent =>
    match parent.get? k.name with
    | none => some (parent.put k.name (.table (empty .header)))
    | some (.table inner) =>
      if inner.origin = .passage then some (parent.put k.name (.table (mk .header inner.entries))) else none
    | some _ => none) k.path t

/-- The next table of a list. -/
def openItem (k : Key) (t : Outline) : Option Outline :=
  descend .passage (fun parent =>
    match parent.get? k.name with
    | none => some (parent.put k.name (.tables [] (empty .header)))
    | some (.tables earlier last) => some (parent.put k.name (.tables (earlier ++ [last]) (empty .header)))
    | some _ => none) k.path t

def insertAll (t : Outline) (es : List (Key × Data)) : Option Outline :=
  es.foldlM (fun t e => t.insert e.1 e.2) t

end Outline

mutual

def Item.toData : Item → Data
  | .value d => d
  | .table t => t.toData
  | .tables earlier last => .list (listData earlier ++ [last.toData])

def Outline.toData : Outline → Data
  | .mk _ entries => .table (entryData entries)

def listData : List Outline → List Data
  | [] => []
  | t :: ts => t.toData :: listData ts

def entryData : List (String × Item) → List (String × Data)
  | [] => []
  | (name, i) :: es => (name, i.toData) :: entryData es

end

end ControlCodegen.Document.Toml
