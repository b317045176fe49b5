import ControlCodegen.Proofs.C.Reading

/-!
# `C.Exchange`: structs, and what is copied between them

* `shape`, `words` : the marks of a line with gaps for its words, and the words.
* `Source.definitions`, `Source.macros` : the macros that stand for a word, and those that stand for a number.
* `Field`, `Source.fields`, `Source.arrays` : the arrays in the structs of a text, and those that are compiled.
* `pointers`, `Source.pointers` : the variables that point to a struct.
* `Copy`, `Source.copies` : the statements that copy between a member of a struct and what a pointer leads to.
-/

namespace ControlCodegen.C

open Text Preprocessor

set_option autoImplicit false

section

variable {α : Type}

/-! ## Lines -/

/-- The marks of a line, with gaps for words. -/
def shape (ls : List (Lexeme α)) : List (Option Char) :=
  ls.map fun
    | .word _ => none
    | .mark c => some c
    | .quotation => some '"'
    | .blank => some ' '

/-- The words of a line. -/
def words (ls : List (Lexeme α)) : List (List α) :=
  ls.filterMap fun
    | .word w => some w
    | _ => none

/-! ## Macros -/

/-- A macro that stands for a word. -/
def definition (l : Line α) : Option (List α × List α) :=
  match l with
  | .code _ => none
  | .directive name ls =>
    if name = ['d', 'e', 'f', 'i', 'n', 'e'] ∧ shape ls = [none, none] then
      match words ls with
      | [name, value] => some (name, value)
      | _ => none
    else none

/-- The macros that stand for a word, whatever the guards. -/
def Source.definitions (source : Source α) : List (List α × List α) := source.filterMap fun x => definition x.item

/-- The macros that stand for a number. -/
def Source.macros (source : Source Char) : Macros := fun name =>
  (source.definitions.find? fun d => d.1 = name.toList).bind fun d => numeral? d.2

/-! ## Structs -/

/-- An array in a struct. -/
structure Field (α : Type) where
  struct : List α
  name : List α
  /-- The number of elements, as it is written. -/
  size : List (Lexeme α)
  deriving DecidableEq, Repr

/-- The struct that a line ends, and the line that begins one. -/
def structAround (ls : List (Lexeme α)) (struct : Option (List α)) : Option (List α) :=
  if shape ls = [some '\x7d', none, some ';'] then (words ls).head?
  else if shape ls = [some '\x7b'] then none
  else struct

/-- The array that a line declares: its name and its size. -/
def array? (ls : List (Lexeme α)) : Option (List α × List (Lexeme α)) :=
  if (shape ls).take 3 = [none, none, some '['] ∧ (shape ls).drop (ls.length - 2) = [some ']', some ';'] then
    match words ls with
    | _ :: name :: _ => some (name, (ls.drop 3).take (ls.length - 5))
    | _ => none
  else none

/-- The arrays of structs under their guards. The lines are looked at from the end, where the struct has its name. -/
def fieldsFrom : Source α → Option (List α) × List (Guarded α (Field α))
  | [] => (none, [])
  | x :: source =>
    let (struct, fields) := fieldsFrom source
    let struct := structAround x.item.statements struct
    match struct, array? x.item.statements with
    | some struct, some (name, size) => (some struct, ⟨x.guards, ⟨struct, name, size⟩⟩ :: fields)
    | struct, _ => (struct, fields)

def Source.fields (source : Source α) : List (Guarded α (Field α)) := (fieldsFrom source).2

/-- The arrays in the text that is compiled, each with its struct, its name and the value of its size. -/
def Source.arrays (macros : Macros) (source : Source Char) : List (List Char × List Char × Option Nat) :=
  (active macros source.fields).map fun f => (f.struct, f.name, (expr? f.size).map (Expr.value macros))

/-! ## Copies -/

/-- The variables of a line that point to a struct and are given a value, each with the name of its struct. -/
def pointers : List (Lexeme α) → List (List α × List α)
  | [] => []
  | l :: ls =>
    (if (shape (l :: ls)).take 4 = [none, some '*', none, some '='] then
      match words (l :: ls) with
      | struct :: pointer :: _ => [(pointer, struct)]
      | _ => []
    else []) ++ pointers ls

def Source.pointers (source : Source α) : List (List α × List α) := source.flatMap fun x => C.pointers x.item.statements

/-- A call that copies between `struct.member` and `bus->field`, so many bytes as `measure( measured->part )` is. -/
structure Copy (α : Type) where
  function : List α
  struct : List α
  member : List α
  bus : List α
  field : List α
  measure : List α
  measured : List α
  part : List α
  deriving DecidableEq, Repr

/-- A copy to a member, or from a member. -/
def copy? (ls : List (Lexeme α)) : Option (Copy α) :=
  let measure := [some ',', none, some '(', none, some '-', some '>', none, some ')', some ')', some ';']
  if shape ls = [none, some '(', none, some '.', none, some ',', none, some '-', some '>', none] ++ measure then
    match words ls with
    | [f, v, m, b, a, s, b', a'] => some ⟨f, v, m, b, a, s, b', a'⟩
    | _ => none
  else if shape ls = [none, some '(', none, some '-', some '>', none, some ',', none, some '.', none] ++ measure then
    match words ls with
    | [f, b, a, v, m, s, b', a'] => some ⟨f, v, m, b, a, s, b', a'⟩
    | _ => none
  else none

def Source.copies (source : Source α) : List (Guarded α (Copy α)) :=
  source.filterMap fun x => (copy? x.item.statements).map (⟨x.guards, ·⟩)

end

/-! ## Filling in -/

section

variable {v : String → List Char}

@[simp] theorem shape_fill (ls : List (Lexeme Piece)) : shape (ls.map (Lexeme.fill v)) = shape ls := by
  unfold shape
  rw [List.map_map]
  refine List.map_congr_left fun l _ => ?_
  cases l <;> rfl

@[simp] theorem words_fill (ls : List (Lexeme Piece)) :
    words (ls.map (Lexeme.fill v)) = (words ls).map (fillWord v) := by
  unfold words
  rw [List.filterMap_map, List.map_filterMap]
  congr 1
  funext l
  cases l <;> rfl

def Field.fill (v : String → List Char) (f : Field Piece) : Field Char :=
  ⟨fillWord v f.struct, fillWord v f.name, f.size.map (Lexeme.fill v)⟩

def Copy.fill (v : String → List Char) (c : Copy Piece) : Copy Char where
  function := fillWord v c.function
  struct := fillWord v c.struct
  member := fillWord v c.member
  bus := fillWord v c.bus
  field := fillWord v c.field
  measure := fillWord v c.measure
  measured := fillWord v c.measured
  part := fillWord v c.part

theorem definition_fill (l : Line Piece) :
    definition (l.fill v) = (definition l).map (Prod.map (fillWord v) (fillWord v)) := by
  cases l with
  | code ls => rfl
  | directive name ls =>
    simp only [Line.fill, definition, shape_fill, words_fill]
    split
    · rcases words ls with _ | ⟨_, _ | ⟨_, _ | ⟨_, _⟩⟩⟩ <;> rfl
    · rfl

theorem Source.definitions_fill (source : Source Piece) :
    (source.fill v).definitions = source.definitions.map (Prod.map (fillWord v) (fillWord v)) := by
  unfold definitions fill
  rw [List.filterMap_map, List.map_filterMap]
  congr 1
  funext x
  exact definition_fill x.item

theorem structAround_fill (ls : List (Lexeme Piece)) (struct : Option (List Piece)) :
    structAround (ls.map (Lexeme.fill v)) (struct.map (fillWord v)) = (structAround ls struct).map (fillWord v) := by
  unfold structAround
  rw [shape_fill, words_fill, List.head?_map]
  split
  · rfl
  · split <;> rfl

theorem array?_fill (ls : List (Lexeme Piece)) :
    array? (ls.map (Lexeme.fill v)) = (array? ls).map (Prod.map (fillWord v) (List.map (Lexeme.fill v))) := by
  unfold array?
  rw [shape_fill, words_fill, List.length_map, ← List.map_drop, ← List.map_take]
  split
  · rcases words ls with _ | ⟨_, _ | ⟨_, _⟩⟩ <;> rfl
  · rfl

theorem fieldsFrom_fill (source : Source Piece) :
    fieldsFrom (source.fill v) =
      ((fieldsFrom source).1.map (fillWord v), (fieldsFrom source).2.map (Guarded.fill v (Field.fill v))) := by
  induction source with
  | nil => rfl
  | cons x source ih =>
    have hcons : Source.fill v (x :: source) = x.fill v (Line.fill v) :: Source.fill v source := rfl
    have hstatements : (x.fill v (Line.fill v)).item.statements = x.item.statements.map (Lexeme.fill v) :=
      statements_fill x.item
    rw [hcons, fieldsFrom, fieldsFrom, ih, hstatements]
    dsimp only
    rw [structAround_fill, array?_fill]
    cases structAround x.item.statements (fieldsFrom source).1 with
    | none => cases array? x.item.statements <;> rfl
    | some struct => cases array? x.item.statements <;> rfl

theorem Source.fields_fill (source : Source Piece) :
    (source.fill v).fields = source.fields.map (Guarded.fill v (Field.fill v)) :=
  congrArg Prod.snd (fieldsFrom_fill source)

theorem pointers_fill (ls : List (Lexeme Piece)) :
    pointers (ls.map (Lexeme.fill v)) = (pointers ls).map (Prod.map (fillWord v) (fillWord v)) := by
  induction ls with
  | nil => rfl
  | cons l ls ih =>
    rw [List.map_cons, pointers, pointers, ih, ← List.map_cons, shape_fill, words_fill, List.map_append]
    congr 1
    split
    · rcases words (l :: ls) with _ | ⟨_, _ | ⟨_, _⟩⟩ <;> rfl
    · rfl

theorem Source.pointers_fill (source : Source Piece) :
    (source.fill v).pointers = source.pointers.map (Prod.map (fillWord v) (fillWord v)) := by
  unfold pointers fill
  rw [List.flatMap_map, List.map_flatMap]
  congr 1
  funext x
  rw [← C.pointers_fill]
  exact congrArg C.pointers (statements_fill x.item)

theorem copy?_fill (ls : List (Lexeme Piece)) :
    copy? (ls.map (Lexeme.fill v)) = (copy? ls).map (Copy.fill v) := by
  unfold copy?
  rw [shape_fill, words_fill]
  dsimp only
  split
  · rcases words ls with _ | ⟨_, _ | ⟨_, _ | ⟨_, _ | ⟨_, _ | ⟨_, _ | ⟨_, _ | ⟨_, _ | ⟨_, _ | ⟨_, _⟩⟩⟩⟩⟩⟩⟩⟩⟩ <;> rfl
  · split
    · rcases words ls with _ | ⟨_, _ | ⟨_, _ | ⟨_, _ | ⟨_, _ | ⟨_, _ | ⟨_, _ | ⟨_, _ | ⟨_, _ | ⟨_, _⟩⟩⟩⟩⟩⟩⟩⟩⟩ <;> rfl
    · rfl

theorem Source.copies_fill (source : Source Piece) :
    (source.fill v).copies = source.copies.map (Guarded.fill v (Copy.fill v)) := by
  unfold copies fill
  rw [List.filterMap_map, List.map_filterMap]
  congr 1
  funext x
  have hstatements : (x.fill v (Line.fill v)).item.statements = x.item.statements.map (Lexeme.fill v) :=
    statements_fill x.item
  change (copy? (x.fill v (Line.fill v)).item.statements).map _ = _
  rw [hstatements, copy?_fill]
  cases copy? x.item.statements <;> rfl

end

end ControlCodegen.C
