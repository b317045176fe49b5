import ControlCodegen.Proofs.C.Preprocessor

/-!
# `C.Reading`: what is read off a C text

* `accesses` : the members of structs, such as `a.b`.
* `ArgumentList`, `argumentLists` : the functions with arguments, with the number of the arguments.
* `Source.accesses`, `Source.argumentLists` : the same for all lines of a text.
-/

namespace ControlCodegen.C

open Text Preprocessor

set_option autoImplicit false

section

variable {α : Type}

/-! ## Members -/

/-- A member with its struct in front of the lexemes that follow the name of the struct. -/
def access? (struct : List α) : List (Lexeme α) → Option (List α × List α)
  | .mark c :: .word name :: _ => if c = '.' then some (struct, name) else none
  | _ => none

/-- The members of structs, each with the name of its struct. -/
def accesses : List (Lexeme α) → List (List α × List α)
  | [] => []
  | .word w :: ls => (access? w ls).toList ++ accesses ls
  | _ :: ls => accesses ls

/-! ## Calls -/

/-- The arguments up to the parenthesis that ends them, with so many parentheses open and so many arguments begun. -/
def arguments : Nat → Nat → List (Lexeme α) → Option Nat
  | _, _, [] => none
  | depth, begun, .mark c :: ls =>
    if c = ')' then
      match depth with
      | 0 => some begun
      | depth + 1 => arguments depth begun ls
    else if c = '(' then arguments (depth + 1) (max begun 1) ls
    else if c = ',' ∧ depth = 0 then arguments depth (begun + 1) ls
    else arguments depth (max begun 1) ls
  | depth, begun, _ :: ls => arguments depth (max begun 1) ls

/-- A name with arguments in parentheses. -/
structure ArgumentList (α : Type) where
  name : List α
  /-- The braces that are open: none at a definition or declaration, some at a call. -/
  braces : Nat
  arguments : Nat
  deriving DecidableEq, Repr

def arguments? : List (Lexeme α) → Option Nat
  | .mark c :: ls => if c = '(' then arguments 0 0 ls else none
  | _ => none

/-- The names with arguments, with so many braces open. -/
def argumentLists : Nat → List (Lexeme α) → List (ArgumentList α)
  | _, [] => []
  | braces, .word w :: ls => ((arguments? ls).map fun n => ⟨w, braces, n⟩).toList ++ argumentLists braces ls
  | braces, .mark c :: ls =>
    argumentLists (if c = '\x7b' then braces + 1 else if c = '\x7d' then braces - 1 else braces) ls
  | braces, _ :: ls => argumentLists braces ls

namespace Source

/-- The members of structs under their guards. -/
def accesses (source : Source α) : List (Guarded α (List α × List α)) :=
  source.flatMap fun x => (C.accesses x.item.lexemes).map (⟨x.guards, ·⟩)

/-- The names with arguments in the code, whatever the guards. -/
def argumentLists (source : Source α) : List (ArgumentList α) :=
  C.argumentLists 0 (source.flatMap fun x => x.item.statements)

end Source

end

/-! ## Filling in -/

section

variable {v : String → List Char}

/-- A word with its places filled in. -/
def fillWord (v : String → List Char) (w : List Piece) : List Char := w.flatMap (Lexeme.fillSymbol v)

def ArgumentList.fill (v : String → List Char) (a : ArgumentList Piece) : ArgumentList Char :=
  ⟨fillWord v a.name, a.braces, a.arguments⟩

theorem access?_fill (w : List Piece) (ls : List (Lexeme Piece)) :
    access? (fillWord v w) (ls.map (Lexeme.fill v)) = (access? w ls).map (Prod.map (fillWord v) (fillWord v)) := by
  rcases ls with _ | ⟨_ | c | _ | _, _ | ⟨_ | _ | _ | _, ls⟩⟩
  case cons.mark.cons.word =>
    simp only [List.map_cons, Lexeme.fill, access?]
    split <;> rfl
  all_goals rfl

theorem accesses_fill (ls : List (Lexeme Piece)) :
    accesses (ls.map (Lexeme.fill v)) = (accesses ls).map (Prod.map (fillWord v) (fillWord v)) := by
  induction ls with
  | nil => rfl
  | cons l ls ih =>
    cases l with
    | word w =>
      change (access? (fillWord v w) (ls.map (Lexeme.fill v))).toList ++ accesses (ls.map (Lexeme.fill v)) = _
      rw [access?_fill, ih, accesses, List.map_append]
      cases access? w ls <;> rfl
    | _ => exact ih

theorem arguments_fill (depth begun : Nat) (ls : List (Lexeme Piece)) :
    arguments depth begun (ls.map (Lexeme.fill v)) = arguments depth begun ls := by
  induction ls generalizing depth begun with
  | nil => rfl
  | cons l ls ih =>
    cases l with
    | mark c =>
      simp only [List.map_cons, Lexeme.fill, arguments, ih]
    | _ => exact ih _ _

theorem arguments?_fill (ls : List (Lexeme Piece)) : arguments? (ls.map (Lexeme.fill v)) = arguments? ls := by
  rcases ls with _ | ⟨_ | c | _ | _, ls⟩
  case cons.mark => simp only [List.map_cons, Lexeme.fill, arguments?, arguments_fill]
  all_goals rfl

theorem argumentLists_fill (braces : Nat) (ls : List (Lexeme Piece)) :
    argumentLists braces (ls.map (Lexeme.fill v)) = (argumentLists braces ls).map (ArgumentList.fill v) := by
  induction ls generalizing braces with
  | nil => rfl
  | cons l ls ih =>
    cases l with
    | word w =>
      rw [List.map_cons, Lexeme.fill, argumentLists, argumentLists, arguments?_fill, ih, List.map_append]
      cases arguments? ls <;> rfl
    | mark c => exact ih _
    | _ => exact ih _

/-- A text that is filled in. -/
def Source.fill (v : String → List Char) (source : Source Piece) : Source Char :=
  source.map (Guarded.fill v (Line.fill v))

theorem lexemes_fill (l : Line Piece) : (l.fill v).lexemes = l.lexemes.map (Lexeme.fill v) := by
  cases l <;> rfl

theorem statements_fill (l : Line Piece) : (l.fill v).statements = l.statements.map (Lexeme.fill v) := by
  cases l <;> rfl

theorem Source.accesses_fill (source : Source Piece) :
    (source.fill v).accesses =
      source.accesses.map (Guarded.fill v (Prod.map (fillWord v) (fillWord v))) := by
  unfold accesses fill
  rw [List.flatMap_map, List.map_flatMap]
  congr 1
  funext x
  change (C.accesses (x.item.fill v).lexemes).map _ = _
  rw [lexemes_fill, C.accesses_fill, List.map_map, List.map_map]
  rfl

theorem Source.argumentLists_fill (source : Source Piece) :
    (source.fill v).argumentLists = source.argumentLists.map (ArgumentList.fill v) := by
  unfold argumentLists fill
  rw [List.flatMap_map, ← C.argumentLists_fill, List.map_flatMap]
  congr 2
  funext x
  exact statements_fill x.item

end

end ControlCodegen.C
