import ControlCodegen.Text.Reader

/-!
# `Text.Marks`: words that are marked in a text

`pieces mark` takes a text apart, from the left, into single characters and the words that `mark` reads. What lies inside
a word is not looked at again.
-/

namespace ControlCodegen.Text

set_option autoImplicit false

/-- A part of a text. -/
inductive Piece where
  | literal (c : Char)
  | word (name : String)
  deriving DecidableEq, Repr

def pieces (mark : Reader String) : List Char → List Piece
  | [] => []
  | c :: cs =>
    match mark (c :: cs) with
    | none => .literal c :: pieces mark cs
    | some (name, rest) =>
      if rest.length ≤ cs.length then .word name :: pieces mark rest else .literal c :: pieces mark cs
termination_by cs => cs.length
decreasing_by all_goals simp_wf <;> omega

def wordsOf (ps : List Piece) : List String :=
  ps.filterMap fun
    | .word name => some name
    | .literal _ => none

/-- The words of a text, from the left. -/
def words (mark : Reader String) (text : String) : List String := wordsOf (pieces mark text.toList)

/-- A name: one character that may begin it, and all that may go on in it. -/
def nameOf (start inside : Char → Bool) : Reader String := do
  let c ← Reader.satisfy start
  let cs ← Reader.takeWhile inside
  return String.ofList (c :: cs)

end ControlCodegen.Text
