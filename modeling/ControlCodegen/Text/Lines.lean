/-!
# `Text.Lines`: lines of a text

A line ends at a line feed, and a carriage return right before that line feed belongs to the ending. A text that does
not end in a line feed has a last line without one, and there a carriage return stays.
-/

namespace ControlCodegen.Text

set_option autoImplicit false

/-- The lines of a text, without their endings. -/
def linesOf : List Char → List (List Char)
  | [] => []
  | '\n' :: r => [] :: linesOf r
  | '\r' :: '\n' :: r => [] :: linesOf r
  | c :: r =>
    match linesOf r with
    | [] => [[c]]
    | l :: ls => (c :: l) :: ls

/-- The lines of a string, without their endings. -/
def lines (s : String) : List String := (linesOf s.toList).map String.ofList

/-- Each text as a line of its own, ended by a line feed. -/
def unlines (ls : List String) : String := String.join (ls.map (· ++ "\n"))

end ControlCodegen.Text
