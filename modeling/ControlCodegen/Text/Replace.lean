/-!
# `Text.Replace`: replacing words in a text

`replaceAll word new` puts `new` in place of every occurrence of `word`, from the left; what is put in is not looked at
again.
-/

namespace ControlCodegen.Text

set_option autoImplicit false

/-- Replaces every occurrence of a nonempty word. -/
def replaceAll (word new : List Char) (cs : List Char) : List Char :=
  match cs with
  | [] => []
  | c :: r =>
    if word ≠ [] ∧ word.isPrefixOf (c :: r) then new ++ replaceAll word new ((c :: r).drop word.length)
    else c :: replaceAll word new r
termination_by cs.length
decreasing_by
  · rename_i h
    have : 0 < word.length := List.length_pos_iff.2 h.1
    simp only [List.length_drop, List.length_cons]
    omega
  · simp

theorem replaceAll_nil (word new : List Char) : replaceAll word new [] = [] := by
  rw [replaceAll]

end ControlCodegen.Text
