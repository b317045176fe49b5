import ControlCodegen.Text.Lines
import Mathlib.Data.List.Basic

/-!
# `Text.Lines`: lines and their endings

* `not_mem_of_mem_lines` : there is no line feed in a line.
* `unlines_inj` : texts of such lines tell the lines apart.
-/

namespace ControlCodegen.Text

set_option autoImplicit false

theorem not_mem_linesOf (cs : List Char) : ∀ l ∈ linesOf cs, '\n' ∉ l := by
  fun_induction linesOf cs with
  | case1 => exact fun l hl => absurd hl List.not_mem_nil
  | case2 r ih | case3 r ih =>
    intro l hl
    rcases List.mem_cons.1 hl with rfl | hl
    · exact List.not_mem_nil
    · exact ih l hl
  | case4 c r hnewline hreturn hnil ih =>
    intro l hl
    obtain rfl := List.mem_singleton.1 hl
    intro hmem
    obtain rfl := List.mem_singleton.1 hmem
    exact hnewline rfl
  | case5 c r hnewline hreturn l' ls hcons ih =>
    rw [hcons] at ih
    intro l hl
    rcases List.mem_cons.1 hl with rfl | hl
    · intro hmem
      rcases List.mem_cons.1 hmem with rfl | hmem
      · exact hnewline rfl
      · exact ih l' List.mem_cons_self hmem
    · exact ih l (List.mem_cons_of_mem _ hl)

theorem not_mem_of_mem_lines {text l : String} (h : l ∈ lines text) : '\n' ∉ l.toList := by
  obtain ⟨cs, hcs, rfl⟩ := List.mem_map.1 h
  rw [String.toList_ofList]
  exact not_mem_linesOf _ cs hcs

theorem toList_unlines_cons (l : String) (ls : List String) :
    (unlines (l :: ls)).toList = l.toList ++ '\n' :: (unlines ls).toList := by
  unfold unlines
  rw [List.map_cons, String.join_cons, String.toList_append, String.toList_append, List.append_assoc]
  rfl

/-- Lines are told apart by their endings. -/
theorem unlines_inj {ls : List String} : ∀ {ls' : List String}, (∀ l ∈ ls, '\n' ∉ l.toList) →
    (∀ l ∈ ls', '\n' ∉ l.toList) → unlines ls = unlines ls' → ls = ls' := by
  induction ls with
  | nil =>
    intro ls' _ _ h
    cases ls' with
    | nil => rfl
    | cons l' ls' =>
      have htoList := congrArg String.toList h
      rw [toList_unlines_cons] at htoList
      simp [unlines] at htoList
  | cons l ls ih =>
    intro ls' hls hls' h
    have htoList := congrArg String.toList h
    cases ls' with
    | nil =>
      rw [toList_unlines_cons] at htoList
      simp [unlines] at htoList
    | cons l' ls' =>
      rw [toList_unlines_cons, toList_unlines_cons] at htoList
      have hfirst : l.toList = l'.toList := by
        have htake := congrArg (List.takeWhile (· != '\n')) htoList
        have hkeep : ∀ l : String, '\n' ∉ l.toList → ∀ c ∈ l.toList, (c != '\n') = true := by
          rintro l hl c hc
          exact bne_iff_ne.2 fun h => hl (h ▸ hc)
        rw [List.takeWhile_append_of_pos (hkeep l (hls l List.mem_cons_self)),
          List.takeWhile_append_of_pos (hkeep l' (hls' l' List.mem_cons_self))] at htake
        simpa using htake
      rw [hfirst, List.append_cancel_left_eq, List.cons.injEq] at htoList
      rw [String.toList_inj.1 hfirst, ih (fun l hl => hls l (List.mem_cons_of_mem _ hl))
        (fun l hl => hls' l (List.mem_cons_of_mem _ hl)) (String.toList_inj.1 htoList.2)]

end ControlCodegen.Text
