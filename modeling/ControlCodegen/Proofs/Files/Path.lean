import ControlCodegen.Files.Path

/-!
# `Files.Path`: a name below a directory

* `IsFileName` : a text that names a file of a directory and leads nowhere else.
* `OnWay` : the directories on the way to a path.
* `segments_join`, `components_join` : such a name below a path is one part more.
* `isAbsolute_join`, `endsInSlash_join` : where that path starts and how it ends.
-/

namespace ControlCodegen.Files

set_option autoImplicit false

/-- A text that names a file of a directory: it is neither empty nor a path of several parts, and leads neither to the
directory itself nor upwards. -/
structure IsFileName (s : String) : Prop where
  nonempty : s.toList ≠ []
  noSlash : '/' ∉ s.toList
  notHere : s ≠ "."
  notAbove : s ≠ ".."

namespace Path

/-- A directory on the way to a path, or the path itself. -/
inductive OnWay (p : Path) : Path → Prop where
  | self : OnWay p p
  | above {cs : List String} (h : cs <+: p.components) : OnWay p (ofComponents p.isAbsolute cs)

theorem splitSlash_of_notMem {cs : List Char} (h : '/' ∉ cs) : splitSlash cs = [cs] := by
  induction cs with
  | nil => rfl
  | cons c cs ih =>
    rw [List.mem_cons, not_or] at h
    rw [splitSlash, if_neg (Ne.symm h.1), ih h.2]

/-- What stands before a slash and what stands behind it are split apart. -/
theorem splitSlash_append (cs ds : List Char) : splitSlash (cs ++ '/' :: ds) = splitSlash cs ++ splitSlash ds := by
  have hne : ∀ es : List Char, splitSlash es ≠ [] := by
    intro es
    cases es with
    | nil => exact List.cons_ne_nil _ _
    | cons e es =>
      unfold splitSlash
      split
      · exact List.cons_ne_nil _ _
      · split <;> exact List.cons_ne_nil _ _
  induction cs with
  | nil => rfl
  | cons c cs ih =>
    rw [List.cons_append, splitSlash, splitSlash]
    by_cases hc : c = '/'
    · rw [if_pos hc, if_pos hc, ih]
      rfl
    · rw [if_neg hc, if_neg hc, ih]
      cases hs : splitSlash cs with
      | nil => exact absurd hs (hne cs)
      | cons s ss => rfl

variable {p : Path} {s : String}

theorem not_isAbsolute_of_isFileName (h : IsFileName s) : (Path.mk s).isAbsolute = false := by
  unfold isAbsolute
  rw [decide_eq_false_iff_not]
  exact fun hhead => h.noSlash (List.mem_of_mem_head? hhead)

/-- The text of a path with a name below it. -/
theorem text_join (h : IsFileName s) : (p.join s).text =
    if p.text.isEmpty || p.endsInSlash then p.text ++ s else p.text ++ "/" ++ s := by
  unfold join
  rw [not_isAbsolute_of_isFileName h, if_neg Bool.false_ne_true]
  split <;> rfl

/-- Below the empty path there is the name alone. -/
theorem empty_join (h : IsFileName s) : (Path.mk "").join s = ⟨s⟩ := by
  have hempty : ((Path.mk "").text.isEmpty || (Path.mk "").endsInSlash) = true := rfl
  have htext := text_join (p := ⟨""⟩) h
  rw [if_pos hempty, String.empty_append] at htext
  exact congrArg Path.mk htext

theorem exists_of_endsInSlash (h : p.endsInSlash = true) : ∃ cs, p.text.toList = cs ++ ['/'] := by
  obtain ⟨cs, hcs⟩ := List.getLast?_eq_some_iff.1 (of_decide_eq_true h)
  exact ⟨cs, hcs⟩

theorem segments_join (h : IsFileName s) : (p.join s).segments = p.segments ++ [s] := by
  have hlast : ((splitSlash s.toList).filter (!·.isEmpty)).map String.ofList = [s] := by
    have hs : s.toList.isEmpty = false := by simpa using h.nonempty
    rw [splitSlash_of_notMem h.noSlash, List.filter_cons_of_pos (by rw [hs]; rfl), List.filter_nil, List.map_singleton,
      String.ofList_toList]
  unfold segments
  rw [text_join h]
  split
  · rename_i hstart
    rcases Bool.or_eq_true_iff.1 hstart with hempty | hslash
    · rw [String.isEmpty_iff] at hempty
      rw [hempty, String.empty_append, hlast]
      rfl
    · obtain ⟨cs, hcs⟩ := exists_of_endsInSlash hslash
      rw [String.toList_append, hcs, List.append_assoc, List.singleton_append, splitSlash_append, splitSlash_append,
        List.filter_append, List.filter_append, List.map_append, List.map_append, hlast]
      simp [splitSlash]
  · have htext : (p.text ++ "/" ++ s).toList = p.text.toList ++ '/' :: s.toList := by
      rw [String.toList_append, String.toList_append, List.append_assoc]
      rfl
    rw [htext, splitSlash_append, List.filter_append, List.map_append, hlast]

theorem isAbsolute_join (h : IsFileName s) : (p.join s).isAbsolute = p.isAbsolute := by
  unfold isAbsolute
  rw [text_join h]
  cases htext : p.text.toList with
  | nil =>
    obtain rfl : p = ⟨""⟩ := by
      cases p
      exact congrArg Path.mk (String.toList_eq_nil_iff.1 htext)
    have hempty : ((Path.mk "").text.isEmpty || (Path.mk "").endsInSlash) = true := rfl
    rw [if_pos hempty, String.empty_append]
    exact not_isAbsolute_of_isFileName h
  | cons c cs =>
    have hhead : ∀ r : String, (p.text ++ r).toList.head? = some c := by
      intro r
      rw [String.toList_append, htext]
      rfl
    split
    · rw [hhead]
      rfl
    · rw [String.append_assoc, hhead]
      rfl

theorem endsInSlash_join (h : IsFileName s) : (p.join s).endsInSlash = false := by
  have hlast : ∀ r : String, (r ++ s).toList.getLast? ≠ some '/' := by
    intro r hr
    rw [String.toList_append, List.getLast?_append, List.getLast?_eq_some_getLast h.nonempty, Option.some_or] at hr
    exact h.noSlash (Option.some.inj hr ▸ List.getLast_mem h.nonempty)
  unfold endsInSlash
  rw [decide_eq_false_iff_not, text_join h]
  split <;> exact hlast _

/-- A name below a directory is a direct child of it. -/
theorem components_join (h : IsFileName s) : (p.join s).components = p.components ++ [s] := by
  unfold components
  rw [segments_join h, isAbsolute_join h]
  cases p.segments with
  | nil =>
    change (if s = "." ∧ _ then _ else _) = _
    rw [if_neg fun hs => h.notHere hs.1]
    rfl
  | cons c cs =>
    have hkept : (cs ++ [s]).filter (· ≠ ".") = cs.filter (· ≠ ".") ++ [s] := by
      rw [List.filter_append, List.filter_cons_of_pos (by simpa using h.notHere), List.filter_nil]
    rw [List.cons_append]
    by_cases hc : c = "." ∧ p.isAbsolute = true
    · simp only [if_pos hc, hkept]
    · simp only [if_neg hc, hkept, List.cons_append]

end Path

end ControlCodegen.Files
