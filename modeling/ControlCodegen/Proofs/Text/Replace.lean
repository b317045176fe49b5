import ControlCodegen.Text.Replace
import Mathlib.Data.List.Basic

/-!
# `Text.Replace`: where a word is replaced

* `replaceAll_word`, `replaceAll_append` : a word goes, and characters at which it does not stand stay.
* `mem_replaceAll` : a text gets nothing but what is put in.
-/

namespace ControlCodegen.Text

set_option autoImplicit false

variable {word new cs front rest : List Char}

theorem replaceAll_word (hword : word ≠ []) : replaceAll word new (word ++ rest) = new ++ replaceAll word new rest := by
  obtain ⟨c, r, hr⟩ := List.exists_cons_of_ne_nil hword
  have hprefix : word.isPrefixOf (word ++ rest) = true := List.isPrefixOf_iff_prefix.2 (List.prefix_append _ _)
  have hdrop : (word ++ rest).drop word.length = rest := List.drop_left
  rw [hr, List.cons_append] at hprefix hdrop ⊢
  rw [replaceAll, if_pos ⟨List.cons_ne_nil _ _, hprefix⟩, hdrop]

/-- Characters at which the word does not stand stay. -/
theorem replaceAll_append (new front : List Char) (h : ∀ i < front.length, ¬word <+: (front ++ rest).drop i) :
    replaceAll word new (front ++ rest) = front ++ replaceAll word new rest := by
  induction front with
  | nil => rfl
  | cons c front ih =>
    have hhead : ¬(word ≠ [] ∧ word.isPrefixOf (c :: (front ++ rest)) = true) := fun hc =>
      h 0 (Nat.succ_pos _) (List.isPrefixOf_iff_prefix.1 hc.2)
    rw [List.cons_append, replaceAll, if_neg hhead, ih fun i hi => h (i + 1) (Nat.succ_lt_succ hi)]
    rfl

/-- Nothing else comes into a text. -/
theorem mem_replaceAll {c : Char} (h : c ∈ replaceAll word new cs) : c ∈ new ∨ c ∈ cs := by
  fun_induction replaceAll word new cs with
  | case1 => exact .inr h
  | case2 d r hword ih =>
    rcases List.mem_append.1 h with h | h
    · exact .inl h
    · exact (ih h).imp_right List.mem_of_mem_drop
  | case3 d r hword ih =>
    rcases List.mem_cons.1 h with rfl | h
    · exact .inr List.mem_cons_self
    · exact (ih h).imp_right (List.mem_cons_of_mem _)

/-- A word without the character does not reach beyond it. -/
theorem prefix_of_not_mem {c : Char} (hc : c ∉ word) (h : word <+: front ++ c :: rest) : word <+: front := by
  by_cases hlength : word.length ≤ front.length
  · exact List.prefix_of_prefix_length_le h (List.prefix_append _ _) hlength
  · have hfront : front ++ [c] <+: word := by
      have hwhole : front ++ [c] <+: front ++ c :: rest := ⟨rest, by simp⟩
      refine List.prefix_of_prefix_length_le hwhole h ?_
      rw [List.length_append, List.length_singleton]
      omega
    exact absurd (hfront.subset (List.mem_append_right _ (List.mem_singleton_self c))) hc

end ControlCodegen.Text
