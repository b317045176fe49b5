import ControlCodegen.Proofs.Text.Reader

/-!
# `Text.Marks`: how texts are taken apart

* `Scanned` : a text is taken apart from the left, into words where they are written and single characters elsewhere.
* `Spelled` : a reader for words that are written in one way each.
* `Spelled.scanned_pieces`, `Spelled.pieces_of_scanned` : this is how `pieces` takes a text apart, and there is no other
  way.
* `pairwise_eraseDups_filter` : words without their repetitions are in the order in which they come first.
-/

namespace ControlCodegen.Text

set_option autoImplicit false

/-- A text, taken apart from the left: where a word is written it is taken as a whole, and else one character. -/
inductive Scanned (IsName : String → Prop) (written : String → List Char) : List Char → List Piece → Prop where
  | nil : Scanned IsName written [] []
  | literal {c : Char} {cs : List Char} {ps : List Piece} (hc : ∀ name, ¬(IsName name ∧ written name <+: c :: cs))
      (h : Scanned IsName written cs ps) : Scanned IsName written (c :: cs) (.literal c :: ps)
  | word {name : String} {cs : List Char} {ps : List Piece} (hname : IsName name) (h : Scanned IsName written cs ps) :
      Scanned IsName written (written name ++ cs) (.word name :: ps)

/-- A reader for words that are written in one way each. -/
structure Spelled (mark : Reader String) (IsName : String → Prop) (written : String → List Char) : Prop where
  reads : ∀ {cs rest : List Char} {name : String}, mark cs = some (name, rest) ↔ IsName name ∧ cs = written name ++ rest
  ne_nil : ∀ name, written name ≠ []

theorem pieces_nil (mark : Reader String) : pieces mark [] = [] := by
  rw [pieces]

namespace Spelled

variable {mark : Reader String} {IsName : String → Prop} {written : String → List Char}
variable (h : Spelled mark IsName written)
include h

/-- A text begins with one word at most. -/
theorem written_inj {name m : String} {rest rest' : List Char} (hname : IsName name) (hm : IsName m)
    (heq : written name ++ rest = written m ++ rest') : name = m ∧ rest = rest' := by
  have hread : mark (written name ++ rest) = some (m, rest') := h.reads.2 ⟨hm, heq⟩
  rw [h.reads.2 ⟨hname, rfl⟩] at hread
  cases hread
  exact ⟨rfl, rfl⟩

theorem pieces_written {name : String} (hname : IsName name) (cs : List Char) :
    pieces mark (written name ++ cs) = .word name :: pieces mark cs := by
  have hread : mark (written name ++ cs) = some (name, cs) := h.reads.2 ⟨hname, rfl⟩
  obtain ⟨c, r, hr⟩ := List.exists_cons_of_ne_nil (h.ne_nil name)
  rw [hr, List.cons_append] at hread ⊢
  rw [pieces, hread]
  exact if_pos (by simp)

theorem pieces_literal {c : Char} {cs : List Char} (hc : ∀ name, ¬(IsName name ∧ written name <+: c :: cs)) :
    pieces mark (c :: cs) = .literal c :: pieces mark cs := by
  cases hread : mark (c :: cs) with
  | none => rw [pieces, hread]
  | some r =>
    obtain ⟨hname, hcs⟩ := h.reads.1 hread
    exact absurd ⟨hname, r.2, hcs.symm⟩ (hc r.1)

/-- A text can be taken apart, -/
theorem scanned_pieces (cs : List Char) : Scanned IsName written cs (pieces mark cs) := by
  induction hlength : cs.length using Nat.strong_induction_on generalizing cs with
  | _ n ih =>
    subst hlength
    cases cs with
    | nil =>
      rw [pieces_nil]
      exact .nil
    | cons c cs =>
      by_cases hc : ∃ name, IsName name ∧ written name <+: c :: cs
      · obtain ⟨name, hname, rest, hrest⟩ := hc
        rw [← hrest, h.pieces_written hname]
        refine .word hname (ih rest.length ?_ rest rfl)
        rw [← hrest, List.length_append]
        exact Nat.lt_add_of_pos_left (List.length_pos_of_ne_nil (h.ne_nil name))
      · have hnone : ∀ name, ¬(IsName name ∧ written name <+: c :: cs) := fun name hname => hc ⟨name, hname⟩
        rw [h.pieces_literal hnone]
        exact .literal hnone (ih cs.length (Nat.lt_succ_self _) cs rfl)

/-- and in one way only. -/
theorem pieces_of_scanned {cs : List Char} {ps : List Piece} (hscanned : Scanned IsName written cs ps) :
    pieces mark cs = ps := by
  induction hscanned with
  | nil => exact pieces_nil mark
  | literal hc _ ih => rw [h.pieces_literal hc, ih]
  | word hname _ ih => rw [h.pieces_written hname, ih]

/-- What holds of a text and its parts, from the right to the left. -/
theorem pieces_induction {P : List Char → List Piece → Prop} (nil : P [] [])
    (literal : ∀ c cs, (∀ name, ¬(IsName name ∧ written name <+: c :: cs)) → P cs (pieces mark cs) →
      P (c :: cs) (.literal c :: pieces mark cs))
    (word : ∀ name cs, IsName name → P cs (pieces mark cs) → P (written name ++ cs) (.word name :: pieces mark cs))
    (cs : List Char) : P cs (pieces mark cs) := by
  suffices hall : ∀ {cs : List Char} {ps : List Piece}, Scanned IsName written cs ps → P cs ps from
    hall (h.scanned_pieces cs)
  intro cs ps hscanned
  induction hscanned with
  | nil => exact nil
  | literal hc hscanned ih =>
    obtain rfl := h.pieces_of_scanned hscanned
    exact literal _ _ hc ih
  | word hname hscanned ih =>
    obtain rfl := h.pieces_of_scanned hscanned
    exact word _ _ hname ih

end Spelled

/-- Some of the words of a list, each once, are in the order in which they come first in it. -/
theorem pairwise_eraseDups_filter (p : String → Bool) (l : List String) :
    (l.filter p).eraseDups.Pairwise fun a b => l.idxOf a < l.idxOf b := by
  induction l generalizing p with
  | nil => exact .nil
  | cons a l ih =>
    -- behind the first word the others stand one place further
    have hlater : ∀ q : String → Bool, q a = false →
        (l.filter q).eraseDups.Pairwise fun b c => (a :: l).idxOf b < (a :: l).idxOf c := by
      intro q hq
      have hne : ∀ b ∈ (l.filter q).eraseDups, a ≠ b := by
        rintro b hb rfl
        rw [List.mem_eraseDups, List.mem_filter, hq] at hb
        exact absurd hb.2 Bool.false_ne_true
      refine (ih q).imp_of_mem fun {b c} hb hc hbc => ?_
      rw [List.idxOf_cons_ne _ (hne b hb), List.idxOf_cons_ne _ (hne c hc)]
      exact Nat.succ_lt_succ hbc
    by_cases ha : p a = true
    · rw [List.filter_cons_of_pos ha, List.eraseDups_cons, List.filter_filter]
      have hrest := hlater (fun b => (!b == a) && p b) (by simp)
      refine List.pairwise_cons.2 ⟨fun b hb => ?_, hrest⟩
      have hne : a ≠ b := by
        rintro rfl
        simp [List.mem_eraseDups] at hb
      rw [List.idxOf_cons_self, List.idxOf_cons_ne _ hne]
      exact Nat.succ_pos _
    · rw [List.filter_cons_of_neg ha]
      exact hlater p (Bool.eq_false_iff.2 ha)

end ControlCodegen.Text
