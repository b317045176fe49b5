import ControlCodegen.Proofs.Environment.Reference
import ControlCodegen.Proofs.Text.Lines
import ControlCodegen.Proofs.Text.Replace
import Mathlib.Data.List.Forall2

/-!
# `Environment.Substitution`: when values go in all at once

The references of a line are filled in one after the other, in all of the line, so that what a value brings in may be
filled in as well.

* `Substitutes`, `Simultaneous` : one pass over a line, and over the lines of a text.
* `replaceAll_written` : what it means for a line to fill in one variable.
* `fill_simultaneous_iff` : a text is filled in by one pass, whatever the values are, if and only if there are no two
  references in a line.
-/

namespace ControlCodegen.Environment

open Text

set_option autoImplicit false

variable {env : Environment} {cs out front rest : List Char} {name m : String}

/-! ## One pass -/

/-- The values go in from the left, in place of the references of the line. -/
inductive Substitutes (env : Environment) : List Char → List Char → Prop where
  | nil : Substitutes env [] []
  | word {name value : String} {cs out : List Char} (hname : IsName name) (hvalue : env name = some value)
      (h : Substitutes env cs out) : Substitutes env (written name ++ cs) (value.toList ++ out)
  | literal {c : Char} {cs out : List Char} (hc : ∀ name, ¬RefersAt (c :: cs) 0 name) (h : Substitutes env cs out) :
      Substitutes env (c :: cs) (c :: out)

/-- The lines of a text, each ended by a line feed; comments stay, and the values go into the others. -/
def Simultaneous (env : Environment) (text out : String) : Prop :=
  ∃ outs, out = unlines outs ∧ List.Forall₂ (fun line new => IsComment line ∧ new = line ∨
    ¬IsComment line ∧ Substitutes env line.toList new.toList) (lines text) outs

/-- What one pass puts in place of a part of a line. -/
def passPiece (env : Environment) : Piece → List Char
  | .literal c => [c]
  | .word name => ((env name).getD "").toList

/-- There is one result. -/
theorem Substitutes.eq_pass (h : Substitutes env cs out) : out = (pieces reference cs).flatMap (passPiece env) := by
  induction h with
  | nil =>
    rw [pieces_nil]
    rfl
  | word hname hvalue _ ih =>
    rw [spelled_reference.pieces_written hname, List.flatMap_cons, ← ih, passPiece, hvalue]
    rfl
  | literal hc _ ih =>
    rw [spelled_reference.pieces_literal hc, List.flatMap_cons, ← ih]
    rfl

/-- Where all variables have values, there is a result. -/
theorem substitutes_pass (cs : List Char) (h : ∀ k name, RefersAt cs k name → (env name).isSome = true) :
    Substitutes env cs ((pieces reference cs).flatMap (passPiece env)) := by
  revert h
  refine spelled_reference.pieces_induction
    (P := fun cs ps => (∀ k name, RefersAt cs k name → (env name).isSome = true) →
      Substitutes env cs (ps.flatMap (passPiece env))) ?_ ?_ ?_ cs
  · exact fun _ => .nil
  · exact fun c cs hc ih h => .literal hc (ih fun k name hk => h (k + 1) name hk)
  · intro name cs hname ih h
    obtain ⟨value, hvalue⟩ := Option.isSome_iff_exists.1 (h 0 name ((refersAt_written hname).2 (.inl ⟨rfl, rfl⟩)))
    have hrest := ih fun k m hk => h _ m ((refersAt_written hname).2 (.inr ⟨k, rfl, hk⟩))
    rw [List.flatMap_cons, passPiece, hvalue]
    exact .word hname hvalue hrest

/-- What goes in are values. -/
theorem Substitutes.mem (h : Substitutes env cs out) {c : Char} (hc : c ∈ out) :
    c ∈ cs ∨ ∃ name value, env name = some value ∧ c ∈ value.toList := by
  induction h with
  | nil => exact .inl hc
  | word _ hvalue _ ih =>
    rcases List.mem_append.1 hc with hc | hc
    · exact .inr ⟨_, _, hvalue, hc⟩
    · exact (ih hc).imp_left fun h => List.mem_append_right _ h
  | literal _ _ ih =>
    rcases List.mem_cons.1 hc with rfl | hc
    · exact .inl List.mem_cons_self
    · exact (ih hc).imp_left fun h => List.mem_cons_of_mem _ h

/-! ## One variable after the other -/

/-- What goes in when one variable is filled in. -/
def putPiece (name : String) (new : List Char) : Piece → List Char
  | .literal c => [c]
  | .word m => if m = name then new else written m

/-- In a reference to one variable there is none to another. -/
theorem replaceAll_other {new : List Char} (hname : IsName name) (hm : IsName m) (hne : m ≠ name) :
    replaceAll (written name) new (written m ++ rest) = written m ++ replaceAll (written name) new rest := by
  refine replaceAll_append new _ fun i hi hprefix => ?_
  rcases (refersAt_written hm).1 ⟨hname, hprefix⟩ with ⟨-, heq⟩ | ⟨k, rfl, -⟩
  · exact hne heq.symm
  · exact absurd hi (by omega)

/-- Filling in a variable puts its value in place of its references. -/
theorem replaceAll_written (hname : IsName name) (new cs : List Char) :
    replaceAll (written name) new cs = (pieces reference cs).flatMap (putPiece name new) := by
  refine spelled_reference.pieces_induction
    (P := fun cs ps => replaceAll (written name) new cs = ps.flatMap (putPiece name new)) ?_ ?_ ?_ cs
  · exact replaceAll_nil _ _
  · intro c cs hc ih
    rw [List.flatMap_cons, ← ih]
    refine replaceAll_append new [c] fun i hi hprefix => ?_
    obtain rfl : i = 0 := by simpa using hi
    exact hc name ⟨hname, hprefix⟩
  · intro m cs hm ih
    rw [List.flatMap_cons, putPiece, ← ih]
    by_cases heq : m = name
    · rw [if_pos heq, heq]
      exact replaceAll_word (written_ne_nil name)
    · rw [if_neg heq]
      exact replaceAll_other hname hm heq

/-- What is written for a part of a line. -/
def writtenPiece : Piece → List Char
  | .literal c => [c]
  | .word name => written name

theorem flatMap_writtenPiece (cs : List Char) : (pieces reference cs).flatMap writtenPiece = cs := by
  refine spelled_reference.pieces_induction (P := fun cs ps => ps.flatMap writtenPiece = cs) rfl ?_ ?_ cs
  · intro c cs _ ih
    rw [List.flatMap_cons, ih]
    rfl
  · intro name cs _ ih
    rw [List.flatMap_cons, ih]
    rfl

theorem mem_wordsOf {ps : List Piece} : m ∈ wordsOf ps ↔ .word m ∈ ps := by
  unfold wordsOf
  rw [List.mem_filterMap]
  constructor
  · rintro ⟨p, hp, hm⟩
    cases p with
    | literal c => cases hm
    | word n =>
      cases hm
      exact hp
  · exact fun h => ⟨_, h, rfl⟩

/-- A line with one reference at most is filled in by one pass. -/
theorem fillLine_of_length_le {line : String} (hlength : (references line).length ≤ 1)
    (h : ∀ k name, RefersAt line.toList k name → (env name).isSome = true) :
    Substitutes env line.toList (fillLine env line).toList := by
  have hpass := substitutes_pass line.toList h
  unfold fillLine
  rw [String.toList_ofList]
  rcases hnames : references line with _ | ⟨name, _ | ⟨_, _⟩⟩
  · have hsame : (pieces reference line.toList).flatMap (passPiece env) = line.toList := by
      refine Eq.trans (List.flatMap_congr fun p hp => ?_) (flatMap_writtenPiece line.toList)
      cases p with
      | literal c => rfl
      | word n =>
        have hmem : n ∈ references line := mem_wordsOf.2 hp
        rw [hnames] at hmem
        cases hmem
    rwa [hsame] at hpass
  · obtain ⟨k, hk⟩ := mem_references.1 (hnames ▸ List.mem_singleton_self name)
    obtain ⟨value, hvalue⟩ := Option.isSome_iff_exists.1 (h k name hk)
    have hsame : (pieces reference line.toList).flatMap (passPiece env) =
        (pieces reference line.toList).flatMap (putPiece name value.toList) := by
      refine List.flatMap_congr fun p hp => ?_
      cases p with
      | literal c => rfl
      | word n =>
        have hmem : n ∈ references line := mem_wordsOf.2 hp
        rw [hnames] at hmem
        obtain rfl := List.mem_singleton.1 hmem
        rw [passPiece, hvalue, putPiece, if_pos rfl]
        rfl
    rw [hsame, ← replaceAll_written hk.1] at hpass
    rw [List.foldl_cons, List.foldl_nil, fillName, hvalue]
    exact hpass
  · rw [hnames] at hlength
    exact absurd hlength (by simp)

/-! ## Values that refer to variables -/

/-- No reference is written in front. -/
def Clear (front rest : List Char) : Prop := ∀ i < front.length, ∀ name, ¬RefersAt (front ++ rest) i name

/-- A line with references up to the first one. -/
theorem exists_first (cs : List Char) : ∀ name names, wordsOf (pieces reference cs) = name :: names →
    ∃ front rest, cs = front ++ (written name ++ rest) ∧ IsName name ∧ Clear front (written name ++ rest) ∧
      pieces reference cs = front.map .literal ++ .word name :: pieces reference rest := by
  refine spelled_reference.pieces_induction (P := fun cs ps => ∀ name names, wordsOf ps = name :: names →
    ∃ front rest, cs = front ++ (written name ++ rest) ∧ IsName name ∧ Clear front (written name ++ rest) ∧
      ps = front.map .literal ++ .word name :: pieces reference rest) ?_ ?_ ?_ cs
  · intro name names h
    cases h
  · intro c cs hc ih name names h
    obtain ⟨front, rest, rfl, hname, hclear, hpieces⟩ := ih name names h
    refine ⟨c :: front, rest, rfl, hname, fun i hi m hm => ?_, by rw [hpieces]; rfl⟩
    cases i with
    | zero => exact hc m hm
    | succ i => exact hclear i (Nat.lt_of_succ_lt_succ hi) m hm
  · intro m cs hm _ name names h
    cases h
    exact ⟨[], cs, rfl, hm, fun i hi => absurd hi (Nat.not_lt_zero i), rfl⟩

/-- A lower-case letter stands in no reference. -/
theorem not_mem_written (hname : IsName name) {c : Char} (hc : isNameChar c = false) (hc' : c ∉ ['$', '\x7b', '\x7d']) :
    c ∉ written name := by
  obtain ⟨d, ds, hlist, hstart, hinside⟩ := hname
  unfold written
  rw [hlist]
  intro hmem
  have hcases : c ∈ ['$', '\x7b', '\x7d'] ∨ c = d ∨ c ∈ ds := by
    simp only [List.mem_append, List.mem_cons, List.not_mem_nil, or_false] at hmem ⊢
    tauto
  rcases hcases with h | rfl | h
  · exact hc' h
  · unfold isNameChar at hc
    rw [hstart] at hc
    cases hc
  · rw [hinside c h] at hc
    cases hc

/-- A letter that stands in no reference stays. -/
theorem replaceAll_letter (hname : IsName name) (new tail : List Char) :
    replaceAll (written name) new ('x' :: tail) = 'x' :: replaceAll (written name) new tail := by
  refine replaceAll_append new ['x'] fun i hi hprefix => ?_
  obtain rfl : i = 0 := by simpa using hi
  have hhead := head_of_refersAt ⟨hname, hprefix⟩
  exact absurd (Option.some.inj hhead) (by decide)

/-- The front stays when such a letter follows. -/
theorem replaceAll_front (hname : IsName name) (hclear : Clear front rest) (new tail : List Char) :
    replaceAll (written name) new (front ++ 'x' :: tail) = front ++ 'x' :: replaceAll (written name) new tail := by
  have hx : 'x' ∉ written name := not_mem_written hname (by decide) (by decide)
  rw [← replaceAll_letter hname]
  refine replaceAll_append new front fun i hi hprefix => ?_
  rw [List.drop_append_of_le_length (Nat.le_of_lt hi)] at hprefix
  refine hclear i hi name ⟨hname, ?_⟩
  rw [List.drop_append_of_le_length (Nat.le_of_lt hi)]
  exact (prefix_of_not_mem hx hprefix).trans (List.prefix_append _ _)

/-- All values are a letter and a reference to the variable. -/
def referring (m : String) : Environment := fun _ => some (String.ofList ('x' :: written m))

theorem fillName_referring (text : List Char) (name : String) :
    fillName (referring m) text name = replaceAll (written name) ('x' :: written m) text := by
  rw [← String.toList_ofList (l := 'x' :: written m)]
  rfl

/-- Two letters remain, whichever variables follow. -/
theorem foldl_referring (hclear : Clear front rest) (names : List String) : ∀ tail : List Char,
    (∀ name ∈ names, IsName name) →
      ∃ last, names.foldl (fillName (referring m)) (front ++ 'x' :: 'x' :: tail) = front ++ 'x' :: 'x' :: last := by
  induction names with
  | nil => exact fun _ _ => ⟨_, rfl⟩
  | cons name names ih =>
    intro tail hnames
    have hname := hnames name List.mem_cons_self
    rw [List.foldl_cons, fillName_referring, replaceAll_front hname hclear, replaceAll_letter hname]
    exact ih _ fun n hn => hnames n (List.mem_cons_of_mem _ hn)

/-- The value of the first variable brings in a reference to the second one, which is filled in as well. -/
theorem not_substitutes_fillLine {line : String} {names : List String} (h : references line = name :: m :: names) :
    ¬Substitutes (referring m) line.toList (fillLine (referring m) line).toList := by
  have hnames : ∀ n ∈ references line, IsName n := fun n hn => (mem_references.1 hn).choose_spec.1
  have hname : IsName name := hnames name (h ▸ List.mem_cons_self)
  have hm : IsName m := hnames m (h ▸ List.mem_cons_of_mem _ List.mem_cons_self)
  obtain ⟨front, rest, hline, -, hclear, hpieces⟩ := exists_first line.toList name (m :: names) h
  -- One pass puts one letter in front of the reference,
  intro hpass
  have hone := hpass.eq_pass
  rw [hpieces, List.flatMap_append, List.flatMap_map, List.flatMap_cons] at hone
  have hfront : (front.flatMap fun c => passPiece (referring m) (.literal c)) = front := List.flatMap_singleton' front
  have hvalue : passPiece (referring m) (.word name) = 'x' :: written m := String.toList_ofList
  rw [hfront, hvalue, List.cons_append] at hone
  -- but then the reference is replaced, too.
  have hfirst : fillName (referring m) line.toList name =
      front ++ 'x' :: (written m ++ replaceAll (written name) ('x' :: written m) rest) := by
    rw [fillName_referring, hline, replaceAll_append _ front fun i hi hprefix => hclear i hi name ⟨hname, hprefix⟩,
      replaceAll_word (written_ne_nil name)]
    rfl
  obtain ⟨last, hlast⟩ := foldl_referring (m := m) hclear names (written m ++ replaceAll (written m) ('x' :: written m)
    (replaceAll (written name) ('x' :: written m) rest)) fun n hn =>
      hnames n (h ▸ List.mem_cons_of_mem _ (List.mem_cons_of_mem _ hn))
  have htwo : (fillLine (referring m) line).toList = front ++ 'x' :: 'x' :: last := by
    unfold fillLine
    rw [String.toList_ofList, h, List.foldl_cons, List.foldl_cons, hfirst, fillName_referring,
      replaceAll_front hm hclear, replaceAll_word (written_ne_nil m)]
    exact hlast
  rw [htwo, List.append_cancel_left_eq, written_append] at hone
  exact absurd (List.cons.inj (List.cons.inj hone).2).1 (by decide)

/-! ## Texts -/

/-- A line has one reference at most if and only if no two are written at different offsets. -/
theorem length_references_le_one {line : String} : (references line).length ≤ 1 ↔
    ∀ i j n m, RefersAt line.toList i n → RefersAt line.toList j m → i = j := by
  have hlength : (references line).length = (places 0 (pieces reference line.toList)).length := by
    rw [references, words, ← map_places 0, List.length_map]
  have hmem : ∀ i n, (i, n) ∈ places 0 (pieces reference line.toList) ↔ RefersAt line.toList i n :=
    fun _ _ => mem_places_zero
  have hpairwise := pairwise_places 0 (pieces reference line.toList)
  rw [hlength]
  rcases hplaces : places 0 (pieces reference line.toList) with _ | ⟨p, _ | ⟨q, ps⟩⟩
  · rw [hplaces] at hmem
    exact iff_of_true (Nat.zero_le 1) fun i j n m hi _ => absurd ((hmem i n).2 hi) List.not_mem_nil
  · rw [hplaces] at hmem
    refine iff_of_true (Nat.le_refl 1) fun i j n m hi hj => ?_
    have hp := List.mem_singleton.1 ((hmem i n).2 hi)
    have hq := List.mem_singleton.1 ((hmem j m).2 hj)
    exact (congrArg Prod.fst hp).trans (congrArg Prod.fst hq).symm
  · rw [hplaces] at hmem hpairwise
    refine iff_of_false (by simp) fun h => ?_
    have hlt : p.1 < q.1 := (List.pairwise_cons.1 hpairwise).1 q List.mem_cons_self
    have heq := h p.1 q.1 p.2 q.2 ((hmem _ _).1 List.mem_cons_self)
      ((hmem _ _).1 (List.mem_cons_of_mem _ List.mem_cons_self))
    omega

/-- No two references are written in one line if and only if the lines have one at most. -/
theorem alone_iff {text : String} : (∀ p q n m, Refers text p n → Refers text q m → p.line = q.line → p = q) ↔
    ∀ line ∈ lines text, ¬IsComment line → (references line).length ≤ 1 := by
  constructor
  · intro h line hline hcomment
    obtain ⟨i, hi⟩ := List.getElem?_of_mem hline
    refine length_references_le_one.2 fun k j n m hk hj => ?_
    exact congrArg Place.offset (h ⟨i, k⟩ ⟨i, j⟩ n m ⟨line, hi, hcomment, hk⟩ ⟨line, hi, hcomment, hj⟩ rfl)
  · rintro h p q n m ⟨line, hline, hcomment, hp⟩ ⟨line', hline', -, hq⟩ hsame
    obtain rfl : line = line' := Option.some.inj (hline.symm.trans (hsame ▸ hline'))
    have hoffset := length_references_le_one.1 (h line (List.mem_of_getElem? hline) hcomment) _ _ _ _ hp hq
    cases p
    cases q
    exact congr (congrArg Place.mk hsame) hoffset

/-- All variables of a text have values if and only if those of its lines have. -/
theorem hasValues_iff {text : String} : (∀ p name, Refers text p name → (env name).isSome = true) ↔
    ∀ line ∈ lines text, ¬IsComment line → ∀ name ∈ references line, (env name).isSome = true := by
  constructor
  · intro h line hline hcomment name hname
    obtain ⟨i, hi⟩ := List.getElem?_of_mem hline
    obtain ⟨k, hk⟩ := mem_references.1 hname
    exact h ⟨i, k⟩ name ⟨line, hi, hcomment, hk⟩
  · rintro h p name ⟨line, hline, hcomment, hp⟩
    exact h line (List.mem_of_getElem? hline) hcomment name (mem_references.2 ⟨_, hp⟩)

/-- The lines of a filled text. -/
def filledLines (env : Environment) (text : String) : List String :=
  (lines text).map fun line => if isComment line then line else fillLine env line

theorem fill_of_isSome {text : String} (h : ∀ p name, Refers text p name → (env name).isSome = true) :
    env.fill text = .ok (unlines (filledLines env text)) := by
  have hmissing : missingNames env text = [] := by
    refine List.eq_nil_iff_forall_not_mem.2 fun name hname => ?_
    obtain ⟨hnone, p, hp⟩ := ((listsMissing_missingNames env text).mem_iff name).1 hname
    have hsome := h p name hp
    rw [hnone] at hsome
    cases hsome
  unfold fill
  rw [hmissing]
  rfl

theorem mem_fillLine {line : String} {c : Char} (hc : c ∈ (fillLine env line).toList) :
    c ∈ line.toList ∨ ∃ name value, env name = some value ∧ c ∈ value.toList := by
  have hfold : ∀ (names : List String) (text : List Char), c ∈ names.foldl (fillName env) text →
      c ∈ text ∨ ∃ name value, env name = some value ∧ c ∈ value.toList := by
    intro names
    induction names with
    | nil => exact fun text h => .inl h
    | cons name names ih =>
      intro text h
      rcases ih _ h with h | h
      · unfold fillName at h
        cases hvalue : env name with
        | none =>
          rw [hvalue] at h
          exact .inl h
        | some value =>
          rw [hvalue] at h
          exact (mem_replaceAll h).symm.imp_right fun h => ⟨name, value, hvalue, h⟩
      · exact .inr h
  unfold fillLine at hc
  rw [String.toList_ofList] at hc
  exact hfold _ _ hc

/-- No line of a filled text is broken by a line feed, if there is none in the values. -/
theorem not_mem_filledLines {text : String} (hvalues : ∀ name value, env name = some value → '\n' ∉ value.toList) :
    ∀ l ∈ filledLines env text, '\n' ∉ l.toList := by
  intro l hl hmem
  obtain ⟨line, hline, rfl⟩ := List.mem_map.1 hl
  have hsource := not_mem_of_mem_lines hline
  by_cases hcomment : isComment line = true
  · rw [if_pos hcomment] at hmem
    exact hsource hmem
  · rw [if_neg hcomment] at hmem
    rcases mem_fillLine hmem with hmem | ⟨name, value, hvalue, hmem⟩
    · exact hsource hmem
    · exact hvalues name value hvalue hmem

/-- What is filled in by one pass are the lines that are filled in one variable after the other. -/
theorem substitutes_of_simultaneous {text : String}
    (hvalues : ∀ name value, env name = some value → '\n' ∉ value.toList)
    (h : Simultaneous env text (unlines (filledLines env text))) :
    ∀ line ∈ lines text, ¬IsComment line → Substitutes env line.toList (fillLine env line).toList := by
  obtain ⟨outs, houts, hlines⟩ := h
  have hfree : ∀ l ∈ outs, '\n' ∉ l.toList := by
    intro l hl hmem
    obtain ⟨i, hi, rfl⟩ := List.getElem_of_mem hl
    have hi' : i < (lines text).length := hlines.length_eq ▸ hi
    have hsource := not_mem_of_mem_lines (List.getElem_mem hi')
    rcases hlines.get hi' hi with ⟨-, hsame⟩ | ⟨-, hpass⟩
    · have hequal : outs[i] = (lines text)[i] := hsame
      rw [hequal] at hmem
      exact hsource hmem
    · rcases hpass.mem hmem with hmem | ⟨name, value, hvalue, hmem⟩
      · exact hsource hmem
      · exact hvalues name value hvalue hmem
  obtain rfl := unlines_inj (not_mem_filledLines hvalues) hfree houts
  unfold filledLines at hlines
  rw [List.forall₂_map_right_iff, List.forall₂_same] at hlines
  intro line hline hcomment
  rcases hlines line hline with ⟨hyes, -⟩ | ⟨-, hpass⟩
  · exact absurd hyes hcomment
  · rwa [if_neg fun hyes => hcomment (isComment_iff.1 hyes)] at hpass

/-- A text is filled in by one pass, for all values, if and only if outside of comments no line has two references. -/
theorem fill_simultaneous_iff (text : String) :
    (∀ env : Environment, (∀ p name, Refers text p name → (env name).isSome = true) →
      ∃ out, env.fill text = .ok out ∧ Simultaneous env text out) ↔
    ∀ p q n m, Refers text p n → Refers text q m → p.line = q.line → p = q := by
  rw [alone_iff]
  constructor
  · intro h line hline hcomment
    rcases hnames : references line with _ | ⟨name, _ | ⟨name', names⟩⟩
    · exact Nat.zero_le 1
    · exact Nat.le_refl 1
    · obtain ⟨out, hfill, hout⟩ := h (referring name') fun _ _ _ => rfl
      rw [fill_of_isSome fun _ _ _ => rfl] at hfill
      obtain rfl := Except.ok.inj hfill
      refine absurd (substitutes_of_simultaneous ?_ hout line hline hcomment) (not_substitutes_fillLine hnames)
      rintro m' value ⟨⟩ hmem
      obtain ⟨k, hk⟩ := mem_references.1 (hnames ▸ List.mem_cons_of_mem _ List.mem_cons_self)
      rw [String.toList_ofList] at hmem
      rcases List.mem_cons.1 hmem with heq | hmem
      · exact absurd heq (by decide)
      · exact not_mem_written hk.1 (by decide) (by decide) hmem
  · intro h env hset
    refine ⟨_, fill_of_isSome hset, _, rfl, ?_⟩
    rw [hasValues_iff] at hset
    unfold filledLines
    rw [List.forall₂_map_right_iff, List.forall₂_same]
    intro line hline
    by_cases hcomment : IsComment line
    · rw [if_pos (isComment_iff.2 hcomment)]
      exact .inl ⟨hcomment, rfl⟩
    · rw [if_neg fun hyes => hcomment (isComment_iff.1 hyes)]
      refine .inr ⟨hcomment, fillLine_of_length_le (h line hline hcomment) fun k name hk => ?_⟩
      exact hset line hline hcomment name (mem_references.2 ⟨k, hk⟩)

/-- The value of one variable refers to the other one. -/
def folders : Environment := .ofList [("OUT", "$\x7bRUN\x7d"), ("RUN", "x")]

def oneReference : String := "# $\x7bOUT\x7d$\x7bOUT\x7d\nfolder = $\x7bOUT\x7d"

theorem fill_simultaneous_iff_oneReference :
    ∃ out, folders.fill oneReference = .ok out ∧ Simultaneous folders oneReference out := by
  have hone : ∀ line ∈ lines oneReference, isComment line = false → (references line).length ≤ 1 := by decide +kernel
  have hset : ∀ line ∈ lines oneReference, isComment line = false → ∀ name ∈ references line,
      (folders name).isSome = true := by decide +kernel
  have hcomment : ∀ {line}, ¬IsComment line → isComment line = false := fun h =>
    Bool.eq_false_iff.2 fun hyes => h (isComment_iff.1 hyes)
  refine (fill_simultaneous_iff oneReference).2 (alone_iff.2 fun line hline h => ?_) folders ?_
  · exact hone line hline (hcomment h)
  · exact hasValues_iff.2 fun line hline h => hset line hline (hcomment h)

def twoReferences : String := "folder = $\x7bOUT\x7d/$\x7bRUN\x7d"

/-- What the value of the first variable brings in is filled in as well. -/
theorem not_simultaneous_twoReferences :
    (∀ p name, Refers twoReferences p name → (folders name).isSome = true) ∧
      folders.fill twoReferences = .ok "folder = x/x\n" ∧
      Simultaneous folders twoReferences "folder = $\x7bRUN\x7d/x\n" ∧
      ¬Simultaneous folders twoReferences "folder = x/x\n" := by
  have hlines : lines twoReferences = [twoReferences] := by decide +kernel
  have hcomment : ¬IsComment twoReferences := fun h => absurd (isComment_iff.2 h) (by decide +kernel)
  have hpass : (pieces reference twoReferences.toList).flatMap (passPiece folders) =
      "folder = $\x7bRUN\x7d/x".toList := by decide +kernel
  have hset : ∀ p name, Refers twoReferences p name → (folders name).isSome = true := by
    refine hasValues_iff.2 fun line hline _ => ?_
    rw [hlines] at hline
    obtain rfl := List.mem_singleton.1 hline
    decide +kernel
  have hresult : unlines (filledLines folders twoReferences) = "folder = x/x\n" := by decide +kernel
  refine ⟨hset, hresult ▸ fill_of_isSome hset, ⟨["folder = $\x7bRUN\x7d/x"], by decide +kernel, ?_⟩, ?_⟩
  · rw [hlines]
    refine .cons (.inr ⟨hcomment, ?_⟩) .nil
    rw [← hpass]
    exact substitutes_pass _ fun k name hk => hset ⟨0, k⟩ name ⟨twoReferences, by rw [hlines]; rfl, hcomment, hk⟩
  · rintro ⟨outs, houts, hforall⟩
    rw [hlines] at hforall
    obtain ⟨new, rest, ⟨hyes, -⟩ | ⟨-, hnew⟩, hrest, rfl⟩ := List.forall₂_cons_left_iff.1 hforall
    · exact hcomment hyes
    · obtain rfl := List.forall₂_nil_left_iff.1 hrest
      have heq := hnew.eq_pass
      rw [hpass] at heq
      rw [String.toList_inj.1 heq] at houts
      exact absurd houts (by decide +kernel)

end ControlCodegen.Environment
