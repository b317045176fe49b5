import ControlCodegen.Environment.Reference
import ControlCodegen.Proofs.Text.Marks

/-!
# `Environment.Reference`: the references of a text

* `RefersAt` : at an offset of a line a reference to a variable is written.
* `spelled_reference` : a reference is read where one is written.
* `places`, `mem_places` : the references of a line with their offsets, from the left.
* `Refers`, `textPlaces` : the references that count in a text, with their places; those of comments do not.
* `ListsMissing`, `fill_fails_iff` : a text is refused if and only if it refers to a variable without a value, and the
  error lists these variables in the order in which they come first.
-/

namespace ControlCodegen.Environment

open Text

set_option autoImplicit false

/-- A name of a variable: a capital or an underscore, and then such characters and digits. -/
def IsName (name : String) : Prop :=
  ∃ c cs, name.toList = c :: cs ∧ isNameStart c = true ∧ ∀ d ∈ cs, isNameChar d = true

/-- A reference to the variable is written at the offset. -/
def RefersAt (cs : List Char) (offset : Nat) (name : String) : Prop :=
  IsName name ∧ written name <+: cs.drop offset

/-- The first character that is not blank is a hash. -/
def IsComment (line : String) : Prop :=
  ∃ blanks rest, line.toList = blanks ++ '#' :: rest ∧ ∀ c ∈ blanks, isBlank c = true

section

variable {name m : String} {cs rest : List Char} {offset : Nat}

/-! ## Single references -/

theorem written_append (name : String) (rest : List Char) :
    written name ++ rest = ['$', '\x7b'] ++ (name.toList ++ '\x7d' :: rest) := by
  unfold written
  simp

/-- A reference is read where one is written. -/
theorem reference_iff : reference cs = some (name, rest) ↔ IsName name ∧ cs = written name ++ rest := by
  unfold reference
  simp only [Reader.bind_iff, Reader.literal_iff, nameOf_iff, Reader.char_iff, Reader.pure_iff, written_append]
  constructor
  · rintro ⟨-, _, rfl, n, _, ⟨c, ds, rfl, hstart, hinside, rfl, -⟩, -, _, rfl, rfl, rfl⟩
    refine ⟨⟨c, ds, String.toList_ofList, hstart, hinside⟩, ?_⟩
    rw [String.toList_ofList]
    rfl
  · rintro ⟨⟨c, ds, hname, hstart, hinside⟩, rfl⟩
    refine ⟨(), _, rfl, name, '\x7d' :: rest, ⟨c, ds, ?_, hstart, hinside, ?_, ?_⟩, (), rest, rfl, rfl, rfl⟩
    · rw [← hname, String.ofList_toList]
    · rw [hname]
      rfl
    · rintro d r ⟨⟩
      decide

theorem written_ne_nil (name : String) : written name ≠ [] := List.cons_ne_nil _ _

theorem spelled_reference : Spelled reference IsName written := ⟨reference_iff, written_ne_nil⟩

theorem ne_dollar_of_isNameChar {c : Char} (h : isNameChar c = true) : c ≠ '$' := by
  rintro rfl
  exact absurd h (by decide)

/-- Inside of a reference none begins. -/
theorem ne_dollar_of_mem_tail (hname : IsName name) : ∀ c ∈ (written name).tail, c ≠ '$' := by
  obtain ⟨d, ds, hlist, hstart, hinside⟩ := hname
  intro c hc
  unfold written at hc
  rw [hlist] at hc
  have hcases : c = '\x7b' ∨ c = d ∨ c ∈ ds ∨ c = '\x7d' := by simpa using hc
  rcases hcases with rfl | rfl | hc | rfl
  · decide
  · exact ne_dollar_of_isNameChar (by unfold isNameChar; rw [hstart]; rfl)
  · exact ne_dollar_of_isNameChar (hinside c hc)
  · decide

/-- Where a reference begins there is a dollar sign. -/
theorem head_of_refersAt (h : RefersAt cs offset name) : (cs.drop offset).head? = some '$' := by
  obtain ⟨-, rest, hrest⟩ := h
  rw [← hrest]
  rfl

theorem lt_length_of_refersAt (h : RefersAt cs offset name) : offset < cs.length := by
  have hhead := head_of_refersAt h
  by_contra hle
  rw [List.drop_eq_nil_of_le (Nat.le_of_not_lt hle)] at hhead
  cases hhead

/-- After a reference come the next ones; it is the only one until its end. -/
theorem refersAt_written (hname : IsName name) : RefersAt (written name ++ cs) offset m ↔
    offset = 0 ∧ m = name ∨ ∃ k, offset = (written name).length + k ∧ RefersAt cs k m := by
  constructor
  · intro h
    by_cases hend : (written name).length ≤ offset
    · obtain ⟨k, rfl⟩ := Nat.exists_eq_add_of_le hend
      refine .inr ⟨k, rfl, h.1, ?_⟩
      have hprefix := h.2
      rwa [← List.drop_drop, List.drop_left] at hprefix
    · cases offset with
      | zero =>
        obtain ⟨rest, hrest⟩ := h.2
        exact .inl ⟨rfl, (spelled_reference.written_inj h.1 hname hrest).1⟩
      | succ k =>
        have hlt : k < (written name).tail.length := by
          rw [List.length_tail]
          omega
        have hhead : ((written name).tail ++ cs)[k]? = some '$' := by
          have hdollar := head_of_refersAt h
          rwa [List.head?_drop] at hdollar
        rw [List.getElem?_append_left hlt] at hhead
        exact absurd rfl (ne_dollar_of_mem_tail hname '$' (List.mem_of_getElem? hhead))
  · rintro (⟨rfl, rfl⟩ | ⟨k, rfl, hk⟩)
    · exact ⟨hname, List.prefix_append _ _⟩
    · refine ⟨hk.1, ?_⟩
      rw [← List.drop_drop, List.drop_left]
      exact hk.2

end

/-! ## References of a line -/

/-- The references among the parts of a line that begins at an offset. -/
def places : Nat → List Piece → List (Nat × String)
  | _, [] => []
  | offset, .literal _ :: ps => places (offset + 1) ps
  | offset, .word name :: ps => (offset, name) :: places (offset + (written name).length) ps

theorem map_places (offset : Nat) (ps : List Piece) : (places offset ps).map Prod.snd = wordsOf ps := by
  induction ps generalizing offset with
  | nil => rfl
  | cons p ps ih =>
    cases p with
    | literal c => exact ih (offset + 1)
    | word name => exact congrArg (name :: ·) (ih _)

/-- The places are those at which references are written. -/
theorem mem_places (cs : List Char) : ∀ start offset name, (offset, name) ∈ places start (pieces reference cs) ↔
    ∃ k, offset = start + k ∧ RefersAt cs k name := by
  refine spelled_reference.pieces_induction (P := fun cs ps => ∀ start offset name,
    (offset, name) ∈ places start ps ↔ ∃ k, offset = start + k ∧ RefersAt cs k name) ?_ ?_ ?_ cs
  · intro start offset name
    refine iff_of_false List.not_mem_nil ?_
    rintro ⟨k, -, hk⟩
    exact absurd (lt_length_of_refersAt hk) (Nat.not_lt_zero k)
  · intro c cs hc ih start offset name
    rw [places, ih]
    constructor
    · rintro ⟨k, rfl, hk⟩
      exact ⟨k + 1, by omega, hk⟩
    · rintro ⟨k, rfl, hk⟩
      cases k with
      | zero => exact absurd hk (hc name)
      | succ k => exact ⟨k, by omega, hk⟩
  · intro m cs hm ih start offset name
    rw [places, List.mem_cons, ih, Prod.mk.injEq]
    constructor
    · rintro (⟨rfl, rfl⟩ | ⟨k, rfl, hk⟩)
      · exact ⟨0, rfl, (refersAt_written hm).2 (.inl ⟨rfl, rfl⟩)⟩
      · exact ⟨(written m).length + k, by omega, (refersAt_written hm).2 (.inr ⟨k, rfl, hk⟩)⟩
    · rintro ⟨k, rfl, hk⟩
      rcases (refersAt_written hm).1 hk with ⟨rfl, rfl⟩ | ⟨j, rfl, hj⟩
      · exact .inl ⟨rfl, rfl⟩
      · exact .inr ⟨j, by omega, hj⟩

theorem mem_places_zero {cs : List Char} {offset : Nat} {name : String} :
    (offset, name) ∈ places 0 (pieces reference cs) ↔ RefersAt cs offset name := by
  rw [mem_places]
  constructor
  · rintro ⟨k, rfl, hk⟩
    rwa [Nat.zero_add]
  · exact fun h => ⟨offset, (Nat.zero_add offset).symm, h⟩

/-- The references of a line are those that are written somewhere in it. -/
theorem mem_references {line name : String} : name ∈ references line ↔ ∃ k, RefersAt line.toList k name := by
  unfold references words
  rw [← map_places 0, List.mem_map]
  constructor
  · rintro ⟨⟨offset, n⟩, hmem, rfl⟩
    exact ⟨offset, mem_places_zero.1 hmem⟩
  · rintro ⟨k, hk⟩
    exact ⟨(k, name), mem_places_zero.2 hk, rfl⟩

theorem le_of_mem_places {ps : List Piece} : ∀ {start : Nat} {p : Nat × String}, p ∈ places start ps → start ≤ p.1 := by
  induction ps with
  | nil => exact fun h => absurd h List.not_mem_nil
  | cons q ps ih =>
    intro start p hp
    cases q with
    | literal c => exact Nat.le_of_succ_le (ih hp)
    | word name =>
      rcases List.mem_cons.1 hp with rfl | hp
      · exact Nat.le_refl _
      · exact Nat.le_trans (Nat.le_add_right _ _) (ih hp)

/-- The references stand from the left to the right. -/
theorem pairwise_places (start : Nat) (ps : List Piece) : (places start ps).Pairwise fun p q => p.1 < q.1 := by
  induction ps generalizing start with
  | nil => exact .nil
  | cons q ps ih =>
    cases q with
    | literal c => exact ih (start + 1)
    | word name =>
      refine List.pairwise_cons.2 ⟨fun p hp => ?_, ih _⟩
      have hpos : 0 < (written name).length := List.length_pos_of_ne_nil (written_ne_nil name)
      exact Nat.lt_of_lt_of_le (Nat.lt_add_of_pos_right hpos) (le_of_mem_places hp)

/-! ## References of a text -/

/-- A line of a text, and an offset in it. -/
structure Place where
  line : Nat
  offset : Nat

def Place.Before (p q : Place) : Prop := p.line < q.line ∨ p.line = q.line ∧ p.offset < q.offset

theorem Place.Before.asymm {p q : Place} (h : p.Before q) : ¬q.Before p := by
  unfold Before at *
  omega

/-- A reference outside of comments is written at the place. -/
def Refers (text : String) (p : Place) (name : String) : Prop :=
  ∃ line, (lines text)[p.line]? = some line ∧ ¬IsComment line ∧ RefersAt line.toList p.offset name

theorem isComment_iff {line : String} : isComment line = true ↔ IsComment line := by
  unfold isComment trimStart
  rw [decide_eq_true_iff]
  constructor
  · intro h
    obtain ⟨rest, hrest⟩ : ∃ rest, line.toList.dropWhile isBlank = '#' :: rest := List.head?_eq_some_iff.1 h
    refine ⟨line.toList.takeWhile isBlank, rest, ?_, fun c hc => List.mem_takeWhile_imp hc⟩
    rw [← hrest, List.takeWhile_append_dropWhile]
  · rintro ⟨blanks, rest, hline, hblanks⟩
    rw [hline, List.dropWhile_append_of_pos hblanks, List.dropWhile_cons_of_neg (by decide)]
    rfl

/-- The references of a line that count. -/
def linePlaces (k : Nat) (line : String) : List (Place × String) :=
  if isComment line then [] else (places 0 (pieces reference line.toList)).map fun p => (⟨k, p.1⟩, p.2)

/-- The references that count in lines of which the first has this number. -/
def textPlaces : Nat → List String → List (Place × String)
  | _, [] => []
  | k, line :: ls => linePlaces k line ++ textPlaces (k + 1) ls

theorem map_textPlaces (k : Nat) (ls : List String) :
    (textPlaces k ls).map Prod.snd = (ls.filter (!isComment ·)).flatMap references := by
  induction ls generalizing k with
  | nil => rfl
  | cons line ls ih =>
    rw [textPlaces, List.map_append, ih]
    unfold linePlaces
    by_cases hcomment : isComment line = true
    · rw [if_pos hcomment, List.filter_cons_of_neg (by simp [hcomment])]
      rfl
    · rw [if_neg hcomment, List.filter_cons_of_pos (by simp [hcomment]), List.flatMap_cons, List.map_map]
      exact congrArg (· ++ _) (map_places 0 _)

theorem mem_linePlaces {k : Nat} {line : String} {p : Place} {name : String} :
    (p, name) ∈ linePlaces k line ↔ p.line = k ∧ ¬IsComment line ∧ RefersAt line.toList p.offset name := by
  unfold linePlaces
  rw [← isComment_iff]
  by_cases hcomment : isComment line = true
  · rw [if_pos hcomment]
    exact iff_of_false List.not_mem_nil fun h => h.2.1 hcomment
  · rw [if_neg hcomment, List.mem_map]
    constructor
    · rintro ⟨⟨offset, n⟩, hmem, ⟨⟩⟩
      exact ⟨rfl, hcomment, mem_places_zero.1 hmem⟩
    · rintro ⟨rfl, -, h⟩
      exact ⟨(p.offset, name), mem_places_zero.2 h, rfl⟩

theorem mem_textPlaces {ls : List String} {p : Place} {name : String} : ∀ {k : Nat}, (p, name) ∈ textPlaces k ls ↔
    ∃ i line, p.line = k + i ∧ ls[i]? = some line ∧ ¬IsComment line ∧ RefersAt line.toList p.offset name := by
  induction ls with
  | nil =>
    refine iff_of_false List.not_mem_nil ?_
    rintro ⟨i, line, -, hline, -⟩
    cases hline
  | cons l ls ih =>
    intro k
    rw [textPlaces, List.mem_append, mem_linePlaces, ih]
    constructor
    · rintro (⟨hk, h⟩ | ⟨i, line, hi, hline, h⟩)
      · exact ⟨0, l, hk, rfl, h⟩
      · exact ⟨i + 1, line, by omega, hline, h⟩
    · rintro ⟨i, line, hi, hline, h⟩
      cases i with
      | zero =>
        cases hline
        exact .inl ⟨hi, h⟩
      | succ i => exact .inr ⟨i, line, by omega, hline, h⟩

/-- The places of a text. -/
theorem mem_textPlaces_lines {text : String} {p : Place} {name : String} :
    (p, name) ∈ textPlaces 0 (lines text) ↔ Refers text p name := by
  rw [mem_textPlaces]
  constructor
  · rintro ⟨i, line, hi, hline, h⟩
    rw [Nat.zero_add] at hi
    exact ⟨line, by rw [hi, hline], h⟩
  · rintro ⟨line, hline, h⟩
    exact ⟨p.line, line, (Nat.zero_add _).symm, hline, h⟩

/-- The references are in the order of the text. -/
theorem pairwise_textPlaces (k : Nat) (ls : List String) :
    (textPlaces k ls).Pairwise fun p q => p.1.Before q.1 := by
  induction ls generalizing k with
  | nil => exact .nil
  | cons line ls ih =>
    refine List.pairwise_append.2 ⟨?_, ih _, ?_⟩
    · unfold linePlaces
      by_cases hcomment : isComment line = true
      · rw [if_pos hcomment]
        exact .nil
      · rw [if_neg hcomment]
        exact List.pairwise_map.2 ((pairwise_places 0 _).imp fun h => .inr ⟨rfl, h⟩)
    · rintro ⟨p, a⟩ hp ⟨q, b⟩ hq
      obtain ⟨hline, -⟩ := mem_linePlaces.1 hp
      obtain ⟨i, -, hi, -⟩ := mem_textPlaces.1 hq
      refine .inl ?_
      show p.line < q.line
      omega

/-! ## Variables without a value -/

/-- Without its repetitions a list of names is in the order in which the names come first. -/
theorem pairwise_eraseDups {l : List (Place × String)} (h : l.Pairwise fun p q => p.1.Before q.1) :
    (l.map Prod.snd).eraseDups.Pairwise fun a b => ∃ p, (p, a) ∈ l ∧ ∀ q, (q, b) ∈ l → p.Before q := by
  induction hlength : l.length using Nat.strong_induction_on generalizing l with
  | _ n ih =>
    subst hlength
    cases l with
    | nil => exact .nil
    | cons head l =>
      obtain ⟨p, a⟩ := head
      obtain ⟨hhead, htail⟩ := List.pairwise_cons.1 h
      have hfilter : (l.map Prod.snd).filter (fun b => !b == a) = (l.filter fun q => !q.2 == a).map Prod.snd :=
        List.filter_map
      rw [List.map_cons, List.eraseDups_cons, hfilter]
      have hrest := ih _ (Nat.lt_succ_of_le (List.length_filter_le _ l)) (htail.filter fun q => !q.2 == a) rfl
      have hne : ∀ b ∈ ((l.filter fun q => !q.2 == a).map Prod.snd).eraseDups, b ≠ a := by
        intro b hb
        obtain ⟨q, hq, rfl⟩ := List.mem_map.1 (List.mem_eraseDups.1 hb)
        simpa using (List.mem_filter.1 hq).2
      refine List.pairwise_cons.2 ⟨fun b hb => ?_, hrest.imp_of_mem fun {b c} hb hc hbc => ?_⟩
      · refine ⟨p, List.mem_cons_self, fun q hq => ?_⟩
        rcases List.mem_cons.1 hq with heq | hq
        · cases heq
          exact absurd rfl (hne _ hb)
        · exact hhead _ hq
      · obtain ⟨q, hq, hbefore⟩ := hbc
        refine ⟨q, List.mem_cons_of_mem _ (List.mem_of_mem_filter hq), fun r hr => hbefore r ?_⟩
        rcases List.mem_cons.1 hr with heq | hr
        · cases heq
          exact absurd rfl (hne _ hc)
        · exact List.mem_filter.2 ⟨hr, by simpa using hne c hc⟩

/-- The variables without a value to which a text refers, each once, in the order in which they come first. -/
structure ListsMissing (env : Environment) (text : String) (names : List String) : Prop where
  nodup : names.Nodup
  mem_iff : ∀ name, name ∈ names ↔ env name = none ∧ ∃ p, Refers text p name
  ordered : names.Pairwise fun a b => ∃ p, Refers text p a ∧ ∀ q, Refers text q b → p.Before q

/-- There is one such list. -/
theorem ListsMissing.unique {env : Environment} {text : String} {names names' : List String}
    (h : ListsMissing env text names) (h' : ListsMissing env text names') : names = names' := by
  have hperm : names.Perm names' :=
    (List.perm_ext_iff_of_nodup h.nodup h'.nodup).2 fun name => (h.mem_iff name).trans (h'.mem_iff name).symm
  refine hperm.eq_of_pairwise (fun a b _ _ hab hba => ?_) h.ordered h'.ordered
  obtain ⟨p, hp, hpb⟩ := hab
  obtain ⟨q, hq, hqa⟩ := hba
  exact absurd (hqa p hp) (hpb q hq).asymm

theorem listsMissing_missingNames (env : Environment) (text : String) :
    ListsMissing env text (missingNames env text) := by
  have hnames : missingNames env text =
      (((textPlaces 0 (lines text)).filter fun q => (env q.2).isNone).map Prod.snd).eraseDups := by
    unfold missingNames
    rw [← map_textPlaces 0, List.filter_map]
    rfl
  have hmem : ∀ p name, (p, name) ∈ (textPlaces 0 (lines text)).filter (fun q => (env q.2).isNone) ↔
      Refers text p name ∧ env name = none := by
    intro p name
    rw [List.mem_filter, mem_textPlaces_lines, Option.isNone_iff_eq_none]
  have hiff : ∀ name, name ∈ missingNames env text ↔ env name = none ∧ ∃ p, Refers text p name := by
    intro name
    rw [hnames, List.mem_eraseDups, List.mem_map]
    constructor
    · rintro ⟨⟨p, n⟩, hp, rfl⟩
      exact ⟨((hmem p n).1 hp).2, p, ((hmem p n).1 hp).1⟩
    · rintro ⟨hnone, p, hp⟩
      exact ⟨(p, name), (hmem p name).2 ⟨hp, hnone⟩, rfl⟩
  have hordered : (missingNames env text).Pairwise fun a b =>
      ∃ p, Refers text p a ∧ ∀ q, Refers text q b → p.Before q := by
    have hpairwise := pairwise_eraseDups
      ((pairwise_textPlaces 0 (lines text)).filter fun q => (env q.2).isNone)
    rw [← hnames] at hpairwise
    refine hpairwise.imp_of_mem fun {a b} _ hb hab => ?_
    obtain ⟨p, hp, hbefore⟩ := hab
    exact ⟨p, ((hmem p a).1 hp).1, fun q hq => hbefore q ((hmem q b).2 ⟨hq, ((hiff b).1 hb).1⟩)⟩
  refine ⟨hordered.imp fun {a b} hab heq => ?_, hiff, hordered⟩
  obtain ⟨p, hp, hbefore⟩ := hab
  exact (hbefore p (heq ▸ hp)).asymm (hbefore p (heq ▸ hp))

/-- A text is refused if and only if it refers to a variable without a value, and the error lists these variables. -/
theorem fill_fails_iff (env : Environment) (text : String) :
    ((∃ c, env.fill text = .error c) ↔ ∃ p name, Refers text p name ∧ env name = none) ∧
      ∀ c, env.fill text = .error c → ∃ names, ListsMissing env text names ∧ c = .missingVariables names ∧
        c.kind = .configuration ∧ c.detail = "Missing required environment variables: " ++ ", ".intercalate names := by
  have hlists := listsMissing_missingNames env text
  unfold fill
  dsimp only
  by_cases hempty : (missingNames env text).isEmpty = true
  · rw [if_pos hempty]
    refine ⟨iff_of_false (fun h => nomatch h.choose_spec) ?_, nofun⟩
    rintro ⟨p, name, hp, hnone⟩
    have hmem := (hlists.mem_iff name).2 ⟨hnone, p, hp⟩
    rw [List.isEmpty_iff.1 hempty] at hmem
    cases hmem
  · rw [if_neg hempty]
    refine ⟨iff_of_true ⟨_, rfl⟩ ?_, ?_⟩
    · obtain ⟨name, hname⟩ := List.exists_mem_of_ne_nil _ fun h => hempty (List.isEmpty_iff.2 h)
      obtain ⟨hnone, p, hp⟩ := (hlists.mem_iff name).1 hname
      exact ⟨p, name, hp, hnone⟩
    · rintro c ⟨⟩
      exact ⟨_, hlists, rfl, rfl, rfl⟩

/-- References to two variables without a value, of which one is also in a comment. -/
def twoMissing : String := "# $\x7bA\x7d\n$\x7bB\x7d $\x7bC\x7d $\x7b$\x7bA\x7d $\x7b1\x7d\n$\x7bC\x7d"

theorem fill_fails_iff_twoMissing :
    ∃ c, (Environment.ofList [("B", "b")]).fill twoMissing = .error c ∧
      c.message = "Configuration error: Missing required environment variables: C, A" ∧
      ListsMissing (.ofList [("B", "b")]) twoMissing ["C", "A"] := by
  have hnames : missingNames (.ofList [("B", "b")]) twoMissing = ["C", "A"] := by decide +kernel
  have hfill : (Environment.ofList [("B", "b")]).fill twoMissing = .error (.missingVariables ["C", "A"]) := by
    unfold fill
    rw [hnames]
    rfl
  obtain ⟨names, hlists, hcause, -⟩ := (fill_fails_iff _ _).2 _ hfill
  cases hcause
  exact ⟨_, hfill, rfl, hlists⟩

end ControlCodegen.Environment
