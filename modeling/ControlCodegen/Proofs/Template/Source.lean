import ControlCodegen.Proofs.C.Reading
import ControlCodegen.Template.Render
import Mathlib.Data.List.Basic

/-!
# `Template.Source`: templates as C texts

* `Spells` : strings and their characters, line by line.
* `Template.outline`, `Template.source?` : the symbols of a template, and what is read of them.
* `Template.exists_render` : a file whose places have values can be rendered.
* `Template.read_render` : what is read of a rendered file is what is read of its template, filled in.
-/

namespace ControlCodegen

open C C.Preprocessor Text

set_option autoImplicit false

/-! ## Lines as characters -/

/-- Lines and their characters. -/
inductive Spells : List String → List (List Char) → Prop where
  | nil : Spells [] []
  | cons {s : String} {cs : List Char} {lines : List String} {ls : List (List Char)} (h : s = String.ofList cs)
      (hs : Spells lines ls) : Spells (s :: lines) (cs :: ls)

theorem Spells.map_toList {lines : List String} {ls : List (List Char)} (h : Spells lines ls) :
    lines.map String.toList = ls := by
  induction h with
  | nil => rfl
  | cons h hs ih => rw [List.map_cons, ih, h, String.toList_ofList]

namespace Template

/-- The symbols of the lines that go into a file. -/
def outlineOf (ls : List (List Char)) : List Piece :=
  (ls.filter fun l => !(['@', '@'].isPrefixOf l)).flatMap fun l => pieces placeholder l ++ [.literal '\n']

def outline (t : Template) : List Piece := outlineOf (t.lines.map String.toList)

/-- A template, read as a C text. -/
def source? (t : Template) : Option (Source Piece) := Source.read t.outline

theorem source?_of_spells {t : Template} {ls : List (List Char)} (h : Spells t.lines ls) :
    t.source? = Source.read (outlineOf ls) := by
  unfold source? outline
  rw [h.map_toList]

/-! ## Rendered files -/

/-- The characters of the value of a place. -/
def chars (subs : Substitutions) (name : String) : List Char := ((subs.value? name).getD "").toList

/-- Every value is a part of a word. -/
def AllWords (subs : Substitutions) : Prop := ∀ name value, subs.value? name = some value → Lexeme.IsWord value.toList

theorem toList_join (ss : List String) : (String.join ss).toList = ss.flatMap String.toList := by
  induction ss with
  | nil => rfl
  | cons s ss ih => rw [String.join_cons, String.toList_append, ih, List.flatMap_cons]

variable {t : Template} {subs : Substitutions}

theorem outline_eq (t : Template) :
    t.outline = (t.keptLines true).flatMap fun line => pieces placeholder line.toList ++ [Piece.literal '\n'] := by
  unfold outline outlineOf
  rw [List.filter_map, List.flatMap_map]
  rfl

/-- Every place of a file that is rendered has a value. -/
theorem isSome_value? (h : t.missingNames true subs = []) {name : String} (hname : Piece.word name ∈ t.outline) :
    (subs.value? name).isSome = true := by
  refine Decidable.byContradiction fun hvalue => ?_
  have hmem : name ∈ t.missingNames true subs := by
    refine List.mem_eraseDups.2 (List.mem_filter.2 ⟨?_, by simpa using hvalue⟩)
    rw [outline_eq] at hname
    obtain ⟨line, hline, hname⟩ := List.mem_flatMap.1 hname
    rcases List.mem_append.1 hname with hname | hname
    · exact List.mem_flatMap.2 ⟨line, hline, List.mem_filterMap.2 ⟨_, hname, rfl⟩⟩
    · cases List.mem_singleton.1 hname
  rw [h] at hmem
  cases hmem

/-- Where every place has a value, the file can be rendered. -/
theorem exists_render (h : ∀ name, Piece.word name ∈ t.outline → (subs.value? name).isSome = true) (token : String) :
    ∃ text, t.render token true subs = .ok text := by
  have hmissing : t.missingNames true subs = [] := by
    refine List.eq_nil_iff_forall_not_mem.2 fun name hname => ?_
    obtain ⟨hname, hvalue⟩ := List.mem_filter.1 (List.mem_eraseDups.1 hname)
    obtain ⟨line, hline, hname⟩ := List.mem_flatMap.1 hname
    obtain ⟨piece, hpiece, hword⟩ := List.mem_filterMap.1 hname
    cases piece with
    | literal c => cases hword
    | word name' =>
      obtain rfl := Option.some.inj hword
      have hsome := h name' (outline_eq t ▸ List.mem_flatMap.2 ⟨line, hline, List.mem_append_left _ hpiece⟩)
      rw [Option.isNone_iff_eq_none.1 hvalue] at hsome
      cases hsome
  exact ⟨_, if_pos (List.isEmpty_iff.2 hmissing)⟩

theorem toList_fillPiece {a : Piece} (ha : ∀ name, a = .word name → (subs.value? name).isSome = true) :
    (fillPiece subs a).toList = Lexeme.fillSymbol (chars subs) a := by
  cases a with
  | literal c => exact String.toList_singleton c
  | word name =>
    obtain ⟨value, hvalue⟩ := Option.isSome_iff_exists.1 (ha name rfl)
    simp [fillPiece, Lexeme.fillSymbol, chars, hvalue]

/-- The text of a file is its outline, filled in. -/
theorem toList_unlines (hmissing : t.missingNames true subs = []) :
    (unlines ((t.keptLines true).map (fillLine subs))).toList =
      t.outline.flatMap (Lexeme.fillSymbol (chars subs)) := by
  have hvalue : ∀ name, Piece.word name ∈ t.outline → (subs.value? name).isSome = true := fun name hname =>
    isSome_value? hmissing hname
  unfold unlines
  rw [outline_eq] at hvalue ⊢
  rw [List.map_map, toList_join, List.flatMap_map, List.flatMap_assoc]
  refine List.flatMap_congr fun line hline => ?_
  change (fillLine subs line ++ "\n").toList = _
  rw [String.toList_append, fillLine, toList_join, List.flatMap_map, List.flatMap_append]
  refine congrArg₂ (· ++ ·) (List.flatMap_congr fun a ha => toList_fillPiece ?_) rfl
  rintro name rfl
  exact hvalue name (List.mem_flatMap.2 ⟨line, hline, List.mem_append_left _ ha⟩)

/-- The notice on top of a file is a comment. -/
theorem lex_notice (rest : List Char) :
    Lexeme.lex .code ((notice "").toList ++ rest) =
      .blank :: .mark '\n' :: .mark '\n' :: Lexeme.lex .code rest := by
  let body := "\n" ++ String.join (noticeLines.map fun l => s!" *    {l}\n") ++ " "
  have hnotice : notice "" = "/*" ++ (body ++ "*/\n\n") := rfl
  have hbody : '/' ∉ body.toList := by decide +kernel
  rw [hnotice, String.toList_append, String.toList_append, List.append_assoc, List.append_assoc]
  exact congrArg (Lexeme.blank :: ·) (Lexeme.lex_comment (.inl rfl) hbody ('\n' :: '\n' :: rest))

theorem read_notice (rest : List Char) : Source.read ((notice "").toList ++ rest) = Source.read rest := by
  unfold Source.read
  rw [lex_notice]
  rfl

/-- What is read of a rendered file is what is read of its template, filled in. -/
theorem read_render {text : String} (h : t.render "" true subs = .ok text) (hsubs : AllWords subs) {source : Source Piece}
    (hsource : t.source? = some source) : Source.read text.toList = some (source.fill (chars subs)) := by
  unfold render at h
  dsimp only at h
  split at h
  · rename_i hmissing
    have hmissing := List.isEmpty_iff.1 hmissing
    obtain rfl := Except.ok.inj h
    rw [if_pos rfl, String.toList_append, read_notice, toList_unlines hmissing]
    refine Source.read_fill (fun name hname => ?_) hsource
    obtain ⟨value, hvalue⟩ := Option.isSome_iff_exists.1 (isSome_value? hmissing hname)
    unfold chars
    rw [hvalue]
    exact hsubs name value hvalue
  · cases h

end Template

end ControlCodegen
