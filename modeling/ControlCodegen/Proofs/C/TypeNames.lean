import ControlCodegen.Proofs.C.Lines

/-!
# `C.TypeNames`: the names of types in C texts

* `IsBuiltin`, `IsTypeName` : the types that C itself has, and what can be a type.
* `UsesType`, `Introduces` : the texts that use a type and those that introduce its name.
* `Form` : the lines that introduce a name.
-/

namespace ControlCodegen.C

open Text Lexeme

set_option autoImplicit false

/-! ## Types -/

/-- The specifiers of the types that C99 itself has. -/
def builtins : List (List String) :=
  [["void"], ["char"], ["signed", "char"], ["unsigned", "char"],
    ["short"], ["short", "int"], ["signed", "short"], ["signed", "short", "int"],
    ["unsigned", "short"], ["unsigned", "short", "int"],
    ["int"], ["signed"], ["signed", "int"], ["unsigned"], ["unsigned", "int"],
    ["long"], ["long", "int"], ["signed", "long"], ["signed", "long", "int"],
    ["unsigned", "long"], ["unsigned", "long", "int"],
    ["long", "long"], ["long", "long", "int"], ["signed", "long", "long"], ["signed", "long", "long", "int"],
    ["unsigned", "long", "long"], ["unsigned", "long", "long", "int"],
    ["float"], ["double"], ["long", "double"], ["_Bool"],
    ["float", "_Complex"], ["double", "_Complex"], ["long", "double", "_Complex"]]

/-- A type that C itself has: its specifiers, in any order, with blanks between them. -/
structure IsBuiltin (s : String) : Prop where
  plain : s.toList.all (fun c => isIdentifierTail c || isSpace c) = true
  specifiers : ∃ b ∈ builtins, (lexemes s).Perm (b.map fun w => .word w.toList)

instance (s : String) : Decidable (IsBuiltin s) :=
  decidable_of_iff (_ ∧ _) ⟨fun h => ⟨h.1, h.2⟩, fun h => ⟨h.plain, h.specifiers⟩⟩

/-- What C can take for a type. -/
def IsTypeName (s : String) : Prop := isIdentifier s = true ∨ IsBuiltin s

instance (s : String) : Decidable (IsTypeName s) := inferInstanceAs (Decidable (_ ∨ _))

/-- What may stand between a type and the name of what has it. -/
def declarators : List (List (Lexeme Char)) := [[], [.mark '*'], [.mark '*', .word "const".toList]]

/-- A text declares something with a type. -/
def UsesType (T text : String) : Prop :=
  ∃ before after, ∃ declarator ∈ declarators, ∃ name : String, isIdentifier name = true ∧
    before ++ lexemes T ++ declarator ++ .word name.toList :: after ∈ codeLines text

/-- A line that introduces the name of a type: all of a `typedef`, or the end of that of a struct. -/
inductive Form (T : String) : List (Lexeme Char) → Prop where
  | scalar {spec : List (Lexeme Char)} (hspec : spec ≠ []) :
    Form T (.word "typedef".toList :: spec ++ lexemes T ++ [.mark ';'])
  | struct : Form T (.mark '\x7d' :: lexemes T ++ [.mark ';'])

/-- A text introduces the name of a type. -/
inductive Introduces (T text : String) : Prop where
  | scalar {spec : List (Lexeme Char)} (hspec : spec ≠ [])
    (h : .word "typedef".toList :: spec ++ lexemes T ++ [.mark ';'] ∈ codeLines text)
  | struct {before body after : List (List (Lexeme Char))} {tag : List Char} (hbody : ∀ l ∈ body, .mark '\x7d' ∉ l)
    (h : codeLines text = before ++ ([.word "typedef".toList, .word "struct".toList, .word tag] :: body ++
      [.mark '\x7d' :: lexemes T ++ [.mark ';']]) ++ after)

theorem Introduces.exists_form {T text : String} (h : Introduces T text) : ∃ l ∈ codeLines text, Form T l := by
  cases h with
  | scalar hspec h => exact ⟨_, h, .scalar hspec⟩
  | struct hbody h =>
    refine ⟨_, ?_, .struct⟩
    rw [h]
    exact List.mem_append_left _ (List.mem_append_right _ (List.mem_append_right _ (List.mem_singleton_self _)))

/-! ## Names of types -/

section

variable {s : String}

theorem lexemes_identifier (h : isIdentifier s = true) : lexemes s = [.word s.toList] :=
  lexemes_word (isWord_of_isIdentifier h)

/-- An identifier is the only word in it. -/
theorem eq_of_word_mem {T : String} (hT : isIdentifier T = true) (h : .word s.toList ∈ lexemes T) : s = T := by
  rw [lexemes_identifier hT] at h
  exact String.toList_inj.1 (Lexeme.word.inj (List.mem_singleton.1 h))

theorem isPlain_of_isIdentifier (h : isIdentifier s = true) : IsPlain s := isPlain_of_isWord (isWord_of_isIdentifier h)

theorem IsTypeName.plain (h : IsTypeName s) : IsPlain s := by
  rcases h with h | h
  · exact isPlain_of_isIdentifier h
  · refine List.all_eq_true.2 fun c hc => ?_
    rcases Bool.or_eq_true_iff.1 (List.all_eq_true.1 h.plain c hc) with h | h
    · exact isPlainChar_of_isIdentifierTail h
    · exact isPlainChar_of_isSpace h

/-- The words of a type that C itself has are specifiers. -/
theorem IsBuiltin.exists_specifier (h : IsBuiltin s) :
    lexemes s ≠ [] ∧ ∀ l ∈ lexemes s, ∃ b ∈ builtins, ∃ w ∈ b, l = .word w.toList := by
  obtain ⟨b, hb, hperm⟩ := h.specifiers
  have hne : ∀ b ∈ builtins, b ≠ [] := by decide
  refine ⟨fun hnil => ?_, fun l hl => ?_⟩
  · rw [hnil, List.nil_perm, List.map_eq_nil_iff] at hperm
    exact hne b hb hperm
  · obtain ⟨w, hw, rfl⟩ := List.mem_map.1 (hperm.mem_iff.1 hl)
    exact ⟨b, hb, w, hw, rfl⟩

/-- A type is spelled with words, and `typedef` is none of several. -/
structure IsSpelled (ls : List (Lexeme Char)) : Prop where
  ne_nil : ls ≠ []
  words : ∀ l ∈ ls, ∃ w, l = .word w
  single : (∃ w, ls = [.word w]) ∨ .word "typedef".toList ∉ ls

theorem IsTypeName.isSpelled (h : IsTypeName s) : IsSpelled (lexemes s) := by
  rcases h with h | h
  · rw [lexemes_identifier h]
    exact ⟨List.cons_ne_nil _ _, fun l hl => ⟨_, List.mem_singleton.1 hl⟩, .inl ⟨_, rfl⟩⟩
  · obtain ⟨hne, hspecifier⟩ := h.exists_specifier
    have hnone : ∀ b ∈ builtins, "typedef" ∉ b := by decide
    refine ⟨hne, fun l hl => ?_, .inr fun hl => ?_⟩
    · obtain ⟨-, -, w, -, rfl⟩ := hspecifier l hl
      exact ⟨_, rfl⟩
    · obtain ⟨b, hb, w, hw, hl⟩ := hspecifier _ hl
      rw [← String.toList_inj.1 (Lexeme.word.inj hl)] at hw
      exact hnone b hb hw

/-- What is declared stands behind its type. -/
theorem lexemes_declaration (htype : IsTypeName s) {name rest : String} (hname : isIdentifier name = true)
    (hrest : rest.toList.head?.all isBreak = true) :
    lexemes (s ++ " " ++ name ++ rest) = lexemes s ++ .word name.toList :: lexemes rest := by
  have hplain : IsPlain (s ++ (" " ++ name)) :=
    htype.plain.append (IsPlain.append (by decide) (isPlain_of_isIdentifier hname))
  have hassoc : s ++ " " ++ name = s ++ (" " ++ name) := String.append_assoc
  rw [hassoc, lexemes_append (after_code_of_plain hplain) hrest,
    lexemes_append (after_code_of_plain htype.plain) (by rw [String.toList_append]; rfl), lexemes_blank,
    lexemes_identifier hname, List.append_assoc]
  rfl

end

/-! ## Lines that introduce nothing -/

section

variable {T : String} {l : List (Lexeme Char)}

theorem not_form_of_head {a : Lexeme Char} (htypedef : a ≠ .word "typedef".toList) (hbrace : a ≠ .mark '\x7d') :
    ¬Form T (a :: l) := by
  generalize hline : a :: l = line
  rintro (_ | _)
  · exact htypedef (List.cons.inj hline).1
  · exact hbrace (List.cons.inj hline).1

variable (hT : isIdentifier T = true)

include hT

/-- What stands before a name that is introduced. -/
theorem Form.exists_front (h : Form T l) :
    ∃ front, l = front ++ [.word T.toList, .mark ';'] ∧
      (front = [.mark '\x7d'] ∨ 2 ≤ front.length ∧ .word "typedef".toList ∈ front) := by
  have hname := lexemes_identifier hT
  cases h with
  | scalar hspec =>
    rename_i spec
    refine ⟨.word "typedef".toList :: spec, ?_, .inr ⟨?_, List.mem_cons_self⟩⟩
    · rw [hname, List.append_assoc]
      rfl
    · rw [List.length_cons]
      exact Nat.succ_le_succ (List.length_pos_iff.2 hspec)
  | struct =>
    refine ⟨[.mark '\x7d'], ?_, .inl rfl⟩
    rw [hname]
    rfl

theorem not_form_of_length (h : l.length < 3) : ¬Form T l := by
  intro hform
  obtain ⟨front, rfl, hfront⟩ := hform.exists_front hT
  have hlength : 0 < front.length := by
    rcases hfront with rfl | ⟨hlength, -⟩
    · exact Nat.one_pos
    · omega
  rw [List.length_append] at h
  exact absurd h (by simp; omega)

/-- A line that does not end in a word and a semicolon. -/
theorem not_form_of_end {a b : Lexeme Char} (h : (∀ w, a ≠ .word w) ∨ b ≠ .mark ';') : ¬Form T (l ++ [a, b]) := by
  intro hform
  obtain ⟨front, hline, -⟩ := hform.exists_front hT
  obtain ⟨ha, hb⟩ := List.cons.inj (List.append_inj' hline rfl).2
  exact h.elim (fun h => h _ ha) fun h => h (List.cons.inj hb).1

/-- What is declared with a type is no type. -/
theorem not_form_of_isSpelled (htype : IsSpelled l) (name : List Char) : ¬Form T (l ++ [.word name, .mark ';']) := by
  intro hform
  obtain ⟨front, hline, hfront⟩ := hform.exists_front hT
  obtain rfl := (List.append_inj' hline rfl).1
  rcases hfront with rfl | ⟨hlength, htypedef⟩
  · obtain ⟨w, hw⟩ := htype.words _ (List.mem_singleton_self _)
    cases hw
  · rcases htype.single with ⟨w, rfl⟩ | hnone
    · exact absurd hlength (by simp)
    · exact hnone htypedef

end

end ControlCodegen.C
