import ControlCodegen.Proofs.C.Lexeme
import ControlCodegen.Text.Lines
import Mathlib.Data.List.Basic

/-!
# `C.Lines`: lines of a C text that are read one by one

* `lexemes`, `codeLines` : the lexemes of a text, and those of each of its lines, without blanks and comments.
* `Lexeme.lex_append`, `lexemes_append` : a text that ends in the code is read apart from a break that follows it.
* `IsLine`, `codeLines_unlines` : a line that neither a quotation nor a comment leaves is read apart from the others.
* `Lined` : texts that consist of lines of some kind.
-/

namespace ControlCodegen.C

open Text Lexeme

set_option autoImplicit false

/-! ## Reading on -/

namespace Lexeme

/-- Where the reader stands behind some characters. -/
def Mode.after (mode : Mode) (cs : List Char) : Mode := cs.foldl (fun mode c => mode.next (some c)) mode

theorem Mode.after_append (mode : Mode) (a b : List Char) : mode.after (a ++ b) = (mode.after a).after b :=
  List.foldl_append

/-- Whether a character ends a word and begins no comment. -/
def isBreak (c : Char) : Bool := !isIdentifierTail c && c ≠ '/'

/-- No word goes on into these lexemes. -/
def IsApart (ls : List (Lexeme Char)) : Prop := ∀ w, ls.head? ≠ some (.word w)

theorem isApart_lex {b : List Char} (hb : b.head?.all isBreak = true) : IsApart (lex .code b) := by
  intro w
  cases b with
  | nil => exact nofun
  | cons c b =>
    have hc : isIdentifierTail c = false ∧ c ≠ '/' := by simpa [isBreak] using hb
    change (consCode c _).head? ≠ _
    unfold consCode
    have hchar : Symbol.char? c = some c := rfl
    rw [hchar]
    dsimp only
    rw [hc.1, if_neg Bool.false_ne_true, if_neg hc.2]
    split
    · exact nofun
    · split <;> exact nofun

theorem consWord_append (c : Char) (ls : List (Lexeme Char)) {rest : List (Lexeme Char)} (hrest : IsApart rest) :
    consWord c (ls ++ rest) = consWord c ls ++ rest := by
  cases ls with
  | nil =>
    cases rest with
    | nil => rfl
    | cons l rest =>
      cases l with
      | word w => exact absurd rfl (hrest w)
      | mark c | quotation | blank => rfl
  | cons l ls => cases l <;> rfl

theorem cons_append (mode : Mode) (c : Char) (ls : List (Lexeme Char)) {rest : List (Lexeme Char)}
    (hrest : IsApart rest) : cons mode c (ls ++ rest) = cons mode c ls ++ rest := by
  have hcode : consCode c (ls ++ rest) = consCode c ls ++ rest := by
    unfold consCode
    have hchar : Symbol.char? c = some c := rfl
    rw [hchar]
    dsimp only
    rw [consWord_append c ls hrest]
    split
    · rfl
    · split
      · rfl
      · split
        · rfl
        · split <;> rfl
  cases mode with
  | code => exact hcode
  | slash =>
    unfold cons
    dsimp only
    rw [hcode]
    split <;> rfl
  | remark =>
    unfold cons
    dsimp only
    split <;> rfl
  | quoted _ | escaped _ | comment | asterisk => rfl

/-- A text that ends in the code is read apart from what follows it. -/
theorem lex_append {mode : Mode} {a b : List Char} (ha : mode.after a = .code) (hb : IsApart (lex .code b)) :
    lex mode (a ++ b) = lex mode a ++ lex .code b := by
  induction a generalizing mode with
  | nil =>
    obtain rfl : mode = .code := ha
    rfl
  | cons c a ih =>
    have hlex : lex (mode.next (some c)) (a ++ b) = lex (mode.next (some c)) a ++ lex .code b := ih ha
    change lex mode (c :: (a ++ b)) = _
    rw [lex_cons, lex_cons]
    exact (congrArg (cons mode c) hlex).trans (cons_append mode c _ hb)

/-- Whether a character is read without regard to what follows, and ends neither its line nor a block. -/
def isPlainChar (c : Char) : Bool := !List.contains ['"', '\'', '/', '\n', '\x7b', '\x7d'] c

theorem isPlainChar_of_isIdentifierTail {c : Char} (h : isIdentifierTail c = true) : isPlainChar c = true := by
  have hmarks : ['"', '\'', '/', '\n', '\x7b', '\x7d'].all (fun d => !isIdentifierTail d) = true := by decide
  unfold isPlainChar
  rw [Bool.not_eq_true', List.contains_eq_mem, decide_eq_false_iff_not]
  intro hmem
  have hmark := List.all_eq_true.1 hmarks c hmem
  rw [h] at hmark
  cases hmark

theorem isPlainChar_of_isSpace {c : Char} (h : isSpace c = true) : isPlainChar c = true := by
  unfold isSpace at h
  simp only [Bool.or_eq_true, decide_eq_true_eq] at h
  rcases h with (rfl | rfl) | rfl <;> decide

theorem after_code_of_plain {cs : List Char} (h : cs.all isPlainChar = true) : Mode.code.after cs = .code := by
  induction cs with
  | nil => rfl
  | cons c cs ih =>
    rw [List.all_cons, Bool.and_eq_true] at h
    have hnext : Mode.code.next (some c) = .code := by
      have hc := h.1
      simp only [isPlainChar, Bool.not_eq_true', List.contains_eq_mem, decide_eq_false_iff_not, List.mem_cons,
        not_or] at hc
      simp [Mode.next, Mode.ofCode, quote, hc]
    change (Mode.code.next (some c)).after cs = _
    rw [hnext]
    exact ih h.2

/-- A character adds no other mark, but for a slash that was waiting. -/
theorem mark_notMem_cons {mode : Mode} {c d : Char} (hd : d ≠ '/') (hc : d ≠ c) {ls : List (Lexeme Char)}
    (h : Lexeme.mark d ∉ ls) : Lexeme.mark d ∉ cons mode c ls := by
  have hword : Lexeme.mark d ∉ consWord c ls := by
    rcases ls with _ | ⟨_ | _ | _ | _, ls⟩ <;> simp_all [consWord]
  have hcode : Lexeme.mark d ∉ consCode c ls := by
    unfold consCode
    have hchar : Symbol.char? c = some c := rfl
    rw [hchar]
    dsimp only
    split
    · exact hword
    · split
      · simpa using h
      · split
        · simpa using h
        · split
          · exact h
          · simpa [hc] using h
  cases mode with
  | code => exact hcode
  | slash =>
    unfold cons
    dsimp only
    split
    · simpa using h
    · simpa [hd] using hcode
  | remark =>
    unfold cons
    dsimp only
    split
    · rename_i hbreak
      have hline : d ≠ '\n' := Option.some.inj hbreak ▸ hc
      simpa [hline] using h
    · exact h
  | quoted _ | escaped _ | comment | asterisk => exact h

/-- A mark is read where it stands. -/
theorem mark_notMem_lex {mode : Mode} {d : Char} (hd : d ≠ '/') {cs : List Char} (h : d ∉ cs) :
    Lexeme.mark d ∉ lex mode cs := by
  induction cs generalizing mode with
  | nil => cases mode <;> simp [lex, hd]
  | cons c cs ih =>
    rw [List.mem_cons, not_or] at h
    rw [lex_cons]
    exact mark_notMem_cons hd h.1 (ih h.2)

/-- A comment without asterisks is a blank. -/
theorem lex_comment_of_notMem {body : List Char} (hbody : '*' ∉ body) (rest : List Char) :
    lex .comment (body ++ '*' :: '/' :: rest) = lex .code rest := by
  induction body with
  | nil => rfl
  | cons c body ih =>
    rw [List.mem_cons, not_or] at hbody
    have hnext : Mode.comment.next (some c) = .comment := if_neg fun h => hbody.1 (Option.some.inj h).symm
    change lex (Mode.comment.next (some c)) (body ++ '*' :: '/' :: rest) = _
    rw [hnext]
    exact ih hbody.2

end Lexeme

/-- The lexemes of a text, without blanks. -/
def lexemes (s : String) : List (Lexeme Char) := (lex .code s.toList).filter (· != .blank)

/-- The lexemes of each line of a text, without comments. -/
def codeLines (s : String) : List (List (Lexeme Char)) := Lexeme.lines (lex .code s.toList)

/-- A text of plain characters. -/
abbrev IsPlain (s : String) : Prop := s.toList.all isPlainChar = true

theorem isPlain_of_isWord {s : String} (h : IsWord s.toList) : IsPlain s :=
  List.all_eq_true.2 fun c hc => isPlainChar_of_isIdentifierTail (h.2 c hc)

theorem IsPlain.append {a b : String} (ha : IsPlain a) (hb : IsPlain b) : IsPlain (a ++ b) := by
  unfold IsPlain
  rw [String.toList_append, List.all_append, ha, hb]
  rfl

theorem IsPlain.intercalate {sep : String} (hsep : IsPlain sep) {texts : List String} (h : ∀ s ∈ texts, IsPlain s) :
    IsPlain (sep.intercalate texts) := by
  induction texts with
  | nil => rfl
  | cons s texts ih =>
    rw [List.forall_mem_cons] at h
    cases texts with
    | nil =>
      rw [String.intercalate_singleton]
      exact h.1
    | cons t texts =>
      rw [String.intercalate_cons_cons]
      exact (h.1.append hsep).append (ih h.2)

/-- A mark that is not plain is not read. -/
theorem IsPlain.mark_notMem {s : String} (h : IsPlain s) {d : Char} (hd : d ≠ '/') (hplain : isPlainChar d = false) :
    .mark d ∉ lex .code s.toList := by
  refine mark_notMem_lex hd fun hmem => ?_
  rw [List.all_eq_true.1 h d hmem] at hplain
  cases hplain

theorem lexemes_append {a b : String} (ha : Mode.code.after a.toList = .code) (hb : b.toList.head?.all isBreak = true) :
    lexemes (a ++ b) = lexemes a ++ lexemes b := by
  unfold lexemes
  rw [String.toList_append, lex_append ha (isApart_lex hb), List.filter_append]

theorem lexemes_blank (s : String) : lexemes (" " ++ s) = lexemes s := by
  unfold lexemes
  rw [String.toList_append]
  rfl

theorem lexemes_word {s : String} (h : IsWord s.toList) : lexemes s = [.word s.toList] := by
  have hlex : lex .code s.toList = [.word s.toList] := by
    have hword := lex_append_word .code h []
    rw [List.append_nil] at hword
    rw [hword]
    exact foldr_consWord h.1 []
  unfold lexemes
  rw [hlex]
  rfl

/-! ## Lines -/

/-- A line, read by itself: the reader is in the code at its end. A comment in it may go over several lines. -/
structure IsLine (s : String) : Prop where
  closed : Mode.code.after s.toList = .code
  single : .mark '\n' ∉ lex .code s.toList

instance (s : String) : Decidable (IsLine s) :=
  decidable_of_iff (_ ∧ _) ⟨fun h => ⟨h.1, h.2⟩, fun h => ⟨h.closed, h.single⟩⟩

theorem isLine_of_plain {s : String} (h : IsPlain s) : IsLine s :=
  ⟨after_code_of_plain h, h.mark_notMem (by decide) (by decide)⟩

theorem IsLine.append {a b : String} (ha : IsLine a) (hb : IsLine b) (hbreak : b.toList.head?.all isBreak = true) :
    IsLine (a ++ b) := by
  constructor
  · rw [String.toList_append, Mode.after_append, ha.closed]
    exact hb.closed
  · rw [String.toList_append, lex_append ha.closed (isApart_lex hbreak), List.mem_append, not_or]
    exact ⟨ha.single, hb.single⟩

/-- A comment at the end of a line is not read. -/
theorem isLine_comment {front opening text : String} (hfront : IsPlain front)
    (hopening : opening = "/* " ∨ opening = "/** ") (h : '*' ∉ text.toList) :
    IsLine (front ++ (opening ++ text ++ " */")) ∧ lexemes (front ++ (opening ++ text ++ " */")) = lexemes front := by
  have hbody : '*' ∉ text.toList ++ [' '] := by simpa using h
  have hlist : (opening ++ text ++ " */").toList = opening.toList ++ (text.toList ++ [' '] ++ ['*', '/']) := by
    rw [String.toList_append, String.toList_append, List.append_assoc, List.append_assoc]
    rfl
  have hafter : ∀ cs : List Char, '*' ∉ cs → Mode.comment.after cs = .comment := by
    intro cs hcs
    induction cs with
    | nil => rfl
    | cons c cs ih =>
      rw [List.mem_cons, not_or] at hcs
      have hnext : Mode.comment.next (some c) = .comment := if_neg fun h => hcs.1 (Option.some.inj h).symm
      change (Mode.comment.next (some c)).after cs = _
      rw [hnext]
      exact ih hcs.2
  have hopen (cs : List Char) : Mode.code.after (opening.toList ++ cs) = Mode.comment.after cs ∧
      lex .code (opening.toList ++ cs) = .blank :: lex .comment cs := by
    rcases hopening with rfl | rfl <;> exact ⟨rfl, rfl⟩
  have hlex : lex .code (opening ++ text ++ " */").toList = [.blank] := by
    rw [hlist, (hopen _).2]
    exact congrArg (Lexeme.blank :: ·) (lex_comment_of_notMem hbody [])
  have hall : lex .code (front ++ (opening ++ text ++ " */")).toList = lex .code front.toList ++ [.blank] := by
    rw [String.toList_append, lex_append (after_code_of_plain hfront) (hlex ▸ nofun), hlex]
  have hline := isLine_of_plain hfront
  refine ⟨⟨?_, ?_⟩, ?_⟩
  · rw [String.toList_append, Mode.after_append, hline.closed, hlist, (hopen _).1, Mode.after_append, hafter _ hbody]
    rfl
  · rw [hall, List.mem_append, not_or]
    exact ⟨hline.single, by decide⟩
  · unfold lexemes
    rw [hall, List.filter_append]
    exact List.append_nil _

/-- A description is a line that is not read. -/
theorem isLine_description {text : String} (h : '*' ∉ text.toList) :
    IsLine ("/** " ++ text ++ " */") ∧ lexemes ("/** " ++ text ++ " */") = [] := by
  have hempty : IsPlain "" := rfl
  have hcomment := isLine_comment hempty (.inr rfl) h
  rw [String.empty_append] at hcomment
  exact hcomment

/-- Lines are the lexemes up to a line feed, and the lines behind it. -/
theorem lines_append {ls : List (Lexeme Char)} (hls : .mark '\n' ∉ ls) (rest : List (Lexeme Char)) :
    Lexeme.lines (ls ++ .mark '\n' :: rest) =
      [ls.filter (· != .blank)].filter (!·.isEmpty) ++ Lexeme.lines rest := by
  have hfold : (ls ++ .mark '\n' :: rest).foldr consLine [[]] =
      ls.filter (· != .blank) :: rest.foldr consLine [[]] := by
    induction ls with
    | nil => rfl
    | cons l ls ih =>
      rw [List.mem_cons, not_or] at hls
      rw [List.cons_append, List.foldr_cons, ih hls.2]
      cases l with
      | mark c =>
        have hc : c ≠ '\n' := fun h => hls.1 (congrArg Lexeme.mark h).symm
        change (if c = '\n' then _ else _) = _
        rw [if_neg hc]
        rfl
      | word w | quotation | blank => rfl
  unfold Lexeme.lines
  rw [hfold, ← List.singleton_append, List.filter_append]

theorem codeLines_line {l : String} (hl : IsLine l) (rest : String) :
    codeLines (l ++ "\n" ++ rest) = [lexemes l].filter (!·.isEmpty) ++ codeLines rest := by
  have hend : lex .code ("\n" ++ rest).toList = .mark '\n' :: lex .code rest.toList := by
    rw [String.toList_append]
    rfl
  have hlex : lex .code (l ++ "\n" ++ rest).toList = lex .code l.toList ++ .mark '\n' :: lex .code rest.toList := by
    rw [String.append_assoc, String.toList_append, lex_append hl.closed (hend ▸ nofun), hend]
  unfold codeLines
  rw [hlex, lines_append hl.single]
  rfl

/-- A line with lexemes. -/
theorem codeLines_cons {l : String} (hl : IsLine l) (hne : lexemes l ≠ []) (rest : String) :
    codeLines (l ++ "\n" ++ rest) = lexemes l :: codeLines rest := by
  rw [codeLines_line hl, List.filter_cons_of_pos (by simpa using hne)]
  rfl

/-- Lines are read one by one. -/
theorem codeLines_unlines {ls : List String} (hls : ∀ l ∈ ls, IsLine l) (rest : String) :
    codeLines (unlines ls ++ rest) = (ls.map lexemes).filter (!·.isEmpty) ++ codeLines rest := by
  induction ls with
  | nil =>
    rw [List.map_nil, List.filter_nil, List.nil_append, unlines, List.map_nil, String.join_nil, String.empty_append]
  | cons l ls ih =>
    rw [List.forall_mem_cons] at hls
    have hcons : unlines (l :: ls) ++ rest = l ++ "\n" ++ (unlines ls ++ rest) := by
      unfold unlines
      rw [List.map_cons, String.join_cons, String.append_assoc]
    have hfilter : ((l :: ls).map lexemes).filter (!·.isEmpty) =
        [lexemes l].filter (!·.isEmpty) ++ (ls.map lexemes).filter (!·.isEmpty) :=
      List.filter_append [lexemes l] (ls.map lexemes)
    rw [hcons, codeLines_line hls.1, ih hls.2, hfilter, List.append_assoc]

/-- A text that consists of lines of some kind. -/
def Lined (P : List (Lexeme Char) → Prop) (text : String) : Prop :=
  ∃ ls : List String, text = unlines ls ∧ ∀ l ∈ ls, IsLine l ∧ P (lexemes l)

namespace Lined

variable {P : List (Lexeme Char) → Prop} {text : String}

theorem nil : Lined P "" := ⟨[], rfl, fun _ h => absurd h List.not_mem_nil⟩

theorem line {l : String} (hl : IsLine l) (hP : P (lexemes l)) : Lined P (l ++ "\n") :=
  ⟨[l], by rw [unlines, List.map_singleton, String.join_cons, String.join_nil, String.append_empty],
    List.forall_mem_singleton.2 ⟨hl, hP⟩⟩

theorem append {s : String} (h : Lined P text) (hs : Lined P s) : Lined P (text ++ s) := by
  obtain ⟨ls, rfl, hls⟩ := h
  obtain ⟨ls', rfl, hls'⟩ := hs
  refine ⟨ls ++ ls', ?_, List.forall_mem_append.2 ⟨hls, hls'⟩⟩
  unfold unlines
  rw [List.map_append, String.join_append]

theorem mono {Q : List (Lexeme Char) → Prop} (h : Lined P text) (hPQ : ∀ l, P l → Q l) : Lined Q text := by
  obtain ⟨ls, rfl, hls⟩ := h
  exact ⟨ls, rfl, fun l hl => ⟨(hls l hl).1, hPQ _ (hls l hl).2⟩⟩

theorem join {texts : List String} (h : ∀ s ∈ texts, Lined P s) : Lined P (String.join texts) := by
  induction texts with
  | nil => exact nil
  | cons s texts ih =>
    rw [List.forall_mem_cons] at h
    rw [String.join_cons]
    exact h.1.append (ih h.2)

theorem codeLines_append (h : Lined P text) (rest : String) :
    codeLines (text ++ rest) = codeLines text ++ codeLines rest := by
  obtain ⟨ls, rfl, hls⟩ := h
  have hlines := codeLines_unlines fun l hl => (hls l hl).1
  have hself := hlines ""
  rw [String.append_empty] at hself
  rw [hlines, hself, List.append_assoc]
  rfl

theorem mem_join {texts : List String} (h : ∀ s ∈ texts, Lined P s) {s : String} (hs : s ∈ texts)
    {l : List (Lexeme Char)} (hl : l ∈ codeLines s) : l ∈ codeLines (String.join texts) := by
  induction texts with
  | nil => cases hs
  | cons t texts ih =>
    rw [List.forall_mem_cons] at h
    rw [String.join_cons, h.1.codeLines_append, List.mem_append]
    rcases List.mem_cons.1 hs with rfl | hs
    · exact .inl hl
    · exact .inr (ih h.2 hs)

/-- Every line is of that kind. -/
theorem forall_mem (h : Lined P text) : ∀ l ∈ codeLines text, P l := by
  obtain ⟨ls, rfl, hls⟩ := h
  have hlines := codeLines_unlines (fun l hl => (hls l hl).1) ""
  rw [String.append_empty] at hlines
  intro l hl
  rw [hlines] at hl
  rcases List.mem_append.1 hl with hl | hl
  · obtain ⟨s, hs, rfl⟩ := List.mem_map.1 (List.mem_filter.1 hl).1
    exact (hls s hs).2
  · cases hl

end Lined

/-- Texts with a separator between them, and one behind the last. -/
theorem intercalate_append {texts : List String} (h : texts ≠ []) (sep : String) :
    sep.intercalate texts ++ sep = String.join (texts.map (· ++ sep)) := by
  induction texts with
  | nil => exact absurd rfl h
  | cons s texts ih =>
    cases texts with
    | nil =>
      rw [String.intercalate_singleton, List.map_singleton, String.join_cons, String.join_nil, String.append_empty]
    | cons t texts =>
      rw [String.intercalate_cons_cons, String.append_assoc, ih (List.cons_ne_nil _ _), List.map_cons (l := t :: texts),
        String.join_cons]

end ControlCodegen.C
