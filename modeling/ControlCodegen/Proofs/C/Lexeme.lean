import ControlCodegen.ModuleName
import ControlCodegen.Text.Marks

/-!
# `C.Lexeme`: the lexemes of a C text

A text is read into words, marks, quotations and blanks. A comment is a blank, and what stands in a quotation is not
looked at. A text with places that are filled in later is read in the same way; such a place is a part of a word.

* `Symbol` : what a text consists of, characters or characters and places.
* `Lexeme.Mode`, `Lexeme.lex` : the reader; it sees one symbol at a time.
* `Lexeme.lex_fill` : filling in does not change what is read, as long as letters, digits and underscores are filled in.
* `Lexeme.lines` : the lexemes of each line that has any, without blanks.
-/

namespace ControlCodegen.C

open Text

set_option autoImplicit false

/-- What a text consists of. A symbol without a character is a place for a part of a word. -/
class Symbol (α : Type) where
  char? : α → Option Char

instance : Symbol Char := ⟨some⟩

instance : Symbol Piece where
  char?
    | .literal c => some c
    | .word _ => none

inductive Lexeme (α : Type) where
  /-- A name or a numeral. -/
  | word (symbols : List α)
  | mark (c : Char)
  | quotation
  | blank
  deriving DecidableEq, Repr

namespace Lexeme

/-- Where a reader stands. -/
inductive Mode where
  | code
  /-- Behind a slash, which may begin a comment. -/
  | slash
  /-- In a quotation between double or single quotes. -/
  | quoted (double : Bool)
  /-- Behind a backslash in a quotation. -/
  | escaped (double : Bool)
  | comment
  /-- Behind an asterisk, which may end the comment. -/
  | asterisk
  /-- In a comment that ends with its line. -/
  | remark
  deriving DecidableEq, Repr

def quote (double : Bool) : Char := if double then '"' else '\''

/-- Blanks within a line. -/
def isSpace (c : Char) : Bool := c = ' ' || c = '\t' || c = '\r'

namespace Mode

/-- Where the reader stands behind a symbol of the code. -/
def ofCode : Option Char → Mode
  | some c =>
    if c = quote true then quoted true else if c = quote false then quoted false else if c = '/' then slash else code
  | none => code

/-- Where the reader stands behind the next symbol. -/
def next : Mode → Option Char → Mode
  | code, c => ofCode c
  | slash, c => if c = some '*' then comment else if c = some '/' then remark else ofCode c
  | quoted q, c => if c = some '\\' then escaped q else if c = some (quote q) then code else quoted q
  | escaped q, _ => quoted q
  | comment, c => if c = some '*' then asterisk else comment
  | asterisk, c => if c = some '/' then code else if c = some '*' then asterisk else comment
  | remark, c => if c = some '\n' then code else remark

end Mode

section

variable {α : Type}

/-- A symbol of a word in front of what follows it. -/
def consWord (a : α) : List (Lexeme α) → List (Lexeme α)
  | .word w :: ls => .word (a :: w) :: ls
  | ls => .word [a] :: ls

variable [Symbol α]

/-- A symbol of the code in front of what follows it. -/
def consCode (a : α) (ls : List (Lexeme α)) : List (Lexeme α) :=
  match Symbol.char? a with
  | none => consWord a ls
  | some c =>
    if isIdentifierTail c then consWord a ls
    else if c = quote true ∨ c = quote false then .quotation :: ls
    else if isSpace c then .blank :: ls
    else if c = '/' then ls
    else .mark c :: ls

/-- The next symbol in front of what follows it. -/
def cons : Mode → α → List (Lexeme α) → List (Lexeme α)
  | .code, a, ls => consCode a ls
  | .slash, a, ls =>
    if Symbol.char? a = some '*' ∨ Symbol.char? a = some '/' then .blank :: ls else .mark '/' :: consCode a ls
  | .remark, a, ls => if Symbol.char? a = some '\n' then .mark '\n' :: ls else ls
  | .quoted _, _, ls | .escaped _, _, ls | .comment, _, ls | .asterisk, _, ls => ls

/-- The lexemes of a text. -/
def lex : Mode → List α → List (Lexeme α)
  | .slash, [] => [.mark '/']
  | _, [] => []
  | mode, a :: as => cons mode a (lex (mode.next (Symbol.char? a)) as)

theorem lex_cons (mode : Mode) (a : α) (as : List α) :
    lex mode (a :: as) = cons mode a (lex (mode.next (Symbol.char? a)) as) := by
  cases mode <;> rfl

/-- A lexeme at the start of the first line. -/
def ahead (l : Lexeme α) : List (List (Lexeme α)) → List (List (Lexeme α))
  | [] => [[l]]
  | line :: lines => (l :: line) :: lines

/-- A lexeme in front of the lines that follow it. -/
def consLine : Lexeme α → List (List (Lexeme α)) → List (List (Lexeme α))
  | .blank, lines => lines
  | .mark c, lines => if c = '\n' then [] :: lines else ahead (.mark c) lines
  | l, lines => ahead l lines

/-- The lexemes of each line that has any, without blanks. -/
def lines (ls : List (Lexeme α)) : List (List (Lexeme α)) := (ls.foldr consLine [[]]).filter fun line => !line.isEmpty

end

/-- A comment without slashes is a blank, whether or not the reader stands behind an asterisk of it. -/
theorem lex_comment {mode : Mode} (hmode : mode = .comment ∨ mode = .asterisk) {body : List Char} (hbody : '/' ∉ body)
    (rest : List Char) : lex mode (body ++ '*' :: '/' :: rest) = lex .code rest := by
  induction body generalizing mode with
  | nil => rcases hmode with rfl | rfl <;> rfl
  | cons c body ih =>
    rw [List.mem_cons, not_or] at hbody
    have hslash : c ≠ '/' := Ne.symm hbody.1
    have hnext : mode.next (some c) = .comment ∨ mode.next (some c) = .asterisk := by
      by_cases hc : c = '*' <;> rcases hmode with rfl | rfl <;> simp [Mode.next, hc, hslash]
    rcases hmode with rfl | rfl <;> exact ih hnext hbody.2

/-! ## Filling in -/

/-- A symbol with its place filled in. -/
def fillSymbol (v : String → List Char) : Piece → List Char
  | .literal c => [c]
  | .word name => v name

def fill (v : String → List Char) : Lexeme Piece → Lexeme Char
  | .word w => .word (w.flatMap (fillSymbol v))
  | .mark c => .mark c
  | .quotation => .quotation
  | .blank => .blank

/-- Whether a part of a word is filled in: not nothing, and nothing that ends a word. -/
def IsWord (cs : List Char) : Prop := cs ≠ [] ∧ ∀ c ∈ cs, isIdentifierTail c = true

theorem isIdentifierTail_of_isIdentifierHead {c : Char} (h : isIdentifierHead c = true) : isIdentifierTail c = true := by
  unfold isIdentifierHead at h
  unfold isIdentifierTail Char.isAlphanum
  rw [Bool.or_eq_true] at h ⊢
  exact h.imp (fun h => by rw [h]; rfl) id

theorem isWord_of_isIdentifier {s : String} (h : isIdentifier s = true) : IsWord s.toList := by
  unfold isIdentifier at h
  split at h
  · cases h
  · rename_i c cs htext
    rw [Bool.and_eq_true, List.all_eq_true] at h
    rw [htext]
    exact ⟨List.cons_ne_nil _ _, List.forall_mem_cons.2 ⟨isIdentifierTail_of_isIdentifierHead h.1, h.2⟩⟩

/-- A character of a word is none of the characters that the reader looks for. -/
theorem ne_of_isIdentifierTail {c d : Char} (hc : isIdentifierTail c = true) (hd : isIdentifierTail d = false) : c ≠ d := by
  rintro rfl
  exact Bool.false_ne_true (hd.symm.trans hc)

/-- Behind a character of a word the reader stands where it stands behind a place. -/
theorem Mode.next_of_isIdentifierTail (mode : Mode) {c : Char} (hc : isIdentifierTail c = true) :
    mode.next (some c) = mode.next none := by
  have hquote : ∀ double, c ≠ quote double := by
    intro double
    cases double <;> exact ne_of_isIdentifierTail hc (by decide)
  have hslash : c ≠ '/' := ne_of_isIdentifierTail hc (by decide)
  have hasterisk : c ≠ '*' := ne_of_isIdentifierTail hc (by decide)
  have hbackslash : c ≠ '\\' := ne_of_isIdentifierTail hc (by decide)
  have hnewline : c ≠ '\n' := ne_of_isIdentifierTail hc (by decide)
  cases mode <;> simp [next, ofCode, hquote, hslash, hasterisk, hbackslash, hnewline]

theorem Mode.next_next (mode : Mode) : (mode.next none).next none = mode.next none := by
  cases mode <;> simp [next, ofCode]

theorem consCode_of_isIdentifierTail {c : Char} (hc : isIdentifierTail c = true) (ls : List (Lexeme Char)) :
    consCode c ls = consWord c ls := by
  unfold consCode
  exact if_pos hc

/-- A word in front of a text: it belongs to the code, or nobody looks at it. -/
def consWords (mode : Mode) (cs : List Char) (ls : List (Lexeme Char)) : List (Lexeme Char) :=
  match mode with
  | .code => cs.foldr consWord ls
  | .slash => .mark '/' :: cs.foldr consWord ls
  | _ => ls

theorem lex_cons_word (mode : Mode) {c : Char} (hc : isIdentifierTail c = true) (cs : List Char) :
    lex mode (c :: cs) = consWords mode [c] (lex (mode.next none) cs) := by
  have hslash : c ≠ '/' := ne_of_isIdentifierTail hc (by decide)
  have hasterisk : c ≠ '*' := ne_of_isIdentifierTail hc (by decide)
  have hnewline : c ≠ '\n' := ne_of_isIdentifierTail hc (by decide)
  have hlex : lex mode (c :: cs) = cons mode c (lex (mode.next none) cs) := by
    rw [← Mode.next_of_isIdentifierTail mode hc]
    exact lex_cons mode c cs
  have hchar : Symbol.char? c = some c := rfl
  rw [hlex]
  cases mode <;> simp [cons, consWords, hchar, consCode_of_isIdentifierTail hc, hslash, hasterisk, hnewline]

theorem consWords_cons (mode : Mode) (c : Char) (cs : List Char) (ls : List (Lexeme Char)) :
    consWords mode [c] (consWords (mode.next none) cs ls) = consWords mode (c :: cs) ls := by
  cases mode <;> simp [consWords, Mode.next, Mode.ofCode]

/-- Behind the first character of a word the reader stays where it is. -/
theorem lex_append_of_next {mode : Mode} (hmode : mode.next none = mode) {cs : List Char}
    (hcs : ∀ c ∈ cs, isIdentifierTail c = true) (rest : List Char) :
    lex mode (cs ++ rest) = consWords mode cs (lex mode rest) := by
  induction cs with
  | nil => cases mode <;> first | rfl | cases hmode
  | cons c cs ih =>
    rw [List.forall_mem_cons] at hcs
    rw [List.cons_append, lex_cons_word mode hcs.1, ← consWords_cons mode c cs, hmode, ih hcs.2]

theorem lex_append_word (mode : Mode) {cs : List Char} (hcs : IsWord cs) (rest : List Char) :
    lex mode (cs ++ rest) = consWords mode cs (lex (mode.next none) rest) := by
  obtain ⟨hne, hall⟩ := hcs
  cases cs with
  | nil => exact absurd rfl hne
  | cons c cs =>
    rw [List.forall_mem_cons] at hall
    rw [List.cons_append, lex_cons_word mode hall.1, ← consWords_cons mode c cs, lex_append_of_next mode.next_next hall.2]

section

variable {v : String → List Char}

theorem foldr_consWord {cs : List Char} (hcs : cs ≠ []) (ls : List (Lexeme Char)) :
    cs.foldr consWord ls =
      match ls with
      | .word w :: ls => .word (cs ++ w) :: ls
      | ls => .word cs :: ls := by
  induction cs with
  | nil => exact absurd rfl hcs
  | cons c cs ih =>
    cases cs with
    | nil =>
      rcases ls with _ | ⟨_ | _ | _ | _, ls⟩ <;> rfl
    | cons d ds =>
      rw [List.foldr_cons, ih (List.cons_ne_nil _ _)]
      rcases ls with _ | ⟨_ | _ | _ | _, ls⟩ <;> rfl

theorem map_fill_consWord (a : Piece) (ha : fillSymbol v a ≠ []) (ls : List (Lexeme Piece)) :
    (consWord a ls).map (fill v) = (fillSymbol v a).foldr consWord (ls.map (fill v)) := by
  rw [foldr_consWord ha]
  rcases ls with _ | ⟨w | _ | _ | _, ls⟩ <;> simp [consWord, fill]

/-- A character in front of a text is read as the same character in front of what is filled in. -/
theorem map_fill_consCode (c : Char) (ls : List (Lexeme Piece)) :
    (consCode (Piece.literal c) ls).map (fill v) = consCode c (ls.map (fill v)) := by
  have hword : (consWord (Piece.literal c) ls).map (fill v) = consWord c (ls.map (fill v)) :=
    map_fill_consWord (.literal c) (List.cons_ne_nil c []) ls
  have hpiece : Symbol.char? (Piece.literal c) = some c := rfl
  have hchar : Symbol.char? c = some c := rfl
  unfold consCode
  rw [hpiece, hchar]
  dsimp only
  split
  · exact hword
  · split
    · rfl
    · split
      · rfl
      · split <;> rfl

theorem map_fill_cons_literal (mode : Mode) (c : Char) (ls : List (Lexeme Piece)) :
    (cons mode (Piece.literal c) ls).map (fill v) = cons mode c (ls.map (fill v)) := by
  have hpiece : Symbol.char? (Piece.literal c) = some c := rfl
  have hchar : Symbol.char? c = some c := rfl
  cases mode with
  | code => exact map_fill_consCode c ls
  | slash =>
    dsimp only [cons]
    rw [hpiece, hchar]
    split
    · rfl
    · exact congrArg (Lexeme.mark '/' :: ·) (map_fill_consCode c ls)
  | remark =>
    dsimp only [cons]
    rw [hpiece, hchar]
    split <;> rfl
  | _ => rfl

theorem map_fill_cons_word (mode : Mode) {name : String} (hname : v name ≠ []) (ls : List (Lexeme Piece)) :
    (cons mode (Piece.word name) ls).map (fill v) = consWords mode (v name) (ls.map (fill v)) := by
  cases mode with
  | code => exact map_fill_consWord (.word name) hname ls
  | slash => exact congrArg (Lexeme.mark '/' :: ·) (map_fill_consWord (.word name) hname ls)
  | _ => rfl

/-- The lexemes of a text that is filled in are those of the template, filled in. -/
theorem lex_fill {ps : List Piece} (hwords : ∀ name, Piece.word name ∈ ps → IsWord (v name)) (mode : Mode) :
    lex mode (ps.flatMap (fillSymbol v)) = (lex mode ps).map (fill v) := by
  induction ps generalizing mode with
  | nil => cases mode <;> rfl
  | cons a ps ih =>
    rw [lex_cons, List.flatMap_cons]
    have ih := fun mode => ih (fun name hname => hwords name (List.mem_cons_of_mem _ hname)) mode
    cases a with
    | literal c =>
      rw [map_fill_cons_literal, ← ih]
      cases mode <;> rfl
    | word name =>
      have hname := hwords name List.mem_cons_self
      rw [map_fill_cons_word mode hname.1, ← ih]
      exact lex_append_word mode hname _

theorem map_fill_ahead (l : Lexeme Piece) (ls : List (List (Lexeme Piece))) :
    (ahead l ls).map (·.map (fill v)) = ahead (l.fill v) (ls.map (·.map (fill v))) := by
  cases ls <;> rfl

theorem map_fill_consLine (l : Lexeme Piece) (ls : List (List (Lexeme Piece))) :
    (consLine l ls).map (·.map (fill v)) = consLine (l.fill v) (ls.map (·.map (fill v))) := by
  cases l with
  | mark c =>
    unfold consLine fill
    dsimp only
    split
    · rfl
    · exact map_fill_ahead _ _
  | blank => rfl
  | word w => exact map_fill_ahead _ _
  | quotation => exact map_fill_ahead _ _

theorem lines_fill (ls : List (Lexeme Piece)) :
    lines (ls.map (fill v)) = (lines ls).map (·.map (fill v)) := by
  have hfold : (ls.map (fill v)).foldr consLine [[]] = (ls.foldr consLine [[]]).map (·.map (fill v)) := by
    induction ls with
    | nil => rfl
    | cons l ls ih => rw [List.map_cons, List.foldr_cons, List.foldr_cons, map_fill_consLine, ih]
  unfold lines
  rw [hfold, List.filter_map]
  congr 1
  refine List.filter_congr fun line _ => ?_
  simp

end

end Lexeme

end ControlCodegen.C
