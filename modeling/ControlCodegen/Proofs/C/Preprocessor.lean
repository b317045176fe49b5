import ControlCodegen.Proofs.C.Lexeme

/-!
# `C.Preprocessor`: the conditions that the lines of a C text stand under

* `Expr` : integer expressions, of directives and of array sizes; `Expr.value` is their value for given macros.
* `Condition`, `Guard`, `Guarded` : what a line depends on. A line stands in the text that is compiled if all its guards
  hold.
* `active` : what stands in the text that is compiled.
* `Source`, `Source.read` : the lines of a text under their guards. A text that is not understood is not read: one with
  continued lines, with directives that do not match, or with a condition that is no `Expr`.
* `Source.read_fill` : filling in does not change what is read.

Macros stand for natural numbers here; a name that is no macro has the value 0, as in C.
-/

namespace ControlCodegen.C

open Text

set_option autoImplicit false

namespace Preprocessor

/-! ## Expressions -/

inductive Operator where
  | or
  | eq
  | ne
  | add
  | mul
  deriving DecidableEq, Repr

/-- Operators of a higher rank bind tighter. -/
def Operator.rank : Operator → Nat
  | or => 1
  | eq | ne => 2
  | add => 3
  | mul => 4

def Operator.apply : Operator → Nat → Nat → Nat
  | or, a, b => (decide (a ≠ 0) || decide (b ≠ 0)).toNat
  | eq, a, b => (decide (a = b)).toNat
  | ne, a, b => (decide (a ≠ b)).toNat
  | add, a, b => a + b
  | mul, a, b => a * b

/-- An integer expression. -/
inductive Expr where
  | number (n : Nat)
  | name (n : List Char)
  | defined (n : List Char)
  | operation (o : Operator) (a b : Expr)
  deriving DecidableEq, Repr

/-- The macros that have a value. -/
abbrev Macros := String → Option Nat

def Expr.value (macros : Macros) : Expr → Nat
  | number n => n
  | name n => (macros (String.ofList n)).getD 0
  | defined n => (macros (String.ofList n)).isSome.toNat
  | operation o a b => o.apply (a.value macros) (b.value macros)

/-- The value of a decimal numeral. -/
def numeral? (cs : List Char) : Option Nat :=
  if cs.all Char.isDigit then some (Nat.ofDigitChars 10 cs 0) else none

/-- Numerals are read as they are written. -/
theorem numeral?_toString (n : Nat) : numeral? (toString n).toList = some n := by
  have hdigits : (Nat.toDigits 10 n).all Char.isDigit = true :=
    List.all_eq_true.2 fun c hc => Nat.isDigit_of_mem_toDigits (by decide) (by decide) hc
  unfold numeral?
  rw [Nat.toString_eq_ofList_toDigits, String.toList_ofList, if_pos hdigits, Nat.ofDigitChars_ten_toDigits]

inductive Token where
  | operand (e : Expr)
  | operator (o : Operator)
  | opening
  | closing
  deriving DecidableEq, Repr

def definedWord : List Char := ['d', 'e', 'f', 'i', 'n', 'e', 'd']

def operand (w : List Char) : Token :=
  match numeral? w with
  | some n => .operand (.number n)
  | none => .operand (.name w)

def tokens : List (Lexeme Char) → Option (List Token)
  | [] => some []
  | .word w :: ls =>
    if w = definedWord then
      match ls with
      | .word n :: ls => (tokens ls).map (.operand (.defined n) :: ·)
      | .mark '(' :: .word n :: .mark ')' :: ls => (tokens ls).map (.operand (.defined n) :: ·)
      | _ => none
    else (tokens ls).map (operand w :: ·)
  | .mark '|' :: .mark '|' :: ls => (tokens ls).map (.operator .or :: ·)
  | .mark '=' :: .mark '=' :: ls => (tokens ls).map (.operator .eq :: ·)
  | .mark '!' :: .mark '=' :: ls => (tokens ls).map (.operator .ne :: ·)
  | .mark '+' :: ls => (tokens ls).map (.operator .add :: ·)
  | .mark '*' :: ls => (tokens ls).map (.operator .mul :: ·)
  | .mark '(' :: ls => (tokens ls).map (.opening :: ·)
  | .mark ')' :: ls => (tokens ls).map (.closing :: ·)
  | _ => none

/-- Applies the operators on top of the stack that bind at least as tight; `none` is an open parenthesis. -/
def reduce (rank : Nat) : List (Option Operator) → List Expr → List (Option Operator) × List Expr
  | some o :: os, b :: a :: es =>
    if rank ≤ o.rank then reduce rank os (.operation o a b :: es) else (some o :: os, b :: a :: es)
  | os, es => (os, es)

/-- Reads an expression with a stack of operators and one of operands. The flag tells whether an operand comes next. -/
def parse : Bool → List (Option Operator) → List Expr → List Token → Option Expr
  | true, os, es, .operand e :: ts => parse false os (e :: es) ts
  | true, os, es, .opening :: ts => parse true (none :: os) es ts
  | false, os, es, .operator o :: ts =>
    let (os, es) := reduce o.rank os es
    parse true (some o :: os) es ts
  | false, os, es, .closing :: ts =>
    match reduce 0 os es with
    | (none :: os, es) => parse false os es ts
    | _ => none
  | false, os, es, [] =>
    match reduce 0 os es with
    | ([], [e]) => some e
    | _ => none
  | _, _, _, _ => none

example : (tokens [.mark '(', .word ['N'], .mark '+', .word ['1'], .mark ')', .mark '*', .word ['M']]).bind (parse true [] []) =
    some (.operation .mul (.operation .add (.name ['N']) (.number 1)) (.name ['M'])) := by decide

section

variable {α : Type}

section

variable [Symbol α]

/-- The characters of a word without places. -/
def chars? (w : List α) : Option (List Char) := w.mapM Symbol.char?

/-- A lexeme without places. -/
def literal? : Lexeme α → Option (Lexeme Char)
  | .word w => (chars? w).map .word
  | .mark c => some (.mark c)
  | .quotation => some .quotation
  | .blank => some .blank

/-- The expression that some lexemes denote. -/
def expr? (ls : List (Lexeme α)) : Option Expr := do
  let ls ← ls.mapM literal?
  let ts ← tokens ls
  parse true [] [] ts

end

/-! ## Guards -/

inductive Condition (α : Type) where
  | defined (name : List α)
  | nonzero (e : Expr)
  deriving DecidableEq, Repr

/-- A condition that has to hold, or has to fail. -/
structure Guard (α : Type) where
  condition : Condition α
  holds : Bool
  deriving DecidableEq, Repr

def Guard.flip (g : Guard α) : Guard α := { g with holds := !g.holds }

/-- Something under guards. -/
structure Guarded (α β : Type) where
  guards : List (Guard α)
  item : β
  deriving DecidableEq, Repr

/-- A line that is no condition. -/
inductive Line (α : Type) where
  | code (ls : List (Lexeme α))
  | directive (name : List Char) (ls : List (Lexeme α))
  deriving DecidableEq, Repr

/-- What the preprocessor takes a line for. -/
inductive Reading (α : Type) where
  | start (g : Guard α)
  /-- A further branch, with or without a condition. -/
  | branch (c : Option (Condition α))
  | stop
  | line (l : Line α)
  deriving DecidableEq, Repr

/-- What stands in a line. -/
def Line.lexemes : Line α → List (Lexeme α)
  | code ls | directive _ ls => ls

/-- What stands in a line of code. -/
def Line.statements : Line α → List (Lexeme α)
  | code ls => ls
  | directive _ _ => []

variable [Symbol α]

def condition? (ls : List (Lexeme α)) : Option (Condition α) := (expr? ls).map .nonzero

def definition? : List (Lexeme α) → Option (Condition α)
  | [.word n] => some (.defined n)
  | _ => none

/-- What a directive does with conditions. -/
inductive Keyword where
  | test
  | testDefined
  | testUndefined
  | testElse
  | otherwise
  | done
  deriving DecidableEq, Repr

def keyword? (name : List Char) : Option Keyword :=
  if name = ['i', 'f'] then some .test
  else if name = ['i', 'f', 'd', 'e', 'f'] then some .testDefined
  else if name = ['i', 'f', 'n', 'd', 'e', 'f'] then some .testUndefined
  else if name = ['e', 'l', 'i', 'f'] then some .testElse
  else if name = ['e', 'l', 's', 'e'] then some .otherwise
  else if name = ['e', 'n', 'd', 'i', 'f'] then some .done
  else none

def directive? (name : List Char) (ls : List (Lexeme α)) : Option (Reading α) :=
  match keyword? name with
  | some .test => (condition? ls).map fun c => .start ⟨c, true⟩
  | some .testDefined => (definition? ls).map fun c => .start ⟨c, true⟩
  | some .testUndefined => (definition? ls).map fun c => .start ⟨c, false⟩
  | some .testElse => (condition? ls).map fun c => .branch (some c)
  | some .otherwise => some (.branch none)
  | some .done => some .stop
  | none => some (.line (.directive name ls))

/-- A line that goes on in the next one is not read. -/
def continues (ls : List (Lexeme α)) : Bool :=
  ls.any fun
    | .mark c => c = '\\'
    | _ => false

/-- What stands behind the sign of a directive. -/
def behindSign? : List (Lexeme α) → Option (List (Lexeme α))
  | .mark c :: ls => if c = '#' then some ls else none
  | _ => none

def reading? (ls : List (Lexeme α)) : Option (Reading α) :=
  if continues ls then none
  else
    match behindSign? ls with
    | none => some (.line (.code ls))
    | some (.word w :: ls) => (chars? w).bind (directive? · ls)
    | some _ => none

/-- The conditions that are open, the innermost first. In each frame the guard of the present branch stands before those
of the branches that are passed. -/
abbrev Frames (α : Type) := List (List (Guard α))

/-- The open conditions behind a directive. -/
def enter : Reading α → Frames α → Option (Frames α)
  | .start g, frames => some ([g] :: frames)
  | .branch c, (g :: passed) :: frames => some (((c.map fun c => ⟨c, true⟩).toList ++ g.flip :: passed) :: frames)
  | .stop, _ :: frames => some frames
  | _, _ => none

/-- The lines under their guards. -/
def guardLines : Frames α → List (List (Lexeme α)) → Option (List (Guarded α (Line α)))
  | frames, [] => if frames.isEmpty then some [] else none
  | frames, l :: ls =>
    match reading? l with
    | none => none
    | some (.line l) => (guardLines frames ls).map (⟨frames.flatten, l⟩ :: ·)
    | some r => (enter r frames).bind fun frames => guardLines frames ls

end

/-! ## What is compiled -/

section

variable {β : Type} (macros : Macros)

def Condition.holds : Condition Char → Bool
  | .defined name => (macros (String.ofList name)).isSome
  | .nonzero e => decide (e.value macros ≠ 0)

/-- Whether the condition of a guard comes out as it has to. -/
def Guard.isMet (g : Guard Char) : Bool := g.condition.holds macros == g.holds

def Guarded.isActive (x : Guarded Char β) : Bool := x.guards.all (Guard.isMet macros)

/-- What is left of a list under the macros. -/
def active (xs : List (Guarded Char β)) : List β := (xs.filter (Guarded.isActive macros)).map Guarded.item

end

/-! ## Filling in -/

section

variable {v : String → List Char}

def Condition.fill (v : String → List Char) : Condition Piece → Condition Char
  | .defined name => .defined (name.flatMap (Lexeme.fillSymbol v))
  | .nonzero e => .nonzero e

def Guard.fill (v : String → List Char) (g : Guard Piece) : Guard Char := ⟨g.condition.fill v, g.holds⟩

def Guarded.fill {β γ : Type} (v : String → List Char) (f : β → γ) (x : Guarded Piece β) : Guarded Char γ :=
  ⟨x.guards.map (Guard.fill v), f x.item⟩

def Line.fill (v : String → List Char) : Line Piece → Line Char
  | .code ls => .code (ls.map (Lexeme.fill v))
  | .directive name ls => .directive name (ls.map (Lexeme.fill v))

def Reading.fill (v : String → List Char) : Reading Piece → Reading Char
  | .start g => .start (g.fill v)
  | .branch c => .branch (c.map (Condition.fill v))
  | .stop => .stop
  | .line l => .line (l.fill v)

theorem chars?_char (w : List Char) : chars? w = some w := by
  induction w with
  | nil => rfl
  | cons c w ih =>
    unfold chars? at ih ⊢
    rw [List.mapM_cons, ih]
    rfl

theorem chars?_fill {w : List Piece} {cs : List Char} (h : chars? w = some cs) :
    w.flatMap (Lexeme.fillSymbol v) = cs := by
  induction w generalizing cs with
  | nil => exact Option.some.inj h
  | cons a w ih =>
    unfold chars? at ih h
    rw [List.mapM_cons] at h
    obtain ⟨c, hc, h⟩ := Option.bind_eq_some_iff.1 h
    obtain ⟨cs', hcs', h⟩ := Option.bind_eq_some_iff.1 h
    obtain rfl := Option.some.inj h
    rw [List.flatMap_cons, ih hcs']
    cases a with
    | literal d =>
      obtain rfl := Option.some.inj hc
      rfl
    | word name => cases hc

theorem literal?_char (l : Lexeme Char) : literal? l = some l := by
  cases l with
  | word w => exact congrArg (Option.map Lexeme.word) (chars?_char w)
  | _ => rfl

theorem literal?_fill {l : Lexeme Piece} {l' : Lexeme Char} (h : literal? l = some l') : l.fill v = l' := by
  cases l with
  | word w =>
    obtain ⟨cs, hcs, rfl⟩ := Option.map_eq_some_iff.1 h
    exact congrArg Lexeme.word (chars?_fill hcs)
  | _ => exact Option.some.inj h

theorem mapM_literal?_char (ls : List (Lexeme Char)) : ls.mapM literal? = some ls := by
  induction ls with
  | nil => rfl
  | cons l ls ih =>
    rw [List.mapM_cons, literal?_char, ih]
    rfl

theorem mapM_literal?_fill {ls : List (Lexeme Piece)} {ls' : List (Lexeme Char)} (h : ls.mapM literal? = some ls') :
    ls.map (Lexeme.fill v) = ls' := by
  induction ls generalizing ls' with
  | nil => exact Option.some.inj h
  | cons l ls ih =>
    rw [List.mapM_cons] at h
    obtain ⟨l', hl, h⟩ := Option.bind_eq_some_iff.1 h
    obtain ⟨rest, hrest, h⟩ := Option.bind_eq_some_iff.1 h
    obtain rfl := Option.some.inj h
    rw [List.map_cons, ih hrest, literal?_fill hl]

theorem expr?_fill {ls : List (Lexeme Piece)} {e : Expr} (h : expr? ls = some e) :
    expr? (ls.map (Lexeme.fill v)) = some e := by
  obtain ⟨ls', hls, h⟩ := Option.bind_eq_some_iff.1 h
  unfold expr?
  rw [mapM_literal?_fill hls, mapM_literal?_char]
  exact h

theorem condition?_fill {ls : List (Lexeme Piece)} {c : Condition Piece} (h : condition? ls = some c) :
    condition? (ls.map (Lexeme.fill v)) = some (c.fill v) := by
  obtain ⟨e, he, rfl⟩ := Option.map_eq_some_iff.1 h
  exact congrArg (Option.map Condition.nonzero) (expr?_fill he)

theorem definition?_fill {ls : List (Lexeme Piece)} {c : Condition Piece} (h : definition? ls = some c) :
    definition? (ls.map (Lexeme.fill v)) = some (c.fill v) := by
  unfold definition? at h
  split at h
  · obtain rfl := Option.some.inj h
    rfl
  · cases h

theorem directive?_fill {name : List Char} {ls : List (Lexeme Piece)} {r : Reading Piece}
    (h : directive? name ls = some r) : directive? name (ls.map (Lexeme.fill v)) = some (r.fill v) := by
  unfold directive? at h ⊢
  cases hname : keyword? name with
  | none =>
    rw [hname] at h
    obtain rfl := Option.some.inj h
    rfl
  | some k =>
    rw [hname] at h
    cases k with
    | test | testElse =>
      obtain ⟨c, hc, rfl⟩ := Option.map_eq_some_iff.1 h
      dsimp only
      rw [condition?_fill hc]
      rfl
    | testDefined | testUndefined =>
      obtain ⟨c, hc, rfl⟩ := Option.map_eq_some_iff.1 h
      dsimp only
      rw [definition?_fill hc]
      rfl
    | otherwise | done =>
      obtain rfl := Option.some.inj h
      rfl

theorem continues_fill (ls : List (Lexeme Piece)) : continues (ls.map (Lexeme.fill v)) = continues ls := by
  unfold continues
  rw [List.any_map]
  congr 1
  funext l
  cases l <;> rfl

theorem behindSign?_fill (ls : List (Lexeme Piece)) :
    behindSign? (ls.map (Lexeme.fill v)) = (behindSign? ls).map (·.map (Lexeme.fill v)) := by
  rcases ls with _ | ⟨_ | c | _ | _, ls⟩
  case cons.mark =>
    simp only [List.map_cons, Lexeme.fill, behindSign?]
    split <;> rfl
  all_goals rfl

theorem reading?_fill {ls : List (Lexeme Piece)} {r : Reading Piece} (h : reading? ls = some r) :
    reading? (ls.map (Lexeme.fill v)) = some (r.fill v) := by
  unfold reading? at h ⊢
  rw [continues_fill, behindSign?_fill]
  split at h
  · cases h
  · rw [if_neg ‹_›]
    split at h
    · rename_i hsign
      obtain rfl := Option.some.inj h
      rw [hsign]
      rfl
    · rename_i w rest hsign
      obtain ⟨cs, hcs, h⟩ := Option.bind_eq_some_iff.1 h
      rw [hsign]
      change (chars? (w.flatMap (Lexeme.fillSymbol v))).bind _ = _
      rw [chars?_fill hcs, chars?_char]
      exact directive?_fill h
    · cases h

/-- The open conditions, filled in. -/
def fillFrames (v : String → List Char) (frames : Frames Piece) : Frames Char := frames.map (·.map (Guard.fill v))

theorem enter_fill {r : Reading Piece} {frames frames' : Frames Piece} (h : enter r frames = some frames') :
    enter (r.fill v) (fillFrames v frames) = some (fillFrames v frames') := by
  unfold enter at h
  split at h
  · obtain rfl := Option.some.inj h
    rfl
  · rename_i c g passed frames
    obtain rfl := Option.some.inj h
    cases c <;> rfl
  · obtain rfl := Option.some.inj h
    rfl
  · cases h

theorem guardLines_fill {frames : Frames Piece} {ls : List (List (Lexeme Piece))}
    {source : List (Guarded Piece (Line Piece))} (h : guardLines frames ls = some source) :
    guardLines (fillFrames v frames) (ls.map (·.map (Lexeme.fill v))) =
      some (source.map (Guarded.fill v (Line.fill v))) := by
  induction ls generalizing frames source with
  | nil =>
    cases frames with
    | nil =>
      obtain rfl := Option.some.inj h
      rfl
    | cons frame frames => cases h
  | cons l ls ih =>
    unfold guardLines at h
    rw [List.map_cons, guardLines]
    cases hl : reading? l with
    | none =>
      rw [hl] at h
      cases h
    | some r =>
      rw [hl] at h
      rw [reading?_fill hl]
      cases r with
      | line l =>
        obtain ⟨rest, hrest, rfl⟩ := Option.map_eq_some_iff.1 h
        change (guardLines (fillFrames v frames) _).map _ = _
        rw [ih hrest, fillFrames, ← List.map_flatten]
        rfl
      | start | branch | stop =>
        obtain ⟨frames', hframes, h⟩ := Option.bind_eq_some_iff.1 h
        change (enter (Reading.fill v _) (fillFrames v frames)).bind _ = _
        rw [enter_fill hframes]
        exact ih h

end

end Preprocessor

open Preprocessor

/-- A text behind the preprocessor. -/
abbrev Source (α : Type) := List (Guarded α (Line α))

def Source.read {α : Type} [Symbol α] (text : List α) : Option (Source α) :=
  guardLines [] (Lexeme.lines (Lexeme.lex .code text))

/-- What is read of a text that is filled in is what is read of the template, filled in. -/
theorem Source.read_fill {v : String → List Char} {ps : List Piece} {source : Source Piece}
    (hwords : ∀ name, Piece.word name ∈ ps → Lexeme.IsWord (v name)) (h : read ps = some source) :
    read (ps.flatMap (Lexeme.fillSymbol v)) = some (source.map (Guarded.fill v (Line.fill v))) := by
  unfold read
  rw [Lexeme.lex_fill hwords, Lexeme.lines_fill]
  exact guardLines_fill h

end ControlCodegen.C
