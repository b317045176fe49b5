import ControlCodegen.Proofs.Template.Digest

/-!
# `Template.Build`: what makefiles and build scripts compile

A build file is read into words, which blanks and the quotes of texts separate. A line that ends in a backslash or in an
ellipsis goes on in the next one.

* `Build.lines`, `Build.join`, `Build.assignments` : the words of each line, and what is assigned to variables.
* `Build.Lists` : a variable lists a word, itself or through another variable.
* `Build.lines_fill`, `Build.assignments_fill` : filling in does not change what is read.
* `Template.listed`, `Template.named` : the sources of the module that a template compiles, and those that it names.
* `Template.BuildDigest` : it does, as the kernel checks for each template.
* `BuildDigest.mem_named`, `BuildDigest.lists` : what that says of a rendered file.
-/

namespace ControlCodegen

open C C.Preprocessor Text

set_option autoImplicit false

namespace Build

/-! ## Words and assignments -/

section

variable {α : Type} [Symbol α]

/-- Whether a symbol is one of some characters. -/
def isOneOf (cs : List Char) (a : α) : Bool := (Symbol.char? a).any fun c => cs.contains c

/-- Whether no character is part of a name. -/
def areMarks (cs : List Char) : Bool := cs.all fun c => !isIdentifierTail c

/-- What stands between words: blanks, and the quotes around the texts of a script. -/
def gaps : List Char := [' ', '\t', '\'']

def words (line : List α) : List (List α) := (line.splitOnP (isOneOf gaps)).filter fun w => !w.isEmpty

/-- The words of each line. -/
def lines (text : List α) : List (List (List α)) := (text.splitOnP (isOneOf ['\n'])).map words

/-- Whether a word is this one. -/
def spells (cs : List Char) (w : List α) : Bool := chars? w == some cs

/-- Whether a line goes on in the next one. -/
def goesOn (line : List (List α)) : Bool := line.getLast?.any fun w => spells ['\\'] w || spells ['.', '.', '.'] w

/-- A line in front of others, the first of which it may go on in. -/
def putBefore (line : List (List α)) (rest : List (List (List α))) : List (List (List α)) :=
  if goesOn line then (line ++ rest.headD []) :: rest.tail else line :: rest

/-- The lines, with those that go on in the next one put together with it. -/
def join (ls : List (List (List α))) : List (List (List α)) := ls.foldr putBefore []

/-- What is assigned to a variable. -/
structure Assignment (α : Type) where
  name : List α
  words : List (List α)

def assignment? : List (List α) → Option (Assignment α)
  | name :: op :: words => if spells ['='] op || spells ['+', '='] op then some ⟨name, words⟩ else none
  | _ => none

def assignments (text : List α) : List (Assignment α) := (join (lines text)).filterMap assignment?

/-- The file that a word leads to: a leading `./` is the directory itself. -/
def fileOf : List α → List α
  | a :: b :: w => if Symbol.char? a = some '.' ∧ Symbol.char? b = some '/' then w else a :: b :: w
  | w => w

theorem areMarks.of_mem {cs : List Char} (h : areMarks cs = true) {c : Char} (hc : c ∈ cs) :
    isIdentifierTail c = false := by
  simpa using List.all_eq_true.1 h c hc

theorem fileOf_of_first {a : α} (ha : Symbol.char? a ≠ some '.') {w : List α} : fileOf (a :: w) = a :: w := by
  cases w with
  | nil => rfl
  | cons b w => exact if_neg fun h => ha h.1

theorem fileOf_of_second {a b : α} (hb : Symbol.char? b ≠ some '/') {w : List α} :
    fileOf (a :: b :: w) = a :: b :: w :=
  if_neg fun h => hb h.2

theorem flatten_join (ls : List (List (List α))) : (join ls).flatten = ls.flatten := by
  induction ls with
  | nil => rfl
  | cons line rest ih =>
    rw [List.flatten_cons, ← ih]
    change (putBefore line (join rest)).flatten = _
    unfold putBefore
    split
    · rw [List.flatten_cons, List.append_assoc]
      cases join rest <;> rfl
    · rfl

/-- What is assigned stands in the text. -/
theorem mem_lines_of_mem {text : List α} {a : Assignment α} (ha : a ∈ assignments text) {w : List α}
    (hw : w ∈ a.words) : w ∈ (lines text).flatten := by
  obtain ⟨line, hline, ha⟩ := List.mem_filterMap.1 ha
  rw [← flatten_join]
  refine List.mem_flatten.2 ⟨line, hline, ?_⟩
  unfold assignment? at ha
  split at ha
  · split at ha
    · rw [← Option.some.inj ha] at hw
      exact List.mem_cons_of_mem _ (List.mem_cons_of_mem _ hw)
    · cases ha
  · cases ha

end

/-- A word is listed in a variable: it is assigned to it, or listed in a variable that is. -/
inductive Lists (text : List Char) : List Char → List Char → Prop where
  | word {a : Assignment Char} {w : List Char} (ha : a ∈ assignments text) (hw : w ∈ a.words) : Lists text a.name w
  | reference {a : Assignment Char} {name w : List Char} (ha : a ∈ assignments text)
    (hname : ['$', '('] ++ name ++ [')'] ∈ a.words) (h : Lists text name w) : Lists text a.name w

theorem Lists.mem_lines {text name w : List Char} (h : Lists text name w) : w ∈ (lines text).flatten := by
  induction h with
  | word ha hw => exact mem_lines_of_mem ha hw
  | reference _ _ _ ih => exact ih

/-! ## Filling in -/

/-- What does not separate anything belongs to the first part. -/
theorem splitOnP_append {α : Type} {p : α → Bool} {front : List α} (hfront : ∀ a ∈ front, p a = false)
    (rest : List α) : (front ++ rest).splitOnP p = (rest.splitOnP p).modifyHead (front ++ ·) := by
  induction front with
  | nil => exact (congrFun List.modifyHead_id _).symm
  | cons a front ih =>
    rw [List.forall_mem_cons] at hfront
    rw [List.cons_append, List.splitOnP_cons_eq_if_modifyHead, hfront.1, if_neg Bool.false_ne_true, ih hfront.2,
      List.modifyHead_modifyHead]
    rfl

/-- A word without places. -/
theorem chars?_of_noPlaces {v : String → List Char} {w : List Piece} (hw : ∀ name, Piece.word name ∉ w) :
    chars? w = some (fillWord v w) := by
  induction w with
  | nil => rfl
  | cons a w ih =>
    have ih := ih fun name hname => hw name (List.mem_cons_of_mem _ hname)
    cases a with
    | literal c =>
      unfold chars? at ih ⊢
      rw [List.mapM_cons, ih]
      rfl
    | word name => exact absurd List.mem_cons_self (hw name)

section

variable {v : String → List Char} (hv : ∀ name, Lexeme.IsWord (v name))

include hv

/-- What is filled in does not separate anything. -/
theorem isOneOf_fill {cs : List Char} (hcs : areMarks cs = true) (a : Piece) :
    if isOneOf cs a then ∃ c, Lexeme.fillSymbol v a = [c] ∧ isOneOf cs c = true
    else ∀ c ∈ Lexeme.fillSymbol v a, isOneOf cs c = false := by
  cases a with
  | literal c =>
    split
    · rename_i hc
      exact ⟨c, rfl, hc⟩
    · rename_i hc
      rintro d hd
      obtain rfl := List.mem_singleton.1 hd
      exact Bool.not_eq_true _ ▸ hc
  | word name =>
    rw [if_neg (by exact Bool.false_ne_true)]
    intro c hc
    refine Bool.eq_false_iff.2 fun hmem => ?_
    have hc' := areMarks.of_mem hcs (List.contains_iff_mem.1 hmem)
    rw [(hv name).2 c hc] at hc'
    cases hc'

theorem splitOnP_fill {cs : List Char} (hcs : areMarks cs = true) (ps : List Piece) :
    (fillWord v ps).splitOnP (isOneOf cs) = (ps.splitOnP (isOneOf cs)).map (fillWord v) := by
  induction ps with
  | nil => rfl
  | cons a ps ih =>
    have ha := isOneOf_fill hv hcs a
    have hfill : fillWord v (a :: ps) = Lexeme.fillSymbol v a ++ fillWord v ps := List.flatMap_cons
    rw [List.splitOnP_cons_eq_if_modifyHead, hfill]
    split at ha
    · rename_i hsep
      obtain ⟨c, hc, hsep'⟩ := ha
      rw [if_pos hsep, hc, List.singleton_append, List.splitOnP_cons_eq_if_modifyHead, if_pos hsep', ih]
      rfl
    · rename_i hsep
      rw [if_neg hsep, splitOnP_append ha, ih]
      cases ps.splitOnP (isOneOf cs) <;> rfl

theorem isEmpty_fill (w : List Piece) : (fillWord v w).isEmpty = w.isEmpty := by
  cases w with
  | nil => rfl
  | cons a w =>
    have hfill : fillWord v (a :: w) = Lexeme.fillSymbol v a ++ fillWord v w := List.flatMap_cons
    rw [hfill]
    cases a with
    | literal c => rfl
    | word name =>
      obtain ⟨c, cs, hname⟩ := List.exists_cons_of_ne_nil (hv name).1
      change (v name ++ fillWord v w).isEmpty = _
      rw [hname]
      rfl

theorem words_fill (line : List Piece) : words (fillWord v line) = (words line).map (fillWord v) := by
  unfold words
  rw [splitOnP_fill hv (by decide), List.filter_map]
  congr 1
  refine List.filter_congr fun w _ => ?_
  exact congrArg (!·) (isEmpty_fill hv w)

theorem lines_fill (text : List Piece) : lines (fillWord v text) = (lines text).map (·.map (fillWord v)) := by
  unfold lines
  rw [splitOnP_fill hv (by decide), List.map_map, List.map_map]
  exact List.map_congr_left fun line _ => words_fill hv line

/-- A word without letters is not filled in. -/
theorem spells_fill {cs : List Char} (hcs : areMarks cs = true) (w : List Piece) :
    spells cs (fillWord v w) = spells cs w := by
  have hiff : fillWord v w = cs ↔ chars? w = some cs := by
    refine ⟨fun h => ?_, chars?_fill⟩
    subst h
    refine chars?_of_noPlaces fun name hname => ?_
    obtain ⟨c, rest, hc⟩ := List.exists_cons_of_ne_nil (hv name).1
    have hmem : c ∈ v name := hc ▸ List.mem_cons_self
    have hletter := areMarks.of_mem hcs (List.mem_flatMap.2 ⟨_, hname, hmem⟩)
    rw [(hv name).2 c hmem] at hletter
    cases hletter
  unfold spells
  rw [chars?_char, Bool.eq_iff_iff, beq_iff_eq, beq_iff_eq, Option.some.injEq]
  exact hiff

theorem goesOn_fill (line : List (List Piece)) : goesOn (line.map (fillWord v)) = goesOn line := by
  unfold goesOn
  rw [List.getLast?_map]
  cases line.getLast? with
  | none => rfl
  | some w =>
    change (spells _ (fillWord v w) || spells _ (fillWord v w)) = _
    rw [spells_fill hv (by decide), spells_fill hv (by decide)]
    rfl

theorem join_fill (ls : List (List (List Piece))) :
    join (ls.map (·.map (fillWord v))) = (join ls).map (·.map (fillWord v)) := by
  induction ls with
  | nil => rfl
  | cons line rest ih =>
    change putBefore (line.map (fillWord v)) (join (rest.map (·.map (fillWord v)))) = (putBefore line (join rest)).map _
    rw [ih]
    unfold putBefore
    rw [goesOn_fill hv]
    split
    · rw [List.map_cons, List.map_append]
      cases join rest <;> rfl
    · rfl

/-- What is assigned in a file is what is assigned in its template, filled in. -/
theorem assignments_fill (text : List Piece) :
    assignments (fillWord v text) = (assignments text).map fun a => ⟨fillWord v a.name, a.words.map (fillWord v)⟩ := by
  unfold assignments
  rw [lines_fill hv, join_fill hv, List.filterMap_map, List.map_filterMap]
  congr 1
  funext line
  change assignment? (line.map (fillWord v)) = _
  unfold assignment?
  rcases line with _ | ⟨name, _ | ⟨op, words⟩⟩
  · rfl
  · rfl
  · change (if spells _ (fillWord v op) || spells _ (fillWord v op) then some _ else none) = _
    rw [spells_fill hv (by decide), spells_fill hv (by decide)]
    dsimp only
    split <;> rfl

theorem fileOf_fill (w : List Piece) : fileOf (fillWord v w) = fillWord v (fileOf w) := by
  -- What is filled in begins with neither a dot nor a slash.
  have hfirst (name : String) : ∃ c cs, v name = c :: cs ∧ c ≠ '.' ∧ c ≠ '/' := by
    obtain ⟨c, cs, hname⟩ := List.exists_cons_of_ne_nil (hv name).1
    have hc := (hv name).2 c (hname ▸ List.mem_cons_self)
    exact ⟨c, cs, hname, ne_of_apply_ne isIdentifierTail (by rw [hc]; decide),
      ne_of_apply_ne isIdentifierTail (by rw [hc]; decide)⟩
  rcases w with _ | ⟨c | name, w⟩
  · rfl
  · rcases w with _ | ⟨d | name, w⟩
    · rfl
    · have hfill : fillWord v (.literal c :: .literal d :: w) = c :: d :: fillWord v w := rfl
      rw [hfill]
      change (if some c = some '.' ∧ some d = some '/' then _ else _) =
        fillWord v (if some c = some '.' ∧ some d = some '/' then _ else _)
      rw [apply_ite (fillWord v)]
      rfl
    · obtain ⟨d, ds, hname, -, hslash⟩ := hfirst name
      have hfill : fillWord v (.literal c :: .word name :: w) = c :: d :: (ds ++ fillWord v w) := by
        change c :: (v name ++ fillWord v w) = _
        rw [hname, List.cons_append]
      rw [fileOf_of_second (by rintro ⟨⟩), hfill]
      exact fileOf_of_second fun h => hslash (Option.some.inj h)
  · obtain ⟨c, cs, hname, hdot, -⟩ := hfirst name
    have hfill : fillWord v (.word name :: w) = c :: (cs ++ fillWord v w) := by
      change v name ++ fillWord v w = _
      rw [hname, List.cons_append]
    rw [fileOf_of_first (by rintro ⟨⟩), hfill]
    exact fileOf_of_first fun h => hdot (Option.some.inj h)

end

/-! ## Sources of a module -/

/-- The name of a C source of a module, in the directory of the build file. -/
def IsModuleSource (m f : List Char) : Prop := ∃ stem, '/' ∉ stem ∧ f = m ++ '_' :: (stem ++ ['.', 'c'])

/-- A word that is not the name of such a source, whatever the module: it is not `.c` that it ends in, it leads to
another directory, or it begins as no name does. -/
def isForeign (w : List Piece) : Bool :=
  decide (Piece.literal '.' ∉ w) || decide (Piece.literal '/' ∈ w) ||
    (w.getLast?.any fun a => (Symbol.char? a).any (· ≠ 'c')) ||
    w.head?.any fun a => (Symbol.char? a).any fun c => !isIdentifierTail c

theorem not_isModuleSource_of_isForeign {v : String → List Char} (hv : ∀ name, Lexeme.IsWord (v name)) {m : List Char}
    (hm : Lexeme.IsWord m) {w : List Piece} (h : isForeign w = true) : ¬IsModuleSource m (fillWord v w) := by
  rintro ⟨stem, hstem, hfill⟩
  unfold isForeign at h
  rw [Bool.or_eq_true, Bool.or_eq_true, Bool.or_eq_true, decide_eq_true_iff, decide_eq_true_iff, Option.any_eq_true,
    Option.any_eq_true] at h
  rcases h with ((h | h) | ⟨a, ha, h⟩) | ⟨a, ha, h⟩
  · have hdot : '.' ∈ fillWord v w := by
      rw [hfill]
      simp
    obtain ⟨a, ha, hdot⟩ := List.mem_flatMap.1 hdot
    cases a with
    | literal c =>
      obtain rfl := List.mem_singleton.1 hdot
      exact h ha
    | word name => exact absurd ((hv name).2 _ hdot) (by decide)
  · have hslash : '/' ∈ fillWord v w := List.mem_flatMap.2 ⟨_, h, List.mem_cons_self⟩
    rw [hfill, List.mem_append, List.mem_cons, List.mem_append] at hslash
    rcases hslash with hslash | hslash | hslash | hslash
    · exact absurd (hm.2 _ hslash) (by decide)
    · exact absurd hslash (by decide)
    · exact hstem hslash
    · exact absurd hslash (by decide)
  · obtain ⟨front, rfl⟩ := List.getLast?_eq_some_iff.1 ha
    cases a with
    | literal c =>
      have hlast : fillWord v front ++ [c] = (m ++ '_' :: (stem ++ ['.'])) ++ ['c'] := by
        rw [List.append_assoc, List.cons_append, List.append_assoc]
        exact List.flatMap_append.symm.trans hfill
      obtain rfl := List.singleton_inj.1 (List.append_inj' hlast rfl).2
      exact absurd h (by decide)
    | word name => cases h
  · obtain ⟨rest, rfl⟩ := List.head?_eq_some_iff.1 ha
    cases a with
    | literal c =>
      obtain ⟨d, ds, hname⟩ := List.exists_cons_of_ne_nil hm.1
      rw [hname] at hfill
      obtain ⟨rfl, -⟩ := List.cons.inj hfill
      have hd := hm.2 c (hname ▸ List.mem_cons_self)
      simp [Symbol.char?, hd] at h
    | word name => cases h

end Build

namespace Template

open Build

/-- The makefiles. -/
def makefiles : List Template :=
  [.makefileQpOases, .makefileExactQpOases, .makefileQpDunes, .makefileExactQpDunes, .makefileForces, .makefileHpmpc]

/-- The build scripts of the MATLAB interface. -/
def mexScripts : List Template :=
  [.mexQpOases, .mexExactQpOases, .mexForces, .mexQpDunes, .mexExactQpDunes, .mexBlockQpDunes]

/-- The comment token of a build file. -/
def commentToken (t : Template) : String := if t ∈ makefiles then "#" else "%"

/-- What a build file is made of, the notice on top of it included. -/
def headed (t : Template) : List Piece := (notice t.commentToken).toList.map .literal ++ t.outline

/-- The sources that every export writes: what follows the module in their names. -/
def coreSources : List String := ["_integrator.c", "_solver.c", "_auxiliary_functions.c"]

/-- The sources that a build file compiles. -/
def listed (t : Template) : List String :=
  coreSources ++
  match t with
  | .makefileExactQpOases | .makefileExactQpDunes | .mexExactQpOases | .mexExactQpDunes => ["_hessian_regularization.c"]
  | .sFunctionScript => ["_solver_sfunction.c"]
  | _ => []

/-- The sources of the backends' interfaces. -/
def interfaces : List String := Choice.all.map fun q : QpSolver => "_" ++ (Choice.name q ++ "_interface.c")

/-- The sources of the module that a build file names at most. -/
def named (t : Template) : List String :=
  t.listed ++ (if t ∈ mexScripts then ["_solver_mex.c"] else []) ++ interfaces

/-- What a build file names and what it compiles. -/
structure BuildDigest (t : Template) : Prop where
  named : ∀ w ∈ (Build.lines t.headed).flatten,
    isForeign (fileOf w) = true ∨ ∃ s ∈ t.named, name? (fileOf w) = some (.ofModule s.toList)
  listed : ∀ s ∈ t.listed, ∃ a ∈ assignments t.headed, spells "OCP_SOURCES".toList a.name = true ∧
    ∃ w ∈ a.words, name? (fileOf w) = some (.ofModule s.toList)

/-- The lines of a notice behind a comment token. -/
def noticeOf (token : Char) : List Char :=
  (noticeLines.map String.toList).flatMap (fun l => token :: ' ' :: (l ++ ['\n'])) ++ ['\n']

theorem toList_notice {token : String} {c : Char} (h : token = String.ofList [c]) :
    (notice token).toList = noticeOf c := by
  have htoken : token.isEmpty = false := by
    subst h
    simp
  unfold notice noticeOf
  rw [htoken, if_neg Bool.false_ne_true, String.toList_append, toList_join, List.flatMap_map, List.flatMap_map]
  congr 1
  refine List.flatMap_congr fun l _ => ?_
  change (token ++ " " ++ l ++ "\n").toList = _
  rw [h, String.toList_append, String.toList_append, String.toList_append, String.toList_ofList, List.append_assoc,
    List.append_assoc]
  rfl

theorem buildDigest_of_spells {t : Template} {c : Char} (htoken : t.commentToken = String.ofList [c])
    {ns ls : List (List Char)} (hns : Spells noticeLines ns) (hls : Spells t.lines ls)
    (h : let text := (ns.flatMap (fun l => c :: ' ' :: (l ++ ['\n'])) ++ ['\n']).map Piece.literal ++ outlineOf ls
      (∀ w ∈ (Build.lines text).flatten,
        isForeign (fileOf w) = true ∨ ∃ s ∈ t.named, name? (fileOf w) = some (.ofModule s.toList)) ∧
      ∀ s ∈ t.listed, ∃ a ∈ assignments text, spells "OCP_SOURCES".toList a.name = true ∧
        ∃ w ∈ a.words, name? (fileOf w) = some (.ofModule s.toList)) : t.BuildDigest := by
  have houtline : t.headed =
      (ns.flatMap (fun l => c :: ' ' :: (l ++ ['\n'])) ++ ['\n']).map Piece.literal ++ outlineOf ls := by
    unfold headed outline
    rw [toList_notice htoken, noticeOf, hns.map_toList, hls.map_toList]
  rw [← houtline] at h
  exact ⟨h.1, h.2⟩

set_option maxRecDepth 100000

theorem buildDigest_makefile {t : Template} (ht : t ∈ makefiles) : t.BuildDigest := by
  simp only [makefiles, List.mem_cons, List.not_mem_nil, or_false] at ht
  rcases ht with rfl | rfl | rfl | rfl | rfl | rfl
  all_goals
    apply buildDigest_of_spells rfl
    · simp only [noticeLines, programName, version, toString, String.reduceAppend]
      repeat' (first | exact Spells.nil | apply Spells.cons rfl)
    · simp only [lines, makefile, makefileRules, qpOasesBuild, qpDunesBuild, forcesBuild, hpmpcBuild, sourceList,
        solverSources, List.map, List.dropLast, List.getLast?, List.getLast, Option.map, Option.toList,
        List.cons_append, List.nil_append, String.reduceAppend, if_true, if_false, Bool.false_eq_true]
      repeat' (first | exact Spells.nil | apply Spells.cons rfl)
    · decide +kernel

theorem buildDigest_mexScript {t : Template} (ht : t ∈ mexScripts) : t.BuildDigest := by
  simp only [mexScripts, List.mem_cons, List.not_mem_nil, or_false] at ht
  rcases ht with rfl | rfl | rfl | rfl | rfl | rfl
  all_goals
    apply buildDigest_of_spells rfl
    · simp only [noticeLines, programName, version, toString, String.reduceAppend]
      repeat' (first | exact Spells.nil | apply Spells.cons rfl)
    · simp only [lines, mexScript, mexScriptHead, mexScriptTail, qpOasesScript, qpDunesScript, forcesScript,
        blockQpDunesScript, cellList, List.map, List.cons_append, List.nil_append, String.reduceAppend, if_true,
        if_false, Bool.false_eq_true]
      repeat' (first | exact Spells.nil | apply Spells.cons rfl)
    · decide +kernel

theorem buildDigest_sFunctionScript : sFunctionScript.BuildDigest := by
  apply buildDigest_of_spells rfl
  · simp only [noticeLines, programName, version, toString, String.reduceAppend]
    repeat' (first | exact Spells.nil | apply Spells.cons rfl)
  · simp only [lines, sFunctionScriptLines]
    repeat' (first | exact Spells.nil | apply Spells.cons rfl)
  · decide +kernel

/-! ## Rendered build files -/

variable {t : Template} {subs : Substitutions} {text : String}

/-- The text of a build file is its template, filled in with words. -/
theorem exists_fill (h : t.render t.commentToken true subs = .ok text) (hsubs : AllWords subs) {m : List Char}
    (hword : Lexeme.IsWord m) (hm : chars subs "MODULE_NAME" = m) :
    ∃ v, (∀ name, Lexeme.IsWord (v name)) ∧ v "MODULE_NAME" = m ∧ text.toList = fillWord v t.headed := by
  unfold render at h
  dsimp only at h
  split at h
  · rename_i hmissing
    have hmissing := List.isEmpty_iff.1 hmissing
    obtain rfl := Except.ok.inj h
    -- A place that does not occur may have any value.
    let v (name : String) : List Char := if chars subs name = [] then ['_'] else chars subs name
    have hchars {name : String} {value : String} (hvalue : subs.value? name = some value) :
        chars subs name = value.toList := by
      unfold chars
      rw [hvalue]
      rfl
    have hv (name : String) : Lexeme.IsWord (v name) := by
      dsimp only [v]
      split
      · exact ⟨List.cons_ne_nil _ _, List.forall_mem_singleton.2 (by decide)⟩
      · rename_i hne
        cases hvalue : subs.value? name with
        | none => exact absurd (by unfold chars; rw [hvalue]; rfl) hne
        | some value =>
          rw [hchars hvalue]
          exact hsubs name value hvalue
    refine ⟨v, hv, ?_, ?_⟩
    · dsimp only [v]
      rw [hm, if_neg hword.1]
    · rw [if_pos rfl, String.toList_append, toList_unlines hmissing]
      unfold headed fillWord
      rw [List.flatMap_append]
      refine congrArg₂ (· ++ ·) ?_ ?_
      · rw [List.flatMap_map]
        exact (List.flatMap_singleton' _).symm
      · refine List.flatMap_congr fun a ha => ?_
        cases a with
        | literal c => rfl
        | word name =>
          obtain ⟨value, hvalue⟩ := Option.isSome_iff_exists.1 (isSome_value? hmissing ha)
          change chars subs name = v name
          exact (if_neg (hchars hvalue ▸ (hsubs name value hvalue).1)).symm
  · cases h

namespace BuildDigest

variable {v : String → List Char} (hv : ∀ name, Lexeme.IsWord (v name)) {m : List Char} (hm : v "MODULE_NAME" = m)

include hv hm

/-- A build file names no other sources of the module. -/
theorem mem_named (h : t.BuildDigest) {w : List Char} (hw : w ∈ (Build.lines (fillWord v t.headed)).flatten)
    (hsource : IsModuleSource m (fileOf w)) : ∃ s ∈ t.named, fileOf w = m ++ s.toList := by
  rw [lines_fill hv] at hw
  obtain ⟨_, hfilled, hw⟩ := List.mem_flatten.1 hw
  obtain ⟨line, hline, rfl⟩ := List.mem_map.1 hfilled
  obtain ⟨w, hmem, rfl⟩ := List.mem_map.1 hw
  rw [fileOf_fill hv] at hsource ⊢
  rcases h.named w (List.mem_flatten.2 ⟨line, hline, hmem⟩) with hforeign | ⟨s, hs, hname⟩
  · exact absurd hsource (not_isModuleSource_of_isForeign hv (hm ▸ hv _) hforeign)
  · exact ⟨s, hs, (spell_of_name? hname).trans (congrArg (· ++ s.toList) hm)⟩

/-- A build file compiles its sources. -/
theorem lists (h : t.BuildDigest) {s : String} (hs : s ∈ t.listed) :
    ∃ w, Lists (fillWord v t.headed) "OCP_SOURCES".toList w ∧ fileOf w = m ++ s.toList := by
  obtain ⟨a, ha, hvariable, w, hw, hname⟩ := h.listed s hs
  refine ⟨fillWord v w, ?_, ?_⟩
  · have hassigned := List.mem_map_of_mem (f := fun a : Assignment Piece =>
      (⟨fillWord v a.name, a.words.map (fillWord v)⟩ : Assignment Char)) ha
    rw [← assignments_fill hv] at hassigned
    have hlists := Lists.word hassigned (List.mem_map_of_mem hw)
    have hname : fillWord v a.name = "OCP_SOURCES".toList := chars?_fill (beq_iff_eq.1 hvariable)
    rw [← hname]
    exact hlists
  · rw [fileOf_fill hv]
    exact (spell_of_name? hname).trans (congrArg (· ++ s.toList) hm)

end BuildDigest

end Template

end ControlCodegen
