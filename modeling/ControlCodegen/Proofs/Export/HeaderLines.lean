import ControlCodegen.Proofs.C.TypeNames
import ControlCodegen.Proofs.Export.Identifiers

/-!
# `Export.HeaderLines`: the lines of the common header

* `isQuiet_members`, `isQuiet_prototypes`, `isQuiet_macros` : no description ends its comment.
* `isIdentifier_params` : parameters have identifiers for names.
* `Known`, `OnlyKnown` : the types that a line of the header may introduce.
* `lined_start`, `lined_structText`, `lined_prototypes`, `lined_headerText` : the parts of the header consist of such
  lines.
-/

namespace ControlCodegen.Export

open C Lexeme Text

set_option autoImplicit false

/-! ## Descriptions and parameters -/

/-- A description that does not end its comment. -/
def IsQuiet (description : Option String) : Prop := ∀ text, description = some text → '*' ∉ text.toList

theorem isQuiet_none : IsQuiet none := nofun

theorem isQuiet_some {text : String} {cs : List Char} (h : text = String.ofList cs) (hcs : '*' ∉ cs) :
    IsQuiet (some text) := by
  rintro _ ⟨⟩
  rwa [h, String.toList_ofList]

theorem forall_mem_ite {α : Type} {c : Prop} [Decidable c] {l l' : List α} {P : α → Prop} :
    (∀ a ∈ if c then l else l', P a) ↔ (c → ∀ a ∈ l, P a) ∧ (¬c → ∀ a ∈ l', P a) := by
  by_cases hc : c <;> simp [hc]

theorem isQuiet_members (plan : Plan) (owner : Struct) : ∀ d ∈ members plan owner, IsQuiet d.description := by
  unfold members
  rw [List.forall_mem_append]
  constructor
  · unfold Integrator.members
    cases plan.integrator.binding with
    | none => cases owner <;> exact List.forall_mem_nil _
    | some b =>
      cases owner with
      | vars => exact List.forall_mem_nil _
      | workspace =>
        dsimp only
        cases plan.integrator.newtonSystem b <;>
          simp only [List.forall_mem_append, List.forall_mem_cons, List.not_mem_nil, false_implies, implies_true,
            isQuiet_none, and_true]
        all_goals exact isQuiet_some rfl (by decide)
  · cases owner with
    | vars =>
      change ∀ d ∈ plan.solver.variableMembers, _
      unfold Solver.variableMembers
      simp only [List.forall_mem_append, List.forall_mem_cons, forall_mem_ite, List.not_mem_nil, false_implies,
        implies_true, isQuiet_none, and_true]
      refine ⟨⟨⟨?_, ?_, ?_, ?_, ?_⟩, fun _ => ?_⟩, fun _ => ?_⟩
      all_goals exact isQuiet_some rfl (by decide)
    | workspace =>
      change ∀ d ∈ plan.solver.workspaceMembers, _
      unfold Solver.workspaceMembers
      cases plan.solver.blocks? <;> cases plan.solver.bounds? <;>
        simp only [List.forall_mem_append, List.forall_mem_cons, forall_mem_ite, List.not_mem_nil, false_implies,
          implies_true, isQuiet_none, and_true]

theorem isQuiet_prototypes (plan : Plan) : ∀ f ∈ prototypes plan, IsQuiet f.description := by
  unfold prototypes
  rw [List.forall_mem_append]
  constructor
  · unfold Integrator.prototypes
    cases plan.integrator.binding with
    | none => exact List.forall_mem_nil _
    | some b =>
      dsimp only
      cases plan.integrator.newtonSystem b <;>
        simp only [Integrator.LinearSystem.prototypes, List.forall_mem_append, List.forall_mem_cons, List.not_mem_nil,
          false_implies, implies_true, and_true]
      · exact ⟨isQuiet_some rfl (by decide), isQuiet_some rfl (by decide)⟩
      · refine ⟨⟨?_, ?_, ?_, ?_⟩, ?_⟩
        all_goals exact isQuiet_some rfl (by decide)
  · unfold Solver.prototypes Solver.definedPrototypes
    simp only [List.forall_mem_append, List.forall_mem_cons, forall_mem_ite, List.not_mem_nil, false_implies,
      implies_true, and_true]
    refine ⟨⟨?_, ?_, ?_, ?_, ?_, ?_, ?_, ?_, ?_, ?_⟩, fun _ => ?_⟩
    · unfold Solver.qpSolvePrototype
      rintro _ ⟨⟩
      cases plan.solver.strategy.backend <;> decide +kernel
    all_goals exact isQuiet_some rfl (by decide)

theorem isQuiet_macros (c : Constants) : ∀ d ∈ c.macros, IsQuiet (some d.description) := by
  unfold Constants.macros
  cases c.blocks <;> cases c.bounds <;> cases c.stepsPerInterval <;>
    simp only [List.forall_mem_append, List.forall_mem_cons, List.not_mem_nil, false_implies, implies_true,
      Option.map_none, Option.map_some, Option.toList_none, Option.toList_some, and_true]
  all_goals
    repeat' apply And.intro
    all_goals exact isQuiet_some rfl (by decide)

theorem isIdentifier_params (plan : Plan) : ∀ f ∈ prototypes plan, ∀ a ∈ f.params, isIdentifier a.name = true := by
  unfold prototypes
  rw [List.forall_mem_append]
  constructor
  · unfold Integrator.prototypes
    cases plan.integrator.binding with
    | none => exact List.forall_mem_nil _
    | some b =>
      dsimp only
      cases plan.integrator.newtonSystem b <;>
        simp only [Integrator.LinearSystem.prototypes, Integrator.LinearSystem.signature, Integrator.modelPrototype,
          Integrator.prototype, Parameter.realIn, Parameter.realOut, Parameter.intOut, Parameter.intValue,
          List.forall_mem_append, List.forall_mem_cons, forall_mem_ite, List.not_mem_nil, false_implies, implies_true,
          and_true]
      · exact ⟨by decide +kernel, by decide +kernel, fun _ => by decide +kernel⟩
      · exact ⟨by decide +kernel, by decide +kernel, fun _ => by decide +kernel⟩
  · unfold Solver.prototypes Solver.definedPrototypes
    simp only [List.forall_mem_append, List.forall_mem_cons, forall_mem_ite, List.not_mem_nil, false_implies,
      implies_true, and_true]
    simp only [Solver.qpSolvePrototype, Solver.simulationPrototype, Solver.objectivePrototype,
      Solver.initializePrototype, Solver.preparationPrototype, Solver.feedbackPrototype, Solver.shiftStatesPrototype,
      Solver.shiftControlsPrototype, Solver.kktPrototype, Solver.objectiveValuePrototype, Solver.regularizePrototype,
      Parameter.realIn, Parameter.realOut, Parameter.intValue, List.forall_mem_cons, List.not_mem_nil, false_implies,
      implies_true, and_true, true_and]
    exact ⟨by decide +kernel, fun _ => by decide +kernel⟩

/-! ## Kinds of lines -/

/-- A type that the header may introduce: the real one, or that of a struct. -/
def Known (types : TypeNames) (m : ModuleName) (T : String) : Prop :=
  .word T.toList ∈ lexemes types.real ∨ ∃ owner : Struct, T = owner.typeName m

/-- A line that introduces no other type. -/
def OnlyKnown (types : TypeNames) (m : ModuleName) (l : List (Lexeme Char)) : Prop :=
  ∀ T, isIdentifier T = true → Form T l → Known types m T

/-- Real and integer types that C can take for types. -/
structure AreTypeNames (types : TypeNames) : Prop where
  real : IsTypeName types.real
  int : IsTypeName types.int

/-- Whether lexemes introduce nothing, by their number or by the first one. -/
def isInert (l : List (Lexeme Char)) : Bool :=
  l.length < 3 || l.head?.any fun a => a != .word "typedef".toList && a != .mark '\x7d'

section

variable {types : TypeNames} {m : ModuleName}

theorem onlyKnown_of_isInert {l : List (Lexeme Char)} (h : isInert l = true) : OnlyKnown types m l := by
  intro T hT hform
  rcases Bool.or_eq_true_iff.1 h with h | h
  · exact absurd hform (not_form_of_length hT (of_decide_eq_true h))
  · cases l with
    | nil => cases h
    | cons a l =>
      have ha : a ≠ .word "typedef".toList ∧ a ≠ .mark '\x7d' := by simpa using h
      exact absurd hform (not_form_of_head ha.1 ha.2)

/-- A line of plain characters. -/
theorem lined_plain {l : String} (hplain : IsPlain l) (h : OnlyKnown types m (lexemes l)) :
    Lined (OnlyKnown types m) (l ++ "\n") :=
  .line (isLine_of_plain hplain) h

/-- A directive introduces nothing. -/
theorem onlyKnown_directive (l : String) : OnlyKnown types m (lexemes ("#" ++ l)) := by
  refine onlyKnown_of_isInert (Bool.or_eq_true_iff.2 (.inr ?_))
  unfold lexemes
  rw [String.toList_append]
  rfl

theorem lined_directive {l : String} (hplain : IsPlain l) :
    Lined (OnlyKnown types m) ("#" ++ l ++ "\n") := by
  exact lined_plain (IsPlain.append (by decide) hplain) (onlyKnown_directive l)

theorem lined_blank : Lined (OnlyKnown types m) "\n" :=
  lined_plain (l := "") (by decide) (onlyKnown_of_isInert (by decide))

theorem described_eq (text l : String) :
    described (some text) l ++ "\n" = "/** " ++ text ++ " */" ++ "\n" ++ (l ++ "\n") := by
  have hend : " */\n" = " */" ++ "\n" := by decide
  change "/** " ++ text ++ " */\n" ++ l ++ "\n" = _
  rw [hend]
  simp only [String.append_assoc]

/-- A line under its description. -/
theorem lined_described {P : List (Lexeme Char) → Prop} (hnil : P []) {description : Option String}
    (hdescription : IsQuiet description) {l : String} (hl : IsLine l) (h : P (lexemes l)) :
    Lined P (described description l ++ "\n") := by
  cases description with
  | none => exact .line hl h
  | some text =>
    have hcomment := isLine_description (hdescription text rfl)
    rw [described_eq]
    exact Lined.append (.line hcomment.1 (hcomment.2 ▸ hnil)) (.line hl h)

theorem codeLines_described {description : Option String} (hdescription : IsQuiet description) {l : String}
    (hl : IsLine l) (hne : lexemes l ≠ []) (rest : String) :
    codeLines (described description l ++ "\n" ++ rest) = lexemes l :: codeLines rest := by
  cases description with
  | none => exact codeLines_cons hl hne rest
  | some text =>
    have hcomment := isLine_description (hdescription text rfl)
    rw [described_eq, String.append_assoc, codeLines_line hcomment.1, codeLines_cons hl hne, hcomment.2]
    rfl

/-- Fixed lines. -/
theorem lined_unlines {ls : List String} (h : ls.all (fun l => decide (IsLine l) && isInert (lexemes l)) = true) :
    Lined (OnlyKnown types m) (unlines ls) := by
  refine ⟨ls, rfl, fun l hl => ?_⟩
  have hline := Bool.and_eq_true_iff.1 (List.all_eq_true.1 h l hl)
  exact ⟨of_decide_eq_true hline.1, onlyKnown_of_isInert hline.2⟩

end

/-! ## Names of structs -/

theorem isIdentifier_typeName (owner : Struct) (m : ModuleName) : isIdentifier (owner.typeName m) = true := by
  have hcapitals : isIdentifier m.capitals = true := by
    obtain ⟨c, cs, htext, hhead, htail⟩ := isIdentifier_iff.1 m.valid
    refine isIdentifier_iff.2 ⟨c.toUpper, cs.map Char.toUpper, ?_, ?_, List.forall_mem_map.2 fun d hd => ?_⟩
    · unfold ModuleName.capitals
      rw [String.toList_map, htext, List.map_cons]
    · rcases toUpper_eq_or_isUpper c with heq | hupper
      · rwa [heq]
      · have halpha : c.toUpper.isAlpha = true := Bool.or_eq_true_iff.2 (.inl hupper)
        exact Bool.or_eq_true_iff.2 (.inl halpha)
    · exact isIdentifierTail_toUpper (htail d hd)
  cases owner <;> exact isIdentifier_append hcapitals (List.all_eq_true.1 (by decide +kernel))

theorem isPlain_numeral (n : Nat) : IsPlain (toString n) := isPlain_of_isWord (isWord_numeral n)

/-! ## The start of the header -/

section

variable (plan : Plan) {types : TypeNames} {m : ModuleName}

/-- The macro that guards the header. -/
def guardName (m : ModuleName) : String := m.capitals ++ "_COMMON_H"

/-- The lines that open the guard. -/
def guardText (guard : String) : String := s!"#ifndef {guard}\n#define {guard}\n\n"

/-- What stands before the definitions. -/
def prefaceText : String :=
  notice "" ++ guardText (guardName plan.constants.moduleName) ++
  "#include <math.h>\n#include <string.h>\n" ++
  (if plan.constants.usesComplex then "#include <complex.h>\n" else "") ++ "\n" ++
  linkageStart

theorem isPlain_guardName (m : ModuleName) : IsPlain (guardName m) :=
  (isPlain_of_isWord (isWord_capitals m)).append (by decide +kernel)

theorem lined_guardText {guard : String} (hguard : IsPlain guard) : Lined (OnlyKnown types m) (guardText guard) := by
  have hguards : guardText guard =
      "#" ++ ("ifndef " ++ guard) ++ "\n" ++ ("#" ++ ("define " ++ guard) ++ "\n") ++ "\n" := by
    unfold guardText
    rw [← String.toList_inj]
    simp only [String.toList_append, List.append_assoc]
    rfl
  rw [hguards]
  exact ((lined_directive (IsPlain.append (by decide +kernel) hguard)).append
    (lined_directive (IsPlain.append (by decide +kernel) hguard))).append lined_blank

theorem lined_preface : Lined (OnlyKnown types m) (prefaceText plan) := by
  have hnotice : notice "" =
      unlines ["/*\n" ++ String.join (noticeLines.map fun l => s!" *    {l}\n") ++ " */", ""] := by
    decide +kernel
  have hincludes : "#include <math.h>\n#include <string.h>\n" =
      unlines ["#include <math.h>", "#include <string.h>"] := by
    decide +kernel
  have hlinkage : linkageStart = unlines ["#ifndef __MATLAB__", "#ifdef __cplusplus", "extern \"C\"", "\x7b",
      "#endif /* __cplusplus */", "#endif /* __MATLAB__ */", ""] := by
    decide +kernel
  unfold prefaceText
  rw [hnotice, hincludes, hlinkage]
  refine ((((Lined.append ?_ ?_).append ?_).append ?_).append lined_blank).append ?_
  · exact lined_unlines (by decide +kernel)
  · exact lined_guardText (isPlain_guardName _)
  · exact lined_unlines (by decide +kernel)
  · split
    · exact lined_directive (l := "include <complex.h>") (by decide +kernel)
    · exact .nil
  · exact lined_unlines (by decide +kernel)

variable (types m)

/-- The line that defines the real type. -/
def realTypeLine (singlePrecision : Bool) : String :=
  "typedef " ++ (if singlePrecision then "float" else "double") ++ " " ++ types.real ++ ";"

variable {types m}

theorem realTypeText_eq {singlePrecision : Bool} (h : ¬(types.real = "float" ∨ types.real = "double")) :
    realTypeText types singlePrecision =
      "/** Scalar type of real numbers. */" ++ "\n" ++ (realTypeLine types singlePrecision ++ "\n") ++ "\n" := by
  have hstart : "/** Scalar type of real numbers. */\ntypedef " =
      "/** Scalar type of real numbers. */" ++ "\n" ++ "typedef " := by
    decide +kernel
  have hend : ";\n\n" = ";" ++ "\n" ++ "\n" := by decide
  unfold realTypeText realTypeLine
  rw [if_neg h]
  change "/** Scalar type of real numbers. */\ntypedef " ++ (if singlePrecision then "float" else "double") ++ " " ++
    types.real ++ ";\n\n" = _
  rw [hstart, hend]
  simp only [String.append_assoc]

theorem plain_realTypeLine (hreal : IsTypeName types.real) (singlePrecision : Bool) :
    IsPlain (realTypeLine types singlePrecision) := by
  have hstart : IsPlain ("typedef " ++ (if singlePrecision then "float" else "double") ++ " ") := by
    cases singlePrecision <;> decide +kernel
  exact (hstart.append hreal.plain).append (by decide)

theorem lexemes_realTypeLine (hreal : IsTypeName types.real) (singlePrecision : Bool) :
    lexemes (realTypeLine types singlePrecision) =
      .word "typedef".toList :: [.word (if singlePrecision then "float" else "double").toList] ++ lexemes types.real ++
        [.mark ';'] := by
  have hstart : ∀ single : Bool, IsPlain ("typedef " ++ (if single then "float" else "double")) ∧
      lexemes ("typedef " ++ (if single then "float" else "double")) =
        .word "typedef".toList :: [.word (if single then "float" else "double").toList] := by
    decide +kernel
  obtain ⟨hplain, hlexemes⟩ := hstart singlePrecision
  have hline : realTypeLine types singlePrecision =
      "typedef " ++ (if singlePrecision then "float" else "double") ++ (" " ++ types.real) ++ ";" := by
    unfold realTypeLine
    simp only [String.append_assoc]
  have hreal' : IsPlain (" " ++ types.real) := IsPlain.append (by decide) hreal.plain
  rw [hline, lexemes_append (after_code_of_plain (hplain.append hreal')) (by decide),
    lexemes_append (after_code_of_plain hplain) (by rw [String.toList_append]; rfl), hlexemes, lexemes_blank]
  rfl

theorem lined_realType (hreal : IsTypeName types.real) (singlePrecision : Bool) :
    Lined (OnlyKnown types m) (realTypeText types singlePrecision) := by
  by_cases hbuiltin : types.real = "float" ∨ types.real = "double"
  · unfold realTypeText
    rw [if_pos hbuiltin]
    exact .nil
  · rw [realTypeText_eq hbuiltin]
    refine Lined.append (.append ?_ (lined_plain (plain_realTypeLine hreal _) ?_)) lined_blank
    · exact .line (by decide +kernel) (onlyKnown_of_isInert (by decide +kernel))
    · rw [lexemes_realTypeLine hreal]
      intro T hT hform
      obtain ⟨front, hline, -⟩ := hform.exists_front hT
      -- The name is the last word of the real type.
      obtain ⟨init, a, hlast⟩ : ∃ init a, lexemes types.real = init ++ [a] :=
        ⟨_, _, (List.dropLast_append_getLast hreal.isSpelled.ne_nil).symm⟩
      rw [hlast, ← List.append_assoc, List.append_assoc _ [a]] at hline
      obtain ⟨rfl, -⟩ := List.cons.inj (List.append_inj' hline rfl).2
      exact .inl (hlast ▸ List.mem_append_right _ (List.mem_singleton_self _))

/-- What follows the mark of the directive that defines a macro. -/
def macroLine (d : Constants.Macro) : String := "define " ++ d.fullName ++ " " ++ toString d.value

theorem macroText_eq (d : Constants.Macro) :
    macroText d = described (some d.description) ("#" ++ macroLine d) ++ "\n" := by
  have hmiddle : " */\n#define " = " */\n" ++ ("#" ++ "define ") := by decide +kernel
  change "/** " ++ d.description ++ " */\n#define " ++ d.fullName ++ " " ++ toString d.value ++ "\n" =
    "/** " ++ d.description ++ " */\n" ++ ("#" ++ ("define " ++ d.fullName ++ " " ++ toString d.value)) ++ "\n"
  rw [hmiddle]
  simp only [String.append_assoc]

theorem isPlain_macroLine {c : Constants} {d : Constants.Macro} (hd : d ∈ c.macros) : IsPlain (macroLine d) := by
  have hname : IsPlain d.fullName := by
    have hmem := List.mem_map_of_mem (f := Constants.Macro.name) hd
    rw [Constants.names_macros] at hmem
    have htable : ∀ blocks bounds steps,
        ((Constants.macroNames blocks bounds steps).all fun n => n.toList.all isPlainChar) = true := by
      decide +kernel
    exact IsPlain.append (by decide +kernel) (List.all_eq_true.1 (htable _ _ _) _ hmem)
  exact ((IsPlain.append (by decide +kernel) hname).append (by decide)).append (isPlain_numeral _)

theorem lined_macros (c : Constants) : Lined (OnlyKnown types m) (String.join (c.macros.map macroText)) := by
  refine .join (List.forall_mem_map.2 fun d hd => ?_)
  have hline := isLine_of_plain (IsPlain.append (by decide : IsPlain "#") (isPlain_macroLine hd))
  rw [macroText_eq]
  exact lined_described (onlyKnown_of_isInert rfl) (isQuiet_macros c d hd) hline (onlyKnown_directive _)

end

/-! ## The structs -/

section

variable {plan : Plan} {types : TypeNames}

/-- The line of a member introduces no type and ends no struct. -/
structure IsMemberLine (l : List (Lexeme Char)) : Prop where
  inert : ∀ T, isIdentifier T = true → ¬Form T l
  noBrace : .mark '\x7d' ∉ l

theorem isTypeName_spell (htypes : AreTypeNames types) (t : Scalar) : IsTypeName (t.spell types) := by
  cases t with
  | real => exact htypes.real
  | int => exact htypes.int
  | void =>
    have hvoid : isIdentifier "void" = true := by decide
    exact .inl hvoid

theorem isIdentifier_member {owner : Struct} {d : Member} (hd : d ∈ members plan owner) :
    isIdentifier d.name = true := by
  have htable : ∀ owner, ((memberNames owner).all isIdentifier) = true := by
    rintro (_ | _) <;> decide +kernel
  exact List.all_eq_true.1 (htable owner) _ ((names_sublist plan owner).subset (List.mem_map_of_mem hd))

/-- The line of a member, without its description. -/
theorem lined_member (htypes : AreTypeNames types) {owner : Struct} {d : Member} (hd : d ∈ members plan owner) :
    Lined IsMemberLine (d.render types ++ "\n") := by
  have htype := isTypeName_spell htypes d.type
  have hname := isIdentifier_member hd
  have hstart : IsPlain (d.type.spell types ++ " " ++ d.name) :=
    (htype.plain.append (by decide)).append (isPlain_of_isIdentifier hname)
  have hline {rest : String} (hrest : IsPlain rest)
      (hinert : ∀ T, isIdentifier T = true → ¬Form T (lexemes (d.type.spell types ++ " " ++ d.name ++ rest))) :
      Lined IsMemberLine (described d.description (d.type.spell types ++ " " ++ d.name ++ rest) ++ "\n") := by
    have hplain := hstart.append hrest
    have hnil : IsMemberLine [] := ⟨fun T hT => not_form_of_length hT (by decide), List.not_mem_nil⟩
    refine lined_described hnil (isQuiet_members plan owner d hd) (isLine_of_plain hplain) ⟨hinert, fun hmem => ?_⟩
    exact hplain.mark_notMem (by decide) (by decide) (List.mem_filter.1 hmem).1
  unfold Member.render
  split
  · have hsemicolon : IsPlain ";" := by decide
    refine hline hsemicolon fun T hT => ?_
    rw [lexemes_declaration htype hname (by decide)]
    exact not_form_of_isSpelled hT htype.isSpelled _
  · have hsize : IsPlain ("[ " ++ toString d.size) := IsPlain.append (by decide) (isPlain_numeral _)
    have hassoc : d.type.spell types ++ " " ++ d.name ++ "[ " ++ toString d.size ++ " ];" =
        d.type.spell types ++ " " ++ d.name ++ ("[ " ++ toString d.size) ++ " ];" := by
      simp only [String.append_assoc]
    change Lined IsMemberLine (described d.description
      (d.type.spell types ++ " " ++ d.name ++ "[ " ++ toString d.size ++ " ];") ++ "\n")
    rw [hassoc, String.append_assoc]
    refine hline (hsize.append (by decide)) fun T hT => ?_
    rw [← String.append_assoc, lexemes_append (after_code_of_plain (hstart.append hsize)) (by decide)]
    exact not_form_of_end hT (.inl fun w h => by cases h)

/-- What stands between the braces of a struct. -/
def structBody (plan : Plan) (types : TypeNames) (owner : Struct) : String :=
  let declared := Member.renderAll types (members plan owner)
  if declared.isEmpty then "int dummy;\n" else declared ++ "\n"

theorem lined_structBody (htypes : AreTypeNames types) (owner : Struct) :
    Lined IsMemberLine (structBody plan types owner) := by
  unfold structBody
  dsimp only
  split
  · refine .line (l := "int dummy;") (by decide +kernel) ⟨fun T hT => ?_, by decide +kernel⟩
    have hint : IsTypeName "int" := .inl (by decide)
    have hlexemes : lexemes "int dummy;" = lexemes "int" ++ [.word "dummy".toList, .mark ';'] := by decide +kernel
    rw [hlexemes]
    exact not_form_of_isSpelled hT hint.isSpelled _
  · rename_i hempty
    unfold Member.renderAll at hempty ⊢
    have hne : (((members plan owner).filter fun d => !d.isEmpty).map (Member.render types)) ≠ [] := fun h => by
      rw [h] at hempty
      exact hempty rfl
    rw [intercalate_append hne]
    refine .join (List.forall_mem_map.2 (List.forall_mem_map.2 fun d hd => ?_))
    exact lined_member htypes (List.mem_filter.1 hd).1

theorem structText_eq (owner : Struct) :
    structText plan types owner =
      "typedef struct " ++ owner.typeName plan.constants.moduleName ++ "_" ++ "\n" ++
        ("\x7b" ++ "\n" ++ (structBody plan types owner ++
          ("\x7d " ++ owner.typeName plan.constants.moduleName ++ ";" ++ "\n" ++ "\n"))) := by
  have hstart : "_\n\x7b\n" = "_" ++ "\n" ++ ("\x7b" ++ "\n") := by decide
  have hend : ";\n\n" = ";" ++ "\n" ++ "\n" := by decide
  change "typedef struct " ++ owner.typeName plan.constants.moduleName ++ "_\n\x7b\n" ++ structBody plan types owner ++
    ("\x7d " ++ owner.typeName plan.constants.moduleName ++ ";\n\n") = _
  rw [hstart, hend]
  simp only [String.append_assoc]

/-- The line that starts a struct. -/
theorem structStart (owner : Struct) (m : ModuleName) :
    IsLine ("typedef struct " ++ owner.typeName m ++ "_") ∧
      lexemes ("typedef struct " ++ owner.typeName m ++ "_") =
        [.word "typedef".toList, .word "struct".toList, .word (owner.typeName m ++ "_").toList] := by
  have hname : isIdentifier (owner.typeName m ++ "_") = true :=
    isIdentifier_append (isIdentifier_typeName owner m) (List.all_eq_true.1 (by decide))
  have hstart : IsPlain "typedef struct " := by decide +kernel
  have hwords : lexemes "typedef struct" = [.word "typedef".toList, .word "struct".toList] := by decide +kernel
  have hsplit : "typedef struct " ++ owner.typeName m ++ "_" =
      "typedef struct" ++ (" " ++ (owner.typeName m ++ "_")) := by
    have hblank : "typedef struct " = "typedef struct" ++ " " := by decide
    rw [hblank]
    simp only [String.append_assoc]
  constructor
  · rw [String.append_assoc]
    exact isLine_of_plain (hstart.append (isPlain_of_isIdentifier hname))
  · rw [hsplit, lexemes_append (after_code_of_plain (by decide +kernel)) (by rw [String.toList_append]; rfl),
      lexemes_blank, lexemes_identifier hname, hwords]
    rfl

/-- The line that ends a struct. -/
theorem structEnd (owner : Struct) (m : ModuleName) :
    IsLine ("\x7d " ++ owner.typeName m ++ ";") ∧
      lexemes ("\x7d " ++ owner.typeName m ++ ";") = .mark '\x7d' :: lexemes (owner.typeName m) ++ [.mark ';'] := by
  have hname := isIdentifier_typeName owner m
  have hplain : IsPlain (" " ++ owner.typeName m) :=
    IsPlain.append (by decide) (isPlain_of_isIdentifier hname)
  have hbrace : IsLine "\x7d" := by decide
  have hsplit : "\x7d " ++ owner.typeName m ++ ";" = "\x7d" ++ (" " ++ owner.typeName m ++ ";") := by
    have hblank : "\x7d " = "\x7d" ++ " " := by decide
    rw [hblank]
    simp only [String.append_assoc]
  have hrest : (" " ++ owner.typeName m ++ ";").toList.head?.all isBreak = true := by
    rw [String.append_assoc, String.toList_append]
    rfl
  rw [hsplit]
  constructor
  · exact hbrace.append (isLine_of_plain (hplain.append (by decide))) hrest
  · rw [lexemes_append hbrace.closed hrest, lexemes_append (after_code_of_plain hplain) (by decide), lexemes_blank]
    rfl

/-- The lines of a struct. -/
theorem codeLines_structText (htypes : AreTypeNames types) (owner : Struct) :
    codeLines (structText plan types owner) =
      [.word "typedef".toList, .word "struct".toList, .word (owner.typeName plan.constants.moduleName ++ "_").toList] ::
        ([.mark '\x7b'] :: codeLines (structBody plan types owner)) ++
        [.mark '\x7d' :: lexemes (owner.typeName plan.constants.moduleName) ++ [.mark ';']] := by
  obtain ⟨hstart, hstart'⟩ := structStart owner plan.constants.moduleName
  obtain ⟨hend, hend'⟩ := structEnd owner plan.constants.moduleName
  have hbrace : IsLine "\x7b" := by decide
  have hblank : codeLines "\n" = [] := by decide
  have hopening : lexemes "\x7b" = [.mark '\x7b'] := by decide
  rw [structText_eq, codeLines_cons hstart (hstart' ▸ List.cons_ne_nil _ _),
    codeLines_cons hbrace (hopening ▸ List.cons_ne_nil _ _), (lined_structBody htypes owner).codeLines_append,
    codeLines_cons hend (hend' ▸ List.cons_ne_nil _ _), hstart', hend', hblank, hopening]
  rfl

theorem lined_structText (htypes : AreTypeNames types) (owner : Struct) :
    Lined (OnlyKnown types plan.constants.moduleName) (structText plan types owner) := by
  obtain ⟨hstart, hstart'⟩ := structStart owner plan.constants.moduleName
  obtain ⟨hend, hend'⟩ := structEnd owner plan.constants.moduleName
  rw [structText_eq]
  refine (Lined.line hstart ?_).append (Lined.append ?_ (Lined.append ?_ ((Lined.line hend ?_).append lined_blank)))
  · rw [hstart']
    intro T hT hform
    exact absurd hform (not_form_of_end (l := [.word "typedef".toList]) hT (.inr (by rintro ⟨⟩)))
  · exact .line (by decide) (onlyKnown_of_isInert (by decide))
  · exact (lined_structBody htypes owner).mono fun l hl T hT hform => absurd hform (hl.inert T hT)
  · rw [hend', lexemes_identifier (isIdentifier_typeName owner plan.constants.moduleName)]
    intro T hT hform
    obtain ⟨front, hline, -⟩ := hform.exists_front hT
    have hline : [Lexeme.mark '\x7d'] ++ [.word (owner.typeName plan.constants.moduleName).toList, .mark ';'] =
      front ++ [.word T.toList, .mark ';'] := hline
    have hname := (List.cons.inj (List.append_inj' hline rfl).2).1
    exact .inr ⟨owner, (String.toList_inj.1 (Lexeme.word.inj hname)).symm⟩

end

/-! ## The prototypes -/

section

variable {plan : Plan} {types : TypeNames} {m : ModuleName}

theorem plain_parameter (htypes : AreTypeNames types) {a : Parameter} (ha : isIdentifier a.name = true) :
    IsPlain (a.render types) := by
  have htype := (isTypeName_spell htypes a.type).plain
  have hname := isPlain_of_isIdentifier ha
  unfold Parameter.render
  dsimp only
  split
  · split
    · exact ((IsPlain.append (by decide +kernel) htype).append (by decide)).append hname
    · exact (htype.append (by decide +kernel)).append hname
  · exact (htype.append (by decide)).append hname

/-- The parameters of a signature. -/
def parametersText (types : TypeNames) (f : Prototype) : String :=
  if f.params.isEmpty then "void" else ", ".intercalate (f.params.map (Parameter.render types))

theorem plain_parameters (htypes : AreTypeNames types) {f : Prototype} (hf : f ∈ prototypes plan) :
    IsPlain (parametersText types f) := by
  unfold parametersText
  split
  · decide +kernel
  · exact IsPlain.intercalate (by decide) (List.forall_mem_map.2 fun a ha =>
      plain_parameter htypes (isIdentifier_params plan f hf a ha))

theorem signature_eq (f : Prototype) :
    f.signature types ++ ";" =
      f.returns.spell types ++ " " ++ f.name ++ ("( " ++ parametersText types f ++ " );") := by
  have hend : " );" = " )" ++ ";" := by decide
  change f.returns.spell types ++ " " ++ f.name ++ "( " ++ parametersText types f ++ " )" ++ ";" = _
  rw [hend]
  simp only [String.append_assoc]

/-- The line that declares a function. -/
theorem signatureLine (htypes : AreTypeNames types) {f : Prototype} (hf : f ∈ prototypes plan)
    (hname : isIdentifier f.name = true) :
    IsLine (f.signature types ++ ";") ∧ ∃ arguments, lexemes (f.signature types ++ ";") =
      lexemes (f.returns.spell types) ++ .word f.name.toList :: arguments ++ [.mark ')', .mark ';'] := by
  have htype := isTypeName_spell htypes f.returns
  have hparameters : IsPlain ("( " ++ parametersText types f) :=
    IsPlain.append (by decide) (plain_parameters htypes hf)
  have hstart : ("( " ++ parametersText types f ++ " );").toList.head?.all isBreak = true := by
    rw [String.append_assoc, String.toList_append]
    rfl
  rw [signature_eq]
  constructor
  · exact isLine_of_plain (((htype.plain.append (by decide)).append (isPlain_of_isIdentifier hname)).append
      (hparameters.append (by decide)))
  · refine ⟨lexemes ("( " ++ parametersText types f), ?_⟩
    rw [lexemes_declaration htype hname hstart, lexemes_append (after_code_of_plain hparameters) (by decide),
      List.append_assoc]
    rfl

theorem lined_prototype (htypes : AreTypeNames types) {f : Prototype} (hf : f ∈ prototypes plan)
    (hname : isIdentifier f.name = true) : Lined (OnlyKnown types m) (f.render types ++ "\n\n") := by
  obtain ⟨hline, arguments, hlexemes⟩ := signatureLine htypes hf hname
  have hbreaks : "\n\n" = "\n" ++ "\n" := by decide
  rw [hbreaks, ← String.append_assoc]
  refine (lined_described (onlyKnown_of_isInert rfl) (isQuiet_prototypes plan f hf) hline ?_).append lined_blank
  rw [hlexemes]
  exact fun T hT hform => absurd hform (not_form_of_end hT (.inl fun w h => by cases h))

/-- The prototypes, each with a blank line behind it. -/
theorem renderAll_eq : Prototype.renderAll types (prototypes plan) ++ "\n\n" =
    String.join ((prototypes plan).map fun f => f.render types ++ "\n\n") := by
  have hne : (prototypes plan).map (Prototype.render types) ≠ [] := fun h =>
    List.cons_ne_nil _ _ (List.append_eq_nil_iff.1 (List.map_eq_nil_iff.1 h)).2
  unfold Prototype.renderAll
  rw [intercalate_append hne, List.map_map]
  rfl

theorem lined_prototypes (htypes : AreTypeNames types) (hnames : ∀ f ∈ prototypes plan, isIdentifier f.name = true) :
    Lined (OnlyKnown types m) (Prototype.renderAll types (prototypes plan) ++ "\n\n") := by
  rw [renderAll_eq]
  exact .join (List.forall_mem_map.2 fun f hf => lined_prototype htypes hf (hnames f hf))

/-- The line of a function is one of the prototypes. -/
theorem mem_codeLines_prototypes (htypes : AreTypeNames types)
    (hnames : ∀ f ∈ prototypes plan, isIdentifier f.name = true) {f : Prototype} (hf : f ∈ prototypes plan) :
    lexemes (f.signature types ++ ";") ∈ codeLines (Prototype.renderAll types (prototypes plan) ++ "\n\n") := by
  obtain ⟨hline, arguments, hlexemes⟩ := signatureLine htypes hf (hnames f hf)
  have hlined : ∀ t ∈ (prototypes plan).map (fun f => f.render types ++ "\n\n"),
      Lined (OnlyKnown types plan.constants.moduleName) t :=
    List.forall_mem_map.2 fun f hf => lined_prototype htypes hf (hnames f hf)
  rw [renderAll_eq]
  refine Lined.mem_join hlined (List.mem_map_of_mem hf) ?_
  have hbreaks : "\n\n" = "\n" ++ "\n" := by decide
  rw [hbreaks, ← String.append_assoc]
  unfold Prototype.render
  rw [codeLines_described (isQuiet_prototypes plan f hf) hline]
  · exact List.mem_cons_self
  · rw [hlexemes]
    simp

/-! ## The header -/

/-- What stands before the structs. -/
def startText (plan : Plan) (types : TypeNames) : String :=
  prefaceText plan ++ realTypeText types plan.constants.singlePrecision ++
    String.join (plan.constants.macros.map macroText) ++ "\n"

/-- What stands behind the prototypes. -/
def finishText (m : ModuleName) : String :=
  let guard := guardName m
  externText m .workspace ++ externText m .vars ++ "\n" ++ linkageEnd ++ s!"#endif /* {guard} */\n"

theorem headerText_eq : headerText plan types =
    startText plan types ++ (structText plan types .vars ++ (structText plan types .workspace ++
      (Prototype.renderAll types (prototypes plan) ++ "\n\n" ++ finishText plan.constants.moduleName))) := by
  unfold headerText startText prefaceText guardText finishText guardName
  simp only [String.append_assoc]

theorem lined_start (htypes : AreTypeNames types) : Lined (OnlyKnown types m) (startText plan types) :=
  (((lined_preface plan).append (lined_realType htypes.real _)).append (lined_macros _)).append lined_blank

/-- An instance is declared `extern`. -/
theorem lined_externText (m : ModuleName) (owner : Struct) : Lined (OnlyKnown types m) (externText m owner) := by
  have htype := isPlain_of_isIdentifier (isIdentifier_typeName owner m)
  have hinstance : IsPlain (owner.instanceName m) := by
    cases owner <;> exact (isPlain_of_isIdentifier m.valid).append (by decide +kernel)
  have hrest : IsPlain (" " ++ owner.typeName m ++ " " ++ owner.instanceName m ++ ";") :=
    (((IsPlain.append (by decide) htype).append (by decide)).append hinstance).append (by decide)
  have htext : externText m owner =
      "extern" ++ (" " ++ owner.typeName m ++ " " ++ owner.instanceName m ++ ";") ++ "\n" := by
    have hstart : "extern " = "extern" ++ " " := by decide
    have hend : ";\n" = ";" ++ "\n" := by decide
    change "extern " ++ owner.typeName m ++ " " ++ owner.instanceName m ++ ";\n" = _
    rw [hstart, hend]
    simp only [String.append_assoc]
  have hhead : (" " ++ owner.typeName m ++ " " ++ owner.instanceName m ++ ";").toList.head?.all isBreak = true := by
    simp only [String.append_assoc]
    rw [String.toList_append]
    rfl
  rw [htext]
  refine lined_plain (IsPlain.append (by decide) hrest) (onlyKnown_of_isInert (Bool.or_eq_true_iff.2 (.inr ?_)))
  rw [lexemes_append (by decide) hhead]
  rfl

/-- The guard is closed with its name in a comment. -/
theorem lined_closing {guard : String} (hguard : '*' ∉ guard.toList) :
    Lined (OnlyKnown types m) s!"#endif /* {guard} */\n" := by
  have hplain : IsPlain "#endif " := by decide +kernel
  obtain ⟨hline, hlexemes⟩ := isLine_comment hplain (.inl rfl) hguard
  have hclosing : s!"#endif /* {guard} */\n" = "#endif " ++ ("/* " ++ guard ++ " */") ++ "\n" := by
    have hstart : "#endif /* " = "#endif " ++ "/* " := by decide +kernel
    have hend : " */\n" = " */" ++ "\n" := by decide
    change "#endif /* " ++ guard ++ " */\n" = _
    rw [hstart, hend]
    simp only [String.append_assoc]
  rw [hclosing]
  exact .line hline (hlexemes ▸ onlyKnown_directive "endif ")

theorem lined_finish (m : ModuleName) : Lined (OnlyKnown types m) (finishText m) := by
  have hguard : '*' ∉ (guardName m).toList := by
    unfold guardName
    rw [String.toList_append, List.mem_append, not_or]
    exact ⟨fun h => absurd ((isWord_capitals m).2 _ h) (by decide), by decide⟩
  have hlinkage : linkageEnd = unlines ["#ifndef __MATLAB__", "#ifdef __cplusplus", "\x7d /* extern \"C\" */",
      "#endif /* __cplusplus */", "#endif /* __MATLAB__ */", ""] := by
    decide +kernel
  have hend : Lined (OnlyKnown types m) linkageEnd := hlinkage ▸ lined_unlines (by decide +kernel)
  unfold finishText
  exact ((((lined_externText m .workspace).append (lined_externText m .vars)).append lined_blank).append hend).append
    (lined_closing hguard)

theorem lined_headerText (htypes : AreTypeNames types) (hnames : ∀ f ∈ prototypes plan, isIdentifier f.name = true) :
    Lined (OnlyKnown types plan.constants.moduleName) (headerText plan types) := by
  rw [headerText_eq]
  exact (lined_start htypes).append ((lined_structText htypes .vars).append ((lined_structText htypes .workspace).append
    ((lined_prototypes htypes hnames).append (lined_finish _))))

end

end ControlCodegen.Export
