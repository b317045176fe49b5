import ControlCodegen.Proofs.Export.HeaderLines
import ControlCodegen.Proofs.Export.Success

/-!
# `Export.TypeNames`: whether the types of an export are defined

* `known_of_introduces`, `introduces_real`, `introduces_typeName` : the types that the common header introduces.
* `uses_int`, `uses_real` : the header uses the integer type, and the header of the auxiliary functions uses `real_t`,
  whatever the real type.
* `TypesDefined` : the C files of an export use only types that C has or that the common header introduces.
* `AreUsual`, `types_defined_iff` : they do if and only if the real type is `real_t` and the integer type is one that C
  has, `real_t` or one of the structs.
-/

namespace ControlCodegen

open C Lexeme Text

set_option autoImplicit false

namespace Export

/-! ## What the common header introduces and uses -/

section

variable {plan : Plan} {types : TypeNames}

theorem known_of_introduces (htypes : AreTypeNames types) (hnames : ∀ f ∈ prototypes plan, isIdentifier f.name = true)
    {T : String} (hT : isIdentifier T = true) (h : Introduces T (headerText plan types)) :
    Known types plan.constants.moduleName T := by
  obtain ⟨l, hl, hform⟩ := h.exists_form
  exact (lined_headerText htypes hnames).forall_mem l hl T hT hform

/-- `real_t` is introduced as the real type only. -/
theorem real_of_known {m : ModuleName} (hreal : IsTypeName types.real) (h : Known types m "real_t") :
    types.real = "real_t" := by
  rcases h with hword | ⟨owner, hname⟩
  · rcases hreal with hreal | hreal
    · exact (eq_of_word_mem hreal hword).symm
    · have hnone : ∀ b ∈ builtins, "real_t" ∉ b := by decide
      obtain ⟨b, hb, w, hw, hword⟩ := hreal.exists_specifier.2 _ hword
      rw [← String.toList_inj.1 (Lexeme.word.inj hword)] at hw
      exact absurd hw (hnone b hb)
  · -- The name of a struct is longer.
    have hlength := congrArg String.length hname
    have hshort : "real_t".length = 6 := by decide
    have hlong : "variables".length = 9 ∧ "workspace".length = 9 := by decide
    unfold Struct.typeName at hlength
    cases owner <;> simp only [String.length_append] at hlength <;> omega

theorem introduces_real (htypes : AreTypeNames types) (h : ¬(types.real = "float" ∨ types.real = "double")) :
    Introduces types.real (headerText plan types) := by
  have hline := lexemes_realTypeLine htypes.real plan.constants.singlePrecision
  have hmem : lexemes (realTypeLine types plan.constants.singlePrecision) ∈
      codeLines (realTypeText types plan.constants.singlePrecision) := by
    have hcomment : IsLine "/** Scalar type of real numbers. */" := by decide +kernel
    rw [realTypeText_eq h, String.append_assoc, codeLines_line hcomment,
      codeLines_cons (isLine_of_plain (plain_realTypeLine htypes.real _)) (hline ▸ List.cons_ne_nil _ _)]
    exact List.mem_append_right _ List.mem_cons_self
  have hheader : lexemes (realTypeLine types plan.constants.singlePrecision) ∈ codeLines (headerText plan types) := by
    have hpreface : Lined (OnlyKnown types plan.constants.moduleName) (prefaceText plan) := lined_preface plan
    have hreal := lined_realType htypes.real (m := plan.constants.moduleName) plan.constants.singlePrecision
    rw [headerText_eq, (lined_start htypes (m := plan.constants.moduleName)).codeLines_append]
    unfold startText
    rw [String.append_assoc, String.append_assoc, hpreface.codeLines_append, hreal.codeLines_append]
    exact List.mem_append_left _ (List.mem_append_right _ (List.mem_append_left _ hmem))
  rw [hline] at hheader
  exact .scalar (List.cons_ne_nil _ []) hheader

theorem introduces_typeName (htypes : AreTypeNames types) (owner : Struct) :
    Introduces (owner.typeName plan.constants.moduleName) (headerText plan types) := by
  have hstart : Lined (OnlyKnown types plan.constants.moduleName) (startText plan types) := lined_start htypes
  have hcode : codeLines (headerText plan types) = _ := congrArg codeLines headerText_eq
  rw [hstart.codeLines_append, (lined_structText htypes .vars).codeLines_append,
    (lined_structText htypes .workspace).codeLines_append] at hcode
  have hparts : ∃ before after, codeLines (headerText plan types) =
      before ++ (codeLines (structText plan types owner) ++ after) := by
    cases owner with
    | vars => exact ⟨_, _, hcode⟩
    | workspace => exact ⟨_, _, hcode.trans (List.append_assoc _ _ _).symm⟩
  obtain ⟨before, after, hparts⟩ := hparts
  have hbody : ∀ l ∈ [Lexeme.mark '\x7b'] :: codeLines (structBody plan types owner), .mark '\x7d' ∉ l :=
    List.forall_mem_cons.2 ⟨by decide, fun l hl => ((lined_structBody htypes owner).forall_mem l hl).noBrace⟩
  rw [codeLines_structText htypes] at hparts
  exact .struct hbody (hparts.trans (List.append_assoc _ _ _).symm)

theorem uses_int (htypes : AreTypeNames types) (hnames : ∀ f ∈ prototypes plan, isIdentifier f.name = true) :
    UsesType types.int (headerText plan types) := by
  have hf : plan.solver.initializePrototype ∈ prototypes plan := by
    unfold prototypes Solver.prototypes Solver.definedPrototypes
    simp
  obtain ⟨-, arguments, hlexemes⟩ := signatureLine htypes hf (hnames _ hf)
  have hmem := mem_codeLines_prototypes htypes hnames hf
  refine ⟨[], arguments ++ [.mark ')', .mark ';'], [], List.mem_cons_self, _, hnames _ hf, ?_⟩
  rw [headerText_eq, (lined_start htypes (m := plan.constants.moduleName)).codeLines_append,
    (lined_structText htypes .vars).codeLines_append, (lined_structText htypes .workspace).codeLines_append,
    (lined_prototypes htypes hnames (m := plan.constants.moduleName)).codeLines_append]
  rw [hlexemes, List.append_assoc] at hmem
  rw [List.nil_append, List.append_nil]
  exact List.mem_append_right _ (List.mem_append_right _ (List.mem_append_right _ (List.mem_append_left _ hmem)))

end

end Export

/-! ## What the auxiliary functions use -/

namespace Template

variable {subs : Substitutions} {text : String}

/-- The lines of a rendered file are those of its template, filled in. -/
theorem codeLines_render {t : Template} (h : t.render "" true subs = .ok text) (hsubs : AllWords subs) :
    codeLines text = (Lexeme.lines (lex .code t.outline)).map (·.map (Lexeme.fill (chars subs))) := by
  unfold render at h
  dsimp only at h
  split at h
  · rename_i hmissing
    have hmissing := List.isEmpty_iff.1 hmissing
    obtain rfl := Except.ok.inj h
    have hwords : ∀ name, Piece.word name ∈ t.outline → IsWord (chars subs name) := fun name hname => by
      obtain ⟨value, hvalue⟩ := Option.isSome_iff_exists.1 (isSome_value? hmissing hname)
      unfold chars
      rw [hvalue]
      exact hsubs name value hvalue
    unfold codeLines
    rw [if_pos rfl, String.toList_append, lex_notice, toList_unlines hmissing, lex_fill hwords, ← lines_fill]
    rfl
  · cases h

/-- The line of the header of the auxiliary functions that declares the accessor of the states. -/
def accessorLine : List (Lexeme Piece) :=
  [.word ("real_t".toList.map .literal), .mark '*', .word (.word "MODULE_NAME" :: "_getVariablesX".toList.map .literal),
    .mark '(', .mark ')', .mark ';']

set_option maxRecDepth 100000 in
theorem accessorLine_mem : accessorLine ∈ Lexeme.lines (lex .code auxiliaryHeader.outline) := by
  have houtline {ls : List (List Char)} (hls : Spells auxiliaryHeader.lines ls)
      (h : accessorLine ∈ Lexeme.lines (lex .code (outlineOf ls))) :
      accessorLine ∈ Lexeme.lines (lex .code auxiliaryHeader.outline) := by
    unfold outline
    rwa [hls.map_toList]
  apply houtline
  · simp only [lines, auxiliaryHeaderLines]
    repeat' (first | exact Spells.nil | apply Spells.cons rfl)
  · decide +kernel

/-- The accessors have the type `real_t` for every module. -/
theorem uses_real {m : ModuleName} (h : auxiliaryHeader.render "" true m.substitutions = .ok text) :
    UsesType "real_t" text := by
  have hname : isIdentifier (m.text ++ "_getVariablesX") = true :=
    isIdentifier_append m.valid (List.all_eq_true.1 (by decide +kernel))
  have hreal : lexemes "real_t" = [.word "real_t".toList] := lexemes_identifier (by decide)
  refine ⟨[], [.mark '(', .mark ')', .mark ';'], [.mark '*'], by decide, _, hname, ?_⟩
  rw [codeLines_render h (Export.allWords_moduleName m), hreal, String.toList_append]
  exact List.mem_map.2 ⟨accessorLine, accessorLine_mem, rfl⟩

end Template

namespace Export

open Files

/-! ## Exports -/

/-- Each of the real type, the integer type and `real_t` is one that C has or that the common header introduces, if a
header or a source of an export uses it. The files are read from the disk. -/
def TypesDefined (m : ModuleName) (target : Target) (summary : Summary) (d : Disk) : Prop :=
  ∃ header : String, d.read (place target m.commonHeader) = .ok header.toUTF8 ∧
    ∀ r ∈ summary.artifacts, IsHeader r.path ∨ IsSource r.path →
      ∃ text : String, d.read r.path = .ok text.toUTF8 ∧
        ∀ T ∈ [target.types.real, target.types.int, "real_t"], UsesType T text → IsBuiltin T ∨ Introduces T header

/-- The real type has the name that the auxiliary functions use, and the integer type needs no definition of its own. -/
structure AreUsual (types : TypeNames) (m : ModuleName) : Prop where
  real : types.real = "real_t"
  int : IsBuiltin types.int ∨ types.int = "real_t" ∨ ∃ owner : Struct, types.int = owner.typeName m

theorem AreUsual.areTypeNames {types : TypeNames} {m : ModuleName} (h : AreUsual types m) : AreTypeNames types := by
  have hreal : isIdentifier "real_t" = true := by decide
  refine ⟨.inl (h.real ▸ hreal), ?_⟩
  rcases h.int with hint | hint | ⟨owner, hint⟩
  · exact .inr hint
  · exact .inl (hint ▸ hreal)
  · exact .inl (hint ▸ isIdentifier_typeName owner m)

section

variable {s : Session} {target : Target} {now : Moment} {d d' : Disk} {outcome : Outcome} {plan : Plan}
  {files : List File} {summary : Summary}

/-- The common header is on the disk. -/
theorem Completed.read_commonHeader (h : Completed s target now d outcome d' plan files)
    (hok : outcome.result = .ok summary) :
    ∃ r ∈ summary.artifacts, r.path = place target s.options.moduleName.commonHeader ∧
      d'.read r.path = .ok (headerText plan target.types).toUTF8 := by
  obtain ⟨r, hr, hpath, text, htext, hread⟩ := h.exists_record hok
    (a := ⟨.commonHeader, .ofModule "common.h", fun plan types _ => .ok (headerText plan types)⟩)
    (by simp [artifacts, commonArtifacts])
  obtain rfl := Except.ok.inj htext
  refine ⟨r, hr, hpath.trans ?_, hread⟩
  exact congrArg (place target) (fileName_eq_text s.options.moduleName (by rfl)).symm

/-- The header of the auxiliary functions is on the disk, and uses `real_t`. -/
theorem Completed.exists_accessor (h : Completed s target now d outcome d' plan files)
    (hok : outcome.result = .ok summary) :
    ∃ r ∈ summary.artifacts, IsHeader r.path ∧ ∃ text : String, d'.read r.path = .ok text.toUTF8 ∧
      UsesType "real_t" text := by
  obtain ⟨r, hr, hpath, text, htext, hread⟩ := h.exists_record hok
    (a := .copy s.options .auxiliaryFunctions (.ofModule "auxiliary_functions.h") .auxiliaryHeader "")
    (by simp [artifacts, commonArtifacts])
  refine ⟨r, hr, ?_, text, hread, Template.uses_real htext⟩
  have hplace : r.path = place target (s.options.moduleName.fileName "auxiliary_functions" "h") :=
    hpath.trans (congrArg (place target) (fileName_eq_text s.options.moduleName (by rfl)).symm)
  rw [hplace]
  exact isHeader_place _ _

/-- The types are defined where they are the usual ones. -/
theorem Completed.typesDefined (h : Completed s target now d outcome d' plan files)
    (hok : outcome.result = .ok summary) (hplan : plan.constants.moduleName = s.options.moduleName)
    (husual : AreUsual target.types s.options.moduleName) : TypesDefined s.options.moduleName target summary d' := by
  have htypes := husual.areTypeNames
  obtain ⟨r, -, hpath, hread⟩ := h.read_commonHeader hok
  have hreal : Introduces target.types.real (headerText plan target.types) :=
    introduces_real htypes (by rw [husual.real]; decide)
  refine ⟨headerText plan target.types, hpath ▸ hread, fun r hr _ => ?_⟩
  obtain ⟨a, -, -, text, -, hread⟩ := h.exists_artifact hok hr
  refine ⟨text, hread, fun T hT _ => ?_⟩
  simp only [List.mem_cons, List.not_mem_nil, or_false] at hT
  rcases hT with rfl | rfl | rfl
  · exact .inr hreal
  · rcases husual.int with hint | hint | ⟨owner, hint⟩
    · exact .inl hint
    · exact .inr (hint.trans husual.real.symm ▸ hreal)
    · rw [hint, ← hplan]
      exact .inr (introduces_typeName htypes owner)
  · exact .inr (husual.real ▸ hreal)

/-- The types are the usual ones where they are defined. -/
theorem Completed.areUsual (h : Completed s target now d outcome d' plan files) (hok : outcome.result = .ok summary)
    (hplan : plan.constants.moduleName = s.options.moduleName) (htypes : AreTypeNames target.types)
    (hnames : ∀ f ∈ prototypes plan, isIdentifier f.name = true)
    (hdefined : TypesDefined s.options.moduleName target summary d') : AreUsual target.types s.options.moduleName := by
  obtain ⟨header, hheader, hall⟩ := hdefined
  obtain ⟨r, hr, hpath, hread⟩ := h.read_commonHeader hok
  rw [hpath] at hread
  obtain rfl : header = headerText plan target.types :=
    String.toByteArray_inj.1 (Except.ok.inj (hheader.symm.trans hread))
  have hreal : target.types.real = "real_t" := by
    obtain ⟨r, hr, hpath, text, hread, huses⟩ := h.exists_accessor hok
    obtain ⟨text', hread', hall⟩ := hall r hr (.inl hpath)
    obtain rfl : text' = text := String.toByteArray_inj.1 (Except.ok.inj (hread'.symm.trans hread))
    have hintroduces := (hall "real_t" (by simp) huses).resolve_left (by decide)
    exact real_of_known htypes.real (known_of_introduces htypes hnames (by decide) hintroduces)
  refine ⟨hreal, ?_⟩
  obtain ⟨text, hread', hall⟩ := hall r hr (.inl (hpath ▸ isHeader_place _ _))
  rw [hpath] at hread'
  obtain rfl : text = headerText plan target.types :=
    String.toByteArray_inj.1 (Except.ok.inj (hread'.symm.trans hread))
  rcases htypes.int with hint | hint
  · rcases hall target.types.int (by simp) (uses_int htypes hnames) with hbuiltin | hintroduces
    · exact .inl hbuiltin
    · rcases known_of_introduces htypes hnames hint hintroduces with hword | ⟨owner, hname⟩
      · exact .inr (.inl (eq_of_word_mem (by decide) (hreal ▸ hword)))
      · exact .inr (.inr ⟨owner, hplan ▸ hname⟩)
  · exact .inl hint

/-- The types that the C files of an export use are defined if they are the usual ones: the real type is `real_t`, and
the integer type is one that C has, `real_t` or a struct. Where the types and the model have names that C can take, they
are defined only then. -/
theorem types_defined_iff (hs : s.Coherent) (h : exportOn s target now d = (outcome, d'))
    (hok : outcome.result = .ok summary) :
    (AreUsual target.types s.options.moduleName → TypesDefined s.options.moduleName target summary d') ∧
      (AreTypeNames target.types → isIdentifier s.problem.model.rhs = true →
        (TypesDefined s.options.moduleName target summary d' → AreUsual target.types s.options.moduleName)) := by
  obtain ⟨plan, files, hcompleted⟩ := completed_of_ok hs h hok
  obtain ⟨g, k, -, rfl, -⟩ := Plan.resolve_assemble (hcompleted.resolve hs)
  exact ⟨hcompleted.typesDefined hok rfl, fun htypes hrhs =>
    hcompleted.areUsual hok rfl htypes ((isIdentifier_names_iff _ _ _ _).2 hrhs)⟩

end

/-- An export of the small problem into the working directory, where there is nothing. -/
theorem exists_export_smallProblem (types : TypeNames) : ∃ outcome d' summary,
    exportOn { problem := smallProblem, options := {} } { dir := ⟨""⟩, types } ⟨0, 0, 0⟩ {} = (outcome, d') ∧
      outcome.result = .ok summary := by
  have hsummary : ∃ summary, (exportOn { problem := smallProblem, options := {} } { dir := ⟨""⟩, types } ⟨0, 0, 0⟩
      {}).1.result = .ok summary :=
    exists_summary_empty (Session.coherent_of_none rfl) (by rfl) ⟨_, _, by rfl⟩ rfl rfl rfl _
  obtain ⟨summary, hok⟩ := hsummary
  rcases h : exportOn { problem := smallProblem, options := {} } { dir := ⟨""⟩, types } ⟨0, 0, 0⟩ {} with ⟨outcome, d'⟩
  rw [h] at hok
  exact ⟨outcome, d', summary, rfl, hok⟩

theorem types_defined_iff_smallProblem : ∃ outcome d' summary,
    exportOn { problem := smallProblem, options := {} } { dir := ⟨""⟩ } ⟨0, 0, 0⟩ {} = (outcome, d') ∧
      outcome.result = .ok summary ∧ TypesDefined .standard { dir := ⟨""⟩ } summary d' := by
  obtain ⟨outcome, d', summary, h, hok⟩ := exists_export_smallProblem {}
  exact ⟨outcome, d', summary, h, hok,
    (types_defined_iff (Session.coherent_of_none rfl) h hok).1 ⟨rfl, .inl (by decide)⟩⟩

/-- With other types that C can take they are not defined. -/
theorem exists_undefined {types : TypeNames} (htypes : AreTypeNames types) (hother : ¬AreUsual types .standard) :
    ∃ outcome d' summary,
      exportOn { problem := smallProblem, options := {} } { dir := ⟨""⟩, types } ⟨0, 0, 0⟩ {} = (outcome, d') ∧
        outcome.result = .ok summary ∧ ¬TypesDefined .standard { dir := ⟨""⟩, types } summary d' := by
  obtain ⟨outcome, d', summary, h, hok⟩ := exists_export_smallProblem types
  have hs : Session.Coherent { problem := smallProblem, options := {} } := Session.coherent_of_none rfl
  obtain ⟨plan, files, hcompleted⟩ := completed_of_ok hs h hok
  obtain ⟨g, k, -, rfl, -⟩ := Plan.resolve_assemble (hcompleted.resolve hs)
  have hnames := (isIdentifier_names_iff smallProblem {} k g).2 (by decide)
  exact ⟨outcome, d', summary, h, hok, fun hdefined => hother (hcompleted.areUsual hok rfl htypes hnames hdefined)⟩

/-- The real type `double`, and the integer type `int32_t`: the header of the auxiliary functions uses `real_t`, the
common header `int32_t`, and neither is introduced. -/
theorem undefined_types_smallProblem :
    (∃ outcome d' summary,
      exportOn { problem := smallProblem, options := {} } { dir := ⟨""⟩, types := { real := "double" } } ⟨0, 0, 0⟩ {} =
        (outcome, d') ∧ outcome.result = .ok summary ∧
        ¬TypesDefined .standard { dir := ⟨""⟩, types := { real := "double" } } summary d') ∧
    ∃ outcome d' summary,
      exportOn { problem := smallProblem, options := {} } { dir := ⟨""⟩, types := { int := "int32_t" } } ⟨0, 0, 0⟩ {} =
        (outcome, d') ∧ outcome.result = .ok summary ∧
        ¬TypesDefined .standard { dir := ⟨""⟩, types := { int := "int32_t" } } summary d' := by
  constructor
  · exact exists_undefined ⟨by decide, by decide⟩ fun h => absurd h.real (by decide)
  · refine exists_undefined ⟨by decide, by decide⟩ fun h => ?_
    rcases h.int with hint | hint | ⟨owner, hint⟩
    · exact absurd hint (by decide)
    · exact absurd hint (by decide)
    · cases owner <;> exact absurd hint (by decide +kernel)

end Export

end ControlCodegen
