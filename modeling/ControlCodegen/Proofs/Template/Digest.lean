import ControlCodegen.Proofs.Template.Source

/-!
# `Template.Digest`: what the templates of C files refer to

* `Name`, `name?` : a word that begins with the name of the module, or one that does not depend on it.
* `mentions?`, `functions?`, `externals?` : the variables, the functions of the module and the other functions in a
  template.
* `mem_accesses`, `mem_argumentLists` : what they say of the files of a module.
* `copied`, `places`, `mentions`, `functions`, `externals` : the templates of C files and what they refer to.
* `Digest`, `exists_digest` : they do.
-/

namespace ControlCodegen.Template

open C C.Preprocessor Text

set_option autoImplicit false

/-! ## Names -/

/-- A word of a template. -/
inductive Name where
  /-- The name of the module, and what follows it. -/
  | ofModule (suffix : List Char)
  | plain (cs : List Char)
  deriving DecidableEq, Repr

/-- The word in the files of a module. -/
def Name.spell (m : List Char) : Name → List Char
  | ofModule suffix => m ++ suffix
  | plain cs => cs

/-- A word with the name of the module at its start, or one without places. -/
def name? : List Piece → Option Name
  | .word place :: w => if place = "MODULE_NAME" then (chars? w).map .ofModule else none
  | w => (chars? w).map .plain

theorem spell_of_name? {v : String → List Char} {w : List Piece} {n : Name} (h : name? w = some n) :
    fillWord v w = n.spell (v "MODULE_NAME") := by
  unfold name? at h
  split at h
  · split at h
    · rename_i hplace
      subst hplace
      obtain ⟨cs, hcs, rfl⟩ := Option.map_eq_some_iff.1 h
      exact congrArg (v "MODULE_NAME" ++ ·) (chars?_fill hcs)
    · cases h
  · obtain ⟨cs, hcs, rfl⟩ := Option.map_eq_some_iff.1 h
    exact chars?_fill hcs

theorem exists_of_mapM {α β : Type} {f : α → Option β} {as : List α} {bs : List β} (h : as.mapM f = some bs) :
    (∀ a ∈ as, ∃ b ∈ bs, f a = some b) ∧ ∀ b ∈ bs, ∃ a ∈ as, f a = some b := by
  induction as generalizing bs with
  | nil =>
    obtain rfl := Option.some.inj h
    exact ⟨fun a ha => absurd ha List.not_mem_nil, fun b hb => absurd hb List.not_mem_nil⟩
  | cons a as ih =>
    rw [List.mapM_cons] at h
    obtain ⟨b, hb, h⟩ := Option.bind_eq_some_iff.1 h
    obtain ⟨bs', hbs, h⟩ := Option.bind_eq_some_iff.1 h
    obtain rfl := Option.some.inj h
    obtain ⟨hleft, hright⟩ := ih hbs
    refine ⟨List.forall_mem_cons.2 ⟨⟨b, List.mem_cons_self, hb⟩, fun a ha => ?_⟩,
      List.forall_mem_cons.2 ⟨⟨a, List.mem_cons_self, hb⟩, fun b hb => ?_⟩⟩
    · obtain ⟨b, hb, hab⟩ := hleft a ha
      exact ⟨b, List.mem_cons_of_mem _ hb, hab⟩
    · obtain ⟨a, ha, hab⟩ := hright b hb
      exact ⟨a, List.mem_cons_of_mem _ ha, hab⟩

/-! ## Variables -/

/-- What follows the module in the name of the variables. -/
def variablesSuffix : List Char := ['V', 'a', 'r', 'i', 'a', 'b', 'l', 'e', 's']

/-- A member of a struct under its guards. -/
def access? (x : Guarded Piece (List Piece × List Piece)) : Option (Guarded Piece (Name × List Char)) := do
  let struct ← name? x.item.1
  let member ← chars? x.item.2
  return ⟨x.guards, (struct, member)⟩

/-- Whether it does not depend on the name of the module if a name is that of the variables. -/
def Name.isClear : Name → Bool
  | ofModule _ => true
  | plain cs => !variablesSuffix.isSuffixOf cs

/-- A member of the variables under its guards. -/
abbrev Mention := Guarded Piece (List Char)

def mention? (x : Guarded Piece (Name × List Char)) : Option Mention :=
  if x.item.1 = .ofModule variablesSuffix then some ⟨x.guards, x.item.2⟩ else none

/-- The members of the variables in a text. -/
def mentions? (source : Source Piece) : Option (List Mention) := do
  let found ← source.accesses.mapM access?
  if found.all fun x => x.item.1.isClear then return found.filterMap mention? else none

theorem spell_eq_variables_iff {n : Name} (h : n.isClear = true) {m : List Char} :
    n.spell m = m ++ variablesSuffix ↔ n = .ofModule variablesSuffix := by
  cases n with
  | ofModule suffix =>
    unfold Name.spell
    rw [List.append_cancel_left_eq, Name.ofModule.injEq]
  | plain cs =>
    refine iff_of_false (fun hcs => ?_) Name.noConfusion
    have hsuffix : variablesSuffix.isSuffixOf cs = true := List.isSuffixOf_iff_suffix.2 ⟨m, hcs.symm⟩
    have hclear : (!variablesSuffix.isSuffixOf cs) = true := h
    rw [hsuffix] at hclear
    cases hclear

theorem fill_of_access? {v : String → List Char} {x : Guarded Piece (List Piece × List Piece)}
    {y : Guarded Piece (Name × List Char)} (h : access? x = some y) :
    x.fill v (Prod.map (fillWord v) (fillWord v)) = y.fill v fun a => (a.1.spell (v "MODULE_NAME"), a.2) := by
  obtain ⟨struct, hstruct, h⟩ := Option.bind_eq_some_iff.1 h
  obtain ⟨member, hmember, h⟩ := Option.bind_eq_some_iff.1 h
  obtain rfl := Option.some.inj h
  have hitem : Prod.map (fillWord v) (fillWord v) x.item = (struct.spell (v "MODULE_NAME"), member) :=
    Prod.ext (spell_of_name? hstruct) (chars?_fill hmember)
  exact congrArg (Guarded.mk _) hitem

/-- The members of the variables in a file are those that its template mentions. -/
theorem mem_accesses {v : String → List Char} {source : Source Piece} {mentions : List Mention}
    (h : mentions? source = some mentions) {x : Guarded Char (List Char × List Char)} :
    (x ∈ (source.fill v).accesses ∧ x.item.1 = v "MODULE_NAME" ++ variablesSuffix) ↔
      ∃ y ∈ mentions, x = y.fill v fun member => (v "MODULE_NAME" ++ variablesSuffix, member) := by
  obtain ⟨found, hfound, h⟩ := Option.bind_eq_some_iff.1 h
  split at h
  · rename_i hclear
    rw [List.all_eq_true] at hclear
    obtain rfl := Option.some.inj h
    obtain ⟨hleft, hright⟩ := exists_of_mapM hfound
    rw [Source.accesses_fill]
    constructor
    · rintro ⟨hx, hstruct⟩
      obtain ⟨a, ha, rfl⟩ := List.mem_map.1 hx
      obtain ⟨⟨guards, n, member⟩, hy, hay⟩ := hleft a ha
      rw [fill_of_access? hay] at hstruct ⊢
      obtain rfl := (spell_eq_variables_iff (hclear _ hy)).1 hstruct
      exact ⟨⟨guards, member⟩, List.mem_filterMap.2 ⟨_, hy, if_pos rfl⟩, rfl⟩
    · rintro ⟨y, hy, rfl⟩
      obtain ⟨⟨guards, n, member⟩, hz, hzy⟩ := List.mem_filterMap.1 hy
      unfold mention? at hzy
      split at hzy
      · rename_i hname
        obtain rfl := Option.some.inj hzy
        obtain rfl : n = .ofModule variablesSuffix := hname
        obtain ⟨a, ha, haz⟩ := hright _ hz
        exact ⟨List.mem_map.2 ⟨a, ha, fill_of_access? haz⟩, rfl⟩
      · cases hzy
  · cases h

/-! ## Functions -/

/-- A name with arguments: the braces that are open and the number of arguments. -/
def argumentList? (a : ArgumentList Piece) : Option (Name × Nat × Nat) := (name? a.name).map (·, a.braces, a.arguments)

def Name.suffix? : Name → Option (List Char)
  | ofModule suffix => some suffix
  | plain _ => none

def Name.plain? : Name → Option (List Char)
  | ofModule _ => none
  | plain cs => some cs

/-- The functions of the module in a text, by what follows the module in their names. -/
def functions? (source : Source Piece) : Option (List (List Char × Nat × Nat)) :=
  (source.argumentLists.mapM argumentList?).map fun found => found.filterMap fun a => a.1.suffix?.map (·, a.2)

/-- The other names with arguments. -/
def externals? (source : Source Piece) : Option (List (List Char)) :=
  (source.argumentLists.mapM argumentList?).map fun found => (found.filterMap fun a => a.1.plain?).eraseDups

theorem fill_of_argumentList? {v : String → List Char} {a : ArgumentList Piece} {b : Name × Nat × Nat}
    (h : argumentList? a = some b) : a.fill v = ⟨b.1.spell (v "MODULE_NAME"), b.2.1, b.2.2⟩ := by
  obtain ⟨n, hn, rfl⟩ := Option.map_eq_some_iff.1 h
  unfold ArgumentList.fill
  rw [spell_of_name? hn]

/-- The names with arguments in a file are those of its template. -/
theorem mem_argumentLists {v : String → List Char} {source : Source Piece} {functions : List (List Char × Nat × Nat)}
    {externals : List (List Char)} (hfunctions : functions? source = some functions)
    (hexternals : externals? source = some externals) {a : ArgumentList Char} (ha : a ∈ (source.fill v).argumentLists) :
    (∃ f ∈ functions, a = ⟨v "MODULE_NAME" ++ f.1, f.2.1, f.2.2⟩) ∨ a.name ∈ externals := by
  obtain ⟨found, hfound, rfl⟩ := Option.map_eq_some_iff.1 hfunctions
  obtain ⟨found', hfound', rfl⟩ := Option.map_eq_some_iff.1 hexternals
  obtain rfl := Option.some.inj (hfound.symm.trans hfound')
  rw [Source.argumentLists_fill] at ha
  obtain ⟨c, hc, rfl⟩ := List.mem_map.1 ha
  obtain ⟨b, hb, hcb⟩ := (exists_of_mapM hfound).1 c hc
  rw [fill_of_argumentList? hcb]
  obtain ⟨n, k⟩ := b
  cases n with
  | ofModule suffix => exact .inl ⟨(suffix, k), List.mem_filterMap.2 ⟨_, hb, rfl⟩, rfl⟩
  | plain cs => exact .inr (List.mem_eraseDups.2 (List.mem_filterMap.2 ⟨_, hb, rfl⟩))

/-- The functions of the module in a template are there in its files. -/
theorem mem_argumentLists_of_mem {v : String → List Char} {source : Source Piece}
    {functions : List (List Char × Nat × Nat)} (hfunctions : functions? source = some functions)
    {f : List Char × Nat × Nat} (hf : f ∈ functions) :
    ⟨v "MODULE_NAME" ++ f.1, f.2.1, f.2.2⟩ ∈ (source.fill v).argumentLists := by
  obtain ⟨found, hfound, rfl⟩ := Option.map_eq_some_iff.1 hfunctions
  obtain ⟨⟨n, k⟩, hb, hbf⟩ := List.mem_filterMap.1 hf
  obtain ⟨suffix, hsuffix, rfl⟩ := Option.map_eq_some_iff.1 hbf
  obtain ⟨c, hc, hcb⟩ := (exists_of_mapM hfound).2 _ hb
  rw [Source.argumentLists_fill]
  refine List.mem_map.2 ⟨c, hc, ?_⟩
  rw [fill_of_argumentList? hcb]
  cases n with
  | ofModule suffix' =>
    obtain rfl := Option.some.inj hsuffix
    rfl
  | plain cs => cases hsuffix

/-! ## The templates of C files -/

/-- A macro that has to have another value than 0. -/
def whenSet (name : String) : Guard Piece := ⟨.nonzero (.name name.toList), true⟩

/-- A macro that has to differ from a number. -/
def whenOther (name : String) (n : Nat) : Guard Piece :=
  ⟨.nonzero (.operation .ne (.name name.toList) (.number n)), true⟩

section

variable {v : String → List Char} {macros : Macros} {name : String} {n : Nat}

theorem isMet_whenSet (h : macros name = some n) : ((whenSet name).fill v).isMet macros = decide (n ≠ 0) := by
  change (decide ((macros (String.ofList name.toList)).getD 0 ≠ 0) == true) = _
  rw [String.ofList_toList, h]
  exact beq_true _

theorem isMet_whenOther (h : macros name = some n) (k : Nat) :
    ((whenOther name k).fill v).isMet macros = decide (n ≠ k) := by
  change (decide ((decide ((macros (String.ofList name.toList)).getD 0 ≠ k)).toNat ≠ 0) == true) = _
  rw [String.ofList_toList, h, beq_true, Option.getD_some]
  by_cases hk : n = k <;> simp [hk]

end

/-- The places of the files that are filled in with the values of the module only. -/
def modulePlaces : List String := ["MODULE_NAME", "MODULE_PREFIX"]

/-- The dimensions and flags that the header of the S-function defines. -/
def busNames : List String :=
  ["N", "NX", "NXD", "NXA", "NU", "NOD", "NY", "NYN", "INITIAL_STATE_FIXED", "WEIGHTING_MATRICES_TYPE",
    "HARDCODED_CONSTRAINT_VALUES", "USE_ARRIVAL_COST", "COMPUTE_COVARIANCE_MATRIX"]

/-- The places of the header of the S-function. -/
def sFunctionPlaces : List String := modulePlaces ++ (busNames ++ ["QP_SOLVER"])

/-- The templates of C files that are filled in with names and numerals. -/
def copied : List Template :=
  [.auxiliaryHeader, .auxiliarySource, .testProgram, .mexWrapper, .mexExactWrapper, .sFunctionHeader, .sFunctionSource]

/-- The places of a C file. -/
def places : Template → List String
  | .sFunctionHeader => sFunctionPlaces
  | _ => modulePlaces

/-- The members of the variables that a C file mentions. -/
def mentions : Template → List Mention
  | .auxiliarySource => [⟨[], "x".toList⟩, ⟨[], "u".toList⟩, ⟨[], "x".toList⟩, ⟨[], "u".toList⟩]
  | .testProgram =>
    [⟨[], "x".toList⟩, ⟨[], "u".toList⟩, ⟨[], "y".toList⟩, ⟨[], "yN".toList⟩,
      ⟨[whenSet "ACADO_INITIAL_STATE_FIXED"], "x0".toList⟩]
  | .mexWrapper =>
    [⟨[], "x".toList⟩, ⟨[], "u".toList⟩, ⟨[whenSet "ACADO_NOD"], "od".toList⟩, ⟨[], "y".toList⟩, ⟨[], "yN".toList⟩,
      ⟨[whenSet "ACADO_INITIAL_STATE_FIXED"], "x0".toList⟩, ⟨[], "x".toList⟩, ⟨[], "u".toList⟩]
  | .mexExactWrapper =>
    [⟨[], "x".toList⟩, ⟨[], "u".toList⟩, ⟨[whenSet "ACADO_NOD"], "od".toList⟩, ⟨[], "y".toList⟩, ⟨[], "yN".toList⟩,
      ⟨[], "mu".toList⟩, ⟨[whenSet "ACADO_INITIAL_STATE_FIXED"], "x0".toList⟩, ⟨[], "x".toList⟩, ⟨[], "u".toList⟩,
      ⟨[], "mu".toList⟩]
  | .sFunctionSource =>
    [⟨[], "x".toList⟩, ⟨[], "u".toList⟩, ⟨[whenSet "SFUN_NOD"], "od".toList⟩, ⟨[], "y".toList⟩, ⟨[], "yN".toList⟩,
      ⟨[whenOther "SFUN_WEIGHTING_MATRICES_TYPE" 0], "W".toList⟩,
      ⟨[whenOther "SFUN_WEIGHTING_MATRICES_TYPE" 0], "WN".toList⟩, ⟨[whenSet "SFUN_INITIAL_STATE_FIXED"], "x0".toList⟩,
      ⟨[whenSet "SFUN_USE_ARRIVAL_COST"], "xAC".toList⟩, ⟨[whenSet "SFUN_USE_ARRIVAL_COST"], "SAC".toList⟩,
      ⟨[whenSet "SFUN_USE_ARRIVAL_COST"], "WL".toList⟩, ⟨[whenSet "SFUN_COMPUTE_COVARIANCE_MATRIX"], "sigmaN".toList⟩,
      ⟨[], "x".toList⟩, ⟨[], "u".toList⟩]
  | _ => []

/-- The functions of the module in a C file: what follows the module in the name, the braces that are open and the number
of arguments. -/
def functions : Template → List (String × Nat × Nat)
  | .auxiliaryHeader =>
    [("_getVariablesX", 1, 0), ("_getVariablesU", 1, 0), ("_printDifferentialVariables", 1, 0),
      ("_printControlVariables", 1, 0), ("_printHeader", 1, 0), ("_tic", 1, 1), ("_toc", 1, 1)]
  | .auxiliarySource =>
    [("_getVariablesX", 0, 0), ("_getVariablesU", 0, 0), ("_printDifferentialVariables", 0, 0),
      ("_printControlVariables", 0, 0), ("_printHeader", 0, 0), ("_tic", 0, 1), ("_toc", 0, 1), ("_tic", 0, 1),
      ("_toc", 0, 1), ("_tic", 0, 1), ("_toc", 0, 1)]
  | .testProgram =>
    [("_initializeSolver", 1, 0), ("_printHeader", 1, 0), ("_preparationStep", 1, 0), ("_tic", 1, 1),
      ("_feedbackStep", 2, 0), ("_getKKT", 2, 0), ("_shiftStates", 2, 3), ("_shiftControls", 2, 1),
      ("_preparationStep", 2, 0), ("_toc", 1, 1), ("_printDifferentialVariables", 1, 0), ("_printControlVariables", 1, 0)]
  | .mexWrapper | .mexExactWrapper =>
    [("_initializeSolver", 2, 0), ("_tic", 1, 1), ("_preparationStep", 1, 0), ("_feedbackStep", 1, 0), ("_getKKT", 1, 0),
      ("_getObjective", 1, 0), ("_toc", 1, 1)]
  | .sFunctionSource =>
    [("_initializeSolver", 1, 0), ("_tic", 1, 1), ("_preparationStep", 1, 0), ("_feedbackStep", 1, 0), ("_getKKT", 1, 0),
      ("_getObjective", 1, 0), ("_toc", 1, 1)]
  | _ => []

/-- The other names with arguments in a C file: functions of the file or of a library, and keywords. -/
def externals : Template → List String
  | .auxiliarySource =>
    ["printf", "for", "QueryPerformanceFrequency", "QueryPerformanceCounter", "return", "mach_absolute_time",
      "mach_timebase_info", "clock_gettime", "if"]
  | .testProgram => ["main", "for", "if", "printf"]
  | .mexWrapper | .mexExactWrapper =>
    ["copy_field", "mxGetField", "if", "mexErrMsgIdAndTxt", "mxGetM", "mxGetN", "for", "mxGetPr", "store_field",
      "mxCreateDoubleMatrix", "mxSetField", "mexFunction", "mxIsStruct", "memset", "sizeof", "mxCreateStructMatrix",
      "mxCreateDoubleScalar"]
  | .sFunctionSource =>
    ["mdlInitializeSizes", "ssSetNumSFcnParams", "if", "ssGetNumSFcnParams", "ssGetSFcnParamsCount",
      "ssSetNumContStates", "ssSetNumDiscStates", "ssSetNumInputPorts", "ssSetInputPortWidth", "sizeof",
      "ssSetInputPortRequiredContiguous", "ssSetInputPortDirectFeedThrough", "ssSetNumOutputPorts",
      "ssSetOutputPortWidth", "ssSetNumSampleTimes", "ssSetOptions", "mdlInitializeSampleTimes", "ssSetSampleTime",
      "ssSetOffsetTime", "mdlStart", "memset", "mdlOutputs", "ssGetInputPortSignal", "ssGetOutputPortRealSignal",
      "memcpy", "mdlTerminate"]
  | _ => []

/-! ## Digests -/

/-- What is read of a template has what the template refers to. -/
structure Digest (t : Template) (source : Source Piece) : Prop where
  read : t.source? = some source
  places : ∀ name, Piece.word name ∈ t.outline → name ∈ t.places
  mentions : mentions? source = some t.mentions
  functions : functions? source = some (t.functions.map fun f => (f.1.toList, f.2))
  externals : externals? source = some (t.externals.map String.toList)

/-- Whether lines have such a digest. -/
def checkDigest (ls : List (List Char)) (places : List String) (mentions : List Mention) (names : List (List Char))
    (counts : List (Nat × Nat)) (externals : List (List Char)) : Bool :=
  match Source.read (outlineOf ls) with
  | none => false
  | some source =>
    (wordsOf (outlineOf ls)).all (· ∈ places) && decide (mentions? source = some mentions) &&
      decide (functions? source = some (names.zip counts)) && decide (externals? source = some externals)

theorem digest_of_spells {t : Template} {ls names es : List (List Char)} (hls : Spells t.lines ls)
    (hnames : Spells (t.functions.map Prod.fst) names) (hes : Spells t.externals es)
    (h : checkDigest ls t.places t.mentions names (t.functions.map Prod.snd) es = true) :
    ∃ source, Digest t source := by
  unfold checkDigest at h
  split at h
  · cases h
  · rename_i source hsource
    simp only [Bool.and_eq_true, decide_eq_true_eq, List.all_eq_true] at h
    obtain ⟨⟨⟨hplaces, hmentions⟩, hfunctions⟩, hexternals⟩ := h
    refine ⟨source, (source?_of_spells hls).trans hsource, fun name hname => ?_, hmentions, ?_, ?_⟩
    · unfold outline at hname
      rw [hls.map_toList] at hname
      exact hplaces name (List.mem_filterMap.2 ⟨_, hname, rfl⟩)
    · rw [hfunctions, ← hnames.map_toList, List.map_map, List.zip_map']
      rfl
    · rw [hexternals, hes.map_toList]

set_option maxRecDepth 100000

theorem digest_auxiliaryHeader : ∃ source, Digest .auxiliaryHeader source := by
  apply digest_of_spells
  · simp only [lines, auxiliaryHeaderLines]
    repeat' (first | exact Spells.nil | apply Spells.cons rfl)
  · simp only [functions, List.map]
    repeat' (first | exact Spells.nil | apply Spells.cons rfl)
  · exact Spells.nil
  · decide +kernel

theorem digest_auxiliarySource : ∃ source, Digest .auxiliarySource source := by
  apply digest_of_spells
  · simp only [lines, auxiliarySourceLines]
    repeat' (first | exact Spells.nil | apply Spells.cons rfl)
  · simp only [functions, List.map]
    repeat' (first | exact Spells.nil | apply Spells.cons rfl)
  · simp only [externals]
    repeat' (first | exact Spells.nil | apply Spells.cons rfl)
  · decide +kernel

theorem digest_testProgram : ∃ source, Digest .testProgram source := by
  apply digest_of_spells
  · simp only [lines, testProgramLines]
    repeat' (first | exact Spells.nil | apply Spells.cons rfl)
  · simp only [functions, List.map]
    repeat' (first | exact Spells.nil | apply Spells.cons rfl)
  · simp only [externals]
    repeat' (first | exact Spells.nil | apply Spells.cons rfl)
  · decide +kernel

theorem digest_mexWrapper : ∃ source, Digest .mexWrapper source := by
  apply digest_of_spells
  · simp only [lines, mexWrapperLines, Bool.false_eq_true, if_false, List.cons_append, List.nil_append]
    repeat' (first | exact Spells.nil | apply Spells.cons rfl)
  · simp only [functions, List.map]
    repeat' (first | exact Spells.nil | apply Spells.cons rfl)
  · simp only [externals]
    repeat' (first | exact Spells.nil | apply Spells.cons rfl)
  · decide +kernel

theorem digest_mexExactWrapper : ∃ source, Digest .mexExactWrapper source := by
  apply digest_of_spells
  · simp only [lines, mexWrapperLines, if_true, List.cons_append, List.nil_append]
    repeat' (first | exact Spells.nil | apply Spells.cons rfl)
  · simp only [functions, List.map]
    repeat' (first | exact Spells.nil | apply Spells.cons rfl)
  · simp only [externals]
    repeat' (first | exact Spells.nil | apply Spells.cons rfl)
  · decide +kernel

theorem digest_sFunctionHeader : ∃ source, Digest .sFunctionHeader source := by
  apply digest_of_spells
  · simp only [lines, sFunctionHeaderLines]
    repeat' (first | exact Spells.nil | apply Spells.cons rfl)
  · exact Spells.nil
  · exact Spells.nil
  · decide +kernel

theorem digest_sFunctionSource : ∃ source, Digest .sFunctionSource source := by
  apply digest_of_spells
  · simp only [lines, sFunctionSourceLines]
    repeat' (first | exact Spells.nil | apply Spells.cons rfl)
  · simp only [functions, List.map]
    repeat' (first | exact Spells.nil | apply Spells.cons rfl)
  · simp only [externals]
    repeat' (first | exact Spells.nil | apply Spells.cons rfl)
  · decide +kernel

/-- Every template of C files has its digest. -/
theorem exists_digest {t : Template} (h : t ∈ copied) : ∃ source, Digest t source := by
  simp only [copied, List.mem_cons, List.not_mem_nil, or_false] at h
  rcases h with rfl | rfl | rfl | rfl | rfl | rfl | rfl
  · exact digest_auxiliaryHeader
  · exact digest_auxiliarySource
  · exact digest_testProgram
  · exact digest_mexWrapper
  · exact digest_mexExactWrapper
  · exact digest_sFunctionHeader
  · exact digest_sFunctionSource

end ControlCodegen.Template
