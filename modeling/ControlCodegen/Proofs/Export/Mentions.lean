import ControlCodegen.Proofs.Export.Buses
import ControlCodegen.Proofs.Export.References

/-!
# `Export.Mentions`: the variables that the filled-in files refer to

* `Exported` : macros that have the values of the exported headers.
* `Refers` : a text refers to a variable where it is compiled.
* `DeclaredVariables` : which variables the common header declares.
* `MembersDeclared`, `template_members_declared_iff` : all of them are declared if and only if there are controls, and
  references where they are used, and multipliers where the exact MEX wrapper is written.

The common header leaves out the variables without elements. The files guard the online data with a macro, but not the
controls and not the references.
-/

namespace ControlCodegen.Export

open C C.Preprocessor Template Text

set_option autoImplicit false

/-! ## Macros -/

/-- Macros with the values of the common header and of the header of the S-function. Others, such as those of the
platform, may have any value. -/
structure Exported (plan : Plan) (o : Options) (target : Target) (macros : Macros) : Prop where
  common : ∀ d ∈ plan.constants.macros, macros d.fullName = some d.value
  bus : ∀ path text header, IsHeader path → Writes plan o target .simulinkInterface path text →
    Source.read text.toList = some header → ∀ name n, header.macros name = some n → macros name = some n

section

variable {plan : Plan} {o : Options} {target : Target} {macros : Macros}

theorem Exported.value (h : Exported plan o target macros) {name : String} {n : Nat}
    (hvalue : plan.constants.value? name = some n) : macros ("ACADO_" ++ name) = some n := by
  obtain ⟨d, hd, rfl⟩ := Option.map_eq_some_iff.1 hvalue
  have hname : d.name = name := by simpa using List.find?_some hd
  rw [← hname]
  exact h.common d (List.mem_of_find?_eq_some hd)

theorem BusMacros.mono {c : Constants} {macros' : Macros} (h : BusMacros c macros)
    (hmacros : ∀ name n, macros name = some n → macros' name = some n) : BusMacros c macros' :=
  ⟨hmacros _ _ h.horizon, hmacros _ _ h.nx, hmacros _ _ h.nu, hmacros _ _ h.nod, hmacros _ _ h.ny, hmacros _ _ h.nyn,
    hmacros _ _ h.fixedInitialState, hmacros _ _ h.weighting, hmacros _ _ h.arrivalCost, hmacros _ _ h.covarianceMatrix⟩

/-- The header of the S-function is written beside its source. -/
theorem Exported.busMacros (h : Exported plan o target macros) (hinterface : o.simulinkInterface = true)
    (hbackend : o.qpSolver.hasSFunction = true) {subs : Substitutions}
    (hsubs : simulinkSubstitutions plan.constants = .ok subs) : BusMacros plan.constants macros := by
  have hfills : Fills plan.constants.moduleName .sFunctionHeader subs :=
    fills_simulink (by decide) (List.Subset.refl _) hsubs
  obtain ⟨header, hheader⟩ := exists_busHeader
  obtain ⟨text, htext⟩ := hfills.exists_render
  have hcopied : Copied plan o .simulinkInterface _ .sFunctionHeader subs := .sFunctionHeader hinterface hbackend hsubs
  exact (Export.busMacros hheader (busPlaces hsubs)).mono
    (h.bus _ text _ (isHeader_place _ _) (writes_of_copied hcopied htext) (read_render htext hfills.words hheader.read))

end

/-! ## There are such macros -/

section

variable {plan : Plan} {o : Options} {target : Target}

/-- The value of a macro of the common header, by its full name. -/
def commonMacros (c : Constants) : Macros := fun name => (c.macros.find? fun d => d.fullName = name).map Constants.Macro.value

theorem commonMacros_of_mem {c : Constants} {d : Constants.Macro} (h : d ∈ c.macros) :
    commonMacros c d.fullName = some d.value := by
  have hname : ∀ d' : Constants.Macro, d'.fullName = d.fullName ↔ d'.name = d.name := by
    intro d'
    change "ACADO_" ++ d'.name = "ACADO_" ++ d.name ↔ _
    rw [← String.toList_inj, String.toList_append, String.toList_append, List.append_cancel_left_eq, String.toList_inj]
  unfold commonMacros
  simp only [hname]
  exact Constants.value?_of_mem h

/-- The macros of the S-function have other names. -/
theorem commonMacros_eq_none {c : Constants} {v : String → List Char} {header : Source Piece} (hheader : BusHeader header)
    {name : String} {n : Nat} (h : (header.fill v).macros name = some n) : commonMacros c name = none := by
  have hhead : ∀ d ∈ (header.fill v).definitions, d.1.head? = some 'S' := by
    rw [hheader.definitions_fill, List.forall_mem_append, List.forall_mem_map, List.forall_mem_singleton]
    refine ⟨fun name _ => ?_, rfl⟩
    rw [String.toList_append]
    rfl
  obtain ⟨d, hd, -⟩ := Option.bind_eq_some_iff.1 h
  have hname : d.1 = name.toList := by simpa using List.find?_some hd
  have hstart := hhead d (List.mem_of_find?_eq_some hd)
  rw [hname] at hstart
  unfold commonMacros
  rw [Option.map_eq_none_iff, List.find?_eq_none]
  intro d' _ hfull
  have hcommon : name = "ACADO_" ++ d'.name := (of_decide_eq_true hfull).symm
  have hother : ("ACADO_" ++ d'.name).toList.head? = some 'A' := by
    rw [String.toList_append]
    rfl
  rw [hcommon, hother] at hstart
  exact absurd hstart (by decide)

/-- The header of the S-function has the values that fill it. -/
theorem header_of_writes {path : Files.Path} {text : String} {header : Source Char} (hpath : IsHeader path)
    (hwrites : Writes plan o target .simulinkInterface path text) (hread : Source.read text.toList = some header)
    {template : Source Piece} (htemplate : BusHeader template) :
    ∃ subs, simulinkSubstitutions plan.constants = .ok subs ∧ header = template.fill (chars subs) := by
  obtain ⟨name, t, subs, hcopied, rfl, htext⟩ := copied_of_writes (by decide) (.inl hpath) hwrites
  cases hcopied with
  | sFunctionHeader _ _ hsubs =>
    have hfill := read_render htext (allWords_simulink hsubs) htemplate.read
    exact ⟨subs, hsubs, Option.some.inj (hread.symm.trans hfill)⟩
  | sFunctionSource _ _ hsubs =>
    have hsource : IsSource (place target (plan.constants.moduleName.fileName "solver_sfunction" "c")) :=
      isSource_place _ _
    exact absurd (hpath.symm.trans hsource) (by decide)

/-- The headers do not contradict each other. -/
theorem exists_exported (plan : Plan) (o : Options) (target : Target) : ∃ macros, Exported plan o target macros := by
  obtain ⟨template, htemplate⟩ := exists_busHeader
  let bus : Macros := fun name =>
    match simulinkSubstitutions plan.constants with
    | .ok subs => (template.fill (chars subs)).macros name
    | .error _ => none
  refine ⟨fun name => (commonMacros plan.constants name).or (bus name), fun d hd => ?_, ?_⟩
  · rw [commonMacros_of_mem hd]
    rfl
  · intro path text header hpath hwrites hread name n hn
    obtain ⟨subs, hsubs, rfl⟩ := header_of_writes hpath hwrites hread htemplate
    have hbus : bus name = some n := by
      change (match simulinkSubstitutions plan.constants with
        | .ok subs => (template.fill (chars subs)).macros name
        | .error _ => none) = some n
      rw [hsubs]
      exact hn
    rw [commonMacros_eq_none htemplate hn, Option.none_or, hbus]

end

/-! ## References -/

/-- A text refers to a variable of a module, on a line that is compiled. -/
def Refers (macros : Macros) (source : Source Char) (m : ModuleName) (name : String) : Prop :=
  ((Struct.vars.instanceName m).toList, name.toList) ∈ active macros source.accesses

/-- A mention stands on a line that is compiled. -/
def IsLive (v : String → List Char) (macros : Macros) (y : Mention) : Prop :=
  ∀ g ∈ y.guards, (g.fill v).isMet macros = true

section

variable {v : String → List Char} {macros : Macros} {m : ModuleName}

theorem isActive_fill_iff {y : Mention} {f : List Char → List Char × List Char} :
    (y.fill v f).isActive macros = true ↔ IsLive v macros y := by
  have hguards : (y.fill v f).isActive macros = y.guards.all fun g => (g.fill v).isMet macros := List.all_map
  rw [hguards, List.all_eq_true]
  rfl

/-- A file refers to what its template mentions. -/
theorem refers_iff {source : Source Piece} {mentions : List Mention} (h : mentions? source = some mentions)
    (hm : v "MODULE_NAME" = m.text.toList) {name : String} :
    Refers macros (source.fill v) m name ↔ ∃ y ∈ mentions, IsLive v macros y ∧ y.item = name.toList := by
  have hinstance : (Struct.vars.instanceName m).toList = v "MODULE_NAME" ++ variablesSuffix := by
    rw [hm]
    exact String.toList_append
  unfold Refers active
  rw [hinstance, List.mem_map]
  constructor
  · rintro ⟨x, hx, hitem⟩
    obtain ⟨hx, hactive⟩ := List.mem_filter.1 hx
    obtain ⟨y, hy, rfl⟩ := (mem_accesses h).1 ⟨hx, congrArg Prod.fst hitem⟩
    exact ⟨y, hy, isActive_fill_iff.1 hactive, congrArg Prod.snd hitem⟩
  · rintro ⟨y, hy, hlive, hname⟩
    obtain ⟨hx, -⟩ := (mem_accesses (v := v) h).2 ⟨y, hy, rfl⟩
    exact ⟨_, List.mem_filter.2 ⟨hx, isActive_fill_iff.2 hlive⟩, congrArg _ hname⟩

end

/-! ## Declarations -/

/-- Which variables the common header declares. -/
structure DeclaredVariables (plan : Plan) : Prop where
  x : Declared plan (.vars, "x")
  u : Declared plan (.vars, "u") ↔ 0 < plan.constants.dims.nu
  od : plan.constants.dims.nod ≠ 0 → Declared plan (.vars, "od")
  y : Declared plan (.vars, "y") ↔ 0 < plan.constants.ny
  yN : Declared plan (.vars, "yN") ↔ 0 < plan.constants.nyn
  W : plan.constants.weighting.indicator ≠ 0 → 0 < plan.constants.ny → Declared plan (.vars, "W")
  WN : 0 < plan.constants.nyn → Declared plan (.vars, "WN")
  x0 : plan.constants.fixedInitialState.toNat ≠ 0 → Declared plan (.vars, "x0")
  arrival : plan.constants.arrivalCost.toNat ≠ 0 → ∀ name ∈ ["xAC", "SAC", "WL"], Declared plan (.vars, name)
  sigmaN : plan.constants.covarianceMatrix.toNat ≠ 0 → Declared plan (.vars, "sigmaN")
  mu : Declared plan (.vars, "mu") ↔ plan.solver.strategy.usesExactHessian = true

theorem declared_iff_of_size? {plan : Plan} {owner : Struct} {name : String} {n : Nat} (h : size? plan owner name = some n) :
    Declared plan (owner, name) ↔ 0 < n := by
  rw [declared_iff, elements_of_size? h]

/-- There are multipliers for exact Hessians only. -/
theorem declared_mu_iff {plan : Plan} : Declared plan (.vars, "mu") ↔
    plan.solver.strategy.usesExactHessian = true ∧ 0 < plan.solver.horizon * plan.solver.dims.nx := by
  cases hexact : plan.solver.strategy.usesExactHessian with
  | true =>
    rw [declared_iff_of_size? ((variableSizes plan).mu hexact)]
    exact (and_iff_right rfl).symm
  | false =>
    refine iff_of_false (fun h => ?_) (fun h => Bool.false_ne_true h.1)
    have hsize := size?_mu_eq_none hexact
    unfold size? at hsize
    rw [declared_iff, elements, hsize] at h
    exact Nat.lt_irrefl 0 h

theorem flag_of_ne_zero {b : Bool} (h : b.toNat ≠ 0) : b = true := (flag_ne_zero b).symm.trans (decide_eq_true h)

theorem declaredVariables {plan : Plan} (hshared : Shared plan) (hhorizon : 0 < plan.constants.horizon)
    (hnx : 0 < plan.constants.dims.nx) : DeclaredVariables plan := by
  have hsizes := solverSizes plan
  have hmore := variableSizes plan
  have hsquare : 0 < plan.constants.dims.nx * plan.constants.dims.nx := Nat.mul_pos hnx hnx
  rw [← hshared.horizon] at hhorizon
  rw [← hshared.dims] at hnx hsquare
  refine ⟨?_, ?_, ?_, ?_, ?_, ?_, ?_, ?_, ?_, ?_, ?_⟩
  · exact (declared_iff_of_size? hsizes.x).2 (Nat.mul_pos (Nat.succ_pos _) hnx)
  · rw [declared_iff_of_size? hsizes.u, hshared.dims]
    exact Nat.mul_pos_iff_of_pos_left hhorizon
  · intro hnod
    rw [← hshared.dims] at hnod
    exact (declared_iff_of_size? hsizes.od).2 (Nat.mul_pos (Nat.succ_pos _) (Nat.pos_of_ne_zero hnod))
  · rw [declared_iff_of_size? hsizes.y, hshared.ny]
    exact Nat.mul_pos_iff_of_pos_left hhorizon
  · rw [declared_iff_of_size? hsizes.yN, hshared.nyn]
  · intro hform hny
    rw [← hshared.ny] at hny
    refine (declared_iff_of_size? hmore.W).2 ?_
    unfold weightElements
    rw [hshared.weighting]
    cases hcase : plan.constants.weighting with
    | empty => exact absurd (congrArg Weighting.indicator hcase) hform
    | once => exact Nat.mul_pos hny hny
    | oncePerNode => exact Nat.mul_pos (Nat.mul_pos hhorizon hny) hny
  · intro hnyn
    rw [← hshared.nyn] at hnyn
    exact (declared_iff_of_size? hmore.WN).2 (Nat.mul_pos hnyn hnyn)
  · intro hfixed
    exact (declared_iff_of_size? (hsizes.x0 (hshared.fixedInitialState.trans (flag_of_ne_zero hfixed)))).2 hnx
  · intro hflag
    have harrival := hshared.arrivalCost.trans (flag_of_ne_zero hflag)
    simp only [List.forall_mem_cons, declared_iff_of_size? (hmore.xAC harrival),
      declared_iff_of_size? (hmore.SAC harrival), declared_iff_of_size? (hmore.WL harrival)]
    exact ⟨hnx, hsquare, hsquare, fun name h => absurd h List.not_mem_nil⟩
  · intro hflag
    exact (declared_iff_of_size? (hmore.sigmaN (hshared.covarianceMatrix.trans (flag_of_ne_zero hflag)))).2 hsquare
  · rw [declared_mu_iff]
    exact and_iff_left (Nat.mul_pos hhorizon hnx)

/-! ## Templates -/

/-- The variables that a file refers to are declared. -/
def AllDeclared (plan : Plan) (v : String → List Char) (macros : Macros) (t : Template) : Prop :=
  ∀ y ∈ t.mentions, IsLive v macros y → Declared plan (.vars, String.ofList y.item)

section

variable {plan : Plan} {o : Options} {target : Target} {macros : Macros} {v : String → List Char}

theorem isLive_always {item : List Char} : IsLive v macros ⟨[], item⟩ ↔ True :=
  iff_true_intro fun _ hg => absurd hg List.not_mem_nil

theorem isLive_whenSet {name : String} {n : Nat} (h : macros name = some n) {item : List Char} :
    IsLive v macros ⟨[whenSet name], item⟩ ↔ n ≠ 0 := by
  unfold IsLive
  rw [List.forall_mem_singleton, isMet_whenSet h, decide_eq_true_iff]

theorem isLive_whenOther {name : String} {n k : Nat} (h : macros name = some n) {item : List Char} :
    IsLive v macros ⟨[whenOther name k], item⟩ ↔ n ≠ k := by
  unfold IsLive
  rw [List.forall_mem_singleton, isMet_whenOther h, decide_eq_true_iff]

theorem allDeclared_auxiliarySource (h : DeclaredVariables plan) :
    AllDeclared plan v macros .auxiliarySource ↔ 0 < plan.constants.dims.nu := by
  simp [AllDeclared, mentions, isLive_always, h.x, h.u]

/-- The values of the macros of the common header that guard variables. -/
structure GuardMacros (c : Constants) (macros : Macros) : Prop where
  nod : macros "ACADO_NOD" = some c.dims.nod
  fixedInitialState : macros "ACADO_INITIAL_STATE_FIXED" = some c.fixedInitialState.toNat

theorem Exported.guardMacros (h : Exported plan o target macros) : GuardMacros plan.constants macros := by
  have hvalues := Constants.macroValues plan.constants
  have hnod := h.value hvalues.nod
  have hfixed := h.value hvalues.fixedInitialState
  simp only [String.reduceAppend] at hnod hfixed
  exact ⟨hnod, hfixed⟩

theorem allDeclared_testProgram (h : DeclaredVariables plan) (hmacros : GuardMacros plan.constants macros) :
    AllDeclared plan v macros .testProgram ↔
      0 < plan.constants.dims.nu ∧ 0 < plan.constants.ny ∧ 0 < plan.constants.nyn := by
  simp +contextual [AllDeclared, mentions, isLive_always, isLive_whenSet hmacros.fixedInitialState, h.x, h.u, h.y, h.yN,
    h.x0]

theorem allDeclared_mexWrapper (h : DeclaredVariables plan) (hmacros : GuardMacros plan.constants macros) :
    AllDeclared plan v macros .mexWrapper ↔
      0 < plan.constants.dims.nu ∧ 0 < plan.constants.ny ∧ 0 < plan.constants.nyn := by
  simp +contextual [AllDeclared, mentions, isLive_always, isLive_whenSet hmacros.nod,
    isLive_whenSet hmacros.fixedInitialState, h.x, h.u, h.od, h.y, h.yN, h.x0]

/-- The exact wrapper tells the multipliers, too. -/
theorem allDeclared_mexExactWrapper (h : DeclaredVariables plan) (hmacros : GuardMacros plan.constants macros) :
    AllDeclared plan v macros .mexExactWrapper ↔
      (0 < plan.constants.dims.nu ∧ 0 < plan.constants.ny ∧ 0 < plan.constants.nyn) ∧
        plan.solver.strategy.usesExactHessian = true := by
  have hmem : ∀ y, y ∈ mentions .mexExactWrapper ↔ y ∈ mentions .mexWrapper ∨ y = ⟨[], "mu".toList⟩ := by
    intro y
    simp only [mentions, List.mem_cons, List.not_mem_nil, or_false]
    tauto
  have hmu : Declared plan (.vars, String.ofList "mu".toList) ↔ plan.solver.strategy.usesExactHessian = true := h.mu
  rw [← allDeclared_mexWrapper (v := v) h hmacros, ← hmu]
  unfold AllDeclared
  simp only [hmem, or_imp, forall_and, forall_eq, isLive_always, true_imp_iff]

/-- The wrapper that the options choose. -/
theorem allDeclared_chosenWrapper (h : DeclaredVariables plan) (hmacros : GuardMacros plan.constants macros) :
    AllDeclared plan v macros (if o.hessian = .exact then .mexExactWrapper else .mexWrapper) ↔
      (0 < plan.constants.dims.nu ∧ 0 < plan.constants.ny ∧ 0 < plan.constants.nyn) ∧
        (o.hessian = .exact → plan.solver.strategy.usesExactHessian = true) := by
  by_cases hexact : o.hessian = .exact
  · rw [if_pos hexact, allDeclared_mexExactWrapper h hmacros, imp_iff_right hexact]
  · rw [if_neg hexact, allDeclared_mexWrapper h hmacros]
    exact (and_iff_left fun h => absurd h hexact).symm

theorem allDeclared_sFunctionSource (h : DeclaredVariables plan) (hmacros : BusMacros plan.constants macros) :
    AllDeclared plan v macros .sFunctionSource ↔
      0 < plan.constants.dims.nu ∧ 0 < plan.constants.ny ∧ 0 < plan.constants.nyn := by
  simp +contextual [AllDeclared, mentions, isLive_always, isLive_whenSet hmacros.nod,
    isLive_whenSet hmacros.fixedInitialState, isLive_whenSet hmacros.arrivalCost, isLive_whenSet hmacros.covarianceMatrix,
    isLive_whenOther hmacros.weighting, h.x, h.u, h.od, h.y, h.yN, h.x0, h.arrival, h.sigmaN, h.W, h.WN]

end

/-! ## Files -/

/-- Every variable that a filled-in file refers to is declared in the common header. -/
def MembersDeclared (plan : Plan) (o : Options) (target : Target) : Prop :=
  ∀ kind ∈ copiedKinds, ∀ path text, IsHeader path ∨ IsSource path → Writes plan o target kind path text →
    ∃ source, Source.read text.toList = some source ∧
      ∀ macros, Exported plan o target macros → ∀ name, Refers macros source o.moduleName name →
        Declared plan (.vars, name)

section

variable {plan : Plan} {o : Options} {target : Target}

/-- The files are those of the templates. -/
theorem membersDeclared_iff (hname : plan.constants.moduleName = o.moduleName) :
    MembersDeclared plan o target ↔ ∀ kind name t subs, Copied plan o kind name t subs →
      ∀ macros, Exported plan o target macros → AllDeclared plan (chars subs) macros t := by
  constructor
  · intro h kind name t subs hcopied macros hmacros y hy hlive
    have hfills := fills_of_copied hname hcopied
    obtain ⟨text, htext⟩ := hfills.exists_render
    obtain ⟨source, hsource, hdeclared⟩ := h kind (mem_copiedKinds hcopied) _ text (isC_of_copied hcopied)
      (writes_of_copied hcopied htext)
    obtain ⟨source', hdigest, hread⟩ := hfills.read htext
    obtain rfl := Option.some.inj (hsource.symm.trans hread)
    refine hdeclared macros hmacros _ ((refers_iff hdigest.mentions hfills.moduleName).2 ⟨y, hy, hlive, ?_⟩)
    exact String.toList_ofList.symm
  · intro h kind hkind path text hpath hwrites
    obtain ⟨name, t, subs, hcopied, rfl, htext⟩ := copied_of_writes hkind hpath hwrites
    have hfills := fills_of_copied hname hcopied
    obtain ⟨source, hdigest, hread⟩ := hfills.read htext
    refine ⟨_, hread, fun macros hmacros name hrefers => ?_⟩
    obtain ⟨y, hy, hlive, hitem⟩ := (refers_iff hdigest.mentions hfills.moduleName).1 hrefers
    have hdeclared := h kind _ t subs hcopied macros hmacros y hy hlive
    rw [hitem, String.ofList_toList] at hdeclared
    exact hdeclared

/-- A file of the export tells the references. -/
def TellsReferences (o : Options) : Prop :=
  o.testFile = true ∨
    o.hardcodedConstraints = true ∧
      (o.matlabInterface = true ∨ o.simulinkInterface = true ∧ o.qpSolver.hasSFunction = true)

theorem simulinkSubstitutions_of {c : Constants} (hbackend : c.qpSolver.hasSFunction = true)
    (hconstraints : c.hardcodedConstraints = true) : ∃ subs, simulinkSubstitutions c = .ok subs := by
  unfold simulinkSubstitutions
  rw [hbackend, hconstraints]
  exact ⟨_, rfl⟩

/-- Every variable that a filled-in file refers to is declared if and only if there are controls, there are references on
all nodes if a file tells them, and there are multipliers if the exact MEX wrapper tells them. -/
theorem template_members_declared_iff {p : Problem} {r : Integrator.Registry} (hcheck : p.check = .ok ())
    (hresolve : Plan.resolve p o r = .ok plan) (target : Target) :
    MembersDeclared plan o target ↔
      0 < p.dimensions.nu ∧ (TellsReferences o → 0 < p.objective.ny ∧ 0 < p.objective.nyn) ∧
        (o.matlabInterface = true → o.hardcodedConstraints = true → o.hessian = .exact →
          plan.solver.strategy.usesExactHessian = true) := by
  obtain ⟨g, k, -, rfl, -⟩ := Plan.resolve_assemble hresolve
  have hchecked := Problem.check_ok hcheck
  have hdeclared := declaredVariables (shared_assemble p o k g) hchecked.horizon hchecked.states
  rw [membersDeclared_iff rfl]
  constructor
  · intro h
    obtain ⟨macros, hmacros⟩ := exists_exported (Plan.assemble p o k g) o target
    have hguards := hmacros.guardMacros
    refine ⟨?_, ?_, ?_⟩
    · exact (allDeclared_auxiliarySource hdeclared).1 (h _ _ _ _ .auxiliarySource macros hmacros)
    · rintro (htest | ⟨hconstraints, hmatlab | ⟨hsimulink, hbackend⟩⟩)
      · exact ((allDeclared_testProgram hdeclared hguards).1 (h _ _ _ _ (.testProgram htest) macros hmacros)).2
      · have hmex := h _ _ _ _ (.mexWrapper hmatlab hconstraints) macros hmacros
        exact ((allDeclared_chosenWrapper hdeclared hguards).1 hmex).1.2
      · obtain ⟨subs, hsubs⟩ := simulinkSubstitutions_of (c := (Plan.assemble p o k g).constants) hbackend hconstraints
        exact ((allDeclared_sFunctionSource hdeclared (hmacros.busMacros hsimulink hbackend hsubs)).1
          (h _ _ _ _ (.sFunctionSource hsimulink hbackend hsubs) macros hmacros)).2
    · intro hmatlab hconstraints
      exact ((allDeclared_chosenWrapper hdeclared hguards).1
        (h _ _ _ _ (.mexWrapper hmatlab hconstraints) macros hmacros)).2
  · rintro ⟨hnu, hreferences, hmultipliers⟩ kind name t subs hcopied macros hmacros
    have hguards := hmacros.guardMacros
    cases hcopied with
    | auxiliaryHeader | sFunctionHeader => exact fun y hy => absurd hy List.not_mem_nil
    | auxiliarySource => exact (allDeclared_auxiliarySource hdeclared).2 hnu
    | testProgram htest => exact (allDeclared_testProgram hdeclared hguards).2 ⟨hnu, hreferences (.inl htest)⟩
    | mexWrapper hmatlab hconstraints =>
      have htold := hreferences (.inr ⟨hconstraints, .inl hmatlab⟩)
      exact (allDeclared_chosenWrapper hdeclared hguards).2 ⟨⟨hnu, htold⟩, hmultipliers hmatlab hconstraints⟩
    | sFunctionSource hsimulink hbackend hsubs =>
      have hconstraints := (simulinkSubstitutions_ok hsubs).2.1
      exact (allDeclared_sFunctionSource hdeclared (hmacros.busMacros hsimulink hbackend hsubs)).2
        ⟨hnu, hreferences (.inr ⟨hconstraints, .inr ⟨hsimulink, hbackend⟩⟩)⟩

end

/-- All interfaces. -/
def interfaceOptions : Options where
  matlabInterface := true
  simulinkInterface := true

theorem template_members_declared_iff_trackingProblem :
    ∃ plan, trackingProblem.check = .ok () ∧ Plan.resolve trackingProblem interfaceOptions .builtin = .ok plan ∧
      MembersDeclared plan interfaceOptions ⟨⟨"out"⟩, {}, 16⟩ := by
  have hcheck : trackingProblem.check = .ok () := by rfl
  have hresolve : Plan.resolve trackingProblem interfaceOptions .builtin =
      .ok (Plan.of trackingProblem interfaceOptions .gaussNewtonN2) := by rfl
  refine ⟨_, hcheck, hresolve, (template_members_declared_iff hcheck hresolve _).2 ⟨by decide, fun _ => ?_, ?_⟩⟩
  · exact ⟨by decide, by decide⟩
  · intro _ _ hexact
    cases hexact

/-- Without a term on the last node the test program tells references that the header does not declare. -/
theorem dangling_reference_smallProblem :
    ∃ plan text source, smallProblem.check = .ok () ∧ Plan.resolve smallProblem {} .builtin = .ok plan ∧
      Writes plan {} ⟨⟨"out"⟩, {}, 16⟩ .testFile ⟨"out/test.c"⟩ text ∧ Source.read text.toList = some source ∧
      (∀ macros, Refers macros source .standard "yN") ∧ ¬Declared plan (.vars, "yN") := by
  have hresolve : Plan.resolve smallProblem {} .builtin = .ok (Plan.of smallProblem {} .gaussNewtonN2) := by rfl
  have hcopied : Copied (Plan.of smallProblem {} .gaussNewtonN2) {} .testFile "test.c" .testProgram
      ModuleName.standard.substitutions := .testProgram rfl
  have hfills := fills_of_copied rfl hcopied
  obtain ⟨text, htext⟩ := hfills.exists_render
  obtain ⟨source, hdigest, hread⟩ := hfills.read htext
  refine ⟨_, text, _, rfl, hresolve, writes_of_copied hcopied htext, hread, fun macros => ?_, ?_⟩
  · refine (refers_iff hdigest.mentions hfills.moduleName).2 ⟨⟨[], "yN".toList⟩, ?_, isLive_always.2 trivial, rfl⟩
    decide
  · rw [declared_iff_of_size? (solverSizes _).yN]
    exact Nat.lt_irrefl 0

end ControlCodegen.Export
