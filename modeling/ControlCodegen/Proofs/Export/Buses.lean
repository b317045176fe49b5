import ControlCodegen.Proofs.Export.Copies
import ControlCodegen.Proofs.Export.Variables
import ControlCodegen.Proofs.Template.Bus

/-!
# `Export.Buses`: the buses of the S-function agree with the solver

* `BusMacros`, `busMacros` : the values that the header of the S-function gives its macros.
* `copiedMembers` : the members that are copied, by what they depend on.
* `CopyFits` : an array of a bus has as many elements as the member that it is copied to or from.
* `BusAgreement`, `bus_agreement` : both rendered files of every plan agree with its header.

The sizes are written three times: as expressions in the header of the S-function, as values of its macros, and as rows
and columns of the members. The expressions are evaluated with the values, as a compiler does.
-/

namespace ControlCodegen.Export

open C C.Preprocessor Template Text

set_option autoImplicit false

/-! ## Values -/

/-- The dimensions and flags have the values of the common header. -/
theorem value?_busValues (c : Constants) : ∀ d ∈ busValues c, c.value? d.1 = some d.2 := by
  have hvalues : ∀ d ∈ c.macros, c.value? d.name = some d.value := fun d hd => Constants.value?_of_mem hd
  unfold Constants.macros at hvalues
  simp only [List.append_assoc, List.forall_mem_append, List.forall_mem_cons] at hvalues
  obtain ⟨⟨-, hcovariance, hhard, hfixed, hN, hnod, hnu, hnx, hnxa, hnxd, hny, hnyn, -⟩, -, -, -, -, -, -, harrival, -,
    hweighting, -⟩ := hvalues
  unfold busValues
  simp only [List.forall_mem_cons]
  exact ⟨hN, hnx, hnxd, hnxa, hnu, hnod, hny, hnyn, hfixed, hweighting, hhard, harrival, hcovariance,
    fun d hd => absurd hd List.not_mem_nil⟩

section Header

variable {c : Constants} {subs : Substitutions} {source : Source Piece}

theorem find?_definition {names : List String} {x : String} (hx : x ∈ names) (v : String → List Char) :
    (names.map fun name => (("SFUN_" ++ name).toList, v name)).find? (fun d => d.1 = ("SFUN_" ++ x).toList) =
      some (("SFUN_" ++ x).toList, v x) := by
  induction names with
  | nil => cases hx
  | cons name names ih =>
    rw [List.map_cons]
    by_cases hname : name = x
    · rw [hname]
      exact List.find?_cons_of_pos (decide_eq_true rfl)
    · have hne : ("SFUN_" ++ name).toList ≠ ("SFUN_" ++ x).toList := by
        rw [String.toList_append, String.toList_append]
        exact fun h => hname (String.toList_inj.1 (List.append_cancel_left h))
      rw [List.find?_cons_of_neg (by simpa using hne)]
      exact ih ((List.mem_cons.1 hx).resolve_left fun h => hname h.symm)

/-- A macro of the header of the S-function has its value. -/
theorem macros_busHeader (h : BusHeader source) (hplaces : BusPlaces c subs) :
    ∀ d ∈ busValues c, (source.fill (chars subs)).macros ("SFUN_" ++ d.1) = some d.2 := by
  intro d hd
  have hname : d.1 ∈ busNames := List.mem_map_of_mem (f := Prod.fst) hd
  unfold Source.macros
  rw [h.definitions_fill, List.find?_append, find?_definition hname]
  change numeral? (chars subs d.1) = _
  unfold chars
  rw [hplaces.numeral d hd]
  exact numeral?_toString d.2

/-- The values of the macros that the arrays and the copies depend on. -/
structure BusMacros (c : Constants) (macros : Macros) : Prop where
  horizon : macros "SFUN_N" = some c.horizon
  nx : macros "SFUN_NX" = some c.dims.nx
  nu : macros "SFUN_NU" = some c.dims.nu
  nod : macros "SFUN_NOD" = some c.dims.nod
  ny : macros "SFUN_NY" = some c.ny
  nyn : macros "SFUN_NYN" = some c.nyn
  fixedInitialState : macros "SFUN_INITIAL_STATE_FIXED" = some c.fixedInitialState.toNat
  weighting : macros "SFUN_WEIGHTING_MATRICES_TYPE" = some c.weighting.indicator
  arrivalCost : macros "SFUN_USE_ARRIVAL_COST" = some c.arrivalCost.toNat
  covarianceMatrix : macros "SFUN_COMPUTE_COVARIANCE_MATRIX" = some c.covarianceMatrix.toNat

theorem busMacros (h : BusHeader source) (hplaces : BusPlaces c subs) :
    BusMacros c (source.fill (chars subs)).macros := by
  have hvalues := macros_busHeader h hplaces
  unfold busValues at hvalues
  simp only [List.forall_mem_cons, String.reduceAppend] at hvalues
  obtain ⟨hN, hnx, -, -, hnu, hnod, hny, hnyn, hfixed, hweighting, -, harrival, hcovariance, -⟩ := hvalues
  exact ⟨hN, hnx, hnu, hnod, hny, hnyn, hfixed, hweighting, harrival, hcovariance⟩

/-- The guard of the header is not one of its macros with a value. -/
theorem macros_guard (h : BusHeader source) (hplaces : BusPlaces c subs) :
    (source.fill (chars subs)).macros (String.ofList (chars subs "MODULE_PREFIX" ++ "_SOLVER_SFUNCTION_H".toList)) =
      none := by
  have hlast : ∀ d ∈ (source.fill (chars subs)).definitions, d.1.getLast? ≠ some 'H' := by
    have hnames : ∀ name ∈ busNames, name.toList.getLast?.or (some '_') ≠ some 'H' := by decide
    have hbackend : ∀ q : QpSolver, q.macroName.toList.getLast?.or (some '_') ≠ some 'H' := by
      intro q
      cases q <;> decide
    rw [h.definitions_fill, List.forall_mem_append, List.forall_mem_map, List.forall_mem_singleton]
    refine ⟨fun name hname => ?_, ?_⟩
    · rw [String.toList_append, List.getLast?_append]
      exact hnames name hname
    · rw [List.getLast?_append]
      unfold chars
      rw [hplaces.backend]
      exact hbackend c.qpSolver
  have hguard : "_SOLVER_SFUNCTION_H".toList.getLast? = some 'H' := by decide
  have hnone : (source.fill (chars subs)).definitions.find? (fun d =>
      d.1 = (String.ofList (chars subs "MODULE_PREFIX" ++ "_SOLVER_SFUNCTION_H".toList)).toList) = none := by
    rw [List.find?_eq_none]
    intro d hd hname
    refine hlast d hd ?_
    rw [of_decide_eq_true hname, String.toList_ofList, List.getLast?_append, hguard]
    rfl
  unfold Source.macros
  rw [hnone]
  rfl

theorem isMet_busGuard (h : BusHeader source) (hplaces : BusPlaces c subs) :
    (busGuard.fill (chars subs)).isMet (source.fill (chars subs)).macros = true := by
  change (((source.fill (chars subs)).macros
    (String.ofList (chars subs "MODULE_PREFIX" ++ fillWord (chars subs) (literals "_SOLVER_SFUNCTION_H")))).isSome ==
      false) = true
  rw [fillWord_literals, macros_guard h hplaces]
  rfl

end Header

/-! ## Agreement -/

/-- The members that are copied, by what they depend on. -/
def copiedNames (onlineData weights fixedInitialState arrivalCost covarianceMatrix : Bool) : List String :=
  ["x", "u"] ++ (if onlineData then ["od"] else []) ++ ["y", "yN"] ++ (if weights then ["W", "WN"] else []) ++
    (if fixedInitialState then ["x0"] else []) ++ (if arrivalCost then ["xAC", "SAC", "WL"] else []) ++
    (if covarianceMatrix then ["sigmaN"] else [])

/-- The members that the S-function of a plan copies. -/
def copiedMembers (c : Constants) : List String :=
  copiedNames (decide (c.dims.nod ≠ 0)) (decide (c.weighting ≠ .empty)) c.fixedInitialState c.arrivalCost
    c.covarianceMatrix

/-- A copy moves a whole array between a bus and the member of its name. The bus has one array of that name, with as many
elements as the member. -/
structure CopyFits (plan : Plan) (header source : Source Char) (c : Copy Char) : Prop where
  function : c.function = "memcpy".toList
  struct : c.struct = (Struct.vars.instanceName plan.constants.moduleName).toList
  field : c.field = c.member
  bytes : c.measure = "sizeof".toList ∧ c.measured = c.bus ∧ c.part = c.field
  elements : ∃ bus n, (c.bus, bus) ∈ source.pointers ∧
    (header.arrays header.macros).filter (fun a => a.1 = bus ∧ a.2.1 = c.field) = [(bus, c.field, some n)] ∧
    size? plan .vars (String.ofList c.member) = some n

/-- The header and the source of the S-function agree with the common header. The conditions of both files are those that
the macros of the header of the S-function decide. -/
structure BusAgreement (plan : Plan) (header source : Source Char) : Prop where
  values : ∀ x ∈ busNames, ∃ n, header.macros ("SFUN_" ++ x) = some n ∧ plan.constants.value? x = some n
  /-- There are no other macros beside the one for the backend. -/
  names : header.definitions.map Prod.fst =
    busNames.map (fun x => ("SFUN_" ++ x).toList) ++ [("SFUN_QP_SOLVER_" ++ plan.constants.qpSolver.macroName).toList]
  copied : (active header.macros source.copies).map Copy.member = (copiedMembers plan.constants).map String.toList
  fits : ∀ c ∈ active header.macros source.copies, CopyFits plan header source c

section Agreement

variable {v : String → List Char} {macros : Macros} {c : Constants}

theorem value_ofMacro {name : String} {n : Nat} (h : macros name = some n) : (ofMacro name).value macros = n := by
  change (macros (String.ofList name.toList)).getD 0 = n
  rw [String.ofList_toList, h]
  rfl

theorem flag_ne_zero (b : Bool) : decide (b.toNat ≠ 0) = b := by
  cases b <;> rfl

theorem names_copied (h : BusMacros c macros) :
    (busCopies.filter (BusCopy.isMet v macros)).map BusCopy.name = copiedMembers c := by
  have hweights : decide (c.weighting.indicator ≠ 0) = decide (c.weighting ≠ .empty) := by
    cases c.weighting <;> rfl
  unfold busCopies copiedMembers
  simp only [List.filter_cons, List.filter_nil, BusCopy.isMet, List.all_cons, List.all_nil, Bool.and_true,
    isMet_whenSet h.nod, isMet_whenOther h.weighting, isMet_whenSet h.fixedInitialState, isMet_whenSet h.arrivalCost,
    isMet_whenSet h.covarianceMatrix, flag_ne_zero, hweights]
  generalize decide (c.dims.nod ≠ 0) = onlineData, decide (c.weighting ≠ .empty) = weights,
    c.fixedInitialState = fixedInitialState, c.arrivalCost = arrivalCost, c.covarianceMatrix = covarianceMatrix
  cases onlineData <;> cases weights <;> cases fixedInitialState <;> cases arrivalCost <;> cases covarianceMatrix <;> rfl

theorem busSizes_single {bus name : String} {a : BusArray}
    (ha : (busArrays.filter fun a => a.bus = bus ∧ a.name = name) = [a]) (hmet : a.isMet v macros = true) :
    busSizes v macros bus name = [a.size.value macros] := by
  unfold busSizes
  rw [ha, List.filter_cons_of_pos hmet]
  rfl

theorem isMet_pair {g h : Guard Piece} {bus name : String} {size : Expr} (hg : (g.fill v).isMet macros = true)
    (hh : (h.fill v).isMet macros = true) : BusArray.isMet v macros ⟨[g, h], bus, name, size⟩ = true := by
  change ((g.fill v).isMet macros && ((h.fill v).isMet macros && true)) = true
  rw [hg, hh]
  rfl

/-- The sizes of the weights, in the three forms that they have. -/
theorem busSizes_weights (h : BusMacros c macros) (hguard : (busGuard.fill v).isMet macros = true)
    (hweighting : c.weighting ≠ .empty) :
    busSizes v macros "inputs" "W" = [if c.weighting = .once then c.ny * c.ny else c.horizon * c.ny * c.ny] ∧
      busSizes v macros "inputs" "WN" = [c.nyn * c.nyn] := by
  have hmet := @isMet_whenWeighting v macros _ h.weighting
  have hW : (busArrays.filter fun a => a.bus = "inputs" ∧ a.name = "W") =
      [⟨[whenWeighting 1 true, busGuard], "inputs", "W", _⟩,
        ⟨[whenWeighting 2 true, whenWeighting 1 false, busGuard], "inputs", "W", _⟩] := rfl
  have hWN : (busArrays.filter fun a => a.bus = "inputs" ∧ a.name = "WN") =
      [⟨[whenWeighting 1 true, busGuard], "inputs", "WN", _⟩,
        ⟨[whenWeighting 2 true, whenWeighting 1 false, busGuard], "inputs", "WN", _⟩] := rfl
  unfold busSizes
  rw [hW, hWN]
  cases hform : c.weighting with
  | empty => exact absurd hform hweighting
  | once | oncePerNode =>
    rw [hform] at hmet
    simp [BusArray.isMet, hmet, hguard, Weighting.indicator, Expr.value, Operator.apply,
      value_ofMacro h.ny, value_ofMacro h.nyn, value_ofMacro h.horizon]

/-- The constants are those of the solver. -/
structure Shared (plan : Plan) : Prop where
  horizon : plan.solver.horizon = plan.constants.horizon
  dims : plan.solver.dims = plan.constants.dims
  ny : plan.solver.ny = plan.constants.ny
  nyn : plan.solver.nyn = plan.constants.nyn
  fixedInitialState : plan.solver.fixedInitialState = plan.constants.fixedInitialState
  weighting : plan.solver.weighting = plan.constants.weighting
  arrivalCost : plan.solver.arrivalCost = plan.constants.arrivalCost
  covarianceMatrix : plan.solver.covarianceMatrix = plan.constants.covarianceMatrix

theorem shared_assemble (p : Problem) (o : Options) (k : Strategy) (g : Integrator) : Shared (Plan.assemble p o k g) :=
  ⟨rfl, rfl, rfl, rfl, rfl, rfl, rfl, rfl⟩

/-- The array that a copy moves is as large as the member. -/
theorem busSizes_copied {plan : Plan} (hshared : Shared plan) (h : BusMacros plan.constants macros)
    (hguard : (busGuard.fill v).isMet macros = true) :
    ∀ c ∈ busCopies, c.isMet v macros = true →
      ∃ n, busSizes v macros c.bus c.name = [n] ∧ size? plan .vars c.name = some n := by
  have hsizes := solverSizes plan
  have hmore := variableSizes plan
  have hplain : ∀ {bus name size}, BusArray.isMet v macros ⟨[busGuard], bus, name, size⟩ = true := by
    intro bus name size
    change ((busGuard.fill v).isMet macros && true) = true
    rw [hguard]
    rfl
  have hmet : ∀ {g : Guard Piece}, ([g].all fun g => (g.fill v).isMet macros) = true → (g.fill v).isMet macros = true :=
    fun h => List.all_eq_true.1 h _ List.mem_cons_self
  -- An array on a condition stands under the guard of its copy, and under the one of the whole header.
  have hpair : ∀ {g : Guard Piece} {bus name size}, ([g].all fun g => (g.fill v).isMet macros) = true →
      BusArray.isMet v macros ⟨[g, busGuard], bus, name, size⟩ = true := fun hc => isMet_pair (hmet hc) hguard
  have hflag : ∀ {name : String} {b : Bool}, macros name = some b.toNat →
      ([whenSet name].all fun g => (g.fill v).isMet macros) = true → b = true := by
    intro name b hname hc
    rw [← flag_ne_zero b, ← isMet_whenSet (v := v) hname]
    exact hmet hc
  have hweighting : ([whenOther "SFUN_WEIGHTING_MATRICES_TYPE" 0].all fun g => (g.fill v).isMet macros) = true →
      plan.constants.weighting ≠ .empty := by
    intro hc hempty
    have hother := (isMet_whenOther (v := v) h.weighting 0).symm.trans (hmet hc)
    rw [hempty] at hother
    cases hother
  have hN := value_ofMacro h.horizon
  have hnx := value_ofMacro h.nx
  have hnu := value_ofMacro h.nu
  have hnod := value_ofMacro h.nod
  have hny := value_ofMacro h.ny
  have hnyn := value_ofMacro h.nyn
  unfold busCopies
  simp only [List.forall_mem_cons, BusCopy.isMet]
  refine ⟨fun _ => ⟨_, busSizes_single rfl hplain, ?x⟩, fun _ => ⟨_, busSizes_single rfl hplain, ?u⟩,
    fun hc => ⟨_, busSizes_single rfl (hpair hc), ?od⟩, fun _ => ⟨_, busSizes_single rfl hplain, ?y⟩,
    fun _ => ⟨_, busSizes_single rfl hplain, ?yN⟩,
    fun hc => ⟨_, (busSizes_weights h hguard (hweighting hc)).1, ?W⟩,
    fun hc => ⟨_, (busSizes_weights h hguard (hweighting hc)).2, ?WN⟩,
    fun hc => ⟨_, busSizes_single rfl (hpair hc), ?x0⟩, fun hc => ⟨_, busSizes_single rfl (hpair hc), ?xAC⟩,
    fun hc => ⟨_, busSizes_single rfl (hpair hc), ?SAC⟩, fun hc => ⟨_, busSizes_single rfl (hpair hc), ?WL⟩,
    fun hc => ⟨_, busSizes_single rfl (hpair hc), ?sigmaN⟩, fun c hc => absurd hc List.not_mem_nil⟩
  case x => rw [hsizes.x, hshared.horizon, hshared.dims, Expr.value, Expr.value, hN, hnx]; rfl
  case u => rw [hsizes.u, hshared.horizon, hshared.dims, Expr.value, hN, hnu]; rfl
  case od => rw [hsizes.od, hshared.horizon, hshared.dims, Expr.value, Expr.value, hN, hnod]; rfl
  case y => rw [hsizes.y, hshared.horizon, hshared.ny, Expr.value, hN, hny]; rfl
  case yN => rw [hsizes.yN, hshared.nyn, hnyn]
  case W =>
    have hform := hweighting hc
    rw [hmore.W, weightElements, hshared.weighting, hshared.horizon, hshared.ny]
    cases hcase : plan.constants.weighting with
    | empty => exact absurd hcase hform
    | once | oncePerNode => rfl
  case WN => rw [hmore.WN, hshared.nyn]
  case x0 => rw [hsizes.x0 (hshared.fixedInitialState.trans (hflag h.fixedInitialState hc)), hshared.dims, hnx]
  case xAC => rw [hmore.xAC (hshared.arrivalCost.trans (hflag h.arrivalCost hc)), hshared.dims, hnx]
  case SAC => rw [hmore.SAC (hshared.arrivalCost.trans (hflag h.arrivalCost hc)), hshared.dims, Expr.value, hnx]; rfl
  case WL => rw [hmore.WL (hshared.arrivalCost.trans (hflag h.arrivalCost hc)), hshared.dims, Expr.value, hnx]; rfl
  case sigmaN =>
    rw [hmore.sigmaN (hshared.covarianceMatrix.trans (hflag h.covarianceMatrix hc)), hshared.dims, Expr.value, hnx]
    rfl

end Agreement

section Plans

variable {plan : Plan} {subs : Substitutions} {header source : Source Piece}

theorem value?_agreement (h : BusHeader header) (hplaces : BusPlaces plan.constants subs) :
    ∀ x ∈ busNames, ∃ n, (header.fill (chars subs)).macros ("SFUN_" ++ x) = some n ∧ plan.constants.value? x = some n := by
  intro x hx
  obtain ⟨d, hd, rfl⟩ := exists_busValue plan.constants hx
  exact ⟨d.2, macros_busHeader h hplaces d hd, value?_busValues plan.constants d hd⟩

theorem chars_moduleName (hplaces : BusPlaces plan.constants subs) :
    chars subs "MODULE_NAME" = plan.constants.moduleName.text.toList := by
  unfold chars
  rw [hplaces.moduleName]
  rfl

/-- What is filled in agrees. -/
theorem busAgreement_fill (hshared : Shared plan) (hheader : BusHeader header) (hsource : BusSource source)
    (hplaces : BusPlaces plan.constants subs) :
    BusAgreement plan (header.fill (chars subs)) (source.fill (chars subs)) := by
  have hmacros := busMacros hheader hplaces
  have hguard := isMet_busGuard hheader hplaces
  refine ⟨value?_agreement hheader hplaces, ?_, ?_, fun copy hcopy => ?_⟩
  · rw [hheader.definitions_fill, List.map_append, List.map_map, List.map_singleton, String.toList_append]
    unfold chars
    rw [hplaces.backend]
    rfl
  · rw [hsource.copies_fill, List.map_map, ← names_copied hmacros, List.map_map]
    rfl
  · rw [hsource.copies_fill] at hcopy
    obtain ⟨c, hc, rfl⟩ := List.mem_map.1 hcopy
    obtain ⟨hc, hmet⟩ := List.mem_filter.1 hc
    obtain ⟨n, hsizes, hn⟩ := busSizes_copied hshared hmacros hguard c hc hmet
    have hstruct : (Struct.vars.instanceName plan.constants.moduleName).toList =
        chars subs "MODULE_NAME" ++ "Variables".toList := by
      rw [chars_moduleName hplaces]
      exact String.toList_append
    have harray := hheader.filter_arrays (v := chars subs) (header.fill (chars subs)).macros c.bus c.name
    rw [hsizes] at harray
    refine ⟨rfl, hstruct.symm, rfl, ⟨rfl, rfl, rfl⟩, _, n, hsource.pointers_fill _ hc, harray, ?_⟩
    rw [← hn]
    exact congrArg _ String.ofList_toList

/-- The header and the source of the S-function can be rendered for every plan with a Simulink interface, and agree with
its header. -/
theorem bus_agreement {p : Problem} {o : Options} {r : Integrator.Registry} (hresolve : Plan.resolve p o r = .ok plan)
    (hsubs : simulinkSubstitutions plan.constants = .ok subs) :
    ∃ headerText sourceText header source,
      Template.sFunctionHeader.render "" true subs = .ok headerText ∧
      Template.sFunctionSource.render "" true subs = .ok sourceText ∧
      Source.read headerText.toList = some header ∧ Source.read sourceText.toList = some source ∧
      BusAgreement plan header source := by
  obtain ⟨g, k, -, rfl, -⟩ := Plan.resolve_assemble hresolve
  obtain ⟨header, hheader⟩ := exists_busHeader
  obtain ⟨source, hsource⟩ := exists_busSource
  obtain ⟨headerText, hheaderText⟩ :=
    (fills_simulink (t := .sFunctionHeader) (by decide) (List.Subset.refl _) hsubs).exists_render
  obtain ⟨sourceText, hsourceText⟩ :=
    (fills_simulink (t := .sFunctionSource) (by decide) (List.subset_append_left _ _) hsubs).exists_render
  exact ⟨headerText, sourceText, _, _, hheaderText, hsourceText,
    read_render hheaderText (allWords_simulink hsubs) hheader.read,
    read_render hsourceText (allWords_simulink hsubs) hsource.read,
    busAgreement_fill (shared_assemble p o k g) hheader hsource (busPlaces hsubs)⟩

end Plans

/-- Three intervals with online data and a weight for each of them. -/
def trackingProblem : Problem where
  horizon := 3
  dimensions := { nx := 4, nu := 2, nod := 1 }
  objective :=
    { leastSquares := some { ny := 6, weighting := .oncePerNode }
      terminalLeastSquares := some { ny := 4 } }

/-- An estimator with an arrival cost. -/
def estimationOptions : Options where
  arrivalCost := true

theorem bus_agreement_trackingProblem :
    ∃ plan subs headerText sourceText header source,
      Plan.resolve trackingProblem estimationOptions .builtin = .ok plan ∧
      simulinkSubstitutions plan.constants = .ok subs ∧
      Template.sFunctionHeader.render "" true subs = .ok headerText ∧
      Template.sFunctionSource.render "" true subs = .ok sourceText ∧
      Source.read headerText.toList = some header ∧ Source.read sourceText.toList = some source ∧
      BusAgreement plan header source ∧
      (active header.macros source.copies).map Copy.member =
        ["x", "u", "od", "y", "yN", "W", "WN", "x0", "xAC", "SAC", "WL"].map String.toList := by
  let plan := Plan.of trackingProblem estimationOptions .gaussNewtonN2
  have hresolve : Plan.resolve trackingProblem estimationOptions .builtin = .ok plan := by rfl
  obtain ⟨subs, hsubs⟩ : ∃ subs, simulinkSubstitutions plan.constants = .ok subs := ⟨_, rfl⟩
  obtain ⟨headerText, sourceText, header, source, hheaderText, hsourceText, hheader, hsource, hagreement⟩ :=
    bus_agreement hresolve hsubs
  exact ⟨plan, subs, headerText, sourceText, header, source, hresolve, hsubs, hheaderText, hsourceText, hheader, hsource,
    hagreement, hagreement.copied⟩

end ControlCodegen.Export
