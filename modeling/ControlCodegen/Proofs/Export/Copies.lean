import ControlCodegen.Export.Steps
import ControlCodegen.Proofs.Export.Prototypes
import ControlCodegen.Proofs.Template.Digest

/-!
# `Export.Copies`: the C files that an export fills in

* `Writes` : an export writes a text to a file of some kind.
* `IsStepOf`, `isStepOf_of_mem` : the step of each kind.
* `IsHeader`, `IsSource`, `copiedKinds` : the files that are filled in and are C texts.
* `Copied` : these files, with their templates and values; `copied_of_writes` and `writes_of_copied` say that they are the
  ones.
* `Fills.exists_render` : such a file can be rendered.
* `Fills.read` : what is read of such a file is what is read of its template, filled in.
-/

namespace ControlCodegen.Export

open C Text

set_option autoImplicit false

/-! ## Values -/

theorem isIdentifierTail_of_isDigit {c : Char} (h : c.isDigit = true) : isIdentifierTail c = true := by
  unfold isIdentifierTail Char.isAlphanum
  rw [h, Bool.or_true, Bool.true_or]

theorem isIdentifierTail_of_isUpper {c : Char} (h : c.isUpper = true) : isIdentifierTail c = true := by
  have halpha : c.isAlpha = true := Bool.or_eq_true_iff.2 (.inl h)
  have halphanum : c.isAlphanum = true := Bool.or_eq_true_iff.2 (.inl halpha)
  exact Bool.or_eq_true_iff.2 (.inl halphanum)

/-- Only small letters change in capitals. -/
theorem toUpper_eq_or_isUpper (c : Char) : c.toUpper = c ∨ c.toUpper.isUpper = true := by
  unfold Char.toUpper
  split
  · rename_i hlower
    right
    have hfirst : 97 ≤ c.val.toNat := UInt32.le_iff_toNat_le.1 hlower.1
    have hlast : c.val.toNat ≤ 122 := UInt32.le_iff_toNat_le.1 hlower.2
    -- The difference of the letters wraps around.
    have hsum : (c.val + ('A'.val - 'a'.val)).toNat = (c.val.toNat + 4294967264) % 4294967296 := UInt32.toNat_add _ _
    have hupper : 'A'.val ≤ c.val + ('A'.val - 'a'.val) ∧ c.val + ('A'.val - 'a'.val) ≤ 'Z'.val := by
      rw [UInt32.le_iff_toNat_le, UInt32.le_iff_toNat_le, hsum]
      change 65 ≤ _ ∧ _ ≤ 90
      omega
    exact decide_eq_true hupper
  · exact .inl rfl

/-- In capitals the characters of a name are still characters of a name. -/
theorem isIdentifierTail_toUpper {c : Char} (h : isIdentifierTail c = true) : isIdentifierTail c.toUpper = true := by
  rcases toUpper_eq_or_isUpper c with heq | hupper
  · rwa [heq]
  · exact isIdentifierTail_of_isUpper hupper

theorem isWord_moduleName (m : ModuleName) : Lexeme.IsWord m.text.toList := Lexeme.isWord_of_isIdentifier m.valid

theorem isWord_capitals (m : ModuleName) : Lexeme.IsWord m.capitals.toList := by
  obtain ⟨hne, hall⟩ := isWord_moduleName m
  unfold ModuleName.capitals
  rw [String.toList_map]
  refine ⟨fun h => hne (List.map_eq_nil_iff.1 h), fun c hc => ?_⟩
  obtain ⟨d, hd, rfl⟩ := List.mem_map.1 hc
  exact isIdentifierTail_toUpper (hall d hd)

theorem isWord_numeral (n : Nat) : Lexeme.IsWord (toString n).toList := by
  rw [Nat.toString_eq_ofList_toDigits, String.toList_ofList]
  exact ⟨Nat.toDigits_ne_nil, fun c hc =>
    isIdentifierTail_of_isDigit (Nat.isDigit_of_mem_toDigits (by decide) (by decide) hc)⟩

theorem isWord_macroName (q : QpSolver) : Lexeme.IsWord q.macroName.toList := by
  have hall : ¬q.macroName.toList.isEmpty ∧ q.macroName.toList.all isIdentifierTail = true := by
    cases q <;> decide +kernel
  rw [List.all_eq_true, List.isEmpty_iff] at hall
  exact hall

theorem allWords_of_mem {subs : Substitutions} (h : ∀ s ∈ subs, Lexeme.IsWord s.2.toList) : Template.AllWords subs := by
  intro name value hvalue
  obtain ⟨a, b, hsubs, -⟩ := List.lookup_eq_some_iff.1 hvalue
  exact h (name, value) (hsubs ▸ List.mem_append_right _ List.mem_cons_self)

/-- The values of the dimensions and flags of the S-function. -/
def busValues (c : Constants) : List (String × Nat) :=
  [("N", c.horizon), ("NX", c.dims.nx), ("NXD", c.dims.ndx), ("NXA", c.dims.nxa), ("NU", c.dims.nu), ("NOD", c.dims.nod),
    ("NY", c.ny), ("NYN", c.nyn), ("INITIAL_STATE_FIXED", c.fixedInitialState.toNat),
    ("WEIGHTING_MATRICES_TYPE", c.weighting.indicator), ("HARDCODED_CONSTRAINT_VALUES", c.hardcodedConstraints.toNat),
    ("USE_ARRIVAL_COST", c.arrivalCost.toNat), ("COMPUTE_COVARIANCE_MATRIX", c.covarianceMatrix.toNat)]

theorem exists_busValue (c : Constants) {name : String} (h : name ∈ Template.busNames) :
    ∃ d ∈ busValues c, d.1 = name := by
  have hnames : Template.busNames = (busValues c).map Prod.fst := rfl
  rw [hnames] at h
  exact List.mem_map.1 h

/-- The values of the Simulink interface, where there are any. -/
theorem simulinkSubstitutions_ok {c : Constants} {subs : Substitutions} (h : simulinkSubstitutions c = .ok subs) :
    c.qpSolver.hasSFunction = true ∧ c.hardcodedConstraints = true ∧
      subs = c.moduleName.substitutions ++
        ((busValues c).map (fun d => (d.1, toString d.2)) ++ [("QP_SOLVER", c.qpSolver.macroName)]) := by
  unfold simulinkSubstitutions at h
  cases hbackend : c.qpSolver.hasSFunction with
  | false =>
    rw [hbackend] at h
    cases h
  | true =>
    cases hconstraints : c.hardcodedConstraints with
    | false =>
      rw [hbackend, hconstraints] at h
      cases h
    | true =>
      rw [hbackend, hconstraints] at h
      refine ⟨rfl, rfl, (Except.ok.inj h).symm.trans ?_⟩
      rw [busValues, hconstraints]
      rfl

theorem forall_mem_substitutions {m : ModuleName} {P : String × String → Prop} :
    (∀ s ∈ m.substitutions, P s) ↔ P ("MODULE_NAME", m.text) ∧ P ("MODULE_PREFIX", m.capitals) := by
  unfold ModuleName.substitutions
  rw [List.forall_mem_cons, List.forall_mem_singleton]

theorem allWords_moduleName (m : ModuleName) : Template.AllWords m.substitutions :=
  allWords_of_mem (forall_mem_substitutions.2 ⟨isWord_moduleName m, isWord_capitals m⟩)

theorem allWords_simulink {c : Constants} {subs : Substitutions} (h : simulinkSubstitutions c = .ok subs) :
    Template.AllWords subs := by
  obtain ⟨-, -, rfl⟩ := simulinkSubstitutions_ok h
  apply allWords_of_mem
  rw [List.forall_mem_append, List.forall_mem_append, forall_mem_substitutions, List.forall_mem_map,
    List.forall_mem_singleton]
  exact ⟨⟨isWord_moduleName _, isWord_capitals _⟩, fun d _ => isWord_numeral d.2, isWord_macroName _⟩

/-- Every place of the Simulink interface has its value. -/
structure BusPlaces (c : Constants) (subs : Substitutions) : Prop where
  moduleName : subs.value? "MODULE_NAME" = some c.moduleName.text
  capitals : subs.value? "MODULE_PREFIX" = some c.moduleName.capitals
  numeral : ∀ d ∈ busValues c, subs.value? d.1 = some (toString d.2)
  backend : subs.value? "QP_SOLVER" = some c.qpSolver.macroName

theorem busPlaces {c : Constants} {subs : Substitutions} (h : simulinkSubstitutions c = .ok subs) : BusPlaces c subs := by
  obtain ⟨-, -, rfl⟩ := simulinkSubstitutions_ok h
  refine ⟨rfl, rfl, ?_, rfl⟩
  simp only [busValues, List.forall_mem_cons]
  exact ⟨rfl, rfl, rfl, rfl, rfl, rfl, rfl, rfl, rfl, rfl, rfl, rfl, rfl, fun d hd => absurd hd List.not_mem_nil⟩

theorem isSome_value?_simulink {c : Constants} {subs : Substitutions} (h : simulinkSubstitutions c = .ok subs)
    {name : String} (hname : name ∈ Template.sFunctionPlaces) : (subs.value? name).isSome = true := by
  have hplaces := busPlaces h
  simp only [Template.sFunctionPlaces, Template.modulePlaces, List.mem_append, List.mem_cons, List.not_mem_nil,
    or_false] at hname
  rcases hname with (rfl | rfl) | hname | rfl
  · rw [hplaces.moduleName]
    rfl
  · rw [hplaces.capitals]
    rfl
  · obtain ⟨d, hd, rfl⟩ := exists_busValue c hname
    rw [hplaces.numeral d hd]
    rfl
  · rw [hplaces.backend]
    rfl

/-! ## Files -/

section

variable (plan : Plan) (o : Options) (target : Target)

/-- An export that gets so far writes a text to a path, among the files of a kind. -/
def Writes (kind : ArtifactKind) (path : Files.Path) (text : String) : Prop :=
  ∃ blame drafts, Step.produce kind blame drafts ∈ steps plan o target ∧ (⟨path, .ok text⟩ : Draft) ∈ drafts

/-- A header of C. -/
def IsHeader (path : Files.Path) : Prop := ending path.text = ['h', '.']

/-- A source file of C. -/
def IsSource (path : Files.Path) : Prop := ending path.text = ['c', '.']

/-- The kinds of the files that are filled in with names and numerals: the auxiliary functions, the test program, the MEX
wrapper and the S-function. -/
def copiedKinds : List ArtifactKind := [.auxiliaryFunctions, .testFile, .mexInterface, .simulinkInterface]

/-- The step that produces the files of a kind, and when there is one. -/
def IsStepOf (step : Step) : ArtifactKind → Prop
  | .commonHeader => step = headerStep plan o target
  | .integratorSource => step = sourceStep o target .integratorSource "integrator" plan.integrator.items
  | .solverSource => step = sourceStep o target .solverSource "solver" plan.solver.items
  | .auxiliaryFunctions => step = auxiliaryStep o target
  | .makefile => o.makefile = true ∧ step = copyStep o target .makefile "Makefile" (makefileTemplate o) "#"
  | .testFile => o.testFile = true ∧ step = copyStep o target .testFile "test.c" .testProgram ""
  | .mexInterface => o.matlabInterface = true ∧ step ∈ mexSteps o target
  | .simulinkInterface => o.simulinkInterface = true ∧ step = simulinkStep plan o target
  | .regularization => o.hessian = .exact ∧ step = regularizationStep plan o target

/-- A C file that is filled in: its kind and its name, its template and its values. -/
inductive Copied : ArtifactKind → String → Template → Substitutions → Prop where
  | auxiliaryHeader :
    Copied .auxiliaryFunctions (o.moduleName.fileName "auxiliary_functions" "h") .auxiliaryHeader
      o.moduleName.substitutions
  | auxiliarySource :
    Copied .auxiliaryFunctions (o.moduleName.fileName "auxiliary_functions" "c") .auxiliarySource
      o.moduleName.substitutions
  | testProgram (h : o.testFile = true) : Copied .testFile "test.c" .testProgram o.moduleName.substitutions
  | mexWrapper (h : o.matlabInterface = true) (hconstraints : o.hardcodedConstraints = true) :
    Copied .mexInterface (o.moduleName.fileName "solver_mex" "c")
      (if o.hessian = .exact then .mexExactWrapper else .mexWrapper) o.moduleName.substitutions
  | sFunctionHeader (h : o.simulinkInterface = true) (hbackend : o.qpSolver.hasSFunction = true) {subs : Substitutions}
    (hsubs : simulinkSubstitutions plan.constants = .ok subs) :
    Copied .simulinkInterface (plan.constants.moduleName.fileName "solver_sfunction" "h") .sFunctionHeader subs
  | sFunctionSource (h : o.simulinkInterface = true) (hbackend : o.qpSolver.hasSFunction = true) {subs : Substitutions}
    (hsubs : simulinkSubstitutions plan.constants = .ok subs) :
    Copied .simulinkInterface (plan.constants.moduleName.fileName "solver_sfunction" "c") .sFunctionSource subs

end

variable {plan : Plan} {o : Options} {target : Target} {kind : ArtifactKind} {path : Files.Path} {text : String}

/-- A file in the directory of the export ends like its name. -/
theorem ending_place (s : String) {t : String} (h : 2 ≤ t.length) : ending (place target (s ++ t)).text = ending t := by
  unfold place Files.Path.join
  split
  · exact ending_append s h
  · split <;> rw [← String.append_assoc] <;> exact ending_append _ h

theorem ending_fileName (m : ModuleName) (role ext : String) (h : 2 ≤ (s!".{ext}").length) :
    ending (place target (m.fileName role ext)).text = ending s!".{ext}" := by
  have hname : m.fileName role ext = m.text ++ "_" ++ role ++ s!".{ext}" := String.append_assoc ..
  rw [hname]
  exact ending_place _ h

theorem isHeader_place (m : ModuleName) (role : String) : IsHeader (place target (m.fileName role "h")) :=
  ending_fileName m role "h" (by decide)

theorem isSource_place (m : ModuleName) (role : String) : IsSource (place target (m.fileName role "c")) :=
  ending_fileName m role "c" (by decide)

theorem produce_eq_single {k : ArtifactKind} {p : Files.Path} {result : Except Cause String} {blame : String}
    {drafts : List Draft} (h : Step.produce kind blame drafts = .single k p result)
    (hdraft : (⟨path, .ok text⟩ : Draft) ∈ drafts) : kind = k ∧ path = p ∧ result = .ok text := by
  unfold Step.single at h
  obtain ⟨rfl, -, rfl⟩ := Step.produce.inj h
  obtain ⟨rfl, rfl⟩ := Draft.mk.inj (List.mem_singleton.1 hdraft)
  exact ⟨rfl, rfl, rfl⟩

theorem kind_of_mexSteps {blame : String} {drafts : List Draft}
    (h : Step.produce kind blame drafts ∈ mexSteps o target) : kind = .mexInterface := by
  unfold mexSteps at h
  dsimp only at h
  split at h
  · exact (Step.produce.inj (List.mem_singleton.1 h)).1
  · rcases List.mem_cons.1 h with h | h
    · exact (Step.produce.inj h).1
    · have h := List.mem_singleton.1 h
      split at h
      · exact (Step.produce.inj h).1
      · cases h

theorem kind_of_simulinkStep {blame : String} {drafts : List Draft}
    (h : Step.produce kind blame drafts = simulinkStep plan o target) : kind = .simulinkInterface := by
  unfold simulinkStep at h
  split at h
  · cases h
  · exact (Step.produce.inj h).1

/-- Every step that produces files is the one of their kind. -/
theorem isStepOf_of_mem {blame : String} {drafts : List Draft}
    (h : Step.produce kind blame drafts ∈ steps plan o target) :
    IsStepOf plan o target (.produce kind blame drafts) kind := by
  simp only [steps, List.mem_append, List.mem_cons, List.mem_ite_nil_right, List.not_mem_nil, or_false] at h
  rcases h with ((((((h | h | h | h) | ⟨hmakefile, h⟩) | ⟨htest, h⟩) | ⟨hmatlab, h⟩) | ⟨hsimulink, h⟩) | ⟨hexact, h⟩)
  · obtain ⟨rfl, -⟩ := Step.produce.inj h
    exact h
  · obtain ⟨rfl, -⟩ := Step.produce.inj h
    exact h
  · obtain ⟨rfl, -⟩ := Step.produce.inj h
    exact h
  · obtain ⟨rfl, -⟩ := Step.produce.inj h
    exact h
  · obtain ⟨rfl, -⟩ := Step.produce.inj h
    exact ⟨hmakefile, h⟩
  · obtain ⟨rfl, -⟩ := Step.produce.inj h
    exact ⟨htest, h⟩
  · obtain rfl := kind_of_mexSteps h
    exact ⟨hmatlab, h⟩
  · obtain rfl := kind_of_simulinkStep h
    exact ⟨hsimulink, h⟩
  · obtain ⟨rfl, -⟩ := Step.produce.inj h
    exact ⟨hexact, h⟩

/-- The files of the MATLAB interface that are C texts. -/
theorem copied_of_mexSteps (hinterface : o.matlabInterface = true) (hpath : IsHeader path ∨ IsSource path)
    {blame : String} {drafts : List Draft} (hstep : Step.produce kind blame drafts ∈ mexSteps o target)
    (hdraft : (⟨path, .ok text⟩ : Draft) ∈ drafts) :
    ∃ name t subs, Copied plan o kind name t subs ∧ path = place target name ∧ t.render "" true subs = .ok text := by
  unfold mexSteps at hstep
  dsimp only at hstep
  split at hstep
  · obtain ⟨-, -, h⟩ := produce_eq_single (List.mem_singleton.1 hstep) hdraft
    cases h
  · rename_i hconstraints
    rcases List.mem_cons.1 hstep with h | h
    · obtain ⟨rfl, rfl, h⟩ := produce_eq_single h hdraft
      exact ⟨_, _, _, .mexWrapper hinterface (by simpa using hconstraints), rfl, h⟩
    · -- The build script is no C text.
      exfalso
      have h := List.mem_singleton.1 h
      split at h
      · obtain ⟨-, rfl, -⟩ := produce_eq_single h hdraft
        have hending : ending (place target s!"make_{o.moduleName}_solver.m").text = ['m', '.'] :=
          ending_place _ (t := "_solver.m") (by decide)
        unfold IsHeader IsSource at hpath
        rw [hending] at hpath
        exact absurd hpath (by decide)
      · cases h

/-- The files of the Simulink interface that are C texts. -/
theorem copied_of_simulinkStep (hinterface : o.simulinkInterface = true) (hpath : IsHeader path ∨ IsSource path)
    {blame : String} {drafts : List Draft} (hstep : Step.produce kind blame drafts = simulinkStep plan o target)
    (hdraft : (⟨path, .ok text⟩ : Draft) ∈ drafts) :
    ∃ name t subs, Copied plan o kind name t subs ∧ path = place target name ∧ t.render "" true subs = .ok text := by
  unfold simulinkStep at hstep
  split at hstep
  · cases hstep
  · rename_i hbackend
    have hbackend : o.qpSolver.hasSFunction = true := by simpa using hbackend
    obtain ⟨rfl, -, rfl⟩ := Step.produce.inj hstep
    obtain ⟨f, hf, hdraft⟩ := List.mem_map.1 hdraft
    obtain ⟨rfl, htext⟩ := Draft.mk.inj hdraft
    obtain ⟨subs, hsubs, htext⟩ := Plan.bind_eq_ok htext
    simp only [simulinkFiles, List.mem_cons, List.not_mem_nil, or_false] at hf
    rcases hf with rfl | rfl | rfl
    · exact ⟨_, _, _, .sFunctionHeader hinterface hbackend hsubs, rfl, htext⟩
    · exact ⟨_, _, _, .sFunctionSource hinterface hbackend hsubs, rfl, htext⟩
    · exfalso
      have hending : ending (place target s!"make_{plan.constants.moduleName}_solver_sfunction.m").text = ['m', '.'] :=
        ending_place _ (t := "_solver_sfunction.m") (by decide)
      unfold IsHeader IsSource at hpath
      rw [hending] at hpath
      exact absurd hpath (by decide)

/-- The C files that are filled in are those files. -/
theorem copied_of_writes (hkind : kind ∈ copiedKinds) (hpath : IsHeader path ∨ IsSource path)
    (h : Writes plan o target kind path text) :
    ∃ name t subs, Copied plan o kind name t subs ∧ path = place target name ∧ t.render "" true subs = .ok text := by
  obtain ⟨blame, drafts, hstep, hdraft⟩ := h
  have hstep := isStepOf_of_mem hstep
  simp only [copiedKinds, List.mem_cons, List.not_mem_nil, or_false] at hkind
  rcases hkind with rfl | rfl | rfl | rfl
  · obtain ⟨-, -, rfl⟩ := Step.produce.inj hstep
    rcases List.mem_pair.1 hdraft with h | h
    · obtain ⟨rfl, htext⟩ := Draft.mk.inj h
      exact ⟨_, _, _, .auxiliaryHeader, rfl, htext.symm⟩
    · obtain ⟨rfl, htext⟩ := Draft.mk.inj h
      exact ⟨_, _, _, .auxiliarySource, rfl, htext.symm⟩
  · obtain ⟨htest, hstep⟩ := hstep
    obtain ⟨-, rfl, htext⟩ := produce_eq_single hstep hdraft
    exact ⟨_, _, _, .testProgram htest, rfl, htext⟩
  · obtain ⟨hmatlab, hstep⟩ := hstep
    exact copied_of_mexSteps hmatlab hpath hstep hdraft
  · obtain ⟨hsimulink, hstep⟩ := hstep
    exact copied_of_simulinkStep hsimulink hpath hstep hdraft

/-- What a step produces is written. -/
theorem writes_of_mem {blame : String} {drafts : List Draft} {result : Except Cause String}
    (hstep : Step.produce kind blame drafts ∈ steps plan o target) (hdraft : (⟨path, result⟩ : Draft) ∈ drafts)
    (hresult : result = .ok text) : Writes plan o target kind path text :=
  ⟨blame, drafts, hstep, hresult ▸ hdraft⟩

/-- Those files are written. -/
theorem writes_of_copied {name : String} {t : Template} {subs : Substitutions} (h : Copied plan o kind name t subs)
    (htext : t.render "" true subs = .ok text) : Writes plan o target kind (place target name) text := by
  have hauxiliary : auxiliaryStep o target ∈ steps plan o target := by
    simp only [steps, List.mem_append, List.mem_cons, true_or, or_true]
  have htest (h : o.testFile = true) : copyStep o target .testFile "test.c" .testProgram "" ∈ steps plan o target := by
    simp only [steps, if_pos h, List.mem_append, List.mem_singleton, true_or, or_true]
  have hmatlab (h : o.matlabInterface = true) {step : Step} (hstep : step ∈ mexSteps o target) :
      step ∈ steps plan o target := by
    simp only [steps, if_pos h, List.mem_append, hstep, true_or, or_true]
  have hsimulink (h : o.simulinkInterface = true) : simulinkStep plan o target ∈ steps plan o target := by
    simp only [steps, if_pos h, List.mem_append, List.mem_singleton, true_or, or_true]
  have hbuses {subs : Substitutions} {t : Template} (hsubs : simulinkSubstitutions plan.constants = .ok subs)
      (htext : t.render "" true subs = .ok text) :
      (do t.render "" true (← simulinkSubstitutions plan.constants)) = .ok text := by
    rw [hsubs]
    exact htext
  cases h with
  | auxiliaryHeader => exact writes_of_mem hauxiliary List.mem_cons_self htext
  | auxiliarySource => exact writes_of_mem hauxiliary (List.mem_cons_of_mem _ List.mem_cons_self) htext
  | testProgram h => exact writes_of_mem (htest h) List.mem_cons_self htext
  | mexWrapper h hconstraints =>
    have hstep : copyStep o target .mexInterface (o.moduleName.fileName "solver_mex" "c")
        (if o.hessian = .exact then .mexExactWrapper else .mexWrapper) "" ∈ mexSteps o target := by
      unfold mexSteps
      rw [hconstraints]
      exact List.mem_cons_self
    exact writes_of_mem (hmatlab h hstep) List.mem_cons_self htext
  | sFunctionHeader h hbackend hsubs =>
    have hstep := hsimulink h
    unfold simulinkStep at hstep
    rw [hbackend] at hstep
    exact writes_of_mem hstep List.mem_cons_self (hbuses hsubs htext)
  | sFunctionSource h hbackend hsubs =>
    have hstep := hsimulink h
    unfold simulinkStep at hstep
    rw [hbackend] at hstep
    exact writes_of_mem hstep (List.mem_cons_of_mem _ List.mem_cons_self) (hbuses hsubs htext)

theorem mem_copiedKinds {name : String} {t : Template} {subs : Substitutions} (h : Copied plan o kind name t subs) :
    kind ∈ copiedKinds := by
  cases h <;> decide

/-- The values fill a template of a C file. -/
structure Fills (m : ModuleName) (t : Template) (subs : Substitutions) : Prop where
  copied : t ∈ Template.copied
  value : ∀ name ∈ t.places, (subs.value? name).isSome = true
  words : Template.AllWords subs
  moduleName : Template.chars subs "MODULE_NAME" = m.text.toList

theorem fills_moduleName (m : ModuleName) {t : Template} (ht : t ∈ Template.copied)
    (hplaces : t.places = Template.modulePlaces) : Fills m t m.substitutions := by
  refine ⟨ht, fun name hname => ?_, allWords_moduleName m, rfl⟩
  rw [hplaces] at hname
  rcases List.mem_pair.1 hname with rfl | rfl <;> rfl

theorem fills_simulink {t : Template} (ht : t ∈ Template.copied) (hplaces : t.places ⊆ Template.sFunctionPlaces)
    {subs : Substitutions} (hsubs : simulinkSubstitutions plan.constants = .ok subs) :
    Fills plan.constants.moduleName t subs := by
  refine ⟨ht, fun name hname => isSome_value?_simulink hsubs (hplaces hname), allWords_simulink hsubs, ?_⟩
  unfold Template.chars
  rw [(busPlaces hsubs).moduleName]
  rfl

theorem fills_of_copied (hname : plan.constants.moduleName = o.moduleName) {name : String} {t : Template}
    {subs : Substitutions} (h : Copied plan o kind name t subs) : Fills o.moduleName t subs := by
  cases h with
  | auxiliaryHeader | auxiliarySource | testProgram => exact fills_moduleName _ (by decide) rfl
  | mexWrapper => split <;> exact fills_moduleName _ (by decide) rfl
  | sFunctionHeader _ _ hsubs => exact hname ▸ fills_simulink (by decide) (List.Subset.refl _) hsubs
  | sFunctionSource _ _ hsubs => exact hname ▸ fills_simulink (by decide) (List.subset_append_left _ _) hsubs

namespace Fills

variable {m : ModuleName} {t : Template} {subs : Substitutions}

theorem exists_render (h : Fills m t subs) : ∃ text, t.render "" true subs = .ok text := by
  obtain ⟨source, hdigest⟩ := Template.exists_digest h.copied
  exact Template.exists_render (fun name hname => h.value name (hdigest.places name hname)) ""

/-- What is read of a file is what is read of its template, with what the template refers to. -/
theorem read (h : Fills m t subs) (htext : t.render "" true subs = .ok text) :
    ∃ source, Template.Digest t source ∧ Source.read text.toList = some (source.fill (Template.chars subs)) := by
  obtain ⟨source, hdigest⟩ := Template.exists_digest h.copied
  exact ⟨source, hdigest, Template.read_render htext h.words hdigest.read⟩

end Fills

/-- A filled-in file is a C text. -/
theorem isC_of_copied {name : String} {t : Template} {subs : Substitutions} (h : Copied plan o kind name t subs) :
    IsHeader (place target name) ∨ IsSource (place target name) := by
  cases h with
  | auxiliaryHeader | sFunctionHeader => exact .inl (isHeader_place _ _)
  | auxiliarySource | mexWrapper | sFunctionSource => exact .inr (isSource_place _ _)
  | testProgram => exact .inr (ending_place "test" (t := ".c") (by decide))

end ControlCodegen.Export
