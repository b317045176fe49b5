import ControlCodegen.Export.Summary
import ControlCodegen.Proofs.Export.Inventory
import ControlCodegen.Proofs.Plan.Session
import ControlCodegen.Proofs.Problem.Check
import ControlCodegen.Proofs.Template.Values

/-!
# `Export.Artifacts`: the contents of the files of an export

* `Artifact`, `artifacts` : the files that options select, with their contents as a function of the plan.
* `entries_artifacts` : they are those of the inventory.
* `drafts_steps`, `prefix_artifacts` : the steps of an export produce them in order, up to the first one without
  contents.
* `hasText_artifacts` : every file has contents, except those of an interface that needs hard-coded constraint values.
-/

namespace ControlCodegen.Export

open Files

set_option autoImplicit false

/-- A file of an export. Its contents follow from the plan and from how types and numbers are spelled. -/
structure Artifact where
  kind : ArtifactKind
  name : FileName
  text : Plan → C.TypeNames → Nat → Except Cause String

namespace Artifact

section

variable (o : Options)

/-- A source file with the items of a program. -/
def ofProgram (kind : ArtifactKind) (name : FileName) (items : Plan → Except Cause (List C.Item)) : Artifact where
  kind := kind
  name := name
  text plan types precision :=
    let file : C.SourceFile := { path := ⟨""⟩, header := o.moduleName.commonHeader, types, precision }
    (items plan).map fun is => (file.add (fun s => s.instanceName o.moduleName) is).contents

/-- A file that is filled in with the values of the module only. -/
def copy (kind : ArtifactKind) (name : FileName) (t : Template) (token : String) : Artifact where
  kind := kind
  name := name
  text _ _ _ := t.render token true o.moduleName.substitutions

/-- A file of the MATLAB interface. -/
def mex (name : FileName) (t : Template) (token : String) : Artifact where
  kind := .mexInterface
  name := name
  text _ _ _ :=
    if o.hardcodedConstraints then t.render token true o.moduleName.substitutions else .error .matlabConstraints

end

/-- A file of the Simulink interface. -/
def sFunction (name : FileName) (t : Template) (token : String) : Artifact where
  kind := .simulinkInterface
  name := name
  text plan _ _ := do t.render token true (← simulinkSubstitutions plan.constants)

def regularization (o : Options) : Artifact where
  kind := .regularization
  name := .ofModule "hessian_regularization.c"
  text plan _ _ :=
    Regularization.text { moduleName := o.moduleName, dim := plan.constants.dims.nx + plan.constants.dims.nu }

/-- Where the file goes. -/
def path (a : Artifact) (o : Options) (target : Target) : Path := place target (a.name.text o.moduleName)

/-- The file before it is written. -/
def draft (a : Artifact) (o : Options) (plan : Plan) (target : Target) : ArtifactKind × Draft :=
  (a.kind, ⟨a.path o target, a.text plan target.types target.precision⟩)

end Artifact

section

variable (o : Options)

open FileName Artifact

def mexArtifacts : List Artifact :=
  mex o (ofModule "solver_mex.c") (if o.hessian = .exact then .mexExactWrapper else .mexWrapper) "" ::
    (mexTemplate o).toList.map fun t => mex o (script "solver.m") t "%"

def simulinkArtifacts : List Artifact :=
  [sFunction (ofModule "solver_sfunction.h") .sFunctionHeader "",
    sFunction (ofModule "solver_sfunction.c") .sFunctionSource "",
    sFunction (script "solver_sfunction.m") .sFunctionScript "%"]

/-- The files that are produced before those of the interfaces. -/
def commonArtifacts : List Artifact :=
  [⟨.commonHeader, ofModule "common.h", fun plan types _ => .ok (headerText plan types)⟩,
    ofProgram o .integratorSource (ofModule "integrator.c") fun plan => plan.integrator.items,
    ofProgram o .solverSource (ofModule "solver.c") fun plan => plan.solver.items,
    Artifact.copy o .auxiliaryFunctions (ofModule "auxiliary_functions.h") .auxiliaryHeader "",
    Artifact.copy o .auxiliaryFunctions (ofModule "auxiliary_functions.c") .auxiliarySource ""] ++
  (if o.makefile then [Artifact.copy o .makefile (fixed "Makefile") (makefileTemplate o) "#"] else []) ++
  (if o.testFile then [Artifact.copy o .testFile (fixed "test.c") .testProgram ""] else [])

/-- The files that options select, in order. -/
def artifacts : List Artifact :=
  commonArtifacts o ++
  (if o.matlabInterface then mexArtifacts o else []) ++
  (if o.simulinkInterface ∧ o.qpSolver.hasSFunction then simulinkArtifacts else []) ++
  (if o.hessian = .exact then [Artifact.regularization o] else [])

end

/-- What a file is and how it is called. -/
def Artifact.entry (a : Artifact) : ArtifactKind × FileName := (a.kind, a.name)

theorem mexTemplate_eq_none_iff {o : Options} : mexTemplate o = none ↔ o.qpSolver = .hpmpc := by
  unfold mexTemplate
  cases o.qpSolver <;> simp

theorem hasSFunction_iff {q : QpSolver} : q.hasSFunction = true ↔ q = .qpOases ∨ q = .qpDunes := by
  cases q <;> decide

/-- The selected files are those of the inventory. -/
theorem entries_artifacts (o : Options) : (artifacts o).map Artifact.entry = inventory o := by
  have hmex : (mexArtifacts o).map Artifact.entry =
      (.mexInterface, .ofModule "solver_mex.c") ::
        (if o.qpSolver = .hpmpc then [] else [(.mexInterface, .script "solver.m")]) := by
    unfold mexArtifacts
    cases h : mexTemplate o with
    | none =>
      rw [if_pos (mexTemplate_eq_none_iff.1 h)]
      rfl
    | some t =>
      have hne : ¬o.qpSolver = .hpmpc := fun hq => by
        rw [mexTemplate_eq_none_iff.2 hq] at h
        cases h
      rw [if_neg hne]
      rfl
  unfold artifacts commonArtifacts inventory
  simp only [List.map_append, apply_ite (List.map Artifact.entry), hmex, hasSFunction_iff]
  rfl

/-! ## The steps of an export -/

/-- The files that a step writes. -/
def Step.drafts : Step → List (ArtifactKind × Draft)
  | .produce kind _ drafts => drafts.map fun d => (kind, d)
  | .warn _ => []

/-- What a step warns of. -/
def Step.warning? : Step → Option String
  | .produce .. => none
  | .warn text => some text

/-- The contents of a source file do not depend on where it goes. -/
theorem contents_add (f : C.SourceFile) (path : Path) (instanceName : C.Struct → String) (items : List C.Item) :
    (({ f with path } : C.SourceFile).add instanceName items).contents = (f.add instanceName items).contents := by
  have hadd : ({ f with path } : C.SourceFile).add instanceName items = { f.add instanceName items with path } := by
    induction items generalizing f with
    | nil => rfl
    | cons item items ih => exact ih (f.addItem instanceName item)
  rw [hadd]
  rfl

theorem fileName_eq_text (m : ModuleName) {role ext name : String} (h : role ++ "." ++ ext = name) :
    m.fileName role ext = (FileName.ofModule name).text m := by
  change m.text ++ "_" ++ role ++ "." ++ ext = m.text ++ ("_" ++ name)
  rw [← h]
  simp only [String.append_assoc]

theorem make_eq_text (m : ModuleName) {role name : String} (h : "_" ++ name = role) :
    "make_" ++ m.text ++ role = (FileName.script name).text m := by
  rw [← h]
  rfl

section

variable {plan : Plan} {o : Options} {target : Target}

theorem drafts_headerStep : (headerStep plan o target).drafts =
    [Artifact.draft ⟨.commonHeader, .ofModule "common.h", fun plan types _ => .ok (headerText plan types)⟩ o plan
      target] := by
  have hname : o.moduleName.commonHeader = (FileName.ofModule "common.h").text o.moduleName :=
    fileName_eq_text _ (by rfl)
  unfold headerStep
  rw [hname]
  rfl

theorem drafts_sourceStep {kind : ArtifactKind} {role : String} (name : String) (h : role ++ "." ++ "c" = name)
    (items : Plan → Except Cause (List C.Item)) :
    (sourceStep o target kind role (items plan)).drafts =
      [(Artifact.ofProgram o kind (.ofModule name) items).draft o plan target] := by
  unfold sourceStep
  dsimp only
  rw [fileName_eq_text _ h]
  let file : C.SourceFile :=
    { path := ⟨""⟩, header := o.moduleName.commonHeader, types := target.types, precision := target.precision }
  have hcontents : ∀ path, (fun is => (({ file with path } : C.SourceFile).add (fun s => s.instanceName o.moduleName)
      is).contents) = fun is => (file.add (fun s => s.instanceName o.moduleName) is).contents :=
    fun path => funext fun is => contents_add file path _ is
  exact congrArg (fun contents => [(kind, Draft.mk _ ((items plan).map contents))]) (hcontents _)

theorem drafts_copyStep {kind : ArtifactKind} {name : String} (n : FileName) (h : n.text o.moduleName = name)
    (t : Template) (token : String) :
    (copyStep o target kind name t token).drafts = [(Artifact.copy o kind n t token).draft o plan target] := by
  rw [← h]
  rfl

theorem drafts_auxiliaryStep (plan : Plan) : (auxiliaryStep o target).drafts =
    [(Artifact.copy o .auxiliaryFunctions (.ofModule "auxiliary_functions.h") .auxiliaryHeader "").draft o plan target,
      (Artifact.copy o .auxiliaryFunctions (.ofModule "auxiliary_functions.c") .auxiliarySource "").draft o plan
        target] := by
  have hheader : o.moduleName.fileName "auxiliary_functions" "h" =
      (FileName.ofModule "auxiliary_functions.h").text o.moduleName := fileName_eq_text _ (by rfl)
  have hsource : o.moduleName.fileName "auxiliary_functions" "c" =
      (FileName.ofModule "auxiliary_functions.c").text o.moduleName := fileName_eq_text _ (by rfl)
  unfold auxiliaryStep
  dsimp only
  rw [hheader, hsource]
  rfl

/-- The steps before those of the interfaces. -/
def commonSteps (plan : Plan) (o : Options) (target : Target) : List Step :=
  [headerStep plan o target,
    sourceStep o target .integratorSource "integrator" plan.integrator.items,
    sourceStep o target .solverSource "solver" plan.solver.items,
    auxiliaryStep o target] ++
  (if o.makefile then [copyStep o target .makefile "Makefile" (makefileTemplate o) "#"] else []) ++
  (if o.testFile then [copyStep o target .testFile "test.c" .testProgram ""] else [])

theorem steps_eq : steps plan o target = commonSteps plan o target ++
    (if o.matlabInterface then mexSteps o target else []) ++
    (if o.simulinkInterface then [simulinkStep plan o target] else []) ++
    (if o.hessian = .exact then [regularizationStep plan o target] else []) := rfl

theorem drafts_commonSteps : (commonSteps plan o target).flatMap Step.drafts =
    (commonArtifacts o).map fun a => a.draft o plan target := by
  have hmakefile : (copyStep o target .makefile "Makefile" (makefileTemplate o) "#").drafts =
      [(Artifact.copy o .makefile (.fixed "Makefile") (makefileTemplate o) "#").draft o plan target] :=
    drafts_copyStep (.fixed "Makefile") rfl _ _
  have htest : (copyStep o target .testFile "test.c" .testProgram "").drafts =
      [(Artifact.copy o .testFile (.fixed "test.c") .testProgram "").draft o plan target] :=
    drafts_copyStep (.fixed "test.c") rfl _ _
  unfold commonSteps commonArtifacts
  simp only [List.flatMap_append, List.flatMap_cons, List.flatMap_nil, List.map_append,
    apply_ite (List.flatMap Step.drafts), apply_ite (List.map fun a : Artifact => a.draft o plan target)]
  rw [drafts_headerStep, drafts_sourceStep "integrator.c" rfl fun plan => plan.integrator.items,
    drafts_sourceStep "solver.c" rfl fun plan => plan.solver.items, drafts_auxiliaryStep plan,
    hmakefile, htest]
  rfl

theorem mexWrapper_eq_text (m : ModuleName) :
    m.fileName "solver_mex" "c" = (FileName.ofModule "solver_mex.c").text m :=
  fileName_eq_text _ (by rfl)

theorem drafts_mexSteps (h : o.hardcodedConstraints = true) :
    (mexSteps o target).flatMap Step.drafts = (mexArtifacts o).map fun a => a.draft o plan target := by
  have hmex (n : FileName) (t : Template) (token : String) :
      (Artifact.mex o n t token).draft o plan target =
        (Artifact.copy o .mexInterface n t token).draft o plan target := by
    unfold Artifact.draft Artifact.mex
    dsimp only
    rw [if_pos h]
    rfl
  have hscript : s!"make_{o.moduleName}_solver.m" = (FileName.script "solver.m").text o.moduleName :=
    make_eq_text _ (by rfl)
  unfold mexSteps mexArtifacts
  dsimp only
  rw [h, if_neg (by decide), mexWrapper_eq_text, hscript]
  cases mexTemplate o with
  | none =>
    rw [List.flatMap_cons, drafts_copyStep _ rfl, ← hmex]
    rfl
  | some t =>
    rw [List.flatMap_cons, List.flatMap_singleton, drafts_copyStep _ rfl, drafts_copyStep _ rfl, ← hmex, ← hmex]
    rfl

/-- Without hard-coded constraint values the wrapper is all there is to the MATLAB interface, and it has no contents. -/
theorem drafts_mexSteps_error (plan : Plan) (target : Target) (h : o.hardcodedConstraints = false) :
    ∃ a, (mexArtifacts o).head? = some a ∧ (mexSteps o target).flatMap Step.drafts = [a.draft o plan target] ∧
      (a.draft o plan target).2.text = .error .matlabConstraints := by
  refine ⟨_, rfl, ?_, ?_⟩
  · unfold mexSteps
    dsimp only
    rw [h, mexWrapper_eq_text]
    unfold Artifact.draft Artifact.mex
    dsimp only
    rw [h]
    rfl
  · unfold Artifact.draft Artifact.mex
    dsimp only
    rw [h]
    rfl

theorem drafts_simulinkStep (hname : plan.constants.moduleName = o.moduleName) :
    (simulinkStep plan o target).drafts =
      if o.qpSolver.hasSFunction then simulinkArtifacts.map fun a => a.draft o plan target else [] := by
  have hheader : o.moduleName.fileName "solver_sfunction" "h" =
      (FileName.ofModule "solver_sfunction.h").text o.moduleName := fileName_eq_text _ (by rfl)
  have hsource : o.moduleName.fileName "solver_sfunction" "c" =
      (FileName.ofModule "solver_sfunction.c").text o.moduleName := fileName_eq_text _ (by rfl)
  have hscript : s!"make_{o.moduleName}_solver_sfunction.m" =
      (FileName.script "solver_sfunction.m").text o.moduleName := make_eq_text _ (by rfl)
  unfold simulinkStep simulinkFiles
  rw [hname, hheader, hsource, hscript]
  cases o.qpSolver.hasSFunction <;> rfl

theorem drafts_regularizationStep :
    (regularizationStep plan o target).drafts = [(Artifact.regularization o).draft o plan target] := by
  have hname : o.moduleName.fileName "hessian_regularization" "c" =
      (FileName.ofModule "hessian_regularization.c").text o.moduleName := fileName_eq_text _ (by rfl)
  unfold regularizationStep Regularization.fileName
  dsimp only
  rw [hname]
  rfl

/-- The steps of an export produce the selected files in order. -/
theorem drafts_steps (hname : plan.constants.moduleName = o.moduleName)
    (h : o.matlabInterface = true → o.hardcodedConstraints = true) :
    (steps plan o target).flatMap Step.drafts = (artifacts o).map fun a => a.draft o plan target := by
  rw [steps_eq]
  unfold artifacts
  simp only [List.flatMap_append, List.flatMap_cons, List.flatMap_nil, List.map_append, List.append_nil,
    apply_ite (List.flatMap Step.drafts), apply_ite (List.map fun a : Artifact => a.draft o plan target), List.map_nil,
    List.map_cons]
  rw [drafts_commonSteps, drafts_simulinkStep hname, drafts_regularizationStep, ite_and]
  congr 3
  split
  · rename_i hmatlab
    exact drafts_mexSteps (h hmatlab)
  · rfl

theorem sublist_mexSteps (plan : Plan) (o : Options) (target : Target) :
    ((mexSteps o target).flatMap Step.drafts).Sublist ((mexArtifacts o).map fun a => a.draft o plan target) := by
  cases h : o.hardcodedConstraints with
  | true => rw [drafts_mexSteps h]
  | false =>
    obtain ⟨a, ha, hdrafts, -⟩ := drafts_mexSteps_error plan target h
    obtain ⟨rest, hrest⟩ := List.head?_eq_some_iff.1 ha
    rw [hdrafts, hrest, List.map_cons]
    exact (List.nil_sublist _).cons_cons _

/-- The steps of an export produce no other files than the selected ones, and each at most once. -/
theorem sublist_steps (hname : plan.constants.moduleName = o.moduleName) :
    ((steps plan o target).flatMap Step.drafts).Sublist ((artifacts o).map fun a => a.draft o plan target) := by
  have hmex : ((if o.matlabInterface then mexSteps o target else []).flatMap Step.drafts).Sublist
      ((if o.matlabInterface then mexArtifacts o else []).map fun a => a.draft o plan target) := by
    split
    · exact sublist_mexSteps plan o target
    · exact List.nil_sublist _
  have hsimulink : (if o.simulinkInterface then [simulinkStep plan o target] else []).flatMap Step.drafts =
      (if o.simulinkInterface ∧ o.qpSolver.hasSFunction then simulinkArtifacts else []).map fun a =>
        a.draft o plan target := by
    rw [ite_and]
    split
    · rw [List.flatMap_singleton, drafts_simulinkStep hname]
      split <;> rfl
    · rfl
  have hregularization : (if o.hessian = .exact then [regularizationStep plan o target] else []).flatMap Step.drafts =
      (if o.hessian = .exact then [Artifact.regularization o] else []).map fun a => a.draft o plan target := by
    split
    · rw [List.flatMap_singleton, drafts_regularizationStep]
      rfl
    · rfl
  rw [steps_eq]
  unfold artifacts
  rw [List.flatMap_append, List.flatMap_append, List.flatMap_append, List.map_append, List.map_append, List.map_append,
    drafts_commonSteps, hsimulink, hregularization]
  exact (((List.Sublist.refl _).append hmex).append (.refl _)).append (.refl _)

/-- What an export is warned of. -/
theorem warnings_steps (h : o.matlabInterface = true → o.hardcodedConstraints = true) :
    (steps plan o target).filterMap Step.warning? = warnings o := by
  have hcommon : (commonSteps plan o target).filterMap Step.warning? = [] := by
    unfold commonSteps
    cases o.makefile <;> cases o.testFile <;> rfl
  have hmex (hmatlab : o.matlabInterface = true) : (mexSteps o target).filterMap Step.warning? =
      if o.qpSolver = .hpmpc then
        [s!"MEX build script is not available for {o.qpSolver.display}; " ++
          "the wrapper source was exported without it"]
      else [] := by
    unfold mexSteps
    dsimp only
    rw [h hmatlab, if_neg (by decide)]
    cases hmex : mexTemplate o with
    | none =>
      rw [if_pos (mexTemplate_eq_none_iff.1 hmex)]
      rfl
    | some t =>
      have hne : ¬o.qpSolver = .hpmpc := fun hq => by
        rw [mexTemplate_eq_none_iff.2 hq] at hmex
        cases hmex
      rw [if_neg hne]
      rfl
  have hsimulink : [simulinkStep plan o target].filterMap Step.warning? =
      if o.qpSolver = .forces ∨ o.qpSolver = .hpmpc then
        ["The Simulink interface is available only with qpOASES and qpDUNES based solvers, " ++
          s!"skipped for {o.qpSolver.display}"]
      else [] := by
    unfold simulinkStep
    cases o.qpSolver <;> rfl
  have hregularization : (if o.hessian = .exact then [regularizationStep plan o target] else []).filterMap
      Step.warning? = [] := by
    split <;> rfl
  rw [steps_eq, List.filterMap_append, List.filterMap_append, List.filterMap_append, hcommon, hregularization,
    List.nil_append, List.append_nil]
  unfold warnings
  rw [ite_and, ite_and]
  refine congrArg₂ (· ++ ·) ?_ ?_
  · split
    · rename_i hmatlab
      exact hmex hmatlab
    · rfl
  · split
    · exact hsimulink
    · rfl

end

/-! ## Files with contents -/

/-- A file with its contents. -/
structure File where
  kind : ArtifactKind
  path : Path
  text : String

namespace File

def draft (f : File) : ArtifactKind × Draft := (f.kind, ⟨f.path, .ok f.text⟩)

/-- What is written, and to which path. -/
def content (f : File) : Path × ByteArray := (f.path, f.text.toUTF8)

/-- The record of the file as it is written. -/
def record (f : File) : ArtifactRecord := .ofBytes f.kind f.path f.text.toUTF8

end File

section

variable {plan : Plan} {o : Options} {target : Target}

/-- What comes before an entry that is not among them. -/
theorem prefix_of_notMem {α : Type} {l front rest : List α} {x : α} (h : l <+: front ++ x :: rest) (hx : x ∉ l) :
    l <+: front := by
  rcases List.prefix_or_prefix_of_prefix h (List.prefix_append front (x :: rest)) with hl | ⟨t, rfl⟩
  · exact hl
  · cases t with
    | nil => exact ⟨[], by simp⟩
    | cons y t =>
      obtain ⟨rest', h⟩ := h
      rw [List.append_assoc, List.append_cancel_left_eq] at h
      obtain ⟨rfl, -⟩ := List.cons.inj h
      exact absurd (List.mem_append_right front List.mem_cons_self) hx

/-- What has no contents is not written. -/
theorem notMem_of_error {x : ArtifactKind × Draft} {c : Cause} (h : x.2.text = .error c) (files : List File) :
    x ∉ files.map File.draft := by
  intro hmem
  obtain ⟨f, -, rfl⟩ := List.mem_map.1 hmem
  cases h

/-- Where all files have contents, the MATLAB interface has its constraint values. -/
theorem hardcoded_of_files {files : List File} (h : (steps plan o target).flatMap Step.drafts = files.map File.draft)
    (hmatlab : o.matlabInterface = true) : o.hardcodedConstraints = true := by
  by_contra hconstraints
  rw [Bool.not_eq_true] at hconstraints
  obtain ⟨a, -, hdrafts, htext⟩ := drafts_mexSteps_error plan target hconstraints
  have hmem : a.draft o plan target ∈ files.map File.draft := by
    rw [← h, steps_eq, if_pos hmatlab]
    simp only [List.flatMap_append, hdrafts, List.mem_append, List.mem_singleton, true_or, or_true]
  exact notMem_of_error htext files hmem

/-- The files that an export has got through are the first ones of the selection. -/
theorem prefix_artifacts (hname : plan.constants.moduleName = o.moduleName) {files : List File}
    (h : files.map File.draft <+: (steps plan o target).flatMap Step.drafts) :
    files.map File.draft <+: (artifacts o).map fun a => a.draft o plan target := by
  by_cases hmatlab : o.matlabInterface = true → o.hardcodedConstraints = true
  · rw [drafts_steps hname hmatlab] at h
    exact h
  · -- The MEX wrapper has no contents, and nothing comes after it.
    rw [Classical.not_imp, Bool.not_eq_true] at hmatlab
    obtain ⟨a, ha, hdrafts, htext⟩ := drafts_mexSteps_error plan target hmatlab.2
    have hnot : a.draft o plan target ∉ files.map File.draft := notMem_of_error htext files
    obtain ⟨rest, hrest⟩ := List.head?_eq_some_iff.1 ha
    rw [steps_eq, if_pos hmatlab.1, List.flatMap_append, List.flatMap_append, List.flatMap_append, drafts_commonSteps,
      hdrafts, List.append_assoc, List.append_assoc, List.singleton_append] at h
    have hcommon := prefix_of_notMem h hnot
    unfold artifacts
    rw [List.append_assoc, List.append_assoc, List.map_append]
    exact hcommon.trans (List.prefix_append _ _)

end

/-! ## Contents -/

/-- A file of an interface to another system. -/
def isInterface : ArtifactKind → Bool
  | .mexInterface | .simulinkInterface => true
  | _ => false

/-- The contents of a file, or the interface that is to blame. -/
inductive HasText (o : Options) (a : Artifact) (result : Except Cause String) : Prop where
  | text (s : String) (hinterface : isInterface a.kind = true → o.hardcodedConstraints = true) (h : result = .ok s)
  | matlab (hkind : a.kind = .mexInterface) (ho : o.matlabInterface = true)
    (hconstraints : o.hardcodedConstraints = false) (h : result = .error .matlabConstraints)
  | simulink (hkind : a.kind = .simulinkInterface) (ho : o.simulinkInterface = true)
    (hconstraints : o.hardcodedConstraints = false) (h : result = .error .simulinkConstraints)

section

variable {o : Options}

theorem exists_text_ofProgram (items : Plan → Except Cause (List C.Item)) {plan : Plan} {is : List C.Item}
    (h : items plan = .ok is) (kind : ArtifactKind) (n : FileName) (types : C.TypeNames) (precision : Nat) :
    ∃ s, (Artifact.ofProgram o kind n items).text plan types precision = .ok s := by
  unfold Artifact.ofProgram
  dsimp only
  rw [h]
  exact ⟨_, rfl⟩

theorem exists_text_copy {t : Template} (ht : t.valueNames = Template.modulePlaces) (token : String)
    (kind : ArtifactKind) (n : FileName) (plan : Plan) (types : C.TypeNames) (precision : Nat) :
    ∃ s, (Artifact.copy o kind n t token).text plan types precision = .ok s :=
  Template.exists_render_of_names (by rw [ht]; exact List.Subset.refl _) token

theorem hasText_mex {t : Template} (ht : t.valueNames = Template.modulePlaces) (token : String) (n : FileName)
    (ho : o.matlabInterface = true) (plan : Plan) (types : C.TypeNames) (precision : Nat) :
    HasText o (Artifact.mex o n t token) ((Artifact.mex o n t token).text plan types precision) := by
  obtain ⟨s, hs⟩ := exists_text_copy (o := o) ht token .mexInterface n plan types precision
  by_cases hconstraints : o.hardcodedConstraints = true
  · exact .text s (fun _ => hconstraints) ((if_pos hconstraints).trans hs)
  · exact .matlab rfl ho (by simpa using hconstraints) (if_neg hconstraints)

theorem valueNames_makefileTemplate (o : Options) : (makefileTemplate o).valueNames = Template.modulePlaces := by
  unfold makefileTemplate
  cases o.qpSolver <;> cases decide (o.hessian = .exact) <;> rfl

theorem valueNames_mexTemplate {t : Template} (h : mexTemplate o = some t) : t.valueNames = Template.modulePlaces := by
  unfold mexTemplate at h
  dsimp only at h
  split at h
  · obtain rfl := Option.some.inj h
    split <;> rfl
  · obtain rfl := Option.some.inj h
    rfl
  · obtain rfl := Option.some.inj h
    split
    · rfl
    · split <;> rfl
  · cases h

theorem hasText_mexArtifacts {a : Artifact} (h : a ∈ mexArtifacts o) (ho : o.matlabInterface = true) (plan : Plan)
    (types : C.TypeNames) (precision : Nat) : HasText o a (a.text plan types precision) := by
  unfold mexArtifacts at h
  rcases List.mem_cons.1 h with rfl | h
  · have ht : (if o.hessian = .exact then Template.mexExactWrapper else .mexWrapper).valueNames =
        Template.modulePlaces := by
      split <;> rfl
    exact hasText_mex ht "" _ ho plan types precision
  · obtain ⟨t, ht, rfl⟩ := List.mem_map.1 h
    rw [Option.mem_toList] at ht
    exact hasText_mex (valueNames_mexTemplate ht) "%" _ ho plan types precision

theorem simulinkSubstitutions_of_hardcoded {c : Constants} (hbackend : c.qpSolver.hasSFunction = true)
    (hconstraints : c.hardcodedConstraints = true) :
    ∃ subs, simulinkSubstitutions c = .ok subs ∧ subs.map Prod.fst = Template.sFunctionPlaces := by
  unfold simulinkSubstitutions
  rw [hbackend, hconstraints]
  exact ⟨_, rfl, rfl⟩

theorem simulinkSubstitutions_of_not_hardcoded {c : Constants} (hbackend : c.qpSolver.hasSFunction = true)
    (hconstraints : c.hardcodedConstraints = false) : simulinkSubstitutions c = .error .simulinkConstraints := by
  unfold simulinkSubstitutions
  rw [hbackend, hconstraints]
  rfl

theorem hasText_sFunction {t : Template} (ht : t.valueNames = Template.sFunctionPlaces) (token : String) (n : FileName)
    (ho : o.simulinkInterface = true) {plan : Plan} (hbackend : plan.constants.qpSolver.hasSFunction = true)
    (hplan : plan.constants.hardcodedConstraints = o.hardcodedConstraints) (types : C.TypeNames) (precision : Nat) :
    HasText o (Artifact.sFunction n t token) ((Artifact.sFunction n t token).text plan types precision) := by
  cases hconstraints : o.hardcodedConstraints with
  | true =>
    obtain ⟨subs, hsubs, hnames⟩ := simulinkSubstitutions_of_hardcoded hbackend (hplan.trans hconstraints)
    have hall : t.valueNames ⊆ subs.map Prod.fst := by
      rw [ht, hnames]
      exact List.Subset.refl _
    obtain ⟨s, hs⟩ := Template.exists_render_of_values hsubs hall token
    exact .text s (fun _ => hconstraints) hs
  | false =>
    refine .simulink rfl ho hconstraints ?_
    unfold Artifact.sFunction
    dsimp only
    rw [simulinkSubstitutions_of_not_hardcoded hbackend (hplan.trans hconstraints)]
    rfl

theorem hasText_simulinkArtifacts {a : Artifact} (h : a ∈ simulinkArtifacts) (ho : o.simulinkInterface = true)
    {plan : Plan} (hbackend : plan.constants.qpSolver.hasSFunction = true)
    (hplan : plan.constants.hardcodedConstraints = o.hardcodedConstraints) (types : C.TypeNames) (precision : Nat) :
    HasText o a (a.text plan types precision) := by
  simp only [simulinkArtifacts, List.mem_cons, List.not_mem_nil, or_false] at h
  rcases h with rfl | rfl | rfl
  · exact hasText_sFunction rfl "" _ ho hbackend hplan types precision
  · exact hasText_sFunction rfl "" _ ho hbackend hplan types precision
  · exact hasText_sFunction rfl "%" _ ho hbackend hplan types precision

variable {p : Problem} {r : Integrator.Registry} {plan : Plan}

theorem hasText_commonArtifacts (hplan : Plan.resolve p o r = .ok plan) {a : Artifact} (h : a ∈ commonArtifacts o)
    (types : C.TypeNames) (precision : Nat) : HasText o a (a.text plan types precision) := by
  have hcopy {kind : ArtifactKind} {n : FileName} {t : Template} {token : String} (hkind : isInterface kind = false)
      (ht : t.valueNames = Template.modulePlaces) : HasText o (Artifact.copy o kind n t token)
        ((Artifact.copy o kind n t token).text plan types precision) := by
    obtain ⟨s, hs⟩ := exists_text_copy (o := o) ht token kind n plan types precision
    exact .text s (fun h => absurd (hkind.symm.trans h) Bool.false_ne_true) hs
  obtain ⟨g, k, -, rfl, -⟩ := Plan.resolve_assemble hplan
  simp only [commonArtifacts, List.mem_append, List.mem_cons, List.not_mem_nil, or_false, List.mem_ite_nil_right] at h
  rcases h with ((rfl | rfl | rfl | rfl | rfl) | ⟨-, rfl⟩) | ⟨-, rfl⟩
  · exact .text _ nofun rfl
  · obtain ⟨s, hs⟩ := exists_text_ofProgram (o := o) (fun plan => plan.integrator.items) (items_integrator p o k g)
      .integratorSource (.ofModule "integrator.c") types precision
    exact .text s nofun hs
  · obtain ⟨s, hs⟩ := exists_text_ofProgram (o := o) (fun plan => plan.solver.items) (items_solver p o k g)
      .solverSource (.ofModule "solver.c") types precision
    exact .text s nofun hs
  · exact hcopy rfl rfl
  · exact hcopy rfl rfl
  · exact hcopy rfl (valueNames_makefileTemplate o)
  · exact hcopy rfl rfl

/-- Every selected file has contents, but for the interfaces and the regularization. -/
theorem hasText_or_eq (hplan : Plan.resolve p o r = .ok plan) {a : Artifact} (h : a ∈ artifacts o)
    (types : C.TypeNames) (precision : Nat) :
    HasText o a (a.text plan types precision) ∨ a = Artifact.regularization o := by
  have hcommon (h : a ∈ commonArtifacts o) := hasText_commonArtifacts hplan h types precision
  obtain ⟨g, k, -, rfl, -⟩ := Plan.resolve_assemble hplan
  simp only [artifacts, List.mem_append, List.mem_ite_nil_right, List.mem_singleton] at h
  rcases h with ((h | ⟨ho, h⟩) | ⟨⟨ho, hbackend⟩, h⟩) | ⟨-, rfl⟩
  · exact .inl (hcommon h)
  · exact .inl (hasText_mexArtifacts h ho _ types precision)
  · exact .inl (hasText_simulinkArtifacts h ho hbackend rfl types precision)
  · exact .inr rfl

/-- Every selected file of a checked problem has contents, but for the interfaces. -/
theorem hasText_artifacts (hp : p.check = .ok ()) (hplan : Plan.resolve p o r = .ok plan) {a : Artifact}
    (h : a ∈ artifacts o) (types : C.TypeNames) (precision : Nat) : HasText o a (a.text plan types precision) := by
  rcases hasText_or_eq hplan h types precision with htext | rfl
  · exact htext
  · obtain ⟨g, k, -, rfl, -⟩ := Plan.resolve_assemble hplan
    have hdim : 0 < p.dimensions.nx + p.dimensions.nu := Nat.add_pos_left (Problem.check_ok hp).states _
    obtain ⟨s, hs⟩ := Regularization.exists_text o.moduleName hdim
    exact .text s nofun hs

/-- Without hard-coded constraint values the files of the interfaces have no contents. -/
theorem exists_error_of_interface (hplan : Plan.resolve p o r = .ok plan) {a : Artifact} (h : a ∈ artifacts o)
    (hinterface : isInterface a.kind = true) (hconstraints : o.hardcodedConstraints = false) (types : C.TypeNames)
    (precision : Nat) : ∃ c, a.text plan types precision = .error c := by
  rcases hasText_or_eq hplan h types precision with htext | rfl
  · cases htext with
    | text s hneeds _ => exact absurd (hneeds hinterface) (by rw [hconstraints]; decide)
    | matlab _ _ _ h | simulink _ _ _ h => exact ⟨_, h⟩
  · cases hinterface

end

end ControlCodegen.Export
