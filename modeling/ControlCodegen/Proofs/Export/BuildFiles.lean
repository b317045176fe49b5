import ControlCodegen.Proofs.Export.Success
import ControlCodegen.Proofs.Template.Build

/-!
# `Export.BuildFiles`: whether the build files cover the sources

* `BuildFile`, `BuiltFrom` : the makefile and the build scripts, with their templates.
* `NamesWritten`, `ListsWritten` : the sources that a build file names are there, and those that are there are listed in
  it.
* `Wrote`, `Completed.covers` : what an export has written, and its build files on the disk.
* `build_file_covers_iff` : every build file of an export names sources only that were written. It lists all of them
  unless the regularization is written and there is no variant of the build file for the exact Hessian.
-/

namespace ControlCodegen.Export

open Build C Files

set_option autoImplicit false

/-! ## Build files -/

/-- The files that compile the generated sources. -/
inductive BuildFile where
  | makefile
  | mexScript
  | sFunctionScript
  deriving DecidableEq, Repr

namespace BuildFile

def name : BuildFile → FileName
  | makefile => .fixed "Makefile"
  | mexScript => .script "solver.m"
  | sFunctionScript => .script "solver_sfunction.m"

theorem name_mem (b : BuildFile) : b.name ∈ FileName.all := by
  cases b <;> decide

/-- Whether there is a variant for the exact Hessian. -/
def hasExact (q : QpSolver) : BuildFile → Bool
  | makefile | mexScript => q = .qpOases || q = .qpDunes
  | sFunctionScript => false

end BuildFile

/-- The templates of the build files. -/
inductive BuiltFrom (o : Options) : BuildFile → Template → Prop where
  | makefile : BuiltFrom o .makefile (makefileTemplate o)
  | mexScript {t : Template} (h : mexTemplate o = some t) : BuiltFrom o .mexScript t
  | sFunctionScript : BuiltFrom o .sFunctionScript .sFunctionScript

section

variable {o : Options} {b : BuildFile} {t : Template}

theorem makefileTemplate_mem (o : Options) : makefileTemplate o ∈ Template.makefiles := by
  unfold makefileTemplate
  cases o.qpSolver <;> cases decide (o.hessian = .exact) <;> decide

theorem mexTemplate_mem (h : mexTemplate o = some t) : t ∈ Template.mexScripts := by
  unfold mexTemplate at h
  dsimp only at h
  split at h
  · obtain rfl := Option.some.inj h
    split <;> decide
  · obtain rfl := Option.some.inj h
    decide
  · obtain rfl := Option.some.inj h
    split
    · decide
    · split <;> decide
  · cases h

theorem BuiltFrom.digest (h : BuiltFrom o b t) : t.BuildDigest := by
  cases h with
  | makefile => exact Template.buildDigest_makefile (makefileTemplate_mem o)
  | mexScript h => exact Template.buildDigest_mexScript (mexTemplate_mem h)
  | sFunctionScript => exact Template.buildDigest_sFunctionScript

/-- The regularization is compiled where there is a variant for the exact Hessian. -/
theorem BuiltFrom.listed_eq (h : BuiltFrom o b t) :
    t.listed = Template.coreSources ++
      (if o.hessian = .exact ∧ b.hasExact o.qpSolver = true then ["_hessian_regularization.c"] else []) ++
      (if b = .sFunctionScript then ["_solver_sfunction.c"] else []) := by
  cases h with
  | makefile =>
    unfold makefileTemplate
    by_cases hexact : o.hessian = .exact
    · rw [hexact]
      cases o.qpSolver <;> rfl
    · rw [decide_eq_false hexact, if_neg fun h => hexact h.1]
      cases o.qpSolver <;> rfl
  | mexScript h =>
    unfold mexTemplate at h
    by_cases hexact : o.hessian = .exact
    · rw [hexact] at h ⊢
      cases hq : o.qpSolver <;> rw [hq] at h <;> cases h <;> rfl
    · rw [decide_eq_false hexact] at h
      rw [if_neg fun h => hexact h.1]
      cases hq : o.qpSolver with
      | qpDunes =>
        rw [hq] at h
        obtain rfl := Option.some.inj h
        rw [if_neg Bool.false_ne_true]
        split <;> rfl
      | qpOases | forces =>
        rw [hq] at h
        obtain rfl := Option.some.inj h
        rfl
      | hpmpc =>
        rw [hq] at h
        cases h
  | sFunctionScript =>
    rw [if_neg fun h => Bool.false_ne_true h.2]
    rfl

/-- What a build file names beyond what it compiles. -/
theorem BuiltFrom.named_eq (h : BuiltFrom o b t) :
    t.named = t.listed ++ (if b = .mexScript then ["_solver_mex.c"] else []) ++ Template.interfaces := by
  have hmem : t ∈ Template.mexScripts ↔ b = .mexScript := by
    cases h with
    | makefile =>
      refine iff_of_false (fun h => ?_) BuildFile.noConfusion
      exact (by decide : ∀ t ∈ Template.makefiles, t ∉ Template.mexScripts) _ (makefileTemplate_mem o) h
    | mexScript h => exact iff_of_true (mexTemplate_mem h) rfl
    | sFunctionScript => exact iff_of_false (by decide) BuildFile.noConfusion
  unfold Template.named
  simp only [hmem]

/-- The build file among the files of an export. -/
theorem artifact_of_name {a : Artifact} (ha : a ∈ artifacts o) (hname : a.name = b.name) :
    match b with
    | .makefile => a = .copy o .makefile (.fixed "Makefile") (makefileTemplate o) "#"
    | .mexScript => ∃ t, mexTemplate o = some t ∧ a = .mex o (.script "solver.m") t "%"
    | .sFunctionScript => a = .sFunction (.script "solver_sfunction.m") .sFunctionScript "%" := by
  simp only [artifacts, commonArtifacts, mexArtifacts, simulinkArtifacts, List.mem_append, List.mem_cons,
    List.not_mem_nil, or_false, List.mem_ite_nil_right, List.mem_map, Option.mem_toList] at ha
  rcases ha with
    (((((rfl | rfl | rfl | rfl | rfl) | ⟨-, rfl⟩) | ⟨-, rfl⟩) | ⟨-, rfl | ⟨t, ht, rfl⟩⟩) | ⟨-, rfl | rfl | rfl⟩) |
      ⟨-, rfl⟩
  all_goals
    cases b <;>
      simp [Artifact.copy, Artifact.mex, Artifact.sFunction, Artifact.ofProgram, Artifact.regularization,
        BuildFile.name] at hname ⊢
  exact ⟨t, ht, rfl⟩

/-- A build file is rendered from its template. -/
theorem exists_builtFrom {a : Artifact} (ha : a ∈ artifacts o) (hname : a.name = b.name) {plan : Plan}
    (hplan : plan.constants.moduleName = o.moduleName) {types : TypeNames} {precision : Nat} {text : String}
    (htext : a.text plan types precision = .ok text) :
    ∃ t subs, BuiltFrom o b t ∧ t.render t.commentToken true subs = .ok text ∧ Template.AllWords subs ∧
      Template.chars subs "MODULE_NAME" = o.moduleName.text.toList := by
  cases b with
  | makefile =>
    have hartifact : a = .copy o .makefile (.fixed "Makefile") (makefileTemplate o) "#" := artifact_of_name ha hname
    subst hartifact
    have htoken : (makefileTemplate o).commentToken = "#" := if_pos (makefileTemplate_mem o)
    exact ⟨_, _, .makefile, htoken ▸ htext, allWords_moduleName _, rfl⟩
  | mexScript =>
    obtain ⟨t, ht, rfl⟩ := artifact_of_name ha hname
    have htoken : t.commentToken = "%" :=
      if_neg ((by decide : ∀ t ∈ Template.mexScripts, t ∉ Template.makefiles) t (mexTemplate_mem ht))
    by_cases hconstraints : o.hardcodedConstraints = true
    · refine ⟨_, _, .mexScript ht, ?_, allWords_moduleName _, rfl⟩
      rw [htoken]
      exact (if_pos hconstraints).symm.trans htext
    · cases (if_neg hconstraints).symm.trans htext
  | sFunctionScript =>
    have hartifact : a = .sFunction (.script "solver_sfunction.m") .sFunctionScript "%" := artifact_of_name ha hname
    subst hartifact
    obtain ⟨subs, hsubs, htext⟩ := Plan.bind_eq_ok htext
    refine ⟨_, _, .sFunctionScript, htext, allWords_simulink hsubs, ?_⟩
    unfold Template.chars
    rw [(busPlaces hsubs).moduleName, hplan]
    rfl

/-! ## Sources that are written -/

/-- The C sources of a module. -/
def cSources : List FileName :=
  [.ofModule "integrator.c", .ofModule "solver.c", .ofModule "auxiliary_functions.c", .ofModule "solver_mex.c",
    .ofModule "solver_sfunction.c", .ofModule "hessian_regularization.c"]

/-- The files that are C sources of the module are these. -/
theorem mem_cSources {n : FileName} (hn : n ∈ FileName.all) {m : ModuleName}
    (h : IsModuleSource m.text.toList (n.text m).toList) : n ∈ cSources := by
  obtain ⟨stem, -, hname⟩ := h
  have hending : (FileName.lastThree n.suffix).take 2 = ['c', '.'] := by
    rw [← FileName.lastThree_text hn m]
    unfold FileName.lastThree
    rw [hname]
    simp
  have htest : n ≠ .fixed "test.c" := by
    rintro rfl
    have hmem : '_' ∈ "test.c".toList := by
      change "test.c".toList = _ at hname
      rw [hname]
      simp
    exact absurd hmem (by decide)
  exact (by decide : ∀ n ∈ FileName.all, (FileName.lastThree n.suffix).take 2 = ['c', '.'] → n ≠ .fixed "test.c" →
    n ∈ cSources) n hn hending htest

/-- The names of the selected files. -/
def fileNames (o : Options) : List FileName := (inventory o).map Prod.snd

open FileName in
theorem mem_fileNames_iff {n : FileName} : n ∈ fileNames o ↔
    n ∈ [ofModule "common.h", ofModule "integrator.c", ofModule "solver.c", ofModule "auxiliary_functions.h",
      ofModule "auxiliary_functions.c"] ∨
    (o.makefile = true ∧ n = fixed "Makefile") ∨ (o.testFile = true ∧ n = fixed "test.c") ∨
    (o.matlabInterface = true ∧ (n = ofModule "solver_mex.c" ∨ ¬o.qpSolver = .hpmpc ∧ n = script "solver.m")) ∨
    ((o.simulinkInterface = true ∧ (o.qpSolver = .qpOases ∨ o.qpSolver = .qpDunes)) ∧
      n ∈ [ofModule "solver_sfunction.h", ofModule "solver_sfunction.c", script "solver_sfunction.m"]) ∨
    (o.hessian = .exact ∧ n = ofModule "hessian_regularization.c") := by
  unfold fileNames inventory
  simp only [List.map_append, apply_ite (List.map Prod.snd), List.map_cons, List.map_nil, List.mem_append,
    List.mem_ite_nil_right, List.mem_ite_nil_left, List.mem_cons, List.not_mem_nil, or_false, or_assoc]

theorem mem_all_of_mem_fileNames {n : FileName} (h : n ∈ fileNames o) : n ∈ FileName.all :=
  (sublist_inventory o).subset h

theorem regularization_mem_iff : .ofModule "hessian_regularization.c" ∈ fileNames o ↔ o.hessian = .exact := by
  rw [mem_fileNames_iff]
  simp

/-- A script comes with the wrapper that it compiles. -/
theorem mexWrapper_mem (h : BuildFile.mexScript.name ∈ fileNames o) : .ofModule "solver_mex.c" ∈ fileNames o := by
  rw [mem_fileNames_iff] at h ⊢
  simp [BuildFile.name] at h
  simp [h]

theorem sFunctionSource_mem (h : BuildFile.sFunctionScript.name ∈ fileNames o) :
    .ofModule "solver_sfunction.c" ∈ fileNames o := by
  rw [mem_fileNames_iff] at h ⊢
  simp [BuildFile.name] at h
  simp [h]

/-- The name of a file that is selected. -/
def Selected (o : Options) (name : String) : Prop := ∃ n ∈ fileNames o, n.text o.moduleName = name

theorem text_ofModule (m : ModuleName) {role s : String} (h : "_" ++ role = s) :
    (FileName.ofModule role).text m = m.text ++ s := by
  rw [← h]
  rfl

theorem selected_core {s : String} (hs : s ∈ Template.coreSources) : Selected o (o.moduleName.text ++ s) := by
  simp only [Template.coreSources, List.mem_cons, List.not_mem_nil, or_false] at hs
  rcases hs with rfl | rfl | rfl
  · exact ⟨.ofModule "integrator.c", mem_fileNames_iff.2 (.inl (by decide)), text_ofModule _ (by decide)⟩
  · exact ⟨.ofModule "solver.c", mem_fileNames_iff.2 (.inl (by decide)), text_ofModule _ (by decide)⟩
  · exact ⟨.ofModule "auxiliary_functions.c", mem_fileNames_iff.2 (.inl (by decide)), text_ofModule _ (by decide)⟩

/-- The sources that a build file names are selected, but for the interfaces of the backends. -/
theorem BuiltFrom.selected_of_mem (h : BuiltFrom o b t) (hb : b.name ∈ fileNames o) {s : String} (hs : s ∈ t.named) :
    s ∈ Template.interfaces ∨ Selected o (o.moduleName.text ++ s) := by
  rw [h.named_eq, h.listed_eq] at hs
  simp only [List.mem_append, List.mem_ite_nil_right, List.mem_singleton] at hs
  rcases hs with (((hs | ⟨⟨hexact, -⟩, rfl⟩) | ⟨rfl, rfl⟩) | ⟨rfl, rfl⟩) | hs
  · exact .inr (selected_core hs)
  · exact .inr ⟨_, regularization_mem_iff.2 hexact, text_ofModule _ (by decide)⟩
  · exact .inr ⟨_, sFunctionSource_mem hb, text_ofModule _ (by decide)⟩
  · exact .inr ⟨_, mexWrapper_mem hb, text_ofModule _ (by decide)⟩
  · exact .inl hs

/-! ## Coverage -/

/-- Every source of the module that a build file names is there, but for the interfaces of the backends. -/
def NamesWritten (m : ModuleName) (wrote : String → Prop) (text : String) : Prop :=
  ∀ w ∈ (lines text.toList).flatten, ∀ name : String, fileOf w = name.toList →
    IsModuleSource m.text.toList name.toList →
    (∀ q : QpSolver, name ≠ m.fileName (Choice.name q ++ "_interface") "c") → wrote name

/-- Every source of the module is listed in a build file, but for the wrappers of MATLAB and Simulink. -/
def ListsWritten (m : ModuleName) (wrote : String → Prop) (text : String) : Prop :=
  ∀ name, wrote name → IsModuleSource m.text.toList name.toList → name ≠ m.fileName "solver_mex" "c" →
    name ≠ m.fileName "solver_sfunction" "c" →
      ∃ w, Lists text.toList "OCP_SOURCES".toList w ∧ fileOf w = name.toList

theorem fileName_eq_append (m : ModuleName) {role s : String} (h : "_" ++ (role ++ ".c") = s) :
    m.fileName role "c" = m.text ++ s := by
  have hname : role ++ "." ++ "c" = role ++ ".c" := by
    rw [String.append_assoc]
    rfl
  rw [fileName_eq_text m hname, text_ofModule m h]

section

variable {v : String → List Char} (hv : ∀ name, Lexeme.IsWord (v name))
  (hm : v "MODULE_NAME" = o.moduleName.text.toList) {text : String} (htext : text.toList = fillWord v t.headed)

include hv hm htext

/-- What a source is called that a build file names. -/
theorem BuiltFrom.mem_named (h : BuiltFrom o b t) {w : List Char} (hw : w ∈ (lines text.toList).flatten) {name : String}
    (hfile : fileOf w = name.toList) (hsource : IsModuleSource o.moduleName.text.toList name.toList) :
    ∃ s ∈ t.named, name = o.moduleName.text ++ s := by
  rw [htext] at hw
  obtain ⟨s, hs, hname⟩ := h.digest.mem_named hv hm hw (hfile ▸ hsource)
  refine ⟨s, hs, String.toList_inj.1 ?_⟩
  rw [← hfile, hname, String.toList_append]

theorem BuiltFrom.namesWritten (h : BuiltFrom o b t) (hb : b.name ∈ fileNames o) :
    NamesWritten o.moduleName (Selected o) text := by
  intro w hw name hfile hsource hinterface
  obtain ⟨s, hs, rfl⟩ := h.mem_named hv hm htext hw hfile hsource
  refine (h.selected_of_mem hb hs).resolve_left fun hs => ?_
  obtain ⟨q, -, rfl⟩ := List.mem_map.1 hs
  exact hinterface q (fileName_eq_append _ (by rw [String.append_assoc]; rfl)).symm

/-- A build file lists everything unless the regularization is there and not compiled. -/
theorem BuiltFrom.listsWritten_iff (h : BuiltFrom o b t) :
    ListsWritten o.moduleName (Selected o) text ↔ (o.hessian = .exact → b.hasExact o.qpSolver = true) := by
  constructor
  · intro hlists hexact
    have hname : (FileName.ofModule "hessian_regularization.c").text o.moduleName =
        o.moduleName.text ++ "_hessian_regularization.c" := text_ofModule _ (by decide)
    have hsource : IsModuleSource o.moduleName.text.toList (o.moduleName.text ++ "_hessian_regularization.c").toList :=
      ⟨"hessian_regularization".toList, by decide, String.toList_append⟩
    obtain ⟨w, hw, hfile⟩ := hlists _ ⟨_, regularization_mem_iff.2 hexact, hname⟩ hsource
      (fun h => by
        rw [fileName_eq_append _ (s := "_solver_mex.c") (by decide), String.append_right_inj] at h
        exact absurd h (by decide))
      (fun h => by
        rw [fileName_eq_append _ (s := "_solver_sfunction.c") (by decide), String.append_right_inj] at h
        exact absurd h (by decide))
    obtain ⟨s, hs, heq⟩ := h.mem_named hv hm htext hw.mem_lines hfile hsource
    obtain rfl := (String.append_right_inj _).1 heq
    rw [h.named_eq, h.listed_eq] at hs
    simp only [List.mem_append, List.mem_ite_nil_right, List.mem_singleton] at hs
    rcases hs with (((hs | ⟨⟨-, hvariant⟩, -⟩) | ⟨-, hs⟩) | ⟨-, hs⟩) | hs
    · exact absurd hs (by decide)
    · exact hvariant
    · exact absurd hs (by decide)
    · exact absurd hs (by decide)
    · exact absurd hs (by decide)
  · rintro hvariant _ ⟨n, hn, rfl⟩ hsource hmex hsFunction
    have hlisted {role s : String} (hrole : "_" ++ role = s) (hs : s ∈ t.listed) :
        ∃ w, Lists text.toList "OCP_SOURCES".toList w ∧
          fileOf w = ((FileName.ofModule role).text o.moduleName).toList := by
      rw [htext, text_ofModule _ hrole, String.toList_append]
      exact h.digest.lists hv hm hs
    have hcore {s : String} (hs : s ∈ Template.coreSources) : s ∈ t.listed := by
      rw [h.listed_eq]
      exact List.mem_append_left _ (List.mem_append_left _ hs)
    have hmem := mem_cSources (mem_all_of_mem_fileNames hn) hsource
    simp only [cSources, List.mem_cons, List.not_mem_nil, or_false] at hmem
    rcases hmem with rfl | rfl | rfl | rfl | rfl | rfl
    · exact hlisted (s := "_integrator.c") (by decide) (hcore (by decide))
    · exact hlisted (s := "_solver.c") (by decide) (hcore (by decide))
    · exact hlisted (s := "_auxiliary_functions.c") (by decide) (hcore (by decide))
    · exact absurd (fileName_eq_text _ (by decide)).symm hmex
    · exact absurd (fileName_eq_text _ (by decide)).symm hsFunction
    · have hexact := regularization_mem_iff.1 hn
      refine hlisted (s := "_hessian_regularization.c") (by decide) ?_
      rw [h.listed_eq, if_pos ⟨hexact, hvariant hexact⟩]
      exact List.mem_append_left _ (List.mem_append_right _ List.mem_cons_self)

end

end

/-! ## Exports -/

/-- An export has written a file of this name into its directory. -/
def Wrote (summary : Summary) (target : Target) (name : String) : Prop :=
  ∃ r ∈ summary.artifacts, r.path = place target name

theorem isFileName_of_isModuleSource {m : ModuleName} {name : String}
    (h : IsModuleSource m.text.toList name.toList) : IsFileName name := by
  obtain ⟨stem, hstem, hname⟩ := h
  have hmem : '_' ∈ name.toList := by
    rw [hname]
    simp
  refine ⟨List.ne_nil_of_mem hmem, fun hslash => ?_, ?_, ?_⟩
  · rw [hname, List.mem_append, List.mem_cons, List.mem_append] at hslash
    rcases hslash with hslash | hslash | hslash | hslash
    · exact absurd ((isWord_moduleName m).2 _ hslash) (by decide)
    · exact absurd hslash (by decide)
    · exact hstem hslash
    · exact absurd hslash (by decide)
  · rintro rfl
    exact absurd hmem (by decide)
  · rintro rfl
    exact absurd hmem (by decide)

section

variable {s : Session} {target : Target} {now : Moment} {d d' : Disk} {outcome : Outcome} {plan : Plan}
  {files : List File} {summary : Summary}

/-- What an export writes is what is selected. -/
theorem Completed.wrote_iff (h : Completed s target now d outcome d' plan files) (hok : outcome.result = .ok summary)
    {name : String} (hname : IsFileName name) : Wrote summary target name ↔ Selected s.options name := by
  have hpaths : summary.artifacts.map ArtifactRecord.path =
      (fileNames s.options).map fun n => place target (n.text s.options.moduleName) := by
    have hdrafts := congrArg (List.map fun x : ArtifactKind × Draft => x.2.path) h.all
    unfold fileNames
    rw [h.artifacts_eq hok, ← entries_artifacts]
    simp only [List.map_map] at hdrafts ⊢
    exact hdrafts
  have hmem : Wrote summary target name ↔ place target name ∈ summary.artifacts.map ArtifactRecord.path :=
    List.mem_map.symm
  rw [hmem, hpaths, List.mem_map]
  refine exists_congr fun n => and_congr_right fun hn => ⟨fun hplace => ?_, congrArg (place target)⟩
  exact place_inj (FileName.isFileName (mem_all_of_mem_fileNames hn) _) hname hplace

/-- A build file on the disk, with what it names and lists. -/
theorem Completed.covers (hs : s.Coherent) (h : Completed s target now d outcome d' plan files)
    (hok : outcome.result = .ok summary) {r : ArtifactRecord} (hr : r ∈ summary.artifacts) {b : BuildFile}
    (hpath : r.path = place target (b.name.text s.options.moduleName)) :
    ∃ text, d'.read r.path = .ok text.toUTF8 ∧ NamesWritten s.options.moduleName (Wrote summary target) text ∧
      (ListsWritten s.options.moduleName (Wrote summary target) text ↔
        (s.options.hessian = .exact → b.hasExact s.options.qpSolver = true)) := by
  obtain ⟨a, ha, hplaced, text, htext, hread⟩ := h.exists_artifact hok hr
  have hentry : a.name ∈ fileNames s.options := by
    unfold fileNames
    rw [← entries_artifacts, List.map_map]
    exact List.mem_map_of_mem ha
  have hname : a.name = b.name := by
    have hall := mem_all_of_mem_fileNames hentry
    have hplace : place target (a.name.text s.options.moduleName) = place target (b.name.text s.options.moduleName) :=
      hplaced.symm.trans hpath
    exact FileName.text_inj hall b.name_mem
      (place_inj (FileName.isFileName hall _) (FileName.isFileName b.name_mem _) hplace)
  obtain ⟨t, subs, hbuilt, hrender, hsubs, hmodule⟩ := exists_builtFrom ha hname (h.moduleName_eq hs) htext
  obtain ⟨v, hv, hm, hfill⟩ := Template.exists_fill hrender hsubs (isWord_moduleName _) hmodule
  have hwrote {name : String} (hsource : IsModuleSource s.options.moduleName.text.toList name.toList) :
      Wrote summary target name ↔ Selected s.options name :=
    h.wrote_iff hok (isFileName_of_isModuleSource hsource)
  refine ⟨text, hread, fun w hw name hfile hsource hinterface => ?_, ?_⟩
  · exact (hwrote hsource).2 (hbuilt.namesWritten hv hm hfill (hname ▸ hentry) w hw name hfile hsource hinterface)
  · rw [← hbuilt.listsWritten_iff hv hm hfill]
    exact forall_congr' fun name => ⟨fun h hselected hsource => h ((hwrote hsource).2 hselected) hsource,
      fun h hwritten hsource => h ((hwrote hsource).1 hwritten) hsource⟩

/-- Every source of the module that a build file of an export names was written, but for the interfaces of the backends.
It lists all that were written if and only if there is a variant for the exact Hessian, where it is used. -/
theorem build_file_covers_iff (hs : s.Coherent) (h : exportOn s target now d = (outcome, d'))
    (hok : outcome.result = .ok summary) {r : ArtifactRecord} (hr : r ∈ summary.artifacts) {b : BuildFile}
    (hpath : r.path = place target (b.name.text s.options.moduleName)) :
    ∃ text, d'.read r.path = .ok text.toUTF8 ∧ NamesWritten s.options.moduleName (Wrote summary target) text ∧
      (ListsWritten s.options.moduleName (Wrote summary target) text ↔
        (s.options.hessian = .exact → b.hasExact s.options.qpSolver = true)) := by
  obtain ⟨plan, files, hcompleted⟩ := completed_of_ok hs h hok
  exact hcompleted.covers hs hok hr hpath

end

/-- The small problem with the exact Hessian and the Simulink interface. -/
def exactSimulinkSession : Session :=
  { problem := smallProblem, options := { simulinkInterface := true, hessian := .exact } }

/-- An export of it into the working directory, where there is nothing. -/
theorem exists_exactSimulink : ∃ outcome d' summary,
    exportOn exactSimulinkSession { dir := ⟨""⟩ } ⟨0, 0, 0⟩ {} = (outcome, d') ∧ outcome.result = .ok summary ∧
      ∀ b ∈ [BuildFile.makefile, .sFunctionScript], ∃ r ∈ summary.artifacts,
        r.path = place { dir := ⟨""⟩ } (b.name.text .standard) := by
  have hsummary : ∃ summary, (exportOn exactSimulinkSession { dir := ⟨""⟩ } ⟨0, 0, 0⟩ {}).1.result = .ok summary :=
    exists_summary_empty (Session.coherent_of_none rfl) (by rfl) ⟨_, _, by rfl⟩ rfl rfl rfl _
  obtain ⟨summary, hok⟩ := hsummary
  rcases h : exportOn exactSimulinkSession { dir := ⟨""⟩ } ⟨0, 0, 0⟩ {} with ⟨outcome, d'⟩
  rw [h] at hok
  obtain ⟨plan, files, hcompleted⟩ := completed_of_ok (Session.coherent_of_none rfl) h hok
  refine ⟨outcome, d', summary, rfl, hok, fun b hb => ?_⟩
  have hmem : b.name ∈ fileNames exactSimulinkSession.options :=
    (by decide : ∀ b ∈ [BuildFile.makefile, .sFunctionScript], b.name ∈ fileNames exactSimulinkSession.options) b hb
  exact (hcompleted.wrote_iff hok (FileName.isFileName b.name_mem _)).2 ⟨b.name, hmem, rfl⟩

/-- Its makefile lists all sources. -/
theorem build_file_covers_iff_exactSimulink : ∃ outcome d' summary r text,
    exportOn exactSimulinkSession { dir := ⟨""⟩ } ⟨0, 0, 0⟩ {} = (outcome, d') ∧ outcome.result = .ok summary ∧
      r ∈ summary.artifacts ∧ r.path = place { dir := ⟨""⟩ } "Makefile" ∧ d'.read r.path = .ok text.toUTF8 ∧
      NamesWritten .standard (Wrote summary { dir := ⟨""⟩ }) text ∧
      ListsWritten .standard (Wrote summary { dir := ⟨""⟩ }) text := by
  obtain ⟨outcome, d', summary, h, hok, hrecords⟩ := exists_exactSimulink
  obtain ⟨r, hr, hpath⟩ := hrecords .makefile (by decide)
  obtain ⟨text, hread, hnames, hlists⟩ :=
    build_file_covers_iff (b := .makefile) (Session.coherent_of_none rfl) h hok hr hpath
  exact ⟨outcome, d', summary, r, text, h, hok, hr, hpath, hread, hnames, hlists.2 fun _ => rfl⟩

/-- Its build script of the S-function does not: the regularization is written and not compiled. -/
theorem uncovered_regularization_exactSimulink : ∃ outcome d' summary r text,
    exportOn exactSimulinkSession { dir := ⟨""⟩ } ⟨0, 0, 0⟩ {} = (outcome, d') ∧ outcome.result = .ok summary ∧
      r ∈ summary.artifacts ∧ r.path = place { dir := ⟨""⟩ } "make_acado_solver_sfunction.m" ∧
      d'.read r.path = .ok text.toUTF8 ∧ ¬ListsWritten .standard (Wrote summary { dir := ⟨""⟩ }) text := by
  obtain ⟨outcome, d', summary, h, hok, hrecords⟩ := exists_exactSimulink
  obtain ⟨r, hr, hpath⟩ := hrecords .sFunctionScript (by decide)
  obtain ⟨plan, files, hcompleted⟩ := completed_of_ok (Session.coherent_of_none rfl) h hok
  obtain ⟨text, hread, -, hlists⟩ :=
    hcompleted.covers (b := .sFunctionScript) (Session.coherent_of_none rfl) hok hr hpath
  exact ⟨outcome, d', summary, r, text, h, hok, hr, hpath, hread, fun hall => Bool.false_ne_true (hlists.1 hall rfl)⟩

end ControlCodegen.Export
