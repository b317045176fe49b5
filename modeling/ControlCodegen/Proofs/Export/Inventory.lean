import ControlCodegen.Export.Steps
import ControlCodegen.Proofs.Export.Copies
import ControlCodegen.Proofs.Files.Path

/-!
# `Export.Inventory`: which files and which warnings options ask for

* `FileName` : how a file is called after the module.
* `place_inj` : different names are different files in the directory.
* `inventory`, `warnings` : the files that options select, in order, and what is left out.
* `isFileName_of_mem`, `nodup_inventory` : whatever the module is called, these are different names in one directory.
-/

namespace ControlCodegen.Export

open Files

set_option autoImplicit false

/-! ## Names -/

/-- A file name. -/
inductive FileName where
  /-- Starts with the name of the module. -/
  | ofModule (role : String)
  /-- The script that makes something of the module. -/
  | script (role : String)
  /-- The same for all modules. -/
  | fixed (name : String)
  deriving DecidableEq, Repr

namespace FileName

/-- What stands behind the name of the module, or the whole name. -/
def suffix : FileName → String
  | ofModule role | script role => "_" ++ role
  | fixed name => name

/-- The name for a module. -/
def text (n : FileName) (m : ModuleName) : String :=
  match n with
  | ofModule _ => m.text ++ n.suffix
  | script _ => "make_" ++ m.text ++ n.suffix
  | fixed _ => n.suffix

/-- All names that files can have. -/
def all : List FileName :=
  [.ofModule "common.h", .ofModule "integrator.c", .ofModule "solver.c", .ofModule "auxiliary_functions.h",
    .ofModule "auxiliary_functions.c", .fixed "Makefile", .fixed "test.c", .ofModule "solver_mex.c", .script "solver.m",
    .ofModule "solver_sfunction.h", .ofModule "solver_sfunction.c", .script "solver_sfunction.m",
    .ofModule "hessian_regularization.c"]

/-- Which kind of name it is. -/
def sort : FileName → Nat
  | ofModule _ => 0
  | script _ => 1
  | fixed _ => 2

/-- The last three characters, last one first. -/
def lastThree (s : String) : List Char := s.toList.reverse.take 3

theorem lastThree_append (s : String) {t : String} (h : 3 ≤ t.length) : lastThree (s ++ t) = lastThree t := by
  have hlength : 3 ≤ t.toList.reverse.length := by
    rw [List.length_reverse, String.length_toList]
    exact h
  unfold lastThree
  rw [String.toList_append, List.reverse_append, List.take_append_of_le_length hlength]

theorem length_suffix : ∀ n ∈ all, 3 ≤ n.suffix.length := by
  decide

theorem lastThree_text {n : FileName} (hn : n ∈ all) (m : ModuleName) : lastThree (n.text m) = lastThree n.suffix := by
  have hlength := length_suffix n hn
  cases n with
  | ofModule role => exact lastThree_append _ hlength
  | script role => exact lastThree_append _ hlength
  | fixed name => rfl

/-- The last characters tell the kinds of names apart. -/
theorem sort_of_lastThree : ∀ n ∈ all, ∀ n' ∈ all, lastThree n.suffix = lastThree n'.suffix → n.sort = n'.sort := by
  decide +kernel

/-- Different names are different for every module. -/
theorem text_inj {n n' : FileName} (hn : n ∈ all) (hn' : n' ∈ all) {m : ModuleName} (h : n.text m = n'.text m) :
    n = n' := by
  have hsort : n.sort = n'.sort := by
    apply sort_of_lastThree n hn n' hn'
    rw [← lastThree_text hn m, ← lastThree_text hn' m, h]
  cases n with
  | ofModule role =>
    cases n' with
    | ofModule role' =>
      have hroles : "_" ++ role = "_" ++ role' := String.append_right_inj _ |>.1 h
      rw [(String.append_right_inj _).1 hroles]
    | script role' | fixed name => cases hsort
  | script role =>
    cases n' with
    | script role' =>
      have hroles : "_" ++ role = "_" ++ role' := String.append_right_inj _ |>.1 h
      rw [(String.append_right_inj _).1 hroles]
    | ofModule role' | fixed name => cases hsort
  | fixed name =>
    cases n' with
    | fixed name' => exact congrArg fixed h
    | ofModule role | script role => cases hsort

/-- The characters of file names. -/
def isFileChar (c : Char) : Bool := isIdentifierTail c || c = '.'

theorem isFileChar_suffix {n : FileName} (hn : n ∈ all) {c : Char} (hc : c ∈ n.suffix.toList) :
    isFileChar c = true := by
  have hall : (all.all fun n => n.suffix.toList.all isFileChar) = true := by decide +kernel
  exact List.all_eq_true.1 (List.all_eq_true.1 hall n hn) c hc

theorem isFileChar_text {n : FileName} (hn : n ∈ all) (m : ModuleName) {c : Char} (hc : c ∈ (n.text m).toList) :
    isFileChar c = true := by
  have hsuffix (hc : c ∈ n.suffix.toList) := isFileChar_suffix hn hc
  have hmodule (h : c ∈ m.text.toList) : isFileChar c = true :=
    Bool.or_eq_true_iff.2 (.inl ((isWord_moduleName m).2 c h))
  have hmake (hc : c ∈ "make_".toList) : isFileChar c = true := List.all_eq_true.1 (by decide +kernel) c hc
  cases n with
  | ofModule role =>
    unfold text at hc
    rw [String.toList_append] at hc
    exact (List.mem_append.1 hc).elim hmodule hsuffix
  | script role =>
    unfold text at hc
    rw [String.toList_append, String.toList_append] at hc
    exact (List.mem_append.1 hc).elim (fun hc => (List.mem_append.1 hc).elim hmake hmodule) hsuffix
  | fixed name => exact hsuffix hc

theorem notMem_text {n : FileName} (hn : n ∈ all) (m : ModuleName) {c : Char} (hc : isFileChar c = false) :
    c ∉ (n.text m).toList := by
  intro hmem
  rw [isFileChar_text hn m hmem] at hc
  cases hc

/-- Every name leads to a file in the directory, and nowhere else. -/
theorem isFileName {n : FileName} (hn : n ∈ all) (m : ModuleName) : IsFileName (n.text m) := by
  have hlength : 3 ≤ (n.text m).length := by
    have hsuffix := length_suffix n hn
    cases n with
    | ofModule role | script role =>
      unfold text
      rw [String.length_append]
      omega
    | fixed name => exact hsuffix
  refine ⟨fun h => ?_, notMem_text hn m (by decide), fun h => ?_, fun h => ?_⟩
  · rw [← String.length_toList, h] at hlength
    exact absurd hlength (by decide)
  · rw [h] at hlength
    exact absurd hlength (by decide)
  · rw [h] at hlength
    exact absurd hlength (by decide)

end FileName

/-! ## Places -/

/-- A file in the directory of an export goes by its name. -/
theorem fileName_place {name : String} (hname : IsFileName name) (target : Target) :
    (place target name).fileName? = some name := by
  unfold place Path.fileName?
  rw [Path.components_join hname, List.getLast?_append, List.getLast?_singleton, Option.some_or,
    Option.filter_some, if_pos]
  simp [hname.notAbove, hname.notHere]

theorem place_inj {name name' : String} (hname : IsFileName name) (hname' : IsFileName name') {target : Target}
    (h : place target name = place target name') : name = name' := by
  have hnames := congrArg Path.fileName? h
  rw [fileName_place hname, fileName_place hname'] at hnames
  exact Option.some.inj hnames

/-! ## What options ask for -/

open ArtifactKind FileName in
/-- The files that options select, in order. -/
def inventory (o : Options) : List (ArtifactKind × FileName) :=
  [(commonHeader, ofModule "common.h"), (integratorSource, ofModule "integrator.c"),
    (solverSource, ofModule "solver.c"), (auxiliaryFunctions, ofModule "auxiliary_functions.h"),
    (auxiliaryFunctions, ofModule "auxiliary_functions.c")] ++
  (if o.makefile then [(makefile, fixed "Makefile")] else []) ++
  (if o.testFile then [(testFile, fixed "test.c")] else []) ++
  (if o.matlabInterface then
    (mexInterface, ofModule "solver_mex.c") ::
      (if o.qpSolver = .hpmpc then [] else [(mexInterface, script "solver.m")])
  else []) ++
  (if o.simulinkInterface ∧ (o.qpSolver = .qpOases ∨ o.qpSolver = .qpDunes) then
    [(simulinkInterface, ofModule "solver_sfunction.h"), (simulinkInterface, ofModule "solver_sfunction.c"),
      (simulinkInterface, script "solver_sfunction.m")]
  else []) ++
  (if o.hessian = .exact then [(regularization, ofModule "hessian_regularization.c")] else [])

/-- What is left out of the selection. -/
def warnings (o : Options) : List String :=
  (if o.matlabInterface ∧ o.qpSolver = .hpmpc then
    [s!"MEX build script is not available for {o.qpSolver.display}; " ++
      "the wrapper source was exported without it"]
  else []) ++
  (if o.simulinkInterface ∧ (o.qpSolver = .forces ∨ o.qpSolver = .hpmpc) then
    ["The Simulink interface is available only with qpOASES and qpDUNES based solvers, " ++
      s!"skipped for {o.qpSolver.display}"]
  else [])

theorem ite_nil_sublist {c : Prop} [Decidable c] {α : Type} (l : List α) : (if c then l else []).Sublist l := by
  by_cases hc : c
  · rw [if_pos hc]
  · rw [if_neg hc]
    exact List.nil_sublist l

theorem nil_ite_sublist {c : Prop} [Decidable c] {α : Type} (l : List α) : (if c then [] else l).Sublist l := by
  by_cases hc : c
  · rw [if_pos hc]
    exact List.nil_sublist l
  · rw [if_neg hc]

open FileName in
theorem sublist_inventory (o : Options) : ((inventory o).map Prod.snd).Sublist all := by
  have hparts : all =
      [ofModule "common.h", ofModule "integrator.c", ofModule "solver.c", ofModule "auxiliary_functions.h",
        ofModule "auxiliary_functions.c"] ++ [fixed "Makefile"] ++ [fixed "test.c"] ++
      [ofModule "solver_mex.c", script "solver.m"] ++
      [ofModule "solver_sfunction.h", ofModule "solver_sfunction.c", script "solver_sfunction.m"] ++
      [ofModule "hessian_regularization.c"] := rfl
  unfold inventory
  rw [hparts]
  simp only [List.map_append, apply_ite (List.map Prod.snd), List.map_cons, List.map_nil]
  apply List.Sublist.append
  · apply List.Sublist.append
    · apply List.Sublist.append
      · apply List.Sublist.append
        · exact (List.Sublist.refl _).append (ite_nil_sublist _)
        · exact ite_nil_sublist _
      · exact (ite_nil_sublist _).trans ((nil_ite_sublist _).cons_cons _)
    · exact ite_nil_sublist _
  · exact ite_nil_sublist _

theorem mem_all_of_mem {o : Options} {x : ArtifactKind × FileName} (h : x ∈ inventory o) : x.2 ∈ FileName.all :=
  (sublist_inventory o).subset (List.mem_map_of_mem h)

/-- The names of the files are all different. -/
theorem nodup_inventory (o : Options) (m : ModuleName) : ((inventory o).map fun x => x.2.text m).Nodup := by
  have hall : FileName.all.Nodup := by decide
  have hnames := hall.sublist (sublist_inventory o)
  have htext := hnames.map_on (f := fun n => n.text m) fun n hn n' hn' h => by
    exact FileName.text_inj ((sublist_inventory o).subset hn) ((sublist_inventory o).subset hn') h
  rw [List.map_map] at htext
  exact htext

example : (inventory { simulinkInterface := true, hessian := .exact }).map (fun x => x.2.text .standard) =
    ["acado_common.h", "acado_integrator.c", "acado_solver.c", "acado_auxiliary_functions.h",
      "acado_auxiliary_functions.c", "Makefile", "test.c", "acado_solver_sfunction.h", "acado_solver_sfunction.c",
      "make_acado_solver_sfunction.m", "acado_hessian_regularization.c"] := by
  decide

end ControlCodegen.Export
