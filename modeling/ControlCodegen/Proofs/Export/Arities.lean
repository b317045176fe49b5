import ControlCodegen.Proofs.Export.Mentions
import ControlCodegen.Proofs.Export.Interval

/-!
# `Export.Arities`: calls have as many arguments as functions have parameters

* `HasArity`, `HasArity.unique` : the number of parameters of a function that is generated or supplied, by the name; the
  name tells it.
* `CalledWith`, `DeclaredWith` : a C file calls a function, one of the headers declares it.
* `Expected`, `expected_of_calledWith`, `expected_of_declaredWith` : so is done with the right number, or the function is
  one of the model.
* `CallsMatch`, `calls_match_iff` : every call matches if and only if no test program is written and no other function goes
  by the name of one of the model.
* `two_of_ending` : when no other function does.

The test program shifts the states with three arguments, and the function has two parameters.
-/

namespace ControlCodegen

open C C.Preprocessor Integrator Plan Template Text

set_option autoImplicit false

/-! ## CalledWith in generated functions -/

namespace Integrator

variable (g : Integrator) (b : Binding)

theorem calls_prologue : (prologue g b).calls = [] := by
  unfold prologue
  cases b.discretized <;> rfl

theorem calls_steps :
    (steps g b).calls.map (fun c => (c.function, c.args.length)) =
      if b.discretized then [(b.rhs, 2)]
      else
        match g.newtonSystem b with
        | some system => [(b.jacobian, 2), (b.rhs, 2), (system.solveName, 3), (system.solveAgainName, 3)]
        | none => [(b.rhs, 2)] := by
  unfold steps
  split
  · rfl
  · unfold computeStages
    cases g.newtonSystem b <;> rfl

theorem calls_function : (function g b).body.calls = (steps g b).calls := by
  have hbody : (function g b).body = .seq (prologue g b) (.seq (steps g b) (.returnInt "error")) := rfl
  rw [hbody, Stmt.calls_seq, Stmt.calls_seq, calls_prologue, List.nil_append]
  exact List.append_nil _

end Integrator

namespace Solver

/-- The calls of all functions of a solver. -/
theorem calls_functions (s : Solver) (l : Link) :
    ((s.functions l).flatMap fun f => f.body.calls).map (fun c => (c.function, c.args.length)) =
      [(l.function, if l.takesIndex then 3 else 2), (s.simulationPrototype.name, 0), (s.objectivePrototype.name, 0),
        (s.qpSolvePrototype.name, 0)] := by
  have hfeedback : (feedbackBody s).calls = [⟨s.qpSolvePrototype.name, []⟩] := by
    unfold feedbackBody
    split <;> rfl
  have hfunctions : ((s.functions l).flatMap fun f => f.body.calls) =
      (simulationBody s l).calls ++ ((preparationBody s).calls ++ ((feedbackBody s).calls ++ [])) := rfl
  rw [hfunctions, calls_simulationBody, hfeedback]
  cases l.takesIndex <;> rfl

/-- The functions of a solver: what follows the module in the name, and the number of parameters. -/
def ownArities : List (String × Nat) :=
  [("modelSimulation", 0), ("evaluateObjective", 0), ("initializeSolver", 0), ("preparationStep", 0), ("feedbackStep", 0),
    ("shiftStates", 2), ("shiftControls", 1), ("getKKT", 0), ("getObjective", 0)]

theorem arities_functions (s : Solver) (l : Link) :
    (s.functions l).map (fun f => (f.prototype.name, f.prototype.params.length)) =
      ownArities.map fun a => (s.functionName a.1, a.2) := rfl

end Solver

/-- A description changes neither the name nor the parameters. -/
theorem C.Prototype.eq_of_bare {f f' : Prototype} (h : f'.bare = f.bare) : f'.name = f.name ∧ f'.params = f.params := by
  have hname : f'.bare.name = f.bare.name := congrArg Prototype.name h
  have hparams : f'.bare.params = f.bare.params := congrArg Prototype.params h
  exact ⟨hname, hparams⟩

namespace Export

/-! ## Names -/

/-- The functions of a module whose names and parameters are fixed: what follows the module in the name, and the number of
parameters. -/
def arities : List (String × Nat) :=
  [("_modelSimulation", 0), ("_evaluateObjective", 0), ("_initializeSolver", 0), ("_preparationStep", 0),
    ("_feedbackStep", 0), ("_shiftStates", 2), ("_shiftControls", 1), ("_getKKT", 0), ("_getObjective", 0),
    ("_regularize", 1), ("_qpoases_solve", 0), ("_qpdunes_solve", 0), ("_forces_solve", 0), ("_hpmpc_solve", 0),
    ("_getVariablesX", 0), ("_getVariablesU", 0), ("_printDifferentialVariables", 0), ("_printControlVariables", 0),
    ("_printHeader", 0), ("_tic", 1), ("_toc", 1)]

theorem endings_arities : ∀ a ∈ arities, 2 ≤ a.1.length ∧ ending a.1 ∉ integratorEndings := by decide +kernel

theorem nodup_arities : (arities.map Prod.fst).Nodup := by decide +kernel

/-- The number of parameters of a function that is generated or supplied, by the name. Those of an integrator begin with
the module of the integrator, which may be another one. -/
inductive HasArity (m : ModuleName) (integrate : Nat) (n : String) : Nat → Prop where
  | named {a : String × Nat} (h : a ∈ arities) (hname : n = m.text ++ a.1) : HasArity m integrate n a.2
  | integrate {s : String} (hname : n = s ++ "_integrate") : HasArity m integrate n integrate
  | system {s e : String} (he : e ∈ ["_system", "_system_reuse"]) (hname : n = s ++ e) : HasArity m integrate n 3

section

variable {m : ModuleName} {integrate k k' : Nat} {n s : String}

theorem ending_of_named {a : String × Nat} (h : a ∈ arities) (hname : n = m.text ++ a.1) :
    ending n ∉ integratorEndings := by
  obtain ⟨hlength, hending⟩ := endings_arities a h
  rw [hname, ending_append _ hlength]
  exact hending

theorem ending_of_integrate (hname : n = s ++ "_integrate") : ending n = ['e', 't'] := by
  rw [hname, ending_append _ (by decide)]
  decide

theorem ending_of_system {e : String} (he : e ∈ ["_system", "_system_reuse"]) (hname : n = s ++ e) :
    ending n ∈ [['m', 'e'], ['e', 's']] := by
  have hall : ∀ e ∈ ["_system", "_system_reuse"], 2 ≤ e.length ∧ ending e ∈ [['m', 'e'], ['e', 's']] := by decide
  obtain ⟨hlength, hending⟩ := hall e he
  rw [hname, ending_append _ hlength]
  exact hending

/-- A function has one arity only: the ending of the name tells which case it is. -/
theorem HasArity.unique (h : HasArity m integrate n k) (h' : HasArity m integrate n k') : k = k' := by
  have hintegrator : ['e', 't'] ∈ integratorEndings ∧ ['e', 't'] ∉ [['m', 'e'], ['e', 's']] := by decide
  have hsystem : [['m', 'e'], ['e', 's']] ⊆ integratorEndings := by decide
  cases h with
  | named ha hname =>
    have hnot := ending_of_named ha hname
    cases h' with
    | named ha' hname' =>
      rw [hname, String.append_right_inj] at hname'
      rw [List.inj_on_of_nodup_map nodup_arities ha ha' hname']
    | integrate hname' => exact absurd (ending_of_integrate hname' ▸ hintegrator.1) hnot
    | system he hname' => exact absurd (hsystem (ending_of_system he hname')) hnot
  | integrate hname =>
    have hending := ending_of_integrate hname
    cases h' with
    | named ha' hname' => exact absurd (hending ▸ hintegrator.1) (ending_of_named ha' hname')
    | integrate => rfl
    | system he hname' => exact absurd (hending ▸ ending_of_system he hname') hintegrator.2
  | system he hname =>
    have hending := ending_of_system he hname
    cases h' with
    | named ha' hname' => exact absurd (hsystem hending) (ending_of_named ha' hname')
    | integrate hname' => exact absurd (ending_of_integrate hname' ▸ hending) hintegrator.2
    | system => rfl

end

/-! ## Names of the templates -/

/-- The functions of the module in the templates have their numbers of arguments, except in the test program. -/
theorem mem_arities_of_mem_functions :
    ∀ t ∈ copied, t ≠ .testProgram → ∀ f ∈ Template.functions t, (f.1, f.2.2) ∈ arities := by
  decide +kernel

/-- What the names of the module's functions end with. -/
def nameEnds : List String := arities.map Prod.fst ++ ["_integrate", "_system", "_system_reuse"]

theorem not_suffix_of_spells {names ends : List String} {ns es : List (List Char)} (hnames : Spells names ns)
    (hends : Spells ends es) (h : (ns.all fun n => es.all fun e => !e.isSuffixOf n) = true) :
    ∀ n ∈ names, ∀ e ∈ ends, ¬e.toList <:+ n.toList := by
  intro n hn e he hsuffix
  rw [List.all_eq_true] at h
  have hall := List.all_eq_true.1 (h _ (hnames.map_toList ▸ List.mem_map_of_mem hn)) _
    (hends.map_toList ▸ List.mem_map_of_mem he)
  rw [List.isSuffixOf_iff_suffix.2 hsuffix] at hall
  cases hall

set_option maxRecDepth 100000 in
theorem not_suffix_externals : ∀ n ∈ copied.flatMap externals, ∀ e ∈ nameEnds, ¬e.toList <:+ n.toList := by
  apply not_suffix_of_spells
  · simp only [copied, externals, List.flatMap_cons, List.flatMap_nil, List.cons_append, List.nil_append]
    repeat' (first | exact Spells.nil | apply Spells.cons rfl)
  · simp only [nameEnds, arities, List.map, List.cons_append, List.nil_append]
    repeat' (first | exact Spells.nil | apply Spells.cons rfl)
  · decide +kernel

/-- The other functions in the templates are not generated. -/
theorem not_hasArity_external {t : Template} (ht : t ∈ copied) {n : String} (hn : n ∈ t.externals) {m : ModuleName}
    {integrate k : Nat} : ¬HasArity m integrate n k := by
  have hnot : ∀ {s e : String}, e ∈ nameEnds → n ≠ s ++ e := by
    rintro s e he rfl
    refine not_suffix_externals _ (List.mem_flatMap.2 ⟨t, ht, hn⟩) e he ?_
    rw [String.toList_append]
    exact List.suffix_append _ _
  intro h
  cases h with
  | named ha hname => exact hnot (List.mem_append_left _ (List.mem_map_of_mem ha)) hname
  | integrate hname => exact hnot (by decide) hname
  | system he hname => exact hnot (List.mem_append_right _ (List.mem_cons_of_mem _ he)) hname

/-! ## What is called and what is declared -/

section

variable (plan : Plan) (o : Options) (target : Target)

/-- A C file of the export calls a function with so many arguments. -/
inductive CalledWith (n : String) : Nat → Prop where
  | integrator {items : List Item} {f : Function} {c : Call} (hitems : plan.integrator.items = .ok items)
    (hf : f ∈ Item.functions items) (hc : c ∈ f.body.calls) (hname : c.function = n) : CalledWith n c.args.length
  | solver {items : List Item} {f : Function} {c : Call} (hitems : plan.solver.items = .ok items)
    (hf : f ∈ Item.functions items) (hc : c ∈ f.body.calls) (hname : c.function = n) : CalledWith n c.args.length
  | copied {kind : ArtifactKind} {path : Files.Path} {text : String} {source : Source Char} {a : ArgumentList Char}
    (hkind : kind ∈ copiedKinds) (hpath : IsSource path) (hwrites : Writes plan o target kind path text)
    (hread : Source.read text.toList = some source) (ha : a ∈ source.argumentLists) (hbraces : 0 < a.braces)
    (hname : a.name = n.toList) : CalledWith n a.arguments

/-- The common header or the header of the auxiliary functions declares a function with so many parameters. -/
inductive DeclaredWith (n : String) : Nat → Prop where
  | common {f : Prototype} (hf : f ∈ prototypes plan) (hname : f.name = n) : DeclaredWith n f.params.length
  | auxiliary {path : Files.Path} {text : String} {source : Source Char} {a : ArgumentList Char} (hpath : IsHeader path)
    (hwrites : Writes plan o target .auxiliaryFunctions path text) (hread : Source.read text.toList = some source)
    (ha : a ∈ source.argumentLists) (hname : a.name = n.toList) : DeclaredWith n a.arguments

/-- Every call of a function of a name has as many arguments as the function has parameters. -/
def Matches (n : String) : Prop := ∀ k k', CalledWith plan o target n k → DeclaredWith plan o target n k' → k = k'

/-- So it is for all names that begin with the module. -/
def CallsMatch : Prop := ∀ f : String, Matches plan o target s!"{o.moduleName}_{f}"

end

section

variable (p : Problem) (o : Options) (k : Strategy) (g : Integrator)

/-- The functions of the model that a plan uses: the Jacobian goes with a Newton iteration. -/
def modelFunctions (plan : Plan) : List String :=
  p.model.rhs :: if plan.integrator.scheme.isImplicit ∧ ¬p.model.discretized then [s!"{p.model.rhs}_jac"] else []

/-- The parameters of the function that integrates. -/
def integrateArity : Nat := (g.prototype (bindingOf p o)).params.length

/-- A name with a number of arguments or parameters: a function that is generated or supplied, or one of the model. -/
def Expected (n : String) (j : Nat) : Prop :=
  HasArity o.moduleName (integrateArity p o g) n j ∨ n ∈ modelFunctions p (assemble p o k g) ∧ j = 2

variable {p o k g}

theorem expected_functionName {suffix : String} {j : Nat} (h : ("_" ++ suffix, j) ∈ arities) :
    Expected p o k g ((solverWith p o k (linkTo p o g)).functionName suffix) j :=
  .inl (.named h (String.append_assoc ..))

theorem mem_arities_backend (b : QpSolver) : ("_" ++ (Choice.name b ++ "_solve"), 0) ∈ arities := by
  cases b <;> decide +kernel

theorem expected_solve {system : LinearSystem} : Expected p o k g system.solveName 3 :=
  .inl (.system (s := system.owner ++ "_solve_dim" ++ toString system.dim) (e := "_system") (by decide) rfl)

theorem expected_solveAgain {system : LinearSystem} : Expected p o k g system.solveAgainName 3 :=
  .inl (.system (s := system.owner ++ "_solve_dim" ++ toString system.dim) (e := "_system_reuse") (by decide) rfl)

theorem expected_integrate : Expected p o k g g.functionName (integrateArity p o g) :=
  .inl (.integrate (s := g.moduleName.text) rfl)

theorem expected_rhs : Expected p o k g p.model.rhs 2 := .inr ⟨List.mem_cons_self, rfl⟩

/-- The Jacobian is used if and only if there is a Newton iteration. -/
theorem modelFunctions_assemble : modelFunctions p (assemble p o k g) =
    p.model.rhs :: if (g.newtonSystem (bindingOf p o)).isSome then [s!"{p.model.rhs}_jac"] else [] := by
  have hscheme : (assemble p o k g).integrator.scheme = g.scheme := rfl
  have hbinding : (bindingOf p o).discretized = p.model.discretized := rfl
  unfold modelFunctions newtonSystem
  rw [hscheme, hbinding]
  split <;> rfl

theorem expected_jacobian {system : LinearSystem} (h : g.newtonSystem (bindingOf p o) = some system) :
    Expected p o k g s!"{p.model.rhs}_jac" 2 := by
  refine .inr ⟨?_, rfl⟩
  rw [modelFunctions_assemble, h]
  exact List.mem_cons_of_mem _ List.mem_cons_self

/-! ## Calls -/

/-- The functions of the integrator: those of the linear solver, if there is one, and the one that integrates. -/
theorem mem_functions_integrator {f : Function} (hf : f ∈ Item.functions (integratorItems p o g)) :
    (∃ system : LinearSystem, f = system.solve ∨ f = system.solveAgain) ∨ f = Integrator.function g (bindingOf p o) := by
  rw [functions_integratorItems] at hf
  rcases List.mem_append.1 hf with hf | hf
  · cases hsystem : g.newtonSystem (bindingOf p o) with
    | none =>
      rw [hsystem] at hf
      cases hf
    | some system =>
      rw [hsystem] at hf
      exact .inl ⟨system, List.mem_pair.1 hf⟩
  · exact .inr (List.mem_singleton.1 hf)

/-- The integrator calls the model and the linear solver, which calls nothing. -/
theorem expected_of_integrator {f : Function} (hf : f ∈ Item.functions (integratorItems p o g)) {c : Call}
    (hc : c ∈ f.body.calls) : Expected p o k g c.function c.args.length := by
  rcases mem_functions_integrator hf with ⟨system, rfl | rfl⟩ | rfl
  · have hsolve : system.solve.body.calls = [] := rfl
    rw [hsolve] at hc
    cases hc
  · have hagain : system.solveAgain.body.calls = [] := rfl
    rw [hagain] at hc
    cases hc
  · have hall : ∀ q ∈ (Integrator.steps g (bindingOf p o)).calls.map fun c => (c.function, c.args.length),
        Expected p o k g q.1 q.2 := by
      rw [calls_steps]
      split
      · exact List.forall_mem_singleton.2 expected_rhs
      · split
        · rename_i hsystem
          simp only [List.forall_mem_cons]
          exact ⟨expected_jacobian hsystem, expected_rhs, expected_solve, expected_solveAgain,
            fun q hq => absurd hq List.not_mem_nil⟩
        · exact List.forall_mem_singleton.2 expected_rhs
    rw [calls_function] at hc
    exact hall _ (List.mem_map_of_mem hc)

/-- The solver calls the integrator, its own functions and the backend. -/
theorem expected_of_solver {f : Function} (hf : f ∈ Item.functions (solverItems p o k g)) {c : Call}
    (hc : c ∈ f.body.calls) : Expected p o k g c.function c.args.length := by
  have hindex : (if (linkTo p o g).takesIndex then 3 else 2) = integrateArity p o g := by
    unfold integrateArity prototype linkTo
    cases (bindingOf p o).stepSize.isPerInterval <;> rfl
  have hall : ∀ q ∈ (((solverWith p o k (linkTo p o g)).functions (linkTo p o g)).flatMap fun f => f.body.calls).map
      fun c => (c.function, c.args.length), Expected p o k g q.1 q.2 := by
    rw [Solver.calls_functions, hindex]
    simp only [List.forall_mem_cons]
    exact ⟨expected_integrate, expected_functionName (by decide +kernel), expected_functionName (by decide +kernel),
      expected_functionName (mem_arities_backend _), fun q hq => absurd hq List.not_mem_nil⟩
  rw [functions_solverItems] at hf
  exact hall _ (List.mem_map_of_mem (List.mem_flatMap.2 ⟨f, hf, hc⟩))

/-! ## Declarations -/

theorem expected_of_function {f : Function}
    (hf : f ∈ Item.functions (integratorItems p o g) ++ Item.functions (solverItems p o k g)) :
    Expected p o k g f.prototype.name f.prototype.params.length := by
  rcases List.mem_append.1 hf with hf | hf
  · rcases mem_functions_integrator hf with ⟨system, rfl | rfl⟩ | rfl
    · exact expected_solve
    · exact expected_solveAgain
    · exact expected_integrate
  · rw [functions_solverItems] at hf
    have hown : ∀ a ∈ Solver.ownArities, ("_" ++ a.1, a.2) ∈ arities := by decide +kernel
    have hmem := List.mem_map_of_mem (f := fun f => (f.prototype.name, f.prototype.params.length)) hf
    rw [Solver.arities_functions] at hmem
    obtain ⟨a, ha, heq⟩ := List.mem_map.1 hmem
    obtain ⟨hname, hlength⟩ := Prod.mk.inj heq
    rw [← hname, ← hlength]
    exact expected_functionName (hown a ha)

theorem expected_of_supplied {f : Prototype} (hf : f ∈ supplied p o (assemble p o k g)) :
    Expected p o k g f.name f.params.length := by
  have hbackend : Expected p o k g s!"{o.moduleName}_{Choice.name k.backend}_solve" 0 := by
    have hname : (solverWith p o k (linkTo p o g)).qpSolvePrototype.name =
        s!"{o.moduleName}_{Choice.name k.backend}_solve" := name_qpSolvePrototype _
    rw [← hname]
    exact expected_functionName (mem_arities_backend _)
  have hregularize : Expected p o k g s!"{o.moduleName}_regularize" 1 := by
    have hname : (solverWith p o k (linkTo p o g)).regularizePrototype.name = s!"{o.moduleName}_regularize" :=
      name_regularizePrototype _
    rw [← hname]
    exact expected_functionName (by decide +kernel)
  unfold supplied at hf
  simp only [List.mem_append, List.mem_singleton, List.mem_ite_nil_right] at hf
  rcases hf with ((rfl | ⟨himplicit, rfl⟩) | rfl) | ⟨-, rfl⟩
  · exact expected_rhs
  · refine .inr ⟨?_, rfl⟩
    unfold modelFunctions
    rw [if_pos himplicit]
    exact List.mem_cons_of_mem _ List.mem_cons_self
  · exact hbackend
  · exact hregularize

/-- What the common header declares has the expected number of parameters. -/
theorem expected_of_prototypes {f : Prototype} (hf : f ∈ prototypes (assemble p o k g)) :
    Expected p o k g f.name f.params.length := by
  have hbare : ∀ {f' : Prototype}, f'.bare = f.bare → Expected p o k g f'.name f'.params.length →
      Expected p o k g f.name f.params.length := by
    intro f' heq hexpected
    obtain ⟨hname, hparams⟩ := Prototype.eq_of_bare heq
    rw [← hname, ← hparams]
    exact hexpected
  rcases List.mem_append.1 ((perm_prototypes p o k g).subset (List.mem_map_of_mem hf)) with hmem | hmem
  · obtain ⟨f', hf', heq⟩ := List.mem_map.1 hmem
    exact hbare heq (expected_of_function hf')
  · obtain ⟨f', hf', heq⟩ := List.mem_map.1 hmem
    exact hbare heq (expected_of_supplied hf')

/-! ## Templates -/

variable {target : Target}

theorem testFile_of_copied {plan : Plan} {kind : ArtifactKind} {name : String} {t : Template} {subs : Substitutions}
    (h : Copied plan o kind name t subs) (ht : t = .testProgram) : o.testFile = true := by
  cases h with
  | testProgram h => exact h
  | mexWrapper => split at ht <;> cases ht
  | auxiliaryHeader | auxiliarySource | sFunctionHeader | sFunctionSource => cases ht

/-- Except in the test program, the functions of the module have the expected numbers of arguments. -/
theorem expected_of_copied {kind : ArtifactKind} {name text n : String} {t : Template} {subs : Substitutions}
    {source : Source Char} {a : ArgumentList Char} (hcopied : Copied (assemble p o k g) o kind name t subs)
    (htext : t.render "" true subs = .ok text) (hread : Source.read text.toList = some source)
    (ha : a ∈ source.argumentLists) (hname : a.name = n.toList) :
    Expected p o k g n a.arguments ∨ n ∈ t.externals ∨ t = .testProgram := by
  have hfills := fills_of_copied rfl hcopied
  obtain ⟨source', hdigest, hread'⟩ := hfills.read htext
  obtain rfl := Option.some.inj (hread.symm.trans hread')
  rcases mem_argumentLists hdigest.functions hdigest.externals ha with ⟨f, hf, rfl⟩ | hexternal
  · obtain ⟨f, hmem, rfl⟩ := List.mem_map.1 hf
    have hn : n = o.moduleName.text ++ f.1 := by
      rw [← String.toList_inj, String.toList_append, ← hname, ← hfills.moduleName]
    by_cases ht : t = .testProgram
    · exact .inr (.inr ht)
    · exact .inl (.inl (.named (mem_arities_of_mem_functions t hfills.copied ht f hmem) hn))
  · obtain ⟨e, he, heq⟩ := List.mem_map.1 hexternal
    have hn : e = n := String.toList_inj.1 (heq.trans hname)
    exact .inr (.inl (hn ▸ he))

/-- What is called has the expected number of arguments or is not generated, unless there is a test program. -/
theorem expected_of_calledWith {n : String} {j : Nat} (h : CalledWith (assemble p o k g) o target n j) :
    Expected p o k g n j ∨ (∃ t ∈ copied, n ∈ t.externals) ∨ o.testFile = true := by
  cases h with
  | integrator hitems hf hc hname =>
    obtain rfl := Except.ok.inj ((items_integrator p o k g).symm.trans hitems)
    rw [← hname]
    exact .inl (expected_of_integrator hf hc)
  | solver hitems hf hc hname =>
    obtain rfl := Except.ok.inj ((items_solver p o k g).symm.trans hitems)
    rw [← hname]
    exact .inl (expected_of_solver hf hc)
  | copied hkind hpath hwrites hread ha _ hname =>
    obtain ⟨name, t, subs, hcopied, rfl, htext⟩ := copied_of_writes hkind (.inr hpath) hwrites
    refine (expected_of_copied hcopied htext hread ha hname).imp_right (.imp (fun hexternal => ?_) fun ht => ?_)
    · exact ⟨t, (fills_of_copied rfl hcopied).copied, hexternal⟩
    · exact testFile_of_copied hcopied ht

/-- What a header declares has the expected number of parameters. -/
theorem expected_of_declaredWith {n : String} {j : Nat} (h : DeclaredWith (assemble p o k g) o target n j) :
    Expected p o k g n j := by
  cases h with
  | common hf hname =>
    rw [← hname]
    exact expected_of_prototypes hf
  | auxiliary hpath hwrites hread ha hname =>
    obtain ⟨name, t, subs, hcopied, rfl, htext⟩ := copied_of_writes (by decide) (.inl hpath) hwrites
    have hexpected := expected_of_copied hcopied htext hread ha hname
    cases hcopied with
    | auxiliaryHeader =>
      rcases hexpected with h | h | h
      · exact h
      · cases h
      · cases h
    | auxiliarySource =>
      have hsource : IsSource (place target (o.moduleName.fileName "auxiliary_functions" "c")) := isSource_place _ _
      exact absurd (hpath.symm.trans hsource) (by decide)

/-! ## Functions of the model -/

theorem calledWith_of_mem_steps {n : String} {j : Nat}
    (h : (n, j) ∈ (Integrator.steps g (bindingOf p o)).calls.map fun c => (c.function, c.args.length)) :
    CalledWith (assemble p o k g) o target n j := by
  obtain ⟨c, hc, heq⟩ := List.mem_map.1 h
  obtain ⟨hname, rfl⟩ := Prod.mk.inj heq
  rw [← calls_function] at hc
  have hf : Integrator.function g (bindingOf p o) ∈ Item.functions (integratorItems p o g) := by
    rw [functions_integratorItems]
    exact List.mem_append_right _ (List.mem_singleton_self _)
  exact .integrator (items_integrator p o k g) hf hc hname

/-- The integrator calls the functions of the model with two arguments. -/
theorem calledWith_model {n : String} (h : n ∈ modelFunctions p (assemble p o k g)) :
    CalledWith (assemble p o k g) o target n 2 := by
  apply calledWith_of_mem_steps
  rw [calls_steps]
  rw [modelFunctions_assemble] at h
  have hrhs : (bindingOf p o).rhs = p.model.rhs := rfl
  cases hsystem : g.newtonSystem (bindingOf p o) with
  | none =>
    rw [hsystem] at h
    obtain rfl := List.mem_singleton.1 h
    split <;> exact List.mem_cons_self
  | some system =>
    have hmap : (bindingOf p o).discretized = false := by
      unfold newtonSystem at hsystem
      split at hsystem
      · rename_i hcond
        exact Bool.eq_false_iff.2 hcond.2
      · cases hsystem
    rw [hsystem] at h
    rw [hmap]
    rcases List.mem_pair.1 h with rfl | rfl
    · exact List.mem_cons_of_mem _ List.mem_cons_self
    · exact List.mem_cons_self

theorem declaredWith_of_bare {f : Prototype} (h : f.bare ∈ (prototypes (assemble p o k g)).map Prototype.bare) :
    DeclaredWith (assemble p o k g) o target f.name f.params.length := by
  obtain ⟨f', hf', heq⟩ := List.mem_map.1 h
  obtain ⟨hname, hparams⟩ := Prototype.eq_of_bare heq
  rw [← hparams]
  exact .common hf' hname

/-- The common header declares the functions of the model with two parameters. -/
theorem declaredWith_model {n : String} (h : n ∈ modelFunctions p (assemble p o k g)) :
    DeclaredWith (assemble p o k g) o target n 2 := by
  have hsupplied : suppliedModel n ∈ supplied p o (assemble p o k g) := by
    unfold supplied
    unfold modelFunctions at h
    refine List.mem_append_left _ (List.mem_append_left _ ?_)
    split at h
    · rename_i himplicit
      rw [if_pos himplicit]
      rcases List.mem_pair.1 h with rfl | rfl
      · exact List.mem_cons_self
      · exact List.mem_cons_of_mem _ List.mem_cons_self
    · obtain rfl := List.mem_singleton.1 h
      exact List.mem_cons_self
  exact declaredWith_of_bare (f := suppliedModel n)
    ((perm_prototypes p o k g).mem_iff.2 (List.mem_append_right _ (List.mem_map_of_mem hsupplied)))

/-! ## The shift of the states -/

/-- The common header declares the shift of the states with two parameters. -/
theorem declaredWith_shiftStates : DeclaredWith (assemble p o k g) o target s!"{o.moduleName}_shiftStates" 2 := by
  let s := solverWith p o k (linkTo p o g)
  have hmem : (s.functionName "shiftStates", 2) ∈
      (s.functions (linkTo p o g)).map fun f => (f.prototype.name, f.prototype.params.length) := by
    rw [Solver.arities_functions]
    exact List.mem_map.2 ⟨("shiftStates", 2), by decide, rfl⟩
  obtain ⟨f, hf, heq⟩ := List.mem_map.1 hmem
  obtain ⟨hname, hlength⟩ := Prod.mk.inj heq
  have hbare : f.prototype.bare ∈ (prototypes (assemble p o k g)).map Prototype.bare := by
    refine (perm_prototypes p o k g).mem_iff.2 (List.mem_append_left _ (List.mem_map.2 ⟨f, ?_, rfl⟩))
    rw [functions_solverItems p o k g]
    exact List.mem_append_right _ hf
  have hdeclares : DeclaredWith (assemble p o k g) o target f.prototype.name f.prototype.params.length :=
    declaredWith_of_bare hbare
  rw [hname, hlength] at hdeclares
  have hfull : s.functionName "shiftStates" = s!"{o.moduleName}_shiftStates" := String.append_assoc ..
  rw [hfull] at hdeclares
  exact hdeclares

/-- The test program calls it with three arguments. -/
theorem calledWith_shiftStates (h : o.testFile = true) :
    CalledWith (assemble p o k g) o target s!"{o.moduleName}_shiftStates" 3 := by
  have hcopied : Copied (assemble p o k g) o .testFile "test.c" .testProgram o.moduleName.substitutions := .testProgram h
  have hfills := fills_of_copied rfl hcopied
  obtain ⟨text, htext⟩ := hfills.exists_render
  obtain ⟨source, hdigest, hread⟩ := hfills.read htext
  have hmem : ("_shiftStates".toList, 2, 3) ∈
      (Template.functions .testProgram).map fun f => (f.1.toList, f.2) :=
    List.mem_map.2 ⟨("_shiftStates", 2, 3), by decide, rfl⟩
  have hname : chars o.moduleName.substitutions "MODULE_NAME" ++ "_shiftStates".toList =
      (s!"{o.moduleName}_shiftStates").toList := by
    rw [hfills.moduleName]
    exact String.toList_append.symm
  exact .copied (by decide) (ending_place "test" (t := ".c") (by decide)) (writes_of_copied hcopied htext) hread
    (mem_argumentLists_of_mem hdigest.functions hmem) Nat.two_pos hname

/-! ## Every call matches -/

/-- Every call has as many arguments as the function has parameters if and only if no test program is written and the
functions of the model share their names with no other function that takes more or less than two arguments. -/
theorem calls_match_iff {plan : Plan} {r : Registry} (hresolve : resolve p o r = .ok plan) (target : Target) :
    CallsMatch plan o target ↔
      o.testFile = false ∧
        ∀ f : String, s!"{o.moduleName}_{f}" ∈ modelFunctions p plan →
          ∀ j, CalledWith plan o target s!"{o.moduleName}_{f}" j ∨
            DeclaredWith plan o target s!"{o.moduleName}_{f}" j → j = 2 := by
  obtain ⟨g, k, -, rfl, -⟩ := resolve_assemble hresolve
  constructor
  · intro h
    refine ⟨?_, ?_⟩
    · by_contra htest
      have hcalls : CalledWith (assemble p o k g) o target s!"{o.moduleName}_shiftStates" 3 :=
        calledWith_shiftStates (Bool.eq_true_of_not_eq_false htest)
      have hmatches := h "shiftStates"
      rw [String.append_assoc] at hmatches
      exact absurd (hmatches 3 2 hcalls declaredWith_shiftStates) (by decide)
    · rintro f hmodel j (hcalls | hdeclares)
      · exact h f j 2 hcalls (declaredWith_model hmodel)
      · exact (h f 2 j (calledWith_model hmodel) hdeclares).symm
  · rintro ⟨htest, hmodel⟩ f j j' hcalls hdeclares
    by_cases hmem : s!"{o.moduleName}_{f}" ∈ modelFunctions p (assemble p o k g)
    · rw [hmodel f hmem j (.inl hcalls), hmodel f hmem j' (.inr hdeclares)]
    · have harity := (expected_of_declaredWith hdeclares).resolve_right fun h => hmem h.1
      rcases expected_of_calledWith hcalls with h | ⟨t, ht, hexternal⟩ | h
      · exact (h.resolve_right fun h => hmem h.1).unique harity
      · exact absurd harity (not_hasArity_external ht hexternal)
      · exact absurd (htest.symm.trans h) (by decide)

/-- The last two characters of the name of a function of the module. -/
theorem HasArity.ending {m : ModuleName} {integrate j : Nat} {n : String} (h : HasArity m integrate n j) :
    ending n ∈ nameEnds.map ending := by
  have hlength : ∀ e ∈ nameEnds, 2 ≤ e.length := by decide
  have hmem : ∀ {s e : String}, e ∈ nameEnds → n = s ++ e → Export.ending n ∈ nameEnds.map Export.ending := by
    rintro s e he rfl
    rw [ending_append s (hlength e he)]
    exact List.mem_map_of_mem he
  cases h with
  | named ha hname => exact hmem (List.mem_append_left _ (List.mem_map_of_mem ha)) hname
  | integrate hname => exact hmem (by decide) hname
  | system he hname => exact hmem (List.mem_append_right _ (List.mem_cons_of_mem _ he)) hname

/-- No other function takes a name that ends unlike those of the module and stands in no template. -/
theorem two_of_ending {plan : Plan} {r : Registry} (hresolve : resolve p o r = .ok plan) (htest : o.testFile = false)
    {n : String} (hending : ending n ∉ nameEnds.map ending) (hexternal : n ∉ copied.flatMap externals) {j : Nat}
    (h : CalledWith plan o target n j ∨ DeclaredWith plan o target n j) : j = 2 := by
  obtain ⟨g, k, -, rfl, -⟩ := resolve_assemble hresolve
  have hexpected : Expected p o k g n j := by
    rcases h with h | h
    · rcases expected_of_calledWith h with h | ⟨t, ht, hmem⟩ | h
      · exact h
      · exact absurd (List.mem_flatMap.2 ⟨t, ht, hmem⟩) hexternal
      · exact absurd (htest.symm.trans h) (by decide)
    · exact expected_of_declaredWith h
  rcases hexpected with h | h
  · exact absurd h.ending hending
  · exact h.2

end

/-- No test program. -/
def untestedOptions : Options where
  testFile := false

theorem calls_match_iff_smallProblem :
    ∃ plan, resolve smallProblem untestedOptions .builtin = .ok plan ∧
      CallsMatch plan untestedOptions ⟨⟨"out"⟩, {}, 16⟩ := by
  have hresolve : resolve smallProblem untestedOptions .builtin = .ok (of smallProblem untestedOptions .gaussNewtonN2) := by
    rfl
  refine ⟨_, hresolve, (calls_match_iff hresolve _).2 ⟨rfl, fun f hmodel j h => ?_⟩⟩
  have hnames : ∀ n ∈ modelFunctions smallProblem (of smallProblem untestedOptions .gaussNewtonN2),
      ending n ∉ nameEnds.map ending ∧ n ∉ copied.flatMap externals := by decide +kernel
  obtain ⟨hending, hexternal⟩ := hnames _ hmodel
  exact two_of_ending hresolve rfl hending hexternal h

/-- The test program shifts the states with one argument too many. -/
theorem shifted_with_three_arguments_smallProblem :
    ∃ plan, resolve smallProblem {} .builtin = .ok plan ∧
      CalledWith plan {} ⟨⟨"out"⟩, {}, 16⟩ "acado_shiftStates" 3 ∧
      DeclaredWith plan {} ⟨⟨"out"⟩, {}, 16⟩ "acado_shiftStates" 2 ∧ ¬CallsMatch plan {} ⟨⟨"out"⟩, {}, 16⟩ := by
  have hresolve : resolve smallProblem {} .builtin = .ok (of smallProblem {} .gaussNewtonN2) := by rfl
  have hcalls : CalledWith (of smallProblem {} .gaussNewtonN2) {} ⟨⟨"out"⟩, {}, 16⟩ "acado_shiftStates" 3 :=
    calledWith_shiftStates (p := smallProblem) (o := {}) (k := .gaussNewtonN2) (g := unboundOf {}) rfl
  have hdeclares : DeclaredWith (of smallProblem {} .gaussNewtonN2) {} ⟨⟨"out"⟩, {}, 16⟩ "acado_shiftStates" 2 :=
    declaredWith_shiftStates (p := smallProblem) (o := {}) (k := .gaussNewtonN2) (g := unboundOf {})
  exact ⟨_, hresolve, hcalls, hdeclares, fun h => absurd (h "shiftStates" 3 2 hcalls hdeclares) (by decide)⟩

end Export

end ControlCodegen
