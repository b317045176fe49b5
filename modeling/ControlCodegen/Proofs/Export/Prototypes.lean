import ControlCodegen.Export.Steps
import ControlCodegen.Proofs.C.Definitions
import ControlCodegen.Proofs.Export.Bounds

/-!
# `Export.Prototypes`: what the header declares and what the sources define

* `sourceFile`, `writeSource_mem_steps` : a generated source file, and that an export writes it.
* `supplied` : the prototypes of what comes from elsewhere: the model, the backend and the regularization.
* `perm_prototypes` : the prototypes of a plan are those of the functions in both sources and of what is supplied.
* `nodup_names_items` : no function is defined twice, whatever module names integrator and solver have.
* `prototypes_perm_signatures` : the same, read off the lines of the sources.
-/

namespace ControlCodegen

open C

set_option autoImplicit false

/-! ## Prototypes without descriptions -/

/-- A prototype without its description, which is no part of the signature. -/
def C.Prototype.bare (f : Prototype) : Prototype := { f with description := none }

theorem C.Prototype.signature_bare (types : TypeNames) (f : Prototype) : f.bare.signature types = f.signature types :=
  rfl

namespace Export

open Integrator Plan

/-! ## The source files -/

section Files

variable (o : Options) (target : Target)

/-- A source file of an export with a program. -/
def sourceFile (role : String) (items : List Item) : SourceFile :=
  SourceFile.add
    { path := place target (o.moduleName.fileName role "c")
      header := o.moduleName.commonHeader
      types := target.types
      precision := target.precision }
    (fun s => s.instanceName o.moduleName) items

/-- The step of an export that writes a source file. -/
def writeSource (kind : ArtifactKind) (role : String) (items : List Item) : Step :=
  .single kind (place target (o.moduleName.fileName role "c")) (.ok (sourceFile o target role items).contents)

/-- An export writes the sources of both programs. -/
theorem writeSource_mem_steps {plan : Plan} {is js : List Item} (his : plan.integrator.items = .ok is)
    (hjs : plan.solver.items = .ok js) :
    writeSource o target .integratorSource "integrator" is ∈ steps plan o target ∧
      writeSource o target .solverSource "solver" js ∈ steps plan o target := by
  have hstart : steps plan o target = headerStep plan o target :: writeSource o target .integratorSource "integrator" is ::
      writeSource o target .solverSource "solver" js :: (steps plan o target).drop 3 := by
    unfold steps
    rw [his, hjs]
    rfl
  rw [hstart]
  refine ⟨?_, ?_⟩
  · exact List.mem_cons_of_mem _ List.mem_cons_self
  · exact List.mem_cons_of_mem _ (List.mem_cons_of_mem _ List.mem_cons_self)

theorem signatures_sourceFile (role : String) (items : List Item) :
    signatures (sourceFile o target role items).lines =
      (Item.functions items).map fun f => f.prototype.signature target.types := by
  unfold sourceFile
  rw [SourceFile.lines_add, List.nil_append]
  exact Item.signatures_lines _ items

end Files

/-! ## What is declared -/

section Plans

variable (p : Problem) (o : Options)

/-- The prototype of a function of the model. -/
def suppliedModel (name : String) : Prototype where
  name := name
  params := [.realIn "in", .realOut "out"]

/-- The prototype of a backend. -/
def suppliedBackend (name : String) : Prototype where
  name := name
  returns := .int

/-- The prototype of a regularization. -/
def suppliedRegularization (name : String) : Prototype where
  name := name
  params := [.realOut "hessian_block"]

/-- The prototypes of what neither source defines. The model has a Jacobian if the scheme is implicit and the model is no
map in discrete time; the regularization goes with exact Hessians. -/
def supplied (plan : Plan) : List Prototype :=
  [suppliedModel p.model.rhs] ++
  (if plan.integrator.scheme.isImplicit ∧ ¬p.model.discretized then [suppliedModel s!"{p.model.rhs}_jac"] else []) ++
  [suppliedBackend s!"{o.moduleName}_{Choice.name plan.solver.strategy.backend}_solve"] ++
  (if plan.solver.strategy.usesExactHessian then [suppliedRegularization s!"{o.moduleName}_regularize"] else [])

variable (k : Strategy) (g : Integrator)

/-- The program of the integrator of a plan. -/
def integratorItems : List Item :=
  Integrator.constants g (bindingOf p o) ++ ((g.newtonSystem (bindingOf p o)).map LinearSystem.items).getD [] ++
    [.function (function g (bindingOf p o))]

/-- The program of the solver of a plan. -/
def solverItems : List Item :=
  [.comment s!"Solver strategy: {k.display}", .blank] ++
    ((solverWith p o k (linkTo p o g)).functions (linkTo p o g)).map .function

theorem items_integrator : (assemble p o k g).integrator.items = .ok (integratorItems p o g) := rfl

theorem items_solver : (assemble p o k g).solver.items = .ok (solverItems p o k g) := rfl

theorem functions_integratorItems :
    Item.functions (integratorItems p o g) =
      ((g.newtonSystem (bindingOf p o)).map fun system => [system.solve, system.solveAgain]).getD [] ++
        [function g (bindingOf p o)] := by
  unfold integratorItems
  rw [Item.functions_append, functions_start]
  rfl

theorem functions_solverItems :
    Item.functions (solverItems p o k g) = (solverWith p o k (linkTo p o g)).functions (linkTo p o g) := by
  unfold solverItems
  rw [Item.functions_append, Item.functions_map_function]
  rfl

theorem name_qpSolvePrototype (s : Solver) :
    s.qpSolvePrototype.name = s!"{s.moduleName}_{Choice.name s.strategy.backend}_solve" := by
  change s.moduleName.text ++ "_" ++ (Choice.name s.strategy.backend ++ "_solve") =
    s.moduleName.text ++ "_" ++ Choice.name s.strategy.backend ++ "_solve"
  simp only [String.append_assoc]

theorem name_regularizePrototype (s : Solver) : s.regularizePrototype.name = s!"{s.moduleName}_regularize" := by
  change s.moduleName.text ++ "_" ++ "regularize" = s.moduleName.text ++ ("_" ++ "regularize")
  rw [String.append_assoc]

/-- The order of a header: what is supplied stands among what is defined. -/
theorem perm_parts {α : Type} (model jacobian system integrate backend solver regularize : List α) :
    (model ++ (jacobian ++ system) ++ integrate ++ (backend ++ solver ++ regularize)).Perm
      (system ++ integrate ++ solver ++ (model ++ jacobian ++ backend ++ regularize)) := by
  classical
  rw [List.perm_iff_count]
  intro a
  simp only [List.count_append]
  omega

theorem bare_supplied :
    (supplied p o (assemble p o k g)).map Prototype.bare =
      [suppliedModel p.model.rhs] ++
        (if g.scheme.isImplicit ∧ ¬p.model.discretized then [suppliedModel s!"{p.model.rhs}_jac"] else []) ++
        [(solverWith p o k (linkTo p o g)).qpSolvePrototype.bare] ++
        (if k.usesExactHessian then [(solverWith p o k (linkTo p o g)).regularizePrototype.bare] else []) := by
  have hbackend : (solverWith p o k (linkTo p o g)).qpSolvePrototype.bare =
      suppliedBackend s!"{o.moduleName}_{Choice.name k.backend}_solve" :=
    congrArg suppliedBackend (name_qpSolvePrototype _)
  have hregularize : (solverWith p o k (linkTo p o g)).regularizePrototype.bare =
      suppliedRegularization s!"{o.moduleName}_regularize" :=
    congrArg suppliedRegularization (name_regularizePrototype _)
  unfold supplied
  rw [hbackend, hregularize, List.map_append, List.map_append, List.map_append, apply_ite (List.map Prototype.bare),
    apply_ite (List.map Prototype.bare)]
  rfl

theorem prototypes_boundTo :
    (boundTo p o g).prototypes =
      [modelPrototype p.model.rhs "Model right-hand side with forward sensitivities, provided by the user."] ++
      (match g.newtonSystem (bindingOf p o) with
        | some system =>
          modelPrototype (bindingOf p o).jacobian "Jacobian of the model right-hand side, provided by the user." ::
            system.prototypes
        | none => []) ++
      [g.prototype (bindingOf p o)] := rfl

/-- The linear solver and the Jacobian are declared together. -/
theorem bare_integrator :
    (boundTo p o g).prototypes.map Prototype.bare =
      [suppliedModel p.model.rhs] ++
        ((if g.scheme.isImplicit ∧ ¬p.model.discretized then [suppliedModel s!"{p.model.rhs}_jac"] else []) ++
          (((g.newtonSystem (bindingOf p o)).map fun system => [system.solve, system.solveAgain]).getD []).map
            fun f => f.prototype.bare) ++
        [(function g (bindingOf p o)).prototype.bare] := by
  rw [prototypes_boundTo, List.map_append, List.map_append]
  by_cases himplicit : g.scheme.isImplicit ∧ ¬p.model.discretized
  · have hsystem : g.newtonSystem (bindingOf p o) = some ⟨g.moduleName.text, g.unknowns (bindingOf p o)⟩ :=
      if_pos himplicit
    rw [hsystem, if_pos himplicit]
    rfl
  · have hsystem : g.newtonSystem (bindingOf p o) = none := if_neg himplicit
    rw [hsystem, if_neg himplicit]
    rfl

theorem bare_solver (s : Solver) (l : Link) :
    s.prototypes.map Prototype.bare =
      [s.qpSolvePrototype.bare] ++ (s.functions l).map (fun f => f.prototype.bare) ++
        (if s.strategy.usesExactHessian then [s.regularizePrototype.bare] else []) := by
  unfold Solver.prototypes
  rw [List.map_append, List.map_append, apply_ite (List.map Prototype.bare)]
  rfl

/-- The prototypes of a plan are those of the functions in both sources and those of what is supplied. -/
theorem perm_prototypes :
    ((prototypes (assemble p o k g)).map Prototype.bare).Perm
      ((Item.functions (integratorItems p o g) ++ Item.functions (solverItems p o k g)).map (fun f => f.prototype.bare) ++
        (supplied p o (assemble p o k g)).map Prototype.bare) := by
  have hdeclared : (prototypes (assemble p o k g)).map Prototype.bare =
      (boundTo p o g).prototypes.map Prototype.bare ++
        (solverWith p o k (linkTo p o g)).prototypes.map Prototype.bare := List.map_append
  rw [hdeclared, bare_integrator, bare_solver _ (linkTo p o g), bare_supplied, functions_integratorItems,
    functions_solverItems, List.map_append, List.map_append]
  exact perm_parts _ _ _ _ _ _ _

/-! ## Names -/

/-- The last two characters of a name, the last one first. -/
def ending (s : String) : List Char := s.toList.reverse.take 2

theorem ending_append (s : String) {t : String} (h : 2 ≤ t.length) : ending (s ++ t) = ending t := by
  have hlength : 2 ≤ t.toList.reverse.length := by
    rw [List.length_reverse, String.length_toList]
    exact h
  unfold ending
  rw [String.toList_append, List.reverse_append, List.take_append_of_le_length hlength]

/-- The endings of the functions of integrators. -/
def integratorEndings : List (List Char) := [['m', 'e'], ['e', 's'], ['e', 't']]

theorem endings_integratorItems :
    ((Item.names (integratorItems p o g)).map ending).Sublist integratorEndings := by
  have hintegrate : ending (function g (bindingOf p o)).prototype.name = ['e', 't'] :=
    ending_append g.moduleName.text (t := "_integrate") (by decide)
  unfold Item.names
  rw [functions_integratorItems, List.map_append, List.map_append]
  have hparts : integratorEndings = [['m', 'e'], ['e', 's']] ++ [['e', 't']] := rfl
  rw [hparts]
  refine List.Sublist.append ?_ ?_
  · cases g.newtonSystem (bindingOf p o) with
    | none => exact List.nil_sublist _
    | some system =>
      have hsolve : ending system.solve.prototype.name = ['m', 'e'] :=
        ending_append (system.owner ++ "_solve_dim" ++ toString system.dim) (t := "_system") (by decide)
      have hagain : ending system.solveAgain.prototype.name = ['e', 's'] :=
        ending_append (system.owner ++ "_solve_dim" ++ toString system.dim) (t := "_system_reuse") (by decide)
      change [ending _, ending _].Sublist _
      rw [hsolve, hagain]
  · change [ending _].Sublist _
    rw [hintegrate]

theorem ending_solverItems {n : String} (hn : n ∈ Item.names (solverItems p o k g)) : ending n ∉ integratorEndings := by
  unfold Item.names at hn
  rw [functions_solverItems, names_solver] at hn
  obtain ⟨suffix, hsuffix, rfl⟩ := List.mem_map.1 hn
  have hall : ∀ suffix ∈ solverSuffixes, 2 ≤ suffix.length ∧ ending suffix ∉ integratorEndings := by decide
  obtain ⟨hlength, hending⟩ := hall suffix hsuffix
  have hname : ending ((solverWith p o k (linkTo p o g)).functionName suffix) = ending suffix :=
    ending_append (o.moduleName.text ++ "_") hlength
  rw [hname]
  exact hending

/-- No function is defined twice, whatever the module names of integrator and solver. -/
theorem nodup_names_items : (Item.names (integratorItems p o g) ++ Item.names (solverItems p o k g)).Nodup := by
  rw [List.nodup_append]
  refine ⟨?_, ?_, ?_⟩
  · apply List.Nodup.of_map ending
    exact List.Nodup.sublist (endings_integratorItems p o g) (by decide)
  · unfold Item.names
    rw [functions_solverItems]
    exact nodup_solver _ _
  · rintro n hn _ hn' rfl
    have hending := (endings_integratorItems p o g).subset (List.mem_map_of_mem hn)
    exact ending_solverItems p o k g hn' hending

end Plans

/-! ## Prototypes and definitions -/

variable {p : Problem} {o : Options} {r : Registry} {plan : Plan}

/-- The signatures above the braces of both sources, and those of what is supplied, are the signatures that the header
declares. Both sources together define every function once, and what is declared is defined there or supplied. -/
theorem prototypes_perm_signatures (hresolve : resolve p o r = .ok plan) (target : Target) :
    ∃ is js, plan.integrator.items = .ok is ∧ plan.solver.items = .ok js ∧
      writeSource o target .integratorSource "integrator" is ∈ steps plan o target ∧
      writeSource o target .solverSource "solver" js ∈ steps plan o target ∧
      ((prototypes plan).map fun f => f.signature target.types).Perm
        (signatures (sourceFile o target "integrator" is).lines ++ signatures (sourceFile o target "solver" js).lines ++
          (supplied p o plan).map fun f => f.signature target.types) ∧
      (Item.names is ++ Item.names js).Nodup ∧
      ∀ f ∈ prototypes plan, f.name ∈ Item.names is ++ Item.names js ++ (supplied p o plan).map Prototype.name := by
  obtain ⟨g, k, -, rfl, -⟩ := resolve_assemble hresolve
  have hperm := perm_prototypes p o k g
  have his := items_integrator p o k g
  have hjs := items_solver p o k g
  obtain ⟨hintegrator, hsolver⟩ := writeSource_mem_steps o target his hjs
  refine ⟨_, _, his, hjs, hintegrator, hsolver, ?_, nodup_names_items p o k g, ?_⟩
  · have hsignatures := hperm.map (Prototype.signature target.types)
    simp only [List.map_append, List.map_map, Function.comp_def, Prototype.signature_bare] at hsignatures
    rw [signatures_sourceFile, signatures_sourceFile]
    exact hsignatures
  · intro f hf
    have hnames := hperm.map Prototype.name
    simp only [List.map_append, List.map_map] at hnames
    exact hnames.subset (List.mem_map_of_mem hf)

/-- An implicit scheme with the exact Hessian. -/
def exactOptions : Options where
  scheme := .gaussLegendre4
  hessian := .exact

theorem prototypes_perm_signatures_smallProblem :
    ∃ is js, resolve smallProblem exactOptions .builtin = .ok (of smallProblem exactOptions .exactHessianN2) ∧
      ((prototypes (of smallProblem exactOptions .exactHessianN2)).map fun f => f.signature {}).Perm
        (signatures (sourceFile exactOptions ⟨⟨"out"⟩, {}, 16⟩ "integrator" is).lines ++
          signatures (sourceFile exactOptions ⟨⟨"out"⟩, {}, 16⟩ "solver" js).lines ++
          ["void acado_rhs( const real_t* in, real_t* const out )",
            "void acado_rhs_jac( const real_t* in, real_t* const out )",
            "int acado_qpoases_solve( void )",
            "void acado_regularize( real_t* const hessian_block )"]) ∧
      (Item.names is ++ Item.names js).Nodup := by
  have hresolve : resolve smallProblem exactOptions .builtin = .ok (of smallProblem exactOptions .exactHessianN2) := by
    rfl
  obtain ⟨is, js, -, -, -, -, hperm, hnodup, -⟩ := prototypes_perm_signatures hresolve ⟨⟨"out"⟩, {}, 16⟩
  exact ⟨is, js, hresolve, hperm, hnodup⟩

end Export

end ControlCodegen
