import ControlCodegen.Proofs.Export.Arities
import ControlCodegen.Proofs.Project.Load

/-!
# `Export.Identifiers`: the names in the common header

* `Hygienic` : the functions of the header have names that are C identifiers and differ, and so do the members of each
  struct.
* `ownNames` : the functions of the header that are not those of the model.
* `nodup_ownNames`, `isIdentifier_ownNames` : their names are identifiers and differ, whatever the modules of integrator
  and solver.
* `hygienic_iff` : the header is hygienic if and only if the name of the model is an identifier, and not the name of
  another function.

A project file is accepted with any name of the model that is not blank.
-/

namespace ControlCodegen

open C Integrator Plan

set_option autoImplicit false

/-! ## Identifiers -/

theorem isIdentifier_iff {s : String} :
    isIdentifier s = true ↔
      ∃ c cs, s.toList = c :: cs ∧ isIdentifierHead c = true ∧ ∀ d ∈ cs, isIdentifierTail d = true := by
  unfold isIdentifier
  cases s.toList with
  | nil => simp
  | cons c cs => simp [List.all_eq_true]

/-- An identifier can be continued. -/
theorem isIdentifier_append {s t : String} (hs : isIdentifier s = true)
    (ht : ∀ c ∈ t.toList, isIdentifierTail c = true) : isIdentifier (s ++ t) = true := by
  obtain ⟨c, cs, htext, hhead, htail⟩ := isIdentifier_iff.1 hs
  refine isIdentifier_iff.2 ⟨c, cs ++ t.toList, ?_, hhead, ?_⟩
  · rw [String.toList_append, htext, List.cons_append]
  · intro d hd
    exact (List.mem_append.1 hd).elim (htail d) (ht d)

namespace Export

/-- The names in the common header: those of the functions are identifiers, and no two functions and no two members of a
struct have the same. -/
structure Hygienic (plan : Plan) : Prop where
  identifiers : ∀ f ∈ prototypes plan, isIdentifier f.name = true
  functions : ((prototypes plan).map Prototype.name).Nodup
  members : ∀ owner, ((members plan owner).map Member.name).Nodup

/-- The functions of a plan that are not those of the model: the ones that both sources define, the backend and the
regularization. -/
def ownNames (o : Options) (plan : Plan) (is js : List Item) : List String :=
  Item.names is ++ Item.names js ++ [s!"{o.moduleName}_{Choice.name plan.solver.strategy.backend}_solve"] ++
    (if plan.solver.strategy.usesExactHessian then [s!"{o.moduleName}_regularize"] else [])

/-! ## Names after the module -/

/-- What follows the module in the names of the solver's functions and of those that it relies on. -/
def relatedSuffixes (backend : QpSolver) (exactHessian : Bool) : List String :=
  (Solver.ownArities.map fun a => "_" ++ a.1) ++ ["_" ++ (Choice.name backend ++ "_solve")] ++
    (if exactHessian then ["_regularize"] else [])

/-- What is known of such a suffix. -/
structure IsSuffix (s : String) : Prop where
  length : 2 ≤ s.length
  /-- It is not one of an integrator. -/
  solver : ending s ∉ integratorEndings
  /-- It is not that of a Jacobian. -/
  noJacobian : ending s ≠ ['c', 'a']
  word : ∀ c ∈ s.toList, isIdentifierTail c = true

/-- The suffixes are all different. -/
theorem relatedSuffixes_table (backend : QpSolver) (exactHessian : Bool) :
    (relatedSuffixes backend exactHessian).Nodup ∧ ∀ s ∈ relatedSuffixes backend exactHessian, IsSuffix s := by
  have htable : (relatedSuffixes backend exactHessian).Nodup ∧
      ∀ s ∈ relatedSuffixes backend exactHessian, 2 ≤ s.length ∧ ending s ∉ integratorEndings ∧
        ending s ≠ ['c', 'a'] ∧ s.toList.all isIdentifierTail = true := by
    cases backend <;> cases exactHessian <;> decide +kernel
  refine ⟨htable.1, fun s hs => ?_⟩
  obtain ⟨hlength, hsolver, hjacobian, hword⟩ := htable.2 s hs
  exact ⟨hlength, hsolver, hjacobian, List.all_eq_true.1 hword⟩

section

variable (p : Problem) (o : Options) (k : Strategy) (g : Integrator)

/-- The own functions of an assembled plan. -/
abbrev assembledNames : List String :=
  ownNames o (assemble p o k g) (integratorItems p o g) (solverItems p o k g)

/-- The header declares the functions of the model and the own ones. -/
theorem perm_names :
    ((prototypes (assemble p o k g)).map Prototype.name).Perm
      (modelFunctions p (assemble p o k g) ++ assembledNames p o k g) := by
  have hperm := (perm_prototypes p o k g).map Prototype.name
  have hbare (fs : List Prototype) : (fs.map Prototype.bare).map Prototype.name = fs.map Prototype.name := by
    rw [List.map_map]
    rfl
  have hsupplied : (supplied p o (assemble p o k g)).map Prototype.name =
      modelFunctions p (assemble p o k g) ++
        [s!"{o.moduleName}_{Choice.name (assemble p o k g).solver.strategy.backend}_solve"] ++
        (if (assemble p o k g).solver.strategy.usesExactHessian then [s!"{o.moduleName}_regularize"] else []) := by
    unfold supplied modelFunctions
    simp only [List.map_append, apply_ite (List.map Prototype.name)]
    rfl
  have hdefined (fs : List Function) : (fs.map fun f => f.prototype.bare).map Prototype.name =
      fs.map fun f => f.prototype.name := by
    rw [List.map_map]
    rfl
  rw [hbare, List.map_append, hbare, hsupplied, hdefined, List.map_append] at hperm
  refine hperm.trans ?_
  unfold assembledNames ownNames Item.names
  classical
  rw [List.perm_iff_count]
  intro n
  simp only [List.count_append]
  omega

theorem assembledNames_eq : assembledNames p o k g =
    Item.names (integratorItems p o g) ++
      (relatedSuffixes k.backend k.usesExactHessian).map fun s => o.moduleName.text ++ s := by
  have hsolver : Item.names (solverItems p o k g) =
      (Solver.ownArities.map fun a => "_" ++ a.1).map fun s => o.moduleName.text ++ s := by
    unfold Item.names
    rw [functions_solverItems, names_solver]
    simp only [Solver.ownArities, solverSuffixes, List.map_cons, List.map_nil, ← String.append_assoc]
    rfl
  have hbackend : s!"{o.moduleName}_{Choice.name (assemble p o k g).solver.strategy.backend}_solve" =
      o.moduleName.text ++ ("_" ++ (Choice.name k.backend ++ "_solve")) := by
    simp only [← String.append_assoc]
    rfl
  unfold assembledNames ownNames relatedSuffixes
  rw [hsolver, hbackend, List.map_append, List.map_append, apply_ite (List.map fun s => o.moduleName.text ++ s),
    List.append_assoc, List.append_assoc, List.append_assoc]
  rfl

/-- The own functions are all different. -/
theorem nodup_assembledNames : (assembledNames p o k g).Nodup := by
  obtain ⟨hnodup, hsuffix⟩ := relatedSuffixes_table k.backend k.usesExactHessian
  rw [assembledNames_eq, List.nodup_append]
  refine ⟨?_, ?_, ?_⟩
  · exact List.Nodup.of_map ending (List.Nodup.sublist (endings_integratorItems p o g) (by decide))
  · exact hnodup.map fun s s' h => (String.append_right_inj _).1 h
  · rintro n hn _ hn' rfl
    obtain ⟨s, hs, rfl⟩ := List.mem_map.1 hn'
    have hending := (endings_integratorItems p o g).subset (List.mem_map_of_mem hn)
    rw [ending_append _ (hsuffix s hs).length] at hending
    exact (hsuffix s hs).solver hending

/-- The names of an integrator's functions are identifiers. -/
theorem isIdentifier_integratorItems {n : String} (hn : n ∈ Item.names (integratorItems p o g)) :
    isIdentifier n = true := by
  have hword (s : String) (h : s.toList.all isIdentifierTail = true) : ∀ c ∈ s.toList, isIdentifierTail c = true :=
    List.all_eq_true.1 h
  have hmodule {s : String} (h : s.toList.all isIdentifierTail = true) : isIdentifier (g.moduleName.text ++ s) = true :=
    isIdentifier_append g.moduleName.valid (hword s h)
  obtain ⟨f, hf, rfl⟩ := List.mem_map.1 hn
  rw [functions_integratorItems] at hf
  rcases List.mem_append.1 hf with hf | hf
  · cases hsystem : g.newtonSystem (bindingOf p o) with
    | none =>
      rw [hsystem] at hf
      cases hf
    | some system =>
      rw [hsystem] at hf
      have howner : system.owner = g.moduleName.text := by
        unfold newtonSystem at hsystem
        split at hsystem
        · rw [← Option.some.inj hsystem]
        · cases hsystem
      have hdim : isIdentifier (system.owner ++ "_solve_dim" ++ toString system.dim) = true := by
        rw [howner]
        exact isIdentifier_append (hmodule (by decide +kernel)) (isWord_numeral system.dim).2
      rcases List.mem_pair.1 hf with rfl | rfl
      · exact isIdentifier_append hdim (hword "_system" (by decide +kernel))
      · exact isIdentifier_append hdim (hword "_system_reuse" (by decide +kernel))
  · obtain rfl := List.mem_singleton.1 hf
    exact hmodule (by decide +kernel : "_integrate".toList.all isIdentifierTail = true)

/-- The names of the own functions are identifiers, and not those of a Jacobian. -/
theorem isIdentifier_assembledNames {n : String} (hn : n ∈ assembledNames p o k g) :
    isIdentifier n = true ∧ ending n ≠ ['c', 'a'] := by
  rw [assembledNames_eq] at hn
  rcases List.mem_append.1 hn with hn | hn
  · refine ⟨isIdentifier_integratorItems p o g hn, fun hending => ?_⟩
    have hmem := (endings_integratorItems p o g).subset (List.mem_map_of_mem hn)
    rw [hending] at hmem
    exact absurd hmem (by decide)
  · obtain ⟨s, hs, rfl⟩ := List.mem_map.1 hn
    have hsuffix := (relatedSuffixes_table k.backend k.usesExactHessian).2 s hs
    refine ⟨isIdentifier_append o.moduleName.valid hsuffix.word, ?_⟩
    rw [ending_append _ hsuffix.length]
    exact hsuffix.noJacobian

/-! ## The names of the model -/

/-- The Jacobian goes by a name of its own. -/
theorem jacobian_notMem : s!"{p.model.rhs}_jac" ∉ p.model.rhs :: assembledNames p o k g := by
  intro h
  rcases List.mem_cons.1 h with h | h
  · have hlength := congrArg String.length h
    change (p.model.rhs ++ "_jac").length = _ at hlength
    have hjac : "_jac".length = 4 := by decide
    rw [String.length_append, hjac] at hlength
    omega
  · have hending : ending (p.model.rhs ++ "_jac") = ['c', 'a'] := ending_append _ (by decide)
    exact (isIdentifier_assembledNames p o k g h).2 hending

/-- The names of the functions are identifiers if that of the model is one. -/
theorem isIdentifier_names_iff :
    (∀ f ∈ prototypes (assemble p o k g), isIdentifier f.name = true) ↔ isIdentifier p.model.rhs = true := by
  have hnames : (∀ f ∈ prototypes (assemble p o k g), isIdentifier f.name = true) ↔
      ∀ n ∈ modelFunctions p (assemble p o k g) ++ assembledNames p o k g, isIdentifier n = true := by
    rw [← List.forall_mem_map (f := Prototype.name) (P := fun n => isIdentifier n = true)]
    exact forall_congr' fun n => imp_congr_left (perm_names p o k g).mem_iff
  rw [hnames]
  constructor
  · exact fun h => h _ (List.mem_append_left _ List.mem_cons_self)
  · intro h n hn
    rcases List.mem_append.1 hn with hn | hn
    · unfold modelFunctions at hn
      rcases List.mem_cons.1 hn with rfl | hn
      · exact h
      · obtain ⟨-, hn⟩ := List.mem_ite_nil_right.1 hn
        obtain rfl := List.mem_singleton.1 hn
        exact isIdentifier_append h (List.all_eq_true.1 (by decide +kernel))
    · exact (isIdentifier_assembledNames p o k g hn).1

theorem hygienic_assemble_iff :
    Hygienic (assemble p o k g) ↔ isIdentifier p.model.rhs = true ∧ p.model.rhs ∉ assembledNames p o k g := by
  have hperm := perm_names p o k g
  have hjacobian := jacobian_notMem p o k g
  rw [List.mem_cons, not_or] at hjacobian
  have hfunctions : ((prototypes (assemble p o k g)).map Prototype.name).Nodup ↔
      p.model.rhs ∉ assembledNames p o k g := by
    have hown := nodup_assembledNames p o k g
    rw [hperm.nodup_iff]
    unfold modelFunctions
    split
    · rw [List.cons_append, List.nodup_cons, List.cons_append, List.nodup_cons, List.nil_append, List.mem_cons, not_or]
      exact ⟨fun h => h.1.2, fun h => ⟨⟨Ne.symm hjacobian.1, h⟩, hjacobian.2, hown⟩⟩
    · rw [List.cons_append, List.nodup_cons, List.nil_append]
      exact ⟨fun h => h.1, fun h => ⟨h, hown⟩⟩
  constructor
  · exact fun h => ⟨(isIdentifier_names_iff p o k g).1 h.identifiers, hfunctions.1 h.functions⟩
  · rintro ⟨hrhs, hother⟩
    exact ⟨(isIdentifier_names_iff p o k g).2 hrhs, hfunctions.2 hother, nodup_names _⟩

end

/-- The header has the signature of every function. -/
theorem occurs_signature {plan : Plan} {f : Prototype} (hf : f ∈ prototypes plan) (types : TypeNames) :
    Occurs (f.signature types ++ ";") (headerText plan types) := by
  have hrender : Occurs (f.signature types ++ ";") (f.render types) := by
    unfold Prototype.render described
    cases f.description with
    | none => exact .refl _
    | some text => exact (Occurs.refl _).append_left _
  have hall : Occurs (f.signature types ++ ";") (Prototype.renderAll types (prototypes plan)) :=
    hrender.intercalate (List.mem_map_of_mem hf) "\n\n"
  unfold headerText
  exact (((((hall.append_left _).append_right _).append_right _).append_right _).append_right _).append_right _
    |>.append_right _

/-- The header of a resolved plan declares its functions. It is hygienic if and only if the name of the model is an
identifier that none of the other functions goes by, which are those of the two sources, the backend and the
regularization. -/
theorem hygienic_iff {p : Problem} {o : Options} {r : Registry} {plan : Plan} (hresolve : resolve p o r = .ok plan) :
    (∀ f ∈ prototypes plan, ∀ types, Occurs (f.signature types ++ ";") (headerText plan types)) ∧
      ∃ is js, plan.integrator.items = .ok is ∧ plan.solver.items = .ok js ∧
        (Hygienic plan ↔ isIdentifier p.model.rhs = true ∧ p.model.rhs ∉ ownNames o plan is js) := by
  obtain ⟨g, k, -, rfl, -⟩ := resolve_assemble hresolve
  refine ⟨fun f hf types => occurs_signature hf types, ?_⟩
  exact ⟨_, _, items_integrator p o k g, items_solver p o k g, hygienic_assemble_iff p o k g⟩

theorem hygienic_iff_smallProblem :
    ∃ plan, resolve smallProblem exactOptions .builtin = .ok plan ∧ Hygienic plan := by
  have hresolve : resolve smallProblem exactOptions .builtin = .ok (of smallProblem exactOptions .exactHessianN2) := by
    rfl
  obtain ⟨-, is, js, his, hjs, hiff⟩ := hygienic_iff hresolve
  obtain rfl := Except.ok.inj ((items_integrator smallProblem exactOptions .exactHessianN2 _).symm.trans his)
  obtain rfl := Except.ok.inj ((items_solver smallProblem exactOptions .exactHessianN2 _).symm.trans hjs)
  exact ⟨_, hresolve, hiff.2 ⟨by decide +kernel, by decide +kernel⟩⟩

/-- The small problem with another name of the model. -/
def problemWithModel (rhs : String) : Problem := { smallProblem with model := { smallProblem.model with rhs } }

/-- A disk with a project file that has two words for the name of the model. -/
def twoWordsDisk : Files.Disk :=
  let text := "ocp.horizon=2\nocp.dimensions=\x7bnx=1,nu=1\x7d\nocp.objective.least_squares.ny=1\n" ++
    "ocp.model.rhs_function=\"my rhs\""
  { tree := ⟨[(["ocpgen.toml"], .file text.toUTF8)]⟩ }

/-- The file is accepted, and the project has a plan. -/
theorem loaded_twoWordsDisk : ∃ project plan, Project.loaded .empty ⟨"ocpgen.toml"⟩ twoWordsDisk = .ok project ∧
    project.problem.model.rhs = "my rhs" ∧ resolve project.problem project.options .builtin = .ok plan := by
  have hcheck : ((Project.loaded .empty ⟨"ocpgen.toml"⟩ twoWordsDisk).toOption.any fun project =>
      project.problem.model.rhs = "my rhs" ∧
        (resolve project.problem project.options .builtin).toOption.isSome) = true := by
    decide +kernel
  cases hloaded : Project.loaded .empty ⟨"ocpgen.toml"⟩ twoWordsDisk with
  | error c =>
    rw [hloaded] at hcheck
    cases hcheck
  | ok project =>
    rw [hloaded] at hcheck
    obtain ⟨hname, hsome⟩ := of_decide_eq_true hcheck
    cases hresolve : resolve project.problem project.options .builtin with
    | error c =>
      rw [hresolve] at hsome
      cases hsome
    | ok plan => exact ⟨project, plan, rfl, hname, hresolve⟩

/-- A function whose name is two words, and two functions of one name: both headers come of problems that pass their
check, the first one also of a project file. -/
theorem unhygienic_headers :
    (∃ project plan, Project.loaded .empty ⟨"ocpgen.toml"⟩ twoWordsDisk = .ok project ∧
      resolve project.problem project.options .builtin = .ok plan ∧ ¬Hygienic plan) ∧
    ∃ plan, (problemWithModel "acado_getKKT").check = .ok () ∧
      resolve (problemWithModel "acado_getKKT") {} .builtin = .ok plan ∧ ¬Hygienic plan := by
  constructor
  · obtain ⟨project, plan, hloaded, hname, hresolve⟩ := loaded_twoWordsDisk
    refine ⟨project, plan, hloaded, hresolve, fun h => ?_⟩
    obtain ⟨g, k, -, rfl, -⟩ := resolve_assemble hresolve
    obtain ⟨hidentifier, -⟩ := (hygienic_assemble_iff _ _ _ _).1 h
    rw [hname] at hidentifier
    exact absurd hidentifier (by decide +kernel)
  · refine ⟨of (problemWithModel "acado_getKKT") {} .gaussNewtonN2, by rfl, by rfl, fun h => ?_⟩
    obtain ⟨-, hother⟩ := (hygienic_assemble_iff _ _ _ _).1 h
    refine hother ?_
    rw [assembledNames_eq]
    refine List.mem_append_right _ (List.mem_map.2 ⟨"_getKKT", ?_, rfl⟩)
    exact List.mem_append_left _ (List.mem_append_left _ (by decide))

end Export

end ControlCodegen
