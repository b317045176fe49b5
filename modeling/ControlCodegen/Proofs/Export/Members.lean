import ControlCodegen.Export.Header
import ControlCodegen.Proofs.Plan.Macros
import ControlCodegen.Proofs.Plan.Shape

/-!
# `Export.Members`: the members of the structs

* `Export.variableNames`, `Export.workspaceNames` : the names of the members of a solver, by what they depend on.
* `Export.memberNames` : all names that a member of a struct can have; no two are alike.
* `Export.size?`, `Export.elements` : the size of the member of a name; there are no elements where there is none.
* `Export.size?_of_mem`, `Export.elements_of_mem` : a member has its own elements, whichever members are declared beside it.
* `Export.SolverSizes`, `Export.IntegratorSizes` : the sizes of the members of a solver and of a bound integrator.
-/

namespace ControlCodegen.Export

open C

set_option autoImplicit false

/-! ## Names -/

/-- The names of the variables, by what they depend on. -/
def variableNames (fixedInitialState hardcodedConstraints arrivalCost covarianceMatrix exactHessian : Bool) :
    List String :=
  ["x", "u", "od", "y", "yN", "W", "WN"] ++ (if fixedInitialState then ["x0"] else []) ++
    (if hardcodedConstraints then [] else ["lbValues", "ubValues"]) ++ (if arrivalCost then ["xAC", "SAC", "WL"] else []) ++
    (if covarianceMatrix then ["sigmaN"] else []) ++ (if exactHessian then ["mu"] else [])

/-- The names in the workspace that the solver needs. -/
def workspaceNames (complexConstraints blocks bounds : Bool) : List String :=
  ["state", "d", "evGx", "evGu", "H", "g", "lb", "ub", "dz", "objValue"] ++
    (if complexConstraints then ["A", "lbA", "ubA"] else []) ++ (if blocks then ["qpA"] else []) ++
    (if bounds then ["lbIdx", "ubIdx"] else [])

/-- The names in the workspace that the integrator needs. -/
def integratorNames : List String := ["rk_ttt", "rk_xxx", "rk_kkk", "rk_A", "rk_b", "rk_perm", "rk_jac"]

/-- The names that members can have, in the order of their declarations. -/
def memberNames : Struct → List String
  | .vars => variableNames true false true true true
  | .workspace => integratorNames ++ workspaceNames true true true

theorem nodup_memberNames (owner : Struct) : (memberNames owner).Nodup := by
  cases owner <;> decide

theorem names_integrator_sublist (g : Integrator) :
    ((g.members .workspace).map Member.name).Sublist integratorNames := by
  unfold Integrator.members
  cases g.binding with
  | none => exact List.nil_sublist _
  | some b =>
    dsimp only
    cases g.newtonSystem b with
    | none => exact (List.Sublist.refl ["rk_ttt", "rk_xxx", "rk_kkk"]).append (List.nil_sublist _)
    | some system => exact List.Sublist.refl _

/-- The variables belong to the solver. -/
theorem members_vars (plan : Plan) : members plan .vars = plan.solver.variableMembers := by
  have hnone : plan.integrator.members .vars = [] := by
    unfold Integrator.members
    cases plan.integrator.binding <;> rfl
  unfold members
  rw [hnone]
  rfl

theorem names_variables (s : Solver) :
    s.variableMembers.map Member.name =
      variableNames s.fixedInitialState s.hardcodedConstraints s.arrivalCost s.covarianceMatrix
        s.strategy.usesExactHessian := by
  unfold Solver.variableMembers
  simp only [List.map_append, apply_ite (List.map Member.name)]
  rfl

theorem names_workspace (s : Solver) :
    s.workspaceMembers.map Member.name =
      workspaceNames (decide (0 < s.complexConstraints)) s.blocks?.isSome s.bounds?.isSome := by
  unfold Solver.workspaceMembers workspaceNames
  simp only [List.map_append, apply_ite (List.map Member.name), decide_eq_true_eq]
  cases s.blocks? <;> cases s.bounds? <;> rfl

theorem variableNames_sublist : ∀ fixed hardcoded arrival covariance exact,
    (variableNames fixed hardcoded arrival covariance exact).Sublist (memberNames .vars) := by
  decide

theorem workspaceNames_sublist : ∀ complexConstraints blocks bounds,
    (workspaceNames complexConstraints blocks bounds).Sublist (workspaceNames true true true) := by
  decide

theorem names_sublist (plan : Plan) (owner : Struct) :
    ((members plan owner).map Member.name).Sublist (memberNames owner) := by
  cases owner with
  | vars =>
    rw [members_vars, names_variables]
    exact variableNames_sublist _ _ _ _ _
  | workspace =>
    unfold members
    rw [List.map_append]
    refine (names_integrator_sublist plan.integrator).append ?_
    have hnames : (plan.solver.members .workspace).map Member.name = _ := names_workspace plan.solver
    rw [hnames]
    exact workspaceNames_sublist _ _ _

/-- No struct has two members of one name. -/
theorem nodup_names (plan : Plan) (owner : Struct) : ((members plan owner).map Member.name).Nodup :=
  (nodup_memberNames owner).sublist (names_sublist plan owner)

/-- The size of the member of that name, if there is one. -/
def size? (plan : Plan) (owner : Struct) (name : String) : Option Nat :=
  ((members plan owner).find? fun d => d.name = name).map Member.size

/-- The elements of the member of that name; zero if there is no such member. -/
def elements (plan : Plan) (owner : Struct) (name : String) : Nat :=
  (((members plan owner).find? fun d => d.name = name).map Member.size).getD 0

/-- A member is found by its name. -/
theorem size?_of_mem {plan : Plan} {owner : Struct} {d : Member} (h : d ∈ members plan owner) :
    size? plan owner d.name = some d.size := by
  have hfind : (members plan owner).find? (fun d' => d'.name = d.name) = some d :=
    find?_of_nodup (nodup_names plan owner) h
  unfold size?
  rw [hfind]
  rfl

theorem elements_of_size? {plan : Plan} {owner : Struct} {name : String} {n : Nat} (h : size? plan owner name = some n) :
    elements plan owner name = n :=
  congrArg (·.getD 0) h

theorem elements_of_mem {plan : Plan} {owner : Struct} {d : Member} (h : d ∈ members plan owner) :
    elements plan owner d.name = d.size :=
  elements_of_size? (size?_of_mem h)

theorem isSome_size?_iff {plan : Plan} {owner : Struct} {name : String} :
    (size? plan owner name).isSome ↔ name ∈ (members plan owner).map Member.name := by
  simp [size?]

/-! ## Sizes -/

/-- The sizes of the members of a solver, some of which are there on a condition. -/
structure SolverSizes (plan : Plan) : Prop where
  x : size? plan .vars "x" = some ((plan.solver.horizon + 1) * plan.solver.dims.nx)
  u : size? plan .vars "u" = some (plan.solver.horizon * plan.solver.dims.nu)
  od : size? plan .vars "od" = some ((plan.solver.horizon + 1) * plan.solver.dims.nod)
  y : size? plan .vars "y" = some (plan.solver.horizon * plan.solver.ny)
  yN : size? plan .vars "yN" = some plan.solver.nyn
  state : size? plan .workspace "state" = some ((plan.solver.link.map Integrator.Link.length).getD 0)
  d : size? plan .workspace "d" = some (plan.solver.horizon * plan.solver.dims.nx)
  evGx : size? plan .workspace "evGx" = some (plan.solver.horizon * plan.solver.dims.nx * plan.solver.dims.nx)
  evGu : size? plan .workspace "evGu" = some (plan.solver.horizon * plan.solver.dims.nx * plan.solver.dims.nu)
  H : size? plan .workspace "H" = some (plan.solver.qpVariables * plan.solver.qpVariables)
  g : size? plan .workspace "g" = some plan.solver.qpVariables
  lb : size? plan .workspace "lb" = some plan.solver.qpVariables
  ub : size? plan .workspace "ub" = some plan.solver.qpVariables
  dz : size? plan .workspace "dz" = some plan.solver.qpVariables
  objValue : size? plan .workspace "objValue" = some 1
  x0 : plan.solver.fixedInitialState = true → size? plan .vars "x0" = some plan.solver.dims.nx
  qpA : ∀ blocks, plan.solver.blocks? = some blocks →
    size? plan .workspace "qpA" = some (blocks.stateBounds * blocks.count * plan.solver.qpVariables)
  bounds : ∀ bounds, plan.solver.bounds? = some bounds →
    size? plan .workspace "lbIdx" = some bounds.lower ∧ size? plan .workspace "ubIdx" = some bounds.upper

theorem solverSizes (plan : Plan) : SolverSizes plan := by
  have hvars : ∀ d ∈ plan.solver.variableMembers, size? plan .vars d.name = some d.size := by
    intro d hd
    exact size?_of_mem (List.mem_append_right _ hd)
  have hwork : ∀ d ∈ plan.solver.workspaceMembers, size? plan .workspace d.name = some d.size := by
    intro d hd
    exact size?_of_mem (List.mem_append_right _ hd)
  unfold Solver.variableMembers at hvars
  unfold Solver.workspaceMembers at hwork
  simp only [List.append_assoc, List.forall_mem_append, List.forall_mem_cons, Member.size, Nat.mul_one, Nat.one_mul]
    at hvars hwork
  obtain ⟨⟨hx, hu, hod, hy, hyN, -⟩, hx0, -⟩ := hvars
  obtain ⟨⟨hstate, hd, hevGx, hevGu, hH, hg, hlb, hub, hdz, hobj, -⟩, -, hqpA, hbounds⟩ := hwork
  refine ⟨hx, hu, hod, hy, hyN, hstate, hd, hevGx, hevGu, hH, hg, hlb, hub, hdz, hobj, ?_, ?_, ?_⟩
  · intro hfixed
    rw [if_pos hfixed, List.forall_mem_singleton] at hx0
    simpa using hx0
  · intro blocks hblocks
    rw [hblocks, List.forall_mem_singleton] at hqpA
    exact hqpA
  · intro bounds hsome
    rw [hsome] at hbounds
    simp only [List.forall_mem_cons, Nat.mul_one] at hbounds
    exact ⟨hbounds.1, hbounds.2.1⟩

/-- The sizes of the members of a bound integrator. -/
structure IntegratorSizes (plan : Plan) (b : Integrator.Binding) : Prop where
  time : size? plan .workspace "rk_ttt" = some 1
  point : size? plan .workspace "rk_xxx" = some b.length
  stages : size? plan .workspace "rk_kkk" = some (plan.integrator.stages * b.integratedLength)
  newton : ∀ system, plan.integrator.newtonSystem b = some system →
    size? plan .workspace "rk_A" = some (system.dim * system.dim) ∧ size? plan .workspace "rk_b" = some system.dim ∧
      size? plan .workspace "rk_perm" = some system.dim ∧
      size? plan .workspace "rk_jac" = some (b.integratedLength * b.integratedLength)

theorem integratorSizes {plan : Plan} {b : Integrator.Binding} (hb : plan.integrator.binding = some b) :
    IntegratorSizes plan b := by
  have hall : ∀ d ∈ plan.integrator.members .workspace, size? plan .workspace d.name = some d.size := by
    intro d hd
    exact size?_of_mem (List.mem_append_left _ hd)
  unfold Integrator.members at hall
  rw [hb] at hall
  simp only [List.forall_mem_append, List.forall_mem_cons, Member.size, Nat.mul_one, Nat.one_mul] at hall
  obtain ⟨⟨htime, hpoint, hstages, -⟩, hrest⟩ := hall
  refine ⟨htime, hpoint, hstages, ?_⟩
  intro system hsystem
  rw [hsystem] at hrest
  simp only [List.forall_mem_cons, Nat.mul_one] at hrest
  obtain ⟨hA, hb, hperm, hjacobian, -⟩ := hrest
  exact ⟨hA, hb, hperm, hjacobian⟩

end ControlCodegen.Export
