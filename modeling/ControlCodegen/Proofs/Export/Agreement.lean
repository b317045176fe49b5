import ControlCodegen.Proofs.Export.Members
import Mathlib.Algebra.Group.Nat.Defs

/-!
# `Export.Agreement`: the macros of the header agree with its members

* `Plan.macro` : the value of a macro of the header.
* `Agreement` : the members have the sizes that the macros say, and those on a condition are there when a macro says so.
* `blocks_exact` : the affine constraints of all blocks together are the bounded states of all intervals.
* `header_agreement` : the header of every plan agrees with itself.

The macros are collected once, from the problem and the options; the members come from the solver and the integrator.
-/

namespace ControlCodegen

open C

set_option autoImplicit false

namespace Export

open Integrator Plan

/-! ## Members on a condition -/

section Listed

variable (plan : Plan)

theorem names_vars :
    (members plan .vars).map Member.name =
      variableNames plan.solver.fixedInitialState plan.solver.hardcodedConstraints plan.solver.arrivalCost
        plan.solver.covarianceMatrix plan.solver.strategy.usesExactHessian := by
  rw [members_vars, names_variables]

theorem mem_variableNames : ∀ fixed hardcoded arrival covariance exact,
    ("x0" ∈ variableNames fixed hardcoded arrival covariance exact ↔ fixed = true) ∧
    (∀ name ∈ ["lbValues", "ubValues"],
      name ∈ variableNames fixed hardcoded arrival covariance exact ↔ hardcoded = false) ∧
    (∀ name ∈ ["xAC", "SAC", "WL"], name ∈ variableNames fixed hardcoded arrival covariance exact ↔ arrival = true) ∧
    ("sigmaN" ∈ variableNames fixed hardcoded arrival covariance exact ↔ covariance = true) := by
  decide

theorem mem_workspaceNames : ∀ complexConstraints blocks bounds,
    ("qpA" ∈ workspaceNames complexConstraints blocks bounds ↔ blocks = true) ∧
    (∀ name ∈ ["lbIdx", "ubIdx"], name ∈ workspaceNames complexConstraints blocks bounds ↔ bounds = true) := by
  decide

theorem flag_eq_one : ∀ b : Bool, some b.toNat = some 1 ↔ b = true := by decide

theorem flag_eq_zero : ∀ b : Bool, some b.toNat = some 0 ↔ b = false := by decide

/-- The integrator needs no member of the solver. -/
theorem mem_names_workspace {name : String} (h : name ∉ integratorNames) :
    name ∈ (members plan .workspace).map Member.name ↔
      name ∈ workspaceNames (decide (0 < plan.solver.complexConstraints)) plan.solver.blocks?.isSome
        plan.solver.bounds?.isSome := by
  have hnames : (plan.solver.members .workspace).map Member.name = _ := names_workspace plan.solver
  unfold members
  rw [List.map_append, List.mem_append, hnames]
  refine ⟨fun hmem => ?_, .inr⟩
  rcases hmem with hmem | hmem
  · exact absurd ((names_integrator_sublist plan.integrator).subset hmem) h
  · exact hmem

end Listed

/-! ## Agreement -/

/-- The value of a macro of the header; zero if it is not defined. -/
def macroValue (plan : Plan) (name : String) : Nat := (plan.constants.value? name).getD 0

/-- The members of a header agree with its macros. -/
structure Agreement (p : Problem) (plan : Plan) : Prop where
  defined : ∀ name ∈ ["N", "NX", "NU", "NOD", "NY", "NYN", "QP_NV", "RK_NSTAGES"], (plan.constants.value? name).isSome
  x : size? plan .vars "x" = some ((macroValue plan "N" + 1) * macroValue plan "NX")
  u : size? plan .vars "u" = some (macroValue plan "N" * macroValue plan "NU")
  od : size? plan .vars "od" = some ((macroValue plan "N" + 1) * macroValue plan "NOD")
  y : size? plan .vars "y" = some (macroValue plan "N" * macroValue plan "NY")
  yN : size? plan .vars "yN" = some (macroValue plan "NYN")
  d : size? plan .workspace "d" = some (macroValue plan "N" * macroValue plan "NX")
  qp : ∀ name ∈ ["g", "lb", "ub", "dz"], size? plan .workspace name = some (macroValue plan "QP_NV")
  H : size? plan .workspace "H" = some (macroValue plan "QP_NV" ^ 2)
  stages : ∃ l, plan.integrator.link = .ok l ∧
    size? plan .workspace "rk_kkk" = some (macroValue plan "RK_NSTAGES" * l.integratedLength)
  initialState : (size? plan .vars "x0").isSome ↔ plan.constants.value? "INITIAL_STATE_FIXED" = some 1
  arrivalCost : ∀ name ∈ ["xAC", "SAC", "WL"],
    (size? plan .vars name).isSome ↔ plan.constants.value? "USE_ARRIVAL_COST" = some 1
  covariance : (size? plan .vars "sigmaN").isSome ↔ plan.constants.value? "COMPUTE_COVARIANCE_MATRIX" = some 1
  boundValues : ∀ name ∈ ["lbValues", "ubValues"],
    (size? plan .vars name).isSome ↔ plan.constants.value? "HARDCODED_CONSTRAINT_VALUES" = some 0
  lowerBounds : size? plan .workspace "lbIdx" = plan.constants.value? "QP_NLB"
  upperBounds : size? plan .workspace "ubIdx" = plan.constants.value? "QP_NUB"
  blocks : (size? plan .workspace "qpA").isSome ↔ plan.constants.value? "BLOCK_CONDENSING" = some 1
  blockRows : size? plan .workspace "qpA" = (plan.constants.value? "QP_NCA").map (· * macroValue plan "QP_NV")
  /-- No bounded state is lost in the division of the horizon into blocks. -/
  affine : ∀ n, plan.constants.value? "QP_NCA" = some n → n = macroValue plan "N" * p.constraints.boundedStates
  exclusive : plan.constants.value? "QP_NCA" = none ∨
    plan.constants.value? "QP_NLB" = none ∧ plan.constants.value? "QP_NUB" = none

section Plans

variable {p : Problem} {o : Options} {k : Strategy} (g : Integrator)

/-- The affine constraints of all blocks together. -/
theorem blocks_exact (hcheck : solverCheck p o k = .ok ()) {blocks : Solver.Blocks}
    (hblocks : (solverWith p o k (linkTo p o g)).blocks? = some blocks) :
    Constants.blockConstraints blocks = p.horizon * p.constraints.boundedStates := by
  unfold Solver.blocks? at hblocks
  split at hblocks
  · rename_i hlayout
    cases hblocks
    obtain ⟨-, hdvd⟩ := blocks_of_solverCheck hcheck hlayout
    calc o.blockSize * p.constraints.boundedStates * (p.horizon / o.blockSize)
      _ = o.blockSize * (p.horizon / o.blockSize) * p.constraints.boundedStates := Nat.mul_right_comm _ _ _
      _ = p.horizon * p.constraints.boundedStates := by rw [Nat.mul_div_cancel' hdvd]
  · cases hblocks

/-- Blocks and listed bounds belong to different layouts. -/
theorem blocks_or_bounds (s : Solver) : s.blocks? = none ∨ s.bounds? = none := by
  unfold Solver.blocks? Solver.bounds?
  by_cases hforces : s.strategy = .sparseForces
  · have hlayout : s.strategy.layout ≠ .block := by
      rw [hforces]
      decide
    exact .inl (if_neg hlayout)
  · exact .inr (if_neg hforces)

theorem macroValue_of {plan : Plan} {name : String} {n : Nat} (h : plan.constants.value? name = some n) :
    macroValue plan name = n := by
  unfold macroValue
  rw [h]
  rfl

theorem isSome_size?_variable_iff {plan : Plan} {name : String} :
    (size? plan .vars name).isSome ↔
      name ∈ variableNames plan.solver.fixedInitialState plan.solver.hardcodedConstraints plan.solver.arrivalCost
        plan.solver.covarianceMatrix plan.solver.strategy.usesExactHessian := by
  rw [isSome_size?_iff, names_vars]

theorem isSome_size?_workspace_iff {plan : Plan} {name : String} (h : name ∉ integratorNames) :
    (size? plan .workspace name).isSome ↔
      name ∈ workspaceNames (decide (0 < plan.solver.complexConstraints)) plan.solver.blocks?.isSome
        plan.solver.bounds?.isSome := by
  rw [isSome_size?_iff, mem_names_workspace plan h]

/-- The bound values are listed as the macros count them. -/
theorem size?_bounds {plan : Plan} {name : String} (h : name ∈ ["lbIdx", "ubIdx"]) (f : Solver.Bounds → Nat)
    (hsize : ∀ bounds, plan.solver.bounds? = some bounds → size? plan .workspace name = some (f bounds)) :
    size? plan .workspace name = plan.solver.bounds?.map f := by
  cases hbounds : plan.solver.bounds? with
  | some bounds => exact hsize bounds hbounds
  | none =>
    have hsolver : ∀ name ∈ ["lbIdx", "ubIdx"], name ∉ integratorNames := by decide
    rw [Option.map_none, ← Option.not_isSome_iff_eq_none, isSome_size?_workspace_iff (hsolver name h),
      (mem_workspaceNames _ _ _).2 name h, hbounds]
    decide

theorem size?_blocks {plan : Plan} :
    size? plan .workspace "qpA" =
      plan.solver.blocks?.map fun blocks => Constants.blockConstraints blocks * plan.solver.qpVariables := by
  cases hblocks : plan.solver.blocks? with
  | some blocks => exact (solverSizes plan).qpA blocks hblocks
  | none =>
    have hsolver : "qpA" ∉ integratorNames := by decide
    rw [Option.map_none, ← Option.not_isSome_iff_eq_none, isSome_size?_workspace_iff hsolver,
      (mem_workspaceNames _ _ _).1, hblocks]
    decide

theorem agreement_assemble (hcheck : solverCheck p o k = .ok ()) : Agreement p (assemble p o k g) := by
  have hmacros := Constants.macroValues (assemble p o k g).constants
  have hsolver := solverSizes (assemble p o k g)
  have hN := macroValue_of hmacros.horizon
  have hnx := macroValue_of hmacros.nx
  have hnv := macroValue_of hmacros.qpVariables
  obtain ⟨hx0, hvalues, harrival, hsigma⟩ := mem_variableNames o.fixedInitialState o.hardcodedConstraints o.arrivalCost
    o.covarianceMatrix k.usesExactHessian
  exact {
    defined := by
      simp only [List.forall_mem_cons]
      rw [hmacros.horizon, hmacros.nx, hmacros.nu, hmacros.nod, hmacros.ny, hmacros.nyn, hmacros.qpVariables,
        hmacros.stages]
      simp
    x := by
      rw [hN, hnx]
      exact hsolver.x
    u := by
      rw [hN, macroValue_of hmacros.nu]
      exact hsolver.u
    od := by
      rw [hN, macroValue_of hmacros.nod]
      exact hsolver.od
    y := by
      rw [hN, macroValue_of hmacros.ny]
      exact hsolver.y
    yN := by
      rw [macroValue_of hmacros.nyn]
      exact hsolver.yN
    d := by
      rw [hN, hnx]
      exact hsolver.d
    qp := by
      simp only [List.forall_mem_cons, hnv]
      exact ⟨hsolver.g, hsolver.lb, hsolver.ub, hsolver.dz, fun name h => absurd h List.not_mem_nil⟩
    H := by
      rw [hnv, Nat.pow_two]
      exact hsolver.H
    stages := by
      refine ⟨linkTo p o g, rfl, ?_⟩
      rw [macroValue_of hmacros.stages]
      exact (integratorSizes (b := bindingOf p o) rfl).stages
    initialState := by
      rw [isSome_size?_variable_iff, hmacros.fixedInitialState]
      exact hx0.trans (flag_eq_one _).symm
    arrivalCost := by
      intro name h
      rw [isSome_size?_variable_iff, hmacros.arrivalCost]
      exact (harrival name h).trans (flag_eq_one _).symm
    covariance := by
      rw [isSome_size?_variable_iff, hmacros.covarianceMatrix]
      exact hsigma.trans (flag_eq_one _).symm
    boundValues := by
      intro name h
      rw [isSome_size?_variable_iff, hmacros.hardcodedConstraints]
      exact (hvalues name h).trans (flag_eq_zero _).symm
    lowerBounds := by
      rw [hmacros.lowerBounds]
      exact size?_bounds (by decide) _ fun bounds h => (hsolver.bounds bounds h).1
    upperBounds := by
      rw [hmacros.upperBounds]
      exact size?_bounds (by decide) _ fun bounds h => (hsolver.bounds bounds h).2
    blocks := by
      rw [hmacros.blockCondensing, flag_eq_one, size?_blocks, Option.isSome_map]
      rfl
    blockRows := by
      rw [hmacros.affineConstraints, hnv, size?_blocks, Option.map_map]
      rfl
    affine := by
      intro n hn
      rw [hmacros.affineConstraints] at hn
      obtain ⟨blocks, hblocks, rfl⟩ := Option.map_eq_some_iff.1 hn
      rw [hN]
      exact blocks_exact g hcheck hblocks
    exclusive := by
      rw [hmacros.affineConstraints, hmacros.lowerBounds, hmacros.upperBounds]
      simp only [Option.map_eq_none_iff, and_self]
      exact blocks_or_bounds (assemble p o k g).solver }

/-- The header of every plan agrees with itself. -/
theorem header_agreement {r : Registry} {plan : Plan} (hresolve : resolve p o r = .ok plan) : Agreement p plan := by
  obtain ⟨g, k, -, rfl, -, -, -, hcheck⟩ := resolve_assemble hresolve
  exact agreement_assemble g hcheck

end Plans

/-- Twenty intervals with two bounded states. -/
def boundedProblem : Problem where
  horizon := 20
  dimensions := { nx := 4, nu := 1 }
  objective := { leastSquares := some { ny := 5 } }
  constraints := { boundedStates := 2 }

/-- Blocks of five intervals. -/
def blockOptions : Options where
  qpSolver := .qpDunes
  qpMethod := .blockCondensingN2
  blockSize := 5

theorem header_agreement_boundedProblem :
    resolve boundedProblem blockOptions .builtin = .ok (of boundedProblem blockOptions .blockQpDunes) ∧
      Agreement boundedProblem (of boundedProblem blockOptions .blockQpDunes) ∧
      size? (of boundedProblem blockOptions .blockQpDunes) .workspace "qpA" = some (20 * 2 * 40) := by
  have hresolve : resolve boundedProblem blockOptions .builtin = .ok (of boundedProblem blockOptions .blockQpDunes) := by
    rfl
  have hagreement := header_agreement hresolve
  refine ⟨hresolve, hagreement, ?_⟩
  rw [hagreement.blockRows]
  rfl

end Export

end ControlCodegen
