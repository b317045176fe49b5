import ControlCodegen.Error
import ControlCodegen.Integrator.Basic

/-!
# `Solver`: a real-time solver for one problem

A solver is configured step by step: its extent, the integrator that it calls, the objective, the constraints and the
Levenberg-Marquardt coefficient. `Solver.setup` completes the configuration; only then can the program be generated.

* `Solver.setExtent`, `attachIntegrator`, `setObjective`, `setConstraints`, `setLevenbergMarquardt`, `setup` : the
  steps; one that fails leaves no trace.
* `Solver.qpVariables`, `complexConstraints`, `bounds?`, `blocks?` : the size of the quadratic program.
* `Solver.members`, `Solver.prototypes` : the declarations for the common header.
-/

namespace ControlCodegen

open C

set_option autoImplicit false

namespace Solver

/-- The size of the problem that a solver is for. -/
structure Extent where
  /-- Control intervals. -/
  horizon : Nat
  dims : Dimensions
  deriving DecidableEq, Repr

def Extent.zero : Extent := ⟨0, .zero⟩

/-- The number of bound values of a quadratic program whose bounds are listed. -/
structure Bounds where
  lower : Nat
  upper : Nat
  deriving DecidableEq, Repr

/-- The blocks of a quadratic program that is condensed block by block. -/
structure Blocks where
  /-- State bounds that stay affine constraints in one block. -/
  stateBounds : Nat
  count : Nat
  deriving DecidableEq, Repr

end Solver

open Solver

/-- A solver while it is configured. -/
structure Solver where
  strategy : Strategy
  moduleName : ModuleName
  fixedInitialState : Bool
  hardcodedConstraints : Bool
  arrivalCost : Bool
  covarianceMatrix : Bool
  /-- Intervals in a block. -/
  blockSize : Nat
  extent : Option Extent := none
  link : Option Integrator.Link := none
  objective : Option Objective := none
  constraints : Constraints := {}
  levenbergMarquardt : Float := 0.0
  /-- Whether the configuration is complete. -/
  ready : Bool := false

namespace Solver

/-! ## Configuration -/

/-- A solver with nothing bound to it. -/
def ofOptions (k : Strategy) (o : Options) : Solver where
  strategy := k
  moduleName := o.moduleName
  fixedInitialState := o.fixedInitialState
  hardcodedConstraints := o.hardcodedConstraints
  arrivalCost := o.arrivalCost
  covarianceMatrix := o.covarianceMatrix
  blockSize := o.blockSize

def setExtent (s : Solver) (e : Extent) : Solver := { s with extent := some e, ready := false }

/-- Attaches the integrator that the generated solver calls. -/
def attachIntegrator (s : Solver) (l : Integrator.Link) : Solver := { s with link := some l, ready := false }

/-- Binds the objective. Without the exact Hessian there has to be a least-squares term. -/
def setObjective (s : Solver) (o : Objective) : Except Cause Solver :=
  if !s.strategy.usesExactHessian ∧ !o.hasLeastSquares then .error (.leastSquaresRequired s.strategy)
  else .ok { s with objective := some o, ready := false }

def setConstraints (s : Solver) (c : Constraints) : Solver := { s with constraints := c, ready := false }

/-- Sets the coefficient that is added to the diagonal of the Hessian. A complete configuration stays complete. -/
def setLevenbergMarquardt (s : Solver) (value : Float) : Solver := { s with levenbergMarquardt := value }

/-- Completes the configuration. Block strategies need a horizon of whole blocks. -/
def setup (s : Solver) : Except Cause Solver :=
  match s.extent with
  | none => .error (.incompleteSolver s.strategy .dimensions)
  | some e =>
    if s.link.isNone then .error (.incompleteSolver s.strategy .integrator)
    else if s.objective.isNone then .error (.incompleteSolver s.strategy .objective)
    else if s.strategy.layout = .block ∧ (s.blockSize = 0 ∨ e.horizon % s.blockSize ≠ 0) then
      .error (.unevenBlocks e.horizon s.blockSize)
    else .ok { s with ready := true }

/-! ## Sizes -/

def horizon (s : Solver) : Nat := (s.extent.getD .zero).horizon

def dims (s : Solver) : Dimensions := (s.extent.getD .zero).dims

/-- References on each node but the last. -/
def ny (s : Solver) : Nat := (s.objective.map Objective.ny).getD 0

/-- References on the last node. -/
def nyn (s : Solver) : Nat := (s.objective.map Objective.nyn).getD 0

def weighting (s : Solver) : Weighting := (s.objective.map Objective.weighting).getD .empty

/-- Whether linear terms of the objective are set at run time. -/
def usesLinearTerms (s : Solver) : Bool := (s.objective.map Objective.linearTerms).getD false

/-- The number of whole blocks in the horizon. -/
def blockCount (s : Solver) : Nat := s.horizon / s.blockSize

/-- The variables of the quadratic program. -/
def qpVariables (s : Solver) : Nat :=
  let controls := s.horizon * s.dims.nu
  match s.strategy.layout with
  | .condensed => controls + if s.fixedInitialState then 0 else s.dims.nx
  | .block => (s.blockCount + 1) * s.dims.nx + controls
  | .sparse => (s.horizon + 1) * s.dims.nx + controls

/-- Path constraints on all nodes but the last, and point constraints. -/
def complexConstraints (s : Solver) : Nat := s.constraints.pathConstraints * s.horizon + s.constraints.pointConstraints

/-- The bound values that the sparse FORCES program lists. -/
def bounds? (s : Solver) : Option Bounds :=
  if s.strategy = .sparseForces then
    let initial := if s.fixedInitialState then s.dims.nx else 0
    let count := s.horizon * (s.constraints.boundedControls + s.constraints.boundedStates) + initial
    some ⟨count, count⟩
  else none

def blocks? (s : Solver) : Option Blocks :=
  if s.strategy.layout = .block then some ⟨s.blockSize * s.constraints.boundedStates, s.blockCount⟩ else none

/-! ## Declarations -/

def variableMembers (s : Solver) : List Member :=
  let n := s.horizon
  let nx := s.dims.nx
  let nu := s.dims.nu
  let real (name : String) (rows cols : Nat) (description : Option String) : Member :=
    { name, rows, cols, owner := .vars, description }
  let weightRows := match s.weighting with
    | .oncePerNode => n * s.ny
    | .once => s.ny
    | .empty => 0
  [real "x" (n + 1) nx "Differential state trajectory",
    real "u" n nu "Control trajectory",
    real "od" (n + 1) s.dims.nod "Online data",
    real "y" n s.ny "References on the first N nodes",
    real "yN" s.nyn 1 "Reference on the terminal node",
    real "W" weightRows s.ny none,
    real "WN" s.nyn s.nyn none] ++
  (if s.fixedInitialState then [real "x0" nx 1 "Current state feedback"] else []) ++
  (if s.hardcodedConstraints then [] else [real "lbValues" n nu none, real "ubValues" n nu none]) ++
  (if s.arrivalCost then [real "xAC" nx 1 none, real "SAC" nx nx none, real "WL" nx nx none] else []) ++
  (if s.covarianceMatrix then [real "sigmaN" nx nx none] else []) ++
  (if s.strategy.usesExactHessian then [real "mu" n nx "Multipliers of the continuity constraints"] else [])

def workspaceMembers (s : Solver) : List Member :=
  let n := s.horizon
  let nx := s.dims.nx
  let nv := s.qpVariables
  let nc := s.complexConstraints
  let real (name : String) (rows cols : Nat) : Member := { name, rows, cols, owner := .workspace }
  let int (name : String) (rows : Nat) : Member := { name, type := .int, rows, cols := 1, owner := .workspace }
  [real "state" 1 ((s.link.map Integrator.Link.length).getD 0),
    real "d" n nx,
    real "evGx" (n * nx) nx,
    real "evGu" (n * nx) s.dims.nu,
    real "H" nv nv,
    real "g" nv 1,
    real "lb" nv 1,
    real "ub" nv 1,
    real "dz" nv 1,
    real "objValue" 1 1] ++
  (if 0 < nc then [real "A" nc nv, real "lbA" nc 1, real "ubA" nc 1] else []) ++
  (match s.blocks? with
    | some blocks => [real "qpA" (blocks.stateBounds * blocks.count) nv]
    | none => []) ++
  (match s.bounds? with
    | some bounds => [int "lbIdx" bounds.lower, int "ubIdx" bounds.upper]
    | none => [])

/-- The members of a struct that the solver needs. -/
def members (s : Solver) : Struct → List Member
  | .vars => s.variableMembers
  | .workspace => s.workspaceMembers

def functionName (s : Solver) (name : String) : String := s!"{s.moduleName}_{name}"

/-- The function that solves the quadratic program; the interface to the backend defines it. -/
def qpSolvePrototype (s : Solver) : Prototype where
  name := s.functionName s!"{Choice.name s.strategy.backend}_solve"
  returns := .int
  description := s!"Solves the QP with {s.strategy.backend.display}."

/-- The function that integrates the model over the horizon. -/
def simulationPrototype (s : Solver) : Prototype where
  name := s.functionName "modelSimulation"
  returns := .int
  description := "Integrates the model over all shooting intervals and collects sensitivities."

def objectivePrototype (s : Solver) : Prototype where
  name := s.functionName "evaluateObjective"
  description := "Evaluates the QP Hessian and gradient."

/-- The function that clears the workspace. -/
def initializePrototype (s : Solver) : Prototype where
  name := s.functionName "initializeSolver"
  returns := .int
  description := "Clears the solver workspace."

/-- The function that does what can be done before the state is known. -/
def preparationPrototype (s : Solver) : Prototype where
  name := s.functionName "preparationStep"
  returns := .int
  description := "Preparation step of the real-time iteration."

/-- The function that solves for the current state. -/
def feedbackPrototype (s : Solver) : Prototype where
  name := s.functionName "feedbackStep"
  returns := .int
  description := "Feedback step of the real-time iteration."

def shiftStatesPrototype (s : Solver) : Prototype where
  name := s.functionName "shiftStates"
  params := [.intValue "strategy", .realIn "xEnd"]
  description := "Shifts the state trajectory by one interval."

def shiftControlsPrototype (s : Solver) : Prototype where
  name := s.functionName "shiftControls"
  params := [.realIn "uEnd"]
  description := "Shifts the control trajectory by one interval."

/-- The function that measures optimality. -/
def kktPrototype (s : Solver) : Prototype where
  name := s.functionName "getKKT"
  returns := .real
  description := "KKT tolerance of the current iterate."

/-- The function that tells the value of the objective. -/
def objectiveValuePrototype (s : Solver) : Prototype where
  name := s.functionName "getObjective"
  returns := .real
  description := "Objective value of the current iterate."

/-- The function that makes a block of the exact Hessian positive definite. -/
def regularizePrototype (s : Solver) : Prototype where
  name := s.functionName "regularize"
  params := [.realOut "hessian_block"]
  description := "Makes one Hessian block positive definite."

def definedPrototypes (s : Solver) : List Prototype :=
  [s.simulationPrototype, s.objectivePrototype, s.initializePrototype, s.preparationPrototype, s.feedbackPrototype,
    s.shiftStatesPrototype, s.shiftControlsPrototype, s.kktPrototype, s.objectiveValuePrototype]

/-- The prototypes of all functions that the generated solver defines or relies on. -/
def prototypes (s : Solver) : List Prototype :=
  [s.qpSolvePrototype] ++ s.definedPrototypes ++
    if s.strategy.usesExactHessian then [s.regularizePrototype] else []

end Solver

end ControlCodegen
