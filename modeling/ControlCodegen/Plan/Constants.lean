import ControlCodegen.Solver.Basic

/-!
# `Plan.Constants`: the constants that all generated files share

`Constants.collect` takes the constants from a problem, its options and the bound integrator and solver;
`Constants.macros` names them for the common header.
-/

namespace ControlCodegen

set_option autoImplicit false

/-- The constants of one export. -/
structure Constants where
  moduleName : ModuleName
  qpSolver : QpSolver
  horizon : Nat
  dims : Dimensions
  /-- References on each node but the last. -/
  ny : Nat
  /-- References on the last node. -/
  nyn : Nat
  /-- Integrator steps in each interval; there is no such constant where the intervals differ. -/
  stepsPerInterval : Option Nat
  stages : Nat
  fixedInitialState : Bool
  weighting : Weighting
  usesLinearTerms : Bool
  hardcodedConstraints : Bool
  arrivalCost : Bool
  covarianceMatrix : Bool
  qpVariables : Nat
  complexConstraints : Nat
  bounds : Option Solver.Bounds
  blocks : Option Solver.Blocks
  singlePrecision : Bool
  usesComplex : Bool

namespace Constants

/-- The constants of a problem with its options, integrator and solver. -/
def collect (p : Problem) (o : Options) (g : Integrator) (s : Solver) : Constants where
  moduleName := o.moduleName
  qpSolver := o.qpSolver
  horizon := p.horizon
  dims := p.dimensions
  ny := s.ny
  nyn := s.nyn
  stepsPerInterval := if p.hasEquidistantGrid then g.stepsPerInterval else none
  stages := g.stages
  fixedInitialState := o.fixedInitialState
  weighting := s.weighting
  usesLinearTerms := s.usesLinearTerms
  hardcodedConstraints := o.hardcodedConstraints
  arrivalCost := o.arrivalCost
  covarianceMatrix := o.covarianceMatrix
  qpVariables := s.qpVariables
  complexConstraints := s.complexConstraints
  bounds := s.bounds?
  blocks := s.blocks?
  singlePrecision := o.singlePrecision
  usesComplex := g.usesComplex

/-- A macro of the common header. -/
structure Macro where
  /-- The name behind the common beginning. -/
  name : String
  value : Nat
  description : String
  deriving DecidableEq, Repr

/-- The beginning of all macro names. It does not depend on the module, so that build files can rely on the names. -/
def Macro.beginning : String := "ACADO"

def Macro.fullName (c : Macro) : String := s!"{beginning}_{c.name}"

/-- The affine constraints of the blocks. -/
def blockConstraints (b : Solver.Blocks) : Nat := b.stateBounds * b.count

/-- The macros of the common header, in the order of their names. -/
def macros (c : Constants) : List Macro :=
  let optional {α : Type} (a : Option α) (f : α → Macro) : List Macro := (a.map f).toList
  [⟨"BLOCK_CONDENSING", c.blocks.isSome.toNat, "User defined block based condensing."⟩,
    ⟨"COMPUTE_COVARIANCE_MATRIX", c.covarianceMatrix.toNat, "Compute covariance matrix of the last state estimate."⟩,
    ⟨"HARDCODED_CONSTRAINT_VALUES", c.hardcodedConstraints.toNat,
      "Flag indicating whether constraint values are hard-coded or not."⟩,
    ⟨"INITIAL_STATE_FIXED", c.fixedInitialState.toNat, "Indicator for fixed initial state."⟩,
    ⟨"N", c.horizon, "Number of control/estimation intervals."⟩,
    ⟨"NOD", c.dims.nod, "Number of online data values."⟩,
    ⟨"NU", c.dims.nu, "Number of control variables."⟩,
    ⟨"NX", c.dims.nx, "Number of differential variables."⟩,
    ⟨"NXA", c.dims.nxa, "Number of algebraic variables."⟩,
    ⟨"NXD", c.dims.ndx, "Number of differential derivative variables."⟩,
    ⟨"NY", c.ny, "Number of references/measurements per node on the first N nodes."⟩,
    ⟨"NYN", c.nyn, "Number of references/measurements on the last (N + 1)st node."⟩] ++
  optional c.blocks (fun b => ⟨"QP_NCA", blockConstraints b, "Total number of QP affine constraints."⟩) ++
  optional c.bounds (fun b => ⟨"QP_NLB", b.lower, "Total number of QP lower bound values."⟩) ++
  optional c.bounds (fun b => ⟨"QP_NUB", b.upper, "Total number of QP upper bound values."⟩) ++
  [⟨"QP_NV", c.qpVariables, "Total number of QP optimization variables."⟩] ++
  optional c.stepsPerInterval (fun n => ⟨"RK_NIS", n, "Number of integration steps per shooting interval."⟩) ++
  [⟨"RK_NSTAGES", c.stages, "Number of Runge-Kutta stages per integration step."⟩,
    ⟨"USE_ARRIVAL_COST", c.arrivalCost.toNat, "Providing interface for arrival cost."⟩,
    ⟨"USE_LINEAR_TERMS", c.usesLinearTerms.toNat,
      "Indicator for usage of non-hard-coded linear terms in the objective."⟩,
    ⟨"WEIGHTING_MATRICES_TYPE", c.weighting.indicator, "Indicator for type of fixed weighting matrices."⟩]

end Constants

end ControlCodegen
