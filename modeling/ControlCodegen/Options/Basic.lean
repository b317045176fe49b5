import ControlCodegen.ModuleName
import ControlCodegen.Options.Choice
import ControlCodegen.Decimal.Scientific

/-!
# `Options`: the options of one export

Every option has a value of its own type. `Options.check` looks at the ranges of single values; how the options go
together with a problem is checked when an export is planned.
-/

namespace ControlCodegen

set_option autoImplicit false

/-- The options of one export. -/
structure Options where
  moduleName : ModuleName := .standard
  qpSolver : QpSolver := .qpOases
  qpMethod : QpMethod := .fullCondensingN2
  hessian : Hessian := .gaussNewton
  discretization : Discretization := .multipleShooting
  scheme : Scheme := .rk4
  linearSolver : LinearSolver := .gaussLu
  /-- Integrator steps over the whole horizon, one for each interval if not given. -/
  integratorSteps : Option Nat := none
  levenbergMarquardt : Float := 0.0
  /-- Intervals in a block of block condensing. -/
  blockSize : Nat := 1
  makefile : Bool := true
  testFile : Bool := true
  matlabInterface : Bool := false
  simulinkInterface : Bool := false
  singlePrecision : Bool := false
  hardcodedConstraints : Bool := true
  fixedInitialState : Bool := true
  arrivalCost : Bool := false
  covarianceMatrix : Bool := false

namespace Options

/-- What is wrong with a single option. -/
inductive Defect where
  | levenbergMarquardt (value : Float)
  | noIntegratorSteps
  | emptyBlocks

def Defect.message : Defect → String
  | .levenbergMarquardt value =>
    s!"options.levenberg_marquardt must be a finite value >= 0, got {Decimal.plain value}"
  | .noIntegratorSteps => "options.num_integrator_steps must be > 0"
  | .emptyBlocks => "options.condensing_block_size must be > 0"

def check (o : Options) : Except Defect Unit := do
  if !o.levenbergMarquardt.isFinite || o.levenbergMarquardt < 0.0 then
    throw (.levenbergMarquardt o.levenbergMarquardt)
  if o.integratorSteps = some 0 then throw .noIntegratorSteps
  if o.blockSize = 0 then throw .emptyBlocks

/-- Integrator steps over a horizon. -/
def stepsOver (o : Options) (horizon : Nat) : Nat := o.integratorSteps.getD horizon

end Options

end ControlCodegen
