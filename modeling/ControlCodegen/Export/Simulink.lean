import ControlCodegen.Plan.Constants
import ControlCodegen.Template.Render

/-!
# `Export.Simulink`: the Simulink interface

The S-function copies its input bus to the variables and its outputs from them, so its header repeats the dimensions and
flags of the common header.
-/

namespace ControlCodegen.Export

set_option autoImplicit false

/-- A file of the interface: its name, its template and the token of its comments. -/
structure SimulinkFile where
  name : String
  template : Template
  token : String

/-- The files of the interface, in the order in which they are written. -/
def simulinkFiles (m : ModuleName) : List SimulinkFile :=
  [⟨m.fileName "solver_sfunction" "h", .sFunctionHeader, ""⟩,
    ⟨m.fileName "solver_sfunction" "c", .sFunctionSource, ""⟩,
    ⟨s!"make_{m}_solver_sfunction.m", .sFunctionScript, "%"⟩]

/-- The values for the templates. The backend has to support S-functions and constraint values have to be hard-coded. -/
def simulinkSubstitutions (c : Constants) : Except Cause Substitutions := do
  if !c.qpSolver.hasSFunction then throw (.simulinkBackend c.qpSolver)
  if !c.hardcodedConstraints then throw .simulinkConstraints
  let flag (b : Bool) : String := toString b.toNat
  return c.moduleName.substitutions ++
    [("N", toString c.horizon), ("NX", toString c.dims.nx), ("NXD", toString c.dims.ndx),
      ("NXA", toString c.dims.nxa), ("NU", toString c.dims.nu), ("NOD", toString c.dims.nod), ("NY", toString c.ny),
      ("NYN", toString c.nyn), ("INITIAL_STATE_FIXED", flag c.fixedInitialState),
      ("WEIGHTING_MATRICES_TYPE", toString c.weighting.indicator),
      ("HARDCODED_CONSTRAINT_VALUES", flag c.hardcodedConstraints), ("USE_ARRIVAL_COST", flag c.arrivalCost),
      ("COMPUTE_COVARIANCE_MATRIX", flag c.covarianceMatrix), ("QP_SOLVER", c.qpSolver.macroName)]

end ControlCodegen.Export
