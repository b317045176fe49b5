import ControlCodegen.Document.Fields
import ControlCodegen.Project.Basic

/-!
# `Project.Decode`: a project out of data

Each section of a project is a structured value with the field names of the project file. What may be left out has the
standard value of its type.
-/

namespace ControlCodegen

open Document

set_option autoImplicit false

def Choice.decode? {α : Type} [Choice α] (nt : Notation) (d : Data) : Option α := asNamed nt Choice.ofName? d

def ModuleName.decode? (d : Data) : Option ModuleName := (asText d).bind fun s => (ofString s).toOption

def Dimensions.decode? (nt : Notation) (d : Data) : Option Dimensions := do
  let f ← Fields.of? nt ["nx", "ndx", "nxa", "nu", "nod"] d
  return {
    nx := ← f.required "nx" asWhole
    ndx := ← f.default "ndx" asWhole 0
    nxa := ← f.default "nxa" asWhole 0
    nu := ← f.required "nu" asWhole
    nod := ← f.default "nod" asWhole 0 }

def Model.decode? (nt : Notation) (d : Data) : Option Model := do
  let f ← Fields.of? nt ["rhs_function", "nui", "np", "discretized"] d
  let standard : Model := {}
  return {
    rhs := ← f.default "rhs_function" asText standard.rhs
    nui := ← f.default "nui" asWhole standard.nui
    np := ← f.default "np" asWhole standard.np
    discretized := ← f.default "discretized" asFlag standard.discretized }

def LeastSquares.decode? (nt : Notation) (d : Data) : Option LeastSquares := do
  let f ← Fields.of? nt ["ny", "weighting"] d
  return {
    ny := ← f.required "ny" asWhole
    weighting := ← f.default "weighting" (Choice.decode? nt) .once }

def Objective.decode? (nt : Notation) (d : Data) : Option Objective := do
  let f ← Fields.of? nt ["mayer_terms", "lagrange_terms", "least_squares", "terminal_least_squares", "linear_terms"] d
  return {
    mayerTerms := ← f.default "mayer_terms" asWhole 0
    lagrangeTerms := ← f.default "lagrange_terms" asWhole 0
    leastSquares := ← f.default "least_squares" (asOptional (LeastSquares.decode? nt)) none
    terminalLeastSquares := ← f.default "terminal_least_squares" (asOptional (LeastSquares.decode? nt)) none
    linearTerms := ← f.default "linear_terms" asFlag false }

def Constraints.decode? (nt : Notation) (d : Data) : Option Constraints := do
  let f ← Fields.of? nt ["bounded_controls", "bounded_states", "path_constraints", "point_constraints"] d
  return {
    boundedControls := ← f.default "bounded_controls" asWhole 0
    boundedStates := ← f.default "bounded_states" asWhole 0
    pathConstraints := ← f.default "path_constraints" asWhole 0
    pointConstraints := ← f.default "point_constraints" asWhole 0 }

/-- A time grid; its end has to be given. -/
def TimeGrid.decode? (nt : Notation) (d : Data) : Option (TimeGrid Float) := do
  let f ← Fields.of? nt ["start", "end", "points"] d
  return {
    start := ← f.default "start" asReal 0.0
    stop := ← f.required "end" asReal
    points := ← f.default "points" (asOptional (asList asReal)) none }

def Problem.decode? (nt : Notation) (d : Data) : Option Problem := do
  let f ← Fields.of? nt ["horizon", "dimensions", "grid", "model", "objective", "constraints"] d
  return {
    horizon := ← f.required "horizon" asWhole
    dimensions := ← f.required "dimensions" (Dimensions.decode? nt)
    grid := ← f.default "grid" (TimeGrid.decode? nt) .unit
    model := ← f.default "model" (Model.decode? nt) {}
    objective := ← f.default "objective" (Objective.decode? nt) {}
    constraints := ← f.default "constraints" (Constraints.decode? nt) {} }

/-- The names of the options in a project file. -/
def Options.fieldNames : List String :=
  ["module_name", "qp_solver", "sparse_qp_solution", "hessian_approximation", "discretization_type", "integrator_type",
    "linear_solver", "num_integrator_steps", "levenberg_marquardt", "condensing_block_size", "generate_makefile",
    "generate_test_file", "generate_matlab_interface", "generate_simulink_interface", "use_single_precision",
    "hardcode_constraint_values", "fix_initial_state", "use_arrival_cost", "compute_covariance_matrix"]

def Options.decode? (nt : Notation) (d : Data) : Option Options := do
  let f ← Fields.of? nt Options.fieldNames d
  let standard : Options := {}
  return {
    moduleName := ← f.default "module_name" ModuleName.decode? standard.moduleName
    qpSolver := ← f.default "qp_solver" (Choice.decode? nt) standard.qpSolver
    qpMethod := ← f.default "sparse_qp_solution" (Choice.decode? nt) standard.qpMethod
    hessian := ← f.default "hessian_approximation" (Choice.decode? nt) standard.hessian
    discretization := ← f.default "discretization_type" (Choice.decode? nt) standard.discretization
    scheme := ← f.default "integrator_type" (Choice.decode? nt) standard.scheme
    linearSolver := ← f.default "linear_solver" (Choice.decode? nt) standard.linearSolver
    integratorSteps := ← f.default "num_integrator_steps" (asOptional asWhole) standard.integratorSteps
    levenbergMarquardt := ← f.default "levenberg_marquardt" asReal standard.levenbergMarquardt
    blockSize := ← f.default "condensing_block_size" asWhole standard.blockSize
    makefile := ← f.default "generate_makefile" asFlag standard.makefile
    testFile := ← f.default "generate_test_file" asFlag standard.testFile
    matlabInterface := ← f.default "generate_matlab_interface" asFlag standard.matlabInterface
    simulinkInterface := ← f.default "generate_simulink_interface" asFlag standard.simulinkInterface
    singlePrecision := ← f.default "use_single_precision" asFlag standard.singlePrecision
    hardcodedConstraints := ← f.default "hardcode_constraint_values" asFlag standard.hardcodedConstraints
    fixedInitialState := ← f.default "fix_initial_state" asFlag standard.fixedInitialState
    arrivalCost := ← f.default "use_arrival_cost" asFlag standard.arrivalCost
    covarianceMatrix := ← f.default "compute_covariance_matrix" asFlag standard.covarianceMatrix }

def Application.decode? (nt : Notation) (d : Data) : Option Application := do
  let f ← Fields.of? nt ["log_level"] d
  let standard : Application := {}
  return { logLevel := ← f.default "log_level" asText standard.logLevel }

def Output.decode? (nt : Notation) (d : Data) : Option Output := do
  let f ← Fields.of? nt ["folder", "real_type", "int_type", "precision"] d
  let standard : Output := {}
  return {
    folder := ← f.default "folder" asText standard.folder
    realType := ← f.default "real_type" asText standard.realType
    intType := ← f.default "int_type" asText standard.intType
    precision := ← f.default "precision" asWhole standard.precision }

def Logging.decode? (nt : Notation) (d : Data) : Option Logging := do
  let f ← Fields.of? nt ["local_enabled", "local_path", "local_rotation"] d
  let standard : Logging := {}
  return {
    enabled := ← f.default "local_enabled" asFlag standard.enabled
    folder := ← f.default "local_path" asText standard.folder
    rotation := ← f.default "local_rotation" asText standard.rotation }

def Project.decode? (nt : Notation) (d : Data) : Option Project := do
  let f ← Fields.of? nt ["application", "ocp", "options", "output", "logging"] d
  return {
    application := ← f.default "application" (Application.decode? nt) {}
    problem := ← f.required "ocp" (Problem.decode? nt)
    options := ← f.default "options" (Options.decode? nt) {}
    output := ← f.default "output" (Output.decode? nt) {}
    logging := ← f.default "logging" (Logging.decode? nt) {} }

end ControlCodegen
