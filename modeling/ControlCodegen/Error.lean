import ControlCodegen.Files.System
import ControlCodegen.Options.Basic
import ControlCodegen.Problem.Check
import ControlCodegen.Solver.Strategy

/-!
# `Error`: why an export fails

* `Cause` : what went wrong, with its `Cause.kind` and its `Cause.detail` in words.
* `ExportError` : a cause, possibly wrapped by the artifact that was being produced.
* `whileExporting` : wraps a cause once; a wrapped error keeps the artifact that failed first.
* `rootCause`, `isConfigurationError`, `exitCode` : what a command makes of an error, whatever its wrapping.
-/

namespace ControlCodegen

set_option autoImplicit false

/-- The kind of an error. -/
inductive ErrorKind where
  | invalidArguments
  | invalidOption
  | invalidObjective
  | notImplemented
  | configuration
  | io
  | serialization
  deriving DecidableEq, Repr

/-- The words in front of an error of that kind. -/
def ErrorKind.heading : ErrorKind → String
  | .invalidArguments => "Invalid arguments"
  | .invalidOption => "Invalid option"
  | .invalidObjective => "Invalid objective for code export"
  | .notImplemented => "Not implemented yet"
  | .configuration => "Configuration error"
  | .io => "I/O error"
  | .serialization => "Serialization error"

/-- What a solver needs before it can be set up. -/
inductive SolverInput where
  | dimensions
  | integrator
  | objective
  deriving DecidableEq, Repr

def SolverInput.display : SolverInput → String
  | .dimensions => "dimensions"
  | .integrator => "an integrator"
  | .objective => "an objective"

/-- What went wrong. -/
inductive Cause where
  | generalTerms (hessian : Hessian) (mayer lagrange : Nat)
  | uncontrolledInputs (count : Nat)
  | freeParameters (count : Nat)
  | unsupportedHessian (hessian : Hessian)
  | unsupportedDiscretization (discretization : Discretization)
  | unregisteredScheme (scheme : Scheme)
  | emptyHorizon
  | tooFewSteps (horizon steps : Nat)
  | unevenSteps (steps horizon : Nat)
  | explicitScheme (scheme : Scheme)
  | linearSolverScheme (solver : LinearSolver) (scheme : Scheme)
  | discretizedSteps
  | unboundIntegrator (scheme : Scheme)
  | noStrategy (gap : Strategy.Gap) (backend : QpSolver) (method : QpMethod) (hessian : Hessian)
  | leastSquaresRequired (strategy : Strategy)
  | incompleteSolver (strategy : Strategy) (missing : SolverInput)
  | unevenBlocks (horizon blockSize : Nat)
  | solverNotReady (strategy : Strategy)
  | missingPlaceholders (template : String) (names : List String)
  | regularizationDimension
  | regularizationFloor (floor : Float)
  | simulinkBackend (backend : QpSolver)
  | simulinkConstraints
  | matlabConstraints
  | missingConfiguration (path : Files.Path)
  | unreadableConfiguration (path : Files.Path) (error : Files.FileError)
  | missingVariables (names : List String)
  | unparsedConfiguration
  | invalidConfiguration (defect : String)
  | invalidModuleName (error : ModuleName.Error)
  | invalidLogLevel (level : String)
  | logDirectory (path : Files.Path) (error : Files.FileError)
  | file (error : Files.FileError)
  /-- An error known by its kind and text only. -/
  | stated (kind : ErrorKind) (text : String)

namespace Cause

def kind : Cause → ErrorKind
  | generalTerms .. | leastSquaresRequired _ => .invalidObjective
  | uncontrolledInputs _ | freeParameters _ | emptyHorizon | unboundIntegrator _ | noStrategy .. | incompleteSolver ..
  | solverNotReady _ | missingPlaceholders .. | regularizationDimension | regularizationFloor _ => .invalidArguments
  | unsupportedHessian _ | unsupportedDiscretization _ | unregisteredScheme _ | tooFewSteps .. | unevenSteps ..
  | explicitScheme _ | linearSolverScheme .. | discretizedSteps | unevenBlocks .. | simulinkBackend _ => .invalidOption
  | simulinkConstraints | matlabConstraints => .notImplemented
  | missingConfiguration _ | unreadableConfiguration .. | missingVariables _ | unparsedConfiguration
  | invalidConfiguration _ | invalidModuleName _ | invalidLogLevel _ | logDirectory .. => .configuration
  | file _ => .io
  | stated kind _ => kind

/-- The cause in words, without the heading of its kind. -/
def detail : Cause → String
  | generalTerms hessian mayer lagrange =>
    "Objectives with Mayer or Lagrange terms need the exact Hessian and exactly one Mayer or one Lagrange term " ++
      s!"(hessian_approximation = {Choice.name hessian}, mayer = {mayer}, lagrange = {lagrange})"
  | uncontrolledInputs count => s!"Uncontrolled inputs are not supported for code export, got {count}"
  | freeParameters count =>
    s!"Free parameters are not supported for code export, got {count}. " ++
      "Use online data instead and set their values at run time"
  | unsupportedHessian hessian =>
    s!"hessian_approximation = {Choice.name hessian} is not supported, use gauss_newton or exact_hessian"
  | unsupportedDiscretization discretization =>
    s!"discretization_type = {Choice.name discretization} is not supported, " ++
      "use single_shooting or multiple_shooting"
  | unregisteredScheme scheme => s!"No integrator registered for type {Choice.name scheme}"
  | emptyHorizon => "The horizon must contain at least one shooting interval"
  | tooFewSteps horizon steps =>
    s!"num_integrator_steps must be at least the horizon length {horizon}, got {steps}"
  | unevenSteps steps horizon =>
    s!"num_integrator_steps ({steps}) must be a multiple of the horizon length {horizon}"
  | explicitScheme scheme =>
    s!"Explicit integrator {Choice.name scheme} cannot handle algebraic states or implicit models"
  | linearSolverScheme solver scheme =>
    s!"Linear solver {Choice.name solver} requires a 3-stage implicit integrator, got {Choice.name scheme}"
  | discretizedSteps => "A discretized model allows exactly one integrator step per shooting interval"
  | unboundIntegrator scheme => s!"Integrator {Choice.name scheme} used before model data was set"
  | noStrategy gap backend method hessian =>
    s!"{gap.message} (qp_solver = {backend.display}, sparse_qp_solution = {Choice.name method}, " ++
      s!"hessian_approximation = {Choice.name hessian})"
  | leastSquaresRequired strategy => s!"{strategy.display} requires a least-squares objective"
  | incompleteSolver strategy missing => s!"Solver {strategy.display} set up without {missing.display}"
  | unevenBlocks horizon blockSize =>
    s!"Horizon length {horizon} is not divisible by the condensing block size {blockSize}"
  | solverNotReady strategy => s!"Solver {strategy.display} emitted before setup"
  | missingPlaceholders template names =>
    s!"Template {template} has no value for placeholder(s): " ++ ", ".intercalate names
  | regularizationDimension => "Hessian regularization needs a block dimension > 0"
  | regularizationFloor floor =>
    s!"Hessian regularization floor must be a positive finite value, got {Decimal.plain floor}"
  | simulinkBackend backend =>
    s!"The Simulink interface is available only with qpOASES and qpDUNES, got {backend.display}"
  | simulinkConstraints => "Simulink interface with constraint values that are not hard-coded"
  | matlabConstraints => "MATLAB interface with constraint values that are not hard-coded"
  | missingConfiguration path => s!"Configuration file not found: {path}"
  | unreadableConfiguration path error => s!"Failed to read configuration file {path}: {error.message}"
  | missingVariables names => "Missing required environment variables: " ++ ", ".intercalate names
  | unparsedConfiguration => "Failed to parse TOML"
  | invalidConfiguration defect => s!"Configuration validation failed: {defect}"
  | invalidModuleName error => error.message
  | invalidLogLevel level => s!"Invalid log level: {level}. Must be one of: trace, debug, info, warn, error"
  | logDirectory path error => s!"Failed to create log directory {path}: {error.message}"
  | file error => error.message
  | stated _ text => text

def message (c : Cause) : String := s!"{c.kind.heading}: {c.detail}"

end Cause

/-- A cause, or the failure of producing an artifact. -/
inductive ExportError where
  | plain (cause : Cause)
  | unableToExport (artifact : String) (source : ExportError)

namespace ExportError

/-- Wraps an error as the failure of producing an artifact; a wrapped error stays as it is. -/
def whileExporting (artifact : String) : ExportError → ExportError
  | plain cause => unableToExport artifact (plain cause)
  | unableToExport a source => unableToExport a source

/-- The cause inside all wrappers. -/
def rootCause : ExportError → Cause
  | plain cause => cause
  | unableToExport _ source => source.rootCause

/-- The error in words, outermost artifact first. -/
def message : ExportError → String
  | plain cause => cause.message
  | unableToExport artifact source => s!"Unable to export {artifact}: {source.message}"

/-- Whether the error speaks of the project and not of an artifact's file. -/
def isConfigurationError (e : ExportError) : Bool :=
  match e.rootCause.kind with
  | .invalidArguments | .invalidOption | .invalidObjective | .configuration => true
  | .notImplemented | .io | .serialization => false

/-- The exit code of a command that fails so: 2 for the configuration, 3 for the problem, 5 for all else. -/
def exitCode (e : ExportError) : Nat :=
  match e.rootCause.kind with
  | .configuration => 2
  | .invalidArguments | .invalidOption | .invalidObjective | .notImplemented => 3
  | .io | .serialization => 5

instance : Coe Cause ExportError := ⟨plain⟩

end ExportError

end ControlCodegen
