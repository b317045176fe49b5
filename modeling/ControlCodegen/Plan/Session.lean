import ControlCodegen.Integrator.Registry
import ControlCodegen.Plan.Consistency
import ControlCodegen.Plan.Constants

/-!
# `Plan.Session`: from a problem to the plan of its export

A `Plan` has the bound integrator, the complete solver and the constants; every file of an export is generated from one
plan. A `Session` keeps the plan once `Session.setup` has made it, and a setup that fails leaves the session as it was.
-/

namespace ControlCodegen

set_option autoImplicit false

/-- What all files of an export are generated from. -/
structure Plan where
  integrator : Integrator
  solver : Solver
  constants : Constants

namespace Plan

/-- Configures the solver of a strategy for a problem and its integrator. -/
def configureSolver (p : Problem) (o : Options) (k : Strategy) (l : Integrator.Link) : Except Cause Solver := do
  let s := (Solver.ofOptions k o).setExtent ⟨p.horizon, p.dimensions⟩
  let s ← (s.attachIntegrator l).setObjective p.objective
  ((s.setConstraints p.constraints).setLevenbergMarquardt o.levenbergMarquardt).setup

def selectStrategy (o : Options) : Except Cause Strategy :=
  (Strategy.select o.qpSolver o.qpMethod o.hessian).mapError fun gap => .noStrategy gap o.qpSolver o.qpMethod o.hessian

/-- The plan for a problem and its options, or the first reason why there is none. -/
def resolve (p : Problem) (o : Options) (r : Integrator.Registry) : Except Cause Plan := do
  checkConsistency p o
  let g ← r.create o.scheme o.moduleName o.linearSolver
  let g ← g.bind p (o.stepsOver p.horizon)
  let k ← selectStrategy o
  let s ← configureSolver p o k (← g.link)
  return ⟨g, s, .collect p o g s⟩

end Plan

/-- Whether a session has its plan. -/
inductive SessionStatus where
  | notInitialized
  | ready
  deriving DecidableEq, Repr

/-- A problem with its options, and its plan once there is one. -/
structure Session where
  problem : Problem
  options : Options
  registry : Integrator.Registry := .builtin
  plan : Option Plan := none

namespace Session

def status (s : Session) : SessionStatus := if s.plan.isSome then .ready else .notInitialized

/-- Makes the plan, unless there is one. -/
def setup (s : Session) : Except Cause (Session × Plan) :=
  match s.plan with
  | some plan => .ok (s, plan)
  | none => do
    let plan ← Plan.resolve s.problem s.options s.registry
    return ({ s with plan := some plan }, plan)

/-- The dimensions of the quadratic program in words, once there is a plan. -/
def dimensionsMessage (s : Session) : Option String :=
  s.plan.map fun plan =>
    s!"Code generation dimensions:\n\t* Number of QP variables: {plan.constants.qpVariables}\n" ++
      s!"\t* Number of path and point constraints: {plan.constants.complexConstraints}"

end Session

end ControlCodegen
