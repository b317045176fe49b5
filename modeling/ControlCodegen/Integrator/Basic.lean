import ControlCodegen.Error
import ControlCodegen.Integrator.LinearSystem
import ControlCodegen.Integrator.Tableau
import ControlCodegen.Problem.Basic

/-!
# `Integrator`: a Runge-Kutta integrator for one model

The generated integrator carries the augmented state over one control interval. The augmented state is laid out as

`| x (NXI) | dx/dx0 (NXI x NX) | dx/du (NXI x NU) | u (NU) | od (NOD) |`, with `NXI = NX + NXA`,

and the model function of the user evaluates the states together with their sensitivities. Explicit schemes evaluate
their stages in turn; implicit ones solve for them by a simplified Newton method, whose matrix is factorized in the first
iteration of a step.

* `Binding` : what an integrator takes from a problem.
* `Integrator.bind` : binds an integrator to a problem, or says why the scheme cannot serve it.
* `Integrator.link` : what the solver has to know about the generated function.
* `Integrator.members`, `Integrator.prototypes` : the declarations for the common header.
-/

namespace ControlCodegen

open C

set_option autoImplicit false

/-- The lengths of the integrator steps. -/
inductive StepSize (R : Type) where
  | uniform (h : R)
  /-- One length for each control interval. -/
  | perInterval (hs : List R)

namespace StepSize

variable {R : Type}

/-- Whether the length of a step depends on the interval. -/
def isPerInterval : StepSize R → Bool
  | uniform _ => false
  | perInterval _ => true

/-- The steps on a grid, so many in each interval and so many in all. Where the intervals differ each one has its own
step; else the steps divide the way from the first grid point to the last. -/
def ofGrid [Sub R] [Div R] (ofNat : Nat → R) (grid : TimeGrid R) (equidistant : Bool) (perInterval total : Nat) :
    StepSize R :=
  match grid.points with
  | some points =>
    if !equidistant then .perInterval ((TimeGrid.differences points).map (· / ofNat perInterval))
    else
      match points with
      | first :: second :: rest => .uniform ((rest.getLastD second - first) / ofNat total)
      | [] | [_] => .uniform ((grid.stop - grid.start) / ofNat total)
  | none => .uniform ((grid.stop - grid.start) / ofNat total)

end StepSize

namespace Integrator

/-- What an integrator takes from a problem. -/
structure Binding where
  dims : Dimensions
  /-- The C function of the model. -/
  rhs : String
  /-- Whether the model is a map in discrete time. -/
  discretized : Bool
  stepsPerInterval : Nat
  stepSize : StepSize Float

namespace Binding

/-- States that are integrated: differential and algebraic ones. -/
def states (b : Binding) : Nat := b.dims.nx + b.dims.nxa

/-- The length of the integrated part of the augmented state. -/
def integratedLength (b : Binding) : Nat := b.states * (1 + b.dims.nx + b.dims.nu)

/-- The inputs at the end of the augmented state. -/
def inputs (b : Binding) : Nat := b.dims.nu + b.dims.nod

def length (b : Binding) : Nat := b.integratedLength + b.dims.nu + b.dims.nod

end Binding

/-- What the solver has to know about the integrator that it calls. -/
structure Link where
  /-- The generated function. -/
  function : String
  /-- Whether the function takes the index of the interval. -/
  takesIndex : Bool
  stages : Nat
  stepsPerInterval : Nat
  /-- The length of the integrated part of the augmented state. -/
  integratedLength : Nat
  /-- The length of the augmented state. -/
  length : Nat
  deriving DecidableEq, Repr

end Integrator

open Integrator

/-- An integrator of some scheme, possibly bound to a problem. -/
structure Integrator where
  scheme : Scheme
  moduleName : ModuleName
  linearSolver : LinearSolver
  binding : Option Binding := none

namespace Integrator

def tableau (g : Integrator) : Tableau := Tableau.ofScheme g.scheme

def stages (g : Integrator) : Nat := g.tableau.stages

/-- Whether the generated code needs complex numbers. -/
def usesComplex (g : Integrator) : Bool := g.linearSolver.usesComplex

/-- The first reason why the scheme cannot serve a problem with so many steps over the horizon. -/
def checkModel (g : Integrator) (p : Problem) (steps : Nat) : Except Cause Unit := do
  if p.horizon = 0 then throw .emptyHorizon
  if steps < p.horizon then throw (.tooFewSteps p.horizon steps)
  if steps % p.horizon ≠ 0 then throw (.unevenSteps steps p.horizon)
  if !g.scheme.isImplicit ∧ (0 < p.dimensions.nxa ∨ 0 < p.dimensions.ndx) then throw (.explicitScheme g.scheme)
  if g.linearSolver = .simplifiedNewton ∧ ¬(g.scheme.isImplicit ∧ g.stages = 3) then
    throw (.linearSolverScheme g.linearSolver g.scheme)
  if p.model.discretized ∧ steps / p.horizon ≠ 1 then throw .discretizedSteps

/-- Binds an integrator to a problem with so many steps over the horizon. -/
def bind (g : Integrator) (p : Problem) (steps : Nat) : Except Cause Integrator := do
  g.checkModel p steps
  let perInterval := steps / p.horizon
  return { g with
    binding := some {
      dims := p.dimensions
      rhs := p.model.rhs
      discretized := p.model.discretized
      stepsPerInterval := perInterval
      stepSize := .ofGrid Float.ofNat p.grid p.hasEquidistantGrid perInterval steps } }

/-- The binding of an integrator that has one. -/
def bound (g : Integrator) : Except Cause Binding :=
  match g.binding with
  | some b => .ok b
  | none => .error (.unboundIntegrator g.scheme)

def stepsPerInterval (g : Integrator) : Option Nat := g.binding.map Binding.stepsPerInterval

def functionName (g : Integrator) : String := s!"{g.moduleName}_integrate"

/-- What the solver has to know. -/
def link (g : Integrator) : Except Cause Link := do
  let b ← g.bound
  return {
    function := g.functionName
    takesIndex := b.stepSize.isPerInterval
    stages := g.stages
    stepsPerInterval := b.stepsPerInterval
    integratedLength := b.integratedLength
    length := b.length }

/-- The unknowns of the stage equations. -/
def unknowns (g : Integrator) (b : Binding) : Nat := g.stages * b.integratedLength

/-- The linear system of the Newton method; a map in discrete time and explicit schemes need none. -/
def newtonSystem (g : Integrator) (b : Binding) : Option LinearSystem :=
  if g.scheme.isImplicit ∧ ¬b.discretized then some ⟨g.moduleName.text, g.unknowns b⟩ else none

/-! ## Declarations -/

/-- The members of a struct that the integrator needs; all of them are in the workspace. -/
def members (g : Integrator) (owner : Struct) : List Member :=
  match owner, g.binding with
  | .workspace, some b =>
    let n := b.integratedLength
    [{ name := "rk_ttt", rows := 1, cols := 1, owner, description := some "Normalized time within the interval" },
      { name := "rk_xxx", rows := 1, cols := b.length, owner },
      { name := "rk_kkk", rows := g.stages, cols := n, owner }] ++
    match g.newtonSystem b with
    | some system =>
      [{ name := "rk_A", rows := system.dim, cols := system.dim, owner },
        { name := "rk_b", rows := system.dim, cols := 1, owner },
        { name := "rk_perm", type := .int, rows := system.dim, cols := 1, owner },
        { name := "rk_jac", rows := n, cols := n, owner }]
    | none => []
  | _, _ => []

/-- A function of the model: it reads the augmented state and writes its result. -/
def modelPrototype (name description : String) : Prototype where
  name := name
  params := [.realIn "in", .realOut "out"]
  description := some description

/-- The function that evaluates the Jacobian of the model. -/
def Binding.jacobian (b : Binding) : String := s!"{b.rhs}_jac"

def prototype (g : Integrator) (b : Binding) : Prototype where
  name := g.functionName
  returns := .int
  params := [.realOut "rk_eta", .intValue "resetIntegrator"] ++
    if b.stepSize.isPerInterval then [.intValue "rk_index"] else []
  description := some "Integrates the augmented state over one shooting interval."

/-- The prototypes of all functions that the generated integrator defines or calls. -/
def prototypes (g : Integrator) : List Prototype :=
  match g.binding with
  | none => []
  | some b =>
    [modelPrototype b.rhs "Model right-hand side with forward sensitivities, provided by the user."] ++
    (match g.newtonSystem b with
      | some system =>
        modelPrototype b.jacobian "Jacobian of the model right-hand side, provided by the user." :: system.prototypes
      | none => []) ++
    [g.prototype b]

end Integrator

end ControlCodegen
