import ControlCodegen.Options.Choice
import ControlCodegen.Problem.TimeGrid

/-!
# `Problem`: the optimal control problem

What the generator needs to know of a problem: its dimensions, the time grid of the horizon, the model function that the
user provides in C, the objective and the constraints, the last two by their counts.
-/

namespace ControlCodegen

set_option autoImplicit false

/-- The dimensions of the model. -/
structure Dimensions where
  /-- Differential states. -/
  nx : Nat
  /-- Derivatives of differential states, for implicit models. -/
  ndx : Nat := 0
  /-- Algebraic states. -/
  nxa : Nat := 0
  /-- Controls. -/
  nu : Nat
  /-- Online data. -/
  nod : Nat := 0
  deriving DecidableEq, Repr

/-- The dimensions of a solver to which no problem is bound. -/
def Dimensions.zero : Dimensions where
  nx := 0
  nu := 0

/-- The dynamic model, known by the C function that evaluates its right-hand side. -/
structure Model where
  rhs : String := "acado_rhs"
  /-- Uncontrolled inputs. -/
  nui : Nat := 0
  /-- Free parameters. -/
  np : Nat := 0
  /-- Whether the model is a map in discrete time. -/
  discretized : Bool := false
  deriving DecidableEq, Repr

/-- A least-squares term of the objective. -/
structure LeastSquares where
  /-- References or measurements. -/
  ny : Nat
  weighting : Weighting := .once
  deriving DecidableEq, Repr

/-- The objective, by the number and kind of its terms. -/
structure Objective where
  mayerTerms : Nat := 0
  lagrangeTerms : Nat := 0
  /-- The term on all nodes but the last. -/
  leastSquares : Option LeastSquares := none
  /-- The term on the last node. -/
  terminalLeastSquares : Option LeastSquares := none
  /-- Whether linear terms are set at run time. -/
  linearTerms : Bool := false
  deriving DecidableEq, Repr

namespace Objective

/-- Whether there are terms other than least squares. -/
def hasGeneralTerms (o : Objective) : Bool := 0 < o.mayerTerms || 0 < o.lagrangeTerms

def hasLeastSquares (o : Objective) : Bool := o.leastSquares.isSome || o.terminalLeastSquares.isSome

/-- References for each node but the last. -/
def ny (o : Objective) : Nat := (o.leastSquares.map LeastSquares.ny).getD 0

/-- References on the last node. -/
def nyn (o : Objective) : Nat := (o.terminalLeastSquares.map LeastSquares.ny).getD 0

/-- The weighting of the running term, else of the terminal term, else none. -/
def weighting (o : Objective) : Weighting :=
  ((o.leastSquares <|> o.terminalLeastSquares).map LeastSquares.weighting).getD .empty

end Objective

/-- The constraints, by their counts. -/
structure Constraints where
  boundedControls : Nat := 0
  boundedStates : Nat := 0
  /-- Nonlinear constraints at every node. -/
  pathConstraints : Nat := 0
  /-- Nonlinear constraints over the whole horizon. -/
  pointConstraints : Nat := 0
  deriving DecidableEq, Repr

/-- An optimal control problem. -/
structure Problem where
  /-- The number of control intervals. -/
  horizon : Nat
  dimensions : Dimensions
  grid : TimeGrid Float := .unit
  model : Model := {}
  objective : Objective := {}
  constraints : Constraints := {}

def Problem.hasEquidistantGrid (p : Problem) : Bool := p.grid.isEquidistant

end ControlCodegen
