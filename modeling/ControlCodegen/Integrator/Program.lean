import ControlCodegen.Integrator.Basic

/-!
# `Integrator.Program`: the generated integrator

`Integrator.items` is the program of a bound integrator: the coefficients of the scheme, the linear solver where one is
needed, and the function `<module>_integrate`.

In the function, `run1` counts steps, `s` and `t` count stages, `i` and `j` count entries of the integrated part and `it`
counts Newton iterations. The augmented state is the parameter `rk_eta`; the workspace holds the point of evaluation
`rk_xxx`, the stages `rk_kkk` and what the Newton method needs.
-/

namespace ControlCodegen.Integrator

open C

set_option autoImplicit false

/-- Iterations of the Newton method in each step. -/
def newtonIterations : Nat := 3

/-- The augmented state. -/
def eta : Ref := .name "rk_eta"

/-- The point at which the model is evaluated. -/
def point : Ref := .member .workspace "rk_xxx"

/-- The stages, one after the other. -/
def stage : Ref := .member .workspace "rk_kkk"

/-- The time within the interval, from 0 to 1. -/
def time : Ref := .member .workspace "rk_ttt"

def newtonMatrix : Ref := .member .workspace "rk_A"

/-- The residual of the stage equations, later the Newton step. -/
def residual : Ref := .member .workspace "rk_b"

def permutation : Ref := .member .workspace "rk_perm"

/-- The Jacobian of the model at the start of the step. -/
def jacobian : Ref := .member .workspace "rk_jac"

/-- The stage matrix of the scheme, by rows. -/
def stageMatrix (g : Integrator) : Ref := .name s!"{g.moduleName}_rk_tableau_A"

/-- The weights of the scheme. -/
def weights (g : Integrator) : Ref := .name s!"{g.moduleName}_rk_tableau_b"

/-- The name of the step size, a number or one number for each interval. -/
def stepSizeName (g : Integrator) : String := s!"{g.moduleName}_rk_h"

def stepSize (g : Integrator) (b : Binding) : RealExpr :=
  match b.stepSize with
  | .uniform _ => .var g.stepSizeName
  | .perInterval _ => .elem (.name g.stepSizeName) (.var "rk_index")

section Body

variable (g : Integrator) (b : Binding)

def coefficient (row col : IntExpr) : RealExpr := .elem g.stageMatrix (row * .lit g.stages + col)

def counters : List String :=
  if b.discretized then ["i"]
  else if (g.newtonSystem b).isSome then ["run1", "s", "t", "i", "j", "it"]
  else ["run1", "s", "t", "i"]

/-- Sensitivities start at the identity with respect to the initial state and at zero with respect to the controls. -/
def seedSensitivities : Stmt :=
  let i : IntExpr := .var "i"
  let n := b.states
  .seq
    (.each "i" (b.integratedLength - n : Nat) .inline (.assign (eta.entry (.lit n + i)) .set (.whole 0)))
    (.each "i" b.dims.nx .inline (.assign (eta.entry (.lit n + i * .lit b.dims.nx + i)) .set (.whole 1)))

/-- The inputs are copied to the point of evaluation once. -/
def copyInputs : Stmt :=
  let at' : IntExpr := .lit b.integratedLength + .var "i"
  .each "i" b.inputs .inline (.assign (point.entry at') .set (.elem eta at'))

def prologue : Stmt :=
  .block <|
    [.declareInts (g.counters b), .declareInt "error" 0] ++
    (if b.discretized then [] else [.declareReal "h" (some (g.stepSize b))]) ++
    [.ignore "resetIntegrator", .assign time.whole .set (.whole 0)] ++
    (if b.discretized then [] else [seedSensitivities b]) ++
    [copyInputs b]

/-- The state goes to the point of evaluation. -/
def copyState : Stmt := .each "i" b.integratedLength .inline (.assign (point.entry "i") .set (.elem eta (.var "i")))

/-- The model at the point of evaluation, written to a stage-wise array. -/
def evaluateAt (target : Ref) : Stmt :=
  .call ⟨b.rhs, [.array point, .tail target (.var "s" * .lit b.integratedLength)]⟩

/-- One application of a map in discrete time. -/
def discreteStep : Stmt :=
  .block [
    copyState b,
    .call ⟨b.rhs, [.array point, .array stage]⟩,
    .each "i" b.integratedLength .inline (.assign (eta.entry "i") .set (.elem stage (.var "i"))),
    .assign time.whole .set (.whole 1)]

/-- The point of stage `s`, from the first `count` stages. -/
def stagePoint (count : IntExpr) : Stmt :=
  let i : IntExpr := .var "i"
  let s : IntExpr := .var "s"
  let t : IntExpr := .var "t"
  .each "i" b.integratedLength .braces <| .seq
    (.assign (point.entry i) .set (.elem eta i))
    (.each "t" count .inline
      (.assign (point.entry i) .add
        (.var "h" * g.coefficient s t * .elem stage (t * .lit b.integratedLength + i))))

def explicitStages : Stmt := .each "s" g.stages .braces (.seq (stagePoint g b "s") (evaluateAt b stage))

/-- The matrix of the Newton method: the identity less the step size times the Kronecker product of the stage matrix and
the Jacobian. -/
def assembleMatrix : Stmt :=
  let n := b.integratedLength
  let i : IntExpr := .var "i"
  let j : IntExpr := .var "j"
  let s : IntExpr := .var "s"
  let t : IntExpr := .var "t"
  .each "s" g.stages .flush <| .each "t" g.stages .flush <| .each "i" n .flush <| .each "j" n .hanging <|
    .assign (newtonMatrix.entry ((s * .lit n + i) * .lit (g.unknowns b) + t * .lit n + j)) .set
      (.choice (.both (.eq s t) (.eq i j)) (.whole 1) (.whole 0) -
        .var "h" * g.coefficient s t * .elem jacobian (i * .lit n + j))

def residuals : Stmt :=
  let at' : IntExpr := .var "s" * .lit b.integratedLength + .var "i"
  .each "s" g.stages .braces <| .block [
    stagePoint g b g.stages,
    evaluateAt b residual,
    .each "i" b.integratedLength .inline (.assign (residual.entry at') .sub (.elem stage at'))]

def implicitStages (system : LinearSystem) : Stmt :=
  let args := [Arg.array newtonMatrix, .array residual, .array permutation]
  .block [
    copyState b,
    .call ⟨b.jacobian, [.array point, .array jacobian]⟩,
    .each "i" (g.unknowns b) .inline (.assign (stage.entry "i") .set (.whole 0)),
    .each "it" newtonIterations .braces <| .block [
      residuals g b,
      .branch (.cond (.eq "it" 0))
        (.seq (assembleMatrix g b) (.assignResult "error" ⟨system.solveName, args⟩))
        (.call ⟨system.solveAgainName, args⟩),
      .each "i" (g.unknowns b) .inline (.assign (stage.entry "i") .add (.elem residual (.var "i")))]]

def computeStages : Stmt :=
  match g.newtonSystem b with
  | some system => implicitStages g b system
  | none => explicitStages g b

/-- The state moves on by the weighted stages. -/
def advance : Stmt :=
  let i : IntExpr := .var "i"
  let s : IntExpr := .var "s"
  .seq
    (.each "i" b.integratedLength .hanging <| .each "s" g.stages .inline <|
      .assign (eta.entry i) .add (.var "h" * .elem g.weights s * .elem stage (s * .lit b.integratedLength + i)))
    (.assign time.whole .add (.whole 1 / .whole b.stepsPerInterval))

def steps : Stmt :=
  if b.discretized then discreteStep b
  else .each "run1" b.stepsPerInterval .braces (.seq (computeStages g b) (advance g b))

def function : Function where
  prototype := g.prototype b
  body := .block [prologue g b, steps g b, .returnInt "error"]

/-- The coefficients of the scheme and the step size. -/
def constants : List Item :=
  [.comment s!"Butcher tableau of the {Choice.name g.scheme} scheme",
    .constants s!"{g.moduleName}_rk_tableau_A" g.tableau.a.flatten,
    .constants s!"{g.moduleName}_rk_tableau_b" g.tableau.b,
    match b.stepSize with
    | .uniform h => .constant g.stepSizeName h
    | .perInterval hs => .constants g.stepSizeName hs,
    .blank]

end Body

def items (g : Integrator) : Except Cause (List Item) := do
  let b ← g.bound
  return constants g b ++ ((g.newtonSystem b).map LinearSystem.items).getD [] ++ [.function (function g b)]

end ControlCodegen.Integrator
