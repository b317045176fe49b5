import ControlCodegen.Solver.Basic

/-!
# `Solver.Program`: the generated solver

`Solver.items` is the program of a solver whose configuration is complete. The functions work on the two global structs
of the module: the variables hold the trajectories by nodes, and the workspace holds one augmented state, the
linearization by intervals and the quadratic program.
-/

namespace ControlCodegen.Solver

open C

set_option autoImplicit false

/-- A member of the variables. -/
def var (name : String) : Ref := .member .vars name

/-- A member of the workspace. -/
def work (name : String) : Ref := .member .workspace name

/-- The counter of the inner loops. -/
def i : IntExpr := .var "i"

/-- The counter of intervals. -/
def interval : IntExpr := .var "run1"

/-- Copies a row of a trajectory into the augmented state. -/
def loadState (offset : Option Nat) (width : Nat) (source : String) : Stmt :=
  let at' : IntExpr := match offset with
    | some k => .lit k + i
    | none => i
  .each "i" width .inline
    (.assign ((work "state").entry at') .set (.elem (var source) (interval * .lit width + i)))

/-- Copies a part of the augmented state into the rows of one interval. -/
def storeRows (target : String) (width offset : Nat) : Stmt :=
  .each "i" width .inline
    (.assign ((work target).entry (interval * .lit width + i)) .set (.elem (work "state") (.lit offset + i)))

/-- Integrates over every interval from the current trajectory, and keeps the defects and the sensitivities. The first
failure of the integrator ends it. -/
def simulationBody (s : Solver) (l : Integrator.Link) : Stmt :=
  let nx := s.dims.nx
  let nu := s.dims.nu
  let nod := s.dims.nod
  let args := [Arg.array (work "state"), .value 1] ++ if l.takesIndex then [.value interval] else []
  .block [
    .declareInts ["run1", "i"],
    .declareInt "ret" 0,
    .each "run1" s.horizon .braces <| .block <|
      [loadState none nx "x", loadState (some l.integratedLength) nu "u"] ++
      (if 0 < nod then [loadState (some (l.integratedLength + nu)) nod "od"] else []) ++
      [.assignResult "ret" ⟨l.function, args⟩,
        .when (.cond (.ne "ret" 0)) .inline (.returnInt "ret"),
        .each "i" nx .inline
          (.assign ((work "d").entry (interval * .lit nx + i)) .set
            (.elem (work "state") i - .elem (var "x") (interval * .lit nx + .lit nx + i))),
        storeRows "evGx" (nx * nx) nx,
        storeRows "evGu" (nx * nu) (nx + nx * nx)],
    .returnInt "ret"]

/-- The Hessian is the Levenberg-Marquardt coefficient on the diagonal, the gradient is zero. -/
def objectiveBody (s : Solver) : Stmt :=
  let nv := s.qpVariables
  .block [
    .declareInts ["i"],
    .each "i" (nv * nv : Nat) .inline (.assign ((work "H").entry i) .set (.whole 0)),
    .each "i" nv .inline (.assign ((work "g").entry i) .set (.whole 0)),
    .each "i" nv .inline (.assign ((work "H").entry (i * .lit nv + i)) .add (.literal s.levenbergMarquardt))]

/-- The workspace is filled with zeros. -/
def initializeBody : Stmt := .block [.clear .workspace, .returnInt 0]

/-- Simulation, then the objective; the status is that of the simulation. -/
def preparationBody (s : Solver) : Stmt :=
  .block [
    .declareResult "ret" ⟨s.simulationPrototype.name, []⟩,
    .call ⟨s.objectivePrototype.name, []⟩,
    .returnInt "ret"]

/-- A fixed initial state replaces the first state; then the quadratic program is solved. -/
def feedbackBody (s : Solver) : Stmt :=
  let solve : Stmt := .returnResult ⟨s.qpSolvePrototype.name, []⟩
  if s.fixedInitialState then
    .block [
      .declareInts ["i"],
      .each "i" s.dims.nx .inline (.assign ((var "x").entry i) .set (.elem (var "x0") i)),
      solve]
  else solve

/-- Moves a trajectory up by one row, up to an index. -/
def shiftRows (trajectory : String) (bound width : Nat) : Stmt :=
  .each "i" bound .inline
    (.assign ((var trajectory).entry i) .set (.elem (var trajectory) (.lit width + i)))

/-- Fills the last row of a trajectory from a parameter. -/
def fillLast (trajectory : String) (last width : Nat) (source : String) : Stmt :=
  .each "i" width .inline
    (.assign ((var trajectory).entry (.lit last + i)) .set (.elem (.name source) i))

/-- Every state takes the value of the next; the last one is given or stays. -/
def shiftStatesBody (s : Solver) : Stmt :=
  let nx := s.dims.nx
  let last := s.horizon * nx
  .block [
    .declareInts ["i"],
    shiftRows "x" last nx,
    .when (.cond (.both (.eq "strategy" 1) (.notNull "xEnd"))) .hanging (fillLast "x" last nx "xEnd")]

/-- Every control takes the value of the next; the last one is given or stays. -/
def shiftControlsBody (s : Solver) : Stmt :=
  let nu := s.dims.nu
  let last := (s.horizon - 1) * nu
  .block [
    .declareInts ["i"],
    shiftRows "u" last nu,
    .when (.cond (.notNull "uEnd")) .hanging (fillLast "u" last nu "uEnd")]

/-- The sum of the sizes of gradient times step. -/
def kktBody (s : Solver) : Stmt :=
  .block [
    .declareInts ["i"],
    .declareReal "kkt" (some (.whole 0)),
    .each "i" s.qpVariables .inline
      (.assign (Ref.whole (.name "kkt")) .add (.abs (.elem (work "g") i * .elem (work "dz") i))),
    .returnReal (.var "kkt")]

/-- The value that the last solution left. -/
def objectiveValueBody : Stmt := .returnReal (.scalar (work "objValue"))

def functions (s : Solver) (l : Integrator.Link) : List Function :=
  [⟨s.simulationPrototype, simulationBody s l⟩,
    ⟨s.objectivePrototype, objectiveBody s⟩,
    ⟨s.initializePrototype, initializeBody⟩,
    ⟨s.preparationPrototype, preparationBody s⟩,
    ⟨s.feedbackPrototype, feedbackBody s⟩,
    ⟨s.shiftStatesPrototype, shiftStatesBody s⟩,
    ⟨s.shiftControlsPrototype, shiftControlsBody s⟩,
    ⟨s.kktPrototype, kktBody s⟩,
    ⟨s.objectiveValuePrototype, objectiveValueBody⟩]

/-- The program of a solver whose configuration is complete. -/
def items (s : Solver) : Except Cause (List Item) :=
  if !s.ready then .error (.solverNotReady s.strategy)
  else
    match s.link with
    | none => .error (.incompleteSolver s.strategy .integrator)
    | some l =>
      .ok ([.comment s!"Solver strategy: {s.strategy.display}", .blank] ++ (functions s l).map .function)

end ControlCodegen.Solver
