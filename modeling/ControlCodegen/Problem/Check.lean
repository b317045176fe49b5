import ControlCodegen.Problem.Basic
import ControlCodegen.Text.Blank
import ControlCodegen.Decimal.Scientific

/-!
# `Problem.Check`: structural checks of a problem

`Problem.check` looks at the problem alone and reports the first `Problem.Defect`; what depends on the export options is
checked elsewhere. Comparisons of times are those of doubles, so a not-a-number passes them.
-/

namespace ControlCodegen.Problem

set_option autoImplicit false

/-- What is wrong with a problem. -/
inductive Defect where
  | emptyHorizon
  | noStates
  | derivatives (nx ndx : Nat)
  | reversedGrid (stop start : Float)
  | pointCount (expected actual : Nat)
  | unorderedPoints
  | blankModel
  | boundedControls (nu count : Nat)
  | boundedStates (nx count : Nat)

def Defect.message : Defect → String
  | .emptyHorizon => "ocp.horizon must be > 0"
  | .noStates => "ocp.dimensions.nx must be > 0"
  | .derivatives nx ndx => s!"ocp.dimensions.ndx must be 0 or equal to nx ({nx}), got {ndx}"
  | .reversedGrid stop start =>
    s!"ocp.grid.end ({Decimal.plain stop}) must be greater than ocp.grid.start ({Decimal.plain start})"
  | .pointCount expected actual => s!"ocp.grid.points must have horizon + 1 = {expected} entries, got {actual}"
  | .unorderedPoints => "ocp.grid.points must be strictly increasing"
  | .blankModel => "ocp.model.rhs_function cannot be empty"
  | .boundedControls nu count => s!"ocp.constraints.bounded_controls must be <= nu ({nu}), got {count}"
  | .boundedStates nx count => s!"ocp.constraints.bounded_states must be <= nx ({nx}), got {count}"

/-- Checks explicit grid points: their number, then their order. -/
def checkPoints (horizon : Nat) (points : List Float) : Except Defect Unit :=
  if points.length ≠ horizon + 1 then .error (.pointCount (horizon + 1) points.length)
  else if (List.zipWith (fun a b => decide (b ≤ a)) points points.tail).any id then .error .unorderedPoints
  else .ok ()

def check (p : Problem) : Except Defect Unit := do
  if p.horizon = 0 then throw .emptyHorizon
  if p.dimensions.nx = 0 then throw .noStates
  if p.dimensions.ndx ≠ 0 ∧ p.dimensions.ndx ≠ p.dimensions.nx then
    throw (.derivatives p.dimensions.nx p.dimensions.ndx)
  if p.grid.stop ≤ p.grid.start then throw (.reversedGrid p.grid.stop p.grid.start)
  if let some points := p.grid.points then checkPoints p.horizon points
  if Text.allBlank p.model.rhs then throw .blankModel
  if p.dimensions.nu < p.constraints.boundedControls then
    throw (.boundedControls p.dimensions.nu p.constraints.boundedControls)
  if p.dimensions.nx < p.constraints.boundedStates then
    throw (.boundedStates p.dimensions.nx p.constraints.boundedStates)

end ControlCodegen.Problem
