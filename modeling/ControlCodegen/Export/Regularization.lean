import ControlCodegen.Template.Render

/-!
# `Export.Regularization`: the regularization of exact Hessians

The generated routine needs the dimension of a Hessian block and the least size that an eigenvalue may have.
-/

namespace ControlCodegen.Export

set_option autoImplicit false

/-- What the regularization is generated for. -/
structure Regularization where
  moduleName : ModuleName
  /-- The dimension of a block; 0 until it is set. -/
  dim : Nat := 0
  /-- The least size of an eigenvalue. -/
  floor : Float := 1e-12

namespace Regularization

def fileName (r : Regularization) : String := r.moduleName.fileName "hessian_regularization" "c"

/-- The values for the template. The dimension has to be set, and the floor has to be positive and finite. -/
def substitutions (r : Regularization) : Except Cause Substitutions := do
  if r.dim = 0 then throw .regularizationDimension
  if ¬(r.floor.isFinite ∧ 0.0 < r.floor) then throw (.regularizationFloor r.floor)
  return r.moduleName.substitutions ++ [("DIM", toString r.dim), ("REGULARIZATION_VALUE", Decimal.exponential r.floor)]

def text (r : Regularization) : Except Cause String := do
  Template.regularization.render "" true (← r.substitutions)

end Regularization

end ControlCodegen.Export
