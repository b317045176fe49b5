import ControlCodegen.Error

/-!
# `Plan.Consistency`: whether options and problem go together

`checkConsistency` runs before anything is planned. It refuses what no generated solver supports, whatever the strategy.
-/

namespace ControlCodegen

set_option autoImplicit false

/-- The first reason why no solver can be generated for a problem with these options. -/
def checkConsistency (p : Problem) (o : Options) : Except Cause Unit := do
  let objective := p.objective
  if objective.hasGeneralTerms ∧
      ¬(o.hessian = .exact ∧ (objective.mayerTerms = 1 ∨ objective.lagrangeTerms = 1)) then
    throw (.generalTerms o.hessian objective.mayerTerms objective.lagrangeTerms)
  if 0 < p.model.nui then throw (.uncontrolledInputs p.model.nui)
  if 0 < p.model.np then throw (.freeParameters p.model.np)
  match o.hessian with
  | .gaussNewton | .exact => pure ()
  | .constant | .fullBfgsUpdate | .blockBfgsUpdate | .gaussNewtonWithBlockBfgs => throw (.unsupportedHessian o.hessian)
  match o.discretization with
  | .singleShooting | .multipleShooting => pure ()
  | .collocation => throw (.unsupportedDiscretization o.discretization)

end ControlCodegen
