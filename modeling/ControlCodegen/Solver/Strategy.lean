import ControlCodegen.Options.Choice

/-!
# `Solver.Strategy`: how the generated solver treats its quadratic program

A strategy fixes the backend, the layout of the quadratic program and whether the exact Hessian is used.
`Strategy.select` is the decision table from the three options that name one.
-/

namespace ControlCodegen

set_option autoImplicit false

/-- How the quadratic program handed to the backend is structured. -/
inductive QpLayout where
  /-- States are eliminated over the whole horizon. -/
  | condensed
  /-- States are eliminated within blocks of intervals. -/
  | block
  /-- States stay variables. -/
  | sparse
  deriving DecidableEq, Repr

instance : Choice QpLayout where
  all := [.condensed, .block, .sparse]
  name
    | .condensed => "condensed"
    | .block => "block"
    | .sparse => "sparse"

instance : LawfulChoice QpLayout := ⟨by rintro ⟨⟩ <;> decide, by rintro ⟨⟩ <;> rfl⟩

/-- A way to generate the solver. -/
inductive Strategy where
  | condensedGaussNewton
  | gaussNewtonN2
  | exactHessianN2
  | factorizedN2
  | blockQpDunes
  | blockForces
  | sparseForces
  | sparseQpDunes
  | exactHessianQpDunes
  | sparseHpmpc
  deriving DecidableEq, Repr

namespace Strategy

instance : Choice Strategy where
  all := [condensedGaussNewton, gaussNewtonN2, exactHessianN2, factorizedN2, blockQpDunes, blockForces, sparseForces,
    sparseQpDunes, exactHessianQpDunes, sparseHpmpc]
  name
    | condensedGaussNewton => "condensed_gauss_newton"
    | gaussNewtonN2 => "gauss_newton_cn2"
    | exactHessianN2 => "exact_hessian_cn2"
    | factorizedN2 => "cn2_factorization"
    | blockQpDunes => "block_qp_dunes"
    | blockForces => "block_forces"
    | sparseForces => "sparse_forces"
    | sparseQpDunes => "sparse_qp_dunes"
    | exactHessianQpDunes => "exact_hessian_qp_dunes"
    | sparseHpmpc => "sparse_hpmpc"

instance : LawfulChoice Strategy := ⟨by rintro ⟨⟩ <;> decide, by rintro ⟨⟩ <;> rfl⟩

/-- The name in messages and in the generated source. -/
def display : Strategy → String
  | condensedGaussNewton => "gauss_newton_condensed"
  | gaussNewtonN2 => "gauss_newton_cn2"
  | exactHessianN2 => "exact_hessian_cn2"
  | factorizedN2 => "gauss_newton_cn2_factorization"
  | blockQpDunes => "gauss_newton_block_qpdunes"
  | blockForces => "gauss_newton_block_forces"
  | sparseForces => "gauss_newton_forces"
  | sparseQpDunes => "gauss_newton_qpdunes"
  | exactHessianQpDunes => "exact_hessian_qpdunes"
  | sparseHpmpc => "gauss_newton_hpmpc"

def ofDisplay? (s : String) : Option Strategy := Choice.all.find? fun k => display k = s

def backend : Strategy → QpSolver
  | condensedGaussNewton | gaussNewtonN2 | exactHessianN2 | factorizedN2 => .qpOases
  | blockQpDunes | sparseQpDunes | exactHessianQpDunes => .qpDunes
  | blockForces | sparseForces => .forces
  | sparseHpmpc => .hpmpc

def layout : Strategy → QpLayout
  | condensedGaussNewton | gaussNewtonN2 | exactHessianN2 | factorizedN2 => .condensed
  | blockQpDunes | blockForces => .block
  | sparseForces | sparseQpDunes | exactHessianQpDunes | sparseHpmpc => .sparse

/-- Whether the exact Hessian of the Lagrangian is used. -/
def usesExactHessian : Strategy → Bool
  | exactHessianN2 | exactHessianQpDunes => true
  | condensedGaussNewton | gaussNewtonN2 | factorizedN2 | blockQpDunes | blockForces | sparseForces | sparseQpDunes
  | sparseHpmpc => false

/-- Why no strategy fits a combination of options. -/
inductive Gap where
  | condensedNeedsQpOases
  | condensedN2Hessian
  | blockHessian
  | blockBackend
  | sparseBackend
  deriving DecidableEq, Repr

def Gap.message : Gap → String
  | .condensedNeedsQpOases => "Condensed solutions are only supported with qpOASES"
  | .condensedN2Hessian => "Only Gauss-Newton and Exact Hessian methods are supported with N^2 condensing"
  | .blockHessian => "Only Gauss-Newton methods are supported with block condensing"
  | .blockBackend => "Block condensing is only supported with qpDUNES and FORCES"
  | .sparseBackend => "Sparse solutions are only supported with FORCES, qpDUNES and HPMPC"

/-- The strategy for a backend, a method and a Hessian. Full and partial condensing do not look at the Hessian. -/
def select (backend : QpSolver) (method : QpMethod) (hessian : Hessian) : Except Gap Strategy :=
  match method with
  | .fullCondensing | .condensing =>
    if backend = .qpOases then .ok condensedGaussNewton else .error .condensedNeedsQpOases
  | .fullCondensingN2 | .condensingN2 =>
    if backend = .qpOases then
      match hessian with
      | .gaussNewton => .ok gaussNewtonN2
      | .exact => .ok exactHessianN2
      | .constant | .fullBfgsUpdate | .blockBfgsUpdate | .gaussNewtonWithBlockBfgs => .error .condensedN2Hessian
    else .error .condensedNeedsQpOases
  | .fullCondensingN2Factorization =>
    if backend = .qpOases then .ok factorizedN2 else .error .condensedNeedsQpOases
  | .blockCondensingN2 =>
    match backend with
    | .qpDunes => if hessian = .gaussNewton then .ok blockQpDunes else .error .blockHessian
    | .forces => if hessian = .gaussNewton then .ok blockForces else .error .blockHessian
    | .qpOases | .hpmpc => .error .blockBackend
  | .sparseSolver =>
    match backend with
    | .forces => .ok sparseForces
    | .qpDunes => if hessian = .exact then .ok exactHessianQpDunes else .ok sparseQpDunes
    | .hpmpc => .ok sparseHpmpc
    | .qpOases => .error .sparseBackend

end Strategy

end ControlCodegen
