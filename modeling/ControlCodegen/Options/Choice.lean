/-!
# `Options.Choice`: closed enumerations with names

A `Choice` is a finite type whose members are written by name in a project file. `Choice.ofName?` reads a name back;
`LawfulChoice` says that every member is listed and that no two share a name.
-/

namespace ControlCodegen

set_option autoImplicit false

/-- An enumeration whose members have names. -/
class Choice (α : Type) where
  all : List α
  name : α → String

def Choice.ofName? {α : Type} [Choice α] (s : String) : Option α :=
  Choice.all.find? fun a => Choice.name a = s

/-- Every member is listed, and the name of a member reads back as that member. -/
class LawfulChoice (α : Type) [Choice α] : Prop where
  mem_all : ∀ a : α, a ∈ (Choice.all : List α)
  ofName?_name : ∀ a : α, Choice.ofName? (Choice.name a) = some a

/-- The backend that solves the quadratic programs at run time. -/
inductive QpSolver where
  | qpOases
  | qpDunes
  | forces
  | hpmpc
  deriving DecidableEq, Repr

namespace QpSolver

instance : Choice QpSolver where
  all := [qpOases, qpDunes, forces, hpmpc]
  name
    | qpOases => "qpoases"
    | qpDunes => "qpdunes"
    | forces => "forces"
    | hpmpc => "hpmpc"

def display : QpSolver → String
  | qpOases => "qpOASES"
  | qpDunes => "qpDUNES"
  | forces => "FORCES"
  | hpmpc => "HPMPC"

/-- The name in the macros of the generated interfaces. -/
def macroName : QpSolver → String
  | qpOases => "QPOASES"
  | qpDunes => "QPDUNES"
  | forces => "FORCES"
  | hpmpc => "HPMPC"

/-- Whether an S-function can be generated for this backend. -/
def hasSFunction : QpSolver → Bool
  | qpOases | qpDunes => true
  | forces | hpmpc => false

end QpSolver

/-- How the sparse quadratic program is brought into the form that the backend solves. -/
inductive QpMethod where
  | fullCondensing
  | condensing
  | fullCondensingN2
  | condensingN2
  | blockCondensingN2
  | fullCondensingN2Factorization
  | sparseSolver
  deriving DecidableEq, Repr

instance : Choice QpMethod where
  all := [.fullCondensing, .condensing, .fullCondensingN2, .condensingN2, .blockCondensingN2,
    .fullCondensingN2Factorization, .sparseSolver]
  name
    | .fullCondensing => "full_condensing"
    | .condensing => "condensing"
    | .fullCondensingN2 => "full_condensing_n2"
    | .condensingN2 => "condensing_n2"
    | .blockCondensingN2 => "block_condensing_n2"
    | .fullCondensingN2Factorization => "full_condensing_n2_factorization"
    | .sparseSolver => "sparse_solver"

/-- How the Hessian of the Lagrangian is approximated. -/
inductive Hessian where
  | gaussNewton
  | exact
  | constant
  | fullBfgsUpdate
  | blockBfgsUpdate
  | gaussNewtonWithBlockBfgs
  deriving DecidableEq, Repr

instance : Choice Hessian where
  all := [.gaussNewton, .exact, .constant, .fullBfgsUpdate, .blockBfgsUpdate, .gaussNewtonWithBlockBfgs]
  name
    | .gaussNewton => "gauss_newton"
    | .exact => "exact_hessian"
    | .constant => "constant_hessian"
    | .fullBfgsUpdate => "full_bfgs_update"
    | .blockBfgsUpdate => "block_bfgs_update"
    | .gaussNewtonWithBlockBfgs => "gauss_newton_with_block_bfgs"

/-- How the continuous problem is discretized. -/
inductive Discretization where
  | singleShooting
  | multipleShooting
  | collocation
  deriving DecidableEq, Repr

instance : Choice Discretization where
  all := [.singleShooting, .multipleShooting, .collocation]
  name
    | .singleShooting => "single_shooting"
    | .multipleShooting => "multiple_shooting"
    | .collocation => "collocation"

/-- The Runge-Kutta scheme of the generated integrator. -/
inductive Scheme where
  | explicitEuler
  | rk2
  | rk3
  | rk4
  | gaussLegendre2
  | gaussLegendre4
  | gaussLegendre6
  | radau1
  | radau3
  | radau5
  deriving DecidableEq, Repr

namespace Scheme

instance : Choice Scheme where
  all := [explicitEuler, rk2, rk3, rk4, gaussLegendre2, gaussLegendre4, gaussLegendre6, radau1, radau3, radau5]
  name
    | explicitEuler => "explicit_euler"
    | rk2 => "rk2"
    | rk3 => "rk3"
    | rk4 => "rk4"
    | gaussLegendre2 => "irk_gl2"
    | gaussLegendre4 => "irk_gl4"
    | gaussLegendre6 => "irk_gl6"
    | radau1 => "irk_riia1"
    | radau3 => "irk_riia3"
    | radau5 => "irk_riia5"

/-- Whether the stages have to be solved for. -/
def isImplicit : Scheme → Bool
  | explicitEuler | rk2 | rk3 | rk4 => false
  | gaussLegendre2 | gaussLegendre4 | gaussLegendre6 | radau1 | radau3 | radau5 => true

end Scheme

/-- The linear solver inside an implicit integrator. -/
inductive LinearSolver where
  | gaussLu
  | simplifiedNewton
  deriving DecidableEq, Repr

namespace LinearSolver

instance : Choice LinearSolver where
  all := [gaussLu, simplifiedNewton]
  name
    | gaussLu => "gauss_lu"
    | simplifiedNewton => "simplified_irk_newton"

/-- Whether the generated code needs complex numbers. -/
def usesComplex : LinearSolver → Bool
  | gaussLu => false
  | simplifiedNewton => true

end LinearSolver

/-- How many weighting matrices a least-squares term has. -/
inductive Weighting where
  | empty
  | once
  | oncePerNode
  deriving DecidableEq, Repr

namespace Weighting

instance : Choice Weighting where
  all := [empty, once, oncePerNode]
  name
    | empty => "empty"
    | once => "once"
    | oncePerNode => "once_per_node"

/-- The number that stands for the weighting in the common header. -/
def indicator : Weighting → Nat
  | empty => 0
  | once => 1
  | oncePerNode => 2

end Weighting

instance : LawfulChoice QpSolver := ⟨by rintro ⟨⟩ <;> decide, by rintro ⟨⟩ <;> rfl⟩

instance : LawfulChoice QpMethod := ⟨by rintro ⟨⟩ <;> decide, by rintro ⟨⟩ <;> rfl⟩

instance : LawfulChoice Hessian := ⟨by rintro ⟨⟩ <;> decide, by rintro ⟨⟩ <;> rfl⟩

instance : LawfulChoice Discretization := ⟨by rintro ⟨⟩ <;> decide, by rintro ⟨⟩ <;> rfl⟩

instance : LawfulChoice Scheme := ⟨by rintro ⟨⟩ <;> decide, by rintro ⟨⟩ <;> rfl⟩

instance : LawfulChoice LinearSolver := ⟨by rintro ⟨⟩ <;> decide, by rintro ⟨⟩ <;> rfl⟩

instance : LawfulChoice Weighting := ⟨by rintro ⟨⟩ <;> decide, by rintro ⟨⟩ <;> rfl⟩

end ControlCodegen
