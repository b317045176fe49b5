import ControlCodegen.C.Program

/-!
# `Integrator.LinearSystem`: a generated linear solver

`LinearSystem.solve` factorizes a matrix in place by Gaussian elimination with partial pivoting and solves for one right
side; `LinearSystem.solveAgain` solves for another right side with the stored factors and row permutation. Both are
generated for one dimension.
-/

namespace ControlCodegen.Integrator

open C

set_option autoImplicit false

/-- A family of square systems of one dimension. -/
structure LinearSystem where
  /-- The start of the names of the generated functions. -/
  owner : String
  dim : Nat
  deriving DecidableEq, Repr

namespace LinearSystem

def solveName (s : LinearSystem) : String := s!"{s.owner}_solve_dim{s.dim}_system"

def solveAgainName (s : LinearSystem) : String := s!"{s.owner}_solve_dim{s.dim}_system_reuse"

def signature (name : String) : Prototype where
  name := name
  returns := .int
  params := [.realOut "A", .realOut "b", .intOut "rk_perm"]

def prototypes (s : LinearSystem) : List Prototype :=
  [{ signature s.solveName with description := some "Factorizes A in place and solves A x = b; x overwrites b." },
    { signature s.solveAgainName with
      description := some "Solves A x = b with the factorization of the last solve call." }]

/-- The factors. -/
def a : Ref := .name "A"

/-- The right side, later the solution. -/
def b : Ref := .name "b"

/-- The row permutation. -/
def perm : Ref := .name "rk_perm"

/-- The right side in the order of the permuted rows. -/
def permuted : Ref := .name "rk_bPerm"

/-- The index of an entry of the matrix. -/
def index (s : LinearSystem) (row col : IntExpr) : IntExpr := row * .lit s.dim + col

def entry (s : LinearSystem) (row col : IntExpr) : RealExpr := .elem a (s.index row col)

/-- Exchanges two elements through a temporary. -/
def exchange (array : Ref) (first second : IntExpr) : Stmt :=
  .beside (.assign ⟨.name "tmp", none⟩ .set (.elem array first))
    (.beside (.assign (array.entry first) .set (.elem array second))
      (.assign (array.entry second) .set (.var "tmp")))

def exchangePerm (first second : IntExpr) : Stmt :=
  .beside (.assignInt ⟨.name "k", none⟩ (.elem perm first))
    (.beside (.assignInt (perm.entry first) (.elem perm second)) (.assignInt (perm.entry second) (.var "k")))

/-- Moves the row with the largest entry of column `i`, at or below the diagonal, to row `i`. -/
def pivot (s : LinearSystem) : Stmt :=
  let i : IntExpr := .var "i"
  let j : IntExpr := .var "j"
  let k : IntExpr := .var "k"
  let p : IntExpr := .var "p"
  .block [
    .assignInt ⟨.name "p", none⟩ i,
    .countUp "j" (i + 1) s.dim .hanging
      (.when (.greater (.abs (s.entry j i)) (.abs (s.entry p i))) .inline (.assignInt ⟨.name "p", none⟩ j)),
    .when (.cond (.ne p i)) .braces <| .block [
      .each "k" s.dim .braces (exchange a (s.index i k) (s.index p k)),
      exchange b i p,
      exchangePerm i p]]

/-- Subtracts multiples of row `i` from the rows below it. -/
def eliminate (s : LinearSystem) : Stmt :=
  let i : IntExpr := .var "i"
  let j : IntExpr := .var "j"
  let k : IntExpr := .var "k"
  .countUp "j" (i + 1) s.dim .braces <| .block [
    .assign (a.entry (s.index j i)) .div (s.entry i i),
    .countUp "k" (i + 1) s.dim .inline
      (.assign (a.entry (s.index j k)) .sub (s.entry j i * s.entry i k)),
    .assign (b.entry j) .sub (s.entry j i * .elem b i)]

/-- Solves the upper triangle from the last row up. -/
def substitute (s : LinearSystem) (right : Ref) : Stmt :=
  let i : IntExpr := .var "i"
  let j : IntExpr := .var "j"
  .countDown "i" ((s.dim : Int) - 1) .braces <| .block [
    .countUp "j" (i + 1) s.dim .inline (.assign (right.entry i) .sub (s.entry i j * .elem right j)),
    .assign (right.entry i) .div (s.entry i i)]

/-- The function that factorizes and solves; a zero pivot ends it with status 1. -/
def solve (s : LinearSystem) : Function where
  prototype := signature s.solveName
  body :=
    let i : IntExpr := .var "i"
    .block [
      .declareInts ["i", "j", "k", "p"],
      .declareReal "det" (some (.whole 1)),
      .declareReal "tmp" none,
      .each "i" s.dim .inline (.assignInt (perm.entry i) i),
      .each "i" s.dim .braces <| .block [
        s.pivot,
        .assign ⟨.name "det", none⟩ .mul (s.entry i i),
        .when (.isZero (s.entry i i)) .inline (.returnInt 1),
        s.eliminate],
      s.substitute b,
      .returnTest (.isZero (.var "det"))]

/-- The function that solves with the factors and the permutation of an earlier call. -/
def solveAgain (s : LinearSystem) : Function where
  prototype := signature s.solveAgainName
  body :=
    let i : IntExpr := .var "i"
    let j : IntExpr := .var "j"
    .block [
      .declareInts ["i", "j"],
      .declareArray "rk_bPerm" s.dim,
      .each "i" s.dim .inline (.assign (permuted.entry i) .set (.elem b (.elem perm i))),
      .countUp "i" 1 s.dim .hanging
        (.each "j" i .inline (.assign (permuted.entry i) .sub (s.entry i j * .elem permuted j))),
      s.substitute permuted,
      .each "i" s.dim .inline (.assign (b.entry i) .set (.elem permuted i)),
      .returnInt 0]

def items (s : LinearSystem) : List Item := [.function s.solve, .function s.solveAgain]

end LinearSystem

end ControlCodegen.Integrator
