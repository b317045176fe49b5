import ControlCodegen.Options.Choice

/-!
# `Integrator.Tableau`: Butcher tableaux

The coefficients of the supported Runge-Kutta schemes. A tableau is explicit when its stage matrix is strictly lower
triangular, so that every stage needs earlier stages only.
-/

namespace ControlCodegen.Integrator

set_option autoImplicit false

/-- The coefficients of a Runge-Kutta scheme. -/
structure Tableau where
  /-- The stage matrix, by rows. -/
  a : List (List Float)
  /-- The weights of the stages. -/
  b : List Float
  /-- The nodes of the stages. -/
  c : List Float

namespace Tableau

def stages (t : Tableau) : Nat := t.b.length

/-- Whether row `i` of the stage matrix is zero from column `i` on. -/
def isExplicit (t : Tableau) : Bool :=
  (t.a.zipIdx).all fun (row, i) => (row.drop i).all fun v => v == 0.0

def ofScheme : Scheme → Tableau
  | .explicitEuler => ⟨[[0.0]], [1.0], [0.0]⟩
  | .rk2 => ⟨[[0.0, 0.0], [0.5, 0.0]], [0.0, 1.0], [0.0, 0.5]⟩
  | .rk3 =>
    ⟨[[0.0, 0.0, 0.0], [0.5, 0.0, 0.0], [-1.0, 2.0, 0.0]], [1.0 / 6.0, 2.0 / 3.0, 1.0 / 6.0], [0.0, 0.5, 1.0]⟩
  | .rk4 =>
    ⟨[[0.0, 0.0, 0.0, 0.0], [0.5, 0.0, 0.0, 0.0], [0.0, 0.5, 0.0, 0.0], [0.0, 0.0, 1.0, 0.0]],
      [1.0 / 6.0, 1.0 / 3.0, 1.0 / 3.0, 1.0 / 6.0], [0.0, 0.5, 0.5, 1.0]⟩
  | .gaussLegendre2 => ⟨[[0.5]], [1.0], [0.5]⟩
  | .gaussLegendre4 =>
    let s := Float.sqrt 3.0 / 6.0
    ⟨[[0.25, 0.25 - s], [0.25 + s, 0.25]], [0.5, 0.5], [0.5 - s, 0.5 + s]⟩
  | .gaussLegendre6 =>
    let r := Float.sqrt 15.0
    ⟨[[5.0 / 36.0, 2.0 / 9.0 - r / 15.0, 5.0 / 36.0 - r / 30.0],
        [5.0 / 36.0 + r / 24.0, 2.0 / 9.0, 5.0 / 36.0 - r / 24.0],
        [5.0 / 36.0 + r / 30.0, 2.0 / 9.0 + r / 15.0, 5.0 / 36.0]],
      [5.0 / 18.0, 4.0 / 9.0, 5.0 / 18.0], [0.5 - r / 10.0, 0.5, 0.5 + r / 10.0]⟩
  | .radau1 => ⟨[[1.0]], [1.0], [1.0]⟩
  | .radau3 => ⟨[[5.0 / 12.0, -1.0 / 12.0], [0.75, 0.25]], [0.75, 0.25], [1.0 / 3.0, 1.0]⟩
  | .radau5 =>
    let q := Float.sqrt 6.0
    let last := [(16.0 - q) / 36.0, (16.0 + q) / 36.0, 1.0 / 9.0]
    ⟨[[(88.0 - 7.0 * q) / 360.0, (296.0 - 169.0 * q) / 1800.0, (-2.0 + 3.0 * q) / 225.0],
        [(296.0 + 169.0 * q) / 1800.0, (88.0 + 7.0 * q) / 360.0, (-2.0 - 3.0 * q) / 225.0], last],
      last, [(4.0 - q) / 10.0, (4.0 + q) / 10.0, 1.0]⟩

def stagesOf : Scheme → Nat
  | .explicitEuler | .gaussLegendre2 | .radau1 => 1
  | .rk2 | .gaussLegendre4 | .radau3 => 2
  | .rk3 | .gaussLegendre6 | .radau5 => 3
  | .rk4 => 4

theorem stages_ofScheme (s : Scheme) : (ofScheme s).stages = stagesOf s := by cases s <;> rfl

end Tableau

end ControlCodegen.Integrator
