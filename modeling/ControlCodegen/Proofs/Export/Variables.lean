import ControlCodegen.Proofs.Export.Agreement

/-!
# `Export.Variables`: the sizes of all variables

* `weightElements` : the elements of the weights on all nodes but the last.
* `VariableSizes`, `variableSizes` : the sizes of the variables beside the trajectories and their references.
* `size?_mu_eq_none` : there are no multipliers without the exact Hessian.
-/

namespace ControlCodegen.Export

open C

set_option autoImplicit false

/-- The elements of the weights: one matrix, or one for each interval. -/
def weightElements (s : Solver) : Nat :=
  match s.weighting with
  | .oncePerNode => s.horizon * s.ny * s.ny
  | .once => s.ny * s.ny
  | .empty => 0

/-- The sizes of the weights, and of the variables that are there on a condition. -/
structure VariableSizes (plan : Plan) : Prop where
  W : size? plan .vars "W" = some (weightElements plan.solver)
  WN : size? plan .vars "WN" = some (plan.solver.nyn * plan.solver.nyn)
  xAC : plan.solver.arrivalCost = true → size? plan .vars "xAC" = some plan.solver.dims.nx
  SAC : plan.solver.arrivalCost = true → size? plan .vars "SAC" = some (plan.solver.dims.nx * plan.solver.dims.nx)
  WL : plan.solver.arrivalCost = true → size? plan .vars "WL" = some (plan.solver.dims.nx * plan.solver.dims.nx)
  sigmaN : plan.solver.covarianceMatrix = true →
    size? plan .vars "sigmaN" = some (plan.solver.dims.nx * plan.solver.dims.nx)
  mu : plan.solver.strategy.usesExactHessian = true →
    size? plan .vars "mu" = some (plan.solver.horizon * plan.solver.dims.nx)

theorem variableSizes (plan : Plan) : VariableSizes plan := by
  have hvars : ∀ d ∈ plan.solver.variableMembers, size? plan .vars d.name = some d.size := by
    intro d hd
    exact size?_of_mem (List.mem_append_right _ hd)
  unfold Solver.variableMembers at hvars
  simp only [List.append_assoc, List.forall_mem_append, List.forall_mem_cons, Member.size, Nat.mul_one] at hvars
  obtain ⟨⟨-, -, -, -, -, hW, hWN, -⟩, -, -, harrival, hsigma, hmu⟩ := hvars
  refine { W := ?_, WN := hWN, xAC := ?_, SAC := ?_, WL := ?_, sigmaN := ?_, mu := ?_ }
  · rw [hW]
    unfold weightElements
    cases plan.solver.weighting with
    | oncePerNode => rfl
    | once => rfl
    | empty => exact congrArg some (Nat.zero_mul _)
  · intro h
    rw [if_pos h] at harrival
    simpa using harrival _ List.mem_cons_self
  · intro h
    rw [if_pos h] at harrival
    exact harrival _ (List.mem_cons_of_mem _ List.mem_cons_self)
  · intro h
    rw [if_pos h] at harrival
    exact harrival _ (List.mem_cons_of_mem _ (List.mem_cons_of_mem _ List.mem_cons_self))
  · intro h
    rw [if_pos h] at hsigma
    exact hsigma _ List.mem_cons_self
  · intro h
    rw [if_pos h] at hmu
    exact hmu _ List.mem_cons_self

/-- Without the exact Hessian there are no multipliers. -/
theorem size?_mu_eq_none {plan : Plan} (h : plan.solver.strategy.usesExactHessian = false) :
    size? plan .vars "mu" = none := by
  have hnames : ∀ fixed hardcoded arrival covariance,
      "mu" ∉ variableNames fixed hardcoded arrival covariance false := by decide
  rw [← Option.not_isSome_iff_eq_none, isSome_size?_variable_iff, h]
  exact hnames _ _ _ _

end ControlCodegen.Export
