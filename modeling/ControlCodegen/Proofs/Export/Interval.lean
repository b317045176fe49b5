import ControlCodegen.Proofs.C.Calls
import ControlCodegen.Proofs.Export.Prototypes
import Mathlib.Tactic.TFAE

/-!
# `Export.Interval`: the index of the interval

Where the intervals of the grid differ in length, the integrator takes the index of the interval and looks its step up.

* `isPerInterval_bindingOf` : there is a step for each interval if and only if the grid is not equidistant.
* `constants_mem_iff`, `startsOf_function`, `calls_simulationBody` : where the integrator keeps its steps and takes one,
  and how the solver calls it.
* `IndexThreaded` : all parts of both files and of the header agree on the index.
* `index_threaded` : they do in every plan.
-/

namespace ControlCodegen

open C

set_option autoImplicit false

/-! ## The grid -/

theorem StepSize.isPerInterval_ofGrid {R : Type} [Sub R] [Div R] (ofNat : Nat → R) (grid : TimeGrid R)
    (equidistant : Bool) (perInterval total : Nat) :
    (StepSize.ofGrid ofNat grid equidistant perInterval total).isPerInterval = (grid.points.isSome && !equidistant) := by
  unfold ofGrid
  cases grid.points with
  | none => rfl
  | some points =>
    cases equidistant with
    | false => rfl
    | true =>
      rcases points with _ | ⟨first, _ | ⟨second, rest⟩⟩
      · rfl
      · rfl
      · rfl

theorem StepSize.isPerInterval_iff {R : Type} {s : StepSize R} :
    s.isPerInterval = true ↔ ∃ hs, s = .perInterval hs := by
  cases s with
  | uniform h => simp [isPerInterval]
  | perInterval hs => simp [isPerInterval]

/-- Intervals of a grid without points are equally long. -/
theorem isEquidistant_of_points_none {g : TimeGrid Float} (h : g.points = none) : g.isEquidistant = true := by
  unfold TimeGrid.isEquidistant
  rw [h]

namespace Plan

variable (p : Problem) (o : Options)

theorem isPerInterval_bindingOf :
    (bindingOf p o).stepSize.isPerInterval = true ↔ p.hasEquidistantGrid = false := by
  have hsteps : (bindingOf p o).stepSize.isPerInterval = (p.grid.points.isSome && !p.hasEquidistantGrid) :=
    StepSize.isPerInterval_ofGrid _ _ _ _ _
  rw [hsteps]
  cases hpoints : p.grid.points with
  | none =>
    have hequidistant : p.hasEquidistantGrid = true := isEquidistant_of_points_none hpoints
    rw [hequidistant]
    decide
  | some points => simp

end Plan

/-! ## The integrator -/

namespace Integrator

variable (g : Integrator) (b : Binding)

theorem index_mem_params : (g.prototype b).params[2]? = some (.intValue "rk_index") ↔ b.stepSize.isPerInterval = true := by
  unfold prototype
  cases b.stepSize.isPerInterval with
  | false => simp
  | true => simp

/-- The step is taken once, at the start. -/
theorem startsOf_function (h : b.discretized = false) : (function g b).body.startsOf "h" = [g.stepSize b] := by
  have hprologue : (prologue g b).startsOf "h" = [g.stepSize b] := by
    unfold prologue
    rw [h]
    rfl
  have hsteps : (steps g b).startsOf "h" = [] := by
    unfold steps
    rw [h]
    unfold computeStages
    cases g.newtonSystem b <;> rfl
  have hbody : (function g b).body = .seq (prologue g b) (.seq (steps g b) (.returnInt "error")) := rfl
  rw [hbody, Stmt.startsOf_seq, Stmt.startsOf_seq, hprologue, hsteps]
  rfl

theorem stepSize_eq_elem_iff :
    g.stepSize b = .elem (.name g.stepSizeName) (.var "rk_index") ↔ b.stepSize.isPerInterval = true := by
  unfold stepSize
  cases b.stepSize with
  | uniform h =>
    refine ⟨fun heq => ?_, fun heq => ?_⟩
    · cases heq
    · cases heq
  | perInterval hs => exact ⟨fun _ => rfl, fun _ => rfl⟩

end Integrator

/-! ## The solver -/

namespace Solver

/-- The simulation calls one function, once. -/
theorem calls_simulationBody (s : Solver) (l : Integrator.Link) :
    (simulationBody s l).calls =
      [⟨l.function, [Arg.array (work "state"), .value 1] ++ if l.takesIndex then [.value interval] else []⟩] := by
  unfold simulationBody
  dsimp only
  by_cases hnod : 0 < s.dims.nod
  · rw [if_pos hnod]
    cases l.takesIndex <;> rfl
  · rw [if_neg hnod]
    cases l.takesIndex <;> rfl

end Solver

namespace Export

open Integrator Plan

section Plans

variable (p : Problem) (o : Options) (g : Integrator)

/-- The steps of the intervals are the only array of that name. -/
theorem constants_mem_iff {hs : List Float} :
    .constants g.stepSizeName hs ∈ integratorItems p o g ↔ (bindingOf p o).stepSize = .perInterval hs := by
  have hsystem : Item.constants g.stepSizeName hs ∉
      ((g.newtonSystem (bindingOf p o)).map LinearSystem.items).getD [] ++ [.function (function g (bindingOf p o))] := by
    cases g.newtonSystem (bindingOf p o) with
    | none => simp
    | some system => simp [LinearSystem.items]
  unfold integratorItems Integrator.constants
  rw [List.append_assoc, List.mem_append]
  constructor
  · intro h
    simp only [List.mem_cons, List.not_mem_nil, or_false, reduceCtorEq, false_or, Item.constants.injEq] at h
    rcases h with (⟨hname, -⟩ | ⟨hname, -⟩ | h) | h
    · exact absurd hname (ne_stepSizeName g (by decide))
    · exact absurd hname (ne_stepSizeName g (by decide))
    · cases hsteps : (bindingOf p o).stepSize with
      | uniform step =>
        rw [hsteps] at h
        cases h
      | perInterval steps =>
        rw [hsteps] at h
        cases h
        rfl
    · exact absurd h hsystem
  · intro h
    rw [h]
    exact .inl (by simp)

theorem function_mem_items : function g (bindingOf p o) ∈ Item.functions (integratorItems p o g) := by
  rw [functions_integratorItems]
  exact List.mem_append_right _ (List.mem_singleton_self _)

variable (k : Strategy)

/-- The function that calls the integrator. -/
def simulation : Function where
  prototype := (solverWith p o k (linkTo p o g)).simulationPrototype
  body := (solverWith p o k (linkTo p o g)).simulationBody (linkTo p o g)

theorem simulation_mem_items : simulation p o g k ∈ Item.functions (solverItems p o k g) := by
  rw [functions_solverItems]
  exact List.mem_cons_self

/-- The call of the integrator. -/
def integrateCall : Call :=
  ⟨g.functionName, [Arg.array (Solver.work "state"), .value 1] ++
    if (bindingOf p o).stepSize.isPerInterval then [.value Solver.interval] else []⟩

theorem calls_simulation : (simulation p o g k).body.calls = [integrateCall p o g] := Solver.calls_simulationBody _ _

theorem index_mem_args :
    (integrateCall p o g).args[2]? = some (.value (.var "run1")) ↔ (bindingOf p o).stepSize.isPerInterval = true := by
  unfold integrateCall
  cases (bindingOf p o).stepSize.isPerInterval with
  | false => simp
  | true => simp [Solver.interval]

theorem length_args :
    (integrateCall p o g).args.length = (g.prototype (bindingOf p o)).params.length := by
  unfold integrateCall prototype
  cases (bindingOf p o).stepSize.isPerInterval <;> rfl

/-- The number of steps is a macro if and only if the grid is equidistant. -/
theorem value?_stepsPerInterval :
    (assemble p o k g).constants.value? "RK_NIS" = none ↔ p.hasEquidistantGrid = false := by
  rw [(Constants.macroValues _).stepsPerInterval]
  change (if p.hasEquidistantGrid then some _ else none) = none ↔ _
  cases p.hasEquidistantGrid with
  | false => simp
  | true => simp

theorem occursIn_call (st : Style) :
    OccursIn ((integrateCall p o g).render st) ((solverItems p o k g).flatMap (Item.lines st)) := by
  have hcall : integrateCall p o g ∈ (simulation p o g k).body.calls := by
    rw [calls_simulation]
    exact List.mem_singleton_self _
  exact .of_body (simulation_mem_items p o g k) (Stmt.occursIn_of_mem_calls hcall)

/-- The line that looks the step of the interval up. -/
theorem occursIn_step (hdiscretized : p.model.discretized = false) (hgrid : p.hasEquidistantGrid = false) (st : Style) :
    OccursIn (st.types.real ++ " h = " ++ (g.stepSizeName ++ "[rk_index]") ++ ";")
      ((integratorItems p o g).flatMap (Item.lines st)) := by
  have hstart : RealExpr.elem (.name g.stepSizeName) (.var "rk_index") ∈
      (function g (bindingOf p o)).body.startsOf "h" := by
    rw [startsOf_function g _ hdiscretized, (stepSize_eq_elem_iff g _).2 ((isPerInterval_bindingOf p o).2 hgrid)]
    exact List.mem_singleton_self _
  have hrender : (RealExpr.elem (.name g.stepSizeName) (.var "rk_index")).render st 0 =
      g.stepSizeName ++ "[rk_index]" := by
    change g.stepSizeName ++ "[" ++ "rk_index" ++ "]" = _
    simp only [String.append_assoc]
    rfl
  have hleft : st.types.real ++ " " ++ "h" ++ " = " = st.types.real ++ " h = " := by
    simp only [String.append_assoc]
    rfl
  rw [← hleft, ← hrender]
  exact .of_body (function_mem_items p o g) (Stmt.occursIn_of_mem_startsOf hstart)

end Plans

/-- The function of the integrator, the simulation, which calls it once, and the header agree on the index of the
interval. -/
structure IndexThreaded (p : Problem) (plan : Plan) (is js : List Item) (integrate simulation : Function) (call : Call) :
    Prop where
  integrate_defined : integrate ∈ Item.functions is
  integrate_declared : integrate.prototype ∈ prototypes plan
  simulation_defined : simulation ∈ Item.functions js
  simulation_declared : simulation.prototype = plan.solver.simulationPrototype
  only_call : simulation.body.calls = [call]
  called : call.function = integrate.prototype.name ∧ integrate.prototype.name = plan.integrator.functionName
  agree : List.TFAE [
    p.hasEquidistantGrid = false,
    integrate.prototype.params[2]? = some (.intValue "rk_index"),
    ∃ l, plan.integrator.link = .ok l ∧ l.takesIndex = true,
    ∃ hs, .constants plan.integrator.stepSizeName hs ∈ is,
    call.args[2]? = some (.value (.var "run1")),
    plan.constants.value? "RK_NIS" = none]
  entries : p.check = .ok () → ∀ hs, .constants plan.integrator.stepSizeName hs ∈ is → hs.length = p.horizon
  step : p.model.discretized = false →
    (integrate.body.startsOf "h" = [.elem (.name plan.integrator.stepSizeName) (.var "rk_index")] ↔
      p.hasEquidistantGrid = false)
  arity : call.args.length = integrate.prototype.params.length
  call_written : ∀ st : Style, OccursIn (call.render st) (js.flatMap (Item.lines st))
  step_written : p.model.discretized = false → p.hasEquidistantGrid = false → ∀ st : Style,
    OccursIn (st.types.real ++ " h = " ++ (plan.integrator.stepSizeName ++ "[rk_index]") ++ ";")
      (is.flatMap (Item.lines st))

theorem indexThreaded_assemble (p : Problem) (o : Options) (k : Strategy) (g : Integrator) :
    IndexThreaded p (assemble p o k g) (integratorItems p o g) (solverItems p o k g) (function g (bindingOf p o))
      (simulation p o g k) (integrateCall p o g) where
  integrate_defined := function_mem_items p o g
  integrate_declared := List.mem_append_left _ (List.mem_append_right _ (List.mem_singleton_self _))
  simulation_defined := simulation_mem_items p o g k
  simulation_declared := rfl
  only_call := calls_simulation p o g k
  called := ⟨rfl, rfl⟩
  agree := by
    have hgrid := isPerInterval_bindingOf p o
    tfae_have 1 ↔ 2 := hgrid.symm.trans (index_mem_params g (bindingOf p o)).symm
    tfae_have 1 ↔ 3 := by
      rw [← hgrid]
      refine ⟨fun h => ⟨linkTo p o g, rfl, h⟩, ?_⟩
      rintro ⟨l, hl, hindex⟩
      cases hl
      exact hindex
    tfae_have 1 ↔ 4 := by
      rw [← hgrid, StepSize.isPerInterval_iff]
      exact exists_congr fun hs => (constants_mem_iff p o g).symm
    tfae_have 1 ↔ 5 := hgrid.symm.trans (index_mem_args p o g).symm
    tfae_have 1 ↔ 6 := (value?_stepsPerInterval p o g k).symm
    tfae_finish
  entries := by
    intro hcheck hs hmem
    exact length_of_perInterval (Problem.check_ok hcheck) ((constants_mem_iff p o g).1 hmem)
  step := by
    intro hdiscretized
    have hstart : (function g (bindingOf p o)).body.startsOf "h" = [g.stepSize (bindingOf p o)] :=
      startsOf_function g _ hdiscretized
    rw [hstart, List.singleton_inj, ← isPerInterval_bindingOf p o]
    exact stepSize_eq_elem_iff g _
  arity := length_args p o g
  call_written := occursIn_call p o g k
  step_written := occursIn_step p o g

/-- In every plan, the parts of the generated files agree on the index of the interval: the solver calls the integrator with
as many arguments as there are parameters, and with the index if and only if the grid is not equidistant. -/
theorem index_threaded {p : Problem} {o : Options} {r : Registry} {plan : Plan} (hresolve : resolve p o r = .ok plan) :
    ∃ is js integrate simulation call, plan.integrator.items = .ok is ∧ plan.solver.items = .ok js ∧
      IndexThreaded p plan is js integrate simulation call := by
  obtain ⟨g, k, -, rfl, -⟩ := resolve_assemble hresolve
  exact ⟨_, _, _, _, _, items_integrator p o k g, items_solver p o k g, indexThreaded_assemble p o k g⟩

/-- Two intervals of different lengths. -/
def unevenProblem : Problem := { smallProblem with grid := { TimeGrid.unit with points := some [0.0, 0.25, 1.0] } }

theorem index_threaded_unevenProblem :
    ∃ plan is js integrate simulation call, resolve unevenProblem {} .builtin = .ok plan ∧
      plan.integrator.items = .ok is ∧ plan.solver.items = .ok js ∧
      IndexThreaded unevenProblem plan is js integrate simulation call ∧
      (∃ hs, .constants plan.integrator.stepSizeName hs ∈ is ∧ hs.length = 2) ∧
      call.args[2]? = some (.value (.var "run1")) := by
  have hresolve : ∃ plan, resolve unevenProblem {} .builtin = .ok plan := ⟨_, by rfl⟩
  obtain ⟨plan, hresolve⟩ := hresolve
  have huneven : unevenProblem.hasEquidistantGrid = false := by decide
  obtain ⟨is, js, integrate, simulation, call, his, hjs, hthreaded⟩ := index_threaded hresolve
  refine ⟨plan, is, js, integrate, simulation, call, hresolve, his, hjs, hthreaded, ?_, ?_⟩
  · obtain ⟨hs, hmem⟩ := (hthreaded.agree.out 0 3).1 huneven
    exact ⟨hs, hmem, hthreaded.entries (by rfl) hs hmem⟩
  · exact (hthreaded.agree.out 0 4).1 huneven

end Export

end ControlCodegen
