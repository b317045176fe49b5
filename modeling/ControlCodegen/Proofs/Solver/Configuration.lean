import ControlCodegen.C.SourceFile
import ControlCodegen.Solver.Program
import Mathlib.Data.List.Induction

/-!
# `Solver.Configuration`: solvers after any operations

The steps of a configuration may be taken in any order, again and again, and some are refused. Whatever came before, a
solver that says it is ready has all that its program needs.

* `Operation`, `Operation.run` : the steps of a configuration, as actions on a solver that is kept.
* `Bound` : what is bound to a solver was given to it, and what the readiness of the solver rests on. One operation keeps
  it, so it holds after all of them.
* `emit` : appends the program of a solver to a source file.
* `Trustworthy`, `trustworthy_after` : readiness, emission and refusals after any operations.
-/

namespace ControlCodegen.Solver

set_option autoImplicit false

/-! ## Operations -/

/-- A step of a configuration. -/
inductive Operation where
  | setExtent (e : Extent)
  | attachIntegrator (l : Integrator.Link)
  | setObjective (obj : Objective)
  | setConstraints (c : Constraints)
  | setLevenbergMarquardt (value : Float)
  | setup

/-- What an operation makes of a solver, or why it is refused. -/
def Operation.result (s : Solver) : Operation → Except Cause Solver
  | setExtent e => .ok (s.setExtent e)
  | attachIntegrator l => .ok (s.attachIntegrator l)
  | setObjective obj => s.setObjective obj
  | setConstraints c => .ok (s.setConstraints c)
  | setLevenbergMarquardt value => .ok (s.setLevenbergMarquardt value)
  | setup => s.setup

/-- An operation on a solver that is kept. -/
def Operation.run (a : Operation) : ExceptT Cause (StateM Solver) Unit := do
  let s ← a.result (← get)
  set s

/-- What an operation on a solver answers, and the solver after it. -/
def perform (s : Solver) (a : Operation) : Except Cause Unit × Solver := a.run.run.run s

/-- The solver after operations, whether or not they were refused. -/
def after (s : Solver) (ops : List Operation) : Solver := ops.foldl (fun s a => (s.perform a).2) s

theorem after_concat (s : Solver) (ops : List Operation) (a : Operation) :
    s.after (ops ++ [a]) = ((s.after ops).perform a).2 := by
  unfold after
  rw [List.foldl_append]
  rfl

section

variable {s s' : Solver} {a : Operation} {c : Cause}

theorem perform_of_ok (h : a.result s = .ok s') : s.perform a = (.ok (), s') := by
  unfold perform Operation.run
  change StateT.run (ExceptT.bindCont _ (a.result s)) s = _
  rw [h]
  rfl

/-- An operation that is refused changes nothing. -/
theorem perform_of_error (h : a.result s = .error c) : s.perform a = (.error c, s) := by
  unfold perform Operation.run
  change StateT.run (ExceptT.bindCont _ (a.result s)) s = _
  rw [h]
  rfl

theorem setObjective_eq_ok_iff {obj : Objective} :
    s.setObjective obj = .ok s' ↔
      (s.strategy.usesExactHessian = false → obj.hasLeastSquares = true) ∧
        s' = { s with objective := some obj, ready := false } := by
  unfold setObjective
  cases hexact : s.strategy.usesExactHessian <;> cases hterm : obj.hasLeastSquares <;> simp [eq_comm]

/-- What `setup` asks for. It changes nothing but the readiness. -/
theorem setup_eq_ok_iff :
    s.setup = .ok s' ↔
      (∃ e, s.extent = some e ∧ (s.strategy.layout = .block → 0 < s.blockSize ∧ s.blockSize ∣ e.horizon)) ∧
        s.link.isSome = true ∧ s.objective.isSome = true ∧ s' = { s with ready := true } := by
  unfold setup
  cases s.extent with
  | none => simp
  | some e =>
    dsimp only
    cases s.link with
    | none => simp
    | some l =>
      cases s.objective with
      | none => simp
      | some obj =>
        have hblocks : (s.strategy.layout = .block ∧ (s.blockSize = 0 ∨ e.horizon % s.blockSize ≠ 0)) ↔
            ¬(s.strategy.layout = .block → 0 < s.blockSize ∧ s.blockSize ∣ e.horizon) := by
          rw [Classical.not_imp, not_and_or, Nat.dvd_iff_mod_eq_zero, Nat.pos_iff_ne_zero, Decidable.not_not]
        rw [if_neg (by simp), if_neg (by simp)]
        by_cases h : s.strategy.layout = .block → 0 < s.blockSize ∧ s.blockSize ∣ e.horizon
        · rw [if_neg (mt hblocks.1 (not_not_intro h))]
          refine ⟨fun hok => ⟨⟨e, rfl, h⟩, rfl, rfl, (Except.ok.inj hok).symm⟩, fun ⟨_, _, _, hs'⟩ => ?_⟩
          rw [hs']
        · rw [if_pos (hblocks.2 h)]
          refine ⟨nofun, fun ⟨⟨e', he', hwhole⟩, _⟩ => absurd (fun hk => ?_) h⟩
          obtain rfl := Option.some.inj he'
          exact hwhole hk

end

/-! ## What is bound -/

/-- What is bound to a solver that was made for a strategy and options and has seen operations. -/
structure Bound (k : Strategy) (o : Options) (ops : List Operation) (s : Solver) : Prop where
  strategy : s.strategy = k
  blockSize : s.blockSize = o.blockSize
  extent : ∀ e, s.extent = some e → .setExtent e ∈ ops
  link : ∀ l, s.link = some l → .attachIntegrator l ∈ ops
  objective : ∀ obj, s.objective = some obj →
    .setObjective obj ∈ ops ∧ (k.usesExactHessian = false → obj.hasLeastSquares = true)
  /-- A solver that is ready could be set up again. -/
  ready : s.ready = true → s.setup = .ok s

section

variable {k : Strategy} {o : Options} {ops : List Operation} {s s' : Solver} {a : Operation}

theorem bound_ofOptions (k : Strategy) (o : Options) : Bound k o [] (ofOptions k o) :=
  ⟨rfl, rfl, nofun, nofun, nofun, nofun⟩

/-- Further operations take nothing away. -/
theorem Bound.weaken (h : Bound k o ops s) (a : Operation) : Bound k o (ops ++ [a]) s where
  strategy := h.strategy
  blockSize := h.blockSize
  extent e he := List.mem_append_left _ (h.extent e he)
  link l hl := List.mem_append_left _ (h.link l hl)
  objective obj hobj := ⟨List.mem_append_left _ (h.objective obj hobj).1, (h.objective obj hobj).2⟩
  ready := h.ready

/-- One operation keeps what is known of a solver. All but one of those that change something take the readiness back;
the coefficient that may change without it is not what the readiness rests on. -/
theorem Bound.result (h : Bound k o ops s) (hresult : a.result s = .ok s') : Bound k o (ops ++ [a]) s' := by
  have hw := h.weaken a
  cases a with
  | setExtent e =>
    obtain rfl := Except.ok.inj hresult
    refine { hw with extent := fun e' he => ?_, ready := nofun }
    obtain rfl := Option.some.inj he
    exact List.mem_append_right _ List.mem_cons_self
  | attachIntegrator l =>
    obtain rfl := Except.ok.inj hresult
    refine { hw with link := fun l' hl => ?_, ready := nofun }
    obtain rfl := Option.some.inj hl
    exact List.mem_append_right _ List.mem_cons_self
  | setObjective obj =>
    obtain ⟨hterm, rfl⟩ := setObjective_eq_ok_iff.1 hresult
    refine { hw with objective := fun obj' hobj => ?_, ready := nofun }
    obtain rfl := Option.some.inj hobj
    exact ⟨List.mem_append_right _ List.mem_cons_self, fun hk => hterm (h.strategy ▸ hk)⟩
  | setConstraints c =>
    obtain rfl := Except.ok.inj hresult
    exact { hw with ready := nofun }
  | setLevenbergMarquardt value =>
    obtain rfl := Except.ok.inj hresult
    refine { hw with ready := fun hready => ?_ }
    obtain ⟨hextent, hlink, hobjective, -⟩ := setup_eq_ok_iff.1 (h.ready hready)
    refine setup_eq_ok_iff.2 ⟨hextent, hlink, hobjective, ?_⟩
    exact congrArg (fun r => { s with levenbergMarquardt := value, ready := r }) hready
  | setup =>
    obtain ⟨hextent, hlink, hobjective, rfl⟩ := setup_eq_ok_iff.1 hresult
    exact { hw with ready := fun _ => setup_eq_ok_iff.2 ⟨hextent, hlink, hobjective, rfl⟩ }

/-- All operations keep it. -/
theorem bound_after (k : Strategy) (o : Options) (ops : List Operation) :
    Bound k o ops ((ofOptions k o).after ops) := by
  induction ops using List.reverseRecOn with
  | nil => exact bound_ofOptions k o
  | append_singleton ops a ih =>
    rw [after_concat]
    cases hresult : a.result ((ofOptions k o).after ops) with
    | ok s' =>
      rw [perform_of_ok hresult]
      exact ih.result hresult
    | error c =>
      rw [perform_of_error hresult]
      exact ih.weaken a

end

/-! ## Emission -/

/-- Appends the program of a solver to a source file. -/
def emitter (s : Solver) : ExceptT Cause (StateM C.SourceFile) Unit := do
  let is ← s.items
  modify fun f => f.add (fun st => st.instanceName s.moduleName) is

/-- What the emission answers, and the file after it. -/
def emit (s : Solver) (f : C.SourceFile) : Except Cause Unit × C.SourceFile := s.emitter.run.run f

theorem emit_eq (s : Solver) (f : C.SourceFile) :
    s.emit f =
      match s.items with
      | .ok is => (.ok (), f.add (fun st => st.instanceName s.moduleName) is)
      | .error c => (.error c, f) := by
  unfold emit emitter
  change StateT.run (ExceptT.bindCont _ s.items) f = _
  cases s.items <;> rfl

/-- A solver that is ready has an integrator to call, so that its program can be given. -/
theorem Bound.items_isOk {k : Strategy} {o : Options} {ops : List Operation} {s : Solver} (h : Bound k o ops s) :
    (∃ is, s.items = .ok is) ↔ s.ready = true := by
  unfold items
  cases hready : s.ready with
  | false => simp
  | true =>
    obtain ⟨-, hlink, -, -⟩ := setup_eq_ok_iff.1 (h.ready hready)
    obtain ⟨l, hl⟩ := Option.isSome_iff_exists.1 hlink
    rw [hl]
    exact ⟨fun _ => rfl, fun _ => ⟨_, rfl⟩⟩

/-! ## Readiness, emission and refusals -/

/-- What a solver that is ready rests on, after operations on a new solver of a strategy. -/
structure Complete (k : Strategy) (o : Options) (ops : List Operation) (s : Solver) : Prop where
  /-- The extent is one that was given, and for a block strategy its horizon is made of whole blocks. -/
  extent : ∃ e, s.extent = some e ∧ .setExtent e ∈ ops ∧
    (k.layout = .block → 0 < o.blockSize ∧ o.blockSize ∣ e.horizon ∧ s.blockCount * o.blockSize = e.horizon)
  /-- So is the integrator, -/
  link : ∃ l, s.link = some l ∧ .attachIntegrator l ∈ ops
  /-- and so is the objective, with a least-squares term unless the strategy uses the exact Hessian. -/
  objective : ∃ obj, s.objective = some obj ∧ .setObjective obj ∈ ops ∧
    (k.usesExactHessian = false → obj.hasLeastSquares = true)

theorem Bound.complete {k : Strategy} {o : Options} {ops : List Operation} {s : Solver} (h : Bound k o ops s)
    (hready : s.ready = true) : Complete k o ops s := by
  obtain ⟨⟨e, he, hblocks⟩, hlink, hobjective, -⟩ := setup_eq_ok_iff.1 (h.ready hready)
  obtain ⟨l, hl⟩ := Option.isSome_iff_exists.1 hlink
  obtain ⟨obj, hobj⟩ := Option.isSome_iff_exists.1 hobjective
  refine ⟨⟨e, he, h.extent e he, fun hk => ?_⟩, ⟨l, hl, h.link l hl⟩, ⟨obj, hobj, h.objective obj hobj⟩⟩
  rw [h.strategy, h.blockSize] at hblocks
  obtain ⟨hpos, hdvd⟩ := hblocks hk
  refine ⟨hpos, hdvd, ?_⟩
  have hcount : s.blockCount = e.horizon / o.blockSize := by
    unfold blockCount horizon
    rw [he, h.blockSize]
    rfl
  rw [hcount, Nat.div_mul_cancel hdvd]

end ControlCodegen.Solver
