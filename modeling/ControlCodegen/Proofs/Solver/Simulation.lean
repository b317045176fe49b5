import ControlCodegen.Proofs.C.Fill
import ControlCodegen.Proofs.Solver.Bounds

/-!
# `Solver.Simulation`: what the generated simulation does

* `load`, `keep` : memory when the integrator is called for an interval, and when the interval is done.
* `simulate`, `called` : the status and the memory after so many intervals, whatever stands in the place of the
  integrator, and the memory in which that is called.
* `simulationOver` : the generated function, ended after so many intervals.
* `meets_simulationOver` : the first intervals of the generated function compute just that, if they come to an end.
* `invoke_simulation`, `invoke_simulationOver` : they do where the integrator comes back, and so do all intervals.
* `Written` : the elements in which the results of an interval are kept. Later intervals leave them alone.

The integrator is a function of its arguments and of memory; nothing else is asked of it.
-/

namespace ControlCodegen.Solver

open C C.IntExpr C.Stmt

set_option autoImplicit false

/-! ## The function -/

section Specification

variable {R : Type}

/-- The augmented state. -/
def stateBlock : Block := .member .workspace "state"

/-- A row of a trajectory. -/
def row (m : Memory R) (trajectory : String) (width k : Nat) : Nat → R := fun j =>
  m.reals (.member .vars trajectory) (k * width + j)

/-- Loading a part of the state leaves the trajectories alone. -/
theorem row_fill_state (m : Memory R) (first n : Nat) (f : Nat → R) (trajectory : String) (width k : Nat) :
    row (m.fill stateBlock first n f) trajectory width k = row m trajectory width k := by
  have hne : Block.member .vars trajectory ≠ stateBlock := by
    unfold stateBlock
    simp
  unfold row
  rw [Memory.reals_fill_of_ne hne]

/-- Memory when the integrator is called: the state has the rows of the interval. -/
def load (s : Solver) (l : Integrator.Link) (k : Nat) (m : Memory R) : Memory R :=
  ((m.fill stateBlock 0 s.dims.nx (row m "x" s.dims.nx k)).fill stateBlock l.integratedLength s.dims.nu
    (row m "u" s.dims.nu k)).fill stateBlock (l.integratedLength + s.dims.nu) s.dims.nod (row m "od" s.dims.nod k)

/-- Memory when an interval is done: its defects and its sensitivities are taken from the state. -/
def keep [Arithmetic R] (s : Solver) (k : Nat) (m : Memory R) : Memory R :=
  let nx := s.dims.nx
  let nu := s.dims.nu
  let state := m.reals stateBlock
  ((m.fill (.member .workspace "d") (k * nx) nx
    fun j => Arithmetic.sub (state j) (m.reals (.member .vars "x") (k * nx + nx + j))).fill
      (.member .workspace "evGx") (k * (nx * nx)) (nx * nx) fun j => state (nx + j)).fill
        (.member .workspace "evGu") (k * (nx * nu)) (nx * nu) fun j => state (nx + nx * nx + j)

/-- The arguments of the integrator in an interval. -/
def integratorArguments (l : Integrator.Link) (length k : Nat) : List Value :=
  [.array ⟨stateBlock, 0, length⟩, .int 1] ++ if l.takesIndex then [.int k] else []

/-- The status and the memory after so many intervals. The first status that is not zero ends it. -/
def simulate [Arithmetic R] (s : Solver) (l : Integrator.Link) (integrate : Nat → Memory R → Int × Memory R) :
    Nat → Memory R → Int × Memory R
  | 0, m => (0, m)
  | k + 1, m =>
    let done := simulate s l integrate k m
    if done.1 ≠ 0 then done
    else
      let after := integrate k (load s l k done.2)
      if after.1 ≠ 0 then after else (0, keep s k after.2)

/-- The generated simulation, ended after so many intervals. -/
def simulationOver (s : Solver) (l : Integrator.Link) (n : Nat) : Function :=
  ⟨s.simulationPrototype, simulationBody { s with extent := some ⟨n, s.dims⟩ } l⟩

/-- Memory when the integrator is called for an interval. -/
def called [Arithmetic R] (s : Solver) (l : Integrator.Link) (integrate : Nat → Memory R → Int × Memory R) (m : Memory R)
    (k : Nat) : Memory R :=
  load s l k (simulate s l integrate k m).2

end Specification

/-! ## Loops over a row -/

section Rows

variable {R : Type} [Arithmetic R] {E : Fault → Prop} {ctx : Context R} {D : Answer R → Memory R → Prop}

/-- In the round of an interval, with a status of the integrator. -/
structure At (k : Nat) (status : Int) (m : Memory R) (τ : State R) : Prop where
  run : τ.ints "run1" = some (k : Int)
  ret : τ.ints "ret" = some status
  memory : τ.memory = m

variable {k : Nat} {status : Int} {m : Memory R} {τ : State R}

omit [Arithmetic R] in
theorem At.known (h : At k status m τ) : (Known.none.set "run1" (some (k : Int))).Of τ.ints := Known.of_single h.run

omit [Arithmetic R] in
/-- A loop over a row moves its own counter and no other. -/
theorem At.fill (h : At k status m τ) {b : Block} {first n : Nat} {f : Nat → R} :
    At k status (m.fill b first n f) ((τ.withMemory (τ.memory.fill b first n f)).setInt "i" n) := by
  refine ⟨?_, ?_, ?_⟩
  · rw [State.ints_setInt_of_ne _ _ (by decide)]
    exact h.run
  · rw [State.ints_setInt_of_ne _ _ (by decide)]
    exact h.ret
  · rw [State.memory_setInt, State.memory_withMemory, h.memory]

theorem counts_row (k j width : Nat) :
    (interval * .lit width + i).Counts ((Known.none.set "run1" (some (k : Int))).set "i" (some (j : Int)))
      (k * width + j) := by
  have hrun := counts_set_of_ne (counts_set_self Known.none "run1" k) (show "run1" ≠ "i" by decide) (some (j : Int))
  exact (hrun.mul (counts_lit width)).add (counts_set_self _ "i" j)

theorem counts_offset (ρ : Known) (n j : Nat) : (IntExpr.lit n + i).Counts (ρ.set "i" (some (j : Int))) (n + j) :=
  (counts_lit n).add (counts_set_self _ "i" j)

theorem loadState_runs (h : At k status m τ) {offset : Option Nat} {width : Nat} {source : String}
    (hstate : offset.getD 0 + width ≤ ctx.size .workspace "state")
    (hsource : k * width + width ≤ ctx.size .vars source) :
    Runs E ctx (loadState offset width source) τ
      (At k status (m.fill stateBlock (offset.getD 0) width (row m source width k))) D := by
  have hne : (Block.member .vars source) ≠ stateBlock := by
    unfold stateBlock
    simp
  unfold loadState
  refine Runs.each_copy h.known rfl rfl hne hstate hsource (fun j _ => ?_) (fun j _ => counts_row k j width) ?_
  · cases offset with
    | none =>
      have hi := counts_set_self (Known.none.set "run1" (some (k : Int))) "i" j
      rw [Option.getD_none, Nat.zero_add]
      exact hi
    | some n => exact counts_offset _ n j
  · have hrow : (fun j => τ.memory.reals (.member .vars source) (0 + (k * width + j))) = row m source width k := by
      funext j
      rw [h.memory, Nat.zero_add]
      rfl
    dsimp only
    rw [hrow, Nat.zero_add]
    exact h.fill

theorem storeRows_runs (h : At k status m τ) {target : String} {width offset : Nat} (htarget : target ≠ "state")
    (hstate : offset + width ≤ ctx.size .workspace "state")
    (hroom : k * width + width ≤ ctx.size .workspace target) :
    Runs E ctx (storeRows target width offset) τ
      (At k status (m.fill (.member .workspace target) (k * width) width fun j => m.reals stateBlock (offset + j))) D := by
  have hne : stateBlock ≠ Block.member .workspace target := by
    unfold stateBlock
    simpa using htarget.symm
  unfold storeRows
  refine Runs.each_copy h.known rfl rfl hne hroom hstate (fun j _ => counts_row k j width)
    (fun j _ => counts_offset _ offset j) ?_
  have hrow : (fun j => τ.memory.reals (.member .workspace "state") (0 + (offset + j))) =
      fun j => m.reals stateBlock (offset + j) := by
    funext j
    rw [h.memory, Nat.zero_add]
    rfl
  dsimp only
  rw [hrow, Nat.zero_add]
  exact h.fill

theorem defects_runs (h : At k status m τ) {nx : Nat} (hstate : nx ≤ ctx.size .workspace "state")
    (hx : k * nx + nx + nx ≤ ctx.size .vars "x") (hd : k * nx + nx ≤ ctx.size .workspace "d") :
    Runs E ctx
      (.each "i" nx .inline
        (.assign ((work "d").entry (interval * .lit nx + i)) .set
          (.elem (work "state") i - .elem (var "x") (interval * .lit nx + .lit nx + i)))) τ
      (At k status (m.fill (.member .workspace "d") (k * nx) nx
        fun j => Arithmetic.sub (m.reals stateBlock j) (m.reals (.member .vars "x") (k * nx + nx + j)))) D := by
  let f : Nat → R := fun j => Arithmetic.sub (m.reals stateBlock j) (m.reals (.member .vars "x") (k * nx + nx + j))
  refine Runs.each_fill (f := f) h.known rfl hd (fun j _ => counts_row k j nx) (fun j hj => ?_) ?_
  · have hrun := counts_set_of_ne (counts_set_self Known.none "run1" k) (show "run1" ≠ "i" by decide) (some (j : Int))
    have hi := counts_set_self (Known.none.set "run1" (some (k : Int))) "i" j
    have hnext := ((hrun.mul (counts_lit nx)).add (counts_lit nx)).add hi
    let σ : State R := (τ.withMemory (τ.memory.fill (.member .workspace "d") (0 + k * nx) j f)).setInt "i" j
    have hσ : ((Known.none.set "run1" (some (k : Int))).set "i" (some (j : Int))).Of σ.ints :=
      h.known.set "i" (.inr rfl)
    have hread : ∀ b, b ≠ Block.member .workspace "d" → σ.memory.reals b = m.reals b := by
      intro b hb
      rw [← h.memory]
      exact Memory.reals_fill_of_ne hb
    have hstate : (RealExpr.elem (work "state") i).eval ctx.size σ = .ok (m.reals stateBlock j) := by
      rw [← hread stateBlock (by unfold stateBlock; simp)]
      exact RealExpr.eval_member (hi.eval hσ) (by omega)
    have hx : (RealExpr.elem (var "x") (interval * .lit nx + .lit nx + i)).eval ctx.size σ =
        .ok (m.reals (.member .vars "x") (k * nx + nx + j)) := by
      rw [← hread (.member .vars "x") (by simp)]
      exact RealExpr.eval_member (hnext.eval hσ) (by omega)
    change RealExpr.eval ctx.size σ (.sub _ _) = _
    rw [RealExpr.eval, hstate, hx]
    rfl
  · dsimp only
    rw [Nat.zero_add]
    exact h.fill

end Rows

/-! ## Intervals -/

section Intervals

variable {R : Type} [Arithmetic R] {E : Fault → Prop} {ctx : Context R} {s : Solver} {l : Integrator.Link} {S : Scope}
  {integrate : Nat → Memory R → Int × Memory R} {k n : Nat} {m : Memory R} {τ : State R}

/-- A function stands in the place of the integrator, in the one memory in which it is called for an interval. -/
def Stands (ctx : Context R) (s : Solver) (l : Integrator.Link) (integrate : Nat → Memory R → Int × Memory R)
    (before : Nat → Memory R) : Prop :=
  ∀ k < s.horizon, ctx.call l.function (integratorArguments l (ctx.size .workspace "state") k) (before k) =
    .ok (.int (integrate k (before k)).1, (integrate k (before k)).2)

/-- The rows of an interval are loaded. Where there are no online data there is nothing to load. -/
theorem load_runs (hS : Room s l S) (hsize : ctx.size = S.size) (hk : k < s.horizon) (h : At k 0 m τ)
    {rest : List Stmt} {N : State R → Prop} {D : Answer R → Memory R → Prop}
    (hrest : ∀ τ, At k 0 (load s l k m) τ → Runs E ctx (.block rest) τ N D) :
    Runs E ctx (.block ([loadState none s.dims.nx "x", loadState (some l.integratedLength) s.dims.nu "u"] ++
      (if 0 < s.dims.nod then [loadState (some (l.integratedLength + s.dims.nu)) s.dims.nod "od"] else []) ++ rest))
      τ N D := by
  have hstate : l.length ≤ ctx.size .workspace "state" := by
    rw [hsize]
    exact hS.state
  have hsens := hS.sensitivities
  have hinputs := hS.inputs
  have hrow : ∀ trajectory rows width, rows * width ≤ S.length (var trajectory) → k < rows →
      k * width + width ≤ ctx.size .vars trajectory := by
    intro trajectory rows width hroom hk
    rw [hsize]
    exact Nat.le_trans (row_end_le width hk) hroom
  have hx := hrow "x" _ _ hS.x (Nat.lt_succ_of_lt hk)
  have hu := hrow "u" _ _ hS.u hk
  have hod := hrow "od" _ _ hS.od (Nat.lt_succ_of_lt hk)
  refine Runs.block_cons (loadState_runs h (by simp; omega) hx) fun τ₁ h₁ => ?_
  refine Runs.block_cons (loadState_runs h₁ (by simp; omega) ?_) fun τ₂ h₂ => ?_
  · exact hu
  by_cases hnod : 0 < s.dims.nod
  · rw [if_pos hnod]
    refine Runs.block_cons (loadState_runs h₂ (by simp; omega) hod) fun τ₃ h₃ => hrest τ₃ ?_
    rw [row_fill_state, row_fill_state, row_fill_state] at h₃
    exact h₃
  · rw [if_neg hnod]
    refine hrest τ₂ ?_
    rw [row_fill_state] at h₂
    unfold load
    rw [Nat.eq_zero_of_not_pos hnod, Memory.fill_zero]
    exact h₂

/-- The results of the interval are kept. -/
theorem keep_runs (hS : Room s l S) (hsize : ctx.size = S.size) (hk : k < s.horizon) (h : At k 0 m τ)
    {D : Answer R → Memory R → Prop} :
    Runs E ctx (.block [
      .each "i" s.dims.nx .inline
        (.assign ((work "d").entry (interval * .lit s.dims.nx + i)) .set
          (.elem (work "state") i - .elem (var "x") (interval * .lit s.dims.nx + .lit s.dims.nx + i))),
      storeRows "evGx" (s.dims.nx * s.dims.nx) s.dims.nx,
      storeRows "evGu" (s.dims.nx * s.dims.nu) (s.dims.nx + s.dims.nx * s.dims.nx)]) τ (At k 0 (keep s k m)) D := by
  have hstate : l.length ≤ ctx.size .workspace "state" := by
    rw [hsize]
    exact hS.state
  have hsens := hS.sensitivities
  have hinputs := hS.inputs
  have hroom : ∀ owner target width, s.horizon * width ≤ S.length (.member owner target) →
      k * width + width ≤ ctx.size owner target := by
    intro owner target width hroom
    rw [hsize]
    exact Nat.le_trans (row_end_le width hk) hroom
  have hd := hroom _ _ _ hS.d
  have hevGx := hroom .workspace "evGx" (s.dims.nx * s.dims.nx) (by rw [← Nat.mul_assoc]; exact hS.evGx)
  have hevGu := hroom .workspace "evGu" (s.dims.nx * s.dims.nu) (by rw [← Nat.mul_assoc]; exact hS.evGu)
  have hx : k * s.dims.nx + s.dims.nx + s.dims.nx ≤ ctx.size .vars "x" := by
    rw [hsize]
    refine Nat.le_trans ?_ hS.x
    rw [Nat.succ_mul]
    exact Nat.add_le_add_right (row_end_le _ hk) _
  refine Runs.block_cons (defects_runs h (by omega) hx hd) fun τ₁ h₁ => ?_
  refine Runs.block_cons (storeRows_runs h₁ (by decide) (by omega) hevGx) fun τ₂ h₂ => ?_
  refine (storeRows_runs h₂ (by decide) (by omega) hevGu).mono (fun τ₃ h₃ => ?_) fun _ _ h => h
  rw [Memory.reals_fill_of_ne (by unfold stateBlock; simp), Memory.reals_fill_of_ne (by unfold stateBlock; simp)] at h₃
  exact h₃

/-- A status is returned, with memory as it is. -/
theorem returnStatus_runs {status : Int} (h : At k status m τ) {N : State R → Prop} {D : Answer R → Memory R → Prop}
    (hD : D (.int status) m) : Runs E ctx (.returnInt "ret") τ N D := by
  have heval : (IntExpr.var "ret").eval ctx.size τ = .ok status := by
    rw [IntExpr.eval, h.ret]
  unfold Runs
  rw [Stmt.exec]
  change Meets E ((IntExpr.var "ret").eval ctx.size τ >>= _) _
  rw [heval]
  change D (.int status) τ.memory
  rw [h.memory]
  exact hD

/-- The integrator is called; what follows is done only if it succeeds. -/
theorem integrate_runs {after : Int × Memory R}
    (hcall : Meets E (ctx.call l.function (integratorArguments l (ctx.size .workspace "state") k) m)
      fun r => r = (.int after.1, after.2))
    (h : At k 0 m τ) {rest : List Stmt} {N : State R → Prop} {D : Answer R → Memory R → Prop}
    (hfail : after.1 ≠ 0 → D (.int after.1) after.2)
    (hrest : after.1 = 0 → ∀ τ, At k 0 after.2 τ → Runs E ctx (.block rest) τ N D) :
    Runs E ctx (.block (
      .assignResult "ret"
          ⟨l.function, [.array (work "state"), .value 1] ++ if l.takesIndex then [.value interval] else []⟩ ::
        .when (.cond (.ne "ret" 0)) .inline (.returnInt "ret") :: rest)) τ N D := by
  have hargs : ([Arg.array (work "state"), .value 1] ++ if l.takesIndex then [Arg.value interval] else []).mapM
      (Arg.eval ctx.size τ) = .ok (integratorArguments l (ctx.size .workspace "state") k) := by
    have hrun : (Arg.value interval).eval ctx.size τ = .ok (.int k) := by
      rw [Arg.eval, interval, IntExpr.eval, h.run]
      rfl
    unfold integratorArguments
    cases l.takesIndex with
    | false => rfl
    | true =>
      change List.mapM (Arg.eval ctx.size τ) [.array (work "state"), .value 1, .value interval] = _
      rw [List.mapM_cons, List.mapM_cons, List.mapM_cons, hrun]
      rfl
  have hcalled : Runs E ctx (.assignResult "ret"
      ⟨l.function, [.array (work "state"), .value 1] ++ if l.takesIndex then [.value interval] else []⟩) τ
      (At k after.1 after.2) D := by
    refine Runs.assignResult (P := fun n m' => n = after.1 ∧ m' = after.2) hargs ?_ ?_
    · rw [h.memory]
      refine hcall.mono fun r hr => ?_
      subst hr
      exact ⟨after.1, rfl, rfl, rfl⟩
    · rintro n m' ⟨rfl, rfl⟩
      exact ⟨(State.ints_setInt_of_ne _ _ (by decide)).trans h.run, State.ints_setInt_self _ _ _, rfl⟩
  have hchecked : ∀ τ', At k after.1 after.2 τ' → Runs E ctx (.when (.cond (.ne "ret" 0)) .inline (.returnInt "ret")) τ'
      (fun τ'' => At k after.1 after.2 τ'' ∧ after.1 = 0) D := by
    intro τ' h'
    have htest : (Test.cond (.ne "ret" 0)).eval ctx.size τ' = .ok (decide (after.1 ≠ 0)) := by
      have hret : (IntExpr.var "ret").eval ctx.size τ' = .ok after.1 := by
        rw [IntExpr.eval, h'.ret]
      rw [Test.eval, Cond.eval, hret]
      rfl
    refine Runs.when htest (fun hfailed => ?_) fun hdone => ?_
    · exact returnStatus_runs h' (hfail (of_decide_eq_true hfailed))
    · exact ⟨h', not_not.1 (of_decide_eq_false hdone)⟩
  refine Runs.block_cons hcalled fun τ₁ h₁ => Runs.block_cons (hchecked τ₁ h₁) fun τ₂ hnext => ?_
  obtain ⟨h₂, hzero⟩ := hnext
  rw [hzero] at h₂
  exact hrest hzero τ₂ h₂

/-- The status and the memory after an interval, from those before it. -/
theorem simulate_succ (hdone : (simulate s l integrate k m).1 = 0) :
    simulate s l integrate (k + 1) m =
      if (integrate k (called s l integrate m k)).1 ≠ 0 then integrate k (called s l integrate m k)
      else (0, keep s k (integrate k (called s l integrate m k)).2) := by
  rw [simulate]
  exact if_neg (not_not.2 hdone)

/-- After a failure nothing is done. -/
theorem simulate_of_failed (hfailed : (simulate s l integrate k m).1 ≠ 0) {j : Nat} (hj : k ≤ j) :
    simulate s l integrate j m = simulate s l integrate k m := by
  induction hj with
  | refl => rfl
  | step hj ih =>
    rw [simulate]
    dsimp only
    rw [ih]
    exact if_pos hfailed

/-- The loop over the first intervals: the invariant is that all intervals so far have succeeded. -/
theorem intervals_runs (hS : Room s l S) (hsize : ctx.size = S.size) (hle : n ≤ s.horizon)
    (hcall : ∀ k < n, Meets E (ctx.call l.function (integratorArguments l (ctx.size .workspace "state") k)
      (called s l integrate m k))
        fun r => r = (.int (integrate k (called s l integrate m k)).1, (integrate k (called s l integrate m k)).2))
    (hret : τ.ints "ret" = some 0) (hm : τ.memory = m) :
    Runs E ctx (.each "run1" n .braces <| .block <|
      [loadState none s.dims.nx "x", loadState (some l.integratedLength) s.dims.nu "u"] ++
        (if 0 < s.dims.nod then [loadState (some (l.integratedLength + s.dims.nu)) s.dims.nod "od"] else []) ++ [
          .assignResult "ret"
            ⟨l.function, [.array (work "state"), .value 1] ++ if l.takesIndex then [.value interval] else []⟩,
          .when (.cond (.ne "ret" 0)) .inline (.returnInt "ret"),
          .each "i" s.dims.nx .inline
            (.assign ((work "d").entry (interval * .lit s.dims.nx + i)) .set
              (.elem (work "state") i - .elem (var "x") (interval * .lit s.dims.nx + .lit s.dims.nx + i))),
          storeRows "evGx" (s.dims.nx * s.dims.nx) s.dims.nx,
          storeRows "evGu" (s.dims.nx * s.dims.nu) (s.dims.nx + s.dims.nx * s.dims.nx)]) τ
      (fun τ' => At n 0 (simulate s l integrate n m).2 τ' ∧ (simulate s l integrate n m).1 = 0)
      fun a m' => a = .int (simulate s l integrate n m).1 ∧ m' = (simulate s l integrate n m).2 := by
  refine Runs.countUp (a := 0) (b := n) (fun k τ => ∃ j : Nat, k = j ∧
    At j 0 (simulate s l integrate j m).2 τ ∧ (simulate s l integrate j m).1 = 0) rfl (fun _ _ _ => rfl) ?_ ?_ ?_ ?_
  · refine ⟨0, rfl, ⟨State.ints_setInt_self _ _ _, ?_, hm⟩, rfl⟩
    rw [State.ints_setInt_of_ne _ _ (by decide)]
    exact hret
  · rintro k τ ⟨j, rfl, h, -⟩
    exact h.run
  · rintro k τ - hk ⟨j, rfl, h, hdone⟩
    have hj : j < n := Int.ofNat_lt.1 hk
    have hnext := simulate_succ hdone
    refine load_runs hS hsize (Nat.lt_of_lt_of_le hj hle) h fun τ₁ h₁ =>
      integrate_runs (hcall j hj) h₁ (fun hfailed => ?_) fun hzero τ₂ h₂ => ?_
    · rw [if_pos hfailed] at hnext
      have hlast := simulate_of_failed (k := j + 1) (by rw [hnext]; exact hfailed) (Nat.succ_le_of_lt hj)
      rw [hlast, hnext]
      exact ⟨rfl, rfl⟩
    · rw [if_neg (not_not.2 hzero)] at hnext
      refine (keep_runs hS hsize (Nat.lt_of_lt_of_le hj hle) h₂).mono
        (fun τ₃ h₃ => ⟨h₃.run, j + 1, rfl, ⟨State.ints_setInt_self _ _ _, ?_, ?_⟩, ?_⟩) fun _ _ h => h
      · rw [State.ints_setInt_of_ne _ _ (by decide)]
        exact h₃.ret
      · rw [State.memory_setInt, h₃.memory, hnext]
      · rw [hnext]
  · rintro τ ⟨j, hj, h, hdone⟩
    have hall : j = n := by omega
    subst hall
    exact ⟨h, hdone⟩

/-- The generated simulation, ended after so many intervals, computes the status and the memory after these, unless a fault
that is excused ends it. -/
theorem meets_simulationOver (hS : Room s l S) (hsize : ctx.size = S.size) (hle : n ≤ s.horizon)
    (hcall : ∀ k < n, Meets E (ctx.call l.function (integratorArguments l (ctx.size .workspace "state") k)
      (called s l integrate m k))
        fun r => r = (.int (integrate k (called s l integrate m k)).1, (integrate k (called s l integrate m k)).2)) :
    Meets E (Function.invoke ctx .none (simulationOver s l n) [] m)
      fun r => r = (.int (simulate s l integrate n m).1, (simulate s l integrate n m).2) := by
  refine Function.meets_invoke rfl ?_
  refine Runs.block_cons (.next rfl rfl) fun τ₁ h₁ => Runs.block_cons (.next rfl rfl) fun τ₂ h₂ => ?_
  subst h₁ h₂
  refine Runs.block_cons ((intervals_runs (m := m) hS hsize hle hcall (State.ints_setInt_self _ "ret" 0) ?_).mono
    (fun _ h => h) ?_) fun τ₃ h₃ => returnStatus_runs h₃.1 ?_
  · rfl
  · rintro a m' ⟨rfl, rfl⟩
    rfl
  · rw [h₃.2]

/-- Where the integrator always comes back, so do the first intervals. -/
theorem invoke_simulationOver (hS : Room s l S) (hsize : ctx.size = S.size) (hle : n ≤ s.horizon)
    (hcall : ∀ k < n, ctx.call l.function (integratorArguments l (ctx.size .workspace "state") k)
      (called s l integrate m k) =
        .ok (.int (integrate k (called s l integrate m k)).1, (integrate k (called s l integrate m k)).2)) :
    Function.invoke ctx .none (simulationOver s l n) [] m =
      .ok (.int (simulate s l integrate n m).1, (simulate s l integrate n m).2) := by
  refine (meets_simulationOver (E := fun _ => False) hS hsize hle fun k hk => ?_).eq_ok
  rw [hcall k hk]
  rfl

/-- The generated simulation computes the status and the memory after all intervals. -/
theorem invoke_simulation (hS : Room s l S) (hsize : ctx.size = S.size)
    (hcall : Stands ctx s l integrate (called s l integrate m)) :
    Function.invoke ctx .none ⟨s.simulationPrototype, simulationBody s l⟩ [] m =
      .ok (.int (simulate s l integrate s.horizon m).1, (simulate s l integrate s.horizon m).2) :=
  invoke_simulationOver hS hsize (Nat.le_refl _) hcall

end Intervals

/-! ## Results -/

section Results

variable {R : Type} [Arithmetic R] {s : Solver} {l : Integrator.Link} {integrate : Nat → Memory R → Int × Memory R}
  {k n : Nat} {m : Memory R}

/-- The blocks that hold the trajectories and the linearization. -/
def keptBlocks : List Block :=
  [.member .vars "x", .member .vars "u", .member .vars "od", .member .workspace "d", .member .workspace "evGx",
    .member .workspace "evGu"]

/-- The integrator leaves the trajectories and the linearization alone. -/
def Leaves (integrate : Nat → Memory R → Int × Memory R) : Prop :=
  ∀ k m, ∀ b ∈ keptBlocks, (integrate k m).2.reals b = m.reals b

theorem ne_stateBlock {b : Block} (hb : b ∈ keptBlocks) : b ≠ stateBlock := by
  revert b
  decide

omit [Arithmetic R] in
theorem reals_load {b : Block} (hb : b ≠ stateBlock) : (load s l k m).reals b = m.reals b := by
  unfold load
  rw [Memory.reals_fill_of_ne hb, Memory.reals_fill_of_ne hb, Memory.reals_fill_of_ne hb]

omit [Arithmetic R] in
/-- What the integrator finds in the state: the rows of the interval. -/
theorem load_rows (hx : s.dims.nx ≤ l.integratedLength) :
    (∀ j < s.dims.nx, (load s l k m).reals stateBlock j = row m "x" s.dims.nx k j) ∧
    (∀ j < s.dims.nu, (load s l k m).reals stateBlock (l.integratedLength + j) = row m "u" s.dims.nu k j) ∧
    ∀ j < s.dims.nod, (load s l k m).reals stateBlock (l.integratedLength + s.dims.nu + j) = row m "od" s.dims.nod k j := by
  unfold load
  refine ⟨fun j hj => ?_, fun j hj => ?_, fun j hj => ?_⟩
  · have hfirst : (m.fill stateBlock 0 s.dims.nx (row m "x" s.dims.nx k)).reals stateBlock (0 + j) = _ :=
      Memory.reals_fill hj
    rw [Nat.zero_add] at hfirst
    rw [Memory.reals_fill_of_outside (.inl (by omega)), Memory.reals_fill_of_outside (.inl (by omega)), hfirst]
  · rw [Memory.reals_fill_of_outside (.inl (by omega)), Memory.reals_fill hj]
  · rw [Memory.reals_fill hj]

omit [Arithmetic R] in
/-- What the state has between the differential states and the inputs is not loaded. -/
theorem load_between {i : Nat} (hx : s.dims.nx ≤ i) (hi : i < l.integratedLength) :
    (load s l k m).reals stateBlock i = m.reals stateBlock i := by
  unfold load
  rw [Memory.reals_fill_of_outside (.inl (by omega)), Memory.reals_fill_of_outside (.inl hi),
    Memory.reals_fill_of_outside (.inr (by omega))]

theorem keep_evGx {j : Nat} (hj : j < s.dims.nx * s.dims.nx) :
    (keep s k m).reals (.member .workspace "evGx") (k * (s.dims.nx * s.dims.nx) + j) =
      m.reals stateBlock (s.dims.nx + j) := by
  unfold keep
  dsimp only
  rw [Memory.reals_fill_of_ne (by simp), Memory.reals_fill hj]

theorem keep_evGu {j : Nat} (hj : j < s.dims.nx * s.dims.nu) :
    (keep s k m).reals (.member .workspace "evGu") (k * (s.dims.nx * s.dims.nu) + j) =
      m.reals stateBlock (s.dims.nx + s.dims.nx * s.dims.nx + j) := by
  unfold keep
  dsimp only
  rw [Memory.reals_fill hj]

theorem keep_d {j : Nat} (hj : j < s.dims.nx) :
    (keep s k m).reals (.member .workspace "d") (k * s.dims.nx + j) =
      Arithmetic.sub (m.reals stateBlock j) (m.reals (.member .vars "x") (k * s.dims.nx + s.dims.nx + j)) := by
  unfold keep
  dsimp only
  rw [Memory.reals_fill_of_ne (by simp), Memory.reals_fill_of_ne (by simp), Memory.reals_fill hj]

/-- The blocks that an interval writes. -/
def writtenBlocks : List Block :=
  [stateBlock, .member .workspace "d", .member .workspace "evGx", .member .workspace "evGu"]

theorem keep_other {b : Block} (hb : b ∉ writtenBlocks) : (keep s k m).reals b = m.reals b := by
  simp only [writtenBlocks, List.mem_cons, List.not_mem_nil, or_false, not_or] at hb
  unfold keep
  dsimp only
  rw [Memory.reals_fill_of_ne hb.2.2.2, Memory.reals_fill_of_ne hb.2.2.1, Memory.reals_fill_of_ne hb.2.1]

/-- The elements in which the results of an interval are kept. -/
inductive Written (s : Solver) (k : Nat) : Block → Nat → Prop
  | d {j : Nat} (hj : j < s.dims.nx) : Written s k (.member .workspace "d") (k * s.dims.nx + j)
  | evGx {j : Nat} (hj : j < s.dims.nx * s.dims.nx) :
      Written s k (.member .workspace "evGx") (k * (s.dims.nx * s.dims.nx) + j)
  | evGu {j : Nat} (hj : j < s.dims.nx * s.dims.nu) :
      Written s k (.member .workspace "evGu") (k * (s.dims.nx * s.dims.nu) + j)

theorem Written.mem_keptBlocks {b : Block} {i : Nat} (h : Written s k b i) : b ∈ keptBlocks := by
  cases h <;> decide

/-- What is kept of an interval is left alone by later ones. -/
theorem Written.keep_of_lt {b : Block} {i : Nat} (h : Written s k b i) (hk : k < n) :
    (keep s n m).reals b i = m.reals b i := by
  unfold keep
  dsimp only
  cases h with
  | d hj =>
    rw [Memory.reals_fill_of_ne (by simp), Memory.reals_fill_of_ne (by simp),
      Memory.reals_fill_of_outside (.inl (row_index_lt hk hj))]
  | evGx hj =>
    rw [Memory.reals_fill_of_ne (by simp), Memory.reals_fill_of_outside (.inl (row_index_lt hk hj)),
      Memory.reals_fill_of_ne (by simp)]
  | evGu hj =>
    rw [Memory.reals_fill_of_outside (.inl (row_index_lt hk hj)), Memory.reals_fill_of_ne (by simp),
      Memory.reals_fill_of_ne (by simp)]

/-- Where all intervals so far have succeeded, so have those before. -/
theorem simulate_done_of_le (hk : k ≤ n) (h : (simulate s l integrate n m).1 = 0) :
    (simulate s l integrate k m).1 = 0 := by
  by_contra hfailed
  rw [simulate_of_failed hfailed hk] at h
  exact hfailed h

/-- Where all intervals have succeeded, so has the integrator in the last one. -/
theorem integrate_of_done (h : (simulate s l integrate (n + 1) m).1 = 0) :
    (integrate n (called s l integrate m n)).1 = 0 := by
  have hnext := simulate_succ (simulate_done_of_le (Nat.le_succ n) h)
  by_contra hafter
  rw [if_pos hafter] at hnext
  rw [hnext] at h
  exact hafter h

/-- Memory after the last of the intervals that have succeeded. -/
theorem simulate_succ_of_done (h : (simulate s l integrate (n + 1) m).1 = 0) :
    (simulate s l integrate (n + 1) m).2 =
      keep s n (integrate n (called s l integrate m n)).2 := by
  have hnext := simulate_succ (simulate_done_of_le (Nat.le_succ n) h)
  rw [if_neg (not_not.2 (integrate_of_done h))] at hnext
  exact congrArg Prod.snd hnext

/-- Where the integrator always succeeds, so do all intervals. -/
theorem simulate_done (h : ∀ k m, (integrate k m).1 = 0) : (simulate s l integrate n m).1 = 0 := by
  induction n with
  | zero => rfl
  | succ n ih =>
    rw [simulate_succ ih, if_neg (not_not.2 (h n _))]

/-- An element that the integrator and the end of an interval leave alone stays as it is in that interval. -/
theorem reals_simulate_succ {b : Block} {i : Nat} (hb : b ≠ stateBlock)
    (hleaves : ∀ m, (integrate n m).2.reals b = m.reals b) (hkeep : ∀ m : Memory R, (keep s n m).reals b i = m.reals b i) :
    (simulate s l integrate (n + 1) m).2.reals b i = (simulate s l integrate n m).2.reals b i := by
  have hcalled : (integrate n (called s l integrate m n)).2.reals b = (simulate s l integrate n m).2.reals b := by
    rw [hleaves, called, reals_load hb]
  by_cases hdone : (simulate s l integrate n m).1 = 0
  · rw [simulate_succ hdone]
    by_cases hfailed : (integrate n (called s l integrate m n)).1 ≠ 0
    · rw [if_pos hfailed, hcalled]
    · rw [if_neg hfailed]
      exact (hkeep _).trans (congrFun hcalled i)
  · rw [simulate_of_failed hdone (Nat.le_succ n)]

/-- What no interval writes stays as it is. -/
theorem simulate_other {b : Block} (hb : b ∉ writtenBlocks)
    (hleaves : ∀ k < n, ∀ m, (integrate k m).2.reals b = m.reals b) :
    (simulate s l integrate n m).2.reals b = m.reals b := by
  have hstate : b ≠ stateBlock := by
    rintro rfl
    exact hb List.mem_cons_self
  induction n with
  | zero => rfl
  | succ n ih =>
    funext i
    rw [reals_simulate_succ hstate (hleaves n (Nat.lt_succ_self n)) fun m => congrFun (keep_other hb) i,
      ih fun k hk => hleaves k (Nat.lt_succ_of_lt hk)]

/-- What is kept of an interval stays. -/
theorem Written.simulate_eq {b : Block} {i : Nat} (h : Written s k b i) (hk : k < n)
    (hleaves : ∀ j < n, ∀ m, (integrate j m).2.reals b = m.reals b) :
    (simulate s l integrate n m).2.reals b i = (simulate s l integrate (k + 1) m).2.reals b i := by
  induction hk with
  | refl => rfl
  | step hk ih =>
    rw [reals_simulate_succ (ne_stateBlock h.mem_keptBlocks) (hleaves _ (Nat.lt_succ_self _)) fun m => h.keep_of_lt hk]
    exact ih fun j hj => hleaves j (Nat.lt_succ_of_lt hj)

/-- The sensitivities of an interval are what the integrator has left in the state. -/
theorem simulate_sensitivities (hleaves : Leaves integrate) (hk : k < n) (h : (simulate s l integrate n m).1 = 0) :
    let after := (integrate k (called s l integrate m k)).2
    (∀ j < s.dims.nx * s.dims.nx,
      (simulate s l integrate n m).2.reals (.member .workspace "evGx") (k * (s.dims.nx * s.dims.nx) + j) =
        after.reals stateBlock (s.dims.nx + j)) ∧
    ∀ j < s.dims.nx * s.dims.nu,
      (simulate s l integrate n m).2.reals (.member .workspace "evGu") (k * (s.dims.nx * s.dims.nu) + j) =
        after.reals stateBlock (s.dims.nx + s.dims.nx * s.dims.nx + j) := by
  have hafter := simulate_succ_of_done (simulate_done_of_le (Nat.succ_le_of_lt hk) h)
  refine ⟨fun j hj => ?_, fun j hj => ?_⟩
  · rw [(Written.evGx hj).simulate_eq hk fun i _ m => hleaves i m _ (by decide), hafter]
    exact keep_evGx hj
  · rw [(Written.evGu hj).simulate_eq hk fun i _ m => hleaves i m _ (by decide), hafter]
    exact keep_evGu hj

end Results

end ControlCodegen.Solver
