import ControlCodegen.Proofs.C.Fill
import ControlCodegen.Proofs.Solver.Bounds

/-!
# `Solver.Shift`: what the generated shifts do

* `copied`, `shift` : memory after a trajectory was moved up in place and its last row was given or not.
* `invoke_shiftStates`, `invoke_shiftControls` : the generated functions compute just that.
* `Shifted`, `shifted_shift` : row by row, this is a shift by one interval, and nothing else has changed.

The row that is given may be part of the trajectory itself. The loop then reads what it or the loop before it has
written, and the last row is that row as it is afterwards.
-/

namespace ControlCodegen.Solver

open C C.IntExpr C.Stmt

set_option autoImplicit false

/-! ## Memory -/

section Specification

variable {R : Type} {m : Memory R} {b : Block} {v : View} {last width n j : Nat}

/-- What a loop reads in round `j` that copies a row to the elements from `last` on. A row that starts before them in
the same block repeats itself. -/
def copied (m : Memory R) (b : Block) (last : Nat) (v : View) (j : Nat) : R :=
  if v.block = b then m.reals b (v.first + j % (last - v.first)) else m.reals v.block (v.first + j)

/-- So it does in memory that has a part of the copy. -/
theorem reals_fill_copied (hfirst : v.block = b → v.first ≤ last) (hj : j ≤ n) :
    (m.fill b last n (copied m b last v)).reals v.block (v.first + j) = copied m b last v j := by
  by_cases hb : v.block = b
  · have hle := hfirst hb
    by_cases hin : last ≤ v.first + j ∧ v.first + j < last + n
    · -- the element was copied in an earlier round, or is copied to itself
      have hindex : v.first + j = last + (j - (last - v.first)) := by omega
      have hmod : (j - (last - v.first)) % (last - v.first) = j % (last - v.first) :=
        (Nat.mod_eq_sub_mod (by omega)).symm
      rw [hb, hindex, Memory.reals_fill (by omega)]
      unfold copied
      rw [if_pos hb, if_pos hb, hmod]
    · have hmod : j % (last - v.first) = j := by
        by_cases hzero : last - v.first = 0
        · rw [hzero, Nat.mod_zero]
        · exact Nat.mod_eq_of_lt (by omega)
      rw [hb, Memory.reals_fill_of_outside (by omega)]
      unfold copied
      rw [if_pos hb, hmod]
  · rw [Memory.reals_fill_of_ne hb]
    exact (if_neg hb).symm

/-- Memory after the elements of a block were moved up to `last`, and a row was copied there if one is given. -/
def shift (m : Memory R) (b : Block) (last width : Nat) (row : Option View) : Memory R :=
  let moved := m.fill b 0 last fun j => m.reals b (width + j)
  match row with
  | none => moved
  | some v => moved.fill b last width (copied moved b last v)

/-- A trajectory of so many rows after a shift by one interval, with a last row if one is given. -/
structure Shifted (trajectory : String) (rows width : Nat) (row : Option View) (m m' : Memory R) : Prop where
  /-- Every row but the last one takes the values of the next. -/
  moved : ∀ k, k + 1 < rows → ∀ j < width,
    m'.reals (.member .vars trajectory) (k * width + j) = m.reals (.member .vars trajectory) ((k + 1) * width + j)
  /-- The last one keeps its values if no row is given, -/
  kept : row = none → ∀ j < width,
    m'.reals (.member .vars trajectory) ((rows - 1) * width + j) =
      m.reals (.member .vars trajectory) ((rows - 1) * width + j)
  /-- else it takes those of the row. -/
  filled : ∀ v, row = some v → v.block ≠ .member .vars trajectory → ∀ j < width,
    m'.reals (.member .vars trajectory) ((rows - 1) * width + j) = m.reals v.block (v.first + j)
  /-- If the row is itself a part of the trajectory, it takes those that the row has afterwards. -/
  within : ∀ v, row = some v → v.block = .member .vars trajectory → ∀ j < width,
    m'.reals (.member .vars trajectory) ((rows - 1) * width + j) = m'.reals v.block (v.first + j)
  /-- Nothing else changes. -/
  outside : ∀ i, rows * width ≤ i → m'.reals (.member .vars trajectory) i = m.reals (.member .vars trajectory) i
  others : ∀ b, b ≠ .member .vars trajectory → m'.reals b = m.reals b
  ints : m'.ints = m.ints
  clock : m'.clock = m.clock

/-- A row is long enough, and if it is part of a block it starts in the last row of that or before it. -/
def Reaches (b : Block) (last width : Nat) (row : Option View) : Prop :=
  ∀ v, row = some v → width ≤ v.length ∧ (v.block = b → v.first ≤ last)

variable {row : Option View}

theorem reals_shift_of_lt {i : Nat} (hi : i < last) :
    (shift m b last width row).reals b i = m.reals b (width + i) := by
  unfold shift
  cases row with
  | none => exact Memory.reals_fill_zero hi
  | some v =>
    dsimp only
    rw [Memory.reals_fill_of_outside (.inl hi), Memory.reals_fill_zero hi]

theorem reals_shift_of_le {i : Nat} (hi : last + width ≤ i) : (shift m b last width row).reals b i = m.reals b i := by
  unfold shift
  cases row with
  | none => exact Memory.reals_fill_of_outside (by omega)
  | some v =>
    dsimp only
    rw [Memory.reals_fill_of_outside (by omega), Memory.reals_fill_of_outside (by omega)]

theorem reals_shift_of_ne {b' : Block} (h : b' ≠ b) : (shift m b last width row).reals b' = m.reals b' := by
  unfold shift
  cases row with
  | none => exact Memory.reals_fill_of_ne h
  | some v =>
    dsimp only
    rw [Memory.reals_fill_of_ne h, Memory.reals_fill_of_ne h]

/-- Row by row, this is a shift by one interval. -/
theorem shifted_shift {trajectory : String} {rows : Nat} (hrows : 0 < rows)
    (hrow : Reaches (.member .vars trajectory) ((rows - 1) * width) width row) :
    Shifted trajectory rows width row m (shift m (.member .vars trajectory) ((rows - 1) * width) width row) := by
  have hsize : (rows - 1) * width + width = rows * width := by
    rw [← Nat.succ_mul, Nat.succ_eq_add_one, Nat.sub_add_cancel hrows]
  refine ⟨fun k hk j hj => ?_, ?_, ?_, ?_, fun i hi => reals_shift_of_le (hsize ▸ hi), fun b => reals_shift_of_ne, ?_,
    ?_⟩
  · have hnext : width + (k * width + j) = (k + 1) * width + j := by
      rw [Nat.succ_mul]
      omega
    rw [reals_shift_of_lt (row_index_lt (by omega) hj), hnext]
  · rintro rfl j -
    unfold shift
    rw [Memory.reals_fill_of_outside (by omega)]
  · rintro v rfl hb j hj
    refine (Memory.reals_fill hj).trans ?_
    unfold copied
    rw [if_neg hb, Memory.reals_fill_of_ne hb]
  · rintro v rfl hb j hj
    exact (Memory.reals_fill hj).trans (reals_fill_copied (hrow v rfl).2 (Nat.le_of_lt hj)).symm
  · cases row <;> rfl
  · cases row <;> rfl

end Specification

/-! ## The functions -/

section Calls

variable {R : Type} [Arithmetic R] {ctx : Context R} {E : Fault → Prop} {N : State R → Prop}
  {D : Answer R → Memory R → Prop} {τ : State R} {trajectory source : String} {last width : Nat} {row : Option View}

/-- Every round reads an element that no round before it has written. -/
theorem shiftRows_runs (hsize : last + width ≤ ctx.size .vars trajectory)
    (hN : N ((τ.withMemory (τ.memory.fill (.member .vars trajectory) 0 last
      fun j => τ.memory.reals (.member .vars trajectory) (width + j))).setInt "i" last)) :
    Runs E ctx (shiftRows trajectory last width) τ N D := by
  let f : Nat → R := fun j => τ.memory.reals (.member .vars trajectory) (width + j)
  have hcounts (j : Nat) : i.Counts (Known.none.set "i" (some (j : Int))) (0 + j) := by
    rw [Nat.zero_add]
    exact counts_set_self _ "i" j
  unfold shiftRows
  refine Runs.each_fill (v := ⟨.member .vars trajectory, 0, ctx.size .vars trajectory⟩) (f := f) (Known.of_none _) rfl
    (by dsimp only; omega) (fun j _ => hcounts j) (fun j hj => ?_) hN
  let m := τ.memory.fill (.member .vars trajectory) 0 j f
  have hnext : (IntExpr.lit width + i).Counts (Known.none.set "i" (some (j : Int))) (width + j) :=
    (counts_lit width).add (counts_set_self _ "i" j)
  have hread : m.reals (.member .vars trajectory) (width + j) = f j := Memory.reals_fill_of_outside (.inr (by omega))
  have helem : (RealExpr.elem (var trajectory) (.lit width + i)).eval ctx.size ((τ.withMemory m).setInt "i" j) =
      .ok (m.reals (.member .vars trajectory) (width + j)) :=
    RealExpr.eval_member (hnext.eval ((Known.of_none _).set "i" (.inr rfl))) (by omega)
  exact helem.trans (congrArg Except.ok hread)

theorem fillLast_runs {v : View} (hv : τ.arrays source = some v) (hlength : width ≤ v.length)
    (hfirst : v.block = .member .vars trajectory → v.first ≤ last) (hsize : last + width ≤ ctx.size .vars trajectory)
    (hN : N ((τ.withMemory (τ.memory.fill (.member .vars trajectory) last width
      (copied τ.memory (.member .vars trajectory) last v))).setInt "i" width)) :
    Runs E ctx (fillLast trajectory last width source) τ N D := by
  let f := copied τ.memory (.member .vars trajectory) last v
  unfold fillLast
  refine Runs.each_fill (ρ := Known.none) (v := ⟨.member .vars trajectory, 0, ctx.size .vars trajectory⟩) (f := f)
    (Known.of_none _) rfl hsize (fun j _ => ?_) (fun j hj => ?_) (by dsimp only; rw [Nat.zero_add]; exact hN)
  · exact (counts_lit last).add (counts_set_self _ "i" j)
  · let m := τ.memory.fill (.member .vars trajectory) last j f
    have hi : i.Counts (Known.none.set "i" (some (j : Int))) j := counts_set_self _ "i" j
    have hread : m.reals v.block (v.first + j) = f j := reals_fill_copied hfirst (Nat.le_refl j)
    have helem : (RealExpr.elem (.name source) i).eval ctx.size ((τ.withMemory m).setInt "i" j) =
        .ok (m.reals v.block (v.first + j)) :=
      RealExpr.eval_elem hv (hi.eval ((Known.of_none _).set "i" (.inr rfl))) (by omega)
    dsimp only
    rw [Nat.zero_add]
    exact helem.trans (congrArg Except.ok hread)

/-- The body of a shift, whose test tells whether there is a row. -/
theorem shift_computes {test : Test} (hsize : last + width ≤ ctx.size .vars trajectory)
    (hrow : Reaches (.member .vars trajectory) last width row) (hsource : ∀ v, row = some v → τ.arrays source = some v)
    (htest : ∀ m, test.eval ctx.size ((τ.withMemory m).setInt "i" last) = .ok row.isSome)
    (hN : ∀ τ', τ'.memory = shift τ.memory (.member .vars trajectory) last width row → N τ') :
    Runs E ctx
      (.block [.declareInts ["i"], shiftRows trajectory last width,
        .when test .hanging (fillLast trajectory last width source)]) τ N D := by
  refine Runs.block_cons (.next rfl rfl) fun τ₁ h₁ => ?_
  subst h₁
  refine Runs.block_cons (shiftRows_runs (N := fun τ₂ => τ₂ = _) hsize rfl) fun τ₂ h₂ => ?_
  subst h₂
  refine Runs.when (htest _) (fun hyes => ?_) fun hno => hN _ ?_
  · obtain ⟨v, rfl⟩ := Option.isSome_iff_exists.1 hyes
    exact fillLast_runs (hsource v rfl) (hrow v rfl).1 (hrow v rfl).2 hsize (hN _ rfl)
  · obtain rfl := Option.not_isSome_iff_eq_none.1 (Bool.eq_false_iff.1 hno)
    rfl

variable {file : Statics R} {s : Solver} {m : Memory R}

omit [Arithmetic R] in
/-- A pointer parameter is bound to the row, or to nothing. -/
theorem bindParameters_pointer {n : String} {τ : State R} :
    bindParameters [.realIn n] [pointer row] τ = some (τ.setArray n row) := by
  cases row <;> rfl

theorem invoke_shiftStates {strategy : Int} (hsize : s.horizon * s.dims.nx + s.dims.nx ≤ ctx.size .vars "x")
    (hrow : Reaches (.member .vars "x") (s.horizon * s.dims.nx) s.dims.nx (if strategy = 1 then row else none)) :
    Function.invoke ctx file ⟨s.shiftStatesPrototype, shiftStatesBody s⟩ [.int strategy, pointer row] m =
      .ok (.nothing, shift m (.member .vars "x") (s.horizon * s.dims.nx) s.dims.nx
        (if strategy = 1 then row else none)) := by
  refine Meets.eq_ok (Function.meets_invoke bindParameters_pointer ?_)
  refine shift_computes hsize hrow (fun v hv => ?_) (fun m' => ?_) fun τ h => ?_
  · exact (Option.ite_none_right_eq_some.1 hv).2
  · change (do if ← Except.ok (decide (strategy = 1)) then Except.ok row.isSome else return false) = _
    by_cases hstrategy : strategy = 1
    · rw [decide_eq_true hstrategy, if_pos hstrategy]
      rfl
    · rw [decide_eq_false hstrategy, if_neg hstrategy]
      rfl
  · rw [h]
    rfl

theorem invoke_shiftControls (hsize : (s.horizon - 1) * s.dims.nu + s.dims.nu ≤ ctx.size .vars "u")
    (hrow : Reaches (.member .vars "u") ((s.horizon - 1) * s.dims.nu) s.dims.nu row) :
    Function.invoke ctx file ⟨s.shiftControlsPrototype, shiftControlsBody s⟩ [pointer row] m =
      .ok (.nothing, shift m (.member .vars "u") ((s.horizon - 1) * s.dims.nu) s.dims.nu row) := by
  refine Meets.eq_ok (Function.meets_invoke bindParameters_pointer ?_)
  refine shift_computes hsize hrow (fun v hv => hv) (fun m' => rfl) fun τ h => ?_
  rw [h]
  rfl

end Calls

end ControlCodegen.Solver
