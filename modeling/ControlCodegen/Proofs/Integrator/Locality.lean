import ControlCodegen.Proofs.C.Footprint
import ControlCodegen.Proofs.C.Updates
import ControlCodegen.Proofs.Integrator.Solution

/-!
# `Integrator.Locality`: what a call of the generated linear solver depends on

* `meets_solve_kept`, `meets_solveAgain_kept` : a call changes its arrays and no other memory; a call that solves again
  leaves the factors and the permutation alone.
* `solve_alike`, `solveAgain_alike` : calls with the same elements in their arrays give the same answer and leave the same
  elements there, whatever stands elsewhere.

The arithmetic may be any.
-/

namespace ControlCodegen.Integrator.LinearSystem

open C C.IntExpr

set_option autoImplicit false

/-- An element of the matrix or of the right side. -/
def Operand (va vb : View) (B : Block) (i : ℕ) : Prop := va.Has B i ∨ vb.Has B i

/-- The arrays of the function that factorizes. -/
def solveFootprint : Footprint where
  reads := [a, b]
  writes := [a, b]
  intReads := [perm]
  intWrites := [perm]

variable {R : Type} [Arithmetic R] {s : LinearSystem} {ctx : Context R} {file : Statics R} {va vb w : View}
  {m m' : Memory R} {outer : String → Option View}

theorem covers_operands {size : Struct → String → ℕ} {P : Block → ℕ → Prop} (hP : ∀ B i, Operand va vb B i → P B i) :
    Covers size (argumentArrays outer va vb w) [a, b] P :=
  .cons (v := va) rfl (fun _ hi => hP _ _ (.inl (View.has_of_lt hi)))
    (.cons (v := vb) rfl (fun _ hi => hP _ _ (.inr (View.has_of_lt hi))) .nil)

theorem covers_perm {size : Struct → String → ℕ} : Covers size (argumentArrays outer va vb w) [perm] w.Has :=
  .cons (v := w) rfl (fun _ hi => View.has_of_lt hi) .nil

/-! ## The function that factorizes -/

theorem within_solve (s : LinearSystem) : s.solve.body.Within solveFootprint := by
  simp [solve, pivot, eliminate, substitute, exchange, exchangePerm, Stmt.block, Stmt.each, Stmt.Within, Target.Within,
    Target.WithinInts, RealExpr.Within, Test.Within, Cond.Within, IntExpr.Within, RealExpr.var, solveFootprint, Ref.entry,
    entry, index]

/-- A call that factorizes changes its arrays and nothing else. -/
theorem meets_solve_kept : Meets (fun _ => True) (s.solve.invoke ctx file [.array va, .array vb, .array w] m) fun r =>
    Kept (Operand va vb) w.Has m r.2 :=
  Function.meets_invoke rfl (Meets.mono
    (s.within_solve.keeps (covers_operands fun _ _ h => h) covers_perm ⟨rfl, .refl m⟩)
    fun _ ho => ho.mono (fun _ h => h.memory) fun _ _ h => h)

/-- The permutation starts as the identity. -/
theorem identity_exact {τ : State R} {w : View} (hw : τ.arrays "rk_perm" = some w) (hlen : w.length = s.dim) :
    Runs (fun _ => True) ctx (.each "i" s.dim .inline (.assignInt (perm.entry (.var "i")) (.var "i"))) τ
      (fun τ' => ∀ r < s.dim, τ'.memory.ints w.block (w.first + r) = (r : ℤ)) fun _ _ => False := by
  refine (Runs.each_known (fun k τ' => τ'.arrays "rk_perm" = some w ∧
    ∀ r < k, τ'.memory.ints w.block (w.first + r) = (r : ℤ)) (fun _ _ _ h => h) (Known.of_none τ.ints) (by simp : "i" ∉ [])
    ⟨hw, fun r hr => absurd hr (Nat.not_lt_zero r)⟩ fun k ρ' τ' hk h => ?_).mono (fun τ' h => h.2.2) fun _ _ h => h
  obtain ⟨hview, hrows⟩ := h.property
  refine Runs.assignIntEntry (h.count.eval h.known) hview (h.count.eval h.known) (by omega)
    ⟨h.known.forget _, hview, fun r hr => ?_⟩
  rcases Nat.lt_succ_iff_lt_or_eq.1 hr with hr | rfl
  · exact (if_neg fun heq => by omega).trans (hrows r hr)
  · exact if_pos ⟨rfl, rfl⟩

/-- Where the matrix and the right side are the same, so is what a call that factorizes leaves. -/
theorem solve_alike (hw : w.length = s.dim) (hm : Memory.Agree (Operand va vb) (fun _ _ => False) m m') :
    Matches (fun r r' => r.1 = r'.1 ∧ Memory.Agree (Operand va vb) w.Has r.2 r'.2)
      (s.solve.invoke ctx file [.array va, .array vb, .array w] m)
      (s.solve.invoke ctx file [.array va, .array vb, .array w] m') := by
  let arrays := argumentArrays file.arrays va vb w
  let rest : List Stmt := [
    .each "i" s.dim .braces <| .block [
      s.pivot,
      .assign ⟨.name "det", none⟩ .mul (s.entry (.var "i") (.var "i")),
      .when (.isZero (s.entry (.var "i") (.var "i"))) .inline (.returnInt 1),
      s.eliminate],
    s.substitute b,
    .returnTest (.isZero (.var "det"))]
  have hwithin := s.within_solve
  have hrest : (Stmt.block rest).Within solveFootprint := hwithin.2.2.2.2
  refine Function.matches_invoke rfl rfl ?_ fun τ τ' (h : Alike arrays (Operand va vb) w.Has τ τ') => h.memory
  let start (m : Memory R) : State R :=
    State.setReal ⟨s.solveName, fun _ => none, file.reals, arrays, m⟩ "det" (Arithmetic.ofNat 1)
  have hstart : Alike arrays (Operand va vb) (fun _ _ => False) (start m) (start m') := ⟨rfl, rfl, rfl, rfl, hm⟩
  let loop : Stmt := .each "i" s.dim .inline (.assignInt (perm.entry (.var "i")) (.var "i"))
  have hloop : loop.Within ⟨[], [], [], [perm]⟩ := by
    simp [loop, Stmt.each, Stmt.Within, Target.WithinInts, IntExpr.Within, Ref.entry]
  have hperm : ∀ {τ : State R}, τ.arrays = arrays → τ.arrays "rk_perm" = some w := fun hτ => by
    rw [hτ]
    rfl
  change Matches _ ((Stmt.block (loop :: rest)).exec ctx (start m)) ((Stmt.block (loop :: rest)).exec ctx (start m'))
  refine Matches.block_cons ((hloop.alike .nil .nil hstart).goesOn (identity_exact (hperm rfl) hw)
    (identity_exact (hperm rfl) hw)) fun τ τ' h => ?_
  obtain ⟨h, hrows, hrows'⟩ := h
  refine hrest.alike (covers_operands fun _ _ h => h) covers_perm ⟨h.ints, h.reals, h.left, h.right, h.memory.reals, ?_⟩
  rintro B i ⟨rfl, hfirst, hi⟩
  obtain ⟨r, rfl⟩ := Nat.exists_eq_add_of_le hfirst
  rw [hrows r (by omega), hrows' r (by omega)]

/-! ## The function that solves again -/

/-- The arrays of a function that has one of its own. -/
def withOwn (s : LinearSystem) (outer : String → Option View) (va vb w : View) (n : String) : Option View :=
  if n = "rk_bPerm" then some s.ownArray else argumentArrays outer va vb w n

/-- An element of the matrix, of the right side or of the array of the function itself. -/
def OwnOperand (s : LinearSystem) (va vb : View) (B : Block) (i : ℕ) : Prop := Operand va vb B i ∨ s.ownArray.Has B i

/-- The body of the function behind its declarations. -/
def againBody (s : LinearSystem) : List Stmt :=
  [.countUp "i" 1 s.dim .hanging
      (.each "j" (.var "i") .inline
        (.assign (permuted.entry (.var "i")) .sub (s.entry (.var "i") (.var "j") * .elem permuted (.var "j")))),
    s.substitute permuted,
    .each "i" s.dim .inline (.assign (b.entry (.var "i")) .set (.elem permuted (.var "i"))),
    .returnInt 0]

/-- The right side is brought into the order of the rows. -/
def permuteRight (s : LinearSystem) : Stmt :=
  .each "i" s.dim .inline (.assign (permuted.entry (.var "i")) .set (.elem b (.elem perm (.var "i"))))

theorem solveAgain_body (s : LinearSystem) : s.solveAgain.body =
    .block (.declareInts ["i", "j"] :: .declareArray "rk_bPerm" s.dim :: s.permuteRight :: s.againBody) := rfl

theorem within_permuteRight (s : LinearSystem) : s.permuteRight.Within ⟨[b], [permuted], [perm], []⟩ := by
  simp [permuteRight, Stmt.each, Stmt.Within, Target.Within, RealExpr.Within, IntExpr.Within, Ref.entry]

theorem within_againBody (s : LinearSystem) : (Stmt.block s.againBody).Within ⟨[a, permuted], [b, permuted], [], []⟩ := by
  simp [againBody, substitute, Stmt.block, Stmt.each, Stmt.Within, Target.Within, RealExpr.Within, IntExpr.Within,
    Ref.entry, entry, index]

theorem covers_written {size : Struct → String → ℕ} :
    Covers size (s.withOwn outer va vb w) [b, permuted] fun B i => vb.Has B i ∨ s.ownArray.Has B i :=
  .cons (v := vb) rfl (fun _ hi => .inl (View.has_of_lt hi))
    (.cons (v := s.ownArray) rfl (fun _ hi => .inr (View.has_of_lt hi)) .nil)

/-- A call that solves again changes the right side and its own array, and nothing else. -/
theorem meets_solveAgain_kept :
    Meets (fun _ => True) (s.solveAgain.invoke ctx file [.array va, .array vb, .array w] m) fun r =>
      Kept (fun B i => vb.Has B i ∨ s.ownArray.Has B i) (fun _ _ => False) m r.2 := by
  refine Function.meets_invoke rfl ?_
  rw [solveAgain_body]
  refine Runs.block_cons (.next rfl rfl) fun τ₁ h₁ => Runs.block_cons (.next rfl rfl) fun τ₂ h₂ => ?_
  subst h₁ h₂
  have hpermuted : Covers ctx.size (s.withOwn file.arrays va vb w) [permuted] fun B i => vb.Has B i ∨ s.ownArray.Has B i :=
    fun r hr => covers_written r (List.mem_cons_of_mem _ hr)
  refine Runs.block_cons (s.within_permuteRight.keeps hpermuted .nil ⟨rfl, .refl m⟩) fun τ₃ h₃ => ?_
  exact Runs.mono (s.within_againBody.keeps covers_written .nil h₃) (fun _ h => h.memory) fun _ _ h => h

/-- The right side in the order of the rows. -/
theorem permuteRight_exact {τ : State R} (harrays : τ.arrays = s.withOwn outer va vb w) (hb : vb.length = s.dim)
    (hw : w.length = s.dim) (hne : vb.block ≠ s.ownArray.block) (hrows : IsRows s.dim w τ.memory.ints) :
    Runs (fun _ => True) ctx s.permuteRight τ (fun τ' => ∀ r < s.dim, τ'.memory.reals s.ownArray.block r =
      τ.memory.reals vb.block (vb.first + (τ.memory.ints w.block (w.first + r)).toNat)) fun _ _ => False := by
  have hown : viewOf ctx.size τ.arrays permuted = some s.ownArray := by
    rw [harrays]
    rfl
  have hright : viewOf ctx.size τ.arrays b = some vb := by
    rw [harrays]
    rfl
  have hperm : viewOf ctx.size τ.arrays perm = some w := by
    rw [harrays]
    rfl
  refine (Runs.each_update_first (r := fun r => τ.memory.reals vb.block (vb.first +
    (τ.memory.ints w.block (w.first + r)).toNat)) ⟨rfl, rfl, rfl⟩ (Known.of_none τ.ints) hown (Nat.le_refl _)
    fun j ρ' τ' f hj hcount hρ' hτ' => ?_).mono (fun τ' h r hr => ?_) fun _ _ h => h
  · have hj : j < s.dim := hj
    obtain ⟨h0, hlt⟩ := hrows j hj
    have hrow : (IntExpr.elem perm (.var "i")).eval ctx.size τ' =
        .ok ((τ.memory.ints w.block (w.first + j)).toNat : ℤ) := by
      rw [IntExpr.eval_elem (by rw [hτ'.arrays]; exact hperm) (hcount.eval hρ') (by omega), hτ'.memory,
        Int.toNat_of_nonneg h0]
      rfl
    rw [RealExpr.eval_elem (by rw [hτ'.arrays]; exact hright) hrow (by omega), hτ'.memory, Memory.reals_fill_of_ne hne]
  · rw [h.2.memory]
    exact Memory.reals_fill_zero hr

/-- Where the factors, the permutation and the right side are the same, so is what a call that solves again leaves. -/
theorem solveAgain_alike (hb : vb.length = s.dim) (hw : w.length = s.dim) (hne : vb.block ≠ s.ownArray.block)
    (hrows : IsRows s.dim w m.ints) (hm : Memory.Agree (Operand va vb) w.Has m m') :
    Matches (fun r r' => r.1 = r'.1 ∧ Memory.Agree (Operand va vb) w.Has r.2 r'.2)
      (s.solveAgain.invoke ctx file [.array va, .array vb, .array w] m)
      (s.solveAgain.invoke ctx file [.array va, .array vb, .array w] m') := by
  let arrays := s.withOwn file.arrays va vb w
  have hperm : ∀ r < s.dim, m.ints w.block (w.first + r) = m'.ints w.block (w.first + r) := fun r hr =>
    hm.ints _ _ (View.has_of_lt (by omega))
  have hrows' : IsRows s.dim w m'.ints := fun r hr => by
    rw [← hperm r hr]
    exact hrows r hr
  have hcovers : Covers ctx.size arrays [a, permuted] (s.OwnOperand va vb) :=
    .cons (v := va) rfl (fun _ hi => .inl (.inl (View.has_of_lt hi)))
      (.cons (v := s.ownArray) rfl (fun _ hi => .inr (View.has_of_lt hi)) .nil)
  have hreads : Covers ctx.size arrays [b] (Operand va vb) :=
    .cons (v := vb) rfl (fun _ hi => .inr (View.has_of_lt hi)) .nil
  have hints : Covers ctx.size arrays [perm] w.Has := .cons (v := w) rfl (fun _ hi => View.has_of_lt hi) .nil
  refine Function.matches_invoke rfl rfl ?_ fun τ τ' (h : Alike arrays (Operand va vb) w.Has τ τ') => h.memory
  let start (m : Memory R) : State R :=
    ⟨s.solveAgainName, fun _ => none, file.reals, s.withOwn file.arrays va vb w, m⟩
  have hstart : Alike arrays (Operand va vb) w.Has (start m) (start m') := ⟨rfl, rfl, rfl, rfl, hm⟩
  change Matches _ ((Stmt.block (s.permuteRight :: s.againBody)).exec ctx (start m))
    ((Stmt.block (s.permuteRight :: s.againBody)).exec ctx (start m'))
  refine Matches.block_cons ((s.within_permuteRight.alike hreads hints hstart).goesOn
    (permuteRight_exact rfl hb hw hne hrows) (permuteRight_exact rfl hb hw hne hrows')) fun τ τ' h => ?_
  obtain ⟨h, hown, hown'⟩ := h
  have hagree : Memory.Agree (s.OwnOperand va vb) w.Has τ.memory τ'.memory := by
    refine ⟨fun B i hB => ?_, h.memory.ints⟩
    rcases hB with hB | ⟨rfl, -, hi⟩
    · exact h.memory.reals B i hB
    · have hi : i < s.dim := by
        rw [← Nat.zero_add s.dim]
        exact hi
      obtain ⟨h0, hlt⟩ := hrows i hi
      have hright : (m.ints w.block (w.first + i)).toNat < vb.length := by omega
      rw [hown i hi, hown' i hi, ← hperm i hi]
      exact hm.reals _ _ (.inr (View.has_of_lt hright))
  refine (s.within_againBody.alike hcovers .nil ⟨h.ints, h.reals, h.left, h.right, hagree⟩).mono fun o o' ho => ?_
  match o, o', ho with
  | .next τ, .next τ', ho =>
    exact ⟨ho.ints, ho.reals, ho.left, ho.right, fun B i hB => ho.memory.reals B i (.inl hB), ho.memory.ints⟩
  | .done a m, .done a' m', ho => exact ⟨ho.1, fun B i hB => ho.2.reals B i (.inl hB), ho.2.ints⟩

end ControlCodegen.Integrator.LinearSystem
