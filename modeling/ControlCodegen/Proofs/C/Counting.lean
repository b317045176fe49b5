import ControlCodegen.Proofs.C.Bounds

/-!
# `C.Counting`: bounds of loops over natural numbers

* `IntExpr.Counts` : an index expression has a natural number as its value.
* `Stmt.inBounds_each`, `inBounds_countUp`, `inBounds_countDown`, `inBounds_block_cons` : loops and blocks in bounds.
* `Fits.runs_setInt`, `Fits.runs_setElem` : assignments to integers, which `Stmt.InBounds` leaves out.
* `Fits.runs_each_known` : a loop with an invariant that depends on the round, also for what is known of integers.

Generated code counts from natural numbers to natural numbers, so that bounds of subscripts are inequalities between
products of dimensions.
-/

namespace ControlCodegen.C

set_option autoImplicit false

/-- An entry of a matrix that is stored by rows lies in the matrix. -/
theorem row_index_lt {rows cols r c : Nat} (hr : r < rows) (hc : c < cols) : r * cols + c < rows * cols := by
  calc
    r * cols + c < r * cols + cols := Nat.add_lt_add_left hc _
    _ = (r + 1) * cols := (Nat.succ_mul r cols).symm
    _ ≤ rows * cols := Nat.mul_le_mul_right cols hr

/-- A row of a matrix that is stored by rows ends in the matrix. -/
theorem row_end_le {rows r : Nat} (cols : Nat) (hr : r < rows) : r * cols + cols ≤ rows * cols := by
  rw [← Nat.succ_mul]
  exact Nat.mul_le_mul_right cols hr

variable {S : Scope} {K : List String} {ρ : Known}

theorem Scope.exists_view {a : Ref} (ha : 0 < S.length a) :
    ∃ v, viewOf S.size S.arrays a = some v ∧ v.length = S.length a := by
  unfold Scope.length lengthOf at ha ⊢
  cases hv : viewOf S.size S.arrays a with
  | none =>
    rw [hv] at ha
    exact absurd ha (Nat.lt_irrefl 0)
  | some v => exact ⟨v, rfl, rfl⟩

/-- What is left of an array from an element on. -/
theorem Scope.exists_tail {a : Ref} {m : Nat} (hm : m < S.length a) :
    ∃ v, tailOf S.size S.arrays a m = some v ∧ v.length = S.length a - m := by
  obtain ⟨v, hv, hlen⟩ := Scope.exists_view (Nat.zero_lt_of_lt hm)
  refine ⟨⟨v.block, v.first + m, v.length - m⟩, ?_, by rw [hlen]⟩
  rw [tailOf, hv]
  exact if_pos ⟨Int.natCast_nonneg m, Int.ofNat_lt.2 (by omega)⟩

/-! ## Index expressions -/

/-- The expression has that number as its value. -/
def IntExpr.Counts (ρ : Known) (e : IntExpr) (m : Nat) : Prop := e.value ρ = some (m : Int)

namespace IntExpr

variable {a b : IntExpr} {m n : Nat}

theorem counts_lit (n : Nat) : (lit n).Counts ρ n := rfl

theorem counts_var {v : String} (h : ρ v = some (some (m : Int))) : (var v).Counts ρ m := by
  unfold Counts value
  rw [h]
  rfl

theorem Counts.add (ha : a.Counts ρ m) (hb : b.Counts ρ n) : (a + b).Counts ρ (m + n) := by
  change (a.value ρ).bind _ = _
  rw [ha]
  change (b.value ρ).map _ = _
  rw [hb]
  rfl

theorem Counts.mul (ha : a.Counts ρ m) (hb : b.Counts ρ n) : (a * b).Counts ρ (m * n) := by
  change (a.value ρ).bind _ = _
  rw [ha]
  change (b.value ρ).map _ = _
  rw [hb]
  rfl

theorem Counts.mono {ρ' : Known} (h : a.Counts ρ m) (hle : ρ.Le ρ') : a.Counts ρ' m := value_mono hle h

theorem Counts.isSome {v : String} (h : (var v).Counts ρ m) : (ρ v).isSome := by
  rw [Option.join_eq_some_iff.1 h]
  rfl

theorem Counts.within (h : a.Counts ρ m) {r : Ref} (hm : m < S.length r) : S.Within ρ r a :=
  ⟨m, h, Int.natCast_nonneg m, Int.ofNat_lt.2 hm⟩

end IntExpr

theorem IntExpr.counts_set_self (ρ : Known) (v : String) (m : Nat) :
    (IntExpr.var v).Counts (ρ.set v (some (m : Int))) m :=
  IntExpr.counts_var (if_pos rfl)

theorem IntExpr.counts_set_of_ne {v n : String} {m : Nat} (h : (IntExpr.var v).Counts ρ m) (hv : v ≠ n)
    (x : Option Int) : (IntExpr.var v).Counts (ρ.set n x) m := by
  refine IntExpr.counts_var ?_
  unfold Known.set
  rw [if_neg hv]
  exact Option.join_eq_some_iff.1 h

/-! ## Variables that a statement leaves alone -/

/-- What is known of variables other than those named is known still, and variables that are set stay set. -/
def Known.Keeps (ρ ρ' : Known) (ns : List String) : Prop := (ρ.forget ns).Le ρ'

theorem Known.keeps_after (st : Stmt) (ρ : Known) : ρ.Keeps (st.after ρ) st.assigned :=
  Stmt.forget_assigned_le_after st ρ

namespace Known.Keeps

variable {ρ' : Known} {ns : List String} {v : String}

theorem refl (ρ : Known) (ns : List String) : ρ.Keeps ρ ns := ρ.forget_le ns

theorem forget (ρ : Known) (ns : List String) : ρ.Keeps (ρ.forget ns) ns := Known.Le.refl _

theorem trans {ρ'' : Known} {ns' : List String} (h : ρ.Keeps ρ' ns) (h' : ρ'.Keeps ρ'' ns') (hns : ∀ n ∈ ns', n ∈ ns) :
    ρ.Keeps ρ'' ns := by
  have hsub : ∀ n ∈ ns ++ ns', n ∈ ns := fun n hn => (List.mem_append.1 hn).elim id (hns n)
  have hle : (ρ.forget ns).Le ((ρ.forget ns).forget ns') := by
    rw [Known.forget_forget]
    exact ρ.forget_subset hsub
  exact (hle.trans (Known.Le.forget h ns')).trans h'

theorem set (h : ρ.Keeps ρ' ns) (hv : v ∈ ns) (x : Option Int) : ρ.Keeps (ρ'.set v x) ns := by
  intro n y hy
  unfold Known.set
  split_ifs with hn
  · subst n
    unfold Known.forget at hy
    rw [if_pos hv] at hy
    obtain ⟨z, -, rfl⟩ := Option.map_eq_some_iff.1 hy
    exact ⟨x, rfl, .inl rfl⟩
  · exact h n y hy

theorem mono_names {ns' : List String} (h : ρ.Keeps ρ' ns) (hns : ∀ n ∈ ns, n ∈ ns') : ρ.Keeps ρ' ns' :=
  (ρ.forget_subset hns).trans h

theorem value (h : ρ.Keeps ρ' ns) (hv : v ∉ ns) {k : Int} (hk : (IntExpr.var v).value ρ = some k) :
    (IntExpr.var v).value ρ' = some k := by
  refine IntExpr.value_mono h ?_
  rw [IntExpr.value, Known.forget, if_neg hv]
  exact hk

theorem counts (h : ρ.Keeps ρ' ns) (hv : v ∉ ns) {m : Nat} (hm : (IntExpr.var v).Counts ρ m) :
    (IntExpr.var v).Counts ρ' m :=
  h.value hv hm

theorem isSome (h : ρ.Keeps ρ' ns) (hv : (ρ v).isSome) : (ρ' v).isSome := by
  obtain ⟨x, hx⟩ := Option.isSome_iff_exists.1 hv
  have hf : ∃ y, ρ.forget ns v = some y := by
    unfold Known.forget
    rw [hx]
    split_ifs
    · exact ⟨_, rfl⟩
    · exact ⟨x, rfl⟩
  obtain ⟨y, hy⟩ := hf
  obtain ⟨z, hz, -⟩ := h v y hy
  rw [hz]
  rfl

end Known.Keeps

namespace Stmt

open IntExpr

@[simp] theorem assigned_block_nil : (block []).assigned = [] := rfl

@[simp] theorem assigned_block_cons (a : Stmt) (as : List Stmt) :
    (block (a :: as)).assigned = a.assigned ++ (block as).assigned := by
  cases as with
  | nil => exact (List.append_nil _).symm
  | cons b bs => rfl

@[simp] theorem assigned_seq (a b : Stmt) : (seq a b).assigned = a.assigned ++ b.assigned := rfl

@[simp] theorem assigned_beside (a b : Stmt) : (beside a b).assigned = a.assigned ++ b.assigned := rfl

@[simp] theorem assigned_assign (t : Target) (u : Update) (e : RealExpr) : (assign t u e).assigned = [] := rfl

@[simp] theorem assigned_call (c : Call) : (call c).assigned = [] := rfl

@[simp] theorem assigned_each (c : String) (bound : IntExpr) (layout : Layout) (body : Stmt) :
    (each c bound layout body).assigned = c :: body.assigned := rfl

@[simp] theorem assigned_countUp (c : String) (first bound : IntExpr) (layout : Layout) (body : Stmt) :
    (countUp c first bound layout body).assigned = c :: body.assigned := rfl

@[simp] theorem after_assign (t : Target) (u : Update) (e : RealExpr) (ρ : Known) : (assign t u e).after ρ = ρ :=
  ρ.forget_nil

theorem after_block_cons (a : Stmt) (as : List Stmt) (ρ : Known) :
    (block (a :: as)).after ρ = (block as).after (a.after ρ) := by
  cases as with
  | nil => exact (Known.forget_nil _).symm
  | cons b bs => rfl

@[simp] theorem sets_block_cons (a : Stmt) (as : List Stmt) : (block (a :: as)).sets = a.sets ++ (block as).sets := by
  cases as with
  | nil => exact (List.append_nil _).symm
  | cons b bs => rfl

variable {body : Stmt} {c : String}

/-! ## Blocks and loops -/

@[simp] theorem inBounds_block_nil : (block []).InBounds S K ρ := trivial

theorem inBounds_block_cons {a : Stmt} {as : List Stmt} (ha : a.InBounds S K ρ)
    (has : (block as).InBounds S (a.sets ++ K) (a.after ρ)) : (block (a :: as)).InBounds S K ρ := by
  cases as with
  | nil => exact ha
  | cons b bs => exact ⟨ha, has⟩

/-- The rest of a block, where no value that a statement assigns matters. -/
theorem inBounds_block_step {a : Stmt} {as : List Stmt} (ha : a.InBounds S K ρ)
    (has : ∀ ρ', ρ.Keeps ρ' a.assigned → (block as).InBounds S (a.sets ++ K) ρ') :
    (block (a :: as)).InBounds S K ρ :=
  inBounds_block_cons ha (has _ (Known.keeps_after a ρ))

theorem inBounds_countUp {first bound : IntExpr} {layout : Layout} {a b : Nat} (hc : c ∉ body.assigned)
    (ha : first.Counts ρ a) (hb : bound.Counts (ρ.forget (c :: body.assigned)) b)
    (h : ∀ (k : Nat) ρ', a ≤ k → k < b → (var c).Counts ρ' k → ρ.Keeps ρ' (c :: body.assigned) →
      body.InBounds S K ρ') :
    (countUp c first bound layout body).InBounds S K ρ := by
  refine ⟨hc, a, b, ha, hb, fun k hak hkb => ?_⟩
  obtain ⟨n, rfl⟩ := Int.eq_ofNat_of_zero_le (Int.le_trans (Int.natCast_nonneg a) hak)
  exact h n _ (by omega) (by omega) (counts_var (inRound_self body c n ρ)) (forget_le_inRound body c n ρ)

theorem inBounds_each {n : Nat} {layout : Layout} (hc : c ∉ body.assigned)
    (h : ∀ (k : Nat) ρ', k < n → (var c).Counts ρ' k → ρ.Keeps ρ' (c :: body.assigned) → body.InBounds S K ρ') :
    (each c n layout body).InBounds S K ρ :=
  inBounds_countUp hc (counts_lit 0) (counts_lit n) fun k ρ' _ hk => h k ρ' hk

theorem inBounds_countDown {n : Nat} {layout : Layout} (hc : c ∉ body.assigned)
    (h : ∀ (k : Nat) ρ', k < n → (var c).Counts ρ' k → ρ.Keeps ρ' (c :: body.assigned) → body.InBounds S K ρ') :
    (countDown c ((n : Int) - 1) layout body).InBounds S K ρ := by
  refine ⟨hc, fun k h0 hk => ?_⟩
  obtain ⟨j, rfl⟩ := Int.eq_ofNat_of_zero_le h0
  exact h j _ (by omega) (counts_var (inRound_self body c j ρ)) (forget_le_inRound body c j ρ)

/-- An element as a target. -/
theorem inBounds_assign_entry {a : Ref} {i : IntExpr} {u : Update} {x : RealExpr} (hi : S.Within ρ a i)
    (hx : x.InBounds S K ρ) : (assign (a.entry i) u x).InBounds S K ρ := by
  refine ⟨?_, hx⟩
  cases a <;> exact hi

end Stmt

/-! ## Assignments to integers -/

section Assignments

variable {R : Type} [Arithmetic R] {E : Fault → Prop} {ctx : Context R} {I : (Block → Nat → Int) → Prop} {s : State R}
  {D : Answer R → Memory R → Prop}

omit [Arithmetic R] in
theorem Fits.locate_name (hs : Fits S I K ρ s) {n : String} {j : Nat} {v : View} (hv : S.arrays n = some v)
    (hj : j < v.length) : s.locate S.size (.name n) j = .ok ⟨v.block, v.first + j, v.length - j⟩ := by
  have htail : tailOf S.size s.arrays (.name n) j = some ⟨v.block, v.first + j, v.length - j⟩ := by
    rw [hs.arrays, tailOf, viewOf, hv]
    exact if_pos ⟨Int.natCast_nonneg j, Int.ofNat_lt.2 hj⟩
  rw [State.locate, htail]

/-- A variable gets a value. -/
theorem Fits.runs_setInt (hctx : ctx.size = S.size) (hs : Fits S I K ρ s) (n : String) {e : IntExpr} {k : Int}
    (he : e.eval S.size s = .ok k) :
    Runs E ctx (.assignInt ⟨.name n, none⟩ e) s (Fits S I K (ρ.set n (some k))) D :=
  Runs.assignInt (by rw [hctx]; exact he) rfl (hs.setInt n (.inr rfl))

/-- An element of an integer array gets a value. The property of the integers in memory may become another one. -/
theorem Fits.runs_setElem (hctx : ctx.size = S.size) (hs : Fits S I K ρ s) {n : String} {i e : IntExpr} {j : Nat}
    {k : Int} {v : View} {I' : (Block → Nat → Int) → Prop} (hv : S.arrays n = some v) (hi : i.Counts ρ j)
    (hj : j < v.length) (he : e.eval S.size s = .ok k)
    (hI : I' (s.memory.setInt v.block (v.first + j) k).ints) :
    Runs E ctx (.assignInt ((Ref.name n).entry i) e) s (Fits S I' K ρ) D := by
  have hfits : Fits S I' K ρ (s.withMemory (s.memory.setInt v.block (v.first + j) k)) :=
    ⟨hs.known, hs.reals, hs.arrays, hI⟩
  refine Runs.assignInt (by rw [hctx]; exact he) ?_ hfits
  change (do
    let w ← s.locate ctx.size (.name n) (← i.eval ctx.size s)
    return s.withMemory (s.memory.setInt w.block w.first k)) = _
  rw [hctx, IntExpr.eval_of_value hs.known hi]
  change (do
    let w ← s.locate S.size (.name n) j
    return s.withMemory (s.memory.setInt w.block w.first k)) = _
  rw [hs.locate_name hv hj]
  rfl

/-- A statement in bounds leaves other variables alone. -/
theorem Stmt.InBounds.runs_keeps (hctx : S.Serves E I ctx) {st : Stmt} (h : st.InBounds S K ρ) (hs : Fits S I K ρ s) :
    Runs E ctx st s (fun τ => ∃ ρ', ρ.Keeps ρ' st.assigned ∧ Fits S I K ρ' τ) fun _ _ => True :=
  (h.runs hctx hs).mono
    (fun _ hτ => ⟨_, Known.keeps_after st ρ, hτ.mono (fun _ hn => List.mem_append_right _ hn) (Known.Le.refl _)⟩)
    fun _ _ _ => trivial

/-- A loop with an invariant for the integers in memory and for what is known, both of which depend on the round. The
variables `ns` may change. -/
theorem Fits.runs_each_known {I : Nat → (Block → Nat → Int) → Prop} (A : Nat → Known → Prop) (hs : Fits S (I 0) K ρ s)
    {c : String} {count : Nat} {layout : Layout} {body : Stmt} (ns : List String) (hc : c ∈ ns)
    (hA : ∀ n ρ x, A n ρ → A n (ρ.set c x)) (h0 : A 0 ρ)
    (hbody : ∀ (n : Nat) ρ' τ, n < count → ρ.Keeps ρ' ns → (IntExpr.var c).Counts ρ' n → A n ρ' → Fits S (I n) K ρ' τ →
      Runs E ctx body τ (fun τ' => ∃ ρ₁, ρ.Keeps ρ₁ ns ∧ (IntExpr.var c).Counts ρ₁ n ∧ A (n + 1) ρ₁ ∧
        Fits S (I (n + 1)) K ρ₁ τ') D) :
    Runs E ctx (.each c count layout body) s (fun τ' => ∃ ρ', ρ.Keeps ρ' ns ∧ A count ρ' ∧ Fits S (I count) K ρ' τ') D := by
  refine Runs.countUp (a := 0) (b := count) (fun k τ => ∃ (n : Nat) (ρ' : Known), k = n ∧ ρ.Keeps ρ' ns ∧
    (IntExpr.var c).Counts ρ' n ∧ A n ρ' ∧ Fits S (I n) K ρ' τ) rfl (fun _ _ _ => rfl) ?_ ?_ ?_ ?_
  · exact ⟨0, _, rfl, (Known.Keeps.refl ρ ns).set hc _, IntExpr.counts_set_self ρ c 0, hA 0 ρ _ h0, hs.setInt c (.inr rfl)⟩
  · rintro k τ ⟨n, ρ', rfl, -, hn, -, hτ⟩
    exact hτ.known.value (Option.join_eq_some_iff.1 hn)
  · rintro k τ - hk ⟨n, ρ', rfl, hkeep, hn, hknown, hτ⟩
    refine (hbody n ρ' τ (by omega) hkeep hn hknown hτ).mono (fun τ' hnext => ?_) fun _ _ h => h
    obtain ⟨ρ₁, hkeep₁, hn₁, hknown₁, hτ'⟩ := hnext
    exact ⟨hτ'.known.value (Option.join_eq_some_iff.1 hn₁), n + 1, _, rfl, hkeep₁.set hc _,
      IntExpr.counts_set_self ρ₁ c (n + 1), hA _ _ _ hknown₁, hτ'.setInt c (.inr rfl)⟩
  · rintro τ ⟨n, ρ', hn, hkeep, -, hknown, hτ⟩
    obtain rfl : n = count := by omega
    exact ⟨ρ', hkeep, hknown, hτ⟩

/-- A loop with an invariant for the integers in memory only. -/
theorem Fits.runs_each {I : Nat → (Block → Nat → Int) → Prop} (hs : Fits S (I 0) K ρ s) {c : String}
    {count : Nat} {layout : Layout} {body : Stmt} (ns : List String) (hc : c ∈ ns)
    (hbody : ∀ (n : Nat) ρ' τ, n < count → ρ.Keeps ρ' ns → (IntExpr.var c).Counts ρ' n → Fits S (I n) K ρ' τ →
      Runs E ctx body τ (fun τ' => ∃ ρ₁, ρ.Keeps ρ₁ ns ∧ (IntExpr.var c).Counts ρ₁ n ∧ Fits S (I (n + 1)) K ρ₁ τ') D) :
    Runs E ctx (.each c count layout body) s (Fits S (I count) K (ρ.forget ns)) D := by
  refine (hs.runs_each_known (fun _ _ => True) ns hc (fun _ _ _ h => h) trivial fun n ρ' τ hn hkeep hcount _ hτ => ?_).mono
    (fun τ' hnext => ?_) fun _ _ h => h
  · refine (hbody n ρ' τ hn hkeep hcount hτ).mono (fun τ' hnext => ?_) fun _ _ h => h
    obtain ⟨ρ₁, hkeep₁, hcount₁, hτ'⟩ := hnext
    exact ⟨ρ₁, hkeep₁, hcount₁, trivial, hτ'⟩
  · obtain ⟨ρ', hkeep, -, hτ'⟩ := hnext
    exact hτ'.mono (fun _ hm => hm) hkeep

omit [Arithmetic R] in
/-- Reading an element of an integer array. -/
theorem Fits.eval_elem (hs : Fits S I K ρ s) {n : String} {i : IntExpr} {j : Nat} {v : View}
    (hv : S.arrays n = some v) (hi : i.Counts ρ j) (hj : j < v.length) :
    (IntExpr.elem (.name n) i).eval S.size s = .ok (s.memory.ints v.block (v.first + j)) := by
  rw [IntExpr.eval, IntExpr.eval_of_value hs.known hi]
  change (do
    let w ← s.locate S.size (.name n) j
    return s.memory.ints w.block w.first) = _
  rw [hs.locate_name hv hj]
  rfl

end Assignments

end ControlCodegen.C
