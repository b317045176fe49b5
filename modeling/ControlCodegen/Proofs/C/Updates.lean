import ControlCodegen.Proofs.C.Rounds

/-!
# `C.Updates`: loops that update one element after the other

* `Holding` : a state with certain arrays, variables and memory; counters are left open.
* `Runs.each_round` : a loop whose round `j` writes the element `first + j` fills a part of a block.
* `Runs.each_update` : the same for a single assignment, which may combine the old value with the new one.
* `weighted`, `Runs.accumulate` : products that are added to one element.
* `Memory.Beside`, `Memory.Grows` : memory that has changed in some blocks only, and to certain values.
* `Runs.each_grows` : loops within each other that set the elements of one block.

Memory after a single loop is given exactly.
-/

namespace ControlCodegen.C

open IntExpr

set_option autoImplicit false

variable {R : Type}

/-! ## Memory -/

namespace Memory

variable {m : Memory R} {b b' : Block} {i : Nat} {r r' : R}

theorem setReal_self : m.setReal b i (m.reals b i) = m := by
  have hreals : (m.setReal b i (m.reals b i)).reals = m.reals := by
    funext b' i'
    unfold setReal
    dsimp only
    split_ifs with h
    · rw [h.1, h.2]
    · rfl
  exact congrArg (fun f => (⟨f, m.ints, m.clock⟩ : Memory R)) hreals

theorem setReal_setReal : (m.setReal b i r).setReal b i r' = m.setReal b i r' := by
  have hreals : ((m.setReal b i r).setReal b i r').reals = (m.setReal b i r').reals := by
    funext b' i'
    unfold setReal
    dsimp only
    split_ifs <;> rfl
  exact congrArg (fun f => (⟨f, m.ints, m.clock⟩ : Memory R)) hreals

theorem reals_setReal_self : (m.setReal b i r).reals b i = r := if_pos ⟨rfl, rfl⟩

theorem reals_setReal_of_ne (h : b' ≠ b) : (m.setReal b i r).reals b' = m.reals b' := by
  funext i'
  exact if_neg fun hi => h hi.1

/-- Only real elements of some blocks have changed. -/
structure Beside (blocks : List Block) (m m' : Memory R) : Prop where
  reals : ∀ b, b ∉ blocks → m'.reals b = m.reals b
  ints : m'.ints = m.ints

theorem Beside.refl (blocks : List Block) (m : Memory R) : Beside blocks m m := ⟨fun _ _ => rfl, rfl⟩

theorem Beside.trans {blocks : List Block} {m m' m'' : Memory R} (h : Beside blocks m m') (h' : Beside blocks m' m'') :
    Beside blocks m m'' :=
  ⟨fun b hb => (h'.reals b hb).trans (h.reals b hb), h'.ints.trans h.ints⟩

theorem Beside.fill {blocks : List Block} {m m' : Memory R} (h : Beside blocks m m') {b : Block}
    (hb : b ∈ blocks) (first n : Nat) (f : Nat → R) : Beside blocks m (m'.fill b first n f) := by
  refine ⟨fun b' hb' => (reals_fill_of_ne ?_).trans (h.reals b' hb'), h.ints⟩
  rintro rfl
  exact hb' hb

/-- Only real elements of one block have changed, to their value under a function. -/
structure Grows (b : Block) (value : Nat → R) (m m' : Memory R) : Prop extends Beside [b] m m' where
  entries : ∀ i, m'.reals b i = value i ∨ m'.reals b i = m.reals b i

namespace Grows

variable {b : Block} {value : Nat → R} {m m' m'' : Memory R}

theorem refl (m : Memory R) : Grows b value m m := ⟨.refl _ m, fun _ => .inr rfl⟩

theorem trans (h : Grows b value m m') (h' : Grows b value m' m'') : Grows b value m m'' := by
  refine ⟨h.toBeside.trans h'.toBeside, fun i => ?_⟩
  rcases h'.entries i with h' | h'
  · exact .inl h'
  · rw [h']
    exact h.entries i

theorem setReal (m : Memory R) (i : Nat) : Grows b value m (m.setReal b i (value i)) := by
  refine ⟨⟨fun b' hb' => reals_setReal_of_ne (List.ne_of_not_mem_cons hb'), rfl⟩, fun j => ?_⟩
  by_cases hj : j = i
  · rw [hj]
    exact .inl reals_setReal_self
  · exact .inr (if_neg fun h => hj h.2)

/-- An element that is set stays so. -/
theorem kept (h : Grows b value m m') {i : Nat} (hi : m.reals b i = value i) : m'.reals b i = value i := by
  rcases h.entries i with h | h
  · exact h
  · rw [h, hi]

end Grows

end Memory

/-- A state with these arrays, these real variables and this memory. -/
structure Holding (arrays : String → Option View) (reals : String → Option R) (m : Memory R) (τ : State R) : Prop where
  arrays : τ.arrays = arrays
  reals : τ.reals = reals
  memory : τ.memory = m

variable {arrays : String → Option View} {reals : String → Option R} {m : Memory R} {s τ : State R}

theorem Holding.setInt (h : Holding arrays reals m τ) (n : String) (k : Int) : Holding arrays reals m (τ.setInt n k) :=
  ⟨h.arrays, h.reals, h.memory⟩

theorem Holding.withMemory (h : Holding arrays reals m τ) (m' : Memory R) : Holding arrays reals m' (τ.withMemory m') :=
  ⟨h.arrays, h.reals, rfl⟩

section Values

variable [Arithmetic R] {size : Struct → String → Nat}

theorem RealExpr.eval_var {n : String} {r : R} (h : s.reals n = some r) : (RealExpr.var n).eval size s = .ok r := by
  change (Ref.name n).readScalar size s = _
  rw [Ref.readScalar, h]

theorem RealExpr.eval_sub {a b : RealExpr} {x y : R} (ha : a.eval size s = .ok x) (hb : b.eval size s = .ok y) :
    (a.sub b).eval size s = .ok (Arithmetic.sub x y) := by
  rw [RealExpr.eval, ha, hb]
  rfl

theorem RealExpr.eval_mul {a b : RealExpr} {x y : R} (ha : a.eval size s = .ok x) (hb : b.eval size s = .ok y) :
    (a.mul b).eval size s = .ok (Arithmetic.mul x y) := by
  rw [RealExpr.eval, ha, hb]
  rfl

omit [Arithmetic R] in
theorem Cond.eval_eq {a b : IntExpr} {x y : Int} (ha : a.eval size s = .ok x) (hb : b.eval size s = .ok y) :
    (Cond.eq a b).eval size s = .ok (decide (x = y)) := by
  rw [Cond.eval, ha, hb]
  rfl

omit [Arithmetic R] in
theorem Cond.eval_both {a b : Cond} {x y : Bool} (ha : a.eval size s = .ok x) (hb : b.eval size s = .ok y) :
    (Cond.both a b).eval size s = .ok (x && y) := by
  rw [Cond.eval, ha, hb]
  cases x <;> rfl

theorem RealExpr.eval_choice {c : Cond} {a b : RealExpr} {t : Bool} {x y : R} (hc : c.eval size s = .ok t)
    (ha : a.eval size s = .ok x) (hb : b.eval size s = .ok y) :
    (RealExpr.choice c a b).eval size s = .ok (if t then x else y) := by
  rw [RealExpr.eval, hc, ha, hb]
  cases t <;> rfl

/-- An element in a state whose memory is known. -/
theorem Holding.eval_elem (h : Holding arrays reals m τ) {a : Ref} {i : IntExpr} {v : View} {k : Nat} {ρ : Known}
    (hρ : ρ.Of τ.ints) (hv : viewOf size arrays a = some v) (hi : i.Counts ρ k) (hk : k < v.length) :
    (RealExpr.elem a i).eval size τ = .ok (m.reals v.block (v.first + k)) := by
  rw [← h.memory]
  exact RealExpr.eval_elem (by rw [h.arrays]; exact hv) (hi.eval hρ) hk

end Values

/-! ## Loops -/

variable [Arithmetic R] {E : Fault → Prop} {ctx : Context R} {D : Answer R → Memory R → Prop} {ρ : Known}
  {ns : List String} {c : String} {layout : Layout}

/-- An assignment to an element. -/
theorem Runs.assignHolding (h : Holding arrays reals m s) (hρ : ρ.Of s.ints) {a : Ref} {i : IntExpr} {u : Update}
    {e : RealExpr} {v : View} {k : Nat} {r : R} (he : e.eval ctx.size s = .ok r) (hv : viewOf ctx.size arrays a = some v)
    (hi : i.Counts ρ k) (hk : k < v.length) :
    Runs E ctx (.assign (a.entry i) u e) s (fun τ => ρ.Of τ.ints ∧
      Holding arrays reals (m.setReal v.block (v.first + k) (u.apply (m.reals v.block (v.first + k)) r)) τ) D := by
  refine Runs.assignEntry he (by rw [h.arrays]; exact hv) (hi.eval hρ) hk ⟨hρ, ?_⟩
  rw [h.memory]
  exact h.withMemory _

/-- An assignment to a scalar member. -/
theorem Runs.assignMember (h : Holding arrays reals m s) (hρ : ρ.Of s.ints) {owner : Struct} {n : String} {u : Update}
    {e : RealExpr} {r : R} (he : e.eval ctx.size s = .ok r) (hsize : 0 < ctx.size owner n) :
    Runs E ctx (.assign ⟨.member owner n, none⟩ u e) s (fun τ => ρ.Of τ.ints ∧
      Holding arrays reals (m.setReal (.member owner n) 0 (u.apply (m.reals (.member owner n) 0) r)) τ) D := by
  have hview : viewOf ctx.size s.arrays (.member owner n) = some ⟨.member owner n, 0, ctx.size owner n⟩ := rfl
  have hassign : Target.assign ctx.size s ⟨.member owner n, none⟩ u r =
      .ok (s.updateElement ⟨.member owner n, 0, ctx.size owner n⟩ u r) := by
    change (do return s.updateElement (← s.locate ctx.size (.member owner n) (0 : Nat)) u r) = _
    rw [State.locate_of_viewOf hview hsize]
    rfl
  have hexec : (Stmt.assign ⟨.member owner n, none⟩ u e).exec ctx s =
      .ok (.next (s.updateElement ⟨.member owner n, 0, ctx.size owner n⟩ u r)) := by
    rw [Stmt.exec, he]
    change (do return Outcome.next (← Target.assign ctx.size s ⟨.member owner n, none⟩ u r)) = _
    rw [hassign]
    rfl
  refine .next hexec ⟨hρ, ?_⟩
  rw [← h.memory]
  exact h.withMemory _

/-- A call whose result is known. -/
theorem Runs.callHolding (h : Holding arrays reals m s) (hρ : ρ.Of s.ints) {c : Call} {vs : List Value}
    {r : Answer R × Memory R} (hvs : c.args.mapM (Arg.eval ctx.size s) = .ok vs) (hcall : ctx.call c.function vs m = .ok r) :
    Runs E ctx (.call c) s (fun τ => ρ.Of τ.ints ∧ Holding arrays reals r.2 τ) D := by
  refine Runs.call (P := fun r' => r' = r) hvs ?_ fun a m' h' => ⟨hρ, ?_⟩
  · rw [h.memory, hcall]
    exact rfl
  · subst h'
    exact h.withMemory m'

/-- A loop whose round `j` writes the element `first + j`. -/
theorem Runs.each_round (h : Holding arrays reals m s) (hρ : ρ.Of s.ints) (hc : c ∉ ns) {B : Block} {first n : Nat}
    {f : Nat → R} {body : Stmt}
    (hbody : ∀ j ρ' τ, j < n → ρ.Keeps ρ' (c :: ns) → (var c).Counts ρ' j → ρ'.Of τ.ints →
      Holding arrays reals (m.fill B first j f) τ →
      Runs E ctx body τ (fun τ' => (ρ'.forget ns).Of τ'.ints ∧
        Holding arrays reals ((m.fill B first j f).setReal B (first + j) (f j)) τ') D) :
    Runs E ctx (.each c n layout body) s
      (fun τ' => (ρ.forget (c :: ns)).Of τ'.ints ∧ Holding arrays reals (m.fill B first n f) τ') D := by
  refine Runs.each_known (fun j τ => Holding arrays reals (m.fill B first j f) τ) (fun _ _ k h => h.setInt c k) hρ hc ?_
    fun j ρ' τ hj hr => ?_
  · rw [Memory.fill_zero]
    exact h
  · rw [Memory.fill_succ]
    exact hbody j ρ' τ hj hr.keeps hr.count hr.known hr.property

/-- A loop that assigns to consecutive elements. -/
theorem Runs.each_update (h : Holding arrays reals m s) (hρ : ρ.Of s.ints) {a : Ref} {i : IntExpr} {u : Update}
    {e : RealExpr} {v : View} {base n : Nat} {r : Nat → R} (hv : viewOf ctx.size arrays a = some v)
    (hbase : base + n ≤ v.length)
    (hi : ∀ j ρ', j < n → ρ.Keeps ρ' [c] → (var c).Counts ρ' j → i.Counts ρ' (base + j))
    (he : ∀ j ρ' τ f, j < n → ρ.Keeps ρ' [c] → (var c).Counts ρ' j → ρ'.Of τ.ints →
      Holding arrays reals (m.fill v.block (v.first + base) j f) τ → e.eval ctx.size τ = .ok (r j)) :
    Runs E ctx (.each c n layout (.assign (a.entry i) u e)) s
      (fun τ' => (ρ.forget [c]).Of τ'.ints ∧ Holding arrays reals (m.fill v.block (v.first + base) n
        fun j => u.apply (m.reals v.block (v.first + base + j)) (r j)) τ') D := by
  refine Runs.each_round h hρ List.not_mem_nil fun j ρ' τ hj hkeep hcount hρ' hτ => ?_
  refine (Runs.assignHolding hτ hρ' (he j ρ' τ _ hj hkeep hcount hρ' hτ) hv (hi j ρ' hj hkeep hcount) (by omega)).mono
    (fun τ' hτ' => ⟨hτ'.1.forget _, ?_⟩) fun _ _ h => h
  have hold : (m.fill v.block (v.first + base) j fun j => u.apply (m.reals v.block (v.first + base + j)) (r j)).reals
      v.block (v.first + (base + j)) = m.reals v.block (v.first + base + j) := by
    rw [← Nat.add_assoc]
    exact Memory.reals_fill_of_outside (.inr (Nat.le_refl _))
  rw [hold, ← Nat.add_assoc] at hτ'
  exact hτ'.2

/-- A loop over the elements of an array from the first one on. -/
theorem Runs.each_update_first (h : Holding arrays reals m s) (hρ : ρ.Of s.ints) {a : Ref} {u : Update} {e : RealExpr}
    {v : View} {n : Nat} {r : Nat → R} (hv : viewOf ctx.size arrays a = some v) (hn : n ≤ v.length)
    (he : ∀ j ρ' τ f, j < n → (var c).Counts ρ' j → ρ'.Of τ.ints → Holding arrays reals (m.fill v.block v.first j f) τ →
      e.eval ctx.size τ = .ok (r j)) :
    Runs E ctx (.each c n layout (.assign (a.entry (var c)) u e)) s
      (fun τ' => (ρ.forget [c]).Of τ'.ints ∧ Holding arrays reals
        (m.fill v.block v.first n fun j => u.apply (m.reals v.block (v.first + j)) (r j)) τ') D := by
  have hroom : 0 + n ≤ v.length := by rwa [Nat.zero_add]
  refine Runs.each_update h hρ hv hroom (fun j ρ' _ _ hj => ?_) fun j ρ' τ f hj _ => he j ρ' τ f hj
  rwa [Nat.zero_add]

/-- A loop that copies consecutive elements. -/
theorem Runs.each_copied (h : Holding arrays reals m s) (hρ : ρ.Of s.ints) {a a' : Ref} {i i' : IntExpr} {v v' : View}
    {base base' n : Nat} (hv : viewOf ctx.size arrays a = some v) (hv' : viewOf ctx.size arrays a' = some v')
    (hne : v'.block ≠ v.block) (hbase : base + n ≤ v.length) (hbase' : base' + n ≤ v'.length)
    (hi : ∀ j ρ', (var c).Counts ρ' j → i.Counts ρ' (base + j))
    (hi' : ∀ j ρ', (var c).Counts ρ' j → i'.Counts ρ' (base' + j)) :
    Runs E ctx (.each c n layout (.assign (a.entry i) .set (.elem a' i'))) s
      (fun τ' => (ρ.forget [c]).Of τ'.ints ∧ Holding arrays reals (m.fill v.block (v.first + base) n
        fun j => m.reals v'.block (v'.first + (base' + j))) τ') D := by
  refine Runs.each_update h hρ hv hbase (fun j ρ' _ _ hj => hi j ρ' hj) fun j ρ' τ f hj _ hcount hρ' hτ => ?_
  have helem := hτ.eval_elem hρ' hv' (hi' j ρ' hcount) (by omega)
  rw [Memory.reals_fill_of_ne hne] at helem
  exact helem

/-! ## Sums of products -/

/-- A value to which products have been added, one after the other. -/
def weighted (h : R) (a z : Nat → R) (y : R) : Nat → R
  | 0 => y
  | t + 1 => Arithmetic.add (weighted h a z y t) (Arithmetic.mul (Arithmetic.mul h (a t)) (z t))

theorem weighted_congr {h y : R} {a a' z z' : Nat → R} {n : Nat} (ha : ∀ t < n, a t = a' t) (hz : ∀ t < n, z t = z' t) :
    weighted h a z y n = weighted h a' z' y n := by
  induction n with
  | zero => rfl
  | succ n ih =>
    rw [weighted, weighted, ih (fun t ht => ha t (Nat.lt_succ_of_lt ht)) fun t ht => hz t (Nat.lt_succ_of_lt ht),
      ha n (Nat.lt_succ_self n), hz n (Nat.lt_succ_self n)]

/-- A loop that adds products to one element. -/
theorem Runs.accumulate (h : Holding arrays reals m s) (hρ : ρ.Of s.ints) {bound : IntExpr} {count : Nat}
    (hbound : ∀ ρ', ρ.Keeps ρ' [c] → bound.Counts ρ' count) {target : Ref} {i : IntExpr} {e : RealExpr} {v : View}
    {k : Nat} (hv : viewOf ctx.size arrays target = some v) (hi : ∀ ρ', ρ.Keeps ρ' [c] → i.Counts ρ' k)
    (hk : k < v.length) {x : R} {a z : Nat → R}
    (he : ∀ t ρ' τ y, t < count → ρ.Keeps ρ' [c] → (var c).Counts ρ' t → ρ'.Of τ.ints →
      Holding arrays reals (m.setReal v.block (v.first + k) y) τ →
      e.eval ctx.size τ = .ok (Arithmetic.mul (Arithmetic.mul x (a t)) (z t))) :
    Runs E ctx (.each c bound layout (.assign (target.entry i) .add e)) s
      (fun τ' => (ρ.forget [c]).Of τ'.ints ∧ Holding arrays reals (m.setReal v.block (v.first + k)
        (weighted x a z (m.reals v.block (v.first + k)) count)) τ') D := by
  refine Runs.countUp_known (fun t τ => Holding arrays reals (m.setReal v.block (v.first + k)
    (weighted x a z (m.reals v.block (v.first + k)) t)) τ) (fun _ _ k h => h.setInt c k) hρ List.not_mem_nil (counts_lit 0)
    hbound (Nat.zero_le count) ?_ fun t ρ' τ _ ht hr => ?_
  · rw [weighted, Memory.setReal_self]
    exact h
  · refine (Runs.assignHolding hr.property hr.known (he t ρ' τ _ ht hr.keeps hr.count hr.known hr.property) hv
      (hi ρ' hr.keeps) hk).mono (fun τ' hτ' => ⟨hτ'.1.forget _, ?_⟩) fun _ _ h => h
    rw [Memory.reals_setReal_self, Memory.setReal_setReal] at hτ'
    exact hτ'.2

/-! ## Loops within each other -/

/-- A loop that sets elements of one block; what has been set in a round stays so. -/
theorem Runs.each_grows (h : Holding arrays reals m s) (hρ : ρ.Of s.ints) (hc : c ∉ ns) {b : Block} {value : Nat → R}
    {n : Nat} {body : Stmt} (done : Nat → Memory R → Prop)
    (hdone : ∀ j m m', Memory.Grows b value m m' → done j m → done j m')
    (hbody : ∀ j ρ' τ m', j < n → ρ.Keeps ρ' (c :: ns) → (var c).Counts ρ' j → ρ'.Of τ.ints →
      Memory.Grows b value m m' → Holding arrays reals m' τ → Runs E ctx body τ (fun τ' => (ρ'.forget ns).Of τ'.ints ∧
        ∃ m'', Holding arrays reals m'' τ' ∧ Memory.Grows b value m' m'' ∧ done j m'') D) :
    Runs E ctx (.each c n layout body) s (fun τ' => (ρ.forget (c :: ns)).Of τ'.ints ∧
      ∃ m', Holding arrays reals m' τ' ∧ Memory.Grows b value m m' ∧ ∀ j < n, done j m') D := by
  refine Runs.each_known (fun k τ => ∃ m', Holding arrays reals m' τ ∧ Memory.Grows b value m m' ∧ ∀ j < k, done j m') ?_
    hρ hc ⟨m, h, .refl m, fun j hj => absurd hj (Nat.not_lt_zero j)⟩ fun k ρ' τ hk hr => ?_
  · rintro k τ x ⟨m', hm', hg, hset⟩
    exact ⟨m', hm'.setInt c x, hg, hset⟩
  · obtain ⟨m', hm', hg, hset⟩ := hr.property
    refine (hbody k ρ' τ m' hk hr.keeps hr.count hr.known hg hm').mono (fun τ' h' => ⟨h'.1, ?_⟩) fun _ _ h => h
    obtain ⟨-, m'', hm'', hg', hnew⟩ := h'
    refine ⟨m'', hm'', hg.trans hg', fun j hj => ?_⟩
    rcases Nat.lt_succ_iff_lt_or_eq.1 hj with hj | rfl
    · exact hdone j m' m'' hg' (hset j hj)
    · exact hnew

end ControlCodegen.C
