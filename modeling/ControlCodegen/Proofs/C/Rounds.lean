import ControlCodegen.Proofs.C.Division

/-!
# `C.Rounds`: loops by what they do to memory

* `Round` : the state at the start of a round, by its number, by what is known of the other variables and by a property
  that does not look at the counter.
* `Runs.countUp_known`, `Runs.each_known` : a loop upwards takes such a property from its first round to its last.
* `Computes.countUp_known`, `each_known`, `countDown_known` : the same for runs that divide well.
* `Runs.assignIntEntry`, `Computes.assignEntry`, `Computes.assignReal` : assignments.

The counter and the variables `ns` that a round changes are forgotten, all others are known as before.
-/

namespace ControlCodegen.C

open IntExpr

set_option autoImplicit false

variable {R : Type} {ρ : Known} {ns : List String} {c : String}

/-- Where no fault is excused there is a result. -/
theorem Meets.exists_ok {α : Type} {r : Except Fault α} {P : α → Prop} (h : Meets (fun _ => False) r P) :
    ∃ a, r = .ok a ∧ P a := by
  cases r with
  | ok a => exact ⟨a, rfl, h⟩
  | error f => exact h.elim

/-- What is known of a variable that has a value. -/
theorem Known.Of.learn {ints : String → Option Int} (h : ρ.Of ints) {n : String} {k : Int} (hn : ints n = some k) :
    (ρ.set n (some k)).Of ints := by
  have hset := h.set n (.inr (rfl : some k = some k))
  have hsame : (fun n' => if n' = n then some k else ints n') = ints := by
    funext n'
    split_ifs with hn'
    · rw [hn', hn]
    · rfl
  rwa [hsame] at hset

/-- What is known after a variable is set. -/
theorem Known.Of.setInt {s : State R} (h : ρ.Of s.ints) (n : String) (k : Int) : (ρ.set n (some k)).Of (s.setInt n k).ints :=
  h.set n (.inr rfl)

theorem Known.Of.forget {ints : String → Option Int} (h : ρ.Of ints) (ns : List String) : (ρ.forget ns).Of ints :=
  h.mono (ρ.forget_le ns)

/-- The state at the start of round `k`. -/
structure Round (ρ : Known) (ns : List String) (c : String) (P : Nat → State R → Prop) (k : Nat) (ρ' : Known)
    (τ : State R) : Prop where
  keeps : ρ.Keeps ρ' (c :: ns)
  count : (var c).Counts ρ' k
  known : ρ'.Of τ.ints
  property : P k τ

namespace Round

variable {P : Nat → State R → Prop} {k : Nat} {ρ' : Known} {τ : State R}

theorem counter (h : Round ρ ns c P k ρ' τ) : τ.ints c = some (k : Int) :=
  h.known.value (Option.join_eq_some_iff.1 h.count)

/-- The counter gets its first value. -/
theorem start (hP : ∀ k τ x, P k τ → P k (τ.setInt c x)) (hρ : ρ.Of τ.ints) (h : P k τ) :
    Round ρ ns c P k (ρ.set c (some (k : Int))) (τ.setInt c k) :=
  ⟨(Known.Keeps.refl ρ _).set List.mem_cons_self _, counts_set_self ρ c k, hρ.setInt c k, hP k τ k h⟩

/-- The counter has its value still after the round, -/
theorem counter_after (h : Round ρ ns c P k ρ' τ) (hc : c ∉ ns) {τ' : State R} (hτ' : (ρ'.forget ns).Of τ'.ints) :
    τ'.ints c = some (k : Int) :=
  hτ'.value (Option.join_eq_some_iff.1 ((Known.Keeps.forget ρ' ns).counts hc h.count))

/-- and is moved to the next round. -/
theorem move (hP : ∀ k τ x, P k τ → P k (τ.setInt c x)) (h : Round ρ ns c P k ρ' τ) {τ' : State R}
    (hτ' : (ρ'.forget ns).Of τ'.ints) {j : Nat} (hj : P j τ') :
    Round ρ ns c P j ((ρ'.forget ns).set c (some (j : Int))) (τ'.setInt c j) where
  keeps := (h.keeps.trans (Known.Keeps.forget ρ' ns) fun _ hn => List.mem_cons_of_mem c hn).set List.mem_cons_self _
  count := counts_set_self _ c j
  known := hτ'.setInt c j
  property := hP j τ' j hj

theorem after (h : Round ρ ns c P k ρ' τ) : (ρ.forget (c :: ns)).Of τ.ints := h.known.mono h.keeps

end Round

theorem State.reals_setReal_self (s : State R) (n : String) (r : R) : (s.setReal n r).reals n = some r := if_pos rfl

theorem State.arrays_setArray_self (s : State R) (n : String) (v : Option View) : (s.setArray n v).arrays n = v :=
  if_pos rfl

/-! ## Integers -/

theorem IntExpr.eval_var {size : Struct → String → Nat} {s : State R} {n : String} {k : Int} (h : s.ints n = some k) :
    (var n).eval size s = .ok k := by
  rw [IntExpr.eval, h]

/-- The value of an element. -/
theorem IntExpr.eval_elem {size : Struct → String → Nat} {s : State R} {a : Ref} {i : IntExpr} {v : View} {k : Nat}
    (hv : viewOf size s.arrays a = some v) (hi : i.eval size s = .ok (k : Int)) (hk : k < v.length) :
    (IntExpr.elem a i).eval size s = .ok (s.memory.ints v.block (v.first + k)) := by
  rw [IntExpr.eval, hi]
  change (do
    let w ← s.locate size a k
    return s.memory.ints w.block w.first) = _
  rw [State.locate_of_viewOf hv hk]
  rfl

variable [Arithmetic R] {ctx : Context R} {s : State R} {D : Answer R → Memory R → Prop} {layout : Layout} {body : Stmt}

/-- A function returns with an integer. -/
theorem Runs.returnInt {E : Fault → Prop} {N : State R → Prop} {e : IntExpr} {k : Int} (he : e.eval ctx.size s = .ok k)
    (hD : D (.int k) s.memory) : Runs E ctx (.returnInt e) s N D := by
  unfold Runs
  rw [Stmt.exec, he]
  exact hD

/-- An assignment to an element whose index is known. -/
theorem Runs.assignIntEntry {E : Fault → Prop} {N : State R → Prop} {a : Ref} {i e : IntExpr} {v : View} {k : Nat}
    {x : Int} (he : e.eval ctx.size s = .ok x) (hv : viewOf ctx.size s.arrays a = some v)
    (hi : i.eval ctx.size s = .ok (k : Int)) (hk : k < v.length)
    (hN : N (s.withMemory (s.memory.setInt v.block (v.first + k) x))) :
    Runs E ctx (.assignInt (a.entry i) e) s N D := by
  refine Runs.assignInt he ?_ hN
  have hstep : (a.entry i).assignInt ctx.size s x = (do
      let w ← s.locate ctx.size a (← i.eval ctx.size s)
      return s.withMemory (s.memory.setInt w.block w.first x)) := by
    cases a <;> rfl
  rw [hstep, hi]
  change (do
    let w ← s.locate ctx.size a k
    return s.withMemory (s.memory.setInt w.block w.first x)) = _
  rw [State.locate_of_viewOf hv hk]
  rfl

/-! ## Runs -/

namespace Runs

variable {E : Fault → Prop}

/-- A counter goes up from `a` to `b`. -/
theorem countUp_known {first bound : IntExpr} {a b : Nat} (P : Nat → State R → Prop)
    (hP : ∀ k τ x, P k τ → P k (τ.setInt c x)) (hρ : ρ.Of s.ints) (hc : c ∉ ns) (ha : first.Counts ρ a)
    (hb : ∀ ρ', ρ.Keeps ρ' (c :: ns) → bound.Counts ρ' b) (hab : a ≤ b) (h0 : P a s)
    (hbody : ∀ k ρ' τ, a ≤ k → k < b → Round ρ ns c P k ρ' τ →
      Runs E ctx body τ (fun τ' => (ρ'.forget ns).Of τ'.ints ∧ P (k + 1) τ') D) :
    Runs E ctx (.countUp c first bound layout body) s (fun τ' => (ρ.forget (c :: ns)).Of τ'.ints ∧ P b τ') D := by
  refine Runs.countUp (a := a) (b := b) (fun k τ => ∃ (j : Nat) (ρ' : Known), k = j ∧ a ≤ j ∧ Round ρ ns c P j ρ' τ)
    (ha.eval hρ) ?_ ⟨a, _, rfl, Nat.le_refl a, .start hP hρ h0⟩ ?_ ?_ ?_
  · rintro k τ ⟨j, ρ', rfl, -, h⟩
    exact (hb ρ' h.keeps).eval h.known
  · rintro k τ ⟨j, ρ', rfl, -, h⟩
    exact h.counter
  · rintro k τ - hk ⟨j, ρ', rfl, haj, h⟩
    refine (hbody j ρ' τ haj (Int.ofNat_lt.1 hk) h).mono (fun τ' hnext => ?_) fun _ _ h => h
    obtain ⟨hτ', hj⟩ := hnext
    exact ⟨h.counter_after hc hτ', j + 1, _, rfl, Nat.le_succ_of_le haj, h.move hP hτ' hj⟩
  · rintro τ ⟨j, ρ', hj, -, h⟩
    obtain rfl : j = b := by omega
    exact ⟨h.after, h.property⟩

/-- A counter goes up from zero. -/
theorem each_known {n : Nat} (P : Nat → State R → Prop) (hP : ∀ k τ x, P k τ → P k (τ.setInt c x)) (hρ : ρ.Of s.ints)
    (hc : c ∉ ns) (h0 : P 0 s)
    (hbody : ∀ k ρ' τ, k < n → Round ρ ns c P k ρ' τ →
      Runs E ctx body τ (fun τ' => (ρ'.forget ns).Of τ'.ints ∧ P (k + 1) τ') D) :
    Runs E ctx (.each c n layout body) s (fun τ' => (ρ.forget (c :: ns)).Of τ'.ints ∧ P n τ') D :=
  countUp_known P hP hρ hc (counts_lit 0) (fun _ _ => counts_lit n) (Nat.zero_le n) h0 fun k ρ' τ _ => hbody k ρ' τ

end Runs

/-! ## Runs that divide well -/

namespace Computes

/-- A counter goes up from `a` to `b`. -/
theorem countUp_known {first bound : IntExpr} {a b : Nat} (P : Nat → State R → Prop)
    (hP : ∀ k τ x, P k τ → P k (τ.setInt c x)) (hρ : ρ.Of s.ints) (hc : c ∉ ns) (ha : first.Counts ρ a)
    (hb : ∀ ρ', ρ.Keeps ρ' (c :: ns) → bound.Counts ρ' b) (hab : a ≤ b) (h0 : P a s)
    (hbody : ∀ k ρ' τ, a ≤ k → k < b → Round ρ ns c P k ρ' τ →
      Computes ctx body τ (fun τ' => (ρ'.forget ns).Of τ'.ints ∧ P (k + 1) τ') D) :
    Computes ctx (.countUp c first bound layout body) s (fun τ' => (ρ.forget (c :: ns)).Of τ'.ints ∧ P b τ') D := by
  refine Computes.countUp (a := a) (b := b) (fun k τ => ∃ (j : Nat) (ρ' : Known), k = j ∧ a ≤ j ∧ Round ρ ns c P j ρ' τ)
    (ha.eval hρ) ?_ ⟨a, _, rfl, Nat.le_refl a, .start hP hρ h0⟩ ?_ ?_ ?_
  · rintro k τ ⟨j, ρ', rfl, -, h⟩
    exact (hb ρ' h.keeps).eval h.known
  · rintro k τ ⟨j, ρ', rfl, -, h⟩
    exact h.counter
  · rintro k τ - hk ⟨j, ρ', rfl, haj, h⟩
    refine (hbody j ρ' τ haj (Int.ofNat_lt.1 hk) h).mono (fun τ' hnext => ?_) fun _ _ h => h
    obtain ⟨hτ', hj⟩ := hnext
    exact ⟨h.counter_after hc hτ', j + 1, _, rfl, Nat.le_succ_of_le haj, h.move hP hτ' hj⟩
  · rintro τ ⟨j, ρ', hj, -, h⟩
    obtain rfl : j = b := by omega
    exact ⟨h.after, h.property⟩

/-- A counter goes up from zero. -/
theorem each_known {n : Nat} (P : Nat → State R → Prop) (hP : ∀ k τ x, P k τ → P k (τ.setInt c x)) (hρ : ρ.Of s.ints)
    (hc : c ∉ ns) (h0 : P 0 s)
    (hbody : ∀ k ρ' τ, k < n → Round ρ ns c P k ρ' τ →
      Computes ctx body τ (fun τ' => (ρ'.forget ns).Of τ'.ints ∧ P (k + 1) τ') D) :
    Computes ctx (.each c n layout body) s (fun τ' => (ρ.forget (c :: ns)).Of τ'.ints ∧ P n τ') D :=
  countUp_known P hP hρ hc (counts_lit 0) (fun _ _ => counts_lit n) (Nat.zero_le n) h0 fun k ρ' τ _ => hbody k ρ' τ

/-- A counter goes down to zero. The property of a round is the one that holds when so many rounds are left. -/
theorem countDown_known {n : Nat} (P : Nat → State R → Prop) (hP : ∀ k τ x, P k τ → P k (τ.setInt c x))
    (hρ : ρ.Of s.ints) (hc : c ∉ ns) (h0 : P n s)
    (hbody : ∀ k ρ' τ, k < n → ρ.Keeps ρ' (c :: ns) → (var c).Counts ρ' k → ρ'.Of τ.ints → P (k + 1) τ →
      Computes ctx body τ (fun τ' => (ρ'.forget ns).Of τ'.ints ∧ P k τ') D) :
    Computes ctx (.countDown c ((n : Int) - 1) layout body) s (fun τ' => (ρ.forget (c :: ns)).Of τ'.ints ∧ P 0 τ') D := by
  have hkeep : ∀ {ρ' : Known}, ρ.Keeps ρ' (c :: ns) → ρ.Keeps (ρ'.forget ns) (c :: ns) := fun h =>
    h.trans (Known.Keeps.forget _ ns) fun _ hn => List.mem_cons_of_mem c hn
  refine Computes.countDown (fun k τ => ∃ (j : Nat) (ρ' : Known), k + 1 = j ∧ ρ.Keeps ρ' (c :: ns) ∧
    ρ' c = some (some k) ∧ ρ'.Of τ.ints ∧ P j τ) ?_ ?_ ?_ ?_
  · exact ⟨n, _, by omega, (Known.Keeps.refl ρ _).set List.mem_cons_self _, if_pos rfl, hρ.setInt c _, hP n s _ h0⟩
  · rintro k τ ⟨j, ρ', -, -, hk, hτ, -⟩
    exact hτ.value hk
  · rintro k τ hk0 hk ⟨j, ρ', hkj, hkeeps, hkc, hτ, hj⟩
    obtain ⟨i, rfl⟩ := Int.eq_ofNat_of_zero_le hk0
    obtain rfl : j = i + 1 := by omega
    have hi : (var c).Counts ρ' i := counts_var hkc
    refine (hbody i ρ' τ (by omega) hkeeps hi hτ hj).mono (fun τ' hnext => ?_) fun _ _ h => h
    obtain ⟨hτ', hPi⟩ := hnext
    refine ⟨hτ'.value (Option.join_eq_some_iff.1 ((Known.Keeps.forget ρ' ns).counts hc hi)), i, _, by omega,
      (hkeep hkeeps).set List.mem_cons_self _, if_pos rfl, hτ'.setInt c _, hP i τ' _ hPi⟩
  · rintro τ ⟨j, ρ', hj, hkeeps, -, hτ, hPj⟩
    obtain rfl : j = 0 := by omega
    exact ⟨hτ.mono hkeeps, hPj⟩

variable {N : State R → Prop}

/-- An assignment to an element whose index is known. -/
theorem assignEntry {a : Ref} {i : IntExpr} {u : Update} {e : RealExpr} {v : View} {k : Nat} {r : R}
    (hdiv : e.NoDivision) (hr : u = .div → Arithmetic.isZero r = false) (he : e.eval ctx.size s = .ok r)
    (hv : viewOf ctx.size s.arrays a = some v) (hi : i.eval ctx.size s = .ok (k : Int)) (hk : k < v.length)
    (hN : N (s.withMemory (s.memory.setReal v.block (v.first + k) (u.apply (s.memory.reals v.block (v.first + k)) r)))) :
    Computes ctx (.assign (a.entry i) u e) s N D := by
  refine ⟨.assignEntry he hv hi hk hN, hdiv.dividesWell, fun hu x hx => ?_⟩
  obtain rfl := Except.ok.inj (he.symm.trans hx)
  exact hr hu

/-- An assignment to a variable, without a division. -/
theorem assignReal {n : String} {u : Update} {e : RealExpr} {r : R} {s' : State R} (hdiv : e.NoDivision) (hu : u ≠ .div)
    (he : e.eval ctx.size s = .ok r) (hs' : s.updateReal n u r = .ok s') (hN : N s') :
    Computes ctx (.assign ⟨.name n, none⟩ u e) s N D := by
  have hexec : (Stmt.assign ⟨.name n, none⟩ u e).exec ctx s = .ok (.next s') := by
    rw [Stmt.exec, he]
    change (do return Outcome.next (← s.updateReal n u r)) = _
    rw [hs']
    rfl
  exact .of_noDivision ⟨hdiv, hu⟩ (.next hexec hN)

end Computes

end ControlCodegen.C
