import ControlCodegen.Proofs.C.Counting

/-!
# `C.Fill`: loops that write one element after the other

* `Memory.fill` : what it changes, and what it leaves alone.
* `Runs.assignEntry` : an assignment to an element whose index is known.
* `Runs.each_fill`, `each_copy` : a loop whose rounds write consecutive elements fills a part of an array, in one step.

The state after such a loop is given exactly, not by a property of it, so that the reader of a later statement sees which
memory it starts from.
-/

namespace ControlCodegen.C

set_option autoImplicit false

variable {R : Type}

namespace Memory

variable {m : Memory R} {b b' : Block} {first count i : Nat} {f : Nat → R}

theorem fill_zero : m.fill b first 0 f = m := by
  have hreals : (m.fill b first 0 f).reals = m.reals := by
    funext b' i
    exact if_neg fun h => by omega
  exact congrArg (fun r => (⟨r, m.ints, m.clock⟩ : Memory R)) hreals

theorem fill_succ : m.fill b first (count + 1) f = (m.fill b first count f).setReal b (first + count) (f count) := by
  have hreals : (m.fill b first (count + 1) f).reals =
      ((m.fill b first count f).setReal b (first + count) (f count)).reals := by
    funext b' i
    unfold fill setReal
    dsimp only
    by_cases hlast : b' = b ∧ i = first + count
    · obtain ⟨rfl, rfl⟩ := hlast
      rw [if_pos ⟨rfl, by omega, by omega⟩, if_pos ⟨rfl, rfl⟩, Nat.add_sub_cancel_left]
    · rw [if_neg hlast]
      by_cases hin : b' = b ∧ first ≤ i ∧ i < first + count
      · rw [if_pos ⟨hin.1, hin.2.1, by omega⟩, if_pos hin]
      · rw [if_neg hin, if_neg fun h => ?_]
        have hne : i ≠ first + count := fun heq => hlast ⟨h.1, heq⟩
        exact hin ⟨h.1, h.2.1, by omega⟩
  exact congrArg (fun r => (⟨r, m.ints, m.clock⟩ : Memory R)) hreals

theorem reals_fill_of_ne (h : b' ≠ b) : (m.fill b first count f).reals b' = m.reals b' := by
  funext i
  exact if_neg fun hi => h hi.1

theorem reals_fill (h : i < count) : (m.fill b first count f).reals b (first + i) = f i := by
  unfold fill
  dsimp only
  rw [if_pos ⟨rfl, by omega, by omega⟩, Nat.add_sub_cancel_left]

theorem reals_fill_zero (h : i < count) : (m.fill b 0 count f).reals b i = f i := by
  have hat : (m.fill b 0 count f).reals b (0 + i) = f i := reals_fill h
  rwa [Nat.zero_add] at hat

theorem reals_fill_of_outside (h : i < first ∨ first + count ≤ i) :
    (m.fill b first count f).reals b i = m.reals b i :=
  if_neg fun hi => by omega

end Memory

theorem State.setInt_setInt (s : State R) (n : String) (j k : Int) : (s.setInt n j).setInt n k = s.setInt n k := by
  unfold setInt
  dsimp only
  congr 1
  funext n'
  by_cases h : n' = n <;> simp [h]

variable [Arithmetic R] {E : Fault → Prop} {ctx : Context R} {s : State R} {N : State R → Prop}
  {D : Answer R → Memory R → Prop}

omit [Arithmetic R] in
theorem State.locate_of_viewOf {size : Struct → String → Nat} {a : Ref} {v : View} {k : Nat}
    (hv : viewOf size s.arrays a = some v) (hk : k < v.length) :
    s.locate size a k = .ok ⟨v.block, v.first + k, v.length - k⟩ := by
  have htail : tailOf size s.arrays a k = some ⟨v.block, v.first + k, v.length - k⟩ := by
    rw [tailOf, hv]
    exact if_pos ⟨Int.natCast_nonneg k, Int.ofNat_lt.2 hk⟩
  rw [State.locate, htail]

omit [Arithmetic R] in
/-- An index that is known is evaluated. -/
theorem IntExpr.Counts.eval {size : Struct → String → Nat} {ρ : Known} {i : IntExpr} {k : Nat} (h : i.Counts ρ k)
    (hρ : ρ.Of s.ints) : i.eval size s = .ok (k : Int) := by
  let S : Scope := ⟨size, s.arrays, fun _ _ => True, fun _ _ => True⟩
  exact IntExpr.eval_of_value (S := S) hρ h

/-- The value of an element. -/
theorem RealExpr.eval_elem {size : Struct → String → Nat} {a : Ref} {i : IntExpr} {v : View} {k : Nat}
    (hv : viewOf size s.arrays a = some v) (hi : i.eval size s = .ok (k : Int)) (hk : k < v.length) :
    (RealExpr.elem a i).eval size s = .ok (s.memory.reals v.block (v.first + k)) := by
  rw [RealExpr.eval, hi]
  change (do
    let w ← s.locate size a k
    return s.memory.reals w.block w.first) = _
  rw [State.locate_of_viewOf hv hk]
  rfl

/-- The value of an element of a member. -/
theorem RealExpr.eval_member {size : Struct → String → Nat} {owner : Struct} {n : String} {i : IntExpr} {k : Nat}
    (hi : i.eval size s = .ok (k : Int)) (hk : k < size owner n) :
    (RealExpr.elem (.member owner n) i).eval size s = .ok (s.memory.reals (.member owner n) k) := by
  rw [RealExpr.eval_elem rfl hi hk, Nat.zero_add]

/-- An assignment to an element whose index is known. -/
theorem Runs.assignEntry {a : Ref} {i : IntExpr} {u : Update} {e : RealExpr} {v : View} {k : Nat} {r : R}
    (he : e.eval ctx.size s = .ok r) (hv : viewOf ctx.size s.arrays a = some v)
    (hi : i.eval ctx.size s = .ok (k : Int)) (hk : k < v.length)
    (hN : N (s.withMemory (s.memory.setReal v.block (v.first + k) (u.apply (s.memory.reals v.block (v.first + k)) r)))) :
    Runs E ctx (.assign (a.entry i) u e) s N D := by
  have hassign : (a.entry i).assign ctx.size s u r =
      .ok (s.updateElement ⟨v.block, v.first + k, v.length - k⟩ u r) := by
    have hstep : (a.entry i).assign ctx.size s u r =
        (do return s.updateElement (← s.locate ctx.size a (← i.eval ctx.size s)) u r) := by
      cases a <;> rfl
    rw [hstep, hi]
    change (do return s.updateElement (← s.locate ctx.size a k) u r) = _
    rw [State.locate_of_viewOf hv hk]
    rfl
  refine Runs.next ?_ hN
  rw [Stmt.exec, he]
  change (do return Outcome.next (← (a.entry i).assign ctx.size s u r)) = _
  rw [hassign]
  rfl

/-- An assignment to a scalar member. -/
theorem Stmt.exec_assign_member {owner : Struct} {n : String} {e : RealExpr} {r : R} (he : e.eval ctx.size s = .ok r)
    (hsize : 0 < ctx.size owner n) :
    (Stmt.assign ⟨.member owner n, none⟩ .set e).exec ctx s =
      .ok (.next (s.withMemory (s.memory.setReal (.member owner n) 0 r))) := by
  have hview : viewOf ctx.size s.arrays (.member owner n) = some ⟨.member owner n, 0, ctx.size owner n⟩ := rfl
  have hlocate := State.locate_of_viewOf (k := 0) hview hsize
  have hassign : Target.assign ctx.size s ⟨.member owner n, none⟩ .set r =
      .ok (s.withMemory (s.memory.setReal (.member owner n) 0 r)) := by
    change (do return s.updateElement (← s.locate ctx.size (.member owner n) (0 : Nat)) .set r) = _
    rw [hlocate]
    rfl
  rw [Stmt.exec, he]
  change (do return Outcome.next (← Target.assign ctx.size s ⟨.member owner n, none⟩ .set r)) = _
  rw [hassign]
  rfl

/-- A loop whose round `j` writes the element `base + j` fills a part of the array. -/
theorem Runs.each_fill {c : String} {n base : Nat} {layout : Layout} {a : Ref} {i : IntExpr} {e : RealExpr} {v : View}
    {f : Nat → R} {ρ : Known} (hρ : ρ.Of s.ints) (hv : viewOf ctx.size s.arrays a = some v)
    (hbase : base + n ≤ v.length) (hi : ∀ j < n, i.Counts (ρ.set c (some (j : Int))) (base + j))
    (he : ∀ j < n, e.eval ctx.size ((s.withMemory (s.memory.fill v.block (v.first + base) j f)).setInt c j) = .ok (f j))
    (hN : N ((s.withMemory (s.memory.fill v.block (v.first + base) n f)).setInt c n)) :
    Runs E ctx (.each c n layout (.assign (a.entry i) .set e)) s N D := by
  let round (j : Nat) : State R := (s.withMemory (s.memory.fill v.block (v.first + base) j f)).setInt c j
  refine Runs.countUp (a := 0) (b := n) (fun k τ => ∃ j : Nat, k = j ∧ τ = round j) rfl (fun _ _ _ => rfl) ?_ ?_ ?_ ?_
  · refine ⟨0, rfl, ?_⟩
    change _ = (s.withMemory (s.memory.fill v.block (v.first + base) 0 f)).setInt c (0 : Nat)
    rw [Memory.fill_zero]
    rfl
  · rintro k τ ⟨j, rfl, rfl⟩
    exact State.ints_setInt_self _ c j
  · rintro k τ - hk ⟨j, rfl, rfl⟩
    have hj : j < n := Int.ofNat_lt.1 hk
    have hint : i.eval ctx.size (round j) = .ok ((base + j : Nat) : Int) := (hi j hj).eval (hρ.set c (.inr rfl))
    refine Runs.assignEntry (he j hj) hv hint (by omega) ⟨State.ints_setInt_self _ c j, j + 1, rfl, ?_⟩
    change ((s.withMemory ((s.memory.fill v.block (v.first + base) j f).setReal v.block (v.first + (base + j)) (f j))).setInt
      c j).setInt c ((j : Int) + 1) = (s.withMemory (s.memory.fill v.block (v.first + base) (j + 1) f)).setInt c _
    rw [State.setInt_setInt, Memory.fill_succ, Nat.add_assoc]
    rfl
  · rintro τ ⟨j, hj, rfl⟩
    have hjn : j = n := by omega
    subst hjn
    exact hN

/-- A loop that copies consecutive elements from one block to another. -/
theorem Runs.each_copy {c : String} {n base base' : Nat} {layout : Layout} {a a' : Ref} {i i' : IntExpr} {v v' : View}
    {ρ : Known} (hρ : ρ.Of s.ints) (hv : viewOf ctx.size s.arrays a = some v)
    (hv' : viewOf ctx.size s.arrays a' = some v') (hne : v'.block ≠ v.block) (hbase : base + n ≤ v.length)
    (hbase' : base' + n ≤ v'.length) (hi : ∀ j < n, i.Counts (ρ.set c (some (j : Int))) (base + j))
    (hi' : ∀ j < n, i'.Counts (ρ.set c (some (j : Int))) (base' + j))
    (hN : N ((s.withMemory (s.memory.fill v.block (v.first + base) n
      fun j => s.memory.reals v'.block (v'.first + (base' + j)))).setInt c n)) :
    Runs E ctx (.each c n layout (.assign (a.entry i) .set (.elem a' i'))) s N D := by
  refine Runs.each_fill hρ hv hbase hi (fun j hj => ?_) hN
  let m := s.memory.fill v.block (v.first + base) j fun j => s.memory.reals v'.block (v'.first + (base' + j))
  have hread : m.reals v'.block = s.memory.reals v'.block := Memory.reals_fill_of_ne hne
  have hint : i'.eval ctx.size ((s.withMemory m).setInt c j) = .ok ((base' + j : Nat) : Int) :=
    (hi' j hj).eval (hρ.set c (.inr rfl))
  have helem := RealExpr.eval_elem (s := (s.withMemory m).setInt c j) hv' hint (by omega)
  refine helem.trans (congrArg Except.ok ?_)
  change m.reals v'.block _ = _
  rw [hread]

end ControlCodegen.C
