import ControlCodegen.Proofs.C.Semantics

/-!
# `C.Triple`: rules for runs of generated C

* `Meets` : a result has a property, or is a fault that is excused.
* `Runs` : a statement run from a state goes on in states with one property, or returns with another.

The rule of a loop asks for an invariant that depends on the counter. Which faults are excused is left open: none where a
program has to end well, those of a call that does not fit its function where functions are named by the user.
-/

namespace ControlCodegen.C

set_option autoImplicit false

variable {R : Type} {E : Fault → Prop}

/-- A result has a property, or is an excused fault. -/
def Meets {α : Type} (E : Fault → Prop) (r : Except Fault α) (P : α → Prop) : Prop :=
  match r with
  | .ok a => P a
  | .error f => E f

namespace Meets

variable {α β : Type}

@[simp] theorem ok_iff {a : α} {P : α → Prop} : Meets E (.ok a) P ↔ P a := Iff.rfl

theorem mono {r : Except Fault α} {P Q : α → Prop} (h : Meets E r P) (hPQ : ∀ a, P a → Q a) : Meets E r Q := by
  cases r with
  | ok a => exact hPQ a h
  | error f => exact h

theorem bind {r : Except Fault α} {f : α → Except Fault β} {P : α → Prop} {Q : β → Prop} (h : Meets E r P)
    (hf : ∀ a, P a → Meets E (f a) Q) : Meets E (r >>= f) Q := by
  cases r with
  | ok a => exact hf a h
  | error e => exact h

/-- Where no fault is excused, a result that is determined is that one. -/
theorem eq_ok {r : Except Fault α} {a : α} (h : Meets (fun _ => False) r fun a' => a' = a) : r = .ok a := by
  cases r with
  | ok a' => exact congrArg Except.ok h
  | error f => exact h.elim

/-- Where one fault is excused and nothing else can come of it, there is that fault. -/
theorem eq_error {r : Except Fault α} {f : Fault} (h : Meets (fun f' => f' = f) r fun _ => False) : r = .error f := by
  cases r with
  | ok a => exact h.elim
  | error f' => exact congrArg Except.error h

end Meets

/-- A run goes on with `N` or returns with `D`. -/
def Outcome.Ends (N : State R → Prop) (D : Answer R → Memory R → Prop) : Outcome R → Prop
  | .next s => N s
  | .done a m => D a m

theorem Outcome.Ends.mono {N N' : State R → Prop} {D D' : Answer R → Memory R → Prop} {o : Outcome R}
    (h : o.Ends N D) (hN : ∀ s, N s → N' s) (hD : ∀ a m, D a m → D' a m) : o.Ends N' D' := by
  cases o with
  | next s => exact hN s h
  | done a m => exact hD a m h

theorem Outcome.meets_andThen {o : Except Fault (Outcome R)} {f : State R → Except Fault (Outcome R)}
    {N N' : State R → Prop} {D : Answer R → Memory R → Prop} (h : Meets E o (Outcome.Ends N D))
    (hf : ∀ s, N s → Meets E (f s) (Outcome.Ends N' D)) : Meets E (Outcome.andThen o f) (Outcome.Ends N' D) := by
  refine Meets.bind h fun a ha => ?_
  cases a with
  | next s => exact hf s ha
  | done a m => exact ha

/-- A loop with an invariant that tells how many rounds are left. -/
theorem meets_rounds {counter : String} {test : State R → Except Fault Bool}
    {body : State R → Except Fault (Outcome R)} (I : Nat → State R → Prop) {N : State R → Prop}
    {D : Answer R → Memory R → Prop}
    (hgo : ∀ n s, I (n + 1) s → test s = .ok true ∧ Meets E (body s) (Outcome.Ends (I n) D))
    (hstop : ∀ s, I 0 s → test s = .ok false ∧ N s) :
    ∀ n s, I n s → Meets E (rounds counter test body n s) (Outcome.Ends N D) := by
  intro n
  induction n with
  | zero =>
    intro s hs
    obtain ⟨ht, hN⟩ := hstop s hs
    rw [rounds, ht]
    exact hN
  | succ n ih =>
    intro s hs
    obtain ⟨ht, hb⟩ := hgo n s hs
    rw [rounds, ht]
    exact Outcome.meets_andThen hb ih

/-- From this state the statement goes on with `N` or returns with `D`. -/
def Runs [Arithmetic R] (E : Fault → Prop) (ctx : Context R) (st : Stmt) (s : State R) (N : State R → Prop)
    (D : Answer R → Memory R → Prop) : Prop :=
  Meets E (st.exec ctx s) (Outcome.Ends N D)

namespace Runs

variable [Arithmetic R] {ctx : Context R} {s : State R} {N N' : State R → Prop} {D D' : Answer R → Memory R → Prop}

theorem mono {st : Stmt} (h : Runs E ctx st s N D) (hN : ∀ s, N s → N' s) (hD : ∀ a m, D a m → D' a m) :
    Runs E ctx st s N' D' :=
  Meets.mono h fun _ ho => ho.mono hN hD

/-- A statement that only changes the state. -/
theorem next {st : Stmt} {s' : State R} (hst : st.exec ctx s = .ok (.next s')) (h : N s') : Runs E ctx st s N D := by
  unfold Runs
  rw [hst]
  exact h

theorem seq {a b : Stmt} (ha : Runs E ctx a s N' D) (hb : ∀ s, N' s → Runs E ctx b s N D) :
    Runs E ctx (.seq a b) s N D :=
  Outcome.meets_andThen ha hb

theorem beside {a b : Stmt} (ha : Runs E ctx a s N' D) (hb : ∀ s, N' s → Runs E ctx b s N D) :
    Runs E ctx (.beside a b) s N D :=
  Outcome.meets_andThen ha hb

/-- A block of statements is its first statement, then the others. -/
theorem block_cons {a : Stmt} {as : List Stmt} (ha : Runs E ctx a s N' D)
    (has : ∀ s, N' s → Runs E ctx (.block as) s N D) : Runs E ctx (.block (a :: as)) s N D := by
  cases as with
  | nil => exact ha.mono (fun s hs => has s hs) fun _ _ h => h
  | cons b bs => exact seq ha has

theorem assignInt {t : Target} {e : IntExpr} {k : Int} {s' : State R} (he : e.eval ctx.size s = .ok k)
    (ht : t.assignInt ctx.size s k = .ok s') (h : N s') : Runs E ctx (.assignInt t e) s N D := by
  unfold Runs
  rw [Stmt.exec, he]
  change Meets E (do return Outcome.next (← t.assignInt ctx.size s k)) _
  rw [ht]
  exact h

/-- A call whose answer is kept; it has to be an integer. -/
theorem assignResult {n : String} {c : Call} {vs : List Value} {P : Int → Memory R → Prop}
    (hvs : c.args.mapM (Arg.eval ctx.size s) = .ok vs)
    (hc : Meets E (ctx.call c.function vs s.memory) fun r => ∃ k, r.1 = .int k ∧ P k r.2)
    (h : ∀ k m, P k m → N ((s.withMemory m).setInt n k)) : Runs E ctx (.assignResult n c) s N D := by
  unfold Runs
  rw [Stmt.exec, Call.evalInt, Call.eval, hvs]
  refine Meets.bind (P := fun r => P r.1 r.2) (Meets.bind hc fun r hr => ?_) fun r hr => h r.1 r.2 hr
  obtain ⟨a, m⟩ := r
  obtain ⟨k, hk, hP⟩ := hr
  subst hk
  exact hP

theorem call {c : Call} {vs : List Value} {P : Answer R × Memory R → Prop}
    (hvs : c.args.mapM (Arg.eval ctx.size s) = .ok vs) (hc : Meets E (ctx.call c.function vs s.memory) P)
    (h : ∀ a m, P (a, m) → N (s.withMemory m)) : Runs E ctx (.call c) s N D := by
  unfold Runs
  rw [Stmt.exec, Call.eval, hvs]
  exact Meets.bind hc fun r hr => h r.1 r.2 hr

theorem when {t : Test} {layout : Layout} {body : Stmt} {b : Bool} (ht : t.eval ctx.size s = .ok b)
    (hyes : b = true → Runs E ctx body s N D) (hno : b = false → N s) : Runs E ctx (.when t layout body) s N D := by
  unfold Runs
  rw [Stmt.exec, ht]
  cases b with
  | true => exact hyes rfl
  | false => exact hno rfl

theorem branch {t : Test} {yes no : Stmt} {b : Bool} (ht : t.eval ctx.size s = .ok b)
    (hyes : b = true → Runs E ctx yes s N D) (hno : b = false → Runs E ctx no s N D) :
    Runs E ctx (.branch t yes no) s N D := by
  unfold Runs
  rw [Stmt.exec, ht]
  cases b with
  | true => exact hyes rfl
  | false => exact hno rfl

/-- A counter goes up from `a` to `b`. The invariant speaks of the state at the start of the round, when the counter has
been moved on. -/
theorem countUp {c : String} {first bound : IntExpr} {layout : Layout} {body : Stmt} {a b : Int}
    (I : Int → State R → Prop) (ha : first.eval ctx.size s = .ok a)
    (hb : ∀ k τ, I k τ → bound.eval ctx.size τ = .ok b) (h0 : I a (s.setInt c a))
    (hI : ∀ k τ, I k τ → τ.ints c = some k)
    (hstep : ∀ k τ, a ≤ k → k < b → I k τ →
      Runs E ctx body τ (fun τ' => τ'.ints c = some k ∧ I (k + 1) (τ'.setInt c (k + 1))) D)
    (hN : ∀ τ, I (max a b) τ → N τ) : Runs E ctx (.countUp c first bound layout body) s N D := by
  unfold Runs
  rw [Stmt.exec, ha]
  change Meets E (do
    let b ← bound.eval ctx.size (s.setInt c a)
    rounds c _ _ (b - a).toNat (s.setInt c a)) _
  rw [hb a _ h0]
  refine meets_rounds (fun n τ => ∃ k, a ≤ k ∧ k + n = max a b ∧ I k τ) ?_ ?_ _ _
    ⟨a, Int.le_refl a, by omega, h0⟩
  · rintro n τ ⟨k, hak, hkn, hk⟩
    have hkb : k < b := by omega
    refine ⟨?_, ?_⟩
    · rw [IntExpr.eval, hI k τ hk, hb k τ hk]
      exact congrArg Except.ok (decide_eq_true hkb)
    · refine Outcome.meets_andThen (hstep k τ hak hkb hk) fun τ' hτ' => ?_
      rw [State.step, hτ'.1]
      exact ⟨k + 1, by omega, by push_cast at hkn ⊢; omega, hτ'.2⟩
  · rintro τ ⟨k, hak, hkn, hk⟩
    have hkb : k = max a b := by simpa using hkn
    subst hkb
    refine ⟨?_, hN τ hk⟩
    rw [IntExpr.eval, hI _ τ hk, hb _ τ hk]
    exact congrArg Except.ok (decide_eq_false (by omega))

/-- A counter goes down from `last` to zero. -/
theorem countDown {c : String} {last : Int} {layout : Layout} {body : Stmt} (I : Int → State R → Prop)
    (h0 : I last (s.setInt c last)) (hI : ∀ k τ, I k τ → τ.ints c = some k)
    (hstep : ∀ k τ, 0 ≤ k → k ≤ last → I k τ →
      Runs E ctx body τ (fun τ' => τ'.ints c = some k ∧ I (k - 1) (τ'.setInt c (k - 1))) D)
    (hN : ∀ τ, I (min last (-1)) τ → N τ) : Runs E ctx (.countDown c last layout body) s N D := by
  unfold Runs
  rw [Stmt.exec]
  refine meets_rounds (fun n τ => ∃ k, k ≤ last ∧ k = min last (-1) + n ∧ I k τ) ?_ ?_ _ _
    ⟨last, Int.le_refl last, by omega, h0⟩
  · rintro n τ ⟨k, hkl, hkn, hk⟩
    have hk0 : 0 ≤ k := by push_cast at hkn; omega
    refine ⟨?_, ?_⟩
    · rw [IntExpr.eval, hI k τ hk]
      exact congrArg Except.ok (decide_eq_true hk0)
    · refine Outcome.meets_andThen (hstep k τ hk0 hkl hk) fun τ' hτ' => ?_
      rw [State.step, hτ'.1]
      exact ⟨k - 1, by omega, by push_cast at hkn; omega, hτ'.2⟩
  · rintro τ ⟨k, hkl, hkn, hk⟩
    have hk' : k = min last (-1) := by simpa using hkn
    subst hk'
    refine ⟨?_, hN τ hk⟩
    rw [IntExpr.eval, hI _ τ hk]
    exact congrArg Except.ok (decide_eq_false (by omega))

end Runs

/-- A call of a function runs its body with the parameters bound. -/
theorem Function.meets_invoke [Arithmetic R] {ctx : Context R} {file : Statics R} {f : Function} {args : List Value}
    {m : Memory R} {s : State R} {P : Answer R × Memory R → Prop}
    (hs : bindParameters f.prototype.params args ⟨f.prototype.name, fun _ => none, file.reals, file.arrays, m⟩ = some s)
    (h : Runs E ctx f.body s (fun τ => P (.nothing, τ.memory)) fun a m => P (a, m)) :
    Meets E (f.invoke ctx file args m) P := by
  unfold invoke
  rw [hs]
  refine Meets.bind h fun o ho => ?_
  cases o with
  | next τ => exact ho
  | done a m => exact ho

end ControlCodegen.C
