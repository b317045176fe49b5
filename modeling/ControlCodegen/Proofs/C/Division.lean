import ControlCodegen.Decimal.Binary
import ControlCodegen.Proofs.C.Fill
import Mathlib.Algebra.Order.Field.Rat

/-!
# `C.Division`: runs over exact numbers, and what they divide by

* `Reading` : what the constants of a problem stand for among exact numbers. An ordered field with a reading is an
  `Arithmetic`.
* `RealExpr.DividesWell`, `Stmt.DividesWell` : no division that is come to has a zero divisor.
* `Computes` : a statement runs without a fault and divides well.

In a field something divided by zero is zero, so that a run does not show a zero divisor. `DividesWell` looks at the
divisors themselves, at every place and in every round of a loop. Divisions of functions that are called are theirs.
-/

namespace ControlCodegen.C

set_option autoImplicit false

variable {R : Type}

/-! ## Exact numbers -/

/-- The exact numbers that constants stand for. -/
class Reading (R : Type) where
  ofFloat : Float → R

/-- A finite double is a rational number. -/
def rationalValue : Decimal.Binary64 → ℚ
  | .finite negative significand exponent => (if negative then -1 else 1) * significand * 2 ^ exponent
  | .infinite _ | .notANumber => 0

/-- Constants stand for what their doubles are. -/
instance : Reading ℚ := ⟨fun v => rationalValue (Decimal.Binary64.ofFloat v)⟩

/-- Exact numbers. -/
instance exactArithmetic [Field R] [LinearOrder R] [Reading R] : Arithmetic R where
  ofFloat := Reading.ofFloat
  ofNat n := n
  add a b := a + b
  sub a b := a - b
  mul a b := a * b
  div a b := a / b
  abs a := |a|
  less a b := decide (a < b)
  isZero a := decide (a = 0)

/-! ## Divisors -/

section

variable [Arithmetic R]

/-- A value, if there is one, that is not zero. -/
def NotZero (r : Except Fault R) : Prop := ∀ x, r = .ok x → Arithmetic.isZero x = false

section

variable (size : Struct → String → Nat) (s : State R)

/-- No division in the expression is by zero. -/
def RealExpr.DividesWell : RealExpr → Prop
  | .literal _ | .whole _ | .scalar _ | .elem _ _ => True
  | .add a b | .sub a b | .mul a b => a.DividesWell ∧ b.DividesWell
  | .div a b => a.DividesWell ∧ b.DividesWell ∧ NotZero (b.eval size s)
  | .abs a => a.DividesWell
  | .choice c a b => (c.eval size s = .ok true → a.DividesWell) ∧ (c.eval size s = .ok false → b.DividesWell)

def Test.DividesWell : Test → Prop
  | .cond _ => True
  | .greater a b => a.DividesWell size s ∧ b.DividesWell size s
  | .isZero a => a.DividesWell size s

end

omit [Arithmetic R] in
/-- A property holds at the start of each round, as long as the test does. -/
def duringRounds (test : State R → Except Fault Bool) (round : State R → Except Fault (Outcome R))
    (P : State R → Prop) : Nat → State R → Prop
  | 0, _ => True
  | n + 1, s => test s = .ok true → P s ∧ ∀ s', round s = .ok (.next s') → duringRounds test round P n s'

/-- No division that the statement comes to is by zero. -/
def Stmt.DividesWell (ctx : Context R) : Stmt → State R → Prop
  | .seq a b, s | .beside a b, s =>
    a.DividesWell ctx s ∧ ∀ s', a.exec ctx s = .ok (.next s') → b.DividesWell ctx s'
  | .declareReal _ (some e), s | .returnReal e, s => e.DividesWell ctx.size s
  | .assign _ u e, s => e.DividesWell ctx.size s ∧ (u = .div → NotZero (e.eval ctx.size s))
  | .countUp c first bound _ body, s =>
    ∀ a b, first.eval ctx.size s = .ok a → bound.eval ctx.size (s.setInt c a) = .ok b →
      duringRounds (fun s => do return decide ((← (IntExpr.var c).eval ctx.size s) < (← bound.eval ctx.size s)))
        (fun s => Outcome.andThen (body.exec ctx s) fun s => s.step c 1) (body.DividesWell ctx) (b - a).toNat
        (s.setInt c a)
  | .countDown c last _ body, s =>
    duringRounds (fun s => do return decide (0 ≤ (← (IntExpr.var c).eval ctx.size s)))
      (fun s => Outcome.andThen (body.exec ctx s) fun s => s.step c (-1)) (body.DividesWell ctx) (last + 1).toNat
      (s.setInt c last)
  | .when t _ body, s => t.DividesWell ctx.size s ∧ (t.eval ctx.size s = .ok true → body.DividesWell ctx s)
  | .branch t yes no, s =>
    t.DividesWell ctx.size s ∧ (t.eval ctx.size s = .ok true → yes.DividesWell ctx s) ∧
      (t.eval ctx.size s = .ok false → no.DividesWell ctx s)
  | .returnTest t, s => t.DividesWell ctx.size s
  | _, _ => True

/-- No division in a call of the function is by zero. -/
def Function.DividesWell (ctx : Context R) (file : Statics R) (f : Function) (args : List Value) (m : Memory R) : Prop :=
  ∀ s, bindParameters f.prototype.params args ⟨f.prototype.name, fun _ => none, file.reals, file.arrays, m⟩ = some s →
    f.body.DividesWell ctx s

/-! ## Statements without divisions -/

def RealExpr.NoDivision : RealExpr → Prop
  | .literal _ | .whole _ | .scalar _ | .elem _ _ => True
  | .add a b | .sub a b | .mul a b | .choice _ a b => a.NoDivision ∧ b.NoDivision
  | .div _ _ => False
  | .abs a => a.NoDivision

def Test.NoDivision : Test → Prop
  | .cond _ => True
  | .greater a b => a.NoDivision ∧ b.NoDivision
  | .isZero a => a.NoDivision

def Stmt.NoDivision : Stmt → Prop
  | .seq a b | .beside a b => a.NoDivision ∧ b.NoDivision
  | .declareReal _ (some e) | .returnReal e => e.NoDivision
  | .assign _ u e => e.NoDivision ∧ u ≠ .div
  | .countUp _ _ _ _ body | .countDown _ _ _ body => body.NoDivision
  | .when t _ body => t.NoDivision ∧ body.NoDivision
  | .branch t yes no => t.NoDivision ∧ yes.NoDivision ∧ no.NoDivision
  | .returnTest t => t.NoDivision
  | _ => True

variable {size : Struct → String → Nat} {ctx : Context R} {s : State R}

theorem RealExpr.NoDivision.dividesWell {e : RealExpr} (h : e.NoDivision) : e.DividesWell size s := by
  induction e with
  | literal | whole | scalar | elem => trivial
  | add a b iha ihb | sub a b iha ihb | mul a b iha ihb => exact ⟨iha h.1, ihb h.2⟩
  | div => exact h.elim
  | abs a ih => exact ih h
  | choice c a b iha ihb => exact ⟨fun _ => iha h.1, fun _ => ihb h.2⟩

theorem Test.NoDivision.dividesWell {t : Test} (h : t.NoDivision) : t.DividesWell size s := by
  cases t with
  | cond c => trivial
  | greater a b => exact ⟨RealExpr.NoDivision.dividesWell h.1, RealExpr.NoDivision.dividesWell h.2⟩
  | isZero a => exact RealExpr.NoDivision.dividesWell h

omit [Arithmetic R] in
theorem duringRounds_of_forall {test : State R → Except Fault Bool} {round : State R → Except Fault (Outcome R)}
    {P : State R → Prop} (hP : ∀ s, P s) (n : Nat) (s : State R) : duringRounds test round P n s := by
  induction n generalizing s with
  | zero => trivial
  | succ n ih => exact fun _ => ⟨hP s, fun s' _ => ih s'⟩

theorem Stmt.NoDivision.dividesWell {st : Stmt} (h : st.NoDivision) (s : State R) : st.DividesWell ctx s := by
  induction st generalizing s with
  | seq a b iha ihb | beside a b iha ihb => exact ⟨iha h.1 s, fun s' _ => ihb h.2 s'⟩
  | declareReal n e =>
    cases e with
    | none => trivial
    | some e => exact RealExpr.NoDivision.dividesWell h
  | returnReal e => exact RealExpr.NoDivision.dividesWell h
  | assign t u e => exact ⟨RealExpr.NoDivision.dividesWell h.1, fun hu => absurd hu h.2⟩
  | countUp c first bound layout body ih => exact fun _ _ _ _ => duringRounds_of_forall (ih h) _ _
  | countDown c last layout body ih => exact duringRounds_of_forall (ih h) _ _
  | when t layout body ih => exact ⟨Test.NoDivision.dividesWell h.1, fun _ => ih h.2 s⟩
  | branch t yes no ihy ihn =>
    exact ⟨Test.NoDivision.dividesWell h.1, fun _ => ihy h.2.1 s, fun _ => ihn h.2.2 s⟩
  | returnTest t => exact Test.NoDivision.dividesWell h
  | _ => trivial

omit [Arithmetic R] in
/-- A loop with an invariant that tells how many rounds are left. -/
theorem duringRounds_of_invariant {E : Fault → Prop} {test : State R → Except Fault Bool}
    {round : State R → Except Fault (Outcome R)} {P : State R → Prop} (I : Nat → State R → Prop)
    {D : Answer R → Memory R → Prop} (hgo : ∀ n s, I (n + 1) s → P s ∧ Meets E (round s) (Outcome.Ends (I n) D)) :
    ∀ n s, I n s → duringRounds test round P n s := by
  intro n
  induction n with
  | zero => exact fun _ _ => trivial
  | succ n ih =>
    intro s hs _
    obtain ⟨hP, hround⟩ := hgo n s hs
    refine ⟨hP, fun s' hs' => ih s' ?_⟩
    rw [hs'] at hround
    exact hround

/-! ## Rules -/

/-- The statement ends without a fault, in a state with one property or with an answer with another, and divides by
nothing that is zero. -/
structure Computes (ctx : Context R) (st : Stmt) (s : State R) (N : State R → Prop) (D : Answer R → Memory R → Prop) :
    Prop where
  runs : Runs (fun _ => False) ctx st s N D
  divides : st.DividesWell ctx s

namespace Computes

variable {N N' : State R → Prop} {D D' : Answer R → Memory R → Prop}

theorem mono {st : Stmt} (h : Computes ctx st s N D) (hN : ∀ s, N s → N' s) (hD : ∀ a m, D a m → D' a m) :
    Computes ctx st s N' D' :=
  ⟨h.runs.mono hN hD, h.divides⟩

theorem of_noDivision {st : Stmt} (hst : st.NoDivision) (h : Runs (fun _ => False) ctx st s N D) :
    Computes ctx st s N D :=
  ⟨h, hst.dividesWell s⟩

/-- What follows a statement divides well if it does so in every state in which the statement may go on. -/
theorem divides_of_next {a b : Stmt} (ha : Runs (fun _ => False) ctx a s N' D)
    (hb : ∀ s, N' s → Computes ctx b s N D) : ∀ s', a.exec ctx s = .ok (.next s') → b.DividesWell ctx s' := by
  intro s' hs'
  unfold Runs at ha
  rw [hs'] at ha
  exact (hb s' ha).divides

theorem seq {a b : Stmt} (ha : Computes ctx a s N' D) (hb : ∀ s, N' s → Computes ctx b s N D) :
    Computes ctx (.seq a b) s N D :=
  ⟨.seq ha.runs fun s hs => (hb s hs).runs, ha.divides, divides_of_next ha.runs hb⟩

theorem beside {a b : Stmt} (ha : Computes ctx a s N' D) (hb : ∀ s, N' s → Computes ctx b s N D) :
    Computes ctx (.beside a b) s N D :=
  ⟨.beside ha.runs fun s hs => (hb s hs).runs, ha.divides, divides_of_next ha.runs hb⟩

theorem block_cons {a : Stmt} {as : List Stmt} (ha : Computes ctx a s N' D)
    (has : ∀ s, N' s → Computes ctx (.block as) s N D) : Computes ctx (.block (a :: as)) s N D := by
  cases as with
  | nil => exact ha.mono (fun s hs => (has s hs).runs) fun _ _ h => h
  | cons b bs => exact seq ha has

theorem when {t : Test} {layout : Layout} {body : Stmt} {b : Bool} (ht : t.eval ctx.size s = .ok b)
    (hdiv : t.DividesWell ctx.size s) (hyes : b = true → Computes ctx body s N D) (hno : b = false → N s) :
    Computes ctx (.when t layout body) s N D := by
  refine ⟨.when ht (fun h => (hyes h).runs) hno, hdiv, fun htrue => ?_⟩
  rw [ht] at htrue
  exact (hyes (Except.ok.inj htrue)).divides

/-- A counter goes up from `a` to `b`. -/
theorem countUp {c : String} {first bound : IntExpr} {layout : Layout} {body : Stmt} {a b : Int}
    (I : Int → State R → Prop) (ha : first.eval ctx.size s = .ok a)
    (hb : ∀ k τ, I k τ → bound.eval ctx.size τ = .ok b) (h0 : I a (s.setInt c a))
    (hI : ∀ k τ, I k τ → τ.ints c = some k)
    (hstep : ∀ k τ, a ≤ k → k < b → I k τ →
      Computes ctx body τ (fun τ' => τ'.ints c = some k ∧ I (k + 1) (τ'.setInt c (k + 1))) D)
    (hN : ∀ τ, I (max a b) τ → N τ) : Computes ctx (.countUp c first bound layout body) s N D := by
  refine ⟨.countUp I ha hb h0 hI (fun k τ hak hkb hk => (hstep k τ hak hkb hk).runs) hN, ?_⟩
  intro a' b' ha' hb'
  obtain rfl := Except.ok.inj (ha.symm.trans ha')
  obtain rfl := Except.ok.inj ((hb _ _ h0).symm.trans hb')
  refine duringRounds_of_invariant (E := fun _ => False) (fun n τ => ∃ k, a ≤ k ∧ k + n = max a b ∧ I k τ) (D := D) ?_ _ _
    ⟨a, Int.le_refl a, by omega, h0⟩
  rintro n τ ⟨k, hak, hkn, hk⟩
  have hround := hstep k τ hak (by omega) hk
  refine ⟨hround.divides, Outcome.meets_andThen hround.runs fun τ' hτ' => ?_⟩
  rw [State.step, hτ'.1]
  exact ⟨k + 1, by omega, by push_cast at hkn ⊢; omega, hτ'.2⟩

/-- A counter goes down from `last` to zero. -/
theorem countDown {c : String} {last : Int} {layout : Layout} {body : Stmt} (I : Int → State R → Prop)
    (h0 : I last (s.setInt c last)) (hI : ∀ k τ, I k τ → τ.ints c = some k)
    (hstep : ∀ k τ, 0 ≤ k → k ≤ last → I k τ →
      Computes ctx body τ (fun τ' => τ'.ints c = some k ∧ I (k - 1) (τ'.setInt c (k - 1))) D)
    (hN : ∀ τ, I (min last (-1)) τ → N τ) : Computes ctx (.countDown c last layout body) s N D := by
  refine ⟨.countDown I h0 hI (fun k τ h0 hk hI => (hstep k τ h0 hk hI).runs) hN, ?_⟩
  refine duringRounds_of_invariant (E := fun _ => False) (fun n τ => ∃ k, k ≤ last ∧ k = min last (-1) + n ∧ I k τ) (D := D) ?_ _ _
    ⟨last, Int.le_refl last, by omega, h0⟩
  rintro n τ ⟨k, hkl, hkn, hk⟩
  have hround := hstep k τ (by push_cast at hkn; omega) hkl hk
  refine ⟨hround.divides, Outcome.meets_andThen hround.runs fun τ' hτ' => ?_⟩
  rw [State.step, hτ'.1]
  exact ⟨k - 1, by omega, by push_cast at hkn; omega, hτ'.2⟩

end Computes

end

end ControlCodegen.C
