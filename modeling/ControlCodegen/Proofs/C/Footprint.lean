import ControlCodegen.Proofs.C.Returns

/-!
# `C.Footprint`: the arrays that a statement reads and writes

* `Footprint`, `Stmt.Within` : a statement that calls no function has all its arrays among certain ones.
* `Kept`, `Stmt.Within.keeps` : such a statement leaves everything else in memory as it is.
* `Alike`, `Stmt.Within.alike` : two runs from states that agree on what is read end in the same way, and agree on it
  still.

A plain assignment does not read what it replaces.
-/

namespace ControlCodegen.C

set_option autoImplicit false

/-- Arrays by what is done to them: real ones are read and written, and integer ones. -/
structure Footprint where
  reads : List Ref
  writes : List Ref
  intReads : List Ref
  intWrites : List Ref

section Within

variable (f : Footprint)

def IntExpr.Within : IntExpr → Prop
  | .lit _ | .var _ => True
  | .elem a i => a ∈ f.intReads ∧ i.Within
  | .add a b | .mul a b => a.Within ∧ b.Within

def Cond.Within : Cond → Prop
  | .eq a b | .ne a b => a.Within f ∧ b.Within f
  | .notNull _ => True
  | .both a b => a.Within ∧ b.Within

def RealExpr.Within : RealExpr → Prop
  | .literal _ | .whole _ | .scalar (.name _) => True
  | .scalar (.member owner n) => .member owner n ∈ f.reads
  | .elem a i => a ∈ f.reads ∧ i.Within f
  | .add a b | .sub a b | .mul a b | .div a b => a.Within ∧ b.Within
  | .abs a => a.Within
  | .choice c a b => c.Within f ∧ a.Within ∧ b.Within

def Test.Within : Test → Prop
  | .cond c => c.Within f
  | .greater a b => a.Within f ∧ b.Within f
  | .isZero a => a.Within f

/-- What is assigned to is written, and read if the new value is combined with the old one. -/
def Target.Within (t : Target) (u : Update) : Prop :=
  match t.index, t.ref with
  | some i, a => a ∈ f.writes ∧ (u = .set ∨ a ∈ f.reads) ∧ i.Within f
  | none, .member owner n => .member owner n ∈ f.writes ∧ (u = .set ∨ .member owner n ∈ f.reads)
  | none, .name _ => True

def Target.WithinInts (t : Target) : Prop :=
  match t.index, t.ref with
  | some i, a => a ∈ f.intWrites ∧ i.Within f
  | none, .member owner n => .member owner n ∈ f.intWrites
  | none, .name _ => True

/-- No function is called, and all arrays are in the footprint. -/
def Stmt.Within : Stmt → Prop
  | .skip | .declareInts _ | .declareReal _ none | .ignore _ => True
  | .seq a b | .beside a b => a.Within ∧ b.Within
  | .declareInt _ e | .returnInt e => e.Within f
  | .declareReal _ (some e) | .returnReal e => e.Within f
  | .assign t u e => t.Within f u ∧ e.Within f
  | .assignInt t e => t.WithinInts f ∧ e.Within f
  | .countUp _ first bound _ body => first.Within f ∧ bound.Within f ∧ body.Within
  | .countDown _ _ _ body => body.Within
  | .when t _ body => t.Within f ∧ body.Within
  | .branch t yes no => t.Within f ∧ yes.Within ∧ no.Within
  | .returnTest t => t.Within f
  | .declareArray _ _ | .declareResult _ _ | .assignResult _ _ | .call _ | .returnResult _ | .clear _ => False

end Within

/-- The arrays have all their elements in a part of memory. -/
def Covers (size : Struct → String → Nat) (arrays : String → Option View) (refs : List Ref) (P : Block → Nat → Prop) :
    Prop :=
  ∀ a ∈ refs, ∀ v, viewOf size arrays a = some v → ∀ i < v.length, P v.block (v.first + i)

variable {R : Type} {f : Footprint} {size : Struct → String → Nat} {arrays : String → Option View} {refs : List Ref}
  {P Q : Block → Nat → Prop}

theorem Covers.nil : Covers size arrays [] P := fun _ ha => absurd ha List.not_mem_nil

theorem Covers.cons {a : Ref} {v : View} (hv : viewOf size arrays a = some v)
    (hP : ∀ i < v.length, P v.block (v.first + i)) (h : Covers size arrays refs P) : Covers size arrays (a :: refs) P := by
  intro r hr w hw
  rcases List.mem_cons.1 hr with rfl | hr
  · obtain rfl := Option.some.inj (hv.symm.trans hw)
    exact hP
  · exact h r hr w hw

/-- An element that is found belongs to its array. -/
theorem Covers.locate (h : Covers size arrays refs P) {a : Ref} (ha : a ∈ refs) {s : State R} (hs : s.arrays = arrays)
    {k : Int} {w : View} (hw : s.locate size a k = .ok w) : P w.block w.first := by
  unfold State.locate tailOf at hw
  rw [hs] at hw
  cases hv : viewOf size arrays a with
  | none =>
    rw [hv] at hw
    cases hw
  | some v =>
    rw [hv, Option.bind_some] at hw
    by_cases hk : 0 ≤ k ∧ k < v.length
    · rw [if_pos hk] at hw
      cases hw
      exact h a ha v hv k.toNat (by omega)
    · rw [if_neg hk] at hw
      cases hw

/-! ## What is kept -/

section Kept

/-- Memory is as before outside of two parts, one for real and one for integer elements. -/
structure Kept (P Q : Block → Nat → Prop) (before m : Memory R) : Prop where
  reals : ∀ b i, ¬P b i → m.reals b i = before.reals b i
  ints : ∀ b i, ¬Q b i → m.ints b i = before.ints b i

namespace Kept

variable {before m : Memory R}

theorem refl (m : Memory R) : Kept P Q m m := ⟨fun _ _ _ => rfl, fun _ _ _ => rfl⟩

theorem reals_block (h : Kept P Q before m) {b : Block} (hb : ∀ i, ¬P b i) : m.reals b = before.reals b :=
  funext fun i => h.reals b i (hb i)

theorem setReal (h : Kept P Q before m) {b : Block} {i : Nat} (hP : P b i) (r : R) : Kept P Q before (m.setReal b i r) := by
  refine ⟨fun b' i' h' => (if_neg ?_).trans (h.reals b' i' h'), h.ints⟩
  rintro ⟨rfl, rfl⟩
  exact h' hP

theorem setInt (h : Kept P Q before m) {b : Block} {i : Nat} (hQ : Q b i) (k : Int) : Kept P Q before (m.setInt b i k) := by
  refine ⟨h.reals, fun b' i' h' => (if_neg ?_).trans (h.ints b' i' h')⟩
  rintro ⟨rfl, rfl⟩
  exact h' hQ

end Kept

/-- A state in which only the two parts of memory have changed. -/
structure Stays (arrays : String → Option View) (P Q : Block → Nat → Prop) (before : Memory R) (s : State R) : Prop where
  arrays : s.arrays = arrays
  memory : Kept P Q before s.memory

variable [Arithmetic R] {ctx : Context R} {before : Memory R} {s : State R}

/-- How a run ends that changes only the two parts of memory. -/
abbrev Keeps (arrays : String → Option View) (P Q : Block → Nat → Prop) (before : Memory R) : Outcome R → Prop :=
  Outcome.Ends (Stays arrays P Q before) fun _ m => Kept P Q before m

theorem Target.Within.keeps {t : Target} {u : Update} (h : t.Within f u) (hP : Covers size arrays f.writes P)
    (hs : Stays arrays P Q before s) (r : R) :
    Meets (fun _ => True) (t.assign size s u r) (Stays arrays P Q before) := by
  obtain ⟨a, i⟩ := t
  have helement : ∀ {a : Ref}, a ∈ f.writes → ∀ k, Meets (fun _ => True) (s.locate size a k) fun v =>
      Stays arrays P Q before (s.updateElement v u r) := by
    intro a ha k
    cases hv : s.locate size a k with
    | error e => trivial
    | ok v => exact ⟨hs.arrays, hs.memory.setReal (hP.locate ha hs.arrays hv) _⟩
  unfold Target.Within at h
  unfold Target.assign
  cases i with
  | none =>
    cases a with
    | name n =>
      dsimp only
      unfold State.updateReal
      split
      · exact ⟨hs.arrays, hs.memory⟩
      · trivial
      · exact ⟨hs.arrays, hs.memory⟩
    | member owner n => exact Meets.bind (helement h.1 0) fun _ hv => hv
  | some i => cases a <;> exact Meets.andThen fun k => Meets.bind (helement h.1 k) fun _ hv => hv

omit [Arithmetic R] in
theorem Target.WithinInts.keeps {t : Target} (h : t.WithinInts f) (hQ : Covers size arrays f.intWrites Q)
    (hs : Stays arrays P Q before s) (k : Int) :
    Meets (fun _ => True) (t.assignInt size s k) (Stays arrays P Q before) := by
  obtain ⟨a, i⟩ := t
  have helement : ∀ {a : Ref}, a ∈ f.intWrites → ∀ j, Meets (fun _ => True) (do
      let v ← s.locate size a j
      return s.withMemory (s.memory.setInt v.block v.first k)) (Stays arrays P Q before) := by
    intro a ha j
    cases hv : s.locate size a j with
    | error e => trivial
    | ok v => exact ⟨hs.arrays, hs.memory.setInt (hQ.locate ha hs.arrays hv) _⟩
  unfold Target.WithinInts at h
  unfold Target.assignInt
  cases i with
  | none =>
    cases a with
    | name n => exact ⟨hs.arrays, hs.memory⟩
    | member owner n => exact helement h 0
  | some i => cases a <;> exact Meets.andThen fun j => helement h.1 j

omit [Arithmetic R] in
theorem keeps_rounds {counter : String} {test : State R → Except Fault Bool}
    {body : State R → Except Fault (Outcome R)}
    (hbody : ∀ s, Stays arrays P Q before s → Meets (fun _ => True) (body s) (Keeps arrays P Q before)) (n : Nat)
    (hs : Stays arrays P Q before s) :
    Meets (fun _ => True) (rounds counter test body n s) (Keeps arrays P Q before) := by
  induction n generalizing s with
  | zero =>
    unfold rounds
    refine Meets.andThen fun t => ?_
    cases t with
    | true => trivial
    | false => exact hs
  | succ n ih =>
    unfold rounds
    refine Meets.andThen fun t => ?_
    cases t with
    | true => exact Outcome.meets_andThen (hbody s hs) fun s hs => ih hs
    | false => exact hs

omit [Arithmetic R] in
theorem keeps_round {body : Except Fault (Outcome R)} {counter : String} {by' : Int}
    (h : Meets (fun _ => True) body (Keeps arrays P Q before)) :
    Meets (fun _ => True) (Outcome.andThen body fun s => s.step counter by') (Keeps arrays P Q before) := by
  refine Outcome.meets_andThen h fun s hs => ?_
  unfold State.step
  cases s.ints counter with
  | none => trivial
  | some k => exact ⟨hs.arrays, hs.memory⟩

/-- A statement changes nothing but what it may write. -/
theorem Stmt.Within.keeps {st : Stmt} (h : st.Within f) (hP : Covers ctx.size arrays f.writes P)
    (hQ : Covers ctx.size arrays f.intWrites Q) (hs : Stays arrays P Q before s) :
    Meets (fun _ => True) (st.exec ctx s) (Keeps arrays P Q before) := by
  induction st generalizing s with
  | skip | declareInts | ignore => exact hs
  | seq a b iha ihb | beside a b iha ihb => exact Outcome.meets_andThen (iha h.1 hs) fun s hs => ihb h.2 hs
  | declareInt n e => exact Meets.andThen fun k => ⟨hs.arrays, hs.memory⟩
  | declareReal n e =>
    cases e with
    | none => exact hs
    | some e => exact Meets.andThen fun r => ⟨hs.arrays, hs.memory⟩
  | assign t u e => exact Meets.andThen fun r => Meets.bind (h.1.keeps hP hs r) fun _ hs' => hs'
  | assignInt t e => exact Meets.andThen fun k => Meets.bind (h.1.keeps hQ hs k) fun _ hs' => hs'
  | countUp c first bound layout body ih =>
    refine Meets.andThen fun a => Meets.andThen fun b => ?_
    exact keeps_rounds (fun s hs => keeps_round (ih h.2.2 hs)) _ ⟨hs.arrays, hs.memory⟩
  | countDown c last layout body ih =>
    exact keeps_rounds (fun s hs => keeps_round (ih h hs)) _ ⟨hs.arrays, hs.memory⟩
  | when t layout body ih =>
    refine Meets.andThen fun b => ?_
    cases b with
    | true => exact ih h.2 hs
    | false => exact hs
  | branch t yes no ihy ihn =>
    refine Meets.andThen fun b => ?_
    cases b with
    | true => exact ihy h.2.1 hs
    | false => exact ihn h.2.2 hs
  | returnInt e | returnReal e | returnTest t => exact Meets.andThen fun _ => hs.memory
  | declareArray | declareResult | assignResult | call | returnResult | clear => exact h.elim

end Kept

/-! ## Two runs -/

/-- Two runs that go together: both end in the same fault, or what they give is related. -/
def Matches {α : Type} (rel : α → α → Prop) : Except Fault α → Except Fault α → Prop
  | .ok a, .ok a' => rel a a'
  | .error e, .error e' => e = e'
  | _, _ => False

namespace Matches

variable {α β : Type} {rel : α → α → Prop} {rel' : β → β → Prop} {r r' : Except Fault α}

theorem mono {rel' : α → α → Prop} (h : Matches rel r r') (hrel : ∀ a a', rel a a' → rel' a a') : Matches rel' r r' := by
  match r, r', h with
  | .ok a, .ok a', h => exact hrel a a' h
  | .error e, .error e', h => exact h

theorem bind {g g' : α → Except Fault β} (h : Matches rel r r') (hg : ∀ a a', rel a a' → Matches rel' (g a) (g' a')) :
    Matches rel' (r >>= g) (r' >>= g') := by
  match r, r', h with
  | .ok a, .ok a', h => exact hg a a' h
  | .error e, .error e', h => exact h

/-- Two runs begin alike, with a result of no interest to memory. -/
theorem bind_eq {g g' : α → Except Fault β} (h : r = r') (hg : ∀ a, Matches rel' (g a) (g' a)) :
    Matches rel' (r >>= g) (r' >>= g') := by
  subst h
  cases r with
  | ok a => exact hg a
  | error e => exact rfl

/-- What is known of both runs. -/
theorem and {p p' : α → Prop} (h : Matches rel r r') (hp : Meets (fun _ => True) r p)
    (hp' : Meets (fun _ => True) r' p') : Matches (fun a a' => rel a a' ∧ p a ∧ p' a') r r' := by
  match r, r', h with
  | .ok a, .ok a', h => exact ⟨h, hp, hp'⟩
  | .error e, .error e', h => exact h

end Matches

/-- Two memories agree on two parts, one for real and one for integer elements. -/
structure Memory.Agree (P Q : Block → Nat → Prop) (m m' : Memory R) : Prop where
  reals : ∀ b i, P b i → m.reals b i = m'.reals b i
  ints : ∀ b i, Q b i → m.ints b i = m'.ints b i

/-- Two states with the same variables, whose memories agree on two parts. -/
structure Alike (arrays : String → Option View) (P Q : Block → Nat → Prop) (s s' : State R) : Prop where
  ints : s.ints = s'.ints
  reals : s.reals = s'.reals
  left : s.arrays = arrays
  right : s'.arrays = arrays
  memory : Memory.Agree P Q s.memory s'.memory

/-- Two runs end alike: they go on in related states, or give the same answer and related memories. -/
def Outcome.Related (next : State R → State R → Prop) (done : Memory R → Memory R → Prop) : Outcome R → Outcome R → Prop
  | .next s, .next s' => next s s'
  | .done a m, .done a' m' => a = a' ∧ done m m'
  | _, _ => False

section Alike

variable {s s' : State R}

theorem Memory.Agree.setReal {m m' : Memory R} (h : Memory.Agree P Q m m') (b : Block) (i : Nat) (r : R) :
    Memory.Agree P Q (m.setReal b i r) (m'.setReal b i r) := by
  refine ⟨fun b' i' hP => ?_, h.ints⟩
  unfold Memory.setReal
  dsimp only
  rw [h.reals b' i' hP]

theorem Memory.Agree.setInt {m m' : Memory R} (h : Memory.Agree P Q m m') (b : Block) (i : Nat) (k : Int) :
    Memory.Agree P Q (m.setInt b i k) (m'.setInt b i k) := by
  refine ⟨h.reals, fun b' i' hQ => ?_⟩
  unfold Memory.setInt
  dsimp only
  rw [h.ints b' i' hQ]

namespace Alike

variable (h : Alike arrays P Q s s')
include h

theorem setInt (n : String) (k : Int) : Alike arrays P Q (s.setInt n k) (s'.setInt n k) := by
  refine ⟨?_, h.reals, h.left, h.right, h.memory⟩
  unfold State.setInt
  dsimp only
  rw [h.ints]

theorem setReal (n : String) (r : R) : Alike arrays P Q (s.setReal n r) (s'.setReal n r) := by
  refine ⟨h.ints, ?_, h.left, h.right, h.memory⟩
  unfold State.setReal
  dsimp only
  rw [h.reals]

theorem withMemory {m m' : Memory R} (hm : Memory.Agree P Q m m') : Alike arrays P Q (s.withMemory m) (s'.withMemory m') :=
  ⟨h.ints, h.reals, h.left, h.right, hm⟩

theorem locate (a : Ref) (k : Int) : s.locate size a k = s'.locate size a k := by
  unfold State.locate
  rw [h.left, h.right]

end Alike

theorem IntExpr.Within.eval_eq {e : IntExpr} (he : e.Within f) (h : Alike arrays P Q s s')
    (hQ : Covers size arrays f.intReads Q) : e.eval size s = e.eval size s' := by
  induction e with
  | lit n => rfl
  | var n => rw [eval, eval, h.ints]
  | elem a i ih =>
    rw [eval, eval, ih he.2]
    cases i.eval size s' with
    | error e => rfl
    | ok k =>
      change (s.locate size a k >>= _) = (s'.locate size a k >>= _)
      cases hv : s'.locate size a k with
      | error e =>
        rw [h.locate, hv]
        rfl
      | ok v =>
        rw [h.locate, hv]
        exact congrArg Except.ok (h.memory.ints _ _ (hQ.locate he.1 h.right hv))
  | add a b iha ihb | mul a b iha ihb => rw [eval, eval, iha he.1, ihb he.2]

theorem Cond.Within.eval_eq {c : Cond} (hc : c.Within f) (h : Alike arrays P Q s s')
    (hQ : Covers size arrays f.intReads Q) : c.eval size s = c.eval size s' := by
  induction c with
  | eq a b | ne a b => rw [eval, eval, hc.1.eval_eq h hQ, hc.2.eval_eq h hQ]
  | notNull p => rw [eval, eval, h.left, h.right]
  | both a b iha ihb => rw [eval, eval, iha hc.1, ihb hc.2]

variable [Arithmetic R] {ctx : Context R}

theorem RealExpr.Within.eval_eq {e : RealExpr} (he : e.Within f) (h : Alike arrays P Q s s')
    (hP : Covers size arrays f.reads P) (hQ : Covers size arrays f.intReads Q) : e.eval size s = e.eval size s' := by
  have helement : ∀ {a : Ref}, a ∈ f.reads → ∀ k, (do
      let v ← s.locate size a k
      return s.memory.reals v.block v.first) = (do
      let v ← s'.locate size a k
      return s'.memory.reals v.block v.first : Except Fault R) := by
    intro a ha k
    rw [h.locate]
    cases hv : s'.locate size a k with
    | error e => rfl
    | ok v => exact congrArg Except.ok (h.memory.reals _ _ (hP.locate ha h.right hv))
  induction e with
  | literal v | whole n => rfl
  | scalar r =>
    cases r with
    | name n => rw [eval, eval, Ref.readScalar, Ref.readScalar, h.reals]
    | member owner n => exact helement he 0
  | elem a i =>
    rw [eval, eval, he.2.eval_eq h hQ]
    cases i.eval size s' with
    | error e => rfl
    | ok k => exact helement he.1 k
  | add a b iha ihb | sub a b iha ihb | mul a b iha ihb | div a b iha ihb => rw [eval, eval, iha he.1, ihb he.2]
  | abs a ih => rw [eval, eval, ih he]
  | choice c a b iha ihb => rw [eval, eval, he.1.eval_eq h hQ, iha he.2.1, ihb he.2.2]

theorem Test.Within.eval_eq {t : Test} (ht : t.Within f) (h : Alike arrays P Q s s')
    (hP : Covers size arrays f.reads P) (hQ : Covers size arrays f.intReads Q) : t.eval size s = t.eval size s' := by
  cases t with
  | cond c => exact Cond.Within.eval_eq ht h hQ
  | greater a b => rw [eval, eval, ht.1.eval_eq h hP hQ, ht.2.eval_eq h hP hQ]
  | isZero a => rw [eval, eval, RealExpr.Within.eval_eq ht h hP hQ]

/-- Both elements get the same value. -/
theorem Alike.updateElement (h : Alike arrays P Q s s') {v : View} {u : Update} (hold : u = .set ∨ P v.block v.first) (r : R) :
    Alike arrays P Q (s.updateElement v u r) (s'.updateElement v u r) := by
  have hvalue : u.apply (s.memory.reals v.block v.first) r = u.apply (s'.memory.reals v.block v.first) r := by
    rcases hold with rfl | hold
    · rfl
    · rw [h.memory.reals _ _ hold]
  unfold State.updateElement
  rw [hvalue]
  exact h.withMemory (h.memory.setReal _ _ _)

theorem Target.Within.alike {t : Target} {u : Update} (ht : t.Within f u) (h : Alike arrays P Q s s')
    (hP : Covers size arrays f.reads P) (hQ : Covers size arrays f.intReads Q) (r : R) :
    Matches (Alike arrays P Q) (t.assign size s u r) (t.assign size s' u r) := by
  obtain ⟨a, i⟩ := t
  have helement : ∀ {a : Ref}, u = .set ∨ a ∈ f.reads → ∀ k, Matches (Alike arrays P Q) (do
      return s.updateElement (← s.locate size a k) u r) (do return s'.updateElement (← s'.locate size a k) u r) := by
    intro a ha k
    rw [h.locate]
    cases hv : s'.locate size a k with
    | error e => exact rfl
    | ok v => exact h.updateElement (ha.imp_right fun ha => hP.locate ha h.right hv) r
  unfold Target.Within at ht
  unfold Target.assign
  cases i with
  | none =>
    cases a with
    | name n =>
      dsimp only
      unfold State.updateReal
      rw [h.reals]
      split
      · exact h.setReal n r
      · exact rfl
      · exact h.setReal n _
    | member owner n => exact helement ht.2 0
  | some i => cases a <;> exact Matches.bind_eq (ht.2.2.eval_eq h hQ) fun k => helement ht.2.1 k

omit [Arithmetic R] in
theorem Target.WithinInts.alike {t : Target} (ht : t.WithinInts f) (h : Alike arrays P Q s s')
    (hQ : Covers size arrays f.intReads Q) (k : Int) :
    Matches (Alike arrays P Q) (t.assignInt size s k) (t.assignInt size s' k) := by
  obtain ⟨a, i⟩ := t
  have helement : ∀ (a : Ref) (j : Int), Matches (Alike arrays P Q) (do
      let v ← s.locate size a j
      return s.withMemory (s.memory.setInt v.block v.first k)) (do
      let v ← s'.locate size a j
      return s'.withMemory (s'.memory.setInt v.block v.first k)) := by
    intro a j
    rw [h.locate]
    cases s'.locate size a j with
    | error e => exact rfl
    | ok v => exact h.withMemory (h.memory.setInt _ _ _)
  unfold Target.WithinInts at ht
  unfold Target.assignInt
  cases i with
  | none =>
    cases a with
    | name n => exact h.setInt n k
    | member owner n => exact helement _ 0
  | some i => cases a <;> exact Matches.bind_eq (ht.2.eval_eq h hQ) fun j => helement _ j

/-- How two runs end that agree on what they read. -/
abbrev EndAlike (arrays : String → Option View) (P Q : Block → Nat → Prop) :
    Except Fault (Outcome R) → Except Fault (Outcome R) → Prop :=
  Matches (Outcome.Related (Alike arrays P Q) (Memory.Agree P Q))

omit [Arithmetic R] in
theorem Matches.andThen {o o' : Except Fault (Outcome R)} {g g' : State R → Except Fault (Outcome R)}
    {next next' : State R → State R → Prop} {done : Memory R → Memory R → Prop}
    (h : Matches (Outcome.Related next done) o o')
    (hg : ∀ s s', next s s' → Matches (Outcome.Related next' done) (g s) (g' s')) :
    Matches (Outcome.Related next' done) (Outcome.andThen o g) (Outcome.andThen o' g') := by
  refine Matches.bind h fun a a' ha => ?_
  match a, a', ha with
  | .next s, .next s', ha => exact hg s s' ha
  | .done a m, .done a' m', ha => exact ha

/-- The rest of a block goes on where its first statement has left two runs. -/
theorem Matches.block_cons {a : Stmt} {as : List Stmt} {next next' : State R → State R → Prop}
    {done : Memory R → Memory R → Prop} (ha : Matches (Outcome.Related next done) (a.exec ctx s) (a.exec ctx s'))
    (has : ∀ s s', next s s' → Matches (Outcome.Related next' done) ((Stmt.block as).exec ctx s) ((Stmt.block as).exec ctx s')) :
    Matches (Outcome.Related next' done) ((Stmt.block (a :: as)).exec ctx s) ((Stmt.block (a :: as)).exec ctx s') := by
  cases as with
  | nil =>
    refine ha.mono fun o o' ho => ?_
    match o, o', ho with
    | .next s, .next s', ho => exact has s s' ho
    | .done a m, .done a' m', ho => exact ho
  | cons b bs => exact Matches.andThen ha has

omit [Arithmetic R] in
/-- Two runs that do not return, with what is known of each. -/
theorem Matches.goesOn {o o' : Except Fault (Outcome R)} {next : State R → State R → Prop}
    {done done' : Memory R → Memory R → Prop} {N N' : State R → Prop} (h : Matches (Outcome.Related next done) o o')
    (hN : Meets (fun _ => True) o (Outcome.Ends N fun _ _ => False))
    (hN' : Meets (fun _ => True) o' (Outcome.Ends N' fun _ _ => False)) :
    Matches (Outcome.Related (fun s s' => next s s' ∧ N s ∧ N' s') done') o o' := by
  refine (h.and hN hN').mono fun o o' ho => ?_
  match o, o', ho with
  | .next s, .next s', ho => exact ho
  | .done a m, .done a' m', ho => exact ho.2.1.elim

/-- Two calls of a function that end alike. -/
theorem Function.matches_invoke {file : Statics R} {f : Function} {args : List Value} {m m' : Memory R}
    {next : State R → State R → Prop} {done : Memory R → Memory R → Prop}
    (hs : bindParameters f.prototype.params args ⟨f.prototype.name, fun _ => none, file.reals, file.arrays, m⟩ = some s)
    (hs' : bindParameters f.prototype.params args ⟨f.prototype.name, fun _ => none, file.reals, file.arrays, m'⟩ = some s')
    (h : Matches (Outcome.Related next done) (f.body.exec ctx s) (f.body.exec ctx s'))
    (hnext : ∀ τ τ', next τ τ' → done τ.memory τ'.memory) :
    Matches (fun r r' => r.1 = r'.1 ∧ done r.2 r'.2) (f.invoke ctx file args m) (f.invoke ctx file args m') := by
  unfold invoke
  rw [hs, hs']
  refine Matches.bind h fun o o' ho => ?_
  match o, o', ho with
  | .next τ, .next τ', ho => exact ⟨rfl, hnext τ τ' ho⟩
  | .done a m, .done a' m', ho => exact ho

omit [Arithmetic R] in
theorem alike_rounds {counter : String} {test : State R → Except Fault Bool}
    {body : State R → Except Fault (Outcome R)} (htest : ∀ s s', Alike arrays P Q s s' → test s = test s')
    (hbody : ∀ s s', Alike arrays P Q s s' → EndAlike arrays P Q (body s) (body s')) (n : Nat)
    (h : Alike arrays P Q s s') : EndAlike arrays P Q (rounds counter test body n s) (rounds counter test body n s') := by
  induction n generalizing s s' with
  | zero =>
    unfold rounds
    refine Matches.bind_eq (htest s s' h) fun t => ?_
    cases t with
    | true => exact rfl
    | false => exact h
  | succ n ih =>
    unfold rounds
    refine Matches.bind_eq (htest s s' h) fun t => ?_
    cases t with
    | true => exact Matches.andThen (hbody s s' h) fun s s' h => ih h
    | false => exact h

omit [Arithmetic R] in
theorem alike_round {o o' : Except Fault (Outcome R)} (h : EndAlike arrays P Q o o') (counter : String) (by' : Int) :
    EndAlike arrays P Q (Outcome.andThen o fun s => s.step counter by') (Outcome.andThen o' fun s => s.step counter by') := by
  refine Matches.andThen h fun s s' h => ?_
  unfold State.step
  rw [h.ints]
  cases s'.ints counter with
  | none => exact rfl
  | some k => exact h.setInt _ _

/-- Runs of a statement from states that agree on what it may read end alike. -/
theorem Stmt.Within.alike {st : Stmt} (hst : st.Within f) (hP : Covers ctx.size arrays f.reads P)
    (hQ : Covers ctx.size arrays f.intReads Q) (h : Alike arrays P Q s s') :
    EndAlike arrays P Q (st.exec ctx s) (st.exec ctx s') := by
  induction st generalizing s s' with
  | skip | declareInts | ignore => exact h
  | seq a b iha ihb | beside a b iha ihb => exact Matches.andThen (iha hst.1 h) fun s s' h => ihb hst.2 h
  | declareInt n e => exact Matches.bind_eq (IntExpr.Within.eval_eq hst h hQ) fun k => h.setInt n k
  | declareReal n e =>
    cases e with
    | none => exact h
    | some e => exact Matches.bind_eq (RealExpr.Within.eval_eq hst h hP hQ) fun r => h.setReal n r
  | assign t u e =>
    exact Matches.bind_eq (hst.2.eval_eq h hP hQ) fun r => Matches.bind (hst.1.alike h hP hQ r) fun _ _ h => h
  | assignInt t e =>
    exact Matches.bind_eq (hst.2.eval_eq h hQ) fun k => Matches.bind (hst.1.alike h hQ k) fun _ _ h => h
  | countUp c first bound layout body ih =>
    refine Matches.bind_eq (hst.1.eval_eq h hQ) fun a => Matches.bind_eq (hst.2.1.eval_eq (h.setInt c a) hQ) fun b => ?_
    refine alike_rounds (fun s s' h => ?_) (fun s s' h => alike_round (ih hst.2.2 h) c 1) _ (h.setInt c a)
    have hcounter : (IntExpr.var c).Within f := trivial
    rw [hcounter.eval_eq h hQ, hst.2.1.eval_eq h hQ]
  | countDown c last layout body ih =>
    refine alike_rounds (fun s s' h => ?_) (fun s s' h => alike_round (ih hst h) c (-1)) _ (h.setInt c last)
    have hcounter : (IntExpr.var c).Within f := trivial
    rw [hcounter.eval_eq h hQ]
  | when t layout body ih =>
    refine Matches.bind_eq (hst.1.eval_eq h hP hQ) fun b => ?_
    cases b with
    | true => exact ih hst.2 h
    | false => exact h
  | branch t yes no ihy ihn =>
    refine Matches.bind_eq (hst.1.eval_eq h hP hQ) fun b => ?_
    cases b with
    | true => exact ihy hst.2.1 h
    | false => exact ihn hst.2.2 h
  | returnInt e => exact Matches.bind_eq (IntExpr.Within.eval_eq hst h hQ) fun k => ⟨rfl, h.memory⟩
  | returnReal e => exact Matches.bind_eq (RealExpr.Within.eval_eq hst h hP hQ) fun r => ⟨rfl, h.memory⟩
  | returnTest t => exact Matches.bind_eq (Test.Within.eval_eq hst h hP hQ) fun b => ⟨rfl, h.memory⟩
  | declareArray | declareResult | assignResult | call | returnResult | clear => exact hst.elim

end Alike

end ControlCodegen.C
