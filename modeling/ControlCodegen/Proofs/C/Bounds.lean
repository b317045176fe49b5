import ControlCodegen.Proofs.C.Triple
import Mathlib.Tactic.SplitIfs

/-!
# `C.Bounds`: subscripts that stay below the length of their array

* `Known` : what is known of the integer variables of a function.
* `Stmt.InBounds` : for all rounds of all loops, every subscript is below the length of its array and every call is
  allowed. It is a statement on the text of a program; no program is run.
* `Stmt.InBounds.runs` : a statement that is in bounds runs without a fault.

Counters of loops are known by their value in each round. What a loop assigns is known to be set afterwards, if it was
before, and no more. Statements that write integer arrays are not covered; the rules of `Triple` serve for them.
-/

namespace ControlCodegen.C

set_option autoImplicit false

/-! ## What is known of integer variables -/

/-- A variable without an entry may be unset; one with an entry is set, to the value that is given, if there is one. -/
abbrev Known := String → Option (Option Int)

namespace Known

/-- Nothing is known. -/
def none : Known := fun _ => .none

/-- A variable is set. -/
def set (ρ : Known) (n : String) (k : Option Int) : Known := fun n' => if n' = n then some k else ρ n'

/-- The values of some variables are no longer known. -/
def forget (ρ : Known) (ns : List String) : Known := fun n => if n ∈ ns then (ρ n).map fun _ => .none else ρ n

/-- What is known holds of the variables. -/
def Of (ρ : Known) (ints : String → Option Int) : Prop :=
  ∀ n x, ρ n = some x → ∃ k, ints n = some k ∧ (x = .none ∨ x = some k)

/-- Less is known of each variable. -/
def Le (ρ ρ' : Known) : Prop := ∀ n x, ρ n = some x → ∃ y, ρ' n = some y ∧ (x = .none ∨ x = y)

theorem Le.refl (ρ : Known) : ρ.Le ρ := fun _ x h => ⟨x, h, .inr rfl⟩

theorem Le.trans {ρ₁ ρ₂ ρ₃ : Known} (h₁ : ρ₁.Le ρ₂) (h₂ : ρ₂.Le ρ₃) : ρ₁.Le ρ₃ := by
  intro n x hx
  obtain ⟨y, hy, hxy⟩ := h₁ n x hx
  obtain ⟨z, hz, hyz⟩ := h₂ n y hy
  refine ⟨z, hz, ?_⟩
  rcases hxy with rfl | rfl
  · exact .inl rfl
  · exact hyz

theorem Of.mono {ρ ρ' : Known} {ints : String → Option Int} (h : ρ'.Of ints) (hle : ρ.Le ρ') : ρ.Of ints := by
  intro n x hx
  obtain ⟨y, hy, hxy⟩ := hle n x hx
  obtain ⟨k, hk, hyk⟩ := h n y hy
  refine ⟨k, hk, ?_⟩
  rcases hxy with rfl | rfl
  · exact .inl rfl
  · exact hyk

theorem Of.value {ρ : Known} {ints : String → Option Int} (h : ρ.Of ints) {n : String} {k : Int}
    (hn : ρ n = some (some k)) : ints n = some k := by
  obtain ⟨k', hk', hk⟩ := h n _ hn
  rcases hk with hk | hk
  · cases hk
  · rw [hk', Option.some.inj hk]

theorem none_le (ρ : Known) : none.Le ρ := fun n x h => by cases h

theorem of_none (ints : String → Option Int) : none.Of ints := fun n x h => by cases h

/-- One variable is known. -/
theorem of_single {ints : String → Option Int} {n : String} {k : Int} (h : ints n = some k) :
    (none.set n (some k)).Of ints := by
  intro n' x hx
  unfold Known.set at hx
  split_ifs at hx with hn
  · cases hx
    subst hn
    exact ⟨k, h, .inr rfl⟩
  · cases hx

theorem Of.set {ρ : Known} {ints : String → Option Int} (h : ρ.Of ints) (n : String) {x : Option Int} {k : Int}
    (hx : x = .none ∨ x = some k) : (ρ.set n x).Of fun n' => if n' = n then some k else ints n' := by
  intro n' y hy
  unfold Known.set at hy
  dsimp only
  split_ifs at hy ⊢ with hn
  · cases hy
    exact ⟨k, rfl, hx⟩
  · exact h n' y hy

theorem forget_le (ρ : Known) (ns : List String) : (ρ.forget ns).Le ρ := by
  intro n x hx
  unfold forget at hx
  split_ifs at hx with hn
  · obtain ⟨y, hy, rfl⟩ := Option.map_eq_some_iff.1 hx
    exact ⟨y, hy, .inl rfl⟩
  · exact ⟨x, hx, .inr rfl⟩

theorem Le.forget {ρ ρ' : Known} (h : ρ.Le ρ') (ns : List String) : (ρ.forget ns).Le (ρ'.forget ns) := by
  intro n x hx
  unfold Known.forget at hx ⊢
  split_ifs at hx ⊢ with hn
  · obtain ⟨y, hy, rfl⟩ := Option.map_eq_some_iff.1 hx
    obtain ⟨z, hz, -⟩ := h n y hy
    exact ⟨.none, by rw [hz]; rfl, .inl rfl⟩
  · exact h n x hx

@[simp] theorem forget_nil (ρ : Known) : ρ.forget [] = ρ := by
  funext n
  unfold forget
  rw [if_neg List.not_mem_nil]

theorem forget_forget (ρ : Known) (ns ns' : List String) : (ρ.forget ns).forget ns' = ρ.forget (ns ++ ns') := by
  funext n
  unfold forget
  by_cases h : n ∈ ns <;> by_cases h' : n ∈ ns' <;> simp [h, h', Function.comp_def]

theorem forget_subset (ρ : Known) {ns ns' : List String} (h : ∀ n ∈ ns, n ∈ ns') :
    (ρ.forget ns').Le (ρ.forget ns) := by
  intro n x hx
  unfold forget at hx ⊢
  by_cases hn : n ∈ ns
  · rw [if_pos (h n hn)] at hx
    rw [if_pos hn]
    exact ⟨x, hx, .inr rfl⟩
  · rw [if_neg hn]
    split_ifs at hx
    · obtain ⟨y, hy, rfl⟩ := Option.map_eq_some_iff.1 hx
      exact ⟨y, hy, .inl rfl⟩
    · exact ⟨x, hx, .inr rfl⟩

theorem forget_le_set (ρ : Known) {n : String} {ns : List String} (hn : n ∈ ns) (k : Option Int) :
    (ρ.forget ns).Le (ρ.set n k) := by
  intro n' x hx
  unfold forget at hx
  unfold set
  by_cases h : n' = n
  · subst n'
    rw [if_pos hn] at hx
    obtain ⟨y, -, rfl⟩ := Option.map_eq_some_iff.1 hx
    exact ⟨k, if_pos rfl, .inl rfl⟩
  · rw [if_neg h]
    exact forget_le ρ ns n' x hx

end Known

/-! ## Expressions -/

/-- What a program may touch and call. -/
structure Scope where
  size : Struct → String → Nat
  arrays : String → Option View
  callable : String → List Value → Prop
  /-- The calls that answer with an integer. -/
  answering : String → List Value → Prop

namespace Scope

/-- The number of elements of an array. -/
def length (S : Scope) (a : Ref) : Nat := lengthOf S.size S.arrays a

theorem length_name {S : Scope} {n : String} {v : View} (h : S.arrays n = some v) : S.length (.name n) = v.length := by
  rw [length, lengthOf, viewOf, h]
  rfl

theorem tailOf_of_lt {S : Scope} {a : Ref} {k : Int} (h0 : 0 ≤ k) (hk : k < S.length a) :
    ∃ v, tailOf S.size S.arrays a k = some v := by
  unfold length lengthOf at hk
  unfold tailOf
  cases hv : viewOf S.size S.arrays a with
  | none =>
    rw [hv] at hk
    exact absurd hk (by simpa using h0)
  | some v =>
    rw [hv] at hk
    exact ⟨_, if_pos ⟨h0, hk⟩⟩

end Scope

/-- The value of an expression, where it follows from what is known. -/
def IntExpr.value (ρ : Known) : IntExpr → Option Int
  | .lit n => some n
  | .var n => (ρ n).join
  | .elem _ _ => none
  | .add a b => (a.value ρ).bind fun k => (b.value ρ).map (k + ·)
  | .mul a b => (a.value ρ).bind fun k => (b.value ρ).map (k * ·)

/-- The index is known to be below the length of the array. -/
def Scope.Within (S : Scope) (ρ : Known) (a : Ref) (i : IntExpr) : Prop :=
  ∃ k, i.value ρ = some k ∧ 0 ≤ k ∧ k < S.length a

section Expressions

variable (S : Scope) (K : List String) (ρ : Known)

/-- The expression reads set variables and elements within their arrays. -/
def IntExpr.InBounds : IntExpr → Prop
  | .lit _ => True
  | .var n => (ρ n).isSome
  | .elem a i => S.Within ρ a i
  | .add a b | .mul a b => a.InBounds ∧ b.InBounds

def Cond.InBounds : Cond → Prop
  | .eq a b | .ne a b => a.InBounds S ρ ∧ b.InBounds S ρ
  | .notNull _ => True
  | .both a b => a.InBounds ∧ b.InBounds

/-- A scalar is a set variable, or a member that has an element. -/
def Ref.InBounds : Ref → Prop
  | .name n => n ∈ K
  | .member owner n => 0 < S.length (.member owner n)

def RealExpr.InBounds : RealExpr → Prop
  | .literal _ | .whole _ => True
  | .scalar r => r.InBounds S K
  | .elem a i => S.Within ρ a i
  | .add a b | .sub a b | .mul a b | .div a b => a.InBounds ∧ b.InBounds
  | .abs a => a.InBounds
  | .choice c a b => c.InBounds S ρ ∧ a.InBounds ∧ b.InBounds

def Test.InBounds : Test → Prop
  | .cond c => c.InBounds S ρ
  | .greater a b => a.InBounds S K ρ ∧ b.InBounds S K ρ
  | .isZero a => a.InBounds S K ρ

/-- The value of an argument, where it follows from what is known. -/
def Arg.known : Arg → Option Value
  | .value e => (e.value ρ).map .int
  | .array a => some (((viewOf S.size S.arrays a).map Value.array).getD .null)
  | .tail a i => (i.value ρ).bind fun k => (tailOf S.size S.arrays a k).map .array

/-- The arguments are known, and such a call is allowed. -/
def Call.Allowed (c : Call) : Prop := ∃ vs, c.args.mapM (Arg.known S ρ) = some vs ∧ S.callable c.function vs

/-- The arguments are known, and such a call answers with an integer. -/
def Call.Answered (c : Call) : Prop := ∃ vs, c.args.mapM (Arg.known S ρ) = some vs ∧ S.answering c.function vs

/-- What an assignment changes is there. A scalar variable need not be set before it gets a value. -/
def Target.InBounds (t : Target) (u : Update) : Prop :=
  match t.ref, t.index with
  | .name n, none => u = .set ∨ n ∈ K
  | .member owner n, none => 0 < S.length (.member owner n)
  | a, some i => S.Within ρ a i

end Expressions

/-- The state of a program in a scope: what is known of the variables holds, and the integers in memory have a
property. -/
structure Fits {R : Type} (S : Scope) (I : (Block → Nat → Int) → Prop) (K : List String) (ρ : Known) (s : State R) :
    Prop where
  known : ρ.Of s.ints
  reals : ∀ n ∈ K, (s.reals n).isSome
  arrays : s.arrays = S.arrays
  memory : I s.memory.ints

section Soundness

variable {R : Type} {S : Scope} {I : (Block → Nat → Int) → Prop} {K : List String} {ρ : Known} {s : State R}

theorem IntExpr.value_mono {ρ ρ' : Known} (hle : ρ.Le ρ') {e : IntExpr} {k : Int} (h : e.value ρ = some k) :
    e.value ρ' = some k := by
  induction e generalizing k with
  | lit n => exact h
  | var n =>
    obtain ⟨y, hy, hxy⟩ := hle n _ (Option.join_eq_some_iff.1 h)
    rcases hxy with hxy | rfl
    · cases hxy
    · exact Option.join_eq_some_iff.2 hy
  | elem a i => cases h
  | add a b iha ihb | mul a b iha ihb =>
    obtain ⟨x, hx, h⟩ := Option.bind_eq_some_iff.1 h
    obtain ⟨y, hy, rfl⟩ := Option.map_eq_some_iff.1 h
    rw [value, iha hx, ihb hy]
    rfl

theorem IntExpr.eval_of_value (hρ : ρ.Of s.ints) {e : IntExpr} {k : Int} (h : e.value ρ = some k) :
    e.eval S.size s = .ok k := by
  induction e generalizing k with
  | lit n =>
    cases h
    rfl
  | var n => rw [eval, hρ.value (Option.join_eq_some_iff.1 h)]
  | elem a i => cases h
  | add a b iha ihb | mul a b iha ihb =>
    obtain ⟨x, hx, h⟩ := Option.bind_eq_some_iff.1 h
    obtain ⟨y, hy, rfl⟩ := Option.map_eq_some_iff.1 h
    rw [eval, iha hx, ihb hy]
    rfl

/-- An element within its array can be located. -/
theorem Scope.Within.locate (hs : Fits S I K ρ s) {a : Ref} {i : IntExpr} (h : S.Within ρ a i) :
    ∃ k v, i.eval S.size s = .ok k ∧ s.locate S.size a k = .ok v := by
  obtain ⟨k, hk, h0, hlt⟩ := h
  obtain ⟨v, hv⟩ := Scope.tailOf_of_lt h0 hlt
  exact ⟨k, v, IntExpr.eval_of_value hs.known hk, by rw [State.locate, hs.arrays, hv]⟩

theorem Fits.locate_scalar (hs : Fits S I K ρ s) {owner : Struct} {n : String} (h : 0 < S.length (.member owner n)) :
    ∃ v, s.locate S.size (.member owner n) 0 = .ok v := by
  obtain ⟨v, hv⟩ := Scope.tailOf_of_lt (Int.le_refl 0) (Int.ofNat_lt.2 h)
  exact ⟨v, by rw [State.locate, hs.arrays, hv]⟩

theorem IntExpr.InBounds.eval (hs : Fits S I K ρ s) {e : IntExpr} (h : e.InBounds S ρ) :
    ∃ k, e.eval S.size s = .ok k := by
  induction e with
  | lit n => exact ⟨n, rfl⟩
  | var n =>
    obtain ⟨x, hx⟩ := Option.isSome_iff_exists.1 h
    obtain ⟨k, hk, -⟩ := hs.known n x hx
    exact ⟨k, by rw [IntExpr.eval, hk]⟩
  | elem a i =>
    obtain ⟨k, v, hk, hv⟩ := Scope.Within.locate hs h
    refine ⟨s.memory.ints v.block v.first, ?_⟩
    rw [IntExpr.eval, hk]
    change (do let v ← s.locate S.size a k; return s.memory.ints v.block v.first) = _
    rw [hv]
    rfl
  | add a b iha ihb | mul a b iha ihb =>
    obtain ⟨x, hx⟩ := iha h.1
    obtain ⟨y, hy⟩ := ihb h.2
    rw [IntExpr.eval, hx, hy]
    exact ⟨_, rfl⟩

theorem Cond.InBounds.eval (hs : Fits S I K ρ s) {c : Cond} (h : c.InBounds S ρ) : ∃ b, c.eval S.size s = .ok b := by
  induction c with
  | eq a b | ne a b =>
    obtain ⟨x, hx⟩ := IntExpr.InBounds.eval hs h.1
    obtain ⟨y, hy⟩ := IntExpr.InBounds.eval hs h.2
    rw [Cond.eval, hx, hy]
    exact ⟨_, rfl⟩
  | notNull p => exact ⟨_, rfl⟩
  | both a b iha ihb =>
    obtain ⟨x, hx⟩ := iha h.1
    rw [Cond.eval, hx]
    cases x with
    | true => exact ihb h.2
    | false => exact ⟨false, rfl⟩

theorem Ref.InBounds.read (hs : Fits S I K ρ s) {r : Ref} (h : r.InBounds S K) :
    ∃ x : R, r.readScalar S.size s = .ok x := by
  cases r with
  | name n =>
    obtain ⟨x, hx⟩ := Option.isSome_iff_exists.1 (hs.reals n h)
    exact ⟨x, by rw [readScalar, hx]⟩
  | member owner n =>
    obtain ⟨v, hv⟩ := hs.locate_scalar h
    exact ⟨s.memory.reals v.block v.first, by rw [readScalar, hv]; rfl⟩

variable [Arithmetic R]

theorem RealExpr.InBounds.eval (hs : Fits S I K ρ s) {e : RealExpr} (h : e.InBounds S K ρ) :
    ∃ x : R, e.eval S.size s = .ok x := by
  induction e with
  | literal v | whole n => exact ⟨_, rfl⟩
  | scalar r => exact Ref.InBounds.read hs h
  | elem a i =>
    obtain ⟨k, v, hk, hv⟩ := Scope.Within.locate hs h
    refine ⟨s.memory.reals v.block v.first, ?_⟩
    rw [RealExpr.eval, hk]
    change (do let v ← s.locate S.size a k; return s.memory.reals v.block v.first) = _
    rw [hv]
    rfl
  | add a b iha ihb | sub a b iha ihb | mul a b iha ihb | div a b iha ihb =>
    obtain ⟨x, hx⟩ := iha h.1
    obtain ⟨y, hy⟩ := ihb h.2
    rw [RealExpr.eval, hx, hy]
    exact ⟨_, rfl⟩
  | abs a iha =>
    obtain ⟨x, hx⟩ := iha h
    rw [RealExpr.eval, hx]
    exact ⟨_, rfl⟩
  | choice c a b iha ihb =>
    obtain ⟨t, ht⟩ := Cond.InBounds.eval hs h.1
    rw [RealExpr.eval, ht]
    cases t with
    | true => exact iha h.2.1
    | false => exact ihb h.2.2

theorem Test.InBounds.eval (hs : Fits S I K ρ s) {t : Test} (h : t.InBounds S K ρ) :
    ∃ b, t.eval S.size s = .ok b := by
  cases t with
  | cond c => exact Cond.InBounds.eval hs h
  | greater a b =>
    obtain ⟨x, hx⟩ := RealExpr.InBounds.eval hs h.1
    obtain ⟨y, hy⟩ := RealExpr.InBounds.eval hs h.2
    rw [Test.eval, hx, hy]
    exact ⟨_, rfl⟩
  | isZero a =>
    obtain ⟨x, hx⟩ := RealExpr.InBounds.eval hs h
    rw [Test.eval, hx]
    exact ⟨_, rfl⟩

omit [Arithmetic R] in
theorem Arg.eval_of_known (hs : Fits S I K ρ s) {a : Arg} {v : Value} (h : a.known S ρ = some v) :
    a.eval S.size s = .ok v := by
  cases a with
  | value e =>
    obtain ⟨k, hk, rfl⟩ := Option.map_eq_some_iff.1 h
    rw [eval, IntExpr.eval_of_value hs.known hk]
    rfl
  | array a =>
    rw [eval, hs.arrays]
    exact congrArg Except.ok (Option.some.inj h)
  | tail a i =>
    obtain ⟨k, hk, h⟩ := Option.bind_eq_some_iff.1 h
    obtain ⟨w, hw, rfl⟩ := Option.map_eq_some_iff.1 h
    rw [eval, IntExpr.eval_of_value hs.known hk]
    change (do return Value.array (← s.locate S.size a k)) = _
    rw [State.locate, hs.arrays, hw]
    rfl

omit [Arithmetic R] in
theorem Arg.mapM_eval_of_known (hs : Fits S I K ρ s) {as : List Arg} {vs : List Value}
    (h : as.mapM (Arg.known S ρ) = some vs) : as.mapM (Arg.eval S.size s) = .ok vs := by
  induction as generalizing vs with
  | nil =>
    cases h
    rfl
  | cons a as ih =>
    rw [List.mapM_cons] at h
    obtain ⟨v, hv, h⟩ := Option.bind_eq_some_iff.1 h
    obtain ⟨ws, hws, h⟩ := Option.bind_eq_some_iff.1 h
    cases h
    rw [List.mapM_cons, eval_of_known hs hv]
    change (do return v :: (← as.mapM (Arg.eval S.size s))) = _
    rw [ih hws]
    rfl

end Soundness

/-! ## Statements -/

namespace Stmt

/-- The integer variables that a statement may assign. -/
def assigned : Stmt → List String
  | .seq a b | .beside a b | .branch _ a b => a.assigned ++ b.assigned
  | .declareInt n _ | .declareResult n _ | .assignResult n _ | .assignInt ⟨.name n, none⟩ _ => [n]
  | .countUp c _ _ _ body | .countDown c _ _ body => c :: body.assigned
  | .when _ _ body => body.assigned
  | _ => []

/-- The real variables that a statement sets whenever it goes on. -/
def sets : Stmt → List String
  | .seq a b | .beside a b => a.sets ++ b.sets
  | .declareReal n (some _) | .assign ⟨.name n, none⟩ _ _ => [n]
  | _ => []

/-- What is known of the integer variables after a statement. -/
def after : Stmt → Known → Known
  | .seq a b, ρ | .beside a b, ρ => b.after (a.after ρ)
  | .declareInt n e, ρ => ρ.set n (e.value ρ)
  | .declareResult n _, ρ | .assignResult n _, ρ => ρ.set n none
  | st, ρ => ρ.forget st.assigned

/-- What is known of the integer variables in one round of a loop. -/
def inRound (body : Stmt) (c : String) (k : Int) (ρ : Known) : Known := (ρ.forget body.assigned).set c (some k)

/-- Every subscript of a statement is within its array, in all rounds of its loops, and every call is allowed. -/
def InBounds (S : Scope) : Stmt → List String → Known → Prop
  | .skip, _, _ | .declareInts _, _, _ | .declareReal _ none, _, _ | .ignore _, _, _ => True
  | .seq a b, K, ρ | .beside a b, K, ρ => a.InBounds S K ρ ∧ b.InBounds S (a.sets ++ K) (a.after ρ)
  | .declareInt _ e, _, ρ | .returnInt e, _, ρ => e.InBounds S ρ
  | .declareResult _ c, _, ρ | .assignResult _ c, _, ρ | .returnResult c, _, ρ => c.Answered S ρ
  | .call c, _, ρ => c.Allowed S ρ
  | .declareReal _ (some e), K, ρ | .returnReal e, K, ρ => e.InBounds S K ρ
  | .assign t u e, K, ρ => t.InBounds S K ρ u ∧ e.InBounds S K ρ
  | .countUp c first bound _ body, K, ρ =>
    c ∉ body.assigned ∧ ∃ a b, first.value ρ = some a ∧ bound.value (ρ.forget (c :: body.assigned)) = some b ∧
      ∀ k, a ≤ k → k < b → body.InBounds S K (body.inRound c k ρ)
  | .countDown c last _ body, K, ρ =>
    c ∉ body.assigned ∧ ∀ k, 0 ≤ k → k ≤ last → body.InBounds S K (body.inRound c k ρ)
  | .when t _ body, K, ρ => t.InBounds S K ρ ∧ body.InBounds S K ρ
  | .branch t yes no, K, ρ => t.InBounds S K ρ ∧ yes.InBounds S K ρ ∧ no.InBounds S K ρ
  | .returnTest t, K, ρ => t.InBounds S K ρ
  | .declareArray _ _, _, _ | .assignInt _ _, _, _ | .clear _, _, _ => False

theorem forget_assigned_le_after (st : Stmt) (ρ : Known) : (ρ.forget st.assigned).Le (st.after ρ) := by
  induction st generalizing ρ with
  | seq a b iha ihb | beside a b iha ihb =>
    rw [assigned, ← Known.forget_forget]
    exact ((iha ρ).forget _).trans (ihb _)
  | declareInt n e => exact ρ.forget_le_set (List.mem_singleton_self n) _
  | declareResult n c | assignResult n c => exact ρ.forget_le_set (List.mem_singleton_self n) _
  | _ => exact Known.Le.refl _

theorem inRound_self (body : Stmt) (c : String) (k : Int) (ρ : Known) : body.inRound c k ρ c = some (some k) := if_pos rfl

/-- The counter keeps its value until the loop moves it on. -/
theorem after_inRound_self {body : Stmt} {c : String} (hc : c ∉ body.assigned) (k : Int) (ρ : Known) :
    body.after (body.inRound c k ρ) c = some (some k) := by
  have h : (body.inRound c k ρ).forget body.assigned c = some (some k) := by
    rw [Known.forget, if_neg hc, inRound_self]
  obtain ⟨y, hy, hky⟩ := forget_assigned_le_after body _ c _ h
  rcases hky with hky | rfl
  · cases hky
  · exact hy

theorem forget_le_inRound (body : Stmt) (c : String) (k : Int) (ρ : Known) :
    (ρ.forget (c :: body.assigned)).Le (body.inRound c k ρ) := by
  have hsub : ∀ n ∈ body.assigned ++ [c], n ∈ c :: body.assigned := by
    intro n hn
    rw [List.mem_append, List.mem_singleton] at hn
    exact List.mem_cons.2 hn.symm
  refine (ρ.forget_subset hsub).trans ?_
  rw [← Known.forget_forget]
  exact Known.forget_le_set _ (List.mem_singleton_self c) _

theorem forget_inRound {body : Stmt} {c n : String} (hn : n ≠ c) (k : Int) (ρ : Known) :
    (body.inRound c k ρ).forget body.assigned n = ρ.forget body.assigned n := by
  unfold Known.forget inRound Known.set Known.forget
  by_cases h : n ∈ body.assigned <;> simp [h, hn, Function.comp_def]

/-- What holds after a round holds in the next one. -/
theorem inRound_next {body : Stmt} {c : String} {k : Int} (j : Int) {ρ : Known} {ints : String → Option Int}
    (h : (body.after (body.inRound c k ρ)).Of ints) :
    (body.inRound c j ρ).Of fun n => if n = c then some j else ints n := by
  intro n x hx
  unfold inRound Known.set at hx
  dsimp only
  split_ifs at hx ⊢ with hn
  · cases hx
    exact ⟨j, rfl, .inr rfl⟩
  · rw [← forget_inRound hn k ρ] at hx
    exact h.mono (forget_assigned_le_after body _) n x hx

end Stmt

/-- The calls that a scope allows run without a fault and keep the property of the integers in memory. -/
structure Scope.Serves {R : Type} (S : Scope) (E : Fault → Prop) (I : (Block → Nat → Int) → Prop) (ctx : Context R) :
    Prop where
  size : ctx.size = S.size
  call : ∀ f vs m, S.callable f vs → I m.ints → Meets E (ctx.call f vs m) fun r => I r.2.ints
  answer : ∀ f vs m, S.answering f vs → I m.ints →
    Meets E (ctx.call f vs m) fun r => (∃ k, r.1 = .int k) ∧ I r.2.ints

section Soundness

variable {R : Type} {E : Fault → Prop} {S : Scope} {I : (Block → Nat → Int) → Prop} {K : List String} {ρ : Known}
  {s : State R}

theorem Fits.mono {K' : List String} {ρ' : Known} (h : Fits S I K' ρ' s) (hK : ∀ n ∈ K, n ∈ K') (hρ : ρ.Le ρ') :
    Fits S I K ρ s :=
  ⟨h.known.mono hρ, fun n hn => h.reals n (hK n hn), h.arrays, h.memory⟩

theorem Fits.setInt (hs : Fits S I K ρ s) (n : String) {x : Option Int} {k : Int} (hx : x = none ∨ x = some k) :
    Fits S I K (ρ.set n x) (s.setInt n k) :=
  ⟨hs.known.set n hx, hs.reals, hs.arrays, hs.memory⟩

theorem Fits.setReal (hs : Fits S I K ρ s) (n : String) (r : R) : Fits S I (n :: K) ρ (s.setReal n r) := by
  refine ⟨hs.known, fun n' hn' => ?_, hs.arrays, hs.memory⟩
  unfold State.setReal
  dsimp only
  split_ifs with h
  · rfl
  · exact hs.reals n' ((List.mem_cons.1 hn').resolve_left h)

theorem Fits.withMemory (hs : Fits S I K ρ s) {m : Memory R} (hm : I m.ints) : Fits S I K ρ (s.withMemory m) :=
  ⟨hs.known, hs.reals, hs.arrays, hm⟩

variable [Arithmetic R]

theorem assign_elem (hs : Fits S I K ρ s) {a : Ref} {i : IntExpr} (h : S.Within ρ a i) {u : Update} (r : R) :
    ∃ s', (do return s.updateElement (← s.locate S.size a (← i.eval S.size s)) u r) = Except.ok s' ∧ Fits S I K ρ s' := by
  obtain ⟨k, v, hk, hv⟩ := h.locate hs
  refine ⟨s.updateElement v u r, ?_, hs.withMemory hs.memory⟩
  rw [hk]
  change (do return s.updateElement (← s.locate S.size a k) u r) = _
  rw [hv]
  rfl

/-- An assignment within bounds succeeds. -/
theorem Target.InBounds.assign (hs : Fits S I K ρ s) {t : Target} {u : Update} (h : t.InBounds S K ρ u) (r : R)
    (e : RealExpr) : ∃ s', t.assign S.size s u r = .ok s' ∧ Fits S I ((Stmt.assign t u e).sets ++ K) ρ s' := by
  rcases t with ⟨n | ⟨owner, n⟩, _ | i⟩
  · change ∃ s', s.updateReal n u r = .ok s' ∧ _
    cases hn : s.reals n with
    | some old => exact ⟨_, State.updateReal_of_some hn u r, hs.setReal n _⟩
    | none =>
      rcases h with rfl | h
      · exact ⟨_, by rw [State.updateReal], hs.setReal n r⟩
      · exact absurd (hs.reals n h) (by rw [hn]; exact Bool.false_ne_true)
  · exact assign_elem hs h r
  · obtain ⟨v, hv⟩ := hs.locate_scalar h
    refine ⟨s.updateElement v u r, ?_, hs.withMemory hs.memory⟩
    change (do return s.updateElement (← s.locate S.size (.member owner n) 0) u r) = _
    rw [hv]
    rfl
  · exact assign_elem hs h r

variable {ctx : Context R}

omit [Arithmetic R] in
/-- An allowed call ends well, and keeps what is known. -/
theorem Call.Allowed.eval (hctx : S.Serves E I ctx) (hs : Fits S I K ρ s) {c : Call} (h : c.Allowed S ρ) :
    Meets E (c.eval ctx s) fun r => I r.2.ints := by
  obtain ⟨vs, hvs, hc⟩ := h
  rw [Call.eval, hctx.size, Arg.mapM_eval_of_known hs hvs]
  exact hctx.call _ vs s.memory hc hs.memory

omit [Arithmetic R] in
/-- A call that answers ends well with an integer, and keeps what is known. -/
theorem Call.Answered.evalInt (hctx : S.Serves E I ctx) (hs : Fits S I K ρ s) {c : Call} (h : c.Answered S ρ) :
    Meets E (c.evalInt ctx s) fun r => I r.2.ints := by
  obtain ⟨vs, hvs, hc⟩ := h
  rw [Call.evalInt, Call.eval, hctx.size, Arg.mapM_eval_of_known hs hvs]
  refine Meets.bind (hctx.answer _ vs s.memory hc hs.memory) fun r hnext => ?_
  obtain ⟨⟨k, hk⟩, hr⟩ := hnext
  obtain ⟨a, m⟩ := r
  subst hk
  exact hr

/-- An assignment within bounds of a value that there is. -/
theorem Fits.runs_assign (hsize : ctx.size = S.size) (hs : Fits S I K ρ s) {t : Target} {u : Update} {e : RealExpr}
    {r : R} (he : e.eval S.size s = .ok r) (ht : t.InBounds S K ρ u) {D : Answer R → Memory R → Prop} :
    Runs E ctx (.assign t u e) s (Fits S I ((Stmt.assign t u e).sets ++ K) ρ) D := by
  obtain ⟨s', hs', hfits⟩ := Target.InBounds.assign hs ht r e
  unfold Runs
  rw [Stmt.exec, hsize, he]
  change Meets E (do return Outcome.next (← t.assign S.size s u r)) _
  rw [hs']
  exact hfits

/-- A loop upwards runs in bounds if its rounds do. -/
theorem Fits.runs_countUp (hctx : S.Serves E I ctx) (hs : Fits S I K ρ s) {c : String} {first bound : IntExpr}
    {layout : Layout} {body : Stmt} (h : (Stmt.countUp c first bound layout body).InBounds S K ρ)
    (hbody : ∀ k τ, body.InBounds S K (body.inRound c k ρ) → Fits S I K (body.inRound c k ρ) τ →
      Runs E ctx body τ (Fits S I (body.sets ++ K) (body.after (body.inRound c k ρ))) fun _ m => I m.ints) :
    Runs E ctx (.countUp c first bound layout body) s (Fits S I K (ρ.forget (c :: body.assigned)))
      fun _ m => I m.ints := by
  obtain ⟨hc, a, b, ha, hb, hrounds⟩ := h
  refine Runs.countUp (a := a) (b := b) (fun k => Fits S I K (body.inRound c k ρ)) ?_ ?_ ?_ ?_ ?_ ?_
  · rw [hctx.size]
    exact IntExpr.eval_of_value hs.known ha
  · intro k τ hτ
    rw [hctx.size]
    exact IntExpr.eval_of_value (hτ.known.mono (Stmt.forget_le_inRound body c k ρ)) hb
  · exact (hs.mono (fun _ hn => hn) (ρ.forget_le _)).setInt c (.inr rfl)
  · exact fun k τ hτ => hτ.known.value (Stmt.inRound_self body c k ρ)
  · intro k τ hak hkb hτ
    refine (hbody k τ (hrounds k hak hkb) hτ).mono (fun τ' hτ' => ⟨?_, ?_⟩) fun _ _ hm => hm
    · exact hτ'.known.value (Stmt.after_inRound_self hc k ρ)
    · exact ⟨Stmt.inRound_next (k + 1) hτ'.known, fun n hn => hτ'.reals n (List.mem_append_right _ hn), hτ'.arrays,
        hτ'.memory⟩
  · exact fun τ hτ => hτ.mono (fun _ hn => hn) (Stmt.forget_le_inRound body c _ ρ)

/-- A loop downwards runs in bounds if its rounds do. -/
theorem Fits.runs_countDown (hs : Fits S I K ρ s) {c : String} {last : Int} {layout : Layout} {body : Stmt}
    (h : (Stmt.countDown c last layout body).InBounds S K ρ)
    (hbody : ∀ k τ, body.InBounds S K (body.inRound c k ρ) → Fits S I K (body.inRound c k ρ) τ →
      Runs E ctx body τ (Fits S I (body.sets ++ K) (body.after (body.inRound c k ρ))) fun _ m => I m.ints) :
    Runs E ctx (.countDown c last layout body) s (Fits S I K (ρ.forget (c :: body.assigned)))
      fun _ m => I m.ints := by
  obtain ⟨hc, hrounds⟩ := h
  refine Runs.countDown (fun k => Fits S I K (body.inRound c k ρ)) ?_ ?_ ?_ ?_
  · exact (hs.mono (fun _ hn => hn) (ρ.forget_le _)).setInt c (.inr rfl)
  · exact fun k τ hτ => hτ.known.value (Stmt.inRound_self body c k ρ)
  · intro k τ h0 hk hτ
    refine (hbody k τ (hrounds k h0 hk) hτ).mono (fun τ' hτ' => ⟨?_, ?_⟩) fun _ _ hm => hm
    · exact hτ'.known.value (Stmt.after_inRound_self hc k ρ)
    · exact ⟨Stmt.inRound_next (k - 1) hτ'.known, fun n hn => hτ'.reals n (List.mem_append_right _ hn), hτ'.arrays,
        hτ'.memory⟩
  · exact fun τ hτ => hτ.mono (fun _ hn => hn) (Stmt.forget_le_inRound body c _ ρ)

/-- A statement in bounds runs without a fault, and what is known afterwards holds. -/
theorem Stmt.InBounds.runs (hctx : S.Serves E I ctx) {st : Stmt} (h : st.InBounds S K ρ) (hs : Fits S I K ρ s) :
    Runs E ctx st s (Fits S I (st.sets ++ K) (st.after ρ)) fun _ m => I m.ints := by
  induction st generalizing K ρ s with
  | skip | declareInts ns | ignore n => exact hs.mono (fun _ hn => hn) (ρ.forget_le [])
  | seq a b iha ihb | beside a b iha ihb =>
    refine Outcome.meets_andThen (iha h.1 hs) fun τ hτ => ?_
    refine (ihb h.2 hτ).mono (fun τ' hτ' => hτ'.mono (fun n hn => ?_) (Known.Le.refl _)) fun _ _ hm => hm
    rw [sets, List.append_assoc, List.mem_append, List.mem_append] at hn
    rw [List.mem_append, List.mem_append]
    exact or_left_comm.1 hn
  | declareInt n e =>
    obtain ⟨k, hk⟩ := IntExpr.InBounds.eval hs h
    unfold Runs
    rw [Stmt.exec, hctx.size, hk]
    refine hs.setInt n ?_
    cases hv : e.value ρ with
    | none => exact .inl rfl
    | some j =>
      rw [IntExpr.eval_of_value hs.known hv] at hk
      exact .inr (congrArg some (Except.ok.inj hk))
  | declareResult n c | assignResult n c =>
    exact Meets.bind (Call.Answered.evalInt hctx hs h) fun r hr => (hs.withMemory hr).setInt n (.inl rfl)
  | declareReal n e =>
    cases e with
    | none => exact hs.mono (fun _ hn => hn) (ρ.forget_le [])
    | some e =>
      obtain ⟨r, hr⟩ := RealExpr.InBounds.eval hs h
      unfold Runs
      rw [Stmt.exec, hctx.size, hr]
      exact (hs.setReal n r).mono (fun _ hn => hn) (ρ.forget_le [])
  | declareArray n length | assignInt t e | clear owner => exact h.elim
  | assign t u e =>
    obtain ⟨r, hr⟩ := RealExpr.InBounds.eval hs h.2
    exact (hs.runs_assign hctx.size hr h.1).mono (fun τ hτ => hτ.mono (fun _ hn => hn) (ρ.forget_le []))
      fun _ _ hm => hm
  | call c =>
    exact Meets.bind (Call.Allowed.eval hctx hs h) fun r hr => (hs.withMemory hr).mono (fun _ hn => hn) (ρ.forget_le [])
  | countUp c first bound layout body ih => exact hs.runs_countUp hctx h fun k τ hk hτ => ih hk hτ
  | countDown c last layout body ih => exact hs.runs_countDown h fun k τ hk hτ => ih hk hτ
  | when t layout body ih =>
    obtain ⟨b, hb⟩ := Test.InBounds.eval hs h.1
    rw [← hctx.size] at hb
    refine Runs.when hb (fun _ => ?_) fun _ => hs.mono (fun _ hn => hn) (ρ.forget_le _)
    exact (ih h.2 hs).mono (fun τ hτ => hτ.mono (fun n hn => List.mem_append_right _ hn)
      (forget_assigned_le_after body ρ)) fun _ _ hm => hm
  | branch t yes no ihy ihn =>
    obtain ⟨b, hb⟩ := Test.InBounds.eval hs h.1
    rw [← hctx.size] at hb
    refine Runs.branch hb (fun _ => ?_) fun _ => ?_
    · refine (ihy h.2.1 hs).mono (fun τ hτ => hτ.mono (fun n hn => List.mem_append_right _ hn) ?_) fun _ _ hm => hm
      exact (ρ.forget_subset fun n hn => List.mem_append_left _ hn).trans (forget_assigned_le_after yes ρ)
    · refine (ihn h.2.2 hs).mono (fun τ hτ => hτ.mono (fun n hn => List.mem_append_right _ hn) ?_) fun _ _ hm => hm
      exact (ρ.forget_subset fun n hn => List.mem_append_right _ hn).trans (forget_assigned_le_after no ρ)
  | returnInt e =>
    obtain ⟨k, hk⟩ := IntExpr.InBounds.eval hs h
    unfold Runs
    rw [Stmt.exec, hctx.size, hk]
    exact hs.memory
  | returnReal e =>
    obtain ⟨r, hr⟩ := RealExpr.InBounds.eval hs h
    unfold Runs
    rw [Stmt.exec, hctx.size, hr]
    exact hs.memory
  | returnTest t =>
    obtain ⟨b, hb⟩ := Test.InBounds.eval hs h
    unfold Runs
    rw [Stmt.exec, hctx.size, hb]
    exact hs.memory
  | returnResult c => exact Meets.bind (Call.Answered.evalInt hctx hs h) fun r hr => hr

end Soundness

end ControlCodegen.C
