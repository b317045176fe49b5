import ControlCodegen.Proofs.C.References

/-!
# `C.Uses`: how a program uses the members that it refers to

* `Use` : as a number, or as an array.
* `Stmt.uses` : the members that a statement refers to, each with its use; `Stmt.map_fst_uses` says that it leaves out
  none of `Stmt.members`.
* `Use.line` : the declaration that allows a use.
* `Member.render_eq_iff` : a member is declared for one of the two uses, which depends on its size alone.
-/

namespace ControlCodegen.C

set_option autoImplicit false

/-- How a program uses a member of a struct. -/
inductive Use where
  /-- By its value. -/
  | number
  /-- With a subscript, or handed to a function. -/
  | array
  deriving DecidableEq, Repr

/-! ## Uses in programs -/

def Ref.uses (u : Use) (r : Ref) : List ((Struct × String) × Use) := r.members.map fun q => (q, u)

def IntExpr.uses : IntExpr → List ((Struct × String) × Use)
  | .lit _ | .var _ => []
  | .elem a i => a.uses .array ++ i.uses
  | .add a b | .mul a b => a.uses ++ b.uses

def Cond.uses : Cond → List ((Struct × String) × Use)
  | .eq a b | .ne a b => a.uses ++ b.uses
  | .notNull _ => []
  | .both a b => a.uses ++ b.uses

def RealExpr.uses : RealExpr → List ((Struct × String) × Use)
  | .literal _ | .whole _ => []
  | .scalar r => r.uses .number
  | .elem a i => a.uses .array ++ i.uses
  | .add a b | .sub a b | .mul a b | .div a b => a.uses ++ b.uses
  | .abs a => a.uses
  | .choice c a b => c.uses ++ (a.uses ++ b.uses)

def Test.uses : Test → List ((Struct × String) × Use)
  | .cond c => c.uses
  | .greater a b => a.uses ++ b.uses
  | .isZero a => a.uses

def Arg.uses : Arg → List ((Struct × String) × Use)
  | .value e => e.uses
  | .array a => a.uses .array
  | .tail a i => a.uses .array ++ i.uses

def Call.uses (c : Call) : List ((Struct × String) × Use) := c.args.flatMap Arg.uses

def Target.uses (t : Target) : List ((Struct × String) × Use) :=
  match t.index with
  | none => t.ref.uses .number
  | some i => t.ref.uses .array ++ i.uses

def Stmt.uses : Stmt → List ((Struct × String) × Use)
  | .skip | .declareInts _ | .declareReal _ none | .declareArray _ _ | .ignore _ | .clear _ => []
  | .seq a b | .beside a b => a.uses ++ b.uses
  | .declareInt _ e => e.uses
  | .declareReal _ (some e) => e.uses
  | .declareResult _ c | .assignResult _ c | .call c | .returnResult c => c.uses
  | .assign t _ e => t.uses ++ e.uses
  | .assignInt t e => t.uses ++ e.uses
  | .countUp _ first bound _ body => first.uses ++ (bound.uses ++ body.uses)
  | .countDown _ _ _ body => body.uses
  | .when t _ body => t.uses ++ body.uses
  | .branch t yes no => t.uses ++ (yes.uses ++ no.uses)
  | .returnInt e => e.uses
  | .returnReal e => e.uses
  | .returnTest t => t.uses

/-! ## Every reference is a use -/

@[simp] theorem Ref.map_fst_uses (u : Use) (r : Ref) : (r.uses u).map Prod.fst = r.members := by
  simp [Ref.uses, Function.comp_def]

@[simp] theorem IntExpr.map_fst_uses (e : IntExpr) : e.uses.map Prod.fst = e.members := by
  induction e with
  | lit n | var n => rfl
  | elem a i ih => simp [uses, members, ih]
  | add a b iha ihb | mul a b iha ihb => simp [uses, members, iha, ihb]

@[simp] theorem Cond.map_fst_uses (c : Cond) : c.uses.map Prod.fst = c.members := by
  induction c with
  | eq a b | ne a b => simp [uses, members]
  | notNull p => rfl
  | both a b iha ihb => simp [uses, members, iha, ihb]

@[simp] theorem RealExpr.map_fst_uses (e : RealExpr) : e.uses.map Prod.fst = e.members := by
  induction e with
  | literal v | whole n => rfl
  | scalar r => simp [uses, members]
  | elem a i => simp [uses, members]
  | add a b iha ihb | sub a b iha ihb | mul a b iha ihb | div a b iha ihb => simp [uses, members, iha, ihb]
  | abs a ih => simp [uses, members, ih]
  | choice c a b iha ihb => simp [uses, members, iha, ihb]

@[simp] theorem Test.map_fst_uses (t : Test) : t.uses.map Prod.fst = t.members := by
  cases t <;> simp [uses, members]

@[simp] theorem Arg.map_fst_uses (a : Arg) : a.uses.map Prod.fst = a.members := by
  cases a <;> simp [uses, members]

@[simp] theorem Call.map_fst_uses (c : Call) : c.uses.map Prod.fst = c.members := by
  simp [uses, members, List.map_flatMap]

@[simp] theorem Target.map_fst_uses (t : Target) : t.uses.map Prod.fst = t.members := by
  unfold uses members
  cases t.index <;> simp

/-- A statement uses what it refers to. -/
theorem Stmt.map_fst_uses (s : Stmt) : s.uses.map Prod.fst = s.members := by
  induction s with
  | skip | declareInts ns | declareArray n length | ignore n | clear owner => rfl
  | seq a b iha ihb | beside a b iha ihb => simp [uses, members, iha, ihb]
  | declareReal n e => cases e <;> simp [uses, members]
  | declareInt n e | declareResult n c | assign t u e | assignInt t e | assignResult n c | call c =>
    simp [uses, members]
  | countUp i first bound layout body ih => simp [uses, members, ih]
  | countDown i last layout body ih => simp [uses, members, ih]
  | when t layout body ih => simp [uses, members, ih]
  | branch t yes no ihyes ihno => simp [uses, members, ihyes, ihno]
  | returnInt e | returnReal e | returnTest t | returnResult c => simp [uses, members]

/-! ## Declarations -/

/-- The line that declares a member for a use. -/
def Use.line (u : Use) (names : TypeNames) (d : Member) : String :=
  match u with
  | number => s!"{d.type.spell names} {d.name};"
  | array => s!"{d.type.spell names} {d.name}[ {d.size} ];"

theorem described_injective (description : Option String) : Function.Injective (described description) := by
  intro line line' h
  cases description with
  | none => exact h
  | some text => exact (String.append_right_inj _).1 h

theorem Use.line_injective (names : TypeNames) (d : Member) : Function.Injective fun u : Use => u.line names d := by
  -- behind the name stands a semicolon or a bracket
  have hne : Use.number.line names d ≠ Use.array.line names d := by
    intro h
    unfold line at h
    simp only [String.append_assoc, String.append_right_inj] at h
    change ";" = "[ " ++ (toString d.size ++ " ];") at h
    have hhead := congrArg (fun t : String => t.toList.head?) h
    simp at hhead
  intro u u' h
  cases u <;> cases u'
  · rfl
  · exact absurd h hne
  · exact absurd h.symm hne
  · rfl

/-- The use that a member is declared for. -/
def Member.use (d : Member) : Use := if d.isScalar then .number else .array

theorem Member.use_eq_iff (d : Member) (u : Use) : d.use = u ↔ (u = .number ↔ d.size = 1) := by
  unfold use isScalar
  cases u <;> simp

theorem Member.render_eq (names : TypeNames) (d : Member) :
    d.render names = described d.description (d.use.line names d) := by
  unfold render use
  split <;> rfl

/-- A member is a scalar if and only if it has a single element. -/
theorem Member.render_eq_iff (names : TypeNames) (d : Member) (u : Use) :
    d.render names = described d.description (u.line names d) ↔ (u = .number ↔ d.size = 1) := by
  rw [render_eq, (described_injective _).eq_iff, (Use.line_injective names d).eq_iff, use_eq_iff]

theorem Member.length_render_pos (names : TypeNames) (d : Member) : 0 < (d.render names).length := by
  have hline : ∀ u : Use, 0 < (u.line names d).length := by
    intro u
    cases u <;> simp only [Use.line, String.length_append] <;> exact Nat.succ_pos _
  rw [render_eq]
  unfold described
  split
  · rw [String.length_append]
    exact Nat.add_pos_right _ (hline _)
  · exact hline _

end ControlCodegen.C
