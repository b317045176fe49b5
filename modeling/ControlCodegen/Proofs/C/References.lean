import ControlCodegen.C.Printer

/-!
# `C.References`: the members that a program refers to

* `Stmt.members` : the members of the structs that a statement refers to.
* `Occurs` : a text is a part of another.
* `Stmt.mem_lines`, `Item.mem_lines` : what a program refers to stands in its text, under the name of its struct.
-/

namespace ControlCodegen.C

set_option autoImplicit false

/-! ## References -/

def Ref.members : Ref → List (Struct × String)
  | .name _ => []
  | .member owner n => [(owner, n)]

def IntExpr.members : IntExpr → List (Struct × String)
  | .lit _ | .var _ => []
  | .elem a i => a.members ++ i.members
  | .add a b | .mul a b => a.members ++ b.members

def Cond.members : Cond → List (Struct × String)
  | .eq a b | .ne a b => a.members ++ b.members
  | .notNull _ => []
  | .both a b => a.members ++ b.members

def RealExpr.members : RealExpr → List (Struct × String)
  | .literal _ | .whole _ => []
  | .scalar r => r.members
  | .elem a i => a.members ++ i.members
  | .add a b | .sub a b | .mul a b | .div a b => a.members ++ b.members
  | .abs a => a.members
  | .choice c a b => c.members ++ (a.members ++ b.members)

def Test.members : Test → List (Struct × String)
  | .cond c => c.members
  | .greater a b => a.members ++ b.members
  | .isZero a => a.members

def Arg.members : Arg → List (Struct × String)
  | .value e => e.members
  | .array a => a.members
  | .tail a i => a.members ++ i.members

def Call.members (c : Call) : List (Struct × String) := c.args.flatMap Arg.members

def Target.members (t : Target) : List (Struct × String) :=
  match t.index with
  | none => t.ref.members
  | some i => t.ref.members ++ i.members

/-- The members that a statement refers to. To clear a struct is to refer to none of them. -/
def Stmt.members : Stmt → List (Struct × String)
  | .skip | .declareInts _ | .declareReal _ none | .declareArray _ _ | .ignore _ | .clear _ => []
  | .seq a b | .beside a b => a.members ++ b.members
  | .declareInt _ e => e.members
  | .declareReal _ (some e) => e.members
  | .declareResult _ c | .assignResult _ c | .call c | .returnResult c => c.members
  | .assign t _ e => t.members ++ e.members
  | .assignInt t e => t.members ++ e.members
  | .countUp _ first bound _ body => first.members ++ (bound.members ++ body.members)
  | .countDown _ _ _ body => body.members
  | .when t _ body => t.members ++ body.members
  | .branch t yes no => t.members ++ (yes.members ++ no.members)
  | .returnInt e => e.members
  | .returnReal e => e.members
  | .returnTest t => t.members

/-! ## Texts -/

/-- A text is a part of another. -/
def Occurs (t s : String) : Prop := ∃ a b, s = a ++ t ++ b

namespace Occurs

variable {t s : String}

theorem refl (t : String) : Occurs t t := ⟨"", "", by simp⟩

theorem append_right (h : Occurs t s) (u : String) : Occurs t (s ++ u) := by
  obtain ⟨a, b, rfl⟩ := h
  exact ⟨a, b ++ u, by rw [String.append_assoc]⟩

theorem append_left (h : Occurs t s) (u : String) : Occurs t (u ++ s) := by
  obtain ⟨a, b, rfl⟩ := h
  exact ⟨u ++ a, b, by simp only [String.append_assoc]⟩

/-- In one of two operands. -/
theorem operation {a b : String} (h : Occurs t a ∨ Occurs t b) (op : String) : Occurs t (a ++ op ++ b) := by
  rcases h with h | h
  · exact (h.append_right op).append_right b
  · exact h.append_left (a ++ op)

/-- In an array or in its index. -/
theorem subscript {a i : String} (h : Occurs t a ∨ Occurs t i) : Occurs t (a ++ "[" ++ i ++ "]") :=
  (operation h "[").append_right "]"

theorem parenthesize (h : Occurs t s) (own needed : Nat) : Occurs t (parenthesize own needed s) := by
  unfold C.parenthesize
  split
  · exact (h.append_left "(").append_right ")"
  · exact h

theorem indent (h : Occurs t s) : Occurs t (indent s) := by
  unfold C.indent
  split
  · exact h
  · exact h.append_left indentation

theorem intercalate {line : String} {lines : List String} (h : Occurs t line) (hline : line ∈ lines) (sep : String) :
    Occurs t (sep.intercalate lines) := by
  induction lines with
  | nil => cases hline
  | cons first lines ih =>
    rcases List.mem_cons.1 hline with rfl | hline
    · cases lines with
      | nil =>
        rw [String.intercalate_singleton]
        exact h
      | cons second lines =>
        rw [String.intercalate_cons_cons, String.append_assoc]
        exact h.append_right _
    · rw [String.intercalate_cons_of_ne_nil (List.ne_nil_of_mem hline)]
      exact (ih hline).append_left _

end Occurs

/-! ## References in texts -/

section Render

variable {st : Style} {q : Struct × String}

/-- A member under the name of its struct. -/
def Style.memberText (st : Style) (q : Struct × String) : String := (Ref.member q.1 q.2).render st

theorem Ref.occurs_render {r : Ref} (h : q ∈ r.members) : Occurs (st.memberText q) (r.render st) := by
  cases r with
  | name n => cases h
  | member owner n =>
    obtain rfl := List.mem_singleton.1 h
    exact .refl _

theorem IntExpr.occurs_render {e : IntExpr} (needed : Nat) (h : q ∈ e.members) :
    Occurs (st.memberText q) (e.render st needed) := by
  induction e generalizing needed with
  | lit n => cases h
  | var n => cases h
  | elem a i ih => exact Occurs.subscript ((List.mem_append.1 h).imp Ref.occurs_render (ih 0))
  | add a b iha ihb => exact (Occurs.operation ((List.mem_append.1 h).imp (iha 1) (ihb 2)) " + ").parenthesize 1 needed
  | mul a b iha ihb => exact (Occurs.operation ((List.mem_append.1 h).imp (iha 2) (ihb 3)) " * ").parenthesize 2 needed

theorem Cond.occurs_render {c : Cond} (h : q ∈ c.members) : Occurs (st.memberText q) (c.render st) := by
  induction c with
  | eq a b =>
    exact Occurs.operation ((List.mem_append.1 h).imp (IntExpr.occurs_render 1) (IntExpr.occurs_render 1)) " == "
  | ne a b =>
    exact Occurs.operation ((List.mem_append.1 h).imp (IntExpr.occurs_render 1) (IntExpr.occurs_render 1)) " != "
  | notNull p => cases h
  | both a b iha ihb => exact Occurs.operation ((List.mem_append.1 h).imp iha ihb) " && "

theorem RealExpr.occurs_render {e : RealExpr} (needed : Nat) (h : q ∈ e.members) :
    Occurs (st.memberText q) (e.render st needed) := by
  induction e generalizing needed with
  | literal v => cases h
  | whole n => cases h
  | scalar r => exact Ref.occurs_render h
  | elem a i => exact Occurs.subscript ((List.mem_append.1 h).imp Ref.occurs_render (IntExpr.occurs_render 0))
  | add a b iha ihb => exact (Occurs.operation ((List.mem_append.1 h).imp (iha 1) (ihb 2)) " + ").parenthesize 1 needed
  | sub a b iha ihb => exact (Occurs.operation ((List.mem_append.1 h).imp (iha 1) (ihb 2)) " - ").parenthesize 1 needed
  | mul a b iha ihb => exact (Occurs.operation ((List.mem_append.1 h).imp (iha 2) (ihb 3)) " * ").parenthesize 2 needed
  | div a b iha ihb => exact (Occurs.operation ((List.mem_append.1 h).imp (iha 2) (ihb 3)) " / ").parenthesize 2 needed
  | abs a ih => exact ((ih 0 h).append_left "fabs(").append_right ")"
  | choice c a b iha ihb =>
    refine Occurs.parenthesize ?_ 0 needed
    rcases List.mem_append.1 h with h | h
    · exact (((((Cond.occurs_render h).append_right " ? ").append_right _).append_right " : ").append_right _)
    · rcases List.mem_append.1 h with h | h
      · exact (((iha 1 h).append_left _).append_right " : ").append_right _
      · exact (ihb 1 h).append_left _

theorem Test.occurs_render {t : Test} (h : q ∈ t.members) : Occurs (st.memberText q) (t.render st) := by
  cases t with
  | cond c => exact Cond.occurs_render h
  | greater a b =>
    exact Occurs.operation ((List.mem_append.1 h).imp (RealExpr.occurs_render 1) (RealExpr.occurs_render 1)) " > "
  | isZero a => exact (RealExpr.occurs_render 1 h).append_right " == 0.0"

theorem Arg.occurs_render {a : Arg} (h : q ∈ a.members) : Occurs (st.memberText q) (a.render st) := by
  cases a with
  | value e => exact IntExpr.occurs_render 0 h
  | array r => exact Ref.occurs_render h
  | tail r i =>
    have hparts : Occurs (st.memberText q) ("&(" ++ r.render st) ∨ Occurs (st.memberText q) (i.render st 0) :=
      (List.mem_append.1 h).imp (fun h => (Ref.occurs_render h).append_left "&(") (IntExpr.occurs_render 0)
    exact (Occurs.operation hparts "[").append_right "])"

theorem Call.occurs_render {c : Call} (h : q ∈ c.members) : Occurs (st.memberText q) (c.render st) := by
  obtain ⟨a, ha, hq⟩ := List.mem_flatMap.1 h
  unfold Call.render
  have hargs : c.args.isEmpty = false := List.isEmpty_eq_false_iff.2 (List.ne_nil_of_mem ha)
  rw [hargs]
  have hlist : Occurs (st.memberText q) (", ".intercalate (c.args.map (Arg.render st))) :=
    (Arg.occurs_render hq).intercalate (List.mem_map_of_mem ha) ", "
  exact (hlist.append_left _).append_right " )"

theorem Target.occurs_render {t : Target} (h : q ∈ t.members) : Occurs (st.memberText q) (t.render st) := by
  unfold Target.members at h
  unfold Target.render
  cases hi : t.index with
  | none =>
    rw [hi] at h
    exact Ref.occurs_render h
  | some i =>
    rw [hi] at h
    exact Occurs.subscript ((List.mem_append.1 h).imp Ref.occurs_render (IntExpr.occurs_render 0))

end Render

/-! ## References in lines -/

section Lines

variable {st : Style} {q : Struct × String}

/-- A text is a part of one of the lines. -/
def OccursIn (t : String) (lines : List String) : Prop := ∃ line ∈ lines, Occurs t line

namespace OccursIn

variable {t : String} {lines : List String}

theorem single {line : String} (h : Occurs t line) : OccursIn t [line] := ⟨line, List.mem_singleton_self line, h⟩

theorem append_right (h : OccursIn t lines) (after : List String) : OccursIn t (lines ++ after) := by
  obtain ⟨line, hline, h⟩ := h
  exact ⟨line, List.mem_append_left after hline, h⟩

theorem append_left (h : OccursIn t lines) (before : List String) : OccursIn t (before ++ lines) := by
  obtain ⟨line, hline, h⟩ := h
  exact ⟨line, List.mem_append_right before hline, h⟩

theorem indent (h : OccursIn t lines) : OccursIn t (lines.map indent) := by
  obtain ⟨line, hline, h⟩ := h
  exact ⟨C.indent line, List.mem_map_of_mem hline, h.indent⟩

theorem intercalate (h : OccursIn t lines) (sep : String) : Occurs t (sep.intercalate lines) := by
  obtain ⟨line, hline, h⟩ := h
  exact h.intercalate hline sep

/-- In the head of a loop or in its body. -/
theorem layout {head : String} (layout : Layout) (single : Bool) (h : Occurs t head ∨ OccursIn t lines) :
    OccursIn t (layout.lines single head lines) := by
  unfold Layout.lines
  rcases h with h | h
  · split
    · exact ((OccursIn.single (h.append_right " \x7b")).append_right _).append_right _
    · exact OccursIn.single ((h.append_right " ").append_right _)
    · exact (OccursIn.single h).append_right _
    · exact (OccursIn.single h).append_right _
  · split
    · exact (h.indent.append_left _).append_right _
    · exact OccursIn.single ((h.intercalate " ").append_left _)
    · exact h.indent.append_left [head]
    · exact h.append_left [head]

end OccursIn

/-- What a statement refers to stands in one of its lines. -/
theorem Stmt.mem_lines {s : Stmt} (h : q ∈ s.members) : OccursIn (st.memberText q) (s.lines st) := by
  induction s with
  | skip => cases h
  | seq a b iha ihb =>
    rcases List.mem_append.1 h with h | h
    · exact (iha h).append_right _
    · exact (ihb h).append_left _
  | beside a b iha ihb =>
    refine .single (OccursIn.intercalate ?_ " ")
    rcases List.mem_append.1 h with h | h
    · exact (iha h).append_right _
    · exact (ihb h).append_left _
  | declareInts ns => cases h
  | declareInt n e => exact .single (((IntExpr.occurs_render 0 h).append_left _).append_right ";")
  | declareResult n c => exact .single (((Call.occurs_render h).append_left _).append_right ";")
  | declareReal n e =>
    cases e with
    | none => cases h
    | some e => exact .single (((RealExpr.occurs_render 0 h).append_left _).append_right ";")
  | declareArray n length => cases h
  | ignore n => cases h
  | assign t u e =>
    rcases List.mem_append.1 h with h | h
    · have hleft : Occurs (st.memberText q) (t.render st ++ " " ++ u.operator) :=
        ((Target.occurs_render h).append_right " ").append_right u.operator
      exact .single (((hleft.append_right " ").append_right _).append_right ";")
    · exact .single (((RealExpr.occurs_render 0 h).append_left _).append_right ";")
  | assignInt t e =>
    have hsides : Occurs (st.memberText q) (t.render st) ∨ Occurs (st.memberText q) (e.render st 0) :=
      (List.mem_append.1 h).imp Target.occurs_render (IntExpr.occurs_render 0)
    exact .single ((Occurs.operation hsides " = ").append_right ";")
  | assignResult n c => exact .single (((Call.occurs_render h).append_left _).append_right ";")
  | call c => exact .single ((Call.occurs_render h).append_right ";")
  | countUp i first bound layout body ih =>
    refine OccursIn.layout layout body.isSingle ?_
    rcases List.mem_append.1 h with h | h
    · have hstart : Occurs (st.memberText q) ("for (" ++ i ++ " = " ++ first.render st 0 ++ "; " ++ i ++ " < ") :=
        ((((IntExpr.occurs_render 0 h).append_left _).append_right "; ").append_right i).append_right " < "
      exact .inl ((((hstart.append_right _).append_right "; ++").append_right i).append_right ")")
    · refine (List.mem_append.1 h).imp (fun h => ?_) ih
      exact ((((IntExpr.occurs_render 1 h).append_left _).append_right "; ++").append_right i).append_right ")"
  | countDown i last layout body ih => exact OccursIn.layout layout body.isSingle (.inr (ih h))
  | when t layout body ih =>
    refine OccursIn.layout layout body.isSingle ((List.mem_append.1 h).imp (fun h => ?_) ih)
    exact ((Test.occurs_render h).append_left "if (").append_right ")"
  | branch t yes no ihyes ihno =>
    rcases List.mem_append.1 h with h | h
    · have hhead : Occurs (st.memberText q) ("if (" ++ t.render st ++ ") \x7b") :=
        ((Test.occurs_render h).append_left "if (").append_right ") \x7b"
      exact ((((OccursIn.single hhead).append_right _).append_right _).append_right _).append_right _
    · rcases List.mem_append.1 h with h | h
      · exact ((((ihyes h).indent.append_left _).append_right _).append_right _).append_right _
      · exact ((ihno h).indent.append_left _).append_right _
  | returnInt e => exact .single (((IntExpr.occurs_render 0 h).append_left _).append_right ";")
  | returnReal e => exact .single (((RealExpr.occurs_render 0 h).append_left _).append_right ";")
  | returnTest t => exact .single (((Test.occurs_render h).append_left _).append_right ";")
  | returnResult c => exact .single (((Call.occurs_render h).append_left _).append_right ";")
  | clear owner => cases h

/-- What stands in the body of a function stands in the file that defines it. -/
theorem OccursIn.of_body {t : String} {items : List Item} {f : Function} (hf : f ∈ Item.functions items)
    (h : OccursIn t (f.body.lines st)) : OccursIn t (items.flatMap (Item.lines st)) := by
  obtain ⟨item, hitem, hsome⟩ := List.mem_filterMap.1 hf
  have hlines : OccursIn t (item.lines st) := by
    cases item with
    | function g =>
      obtain rfl := Option.some.inj hsome
      exact (h.indent.append_left _).append_right _
    | blank | comment text | constants n vs | constant n v => cases hsome
  obtain ⟨line, hline, hoccurs⟩ := hlines
  exact ⟨line, List.mem_flatMap.2 ⟨item, hitem, hline⟩, hoccurs⟩

/-- What a function of a file refers to stands in one of the lines of the file. -/
theorem Item.mem_lines {items : List Item} {f : Function} (hf : f ∈ functions items) (h : q ∈ f.body.members) :
    OccursIn (st.memberText q) (items.flatMap (Item.lines st)) :=
  .of_body hf (Stmt.mem_lines h)

end Lines

end ControlCodegen.C
