import ControlCodegen.Proofs.C.References

/-!
# `C.Calls`: the calls that a function makes

* `Stmt.parts` : a statement and the statements inside it.
* `Stmt.calls`, `Stmt.startsOf` : the calls that a statement makes and the values that a variable is declared with,
  wherever they stand.
* `Stmt.occursIn_of_mem_calls`, `Stmt.occursIn_of_mem_startsOf` : both stand in the text.
-/

namespace ControlCodegen.C

set_option autoImplicit false

/-! ## Parts -/

/-- A statement and the statements inside it, in the order of the text. -/
def Stmt.parts : Stmt → List Stmt
  | .seq a b => .seq a b :: (a.parts ++ b.parts)
  | .beside a b => .beside a b :: (a.parts ++ b.parts)
  | .countUp i first bound layout body => .countUp i first bound layout body :: body.parts
  | .countDown i last layout body => .countDown i last layout body :: body.parts
  | .when t layout body => .when t layout body :: body.parts
  | .branch t yes no => .branch t yes no :: (yes.parts ++ no.parts)
  | s => [s]

/-- What stands in a part stands in the whole. -/
theorem Stmt.occursIn_of_mem_parts {st : Style} {s part : Stmt} {t : String} (hpart : part ∈ s.parts)
    (h : OccursIn t (part.lines st)) : OccursIn t (s.lines st) := by
  induction s with
  | seq a b iha ihb =>
    rcases List.mem_cons.1 hpart with rfl | hpart
    · exact h
    · rcases List.mem_append.1 hpart with hpart | hpart
      · exact (iha hpart).append_right _
      · exact (ihb hpart).append_left _
  | beside a b iha ihb =>
    rcases List.mem_cons.1 hpart with rfl | hpart
    · exact h
    · refine .single (OccursIn.intercalate ?_ " ")
      rcases List.mem_append.1 hpart with hpart | hpart
      · exact (iha hpart).append_right _
      · exact (ihb hpart).append_left _
  | countUp i first bound layout body ih =>
    rcases List.mem_cons.1 hpart with rfl | hpart
    · exact h
    · exact OccursIn.layout layout body.isSingle (.inr (ih hpart))
  | countDown i last layout body ih =>
    rcases List.mem_cons.1 hpart with rfl | hpart
    · exact h
    · exact OccursIn.layout layout body.isSingle (.inr (ih hpart))
  | when test layout body ih =>
    rcases List.mem_cons.1 hpart with rfl | hpart
    · exact h
    · exact OccursIn.layout layout body.isSingle (.inr (ih hpart))
  | branch test yes no ihyes ihno =>
    rcases List.mem_cons.1 hpart with rfl | hpart
    · exact h
    · rcases List.mem_append.1 hpart with hpart | hpart
      · exact ((((ihyes hpart).indent.append_left _).append_right _).append_right _).append_right _
      · exact ((ihno hpart).indent.append_left _).append_right _
  | _ =>
    obtain rfl := List.mem_singleton.1 hpart
    exact h

/-! ## Calls -/

/-- The call that a statement makes itself. -/
def Stmt.call? : Stmt → Option Call
  | .declareResult _ c | .assignResult _ c | .call c | .returnResult c => some c
  | _ => none

/-- The calls that a statement makes, wherever they stand. -/
def Stmt.calls (s : Stmt) : List Call := s.parts.filterMap Stmt.call?

theorem Stmt.calls_seq (a b : Stmt) : (Stmt.seq a b).calls = a.calls ++ b.calls := List.filterMap_append

theorem Stmt.occursIn_of_mem_calls {st : Style} {s : Stmt} {c : Call} (h : c ∈ s.calls) :
    OccursIn (c.render st) (s.lines st) := by
  obtain ⟨part, hpart, hcall⟩ := List.mem_filterMap.1 h
  refine occursIn_of_mem_parts hpart ?_
  cases part with
  | declareResult n c' =>
    obtain rfl := Option.some.inj hcall
    exact .single (((Occurs.refl _).append_left _).append_right ";")
  | assignResult n c' =>
    obtain rfl := Option.some.inj hcall
    exact .single (((Occurs.refl _).append_left _).append_right ";")
  | call c' =>
    obtain rfl := Option.some.inj hcall
    exact .single ((Occurs.refl _).append_right ";")
  | returnResult c' =>
    obtain rfl := Option.some.inj hcall
    exact .single (((Occurs.refl _).append_left _).append_right ";")
  | _ => cases hcall

/-! ## Declarations -/

/-- The value that a statement declares a real variable with. -/
def Stmt.start? (name : String) : Stmt → Option RealExpr
  | .declareReal n (some e) => if n = name then some e else none
  | _ => none

/-- The values that a real variable is declared with, wherever the declarations stand. -/
def Stmt.startsOf (s : Stmt) (name : String) : List RealExpr := s.parts.filterMap (Stmt.start? name)

theorem Stmt.startsOf_seq (a b : Stmt) (name : String) :
    (Stmt.seq a b).startsOf name = a.startsOf name ++ b.startsOf name := List.filterMap_append

theorem Stmt.occursIn_of_mem_startsOf {st : Style} {s : Stmt} {name : String} {e : RealExpr} (h : e ∈ s.startsOf name) :
    OccursIn (st.types.real ++ " " ++ name ++ " = " ++ e.render st 0 ++ ";") (s.lines st) := by
  obtain ⟨part, hpart, hstart⟩ := List.mem_filterMap.1 h
  refine occursIn_of_mem_parts hpart ?_
  unfold start? at hstart
  split at hstart
  · split at hstart
    · rename_i hname
      subst hname
      obtain rfl := Option.some.inj hstart
      exact .single (Occurs.refl _)
    · cases hstart
  · cases hstart

end ControlCodegen.C
