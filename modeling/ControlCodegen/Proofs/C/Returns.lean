import ControlCodegen.Proofs.C.Triple

/-!
# `C.Returns`: what a function answers

* `Stmt.Gives` : every return of a statement has an answer of some kind. Where there is none of that kind, it never returns.
* `Stmt.OnlyInts` : every return of a statement is that of an integer.
* `Stmt.Returns` : a statement does not go on, it returns.
* `Function.answers_int` : a function with such a body answers with an integer whenever it ends.
-/

namespace ControlCodegen.C

set_option autoImplicit false

namespace Stmt

/-- Every return is that of an integer. -/
def OnlyInts : Stmt → Prop
  | .seq a b | .beside a b | .branch _ a b => a.OnlyInts ∧ b.OnlyInts
  | .countUp _ _ _ _ body | .countDown _ _ _ body | .when _ _ body => body.OnlyInts
  | .returnReal _ => False
  | _ => True

/-- Every return has an answer of some kind. -/
def Gives {R : Type} (A : Answer R → Prop) : Stmt → Prop
  | .seq a b | .beside a b | .branch _ a b => a.Gives A ∧ b.Gives A
  | .countUp _ _ _ _ body | .countDown _ _ _ body | .when _ _ body => body.Gives A
  | .returnInt _ | .returnTest _ | .returnResult _ => ∀ k, A (.int k)
  | .returnReal _ => ∀ r, A (.real r)
  | _ => True

theorem OnlyInts.gives {R : Type} {st : Stmt} (h : st.OnlyInts) : st.Gives fun a : Answer R => ∃ k, a = .int k := by
  induction st with
  | seq a b iha ihb | beside a b iha ihb | branch t a b iha ihb => exact ⟨iha h.1, ihb h.2⟩
  | countUp c first bound layout body ih | countDown c last layout body ih | when t layout body ih => exact ih h
  | returnInt | returnTest | returnResult => exact fun k => ⟨k, rfl⟩
  | returnReal => exact h.elim
  | _ => trivial

theorem gives_block {R : Type} {A : Answer R → Prop} {as : List Stmt} (h : ∀ a ∈ as, a.Gives A) : (block as).Gives A := by
  induction as with
  | nil => trivial
  | cons a as ih =>
    have ha := h a List.mem_cons_self
    cases as with
    | nil => exact ha
    | cons b bs => exact ⟨ha, ih fun c hc => h c (List.mem_cons_of_mem a hc)⟩

/-- The statement returns. -/
def Returns : Stmt → Prop
  | .seq _ b | .beside _ b => b.Returns
  | .branch _ a b => a.Returns ∧ b.Returns
  | .returnInt _ | .returnReal _ | .returnTest _ | .returnResult _ => True
  | _ => False

end Stmt

namespace Meets

variable {α β : Type} {E : Fault → Prop} {r : Except Fault α} {P Q : α → Prop}

/-- Two properties of a result; the second may excuse every fault. -/
theorem and (h : Meets E r P) (h' : Meets (fun _ => True) r Q) : Meets E r fun a => P a ∧ Q a := by
  cases r with
  | ok a => exact ⟨h, h'⟩
  | error f => exact h

/-- Whatever comes first, the property is that of what follows. -/
theorem andThen {f : α → Except Fault β} {Q : β → Prop} (h : ∀ a, Meets (fun _ => True) (f a) Q) :
    Meets (fun _ => True) (r >>= f) Q := by
  cases r with
  | ok a => exact h a
  | error e => trivial

end Meets

variable {R : Type} [Arithmetic R] {ctx : Context R}

/-- How a statement ends whose answers are of some kind: it goes on if it may, or it returns one. -/
def KindEnds (A : Answer R → Prop) (goesOn : Prop) : Outcome R → Prop := Outcome.Ends (fun _ => goesOn) fun a _ => A a

variable {A : Answer R → Prop}

omit [Arithmetic R] in
theorem kindEnds_rounds {counter : String} {test : State R → Except Fault Bool}
    {body : State R → Except Fault (Outcome R)} (hbody : ∀ s, Meets (fun _ => True) (body s) (KindEnds A True)) (n : Nat)
    (s : State R) : Meets (fun _ => True) (rounds counter test body n s) (KindEnds A True) := by
  induction n generalizing s with
  | zero =>
    unfold rounds
    refine Meets.andThen fun t => ?_
    cases t <;> trivial
  | succ n ih =>
    unfold rounds
    refine Meets.andThen fun t => ?_
    cases t with
    | true => exact Outcome.meets_andThen (hbody s) fun s _ => ih s
    | false => trivial

omit [Arithmetic R] in
theorem kindEnds_round {body : Except Fault (Outcome R)} {goesOn : Prop} {c : String} {by' : Int}
    (h : Meets (fun _ => True) body (KindEnds A goesOn)) :
    Meets (fun _ => True) (Outcome.andThen body fun s => s.step c by') (KindEnds A True) := by
  refine Outcome.meets_andThen h fun s _ => ?_
  unfold State.step
  cases s.ints c <;> trivial

/-- A statement ends with an answer of the kind that it gives. -/
theorem Stmt.Gives.ends {st : Stmt} (h : st.Gives A) (s : State R) :
    Meets (fun _ => True) (st.exec ctx s) (KindEnds A ¬st.Returns) := by
  induction st generalizing s with
  | skip | declareInts | declareArray | ignore | clear => exact not_false
  | seq a b iha ihb | beside a b iha ihb => exact Outcome.meets_andThen (iha h.1 s) fun s _ => ihb h.2 s
  | declareInt | declareResult | assign | assignInt | assignResult | call =>
    exact Meets.andThen fun _ => by first | exact not_false | exact Meets.andThen fun _ => not_false
  | declareReal n e =>
    cases e with
    | none => exact not_false
    | some e => exact Meets.andThen fun _ => not_false
  | countUp c first bound layout body ih =>
    refine Meets.andThen fun a => Meets.andThen fun b => ?_
    exact (kindEnds_rounds (fun s => kindEnds_round (ih h s)) _ _).mono fun o ho =>
      ho.mono (fun _ _ => not_false) fun _ _ h => h
  | countDown c last layout body ih =>
    exact (kindEnds_rounds (fun s => kindEnds_round (ih h s)) _ _).mono fun o ho =>
      ho.mono (fun _ _ => not_false) fun _ _ h => h
  | when t layout body ih =>
    refine Meets.andThen fun b => ?_
    cases b with
    | true => exact (ih h s).mono fun o ho => ho.mono (fun _ _ => not_false) fun _ _ h => h
    | false => exact not_false
  | branch t yes no ihy ihn =>
    refine Meets.andThen fun b => ?_
    cases b with
    | true => exact (ihy h.1 s).mono fun o ho => ho.mono (fun _ hn hr => hn hr.1) fun _ _ h => h
    | false => exact (ihn h.2 s).mono fun o ho => ho.mono (fun _ hn hr => hn hr.2) fun _ _ h => h
  | returnInt e => exact Meets.andThen fun k => h k
  | returnTest t => exact Meets.andThen fun b => h _
  | returnResult c => exact Meets.andThen fun r => h r.1
  | returnReal e => exact Meets.andThen fun r => h r

/-- A statement that never returns goes on. -/
theorem Runs.of_never {E : Fault → Prop} {st : Stmt} {s : State R} {N : State R → Prop} {D D' : Answer R → Memory R → Prop}
    (h : Runs E ctx st s N D) (hst : st.Gives fun _ : Answer R => False) : Runs E ctx st s N D' := by
  refine (Meets.and h (hst.ends s)).mono fun o ho => ?_
  cases o with
  | next s => exact ho.1
  | done a m => exact ho.2.elim

/-- A function whose body returns nothing but integers answers with one whenever it ends. -/
theorem Function.answers_int {f : Function} (h : f.body.OnlyInts) (hreturns : f.body.Returns) {file : Statics R}
    {args : List Value} {m : Memory R} :
    Meets (fun _ => True) (f.invoke ctx file args m) fun r => ∃ k, r.1 = .int k := by
  unfold invoke
  cases bindParameters f.prototype.params args ⟨f.prototype.name, fun _ => none, file.reals, file.arrays, m⟩ with
  | none => trivial
  | some s =>
    refine Meets.bind (h.gives.ends s) fun o ho => ?_
    cases o with
    | next s => exact absurd hreturns ho
    | done a m => exact ho

end ControlCodegen.C
