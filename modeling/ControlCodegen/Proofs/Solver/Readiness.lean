import ControlCodegen.Proofs.Solver.Configuration

/-!
# `Solver.Readiness`: what readiness tells of the last change

A solver that was set up stays ready until a part of its configuration is replaced. The coefficient is the exception: it
may be replaced without a new setup.

* `Part`, `Operation.part?` : the parts of a configuration, and the one that an operation replaces.
* `Entry`, `history` : operations with what they answered and the solver that they left.
* `LastSetup`, `SetUpSince`, `ReplacedAlone` : the last setup that succeeded, and what was replaced after it or was not.
* `Reflects` : readiness tells that none of some parts was replaced since, and what is emitted has them as they were.
* `reflects_but_for_coefficient`, `reflects_all_iff` : it does for all parts but the coefficient, whatever was done, and
  for all parts unless the coefficient alone was replaced.
-/

namespace ControlCodegen.Solver

set_option autoImplicit false

/-! ## Parts -/

/-- A part of a configuration. -/
inductive Part where
  | extent
  | link
  | objective
  | constraints
  | coefficient
  deriving DecidableEq, Repr

/-- The part that an operation replaces. -/
def Operation.part? : Operation → Option Part
  | setExtent _ => some .extent
  | attachIntegrator _ => some .link
  | setObjective _ => some .objective
  | setConstraints _ => some .constraints
  | setLevenbergMarquardt _ => some .coefficient
  | setup => none

/-- Two solvers have the same in a part. -/
def Same (s s' : Solver) : Part → Prop
  | .extent => s.extent = s'.extent
  | .link => s.link = s'.link
  | .objective => s.objective = s'.objective
  | .constraints => s.constraints = s'.constraints
  | .coefficient => s.levenbergMarquardt = s'.levenbergMarquardt

theorem Same.refl (s : Solver) (p : Part) : Same s s p := by
  cases p <;> exact rfl

theorem Same.trans {s₁ s₂ s₃ : Solver} {p : Part} (h : Same s₁ s₂ p) (h' : Same s₂ s₃ p) : Same s₁ s₃ p := by
  cases p <;> exact Eq.trans h h'

/-! ## Operations with their answers -/

/-- An operation, what it answered and the solver that it left. -/
structure Entry where
  operation : Operation
  answer : Except Cause Unit
  solver : Solver

/-- A setup that succeeded. -/
def Entry.Completes (e : Entry) : Prop := e.operation = .setup ∧ e.answer = .ok ()

/-- An operation that replaced a part. One that was refused did not. -/
def Entry.Replaces (e : Entry) (p : Part) : Prop := e.operation.part? = some p ∧ e.answer = .ok ()

/-- What comes of an operation on a solver. -/
def entry (s : Solver) (a : Operation) : Entry := ⟨a, (s.perform a).1, (s.perform a).2⟩

/-- What comes of operations on a solver, one after the other. -/
def history (s : Solver) : List Operation → List Entry
  | [] => []
  | a :: ops => s.entry a :: (s.perform a).2.history ops

theorem history_concat (s : Solver) (ops : List Operation) (a : Operation) :
    s.history (ops ++ [a]) = s.history ops ++ [(s.after ops).entry a] := by
  induction ops generalizing s with
  | nil => rfl
  | cons b ops ih => exact congrArg (s.entry b :: ·) (ih (s.perform b).2)

section

variable {s s' : Solver} {a : Operation} {c : Cause} {p : Part}

theorem entry_of_ok (h : a.result s = .ok s') : s.entry a = ⟨a, .ok (), s'⟩ := by
  unfold entry
  rw [perform_of_ok h]

theorem entry_of_error (h : a.result s = .error c) : s.entry a = ⟨a, .error c, s⟩ := by
  unfold entry
  rw [perform_of_error h]

/-- A part that an operation does not replace stays as it is. -/
theorem same_entry (h : ¬(s.entry a).Replaces p) : Same s (s.entry a).solver p := by
  cases hresult : a.result s with
  | error c =>
    rw [entry_of_error hresult]
    exact .refl s p
  | ok s' =>
    rw [entry_of_ok hresult] at h ⊢
    have hpart : a.part? ≠ some p := fun hp => h ⟨hp, rfl⟩
    cases a with
    | setExtent =>
      obtain rfl := Except.ok.inj hresult
      cases p with
      | extent => exact absurd rfl hpart
      | _ => exact rfl
    | attachIntegrator =>
      obtain rfl := Except.ok.inj hresult
      cases p with
      | link => exact absurd rfl hpart
      | _ => exact rfl
    | setObjective =>
      obtain ⟨-, rfl⟩ := setObjective_eq_ok_iff.1 hresult
      cases p with
      | objective => exact absurd rfl hpart
      | _ => exact rfl
    | setConstraints =>
      obtain rfl := Except.ok.inj hresult
      cases p with
      | constraints => exact absurd rfl hpart
      | _ => exact rfl
    | setLevenbergMarquardt =>
      obtain rfl := Except.ok.inj hresult
      cases p with
      | coefficient => exact absurd rfl hpart
      | _ => exact rfl
    | setup =>
      obtain ⟨-, -, -, rfl⟩ := setup_eq_ok_iff.1 hresult
      cases p <;> exact rfl

theorem part?_eq_none_iff : a.part? = none ↔ a = .setup := by
  cases a with
  | setup => exact iff_of_true rfl rfl
  | _ => exact iff_of_false nofun nofun

/-- What an operation that succeeds makes of the readiness. The coefficient is the part that leaves it alone. -/
theorem ready_of_result (h : a.result s = .ok s') :
    s'.ready = match a.part? with
      | none => true
      | some .coefficient => s.ready
      | some _ => false := by
  cases a with
  | setExtent | attachIntegrator | setConstraints | setLevenbergMarquardt =>
    obtain rfl := Except.ok.inj h
    rfl
  | setObjective =>
    obtain ⟨-, rfl⟩ := setObjective_eq_ok_iff.1 h
    rfl
  | setup =>
    obtain ⟨-, -, -, rfl⟩ := setup_eq_ok_iff.1 h
    rfl

/-- A solver is ready after an operation that set it up, or if it was ready and no part but the coefficient was
replaced. -/
theorem ready_entry_iff :
    (s.entry a).solver.ready = true ↔
      (s.entry a).Completes ∨ s.ready = true ∧ ∀ p, p ≠ .coefficient → ¬(s.entry a).Replaces p := by
  cases hresult : a.result s with
  | error c =>
    rw [entry_of_error hresult]
    simp [Entry.Completes, Entry.Replaces]
  | ok s' =>
    rw [entry_of_ok hresult]
    simp only [Entry.Completes, Entry.Replaces, and_true, ← part?_eq_none_iff, ready_of_result hresult]
    cases a.part? with
    | none => simp
    | some q =>
      cases q with
      | coefficient =>
        have hkept (p : Part) (hp : p ≠ .coefficient) : some Part.coefficient ≠ some p :=
          fun h => hp (Option.some.inj h).symm
        exact ⟨fun hready => .inr ⟨hready, hkept⟩, fun h => (h.resolve_left nofun).1⟩
      | _ => simp

end

/-! ## The last setup -/

/-- The last setup in a history that succeeded, and what came after it. -/
def LastSetup (log : List Entry) (e : Entry) (behind : List Entry) : Prop :=
  ∃ before, log = before ++ e :: behind ∧ e.Completes ∧ ∀ x ∈ behind, ¬x.Completes

/-- A setup has succeeded, and some parts were not replaced after the last one that did. -/
def SetUpSince (P : Part → Prop) (log : List Entry) : Prop :=
  ∃ e behind, LastSetup log e behind ∧ ∀ x ∈ behind, ∀ p, P p → ¬x.Replaces p

/-- A setup has succeeded, and a part was replaced after the last one that did, but no other part. -/
def ReplacedAlone (p : Part) (log : List Entry) : Prop :=
  ∃ e behind, LastSetup log e behind ∧ (∃ x ∈ behind, x.Replaces p) ∧
    ∀ x ∈ behind, ∀ q, q ≠ p → ¬x.Replaces q

section

variable {log behind behind' : List Entry} {e e' x : Entry} {P Q : Part → Prop} {p : Part}

theorem not_lastSetup_nil : ¬LastSetup [] e behind := by
  rintro ⟨before, hlog, -⟩
  exact List.append_ne_nil_of_right_ne_nil before (List.cons_ne_nil e behind) hlog.symm

theorem lastSetup_concat_of_completes (hx : x.Completes) :
    LastSetup (log ++ [x]) e behind ↔ e = x ∧ behind = [] := by
  constructor
  · rintro ⟨before, hlog, -, hbehind⟩
    rcases List.eq_nil_or_concat behind with rfl | ⟨behind, y, rfl⟩
    · exact ⟨(List.cons.inj (List.append_inj' hlog rfl).2).1.symm, rfl⟩
    · rw [List.concat_eq_append, ← List.cons_append, ← List.append_assoc] at hlog
      obtain rfl := (List.cons.inj (List.append_inj' hlog rfl).2).1
      exact absurd hx (hbehind x (by simp))
  · rintro ⟨rfl, rfl⟩
    exact ⟨log, rfl, hx, List.forall_mem_nil _⟩

theorem lastSetup_concat_of_not_completes (hx : ¬x.Completes) :
    LastSetup (log ++ [x]) e behind ↔ ∃ rest, behind = rest ++ [x] ∧ LastSetup log e rest := by
  constructor
  · rintro ⟨before, hlog, he, hbehind⟩
    rcases List.eq_nil_or_concat behind with rfl | ⟨rest, y, rfl⟩
    · obtain rfl := (List.cons.inj (List.append_inj' hlog rfl).2).1
      exact absurd he hx
    · rw [List.concat_eq_append] at hbehind
      rw [List.concat_eq_append, ← List.cons_append, ← List.append_assoc] at hlog
      obtain ⟨rfl, hxy⟩ := List.append_inj' hlog rfl
      obtain rfl := (List.cons.inj hxy).1
      exact ⟨rest, List.concat_eq_append, before, rfl, he, fun z hz => hbehind z (List.mem_append_left _ hz)⟩
  · rintro ⟨rest, rfl, before, rfl, he, hrest⟩
    refine ⟨before, by simp, he, ?_⟩
    rw [List.forall_mem_append, List.forall_mem_singleton]
    exact ⟨hrest, hx⟩

/-- There is one last setup at most. -/
theorem LastSetup.unique (h : LastSetup log e behind) (h' : LastSetup log e' behind') : e = e' ∧ behind = behind' := by
  induction log using List.reverseRecOn generalizing behind behind' with
  | nil => exact absurd h not_lastSetup_nil
  | append_singleton log x ih =>
    by_cases hx : x.Completes
    · obtain ⟨rfl, rfl⟩ := (lastSetup_concat_of_completes hx).1 h
      obtain ⟨rfl, rfl⟩ := (lastSetup_concat_of_completes hx).1 h'
      exact ⟨rfl, rfl⟩
    · obtain ⟨rest, rfl, hrest⟩ := (lastSetup_concat_of_not_completes hx).1 h
      obtain ⟨rest', rfl, hrest'⟩ := (lastSetup_concat_of_not_completes hx).1 h'
      obtain ⟨rfl, rfl⟩ := ih hrest hrest'
      exact ⟨rfl, rfl⟩

theorem not_setUpSince_nil : ¬SetUpSince P [] := fun ⟨_, _, h, _⟩ => not_lastSetup_nil h

theorem setUpSince_concat_iff :
    SetUpSince P (log ++ [x]) ↔ x.Completes ∨ SetUpSince P log ∧ ∀ p, P p → ¬x.Replaces p := by
  by_cases hx : x.Completes
  · exact iff_of_true ⟨x, [], (lastSetup_concat_of_completes hx).2 ⟨rfl, rfl⟩, List.forall_mem_nil _⟩ (.inl hx)
  · constructor
    · rintro ⟨e, behind, hlast, hkept⟩
      obtain ⟨rest, rfl, hrest⟩ := (lastSetup_concat_of_not_completes hx).1 hlast
      rw [List.forall_mem_append, List.forall_mem_singleton] at hkept
      exact .inr ⟨⟨e, rest, hrest, hkept.1⟩, hkept.2⟩
    · rintro (h | ⟨⟨e, rest, hrest, hkept⟩, hx'⟩)
      · exact absurd h hx
      · refine ⟨e, rest ++ [x], (lastSetup_concat_of_not_completes hx).2 ⟨rest, rfl, hrest⟩, ?_⟩
        rw [List.forall_mem_append, List.forall_mem_singleton]
        exact ⟨hkept, hx'⟩

theorem SetUpSince.mono (h : SetUpSince P log) (hQ : ∀ p, Q p → P p) : SetUpSince Q log := by
  obtain ⟨e, behind, hlast, hkept⟩ := h
  exact ⟨e, behind, hlast, fun x hx p hp => hkept x hx p (hQ p hp)⟩

/-- To leave a part out of account matters if no other part was replaced. -/
theorem setUpSince_all_of_ne_iff :
    (SetUpSince (· ≠ p) log → SetUpSince (fun _ => True) log) ↔ ¬ReplacedAlone p log := by
  constructor
  · rintro h ⟨e, behind, hlast, ⟨x, hx, hreplaces⟩, hothers⟩
    obtain ⟨e', behind', hlast', hkept⟩ := h ⟨e, behind, hlast, hothers⟩
    obtain ⟨-, rfl⟩ := hlast.unique hlast'
    exact hkept x hx p trivial hreplaces
  · rintro halone ⟨e, behind, hlast, hothers⟩
    refine ⟨e, behind, hlast, fun x hx q _ hreplaces => ?_⟩
    by_cases hq : q = p
    · exact halone ⟨e, behind, hlast, ⟨x, hx, hq ▸ hreplaces⟩, hothers⟩
    · exact hothers x hx q hq hreplaces

end

/-! ## Readiness after any operations -/

section

variable {new : Solver} {ops : List Operation} {e : Entry} {behind : List Entry} {p : Part}

/-- After operations a solver has each part that was not replaced as the last setup left it. -/
theorem LastSetup.same (h : LastSetup (new.history ops) e behind) (hp : ∀ x ∈ behind, ¬x.Replaces p) :
    Same e.solver (new.after ops) p := by
  induction ops using List.reverseRecOn generalizing behind with
  | nil => exact absurd h not_lastSetup_nil
  | append_singleton ops a ih =>
    rw [history_concat] at h
    rw [after_concat]
    by_cases hx : ((new.after ops).entry a).Completes
    · obtain ⟨rfl, -⟩ := (lastSetup_concat_of_completes hx).1 h
      exact .refl _ p
    · obtain ⟨rest, rfl, hrest⟩ := (lastSetup_concat_of_not_completes hx).1 h
      rw [List.forall_mem_append, List.forall_mem_singleton] at hp
      exact (ih hrest hp.1).trans (same_entry hp.2)

/-- A new solver is ready after operations if it was set up and no part but the coefficient was replaced since. -/
theorem ready_after_iff (hnew : new.ready = false) (ops : List Operation) :
    (new.after ops).ready = true ↔ SetUpSince (· ≠ .coefficient) (new.history ops) := by
  induction ops using List.reverseRecOn with
  | nil => exact iff_of_false (by simp [after, hnew]) not_setUpSince_nil
  | append_singleton ops a ih =>
    rw [after_concat, history_concat, setUpSince_concat_iff, ← ih]
    exact ready_entry_iff

end

/-- Only a solver that is ready emits. -/
theorem Bound.ready_of_emit {k : Strategy} {o : Options} {ops : List Operation} {s : Solver} (h : Bound k o ops s)
    {f : C.SourceFile} (hemit : (s.emit f).1 = .ok ()) : s.ready = true := by
  rw [emit_eq] at hemit
  cases hitems : s.items with
  | ok is => exact h.items_isOk.1 ⟨is, hitems⟩
  | error c =>
    rw [hitems] at hemit
    cases hemit

/-- What the readiness of a solver tells of some parts, after operations on a new solver. -/
structure Reflects (P : Part → Prop) (new : Solver) (ops : List Operation) : Prop where
  /-- It is ready if and only if it was set up and none of them was replaced since. -/
  ready : (new.after ops).ready = true ↔ SetUpSince P (new.history ops)
  /-- What is emitted has each of them as the last setup left it. -/
  emitted : ∀ f, ((new.after ops).emit f).1 = .ok () →
    ∃ e behind, LastSetup (new.history ops) e behind ∧ ∀ p, P p → Same e.solver (new.after ops) p

/-- Since only a solver that is ready emits, it is the readiness that has to be right. -/
theorem reflects_of_ready {P : Part → Prop} {k : Strategy} {o : Options} {ops : List Operation}
    (h : ((ofOptions k o).after ops).ready = true ↔ SetUpSince P ((ofOptions k o).history ops)) :
    Reflects P (ofOptions k o) ops where
  ready := h
  emitted f hemit := by
    obtain ⟨e, behind, hlast, hkept⟩ := h.1 ((bound_after k o ops).ready_of_emit hemit)
    exact ⟨e, behind, hlast, fun p hp => hlast.same fun x hx => hkept x hx p hp⟩

/-- Readiness tells the truth about every part but the coefficient. -/
theorem reflects_but_for_coefficient (k : Strategy) (o : Options) (ops : List Operation) :
    Reflects (· ≠ .coefficient) (ofOptions k o) ops :=
  reflects_of_ready (ready_after_iff rfl ops)

/-- Readiness tells the truth about all parts unless the coefficient was replaced after the last setup and no other part
was: each of the others takes the readiness back. -/
theorem reflects_all_iff (k : Strategy) (o : Options) (ops : List Operation) :
    Reflects (fun _ => True) (ofOptions k o) ops ↔ ¬ReplacedAlone .coefficient ((ofOptions k o).history ops) := by
  have hbut := (reflects_but_for_coefficient k o ops).ready
  rw [← setUpSince_all_of_ne_iff]
  constructor
  · exact fun h hsince => h.ready.1 (hbut.2 hsince)
  · exact fun h => reflects_of_ready (hbut.trans ⟨h, fun hsince => hsince.mono fun _ _ => trivial⟩)

/-- Operations that set a solver up. -/
def smallSetup : List Operation :=
  [.setExtent ⟨2, { nx := 2, nu := 1 }⟩, .attachIntegrator ⟨"acado_integrate", false, 4, 1, 8, 9⟩,
    .setObjective { leastSquares := some { ny := 3 } }, .setup]

/-- A solver whose coefficient was replaced after its setup says that it is ready. -/
theorem not_reflects_all_smallSetup :
    ¬Reflects (fun _ => True) (ofOptions .gaussNewtonN2 {}) (smallSetup ++ [.setLevenbergMarquardt 0.5]) := by
  intro h
  have hready : ((ofOptions .gaussNewtonN2 {}).after (smallSetup ++ [.setLevenbergMarquardt 0.5])).ready = true := by rfl
  have hsince := h.ready.1 hready
  rw [history_concat, setUpSince_concat_iff] at hsince
  rcases hsince with ⟨hsetup, -⟩ | ⟨-, hkept⟩
  · cases hsetup
  · exact hkept .coefficient trivial ⟨rfl, rfl⟩

end ControlCodegen.Solver
