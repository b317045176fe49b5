import ControlCodegen.Project.Load
import ControlCodegen.Proofs.Files.Disk
import ControlCodegen.Proofs.Plan.Shape
import ControlCodegen.Proofs.Problem.Check

/-!
# `Project.Load`: what comes of a project file

* `Project.kind_of_ofText`, `Project.check_of_ofText` : a text gives a project that passes its check, or else an error of
  the configuration.
* `Project.loaded` : the project of a file on a disk, which stays as it is.
-/

namespace ControlCodegen

set_option autoImplicit false

open Files

namespace Project

/-! ## Texts -/

section

variable {env : Environment} {text : String} {p : Project} {c : Cause}

theorem bind_eq_error {α β : Type} {e : Except Cause α} {f : α → Except Cause β} (h : e >>= f = .error c) :
    e = .error c ∨ ∃ a, e = .ok a ∧ f a = .error c := by
  cases e with
  | error c' => exact .inl (congrArg Except.error (Except.error.inj h))
  | ok a => exact .inr ⟨a, rfl, h⟩

theorem mapError_eq_error {ε α : Type} {e : Except ε α} {f : ε → Cause} (h : e.mapError f = .error c) :
    ∃ x, c = f x := by
  cases e with
  | error x => exact ⟨x, (Except.error.inj h).symm⟩
  | ok a => cases h

theorem mapError_eq_ok {ε ε' α : Type} {e : Except ε α} {f : ε → ε'} {a : α} (h : e.mapError f = .ok a) :
    e = .ok a := by
  cases e with
  | error x => cases h
  | ok b => exact congrArg Except.ok (Except.ok.inj h)

theorem kind_of_fill (h : env.fill text = .error c) : c.kind = .configuration := by
  unfold Environment.fill at h
  dsimp only at h
  split at h
  · cases h
  · obtain rfl := Except.error.inj h
    rfl

theorem kind_of_override (h : p.override env = .error c) : c.kind = .configuration := by
  unfold override overrideOptions at h
  rcases bind_eq_error h with h | ⟨o, -, h⟩
  · dsimp only at h
    split at h
    · rcases bind_eq_error h with h | ⟨name, -, h⟩
      · obtain ⟨e, rfl⟩ := mapError_eq_error h
        rfl
      · cases h
    · cases h
  · cases h

/-- What is wrong with a text is wrong with the configuration. -/
theorem kind_of_ofText (h : ofText env text = .error c) : c.kind = .configuration := by
  unfold ofText at h
  rcases bind_eq_error h with h | ⟨filled, -, h⟩
  · exact kind_of_fill h
  split at h
  · obtain rfl := Except.error.inj h
    rfl
  rcases bind_eq_error h with h | ⟨p, -, h⟩
  · exact kind_of_override h
  rcases bind_eq_error h with h | ⟨u, -, h⟩
  · obtain ⟨defect, rfl⟩ := mapError_eq_error h
    rfl
  · cases h

/-- The project of a text passes its check. -/
theorem check_of_ofText (h : ofText env text = .ok p) : p.check = .ok () := by
  unfold ofText at h
  obtain ⟨filled, -, h⟩ := Plan.bind_eq_ok h
  split at h
  · cases h
  obtain ⟨p', -, h⟩ := Plan.bind_eq_ok h
  obtain ⟨⟨⟩, hcheck, h⟩ := Plan.bind_eq_ok h
  obtain rfl := Except.ok.inj h
  exact mapError_eq_ok hcheck

/-- So does its problem. -/
theorem check_problem (h : p.check = .ok ()) : p.problem.check = .ok () := by
  unfold check at h
  obtain ⟨-, h⟩ := Problem.guard_ok h
  cases hcheck : p.problem.check with
  | error defect =>
    rw [hcheck] at h
    cases h
  | ok u => rfl

end

/-! ## Files -/

/-- The project of a file on a disk. -/
def loaded (env : Environment) (path : Path) (d : Disk) : Except Cause Project := (d.after (load env path)).1

section

variable {env : Environment} {path : Path} {d : Disk} {p : Project} {c : Cause}

/-- A project comes of a text, unless the file is missing or cannot be read. The disk stays as it is. -/
theorem exists_loaded (env : Environment) (path : Path) (d : Disk) :
    ∃ result, d.after (load env path : Action (StateM Disk) Cause Project) = (result, d) ∧
      ((∃ text, result = ofText env text) ∨ ∃ c : Cause, result = .error c ∧ c.kind = .configuration) := by
  have hcontains : d.after (liftM (FileSystem.contains path : StateM Disk Bool) : Action (StateM Disk) Cause Bool) =
      (.ok ((d.refusal (.look path)).isNone && d.tree.contains path), d) := rfl
  unfold load
  rw [Disk.after_bind, hcontains]
  dsimp only
  cases (d.refusal (.look path)).isNone && d.tree.contains path with
  | false => exact ⟨_, rfl, .inr ⟨.missingConfiguration path, rfl, rfl⟩⟩
  | true =>
    rw [if_pos rfl, Disk.after_bind, Disk.after_adapt]
    unfold readText
    rw [Disk.after_bind, Disk.after_read]
    cases d.read path with
    | error e => exact ⟨_, rfl, .inr ⟨.unreadableConfiguration path e, rfl, rfl⟩⟩
    | ok bytes =>
      dsimp only
      cases String.fromUTF8? bytes with
      | none => exact ⟨_, rfl, .inr ⟨.unreadableConfiguration path .notUtf8, rfl, rfl⟩⟩
      | some text =>
        refine ⟨ofText env text, ?_, .inl ⟨text, rfl⟩⟩
        have htext : d.after (pure text : Action (StateM Disk) FileError String) = (.ok text, d) := rfl
        dsimp only
        rw [htext]
        dsimp only [Except.mapError]
        cases ofText env text <;> rfl

theorem after_load (env : Environment) (path : Path) (d : Disk) :
    d.after (load env path : Action (StateM Disk) Cause Project) = (loaded env path d, d) := by
  obtain ⟨result, h, -⟩ := exists_loaded env path d
  unfold loaded
  rw [h]

theorem loaded_cases (env : Environment) (path : Path) (d : Disk) :
    (∃ text, loaded env path d = ofText env text) ∨
      ∃ c : Cause, loaded env path d = .error c ∧ c.kind = .configuration := by
  obtain ⟨result, h, hcases⟩ := exists_loaded env path d
  unfold loaded
  rw [h]
  exact hcases

/-- A project that is not loaded is faulty in its configuration, -/
theorem kind_of_loaded (h : loaded env path d = .error c) : c.kind = .configuration := by
  rcases loaded_cases env path d with ⟨text, htext⟩ | ⟨c', hc', hkind⟩
  · exact kind_of_ofText (htext.symm.trans h)
  · obtain rfl := Except.error.inj (hc'.symm.trans h)
    exact hkind

/-- and one that is loaded passes its check. -/
theorem check_of_loaded (h : loaded env path d = .ok p) : p.check = .ok () := by
  rcases loaded_cases env path d with ⟨text, htext⟩ | ⟨c, hc, -⟩
  · exact check_of_ofText (htext.symm.trans h)
  · cases hc.symm.trans h

end

end Project

end ControlCodegen
