import ControlCodegen.Proofs.Files.Disk

/-!
# `Files.Journal`: file systems that keep a journal

* `Journal` : a file system of any kind, with the operations that were asked of it and whether they failed.
* `Journal.failed?` : the first file that could not be read or written.
* `Tracks`, `Tracks.bind`, `Tracks.tryCatch` : a step does the same with a journal as without one, and if it fails then
  the journal says so.
* `blameless_makeDirectories` : directories are made without reading or writing a file.
-/

namespace ControlCodegen.Files

set_option autoImplicit false

/-- Where an operation is made. -/
def Operation.path : Operation → Path
  | look p | read p | write p _ | makeDirectory p => p

/-- Whether an operation is about the contents of a file. -/
def Operation.isOfContents : Operation → Bool
  | read _ | write .. => true
  | look _ | makeDirectory _ => false

/-- A file system with all that was asked of it. -/
structure Journal (σ : Type) where
  state : σ
  /-- The operations in order, each with its error if it failed. -/
  entries : List (Operation × Option FileError) := []

namespace Journal

variable {σ : Type}

/-- An operation that could not read or write a file. -/
abbrev Failure := Operation × FileError

/-- The failure that an entry is about. -/
def failureOf (entry : Operation × Option FileError) : Option Failure :=
  if entry.1.isOfContents then entry.2.map fun e => (entry.1, e) else none

/-- The first reading or writing of a file that failed. -/
def failed? (j : Journal σ) : Option Failure := j.entries.findSome? failureOf

/-- The error of an operation that failed. -/
def error? {α : Type} : Except FileError α → Option FileError
  | .ok _ => none
  | .error e => some e

/-- Asks the file system, and keeps what was asked. -/
def ask {α : Type} (op : Operation) (errorOf : α → Option FileError) (a : StateM σ α) : StateM (Journal σ) α := fun j =>
  ((a j.state).1, ⟨(a j.state).2, j.entries ++ [(op, errorOf (a j.state).1)]⟩)

instance [FileSystem (StateM σ)] : FileSystem (StateM (Journal σ)) where
  contains p := ask (.look p) (fun _ => none) (FileSystem.contains p)
  isDirectory p := ask (.look p) (fun _ => none) (FileSystem.isDirectory p)
  read p := ask (.read p) error? (FileSystem.read p)
  write p bytes := ask (.write p bytes) error? (FileSystem.write p bytes)
  makeDirectory p := ask (.makeDirectory p) error? (FileSystem.makeDirectory p)

/-- A further entry matters if nothing has failed before. -/
theorem failed?_of_none {j : Journal σ} (h : j.failed? = none) (state : σ) (entry : Operation × Option FileError) :
    failed? ⟨state, j.entries ++ [entry]⟩ = failureOf entry := by
  unfold failed? at h ⊢
  rw [List.findSome?_append, h, Option.none_or]
  simp

end Journal

/-! ## Steps with and without a journal -/

section

variable {σ ε ε' α β : Type}

/-- What a step comes to with a journal and without one: the same, and what the journal says is the first failure goes
with the error. -/
inductive Agree (R : ε → Option Journal.Failure → Prop) : Except ε α × Journal σ → Except ε α × σ → Prop where
  | ok (x : α) {j : Journal σ} (h : j.failed? = none) : Agree R (.ok x, j) (.ok x, j.state)
  | error (e : ε) {j : Journal σ} (h : R e j.failed?) : Agree R (.error e, j) (.error e, j.state)

/-- A step that does the same with a journal as without one. -/
def Tracks (a : Action (StateM (Journal σ)) ε α) (b : Action (StateM σ) ε α) (R : ε → Option Journal.Failure → Prop) :
    Prop :=
  ∀ j : Journal σ, j.failed? = none → Agree R (a.run.run j) (b.run.run j.state)

variable {R R' : ε → Option Journal.Failure → Prop}

theorem run_bind (a : Action (StateM σ) ε α) (f : α → Action (StateM σ) ε β) (x : σ) :
    (a >>= f).run.run x =
      match a.run.run x with
      | (.ok y, x') => (f y).run.run x'
      | (.error e, x') => (.error e, x') := by
  change StateT.run (ExceptT.bindCont f (a.run.run x).1) (a.run.run x).2 = _
  rcases a.run.run x with ⟨e | y, x'⟩ <;> rfl

theorem run_tryCatch (a : Action (StateM σ) ε α) (f : ε → Action (StateM σ) ε α) (x : σ) :
    (tryCatch a f).run.run x =
      match a.run.run x with
      | (.ok y, x') => (.ok y, x')
      | (.error e, x') => (f e).run.run x' := by
  change StateT.run (match (a.run.run x).1 with | .ok y => pure (.ok y) | .error e => f e) (a.run.run x).2 = _
  rcases a.run.run x with ⟨e | y, x'⟩ <;> rfl

theorem tracks_pure (x : α) : Tracks (σ := σ) (pure x) (pure x) R := fun _ h => .ok x h

theorem tracks_throw {e : ε} (he : R e none) : Tracks (σ := σ) (α := α) (throw e) (throw e) R := by
  intro j h
  refine .error e ?_
  rw [h]
  exact he

section

variable {a : Action (StateM (Journal σ)) ε α} {b : Action (StateM σ) ε α}

theorem Tracks.mono (h : Tracks a b R) (hR : ∀ e failure, R e failure → R' e failure) : Tracks a b R' := by
  intro j hj
  have hagree := h j hj
  generalize a.run.run j = left, b.run.run j.state = right at hagree ⊢
  cases hagree with
  | ok x h => exact .ok x h
  | error e h => exact .error e (hR e _ h)

theorem Tracks.bind (h : Tracks a b R) {f : α → Action (StateM (Journal σ)) ε β} {g : α → Action (StateM σ) ε β}
    (hf : ∀ x, Tracks (f x) (g x) R) : Tracks (a >>= f) (b >>= g) R := by
  intro j hj
  have hagree := h j hj
  rw [run_bind, run_bind]
  generalize a.run.run j = left, b.run.run j.state = right at hagree ⊢
  cases hagree with
  | ok x h => exact hf x _ h
  | error e h => exact .error e h

/-- An error may be caught if no file is to blame for it. -/
theorem Tracks.tryCatch (h : Tracks a b fun _ failure => failure = none)
    {f : ε → Action (StateM (Journal σ)) ε α} {g : ε → Action (StateM σ) ε α} (hf : ∀ e, Tracks (f e) (g e) R) :
    Tracks (tryCatch a f) (tryCatch b g) R := by
  intro j hj
  have hagree := h j hj
  rw [run_tryCatch, run_tryCatch]
  generalize a.run.run j = left, b.run.run j.state = right at hagree ⊢
  cases hagree with
  | ok x h => exact .ok x h
  | error e h => exact hf e _ h

theorem Tracks.adapt {R : ε' → Option Journal.Failure → Prop} (f : ε → ε')
    (h : Tracks a b fun e failure => R (f e) failure) : Tracks (a.adapt f) (b.adapt f) R := by
  intro j hj
  have hagree := h j hj
  change Agree R ((a.run.run j).1.mapError f, (a.run.run j).2) ((b.run.run j.state).1.mapError f, (b.run.run j.state).2)
  generalize a.run.run j = left, b.run.run j.state = right at hagree ⊢
  cases hagree with
  | ok x h => exact .ok x h
  | error e h => exact .error (f e) h

end

/-! ## Operations -/

/-- An operation that is asked of the file system. -/
theorem tracks_ask (op : Operation) (a : StateM σ (Except FileError α)) :
    Tracks (ExceptT.mk (Journal.ask op Journal.error? a)) (ExceptT.mk a) fun e failure =>
      failure = if op.isOfContents then some (op, e) else none := by
  intro j hj
  have hentry := Journal.failed?_of_none hj (a j.state).2 (op, Journal.error? (a j.state).1)
  change Agree _ ((a j.state).1, (⟨(a j.state).2, j.entries ++ [(op, Journal.error? (a j.state).1)]⟩ : Journal σ))
    ((a j.state).1, (a j.state).2)
  generalize a j.state = asked at hentry ⊢
  rcases asked with ⟨e | x, state⟩
  · exact .error e hentry
  · refine .ok x (hentry.trans ?_)
    unfold Journal.failureOf
    split <;> rfl

variable [FileSystem (StateM σ)]

theorem tracks_read (p : Path) : Tracks (σ := σ) (Files.read p) (Files.read p) fun e failure =>
    failure = some (.read p, e) :=
  tracks_ask (.read p) (FileSystem.read p)

theorem tracks_writeText (p : Path) (text : String) :
    Tracks (σ := σ) (writeText p text) (writeText p text) fun e failure =>
      failure = some (.write p text.toUTF8, e) :=
  tracks_ask (.write p text.toUTF8) (FileSystem.write p text.toUTF8)

/-- A step that no file is to blame for. -/
abbrev Blameless (a : Action (StateM (Journal σ)) ε α) (b : Action (StateM σ) ε α) : Prop :=
  Tracks a b fun _ failure => failure = none

theorem blameless_makeDirectory (p : Path) : Blameless (σ := σ) (makeDirectory p) (makeDirectory p) :=
  tracks_ask (.makeDirectory p) (FileSystem.makeDirectory p)

theorem blameless_unlessDirectory (p : Path) (e : FileError) :
    Blameless (σ := σ) (unlessDirectory p e) (unlessDirectory p e) := by
  have hlook : Blameless (σ := σ) (ε := FileError) (α := Bool)
      (liftM (FileSystem.isDirectory p : StateM (Journal σ) Bool))
      (liftM (FileSystem.isDirectory p : StateM σ Bool)) := fun j hj =>
    .ok _ (Journal.failed?_of_none hj _ (.look p, none))
  unfold unlessDirectory
  refine hlook.bind fun b => ?_
  cases b
  · exact tracks_throw rfl
  · exact tracks_pure ()

/-- Directories on the way are made without reading or writing a file. -/
theorem blameless_makeChain (absolute : Bool) (cs : List String) :
    Blameless (σ := σ) (makeChain absolute cs) (makeChain absolute cs) := by
  induction cs with
  | nil => exact tracks_pure ()
  | cons c above ih =>
    unfold makeChain
    refine (blameless_makeDirectory _).tryCatch fun e => ?_
    cases e with
    | notFound => exact ih.bind fun _ => (blameless_makeDirectory _).tryCatch (blameless_unlessDirectory _)
    | _ => exact blameless_unlessDirectory _ _

theorem blameless_makeDirectories (p : Path) : Blameless (σ := σ) (makeDirectories p) (makeDirectories p) := by
  unfold makeDirectories
  by_cases hempty : p.text.isEmpty = true
  · rw [if_pos hempty, if_pos hempty]
    exact tracks_pure ()
  · rw [if_neg hempty, if_neg hempty]
    refine (blameless_makeDirectory p).tryCatch fun e => ?_
    cases e with
    | notFound =>
      exact (blameless_makeChain _ _).bind fun _ => (blameless_makeDirectory p).tryCatch (blameless_unlessDirectory p)
    | _ => exact blameless_unlessDirectory p _

end

end ControlCodegen.Files
