import ControlCodegen.Proofs.Files.Tree

/-!
# `Files.Disk`: files on a medium that may refuse operations

A tree refuses what its files and directories do not allow. A `Disk` may refuse more: a directory is not to be written
to, a file not to be read, the medium is full. What a refusal leaves is the disk as it was.

* `Disk.Written` : a disk after files were written, one after another.
* `Disk.after` : what a step comes to.
* `Disk.Moves`, `moves_makeDirectories` : what making a directory comes to, from what making one on the way comes to.
* `Disk.Grows`, `grows_makeDirectories` : directories are all that is made on the way to a directory, even if it is not
  reached.
-/

namespace ControlCodegen.Files

set_option autoImplicit false

/-- Something that is to be done with files. -/
inductive Operation where
  | look (p : Path)
  | read (p : Path)
  | write (p : Path) (bytes : ByteArray)
  | makeDirectory (p : Path)

/-- A tree, and the operations that are refused whatever the tree. -/
structure Disk where
  tree : Tree := {}
  refusal : Operation → Option FileError := fun _ => none

namespace Disk

section

variable {α : Type}

/-- The result of an operation that may be refused. -/
def allow (d : Disk) (op : Operation) (result : Except FileError α) : Except FileError α :=
  match d.refusal op with
  | some e => .error e
  | none => result

theorem allow_eq_ok_iff {d : Disk} {op : Operation} {result : Except FileError α} {a : α} :
    d.allow op result = .ok a ↔ d.refusal op = none ∧ result = .ok a := by
  unfold allow
  cases d.refusal op <;> simp

end

def read (d : Disk) (p : Path) : Except FileError ByteArray := d.allow (.read p) (d.tree.read p)

/-- The tree after bytes were put into a file. -/
def write (d : Disk) (p : Path) (bytes : ByteArray) : Except FileError Tree :=
  d.allow (.write p bytes) (d.tree.write p bytes)

def makeDirectory (d : Disk) (p : Path) : Except FileError Tree := d.allow (.makeDirectory p) (d.tree.makeDirectory p)

/-- A change of the tree that may be refused. -/
def change (f : Disk → Except FileError Tree) : StateM Disk (Except FileError Unit) := fun d =>
  match f d with
  | .ok t => (.ok (), { d with tree := t })
  | .error e => (.error e, d)

instance : FileSystem (StateM Disk) where
  contains p := fun d => ((d.refusal (.look p)).isNone && d.tree.contains p, d)
  isDirectory p := fun d => ((d.refusal (.look p)).isNone && d.tree.isDirectory p, d)
  read p := fun d => (d.read p, d)
  write p bytes := change fun d => d.write p bytes
  makeDirectory p := change fun d => d.makeDirectory p

/-! ## Files -/

/-- A disk after files were written. It refuses what it refused before. -/
structure Written (d : Disk) (fs : List (Path × ByteArray)) (d' : Disk) : Prop where
  refusal : d'.refusal = d.refusal
  tree : d.tree.Written fs d'.tree

variable {d d' d'' : Disk} {fs gs : List (Path × ByteArray)} {p : Path} {bytes : ByteArray}

theorem Written.refl (d : Disk) : d.Written [] d := ⟨rfl, .refl d.tree⟩

theorem Written.trans (h : d.Written fs d') (h' : d'.Written gs d'')
    (hapart : ∀ f ∈ fs, ∀ g ∈ gs, f.1.Apart g.1) : d.Written (fs ++ gs) d'' :=
  ⟨h'.refusal.trans h.refusal, h.tree.trans h'.tree hapart⟩

theorem written_write {t : Tree} (h : d.write p bytes = .ok t) : d.Written [(p, bytes)] { d with tree := t } :=
  ⟨rfl, Tree.written_write (allow_eq_ok_iff.1 h).2⟩

theorem read_eq_ok_iff : d.read p = .ok bytes ↔ d.refusal (.read p) = none ∧ d.tree.read p = .ok bytes :=
  allow_eq_ok_iff

/-- A file that could be read once it was written can be read after others were written, too. -/
theorem Written.read (h : d.Written fs d') (h' : d'.Written gs d'') (hapart : ∀ f ∈ fs, ∀ g ∈ gs, f.1.Apart g.1)
    {f : Path × ByteArray} (hf : f ∈ fs) (hread : d'.read f.1 = .ok f.2) : d''.read f.1 = .ok f.2 := by
  have hholds := (h.trans h' hapart).tree.holds f (List.mem_append_left gs hf)
  refine read_eq_ok_iff.2 ⟨?_, hholds⟩
  rw [h'.refusal]
  exact (read_eq_ok_iff.1 hread).1

/-! ## Directories -/

/-- A disk after directories were made. -/
structure Grown (d d' : Disk) : Prop where
  refusal : d'.refusal = d.refusal
  tree : d.tree.Grown d'.tree

theorem Grown.refl (d : Disk) : d.Grown d := ⟨rfl, .refl d.tree⟩

theorem Grown.trans (h : d.Grown d') (h' : d'.Grown d'') : d.Grown d'' :=
  ⟨h'.refusal.trans h.refusal, h.tree.trans h'.tree⟩

section

variable {ε ε' α β : Type}

/-- What a step comes to, and the disk after it. -/
def after (d : Disk) (a : Action (StateM Disk) ε α) : Except ε α × Disk := a.run.run d

theorem after_bind (a : Action (StateM Disk) ε α) (f : α → Action (StateM Disk) ε β) :
    d.after (a >>= f) =
      match d.after a with
      | (.ok x, d') => d'.after (f x)
      | (.error e, d') => (.error e, d') := by
  change StateT.run (ExceptT.bindCont f (d.after a).1) (d.after a).2 = _
  rcases d.after a with ⟨e | x, d'⟩ <;> rfl

theorem after_tryCatch (a : Action (StateM Disk) ε α) (f : ε → Action (StateM Disk) ε α) :
    d.after (tryCatch a f) =
      match d.after a with
      | (.ok x, d') => (.ok x, d')
      | (.error e, d') => d'.after (f e) := by
  change StateT.run (match (d.after a).1 with | .ok x => pure (.ok x) | .error e => f e) (d.after a).2 = _
  rcases d.after a with ⟨e | x, d'⟩ <;> rfl

theorem after_adapt (a : Action (StateM Disk) ε α) (f : ε → ε') :
    d.after (a.adapt f) = ((d.after a).1.mapError f, (d.after a).2) := rfl

theorem after_read (p : Path) : d.after (Files.read p : Action (StateM Disk) FileError ByteArray) = (d.read p, d) := rfl

theorem after_writeText (p : Path) (text : String) :
    d.after (writeText p text : Action (StateM Disk) FileError Unit) =
      match d.write p text.toUTF8 with
      | .ok t => (.ok (), { d with tree := t })
      | .error e => (.error e, d) := rfl

/-- A step that leads from every disk to one in a certain relation to it, whether or not it fails. -/
def Moves (R : Disk → Disk → Prop) (a : Action (StateM Disk) ε α) : Prop := ∀ d, R d (d.after a).2

section

variable {R : Disk → Disk → Prop}

theorem Moves.bind {a : Action (StateM Disk) ε α} {f : α → Action (StateM Disk) ε β}
    (htrans : ∀ d d' d'', R d d' → R d' d'' → R d d'') (ha : Moves R a) (hf : ∀ x, Moves R (f x)) :
    Moves R (a >>= f) := by
  intro d
  have hfirst := ha d
  rw [after_bind]
  rcases hresult : d.after a with ⟨result, d'⟩
  rw [hresult] at hfirst
  cases result with
  | error e => exact hfirst
  | ok x => exact htrans d d' _ hfirst (hf x d')

theorem Moves.tryCatch {a : Action (StateM Disk) ε α} {f : ε → Action (StateM Disk) ε α}
    (htrans : ∀ d d' d'', R d d' → R d' d'' → R d d'') (ha : Moves R a) (hf : ∀ e, Moves R (f e)) :
    Moves R (tryCatch a f) := by
  intro d
  have hfirst := ha d
  rw [after_tryCatch]
  rcases hresult : d.after a with ⟨result, d'⟩
  rw [hresult] at hfirst
  cases result with
  | error e => exact htrans d d' _ hfirst (hf e d')
  | ok x => exact hfirst

/-- Whether there is a directory is only looked at. -/
theorem moves_unlessDirectory (hrefl : ∀ d, R d d) (p : Path) (e : FileError) :
    Moves R (unlessDirectory p e : Action (StateM Disk) FileError Unit) := by
  intro d
  have hstay : (d.after (unlessDirectory p e : Action (StateM Disk) FileError Unit)).2 = d := by
    unfold unlessDirectory
    rw [after_bind]
    change (d.after (if ((d.refusal (.look p)).isNone && d.tree.isDirectory p) = true then _ else _)).2 = d
    split <;> rfl
  rw [hstay]
  exact hrefl d

/-- Directories on the way are made from the first one that exists. -/
theorem moves_makeChain (hrefl : ∀ d, R d d) (htrans : ∀ d d' d'', R d d' → R d' d'' → R d d'') (absolute : Bool)
    (cs : List String) (hmake : ∀ above, above <:+ cs → Moves R
      (Files.makeDirectory (.ofComponents absolute above.reverse) : Action (StateM Disk) FileError Unit)) :
    Moves R (makeChain absolute cs : Action (StateM Disk) FileError Unit) := by
  induction cs with
  | nil => exact hrefl
  | cons c above ih =>
    have hself := hmake _ (List.suffix_refl (c :: above))
    unfold makeChain
    refine hself.tryCatch htrans fun e => ?_
    split
    · refine (ih fun cs hcs => hmake cs (hcs.trans (List.suffix_cons c above))).bind htrans fun _ => ?_
      exact hself.tryCatch htrans (moves_unlessDirectory hrefl _)
    · exact moves_unlessDirectory hrefl _ _

/-- What making a directory comes to is what making the directories on the way to it comes to. -/
theorem moves_makeDirectories (hrefl : ∀ d, R d d) (htrans : ∀ d d' d'', R d d' → R d' d'' → R d d'') (p : Path)
    (hmake : ∀ q, p.OnWay q → Moves R (Files.makeDirectory q : Action (StateM Disk) FileError Unit)) :
    Moves R (makeDirectories p : Action (StateM Disk) FileError Unit) := by
  have hself := hmake p .self
  unfold makeDirectories
  split
  · exact hrefl
  · refine hself.tryCatch htrans fun e => ?_
    split
    · refine (moves_makeChain hrefl htrans _ _ fun above habove => hmake _ (.above ?_)).bind htrans fun _ => ?_
      · rw [← List.reverse_suffix, List.reverse_reverse]
        exact habove.trans (List.tail_suffix _)
      · exact hself.tryCatch htrans (moves_unlessDirectory hrefl p)
    · exact moves_unlessDirectory hrefl p _

end

/-- A step that makes directories at most, whether or not it fails. -/
def Grows (a : Action (StateM Disk) ε α) : Prop := ∀ d : Disk, d.Grown (d.after a).2

theorem Grows.tryCatch {a : Action (StateM Disk) ε α} {f : ε → Action (StateM Disk) ε α} (ha : Grows a)
    (hf : ∀ e, Grows (f e)) : Grows (tryCatch a f) :=
  Moves.tryCatch (fun _ _ _ => .trans) ha hf

theorem after_makeDirectory (p : Path) (d : Disk) :
    d.after (Files.makeDirectory p : Action (StateM Disk) FileError Unit) =
      match d.makeDirectory p with
      | .ok t => (.ok (), { d with tree := t })
      | .error e => (.error e, d) := by
  change change (fun d => d.makeDirectory p) d = _
  unfold change
  dsimp only
  cases d.makeDirectory p <;> rfl

theorem grows_makeDirectory (p : Path) : Grows (Files.makeDirectory p : Action (StateM Disk) FileError Unit) := by
  intro d
  rw [after_makeDirectory]
  cases h : d.makeDirectory p with
  | error e => exact .refl d
  | ok t => exact ⟨rfl, Tree.grown_makeDirectory (allow_eq_ok_iff.1 h).2⟩

theorem grows_unlessDirectory (p : Path) (e : FileError) :
    Grows (unlessDirectory p e : Action (StateM Disk) FileError Unit) :=
  moves_unlessDirectory .refl p e

theorem grows_makeChain (absolute : Bool) (cs : List String) :
    Grows (makeChain absolute cs : Action (StateM Disk) FileError Unit) :=
  moves_makeChain .refl (fun _ _ _ => .trans) absolute cs fun _ _ => grows_makeDirectory _

theorem grows_makeDirectories (p : Path) : Grows (makeDirectories p : Action (StateM Disk) FileError Unit) :=
  moves_makeDirectories .refl (fun _ _ _ => .trans) p fun q _ => grows_makeDirectory q

end

end Disk

end ControlCodegen.Files
