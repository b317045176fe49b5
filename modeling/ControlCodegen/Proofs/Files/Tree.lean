import ControlCodegen.Files.Tree
import ControlCodegen.Proofs.Files.Path

/-!
# `Files.Tree`: what is written to a tree

* `Tree.file?`, `Tree.LeadsTo` : the file at a location, and where a path leads.
* `Tree.Keeps`, `locate_of_keeps` : a tree with more in it; what a path led to it still leads to.
* `Tree.Grown`, `grown_makeDirectory` : a tree after directories were made.
* `Tree.Written`, `written_write`, `Written.trans` : a tree after files were written, one after another.
* `Path.Apart`, `apart_join` : paths that never lead to one file, such as different names below directories.
* `locate_join`, `exists_write_join` : where a name below a directory leads, and that a file can be written there.
-/

namespace ControlCodegen.Files

set_option autoImplicit false

namespace Tree

variable {t t' t'' : Tree} {l here : Location} {e : Entry} {p : Path} {target : Target} {bytes : ByteArray}
  {ss : List String}

/-! ## Entries -/

/-- The contents of the file at a location. -/
def file? (t : Tree) (l : Location) : Option ByteArray :=
  match t.entry? l with
  | some (.file bytes) => some bytes
  | _ => none

theorem lookup_filter_ne (entries : List (Location × Entry)) {l' : Location} (h : l' ≠ l) :
    (entries.filter fun x => x.1 ≠ l).lookup l' = entries.lookup l' := by
  induction entries with
  | nil => rfl
  | cons x entries ih =>
    obtain ⟨k, e⟩ := x
    by_cases hk : k = l
    · have hne : (l' == k) = false := beq_false_of_ne (hk ▸ h)
      rw [List.filter_cons_of_neg (by simpa using hk), ih, List.lookup_cons, hne]
    · rw [List.filter_cons_of_pos (by simpa using hk), List.lookup_cons, List.lookup_cons, ih]

/-- Where nothing is given, an entry is put in place of what was there. -/
theorem entry?_insert (h : t.entry? l ≠ some .directory) (e : Entry) (l' : Location) :
    Tree.entry? (t.insert l e) l' = if l' = l then some e else t.entry? l' := by
  have hgiven : l.isGiven = false := by
    rw [Bool.eq_false_iff]
    exact fun hgiven => h (if_pos hgiven)
  unfold entry? insert
  by_cases hl : l' = l
  · rw [if_pos hl, hl, hgiven, if_neg Bool.false_ne_true]
    exact List.lookup_cons_self
  · rw [if_neg hl, List.lookup_cons, beq_false_of_ne hl]
    simp only [lookup_filter_ne _ hl]

/-! ## Where paths lead -/

/-- The location that a path leads to, whether or not there is something. -/
def Target.location : Target → Location
  | .existing l _ => l
  | .missing l => l

/-- What there is. -/
def Target.entry? : Target → Option Entry
  | .existing _ e => some e
  | .missing _ => none

theorem follow_nil_eq_ok_iff :
    t.follow here [] = .ok target ↔ ∃ e, t.entry? here = some e ∧ target = .existing here e := by
  unfold follow
  cases t.entry? here with
  | none => simp
  | some e => simp [eq_comm]

/-- How the first name of a path leads on from a directory. -/
inductive Enters (t : Tree) (here : Location) (s : String) (ss : List String) (target : Target) : Prop where
  | stay (hs : s = ".") (h : t.follow here ss = .ok target)
  | up (hs : s = "..") (h : t.follow here.above ss = .ok target)
  | down (hs : s ≠ "." ∧ s ≠ ".." ∧ s.utf8ByteSize ≤ maxName) (h : t.follow (here ++ [s]) ss = .ok target)
  | last (hs : s ≠ "." ∧ s ≠ ".." ∧ s.utf8ByteSize ≤ maxName) (hnone : t.entry? (here ++ [s]) = none) (hss : ss = [])
    (htarget : target = .missing (here ++ [s]))

theorem isSome_of_follow (h : t.follow here ss = .ok target) : (t.entry? here).isSome = true := by
  cases ss with
  | nil =>
    obtain ⟨e, he, -⟩ := follow_nil_eq_ok_iff.1 h
    rw [he]
    rfl
  | cons s ss =>
    unfold follow at h
    split at h
    · cases h
    · cases h
    · rename_i hdir
      rw [hdir]
      rfl

/-- A name is followed from a directory only. -/
theorem follow_cons_eq_ok_iff {s : String} :
    t.follow here (s :: ss) = .ok target ↔ t.entry? here = some .directory ∧ Enters t here s ss target := by
  rw [follow]
  split
  · rename_i hnone
    exact ⟨fun h => (by cases h), fun h => (by rw [hnone] at h; cases h.1)⟩
  · rename_i hfile
    exact ⟨fun h => (by cases h), fun h => (by rw [hfile] at h; cases h.1)⟩
  · rename_i hdir
    rw [and_iff_right hdir]
    constructor
    · intro h
      split at h
      · exact .stay ‹_› h
      · split at h
        · exact .up ‹_› h
        · split at h
          · cases h
          · rename_i hhere habove hsize
            have hs : s ≠ "." ∧ s ≠ ".." ∧ s.utf8ByteSize ≤ maxName := ⟨hhere, habove, Nat.not_lt.1 hsize⟩
            dsimp only at h
            split at h
            · exact .down hs h
            · rename_i hnone
              split at h
              · exact .last hs (by simpa using hnone) (List.isEmpty_iff.1 ‹_›) (Except.ok.inj h).symm
              · cases h
    · rintro (⟨hs, h⟩ | ⟨hs, h⟩ | ⟨⟨hhere, habove, hsize⟩, h⟩ | ⟨⟨hhere, habove, hsize⟩, hnone, rfl, rfl⟩)
      · rw [if_pos hs, h]
      · rw [if_neg (by rw [hs]; decide), if_pos hs, h]
      · rw [if_neg hhere, if_neg habove, if_neg (Nat.not_lt.2 hsize)]
        exact (if_pos (isSome_of_follow h)).trans h
      · rw [if_neg hhere, if_neg habove, if_neg (Nat.not_lt.2 hsize)]
        simp only [hnone]
        rfl

/-- A path leads to what is at its location. -/
theorem entry?_of_follow (h : t.follow here ss = .ok target) : t.entry? target.location = target.entry? := by
  induction ss generalizing here with
  | nil =>
    obtain ⟨e, he, rfl⟩ := follow_nil_eq_ok_iff.1 h
    exact he
  | cons s ss ih =>
    obtain ⟨-, ⟨-, h⟩ | ⟨-, h⟩ | ⟨-, h⟩ | ⟨-, hnone, -, rfl⟩⟩ := follow_cons_eq_ok_iff.1 h
    · exact ih h
    · exact ih h
    · exact ih h
    · exact hnone

/-- Every directory of a tree is one of another tree. -/
def Keeps (t t' : Tree) : Prop := ∀ l, t.entry? l = some .directory → t'.entry? l = some .directory

theorem Keeps.trans (h : t.Keeps t') (h' : t'.Keeps t'') : t.Keeps t'' := fun l hl => h' l (h l hl)

/-- Where directories are kept, the same names lead to the same location. -/
theorem follow_of_keeps (hkeeps : t.Keeps t') (h : t.follow here ss = .ok target)
    (he : t'.entry? target.location = some e) : t'.follow here ss = .ok (.existing target.location e) := by
  induction ss generalizing here with
  | nil =>
    obtain ⟨e', -, rfl⟩ := follow_nil_eq_ok_iff.1 h
    exact follow_nil_eq_ok_iff.2 ⟨e, he, rfl⟩
  | cons s ss ih =>
    obtain ⟨hdir, henters⟩ := follow_cons_eq_ok_iff.1 h
    refine follow_cons_eq_ok_iff.2 ⟨hkeeps here hdir, ?_⟩
    obtain ⟨hs, h⟩ | ⟨hs, h⟩ | ⟨hs, h⟩ | ⟨hs, -, rfl, rfl⟩ := henters
    · exact .stay hs (ih h)
    · exact .up hs (ih h)
    · exact .down hs (ih h)
    · exact .down hs (follow_nil_eq_ok_iff.2 ⟨e, he, rfl⟩)

/-- A name at the end leads on from the directory that the names before it lead to. -/
theorem exists_directory_of_follow_append {s : String} (hs : IsFileName s)
    (h : t.follow here (ss ++ [s]) = .ok target) :
    ∃ dir, t.follow here ss = .ok (.existing dir .directory) ∧ target.location = dir ++ [s] := by
  induction ss generalizing here with
  | nil =>
    obtain ⟨hdir, ⟨hhere, -⟩ | ⟨habove, -⟩ | ⟨-, h⟩ | ⟨-, -, -, rfl⟩⟩ := follow_cons_eq_ok_iff.1 h
    · exact absurd hhere hs.notHere
    · exact absurd habove hs.notAbove
    · obtain ⟨e, -, rfl⟩ := follow_nil_eq_ok_iff.1 h
      exact ⟨here, follow_nil_eq_ok_iff.2 ⟨_, hdir, rfl⟩, rfl⟩
    · exact ⟨here, follow_nil_eq_ok_iff.2 ⟨_, hdir, rfl⟩, rfl⟩
  | cons s' ss ih =>
    obtain ⟨hdir, ⟨hs', h⟩ | ⟨hs', h⟩ | ⟨hs', h⟩ | ⟨-, -, hlast, -⟩⟩ := follow_cons_eq_ok_iff.1 h
    · obtain ⟨dir, hfollow, hlocation⟩ := ih h
      exact ⟨dir, follow_cons_eq_ok_iff.2 ⟨hdir, .stay hs' hfollow⟩, hlocation⟩
    · obtain ⟨dir, hfollow, hlocation⟩ := ih h
      exact ⟨dir, follow_cons_eq_ok_iff.2 ⟨hdir, .up hs' hfollow⟩, hlocation⟩
    · obtain ⟨dir, hfollow, hlocation⟩ := ih h
      exact ⟨dir, follow_cons_eq_ok_iff.2 ⟨hdir, .down hs' hfollow⟩, hlocation⟩
    · exact absurd hlast (List.append_ne_nil_of_right_ne_nil ss (List.cons_ne_nil s []))

/-- Whether a path can be followed at all is a matter of the path alone. -/
theorem locate_of_ok (h : t.locate p = .ok target) (t' : Tree) :
    t'.locate p = t'.follow (if p.isAbsolute then .root else .working) p.segments := by
  unfold locate at h ⊢
  split at h
  · cases h
  · rename_i hnul
    split at h
    · cases h
    · rename_i hempty
      split at h
      · cases h
      · rename_i hlong
        rw [if_neg hnul, if_neg hempty, if_neg hlong]

theorem follow_of_locate (h : t.locate p = .ok target) :
    t.follow (if p.isAbsolute then .root else .working) p.segments = .ok target := by
  rw [← locate_of_ok h, h]

theorem entry?_of_locate (h : t.locate p = .ok target) : t.entry? target.location = target.entry? :=
  entry?_of_follow (follow_of_locate h)

/-- A path leads to where it led, if there is something now. -/
theorem locate_of_keeps (hkeeps : t.Keeps t') (h : t.locate p = .ok target)
    (he : t'.entry? target.location = some e) : t'.locate p = .ok (.existing target.location e) := by
  rw [locate_of_ok h]
  exact follow_of_keeps hkeeps (follow_of_locate h) he

/-- A path leads to something at a location. -/
def LeadsTo (t : Tree) (p : Path) (l : Location) : Prop := ∃ e, t.locate p = .ok (.existing l e)

/-- The directory that a path leads to. The empty path leads to the working directory. -/
def ReachesDirectory (t : Tree) (p : Path) (l : Location) : Prop :=
  t.follow (if p.isAbsolute then .root else .working) p.segments = .ok (.existing l .directory)

/-- A name below a path leads into the directory of the path. -/
theorem location_join {dir : Path} {s : String} (hs : IsFileName s) (h : t.LeadsTo (dir.join s) l) :
    ∃ above, t.ReachesDirectory dir above ∧ l = above ++ [s] := by
  obtain ⟨e, h⟩ := h
  have hfollow := follow_of_locate h
  rw [Path.segments_join hs, Path.isAbsolute_join hs] at hfollow
  exact exists_directory_of_follow_append hs hfollow

theorem read_eq_ok_iff : t.read p = .ok bytes ↔
    p.endsInSlash = false ∧ ∃ l, t.locate p = .ok (.existing l (.file bytes)) := by
  unfold read look
  cases t.locate p with
  | error c => simp
  | ok target =>
    cases target with
    | missing l => simp
    | existing l e =>
      cases e with
      | directory => simp
      | file b => cases p.endsInSlash <;> simp

/-! ## Changes -/

/-- A tree with more directories, which were made where nothing was. -/
def Grown (t t' : Tree) : Prop :=
  ∀ l, t'.entry? l = t.entry? l ∨ t.entry? l = none ∧ t'.entry? l = some .directory

theorem Grown.refl (t : Tree) : t.Grown t := fun _ => .inl rfl

theorem Grown.trans (h : t.Grown t') (h' : t'.Grown t'') : t.Grown t'' := by
  intro l
  rcases h' l with heq' | ⟨hnone', hmade'⟩
  · rw [heq']
    exact h l
  · rcases h l with heq | ⟨-, hmade⟩
    · exact .inr ⟨heq ▸ hnone', hmade'⟩
    · rw [hmade] at hnone'
      cases hnone'

/-- No file has changed. -/
theorem Grown.file? (h : t.Grown t') (l : Location) : t'.file? l = t.file? l := by
  unfold Tree.file?
  rcases h l with heq | ⟨hnone, hmade⟩
  · rw [heq]
  · rw [hnone, hmade]

theorem Grown.keeps (h : t.Grown t') : t.Keeps t' := by
  intro l hl
  rcases h l with heq | ⟨-, hmade⟩
  · rw [heq, hl]
  · exact hmade

/-- A tree after files were written: they have their contents, and elsewhere it is as it was. -/
structure Written (t : Tree) (fs : List (Path × ByteArray)) (t' : Tree) : Prop where
  holds : ∀ f ∈ fs, t'.read f.1 = .ok f.2
  others : ∀ l, (∀ f ∈ fs, ¬t'.LeadsTo f.1 l) → t'.entry? l = t.entry? l
  keeps : t.Keeps t'

theorem Written.refl (t : Tree) : t.Written [] t := ⟨fun _ h => absurd h List.not_mem_nil, fun _ _ => rfl, fun _ h => h⟩

theorem keeps_insert (h : t.entry? l ≠ some .directory) (e : Entry) : t.Keeps (t.insert l e) := by
  intro l' hl'
  have hne : l' ≠ l := fun hl => h (hl ▸ hl')
  rw [entry?_insert h, if_neg hne, hl']

theorem write_ok (h : t.write p bytes = .ok t') : p.endsInSlash = false ∧ ∃ target, t.locate p = .ok target ∧
    t.entry? target.location ≠ some .directory ∧ t' = t.insert target.location (.file bytes) := by
  have hslash {l : Location} (h : (if p.endsInSlash then Except.error FileError.isDirectory
      else .ok (t.insert l (.file bytes))) = .ok t') : p.endsInSlash = false ∧ t' = t.insert l (.file bytes) := by
    split at h
    · cases h
    · rename_i hslash
      exact ⟨by simpa using hslash, (Except.ok.inj h).symm⟩
  unfold write at h
  cases hlocate : t.locate p with
  | error c =>
    rw [hlocate] at h
    cases h
  | ok target =>
    rw [hlocate] at h
    have hentry := entry?_of_locate hlocate
    cases target with
    | missing l =>
      obtain ⟨hslash, ht'⟩ := hslash h
      exact ⟨hslash, _, rfl, by rw [hentry]; simp [Target.entry?], ht'⟩
    | existing l e =>
      cases e with
      | directory => cases h
      | file b =>
        obtain ⟨hslash, ht'⟩ := hslash h
        exact ⟨hslash, _, rfl, by rw [hentry]; simp [Target.entry?], ht'⟩

/-- A file that is written has its contents, and no other file has changed. -/
theorem written_write (h : t.write p bytes = .ok t') : t.Written [(p, bytes)] t' := by
  obtain ⟨hslash, target, hlocate, hnew, rfl⟩ := write_ok h
  have hkeeps := keeps_insert hnew (.file bytes)
  have hentry : Tree.entry? (t.insert target.location (.file bytes)) target.location = some (.file bytes) := by
    rw [entry?_insert hnew, if_pos rfl]
  have hlocate' := locate_of_keeps hkeeps hlocate hentry
  refine ⟨fun f hf => ?_, fun l hl => ?_, hkeeps⟩
  · obtain rfl := List.mem_singleton.1 hf
    exact read_eq_ok_iff.2 ⟨hslash, _, hlocate'⟩
  · have hne : l ≠ target.location := by
      rintro rfl
      exact hl _ (List.mem_singleton_self _) ⟨_, hlocate'⟩
    rw [entry?_insert hnew, if_neg hne]

/-- A directory is made where nothing was. -/
theorem grown_makeDirectory (h : t.makeDirectory p = .ok t') : t.Grown t' := by
  unfold makeDirectory at h
  split at h
  · cases h
  · cases h
  · rename_i l hlocate
    obtain rfl := Except.ok.inj h
    have hnone : t.entry? l = none := entry?_of_locate hlocate
    have hnew : t.entry? l ≠ some .directory := by rw [hnone]; simp
    intro l'
    rw [entry?_insert hnew]
    by_cases hl : l' = l
    · rw [if_pos hl, hl]
      exact .inr ⟨hnone, rfl⟩
    · rw [if_neg hl]
      exact .inl rfl

end Tree

/-- Two paths that never lead to one location. -/
def Path.Apart (p q : Path) : Prop := ∀ (t : Tree) (l : Location), t.LeadsTo p l → ¬t.LeadsTo q l

/-- Different names below directories are different files. -/
theorem Path.apart_join {p q : Path} {s s' : String} (hs : IsFileName s) (hs' : IsFileName s') (hne : s ≠ s') :
    (p.join s).Apart (q.join s') := by
  intro t l h h'
  obtain ⟨above, -, hl⟩ := Tree.location_join hs h
  obtain ⟨above', -, hl'⟩ := Tree.location_join hs' h'
  rw [hl] at hl'
  exact hne (List.singleton_inj.1 (List.append_inj_right' hl' rfl))

namespace Tree

variable {t t' t'' : Tree} {fs gs : List (Path × ByteArray)} {l : Location} {p : Path} {bytes : ByteArray}

/-- Files that are written after others, to paths that are apart from theirs. -/
theorem Written.trans (h : t.Written fs t') (h' : t'.Written gs t'')
    (hapart : ∀ f ∈ fs, ∀ g ∈ gs, f.1.Apart g.1) : t.Written (fs ++ gs) t'' := by
  have hstay {f : Path × ByteArray} (hf : f ∈ fs) {l : Location}
      (hlocate : t'.locate f.1 = .ok (.existing l (.file f.2))) :
      t''.locate f.1 = .ok (.existing l (.file f.2)) := by
    refine locate_of_keeps h'.keeps hlocate ((h'.others l fun g hg hleads => ?_).trans (entry?_of_locate hlocate))
    -- Were a later path to lead there, the earlier one would do so, too.
    obtain ⟨e, hg'⟩ := hleads
    have he : t''.entry? l = some e := entry?_of_locate hg'
    have hf' := locate_of_keeps h'.keeps hlocate he
    exact hapart f hf g hg t'' l ⟨_, hf'⟩ ⟨_, hg'⟩
  refine ⟨fun f hf => ?_, fun l hl => ?_, h.keeps.trans h'.keeps⟩
  · rcases List.mem_append.1 hf with hf | hf
    · obtain ⟨hslash, l, hlocate⟩ := read_eq_ok_iff.1 (h.holds f hf)
      exact read_eq_ok_iff.2 ⟨hslash, l, hstay hf hlocate⟩
    · exact h'.holds f hf
  · rw [List.forall_mem_append] at hl
    rw [h'.others l hl.2]
    refine h.others l fun f hf hleads => hl.1 f hf ?_
    obtain ⟨e, hlead⟩ := hleads
    obtain ⟨-, l', hlocate⟩ := read_eq_ok_iff.1 (h.holds f hf)
    obtain ⟨rfl, -⟩ := Target.existing.inj (Except.ok.inj (hlead.symm.trans hlocate))
    exact ⟨_, hstay hf hlocate⟩

/-- A path that was written leads to its file. -/
theorem Written.entry?_of_leadsTo (h : t.Written fs t') {f : Path × ByteArray} (hf : f ∈ fs)
    (hleads : t'.LeadsTo f.1 l) : t'.entry? l = some (.file f.2) := by
  obtain ⟨e, hlead⟩ := hleads
  obtain ⟨-, l', hlocate⟩ := read_eq_ok_iff.1 (h.holds f hf)
  obtain ⟨rfl, -⟩ := Target.existing.inj (Except.ok.inj (hlead.symm.trans hlocate))
  exact entry?_of_locate hlocate

/-- No directory is made. -/
theorem Written.entry?_of_directory (h : t.Written fs t') (hl : t'.entry? l = some .directory) :
    t.entry? l = some .directory := by
  rw [← h.others l fun f hf hleads => ?_, hl]
  have hfile := h.entry?_of_leadsTo hf hleads
  rw [hl] at hfile
  cases hfile

/-- A tree after directories were made and then files were written. -/
def Filled (t : Tree) (fs : List (Path × ByteArray)) (t' : Tree) : Prop := ∃ t₀ : Tree, t.Grown t₀ ∧ t₀.Written fs t'

theorem Filled.keeps (h : t.Filled fs t') : t.Keeps t' := by
  obtain ⟨t₀, hgrown, hwritten⟩ := h
  exact hgrown.keeps.trans hwritten.keeps

/-- No other file has changed. -/
theorem Filled.file? (h : t.Filled fs t') (hl : ∀ f ∈ fs, ¬t'.LeadsTo f.1 l) : t'.file? l = t.file? l := by
  obtain ⟨t₀, hgrown, hwritten⟩ := h
  have hentry := hwritten.others l hl
  rw [← hgrown.file? l]
  unfold Tree.file?
  rw [hentry]

/-- Wherever a path leads, before or after, the file there has not changed. -/
def Untouched (t t' : Tree) (p : Path) : Prop := ∀ l, t.LeadsTo p l ∨ t'.LeadsTo p l → t'.file? l = t.file? l

theorem Filled.untouched (h : t.Filled fs t') (hapart : ∀ f ∈ fs, f.1.Apart p) : t.Untouched t' p := by
  intro l hleads
  refine h.file? fun f hf hlead => ?_
  rcases hleads with hleads | hleads
  · -- The path led there before, and there is a file now, so it still does.
    obtain ⟨e, hlocate⟩ := hleads
    obtain ⟨e', hlocate'⟩ := hlead
    have he : t'.entry? l = some e' := entry?_of_locate hlocate'
    exact hapart f hf t' l ⟨e', hlocate'⟩ ⟨e', locate_of_keeps h.keeps hlocate he⟩
  · exact hapart f hf t' l hlead hleads

/-! ## Files in a directory -/

section

variable {here : Location} {ss : List String} {target : Target} {s : String}

/-- A path that leads to a directory leads on from there. -/
theorem follow_append (h : t.follow here ss = .ok (.existing l .directory)) (rest : List String) :
    t.follow here (ss ++ rest) = t.follow l rest := by
  induction ss generalizing here with
  | nil =>
    obtain ⟨e, -, htarget⟩ := follow_nil_eq_ok_iff.1 h
    obtain ⟨rfl, -⟩ := Target.existing.inj htarget
    rfl
  | cons s ss ih =>
    obtain ⟨hdir, hs⟩ := follow_cons_eq_ok_iff.1 h
    rw [List.cons_append, follow, hdir]
    dsimp only
    cases hs with
    | stay hs h => rw [if_pos hs, ih h]
    | up hs h => rw [if_neg (by rw [hs]; decide), if_pos hs, ih h]
    | down hs h =>
      rw [if_neg hs.1, if_neg hs.2.1, if_neg (Nat.not_lt.2 hs.2.2), if_pos (isSome_of_follow h), ih h]
    | last _ _ _ htarget => cases htarget

/-- A name leads on from a directory. -/
theorem follow_name (hs : IsFileName s) (hsize : s.utf8ByteSize ≤ maxName) (hdir : t.entry? here = some .directory) :
    ∃ target, t.follow here [s] = .ok target ∧ target.location = here ++ [s] := by
  have hstep : s ≠ "." ∧ s ≠ ".." ∧ s.utf8ByteSize ≤ maxName := ⟨hs.notHere, hs.notAbove, hsize⟩
  cases he : t.entry? (here ++ [s]) with
  | none => exact ⟨.missing (here ++ [s]), follow_cons_eq_ok_iff.2 ⟨hdir, .last hstep he rfl rfl⟩, rfl⟩
  | some e =>
    have hlast : t.follow (here ++ [s]) [] = .ok (.existing (here ++ [s]) e) := follow_nil_eq_ok_iff.2 ⟨e, he, rfl⟩
    exact ⟨.existing (here ++ [s]) e, follow_cons_eq_ok_iff.2 ⟨hdir, .down hstep hlast⟩, rfl⟩

/-- A path that can be followed. -/
theorem locate_eq_follow (hnul : '\x00' ∉ p.text.toList) (hempty : p.text.toList ≠ [])
    (hsize : p.text.utf8ByteSize ≤ maxPath) :
    t.locate p = t.follow (if p.isAbsolute then .root else .working) p.segments := by
  have hany : p.text.toList.any (fun c => decide (c = '\x00')) = false := by
    rw [List.any_eq_false]
    intro c hc
    rw [decide_eq_true_iff]
    rintro rfl
    exact hnul hc
  have hisEmpty : p.text.isEmpty = false := by
    rw [Bool.eq_false_iff, Ne, String.isEmpty_iff, ← String.toList_eq_nil_iff]
    exact hempty
  unfold locate
  rw [hany, hisEmpty, if_neg Bool.false_ne_true, if_neg Bool.false_ne_true, if_neg (Nat.not_lt.2 hsize)]

/-- A name leads to a location in the working directory. -/
theorem locate_of_isFileName (hs : IsFileName s) (hnul : '\x00' ∉ s.toList)
    (hsize : s.utf8ByteSize ≤ maxName) (t : Tree) : ∃ target, t.locate ⟨s⟩ = .ok target ∧ target.location = [s] := by
  have hsegments : (Path.mk s).segments = [s] := by
    rw [← Path.empty_join hs, Path.segments_join hs]
    rfl
  rw [locate_eq_follow hnul hs.nonempty (Nat.le_trans hsize (by decide)), Path.not_isAbsolute_of_isFileName hs,
    if_neg Bool.false_ne_true, hsegments]
  exact follow_name hs hsize rfl

/-- A name below a directory leads to a location in it. -/
theorem locate_join {dir : Path} (hs : IsFileName s) (hnul : '\x00' ∉ s.toList) (hsize : s.utf8ByteSize ≤ maxName)
    (hpath : (dir.join s).text.utf8ByteSize ≤ maxPath) (h : t.locate dir = .ok (.existing l .directory)) :
    ∃ target, t.locate (dir.join s) = .ok target ∧ target.location = l ++ [s] := by
  have hfollow := follow_of_locate h
  have hdirnul : '\x00' ∉ dir.text.toList := by
    unfold locate at h
    split at h
    · cases h
    · rename_i hany
      exact fun hmem => hany (List.any_eq_true.2 ⟨_, hmem, decide_eq_true rfl⟩)
  have hjoinnul : '\x00' ∉ (dir.join s).text.toList := by
    rw [Path.text_join hs]
    split
    · rw [String.toList_append, List.mem_append, not_or]
      exact ⟨hdirnul, hnul⟩
    · rw [String.toList_append, String.toList_append, List.mem_append, List.mem_append, not_or, not_or]
      exact ⟨⟨hdirnul, by decide⟩, hnul⟩
  have hnonempty : (dir.join s).text.toList ≠ [] := by
    rw [Path.text_join hs]
    split
    · rw [String.toList_append]
      exact List.append_ne_nil_of_right_ne_nil _ hs.nonempty
    · rw [String.toList_append]
      exact List.append_ne_nil_of_right_ne_nil _ hs.nonempty
  rw [locate_eq_follow hjoinnul hnonempty hpath, Path.isAbsolute_join hs, Path.segments_join hs, follow_append hfollow]
  exact follow_name hs hsize (entry?_of_locate h)

/-- A file can be written where a path leads, unless there is a directory. -/
theorem exists_write_of_locate (hlocate : t.locate p = .ok target) (hslash : p.endsInSlash = false)
    (hdir : t.entry? target.location ≠ some .directory) (bytes : ByteArray) : ∃ t', t.write p bytes = .ok t' := by
  have hentry := entry?_of_locate hlocate
  unfold write
  rw [hlocate]
  cases target with
  | missing l => exact ⟨_, by rw [hslash]; rfl⟩
  | existing l e =>
    cases e with
    | directory => exact absurd hentry hdir
    | file b => exact ⟨_, by rw [hslash]; rfl⟩

/-- A file with a name of the working directory can be written, unless there is a directory of that name. -/
theorem exists_write (hs : IsFileName s) (hnul : '\x00' ∉ s.toList) (hsize : s.utf8ByteSize ≤ maxName)
    (hdir : t.entry? [s] ≠ some .directory) (bytes : ByteArray) : ∃ t', t.write ⟨s⟩ bytes = .ok t' := by
  obtain ⟨target, hlocate, hlocation⟩ := locate_of_isFileName hs hnul hsize t
  have hslash : (Path.mk s).endsInSlash = false := by
    rw [← Path.empty_join hs]
    exact Path.endsInSlash_join hs
  exact exists_write_of_locate hlocate hslash (hlocation ▸ hdir) bytes

/-- So can one with a name below a directory. -/
theorem exists_write_join {dir : Path} (hs : IsFileName s) (hnul : '\x00' ∉ s.toList) (hsize : s.utf8ByteSize ≤ maxName)
    (hpath : (dir.join s).text.utf8ByteSize ≤ maxPath) (hlocate : t.locate dir = .ok (.existing l .directory))
    (hdir : t.entry? (l ++ [s]) ≠ some .directory) (bytes : ByteArray) : ∃ t', t.write (dir.join s) bytes = .ok t' := by
  obtain ⟨target, htarget, hlocation⟩ := locate_join hs hnul hsize hpath hlocate
  exact exists_write_of_locate htarget (Path.endsInSlash_join hs) (hlocation ▸ hdir) bytes

end

end Tree

end ControlCodegen.Files
