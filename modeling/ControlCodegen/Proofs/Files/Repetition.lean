import ControlCodegen.Proofs.Files.Disk

/-!
# `Files.Repetition`: steps on files that are taken again

* `Disk.Shows` : a disk on which what may be made may be looked at.
* `Disk.Lasting`, `lasting_makeDirectories` : directories that were made are made again without a change.
* `Tree.Written.entry?_of_holds` : files that are written again with the same contents change nothing.
* `Tree.size_of_locate_join` : a name below a directory that leads somewhere is not too long.
-/

namespace ControlCodegen.Files

set_option autoImplicit false

namespace Tree

variable {t t' : Tree} {l here : Location} {p : Path} {fs : List (Path × ByteArray)} {ss : List String} {s : String}
  {target : Target}

/-! ## Directories -/

theorem isDirectory_iff : t.isDirectory p = true ↔ ∃ l, t.locate p = .ok (.existing l .directory) := by
  unfold isDirectory look
  cases t.locate p with
  | error e => simp
  | ok target =>
    cases target with
    | missing l => simp
    | existing l e =>
      cases e with
      | directory => simp
      | file bytes => cases p.endsInSlash <;> simp

/-- A directory stays one. -/
theorem isDirectory_of_keeps (hkeeps : t.Keeps t') (h : t.isDirectory p = true) : t'.isDirectory p = true := by
  obtain ⟨l, hl⟩ := isDirectory_iff.1 h
  exact isDirectory_iff.2 ⟨l, locate_of_keeps hkeeps hl (hkeeps l (entry?_of_locate hl))⟩

/-- What was made is a directory. -/
theorem isDirectory_of_makeDirectory (h : t.makeDirectory p = .ok t') : t'.isDirectory p = true := by
  have hkeeps := (grown_makeDirectory h).keeps
  unfold makeDirectory at h
  split at h
  · cases h
  · cases h
  · rename_i l hlocate
    obtain rfl := Except.ok.inj h
    have hnone : t.entry? l = none := entry?_of_locate hlocate
    have hmade : Tree.entry? (t.insert l .directory) l = some .directory := by
      rw [entry?_insert (by rw [hnone]; simp), if_pos rfl]
    exact isDirectory_iff.2 ⟨l, locate_of_keeps hkeeps hlocate hmade⟩

/-- A directory is not made where there is one. -/
theorem makeDirectory_of_isDirectory (h : t.isDirectory p = true) : t.makeDirectory p = .error .alreadyExists := by
  obtain ⟨l, hl⟩ := isDirectory_iff.1 h
  unfold makeDirectory
  rw [hl]

/-! ## Files -/

/-- Files that are written again with the contents they have change nothing. -/
theorem Written.entry?_of_holds (h : t.Written fs t') (hholds : ∀ f ∈ fs, t.read f.1 = .ok f.2) (l : Location) :
    t'.entry? l = t.entry? l := by
  by_cases hleads : ∃ f ∈ fs, t'.LeadsTo f.1 l
  · obtain ⟨f, hf, e, hlead⟩ := hleads
    obtain ⟨-, l₀, hlocate⟩ := read_eq_ok_iff.1 (hholds f hf)
    obtain ⟨-, l₁, hlocate'⟩ := read_eq_ok_iff.1 (h.holds f hf)
    -- there is still something where the path led before, so it still leads there
    have hsome : ∃ e, t'.entry? l₀ = some e := by
      by_cases hl₀ : ∃ g ∈ fs, t'.LeadsTo g.1 l₀
      · obtain ⟨g, -, e, hg⟩ := hl₀
        exact ⟨e, entry?_of_locate hg⟩
      · refine ⟨_, (h.others l₀ fun g hg hlead => hl₀ ⟨g, hg, hlead⟩).trans (entry?_of_locate hlocate)⟩
    obtain ⟨e₀, he₀⟩ := hsome
    obtain ⟨rfl, -⟩ := Target.existing.inj (Except.ok.inj (hlead.symm.trans hlocate'))
    obtain ⟨rfl, -⟩ := Target.existing.inj
      (Except.ok.inj (hlocate'.symm.trans (locate_of_keeps h.keeps hlocate he₀)))
    rw [show t'.entry? l = _ from entry?_of_locate hlocate', show t.entry? l = _ from entry?_of_locate hlocate]
  · exact h.others l fun f hf hlead => hleads ⟨f, hf, hlead⟩

/-- A file that can be read can be written. -/
theorem exists_write_of_read {bytes : ByteArray} (h : t.read p = .ok bytes) (hentry : ∀ l, t'.entry? l = t.entry? l)
    (bytes' : ByteArray) : ∃ t'', t'.write p bytes' = .ok t'' := by
  obtain ⟨hslash, l, hlocate⟩ := read_eq_ok_iff.1 h
  have hfile : t'.entry? l = some (.file bytes) := (hentry l).trans (entry?_of_locate hlocate)
  have hkeeps : t.Keeps t' := fun l hl => (hentry l).trans hl
  refine exists_write_of_locate (locate_of_keeps hkeeps hlocate hfile) hslash ?_ bytes'
  show t'.entry? l ≠ some .directory
  rw [hfile]
  simp

theorem size_of_follow_append (hs : IsFileName s) (h : t.follow here (ss ++ [s]) = .ok target) :
    s.utf8ByteSize ≤ maxName := by
  induction ss generalizing here with
  | nil =>
    obtain ⟨-, ⟨hhere, -⟩ | ⟨habove, -⟩ | ⟨hname, -⟩ | ⟨hname, -⟩⟩ := follow_cons_eq_ok_iff.1 h
    · exact absurd hhere hs.notHere
    · exact absurd habove hs.notAbove
    · exact hname.2.2
    · exact hname.2.2
  | cons s' ss ih =>
    obtain ⟨-, ⟨-, h⟩ | ⟨-, h⟩ | ⟨-, h⟩ | ⟨-, -, hlast, -⟩⟩ := follow_cons_eq_ok_iff.1 h
    · exact ih h
    · exact ih h
    · exact ih h
    · exact absurd hlast (List.append_ne_nil_of_right_ne_nil ss (List.cons_ne_nil s []))

/-- A name below a directory that leads somewhere is not too long. -/
theorem size_of_locate_join {dir : Path} (hs : IsFileName s) (h : t.locate (dir.join s) = .ok target) :
    s.utf8ByteSize ≤ maxName := by
  have hfollow := follow_of_locate h
  rw [Path.segments_join hs] at hfollow
  exact size_of_follow_append hs hfollow

end Tree

namespace Disk

/-! ## Directories that are made again -/

/-- A directory that may be made may be looked at. -/
def Shows (d : Disk) : Prop := ∀ p, d.refusal (.makeDirectory p) = none → d.refusal (.look p) = none

/-- The path is seen to be that of a directory. -/
def HasDirectory (d : Disk) (p : Path) : Prop := d.refusal (.look p) = none ∧ d.tree.isDirectory p = true

/-- A step that has succeeded will succeed again and change nothing, as long as directories are kept. -/
def Lasting (a : Action (StateM Disk) FileError Unit) : Prop :=
  ∀ d d₁ d₂ : Disk, d.Shows → d.after a = (.ok (), d₁) → d₂.refusal = d.refusal → d₁.tree.Keeps d₂.tree →
    d₂.after a = (.ok (), d₂)

variable {d d' d₁ d₂ : Disk} {p : Path} {e : FileError} {above : Action (StateM Disk) FileError Unit}

theorem HasDirectory.keep (h : d.HasDirectory p) (hrefusal : d'.refusal = d.refusal) (hkeeps : d.tree.Keeps d'.tree) :
    d'.HasDirectory p :=
  ⟨hrefusal ▸ h.1, Tree.isDirectory_of_keeps hkeeps h.2⟩

theorem after_unlessDirectory_of_hasDirectory (h : d.HasDirectory p) (e : FileError) :
    d.after (unlessDirectory p e : Action (StateM Disk) FileError Unit) = (.ok (), d) := by
  have hlook : d.after (liftM (FileSystem.isDirectory p : StateM Disk Bool) : Action (StateM Disk) FileError Bool) =
      (.ok ((d.refusal (.look p)).isNone && d.tree.isDirectory p), d) := rfl
  unfold unlessDirectory
  rw [after_bind, hlook, h.1, h.2]
  rfl

theorem hasDirectory_of_unlessDirectory
    (h : d.after (unlessDirectory p e : Action (StateM Disk) FileError Unit) = (.ok (), d₁)) :
    d.HasDirectory p ∧ d₁ = d := by
  have hlook : d.after (liftM (FileSystem.isDirectory p : StateM Disk Bool) : Action (StateM Disk) FileError Bool) =
      (.ok ((d.refusal (.look p)).isNone && d.tree.isDirectory p), d) := rfl
  unfold unlessDirectory at h
  rw [after_bind, hlook] at h
  dsimp only at h
  cases hdir : (d.refusal (.look p)).isNone && d.tree.isDirectory p with
  | false =>
    rw [hdir] at h
    cases (Prod.mk.inj h).1
  | true =>
    rw [hdir] at h
    rw [Bool.and_eq_true, Option.isNone_iff_eq_none] at hdir
    exact ⟨hdir, (Prod.mk.inj h).2.symm⟩

/-- Makes a directory, after a step for those above it if they are missing. -/
def makeAfter (p : Path) (above : Action (StateM Disk) FileError Unit) : Action (StateM Disk) FileError Unit :=
  tryCatch (Files.makeDirectory p) fun
    | .notFound => do
      above
      tryCatch (Files.makeDirectory p) (unlessDirectory p)
    | e => unlessDirectory p e

/-- What was made by a step that may be refused is a directory afterwards. -/
theorem hasDirectory_of_makeDirectory (hshows : d.Shows) {t : Tree} (h : d.makeDirectory p = .ok t) :
    HasDirectory { d with tree := t } p := by
  obtain ⟨hrefusal, htree⟩ := allow_eq_ok_iff.1 h
  exact ⟨hshows p hrefusal, Tree.isDirectory_of_makeDirectory htree⟩

/-- Where there is a directory, making it fails as it did before, or because it exists. -/
theorem makeDirectory_of_hasDirectory (h : d.HasDirectory p) :
    d.refusal (.makeDirectory p) = none ∧ d.makeDirectory p = .error .alreadyExists ∨
      ∃ e, d.refusal (.makeDirectory p) = some e ∧ d.makeDirectory p = .error e := by
  unfold Disk.makeDirectory allow
  cases d.refusal (.makeDirectory p) with
  | none => exact .inl ⟨rfl, Tree.makeDirectory_of_isDirectory h.2⟩
  | some e => exact .inr ⟨e, rfl, rfl⟩

/-- A directory is there once it was made, or found. -/
theorem hasDirectory_of_retry (hshows : d.Shows)
    (h : d.after (tryCatch (Files.makeDirectory p) (unlessDirectory p) : Action (StateM Disk) FileError Unit) =
      (.ok (), d₁)) : d₁.HasDirectory p ∧ d.Grown d₁ := by
  have hgrown := ((grows_makeDirectory p).tryCatch (grows_unlessDirectory p)) d
  rw [h] at hgrown
  refine ⟨?_, hgrown⟩
  rw [after_tryCatch, after_makeDirectory] at h
  cases hmake : d.makeDirectory p with
  | ok t =>
    rw [hmake] at h
    obtain rfl := (Prod.mk.inj h).2
    exact hasDirectory_of_makeDirectory hshows hmake
  | error e =>
    rw [hmake] at h
    obtain ⟨hdir, rfl⟩ := hasDirectory_of_unlessDirectory h
    exact hdir

theorem after_retry_of_hasDirectory (h : d.HasDirectory p) :
    d.after (tryCatch (Files.makeDirectory p) (unlessDirectory p) : Action (StateM Disk) FileError Unit) = (.ok (), d) := by
  rw [after_tryCatch, after_makeDirectory]
  rcases makeDirectory_of_hasDirectory h with ⟨-, hmake⟩ | ⟨e, -, hmake⟩
  · rw [hmake]
    exact after_unlessDirectory_of_hasDirectory h _
  · rw [hmake]
    exact after_unlessDirectory_of_hasDirectory h e

theorem after_makeAfter (p : Path) (above : Action (StateM Disk) FileError Unit) :
    d.after (makeAfter p above) =
      match d.makeDirectory p with
      | .ok t => (.ok (), { d with tree := t })
      | .error .notFound => d.after (do above; tryCatch (Files.makeDirectory p) (unlessDirectory p))
      | .error e => d.after (unlessDirectory p e) := by
  unfold makeAfter
  rw [after_tryCatch, after_makeDirectory]
  rcases d.makeDirectory p with (_ | _ | _ | _ | _ | _ | _ | _) | t <;> rfl

theorem lasting_pure : Lasting (pure ()) := by
  intro d d₁ d₂ _ _ _ _
  rfl

/-- If what is made above can be made again, so can the directory. -/
theorem lasting_makeAfter (habove : Lasting above) (hgrows : Grows above) (p : Path) : Lasting (makeAfter p above) := by
  intro d d₁ d₂ hshows h hrefusal hkeeps
  -- On the way back there is the directory. Only where making it is refused as if those above were missing, they are
  -- made again, as they were then.
  suffices hfound : d₁.HasDirectory p ∧ d₁.refusal = d.refusal ∧
      (d.refusal (.makeDirectory p) = some .notFound → d₂.after above = (.ok (), d₂)) by
    obtain ⟨hdir, hrefusal₁, hagain⟩ := hfound
    have hdir₂ := hdir.keep (hrefusal.trans hrefusal₁.symm) hkeeps
    rw [after_makeAfter]
    rcases makeDirectory_of_hasDirectory hdir₂ with ⟨-, hmake⟩ | ⟨e, hrefused, hmake⟩
    · rw [hmake]
      exact after_unlessDirectory_of_hasDirectory hdir₂ _
    · rw [hmake]
      by_cases he : e = .notFound
      · subst he
        dsimp only
        rw [after_bind, hagain (hrefusal ▸ hrefused)]
        exact after_retry_of_hasDirectory hdir₂
      · have hother : d₂.after (unlessDirectory p e) = (.ok (), d₂) := after_unlessDirectory_of_hasDirectory hdir₂ e
        cases e with
        | notFound => exact absurd rfl he
        | _ => exact hother
  rw [after_makeAfter] at h
  cases hmake : d.makeDirectory p with
  | ok t =>
    rw [hmake] at h
    obtain rfl := (Prod.mk.inj h).2
    refine ⟨hasDirectory_of_makeDirectory hshows hmake, rfl, fun hrefused => ?_⟩
    rw [(allow_eq_ok_iff.1 hmake).1] at hrefused
    cases hrefused
  | error e =>
    rw [hmake] at h
    by_cases he : e = .notFound
    · subst he
      dsimp only at h
      rw [after_bind] at h
      rcases hfirst : d.after above with ⟨e | u, d'⟩
      · rw [hfirst] at h
        cases (Prod.mk.inj h).1
      · rw [hfirst] at h
        have hgrown : d.Grown d' := by
          have hgrown := hgrows d
          rwa [hfirst] at hgrown
        have hshows' : d'.Shows := fun q hq => hgrown.refusal ▸ hshows q (hgrown.refusal ▸ hq)
        obtain ⟨hdir, hgrown₁⟩ := hasDirectory_of_retry hshows' h
        refine ⟨hdir, hgrown₁.refusal.trans hgrown.refusal, fun _ => ?_⟩
        exact habove d d' d₂ hshows hfirst hrefusal (hgrown₁.tree.keeps.trans hkeeps)
    · have hother : d.after (unlessDirectory p e) = (.ok (), d₁) := by
        cases e with
        | notFound => exact absurd rfl he
        | _ => exact h
      obtain ⟨hdir, rfl⟩ := hasDirectory_of_unlessDirectory hother
      refine ⟨hdir, rfl, fun hrefused => ?_⟩
      unfold Disk.makeDirectory allow at hmake
      rw [hrefused] at hmake
      exact absurd (Except.error.inj hmake).symm he

theorem lasting_makeChain (absolute : Bool) (cs : List String) : Lasting (makeChain absolute cs) := by
  induction cs with
  | nil => exact lasting_pure
  | cons c above ih => exact lasting_makeAfter ih (grows_makeChain absolute above) _

/-- Directories that were made are made again without a change. -/
theorem lasting_makeDirectories (p : Path) : Lasting (makeDirectories p) := by
  unfold makeDirectories
  by_cases hempty : p.text.isEmpty = true
  · rw [if_pos hempty]
    exact lasting_pure
  · rw [if_neg hempty]
    exact lasting_makeAfter (lasting_makeChain _ _) (grows_makeChain _ _) p

/-- Where there is the directory, nothing is made. -/
theorem after_makeDirectories_of_hasDirectory (h : d.HasDirectory p) (hrefusal : d.refusal (.makeDirectory p) = none) :
    d.after (makeDirectories p : Action (StateM Disk) FileError Unit) = (.ok (), d) := by
  unfold makeDirectories
  by_cases hempty : p.text.isEmpty = true
  · rw [if_pos hempty]
    rfl
  · rw [if_neg hempty]
    change d.after (makeAfter p (makeChain p.isAbsolute p.components.reverse.tail)) = _
    rw [after_makeAfter]
    rcases makeDirectory_of_hasDirectory h with ⟨-, hmake⟩ | ⟨e, hrefused, -⟩
    · rw [hmake]
      exact after_unlessDirectory_of_hasDirectory h _
    · cases hrefusal.symm.trans hrefused

end Disk

end ControlCodegen.Files
