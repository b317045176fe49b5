import ControlCodegen.Proofs.Files.Disk

/-!
# `Files.Footprint`: where the directories are that are made

* `Disk.GrownTo` : a disk after directories were made on the way to a path, and nowhere else.
* `grownTo_makeDirectories` : making a directory comes to that, even if the directory is not reached.
-/

namespace ControlCodegen.Files

set_option autoImplicit false

namespace Tree

variable {t t' t'' : Tree} {l : Location} {p q : Path}

/-- A tree with more directories, which were made where nothing was. A path on the way leads to each of them. -/
def GrownTo (p : Path) (t t' : Tree) : Prop :=
  ∀ l, t'.entry? l = t.entry? l ∨
    t.entry? l = none ∧ t'.entry? l = some .directory ∧ ∃ q, p.OnWay q ∧ t'.LeadsTo q l

theorem GrownTo.refl (p : Path) (t : Tree) : t.GrownTo p t := fun _ => .inl rfl

theorem GrownTo.grown (h : t.GrownTo p t') : t.Grown t' := fun l =>
  (h l).imp_right fun ⟨hnone, hmade, _⟩ => ⟨hnone, hmade⟩

/-- A path leads to a directory as long as the directories are kept. -/
theorem LeadsTo.of_keeps (h : t.LeadsTo p l) (hkeeps : t.Keeps t') {e : Entry} (he : t'.entry? l = some e) :
    t'.LeadsTo p l := by
  obtain ⟨e', hlocate⟩ := h
  exact ⟨e, locate_of_keeps hkeeps hlocate he⟩

theorem GrownTo.trans (h : t.GrownTo p t') (h' : t'.GrownTo p t'') : t.GrownTo p t'' := by
  intro l
  rcases h' l with heq' | ⟨hnone', hmade', hq⟩
  · rw [heq']
    refine (h l).imp_right fun ⟨hnone, hmade, q, hq, hleads⟩ => ⟨hnone, hmade, q, hq, ?_⟩
    exact hleads.of_keeps h'.grown.keeps (heq'.trans hmade)
  · rcases h l with heq | ⟨-, hmade, -⟩
    · exact .inr ⟨heq ▸ hnone', hmade', hq⟩
    · rw [hmade] at hnone'
      cases hnone'

theorem grownTo_makeDirectory (hq : p.OnWay q) (h : t.makeDirectory q = .ok t') : t.GrownTo p t' := by
  have hgrown := grown_makeDirectory h
  unfold makeDirectory at h
  split at h
  · cases h
  · cases h
  · rename_i l₀ hlocate
    obtain rfl := Except.ok.inj h
    have hnone : t.entry? l₀ = none := entry?_of_locate hlocate
    have hnew : t.entry? l₀ ≠ some .directory := by rw [hnone]; simp
    have hmade : Tree.entry? (t.insert l₀ .directory) l₀ = some .directory := by rw [entry?_insert hnew, if_pos rfl]
    intro l
    by_cases hl : l = l₀
    · rw [hl]
      exact .inr ⟨hnone, hmade, q, hq, _, locate_of_keeps hgrown.keeps hlocate hmade⟩
    · left
      rw [entry?_insert hnew, if_neg hl]

/-- What a path without a slash at its end leads to is there. -/
theorem contains_of_leadsTo (h : t.LeadsTo p l) (hslash : p.endsInSlash = false) : t.contains p = true := by
  obtain ⟨e, hlocate⟩ := h
  unfold contains look
  rw [hlocate, hslash]
  cases e <;> rfl

end Tree

namespace Disk

variable {d d' d'' : Disk} {p : Path}

/-- A disk after directories were made on the way to a path. -/
structure GrownTo (p : Path) (d d' : Disk) : Prop where
  refusal : d'.refusal = d.refusal
  tree : d.tree.GrownTo p d'.tree

theorem GrownTo.refl (p : Path) (d : Disk) : d.GrownTo p d := ⟨rfl, .refl p d.tree⟩

theorem GrownTo.trans (h : d.GrownTo p d') (h' : d'.GrownTo p d'') : d.GrownTo p d'' :=
  ⟨h'.refusal.trans h.refusal, h.tree.trans h'.tree⟩

/-- Whether or not a directory can be made, nothing changes but on the way to it. -/
theorem grownTo_makeDirectories (p : Path) (d : Disk) :
    d.GrownTo p (d.after (makeDirectories p : Action (StateM Disk) FileError Unit)).2 := by
  refine moves_makeDirectories (GrownTo.refl p) (fun _ _ _ => .trans) p (fun q hq d => ?_) d
  rw [after_makeDirectory]
  cases h : d.makeDirectory q with
  | error e => exact .refl p d
  | ok t => exact ⟨rfl, Tree.grownTo_makeDirectory hq (allow_eq_ok_iff.1 h).2⟩

end Disk

end ControlCodegen.Files
