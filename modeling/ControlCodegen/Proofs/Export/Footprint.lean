import ControlCodegen.Proofs.Export.Outcome
import ControlCodegen.Proofs.Files.Footprint

/-!
# `Export.Footprint`: what an export changes of a disk

* `NamedFor` : the names of files that go with a module.
* `Site` : what an export may come to at a location: nothing, a directory on the way, or a selected file.
* `Footprint`, `footprint_exportOn` : however an export ends, this is all that has changed.
* `allStand_of_ok` : an export that succeeds leaves all selected files with their contents.
-/

namespace ControlCodegen.Export

open Files

set_option autoImplicit false

/-! ## Names -/

/-- The names of files for a module: but for two they are made of the name of the module. -/
inductive NamedFor (m : ModuleName) : String → Prop where
  | ofModule (role : String) : NamedFor m (m.text ++ "_" ++ role)
  | script (role : String) : NamedFor m ("make_" ++ m.text ++ "_" ++ role)
  | makefile : NamedFor m "Makefile"
  | test : NamedFor m "test.c"

theorem FileName.namedFor {n : FileName} (hn : n ∈ FileName.all) (m : ModuleName) : NamedFor m (n.text m) := by
  cases n with
  | ofModule role =>
    have htext : (ofModule role).text m = m.text ++ "_" ++ role := String.append_assoc.symm
    exact htext ▸ .ofModule role
  | script role =>
    have htext : (script role).text m = "make_" ++ m.text ++ "_" ++ role := String.append_assoc.symm
    exact htext ▸ .script role
  | fixed name =>
    have hfixed : name = "Makefile" ∨ name = "test.c" := by simpa [FileName.all] using hn
    rcases hfixed with rfl | rfl
    · exact .makefile
    · exact .test

/-! ## Sites -/

/-- What an export into a directory may come to at a location. -/
inductive Site (o : Options) (dir : Path) (t t' : Tree) (l : Location) : Prop where
  | same (h : t'.entry? l = t.entry? l)
  /-- A directory on the way, where nothing was. -/
  | directory {q : Path} (hq : dir.OnWay q) (hleads : t'.LeadsTo q l) (hnone : t.entry? l = none)
    (hmade : t'.entry? l = some .directory)
  /-- A selected file in the directory itself, where no directory was. -/
  | file {kind : ArtifactKind} {n : FileName} {above : Location} {bytes : ByteArray}
    (hselected : (kind, n) ∈ inventory o) (hname : IsFileName (n.text o.moduleName))
    (hnamed : NamedFor o.moduleName (n.text o.moduleName)) (hdir : t'.ReachesDirectory dir above)
    (hl : l = above ++ [n.text o.moduleName]) (hold : t.entry? l ≠ some .directory)
    (hmade : t'.entry? l = some (.file bytes))

/-- What an export may change of a disk. -/
structure Footprint (o : Options) (dir : Path) (d d' : Disk) : Prop where
  refusal : d'.refusal = d.refusal
  sites : ∀ l, Site o dir d.tree d'.tree l

section

variable {o : Options} {target : Target} {d d₀ d' : Disk} {files : List File}

/-- The files are selected ones. -/
def AllSelected (o : Options) (target : Target) (files : List File) : Prop :=
  ∀ f ∈ files, ∃ a ∈ artifacts o, f.path = a.path o target

theorem allSelected_of_draft {plan : Plan} (hname : plan.constants.moduleName = o.moduleName)
    (h : ∀ f ∈ files, f.draft ∈ draftsOf o plan target) : AllSelected o target files := by
  intro f hf
  obtain ⟨a, ha, hdraft⟩ := List.mem_map.1 ((sublist_steps hname).subset (h f hf))
  exact ⟨a, ha, (congrArg (fun x => x.2.path) hdraft).symm⟩

/-- Directories on the way and selected files are all there is to an export. -/
theorem footprint_of_written (hgrown : d.GrownTo target.dir d₀) (hselected : AllSelected o target files)
    (hwritten : d₀.Written (files.map File.content) d') : Footprint o target.dir d d' := by
  refine ⟨hwritten.refusal.trans hgrown.refusal, fun l => ?_⟩
  by_cases hfile : ∃ f ∈ files, d'.tree.LeadsTo f.path l
  · obtain ⟨f, hf, hleads⟩ := hfile
    obtain ⟨a, ha, hpath⟩ := hselected f hf
    have hname := isFileName_of_mem ha
    have hentry : a.entry ∈ inventory o := entries_artifacts o ▸ List.mem_map_of_mem ha
    obtain ⟨above, hdir, hl⟩ := Tree.location_join hname (hpath ▸ hleads)
    have hmade : d'.tree.entry? l = some (.file f.text.toUTF8) :=
      hwritten.tree.entry?_of_leadsTo (f := f.content) (List.mem_map_of_mem hf) hleads
    refine .file hentry hname (FileName.namedFor (mem_all_of_mem hentry) _) hdir hl (fun hold => ?_) hmade
    -- a directory would have been kept
    rw [hgrown.tree.grown.keeps.trans hwritten.tree.keeps l hold] at hmade
    cases hmade
  · have hsame : d'.tree.entry? l = d₀.tree.entry? l :=
      hwritten.tree.others l (List.forall_mem_map.2 fun f hf hleads => hfile ⟨f, hf, hleads⟩)
    rcases hgrown.tree l with heq | ⟨hnone, hmade, q, hq, hleads⟩
    · exact .same (hsame.trans heq)
    · exact .directory hq (hleads.of_keeps hwritten.tree.keeps (hsame.trans hmade)) hnone (hsame.trans hmade)

end

section

variable {s : Session} {target : Target} {now : Moment} {d d' : Disk} {outcome : Outcome}

theorem grownTo_makeTargetOn {result : Except FileError Unit} (h : makeTargetOn target d = (result, d')) :
    d.GrownTo target.dir d' := by
  have hgrown := Disk.grownTo_makeDirectories target.dir d
  change d.GrownTo target.dir (makeTargetOn target d).2 at hgrown
  rw [h] at hgrown
  exact hgrown

/-- An export changes no more than that, whether or not it succeeds. -/
theorem footprint_exportOn (hs : s.Coherent) (h : exportOn s target now d = (outcome, d')) :
    Footprint s.options target.dir d d' := by
  have hcomes := comes_exportOn hs target now d
  rw [h] at hcomes
  have hnothing : AllSelected s.options target [] := fun f hf => absurd hf List.not_mem_nil
  cases hcomes with
  | directory hdir => exact footprint_of_written (grownTo_makeTargetOn hdir) hnothing (.refl d')
  | setup hdir => exact footprint_of_written (grownTo_makeTargetOn hdir) hnothing (.refl d')
  | interrupted hdir hsetup hi =>
    obtain ⟨-, rfl⟩ := hs.setup_ok hsetup
    have hname := moduleName_of_setup hs hsetup
    exact footprint_of_written (grownTo_makeTargetOn hdir) (allSelected_of_draft hname fun f hf => hi.draft_mem hf)
      hi.written
  | finished hdir hsetup hf =>
    obtain ⟨-, rfl⟩ := hs.setup_ok hsetup
    have hname := moduleName_of_setup hs hsetup
    refine footprint_of_written (grownTo_makeTargetOn hdir) (allSelected_of_draft hname fun f hmem => ?_) hf.written
    unfold draftsOf
    rw [hf.all]
    exact List.mem_map_of_mem hmem

/-- All files of a plan can be read on a disk, with their contents. -/
def AllStand (o : Options) (plan : Plan) (target : Target) (d : Disk) : Prop :=
  ∀ a ∈ artifacts o, ∃ text, a.text plan target.types target.precision = .ok text ∧
    d.read (a.path o target) = .ok text.toUTF8

/-- An export that succeeds leaves all of them. -/
theorem allStand_of_ok (hs : s.Coherent) (h : exportOn s target now d = (outcome, d')) {summary : Summary}
    (hok : outcome.result = .ok summary) :
    ∃ s' plan, s.setup = .ok (s', plan) ∧ AllStand s.options plan target d' := by
  obtain ⟨plan, files, hc⟩ := completed_of_ok hs h hok
  obtain ⟨s', hsetup⟩ := hc.setup
  refine ⟨s', plan, hsetup, fun a ha => ?_⟩
  obtain ⟨r, -, hpath, text, htext, hread⟩ := hc.exists_record hok ha
  exact ⟨text, htext, hpath ▸ hread⟩

end

end ControlCodegen.Export
