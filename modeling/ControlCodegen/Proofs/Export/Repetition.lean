import ControlCodegen.Proofs.Export.Acceptance
import ControlCodegen.Proofs.Export.Lifecycle
import ControlCodegen.Proofs.Files.Repetition

/-!
# `Export.Repetition`: exports that are made again

* `allowed_steps` : an export that succeeds was refused no file.
* `Delivered`, `exists_delivered` : what is known of an export that succeeds, and of the disk on the way.
* `Repeats` : an export that comes to the same summary again and changes nothing.
* `Reproducible`, `reproducible_of_exportOn` : a successful export can be made again, by the same session or by a new
  one, there or in any empty directory.
-/

namespace ControlCodegen.Export

open Files

set_option autoImplicit false

/-! ## Files that may be written -/

/-- A file that may be written. -/
def Draft.Allowed (x : Draft) (d : Disk) : Prop :=
  ∀ text, x.text = .ok text → d.refusal (.write x.path text.toUTF8) = none

section

variable {kind : ArtifactKind} {σ σ' : Progress} {d d' : Disk} {u : Unit} {s s' : Summary}

theorem allowed_writeAll {blame : String} {drafts : List Draft}
    (h : Run.after (writeAll blame drafts) σ d = ((.ok u, σ'), d')) :
    d'.refusal = d.refusal ∧ ∀ x ∈ drafts, x.Allowed d := by
  induction drafts generalizing d with
  | nil =>
    obtain rfl := (Prod.mk.inj h).2
    exact ⟨rfl, fun x hx => absurd hx List.not_mem_nil⟩
  | cons x drafts ih =>
    rw [writeAll_cons, Run.after_bind, Run.after_attempt] at h
    cases htext : x.text with
    | error c =>
      rw [after_write_of_error htext] at h
      cases (Prod.mk.inj (Prod.mk.inj h).1).1
    | ok text =>
      rw [after_write htext] at h
      cases hwrite : d.write x.path text.toUTF8 with
      | error e =>
        rw [hwrite] at h
        cases (Prod.mk.inj (Prod.mk.inj h).1).1
      | ok t =>
        rw [hwrite] at h
        obtain ⟨hrefusal, hrest⟩ := ih h
        refine ⟨hrefusal, List.forall_mem_cons.2 ⟨fun text' htext' => ?_, hrest⟩⟩
        obtain rfl := Except.ok.inj (htext.symm.trans htext')
        exact (Disk.allow_eq_ok_iff.1 hwrite).1

theorem disk_of_recordAll {drafts : List Draft} (h : Run.after (recordAll kind s drafts) σ d = ((.ok s', σ'), d')) :
    d' = d := by
  induction drafts generalizing s with
  | nil => exact (Prod.mk.inj h).2.symm
  | cons x drafts ih =>
    rw [recordAll_cons, Run.after_bind, Run.after_attempt, after_record] at h
    cases hread : d.read x.path with
    | error e =>
      rw [hread] at h
      cases (Prod.mk.inj (Prod.mk.inj h).1).1
    | ok bytes =>
      rw [hread] at h
      exact ih h

theorem allowed_take {step : Step} (h : Run.after (step.take s) σ d = ((.ok s', σ'), d')) :
    d'.refusal = d.refusal ∧ ∀ x ∈ step.drafts, x.2.Allowed d := by
  cases step with
  | warn text =>
    obtain rfl := (Prod.mk.inj h).2
    exact ⟨rfl, fun x hx => absurd hx List.not_mem_nil⟩
  | produce kind blame drafts =>
    change Run.after (writeAll blame drafts >>= fun _ => recordAll kind s drafts) σ d = _ at h
    rw [Run.after_bind] at h
    rcases hwrites : Run.after (writeAll blame drafts) σ d with ⟨⟨e | u, σ₁⟩, d₁⟩
    · rw [hwrites] at h
      cases (Prod.mk.inj (Prod.mk.inj h).1).1
    · rw [hwrites] at h
      obtain ⟨hrefusal, hallowed⟩ := allowed_writeAll hwrites
      obtain rfl := disk_of_recordAll h
      exact ⟨hrefusal, List.forall_mem_map.2 hallowed⟩

/-- Steps that succeed were refused no file. -/
theorem allowed_steps {ss : List Step} (h : Run.after (ss.foldlM Step.take s) σ d = ((.ok s', σ'), d')) :
    d'.refusal = d.refusal ∧ ∀ x ∈ ss.flatMap Step.drafts, x.2.Allowed d := by
  induction ss generalizing s σ d with
  | nil =>
    obtain rfl := (Prod.mk.inj h).2
    exact ⟨rfl, fun x hx => absurd hx List.not_mem_nil⟩
  | cons step ss ih =>
    rw [List.foldlM_cons, Run.after_bind] at h
    rcases hstep : Run.after (step.take s) σ d with ⟨⟨e | s₁, σ₁⟩, d₁⟩
    · rw [hstep] at h
      cases (Prod.mk.inj (Prod.mk.inj h).1).1
    · rw [hstep] at h
      obtain ⟨hrefusal₁, hfirst⟩ := allowed_take hstep
      obtain ⟨hrefusal, hrest⟩ := ih h
      rw [List.flatMap_cons]
      refine ⟨hrefusal.trans hrefusal₁, List.forall_mem_append.2 ⟨hfirst, fun x hx text htext => ?_⟩⟩
      rw [← hrefusal₁]
      exact hrest x hx text htext

end

/-! ## Exports that succeed -/

/-- An export that succeeds: its plan, the disk after its directory was made, and its files. -/
structure Delivered (s : Session) (target : Target) (now : Moment) (d : Disk) (outcome : Outcome) (d' : Disk)
    (plan : Plan) (d₀ : Disk) (files : List File) : Prop where
  directory : makeTargetOn target d = (.ok (), d₀)
  resolve : Plan.resolve s.problem s.options s.registry = .ok plan
  finished : Finished d₀ (draftsOf s.options plan target) files d'
  allowed : ∀ f ∈ files, d₀.refusal (.write f.path f.text.toUTF8) = none
  result : outcome.result = .ok (summaryOf s.options plan target now files)
  session : outcome.session = { s with plan := some plan }

section

variable {s : Session} {target : Target} {now : Moment} {d d' d₀ : Disk} {outcome : Outcome} {plan : Plan}
  {files : List File} {summary : Summary}

/-- An export that gets to its steps and succeeds was refused no file. -/
theorem allowed_of_exportOn {s' : Session} (hdir : makeTargetOn target d = (.ok (), d₀))
    (hsetup : s.setup = .ok (s', plan)) (h : exportOn s target now d = (outcome, d'))
    (hok : outcome.result = .ok summary) : ∀ x ∈ draftsOf s'.options plan target, x.2.Allowed d₀ := by
  have hrun := after_produce s target now d
  rw [hdir] at hrun
  dsimp only at hrun
  rw [hsetup] at hrun
  rw [exportOn_eq, hrun] at h
  dsimp only at h
  rcases htake : Run.after (takeAll s' plan target now) (s', .banner bannerText :: infos s') d₀ with ⟨⟨result, σ⟩, d₁⟩
  rw [htake] at h
  obtain ⟨rfl, rfl⟩ := Prod.mk.inj h
  obtain rfl : result = .ok summary := hok
  exact (allowed_steps htake).2

theorem Delivered.artifacts_eq (h : Delivered s target now d outcome d' plan d₀ files)
    (hok : outcome.result = .ok summary) : summary.artifacts = files.map File.record := by
  rw [Except.ok.inj (hok.symm.trans h.result)]
  exact List.nil_append _

theorem exists_delivered (hs : s.Coherent) (h : exportOn s target now d = (outcome, d'))
    (hok : outcome.result = .ok summary) : ∃ plan d₀ files, Delivered s target now d outcome d' plan d₀ files := by
  have hcomes := comes_exportOn hs target now d
  rw [h] at hcomes
  cases hcomes with
  | directory | setup | interrupted => cases hok
  | finished hdir hsetup hfinished =>
    rename_i s' plan d₀ files
    have hallowed := allowed_of_exportOn hdir hsetup h hok
    obtain ⟨hplan, rfl⟩ := hs.setup_ok hsetup
    refine ⟨plan, d₀, files, hdir, hplan, hfinished, fun f hf => ?_, rfl, rfl⟩
    have hmem : f.draft ∈ draftsOf s.options plan target := by
      unfold draftsOf
      rw [hfinished.all]
      exact List.mem_map_of_mem hf
    exact hallowed f.draft hmem f.text rfl

end

/-! ## Exports to the same place -/

/-- Sessions for one problem, with the same options and the same registry. -/
structure Akin (s s' : Session) : Prop where
  problem : s'.problem = s.problem
  options : s'.options = s.options
  registry : s'.registry = s.registry

theorem Akin.resolve {s s' : Session} (h : Akin s s') :
    Plan.resolve s'.problem s'.options s'.registry = Plan.resolve s.problem s.options s.registry := by
  rw [h.problem, h.options, h.registry]

/-- An export that comes to a summary again, but for its time. It changes no file. -/
def Repeats (s : Session) (target : Target) (d : Disk) (summary : Summary) : Prop :=
  ∀ now, ∃ outcome d' summary', exportOn s target now d = (outcome, d') ∧ outcome.result = .ok summary' ∧
    { summary' with startedAt := summary.startedAt, duration := summary.duration } = summary ∧
    d'.refusal = d.refusal ∧ ∀ l, d'.tree.entry? l = d.tree.entry? l

theorem draft_injective : Function.Injective File.draft := by
  rintro ⟨kind, path, text⟩ ⟨kind', path', text'⟩ h
  obtain ⟨rfl, h⟩ := Prod.mk.inj h
  obtain ⟨rfl, h⟩ := Draft.mk.inj h
  obtain rfl := Except.ok.inj h
  rfl

section

variable {s s' : Session} {target : Target} {now : Moment} {d d' d₀ : Disk} {outcome : Outcome} {plan : Plan}
  {files : List File} {summary : Summary}

/-- The files of an export are still there, and can be written again. -/
theorem Delivered.not_interrupted (h : Delivered s target now d outcome d' plan d₀ files) (front : List File) (d₁ : Disk)
    (c : Cause) : ¬Interrupted d' (draftsOf s.options plan target) front d₁ c := by
  have hall : draftsOf s.options plan target = files.map File.draft := h.finished.all
  have hmem : ∀ f : File, f.draft ∈ draftsOf s.options plan target → f ∈ files := by
    intro f hf
    rw [hall] at hf
    exact (List.mem_map_of_injective draft_injective).1 hf
  have hreads (f : File) (hf : f.draft ∈ draftsOf s.options plan target) :=
    Disk.read_eq_ok_iff.1 (h.finished.reads f (hmem f hf))
  intro hi
  have hsame := hi.written.tree.entry?_of_holds (List.forall_mem_map.2 fun f hf => (hreads f (hi.draft_mem hf)).2)
  have hwrite (f : File) (hf : f.draft ∈ draftsOf s.options plan target) :
      ∃ t, d₁.write f.path f.text.toUTF8 = .ok t := by
    obtain ⟨t, ht⟩ := Tree.exists_write_of_read (hreads f hf).2 hsame f.text.toUTF8
    refine ⟨t, Disk.allow_eq_ok_iff.2 ⟨?_, ht⟩⟩
    rw [hi.written.refusal, h.finished.written.refusal]
    exact h.allowed f (hmem f hf)
  obtain ⟨x, hx, htext⟩ := hi.exists_text_error hwrite fun f hf => (hreads f hf).1
  rw [hall] at hx
  obtain ⟨f, -, rfl⟩ := List.mem_map.1 hx
  cases htext

/-- An export that has succeeded succeeds again, by any session for the same problem. -/
theorem Delivered.repeats (h : Delivered s target now d outcome d' plan d₀ files) (hshows : d.Shows)
    (hok : outcome.result = .ok summary) (hs' : s'.Coherent) (hakin : Akin s s') : Repeats s' target d' summary := by
  intro now'
  have hgrown := grown_makeTargetOn h.directory
  have hdir : makeTargetOn target d' = (.ok (), d') :=
    Disk.lasting_makeDirectories target.dir d d₀ d' hshows h.directory
      (h.finished.written.refusal.trans hgrown.refusal) h.finished.written.tree.keeps
  have hready := h.not_interrupted
  rw [← hakin.options] at hready
  obtain ⟨outcome', d₂, files', hexport, hok', hfinished⟩ :=
    finished_of_not_interrupted hs' (hs'.setup_of_resolve (hakin.resolve.trans h.resolve)) hdir hready now'
  -- the files are the same ones
  have hfiles : files' = files := by
    have hall := hfinished.all
    rw [hakin.options] at hall
    exact List.map_injective_iff.2 draft_injective (hall.symm.trans h.finished.all)
  subst hfiles
  refine ⟨outcome', d₂, _, hexport, hok', ?_, hfinished.written.refusal, ?_⟩
  · rw [Except.ok.inj (hok.symm.trans h.result), hakin.options]
    rfl
  · exact hfinished.written.tree.entry?_of_holds (List.forall_mem_map.2 fun f hf =>
      (Disk.read_eq_ok_iff.1 (h.finished.reads f hf)).2)

end

/-! ## Exports to other places -/

/-- A file of two exports: it is of one kind, has one name and has the same bytes on both disks. -/
structure SameFile (dir dir' : Path) (d d' : Disk) (r r' : ArtifactRecord) : Prop where
  kind : r'.kind = r.kind
  name : ∃ name, IsFileName name ∧ r.path = dir.join name ∧ r'.path = dir'.join name
  bytes : ∃ bytes, d.read r.path = .ok bytes ∧ d'.read r'.path = .ok bytes

/-- An empty directory on a disk that refuses nothing. Its path leaves room for a name. -/
structure EmptyDirectory (d : Disk) (dir : Path) : Prop where
  refusal : d.refusal = fun _ => none
  empty : ∃ l, d.tree.locate dir = .ok (.existing l .directory) ∧
    ∀ name, IsFileName name → d.tree.entry? (l ++ [name]) = none
  room : dir.text.utf8ByteSize + 1 + Tree.maxName ≤ Tree.maxPath

theorem size_join {dir : Path} {name : String} (h : IsFileName name) :
    (dir.join name).text.utf8ByteSize ≤ dir.text.utf8ByteSize + 1 + name.utf8ByteSize := by
  rw [Path.text_join h]
  split
  · rw [String.utf8ByteSize_append]
    omega
  · have hslash : "/".utf8ByteSize = 1 := by decide
    rw [String.utf8ByteSize_append, String.utf8ByteSize_append, hslash]

/-- Files of the same artifacts, one by one. -/
theorem forall₂_of_drafts {R : File → File → Prop} {g g' : Artifact → ArtifactKind × Draft} {as : List Artifact}
    {files files' : List File} (h : files.map File.draft = as.map g) (h' : files'.map File.draft = as.map g')
    (hR : ∀ a ∈ as, ∀ f ∈ files, ∀ f' ∈ files', f.draft = g a → f'.draft = g' a → R f f') :
    List.Forall₂ R files files' := by
  induction as generalizing files files' with
  | nil =>
    obtain rfl := List.map_eq_nil_iff.1 h
    obtain rfl := List.map_eq_nil_iff.1 h'
    exact .nil
  | cons a as ih =>
    obtain ⟨f, files, rfl, hf, hfiles⟩ := List.map_eq_cons_iff.1 h
    obtain ⟨f', files', rfl, hf', hfiles'⟩ := List.map_eq_cons_iff.1 h'
    refine .cons (hR a List.mem_cons_self f List.mem_cons_self f' List.mem_cons_self hf hf') (ih hfiles hfiles' ?_)
    exact fun b hb g hg g' hg' =>
      hR b (List.mem_cons_of_mem _ hb) g (List.mem_cons_of_mem _ hg) g' (List.mem_cons_of_mem _ hg')

section

variable {s s' : Session} {target target' : Target} {now now' : Moment} {d d' d₀ e e' e₀ : Disk}
  {outcome outcome' : Outcome} {plan plan' : Plan} {files files' : List File} {a : Artifact}

/-- The files are the selected ones. -/
theorem Delivered.all (h : Delivered s target now d outcome d' plan d₀ files) :
    files.map File.draft = (artifacts s.options).map fun a => a.draft s.options plan target :=
  h.finished.all.symm.trans
    (drafts_steps (Plan.moduleName_of_resolve h.resolve) (hardcoded_of_files h.finished.all))

/-- A selected file is on the disk. -/
theorem Delivered.exists_file (h : Delivered s target now d outcome d' plan d₀ files) (ha : a ∈ artifacts s.options) :
    ∃ f ∈ files, f.draft = a.draft s.options plan target :=
  List.mem_map.1 (h.all ▸ List.mem_map_of_mem ha)

/-- Exports to any two places have the same files. -/
theorem Delivered.sameFiles (h : Delivered s target now d outcome d' plan d₀ files)
    (h' : Delivered s' target' now' e outcome' e' plan' e₀ files') (hakin : Akin s s')
    (htypes : target'.types = target.types) (hprecision : target'.precision = target.precision) :
    List.Forall₂ (SameFile target.dir target'.dir d' e') (files.map File.record) (files'.map File.record) := by
  obtain rfl := Except.ok.inj (h.resolve.symm.trans (hakin.resolve.symm.trans h'.resolve))
  have hall' := h'.all
  rw [hakin.options] at hall'
  refine List.forall₂_map_left_iff.2 (List.forall₂_map_right_iff.2 (forall₂_of_drafts h.all hall' ?_))
  intro a ha f hf f' hf' hdraft hdraft'
  obtain ⟨hkind, hdraft⟩ := Prod.mk.inj hdraft
  obtain ⟨hpath, htext⟩ := Draft.mk.inj hdraft
  obtain ⟨hkind', hdraft'⟩ := Prod.mk.inj hdraft'
  obtain ⟨hpath', htext'⟩ := Draft.mk.inj hdraft'
  rw [htypes, hprecision] at htext'
  have hsame : f'.text = f.text := Except.ok.inj (htext'.trans htext.symm)
  refine ⟨hkind'.trans hkind.symm, ⟨_, isFileName_of_mem ha, hpath, hpath'⟩, f.text.toUTF8, h.finished.reads f hf, ?_⟩
  rw [← hsame]
  exact h'.finished.reads f' hf'

/-- The names of the files are not too long. -/
theorem Delivered.size_name (h : Delivered s target now d outcome d' plan d₀ files) {x : ArtifactKind × FileName}
    (hx : x ∈ inventory s.options) : (x.2.text s.options.moduleName).utf8ByteSize ≤ Tree.maxName := by
  rw [← entries_artifacts] at hx
  obtain ⟨a, ha, rfl⟩ := List.mem_map.1 hx
  obtain ⟨f, hf, hdraft⟩ := h.exists_file ha
  have hpath : f.path = a.path s.options target := congrArg (fun x => x.2.path) hdraft
  have hread := h.finished.reads f hf
  rw [hpath] at hread
  obtain ⟨-, l, hlocate⟩ := Tree.read_eq_ok_iff.1 (Disk.read_eq_ok_iff.1 hread).2
  exact Tree.size_of_locate_join (isFileName_of_mem ha) hlocate

/-- An empty directory takes the files. -/
theorem Delivered.accepts (h : Delivered s target now d outcome d' plan d₀ files) (hakin : Akin s s') {dir : Path}
    (hempty : EmptyDirectory e dir) :
    makeTargetOn { target with dir } e = (.ok (), e) ∧ Accepts e { target with dir } s'.options := by
  obtain ⟨l, hlocate, hnone⟩ := hempty.empty
  have hhas : e.HasDirectory dir := ⟨by rw [hempty.refusal], Tree.isDirectory_iff.2 ⟨l, hlocate⟩⟩
  have hdir : makeTargetOn { target with dir } e = (.ok (), e) :=
    Disk.after_makeDirectories_of_hasDirectory hhas (by rw [hempty.refusal])
  refine ⟨hdir, accepts_of_free hdir hempty.refusal hlocate (fun x hx => ?_) (fun x hx => ?_) fun x hx hdirectory => ?_⟩
  · have hsize : (dir.join (x.2.text s'.options.moduleName)).text.utf8ByteSize ≤ _ :=
      size_join (FileName.isFileName (mem_all_of_mem hx) s'.options.moduleName)
    rw [hakin.options] at hx hsize
    have hroom := hempty.room
    have hname := h.size_name hx
    rw [hakin.options]
    exact Nat.le_trans hsize (Nat.le_trans (Nat.add_le_add_left hname _) hroom)
  · rw [hakin.options] at hx ⊢
    exact h.size_name hx
  · rw [hnone _ (FileName.isFileName (mem_all_of_mem hx) _)] at hdirectory
    cases hdirectory

/-- An export that has succeeded somewhere succeeds in an empty directory. -/
theorem Delivered.exists_summary (h : Delivered s target now d outcome d' plan d₀ files) (hs' : s'.Coherent)
    (hakin : Akin s s') {dir : Path} (hempty : EmptyDirectory e dir) (now' : Moment) :
    ∃ summary, (exportOn s' { target with dir } now' e).1.result = .ok summary := by
  obtain ⟨hdir, haccepts⟩ := h.accepts hakin hempty
  have hplan := hakin.resolve.trans h.resolve
  have hready (front : List File) (d₁ : Disk) (c : Cause) :
      ¬Interrupted e (draftsOf s'.options plan { target with dir }) front d₁ c := by
    intro hi
    obtain ⟨x, hx, htext⟩ := haccepts.exists_text_error hplan hdir hi
    obtain ⟨a, ha, rfl⟩ := exists_artifact_of_mem (Plan.moduleName_of_resolve hplan) hx
    rw [hakin.options] at ha
    obtain ⟨f, -, hdraft⟩ := h.exists_file ha
    cases (congrArg (fun x => x.2.text) hdraft).trans htext
  obtain ⟨outcome', d₁, files', hexport, hok, -⟩ :=
    finished_of_not_interrupted hs' (hs'.setup_of_resolve hplan) hdir hready now'
  rw [hexport]
  exact ⟨_, hok⟩

end

/-! ## Successful exports -/

/-- A successful export can be made again, and is independent of what was before. -/
structure Reproducible (s₀ : Session) (target : Target) (outcome : Outcome) (d' : Disk) (summary : Summary) : Prop where
  /-- The session exports the same again to the same place, -/
  again : Repeats outcome.session target d' summary
  /-- and so does a new one. -/
  anew : Repeats s₀ target d' summary
  /-- A new session can export to any empty directory. -/
  first : ∀ dir now e, EmptyDirectory e dir → ∃ summary', (exportOn s₀ { target with dir } now e).1.result = .ok summary'
  /-- Wherever it exports to, the files are the same. -/
  same : ∀ dir now e outcome' e' summary', exportOn s₀ { target with dir } now e = (outcome', e') →
    outcome'.result = .ok summary' →
      List.Forall₂ (SameFile target.dir dir d' e') summary.artifacts summary'.artifacts

/-- Every successful export of a session is reproducible, whatever calls were before and whatever files there were, on a
disk that shows directories which it lets make. -/
theorem reproducible_of_exportOn (p : Problem) (o : Options) (r : Integrator.Registry) (calls : List Session.Call)
    (target : Target) (now : Moment) {d d' : Disk} {outcome : Outcome} {summary : Summary} (hshows : d.Shows)
    (h : exportOn ((Session.fresh p o r).after calls) target now d = (outcome, d'))
    (hok : outcome.result = .ok summary) : Reproducible (Session.fresh p o r) target outcome d' summary := by
  have hnew : (Session.fresh p o r).Coherent := Session.coherent_of_none rfl
  have hs := Session.onward_after hnew calls
  have hakin : Akin ((Session.fresh p o r).after calls) (Session.fresh p o r) :=
    ⟨hs.problem.symm, hs.options.symm, hs.registry.symm⟩
  obtain ⟨plan, d₀, files, hdelivered⟩ := exists_delivered hs.coherent h hok
  refine ⟨?_, hdelivered.repeats hshows hok hnew hakin, fun dir now' e hempty => ?_,
    fun dir now' e outcome' e' summary' h' hok' => ?_⟩
  · rw [hdelivered.session]
    refine hdelivered.repeats hshows hok (fun plan' hplan' => ?_) ⟨rfl, rfl, rfl⟩
    obtain rfl := Option.some.inj hplan'
    exact hdelivered.resolve
  · exact hdelivered.exists_summary hnew hakin hempty now'
  · obtain ⟨plan', e₀, files', hdelivered'⟩ := exists_delivered hnew h' hok'
    rw [hdelivered.artifacts_eq hok, hdelivered'.artifacts_eq hok']
    exact hdelivered.sameFiles hdelivered' hakin rfl rfl

/-- A disk on which nothing is allowed. -/
def refusingDisk : Disk := { refusal := fun _ => some (.other "Permission denied (os error 13)") }

/-- The working directory of a disk on which there is nothing. -/
theorem emptyDirectory_here : EmptyDirectory {} ⟨"."⟩ :=
  ⟨rfl, ⟨.working, by rfl, fun _ hname => entry?_empty hname⟩, by decide⟩

/-- A session for the small problem and both interfaces. -/
def firstSession : Session := .fresh smallProblem bothInterfaces .builtin

theorem exists_setup_firstSession : ∃ s' plan, firstSession.setup = .ok (s', plan) := ⟨_, _, by rfl⟩

theorem exists_error_refusingDisk :
    ∃ e, (exportOn firstSession { dir := ⟨"out"⟩ } ⟨0, 0, 0⟩ refusingDisk).1.result = .error e := by
  have hdirectory : makeTargetOn { dir := ⟨"out"⟩ } refusingDisk =
      (.error (.other "Permission denied (os error 13)"), refusingDisk) := by
    rfl
  rw [exportOn_eq, after_produce, hdirectory]
  exact ⟨_, rfl⟩

/-- After an export that has failed, one into the working directory. -/
theorem reproducible_firstSession :
    (∃ e, (exportOn firstSession { dir := ⟨"out"⟩ } ⟨0, 0, 0⟩ refusingDisk).1.result = .error e) ∧ Disk.Shows {} ∧
      ∃ outcome d' summary,
        exportOn (firstSession.after [.exportCode { dir := ⟨"out"⟩ } ⟨0, 0, 0⟩ refusingDisk]) { dir := ⟨""⟩ } ⟨0, 0, 0⟩
          {} = (outcome, d') ∧
        outcome.result = .ok summary ∧ EmptyDirectory {} ⟨"."⟩ ∧
        Reproducible firstSession { dir := ⟨""⟩ } outcome d' summary := by
  have hnew : firstSession.Coherent := Session.coherent_of_none rfl
  have hs := Session.onward_after hnew [.exportCode { dir := ⟨"out"⟩ } ⟨0, 0, 0⟩ refusingDisk]
  obtain ⟨s', plan, hsetup⟩ := exists_setup_firstSession
  have hplan := (hnew.setup_ok hsetup).1
  rw [← hs.problem, ← hs.options, ← hs.registry] at hplan
  have hcheck : firstSession.problem.check = .ok () := by rfl
  rw [← hs.problem] at hcheck
  have hdir : ({ dir := ⟨""⟩ } : Target).dir = ⟨""⟩ := rfl
  obtain ⟨summary, hok⟩ := exists_summary_empty hs.coherent hcheck ⟨_, plan, hs.coherent.setup_of_resolve hplan⟩
    (by rw [hs.options]; rfl) (by rw [hs.options]; rfl) hdir ⟨0, 0, 0⟩
  have hshows : Disk.Shows {} := fun _ _ => rfl
  rcases hexport : exportOn (firstSession.after [.exportCode { dir := ⟨"out"⟩ } ⟨0, 0, 0⟩ refusingDisk])
    { dir := ⟨""⟩ } ⟨0, 0, 0⟩ {} with ⟨outcome, d'⟩
  rw [hexport] at hok
  exact ⟨exists_error_refusingDisk, hshows, outcome, d', summary, rfl, hok, emptyDirectory_here,
    reproducible_of_exportOn smallProblem bothInterfaces .builtin _ _ _ hshows hexport hok⟩

end ControlCodegen.Export
