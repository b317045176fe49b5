import ControlCodegen.Export.Run
import ControlCodegen.Proofs.Export.Artifacts
import ControlCodegen.Proofs.Files.Disk

/-!
# `Export.Run`: what the steps of an export come to

* `Run.after` : the result of a step of an export on a disk, with what it leaves.
* `Finished`, `Interrupted` : a disk after all files were written and recorded, or after the first ones were.
* `Interrupted.exists_text_error` : where files can be written and read, only one without contents is in the way.
* `Ends`, `ends_take`, `ends_steps` : what one step comes to, and what all steps after one another come to.
-/

namespace ControlCodegen.Export

open Files

set_option autoImplicit false

/-! ## Steps on a disk -/

/-- A session with what the user was told. -/
abbrev Progress := Session × List Message

/-- The result of a step of an export, and what it leaves. -/
def Run.after {α : Type} (a : Run (StateM Disk) α) (σ : Progress) (d : Disk) :
    (Except ExportError α × Progress) × Disk :=
  (a.run.run σ).run d

section

variable {α β : Type}

theorem Run.after_bind (a : Run (StateM Disk) α) (f : α → Run (StateM Disk) β) (σ : Progress) (d : Disk) :
    Run.after (a >>= f) σ d =
      match Run.after a σ d with
      | ((.ok x, σ'), d') => Run.after (f x) σ' d'
      | ((.error e, σ'), d') => ((.error e, σ'), d') := by
  change StateT.run (StateT.run (ExceptT.bindCont f (Run.after a σ d).1.1) (Run.after a σ d).1.2)
    (Run.after a σ d).2 = _
  rcases Run.after a σ d with ⟨⟨e | x, σ'⟩, d'⟩ <;> rfl

theorem Run.after_attempt (artifact : String) (action : Action (StateM Disk) Cause α) (σ : Progress) (d : Disk) :
    Run.after (attempt artifact action) σ d =
      match d.after action with
      | (.ok x, d') => ((.ok x, σ), d')
      | (.error c, d') => ((.error (.unableToExport artifact (.plain c)), σ), d') := by
  have hlift : Run.after (liftM action.run : Run (StateM Disk) (Except Cause α)) σ d =
      ((.ok (d.after action).1, σ), (d.after action).2) := rfl
  unfold attempt
  rw [Run.after_bind, hlift]
  rcases d.after action with ⟨c | x, d'⟩ <;> rfl

end

/-- A draft without contents is not written. -/
theorem after_write_of_error {x : Draft} {d : Disk} {c : Cause} (h : x.text = .error c) :
    d.after (x.write : Action (StateM Disk) Cause Unit) = (.error c, d) := by
  unfold Draft.write
  rw [h]
  rfl

theorem after_write {x : Draft} {d : Disk} {text : String} (h : x.text = .ok text) :
    d.after (x.write : Action (StateM Disk) Cause Unit) =
      match d.write x.path text.toUTF8 with
      | .ok t => (.ok (), { d with tree := t })
      | .error e => (.error (.file e), d) := by
  unfold Draft.write
  rw [h]
  dsimp only
  rw [Disk.after_adapt, Disk.after_writeText]
  cases d.write x.path text.toUTF8 <;> rfl

theorem after_record (s : Summary) (kind : ArtifactKind) (p : Path) (d : Disk) :
    d.after ((s.record kind p : Action (StateM Disk) FileError Summary).adapt Cause.file) =
      match d.read p with
      | .ok bytes => (.ok { s with artifacts := s.artifacts ++ [.ofBytes kind p bytes] }, d)
      | .error e => (.error (.file e), d) := by
  rw [Disk.after_adapt]
  unfold Summary.record
  rw [Disk.after_bind, Disk.after_read]
  cases d.read p <;> rfl

/-! ## What has been written -/

/-- The paths of the files lead to different places. -/
def Separate (es : List (ArtifactKind × Draft)) : Prop := es.Pairwise fun x y => x.2.path.Apart y.2.path

/-- All files are written and recorded, so that they can be read. -/
structure Finished (d : Disk) (es : List (ArtifactKind × Draft)) (files : List File) (d' : Disk) : Prop where
  all : es = files.map File.draft
  written : d.Written (files.map File.content) d'
  reads : ∀ f ∈ files, d'.read f.path = .ok f.text.toUTF8

/-- Why there is no going on: the next file has no contents or cannot be written, or one that was written cannot be
read. -/
inductive Obstacle (d : Disk) (files : List File) (rest : List (ArtifactKind × Draft)) : Cause → Prop where
  | text {x : ArtifactKind × Draft} {c : Cause} (hx : rest.head? = some x) (h : x.2.text = .error c) :
    Obstacle d files rest c
  | write {f : File} {e : FileError} (hf : rest.head? = some f.draft) (h : d.write f.path f.text.toUTF8 = .error e) :
    Obstacle d files rest (.file e)
  | read {f : File} {e : FileError} (hf : f ∈ files) (h : d.read f.path = .error e) : Obstacle d files rest (.file e)

/-- The first files are written, and something is in the way of the others. -/
structure Interrupted (d : Disk) (es : List (ArtifactKind × Draft)) (files : List File) (d' : Disk) (c : Cause) : Prop
    where
  written : d.Written (files.map File.content) d'
  stops : ∃ rest, es = files.map File.draft ++ rest ∧ Obstacle d' files rest c

section

variable {d d' d'' : Disk} {es es' rest : List (ArtifactKind × Draft)} {files files' : List File} {c : Cause}

theorem finished_nil (d : Disk) : Finished d [] [] d := ⟨rfl, .refl d, fun _ h => absurd h List.not_mem_nil⟩

theorem Separate.apart (h : Separate (es ++ es')) (hes : es = files.map File.draft)
    (hes' : es' = files'.map File.draft ++ rest) :
    ∀ f ∈ files.map File.content, ∀ g ∈ files'.map File.content, f.1.Apart g.1 := by
  simp only [List.forall_mem_map]
  intro f hf g hg
  have hall := (List.pairwise_append.1 h).2.2
  refine hall f.draft ?_ g.draft ?_
  · rw [hes]
    exact List.mem_map_of_mem hf
  · rw [hes']
    exact List.mem_append_left _ (List.mem_map_of_mem hg)

theorem Obstacle.mono (h : Obstacle d files' rest c) (files : List File) : Obstacle d (files ++ files') rest c := by
  cases h with
  | text hx h => exact .text hx h
  | write hf h => exact .write hf h
  | read hf h => exact .read (List.mem_append_right files hf) h

/-- What comes later does not matter. -/
theorem Obstacle.append (h : Obstacle d files rest c) (es : List (ArtifactKind × Draft)) :
    Obstacle d files (rest ++ es) c := by
  cases h with
  | text hx h => exact .text (by rw [List.head?_append, hx, Option.some_or]) h
  | write hf h => exact .write (by rw [List.head?_append, hf, Option.some_or]) h
  | read hf h => exact .read hf h

/-- Files that are written after others. -/
theorem Finished.append (h : Finished d es files d') (h' : Finished d' es' files' d'') (hes : Separate (es ++ es')) :
    Finished d (es ++ es') (files ++ files') d'' := by
  have hapart := hes.apart h.all (by rw [h'.all, List.append_nil])
  refine ⟨by rw [h.all, h'.all, List.map_append], ?_, fun f hf => ?_⟩
  · rw [List.map_append]
    exact h.written.trans h'.written hapart
  · rcases List.mem_append.1 hf with hf | hf
    · exact h.written.read h'.written hapart (List.mem_map_of_mem hf) (h.reads f hf)
    · exact h'.reads f hf

/-- Files that are written before there is something in the way. -/
theorem Interrupted.append (hwritten : d.Written (files.map File.content) d') (hall : es = files.map File.draft)
    (h : Interrupted d' es' files' d'' c) (hes : Separate (es ++ es')) :
    Interrupted d (es ++ es') (files ++ files') d'' c := by
  obtain ⟨rest, hes', hobstacle⟩ := h.stops
  refine ⟨?_, rest, by rw [hall, hes', List.map_append, List.append_assoc], hobstacle.mono files⟩
  rw [List.map_append]
  exact hwritten.trans h.written (hes.apart hall hes')

theorem Interrupted.weaken (h : Interrupted d es files d' c) (es' : List (ArtifactKind × Draft)) :
    Interrupted d (es ++ es') files d' c := by
  obtain ⟨rest, hes, hobstacle⟩ := h.stops
  exact ⟨h.written, rest ++ es', by rw [hes, List.append_assoc], hobstacle.append es'⟩

theorem Interrupted.draft_mem (h : Interrupted d es files d' c) {f : File} (hf : f ∈ files) : f.draft ∈ es := by
  obtain ⟨rest, rfl, -⟩ := h.stops
  exact List.mem_append_left rest (List.mem_map_of_mem hf)

/-- What is in the way is a file without contents, or an error of the disk. -/
theorem Interrupted.cause (h : Interrupted d es files d' c) :
    (∃ x ∈ es, x.2.text = .error c) ∨ ∃ e, c = .file e := by
  obtain ⟨rest, rfl, hobstacle⟩ := h.stops
  cases hobstacle with
  | text hx htext => exact .inl ⟨_, List.mem_append_right _ (List.mem_of_mem_head? hx), htext⟩
  | write | read => exact .inr ⟨_, rfl⟩

/-- Only a file without contents is in the way where the files can be written and read. -/
theorem Interrupted.exists_text_error (h : Interrupted d es files d' c)
    (hwrite : ∀ f : File, f.draft ∈ es → ∃ t, d'.write f.path f.text.toUTF8 = .ok t)
    (hread : ∀ f : File, f.draft ∈ es → d.refusal (.read f.path) = none) : ∃ x ∈ es, x.2.text = .error c := by
  have hmem := @h.draft_mem
  obtain ⟨rest, rfl, hobstacle⟩ := h.stops
  cases hobstacle with
  | text hx htext => exact ⟨_, List.mem_append_right _ (List.mem_of_mem_head? hx), htext⟩
  | write hf herror =>
    obtain ⟨t, hok⟩ := hwrite _ (List.mem_append_right _ (List.mem_of_mem_head? hf))
    cases herror.symm.trans hok
  | read hf herror =>
    -- what was written holds, so reading it can only be refused
    rename_i f e
    have hholds := h.written.tree.holds f.content (List.mem_map_of_mem hf)
    have hrefusal : d'.refusal (.read f.path) = none := h.written.refusal ▸ hread f (hmem hf)
    cases herror.symm.trans (Disk.read_eq_ok_iff.2 ⟨hrefusal, hholds⟩)

end

/-! ## One step -/

section

variable {kind : ArtifactKind} (σ : Progress)

/-- Writes files in order. -/
def writeAll (blame : String) (drafts : List Draft) : Run (StateM Disk) Unit :=
  drafts.forM fun x => attempt blame x.write

theorem writeAll_cons (blame : String) (x : Draft) (drafts : List Draft) :
    writeAll blame (x :: drafts) = (do attempt blame x.write; writeAll blame drafts) := rfl

/-- The files are written until one has no contents or cannot be written. -/
theorem after_writeAll (blame : String) (drafts : List Draft) (d : Disk) (hes : Separate (drafts.map (kind, ·))) :
    (∃ (files : List File) (d' : Disk), Run.after (writeAll blame drafts) σ d = ((.ok (), σ), d') ∧
      drafts.map (kind, ·) = files.map File.draft ∧ d.Written (files.map File.content) d') ∨
    ∃ (files : List File) (c : Cause) (d' : Disk),
      Run.after (writeAll blame drafts) σ d = ((.error (.unableToExport blame (.plain c)), σ), d') ∧
      Interrupted d (drafts.map (kind, ·)) files d' c := by
  induction drafts generalizing d with
  | nil => exact .inl ⟨[], d, rfl, rfl, .refl d⟩
  | cons x drafts ih =>
    rw [writeAll_cons, Run.after_bind, Run.after_attempt]
    cases htext : x.text with
    | error c =>
      right
      rw [after_write_of_error htext]
      exact ⟨[], c, d, rfl, .refl d, _, rfl, .text rfl htext⟩
    | ok text =>
      have hdraft : (kind, x) = File.draft ⟨kind, x.path, text⟩ := by
        rw [File.draft, ← htext]
      rw [after_write htext]
      cases hwrite : d.write x.path text.toUTF8 with
      | error e =>
        right
        exact ⟨[], .file e, d, rfl, .refl d, _, rfl, .write (congrArg some hdraft) hwrite⟩
      | ok t =>
        have hfirst := Disk.written_write hwrite
        have hone : [(kind, x)] = [(⟨kind, x.path, text⟩ : File)].map File.draft := congrArg (· :: []) hdraft
        have hes' : Separate ([(kind, x)] ++ drafts.map (kind, ·)) := hes
        rcases ih { d with tree := t } (List.pairwise_cons.1 hes).2 with
          ⟨files, d', hafter, hall, hwritten⟩ | ⟨files, c, d', hafter, hi⟩
        · left
          refine ⟨⟨kind, x.path, text⟩ :: files, d', hafter, ?_, ?_⟩
          · rw [List.map_cons, List.map_cons, hall, hdraft]
          · exact hfirst.trans hwritten (hes'.apart hone (hall.trans (List.append_nil _).symm))
        · right
          exact ⟨⟨kind, x.path, text⟩ :: files, c, d', hafter, Interrupted.append hfirst hone hi hes'⟩

/-- Records files in order. -/
def recordAll (kind : ArtifactKind) (s : Summary) (drafts : List Draft) : Run (StateM Disk) Summary :=
  drafts.foldlM (fun s x => attempt x.path.shownName ((s.record kind x.path).adapt Cause.file)) s

theorem recordAll_cons (s : Summary) (x : Draft) (drafts : List Draft) :
    recordAll kind s (x :: drafts) = (do
      let s ← attempt x.path.shownName ((s.record kind x.path).adapt Cause.file)
      recordAll kind s drafts) := rfl

/-- The files are recorded as they were written, until one cannot be read. -/
theorem after_recordAll (drafts : List Draft) (s : Summary) {files : List File} {d : Disk}
    (hall : drafts.map (kind, ·) = files.map File.draft)
    (hholds : ∀ f ∈ files, d.tree.read f.path = .ok f.text.toUTF8) :
    (Run.after (recordAll kind s drafts) σ d =
        ((.ok { s with artifacts := s.artifacts ++ files.map File.record }, σ), d) ∧
      ∀ f ∈ files, d.read f.path = .ok f.text.toUTF8) ∨
    ∃ (f : File) (e : FileError),
      Run.after (recordAll kind s drafts) σ d = ((.error (.unableToExport f.path.shownName (.plain (.file e))), σ), d) ∧
      f ∈ files ∧ d.read f.path = .error e := by
  induction files generalizing drafts s with
  | nil =>
    obtain rfl := List.map_eq_nil_iff.1 hall
    left
    refine ⟨?_, fun f hf => absurd hf List.not_mem_nil⟩
    rw [List.map_nil, List.append_nil]
    rfl
  | cons f files ih =>
    obtain ⟨x, drafts, rfl, hx, hrest⟩ := List.map_eq_cons_iff.1 hall
    obtain ⟨rfl, rfl⟩ := Prod.mk.inj hx
    rw [recordAll_cons, Run.after_bind, Run.after_attempt, after_record]
    rw [List.forall_mem_cons] at hholds
    cases hread : d.read f.path with
    | error e =>
      right
      exact ⟨f, e, rfl, List.mem_cons_self, hread⟩
    | ok bytes =>
      obtain rfl : f.text.toUTF8 = bytes := Except.ok.inj (hholds.1.symm.trans (Disk.read_eq_ok_iff.1 hread).2)
      rcases ih drafts { s with artifacts := s.artifacts ++ [f.record] } hrest hholds.2 with
        ⟨hafter, hreads⟩ | ⟨g, e, hafter, hg, hreadg⟩
      · left
        refine ⟨hafter.trans ?_, List.forall_mem_cons.2 ⟨hread, hreads⟩⟩
        rw [List.map_cons, List.append_assoc, List.singleton_append]
      · right
        exact ⟨g, e, hafter, List.mem_cons_of_mem f hg, hreadg⟩

/-- A summary with more files and more warnings. -/
def extend (s : Summary) (files : List File) (texts : List String) : Summary :=
  { s with artifacts := s.artifacts ++ files.map File.record, warnings := s.warnings ++ texts }

/-- What a part of an export comes to, which is to write files and to warn of what is left out. -/
inductive Ends (a : Run (StateM Disk) Summary) (s : Summary) (σ : Progress) (d : Disk)
    (es : List (ArtifactKind × Draft)) (texts : List String) : Prop where
  | finished (files : List File) (d' : Disk) (h : Finished d es files d')
    (hafter : Run.after a σ d = ((.ok (extend s files texts), σ.1, σ.2 ++ texts.map Message.warning), d'))
  | interrupted (files : List File) (d' : Disk) (artifact : String) (c : Cause) (told : List Message)
    (h : Interrupted d es files d' c)
    (hafter : Run.after a σ d = ((.error (.unableToExport artifact (.plain c)), σ.1, told), d'))

/-- What one step comes to. -/
theorem ends_take (step : Step) (s : Summary) (d : Disk) (hes : Separate step.drafts) :
    Ends (step.take s) s σ d step.drafts step.warning?.toList := by
  cases step with
  | warn text =>
    refine .finished [] d (finished_nil d) ?_
    change ((Except.ok { s with warnings := s.warnings ++ [text] }, _), d) = _
    unfold extend
    rw [List.map_nil, List.append_nil]
    rfl
  | produce kind blame drafts =>
    have htake : (Step.produce kind blame drafts).take s = (do
      writeAll blame drafts
      recordAll kind s drafts) := rfl
    have hafter : Run.after ((Step.produce kind blame drafts).take s) σ d = _ :=
      (congrArg (Run.after · σ d) htake).trans (Run.after_bind _ _ _ _)
    rcases after_writeAll σ blame drafts d hes with
      ⟨files, d', hwrites, hall, hwritten⟩ | ⟨files, c, d', hwrites, hi⟩
    · rw [hwrites] at hafter
      have hholds : ∀ f ∈ files, d'.tree.read f.path = .ok f.text.toUTF8 := fun f hf =>
        hwritten.tree.holds f.content (List.mem_map_of_mem hf)
      rcases after_recordAll σ drafts s hall hholds with ⟨hrecords, hreads⟩ | ⟨f, e, hrecords, hf, hread⟩
      · refine .finished files d' ⟨hall, hwritten, hreads⟩ (hafter.trans (hrecords.trans ?_))
        unfold extend
        simp [Step.warning?]
      · exact .interrupted files d' f.path.shownName (.file e) σ.2
          ⟨hwritten, [], by rw [List.append_nil]; exact hall, .read hf hread⟩ (hafter.trans hrecords)
    · rw [hwrites] at hafter
      exact .interrupted files d' blame c σ.2 hi hafter

end

/-! ## All steps -/

theorem extend_extend (s : Summary) (files files' : List File) (texts texts' : List String) :
    extend (extend s files texts) files' texts' = extend s (files ++ files') (texts ++ texts') := by
  unfold extend
  rw [List.map_append, List.append_assoc, List.append_assoc]

section

variable {a : Run (StateM Disk) Summary} {s : Summary} {σ : Progress} {d : Disk} {es es' : List (ArtifactKind × Draft)}
  {texts texts' : List String}

/-- One part after another. -/
theorem Ends.bind {f : Summary → Run (StateM Disk) Summary} (ha : Ends a s σ d es texts)
    (hf : ∀ s σ d, Ends (f s) s σ d es' texts') (hes : Separate (es ++ es')) :
    Ends (a >>= f) s σ d (es ++ es') (texts ++ texts') := by
  have hbind := Run.after_bind a f σ d
  cases ha with
  | interrupted files d' artifact c told h hafter =>
    rw [hafter] at hbind
    exact .interrupted files d' artifact c told (h.weaken es') hbind
  | finished files d' h hafter =>
    rw [hafter] at hbind
    cases hf (extend s files texts) (σ.1, σ.2 ++ texts.map Message.warning) d' with
    | interrupted files' d'' artifact c told h' hafter' =>
      exact .interrupted (files ++ files') d'' artifact c told (Interrupted.append h.written h.all h' hes)
        (hbind.trans hafter')
    | finished files' d'' h' hafter' =>
      refine .finished (files ++ files') d'' (h.append h' hes) (hbind.trans (hafter'.trans ?_))
      rw [extend_extend, List.map_append, List.append_assoc]

/-- All steps come to the files and warnings of each. -/
theorem ends_steps (ss : List Step) (s : Summary) (σ : Progress) (d : Disk) (hes : Separate (ss.flatMap Step.drafts)) :
    Ends (ss.foldlM Step.take s) s σ d (ss.flatMap Step.drafts) (ss.filterMap Step.warning?) := by
  induction ss generalizing s σ d with
  | nil =>
    refine .finished [] d (finished_nil d) ?_
    unfold extend
    rw [List.map_nil, List.filterMap_nil, List.map_nil, List.append_nil, List.append_nil, List.append_nil]
    rfl
  | cons step ss ih =>
    rw [List.flatMap_cons] at hes ⊢
    obtain ⟨hstep, hss, -⟩ := List.pairwise_append.1 hes
    have htexts : (step :: ss).filterMap Step.warning? = step.warning?.toList ++ ss.filterMap Step.warning? := by
      rw [List.filterMap_cons]
      cases step.warning? <;> rfl
    rw [List.foldlM_cons, htexts]
    exact (ends_take σ step s d hstep).bind (fun s σ d => ih s σ d hss) hes

end

end ControlCodegen.Export
