import ControlCodegen.Proofs.Export.Failure

/-!
# `Export.Lifecycle`: sessions over any calls

* `Session.settle` : the setup of a session that is kept, which takes the plan out and puts it back, and notes which
  integrators are constructed. `settled_eq` says what it leaves.
* `Session.Call`, `Session.after` : the calls of a session, also by exports to any disks.
* `Session.Onward` : what a session keeps. One call keeps it, so all calls do.
* `Session.Lifecycle`, `lifecycle_after` : the session and the files of its exports over any calls.
-/

namespace ControlCodegen

set_option autoImplicit false

open Export Files

/-! ## Setup in steps -/

/-- The plan of a problem with an integrator that is not bound yet. -/
def Plan.furnish (p : Problem) (o : Options) (g : Integrator) : Except Cause Plan := do
  let g ← g.bind p (o.stepsOver p.horizon)
  let k ← selectStrategy o
  let s ← configureSolver p o k (← g.link)
  return ⟨g, s, .collect p o g s⟩

theorem Plan.resolve_eq_furnish (p : Problem) (o : Options) (r : Integrator.Registry) :
    resolve p o r = (do
      checkConsistency p o
      let g ← r.create o.scheme o.moduleName o.linearSolver
      furnish p o g) :=
  rfl

namespace Session

/-- A session that is kept, with the schemes of the integrators that were constructed. -/
structure Kept where
  session : Session
  constructed : List Scheme := []

/-- A step of the setup of a session that is kept. -/
abbrev Settling := ExceptT Cause (StateM Kept)

/-- Constructs the integrator that the options ask for, and notes that. -/
def construct (s : Session) : Settling Integrator :=
  match s.registry.constructor? s.options.scheme with
  | some make => do
    modify fun k => { k with constructed := k.constructed ++ [s.options.scheme] }
    return make s.options.scheme s.options.moduleName s.options.linearSolver
  | none => throw (.unregisteredScheme s.options.scheme)

/-- Makes the plan of a session. -/
def resolution (s : Session) : Settling Plan := do
  checkConsistency s.problem s.options
  let g ← construct s
  Plan.furnish s.problem s.options g

/-- Takes the plan out of the session. -/
def takePlan : Settling (Option Plan) := modifyGet fun k => (k.session.plan, { k with session.plan := none })

/-- Sets the session up: the plan that was there, or else the one of the problem, is put in. -/
def settle : Settling Plan := do
  let plan ←
    match ← takePlan with
    | some plan => pure plan
    | none => resolution (← get).session
  modify fun k => { k with session.plan := some plan }
  return plan

/-- What the setup of a session answers, and what it leaves. -/
def settled (s : Session) (constructed : List Scheme) : Except Cause Plan × Kept :=
  settle.run.run ⟨s, constructed⟩

/-- The schemes that are constructed for a plan: that of the options, if the problem is consistent and there is such an
integrator. -/
def constructions (s : Session) : List Scheme :=
  match checkConsistency s.problem s.options with
  | .ok () => if s.registry.contains s.options.scheme then [s.options.scheme] else []
  | .error _ => []

section

variable {α β : Type}

theorem Settling.run_bind (a : Settling α) (f : α → Settling β) (k : Kept) :
    (a >>= f).run.run k =
      match a.run.run k with
      | (.ok x, k') => (f x).run.run k'
      | (.error c, k') => (.error c, k') := by
  change StateT.run (ExceptT.bindCont f (a.run.run k).1) (a.run.run k).2 = _
  rcases a.run.run k with ⟨c | x, k'⟩ <;> rfl

/-- A step that does not look at the session. -/
theorem Settling.run_lift (e : Except Cause α) (f : α → Settling β) (k : Kept) :
    (liftM e >>= f : Settling β).run.run k =
      match e with
      | .ok x => (f x).run.run k
      | .error c => (.error c, k) := by
  cases e <;> rfl

end

section

variable {s s' s'' : Session} {plan : Plan} {c : Cause}

theorem construct_eq (s : Session) (k : Kept) :
    (construct s).run.run k =
      (s.registry.create s.options.scheme s.options.moduleName s.options.linearSolver,
        { k with constructed := k.constructed ++
            if s.registry.contains s.options.scheme then [s.options.scheme] else [] }) := by
  unfold construct Integrator.Registry.create Integrator.Registry.contains
  cases s.registry.constructor? s.options.scheme with
  | some make => rfl
  | none =>
    dsimp only [Option.isSome]
    rw [if_neg Bool.false_ne_true, List.append_nil]
    rfl

theorem resolution_eq (s : Session) (k : Kept) :
    (resolution s).run.run k =
      (Plan.resolve s.problem s.options s.registry,
        { k with constructed := k.constructed ++ s.constructions }) := by
  unfold resolution constructions
  rw [Plan.resolve_eq_furnish, Settling.run_lift]
  cases checkConsistency s.problem s.options with
  | error c =>
    dsimp only
    rw [List.append_nil]
    rfl
  | ok u =>
    dsimp only
    rw [Settling.run_bind, construct_eq]
    change _ = ((s.registry.create _ _ _ >>= _), _)
    cases s.registry.create s.options.scheme s.options.moduleName s.options.linearSolver <;> rfl

/-- A setup answers as `setup` does, and leaves the session as it was if it fails. Where there is a plan, nothing is
constructed. -/
theorem settled_eq (s : Session) (constructed : List Scheme) :
    s.settled constructed =
      match s.setup with
      | .ok (s', plan) => (.ok plan, ⟨s', constructed ++ if s.plan.isSome then [] else s.constructions⟩)
      | .error c => (.error c, ⟨s, constructed ++ s.constructions⟩) := by
  have htake : takePlan.run.run (⟨s, constructed⟩ : Kept) = (.ok s.plan, ⟨{ s with plan := none }, constructed⟩) := rfl
  unfold settled settle setup
  rw [Settling.run_bind, htake]
  dsimp only
  cases hplan : s.plan with
  | some plan =>
    dsimp only [Option.isSome]
    rw [if_pos rfl, List.append_nil]
    change (Except.ok plan, (⟨{ s with plan := some plan }, constructed⟩ : Kept)) = _
    rw [← hplan]
  | none =>
    have hsame : ({ s with plan := none } : Session) = s := by rw [← hplan]
    have hget : (get : Settling Kept).run.run ⟨s, constructed⟩ = (.ok ⟨s, constructed⟩, ⟨s, constructed⟩) := rfl
    dsimp only [Option.isSome]
    rw [hsame, Settling.run_bind, hget]
    dsimp only
    rw [Settling.run_bind, resolution_eq, if_neg Bool.false_ne_true]
    cases Plan.resolve s.problem s.options s.registry <;> rfl

/-! ## Calls -/

/-- A new session. -/
def fresh (p : Problem) (o : Options) (r : Integrator.Registry) : Session := ⟨p, o, r, none⟩

/-- A call of a session. Some calls only look at it. An export may go to any disk. -/
inductive Call where
  | setup
  | status
  | plan
  | dimensions
  | exportCode (target : Target) (now : Moment) (d : Disk)

/-- The session after a call, whether or not it failed. -/
def call (s : Session) : Call → Session
  | .setup => (s.settled []).2.session
  | .status | .plan | .dimensions => s
  | .exportCode target now d => (exportOn s target now d).1.session

/-- The session after calls. -/
def after (s : Session) (calls : List Call) : Session := calls.foldl call s

theorem after_append (s : Session) (calls later : List Call) : s.after (calls ++ later) = (s.after calls).after later :=
  List.foldl_append

/-- What a session keeps. -/
structure Onward (s s' : Session) : Prop where
  problem : s'.problem = s.problem
  options : s'.options = s.options
  registry : s'.registry = s.registry
  plan : ∀ plan, s.plan = some plan → s'.plan = some plan
  /-- Its plan, also a new one, is that of its problem. -/
  coherent : s'.Coherent

theorem Coherent.onward (hs : s.Coherent) : s.Onward s := ⟨rfl, rfl, rfl, fun _ h => h, hs⟩

theorem Onward.trans (h : s.Onward s') (h' : s'.Onward s'') : s.Onward s'' where
  problem := h'.problem.trans h.problem
  options := h'.options.trans h.options
  registry := h'.registry.trans h.registry
  plan plan hplan := h'.plan plan (h.plan plan hplan)
  coherent := h'.coherent

/-- A setup puts a plan where there was none, or the same one. -/
theorem Coherent.onward_setup (hs : s.Coherent) (hsetup : s.setup = .ok (s', plan)) :
    s.Onward s' ∧ s'.plan = some plan := by
  have hcoherent := hs.setup hsetup
  obtain ⟨hplan, rfl⟩ := hs.setup_ok hsetup
  refine ⟨⟨rfl, rfl, rfl, fun plan' h => ?_, hcoherent⟩, rfl⟩
  rw [hs plan' h] at hplan
  exact congrArg some (Except.ok.inj hplan).symm

/-- One call keeps it. -/
theorem onward_call (hs : s.Coherent) (a : Call) : s.Onward (s.call a) := by
  cases a with
  | status | plan | dimensions => exact hs.onward
  | setup =>
    unfold call
    dsimp only
    rw [settled_eq]
    cases hsetup : s.setup with
    | ok made => exact (hs.onward_setup hsetup).1
    | error c => exact hs.onward
  | exportCode target now d =>
    have hcomes := comes_exportOn hs target now d
    unfold call
    dsimp only
    generalize exportOn s target now d = ended at hcomes ⊢
    cases hcomes with
    | directory | setup => exact hs.onward
    | interrupted _ hsetup | finished _ hsetup => exact (hs.onward_setup hsetup).1

/-- All calls keep it. -/
theorem onward_after (hs : s.Coherent) (calls : List Call) : s.Onward (s.after calls) := by
  induction calls generalizing s with
  | nil => exact hs.onward
  | cons a calls ih =>
    have hcall := onward_call hs a
    exact hcall.trans (ih hcall.coherent)

/-- A setup that fails will fail again, for the same reason. -/
theorem Onward.setup_error (h : s.Onward s') (hsetup : s.setup = .error c) : s'.setup = .error c := by
  have hfails : Plan.resolve s'.problem s'.options s'.registry = .error c := by
    rw [setup_of_none (plan_of_setup_error hsetup)] at hsetup
    rw [h.problem, h.options, h.registry]
    cases hresolve : Plan.resolve s.problem s.options s.registry with
    | ok plan => rw [hresolve] at hsetup; cases hsetup
    | error c' => rw [hresolve] at hsetup; exact congrArg Except.error (Except.error.inj hsetup)
  have hnone : s'.plan = none := by
    cases hplan : s'.plan with
    | none => rfl
    | some plan => cases hfails.symm.trans (h.coherent plan hplan)
  rw [setup_of_none hnone, hfails]
  rfl

/-- A session without a plan, which cannot be set up. -/
structure Stuck (s : Session) (c : Cause) : Prop where
  plan : s.plan = none
  /-- Its setup fails and leaves it as it was, -/
  settled : ∀ constructed, (s.settled constructed).1 = .error c ∧ (s.settled constructed).2.session = s
  /-- and so does that of an export which gets so far. -/
  exported : ∀ target now d d', makeTargetOn target d = (.ok (), d') →
    (exportOn s target now d).1.result = .error (.plain c) ∧ (exportOn s target now d).1.session = s

theorem stuck_of_setup_error (hsetup : s.setup = .error c) : s.Stuck c := by
  refine ⟨plan_of_setup_error hsetup, fun constructed => ?_, fun target now d d' hdir => ?_⟩
  · rw [settled_eq, hsetup]
    exact ⟨rfl, rfl⟩
  · rw [exportOn_of_setup_error hdir hsetup]
    exact ⟨rfl, rfl⟩

theorem setup_error_of_settled {constructed : List Scheme} (h : (s.settled constructed).1 = .error c) :
    s.setup = .error c := by
  rw [settled_eq] at h
  cases hsetup : s.setup with
  | ok made => rw [hsetup] at h; cases h
  | error c' => rw [hsetup] at h; exact congrArg Except.error (Except.error.inj h)

/-! ## Lifecycle -/

/-- A session `f` after calls of a new one for a problem and options. -/
structure Lifecycle (p : Problem) (o : Options) (r : Integrator.Registry) (calls : List Call) (f : Session) : Prop where
  /-- The problem, the options and the registry are those it was made for. -/
  inputs : f.problem = p ∧ f.options = o ∧ f.registry = r
  /-- Once ready, always ready. -/
  ready : ∀ before later, calls = before ++ later →
    ((fresh p o r).after before).status = .ready → f.status = .ready
  /-- A plan never changes, -/
  plan : ∀ before later plan, calls = before ++ later →
    ((fresh p o r).after before).plan = some plan → f.plan = some plan
  /-- and its constants are those of the problem and the options with its integrator and solver. -/
  constants : ∀ plan, f.plan = some plan → plan.constants = .collect p o plan.integrator plan.solver
  /-- The setup of a session that is ready gives its plan again. It changes nothing and constructs no integrator. -/
  again : f.status = .ready → ∃ plan, f.plan = some plan ∧
    ∀ constructed, f.settled constructed = (.ok plan, ⟨f, constructed⟩)
  /-- A setup that failed on the way left no plan, and every setup fails for the same reason. -/
  failed : ∀ before later c constructed, calls = before ++ later →
    (((fresh p o r).after before).settled constructed).1 = .error c →
      ((fresh p o r).after before).Stuck c ∧ f.Stuck c
  /-- An export has written nothing but first files of its selection, and all of them are generated from the plan. -/
  files : ∀ before target now d later, calls = before ++ .exportCode target now d :: later →
    ∃ files : List File,
      d.tree.Filled (files.map File.content) (exportOn ((fresh p o r).after before) target now d).2.tree ∧
        (files ≠ [] → ∃ plan, f.plan = some plan ∧
          files.map File.draft <+: (artifacts o).map fun a => a.draft o plan target)

/-- What an export has written is generated from the plan that the session has then. -/
theorem files_of_exportOn (hs : s.Coherent) (target : Target) (now : Moment) (d : Disk) :
    ∃ files : List File,
      d.tree.Filled (files.map File.content) (exportOn s target now d).2.tree ∧
        (files ≠ [] → ∃ plan, (exportOn s target now d).1.session.plan = some plan ∧
          files.map File.draft <+: (artifacts s.options).map fun a => a.draft s.options plan target) := by
  have hcomes := comes_exportOn hs target now d
  generalize exportOn s target now d = ended at hcomes ⊢
  cases hcomes with
  | directory hdir | setup hdir =>
    exact ⟨[], ⟨_, (grown_makeTargetOn hdir).tree, .refl _⟩, fun h => absurd rfl h⟩
  | interrupted hdir hsetup h =>
    have hname := moduleName_of_setup hs hsetup
    obtain ⟨-, rfl⟩ := hs.setup_ok hsetup
    obtain ⟨rest, hes, -⟩ := h.stops
    exact ⟨_, ⟨_, (grown_makeTargetOn hdir).tree, h.written.tree⟩,
      fun _ => ⟨_, rfl, prefix_artifacts hname ⟨rest, hes.symm⟩⟩⟩
  | finished hdir hsetup h =>
    have hname := moduleName_of_setup hs hsetup
    obtain ⟨-, rfl⟩ := hs.setup_ok hsetup
    exact ⟨_, ⟨_, (grown_makeTargetOn hdir).tree, h.written.tree⟩,
      fun _ => ⟨_, rfl, prefix_artifacts hname (h.all ▸ List.prefix_rfl)⟩⟩

theorem status_eq_ready_iff : s.status = .ready ↔ ∃ plan, s.plan = some plan := by
  unfold status
  cases s.plan <;> simp

/-- A session keeps to its lifecycle, whatever calls there are. -/
theorem lifecycle_after (p : Problem) (o : Options) (r : Integrator.Registry) (calls : List Call) :
    Lifecycle p o r calls ((fresh p o r).after calls) := by
  have hnew : (fresh p o r).Coherent := coherent_of_none rfl
  have hbefore (before : List Call) := onward_after hnew before
  have hlater (before later : List Call) : ((fresh p o r).after before).Onward
      ((fresh p o r).after (before ++ later)) := by
    rw [after_append]
    exact onward_after (hbefore before).coherent later
  have hf := hbefore calls
  refine ⟨⟨hf.problem, hf.options, hf.registry⟩, ?_, ?_, fun plan hplan => ?_, fun hready => ?_, ?_, ?_⟩
  · rintro before later rfl hready
    obtain ⟨plan, hplan⟩ := status_eq_ready_iff.1 hready
    exact status_eq_ready_iff.2 ⟨plan, (hlater before later).plan plan hplan⟩
  · rintro before later plan rfl hplan
    exact (hlater before later).plan plan hplan
  · have hresolve := hf.coherent plan hplan
    rw [hf.problem, hf.options] at hresolve
    obtain ⟨g, k, -, rfl, -⟩ := Plan.resolve_assemble hresolve
    rfl
  · obtain ⟨plan, hplan⟩ := status_eq_ready_iff.1 hready
    refine ⟨plan, hplan, fun constructed => ?_⟩
    rw [settled_eq]
    unfold setup
    rw [hplan]
    dsimp only [Option.isSome]
    rw [if_pos rfl, List.append_nil]
  · rintro before later c constructed rfl hfailed
    have hsetup := setup_error_of_settled hfailed
    exact ⟨stuck_of_setup_error hsetup, stuck_of_setup_error ((hlater before later).setup_error hsetup)⟩
  · rintro before target now d later rfl
    obtain ⟨files, hfilled, hfiles⟩ := files_of_exportOn (hbefore before).coherent target now d
    refine ⟨files, hfilled, fun hne => ?_⟩
    obtain ⟨plan, hplan, hprefix⟩ := hfiles hne
    rw [(hbefore before).options] at hprefix
    have honward := hlater (before ++ [.exportCode target now d]) later
    rw [List.append_assoc, List.singleton_append, after_append] at honward
    exact ⟨plan, honward.plan plan hplan, hprefix⟩

end

end Session

end ControlCodegen
