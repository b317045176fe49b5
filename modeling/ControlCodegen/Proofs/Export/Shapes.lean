import ControlCodegen.Proofs.C.Uses
import ControlCodegen.Proofs.Export.References

/-!
# `Export.Shapes`: members are declared the way they are used

A member with a single element is declared as a scalar, whatever the generated functions do with it.

* `scalarMembers` : the members that the functions use as numbers; all others are arrays to them.
* `DeclaredFor` : a member stands in the common header in the form that a use asks for.
* `shapes_agree_iff` : the form fits each use if and only if no array has a single element, that is, if and only if one
  interval does not go with one state or one control, and one state goes with a free initial state and, where states are
  eliminated, with controls.
-/

namespace ControlCodegen

open C

set_option autoImplicit false

/-! ## Uses in the generated functions -/

/-- The members that the functions use as numbers. -/
def scalarMembers : List (Struct × String) := [(.workspace, "rk_ttt"), (.workspace, "objValue")]

/-- Scalars are used as numbers, all other members as arrays. -/
def WellUsed (s : Stmt) : Prop := ∀ x ∈ s.uses, x.2 = .number ↔ x.1 ∈ scalarMembers

theorem WellUsed.of_all {s : Stmt} (h : s.uses.all (fun x => decide (x.2 = .number ↔ x.1 ∈ scalarMembers)) = true) :
    WellUsed s := by
  intro x hx
  exact of_decide_eq_true (List.all_eq_true.1 h x hx)

theorem WellUsed.append {a b s : Stmt} (hs : s.uses = a.uses ++ b.uses) (ha : WellUsed a) (hb : WellUsed b) :
    WellUsed s := by
  intro x hx
  rw [hs, List.mem_append] at hx
  rcases hx with hx | hx
  · exact ha x hx
  · exact hb x hx

namespace Integrator

theorem wellUsed_prologue (g : Integrator) (b : Binding) : WellUsed (prologue g b) := by
  unfold prologue
  cases b.discretized with
  | true => exact .of_all rfl
  | false =>
    unfold stepSize
    cases b.stepSize <;> exact .of_all rfl

theorem wellUsed_steps (g : Integrator) (b : Binding) : WellUsed (steps g b) := by
  unfold steps
  by_cases hdiscretized : b.discretized = true
  · rw [if_pos hdiscretized]
    exact .of_all rfl
  · rw [if_neg hdiscretized]
    unfold computeStages
    cases g.newtonSystem b <;> exact .of_all rfl

theorem wellUsed_function (g : Integrator) (b : Binding) : WellUsed (function g b).body := by
  have hparts : (function g b).body.uses = (prologue g b).uses ++ ((steps g b).uses ++ []) := rfl
  rw [List.append_nil] at hparts
  exact .append hparts (wellUsed_prologue g b) (wellUsed_steps g b)

end Integrator

namespace Solver

theorem wellUsed_simulationBody (s : Solver) (l : Integrator.Link) : WellUsed (simulationBody s l) := by
  unfold simulationBody
  dsimp only
  by_cases hnod : 0 < s.dims.nod
  · rw [if_pos hnod]
    cases l.takesIndex <;> exact .of_all rfl
  · rw [if_neg hnod]
    cases l.takesIndex <;> exact .of_all rfl

theorem wellUsed_feedbackBody (s : Solver) : WellUsed (feedbackBody s) := by
  unfold feedbackBody
  cases s.fixedInitialState <;> exact .of_all rfl

theorem wellUsed_functions (s : Solver) (l : Integrator.Link) : ∀ f ∈ functions s l, WellUsed f.body := by
  unfold functions
  simp only [List.forall_mem_cons]
  refine ⟨wellUsed_simulationBody s l, .of_all rfl, .of_all rfl, .of_all rfl, wellUsed_feedbackBody s, .of_all rfl,
    .of_all rfl, .of_all rfl, .of_all rfl, ?_⟩
  intro f hf
  cases hf

/-- The simulation uses the controls and the defects, whether there is online data or not. -/
theorem arrays_subset_simulationBody (s : Solver) (l : Integrator.Link) :
    [((Struct.vars, "u"), Use.array), ((.workspace, "d"), .array)] ⊆ (simulationBody s l).uses := by
  unfold simulationBody
  dsimp only
  by_cases hnod : 0 < s.dims.nod
  · rw [if_pos hnod]
    cases l.takesIndex <;> exact subset_of_all rfl
  · rw [if_neg hnod]
    cases l.takesIndex <;> exact subset_of_all rfl

theorem initialState_mem_feedbackBody (s : Solver) (h : s.fixedInitialState = true) :
    ((Struct.vars, "x0"), Use.array) ∈ (feedbackBody s).uses := by
  unfold feedbackBody
  rw [h]
  exact of_decide_eq_true rfl

/-- The text of the function has a subscript behind the initial state. -/
theorem occursIn_feedbackBody (s : Solver) (h : s.fixedInitialState = true) (st : Style) :
    OccursIn (st.memberText (.vars, "x0") ++ "[i]") ((feedbackBody s).lines st) := by
  have hvalue : Occurs (st.memberText (.vars, "x0") ++ "[i]") ((RealExpr.elem (var "x0") i).render st 0) := by
    have htext : (RealExpr.elem (var "x0") i).render st 0 = st.memberText (.vars, "x0") ++ "[" ++ "i" ++ "]" := rfl
    rw [htext, String.append_assoc, String.append_assoc]
    exact .refl _
  have hcopy : OccursIn (st.memberText (.vars, "x0") ++ "[i]")
      ((Stmt.assign ((var "x").entry i) .set (.elem (var "x0") i)).lines st) :=
    .single ((hvalue.append_left _).append_right ";")
  have hloop : OccursIn (st.memberText (.vars, "x0") ++ "[i]")
      ((Stmt.each "i" s.dims.nx .inline (.assign ((var "x").entry i) .set (.elem (var "x0") i))).lines st) := by
    unfold Stmt.each
    rw [Stmt.lines]
    exact .layout .inline _ (.inr hcopy)
  unfold feedbackBody
  dsimp only
  rw [if_pos h]
  unfold Stmt.block Stmt.block
  rw [Stmt.lines, Stmt.lines]
  exact (hloop.append_right _).append_left _

end Solver

namespace Export

open Integrator Plan

/-! ## Declarations -/

/-- A member stands in the common header in the form that a use asks for. -/
def DeclaredFor (plan : Plan) (types : TypeNames) (q : Struct × String) (u : Use) : Prop :=
  ∃ d ∈ (members plan q.1).filter fun d => !d.isEmpty,
    d.name = q.2 ∧ d.render types = described d.description (u.line types d) ∧
      Occurs (described d.description (u.line types d)) (headerText plan types)

section Declared

variable {plan : Plan} {types : TypeNames} {q : Struct × String} {u : Use}

/-- What is declared stands in the text of the header. -/
theorem occurs_headerText {owner : Struct} {d : Member} (hd : d ∈ (members plan owner).filter fun d => !d.isEmpty) :
    Occurs (d.render types) (headerText plan types) := by
  have hlist : Occurs (d.render types) (Member.renderAll types (members plan owner)) :=
    (Occurs.refl _).intercalate (List.mem_map_of_mem hd) "\n"
  have hne : Member.renderAll types (members plan owner) ≠ "" := by
    intro hempty
    obtain ⟨a, b, h⟩ := hempty ▸ hlist
    have hlength := congrArg String.length h
    have hpos := d.length_render_pos types
    simp only [String.length_append, String.length_empty] at hlength
    omega
  have hstruct : Occurs (d.render types) (structText plan types owner) := by
    unfold structText
    dsimp only
    rw [if_neg (by simpa using hne)]
    exact ((hlist.append_right "\n").append_left _).append_right _
  unfold headerText
  dsimp only
  have hboth : ∀ start : String,
      Occurs (d.render types) (start ++ structText plan types .vars ++ structText plan types .workspace) := by
    intro start
    cases owner with
    | vars => exact (hstruct.append_left _).append_right _
    | workspace => exact hstruct.append_left _
  -- the prototypes, the two globals and the end of the guards stand behind the structs
  iterate 7 apply Occurs.append_right
  exact hboth _

/-- The form depends on the number of elements. -/
theorem declaredFor_iff :
    DeclaredFor plan types q u ↔ Declared plan q ∧ (u = .number ↔ elements plan q.1 q.2 = 1) := by
  constructor
  · rintro ⟨d, hd, hname, hrender, -⟩
    refine ⟨⟨d, hd, hname⟩, ?_⟩
    rw [← hname, elements_of_mem (List.mem_filter.1 hd).1]
    exact (d.render_eq_iff types u).1 hrender
  · rintro ⟨⟨d, hd, hname⟩, hsize⟩
    rw [← hname, elements_of_mem (List.mem_filter.1 hd).1] at hsize
    have hrender := (d.render_eq_iff types u).2 hsize
    refine ⟨d, hd, hname, hrender, ?_⟩
    rw [← hrender]
    exact occurs_headerText hd

/-- A declared array is in the wrong form if it has a single element. -/
theorem declaredFor_array_iff :
    (Declared plan q → DeclaredFor plan types q .array) ↔ elements plan q.1 q.2 ≠ 1 := by
  rw [declaredFor_iff]
  constructor
  · intro h hone
    have hdeclared : Declared plan q := by
      rw [declared_iff, hone]
      exact Nat.one_pos
    exact absurd ((h hdeclared).2.2 hone) (by decide)
  · intro hne hdeclared
    refine ⟨hdeclared, ?_⟩
    simp [hne]

end Declared

/-! ## Single elements -/

section Sizes

variable {p : Problem} {o : Options} {k : Strategy}

theorem two_le_integratedLength (hp : p.Checked) : 2 ≤ (bindingOf p o).integratedLength := by
  have hnx := hp.states
  have hstates : 1 ≤ (bindingOf p o).states := Nat.le_trans hnx (Nat.le_add_right _ _)
  have hrow : 2 ≤ 1 + p.dimensions.nx + p.dimensions.nu := by omega
  exact Nat.mul_le_mul hstates hrow

/-- The arrays of the integrator have more than one element. -/
theorem integrator_arrays (hp : p.Checked) :
    ∀ q ∈ Integrator.referenced (integratorOf p o) (bindingOf p o), q ∉ scalarMembers →
      elements (of p o k) q.1 q.2 ≠ 1 := by
  have hsizes : IntegratorSizes (of p o k) (bindingOf p o) := integratorSizes rfl
  have hlength := two_le_integratedLength (o := o) hp
  have hunknowns : 2 ≤ (integratorOf p o).unknowns (bindingOf p o) := Nat.mul_le_mul (stages_pos o.scheme) hlength
  unfold Integrator.referenced
  rw [List.forall_mem_append]
  refine ⟨?_, ?_⟩
  · simp only [List.forall_mem_cons]
    refine ⟨fun h => absurd (by decide) h, fun _ => ?_, fun _ => ?_, fun q hq => absurd hq List.not_mem_nil⟩
    · rw [elements_of_size? hsizes.point, (bindingOf p o).length_eq]
      omega
    · rw [elements_of_size? hsizes.stages]
      exact Nat.ne_of_gt hunknowns
  · cases hsystem : (integratorOf p o).newtonSystem (bindingOf p o) with
    | none => exact fun q hq => absurd hq List.not_mem_nil
    | some system =>
      obtain ⟨hA, hb, hperm, hjacobian⟩ := hsizes.newton system hsystem
      obtain rfl := newtonSystem_eq_some hsystem
      simp only [Option.isSome_some, if_true, List.forall_mem_cons]
      refine ⟨fun _ => ?_, fun _ => ?_, fun _ => ?_, fun _ => ?_, fun q hq => absurd hq List.not_mem_nil⟩
      · rw [elements_of_size? hA]
        exact Nat.ne_of_gt (Nat.mul_le_mul (Nat.le_of_succ_le hunknowns) hunknowns)
      · rw [elements_of_size? hb]
        exact Nat.ne_of_gt hunknowns
      · rw [elements_of_size? hperm]
        exact Nat.ne_of_gt hunknowns
      · rw [elements_of_size? hjacobian]
        exact Nat.ne_of_gt (Nat.mul_le_mul (Nat.le_of_succ_le hlength) hlength)

/-- One interval does not go with one state or one control. -/
def SingleIntervalFits (p : Problem) : Prop := p.horizon = 1 → p.dimensions.nx ≠ 1 ∧ p.dimensions.nu ≠ 1

/-- One state goes with a free initial state and, where states are eliminated, with controls. -/
def SingleStateFits (p : Problem) (o : Options) (k : Strategy) : Prop :=
  p.dimensions.nx = 1 → o.fixedInitialState = false ∧ (k.layout = .condensed → 0 < p.dimensions.nu)

theorem qpVariables_solverOf :
    (solverOf p o k).qpVariables = match k.layout with
      | .condensed => p.horizon * p.dimensions.nu + if o.fixedInitialState = true then 0 else p.dimensions.nx
      | .block => (p.horizon / o.blockSize + 1) * p.dimensions.nx + p.horizon * p.dimensions.nu
      | .sparse => (p.horizon + 1) * p.dimensions.nx + p.horizon * p.dimensions.nu := rfl

theorem qpVariables_ne_one (hp : p.Checked) (hcheck : solverCheck p o k = .ok ()) (hintervals : SingleIntervalFits p)
    (hstates : SingleStateFits p o k) : (solverOf p o k).qpVariables ≠ 1 := by
  have hN := hp.horizon
  have hnx := hp.states
  intro hone
  rw [qpVariables_solverOf] at hone
  cases hlayout : k.layout with
  | condensed =>
    rw [hlayout] at hone
    dsimp only at hone
    by_cases hfixed : o.fixedInitialState = true
    · rw [if_pos hfixed, Nat.add_zero] at hone
      exact (hintervals (Nat.eq_one_of_mul_eq_one_right hone)).2 (Nat.eq_one_of_mul_eq_one_left hone)
    · rw [if_neg hfixed] at hone
      have hzero : p.horizon * p.dimensions.nu = 0 := by omega
      have hnu := (hstates (by omega)).2 hlayout
      have := Nat.mul_pos hN hnu
      omega
  | block =>
    rw [hlayout] at hone
    dsimp only at hone
    obtain ⟨hsize, hdvd⟩ := blocks_of_solverCheck hcheck hlayout
    have hcount : 0 < p.horizon / o.blockSize := Nat.div_pos (Nat.le_of_dvd hN hdvd) hsize
    have : 2 * 1 ≤ (p.horizon / o.blockSize + 1) * p.dimensions.nx := Nat.mul_le_mul (by omega) hnx
    omega
  | sparse =>
    rw [hlayout] at hone
    dsimp only at hone
    have : 2 * 1 ≤ (p.horizon + 1) * p.dimensions.nx := Nat.mul_le_mul (by omega) hnx
    omega

/-- The arrays of the solver have no or more than one element. -/
theorem solver_arrays (hp : p.Checked) (hcheck : solverCheck p o k = .ok ()) (hintervals : SingleIntervalFits p)
    (hstates : SingleStateFits p o k) :
    ∀ q ∈ Solver.referenced (solverOf p o k), q ∉ scalarMembers → elements (of p o k) q.1 q.2 ≠ 1 := by
  have hsizes := solverSizes (of p o k)
  have hN := hp.horizon
  have hnx := hp.states
  have hlength := two_le_integratedLength (o := o) hp
  have hqp := qpVariables_ne_one hp hcheck hintervals hstates
  have hnodes : ∀ n, (p.horizon + 1) * n ≠ 1 := by
    intro n h
    have := Nat.eq_one_of_mul_eq_one_right h
    omega
  unfold Solver.referenced Solver.alwaysReferenced
  simp only [List.forall_mem_append, List.forall_mem_cons]
  refine ⟨⟨⟨fun _ => ?_, fun _ => ?_, fun _ => ?_, fun _ => ?_, fun _ => ?_, fun _ => ?_, fun _ => ?_, fun _ => ?_,
    fun _ => ?_, fun h => absurd (by decide) h, fun q hq => absurd hq List.not_mem_nil⟩, ?_⟩, ?_⟩
  · rw [elements_of_size? hsizes.state]
    change (bindingOf p o).length ≠ 1
    rw [(bindingOf p o).length_eq]
    omega
  · rw [elements_of_size? hsizes.x]
    exact hnodes _
  · rw [elements_of_size? hsizes.u]
    intro hone
    exact (hintervals (Nat.eq_one_of_mul_eq_one_right hone)).2 (Nat.eq_one_of_mul_eq_one_left hone)
  · rw [elements_of_size? hsizes.d]
    intro hone
    exact (hintervals (Nat.eq_one_of_mul_eq_one_right hone)).1 (Nat.eq_one_of_mul_eq_one_left hone)
  · rw [elements_of_size? hsizes.evGx]
    intro hone
    have hrows := Nat.eq_one_of_mul_eq_one_right hone
    exact (hintervals (Nat.eq_one_of_mul_eq_one_right hrows)).1 (Nat.eq_one_of_mul_eq_one_left hone)
  · rw [elements_of_size? hsizes.evGu]
    intro hone
    have hrows := Nat.eq_one_of_mul_eq_one_right hone
    exact (hintervals (Nat.eq_one_of_mul_eq_one_right hrows)).2 (Nat.eq_one_of_mul_eq_one_left hone)
  · rw [elements_of_size? hsizes.H]
    intro hone
    exact hqp (Nat.eq_one_of_mul_eq_one_right hone)
  · rw [elements_of_size? hsizes.g]
    exact hqp
  · rw [elements_of_size? hsizes.dz]
    exact hqp
  · split
    · rw [List.forall_mem_singleton, elements_of_size? hsizes.od]
      exact fun _ => hnodes _
    · exact fun q hq => absurd hq List.not_mem_nil
  · split
    · rename_i hfixed
      rw [List.forall_mem_singleton, elements_of_size? (hsizes.x0 hfixed)]
      intro _ hone
      exact absurd hfixed (by rw [Bool.not_eq_true]; exact (hstates hone).1)
    · exact fun q hq => absurd hq List.not_mem_nil

theorem wellUsed_generated : ∀ f ∈ generated p o k, WellUsed f.body := by
  intro f hf
  rcases List.mem_append.1 hf with hf | hf
  · obtain ⟨system, -, rfl | rfl⟩ := mem_functions_start hf
    · exact .of_all rfl
    · exact .of_all rfl
  · rcases List.mem_cons.1 hf with rfl | hf
    · exact wellUsed_function _ _
    · exact Solver.wellUsed_functions _ _ f hf

/-- The arrays of the generated functions have more than one element or none if and only if the dimensions suffice. -/
theorem arrays_iff (hp : p.Checked) (hcheck : solverCheck p o k = .ok ()) :
    (∀ f ∈ generated p o k, ∀ q, (q, Use.array) ∈ f.body.uses → elements (of p o k) q.1 q.2 ≠ 1) ↔
      SingleIntervalFits p ∧ SingleStateFits p o k := by
  constructor
  · intro hall
    have hsizes := solverSizes (of p o k)
    have hsolver : ∀ f ∈ (solverOf p o k).functions (linkOf p o), ∀ q, (q, Use.array) ∈ f.body.uses →
        elements (of p o k) q.1 q.2 ≠ 1 := by
      intro f hf
      exact hall f (List.mem_append_right _ (List.mem_cons_of_mem _ hf))
    have hsimulation := hsolver ⟨(solverOf p o k).simulationPrototype, Solver.simulationBody (solverOf p o k) (linkOf p o)⟩
      (by simp [Solver.functions])
    have hobjective := hsolver ⟨(solverOf p o k).objectivePrototype, Solver.objectiveBody (solverOf p o k)⟩
      (by simp [Solver.functions])
    have hfeedback := hsolver ⟨(solverOf p o k).feedbackPrototype, Solver.feedbackBody (solverOf p o k)⟩
      (by simp [Solver.functions])
    have harrays := Solver.arrays_subset_simulationBody (solverOf p o k) (linkOf p o)
    refine ⟨?_, ?_⟩
    · intro hN
      refine ⟨?_, ?_⟩
      · intro hnx
        refine hsimulation (.workspace, "d") (harrays (by simp)) ?_
        rw [elements_of_size? hsizes.d]
        change p.horizon * p.dimensions.nx = 1
        rw [hN, hnx]
      · intro hnu
        refine hsimulation (.vars, "u") (harrays (by simp)) ?_
        rw [elements_of_size? hsizes.u]
        change p.horizon * p.dimensions.nu = 1
        rw [hN, hnu]
    · intro hnx
      have hfree : o.fixedInitialState = false := by
        by_contra hfixed
        rw [Bool.not_eq_false] at hfixed
        refine hfeedback (.vars, "x0") (Solver.initialState_mem_feedbackBody _ hfixed) ?_
        rw [elements_of_size? (hsizes.x0 hfixed)]
        exact hnx
      refine ⟨hfree, ?_⟩
      intro hlayout
      by_contra hnu
      refine hobjective (.workspace, "g") (of_decide_eq_true rfl) ?_
      rw [elements_of_size? hsizes.g]
      change (solverOf p o k).qpVariables = 1
      have hnone : p.dimensions.nu = 0 := by omega
      rw [qpVariables_solverOf, hlayout, hfree, hnone, hnx]
      rfl
  · rintro ⟨hintervals, hstates⟩ f hf q hq
    have hscalar : q ∉ scalarMembers := by
      intro hmem
      have hnumber : Use.array = .number := (wellUsed_generated f hf _ hq).2 hmem
      cases hnumber
    have hmember : q ∈ f.body.members := by
      rw [← Stmt.map_fst_uses]
      exact List.mem_map_of_mem hq
    rcases referenced_of_generated hf hmember with hmem | hmem
    · exact integrator_arrays hp q hmem hscalar
    · exact solver_arrays hp hcheck hintervals hstates q hmem hscalar

end Sizes

/-! ## The two forms -/

section Session

variable {p : Problem} {o : Options}

theorem scalar_declared {k : Strategy} (types : TypeNames) {q : Struct × String} (hq : q ∈ scalarMembers) :
    DeclaredFor (of p o k) types q .number := by
  have hinteg : IntegratorSizes (of p o k) (bindingOf p o) := integratorSizes rfl
  have hsolver := solverSizes (of p o k)
  have hone : elements (of p o k) q.1 q.2 = 1 := by
    rcases List.mem_pair.1 hq with rfl | rfl
    · exact elements_of_size? hinteg.time
    · exact elements_of_size? hsolver.objValue
  rw [declaredFor_iff, declared_iff, hone]
  exact ⟨Nat.one_pos, by simp⟩

/-- What the generated functions use as a number is declared as a scalar. What they use as an array is declared as an
array, where it is declared, if and only if the dimensions suffice. -/
theorem shapes_agree_iff (types : TypeNames) (hcheck : p.check = .ok ()) {s : Session} {plan : Plan}
    (hsetup : Session.setup { problem := p, options := o } = .ok (s, plan)) :
    ∃ fs, functions plan = .ok fs ∧
      (∀ f ∈ fs, ∀ q, (q, Use.number) ∈ f.body.uses → DeclaredFor plan types q .number) ∧
      ((∀ f ∈ fs, ∀ q, (q, Use.array) ∈ f.body.uses → Declared plan q → DeclaredFor plan types q .array) ↔
        SingleIntervalFits p ∧ SingleStateFits p o plan.solver.strategy) := by
  obtain ⟨k, rfl, -, -, -, hsolver⟩ := Plan.resolve_ok (Session.setup_ok hsetup)
  refine ⟨generated p o k, functions_of, ?_, ?_⟩
  · intro f hf q hq
    exact scalar_declared types ((wellUsed_generated f hf _ hq).1 rfl)
  · simp only [declaredFor_array_iff]
    exact arrays_iff (Problem.check_ok hcheck) hsolver

theorem shapes_agree_iff_smallProblem :
    ∃ s plan fs, smallProblem.check = .ok () ∧
      Session.setup { problem := smallProblem, options := {} } = .ok (s, plan) ∧ functions plan = .ok fs ∧
      ∀ f ∈ fs, ∀ q, (q, Use.array) ∈ f.body.uses → Declared plan q → DeclaredFor plan {} q .array := by
  have hcheck : smallProblem.check = .ok () := by rfl
  have hsetup : ∃ s plan, Session.setup { problem := smallProblem, options := {} } = .ok (s, plan) := ⟨_, _, by rfl⟩
  obtain ⟨s, plan, hsetup⟩ := hsetup
  obtain ⟨fs, hfs, -, harrays⟩ := shapes_agree_iff {} hcheck hsetup
  refine ⟨s, plan, fs, hcheck, hsetup, hfs, harrays.2 ⟨?_, ?_⟩⟩
  · intro hN
    cases hN
  · intro hnx
    cases hnx

/-- One state and one control over two intervals. -/
def singleStateProblem : Problem where
  horizon := 2
  dimensions := { nx := 1, nu := 1 }
  objective := { leastSquares := some { ny := 1 } }

/-- The text of the solver has a subscript behind the initial state, and the header declares it as a scalar. -/
theorem subscripted_scalar_singleStateProblem :
    ∃ s plan items, singleStateProblem.check = .ok () ∧
      Session.setup { problem := singleStateProblem, options := {} } = .ok (s, plan) ∧
      plan.solver.items = .ok items ∧
      (∀ st : Style, OccursIn (st.memberText (.vars, "x0") ++ "[i]") (items.flatMap (Item.lines st))) ∧
      Occurs "/** Current state feedback */\nreal_t x0;" (headerText plan {}) ∧
      Declared plan (.vars, "x0") ∧ ¬DeclaredFor plan {} (.vars, "x0") .array := by
  have hcheck : singleStateProblem.check = .ok () := by rfl
  have hsetup : ∃ s plan, Session.setup { problem := singleStateProblem, options := {} } = .ok (s, plan) :=
    ⟨_, _, by rfl⟩
  obtain ⟨s, plan, hsetup⟩ := hsetup
  obtain ⟨k, rfl, -⟩ := Plan.resolve_ok (Session.setup_ok hsetup)
  have hone : elements (of singleStateProblem {} k) .vars "x0" = 1 :=
    elements_of_size? ((solverSizes (of singleStateProblem {} k)).x0 rfl)
  have hdeclared : Declared (of singleStateProblem {} k) (.vars, "x0") := by
    rw [declared_iff, hone]
    exact Nat.one_pos
  refine ⟨s, _, _, hcheck, hsetup, rfl, ?_, ?_, hdeclared, ?_⟩
  · intro st
    let solver := solverOf singleStateProblem {} k
    let feedback : Function := ⟨solver.feedbackPrototype, solver.feedbackBody⟩
    have hfeedback : feedback ∈ Item.functions ([.comment s!"Solver strategy: {k.display}", .blank] ++
        (solver.functions (linkOf singleStateProblem {})).map .function) := by
      refine List.mem_filterMap.2 ⟨.function feedback, ?_, rfl⟩
      exact List.mem_append_right _ (List.mem_map_of_mem (by simp [Solver.functions, feedback]))
    have hcopy : OccursIn (st.memberText (.vars, "x0") ++ "[i]") (feedback.body.lines st) :=
      solver.occursIn_feedbackBody rfl st
    exact .of_body hfeedback hcopy
  · let d : Member := ⟨"x0", .real, 1, 1, .vars, some "Current state feedback"⟩
    have hd : d ∈ (members (of singleStateProblem {} k) .vars).filter fun d => !d.isEmpty := by
      refine List.mem_filter.2 ⟨List.mem_append_right _ ?_, rfl⟩
      unfold Solver.members Solver.variableMembers
      -- four conditional parts stand behind that of the initial state
      iterate 4 apply List.mem_append_left
      apply List.mem_append_right
      have hfixed : (solverOf singleStateProblem {} k).fixedInitialState = true := rfl
      change d ∈ if (solverOf singleStateProblem {} k).fixedInitialState = true then [d] else []
      rw [if_pos hfixed]
      exact List.mem_singleton_self d
    exact occurs_headerText hd
  · intro h
    have hne := declaredFor_array_iff.1 fun _ => h
    exact hne hone

end Session

end Export

end ControlCodegen
