import ControlCodegen.Proofs.Export.Mentions
import ControlCodegen.Proofs.Plan.Domain

/-!
# `Export.ExactHessian`: what is written for exact Hessians

* `fillLine_pieces`, `occurs_render` : a line of a template that is filled in, and lines of a rendered file.
* `writes_regularization` : the file of the regularization, and the function that it defines.
* `regularization_declared_iff` : the header declares this function for strategies with the exact Hessian only.
* `ExactArtifacts`, `exact_artifacts_iff` : what is written for exact Hessians is declared if and only if the strategy
  uses them.

The options choose the MEX wrapper and whether the regularization is written; the strategy chooses what is declared.
-/

namespace ControlCodegen

open C C.Preprocessor Integrator Plan Template Text

set_option autoImplicit false

namespace Template

variable {t : Template} {subs : Substitutions}

/-- A line with one place. -/
theorem fillLine_pieces {line : String} {a b : List Char} {name value : String}
    (hline : pieces placeholder line.toList = a.map .literal ++ .word name :: b.map .literal)
    (hvalue : subs.value? name = some value) :
    fillLine subs line = String.ofList a ++ value ++ String.ofList b := by
  have hliterals : ∀ cs : List Char, (cs.map Piece.literal).flatMap (fun a => (fillPiece subs a).toList) = cs := by
    intro cs
    have hsingle : ∀ c : Char, (fillPiece subs (.literal c)).toList = [c] := fun c => String.toList_singleton c
    rw [List.flatMap_map]
    simp only [hsingle]
    exact List.flatMap_singleton' cs
  have hfill : (fillPiece subs (.word name)).toList = value.toList := by
    change ((subs.value? name).getD _).toList = _
    rw [hvalue]
    rfl
  rw [← String.toList_inj, fillLine, toList_join, List.flatMap_map, hline, List.flatMap_append, List.flatMap_cons,
    hliterals, hliterals, hfill, String.toList_append, String.toList_append, String.toList_ofList, String.toList_ofList,
    List.append_assoc]

/-- Lines of a template stand in its file. -/
theorem occurs_render {text token : String} (h : t.render token true subs = .ok text) {before ls after : List String}
    (hlines : t.lines = before ++ ls ++ after) (hkept : ∀ l ∈ ls, isNote l = false) :
    Occurs (unlines (ls.map (fillLine subs))) text := by
  have hall : ls.filter (!isNote ·) = ls := List.filter_eq_self.2 fun l hl => by rw [hkept l hl]; rfl
  unfold render at h
  dsimp only at h
  split at h
  · obtain rfl := Except.ok.inj h
    refine Occurs.append_left ?_ _
    unfold keptLines unlines
    rw [if_pos rfl, hlines, List.filter_append, List.filter_append, hall, List.map_append, List.map_append,
      List.map_append, List.map_append, String.join_append, String.join_append]
    exact ((Occurs.refl _).append_left _).append_right _
  · cases h

end Template

namespace Export

/-! ## The regularization -/

section

variable {plan : Plan} {o : Options} {target : Target} {path : Files.Path} {text : String}

/-- What stands at the beginning of the function in the file of the regularization. -/
def regularizeLines (m : ModuleName) : String :=
  unlines [s!"void {m}_regularize( real_t* const hessian_block )", "\x7b"]

theorem occurs_regularize {m : ModuleName} {subs : Substitutions} (hname : subs.value? "MODULE_NAME" = some m.text)
    (htext : Template.regularization.render "" true subs = .ok text) : Occurs (regularizeLines m) text := by
  have hlines : Template.regularization.lines = regularizationLines.take 65 ++
      ["void @MODULE_NAME@_regularize( real_t* const hessian_block )", "\x7b"] ++ regularizationLines.drop 67 := rfl
  have hkept : ∀ l ∈ ["void @MODULE_NAME@_regularize( real_t* const hessian_block )", "\x7b"], isNote l = false := by
    decide
  have hpieces : pieces placeholder "void @MODULE_NAME@_regularize( real_t* const hessian_block )".toList =
      "void ".toList.map .literal ++ .word "MODULE_NAME" ::
        "_regularize( real_t* const hessian_block )".toList.map .literal := by decide +kernel
  have hbrace : fillLine subs "\x7b" = "\x7b" := by
    have hliteral : pieces placeholder "\x7b".toList = [.literal '\x7b'] := by decide +kernel
    rw [fillLine, hliteral]
    rfl
  have hoccurs := occurs_render htext hlines hkept
  rw [List.map_cons, List.map_singleton, fillLine_pieces hpieces hname, hbrace, String.ofList_toList,
    String.ofList_toList] at hoccurs
  exact hoccurs

/-- The values for the regularization, where there are any. -/
theorem value?_regularization {r : Regularization} {subs : Substitutions} (h : r.substitutions = .ok subs) :
    subs.value? "MODULE_NAME" = some r.moduleName.text := by
  unfold Regularization.substitutions at h
  obtain ⟨-, h⟩ := Problem.guard_ok h
  obtain ⟨-, h⟩ := Problem.guard_ok h
  obtain rfl := Except.ok.inj h
  rfl

/-- The file of the regularization is written for exact Hessians, and defines the function. -/
theorem writes_regularization (h : Writes plan o target .regularization path text) :
    o.hessian = .exact ∧ path = place target (o.moduleName.fileName "hessian_regularization" "c") ∧
      Occurs (regularizeLines o.moduleName) text := by
  obtain ⟨blame, drafts, hstep, hdraft⟩ := h
  obtain ⟨hexact, hstep⟩ : o.hessian = .exact ∧ _ := isStepOf_of_mem hstep
  obtain ⟨-, rfl, htext⟩ := produce_eq_single hstep hdraft
  obtain ⟨subs, hsubs, htext⟩ := Plan.bind_eq_ok htext
  exact ⟨hexact, rfl, occurs_regularize (value?_regularization hsubs) htext⟩

end

section

variable (p : Problem) (o : Options) (k : Strategy) (g : Integrator)

/-- No generated function has the name of the regularization. -/
theorem notMem_names_regularize :
    s!"{o.moduleName}_regularize" ∉ Item.names (integratorItems p o g) ++ Item.names (solverItems p o k g) := by
  have hsuffix : s!"{o.moduleName}_regularize" = (solverWith p o k (linkTo p o g)).functionName "regularize" :=
    (name_regularizePrototype (solverWith p o k (linkTo p o g))).symm
  rw [List.mem_append, not_or]
  constructor
  · intro h
    have hending : ending s!"{o.moduleName}_regularize" = ['e', 'z'] :=
      ending_append o.moduleName.text (t := "_regularize") (by decide)
    have hmem := (endings_integratorItems p o g).subset (List.mem_map_of_mem h)
    rw [hending] at hmem
    exact absurd hmem (by decide)
  · unfold Item.names
    rw [hsuffix, functions_solverItems]
    exact notMem_solver _ _ (by decide)

/-- The header declares the regularization if and only if the strategy uses the exact Hessian. -/
theorem regularization_declared_iff :
    suppliedRegularization s!"{o.moduleName}_regularize" ∈ (prototypes (assemble p o k g)).map Prototype.bare ↔
      k.usesExactHessian = true := by
  rw [(perm_prototypes p o k g).mem_iff, List.mem_append]
  have hgenerated : suppliedRegularization s!"{o.moduleName}_regularize" ∉
      (Item.functions (integratorItems p o g) ++ Item.functions (solverItems p o k g)).map fun f => f.prototype.bare := by
    intro h
    obtain ⟨f, hf, hbare⟩ := List.mem_map.1 h
    refine notMem_names_regularize p o k g ?_
    have hname : f.prototype.name = s!"{o.moduleName}_regularize" := congrArg Prototype.name hbare
    rw [← hname]
    unfold Item.names
    rw [← List.map_append]
    exact List.mem_map_of_mem hf
  rw [or_iff_right hgenerated]
  unfold supplied
  constructor
  · intro h
    by_contra hexact
    obtain ⟨f, hf, hbare⟩ := List.mem_map.1 h
    -- The others have no argument or two.
    have hothers : f.params.length ≠ 1 := by
      have hkernel : ¬(assemble p o k g).solver.strategy.usesExactHessian = true := hexact
      rw [if_neg hkernel, List.append_nil] at hf
      simp only [List.mem_append, List.mem_ite_nil_right, List.mem_singleton] at hf
      rcases hf with (rfl | ⟨-, rfl⟩) | rfl
      · exact Nat.succ_succ_ne_one 0
      · exact Nat.succ_succ_ne_one 0
      · exact Nat.zero_ne_one
    exact hothers (congrArg (fun f => f.params.length) hbare)
  · intro hexact
    have hkernel : (assemble p o k g).solver.strategy.usesExactHessian = true := hexact
    rw [if_pos hkernel, List.map_append]
    exact List.mem_append_right _ (List.mem_singleton_self _)

end

/-! ## What is written for exact Hessians -/

/-- The common header declares the variable that the exact MEX wrapper copies from and to, and the function that the file
of the regularization defines. -/
structure ExactArtifacts (plan : Plan) (o : Options) (target : Target) : Prop where
  multipliers : ∀ path text, IsSource path → Writes plan o target .mexInterface path text →
    ∃ source, Source.read text.toList = some source ∧
      ∀ macros, Refers macros source o.moduleName "mu" → Declared plan (.vars, "mu")
  regularization : ∀ path text, Writes plan o target .regularization path text →
    Occurs (regularizeLines o.moduleName) text ∧
      suppliedRegularization s!"{o.moduleName}_regularize" ∈ (prototypes plan).map Prototype.bare

section

variable {p : Problem} {o : Options} {plan : Plan} {target : Target}

/-- The exact MEX wrapper refers to the multipliers, the other one does not. -/
theorem mention_mu_iff {v : String → List Char} {macros : Macros} {t : Template}
    (ht : t = if o.hessian = .exact then .mexExactWrapper else .mexWrapper) :
    (∃ y ∈ t.mentions, IsLive v macros y ∧ y.item = "mu".toList) ↔ o.hessian = .exact := by
  by_cases hexact : o.hessian = .exact
  · rw [if_pos hexact] at ht
    subst ht
    refine iff_of_true ⟨⟨[], "mu".toList⟩, ?_, isLive_always.2 trivial, rfl⟩ hexact
    decide
  · rw [if_neg hexact] at ht
    subst ht
    have hnone : ∀ y ∈ mentions .mexWrapper, y.item ≠ "mu".toList := by decide
    exact iff_of_false (fun ⟨y, hy, _, hitem⟩ => hnone y hy hitem) hexact

theorem horizon_pos_of_resolve {r : Registry} (hresolve : resolve p o r = .ok plan) : 0 < p.horizon := by
  obtain ⟨g, -, -, -, -, hmodel, -⟩ := resolve_assemble hresolve
  unfold Integrator.checkModel at hmodel
  exact Nat.pos_of_ne_zero (Problem.guard_ok hmodel).1

/-- What is written for exact Hessians is declared if and only if the strategy uses them. The exact MEX wrapper needs states,
too. -/
theorem exact_artifacts_iff {r : Registry} (hresolve : resolve p o r = .ok plan) (target : Target) :
    ExactArtifacts plan o target ↔
      (o.hessian = .exact → o.matlabInterface = true → o.hardcodedConstraints = true →
        plan.solver.strategy.usesExactHessian = true ∧ 0 < p.dimensions.nx) ∧
      ((∃ path text, Writes plan o target .regularization path text) →
        plan.solver.strategy.usesExactHessian = true) := by
  have hhorizon := horizon_pos_of_resolve hresolve
  obtain ⟨g, k, -, rfl, -⟩ := resolve_assemble hresolve
  have hmu : Declared (assemble p o k g) (.vars, "mu") ↔ k.usesExactHessian = true ∧ 0 < p.dimensions.nx := by
    rw [declared_mu_iff]
    exact and_congr_right fun _ => Nat.mul_pos_iff_of_pos_left hhorizon
  constructor
  · rintro ⟨hmultipliers, hregularization⟩
    refine ⟨fun hexact hmatlab hconstraints => ?_, fun ⟨path, text, hwrites⟩ => ?_⟩
    · have hcopied : Copied (assemble p o k g) o .mexInterface _ _ _ := .mexWrapper hmatlab hconstraints
      have hfills := fills_of_copied rfl hcopied
      obtain ⟨text, htext⟩ := hfills.exists_render
      obtain ⟨source, hread, hdeclared⟩ := hmultipliers _ text (isSource_place _ _) (writes_of_copied hcopied htext)
      obtain ⟨source', hdigest, hread'⟩ := hfills.read htext
      obtain rfl := Option.some.inj (hread.symm.trans hread')
      refine hmu.1 (hdeclared (fun _ => none) ?_)
      exact (refers_iff hdigest.mentions hfills.moduleName).2 ((mention_mu_iff rfl).2 hexact)
    · exact (regularization_declared_iff p o k g).1 (hregularization path text hwrites).2
  · rintro ⟨hmultipliers, hregularization⟩
    refine ⟨fun path text hpath hwrites => ?_, fun path text hwrites => ?_⟩
    · obtain ⟨name, t, subs, hcopied, rfl, htext⟩ := copied_of_writes (by decide) (.inr hpath) hwrites
      have hfills := fills_of_copied rfl hcopied
      obtain ⟨source, hdigest, hread⟩ := hfills.read htext
      refine ⟨_, hread, fun macros hrefers => ?_⟩
      have hmention := (refers_iff hdigest.mentions hfills.moduleName).1 hrefers
      cases hcopied with
      | mexWrapper hmatlab hconstraints =>
        exact hmu.2 (hmultipliers ((mention_mu_iff rfl).1 hmention) hmatlab hconstraints)
    · obtain ⟨-, -, hoccurs⟩ := writes_regularization hwrites
      exact ⟨hoccurs, (regularization_declared_iff p o k g).2 (hregularization ⟨path, text, hwrites⟩)⟩

end

/-- The rows of the decision table that take the exact Hessian into account. -/
theorem usesExactHessian_iff {b : QpSolver} {m : QpMethod} {k : Strategy} (h : Selects b m .exact k) :
    k.usesExactHessian = true ↔
      b = .qpOases ∧ (m = .fullCondensingN2 ∨ m = .condensingN2) ∨ b = .qpDunes ∧ m = .sparseSolver := by
  cases h <;> simp_all [Strategy.usesExactHessian]

/-- The exact Hessian with a MEX wrapper, for a method that takes it into account. -/
def exactMexOptions : Options where
  hessian := .exact
  matlabInterface := true

theorem exact_artifacts_iff_smallProblem :
    ∃ plan, resolve smallProblem exactMexOptions .builtin = .ok plan ∧
      ExactArtifacts plan exactMexOptions ⟨⟨"out"⟩, {}, 16⟩ := by
  have hresolve : resolve smallProblem exactMexOptions .builtin = .ok (of smallProblem exactMexOptions .exactHessianN2) := by
    rfl
  exact ⟨_, hresolve, (exact_artifacts_iff hresolve _).2 ⟨fun _ _ _ => ⟨rfl, by decide⟩, fun _ => rfl⟩⟩

/-- The same for a method that does not. -/
def condensedMexOptions : Options :=
  { exactMexOptions with qpMethod := .fullCondensing }

/-- The exact MEX wrapper refers to multipliers, and neither they nor the regularization are declared. -/
theorem undeclared_multipliers_smallProblem :
    ∃ plan text source, resolve smallProblem condensedMexOptions .builtin = .ok plan ∧
      Writes plan condensedMexOptions ⟨⟨"out"⟩, {}, 16⟩ .mexInterface ⟨"out/acado_solver_mex.c"⟩ text ∧
      Source.read text.toList = some source ∧ (∀ macros, Refers macros source .standard "mu") ∧
      ¬Declared plan (.vars, "mu") ∧
      suppliedRegularization "acado_regularize" ∉ (prototypes plan).map Prototype.bare := by
  have hresolve : resolve smallProblem condensedMexOptions .builtin =
      .ok (of smallProblem condensedMexOptions .condensedGaussNewton) := by rfl
  have hcopied : Copied (of smallProblem condensedMexOptions .condensedGaussNewton) condensedMexOptions .mexInterface
    "acado_solver_mex.c" .mexExactWrapper ModuleName.standard.substitutions := .mexWrapper rfl rfl
  have hfills := fills_of_copied rfl hcopied
  obtain ⟨text, htext⟩ := hfills.exists_render
  obtain ⟨source, hdigest, hread⟩ := hfills.read htext
  refine ⟨_, text, _, hresolve, writes_of_copied hcopied htext, hread, fun macros => ?_, ?_, ?_⟩
  · exact (refers_iff hdigest.mentions hfills.moduleName).2 ((mention_mu_iff (o := condensedMexOptions) rfl).2 rfl)
  · rw [declared_mu_iff]
    exact fun h => Bool.false_ne_true h.1
  · intro h
    exact Bool.false_ne_true ((regularization_declared_iff smallProblem condensedMexOptions .condensedGaussNewton
      (unboundOf condensedMexOptions)).1 h)

end Export

end ControlCodegen
