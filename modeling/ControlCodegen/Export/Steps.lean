import ControlCodegen.C.SourceFile
import ControlCodegen.Export.Artifact
import ControlCodegen.Export.Header
import ControlCodegen.Export.Regularization
import ControlCodegen.Export.Simulink
import ControlCodegen.Integrator.Program
import ControlCodegen.Solver.Program

/-!
# `Export.Steps`: what an export produces

The steps of an export follow from the plan, the options and the target; no file is looked at. A `Draft` is a file with
its contents, or with the reason why it cannot have any. `steps` lists everything in the order of production.
-/

namespace ControlCodegen.Export

set_option autoImplicit false

/-- Where the files go, and how they spell numbers. -/
structure Target where
  dir : Files.Path
  types : C.TypeNames := {}
  /-- Significant digits of constants. -/
  precision : Nat := 16

/-- A file before it is written. -/
structure Draft where
  path : Files.Path
  text : Except Cause String

/-- A step of an export. -/
inductive Step where
  /-- Writes files of one kind in order, then records them. A file that cannot be written is reported under the name to
  blame. -/
  | produce (kind : ArtifactKind) (blame : String) (drafts : List Draft)
  /-- Something is left out. -/
  | warn (text : String)

/-- Produces one file, which is blamed itself. -/
def Step.single (kind : ArtifactKind) (path : Files.Path) (text : Except Cause String) : Step :=
  .produce kind path.shownName [⟨path, text⟩]

section

variable (plan : Plan) (o : Options) (target : Target)

def place (name : String) : Files.Path := target.dir.join name

/-- A file that is filled in with the values of the module only. -/
def copyStep (kind : ArtifactKind) (name : String) (template : Template) (token : String) : Step :=
  .single kind (place target name) (template.render token true o.moduleName.substitutions)

def headerStep : Step :=
  .single .commonHeader (place target o.moduleName.commonHeader) (.ok (headerText plan target.types))

def sourceStep (kind : ArtifactKind) (role : String) (items : Except Cause (List C.Item)) : Step :=
  let path := place target (o.moduleName.fileName role "c")
  let file : C.SourceFile :=
    { path, header := o.moduleName.commonHeader, types := target.types, precision := target.precision }
  .single kind path (items.map fun is => (file.add (fun s => s.instanceName o.moduleName) is).contents)

/-- The auxiliary functions; the source is blamed for both files. -/
def auxiliaryStep : Step :=
  let name := o.moduleName.fileName "auxiliary_functions"
  let draft (ext : String) (t : Template) : Draft :=
    ⟨place target (name ext), t.render "" true o.moduleName.substitutions⟩
  .produce .auxiliaryFunctions (name "c") [draft "h" .auxiliaryHeader, draft "c" .auxiliarySource]

def makefileTemplate : Template :=
  match o.qpSolver, decide (o.hessian = .exact) with
  | .qpOases, true => .makefileExactQpOases
  | .qpOases, false => .makefileQpOases
  | .forces, _ => .makefileForces
  | .qpDunes, true => .makefileExactQpDunes
  | .qpDunes, false => .makefileQpDunes
  | .hpmpc, _ => .makefileHpmpc

/-- The build script of the MATLAB interface, where there is one for the backend. -/
def mexTemplate : Option Template :=
  let exact := decide (o.hessian = .exact)
  match o.qpSolver with
  | .qpOases => some (if exact then .mexExactQpOases else .mexQpOases)
  | .forces => some .mexForces
  | .qpDunes =>
    some (if exact then .mexExactQpDunes
      else if o.qpMethod = .blockCondensingN2 then .mexBlockQpDunes else .mexQpDunes)
  | .hpmpc => none

def mexSteps : List Step :=
  let name := o.moduleName.fileName "solver_mex" "c"
  if !o.hardcodedConstraints then [.single .mexInterface (place target name) (.error .matlabConstraints)]
  else
    [copyStep o target .mexInterface name (if o.hessian = .exact then .mexExactWrapper else .mexWrapper) "",
      match mexTemplate o with
      | some t => copyStep o target .mexInterface s!"make_{o.moduleName}_solver.m" t "%"
      | none =>
        .warn (s!"MEX build script is not available for {o.qpSolver.display}; " ++
          "the wrapper source was exported without it")]

/-- The Simulink interface; the source of the S-function is blamed for all its files. -/
def simulinkStep : Step :=
  if !o.qpSolver.hasSFunction then
    .warn ("The Simulink interface is available only with qpOASES and qpDUNES based solvers, " ++
      s!"skipped for {o.qpSolver.display}")
  else
    .produce .simulinkInterface (o.moduleName.fileName "solver_sfunction" "c")
      ((simulinkFiles plan.constants.moduleName).map fun f =>
        ⟨place target f.name, do f.template.render f.token true (← simulinkSubstitutions plan.constants)⟩)

/-- The regularization of blocks of states and controls. -/
def regularizationStep : Step :=
  let r : Regularization :=
    { moduleName := o.moduleName, dim := plan.constants.dims.nx + plan.constants.dims.nu }
  .single .regularization (place target r.fileName) r.text

def steps : List Step :=
  [headerStep plan o target,
    sourceStep o target .integratorSource "integrator" plan.integrator.items,
    sourceStep o target .solverSource "solver" plan.solver.items,
    auxiliaryStep o target] ++
  (if o.makefile then [copyStep o target .makefile "Makefile" (makefileTemplate o) "#"] else []) ++
  (if o.testFile then [copyStep o target .testFile "test.c" .testProgram ""] else []) ++
  (if o.matlabInterface then mexSteps o target else []) ++
  (if o.simulinkInterface then [simulinkStep plan o target] else []) ++
  (if o.hessian = .exact then [regularizationStep plan o target] else [])

end

end ControlCodegen.Export
