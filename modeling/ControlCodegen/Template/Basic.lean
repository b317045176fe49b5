import ControlCodegen.Options.Choice
import ControlCodegen.Template.Auxiliary
import ControlCodegen.Template.Makefile
import ControlCodegen.Template.MexScript
import ControlCodegen.Template.MexWrapper
import ControlCodegen.Template.Regularization
import ControlCodegen.Template.SFunction
import ControlCodegen.Template.TestProgram

/-!
# `Template`: the files that are filled in

Each template has a name and its lines. A line that starts with `@@` is a note to the author, and `@NAME@` stands for a
value that is filled in.
-/

namespace ControlCodegen

set_option autoImplicit false

/-- A file with places to fill in. -/
inductive Template where
  | makefileQpOases
  | makefileExactQpOases
  | makefileQpDunes
  | makefileExactQpDunes
  | makefileForces
  | makefileHpmpc
  | testProgram
  | auxiliaryHeader
  | auxiliarySource
  | mexWrapper
  | mexExactWrapper
  | mexQpOases
  | mexExactQpOases
  | mexForces
  | mexQpDunes
  | mexExactQpDunes
  | mexBlockQpDunes
  | sFunctionHeader
  | sFunctionSource
  | sFunctionScript
  | regularization
  deriving DecidableEq, Repr

namespace Template

instance : Choice Template where
  all := [makefileQpOases, makefileExactQpOases, makefileQpDunes, makefileExactQpDunes, makefileForces, makefileHpmpc,
    testProgram, auxiliaryHeader, auxiliarySource, mexWrapper, mexExactWrapper, mexQpOases, mexExactQpOases, mexForces,
    mexQpDunes, mexExactQpDunes, mexBlockQpDunes, sFunctionHeader, sFunctionSource, sFunctionScript, regularization]
  name
    | makefileQpOases => "makefile_qpoases"
    | makefileExactQpOases => "makefile_eh_qpoases"
    | makefileQpDunes => "makefile_qpdunes"
    | makefileExactQpDunes => "makefile_eh_qpdunes"
    | makefileForces => "makefile_forces"
    | makefileHpmpc => "makefile_hpmpc"
    | testProgram => "test.c"
    | auxiliaryHeader => "auxiliary_functions.h"
    | auxiliarySource => "auxiliary_functions.c"
    | mexWrapper => "solver_mex.c"
    | mexExactWrapper => "eh_solver_mex.c"
    | mexQpOases => "make_mex_qpoases.m"
    | mexExactQpOases => "make_mex_eh_qpoases.m"
    | mexForces => "make_mex_forces.m"
    | mexQpDunes => "make_mex_qpdunes.m"
    | mexExactQpDunes => "make_mex_eh_qpdunes.m"
    | mexBlockQpDunes => "make_mex_block_qpdunes.m"
    | sFunctionHeader => "solver_sfunction.h"
    | sFunctionSource => "solver_sfunction.c"
    | sFunctionScript => "make_solver_sfunction.m"
    | regularization => "hessian_regularization.c"

instance : LawfulChoice Template := ⟨by rintro ⟨⟩ <;> decide, by rintro ⟨⟩ <;> rfl⟩

end Template

/-- The lines of a template, notes included. -/
def Template.lines : Template → List String
  | .makefileQpOases => makefile qpOasesBuild false
  | .makefileExactQpOases => makefile qpOasesBuild true
  | .makefileQpDunes => makefile qpDunesBuild false
  | .makefileExactQpDunes => makefile qpDunesBuild true
  | .makefileForces => makefile forcesBuild false
  | .makefileHpmpc => makefile hpmpcBuild false
  | .testProgram => Template.testProgramLines
  | .auxiliaryHeader => Template.auxiliaryHeaderLines
  | .auxiliarySource => Template.auxiliarySourceLines
  | .mexWrapper => Template.mexWrapperLines false
  | .mexExactWrapper => Template.mexWrapperLines true
  | .mexQpOases => mexScript "qpOASES, Gauss-Newton" qpOasesScript false ""
  | .mexExactQpOases => mexScript "qpOASES, exact Hessian" qpOasesScript true "-DEXACT_HESSIAN "
  | .mexForces => mexScript "FORCES" forcesScript false ""
  | .mexQpDunes => mexScript "qpDUNES, Gauss-Newton" qpDunesScript false "-D__SIMPLE_BOUNDS__ "
  | .mexExactQpDunes => mexScript "qpDUNES, exact Hessian" qpDunesScript true "-D__SIMPLE_BOUNDS__ -DEXACT_HESSIAN "
  | .mexBlockQpDunes => mexScript "qpDUNES, block condensing" blockQpDunesScript false "-D__BLOCK_CONDENSING__ "
  | .sFunctionHeader => Template.sFunctionHeaderLines
  | .sFunctionSource => Template.sFunctionSourceLines
  | .sFunctionScript => Template.sFunctionScriptLines
  | .regularization => Template.regularizationLines

end ControlCodegen
