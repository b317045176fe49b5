/-!
# `Template.MexScript`: build scripts of the MATLAB interface

A script compiles the MEX function together with the generated sources and those of the backend. The scripts differ in
the backend, in the defines and in whether the regularization of the exact Hessian is compiled.
-/

namespace ControlCodegen.Template

set_option autoImplicit false

def mexScriptHead : List String :=
  ["@@ Placeholders: @MODULE_NAME@",
   "% Builds the MEX function of the exported solver.",
   "% Run this script in the folder of the exported code.",
   "",
   "function make_@MODULE_NAME@_solver( name, extraDefines )",
   "",
   "\tif nargin < 1",
   "\t\tname = '@MODULE_NAME@_solver';",
   "\tend",
   "\tif nargin < 2",
   "\t\textraDefines = '';",
   "\tend",
   "",
   "\tCPPFLAGS = [ ' -O -D__MATLAB__ -DINLINE=\"\" ' extraDefines ' ' ];",
   ""]

def mexScriptTail : List String :=
  ["",
   "\tif ( ispc == 0 )",
   "\t\tCPPFLAGS = [ CPPFLAGS, '-DLINUX ' ];",
   "\telse",
   "\t\tCPPFLAGS = [ CPPFLAGS, '-DWIN32 ' ];",
   "\tend",
   "",
   "\tcmd = [ 'mex -output ', name, ' ', CPPFLAGS, DEFINES, IFLAGS, ' @MODULE_NAME@_solver_mex.c', OCP_SOURCES, QP_SOURCES ];",
   "",
   "\tfprintf( 'Building %s ...\\n', name );",
   "\teval( cmd );",
   "\tfprintf( '%s built.\\n', name );",
   "",
   "end"]

/-- A list of texts, continued over lines. -/
def cellList (name : String) (texts : List String) : List String :=
  ["\t" ++ name ++ " = [ ..."] ++ texts.map (fun s => "\t\t'" ++ s ++ " ' ...") ++ ["\t\t];", ""]

/-- A backend as a build script sees it. -/
structure BackendScript where
  includes : List String
  sources : List String

def mexScript (title : String) (backend : BackendScript) (exact : Bool) (defines : String) : List String :=
  ["@@ MEX build script, " ++ title ++ "."] ++ mexScriptHead ++
  cellList "IFLAGS" ("-I." :: backend.includes) ++
  cellList "OCP_SOURCES"
    ([" @MODULE_NAME@_solver.c", " @MODULE_NAME@_integrator.c", " @MODULE_NAME@_auxiliary_functions.c"] ++
      if exact then [" @MODULE_NAME@_hessian_regularization.c"] else []) ++
  cellList "QP_SOURCES" (backend.sources.map (" " ++ ·)) ++
  ["\tDEFINES = '" ++ defines ++ "';"] ++ mexScriptTail

/-- The sources of qpOASES are compiled along. -/
def qpOasesScript : BackendScript where
  includes :=
    ["-Iqpoases",
     "-Iqpoases/INCLUDE",
     "-Iqpoases/SRC"]
  sources :=
    ["qpoases/SRC/Bounds.cpp",
     "qpoases/SRC/CyclingManager.cpp",
     "qpoases/SRC/MessageHandling.cpp",
     "qpoases/SRC/QProblem.cpp",
     "qpoases/SRC/Utils.cpp",
     "qpoases/SRC/Constraints.cpp",
     "qpoases/SRC/Indexlist.cpp",
     "qpoases/SRC/QProblemB.cpp",
     "qpoases/SRC/SubjectTo.cpp",
     "@MODULE_NAME@_qpoases_interface.cpp"]

/-- The sources of qpDUNES are compiled along. -/
def qpDunesScript : BackendScript where
  includes :=
    ["-Iqpdunes/include"]
  sources :=
    ["qpdunes/src/dual_qp.c",
     "qpdunes/src/matrix_vector.c",
     "qpdunes/src/setup_qp.c",
     "qpdunes/src/stage_qp_solver_clipping.c",
     "qpdunes/src/qpdunes_utils.c",
     "@MODULE_NAME@_qpdunes_interface.c"]

/-- Block condensing needs one more source of qpDUNES. -/
def blockQpDunesScript : BackendScript :=
  { qpDunesScript with sources := qpDunesScript.sources ++ ["qpdunes/src/lu.c"] }

/-- The source that FORCES generates is compiled along. -/
def forcesScript : BackendScript where
  includes :=
    ["-Iforces/include"]
  sources :=
    ["@MODULE_NAME@_forces_interface.c",
     "forces/src/forces.c"]

end ControlCodegen.Template
