/-!
# `Template.Makefile`: makefiles

A makefile compiles the generated sources together with those of the backend. The makefiles differ in the backend and in
whether the regularization of the exact Hessian is compiled.
-/

namespace ControlCodegen.Template

set_option autoImplicit false

def makefileRules : List String :=
  ["",
   "OCP_OBJECTS = $(addsuffix .o, $(basename $(OCP_SOURCES)))",
   "",
   ".PHONY: all",
   "all: libacado_exported_rti.a test",
   "",
   "test: $(OCP_OBJECTS) test.o",
   "",
   "@MODULE_NAME@_solver.o          : @MODULE_NAME@_common.h",
   "@MODULE_NAME@_integrator.o      : @MODULE_NAME@_common.h",
   "@MODULE_NAME@_auxiliary_functions.o : @MODULE_NAME@_common.h @MODULE_NAME@_auxiliary_functions.h",
   "test.o                          : @MODULE_NAME@_common.h @MODULE_NAME@_auxiliary_functions.h",
   "",
   "libacado_exported_rti.a: $(OCP_OBJECTS)",
   "\tar r $@ $?",
   "",
   "%.o: %.c",
   "\t$(CC) -c -o $@ $(CFLAGS) $<",
   "",
   "%.o: %.cpp",
   "\t$(CXX) -c -o $@ $(CXXFLAGS) $<",
   "",
   ".PHONY: clean",
   "clean:",
   "\t$(RM) -f *.o *.a test"]

/-- A list of sources, continued over lines. -/
def sourceList (name : String) (sources : List String) : List String :=
  let line (source : String) : String := "\t./" ++ source
  (name ++ " = \\") :: (sources.dropLast.map fun s => line s ++ " \\") ++ (sources.getLast?.map line).toList

def solverSources (exact : Bool) : List String :=
  ["@MODULE_NAME@_integrator.c", "@MODULE_NAME@_solver.c", "@MODULE_NAME@_auxiliary_functions.c"] ++
    if exact then ["@MODULE_NAME@_hessian_regularization.c"] else []

/-- A backend as a makefile sees it. -/
structure BackendBuild where
  /-- The variable that lists the sources. -/
  listName : String
  includes : String
  libraries : String
  sources : List String

def makefile (backend : BackendBuild) (exact : Bool) : List String :=
  ["@@ Makefile template. Lines starting with @@ are template notes and are not exported.",
   "@@ Placeholders: @MODULE_NAME@",
   "CC       = gcc",
   "CXX      = g++"] ++
  ["CFLAGS   = -O3 -finline-functions -I." ++ backend.includes,
   "CXXFLAGS = -O3 -finline-functions -I." ++ backend.includes ++ " -DLINUX",
   "LDLIBS   = -lm" ++ backend.libraries,
   ""] ++
  sourceList "OCP_SOURCES" (solverSources exact) ++ sourceList backend.listName backend.sources ++
  ["OCP_SOURCES += $(" ++ backend.listName ++ ")"] ++ makefileRules

/-- The sources of qpOASES are compiled along. -/
def qpOasesBuild : BackendBuild where
  listName := "QPOASES_SOURCES"
  includes := " -I./qpoases -I./qpoases/INCLUDE -I./qpoases/SRC"
  libraries := " -lstdc++"
  sources :=
    ["@MODULE_NAME@_qpoases_interface.cpp",
     "qpoases/SRC/Bounds.cpp",
     "qpoases/SRC/Constraints.cpp",
     "qpoases/SRC/CyclingManager.cpp",
     "qpoases/SRC/Indexlist.cpp",
     "qpoases/SRC/MessageHandling.cpp",
     "qpoases/SRC/QProblem.cpp",
     "qpoases/SRC/QProblemB.cpp",
     "qpoases/SRC/SubjectTo.cpp",
     "qpoases/SRC/Utils.cpp",
     "qpoases/SRC/EXTRAS/SolutionAnalysis.cpp"]

/-- The sources of qpDUNES are compiled along. -/
def qpDunesBuild : BackendBuild where
  listName := "QPDUNES_SOURCES"
  includes := " -I./qpdunes/include"
  libraries := ""
  sources :=
    ["@MODULE_NAME@_qpdunes_interface.c",
     "qpdunes/src/dual_qp.c",
     "qpdunes/src/matrix_vector.c",
     "qpdunes/src/setup_qp.c",
     "qpdunes/src/stage_qp_solver_clipping.c",
     "qpdunes/src/utils.c"]

/-- The source that FORCES generates is compiled along. -/
def forcesBuild : BackendBuild where
  listName := "FORCES_SOURCES"
  includes := " -I./forces/include"
  libraries := ""
  sources :=
    ["@MODULE_NAME@_forces_interface.c",
     "forces/src/forces.c"]

/-- The library of HPMPC is linked. -/
def hpmpcBuild : BackendBuild where
  listName := "HPMPC_SOURCES"
  includes := " -I./hpmpc/include"
  libraries := " -L./hpmpc -lhpmpc"
  sources :=
    ["@MODULE_NAME@_hpmpc_interface.c"]

end ControlCodegen.Template
