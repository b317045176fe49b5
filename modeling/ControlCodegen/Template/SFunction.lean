/-!
# `Template.SFunction`: the Simulink interface

An S-function that runs one real-time iteration for each sample, the header with its buses, and its build script.
-/

namespace ControlCodegen.Template

set_option autoImplicit false

def sFunctionHeaderLines : List String :=
  ["@@ Simulink S-function interface header.",
   "@@ Placeholders: @MODULE_NAME@ @MODULE_PREFIX@ @N@ @NX@ @NXD@ @NXA@ @NU@ @NOD@ @NY@ @NYN@",
   "@@ @INITIAL_STATE_FIXED@ @WEIGHTING_MATRICES_TYPE@ @HARDCODED_CONSTRAINT_VALUES@",
   "@@ @USE_ARRIVAL_COST@ @COMPUTE_COVARIANCE_MATRIX@ @QP_SOLVER@",
   "#ifndef @MODULE_PREFIX@_SOLVER_SFUNCTION_H",
   "#define @MODULE_PREFIX@_SOLVER_SFUNCTION_H",
   "",
   "#include \"@MODULE_NAME@_common.h\"",
   "",
   "/* Dimensions the S-function was generated for. */",
   "#define SFUN_N      @N@",
   "#define SFUN_NX     @NX@",
   "#define SFUN_NXD    @NXD@",
   "#define SFUN_NXA    @NXA@",
   "#define SFUN_NU     @NU@",
   "#define SFUN_NOD    @NOD@",
   "#define SFUN_NY     @NY@",
   "#define SFUN_NYN    @NYN@",
   "",
   "#define SFUN_INITIAL_STATE_FIXED          @INITIAL_STATE_FIXED@",
   "#define SFUN_WEIGHTING_MATRICES_TYPE      @WEIGHTING_MATRICES_TYPE@",
   "#define SFUN_HARDCODED_CONSTRAINT_VALUES  @HARDCODED_CONSTRAINT_VALUES@",
   "#define SFUN_USE_ARRIVAL_COST             @USE_ARRIVAL_COST@",
   "#define SFUN_COMPUTE_COVARIANCE_MATRIX    @COMPUTE_COVARIANCE_MATRIX@",
   "#define SFUN_QP_SOLVER_@QP_SOLVER@        1",
   "",
   "/** Input bus of the S-function. */",
   "typedef struct",
   "\x7b",
   "\treal_t x[ (SFUN_N + 1) * SFUN_NX ];",
   "\treal_t u[ SFUN_N * SFUN_NU ];",
   "#if SFUN_NOD",
   "\treal_t od[ (SFUN_N + 1) * SFUN_NOD ];",
   "#endif",
   "\treal_t y[ SFUN_N * SFUN_NY ];",
   "\treal_t yN[ SFUN_NYN ];",
   "#if SFUN_WEIGHTING_MATRICES_TYPE == 1",
   "\treal_t W[ SFUN_NY * SFUN_NY ];",
   "\treal_t WN[ SFUN_NYN * SFUN_NYN ];",
   "#elif SFUN_WEIGHTING_MATRICES_TYPE == 2",
   "\treal_t W[ SFUN_N * SFUN_NY * SFUN_NY ];",
   "\treal_t WN[ SFUN_NYN * SFUN_NYN ];",
   "#endif",
   "#if SFUN_INITIAL_STATE_FIXED",
   "\treal_t x0[ SFUN_NX ];",
   "#endif",
   "#if SFUN_USE_ARRIVAL_COST",
   "\treal_t xAC[ SFUN_NX ];",
   "\treal_t SAC[ SFUN_NX * SFUN_NX ];",
   "\treal_t WL[ SFUN_NX * SFUN_NX ];",
   "#endif",
   "\x7d @MODULE_PREFIX@inputs;",
   "",
   "/** Output bus of the S-function. */",
   "typedef struct",
   "\x7b",
   "\tint status;",
   "\treal_t kktValue;",
   "\treal_t objValue;",
   "\treal_t execTime;",
   "#if SFUN_COMPUTE_COVARIANCE_MATRIX",
   "\treal_t sigmaN[ SFUN_NX * SFUN_NX ];",
   "#endif",
   "\x7d @MODULE_PREFIX@output;",
   "",
   "#endif /* @MODULE_PREFIX@_SOLVER_SFUNCTION_H */"]

def sFunctionSourceLines : List String :=
  ["@@ Simulink S-function wrapping one real-time iteration per sample.",
   "@@ Placeholders: @MODULE_NAME@ @MODULE_PREFIX@",
   "#define S_FUNCTION_NAME   @MODULE_NAME@_solver_sfunction",
   "#define S_FUNCTION_LEVEL  2",
   "",
   "#define MDL_START",
   "",
   "#include \"simstruc.h\"",
   "",
   "#include \"@MODULE_NAME@_common.h\"",
   "#include \"@MODULE_NAME@_auxiliary_functions.h\"",
   "#include \"@MODULE_NAME@_solver_sfunction.h\"",
   "",
   "#include <string.h>",
   "",
   "@MODULE_PREFIX@workspace @MODULE_NAME@Workspace;",
   "@MODULE_PREFIX@variables @MODULE_NAME@Variables;",
   "",
   "static void mdlInitializeSizes( SimStruct *S )",
   "\x7b",
   "\tssSetNumSFcnParams(S, 0);",
   "\tif (ssGetNumSFcnParams( S ) != ssGetSFcnParamsCount( S ))",
   "\t\treturn;",
   "",
   "\tssSetNumContStates(S, 0);",
   "\tssSetNumDiscStates(S, 0);",
   "",
   "\tif ( !ssSetNumInputPorts(S, 1) )",
   "\t\treturn;",
   "\tssSetInputPortWidth(S, 0, sizeof( @MODULE_PREFIX@inputs ) / sizeof( real_t ));",
   "\tssSetInputPortRequiredContiguous(S, 0, 1);",
   "\tssSetInputPortDirectFeedThrough(S, 0, 1);",
   "",
   "\tif ( !ssSetNumOutputPorts(S, 3) )",
   "\t\treturn;",
   "\tssSetOutputPortWidth(S, 0, sizeof( @MODULE_PREFIX@output ) / sizeof( real_t ));",
   "\tssSetOutputPortWidth(S, 1, (SFUN_N + 1) * SFUN_NX);",
   "\tssSetOutputPortWidth(S, 2, SFUN_N * SFUN_NU);",
   "",
   "\tssSetNumSampleTimes(S, 1);",
   "\tssSetOptions(S, SS_OPTION_EXCEPTION_FREE_CODE | SS_OPTION_WORKS_WITH_CODE_REUSE);",
   "\x7d",
   "",
   "static void mdlInitializeSampleTimes( SimStruct *S )",
   "\x7b",
   "\tssSetSampleTime(S, 0, INHERITED_SAMPLE_TIME);",
   "\tssSetOffsetTime(S, 0, 0.0);",
   "\x7d",
   "",
   "static void mdlStart( SimStruct *S )",
   "\x7b",
   "\tmemset(&@MODULE_NAME@Workspace, 0, sizeof( @MODULE_NAME@Workspace ));",
   "\tmemset(&@MODULE_NAME@Variables, 0, sizeof( @MODULE_NAME@Variables ));",
   "\t@MODULE_NAME@_initializeSolver();",
   "\x7d",
   "",
   "static void mdlOutputs( SimStruct *S, int_T tid )",
   "\x7b",
   "\t@MODULE_NAME@_timer tmr;",
   "\tconst @MODULE_PREFIX@inputs* in = (const @MODULE_PREFIX@inputs*)ssGetInputPortSignal(S, 0);",
   "\t@MODULE_PREFIX@output* out = (@MODULE_PREFIX@output*)ssGetOutputPortRealSignal(S, 0);",
   "\treal_t* xOut = (real_t*)ssGetOutputPortRealSignal(S, 1);",
   "\treal_t* uOut = (real_t*)ssGetOutputPortRealSignal(S, 2);",
   "",
   "\t@MODULE_NAME@_tic( &tmr );",
   "",
   "\tmemcpy(@MODULE_NAME@Variables.x, in->x, sizeof( in->x ));",
   "\tmemcpy(@MODULE_NAME@Variables.u, in->u, sizeof( in->u ));",
   "#if SFUN_NOD",
   "\tmemcpy(@MODULE_NAME@Variables.od, in->od, sizeof( in->od ));",
   "#endif",
   "\tmemcpy(@MODULE_NAME@Variables.y, in->y, sizeof( in->y ));",
   "\tmemcpy(@MODULE_NAME@Variables.yN, in->yN, sizeof( in->yN ));",
   "#if SFUN_WEIGHTING_MATRICES_TYPE != 0",
   "\tmemcpy(@MODULE_NAME@Variables.W, in->W, sizeof( in->W ));",
   "\tmemcpy(@MODULE_NAME@Variables.WN, in->WN, sizeof( in->WN ));",
   "#endif",
   "#if SFUN_INITIAL_STATE_FIXED",
   "\tmemcpy(@MODULE_NAME@Variables.x0, in->x0, sizeof( in->x0 ));",
   "#endif",
   "#if SFUN_USE_ARRIVAL_COST",
   "\tmemcpy(@MODULE_NAME@Variables.xAC, in->xAC, sizeof( in->xAC ));",
   "\tmemcpy(@MODULE_NAME@Variables.SAC, in->SAC, sizeof( in->SAC ));",
   "\tmemcpy(@MODULE_NAME@Variables.WL, in->WL, sizeof( in->WL ));",
   "#endif",
   "",
   "\t@MODULE_NAME@_preparationStep();",
   "\tout->status = @MODULE_NAME@_feedbackStep();",
   "\tout->kktValue = @MODULE_NAME@_getKKT();",
   "\tout->objValue = @MODULE_NAME@_getObjective();",
   "#if SFUN_COMPUTE_COVARIANCE_MATRIX",
   "\tmemcpy(out->sigmaN, @MODULE_NAME@Variables.sigmaN, sizeof( out->sigmaN ));",
   "#endif",
   "",
   "\tmemcpy(xOut, @MODULE_NAME@Variables.x, sizeof( in->x ));",
   "\tmemcpy(uOut, @MODULE_NAME@Variables.u, sizeof( in->u ));",
   "",
   "\tout->execTime = @MODULE_NAME@_toc( &tmr );",
   "\x7d",
   "",
   "static void mdlTerminate( SimStruct *S )",
   "\x7b",
   "\x7d",
   "",
   "#ifdef MATLAB_MEX_FILE",
   "#include \"simulink.c\"",
   "#else",
   "#include \"cg_sfun.h\"",
   "#endif"]

def sFunctionScriptLines : List String :=
  ["@@ Build script of the Simulink S-function. Placeholders: @MODULE_NAME@ @QP_SOLVER@",
   "% Builds the Simulink S-function of the exported solver.",
   "% Run this script in the folder of the exported code.",
   "",
   "QP_SOLVER = '@QP_SOLVER@';",
   "",
   "CPPFLAGS = ' -O -D__MATLAB__ -DINLINE=\"\" ';",
   "",
   "if strcmp(QP_SOLVER, 'QPOASES')",
   "\tIFLAGS = [ '-I. -Iqpoases -Iqpoases/INCLUDE -Iqpoases/SRC ' ];",
   "\tQP_SOURCES = [ ...",
   "\t\t' qpoases/SRC/Bounds.cpp qpoases/SRC/CyclingManager.cpp qpoases/SRC/MessageHandling.cpp ' ...",
   "\t\t' qpoases/SRC/QProblem.cpp qpoases/SRC/Utils.cpp qpoases/SRC/Constraints.cpp ' ...",
   "\t\t' qpoases/SRC/Indexlist.cpp qpoases/SRC/QProblemB.cpp qpoases/SRC/SubjectTo.cpp ' ...",
   "\t\t' @MODULE_NAME@_qpoases_interface.cpp ' ...",
   "\t\t];",
   "else",
   "\tIFLAGS = [ '-I. -Iqpdunes/include ' ];",
   "\tCPPFLAGS = [ CPPFLAGS, '-D__SIMPLE_BOUNDS__ ' ];",
   "\tQP_SOURCES = [ ...",
   "\t\t' qpdunes/src/dual_qp.c qpdunes/src/matrix_vector.c qpdunes/src/setup_qp.c ' ...",
   "\t\t' qpdunes/src/stage_qp_solver_clipping.c qpdunes/src/qpdunes_utils.c ' ...",
   "\t\t' @MODULE_NAME@_qpdunes_interface.c ' ...",
   "\t\t];",
   "end",
   "",
   "OCP_SOURCES = [ ...",
   "\t' @MODULE_NAME@_solver.c ' ...",
   "\t' @MODULE_NAME@_integrator.c ' ...",
   "\t' @MODULE_NAME@_auxiliary_functions.c ' ...",
   "\t' @MODULE_NAME@_solver_sfunction.c ' ...",
   "\t];",
   "",
   "if ( ispc == 0 )",
   "\tCPPFLAGS = [ CPPFLAGS, '-DLINUX ' ];",
   "else",
   "\tCPPFLAGS = [ CPPFLAGS, '-DWIN32 ' ];",
   "end",
   "",
   "eval( [ 'mex -output @MODULE_NAME@_solver_sfunction ', CPPFLAGS, IFLAGS, OCP_SOURCES, QP_SOURCES ] );",
   "",
   "fprintf( 'S-function @MODULE_NAME@_solver_sfunction built.\\n' );"]

end ControlCodegen.Template
