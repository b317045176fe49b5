/-!
# `Template.MexWrapper`: the MATLAB interface

A MEX function that takes the variables of the solver from a struct, runs one real-time iteration and gives the
trajectories back. With the exact Hessian the multipliers are exchanged too.
-/

namespace ControlCodegen.Template

set_option autoImplicit false

def mexWrapperLines (exact : Bool) : List String :=
  (if exact then
    ["@@ MATLAB MEX wrapper of an exact-Hessian solver; also returns the multipliers. Placeholders: @MODULE_NAME@ @MODULE_PREFIX@"]
  else
    ["@@ MATLAB MEX wrapper of a Gauss-Newton solver. Placeholders: @MODULE_NAME@ @MODULE_PREFIX@"]) ++
  ["#include \"mex.h\"",
   "#include \"@MODULE_NAME@_common.h\"",
   "#include \"@MODULE_NAME@_auxiliary_functions.h\"",
   "",
   "#include <string.h>",
   "",
   "@MODULE_PREFIX@workspace @MODULE_NAME@Workspace;",
   "@MODULE_PREFIX@variables @MODULE_NAME@Variables;",
   "",
   "#define FREE( mem ) \x7b if( mem ) \x7b mxFree( mem ); mem = NULL; \x7d \x7d",
   "",
   "static int isInitialized = 0;",
   "",
   "static void copy_field( const mxArray* src, const char* name, real_t* dst, int rows, int cols, int required )",
   "\x7b",
   "\tconst mxArray* field = mxGetField(src, 0, name);",
   "\tint i;",
   "\tif (field == NULL)",
   "\t\x7b",
   "\t\tif ( required ) mexErrMsgIdAndTxt(\"@MODULE_NAME@:missingField\", \"Field %s is missing.\", name);",
   "\t\treturn;",
   "\t\x7d",
   "\tif (mxGetM( field ) != rows || mxGetN( field ) != cols)",
   "\t\tmexErrMsgIdAndTxt(\"@MODULE_NAME@:dimensions\", \"Field %s must be %d x %d.\", name, rows, cols);",
   "\tfor (i = 0; i < rows * cols; ++i)",
   "\t\tdst[ i ] = (real_t)(mxGetPr( field )[ i ]);",
   "\x7d",
   "",
   "static void store_field( mxArray* dst, const char* name, const real_t* src, int rows, int cols )",
   "\x7b",
   "\tmxArray* field = mxCreateDoubleMatrix(rows, cols, mxREAL);",
   "\tint i;",
   "\tfor (i = 0; i < rows * cols; ++i)",
   "\t\tmxGetPr( field )[ i ] = (double)src[ i ];",
   "\tmxSetField(dst, 0, name, field);",
   "\x7d",
   "",
   "void mexFunction( int nlhs, mxArray *plhs[], int nrhs, const mxArray *prhs[] )",
   "\x7b"] ++
  (if exact then
    ["\tconst char* outNames[] = \x7b\"x\", \"u\", \"mu\", \"info\"\x7d;"]
  else
    ["\tconst char* outNames[] = \x7b\"x\", \"u\", \"info\"\x7d;"]) ++
  ["\tconst char* infoNames[] = \x7b\"status\", \"kktValue\", \"objValue\", \"cpuTime\"\x7d;",
   "\tmxArray* info;",
   "\t@MODULE_NAME@_timer tmr;",
   "\tint status;",
   "",
   "\tif (nrhs != 1 || !mxIsStruct( prhs[ 0 ] ))",
   "\t\tmexErrMsgIdAndTxt(\"@MODULE_NAME@:usage\", \"Exactly one struct input is expected.\");",
   "",
   "\tif ( !isInitialized )",
   "\t\x7b",
   "\t\tmemset(&@MODULE_NAME@Workspace, 0, sizeof( @MODULE_NAME@Workspace ));",
   "\t\tmemset(&@MODULE_NAME@Variables, 0, sizeof( @MODULE_NAME@Variables ));",
   "\t\t@MODULE_NAME@_initializeSolver();",
   "\t\tisInitialized = 1;",
   "\t\x7d",
   "",
   "\tcopy_field(prhs[ 0 ], \"x\", @MODULE_NAME@Variables.x, ACADO_N + 1, ACADO_NX, 1);",
   "\tcopy_field(prhs[ 0 ], \"u\", @MODULE_NAME@Variables.u, ACADO_N, ACADO_NU, 1);",
   "#if ACADO_NOD",
   "\tcopy_field(prhs[ 0 ], \"od\", @MODULE_NAME@Variables.od, ACADO_N + 1, ACADO_NOD, 1);",
   "#endif",
   "\tcopy_field(prhs[ 0 ], \"y\", @MODULE_NAME@Variables.y, ACADO_N, ACADO_NY, 1);",
   "\tcopy_field(prhs[ 0 ], \"yN\", @MODULE_NAME@Variables.yN, 1, ACADO_NYN, 1);"] ++
  (if exact then
    ["\tcopy_field(prhs[ 0 ], \"mu\", @MODULE_NAME@Variables.mu, ACADO_N, ACADO_NX, 0);"]
  else []) ++
  ["#if ACADO_INITIAL_STATE_FIXED",
   "\tcopy_field(prhs[ 0 ], \"x0\", @MODULE_NAME@Variables.x0, 1, ACADO_NX, 1);",
   "#endif",
   "",
   "\t@MODULE_NAME@_tic( &tmr );",
   "\t@MODULE_NAME@_preparationStep();",
   "\tstatus = @MODULE_NAME@_feedbackStep();",
   ""] ++
  (if exact then
    ["\tplhs[ 0 ] = mxCreateStructMatrix(1, 1, 4, outNames);"]
  else
    ["\tplhs[ 0 ] = mxCreateStructMatrix(1, 1, 3, outNames);"]) ++
  ["\tstore_field(plhs[ 0 ], \"x\", @MODULE_NAME@Variables.x, ACADO_N + 1, ACADO_NX);",
   "\tstore_field(plhs[ 0 ], \"u\", @MODULE_NAME@Variables.u, ACADO_N, ACADO_NU);"] ++
  (if exact then
    ["\tstore_field(plhs[ 0 ], \"mu\", @MODULE_NAME@Variables.mu, ACADO_N, ACADO_NX);"]
  else []) ++
  ["",
   "\tinfo = mxCreateStructMatrix(1, 1, 4, infoNames);",
   "\tmxSetField(info, 0, \"status\", mxCreateDoubleScalar( status ));",
   "\tmxSetField(info, 0, \"kktValue\", mxCreateDoubleScalar( @MODULE_NAME@_getKKT() ));",
   "\tmxSetField(info, 0, \"objValue\", mxCreateDoubleScalar( @MODULE_NAME@_getObjective() ));",
   "\tmxSetField(info, 0, \"cpuTime\", mxCreateDoubleScalar( @MODULE_NAME@_toc( &tmr ) ));",
   "\tmxSetField(plhs[ 0 ], 0, \"info\", info);",
   "\x7d"]

end ControlCodegen.Template
