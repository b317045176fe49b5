/-!
# `Template.TestProgram`: a program that runs the solver

A `main` that sets all references to zero and runs a number of real-time iterations.
-/

namespace ControlCodegen.Template

set_option autoImplicit false

def testProgramLines : List String :=
  ["@@ Placeholder test program. Placeholders: @MODULE_NAME@ @MODULE_PREFIX@",
   "#include \"@MODULE_NAME@_common.h\"",
   "#include \"@MODULE_NAME@_auxiliary_functions.h\"",
   "",
   "#include <stdio.h>",
   "",
   "#define NX          ACADO_NX",
   "#define NXA         ACADO_NXA",
   "#define NU          ACADO_NU",
   "#define N           ACADO_N",
   "#define NOD         ACADO_NOD",
   "#define NY          ACADO_NY",
   "#define NYN         ACADO_NYN",
   "",
   "#define NUM_STEPS   10",
   "#define VERBOSE     1",
   "",
   "@MODULE_PREFIX@variables @MODULE_NAME@Variables;",
   "@MODULE_PREFIX@workspace @MODULE_NAME@Workspace;",
   "",
   "int main( )",
   "\x7b",
   "\tint i, iter;",
   "\t@MODULE_NAME@_timer t;",
   "",
   "\t@MODULE_NAME@_initializeSolver();",
   "",
   "\tfor (i = 0; i < NX * (N + 1); ++i)  @MODULE_NAME@Variables.x[ i ] = 0.0;",
   "\tfor (i = 0; i < NU * N; ++i)  @MODULE_NAME@Variables.u[ i ] = 0.0;",
   "\tfor (i = 0; i < NY * N; ++i)  @MODULE_NAME@Variables.y[ i ] = 0.0;",
   "\tfor (i = 0; i < NYN; ++i)  @MODULE_NAME@Variables.yN[ i ] = 0.0;",
   "",
   "#if ACADO_INITIAL_STATE_FIXED",
   "\tfor (i = 0; i < NX; ++i) @MODULE_NAME@Variables.x0[ i ] = 0.1;",
   "#endif",
   "",
   "\tif( VERBOSE ) @MODULE_NAME@_printHeader();",
   "",
   "\t@MODULE_NAME@_preparationStep();",
   "",
   "\t@MODULE_NAME@_tic( &t );",
   "\tfor(iter = 0; iter < NUM_STEPS; ++iter)",
   "\t\x7b",
   "\t\t@MODULE_NAME@_feedbackStep( );",
   "",
   "\t\tif( VERBOSE ) printf(\"\\tReal-Time Iteration %d:  KKT Tolerance = %.3e\\n\\n\", iter, @MODULE_NAME@_getKKT() );",
   "",
   "\t\t@MODULE_NAME@_shiftStates(2, 0, 0);",
   "\t\t@MODULE_NAME@_shiftControls( 0 );",
   "",
   "\t\t@MODULE_NAME@_preparationStep();",
   "\t\x7d",
   "\treal_t te = @MODULE_NAME@_toc( &t );",
   "",
   "\tif( VERBOSE ) printf(\"\\n\\nEnd of the RTI loop. \\n\\n\\n\");",
   "",
   "\tprintf(\"\\n\\n Average time of one real-time iteration:   %.3g microseconds\\n\\n\", 1e6 * te / NUM_STEPS);",
   "",
   "\t@MODULE_NAME@_printDifferentialVariables();",
   "\t@MODULE_NAME@_printControlVariables();",
   "",
   "\treturn 0;",
   "\x7d"]

end ControlCodegen.Template
