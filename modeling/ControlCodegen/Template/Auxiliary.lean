/-!
# `Template.Auxiliary`: accessors, printing and timing

The header and the source of the auxiliary functions, which come with every generated solver.
-/

namespace ControlCodegen.Template

set_option autoImplicit false

def auxiliaryHeaderLines : List String :=
  ["@@ Auxiliary functions header. Placeholders: @MODULE_NAME@ @MODULE_PREFIX@",
   "#ifndef @MODULE_PREFIX@_AUXILIARY_FUNCTIONS_H",
   "#define @MODULE_PREFIX@_AUXILIARY_FUNCTIONS_H",
   "",
   "#include \"@MODULE_NAME@_common.h\"",
   "",
   "#ifndef __MATLAB__",
   "#ifdef __cplusplus",
   "extern \"C\"",
   "\x7b",
   "#endif /* __cplusplus */",
   "#endif /* __MATLAB__ */",
   "",
   "/** Returns a pointer to the differential state trajectory. */",
   "real_t* @MODULE_NAME@_getVariablesX( );",
   "",
   "/** Returns a pointer to the control trajectory. */",
   "real_t* @MODULE_NAME@_getVariablesU( );",
   "",
   "/** Prints the differential state trajectory. */",
   "void @MODULE_NAME@_printDifferentialVariables( );",
   "",
   "/** Prints the control trajectory. */",
   "void @MODULE_NAME@_printControlVariables( );",
   "",
   "/** Prints a banner naming the generated solver. */",
   "void @MODULE_NAME@_printHeader( );",
   "",
   "#if (defined __MINGW32__ || defined __MINGW64__)",
   "#include <time.h>",
   "#include <sys/stat.h>",
   "#include <sys/time.h>",
   "#include <windows.h>",
   "",
   "typedef struct @MODULE_NAME@_timer_",
   "\x7b",
   "\tLARGE_INTEGER tic;",
   "\tLARGE_INTEGER toc;",
   "\tLARGE_INTEGER freq;",
   "\x7d @MODULE_NAME@_timer;",
   "",
   "#elif (defined __APPLE__)",
   "#include <mach/mach_time.h>",
   "",
   "typedef struct @MODULE_NAME@_timer_",
   "\x7b",
   "\tuint64_t tic;",
   "\tuint64_t toc;",
   "\tmach_timebase_info_data_t tinfo;",
   "\x7d @MODULE_NAME@_timer;",
   "",
   "#else",
   "#include <time.h>",
   "",
   "typedef struct @MODULE_NAME@_timer_",
   "\x7b",
   "\tstruct timespec tic;",
   "\tstruct timespec toc;",
   "\x7d @MODULE_NAME@_timer;",
   "",
   "#endif",
   "",
   "/** Starts a measurement. */",
   "void @MODULE_NAME@_tic( @MODULE_NAME@_timer* t );",
   "",
   "/** Returns the seconds elapsed since the last tic. */",
   "real_t @MODULE_NAME@_toc( @MODULE_NAME@_timer* t );",
   "",
   "#ifndef __MATLAB__",
   "#ifdef __cplusplus",
   "\x7d /* extern \"C\" */",
   "#endif /* __cplusplus */",
   "#endif /* __MATLAB__ */",
   "",
   "#endif /* @MODULE_PREFIX@_AUXILIARY_FUNCTIONS_H */"]

def auxiliarySourceLines : List String :=
  ["@@ Auxiliary functions source. Placeholders: @MODULE_NAME@ @MODULE_PREFIX@",
   "#include \"@MODULE_NAME@_auxiliary_functions.h\"",
   "",
   "#include <stdio.h>",
   "",
   "real_t* @MODULE_NAME@_getVariablesX( )",
   "\x7b",
   "\treturn @MODULE_NAME@Variables.x;",
   "\x7d",
   "",
   "real_t* @MODULE_NAME@_getVariablesU( )",
   "\x7b",
   "\treturn @MODULE_NAME@Variables.u;",
   "\x7d",
   "",
   "void @MODULE_NAME@_printDifferentialVariables( )",
   "\x7b",
   "\tint i, j;",
   "\tprintf(\"\\nDifferential variables:\\n[\\n\");",
   "\tfor (i = 0; i < ACADO_N + 1; ++i)",
   "\t\x7b",
   "\t\tfor (j = 0; j < ACADO_NX; ++j)",
   "\t\t\tprintf(\"\\t%e\", @MODULE_NAME@Variables.x[i * ACADO_NX + j]);",
   "\t\tprintf(\"\\n\");",
   "\t\x7d",
   "\tprintf(\"]\\n\\n\");",
   "\x7d",
   "",
   "void @MODULE_NAME@_printControlVariables( )",
   "\x7b",
   "\tint i, j;",
   "\tprintf(\"\\nControl variables:\\n[\\n\");",
   "\tfor (i = 0; i < ACADO_N; ++i)",
   "\t\x7b",
   "\t\tfor (j = 0; j < ACADO_NU; ++j)",
   "\t\t\tprintf(\"\\t%e\", @MODULE_NAME@Variables.u[i * ACADO_NU + j]);",
   "\t\tprintf(\"\\n\");",
   "\t\x7d",
   "\tprintf(\"]\\n\\n\");",
   "\x7d",
   "",
   "void @MODULE_NAME@_printHeader( )",
   "\x7b",
   "\tprintf(\"\\n@MODULE_NAME@: real-time iteration solver, N = %d, NX = %d, NU = %d\\n\\n\",",
   "\t\tACADO_N, ACADO_NX, ACADO_NU);",
   "\x7d",
   "",
   "#if (defined __MINGW32__ || defined __MINGW64__)",
   "",
   "void @MODULE_NAME@_tic( @MODULE_NAME@_timer* t )",
   "\x7b",
   "\tQueryPerformanceFrequency(&t->freq);",
   "\tQueryPerformanceCounter(&t->tic);",
   "\x7d",
   "",
   "real_t @MODULE_NAME@_toc( @MODULE_NAME@_timer* t )",
   "\x7b",
   "\tQueryPerformanceCounter(&t->toc);",
   "\treturn ((t->toc.QuadPart - t->tic.QuadPart) / (real_t)t->freq.QuadPart);",
   "\x7d",
   "",
   "#elif (defined __APPLE__)",
   "",
   "void @MODULE_NAME@_tic( @MODULE_NAME@_timer* t )",
   "\x7b",
   "\tt->tic = mach_absolute_time();",
   "\x7d",
   "",
   "real_t @MODULE_NAME@_toc( @MODULE_NAME@_timer* t )",
   "\x7b",
   "\tuint64_t duration;",
   "\tt->toc = mach_absolute_time();",
   "\tduration = t->toc - t->tic;",
   "\tmach_timebase_info(&(t->tinfo));",
   "\tduration *= t->tinfo.numer;",
   "\tduration /= t->tinfo.denom;",
   "\treturn (real_t)duration / 1e9;",
   "\x7d",
   "",
   "#else",
   "",
   "void @MODULE_NAME@_tic( @MODULE_NAME@_timer* t )",
   "\x7b",
   "\tclock_gettime(CLOCK_MONOTONIC, &t->tic);",
   "\x7d",
   "",
   "real_t @MODULE_NAME@_toc( @MODULE_NAME@_timer* t )",
   "\x7b",
   "\tstruct timespec temp;",
   "\tclock_gettime(CLOCK_MONOTONIC, &t->toc);",
   "\tif ((t->toc.tv_nsec - t->tic.tv_nsec) < 0)",
   "\t\x7b",
   "\t\ttemp.tv_sec = t->toc.tv_sec - t->tic.tv_sec - 1;",
   "\t\ttemp.tv_nsec = 1000000000 + t->toc.tv_nsec - t->tic.tv_nsec;",
   "\t\x7d",
   "\telse",
   "\t\x7b",
   "\t\ttemp.tv_sec = t->toc.tv_sec - t->tic.tv_sec;",
   "\t\ttemp.tv_nsec = t->toc.tv_nsec - t->tic.tv_nsec;",
   "\t\x7d",
   "\treturn (real_t)temp.tv_sec + (real_t)temp.tv_nsec / 1e9;",
   "\x7d",
   "",
   "#endif"]

end ControlCodegen.Template
