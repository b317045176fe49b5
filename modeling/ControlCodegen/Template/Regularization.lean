/-!
# `Template.Regularization`: regularization of Hessian blocks

A C function that takes one block of the Hessian apart by a cyclic Jacobi eigenvalue decomposition, replaces every
eigenvalue by its absolute value or the floor, whichever is larger, and puts the block together again.
-/

namespace ControlCodegen.Template

set_option autoImplicit false

def regularizationLines : List String :=
  ["@@ Hessian regularization by symmetric eigenvalue decomposition (cyclic Jacobi).",
   "@@ Placeholders: @MODULE_NAME@ @MODULE_PREFIX@ @DIM@ @REGULARIZATION_VALUE@",
   "#include \"@MODULE_NAME@_common.h\"",
   "",
   "#include <math.h>",
   "",
   "#define @MODULE_PREFIX@_HESSIAN_DIM @DIM@",
   "#define @MODULE_PREFIX@_REGULARIZATION_FLOOR @REGULARIZATION_VALUE@",
   "#define @MODULE_PREFIX@_JACOBI_SWEEPS 50",
   "",
   "static void @MODULE_NAME@_symmetric_evd( real_t* const A, real_t* const V )",
   "\x7b",
   "\tconst int n = @MODULE_PREFIX@_HESSIAN_DIM;",
   "\tint i, j, k, p, q, sweep;",
   "\treal_t off, theta, t, c, s, tau, app, aqq, apq, akp, akq;",
   "",
   "\tfor (i = 0; i < n; ++i)",
   "\t\tfor (j = 0; j < n; ++j)",
   "\t\t\tV[i * n + j] = (i == j) ? 1.0 : 0.0;",
   "",
   "\tfor (sweep = 0; sweep < @MODULE_PREFIX@_JACOBI_SWEEPS; ++sweep)",
   "\t\x7b",
   "\t\toff = 0.0;",
   "\t\tfor (p = 0; p < n; ++p)",
   "\t\t\tfor (q = p + 1; q < n; ++q)",
   "\t\t\t\toff += A[p * n + q] * A[p * n + q];",
   "\t\tif (off < 1e-30) break;",
   "",
   "\t\tfor (p = 0; p < n; ++p)",
   "\t\t\x7b",
   "\t\t\tfor (q = p + 1; q < n; ++q)",
   "\t\t\t\x7b",
   "\t\t\t\tapq = A[p * n + q];",
   "\t\t\t\tif (fabs(apq) < 1e-300) continue;",
   "\t\t\t\tapp = A[p * n + p];",
   "\t\t\t\taqq = A[q * n + q];",
   "\t\t\t\ttheta = (aqq - app) / (2.0 * apq);",
   "\t\t\t\tt = (theta >= 0.0 ? 1.0 : -1.0) / (fabs(theta) + sqrt(theta * theta + 1.0));",
   "\t\t\t\tc = 1.0 / sqrt(t * t + 1.0);",
   "\t\t\t\ts = t * c;",
   "\t\t\t\ttau = s / (1.0 + c);",
   "",
   "\t\t\t\tA[p * n + p] = app - t * apq;",
   "\t\t\t\tA[q * n + q] = aqq + t * apq;",
   "\t\t\t\tA[p * n + q] = A[q * n + p] = 0.0;",
   "",
   "\t\t\t\tfor (k = 0; k < n; ++k)",
   "\t\t\t\t\x7b",
   "\t\t\t\t\tif (k != p && k != q)",
   "\t\t\t\t\t\x7b",
   "\t\t\t\t\t\takp = A[k * n + p];",
   "\t\t\t\t\t\takq = A[k * n + q];",
   "\t\t\t\t\t\tA[k * n + p] = A[p * n + k] = akp - s * (akq + tau * akp);",
   "\t\t\t\t\t\tA[k * n + q] = A[q * n + k] = akq + s * (akp - tau * akq);",
   "\t\t\t\t\t\x7d",
   "\t\t\t\t\takp = V[k * n + p];",
   "\t\t\t\t\takq = V[k * n + q];",
   "\t\t\t\t\tV[k * n + p] = akp - s * (akq + tau * akp);",
   "\t\t\t\t\tV[k * n + q] = akq + s * (akp - tau * akq);",
   "\t\t\t\t\x7d",
   "\t\t\t\x7d",
   "\t\t\x7d",
   "\t\x7d",
   "\x7d",
   "",
   "void @MODULE_NAME@_regularize( real_t* const hessian_block )",
   "\x7b",
   "\tconst int n = @MODULE_PREFIX@_HESSIAN_DIM;",
   "\tint i, j, k;",
   "\treal_t A[@MODULE_PREFIX@_HESSIAN_DIM * @MODULE_PREFIX@_HESSIAN_DIM];",
   "\treal_t V[@MODULE_PREFIX@_HESSIAN_DIM * @MODULE_PREFIX@_HESSIAN_DIM];",
   "\treal_t ev;",
   "",
   "\tfor (i = 0; i < n * n; ++i)",
   "\t\tA[i] = hessian_block[i];",
   "",
   "\t@MODULE_NAME@_symmetric_evd(A, V);",
   "",
   "\tfor (i = 0; i < n; ++i)",
   "\t\x7b",
   "\t\tev = fabs(A[i * n + i]);",
   "\t\tA[i * n + i] = ev < @MODULE_PREFIX@_REGULARIZATION_FLOOR ? @MODULE_PREFIX@_REGULARIZATION_FLOOR : ev;",
   "\t\x7d",
   "",
   "\tfor (i = 0; i < n; ++i)",
   "\t\x7b",
   "\t\tfor (j = 0; j < n; ++j)",
   "\t\t\x7b",
   "\t\t\thessian_block[i * n + j] = 0.0;",
   "\t\t\tfor (k = 0; k < n; ++k)",
   "\t\t\t\thessian_block[i * n + j] += V[i * n + k] * A[k * n + k] * V[j * n + k];",
   "\t\t\x7d",
   "\t\x7d",
   "\x7d"]

end ControlCodegen.Template
