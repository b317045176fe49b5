import ControlCodegen.Text.Lines

/-!
# `Command.Sample`: project files to start from
-/

namespace ControlCodegen.Command

set_option autoImplicit false

def minimalLines : List String := [
  "# ocpgen project file",
  "",
  "[ocp]",
  "horizon = 20",
  "",
  "[ocp.dimensions]",
  "nx = 4",
  "nu = 1",
  "",
  "[ocp.objective.least_squares]",
  "ny = 5",
  "",
  "[ocp.objective.terminal_least_squares]",
  "ny = 4",
  "",
  "[options]",
  "module_name = \"acado\"",
  "qp_solver = \"qpoases\"",
  "sparse_qp_solution = \"full_condensing_n2\"",
  "hessian_approximation = \"gauss_newton\"",
  "integrator_type = \"rk4\"",
  "",
  "[output]",
  "folder = \"export\""]

/-- The lines of a project file with every option and a comment on it. -/
def exampleLines : List String := [
  "# ocpgen project file",
  "# Describes one optimal control problem and how its solver is exported.",
  "",
  "# ============================================================================",
  "# Application",
  "# ============================================================================",
  "[application]",
  "# trace | debug | info | warn | error",
  "log_level = \"info\"",
  "",
  "# ============================================================================",
  "# Optimal control problem",
  "# ============================================================================",
  "[ocp]",
  "# Number of control intervals",
  "horizon = 20",
  "",
  "[ocp.dimensions]",
  "nx = 4      # differential states",
  "ndx = 0     # state derivatives (0 or nx for implicit models)",
  "nxa = 0     # algebraic states",
  "nu = 1      # controls",
  "nod = 0     # online data",
  "",
  "[ocp.grid]",
  "start = 0.0",
  "end = 1.0",
  "# points = [0.0, 0.05, ...]   # horizon + 1 explicit grid points",
  "",
  "[ocp.model]",
  "rhs_function = \"acado_rhs\"",
  "# discretized = false",
  "",
  "[ocp.objective]",
  "# mayer_terms = 0      # general terms need hessian_approximation = \"exact_hessian\"",
  "# lagrange_terms = 0",
  "linear_terms = false",
  "",
  "[ocp.objective.least_squares]",
  "ny = 5",
  "# empty | once | once_per_node",
  "weighting = \"once\"",
  "",
  "[ocp.objective.terminal_least_squares]",
  "ny = 4",
  "weighting = \"once\"",
  "",
  "[ocp.constraints]",
  "bounded_controls = 1",
  "bounded_states = 0",
  "path_constraints = 0",
  "point_constraints = 0",
  "",
  "# ============================================================================",
  "# Export options",
  "# ============================================================================",
  "[options]",
  "module_name = \"acado\"",
  "",
  "# qpoases | qpdunes | forces | hpmpc",
  "qp_solver = \"qpoases\"",
  "",
  "# full_condensing | condensing | full_condensing_n2 | condensing_n2",
  "# block_condensing_n2 | full_condensing_n2_factorization | sparse_solver",
  "sparse_qp_solution = \"full_condensing_n2\"",
  "",
  "# gauss_newton | exact_hessian",
  "hessian_approximation = \"gauss_newton\"",
  "",
  "# single_shooting | multiple_shooting",
  "discretization_type = \"multiple_shooting\"",
  "",
  "# explicit_euler | rk2 | rk3 | rk4",
  "# irk_gl2 | irk_gl4 | irk_gl6 | irk_riia1 | irk_riia3 | irk_riia5",
  "integrator_type = \"rk4\"",
  "",
  "# gauss_lu | simplified_irk_newton",
  "linear_solver = \"gauss_lu\"",
  "",
  "# num_integrator_steps = 20",
  "levenberg_marquardt = 0.0",
  "condensing_block_size = 1",
  "",
  "generate_makefile = true",
  "generate_test_file = true",
  "generate_matlab_interface = false",
  "generate_simulink_interface = false",
  "",
  "use_single_precision = false",
  "hardcode_constraint_values = true",
  "fix_initial_state = true",
  "use_arrival_cost = false",
  "compute_covariance_matrix = false",
  "",
  "# ============================================================================",
  "# Output",
  "# ============================================================================",
  "[output]",
  "# Supports $\x7bVAR\x7d substitution",
  "folder = \"export\"",
  "real_type = \"real_t\"",
  "int_type = \"int\"",
  "precision = 16",
  "",
  "# ============================================================================",
  "# Logging",
  "# ============================================================================",
  "[logging]",
  "local_enabled = false",
  "local_path = \"logs\"",
  "# daily | hourly | never",
  "local_rotation = \"daily\""]

/-- A project file to start from: a short one, or one with every option. -/
def sampleText (withExamples : Bool) : String := Text.unlines (if withExamples then exampleLines else minimalLines)

end ControlCodegen.Command
