import ControlCodegen.Options.Choice

/-!
# `Export.Artifact`: kinds of generated files
-/

namespace ControlCodegen

set_option autoImplicit false

/-- How a file is produced. -/
inductive Production where
  /-- Printed from the program of the integrator or the solver. -/
  | collaborator
  /-- Filled in from a template. -/
  | templateCopy
  /-- Put together from the declarations of all programs. -/
  | headerSynthesis
  deriving DecidableEq, Repr

instance : Choice Production where
  all := [.collaborator, .templateCopy, .headerSynthesis]
  name
    | .collaborator => "collaborator"
    | .templateCopy => "template_copy"
    | .headerSynthesis => "header_synthesis"

instance : LawfulChoice Production := ⟨by rintro ⟨⟩ <;> decide, by rintro ⟨⟩ <;> rfl⟩

/-- What a generated file is for. -/
inductive ArtifactKind where
  | commonHeader
  | integratorSource
  | solverSource
  | auxiliaryFunctions
  | makefile
  | testFile
  | mexInterface
  | simulinkInterface
  | regularization
  deriving DecidableEq, Repr

namespace ArtifactKind

instance : Choice ArtifactKind where
  all := [commonHeader, integratorSource, solverSource, auxiliaryFunctions, makefile, testFile, mexInterface,
    simulinkInterface, regularization]
  name
    | commonHeader => "common_header"
    | integratorSource => "integrator_source"
    | solverSource => "solver_source"
    | auxiliaryFunctions => "auxiliary_functions"
    | makefile => "makefile"
    | testFile => "test_file"
    | mexInterface => "mex_interface"
    | simulinkInterface => "simulink_interface"
    | regularization => "hessian_regularization"

instance : LawfulChoice ArtifactKind := ⟨by rintro ⟨⟩ <;> decide, by rintro ⟨⟩ <;> rfl⟩

def production : ArtifactKind → Production
  | commonHeader => .headerSynthesis
  | integratorSource | solverSource => .collaborator
  | auxiliaryFunctions | makefile | testFile | mexInterface | simulinkInterface | regularization => .templateCopy

end ArtifactKind

end ControlCodegen
