import ControlCodegen.C.Declaration
import ControlCodegen.C.Printer
import ControlCodegen.C.Program
import ControlCodegen.C.SourceFile
import ControlCodegen.Command.Arguments
import ControlCodegen.Command.Run
import ControlCodegen.Command.Sample
import ControlCodegen.Command.Switch
import ControlCodegen.Decimal.Binary
import ControlCodegen.Decimal.Power
import ControlCodegen.Decimal.Reader
import ControlCodegen.Decimal.Rounding
import ControlCodegen.Decimal.Scientific
import ControlCodegen.Digest.Sha256
import ControlCodegen.Document.Data
import ControlCodegen.Document.Fields
import ControlCodegen.Document.Json
import ControlCodegen.Document.Toml
import ControlCodegen.Document.Toml.Number
import ControlCodegen.Document.Toml.Outline
import ControlCodegen.Document.Toml.Token
import ControlCodegen.Environment.Basic
import ControlCodegen.Environment.File
import ControlCodegen.Environment.Reference
import ControlCodegen.Error
import ControlCodegen.Export.Artifact
import ControlCodegen.Export.Header
import ControlCodegen.Export.Regularization
import ControlCodegen.Export.Run
import ControlCodegen.Export.Simulink
import ControlCodegen.Export.Steps
import ControlCodegen.Export.Summary
import ControlCodegen.Export.Verification
import ControlCodegen.Files.Path
import ControlCodegen.Files.System
import ControlCodegen.Files.Tree
import ControlCodegen.Integrator.Basic
import ControlCodegen.Integrator.LinearSystem
import ControlCodegen.Integrator.Program
import ControlCodegen.Integrator.Registry
import ControlCodegen.Integrator.Tableau
import ControlCodegen.Main
import ControlCodegen.ModuleName
import ControlCodegen.Options.Basic
import ControlCodegen.Options.Choice
import ControlCodegen.Plan.Consistency
import ControlCodegen.Plan.Constants
import ControlCodegen.Plan.Session
import ControlCodegen.Problem.Basic
import ControlCodegen.Problem.Check
import ControlCodegen.Problem.TimeGrid
import ControlCodegen.Project.Basic
import ControlCodegen.Project.Decode
import ControlCodegen.Project.Load
import ControlCodegen.Project.Overrides
import ControlCodegen.Solver.Basic
import ControlCodegen.Solver.Program
import ControlCodegen.Solver.Strategy
import ControlCodegen.Template.Auxiliary
import ControlCodegen.Template.Basic
import ControlCodegen.Template.Makefile
import ControlCodegen.Template.MexScript
import ControlCodegen.Template.MexWrapper
import ControlCodegen.Template.Regularization
import ControlCodegen.Template.Render
import ControlCodegen.Template.SFunction
import ControlCodegen.Template.TestProgram
import ControlCodegen.Text.Alphanumeric
import ControlCodegen.Text.Blank
import ControlCodegen.Text.Hex
import ControlCodegen.Text.Lines
import ControlCodegen.Text.Marks
import ControlCodegen.Text.Reader
import ControlCodegen.Text.Replace
import ControlCodegen.Time.Moment
import ControlCodegen.Version
import ControlCodegen.Proofs.C.Memory
import ControlCodegen.Proofs.C.Semantics
import ControlCodegen.Proofs.C.Triple
import ControlCodegen.Proofs.C.Bounds
import ControlCodegen.Proofs.C.Counting
import ControlCodegen.Proofs.Integrator.LinearSystem
import ControlCodegen.Proofs.Integrator.Bounds
import ControlCodegen.Proofs.Solver.Bounds
import ControlCodegen.Proofs.C.Link
import ControlCodegen.Proofs.Export.Members
import ControlCodegen.Proofs.Export.Program
import ControlCodegen.Proofs.Export.Room
import ControlCodegen.Proofs.Export.Bounds
import ControlCodegen.Proofs.C.Fill
import ControlCodegen.Proofs.Solver.Simulation
import ControlCodegen.Proofs.Integrator.Layout
import ControlCodegen.Proofs.Export.Layout
import ControlCodegen.Proofs.Plan.Domain
import ControlCodegen.Proofs.C.References
import ControlCodegen.Proofs.Export.References
import ControlCodegen.Proofs.C.Uses
import ControlCodegen.Proofs.Export.Shapes
import ControlCodegen.Proofs.C.Definitions
import ControlCodegen.Proofs.Export.Prototypes
import ControlCodegen.Proofs.C.Calls
import ControlCodegen.Proofs.Double.Packing
import ControlCodegen.Proofs.Double.Rounding
import ControlCodegen.Proofs.Double.Arithmetic
import ControlCodegen.Proofs.Double.Literal
import ControlCodegen.Proofs.Problem.Grid
import ControlCodegen.Proofs.Integrator.StepSize
import ControlCodegen.Proofs.Export.Interval
import ControlCodegen.Proofs.Export.Agreement
import ControlCodegen.Proofs.C.Lexeme
import ControlCodegen.Proofs.C.Preprocessor
import ControlCodegen.Proofs.C.Reading
import ControlCodegen.Proofs.C.Exchange
import ControlCodegen.Proofs.Template.Source
import ControlCodegen.Proofs.Template.Digest
import ControlCodegen.Proofs.Template.Bus
import ControlCodegen.Proofs.Export.Copies
import ControlCodegen.Proofs.Export.Variables
import ControlCodegen.Proofs.Export.Buses
import ControlCodegen.Proofs.Export.Mentions
import ControlCodegen.Proofs.Export.ExactHessian
import ControlCodegen.Proofs.Export.Arities
import ControlCodegen.Proofs.Files.Path
import ControlCodegen.Proofs.Files.Tree
import ControlCodegen.Proofs.Files.Disk
import ControlCodegen.Proofs.Files.Journal
import ControlCodegen.Proofs.Plan.Session
import ControlCodegen.Proofs.Template.Values
import ControlCodegen.Proofs.Export.Inventory
import ControlCodegen.Proofs.Export.Artifacts
import ControlCodegen.Proofs.Export.Run
import ControlCodegen.Proofs.Export.Outcome
import ControlCodegen.Proofs.Export.Success
import ControlCodegen.Proofs.Export.Completion
import ControlCodegen.Proofs.Export.Verification
import ControlCodegen.Proofs.Export.Failure
import ControlCodegen.Proofs.Export.Classification
import ControlCodegen.Proofs.Export.Lifecycle
import ControlCodegen.Proofs.Solver.Configuration
import ControlCodegen.Proofs.Project.Load
import ControlCodegen.Proofs.Export.Acceptance
import ControlCodegen.Proofs.Command.Agreement
import ControlCodegen.Proofs.Export.Blame
import ControlCodegen.Proofs.Export.Identifiers
import ControlCodegen.Proofs.Template.Build
import ControlCodegen.Proofs.Export.BuildFiles
import ControlCodegen.Proofs.Export.TypeNames
import ControlCodegen.Proofs.C.Division
import ControlCodegen.Proofs.C.Rounds
import ControlCodegen.Proofs.Integrator.Elimination
import ControlCodegen.Proofs.Integrator.Reduction
import ControlCodegen.Proofs.Integrator.Solution
import ControlCodegen.Proofs.C.Updates
import ControlCodegen.Proofs.Integrator.Stages
import ControlCodegen.Proofs.Integrator.Steps
import ControlCodegen.Proofs.Integrator.File
import ControlCodegen.Proofs.Integrator.RungeKutta
import ControlCodegen.Proofs.C.Footprint
import ControlCodegen.Proofs.Integrator.Locality
import ControlCodegen.Proofs.Integrator.Newton
import ControlCodegen.Proofs.Integrator.Affine
import ControlCodegen.Proofs.Integrator.Discrete
import ControlCodegen.Proofs.Integrator.Dependence
import ControlCodegen.Proofs.Export.Independence
import ControlCodegen.Proofs.Integrator.Status
import ControlCodegen.Proofs.Export.Statuses
import ControlCodegen.Proofs.Integrator.Coverage
import ControlCodegen.Proofs.Text.Lines
import ControlCodegen.Proofs.Text.Reader
import ControlCodegen.Proofs.Text.Marks
import ControlCodegen.Proofs.Text.Replace
import ControlCodegen.Proofs.Environment.Reference
import ControlCodegen.Proofs.Environment.Substitution
import ControlCodegen.Proofs.Project.Overrides
import ControlCodegen.Proofs.Command.Preparation
import ControlCodegen.Proofs.Template.Rendering
import ControlCodegen.Proofs.Files.Repetition
import ControlCodegen.Proofs.Export.Repetition
import ControlCodegen.Proofs.Files.Footprint
import ControlCodegen.Proofs.Export.Footprint
import ControlCodegen.Proofs.Command.Footprint
import ControlCodegen.Proofs.Integrator.Rebinding
import ControlCodegen.Proofs.Solver.Shift
import ControlCodegen.Proofs.Export.Shift
import ControlCodegen.Proofs.Decimal.Rounding
import ControlCodegen.Proofs.Decimal.Significant
import ControlCodegen.Proofs.Decimal.Numeral
import ControlCodegen.Proofs.Double.Nearest
import ControlCodegen.Proofs.Double.Faithful
import ControlCodegen.Proofs.Solver.Readiness
import ControlCodegen.Proofs.Error.Wrapping
