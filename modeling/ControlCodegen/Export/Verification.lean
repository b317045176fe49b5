import ControlCodegen.Export.Summary

/-!
# `Export.Verification`: whether exported files are still as they were written

`verify` compares every recorded file with its checksum; a file that cannot be read counts as changed. The report is made
whatever is found.
-/

namespace ControlCodegen

set_option autoImplicit false

/-- A file that is not as recorded. -/
structure VerificationFailure where
  path : Files.Path
  /-- The checksum on record. -/
  expected : String
  /-- The checksum now, if the file can be read. -/
  actual : Option String
  reason : String
  deriving DecidableEq, Repr

/-- What a verification has found. -/
structure VerificationReport where
  verifiedAt : Moment
  /-- Files that are as recorded. -/
  passed : Nat := 0
  /-- The others, in the order of their records. -/
  failures : List VerificationFailure := []
  /-- Milliseconds that the verification took. -/
  duration : Nat := 0
  deriving DecidableEq, Repr

namespace VerificationReport

def pass (r : VerificationReport) : VerificationReport := { r with passed := r.passed + 1 }

def fail (r : VerificationReport) (f : VerificationFailure) : VerificationReport :=
  { r with failures := r.failures ++ [f] }

/-- The number of files that are not as recorded. -/
def failed (r : VerificationReport) : Nat := r.failures.length

/-- The number of files that were looked at. -/
def total (r : VerificationReport) : Nat := r.passed + r.failed

def isSuccess (r : VerificationReport) : Bool := r.failures.isEmpty

def text (r : VerificationReport) : String :=
  "Verification Report\n" ++
  s!"  Verified at: {r.verifiedAt.display}\n" ++
  s!"  Duration: {r.duration} ms\n" ++
  s!"  Total verified: {r.total}\n" ++
  s!"  Passed: {r.passed}\n" ++
  s!"  Failed: {r.failed}\n" ++
  if r.failures.isEmpty then ""
  else
    "\nFailures:\n" ++ String.join (r.failures.zipIdx.map fun (f, k) =>
      s!"  {k + 1}. {f.path}\n     Reason: {f.reason}\n")

end VerificationReport

section

variable {m : Type → Type} [Monad m] [Files.FileSystem m]

def verifyArtifact (r : VerificationReport) (a : ArtifactRecord) : m VerificationReport := do
  match ← (fileChecksum a.path : Files.Action m Files.FileError String).run with
  | .ok actual =>
    return if actual = a.checksum then r.pass else r.fail ⟨a.path, a.checksum, some actual, "Checksum mismatch"⟩
  | .error e =>
    return r.fail ⟨a.path, a.checksum, none, s!"File could not be read: {(Cause.file e).message}"⟩

def verify (s : Summary) (now : Moment) : m VerificationReport :=
  s.artifacts.foldlM verifyArtifact { verifiedAt := now }

end

end ControlCodegen
