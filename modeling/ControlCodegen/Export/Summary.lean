import ControlCodegen.Document.Json
import ControlCodegen.Digest.Sha256
import ControlCodegen.Error
import ControlCodegen.Export.Artifact
import ControlCodegen.Project.Decode
import ControlCodegen.Time.Moment

/-!
# `Export.Summary`: the record of an export

A summary lists the files that an export has written, each with its size and checksum, and what was left out. It is
written as a report in JSON, and read back from one.
-/

namespace ControlCodegen

open Document

set_option autoImplicit false

/-- A file that was written. -/
structure ArtifactRecord where
  path : Files.Path
  kind : ArtifactKind
  production : Production
  /-- The SHA-256 digest in hexadecimal. -/
  checksum : String
  /-- The number of bytes. -/
  size : Nat
  deriving DecidableEq, Repr

/-- The record of an export. -/
structure Summary where
  moduleName : ModuleName
  startedAt : Moment
  /-- Microseconds that the export took. -/
  duration : Nat := 0
  /-- The files in the order of writing. -/
  artifacts : List ArtifactRecord := []
  /-- What was left out. -/
  warnings : List String := []
  deriving DecidableEq, Repr

/-- The SHA-256 digest of bytes in hexadecimal. -/
def checksum (bytes : ByteArray) : String := Digest.Sha256.hex bytes

def fileChecksum {m : Type → Type} [Monad m] [Files.FileSystem m] (path : Files.Path) :
    Files.Action m Files.FileError String :=
  checksum <$> Files.read path

namespace ArtifactRecord

/-- The record of a file with given contents. -/
def ofBytes (kind : ArtifactKind) (path : Files.Path) (bytes : ByteArray) : ArtifactRecord where
  path := path
  kind := kind
  production := kind.production
  checksum := ControlCodegen.checksum bytes
  size := bytes.size

def toData (r : ArtifactRecord) : Data :=
  .table [("path", .text r.path.text), ("kind", .text (Choice.name r.kind)),
    ("method", .text (Choice.name r.production)), ("sha256", .text r.checksum), ("bytes", .whole r.size)]

/-- A record out of data; every field has to be there. -/
def decode? (nt : Notation) (d : Data) : Option ArtifactRecord := do
  let f ← Fields.of? nt ["path", "kind", "method", "sha256", "bytes"] d
  return {
    path := ⟨← f.required "path" asText⟩
    kind := ← f.required "kind" (Choice.decode? nt)
    production := ← f.required "method" (Choice.decode? nt)
    checksum := ← f.required "sha256" asText
    size := ← f.required "bytes" asWhole }

end ArtifactRecord

namespace Summary

/-- Records a file with its current contents. -/
def record {m : Type → Type} [Monad m] [Files.FileSystem m] (s : Summary) (kind : ArtifactKind) (path : Files.Path) :
    Files.Action m Files.FileError Summary := do
  let bytes ← Files.read path
  return { s with artifacts := s.artifacts ++ [.ofBytes kind path bytes] }

def warn (s : Summary) (text : String) : Summary := { s with warnings := s.warnings ++ [text] }

def ofKind (s : Summary) (kind : ArtifactKind) : List ArtifactRecord := s.artifacts.filter (·.kind = kind)

/-- Whether a file with the components of a path is recorded. -/
def containsPath (s : Summary) (path : Files.Path) : Bool := s.artifacts.any (·.path.same path)

/-- The summary in data; the duration is given in whole milliseconds. -/
def toData (s : Summary) : Data :=
  .table [("module", .text s.moduleName.text), ("started_at", .text s.startedAt.stamp),
    ("duration", .whole ((s.duration / 1000) % Decimal.wordBound : Nat)),
    ("artifacts", .list (s.artifacts.map ArtifactRecord.toData)), ("warnings", .list (s.warnings.map .text))]

def toJson (s : Summary) : String := Json.pretty s.toData

/-- A summary out of data; every field has to be there. -/
def decode? (nt : Notation) (d : Data) : Option Summary := do
  let f ← Fields.of? nt ["module", "started_at", "duration", "artifacts", "warnings"] d
  return {
    moduleName := ← f.required "module" ModuleName.decode?
    startedAt := ← f.required "started_at" fun d => (asText d).bind Moment.parse?
    duration := (← f.required "duration" asWhole) * 1000
    artifacts := ← f.required "artifacts" (asList (ArtifactRecord.decode? nt))
    warnings := ← f.required "warnings" (asList asText) }

def ofJson? (text : String) : Option Summary := (Json.strict? text).bind (decode? Json.fieldNotation)

def writeReport {m : Type → Type} [Monad m] [Files.FileSystem m] (s : Summary) (path : Files.Path) :
    Files.Action m Files.FileError Unit :=
  Files.writeText path s.toJson

end Summary

end ControlCodegen
