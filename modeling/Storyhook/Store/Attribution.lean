import Storyhook.Service.Attribution

namespace Storyhook.Store

open Storyhook.Service
open Library Library.Outcome

/-- The rows of the attribution table, in the order they were inserted. -/
abbrev Attributions := List AttributionRecord

def invalidReservation (record : AttributionRecord) (why : String) : StoreError :=
  .validation ("attribution " ++ record.id ++ " cannot reserve diagnosis work: " ++ why)

section Calls

variable (rfc3339 : String → Bool)

def decode (record : AttributionRecord) : Except StoreError AttributionRecord :=
  match record.check rfc3339 with
  | .ok () => .ok record
  | .error why => .error (.corrupt ("invalid attribution " ++ record.id ++ ": " ++ why))

def listAttributions (table : Attributions) (project : Int) :
    Except StoreError (List AttributionRecord) :=
  (table.filter fun row => row.submission.project == project).mapM (decode rfc3339)

def insertAttribution (table : Attributions) (record : AttributionRecord) :
    Except StoreError Attributions := do
  record.validate rfc3339
  refuse (record.revision ≠ 0 || !record.held || record.preparation.isSome ||
    record.settlement.isSome || !record.probes.isEmpty || !record.assessments.isEmpty ||
    record.diagnosisMs ≠ 0)
    (.validation "new attribution must be an unexecuted hold at revision zero")
  refuse (table.any fun row => row.id == record.id)
    (.constraint "inserting attribution hold: UNIQUE constraint failed: verification_attributions.id")
  refuse (record.submission.generation.isSome && table.any fun row =>
    row.submission.project == record.submission.project &&
    row.submission.storyId == record.submission.storyId &&
    row.submission.generation == record.submission.generation && row.attempt == record.attempt)
    (.constraint ("inserting attribution hold: UNIQUE constraint failed: " ++
      "verification_attributions.project_id, verification_attributions.story_id, " ++
      "verification_attributions.generation, verification_attributions.attempt_id"))
  pure (table ++ [record])

def isPreparing (old next : AttributionRecord) : Bool :=
  old.preparation.isNone && next.preparation.isSome

def isProbing (old next : AttributionRecord) : Bool :=
  next.probes.length != old.probes.length

def validPreparation (old next : AttributionRecord) : Bool :=
  isPreparing old next && !isProbing old next && next.probes.isEmpty && next.plans == old.plans &&
    next.assessments == old.assessments && next.preparation.any (·.completed.isNone)

def validProbe (old next : AttributionRecord) : Bool :=
  isProbing old next && old.settlement.isNone && next.settlement.isNone && !isPreparing old next &&
    next.preparation == old.preparation && next.probes.length == old.probes.length + 1 &&
    next.probes.getLast?.any (·.completed.isNone) && old.probes.isPrefixOf next.probes

/-- What the records of a generation have used, of which none may still run. -/
def reservationStep (old next : AttributionRecord) (used : Nat × Nat) (record : AttributionRecord) :
    Except StoreError (Nat × Nat) := do
  refuse (used.1 + record.probes.length > u64Max) (invalidReservation next "probe count overflow")
  refuse (used.2 + record.diagnosisMs > u64Max) (invalidReservation next "elapsed time overflow")
  -- The record being probed may still own what it was prepared with.
  let unsettled := if validProbe old next && record.id == old.id then record.hasUnsettledExecution
    else record.hasUnsettledDiagnosis
  refuse unsettled (invalidReservation next "an earlier reserved execution remains unsettled")
  pure (used.1 + record.probes.length, used.2 + record.diagnosisMs)

def checkReservation (table : Attributions) (old next : AttributionRecord) :
    Except StoreError Unit :=
  if !isPreparing old next && !isProbing old next then pure ()
  else do
    refuse (next.submission.generation.isNone || (!validPreparation old next && !validProbe old next) ||
      !next.held || next.diagnosisMs ≠ old.diagnosisMs)
      (invalidReservation next
        "one unfinished reservation with an exact live submission is required")
    let records ← listAttributions rfc3339 table next.submission.project
    let used ← (records.filter fun record =>
      record.submission.sameGeneration next.submission).foldlM
      (reservationStep old next) (0, 0)
    refuse (used.1 ≥ maxProbes || used.2 ≥ maxDiagnosisMs)
      (invalidReservation next "this submission exhausted its retained diagnosis allowance")

def isTarget (record : AttributionRecord) (expected : Int) (row : AttributionRecord) : Bool :=
  row.id == record.id && row.submission.project == record.submission.project &&
    row.revision == expected

def updateAttribution (table : Attributions) (record : AttributionRecord) (expected : Int) :
    Except StoreError (Bool × Attributions) := do
  record.validate rfc3339
  refuse (expected < 0 || expected = i64Max || expected + 1 ≠ record.revision)
    (.validation "attribution revision must advance exactly once")
  match table.find? (isTarget record expected) with
  | none => pure (false, table)
  | some row =>
      let old ← decode rfc3339 row
      refuse (!old.preservedBy record) (.validation ("attribution " ++ record.id ++
        " cannot replace immutable identity, observations or consumed allowance"))
      checkReservation rfc3339 table old record
      pure (true, table.map fun row => if isTarget record expected row then record else row)

end Calls

inductive AttributionCall where
  | insert (record : AttributionRecord)
  | update (record : AttributionRecord) (expected : Int)

/-- A call that fails leaves the table as it is. -/
def AttributionCall.perform (rfc3339 : String → Bool) (table : Attributions) :
    AttributionCall → Attributions
  | .insert record => (insertAttribution rfc3339 table record).toOption.getD table
  | .update record expected =>
      ((updateAttribution rfc3339 table record expected).toOption.map (·.2)).getD table

def runCalls (rfc3339 : String → Bool) (calls : List AttributionCall) : Attributions :=
  calls.foldl (AttributionCall.perform rfc3339) []

end Storyhook.Store
