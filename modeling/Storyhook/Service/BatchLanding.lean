import Storyhook.Store.Landing

namespace Storyhook.Service

open Storyhook.Store
open Library Library.Outcome

structure VerificationCandidate where
  project : Int
  storyId : String
  projectSlug : String
  checkout : String
  deriving DecidableEq, Repr

inductive Admissible where
  | ready (generation : Int) (pullRequest : String)
  | held (blockers : List String)
  | superseded
  deriving DecidableEq, Repr

/-- What the rest of the store answers about a submission, and how it takes its completion. -/
structure Submissions (ω : Type) extends Fences ω where
  prefixOf : ω → Int → Except StoreError String
  admissible : LandingStore ω → VerificationCandidate → Except StoreError Admissible
  humanPermits : ω → VerificationCandidate → Except StoreError Bool
  isHumanOnly : ω → LandingIntent → Except StoreError Bool
  completeStory : LandingStore ω → VerificationBatch → LandingIntent → String → Except StoreError ω
  deriveBlockEdges : ω → Except StoreError ω

inductive BatchLandingAdmission where
  | admitted (rows : List LandingIntent) (record : VerificationBatch)
  | refused (detail : String)
  deriving DecidableEq, Repr

def insertRow (row : LandingIntent) : List LandingIntent → List LandingIntent
  | [] => [row]
  | other :: rest =>
      if row.project < other.project ∨ row.project = other.project ∧ row.story < other.story then
        row :: other :: rest
      else other :: insertRow row rest

section Transactions

variable {ω : Type} (services : Submissions ω) (store : LandingStore ω)

def insertLandingIntent (intent : LandingIntent) : Except StoreError (LandingStore ω) := do
  refuse (store.intents.any fun row => row.id == intent.id ||
    (row.project == intent.project && row.story == intent.story))
    (.constraint "admitting landing intent: UNIQUE constraint failed: landing_intents")
  pure { store with intents := insertRow intent store.intents }

def removeLandingIntent (intent : LandingIntent) : LandingStore ω :=
  { store with intents := store.intents.filter fun row => row ≠ intent }

def isCurrent (next : VerificationBatch) (expected : Int) (row : VerificationBatch) : Bool :=
  row.id == next.id && row.project == next.project && row.revision == expected &&
    (row.phase.isLive || row.phase == next.phase)

def updateVerificationBatch (next : VerificationBatch) (expected : Int) :
    Except StoreError (Bool × LandingStore ω) := do
  next.validate
  refuse (expected < 0 || expected = i64Max || expected + 1 ≠ next.revision)
    (.validation ("verification batch " ++ next.id ++ " revision must advance exactly once"))
  if store.batches.any (isCurrent next expected) then
    pure (true, { store with
      batches := store.batches.map fun row => if isCurrent next expected row then next else row })
  else pure (false, store)

def findBatch (project : Int) (id : String) : Option VerificationBatch :=
  store.batches.find? fun record => record.project == project && record.id == id

def pendingIntent (candidate : VerificationCandidate) : Option LandingIntent :=
  store.intents.find? fun row => row.project == candidate.project && row.storyId ==
    candidate.storyId

def admitIntent (intent : LandingIntent) : Except StoreError (LandingStore ω) := do
  validateIntent services.toFences store.rest intent
  insertLandingIntent store intent

/-- Why a batch is not admitted: it is refused, or the store failed. -/
inductive AdmissionStop where
  | refused (detail : String)
  | failed (failure : StoreError)

def orFail {α : Type} (outcome : Except StoreError α) : Except AdmissionStop α :=
  outcome.mapError .failed

def ofAppError : Domain.AppError → StoreError
  | .usage text | .validation text => .validation text
  | .notFound text => .notFound text
  | .integrity text | .storage text => .corrupt text
  | .stateConflict expected actual => .invariant (expected ++ actual)

def memberRow (record : VerificationBatch) (certification : VerifiedSubmission)
    (batch : BatchLanding) (idPrefix now id : String) (candidate : VerificationCandidate)
    (member : BatchMember) : Except AdmissionStop LandingIntent := do
  match pendingIntent store candidate with
  | some pending =>
      .error (.refused (candidate.storyId ++ " already has pending landing " ++ pending.id))
  | none =>
      match ← orFail (services.admissible store candidate) with
      | .held blockers => .error (.refused
          (candidate.storyId ++ " is held by open blockers: " ++ ", ".intercalate blockers))
      | .superseded => .error (.refused (candidate.storyId ++ " changed after the batch gate"))
      | .ready generation pullRequest =>
          if generation ≠ member.generation ∨ pullRequest ≠ member.pullRequest then
            .error (.refused (candidate.storyId ++
              " is not the generation or pull request the batch gated"))
          else
            match parseId idPrefix candidate.storyId with
            | .error failure => .error (.failed (ofAppError failure))
            | .ok story => .ok {
                id := id
                project := record.project
                story := story
                storyId := candidate.storyId
                projectSlug := candidate.projectSlug
                generation := generation
                pullRequest := pullRequest
                checkout := candidate.checkout
                certification := .certified certification
                createdAt := now
                batch := some batch }

def changedDuring (record : VerificationBatch) (what : String) : StoreError :=
  .invariant ("verification batch " ++ record.id ++ " changed while " ++ what)

def admitBatch (record : VerificationBatch) (members : List VerificationCandidate)
    (certification : VerifiedSubmission) (gate : BatchGate) (batch : BatchLanding) (now : String)
    (ids : Nat → String) : Except StoreError (BatchLandingAdmission × LandingStore ω) := do
  let idPrefix ← services.prefixOf store.rest record.project
  match (members.zip record.members).zipIdx.mapM fun entry =>
      memberRow services store record certification batch idPrefix now (ids entry.2)
        entry.1.1 entry.1.2 with
  | .error (.refused detail) => pure (.refused detail, store)
  | .error (.failed failure) => .error failure
  | .ok rows => do
      let admitted ← rows.foldlM (admitIntent services) store
      let advanced ← record.advance .landing now
      let next := { advanced with gate := some gate }
      let (written, after) ← updateVerificationBatch admitted next record.revision
      refuse (!written) (changedDuring record "its landing was admitted")
      pure (.admitted (rows.mergeSort fun left right => left.story ≤ right.story) next, after)

def beginBatchLanding (ctxProject : Int) (record : VerificationBatch)
    (members : List VerificationCandidate) (certification : VerifiedSubmission) (gate : BatchGate)
    (now landing : String) (ids : Nat → String) :
    Except StoreError (BatchLandingAdmission × LandingStore ω) := do
  certification.validate
  refuse (ctxProject ≠ record.project) (.validation "landing context belongs to another project")
  if certification.head ≠ record.tip then
    pure (.refused ("the gate certified head " ++ certification.head ++ ", not the batch tip " ++
      record.tip), store)
  else
    match record.pullRequest with
    | none => pure (.refused "the batch has no pull request", store)
    | some pullRequest =>
        if members.map (·.storyId) ≠ record.members.map (·.storyId) then
          pure (.refused "the candidates are not the batch's members", store)
        else
          match findBatch store record.project record.id with
          | none => pure (.refused "the batch record is gone", store)
          | some current =>
              if current ≠ record ∨ current.phase ≠ .gating then
                pure (.refused "the batch record changed since its gate", store)
              else
                admitBatch services store record members certification gate
                  ⟨record.id, landing, pullRequest.url⟩ now ids

def completable (intent : LandingIntent) (candidate : VerificationCandidate) :
    Except StoreError Bool := do
  intent.requireOrdinaryController
  if !(← services.humanPermits store.rest candidate) then return false
  if intent ∉ store.intents then return false
  validateIntent services.toFences store.rest intent
  return !(← services.isHumanOnly store.rest intent)

/-- One member of a confirmed merge, completed where the verifier may. -/
def completeRow (record : VerificationBatch) (detail : String)
    (members : List VerificationCandidate)
    (state : LandingStore ω × List String) (row : LandingIntent) :
    Except StoreError (LandingStore ω × List String) := do
  match members.find? fun candidate => candidate.storyId == row.storyId with
  | none => return state
  | some candidate =>
      if !(← completable services state.1 row candidate) then return state
      row.requireOrdinaryController
      let removed := removeLandingIntent state.1 row
      let rest ← services.completeStory removed record row detail
      return ({ removed with rest := rest }, state.2 ++ [row.storyId])

/-- The members of a confirmed merge that the verifier may complete, and the record landed. -/
def completeMembers (project : Int) (batch : BatchLanding) (detail now : String)
    (members : List VerificationCandidate) : Except StoreError (List String × LandingStore ω) :=
  match findBatch store project batch.id with
  | none => pure ([], store)
  | some record => do
      let rows := store.intents.filter fun row => row.batch = some batch
      let final ← rows.foldlM (completeRow services record detail members) (store, [])
      if final.2 ≠ [] ∧ record.phase = .landing then do
        let advanced ← record.advance .landed now
        let next := { advanced with
          detail := some ("landed; " ++ ", ".intercalate final.2 ++ " done in one transaction") }
        let landed ← updateVerificationBatch final.1 next record.revision
        refuse (!landed.1) (changedDuring record "its members completed")
        pure (final.2, landed.2)
      else pure (final.2, final.1)

def completeBatchLanding (ctxProject : Int) (intent : BatchLandingIntent) (detail now : String)
    (members : List VerificationCandidate) : Except StoreError (List String × LandingStore ω) := do
  let first ← demand intent.rows.head? (.validation "a batch landing has no members")
  refuse (ctxProject ≠ first.project) (.validation "landing context belongs to another project")
  let outcome ← completeMembers services store first.project intent.batch detail now members
  let rest ← services.deriveBlockEdges outcome.2.rest
  pure (outcome.1, { outcome.2 with rest := rest })

def releaseIntent (intent : LandingIntent) : Except StoreError (Bool × LandingStore ω) := do
  intent.requireOrdinaryController
  pure (decide (intent ∈ store.intents), removeLandingIntent store intent)

def releaseUnattemptedBatchLanding (ctxProject : Int) (intent : BatchLandingIntent)
    (detail now : String) : Except StoreError (VerificationBatch × LandingStore ω) := do
  let record ← demand (findBatch store ctxProject intent.batch.id)
    (.notFound ("verification batch " ++ intent.batch.id))
  let rows := store.intents.filter fun row => row.batch = some intent.batch
  let released ← rows.foldlM (fun state row => (releaseIntent state row).map (·.2)) store
  let advanced ← record.advance .released now
  let next := { advanced with detail := some detail }
  let updated ← updateVerificationBatch released next record.revision
  refuse (!updated.1) (changedDuring record "its landing was released")
  pure (next, updated.2)

def withdrawMember (record : VerificationBatch) (intent : LandingIntent) (now : String) :
    Except StoreError (LandingStore ω) := do
  let next := { record with
    withdrawn := record.withdrawn ++ [intent.story]
    revision := record.revision + 1
    updatedAt := now }
  let updated ← updateVerificationBatch store next record.revision
  refuse (!updated.1) (changedDuring record ("a reset withdrew " ++ intent.storyId))
  pure updated.2

def landingBatch (intent : LandingIntent) : Option VerificationBatch := do
  let binding ← intent.batch
  let record ← findBatch store intent.project binding.id
  if record.phase = .landing then some record else none

def supersededText (intent : LandingIntent) (note : String) : String :=
  "the pending landing of " ++ intent.pullRequest ++
    " (its merge outcome is unknown; the pull request can still merge" ++ note ++ ")"

def supersedeForReset (intent : LandingIntent) (now : String) :
    Except StoreError (String × LandingStore ω) := do
  intent.requireOrdinaryController
  match landingBatch store intent with
  | none => pure (supersededText intent "", removeLandingIntent store intent)
  | some record => do
      let noted ← withdrawMember store record intent now
      pure (supersededText intent ("; it was a member of verification batch " ++ record.id ++
        ", whose pull request can still land its commits"), removeLandingIntent noted intent)

end Transactions

/-- The transactions that decide a batch's landing; a reset writes more than its landing. -/
inductive LandingOp (ω : Type) where
  | beginBatch (ctxProject : Int) (record : VerificationBatch)
      (members : List VerificationCandidate) (certification : VerifiedSubmission) (gate : BatchGate)
      (now landing : String) (ids : Nat → String)
  | completeBatch (ctxProject : Int) (intent : BatchLandingIntent) (detail now : String)
      (members : List VerificationCandidate)
  | releaseBatch (ctxProject : Int) (intent : BatchLandingIntent) (detail now : String)
  | release (intent : LandingIntent)
  | supersede (intent : LandingIntent) (now : String) (rest : ω)

section Commits

variable {ω : Type} (services : Submissions ω) (store : LandingStore ω)

/-- What a transaction would leave, before it is checked. -/
def LandingOp.run : LandingOp ω → Except StoreError (LandingStore ω)
  | .beginBatch ctxProject record members certification gate now landing ids =>
      (beginBatchLanding services store ctxProject record members certification gate now landing
        ids).map (·.2)
  | .completeBatch ctxProject intent detail now members =>
      (completeBatchLanding services store ctxProject intent detail now members).map (·.2)
  | .releaseBatch ctxProject intent detail now =>
      (releaseUnattemptedBatchLanding store ctxProject intent detail now).map (·.2)
  | .release intent => (releaseIntent store intent).map (·.2)
  | .supersede intent now rest =>
      (supersedeForReset store intent now).map fun outcome => { outcome.2 with rest := rest }

/-- A transaction commits when nothing fails and all that is pending is still valid. -/
def LandingOp.commit (op : LandingOp ω) : Except StoreError (LandingStore ω) := do
  let after ← op.run services store
  validatePending services.toFences after
  return after

def LandingOp.perform (op : LandingOp ω) : LandingStore ω :=
  (op.commit services store).toOption.getD store

end Commits

def runLanding {ω : Type} (services : Submissions ω) (store : LandingStore ω)
    (ops : List (LandingOp ω)) : LandingStore ω :=
  ops.foldl (fun state op => op.perform services state) store

end Storyhook.Service
