import Storyhook.Store.VerificationBatch

namespace Storyhook.Store

open Library Library.Outcome

structure VerifiedSubmission where
  head : String
  tree : String
  gate : String
  deriving DecidableEq, Repr

structure SkippedSubmission where
  head : String
  tree : String
  attempt : String
  deriving DecidableEq, Repr

structure IntegrationLanding where
  version : Nat
  owner : String
  epoch : Nat
  attempt : String
  pullRequest : String
  originalHead : String
  pinnedBase : String
  base : String
  certification : VerifiedSubmission
  deriving DecidableEq, Repr

inductive LandingAuthority where
  | certified (submission : VerifiedSubmission)
  | skipped (submission : SkippedSubmission)
  | integration (landing : IntegrationLanding)
  deriving DecidableEq, Repr

namespace LandingAuthority

def head : LandingAuthority → String
  | .certified submission => submission.head
  | .skipped submission => submission.head
  | .integration landing => landing.certification.head

def certificate : LandingAuthority → Option VerifiedSubmission
  | .certified submission => some submission
  | .skipped _ => none
  | .integration landing => some landing.certification

def isIntegration : LandingAuthority → Bool
  | .integration _ => true
  | .certified _ | .skipped _ => false

end LandingAuthority

def VerifiedSubmission.validate (submission : VerifiedSubmission) : Except StoreError Unit := do
  refuse (!pinned submission.head) (.validation "verified head must be a full Git object id")
  refuse (!pinned submission.tree) (.validation "verified tree must be a full Git object id")
  refuse (Text.trim submission.gate.toList).isEmpty
    (.validation "verification certification has no gate")

def SkippedSubmission.validate (submission : SkippedSubmission) : Except StoreError Unit := do
  refuse (!pinned submission.head) (.validation "skipped landing head must be a full Git object id")
  refuse (!pinned submission.tree) (.validation "skipped landing tree must be a full Git object id")
  refuse (submission.attempt.isEmpty || submission.attempt.toList.any fun character =>
    !(character.isAlphanum || character == '-'))
    (.validation "skipped landing requires a valid owning attempt identity")

/-- What binds a member's landing intent to its batch. -/
structure BatchLanding where
  id : String
  landing : String
  pullRequest : String
  deriving DecidableEq, Repr

structure LandingIntent where
  id : String
  project : Int
  story : StoryNo
  storyId : String
  projectSlug : String
  generation : Int
  pullRequest : String
  checkout : String
  certification : LandingAuthority
  createdAt : String
  batch : Option BatchLanding
  deriving DecidableEq, Repr

def LandingIntent.requireOrdinaryController (intent : LandingIntent) : Except StoreError Unit :=
  refuse intent.certification.isIntegration (.validation (
    if intent.batch.isSome then "landing cannot combine batch and integration authority"
    else "integration landing requires its dedicated owner controller"))

/-- One batch's landing: the intents still pending that share it. -/
structure BatchLandingIntent where
  batch : BatchLanding
  certification : LandingAuthority
  rows : List LandingIntent
  deriving DecidableEq, Repr

/-- The groups with one more row, of which the first is of the row's batch. -/
def addRow (row : LandingIntent) (batch : BatchLanding) :
    List BatchLandingIntent → List BatchLandingIntent
  | [] => [⟨batch, row.certification, [row]⟩]
  | known :: rest =>
      if known.batch.id = batch.id then { known with rows := known.rows ++ [row] } :: rest
      else known :: addRow row batch rest

def collect (intents : List LandingIntent) : List BatchLandingIntent :=
  intents.foldl (fun batches intent =>
    match intent.batch with
    | none => batches
    | some batch => addRow intent batch batches) []

/-- The tables a landing is decided in, and the rest of the store. -/
structure LandingStore (ω : Type) where
  intents : List LandingIntent
  batches : List VerificationBatch
  rest : ω

/-- What the rest of the store makes of a landing. -/
structure Fences (ω : Type) where
  integrationValid : ω → IntegrationLanding → Except StoreError Unit
  submissionCurrent : ω → LandingIntent → Except StoreError Unit

section Validation

variable {ω : Type} (fences : Fences ω)

def LandingAuthority.validate (rest : ω) : LandingAuthority → Except StoreError Unit
  | .certified submission => submission.validate
  | .skipped submission => submission.validate
  | .integration landing => fences.integrationValid rest landing

def unresolved (intent : LandingIntent) (detail : String) : StoreError :=
  .validation ("story `" ++ intent.storyId ++ "` has unresolved landing `" ++ intent.id ++ "`: " ++
    detail ++ "; reconcile its merge outcome before changing submission authority or blockers")

def validateIntent (rest : ω) (intent : LandingIntent) : Except StoreError Unit := do
  refuse (intent.certification.isIntegration && intent.batch.isSome)
    (.validation "landing cannot combine batch and integration authority")
  intent.certification.validate fences rest
  refuse (intent.batch.isSome && intent.certification.certificate.isNone)
    (unresolved intent "a batch landing requires actual certification")
  fences.submissionCurrent rest intent

def unresolvedBatch (batch : BatchLanding) (detail : String) : StoreError :=
  .validation ("verification batch " ++ batch.id ++ " has unresolved landing `" ++ batch.landing ++
    "`: " ++ detail ++ "; reconcile its merge outcome before changing its members")

def checkMember (record : VerificationBatch) (batch : BatchLanding) (row : LandingIntent) :
    Except StoreError Unit := do
  let member ← demand (record.members.find? fun member => member.story == row.story)
    (unresolvedBatch batch (row.storyId ++ " is not a member of the batch"))
  refuse (member.generation ≠ row.generation || member.pullRequest ≠ row.pullRequest)
    (unresolvedBatch batch
      (row.storyId ++ "'s generation or pull request is not the one the batch recorded"))

def checkPhase (record : VerificationBatch) (group : BatchLandingIntent) : Except StoreError Unit :=
  match record.phase with
  | .landing =>
      refuse (group.rows.length + record.withdrawn.length ≠ record.members.length ||
        group.rows.any fun row => record.withdrawn.contains row.story)
        (unresolvedBatch group.batch
          "a member's intent was resolved before the batch merge was confirmed")
  | .landed => .ok ()
  | phase => .error (unresolvedBatch group.batch
      ("the batch record is " ++ phase.asStr ++ ", not landing"))

def validateBatch (batches : List VerificationBatch) (group : BatchLandingIntent) :
    Except StoreError Unit :=
  match group.rows with
  -- A group is collected around its first row.
  | [] => .ok ()
  | first :: _ => do
      refuse (group.rows.any fun row => row.batch ≠ some group.batch ||
        row.certification ≠ group.certification || row.project ≠ first.project ||
        row.checkout ≠ first.checkout)
        (unresolvedBatch group.batch
          "its member intents disagree about the batch, certification or checkout")
      let record ← demand (batches.find? fun record =>
        record.project == first.project && record.id == group.batch.id)
        (unresolvedBatch group.batch "the batch record is missing")
      refuse (record.tip ≠ group.certification.head ||
        record.pullRequest.all fun pullRequest => pullRequest.url ≠ group.batch.pullRequest)
        (unresolvedBatch group.batch
          "the certified head or batch pull request is not the batch record's")
      group.rows.forM (checkMember record group.batch)
      checkPhase record group

/-- All unresolved authority against what a transaction leaves, before it commits. -/
def validatePending (store : LandingStore ω) : Except StoreError Unit := do
  store.intents.forM (validateIntent fences store.rest)
  (collect store.intents).forM (validateBatch store.batches)

end Validation

end Storyhook.Store
