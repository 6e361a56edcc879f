import Storyhook.Library.Outcome
import Storyhook.Service.Board
import Storyhook.Store.GateEvidence

/-! The context handoffs of a project, and the monitor that resumes lost sessions. -/

namespace Storyhook.Service

deriving instance DecidableEq for ContinuationPhase

end Storyhook.Service

namespace Storyhook.Service.Handoffs

open Storyhook.Store
open Library.Outcome

inductive HandoffKind where
  | context | obviationReview
  deriving DecidableEq, Repr

structure Handoff where
  kind : HandoffKind
  evidence : String
  deriving DecidableEq, Repr

structure Lease where
  projectSlug : String
  worktreePath : String
  branch : String
  deriving DecidableEq, Repr

structure CompactionReceipt where
  provider : String
  sessionId : String
  document : String
  deriving DecidableEq, Repr

/-- What is known of a session; its terminal is where it runs, and since when. -/
structure Capture where
  provider : String
  sessionId : String
  turnId : Option String
  messageId : Option String
  head : String
  fingerprint : String
  transcriptPath : Option String
  terminal : String
  pid : Nat
  lease : Lease
  compactionReceipt : Option CompactionReceipt
  engineLane : Option (String × Nat)
  deriving DecidableEq, Repr

structure Generation where
  provider : String
  sessionId : String
  turnId : Option String
  messageId : Option String
  deriving DecidableEq, Repr

structure Continuation where
  id : String
  story : StoryNo
  handoff : Handoff
  generation : Generation
  capture : Capture
  status : ContinuationStatus
  phase : ContinuationPhase
  revision : Int
  attempts : Nat
  createdAt : String
  detail : String
  reviewedSeq : Option Int
  reviewedHead : Option String
  deriving DecidableEq

abbrev Rows := List Continuation

section Table

variable (rows : Rows) (record : Continuation)

def updates (expected : Int) (row : Continuation) : Bool :=
  row.id == record.id && row.story == record.story && row.revision == expected

def updateContinuation (expected : Int) : Except StoreError (Bool × Rows) :=
  if record.revision ≠ expected + 1 then
    .error (.validation "continuation revision must advance exactly once")
  else
    .ok (rows.countP (updates record expected) == 1,
      rows.map fun row => if updates record expected row then record else row)

def insertContinuation : Except StoreError Rows := do
  refuse (rows.any (·.id == record.id)) (.constraint "UNIQUE constraint failed: continuations.id")
  return rows ++ [record]

/-- Writes a record that has been changed, when nobody has written it since it was read. -/
def save : Except StoreError (Rows × Continuation) := do
  let next := { record with revision := record.revision + 1 }
  let (written, after) ← updateContinuation rows next record.revision
  refuse (!written) (.validation "continuation changed concurrently; reread current status")
  return (after, next)

def find (idPrefix : String) (story : StoryNo) (request : String) :
    Except StoreError Continuation :=
  demand (rows.find? fun row => row.id == request && row.story == story)
    (.notFound ("continuation `" ++ request ++ "` for `" ++ toId idPrefix story ++ "` not found"))

end Table

/-- Legacy generations cannot prove which message owned their receipt. -/
def sameGeneration (generation : Generation) (capture : Capture) : Bool :=
  generation.provider == capture.provider && generation.sessionId == capture.sessionId &&
    generation.turnId == capture.turnId &&
    (generation.messageId.isNone || generation.messageId == capture.messageId)

/-- What a request's transaction reads and writes besides the continuations. -/
structure RequestRead where
  slug : String
  genericResume : Bool
  engineBinding : Except StoreError (Option (String × Nat))
  administrative : Except StoreError Unit
  requireEligible : Except StoreError Unit
  comment : Except StoreError Unit

def ofStory (story : StoryNo) (row : Continuation) : Bool :=
  row.story == story && row.handoff.kind == .context

def unchanged (rows : Rows) (story : StoryNo) (capture : Capture) : Nat :=
  ((rows.reverse.filter (ofStory story)).takeWhile fun row =>
    row.capture.head == capture.head && row.capture.fingerprint == capture.fingerprint).length

def generationOf (capture : Capture) : Generation :=
  ⟨capture.provider, capture.sessionId, capture.turnId, capture.messageId⟩

def recorded (story : StoryNo) (kind : HandoffKind) (capture : Capture)
    (row : Continuation) : Bool :=
  row.story == story && row.handoff.kind == kind && sameGeneration row.generation capture

/-- A request's record and whether it owns the native feedback: a generation is recorded once. -/
def request (rows : Rows) (read : RequestRead) (story : StoryNo) (id now : String)
    (handoff : Handoff) (capture : Capture) : Except StoreError (Rows × Continuation × Bool) := do
  refuse (capture.messageId.all (· == ""))
    (.validation "runtime capture requires native message_id")
  refuse (capture.lease.projectSlug != read.slug)
    (.validation "continuation lease belongs to another project")
  match rows.find? (recorded story handoff.kind capture) with
  | some old =>
      refuse (old.handoff != handoff)
        (.validation "conflicting continuation payload for this session generation")
      return (rows, old, false)
  | none =>
      refuse (handoff.kind == .context &&
          rows.any fun row => row.story == story && row.status.outstanding)
        (.validation "story already has an unresolved continuation")
      refuse (read.genericResume && handoff.kind == .context)
        (.validation ("an unblock delivery already owns the effect boundary; continuation " ++
          "cannot race its input"))
      let binding ← read.engineBinding
      let record : Continuation := {
        id := id
        story := story
        handoff := handoff
        generation := generationOf capture
        capture := if binding.isSome then { capture with engineLane := binding } else capture
        status := .awaitingAck
        phase := .nativeContinuation
        revision := 0
        attempts := 0
        createdAt := now
        detail := "context handoff recorded; native feedback receipt owned by this request"
        reviewedSeq := none
        reviewedHead := none }
      match handoff.kind with
      | .obviationReview =>
          read.administrative
          let held := { record with
            status := .acknowledged
            phase := .administrative
            detail := "pending human obviation review; no implementation approval granted" }
          return (← insertContinuation rows held, held, false)
      | .context =>
          read.requireEligible
          let intent :=
            if unchanged rows story capture ≥ 2 then
              { record with
                status := .needsAttention
                detail := "three consecutive context handoffs without changed HEAD or dirty " ++
                  "content; automatic continuation stopped" }
            else record
          read.comment
          return (← insertContinuation rows intent, intent,
            intent.status == .awaitingAck && intent.phase == .nativeContinuation)

def receipt (rows : Rows) (idPrefix : String) (story : StoryNo) (id : String)
    (input : CompactionReceipt) : Except StoreError (Rows × Continuation) := do
  let record ← find rows idPrefix story id
  refuse (record.capture.provider != input.provider || record.capture.sessionId != input.sessionId)
    (.validation "compaction receipt belongs to another provider session")
  if record.capture.compactionReceipt = some input then return (rows, record)
  refuse (!record.status.outstanding)
    (.validation "no outstanding continuation for this compaction receipt")
  save rows { record with
    detail := "native compaction receipt recorded; receiving review acknowledgement remains required"
    capture := { record.capture with compactionReceipt := some input } }

structure Review where
  sequence : Int
  head : String
  provider : String
  sessionId : String
  deriving DecidableEq, Repr

/-- Acknowledges a handoff for the session it reached, at the story's own sequence. -/
def ack (rows : Rows) (idPrefix : String) (requireEligible : Except StoreError Unit)
    (headSeq : Int) (story : StoryNo) (id : String) (review : Review) :
    Except StoreError (Rows × Continuation) := do
  let latest ← find rows idPrefix story id
  requireEligible
  refuse (latest.capture.provider != review.provider ||
      latest.capture.sessionId != review.sessionId)
    (.validation "acknowledgement belongs to another receiving session")
  refuse (headSeq != review.sequence)
    (.validation "story changed after review; reread current comments and relationships")
  if latest.status = .acknowledged ∧ latest.reviewedSeq = some review.sequence ∧
      latest.reviewedHead = some review.head then
    return (rows, latest)
  refuse (latest.phase != .nativeContinuation && latest.phase != .resume &&
      latest.phase != .complete)
    (.validation "continuation prompt has not reached a receiving session")
  refuse (latest.status == .pending || latest.status == .superseded)
    (.validation "request is not awaiting receiving acknowledgement")
  save rows { latest with
    status := .acknowledged
    phase := .complete
    reviewedSeq := some review.sequence
    reviewedHead := some review.head
    detail := "receiving root acknowledged current story review and Git HEAD" }

/-- Retries a request as it was read before its provider was observed. -/
def retry (rows : Rows) (idPrefix : String) (requireEligible : Except StoreError Unit)
    (record : Continuation) (observedAbsent : Bool) :
    Except StoreError (Rows × Continuation) := do
  refuse (record.phase != .observe && !observedAbsent)
    (.validation ("prior delivery remains ambiguous; await its matching receipt or " ++
      "acknowledgement"))
  let latest ← find rows idPrefix record.story record.id
  requireEligible
  refuse (latest.revision != record.revision || latest.status != .needsAttention)
    (.validation "continuation changed or does not need recovery")
  save rows { latest with
    status := .pending
    phase := .observe
    detail := "explicit retry admitted after fresh ownership and eligibility checks" }

/-- A session that was lost with its terminal, found again elsewhere. -/
structure Restoration where
  leaseBefore : Lease
  lease : Lease
  provider : String
  sessionId : String
  transcriptPath : Option String
  terminal : String
  pid : Nat
  deriving DecidableEq, Repr

def reboundCapture (capture : Capture) (proposal : Restoration) : Except StoreError Capture := do
  refuse (capture.lease != proposal.leaseBefore && capture.lease != proposal.lease)
    (.validation "restored continuation lease conflicts")
  refuse (capture.provider != proposal.provider)
    (.validation "restored continuation provider conflicts")
  refuse (capture.sessionId != proposal.sessionId)
    (.validation "restored continuation session_id conflicts")
  refuse (capture.transcriptPath != proposal.transcriptPath || proposal.transcriptPath.isNone)
    (.validation "restored continuation transcript_path conflicts")
  return { capture with
    lease := proposal.lease, terminal := proposal.terminal, pid := proposal.pid }

def rebindEach (proposal : Restoration) : Rows → Rows → Except StoreError Rows
  | rows, [] => .ok rows
  | rows, record :: rest => do
      let capture ← reboundCapture record.capture proposal
      if capture = record.capture then rebindEach proposal rows rest
      else
        let (after, _) ← save rows { record with capture := capture }
        rebindEach proposal after rest

def rebind (rows : Rows) (story : StoryNo) (proposal : Restoration) : Except StoreError Rows :=
  rebindEach proposal rows
    (rows.filter fun row => row.story == story && row.capture.sessionId == proposal.sessionId)

structure ReplacementOutcome where
  superseded : List String
  attempting : List String
  deriving DecidableEq, Repr

def Continuation.supersede (record : Continuation) (detail : String) : Continuation :=
  { record with status := .superseded, detail := detail }

def supersedeEach : Rows → Rows → Except StoreError (Rows × List String)
  | rows, [] => .ok (rows, [])
  | rows, record :: rest =>
      if record.status = .superseded then supersedeEach rows rest
      else do
        let (after, _) ← save rows (record.supersede ("superseded by a manual resume (" ++
          record.status.debug ++ " before): a fresh session with the full charter replaces the " ++
          "lost receiving session; the handoff evidence stays in the story comments"))
        let (final, others) ← supersedeEach after rest
        return (final, record.id :: others)

def older (first second : Continuation) : Bool :=
  decide (first.createdAt < second.createdAt ∨
    first.createdAt = second.createdAt ∧ ¬ second.id < first.id)

def supersedeForReplacement (rows : Rows) (story : StoryNo) :
    Except StoreError (Rows × ReplacementOutcome) :=
  let chain := (rows.filter (ofStory story)).mergeSort older
  let attempting := (chain.filter (·.status == .attempting)).map (·.id)
  if attempting ≠ [] then .ok (rows, ⟨[], attempting⟩)
  else (supersedeEach rows chain).map fun (after, superseded) => (after, ⟨superseded, []⟩)

/-- What turning automations off does with each of the outstanding requests. -/
def retireEach : Rows → Rows → Except StoreError Rows
  | rows, [] => .ok rows
  | rows, record :: rest =>
      if record.status.outstanding then do
        let superseded :=
          record.supersede "Project automations disabled; explicit new handoff required"
        let (_, after) ← updateContinuation rows
          { superseded with revision := record.revision + 1 } record.revision
        retireEach after rest
      else retireEach rows rest

structure SubmissionEvidence where
  head : String
  worktree : String
  branch : String
  clean : Bool
  deriving DecidableEq, Repr

def fenced (story : StoryNo) (row : Continuation) : Bool :=
  ofStory story row && row.status == .acknowledged

def checkSubmission (rows : Rows) (story : StoryNo) (sequence : Int)
    (evidence : Option (Except String SubmissionEvidence)) : Except StoreError Unit := do
  if let some request :=
      rows.reverse.find? fun row => row.story == story && row.status.outstanding then
    .error (.validation ("continuation " ++ request.id ++ " remains unresolved (" ++
      request.status.debug ++ "); read status and acknowledge the receiving review before " ++
      "verifying"))
  if let some request := rows.reverse.find? (fenced story) then
    refuse (request.reviewedSeq != some sequence)
      (.validation ("continuation submission review is stale; reread current comments and " ++
        "refresh acknowledgement"))
    match evidence with
    | some (.ok evidence) =>
        refuse (!evidence.clean)
          (.validation ("continuation submission requires a clean worktree; commit tracked, " ++
            "staged and untracked work before verifying"))
        refuse (request.reviewedHead != some evidence.head)
          (.validation ("continuation submitted HEAD differs from the reviewed HEAD; rerun the " ++
            "tests this story adds or changes and refresh acknowledgement"))
        refuse (request.capture.lease.worktreePath != evidence.worktree ||
            request.capture.lease.branch != evidence.branch)
          (.validation ("continuation submission must originate in the retained worktree and " ++
            "branch"))
    | some (.error failure) => .error (.validation failure)
    | none => .error (.validation "continuation submission is missing current Git evidence")

end Storyhook.Service.Handoffs
