import Storyhook.Service.Handoffs

/-! The daemon's monitor of continuations beside the commands, one transaction or provider call at
a time. -/

namespace Storyhook.Service.Handoffs

open Storyhook.Store

/-- A story's eligibility as the transaction of a receipt reads it. -/
inductive Eligibility where
  | eligible
  | closed
  | other (observed : String)
  deriving DecidableEq, Repr

inductive Observation where
  | live
  | absent
  | uncertain (detail : String)
  | failed (failure : String)
  deriving DecidableEq, Repr

inductive ResumeAnswer where
  | submitted (capture : Option Capture)
  | refused (detail : String)
  | failed (failure : String)
  deriving DecidableEq, Repr

namespace Continuation

variable (record : Continuation)

def needsAttention (detail : String) : Continuation :=
  { record with status := .needsAttention, detail := detail }

def stopped (failure : String) : Eligibility → Continuation
  | .closed =>
      { record with
        status := .superseded
        detail := "story explicitly closed; continuation superseded without provider input" }
  | .other observed =>
      record.needsAttention ("continuation eligibility changed: " ++ failure ++
        "; latest observation: " ++ observed ++ "; holds preserved")
  | .eligible => record

def validResumedCapture (previous next : Capture) : Bool :=
  next.lease == previous.lease && next.provider == previous.provider &&
    next.head == previous.head && next.fingerprint == previous.fingerprint &&
    next.sessionId != "" && decide (0 < next.pid)

def answered : ResumeAnswer → Continuation
  | .submitted (some capture) =>
      if validResumedCapture record.capture capture then
        { record with
          capture := capture
          status := .awaitingAck
          detail := "absent provider resumed in its retained worktree; receiving review " ++
            "acknowledgement required" }
      else
        record.needsAttention
          "resume returned no valid generation-bound receiving capture; no replay"
  | .submitted none =>
      record.needsAttention "resume returned no valid generation-bound receiving capture; no replay"
  | .refused detail =>
      record.needsAttention ("resume was not acknowledged: " ++ detail ++ "; no replay")
  | .failed failure =>
      record.needsAttention ("resume failed or is ambiguous: " ++ failure ++ "; no replay")

end Continuation

/-- Where the monitor stands: with what it has read and has still to see to, and between taking up
a record and being done with it under a permit. -/
inductive Monitor where
  | starting
  | recovering (rest : Rows)
  | idle
  | pass (rest : Rows)
  | holding (record : Continuation) (rest : Rows)
  | ineligible (failure : String) (record : Continuation) (rest : Rows)
  | observing (record : Continuation) (rest : Rows)
  | absent (record : Continuation) (rest : Rows)
  | launching (record : Continuation) (rest : Rows)
  | resuming (record : Continuation) (rest : Rows)
  | saving (record : Continuation) (rest : Rows)
  deriving DecidableEq

def Monitor.permitted : Monitor → Bool
  | .starting | .recovering _ | .idle | .pass _ => false
  | _ => true

/-- The rows, the monitor, and what calls of `retry` have read whose provider is being observed. -/
structure Project where
  idPrefix : String
  rows : Rows
  monitor : Monitor
  retries : Rows
  deriving DecidableEq

/-- What is done with the continuations: the commands that succeed, and the monitor's steps. -/
inductive HandoffAct where
  | requested (read : RequestRead) (story : StoryNo) (id now : String) (handoff : Handoff)
      (capture : Capture)
  | receipted (story : StoryNo) (id : String) (input : CompactionReceipt)
  | acked (headSeq : Int) (story : StoryNo) (id : String) (review : Review)
  | looked (story : StoryNo) (id : String)
  | retried (record : Continuation) (observedAbsent : Bool)
  | replaced (story : StoryNo)
  | rebound (story : StoryNo) (proposal : Restoration)
  | retired
  | restarted
  | recoveryBegan
  | recovered
  | began
  | skipped
  | taken
  | judged (failure : Option String)
  | rejudged (eligibility : Eligibility)
  | observed (observation : Observation) (expired : Bool)
  | labelled (label : Option String)
  | intended (eligible : Bool)
  | answered (answer : ResumeAnswer)
  | saved
  | ended
  | failed

def monitored (row : Continuation) : Bool :=
  row.status == .pending || row.status == .attempting || row.status == .awaitingAck

namespace Project

variable (project : Project)

/-- Writes a record for the monitor, which gives its pass up where it cannot. -/
def persist (record : Continuation) (after : Continuation → Monitor) : Project :=
  match save project.rows record with
  | .ok (rows, next) => { project with rows := rows, monitor := after next }
  | .error _ => { project with monitor := .idle }

def seen (record : Continuation) (rest : Rows) (expired : Bool) : Observation → Monitor
  | .live =>
      if expired then
        .saving (record.needsAttention ("receiving review was not acknowledged before the " ++
          "delivery observation timeout; live session preserved, no input replay")) rest
      else .pass rest
  | .absent => .absent record rest
  | .uncertain detail =>
      .saving (record.needsAttention ("provider observation is uncertain: " ++ detail ++
        "; no replay")) rest
  | .failed failure =>
      .saving (record.needsAttention ("provider observation failed: " ++ failure ++
        "; no replay")) rest

def command : HandoffAct → Option Project
  | .requested read story id now handoff capture =>
      (request project.rows read story id now handoff capture).toOption.map fun done =>
        { project with rows := done.1 }
  | .receipted story id input =>
      (receipt project.rows project.idPrefix story id input).toOption.map fun done =>
        { project with rows := done.1 }
  | .acked headSeq story id review =>
      (ack project.rows project.idPrefix (.ok ()) headSeq story id review).toOption.map fun done =>
        { project with rows := done.1 }
  | .looked story id =>
      (find project.rows project.idPrefix story id).toOption.map fun record =>
        { project with retries := record :: project.retries }
  | .retried record observedAbsent =>
      if record ∈ project.retries then
        (retry project.rows project.idPrefix
          (.ok ()) record observedAbsent).toOption.map fun done =>
          { project with rows := done.1, retries := project.retries.erase record }
      else none
  | .replaced story =>
      (supersedeForReplacement project.rows story).toOption.map fun done =>
        { project with rows := done.1 }
  | .rebound story proposal =>
      (rebind project.rows story proposal).toOption.map fun rows => { project with rows := rows }
  -- automations are turned off once no permit is held
  | .retired =>
      if project.monitor.permitted then none
      else (retireEach project.rows project.rows).toOption.map fun rows =>
        { project with rows := rows }
  | _ => none

def step : Monitor → HandoffAct → Option Project
  | _, .restarted => some { project with monitor := .starting, retries := [] }
  | .starting, .recoveryBegan =>
      some { project with
        monitor := .recovering (project.rows.filter (·.status == .attempting)) }
  | .starting, .failed => some { project with monitor := .idle }
  | .recovering (_ :: rest), .skipped => some { project with monitor := .recovering rest }
  | .recovering (record :: rest), .recovered =>
      some (project.persist
        (record.needsAttention ("daemon stopped during continuation delivery; no automatic " ++
          "replay; matching receipt or acknowledgement can resolve this uncertainty"))
        fun _ => .recovering rest)
  | .recovering _, .failed => some { project with monitor := .idle }
  | .recovering [], .ended => some { project with monitor := .idle }
  | .idle, .began => some { project with monitor := .pass (project.rows.filter monitored) }
  | .pass (_ :: rest), .skipped => some { project with monitor := .pass rest }
  | .pass (record :: rest), .taken =>
      some { project with
        monitor := if record.status = .attempting then .pass rest else .holding record rest }
  | .pass [], .ended => some { project with monitor := .idle }
  | .pass _, .failed => some { project with monitor := .idle }
  | .holding record rest, .judged none => some { project with monitor := .observing record rest }
  | .holding record rest, .judged (some failure) =>
      some { project with monitor := .ineligible failure record rest }
  | .ineligible failure record rest, .rejudged eligibility =>
      if eligibility = .eligible then some { project with monitor := .pass rest }
      else some (project.persist (record.stopped failure eligibility) fun _ => .pass rest)
  | .ineligible _ _ _, .failed => some { project with monitor := .idle }
  | .observing record rest, .observed observation expired =>
      some { project with monitor := seen record rest expired observation }
  | .absent record rest, .labelled none => some { project with monitor := .launching record rest }
  | .absent record rest, .labelled (some label) =>
      some { project with
        monitor := .saving (record.needsAttention ("story carries `" ++ label ++
          "`, so automatic resume is withheld: it is left for a person; no replay")) rest }
  | .absent _ _, .failed => some { project with monitor := .idle }
  | .launching record rest, .intended eligible =>
      if eligible then
        some (project.persist
          { record with status := .attempting, phase := .resume, attempts := record.attempts + 1 }
          fun next => .resuming next rest)
      else some { project with monitor := .idle }
  | .launching _ _, .failed => some { project with monitor := .idle }
  | .resuming record rest, .answered answer =>
      some { project with monitor := .saving (record.answered answer) rest }
  | .saving record rest, .saved => some (project.persist record fun _ => .pass rest)
  | .saving _ _, .failed => some { project with monitor := .idle }
  | _, _ => none

/-- The project after an act that is possible at it. -/
def act (action : HandoffAct) : Option Project :=
  (project.command action).or (project.step project.monitor action)

def run (acts : List HandoffAct) : Option Project := acts.foldlM act project

end Project

end Storyhook.Service.Handoffs
