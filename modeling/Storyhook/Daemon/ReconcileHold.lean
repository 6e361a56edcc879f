import Storyhook.Service.EngineLanes

/-! The hold of the verifier on the story it returned, and what ends it. -/

namespace Storyhook.Daemon

open Storyhook.Service

def goneConfirmations : Nat := 2

def returnedState : String := "in-progress"

def verifyingState : String := "verifying"

def nanosPerSecond : Nat := 1000000000

/-- The whole seconds from one instant to another, unless the clock went backwards. Instants are
nanoseconds from the epoch. -/
def secondsSince (now since : Int) : Option Nat :=
  if since ≤ now then some ((now - since).toNat / nanosPerSecond) else none

inductive HoldRelease where
  | storyBlocked (reason : String)
  | storyLeft (state : String)
  | agentGone (detail : String)
  | agentSilent (silentSecs : Nat) (probe : Option String)
  deriving DecidableEq, Repr

inductive ReconcileWait where
  | resubmitted (generation : Option Int)
  | ended
  | released (release : HoldRelease)
  deriving DecidableEq, Repr

inductive HoldRead where
  | view
  | current
  | lease
  deriving DecidableEq, Repr

/-- How a wait ends: with its answer, or at a read that fails. -/
inductive HoldEnd where
  | answered (wait : ReconcileWait)
  | failed (read : HoldRead)
  deriving DecidableEq, Repr

structure HeldStory where
  permitted : Bool
  blocked : Option String
  state : String
  headSeq : Int
  deriving DecidableEq, Repr

structure AgentObservation where
  gone : Option String
  storeSilentSecs : Option Nat
  outputSilentSecs : Option Nat
  probeDetail : Option String

def silentOnBothChannels (storeUnmoved : Bool)
    (secondsSinceProgress secondsSinceOutput : Option Nat)
    (stallCeilingSecs : Nat) : Bool :=
  let storeSilent := storeUnmoved && secondsSinceProgress.any (stallCeilingSecs < ·)
  let ptySilent := secondsSinceOutput.all (stallCeilingSecs < ·)
  storeSilent && ptySilent

def agentRelease (observation : AgentObservation) (stallCeilingSecs : Nat) : Option HoldRelease :=
  match observation.gone with
  | some detail => some (.agentGone detail)
  | none =>
      if silentOnBothChannels true observation.storeSilentSecs observation.outputSilentSecs
          stallCeilingSecs then
        some (.agentSilent (observation.storeSilentSecs.getD 0) observation.probeDetail)
      else none

/-- What one hold has observed of its agent over its passes. -/
structure AgentWatch where
  lastProbeAt : Int
  headSeq : Option Int
  movedAt : Int
  goneStreak : Nat
  window : Option WindowProbe
  deriving DecidableEq, Repr

namespace AgentWatch

def new (now : Int) : AgentWatch := ⟨now, none, now, 0, none⟩

def observeStory (watch : AgentWatch) (headSeq now : Int) : AgentWatch :=
  { watch with
    movedAt := if watch.headSeq.any (· != headSeq) then now else watch.movedAt
    headSeq := some headSeq }

def probeDue (watch : AgentWatch) (now : Int) (every : Nat) : Bool :=
  decide (now < watch.lastProbeAt ∨ (every : Int) ≤ now - watch.lastProbeAt)

def recordProbe (watch : AgentWatch) (window : WindowProbe) (now : Int) : AgentWatch :=
  { watch with
    lastProbeAt := now
    goneStreak := match window with
      | .gone _ => min (watch.goneStreak + 1) (2 ^ 32 - 1)
      | _ => 0
    window := some window }

/-- The stamp of the last output of a pane, when the probe could read it and it is not to come. -/
def lastOutput (watch : AgentWatch) (now : Int) : Option Nat :=
  match watch.window with
  | some (.alive (some stamp)) =>
      if 0 ≤ stamp ∧ stamp * nanosPerSecond ≤ now then some stamp.toNat else none
  | _ => none

def lastActivity (watch : AgentWatch) (now : Int) : Int :=
  match watch.lastOutput now with
  | some stamp => max (stamp * nanosPerSecond : Nat) watch.movedAt
  | none => watch.movedAt

def outputSilentSecs (watch : AgentWatch) (now : Int) : Option Nat :=
  match watch.window with
  | some (.alive (some stamp)) =>
      (secondsSince now 0).bind fun seconds =>
        if 0 ≤ stamp ∧ stamp.toNat ≤ seconds then some (seconds - stamp.toNat) else none
  | _ => none

def observation (watch : AgentWatch) (now : Int) : AgentObservation where
  gone := if goneConfirmations ≤ watch.goneStreak then watch.window.bind WindowProbe.detail else none
  storeSilentSecs := secondsSince now watch.movedAt
  outputSilentSecs := watch.outputSilentSecs now
  probeDetail := watch.window.bind WindowProbe.detail

end AgentWatch

def storyRelease (story : HeldStory) : Option HoldRelease :=
  match story.blocked with
  | some reason => some (.storyBlocked reason)
  | none =>
      if story.state ≠ returnedState ∧
        story.state ≠ verifyingState then some (.storyLeft story.state)
      else none

/-- What one pass meets: whether it is to stop, which read of the store would fail, the view of the
store, the submission that validates, the time, and what a probe would find. -/
structure HoldPass where
  stopping : Bool
  fails : Option HoldRead
  generation : Option Int
  story : Option HeldStory
  current : Option (Option Int)
  now : Int
  probe : WindowProbe
  deriving DecidableEq, Repr

def newer (reserved generation : Option Int) : Bool :=
  generation.isSome && generation != reserved

/-- The newer generation of the story that is in the queue and validates. -/
def HoldPass.resubmission (reserved : Option Int) (pass : HoldPass) : Option (Option Int) :=
  if newer reserved pass.generation then pass.current.filter (newer reserved) else none

def holdPass (reserved : Option Int) (every ceiling : Nat) (watch : AgentWatch) (pass : HoldPass) :
    Except HoldEnd AgentWatch :=
  if pass.stopping then .error (.answered .ended)
  else if pass.fails = some .view then .error (.failed .view)
  else
    match pass.story.filter (·.permitted) with
    | none => .error (.answered .ended)
    | some story =>
        if newer reserved pass.generation ∧ pass.fails = some .current then
          .error (.failed .current)
        else
          match pass.resubmission reserved with
          | some generation => .error (.answered (.resubmitted generation))
          | none =>
              match storyRelease story with
              | some release => .error (.answered (.released release))
              | none =>
                  let agent := watch.observeStory story.headSeq pass.now
                  match agentRelease (agent.observation pass.now) ceiling with
                  | some release => .error (.answered (.released release))
                  | none =>
                      if agent.probeDue pass.now every then
                        if pass.fails = some .lease then .error (.failed .lease)
                        else .ok (agent.recordProbe pass.probe pass.now)
                      else .ok agent

def waitForReconciled (reserved : Option Int) (every ceiling : Nat) (start : Int)
    (passes : List HoldPass) : Except HoldEnd AgentWatch :=
  passes.foldlM (holdPass reserved every ceiling) (AgentWatch.new start)

end Storyhook.Daemon
