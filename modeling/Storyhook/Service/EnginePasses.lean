import Storyhook.Service.EngineLaneTakes

/-! The passes that reconcile runs: chains of transactions, between which a pass has lists that
nobody else knows of. -/

namespace Storyhook.Service

open Storyhook.Domain Storyhook.Store
open Library Library.Outcome

inductive LaneClassification where
  | progressing
  | completed
  | verifying
  | reserved (label : String)
  | hardStop (kind : HardStopKind)
  deriving DecidableEq, Repr

/-- A lane as it was observed, and what was made of it. -/
structure ObservedLane where
  lane : EngineLaneRecord
  classification : LaneClassification
  headGlobalSeq : Option Nat
  window : WindowProbe
  evidence : QuarantineEvidence

/-- What a pass goes on to once the quarantined lanes are cleared. -/
inductive AfterClearing where
  | fill
  | finish
  | leave
  deriving DecidableEq, Repr

/-- Where a pass stands, with the completions and hard stops that it has not counted yet. -/
inductive PassPhase where
  | opened
  | observing
  | applying (observed : List ObservedLane) (completed : Nat)
      (hardStops : List EngineQuarantineRecord)
  | refusing (hardStops : List EngineQuarantineRecord)
  | viewing (refused : Bool)
  | surveying (next : AfterClearing)
  | clearing (lanes : List EngineLaneRecord) (next : AfterClearing)
  | entering
  | filling (filled : Bool)
  | dispatching (working : EngineLaneRecord) (filled : Bool)
  | finishing

structure Pass where
  runId : String
  kind : ReconcilePass
  phase : PassPhase

/-- What a pass is told at a step from outside the tables: whether the project's automations let
it in, the lanes as observed, whether the dispatch controller is its own, and how a dispatch went. -/
structure PassAnswer where
  host : EngineHost
  automated : Bool
  observed : List ObservedLane
  controller : Bool
  dispatch : Except String DispatchPayload

/-- A write that frees a lane of its completed story, or quarantines it. -/
inductive LaneCommit where
  | completed
  | quarantined (record : EngineQuarantineRecord)
  deriving DecidableEq, Repr

/-- What a step of a pass leaves; no phase where the pass has returned. -/
structure PassMove where
  tables : EngineTables
  phase : Option PassPhase
  commit : Option LaneCommit

def AfterClearing.phase : AfterClearing → Option PassPhase
  | .fill => some .entering
  | .finish => some .finishing
  | .leave => none

def afterFill (filled : Bool) : Option PassPhase := if filled then none else some .finishing

def refusedRecord (working : EngineLaneRecord) (diagnosis : String) : EngineQuarantineRecord where
  laneIndex := working.laneIndex
  storyId := working.storyId
  kind := HardStopKind.dispatchRefused.text
  detail := some diagnosis
  paneId := none
  windowName := none
  worktreePath := none
  observedAt := working.dispatchedAt.getD ""

def lostDispatch (working : EngineLaneRecord) (payload : DispatchPayload) : AppError :=
  .storage ("engine run `" ++ working.runId ++ "` lane " ++ Nat.repr working.laneIndex ++
    " changed while story `" ++ working.storyId.getD "" ++ "` dispatched; its new window " ++
    payload.windowName.getD "unknown" ++ " and worktree " ++
    payload.worktreePath.getD "unknown" ++ " have no lane")

/-- Enters a pass, unless its project, its scope or an operator keeps it out. -/
def openPass (runId : String) (answer : PassAnswer) (tables : EngineTables) :
    Except AppError PassMove := do
  let run ← runForProject tables runId
  if !answer.automated || run.stopReason == some automationsDisabledReason then
    return ⟨tables, none, none⟩
  let halted := (haltInvalidScope answer.host tables run).1
  let unavailable := run.scope != .project && (engineRun halted runId).any fun run =>
    run.state == .halted && run.stopReason == some scopeUnavailable
  return ⟨halted, if unavailable || stopping halted runId then none else some .observing, none⟩

def applyObserved (kind : ReconcilePass) (answer : PassAnswer) (tables : EngineTables)
    (seen : ObservedLane) (rest : List ObservedLane) (completed : Nat)
    (hardStops : List EngineQuarantineRecord) : Except AppError PassMove :=
  match seen.classification with
  | .progressing | .verifying => do
      let (after, _) ← recordProgress answer.host tables seen.lane seen.headGlobalSeq seen.window kind
      return ⟨after, some (.applying rest completed hardStops), none⟩
  | .reserved _ => do
      let (after, _) ← releaseReservedLane answer.host tables seen.lane seen.headGlobalSeq
      return ⟨after, some (.applying rest completed hardStops), none⟩
  | .completed => do
      let (after, applied) ← freeCompletedLane answer.host tables seen.lane seen.headGlobalSeq
      return ⟨after, some (.applying rest (completed + applied.toNat) hardStops),
        if applied then some .completed else none⟩
  | .hardStop kind => do
      let (after, record) ←
        quarantineLane answer.host tables seen.lane kind seen.evidence seen.headGlobalSeq
      return ⟨after, some (.applying rest completed (hardStops ++ record.toList)),
        record.map .quarantined⟩

/-- Counts what a pass has made of the lanes, in a transaction of its own. -/
def scorePass (runId : String) (answer : PassAnswer) (tables : EngineTables) (completed : Nat)
    (hardStops : List EngineQuarantineRecord) (refused : Bool) : Except AppError PassMove := do
  let scored ← applyBreaker answer.host tables runId completed hardStops
  return ⟨scored, some (.viewing refused), none⟩

/-- Reads the run again, and leaves it unless there is more to do for it. -/
def viewRun (runId : String) (kind : ReconcilePass) (refused : Bool) (tables : EngineTables) :
    Except AppError PassMove := do
  let run ← runForProject tables runId
  return ⟨tables,
    if run.state == .running then
      if refused then some (.surveying .leave)
      else if kind == .restart then none
      else some (.surveying .fill)
    else if run.state == .draining && !refused then some (.surveying .finish)
    else none, none⟩

def claimNext (runId : String) (answer : PassAnswer) (tables : EngineTables) (filled : Bool) :
    Except AppError PassMove := do
  let (after, taken) ← claimLane answer.host tables runId
  return ⟨after, match taken with
    | some working => some (.dispatching working filled)
    | none => afterFill filled, none⟩

def recordDispatched (answer : PassAnswer) (tables : EngineTables) (working : EngineLaneRecord)
    (filled : Bool) : Except AppError PassMove :=
  match answer.dispatch with
  | .ok payload => do
      let (after, applied) ← recordDispatch answer.host tables working payload
      refuse (!applied) (lostDispatch working payload)
      return ⟨after, some (.filling true), none⟩
  | .error diagnosis => do
      let (after, held) ← quarantineRefusedDispatch answer.host tables working diagnosis
      let record := refusedRecord working diagnosis
      return ⟨after, if held then some (.refusing [record]) else afterFill filled,
        if held then some (.quarantined record) else none⟩

def Pass.advance (pass : Pass) (answer : PassAnswer) (tables : EngineTables) :
    Except AppError PassMove :=
  match pass.phase with
  | .opened => openPass pass.runId answer tables
  | .observing => do
      let _ ← runForProject tables pass.runId
      let lanes := engineLanes tables pass.runId
      return ⟨tables, some (.applying
        (answer.observed.filter fun seen => lanes.contains seen.lane && isOccupied seen.lane) 0 []),
        none⟩
  | .applying [] completed hardStops =>
      scorePass pass.runId answer tables completed hardStops false
  | .applying (seen :: rest) completed hardStops =>
      applyObserved pass.kind answer tables seen rest completed hardStops
  | .refusing hardStops => scorePass pass.runId answer tables 0 hardStops true
  | .viewing refused => viewRun pass.runId pass.kind refused tables
  | .surveying next => .ok ⟨tables,
      if stopping tables pass.runId then next.phase
      else some (.clearing ((engineLanes tables pass.runId).filter (·.state == .quarantined)) next),
      none⟩
  | .clearing [] next => .ok ⟨tables, next.phase, none⟩
  | .clearing (lane :: rest) next => do
      let after ← clearQuarantinedLane answer.host tables lane
      return ⟨after, some (.clearing rest next), none⟩
  | .entering => do
      let run ← runForProject tables pass.runId
      let room := laneAdmission tables.project run (engineLanes tables pass.runId) answer.host.now
      return ⟨tables, if room.slots.isEmpty || !answer.controller then some .finishing
        else some (.filling false), none⟩
  | .filling filled => claimNext pass.runId answer tables filled
  | .dispatching working filled => recordDispatched answer tables working filled
  | .finishing => do
      let after ← finishIfDrained answer.host tables pass.runId
      return ⟨after, none, none⟩

/-- What an operator or anybody else does to runs and stories. -/
inductive EngineCommand where
  | start (runId : String) (scope : EngineScope) (settings : RunSettings)
  | configure (runId : String) (settings : RunSettings)
  | pause (runId : String)
  | resume (runId : String)
  | stop (runId : String)
  | adopt (runId : String) (ids : List String) (before : List StoryRow)
      (found : List InspectedDispatch)
  | elsewhere (project : Database)

def EngineCommand.run (host : EngineHost) (tables : EngineTables) :
    EngineCommand → Except AppError EngineTables
  | .start runId scope settings => startRun host tables runId scope settings
  | .configure runId settings => Service.configure host tables runId settings
  | .pause runId => Service.pause host tables runId
  | .resume runId => Service.resume host tables runId
  | .stop runId => stopRun host tables runId
  | .adopt runId ids before found => (Service.adopt host tables runId ids before found).map (·.1)
  | .elsewhere project => .ok { tables with project := project }

/-- A committed lane write, with the pass that made it and its run. -/
structure LoggedCommit where
  pass : Nat
  runId : String
  commit : LaneCommit
  deriving DecidableEq, Repr

/-- The tables, the passes that are on their way, and what they have committed, oldest first. -/
structure PassMachine where
  tables : EngineTables
  passes : Nat → Option Pass
  started : Nat
  log : List LoggedCommit

inductive PassAction where
  | command (host : EngineHost) (command : EngineCommand)
  | begin (runId : String) (kind : ReconcilePass)
  | advance (id : Nat) (answer : PassAnswer)
  | quit (id : Nat)

def PassMachine.moved (machine : PassMachine) (id : Nat) (pass : Pass) (move : PassMove) :
    PassMachine :=
  { machine with
    tables := move.tables
    passes := Function.update machine.passes id
      (move.phase.map fun phase => { pass with phase := phase })
    log := machine.log ++ (move.commit.map (LoggedCommit.mk id pass.runId ·)).toList }

def PassMachine.end (machine : PassMachine) (id : Nat) : PassMachine :=
  { machine with passes := Function.update machine.passes id none }

/-- One transaction, by whoever it is; a pass whose transaction fails returns, and so does one that
breaks off. -/
def PassMachine.step (machine : PassMachine) : PassAction → PassMachine
  | .command host command =>
      { machine with tables := (command.run host machine.tables).toOption.getD machine.tables }
  | .begin runId kind =>
      if (engineRun machine.tables runId).isSome then
        { machine with
          passes := Function.update machine.passes machine.started (some ⟨runId, kind, .opened⟩)
          started := machine.started + 1 }
      else machine
  | .advance id answer =>
      match machine.passes id with
      | none => machine
      | some pass =>
          match pass.advance answer machine.tables with
          | .ok move => machine.moved id pass move
          | .error _ => machine.end id
  | .quit id => machine.end id

/-- A project without runs. -/
def noPasses (slug : String) (project : Database) : PassMachine where
  tables := ⟨slug, project, [], []⟩
  passes := fun _ => none
  started := 0
  log := []

def runPasses (start : PassMachine) (actions : List PassAction) : PassMachine :=
  actions.foldl PassMachine.step start

end Storyhook.Service
