import Storyhook.Service.EngineAdmission

/-! The transactions that start a run, fill its lanes and let go of them. -/

namespace Storyhook.Service

open Storyhook.Domain Storyhook.Store
open Library Library.Outcome

def maxEngineLanes : Nat := 255
def completedOutcome : String := "completed"
def reservedOutcome : String := "reserved"
def hardStopBreaker : Nat := 3
def breakerTripped : String := "breaker-tripped"
def queueDrained : String := "queue-drained"
def scopeUnavailable : String := "scope-unavailable"
def operatorStopped : String := "operator-stopped"
def automationsDisabledReason : String := "Project automations disabled; resume explicitly"

inductive HardStopKind where
  | agentBlocked
  | windowGone
  | stalled
  | interrupted
  | dispatchRefused
  | storyMissing
  deriving DecidableEq, Repr

def HardStopKind.text : HardStopKind → String
  | .agentBlocked => "agent-blocked"
  | .windowGone => "window-gone"
  | .stalled => "stalled"
  | .interrupted => "interrupted"
  | .dispatchRefused => "dispatch-refused"
  | .storyMissing => "story-missing"

inductive WindowProbe where
  | alive (lastOutputAt : Option Int)
  | gone (detail : String)
  | unanswered (detail : String)
  deriving DecidableEq, Repr

def WindowProbe.detail : WindowProbe → Option String
  | .alive _ => none
  | .gone detail | .unanswered detail => some detail

inductive ReconcilePass where
  | steady
  | restart
  deriving DecidableEq, Repr

structure RunSettings where
  lanes : Nat
  agent : EngineAgent
  model : Option String
  effort : Option String
  speed : Option EngineSpeed

def validateDispatchOptionToken (raw : String) : Except String Unit :=
  let length := raw.toList.length
  if length < 1 || 64 < length then
    .error ("must be 1-64 characters (got " ++ Nat.repr length ++ ")")
  else if !raw.toList.all fun char =>
      char.isAlphanum || char == '.' || char == '_' || char == '-' then
    .error "must contain only letters, digits, `.`, `_`, or `-`"
  else .ok ()

def checkOption (name : String) : Option String → Except AppError Unit
  | none => .ok ()
  | some value => (validateDispatchOptionToken value).mapError fun reason =>
      .validation ("invalid engine " ++ name ++ " `" ++ value ++ "`: " ++ reason)

def validateConfiguration (settings : RunSettings) : Except AppError Unit := do
  refuse (settings.lanes < 1 || maxEngineLanes < settings.lanes) (.validation
    ("an engine run needs between 1 and " ++ Nat.repr maxEngineLanes ++ " lanes"))
  checkOption "model" settings.model
  checkOption "effort" settings.effort

def requireState (run : EngineRunRecord) (action : String) (allowed : List EngineRunState) :
    Except AppError Unit :=
  refuse (!allowed.contains run.state) (.validation ("engine run `" ++ run.id ++ "` is `" ++
    run.state.text ++ "` and cannot `" ++ action ++ "`"))

def enableAutomations (action : String) : AppError :=
  .validation ("Enable project automations before " ++ action ++ " Full Auto")

def putLane (host : EngineHost) (tables : EngineTables) (lane : EngineLaneRecord) :
    Except AppError EngineTables := do
  host.admitLane tables lane
  return putEngineLane tables lane

def addIdleLanes (host : EngineHost) (tables : EngineTables) (runId : String)
    (places : List Nat) : Except AppError EngineTables :=
  (places.map (idleLane runId · host.now)).foldlM (putLane host) tables

def checkScope (db : Database) : EngineScope → Except AppError Unit
  | .project => .ok ()
  | .epic id => do
      let (_, row) ← resolveStory db id
      refuse (!isEpic row.snapshot) (.validation ("story `" ++ id ++
        "` is not an epic, so it cannot scope an engine run"))

def noCheckoutRefusal (slug : String) : String :=
  "project `" ++ slug ++ "` has no checkout on this machine, so there is nowhere to run a git " ++
    "worktree — record one with `story --project " ++ slug ++ " project link checkout <path>`. " ++
    "Its stories stay readable meanwhile; only the repo-side verbs need a directory."

def newRun (host : EngineHost) (slug runId : String) (scope : EngineScope)
    (settings : RunSettings) : EngineRunRecord where
  id := runId
  projectSlug := slug
  scope := scope
  lanes := settings.lanes
  agent := settings.agent
  model := settings.model
  effort := settings.effort
  speed := settings.speed
  state := .running
  consecutiveHardStops := 0
  recentQuarantines := []
  stopReason := none
  acknowledgedAt := none
  createdAt := host.now
  updatedAt := host.now

def startRun (host : EngineHost) (tables : EngineTables) (runId : String) (scope : EngineScope)
    (settings : RunSettings) : Except AppError EngineTables := do
  refuse (!tables.project.automationsEnabled) (enableAutomations "starting")
  validateConfiguration settings
  refuse (!host.hasCheckout) (.validation (noCheckoutRefusal tables.slug))
  checkScope tables.project scope
  let created ← createEngineRun tables (newRun host tables.slug runId scope settings)
  addIdleLanes host created runId (List.range settings.lanes)

def withSettings (host : EngineHost) (run : EngineRunRecord) (settings : RunSettings) :
    EngineRunRecord :=
  { run with
    lanes := settings.lanes
    agent := settings.agent
    model := settings.model
    effort := settings.effort
    speed := settings.speed
    updatedAt := host.now }

/-- Replaces the settings of a run, without touching a lane that is taken. -/
def configure (host : EngineHost) (tables : EngineTables) (runId : String)
    (settings : RunSettings) : Except AppError EngineTables := do
  let run ← runForProject tables runId
  requireState run "configure" [.running, .paused]
  validateConfiguration settings
  let lanes := engineLanes tables runId
  let surplus := lanes.filter fun lane => settings.lanes ≤ lane.laneIndex && lane.state == .idle
  let absent := (List.range settings.lanes).filter fun index => !lanes.any (·.laneIndex == index)
  let filled ← addIdleLanes host (surplus.foldl deleteEngineLane tables) runId absent
  return updateEngineRun filled (withSettings host run settings)

/-- Claims the next ready story into the first lane a run may take; nothing where the run may take
none, or no story is ready. -/
def claimLane (host : EngineHost) (tables : EngineTables) (runId : String) :
    Except AppError (EngineTables × Option EngineLaneRecord) := do
  let run ← runForProject tables runId
  if run.state != .running || host.blocksAdmission tables ||
      !scopeIsAvailable tables.project run.scope then
    .ok (tables, none)
  else match (laneAdmission tables.project run (engineLanes tables runId) host.now).slots with
    | [] => .ok (tables, none)
    | slot :: _ => do
        let active ← demand (activeState tables.project.states) noActiveStateError
        let queue ← nextFiltered host tables.project run.scope.storyId [labelNoAuto]
        match queue with
        | [] => .ok (tables, none)
        | candidate :: _ => do
            let (story, row) ← resolveOpenStory tables.project candidate.story.id
            let (project, claimed) ← appendRestoredAndFold host.toCtx tables.project story
              (.exact row.headSeq) (stateTransitionEvents active row.awaiting.isSome host.now [])
            let lane := { slot with
              state := .dispatching
              storyId := some claimed.id
              dispatchedAt := some host.now
              lastObservedAt := host.now
              outcome := some row.snapshot.state }
            let written ← putLane host { tables with project := project } lane
            .ok (written, some lane)

/-- What a dispatch that went well says of its lane. -/
structure DispatchPayload where
  pane : Option String
  windowName : Option String
  worktreePath : Option String
  cleanupLease : Option CleanupLease

def validPaneId (value : String) : Bool :=
  match value.toList with
  | '%' :: digits => !digits.isEmpty && digits.all (·.isDigit)
  | _ => false

def liveLane (working : EngineLaneRecord) (payload : DispatchPayload) : EngineLaneRecord :=
  { working with
    state := .working
    paneId := payload.pane.filter validPaneId
    windowName := payload.windowName
    worktreePath := payload.worktreePath
    cleanupLease := payload.cleanupLease
    outcome := none
    outcomeDetail := none }

/-- Records a dispatch that went well, while the lane is as its claim wrote it. -/
def recordDispatch (host : EngineHost) (tables : EngineTables) (working : EngineLaneRecord)
    (payload : DispatchPayload) : Except AppError (EngineTables × Bool) :=
  if !(engineLanes tables working.runId).contains working then .ok (tables, false)
  else do
    let written ← putLane host tables (liveLane working payload)
    .ok (written, true)

def laneReservedLabel (lane : EngineLaneRecord) (story : StorySnapshot) : Option String :=
  if isHumanOnly story then some labelHumanOnly
  else if lane.adoptedIdentity.isNone && story.labels.contains labelNoAuto then some labelNoAuto
  else none

/-- Records a dispatch that gave no working lane; says whether the lane is quarantined. -/
def quarantineRefusedDispatch (host : EngineHost) (tables : EngineTables)
    (working : EngineLaneRecord) (diagnosis : String) : Except AppError (EngineTables × Bool) :=
  if !(engineLanes tables working.runId).contains working then .ok (tables, false)
  else do
    let id ← demand working.storyId (.storage "a dispatching lane holds a story")
    let active := (activeState tables.project.states).map (·.slug)
    let idle := idleLane working.runId working.laneIndex host.now
    match (resolveStory tables.project id).toOption with
    | none => do
        let freed ← putOrRetireIdleLane host tables { idle with
          outcome := some HardStopKind.dispatchRefused.text
          outcomeDetail := some diagnosis }
        .ok (freed, false)
    | some (story, row) =>
        if some row.state != active || row.snapshot.superstate == .closed ||
            host.foreignOwner tables.project story then do
          let freed ← putOrRetireIdleLane host tables { idle with
            outcome := some HardStopKind.dispatchRefused.text
            outcomeDetail := some diagnosis }
          .ok (freed, false)
        else do
          let (project, _) ← appendRestoredAndFold host.toCtx tables.project story
            (.exact row.headSeq) [.storyAwaitingSet host.now diagnosis]
          let held := { tables with project := project }
          if (laneReservedLabel working row.snapshot).isSome then do
            let freed ← putOrRetireIdleLane host held { idle with
              outcome := some reservedOutcome
              outcomeDetail := some id }
            .ok (freed, false)
          else do
            let written ← putLane host held { working with
              state := .quarantined
              outcome := some HardStopKind.dispatchRefused.text
              outcomeDetail := some id }
            .ok (written, true)

def stopping (tables : EngineTables) (runId : String) : Bool :=
  (engineRun tables runId).any (·.isStopping)

def observationIsCurrent (tables : EngineTables) (lane : EngineLaneRecord)
    (headGlobalSeq : Option Nat) : Except AppError Bool :=
  if stopping tables lane.runId || !(engineLanes tables lane.runId).contains lane then .ok false
  else do
    let id ← demand lane.storyId (.storage "occupied lane has a story")
    .ok ((optionalLaneStory tables.project id).map (·.headGlobalSeq) == headGlobalSeq)

def whileCurrent (tables : EngineTables) (lane : EngineLaneRecord) (headGlobalSeq : Option Nat)
    (write : Except AppError EngineTables) : Except AppError (EngineTables × Bool) := do
  let current ← observationIsCurrent tables lane headGlobalSeq
  if current then write.map (·, true) else .ok (tables, false)

/-- The progress marks of a lane once it has been seen: the stall clock restarts where its story
moved, and goes on to the last output of its pane otherwise. -/
def observedProgress (host : EngineHost) (lane : EngineLaneRecord) (headGlobalSeq : Option Nat)
    (probe : WindowProbe) (pass : ReconcilePass) : Option Nat × Option String :=
  if pass == .restart || headGlobalSeq.any fun head => lane.lastProgressSeq != some head then
    (headGlobalSeq, some host.now)
  else match probe with
    | .alive (some outputAt) =>
        (lane.lastProgressSeq, (host.outputAfter outputAt lane.lastProgressAt).or lane.lastProgressAt)
    | _ => (lane.lastProgressSeq, lane.lastProgressAt)

def observedLane (host : EngineHost) (lane : EngineLaneRecord) (headGlobalSeq : Option Nat)
    (probe : WindowProbe) (pass : ReconcilePass) : EngineLaneRecord :=
  let progress := observedProgress host lane headGlobalSeq probe pass
  { lane with
    lastObservedAt := host.now
    lastProgressSeq := progress.1
    lastProgressAt := progress.2
    probeDetail := probe.detail }

def recordProgress (host : EngineHost) (tables : EngineTables) (lane : EngineLaneRecord)
    (headGlobalSeq : Option Nat) (probe : WindowProbe) (pass : ReconcilePass) :
    Except AppError (EngineTables × Bool) :=
  whileCurrent tables lane headGlobalSeq
    (let updated := observedLane host lane headGlobalSeq probe pass
    if updated = lane then .ok tables else putLane host tables updated)

def letGo (host : EngineHost) (tables : EngineTables) (lane : EngineLaneRecord)
    (headGlobalSeq : Option Nat) (outcome : String) : Except AppError (EngineTables × Bool) :=
  whileCurrent tables lane headGlobalSeq
    (putOrRetireIdleLane host tables { idleLane lane.runId lane.laneIndex host.now with
      outcome := some outcome
      outcomeDetail := lane.storyId })

def freeCompletedLane (host : EngineHost) (tables : EngineTables) (lane : EngineLaneRecord)
    (headGlobalSeq : Option Nat) : Except AppError (EngineTables × Bool) :=
  letGo host tables lane headGlobalSeq
    (if lane.adoptedIdentity.isSome then "adopted-released" else completedOutcome)

def releaseReservedLane (host : EngineHost) (tables : EngineTables) (lane : EngineLaneRecord)
    (headGlobalSeq : Option Nat) : Except AppError (EngineTables × Bool) :=
  letGo host tables lane headGlobalSeq reservedOutcome

structure QuarantineEvidence where
  existingReason : Option String
  windowDetail : Option String
  stall : Option String

def quarantineReason (lane : EngineLaneRecord) (kind : HardStopKind)
    (evidence : QuarantineEvidence) : String :=
  let probe := match kind with
    | .windowGone | .interrupted => (evidence.windowDetail.map (": " ++ ·)).getD ""
    | .stalled =>
        (evidence.stall.map fun stall => " (" ++ stall ++ ")").getD "" ++
          (evidence.windowDetail.map fun detail =>
            " (window liveness unknown: " ++ detail ++ ")").getD ""
    | _ => ""
  let provenance := "Full Auto: " ++ kind.text ++ " on lane " ++ Nat.repr lane.laneIndex ++
    " of run " ++ lane.runId ++
    (lane.windowName.map fun window => " (window " ++ window ++ ")").getD "" ++
    (lane.worktreePath.map fun path => " (worktree " ++ path ++ ")").getD "" ++ probe ++
    ". Worktree, branch and window are preserved for inspection; once you have looked, unblock " ++
    "the story and Resume it from the dashboard, or re-dispatch it deliberately."
  match evidence.existingReason.filter (· != "") with
  | some existing => existing ++ " (" ++ provenance ++ ")"
  | none => provenance

/-- Sets a reason on the story of a hard stop, where there still is one. -/
def holdStory (host : EngineHost) (db : Database) (kind : HardStopKind) (id reason : String) :
    Except AppError Database :=
  if kind = .storyMissing then .ok db
  else do
    let (story, row) ← resolveStory db id
    let (held, _) ← appendRestoredAndFold host.toCtx db story (.exact row.headSeq)
      [.storyAwaitingSet host.now reason]
    .ok held

/-- Holds a story that has hard-stopped, and keeps its lane as evidence. -/
def quarantineLane (host : EngineHost) (tables : EngineTables) (lane : EngineLaneRecord)
    (kind : HardStopKind) (evidence : QuarantineEvidence) (headGlobalSeq : Option Nat) :
    Except AppError (EngineTables × Option EngineQuarantineRecord) := do
  let reason := quarantineReason lane kind evidence
  let (after, applied) ← whileCurrent tables lane headGlobalSeq (do
    let id ← demand lane.storyId (.storage "occupied lane has a story")
    let project ← holdStory host tables.project kind id reason
    putLane host { tables with project := project } { lane with
      state := .quarantined
      lastObservedAt := host.now
      outcome := some kind.text
      outcomeDetail := lane.storyId
      probeDetail := evidence.windowDetail })
  let record : EngineQuarantineRecord := {
    laneIndex := lane.laneIndex
    storyId := lane.storyId
    kind := kind.text
    detail := lane.storyId.map fun _ => reason
    paneId := lane.paneId
    windowName := lane.windowName
    worktreePath := lane.worktreePath
    observedAt := host.now }
  .ok (after, if applied then some record else none)

/-- Returns a quarantined lane to the run, once its story is nobody else's. -/
def clearQuarantinedLane (host : EngineHost) (tables : EngineTables) (lane : EngineLaneRecord) :
    Except AppError EngineTables :=
  let number := lane.storyId.bind fun id => (parseId tables.project.idPrefix id).toOption
  if stopping tables lane.runId || !(engineLanes tables lane.runId).contains lane ||
      number.any (host.foreignOwner tables.project) then .ok tables
  else putOrRetireIdleLane host tables { idleLane lane.runId lane.laneIndex host.now with
    outcome := lane.outcome
    outcomeDetail := lane.outcomeDetail }

/-- A change to the row of a run, left out where it changes nothing. -/
def transition (host : EngineHost) (tables : EngineTables) (runId : String)
    (mutate : EngineRunRecord → Except AppError EngineRunRecord) : Except AppError EngineTables := do
  let before ← runForProject tables runId
  let run ← mutate before
  return if run = before then tables else updateEngineRun tables { run with updatedAt := host.now }

def pause (host : EngineHost) (tables : EngineTables) (runId : String) :
    Except AppError EngineTables :=
  transition host tables runId fun run => do
    requireState run "pause" [.running]
    return { run with state := .paused }

def resume (host : EngineHost) (tables : EngineTables) (runId : String) :
    Except AppError EngineTables :=
  transition host tables runId fun run => do
    refuse (!tables.project.automationsEnabled) (enableAutomations "resuming")
    requireState run "resume" [.paused]
    return { run with
      state := .running
      stopReason := run.stopReason.filter (· != automationsDisabledReason) }

def stopRun (host : EngineHost) (tables : EngineTables) (runId : String) :
    Except AppError EngineTables :=
  transition host tables runId fun run => do
    requireState run "stop" [.running, .paused]
    return { run with
      state := if (engineLanes tables runId).all (·.state == .idle) then .finished else .draining
      stopReason := some operatorStopped
      acknowledgedAt := none }

/-- A run with what one pass made of its lanes counted: completions before hard stops. -/
def counted (run : EngineRunRecord) (completions : Nat) (hardStops : List EngineQuarantineRecord) :
    EngineRunRecord :=
  let earlier := if 0 < completions then 0 else run.consecutiveHardStops
  let series := (if 0 < completions then [] else run.recentQuarantines) ++ hardStops
  { run with
    consecutiveHardStops := earlier + hardStops.length
    recentQuarantines := series.drop (series.length - hardStopBreaker) }

/-- A running run halted where its hard stops have reached the breaker. -/
def tripped (run : EngineRunRecord) : EngineRunRecord :=
  if hardStopBreaker ≤ run.consecutiveHardStops && run.state == .running then
    { run with
      state := .halted
      stopReason := some breakerTripped
      acknowledgedAt := none }
  else run

def applyBreaker (host : EngineHost) (tables : EngineTables) (runId : String)
    (completions : Nat) (hardStops : List EngineQuarantineRecord) : Except AppError EngineTables :=
  transition host tables runId fun run => .ok (tripped (counted run completions hardStops))

def haltInvalidScope (host : EngineHost) (tables : EngineTables) (run : EngineRunRecord) :
    EngineTables × Bool :=
  if (run.state == .running || run.state == .paused) &&
      !scopeIsAvailable tables.project run.scope then
    (updateEngineRun tables { run with
      state := .halted
      stopReason := some scopeUnavailable
      acknowledgedAt := none
      updatedAt := host.now }, true)
  else (tables, false)

/-- Whether a running run still has stories to claim, or some that it leaves to a person. -/
def waitingForWork (host : EngineHost) (db : Database) (run : EngineRunRecord) :
    Except AppError Bool := do
  if run.state != .running then .ok false
  else do
    let all ← nextFiltered host db run.scope.storyId []
    if all.any fun view => view.story.labels.contains labelNoAuto then .ok true
    else do
      let claimable ← nextFiltered host db run.scope.storyId [labelNoAuto]
      .ok (!claimable.isEmpty)

/-- Ends a run whose lanes are all idle and for which nothing waits. -/
def finishIfDrained (host : EngineHost) (tables : EngineTables) (runId : String) :
    Except AppError EngineTables := do
  let run ← runForProject tables runId
  let (halted, justHalted) := haltInvalidScope host tables run
  if justHalted then .ok halted
  else do
    let waiting ← waitingForWork host tables.project run
    if (engineLanes tables runId).all (·.state == .idle) && !waiting &&
        (run.state == .running || run.state == .draining) then
      .ok (updateEngineRun tables { run with
        state := .finished
        stopReason := some (run.stopReason.getD queueDrained)
        acknowledgedAt := if run.stopReason.isNone then none else run.acknowledgedAt
        updatedAt := host.now })
    else .ok tables

/-- What an inspection finds out about a dispatch that runs already. -/
structure InspectedDispatch where
  lease : CleanupLease
  paneId : String
  windowName : String
  identity : AdoptedIdentity
  deriving DecidableEq, Repr

def adoptRefusal (detail : String) : AppError := .validation ("engine adopt: " ++ detail)

/-- The state a story was in before it last entered the active one. -/
def stateClaimedFrom (events : List StoryEvent) (active : String) : Option String :=
  let timeline := events.filterMap movesTo
  let entries := (List.range timeline.length).filter fun index =>
    timeline[index]? == some active && (index == 0 || timeline[index - 1]? != some active)
  entries.getLast?.bind fun index => if index = 0 then none else timeline[index - 1]?

def checkEligible (tables : EngineTables) (all : StoryMap) (scope : Option (Std.TreeSet String))
    (seen : List StoryRow) (id : String) : Except AppError (List StoryRow) := do
  let (no, row) ← resolveStory tables.project id
  let story := row.snapshot
  refuse (seen.any fun earlier => earlier.snapshot.id == story.id)
    (adoptRefusal ("duplicate story " ++ story.id))
  refuse (row.state != "in-progress" || row.superstate != .open || story.draft || isEpic story ||
      isHumanOnly story || isBlocked story (all[·]?) ||
      story.relationships.any (·.relation == "obviated-by") ||
      scope.any fun scope => !scope.contains story.id)
    (adoptRefusal (story.id ++
      " must be claimed, unblocked, non-human-only work within the run scope"))
  refuse (stateClaimedFrom (history tables.project no) "in-progress").isNone
    (adoptRefusal (story.id ++ " has no claim origin"))
  return seen ++ [row]

def eligible (host : EngineHost) (tables : EngineTables) (run : EngineRunRecord)
    (ids : List String) : Except AppError (List StoryRow) := do
  requireState run "adopt" [.running, .paused]
  let all : StoryMap := .ofList (tables.project.stories.toList.map fun entry =>
    (entry.2.snapshot.id, entry.2.snapshot))
  refuse (run.scope.storyId.any fun epicId => !(all[epicId]?).any isEpic)
    (adoptRefusal "run epic is unavailable")
  let scope := run.scope.storyId.map (host.descendantIds all)
  ids.foldlM (checkEligible tables all scope) []

def sameBinding (lane : EngineLaneRecord) (found : InspectedDispatch) : Bool :=
  lane.state == .working && lane.storyId == some found.lease.storyId &&
    lane.paneId == some found.paneId && lane.cleanupLease == some found.lease &&
    lane.adoptedIdentity == some found.identity

def identityInvalid (slug : String) (row : StoryRow) (found : InspectedDispatch) : Bool :=
  found.lease.version != 1 || found.lease.projectSlug != slug ||
    found.lease.storyId != row.snapshot.id || found.windowName != row.snapshot.id ||
    !validPaneId found.paneId || !found.lease.socketPath.startsWith "/"

/-- The lane of any run that holds a story, where it is of this run and binds the dispatch found. -/
def boundLane (tables : EngineTables) (runId : String) (row : StoryRow)
    (found : InspectedDispatch) : Except AppError (Option EngineLaneRecord) :=
  let ours := tables.runs.filter (·.projectSlug == tables.slug)
  (ours.flatMap fun run => engineLanes tables run.id).foldlM (fun bound lane => do
    if lane.storyId == some row.snapshot.id then do
      refuse (bound.isSome || lane.runId != runId || !sameBinding lane found)
        (adoptRefusal (row.snapshot.id ++ " already has conflicting lane ownership"))
      return some lane
    else return bound) none

/-- The stories that no lane holds yet, with the dispatches to bind them by. -/
def additionsTo (tables : EngineTables) (runId : String)
    (pairs : List (StoryRow × InspectedDispatch)) :
    Except AppError (List (StoryRow × InspectedDispatch)) :=
  pairs.foldlM (fun additions pair => do
    let existing ← boundLane tables runId pair.1 pair.2
    return if existing.isNone then additions ++ [pair] else additions) []

def adoptedLane (host : EngineHost) (runId : String) (row : StoryRow) (found : InspectedDispatch)
    (slot : EngineLaneRecord) : EngineLaneRecord :=
  { idleLane runId slot.laneIndex host.now with
    state := .working
    storyId := some row.snapshot.id
    paneId := some found.paneId
    windowName := some found.windowName
    worktreePath := some found.lease.worktreePath
    cleanupLease := some found.lease
    adoptedIdentity := some found.identity
    dispatchedAt := some host.now
    lastProgressAt := some host.now
    lastProgressSeq := some row.headGlobalSeq }

def adopt (host : EngineHost) (tables : EngineTables) (runId : String) (ids : List String)
    (before : List StoryRow) (found : List InspectedDispatch) :
    Except AppError (EngineTables × List EngineLaneRecord) := do
  refuse (ids.isEmpty || maxEngineLanes < ids.length)
    (adoptRefusal ("between 1 and " ++ Nat.repr maxEngineLanes ++ " stories are required"))
  refuse ((before.zip found).any fun (row, first) => identityInvalid tables.slug row first)
    (adoptRefusal "dispatch identity changed or is invalid")
  let run ← runForProject tables runId
  let current ← eligible host tables run ids
  refuse ((current.zip before).any (fun (now, earlier) =>
      now.headGlobalSeq != earlier.headGlobalSeq || now.storyNo != earlier.storyNo) ||
      !host.hasCheckout)
    (adoptRefusal "story or checkout changed during inspection; retry adoption")
  let additions ← additionsTo tables runId (current.zip found)
  let slots := (laneAdmission tables.project run (engineLanes tables runId) host.now).slots
  refuse (slots.length < additions.length) (adoptRefusal ("insufficient capacity in run " ++ runId ++
    "; configure more lanes or wait for idle capacity"))
  let lanes := (additions.zip slots).map fun (addition, slot) =>
    adoptedLane host runId addition.1 addition.2 slot
  let written ← lanes.foldlM (putLane host) tables
  return (if lanes.isEmpty then written
    else updateEngineRun written { run with updatedAt := host.now }, lanes)

end Storyhook.Service
