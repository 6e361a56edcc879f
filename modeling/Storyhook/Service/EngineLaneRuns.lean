import Storyhook.Service.EngineLaneTakes

/-! The lanes of the runs, through any order of the engine's transactions. -/

namespace Storyhook.Service

open Storyhook.Domain Storyhook.Store
open Library Library.Outcome

/-- The stories of a project as its rows can hold them. -/
structure FiledTables where
  project : Database
  filed : Filed project

/-- A transaction of the engine, or a change that others make to the stories. -/
inductive EngineAction where
  | start (runId : String) (scope : EngineScope) (settings : RunSettings)
  | configure (runId : String) (settings : RunSettings)
  | pause (runId : String)
  | resume (runId : String)
  | stop (runId : String)
  | claim (runId : String)
  | dispatched (working : EngineLaneRecord) (payload : DispatchPayload)
  | refused (working : EngineLaneRecord) (diagnosis : String)
  | adopt (runId : String) (ids : List String) (before : List StoryRow)
      (found : List InspectedDispatch)
  | progress (lane : EngineLaneRecord) (head : Option Nat) (probe : WindowProbe)
      (pass : ReconcilePass)
  | complete (lane : EngineLaneRecord) (head : Option Nat)
  | release (lane : EngineLaneRecord) (head : Option Nat)
  | quarantine (lane : EngineLaneRecord) (kind : HardStopKind) (evidence : QuarantineEvidence)
      (head : Option Nat)
  | clear (lane : EngineLaneRecord)
  | score (runId : String) (completions : Nat) (hardStops : List EngineQuarantineRecord)
  | finish (runId : String)
  | elsewhere (stories : FiledTables)

structure EngineOp where
  host : EngineHost
  action : EngineAction

/-- The tables, and the claimed lanes whose dispatch has not answered yet. -/
structure EngineState where
  tables : EngineTables
  dispatches : List EngineLaneRecord

def EngineState.keep (state : EngineState) (ran : Except AppError EngineTables) :
    Except AppError EngineState :=
  ran.map fun after => { state with tables := after }

theorem EngineState.keep_ok (state after : EngineState) (ran : Except AppError EngineTables) :
    state.keep ran = .ok after ↔
      ∃ tables, ran = .ok tables ∧ { state with tables := tables } = after :=
  map_eq_ok _ ran after

def EngineOp.run (op : EngineOp) (state : EngineState) : Except AppError EngineState :=
  let tables := state.tables
  match op.action with
  | .start runId scope settings => state.keep (startRun op.host tables runId scope settings)
  | .configure runId settings => state.keep (Service.configure op.host tables runId settings)
  | .pause runId => state.keep (Service.pause op.host tables runId)
  | .resume runId => state.keep (Service.resume op.host tables runId)
  | .stop runId => state.keep (stopRun op.host tables runId)
  | .claim runId => (claimLane op.host tables runId).map fun (after, taken) =>
      ⟨after, taken.toList ++ state.dispatches⟩
  | .dispatched working payload => do
      refuse (!state.dispatches.contains working) (.storage "no such dispatch")
      let (after, _) ← recordDispatch op.host tables working payload
      return ⟨after, state.dispatches.erase working⟩
  | .refused working diagnosis => do
      refuse (!state.dispatches.contains working) (.storage "no such dispatch")
      let (after, _) ← quarantineRefusedDispatch op.host tables working diagnosis
      return ⟨after, state.dispatches.erase working⟩
  | .adopt runId ids before found =>
      state.keep ((Service.adopt op.host tables runId ids before found).map (·.1))
  | .progress lane head probe pass =>
      state.keep ((recordProgress op.host tables lane head probe pass).map (·.1))
  | .complete lane head => state.keep ((freeCompletedLane op.host tables lane head).map (·.1))
  | .release lane head => state.keep ((releaseReservedLane op.host tables lane head).map (·.1))
  | .quarantine lane kind evidence head =>
      state.keep ((quarantineLane op.host tables lane kind evidence head).map (·.1))
  | .clear lane => state.keep (clearQuarantinedLane op.host tables lane)
  | .score runId completions hardStops =>
      state.keep (applyBreaker op.host tables runId completions hardStops)
  | .finish runId => state.keep (finishIfDrained op.host tables runId)
  | .elsewhere stories => state.keep (.ok { tables with project := stories.project })

def performEngine (state : EngineState) (op : EngineOp) : EngineState :=
  (op.run state).toOption.getD state

def runEngine (start : EngineState) (ops : List EngineOp) : EngineState :=
  ops.foldl performEngine start

def EngineAction.takesFor : EngineAction → Option String
  | .claim runId | .adopt runId _ _ _ => some runId
  | _ => none

/-- What holds right after a lane has been taken for a run. -/
structure TakenWell (before after : EngineTables) (runId : String) : Prop where
  capacity : ∀ run ∈ after.runs, run.id = runId →
    (laneOccupancy after.project (engineLanes after runId)).active ≤ run.lanes ∧
      (laneOccupancy after.project (engineLanes after runId)).active +
        (laneOccupancy after.project (engineLanes after runId)).verifying.length ≤ 2 * run.lanes
  vacant : ∀ lane ∈ after.lanes, lane ∉ before.lanes →
    (∀ run ∈ after.runs, run.id = runId → lane.laneIndex < 2 * run.lanes) ∧
      ∀ old ∈ before.lanes, old.sameKey lane = true → old.state = .idle

/-- The lanes of every run stay within its capacity and hold different stories. -/
structure LanesKept (start : EngineState) (ops : List EngineOp) : Prop where
  taken : ∀ before op later, ops = before ++ op :: later → ∀ runId,
    op.action.takesFor = some runId →
      let was := (runEngine start before).tables
      let now := (performEngine (runEngine start before) op).tables
      (∃ lane ∈ now.lanes, lane ∉ was.lanes) → TakenWell was now runId
  idle : ∀ before later, ops = before ++ later → ∀ run ∈ (runEngine start before).tables.runs,
    ∀ lane ∈ engineLanes (runEngine start before).tables run.id, lane.state = .idle →
      lane.laneIndex < run.lanes
  distinct : ∀ before later, ops = before ++ later → Distinct (runEngine start before).tables

/-- Whether the story that a claim with a slot to fill would take, the head of the ready queue, is
held by none of the run's taken lanes. -/
def ClaimsFree (op : EngineOp) (tables : EngineTables) : Prop :=
  ∀ runId, op.action = .claim runId → ∀ run, runForProject tables runId = .ok run →
    run.state = .running → op.host.blocksAdmission tables = false →
    scopeIsAvailable tables.project run.scope = true →
    (laneAdmission tables.project run (engineLanes tables runId) op.host.now).slots ≠ [] →
    ∀ candidate rest, nextFiltered op.host tables.project run.scope.storyId [labelNoAuto] =
      .ok (candidate :: rest) → ∀ lane ∈ engineLanes tables runId, isOccupied lane = true →
        lane.storyId ≠ some candidate.story.id

structure EngineKept (state : EngineState) : Prop where
  laned : Laned state.tables
  distinct : Distinct state.tables
  dispatching : ∀ working ∈ state.dispatches, working.state = .dispatching

section Step

variable (state after : EngineState) (op : EngineOp) (kept : EngineKept state)

include kept

theorem EngineKept.untaken (tables : EngineTables) (dispatches : List EngineLaneRecord)
    (takes : TakesNone state.tables tables) (fewer : dispatches ⊆ state.dispatches) :
    EngineKept ⟨tables, dispatches⟩ where
  laned := takes.laned
  distinct := takes.quiet.distinct state.tables tables kept.distinct
  dispatching := fun working member => kept.dispatching working (fewer member)

theorem run_untaken (ran : op.run state = .ok after) (none : op.action.takesFor = none) :
    TakesNone state.tables after.tables ∧ after.dispatches ⊆ state.dispatches := by
  have inside (working : EngineLaneRecord) (listed : (!state.dispatches.contains working) = false) :
      working.state = .dispatching := by
    rw [Bool.not_eq_false', List.contains_iff_mem] at listed
    exact kept.dispatching working listed
  rw [EngineOp.run] at ran
  cases action : op.action with
  | claim runId =>
      rw [action] at none
      cases none
  | adopt runId ids before found =>
      rw [action] at none
      cases none
  | dispatched working payload =>
      simp only [action, bind_eq_ok, refuse_ok, pure_eq_ok, Prod.exists] at ran
      obtain ⟨-, listed, tables, applied, ran, rfl⟩ := ran
      exact ⟨recordDispatch_takesNone op.host state.tables tables kept.laned working payload
        (inside working listed) applied ran, List.erase_subset⟩
  | refused working diagnosis =>
      simp only [action, bind_eq_ok, refuse_ok, pure_eq_ok, Prod.exists] at ran
      obtain ⟨-, listed, tables, held, ran, rfl⟩ := ran
      exact ⟨quarantineRefusedDispatch_takesNone op.host state.tables tables kept.laned working
        diagnosis (inside working listed) held ran, List.erase_subset⟩
  | start runId scope settings =>
      simp only [action, EngineState.keep_ok] at ran
      obtain ⟨tables, ran, rfl⟩ := ran
      exact ⟨startRun_takesNone op.host state.tables tables kept.laned runId scope settings ran,
        List.Subset.refl _⟩
  | configure runId settings =>
      simp only [action, EngineState.keep_ok] at ran
      obtain ⟨tables, ran, rfl⟩ := ran
      exact ⟨configure_takesNone op.host state.tables tables kept.laned runId settings ran,
        List.Subset.refl _⟩
  | pause runId =>
      simp only [action, EngineState.keep_ok] at ran
      obtain ⟨tables, ran, rfl⟩ := ran
      exact ⟨pause_takesNone op.host state.tables tables kept.laned runId ran, List.Subset.refl _⟩
  | resume runId =>
      simp only [action, EngineState.keep_ok] at ran
      obtain ⟨tables, ran, rfl⟩ := ran
      exact ⟨resume_takesNone op.host state.tables tables kept.laned runId ran, List.Subset.refl _⟩
  | stop runId =>
      simp only [action, EngineState.keep_ok] at ran
      obtain ⟨tables, ran, rfl⟩ := ran
      exact ⟨stopRun_takesNone op.host state.tables tables kept.laned runId ran,
        List.Subset.refl _⟩
  | progress lane head probe pass =>
      simp only [action, EngineState.keep_ok] at ran
      obtain ⟨_, ran, rfl⟩ := ran
      rw [map_eq_ok] at ran
      obtain ⟨⟨tables, applied⟩, ran, rfl⟩ := ran
      exact ⟨recordProgress_takesNone op.host state.tables tables kept.laned lane head probe pass
        applied ran, List.Subset.refl _⟩
  | complete lane head =>
      simp only [action, EngineState.keep_ok] at ran
      obtain ⟨_, ran, rfl⟩ := ran
      rw [map_eq_ok] at ran
      obtain ⟨⟨tables, applied⟩, ran, rfl⟩ := ran
      exact ⟨letGo_takesNone op.host state.tables tables kept.laned lane head _ applied ran,
        List.Subset.refl _⟩
  | release lane head =>
      simp only [action, EngineState.keep_ok] at ran
      obtain ⟨_, ran, rfl⟩ := ran
      rw [map_eq_ok] at ran
      obtain ⟨⟨tables, applied⟩, ran, rfl⟩ := ran
      exact ⟨letGo_takesNone op.host state.tables tables kept.laned lane head _ applied ran,
        List.Subset.refl _⟩
  | quarantine lane kind evidence head =>
      simp only [action, EngineState.keep_ok] at ran
      obtain ⟨_, ran, rfl⟩ := ran
      rw [map_eq_ok] at ran
      obtain ⟨⟨tables, record⟩, ran, rfl⟩ := ran
      exact ⟨quarantineLane_takesNone op.host state.tables tables kept.laned lane kind evidence head
        record ran, List.Subset.refl _⟩
  | clear lane =>
      simp only [action, EngineState.keep_ok] at ran
      obtain ⟨tables, ran, rfl⟩ := ran
      exact ⟨clearQuarantinedLane_takesNone op.host state.tables tables kept.laned lane ran,
        List.Subset.refl _⟩
  | score runId completions hardStops =>
      simp only [action, EngineState.keep_ok] at ran
      obtain ⟨tables, ran, rfl⟩ := ran
      exact ⟨applyBreaker_takesNone op.host state.tables tables kept.laned runId completions
        hardStops ran, List.Subset.refl _⟩
  | finish runId =>
      simp only [action, EngineState.keep_ok] at ran
      obtain ⟨tables, ran, rfl⟩ := ran
      exact ⟨finishIfDrained_takesNone op.host state.tables tables kept.laned runId ran,
        List.Subset.refl _⟩
  | elsewhere stories =>
      simp only [action, EngineState.keep] at ran
      cases ran
      exact ⟨kept.laned.project state.tables stories.project stories.filed, List.Subset.refl _⟩

theorem claim_taken (runId : String) (tables : EngineTables) (taken : Option EngineLaneRecord)
    (action : op.action = .claim runId)
    (ran : claimLane op.host state.tables runId = .ok (tables, taken))
    (free : ClaimsFree op state.tables) :
    EngineKept ⟨tables, taken.toList ++ state.dispatches⟩ ∧
      ((∃ lane ∈ tables.lanes, lane ∉ state.tables.lanes) →
        TakenWell state.tables tables runId) := by
  rcases claimLane_ok op.host state.tables tables runId taken ran with
    ⟨rfl, rfl⟩ | ⟨run, slot, lane, candidate, story, project, rfl, rfl, claims⟩
  · exact ⟨⟨kept.laned, kept.distinct, kept.dispatching⟩,
      fun ⟨lane, inside, outside⟩ => absurd inside outside⟩
  · obtain ⟨rest, ready⟩ := claims.ready
    obtain ⟨others, offered⟩ := claims.offered
    have unheld := free run.id action run claims.found claims.running claims.unblocked
      claims.available (offered ▸ List.cons_ne_nil slot others) candidate rest ready
    obtain ⟨named, within, idle⟩ := Claims.vacant op.host state.tables tables run slot lane
      candidate story project kept.laned claims
    have laned := Claims.keepsLaned op.host state.tables tables run slot lane candidate story
      project kept.laned claims
    have only (other : EngineRunRecord) (listed : other ∈ tables.runs)
        (same : other.id = run.id) : other = run := by
      rw [claims.written] at listed
      exact engineRun_unique state.tables kept.laned run.id run other
        (runForProject_ok _ _ _ claims.found).1 listed same
    refine ⟨⟨laned, ?_, ?_⟩, fun _ => ⟨?_, ?_⟩⟩
    · exact Claims.distinct op.host state.tables tables run slot lane candidate story project
        kept.laned claims kept.distinct unheld
    · intro working member
      rcases List.mem_append.mp member with new | old
      · rw [Option.mem_toList] at new
        cases new
        exact claims.state
      · exact kept.dispatching working old
    · intro other listed same
      rw [only other listed same]
      exact Claims.capacity op.host state.tables tables run slot lane candidate story project
        kept.laned claims
    · intro other member fresh
      rw [claims.written] at member
      rcases (mem_put _ lane other).mp member with rfl | ⟨there, -⟩
      · refine ⟨fun next listed same => ?_, fun old held same => idle old held ?_⟩
        · rw [only next listed same, claims.laneIndex]
          exact within
        · rw [sameKey_iff] at same ⊢
          exact ⟨same.1.trans claims.runId, same.2.trans claims.laneIndex⟩
      · exact absurd there fresh

theorem adopt_taken (runId : String) (ids : List String) (before : List StoryRow)
    (found : List InspectedDispatch) (tables : EngineTables) (lanes : List EngineLaneRecord)
    (ran : adopt op.host state.tables runId ids before found = .ok (tables, lanes)) :
    EngineKept { state with tables := tables } ∧
      ((∃ lane ∈ tables.lanes, lane ∉ state.tables.lanes) →
        TakenWell state.tables tables runId) := by
  obtain ⟨run, rfl, adopts⟩ := adopt_ok op.host state.tables tables runId ids before found
    lanes ran
  refine ⟨⟨Adopts.keepsLaned op.host state.tables tables run lanes kept.laned adopts,
    Adopts.distinct op.host state.tables tables run lanes adopts kept.distinct,
    kept.dispatching⟩, fun ⟨lane, inside, outside⟩ => ?_⟩
  have some : lanes ≠ [] := by
    rintro rfl
    rw [Adopts.lanes_eq op.host state.tables tables run [] adopts] at inside
    exact outside inside
  have only (other : EngineRunRecord) (listed : other ∈ tables.runs)
      (same : other.id = run.id) : other.lanes = run.lanes := by
    rw [adopts.written, if_neg (by simpa using some)] at listed
    rcases mem_update _ _ other listed with rfl | ⟨there, -⟩
    · rfl
    · rw [puts_runs] at there
      rw [engineRun_unique state.tables kept.laned run.id run other
        (runForProject_ok _ _ _ adopts.found).1 there same]
  refine ⟨fun other listed same => ?_, fun other member fresh => ?_⟩
  · rw [only other listed same]
    exact Adopts.capacity op.host state.tables tables run lanes adopts some
  · rw [Adopts.lanes_eq op.host state.tables tables run lanes adopts] at member
    rcases mem_puts state.tables lanes other member with new | old
    · obtain ⟨within, idle⟩ := Adopts.vacant op.host state.tables tables run lanes kept.laned
        adopts other new
      exact ⟨fun next listed same => only next listed same ▸ within, idle⟩
    · exact absurd old fresh

theorem run_taken (ran : op.run state = .ok after) (runId : String)
    (takes : op.action.takesFor = some runId) (free : ClaimsFree op state.tables) :
    EngineKept after ∧ ((∃ lane ∈ after.tables.lanes, lane ∉ state.tables.lanes) →
      TakenWell state.tables after.tables runId) := by
  rw [EngineOp.run] at ran
  cases action : op.action with
  | claim claimed =>
      rw [action] at takes
      simp only [action, map_eq_ok] at ran
      cases takes
      obtain ⟨⟨tables, taken⟩, ran, rfl⟩ := ran
      exact claim_taken state op kept runId tables taken action ran free
  | adopt adopting ids before found =>
      rw [action] at takes
      simp only [action, EngineState.keep_ok] at ran
      cases takes
      obtain ⟨_, ran, rfl⟩ := ran
      rw [map_eq_ok] at ran
      obtain ⟨⟨tables, lanes⟩, ran, rfl⟩ := ran
      exact adopt_taken state op kept runId ids before found tables lanes ran
  | _ =>
      rw [action] at takes
      cases takes

theorem performEngine_kept (free : ClaimsFree op state.tables) :
    EngineKept (performEngine state op) := by
  rw [performEngine]
  cases ran : op.run state with
  | error failure => exact kept
  | ok after =>
      cases takes : op.action.takesFor with
      | none =>
          obtain ⟨untaken, fewer⟩ := run_untaken state after op kept ran takes
          exact kept.untaken state after.tables after.dispatches untaken fewer
      | some runId => exact (run_taken state after op kept ran runId takes free).1

end Step

theorem runEngine_kept (start : EngineState) (ops : List EngineOp) (kept : EngineKept start)
    (free : ∀ before op later, ops = before ++ op :: later →
      ClaimsFree op (runEngine start before).tables) : EngineKept (runEngine start ops) := by
  induction ops generalizing start with
  | nil => exact kept
  | cons op rest further =>
      refine further (performEngine start op)
        (performEngine_kept start op kept (free [] op rest rfl)) ?_
      intro before next later placed
      exact free (op :: before) next later (congrArg (op :: ·) placed)

/-- A project without runs. -/
def noRuns (slug : String) (stories : FiledTables) : EngineState :=
  ⟨⟨slug, stories.project, [], []⟩, []⟩

theorem noRuns_kept (slug : String) (stories : FiledTables) :
    EngineKept (noRuns slug stories) where
  laned :=
    { filed := stories.filed
      keyed := List.Pairwise.nil
      holding := fun _ member => absurd member List.not_mem_nil
      owned := fun _ member => absurd member List.not_mem_nil
      ids := List.nodup_nil
      idleBelow := fun _ member => absurd member List.not_mem_nil }
  distinct := fun _ member => absurd member List.not_mem_nil
  dispatching := fun _ member => absurd member List.not_mem_nil

theorem lanes_kept (slug : String) (stories : FiledTables) (ops : List EngineOp)
    (free : ∀ before op later, ops = before ++ op :: later →
      ClaimsFree op (runEngine (noRuns slug stories) before).tables) :
    LanesKept (noRuns slug stories) ops := by
  have kept (before later : List EngineOp) (placed : ops = before ++ later) :
      EngineKept (runEngine (noRuns slug stories) before) := by
    refine runEngine_kept _ before (noRuns_kept slug stories) fun first op rest split => ?_
    refine free first op (rest ++ later) ?_
    rw [placed, split, List.append_assoc, List.cons_append]
  refine ⟨?_, ?_, fun before later placed => (kept before later placed).distinct⟩
  · rintro before op later placed runId takes was now ⟨lane, inside, outside⟩
    have there := kept before (op :: later) placed
    cases ran : op.run (runEngine (noRuns slug stories) before) with
    | error failure =>
        have still : now = was := by simp only [now, was, performEngine, ran]; rfl
        exact absurd (still ▸ inside) outside
    | ok after =>
        have moved : now = after.tables := by simp only [now, performEngine, ran]; rfl
        rw [moved] at inside ⊢
        exact (run_taken _ after op there ran runId takes (free before op later placed)).2
          ⟨lane, inside, outside⟩
  · intro before later placed run listed lane member resting
    obtain ⟨there, named⟩ := (mem_engineLanes _ _ _).mp member
    exact (kept before later placed).laned.idleBelow lane there resting run listed named.symm

theorem runAppends_filed (start : Database) (appends : List StoryAppend) (filed : Filed start) :
    Filed (runAppends start appends) := by
  induction appends generalizing start with
  | nil => exact filed
  | cons append rest further =>
      refine further _ ?_
      rw [performAppend]
      split
      · next after snapshot ran =>
          exact (run_writes start after append snapshot ran).2.filed _ _ _ _ _ filed
      · exact filed

/-- A machine on which no record outside the tables refuses a lane or a story. -/
def plainHost (now : String) : EngineHost where
  toCtx := plainCtx now
  admitLane := fun _ _ => .ok ()
  blocksAdmission := fun _ => false
  foreignOwner := fun _ _ => false
  resetting := fun _ _ => false
  descendantIds := fun _ _ => ∅
  outputAfter := fun _ _ => none
  hasCheckout := true

/-- The stories of a project after some appends. -/
def appended (appends : List StoryAppend) : FiledTables where
  project := runAppends (emptyProject "SH" defaultStates defaultTypes true) appends
  filed := by
    refine runAppends_filed _ _ ⟨?_, ?_⟩ <;> intro no row stored <;> cases stored

def filedStory : StoryAppend := plainAppend [
  .storyCreated "2026-01-05T10:00:00Z" "first" "todo",
  .storyTypeSet "2026-01-05T10:00:00Z" "normal",
  .storyPrioritySet "2026-01-05T10:00:00Z" .medium]

def twoLanes : RunSettings := ⟨2, .claude, none, none, none⟩

def firstClaim : List EngineOp :=
  [⟨plainHost "2026-01-05T10:00:01Z", .start "run" .project twoLanes⟩,
    ⟨plainHost "2026-01-05T10:00:05Z", .claim "run"⟩]

def firstTaken : EngineLaneRecord :=
  { idleLane "run" 0 "2026-01-05T10:00:05Z" with
    state := .dispatching
    storyId := some "SH-1"
    dispatchedAt := some "2026-01-05T10:00:05Z"
    outcome := some "todo" }

def secondStory : StoryAppend :=
  { plainAppend [
      .storyCreated "2026-01-05T10:00:00Z" "second" "todo",
      .storyTypeSet "2026-01-05T10:00:00Z" "normal",
      .storyPrioritySet "2026-01-05T10:00:00Z" .low] with story := 2 }

/-- A story that a session works on, and another claimed beside it. -/
def twoClaims : List EngineOp :=
  firstClaim ++ [
    ⟨plainHost "2026-01-05T10:00:06Z", .dispatched firstTaken ⟨some "%1", none, none, none⟩⟩,
    ⟨plainHost "2026-01-05T10:00:08Z", .claim "run"⟩]

/-- A story that a session works on, moved back to where it was claimed from, and claimed again. -/
def reclaimed : List EngineOp :=
  firstClaim ++ [
    ⟨plainHost "2026-01-05T10:00:06Z", .dispatched firstTaken ⟨some "%1", none, none, none⟩⟩,
    ⟨plainHost "2026-01-05T10:00:07Z", .elsewhere (appended [filedStory,
      plainAppend [.storyStateChanged "2026-01-05T10:00:05Z" "in-progress"],
      plainAppend [.storyStateChanged "2026-01-05T10:00:07Z" "todo"]])⟩,
    ⟨plainHost "2026-01-05T10:00:08Z", .claim "run"⟩]

instance (tables : EngineTables) : Decidable (Distinct tables) :=
  inferInstanceAs (Decidable (∀ one ∈ tables.lanes, ∀ other ∈ tables.lanes,
    one.runId = other.runId → isOccupied one = true → isOccupied other = true →
      one.storyId = other.storyId → one.laneIndex = other.laneIndex))

open ExecutionQueue in
/-- The loop over the ready stories, from the list of its frontier. -/
def drainListed (stories : StoryIndex) (candidates : Std.TreeMap String StoryView) :
    Nat → QueueState → Option (List StoryView)
  | 0, _ => none
  | fuel + 1, state =>
      match state.frontier.toList.head? with
      | none => some state.execution
      | some key => (take stories candidates state key).bind (drainListed stories candidates fuel)

open ExecutionQueue in
theorem drain_listed (stories : StoryIndex) (candidates : Std.TreeMap String StoryView)
    (fuel : Nat) : drain stories candidates fuel = drainListed stories candidates fuel := by
  induction fuel with
  | zero => rfl
  | succ fuel further =>
      funext state
      cases first : state.frontier.toList.head? with
      | none => simp only [drain, drainListed, Std.TreeSet.min?_eq_head?_toList, first]
      | some key =>
          simp only [drain, drainListed, Std.TreeSet.min?_eq_head?_toList, first, further]

/-- The project whose two stories are claimed, before its first run. -/
def filedPair : EngineState := noRuns "sh" (appended [filedStory, secondStory])

theorem twoClaims_ready :
    let tables := (runEngine filedPair (twoClaims.take 3)).tables
    ((nextFiltered (plainHost "2026-01-05T10:00:08Z") tables.project none
        [labelNoAuto]).toOption.map fun queue => queue.map (·.story.id)) = some ["SH-2"] ∧
      (engineLanes tables "run").map (·.storyId) = [some "SH-1", none] ∧
      (runForProject tables "run").toOption.map (·.scope) = some .project := by
  -- the ready queue is read from its list, which the kernel can evaluate
  simp only [twoClaims, firstClaim, List.cons_append, List.nil_append, List.take, runEngine,
    List.foldl, performEngine, EngineOp.run, claimLane, nextFiltered, executionQueue, drain_listed]
  decide +kernel

theorem lanes_kept_twice : LanesKept filedPair twoClaims ∧
    (engineLanes (runEngine filedPair twoClaims).tables "run").map (·.storyId) =
      [some "SH-1", some "SH-2"] := by
  refine ⟨lanes_kept "sh" (appended [filedStory, secondStory]) twoClaims ?_, ?_⟩
  · intro before op later placed runId claims run found _ _ _ _ candidate rest ready lane member
      taken
    obtain _ | ⟨first, _ | ⟨second, _ | ⟨third, _ | ⟨fourth, further⟩⟩⟩⟩ := before
    · cases placed
      cases claims
    · cases placed
      cases claims
      have resting : ∀ lane ∈ engineLanes (runEngine filedPair (twoClaims.take 1)).tables "run",
          isOccupied lane = false := by decide +kernel
      exact absurd taken (Bool.eq_false_iff.mp (resting lane member))
    · cases placed
      cases claims
    · cases placed
      cases claims
      obtain ⟨queue, lanes, whole⟩ := twoClaims_ready
      have scope : run.scope = .project := by
        rw [show runForProject (runEngine filedPair (twoClaims.take 3)).tables "run" = .ok run
          from found] at whole
        exact Option.some.inj whole
      have head : candidate.story.id = "SH-2" := by
        rw [scope] at ready
        rw [show nextFiltered _ (runEngine filedPair (twoClaims.take 3)).tables.project none _ =
          .ok (candidate :: rest) from ready] at queue
        exact (List.cons.inj (Option.some.inj queue)).1
      have held : lane.storyId ∈ [some "SH-1", none] := lanes ▸ List.mem_map_of_mem member
      rw [head]
      rintro same
      rw [same] at held
      revert held
      decide
    · cases further <;> cases placed
  · simp only [twoClaims, firstClaim, List.cons_append, List.nil_append, runEngine,
      List.foldl, performEngine, EngineOp.run, claimLane, nextFiltered, executionQueue,
        drain_listed]
    decide +kernel

/-- One story in two lanes of a run. -/
theorem reclaimed_twice : ¬ ∀ slug stories ops, LanesKept (noRuns slug stories) ops := by
  intro kept
  have apart := (kept "sh" (appended [filedStory]) reclaimed).distinct reclaimed []
    (List.append_nil _).symm
  revert apart
  -- the ready queue is read from its list, which the kernel can evaluate
  simp only [reclaimed, firstClaim, List.cons_append, List.nil_append, runEngine, List.foldl,
    performEngine, EngineOp.run, claimLane, nextFiltered, executionQueue, drain_listed]
  decide +kernel

end Storyhook.Service
