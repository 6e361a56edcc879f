import Mathlib.Data.List.Sort
import Storyhook.Store.Tables

/-! The durable state of Full Auto runs and their lanes. -/

namespace Storyhook.Store

open Storyhook.Domain
open Library Library.Outcome

inductive EngineScope where
  | project
  | epic (storyId : String)
  deriving DecidableEq, Repr

def EngineScope.storyId : EngineScope → Option String
  | .project => none
  | .epic storyId => some storyId

inductive EngineAgent where
  | claude
  | codex
  deriving DecidableEq, Repr

inductive EngineSpeed where
  | standard
  | fast
  deriving DecidableEq, Repr

inductive EngineRunState where
  | running
  | paused
  | draining
  | halted
  | finished
  deriving DecidableEq, Repr

def EngineRunState.text : EngineRunState → String
  | .running => "running"
  | .paused => "paused"
  | .draining => "draining"
  | .halted => "halted"
  | .finished => "finished"

def EngineRunState.isLive : EngineRunState → Bool
  | .running | .paused | .draining => true
  | _ => false

inductive EngineLaneState where
  | idle
  | dispatching
  | working
  | quarantined
  deriving DecidableEq, Repr

structure CleanupLease where
  version : Nat
  projectSlug : String
  storyId : String
  repositoryPath : String
  worktreePath : String
  branch : String
  socketPath : String
  deriving DecidableEq, Repr

structure AdoptedIdentity where
  provider : EngineAgent
  panePid : Int
  windowId : String
  deriving DecidableEq, Repr

structure EngineLaneRecord where
  adoptedIdentity : Option AdoptedIdentity
  runId : String
  laneIndex : Nat
  state : EngineLaneState
  storyId : Option String
  paneId : Option String
  windowName : Option String
  worktreePath : Option String
  cleanupLease : Option CleanupLease
  dispatchedAt : Option String
  lastObservedAt : String
  lastProgressSeq : Option Nat
  lastProgressAt : Option String
  outcome : Option String
  outcomeDetail : Option String
  probeDetail : Option String
  deriving DecidableEq, Repr

structure EngineQuarantineRecord where
  laneIndex : Nat
  storyId : Option String
  kind : String
  detail : Option String
  paneId : Option String
  windowName : Option String
  worktreePath : Option String
  observedAt : String
  deriving DecidableEq, Repr

structure EngineRunRecord where
  id : String
  projectSlug : String
  scope : EngineScope
  lanes : Nat
  agent : EngineAgent
  model : Option String
  effort : Option String
  speed : Option EngineSpeed
  state : EngineRunState
  consecutiveHardStops : Nat
  recentQuarantines : List EngineQuarantineRecord
  stopReason : Option String
  acknowledgedAt : Option String
  createdAt : String
  updatedAt : String
  deriving DecidableEq, Repr

def operatorStoppedNow : String := "operator-stopped-now"

def EngineRunRecord.isStopping (run : EngineRunRecord) : Bool :=
  (run.state == .draining || run.state == .halted) && run.stopReason == some operatorStoppedNow

/-- A project with the runs over it and the lanes of those. -/
structure EngineTables where
  slug : String
  project : Database
  runs : List EngineRunRecord
  lanes : List EngineLaneRecord

def engineLanes (tables : EngineTables) (runId : String) : List EngineLaneRecord :=
  tables.lanes.filter (·.runId == runId)

def engineRun (tables : EngineTables) (runId : String) : Option EngineRunRecord :=
  tables.runs.find? (·.id == runId)

def engineRunNotFound (runId : String) : AppError :=
  .notFound ("engine run `" ++ runId ++ "` not found")

def runForProject (tables : EngineTables) (runId : String) : Except AppError EngineRunRecord :=
  demand ((engineRun tables runId).filter (·.projectSlug == tables.slug)) (engineRunNotFound runId)

def EngineLaneRecord.sameKey (lane other : EngineLaneRecord) : Bool :=
  lane.runId == other.runId && lane.laneIndex == other.laneIndex

def deleteEngineLane (tables : EngineTables) (lane : EngineLaneRecord) : EngineTables :=
  { tables with lanes := tables.lanes.filter fun other => !other.sameKey lane }

def putEngineLane (tables : EngineTables) (lane : EngineLaneRecord) : EngineTables :=
  let others := (deleteEngineLane tables lane).lanes
  { tables with lanes := others.orderedInsert (·.laneIndex ≤ ·.laneIndex) lane }

def createEngineRun (tables : EngineTables) (run : EngineRunRecord) :
    Except AppError EngineTables := do
  refuse (tables.runs.any (·.id == run.id))
    (.storage "UNIQUE constraint failed: engine_runs.id")
  refuse (tables.runs.any fun other => other.state.isLive && other.projectSlug == run.projectSlug)
    (.validation ("project `" ++ tables.slug ++ "` already has a live engine run"))
  return { tables with runs := tables.runs ++ [run] }

def updateEngineRun (tables : EngineTables) (run : EngineRunRecord) : EngineTables :=
  { tables with runs := tables.runs.map fun other => if other.id == run.id then run else other }

section Lanes

variable (tables : EngineTables) (lane other : EngineLaneRecord)

theorem sameKey_iff : lane.sameKey other = true ↔
    lane.runId = other.runId ∧ lane.laneIndex = other.laneIndex := by
  rw [EngineLaneRecord.sameKey, Bool.and_eq_true, beq_iff_eq, beq_iff_eq]

theorem mem_engineLanes (runId : String) :
    lane ∈ engineLanes tables runId ↔ lane ∈ tables.lanes ∧ lane.runId = runId := by
  rw [engineLanes, List.mem_filter, beq_iff_eq]

theorem mem_delete : other ∈ (deleteEngineLane tables lane).lanes ↔
    other ∈ tables.lanes ∧ other.sameKey lane = false := by
  rw [deleteEngineLane, List.mem_filter, Bool.not_eq_true']

theorem put_perm : (putEngineLane tables lane).lanes.Perm
    (lane :: (deleteEngineLane tables lane).lanes) :=
  List.perm_orderedInsert (fun one other : EngineLaneRecord => one.laneIndex ≤ other.laneIndex) _ _

theorem mem_put : other ∈ (putEngineLane tables lane).lanes ↔
    other = lane ∨ other ∈ tables.lanes ∧ other.sameKey lane = false := by
  rw [(put_perm tables lane).mem_iff, List.mem_cons, mem_delete]

theorem countP_put (wanted : EngineLaneRecord → Bool) :
    (putEngineLane tables lane).lanes.countP wanted =
      (deleteEngineLane tables lane).lanes.countP wanted + if wanted lane then 1 else 0 := by
  rw [(put_perm tables lane).countP_eq, List.countP_cons]

end Lanes

section Runs

variable (tables : EngineTables) (runId : String) (run : EngineRunRecord)

theorem engineRun_mem (found : engineRun tables runId = some run) :
    run ∈ tables.runs ∧ run.id = runId := by
  have named := List.find?_some found
  exact ⟨List.mem_of_find?_eq_some found, beq_iff_eq.mp named⟩

theorem runForProject_ok (found : runForProject tables runId = .ok run) :
    engineRun tables runId = some run ∧ run.projectSlug = tables.slug := by
  rw [runForProject, demand_ok] at found
  obtain ⟨there, same⟩ := Option.filter_eq_some_iff.mp found
  exact ⟨there, eq_of_beq same⟩

theorem mem_update (other : EngineRunRecord)
    (listed : other ∈ (updateEngineRun tables run).runs) :
    other = run ∨ other ∈ tables.runs ∧ other.id ≠ run.id := by
  obtain ⟨old, there, rfl⟩ := List.mem_map.mp listed
  split
  · exact Or.inl rfl
  · next miss => exact Or.inr ⟨there, mt beq_iff_eq.mpr miss⟩

theorem update_mem (old : EngineRunRecord) (there : old ∈ tables.runs) (same : old.id = run.id) :
    run ∈ (updateEngineRun tables run).runs :=
  List.mem_map.mpr ⟨old, there, if_pos (beq_iff_eq.mpr same)⟩

theorem engineRun_update (old : EngineRunRecord) (there : old ∈ tables.runs)
    (same : old.id = run.id) : engineRun (updateEngineRun tables run) run.id = some run := by
  have found : ((updateEngineRun tables run).runs.find? (·.id == run.id)).isSome = true := by
    rw [List.find?_isSome]
    exact ⟨run, update_mem tables run old there same, beq_self_eq_true _⟩
  obtain ⟨other, hit⟩ := Option.isSome_iff_exists.mp found
  rw [engineRun, hit]
  obtain ⟨listed, named⟩ := engineRun_mem (updateEngineRun tables run) run.id other hit
  rcases mem_update tables run other listed with rfl | ⟨-, apart⟩
  · rfl
  · exact absurd named apart

theorem engineRun_update_other (other : String) (apart : other ≠ run.id) :
    engineRun (updateEngineRun tables run) other = engineRun tables other := by
  rw [engineRun, engineRun, updateEngineRun]
  induction tables.runs with
  | nil => rfl
  | cons row rest further =>
      rw [List.map_cons, List.find?_cons, List.find?_cons, further]
      by_cases hit : row.id = run.id
      · rw [if_pos (beq_iff_eq.mpr hit), hit, beq_false_of_ne (Ne.symm apart)]
      · rw [if_neg (mt beq_iff_eq.mp hit)]

end Runs

end Storyhook.Store
