import Storyhook.Service.ExecutionQueue
import Storyhook.Service.Verification
import Storyhook.Service.Hierarchy
import Storyhook.Store.EngineTables

/-! What a run may take in, from its lanes and the stories they hold. -/

namespace Storyhook.Service

open Storyhook.Domain Storyhook.Store
open Library Library.Outcome

/-- What a transaction of the engine brings to its writes, with the refusals and the narrowings
that rest on records outside these tables. -/
structure EngineHost extends Ctx where
  admitLane : EngineTables → EngineLaneRecord → Except AppError Unit
  blocksAdmission : EngineTables → Bool
  foreignOwner : Database → StoryNo → Bool
  resetting : Database → String → Bool
  descendantIds : StoryMap → String → Std.TreeSet String
  outputAfter : Int → Option String → Option String
  hasCheckout : Bool

inductive AdmissionWait where
  | lanesFull
  | verificationBacklog
  deriving DecidableEq, Repr

structure LaneOccupancy where
  active : Nat
  verifying : List Nat

structure LaneAdmission where
  slots : List EngineLaneRecord
  wait : Option AdmissionWait

def idleLane (runId : String) (laneIndex : Nat) (atTime : String) : EngineLaneRecord where
  adoptedIdentity := none
  runId := runId
  laneIndex := laneIndex
  state := .idle
  storyId := none
  paneId := none
  windowName := none
  worktreePath := none
  cleanupLease := none
  dispatchedAt := none
  lastObservedAt := atTime
  lastProgressSeq := none
  lastProgressAt := none
  outcome := none
  outcomeDetail := none
  probeDetail := none

def optionalLaneStory (db : Database) (id : String) : Option StoryRow :=
  (resolveStory db id).toOption.map (·.2)

def handsOffLane (row : StoryRow) : Bool := row.state == verifyingStateSlug

def isOccupied (lane : EngineLaneRecord) : Bool :=
  lane.state == .dispatching || lane.state == .working

def handedOff (db : Database) (lane : EngineLaneRecord) : Bool :=
  (lane.storyId.bind (optionalLaneStory db)).any handsOffLane

/-- The occupied lanes, by whether their story still works or waits for central verification. -/
def laneOccupancy (db : Database) (lanes : List EngineLaneRecord) : LaneOccupancy where
  active := lanes.countP fun lane => isOccupied lane && !handedOff db lane
  verifying := (lanes.filter fun lane => isOccupied lane && handedOff db lane).map (·.laneIndex)

/-- The lanes a claim could take: the idle ones, and then those there could be. -/
def vacantLanes (run : EngineRunRecord) (lanes : List EngineLaneRecord) (atTime : String) :
    List EngineLaneRecord :=
  (lanes.filter (·.state == .idle)).insertionSort (·.laneIndex ≤ ·.laneIndex) ++
    ((List.range (2 * run.lanes)).filter fun index => !lanes.any (·.laneIndex == index)).map
      (idleLane run.id · atTime)

def admissionFrom (run : EngineRunRecord) (lanes : List EngineLaneRecord)
    (occupancy : LaneOccupancy) (atTime : String) : LaneAdmission :=
  if run.lanes ≤ occupancy.active then ⟨[], some .lanesFull⟩
  else if run.lanes < occupancy.verifying.length then ⟨[], some .verificationBacklog⟩
  else
    let slots := (vacantLanes run lanes atTime).take (run.lanes - occupancy.active)
    ⟨slots, if slots.isEmpty then some .lanesFull else none⟩

def laneAdmission (db : Database) (run : EngineRunRecord) (lanes : List EngineLaneRecord)
    (atTime : String) : LaneAdmission :=
  admissionFrom run lanes (laneOccupancy db lanes) atTime

/-- Writes an idle lane, or takes it away where the run has shrunk below it. -/
def putOrRetireIdleLane (host : EngineHost) (tables : EngineTables) (lane : EngineLaneRecord) :
    Except AppError EngineTables := do
  let run ← demand (engineRun tables lane.runId) (engineRunNotFound lane.runId)
  if run.lanes ≤ lane.laneIndex then .ok (deleteEngineLane tables lane)
  else do
    host.admitLane tables lane
    .ok (putEngineLane tables lane)

def scopeIsAvailable (db : Database) : EngineScope → Bool
  | .project => true
  | .epic id => (optionalLaneStory db id).any fun row => isEpic row.snapshot

def labelNoAuto : String := "no-auto"

def storyIndex (db : Database) : StoryIndex where
  stories := storyMap db
  keyed := by
    intro id story found
    obtain ⟨-, -, -, -, same, -⟩ := storyMap_lookup db id story found
    exact same

def epicDescendants (host : EngineHost) (stories : StoryMap) :
    Option String → Except AppError (Option (Std.TreeSet String))
  | none => .ok none
  | some epicId => do
      let epic ← demand stories[epicId]? (storyNotFound epicId)
      refuse (!isEpic epic) (.validation ("story `" ++ epicId ++ "` is not an epic"))
      return some (host.descendantIds stories epicId)

def nextFiltered (host : EngineHost) (db : Database) (epic : Option String)
    (excludedLabels : List String) : Except AppError (List StoryView) := do
  let stories := storyMap db
  let descendants ← epicDescendants host stories epic
  let views := (stories.toList.map fun entry => StoryView.mk entry.2).filter fun view =>
    !host.resetting db view.story.id
  demand (executionQueue views (storyIndex db) (activeState db.states) none descendants
    excludedLabels) (.storage "internal: the ready queue lost count")

section Rows

/-- Rows as they are written: the state column is the snapshot's, and the id the number's. -/
structure Filed (db : Database) : Prop where
  state : ∀ (no : StoryNo) (row : StoryRow), db.stories[no]? = some row →
    row.state = row.snapshot.state
  named : ∀ (no : StoryNo) (row : StoryRow), db.stories[no]? = some row →
    row.snapshot.id = toId db.idPrefix no

theorem Wrote.filed (db after : Database) (story : StoryNo) (events : List StoryEvent)
    (snapshot : StorySnapshot) (wrote : Wrote db after story events snapshot)
    (filed : Filed db) : Filed after := by
  have named : snapshot.id = toId db.idPrefix story := by
    obtain ⟨_, _, _, _, _, _, _, _, _, same⟩ := (finishFold_ok _ _ _ _).mp wrote.folded
    rw [same]
    rfl
  obtain ⟨middle, head, -, put⟩ := wrote.put
  have own (no : StoryNo) (row : StoryRow) (stored : after.stories[no]? = some row)
      (same : story = no) : row.state = row.snapshot.state ∧
        row.snapshot.id = toId after.idPrefix no := by
    subst same
    rw [Put.row _ _ _ _ _ put story, if_pos rfl, Option.some.injEq] at stored
    rw [← stored, wrote.idPrefix]
    exact ⟨rfl, named⟩
  constructor
  · intro no row stored
    by_cases same : story = no
    · exact (own no row stored same).1
    · exact filed.state no row ((wrote.row_elsewhere _ _ _ _ _ no same).symm.trans stored)
  · intro no row stored
    by_cases same : story = no
    · exact (own no row stored same).2
    · rw [wrote.idPrefix]
      exact filed.named no row ((wrote.row_elsewhere _ _ _ _ _ no same).symm.trans stored)

theorem resolveStory_some (db : Database) (id : String) (no : StoryNo) (row : StoryRow)
    (found : resolveStory db id = .ok (no, row)) :
    id = toId db.idPrefix no ∧ db.stories[no]? = some row := by
  unfold resolveStory at found
  cases parsed : parseId db.idPrefix id with
  | error failure =>
      rw [parsed] at found
      cases found
  | ok other =>
      rw [parsed] at found
      obtain ⟨stored, there, same⟩ := (map_eq_ok _ _ _).mp found
      cases same
      exact ⟨((parseId_ok _ _ _).mp parsed).1, (demand_ok _ _ _).mp there⟩

theorem optionalLaneStory_some (db : Database) (id : String) (row : StoryRow)
    (found : optionalLaneStory db id = some row) :
    ∃ no : StoryNo, id = toId db.idPrefix no ∧ db.stories[no]? = some row := by
  obtain ⟨⟨no, same⟩, resolved, rfl⟩ := Option.map_eq_some_iff.mp found
  refine ⟨no, resolveStory_some db id no same ?_⟩
  cases outcome : resolveStory db id with
  | error failure =>
      rw [outcome] at resolved
      cases resolved
  | ok pair =>
      rw [outcome] at resolved
      cases resolved
      rfl

theorem nextFiltered_stored (host : EngineHost) (db : Database) (filed : Filed db)
    (epic : Option String) (excludedLabels : List String) (queue : List StoryView)
    (ran : nextFiltered host db epic excludedLabels = .ok queue) (view : StoryView)
    (listed : view ∈ queue) : ∃ (no : StoryNo) (row : StoryRow),
      db.stories[no]? = some row ∧ view.story.id = toId db.idPrefix no ∧
        handsOffLane row = false := by
  simp only [nextFiltered, bind_eq_ok, demand_ok] at ran
  obtain ⟨descendants, -, ordered⟩ := ran
  obtain ⟨shown, passes⟩ :=
    ExecutionQueue.executionQueue_members _ _ _ _ _ _ queue ordered view listed
  obtain ⟨entry, member, rfl⟩ := List.mem_map.mp (List.mem_filter.mp shown).1
  simp only [ExecutionQueue.admitted, Bool.and_eq_true] at passes
  have claimable := passes.1.1.1.1
  unfold isClaimable at claimable
  split at claimable
  · cases claimable
  · next outside =>
      simp only [Bool.or_eq_true, not_or, Bool.not_eq_true] at outside
      obtain ⟨no, row, stored, same⟩ := storyMap_plain db entry.1 entry.2
        (Std.TreeMap.mem_toList_iff_getElem?_eq_some.mp member) outside.1.1
      refine ⟨no, row, stored, same ▸ filed.named no row stored, ?_⟩
      rw [handsOffLane, filed.state no row stored, same]
      exact outside.1.2

end Rows

section Slots

variable (run : EngineRunRecord) (lanes : List EngineLaneRecord) (atTime : String)

theorem vacantLanes_mem (slot : EngineLaneRecord) (vacant : slot ∈ vacantLanes run lanes atTime) :
    slot.state = .idle ∧ (slot ∈ lanes ∨ slot.runId = run.id ∧ slot.laneIndex < 2 * run.lanes ∧
      ∀ lane ∈ lanes, lane.laneIndex ≠ slot.laneIndex) := by
  rcases List.mem_append.mp vacant with idle | fresh
  · obtain ⟨inside, resting⟩ := List.mem_filter.mp ((List.mem_insertionSort _).mp idle)
    exact ⟨eq_of_beq resting, Or.inl inside⟩
  · obtain ⟨index, free, rfl⟩ := List.mem_map.mp fresh
    obtain ⟨within, unused⟩ := List.mem_filter.mp free
    refine ⟨rfl, Or.inr ⟨rfl, List.mem_range.mp within, fun lane inside same => ?_⟩⟩
    simp only [Bool.not_eq_true', List.any_eq_false] at unused
    exact unused lane inside (beq_iff_eq.mpr same)

theorem admissionFrom_cases (occupancy : LaneOccupancy) :
    (admissionFrom run lanes occupancy atTime).slots = [] ∨
      occupancy.active < run.lanes ∧ occupancy.verifying.length ≤ run.lanes ∧
        (admissionFrom run lanes occupancy atTime).slots =
          (vacantLanes run lanes atTime).take (run.lanes - occupancy.active) := by
  rw [admissionFrom]
  split
  · exact Or.inl rfl
  · next room =>
      split
      · exact Or.inl rfl
      · next backlog => exact Or.inr ⟨Nat.lt_of_not_le room, Nat.le_of_not_lt backlog, rfl⟩

end Slots

end Storyhook.Service
