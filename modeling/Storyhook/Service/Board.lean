import Mathlib.Data.List.Destutter
import Storyhook.Domain.Cards
import Storyhook.Service.ExecutionQueue
import Storyhook.Service.StoryCommands
import Storyhook.Service.UnattestedEndpoints

/-! The board, the report and the summary of a project. -/

namespace Storyhook.Service

open Storyhook.Domain Storyhook.Store
open Library Library.Outcome

structure ResetResidue where
  resource : String
  reason : String
  blocksDispatch : Bool

structure ResetRecovery where
  branch : Option String
  tip : Option String
  unpushed : Option Nat
  dirty : Option Nat
  untracked : Option Nat
  clearedAwaiting : Option String

/-- A card reset, as far as a view of it reads while it is unfinished. -/
structure StoryReset where
  token : String
  completed : Bool
  failure : Option String
  residue : List ResetResidue
  recovery : Option ResetRecovery

/-- A reservation as stored: decoded, or what the decoder says of it. -/
inductive StoredReservation where
  | decoded (operation detail : String)
  | malformed (failure : String)

inductive ContinuationStatus where
  | pending | attempting | awaitingAck | acknowledged | needsAttention | superseded
  deriving DecidableEq

def ContinuationStatus.outstanding (status : ContinuationStatus) : Bool :=
  status != .acknowledged && status != .superseded

def ContinuationStatus.debug : ContinuationStatus → String
  | .pending => "Pending"
  | .attempting => "Attempting"
  | .awaitingAck => "AwaitingAck"
  | .acknowledged => "Acknowledged"
  | .needsAttention => "NeedsAttention"
  | .superseded => "Superseded"

inductive ContinuationPhase where
  | observe | nativeContinuation | resume | complete | administrative

def ContinuationPhase.asStr : ContinuationPhase → String
  | .observe => "observe"
  | .nativeContinuation => "native-continuation"
  | .resume => "resume"
  | .complete => "complete"
  | .administrative => "administrative"

structure Continuation where
  id : String
  storyId : String
  status : ContinuationStatus
  phase : ContinuationPhase
  detail : String

/-- One project's tables, with the resets and continuations that its views show. -/
structure BoardTables where
  db : Database
  resets : Std.TreeMap StoryNo StoryReset
  reservations : Std.TreeMap StoryNo StoredReservation
  continuations : List Continuation

structure ResetRemoved where
  window : Bool
  worktree : Bool
  branch : Bool

structure ResetView where
  operation : String
  detail : String
  completed : Bool
  removed : ResetRemoved
  residue : List ResetResidue
  recovery : Option ResetRecovery

structure ContinuationAlert where
  requestId : String
  status : String
  detail : String
  nextStep : String

/-- A story with what is derived of it from the whole project. -/
structure ReportView extends StoryView where
  reset : Option ResetView
  commits : List CommitReference
  warnings : List String
  continuationAlerts : List ContinuationAlert
  flaggedReasons : List String
  progress : Option ProgressRollup
  displayState : Option String
  blockerFloor : Option Priority
  headGlobalSeq : Option Nat

structure SummaryView where
  totalOpen : Nat
  totalClosed : Nat
  byState : List (String × Nat)
  byPriority : List (String × Nat)
  byType : List (String × Nat)
  blockedCount : Nat
  flaggedCount : Nat
  readyCount : Nat
  readyStories : List ReportView

structure ReportData where
  summary : SummaryView
  stories : List ReportView
  readyIds : List String
  blockedIds : List String
  nextIds : List String

def storyRows (db : Database) : List StoryRow := db.stories.toList.map (·.2)

def boardRow (row : StoryRow) : StoryRow :=
  { row with description := none, snapshot := row.snapshot.card }

def boardStories (db : Database) : List StoryRow := (storyRows db).map boardRow

/-- Rows by the id their snapshots carry, the last of those that share one. -/
def rowsById (rows : List StoryRow) : Std.TreeMap String StoryRow :=
  .ofList (rows.map fun row => (row.snapshot.id, row))

def rowSnapshots (rows : List StoryRow) : StoryMap := (rowsById rows).map fun _ row => row.snapshot

/-- The stories of some rows, epics in the state their children give them. -/
def effectiveStories (db : Database) (rows : List StoryRow) : StoryIndex where
  stories := if db.automationsEnabled then applyComputedEpicStates (rowSnapshots rows) db.states
    else rowSnapshots rows
  keyed := by
    have plain (id : String) (story : StorySnapshot) (found : (rowSnapshots rows)[id]? =
      some story) :
        story.id = id := by
      rw [rowSnapshots, Std.TreeMap.getElem?_map, Option.map_eq_some_iff] at found
      obtain ⟨row, held, rfl⟩ := found
      obtain ⟨own, -, same⟩ := List.mem_map.mp (ofList_mem _ id row held)
      cases same
      rfl
    intro id story found
    split at found
    · obtain ⟨memo, shown⟩ := applyComputed_lookup (rowSnapshots rows) db.states id
      rw [shown, Option.map_eq_some_iff] at found
      obtain ⟨stored, held, rfl⟩ := found
      rw [(projectEpic_claims memo id stored).1]
      exact plain id stored held
    · exact plain id story found

def obviatedReason : String := "story is obviated by another story"

def flaggedReasons (issues : Std.TreeMap String (List Finding)) (story : StorySnapshot) :
    List String :=
  let messages := (issues.getD story.id []).map (·.message)
  let reasons := if story.relationships.any (·.relation == "obviated-by")
    then messages ++ [obviatedReason] else messages
  (reasons.mergeSort fun left right => left ≤ right).destutter (· ≠ ·)

def resetView (reset : StoryReset) : ResetView where
  operation := reset.token
  detail := reset.failure.getD "The daemon is finishing this reset."
  completed := reset.completed
  removed := ⟨false, false, false⟩
  residue := reset.residue
  recovery := reset.recovery

def shownReset (tables : BoardTables) (story : StoryNo) : Except AppError (Option ResetView) :=
  match (tables.resets[story]?).filter (!·.completed) with
  | some card => .ok (some (resetView card))
  | none =>
      match tables.reservations[story]? with
      | none => .ok none
      | some (.malformed failure) => .error (.storage failure)
      | some (.decoded operation detail) =>
          .ok (some ⟨operation, detail, false, ⟨false, false, false⟩, [], none⟩)

def continuationWarning (request : Continuation) : String :=
  "continuation " ++ request.id ++ " " ++ request.status.debug ++ " (" ++ request.phase.asStr ++
    "): " ++ request.detail

def continuationAlert (id : String) (request : Continuation) : ContinuationAlert where
  requestId := request.id
  status := "needs-attention"
  detail := request.detail
  nextStep := "Run story continuation status " ++ id ++ " --json; review request " ++ request.id ++
    " and story help continuation before recovery."

section Views

variable (tables : BoardTables) (rows : List StoryRow)

def storyView (stories : StoryIndex) (issues : Std.TreeMap String (List Finding))
    (floors : BlockerFloors) (story : StorySnapshot) : Except AppError ReportView := do
  let storyNo ← parseId tables.db.idPrefix story.id
  let reset ← shownReset tables storyNo
  let own := tables.continuations.filter (·.storyId == story.id)
  return {
    story := story
    reset := reset
    commits := story.referencedByCommits
    warnings := (own.filter (·.status.outstanding)).map continuationWarning
    continuationAlerts :=
      (own.filter (·.status == .needsAttention)).map (continuationAlert story.id)
    flaggedReasons := flaggedReasons issues story
    progress := computeProgress story stories.stories
    displayState := if tables.db.automationsEnabled
      then computeDisplayState story stories.stories tables.db.states else none
    blockerFloor := floors.floor story
    headGlobalSeq := ((rowsById rows)[story.id]?).map (·.headGlobalSeq) }

/-- The views of some rows, without the relations derived for a single story's view. -/
def storyViewsFromRows : Except AppError (List ReportView) :=
  let stories := effectiveStories tables.db rows
  let unattested := unattestedEndpoints tables.db stories.stories
  let issues := computeIntegrityIssues stories.stories unattested
  let floors := BlockerFloors.compute stories
  stories.all.mapM (storyView tables rows stories issues floors)

end Views

def storyViews (tables : BoardTables) : Except AppError (List ReportView) :=
  storyViewsFromRows tables (storyRows tables.db)

def resetIds (tables : BoardTables) : Std.TreeSet String :=
  .ofList (((storyRows tables.db).filter fun row =>
    (tables.resets[row.storyNo]?).any (!·.completed)).map (·.snapshot.id))

def viewMap (views : List ReportView) : StoryIndex where
  stories := .ofList (views.map fun view => (view.story.id, view.story))
  keyed := by
    intro id story found
    obtain ⟨view, -, same⟩ := List.mem_map.mp (ofList_mem _ id story found)
    cases same
    rfl

def typeLabel (story : StorySnapshot) : String := story.storyType.getD "Default"

def priorityName : Priority → String
  | .critical => "critical"
  | .high => "high"
  | .medium => "medium"
  | .low => "low"
  | .none => "none"

def count (counts : Std.TreeMap String Nat) (key : String) : Std.TreeMap String Nat :=
  counts.insert key (counts.getD key 0 + 1)

structure Tally where
  states : Std.TreeMap String Nat
  priorities : Std.TreeMap String Nat
  types : Std.TreeMap String Nat
  blocked : Nat
  flagged : Nat

def tallyView (stories : StoryIndex) (tally : Tally) (view : ReportView) : Tally where
  states := count tally.states view.story.state
  priorities := if view.story.priority = .none then tally.priorities
    else count tally.priorities (priorityName view.story.priority)
  types := count tally.types (typeLabel view.story)
  blocked := if view.story.superstate == .open && !isReady view.story stories.story
    then tally.blocked + 1 else tally.blocked
  flagged := if view.flaggedReasons.isEmpty then tally.flagged else tally.flagged + 1

def rollup (views : List ReportView) (stories : StoryIndex) : SummaryView :=
  let totalOpen := (views.filter (·.story.superstate == .open)).length
  let tally := views.foldl (tallyView stories) ⟨∅, ∅, ∅, 0, 0⟩
  { totalOpen := totalOpen
    totalClosed := views.length - totalOpen
    byState := tally.states.toList
    byPriority := tally.priorities.toList
    byType := tally.types.toList
    blockedCount := tally.blocked
    flaggedCount := tally.flagged
    readyCount := 0
    readyStories := [] }

def sortReady (views : List ReportView) (stories : StoryIndex) : List ReportView :=
  views.mergeSort fun left right => (readyOrder (.new stories) left.story right.story).isLE

def readyPreview : Nat := 5

def summary (tables : BoardTables) : Except AppError SummaryView := do
  let reserved := resetIds tables
  let views ← storyViews tables
  let stories := viewMap views
  let active := activeState tables.db.states
  let ready := sortReady (views.filter fun view => !reserved.contains view.story.id &&
    isClaimable view.story stories.story active) stories
  return { rollup views stories with
    readyCount := ready.length
    readyStories := ready.take readyPreview }

section Report

variable (reserved : Std.TreeSet String) (stories : StoryIndex) (active : Option StateDef)

/-- A view's turn in the loop that collects the ready ids and the blocked ones. -/
def place (ids : List String × List String) (view : ReportView) : List String × List String :=
  if view.story.superstate == .open then
    if !reserved.contains view.story.id && isClaimable view.story stories.story active then
      (ids.1 ++ [view.story.id], ids.2)
    else if reserved.contains view.story.id || !isReady view.story stories.story then
      (ids.1, ids.2 ++ [view.story.id])
    else ids
  else ids

end Report

def queueLostCount : AppError := .storage "internal: the ready queue lost count"

def reportFromViews (tables : BoardTables) (views : List ReportView) :
    Except AppError ReportData := do
  let reserved := resetIds tables
  let stories := viewMap views
  let active := activeState tables.db.states
  let (readyIds, blockedIds) := views.foldl (place reserved stories active) ([], [])
  let available := (views.filter fun view => !reserved.contains view.story.id).map (·.toStoryView)
  let queue ← demand (executionQueue available stories active none none []) queueLostCount
  return {
    summary := { rollup views stories with readyCount := readyIds.length }
    stories := views
    readyIds := readyIds
    blockedIds := blockedIds
    nextIds := queue.map (·.story.id) }

def reportData (tables : BoardTables) : Except AppError ReportData := do
  reportFromViews tables (← storyViews tables)

def boardData (tables : BoardTables) : Except AppError ReportData := do
  reportFromViews tables (← storyViewsFromRows tables (boardStories tables.db))

def reportSummary (tables : BoardTables) : Except AppError SummaryView := do
  let data ← reportData tables
  let readyIds : Std.TreeSet String := .ofList data.readyIds
  let stories := viewMap data.stories
  let ready := sortReady (data.stories.filter (readyIds.contains ·.story.id)) stories
  return { data.summary with
    readyCount := ready.length
    readyStories := ready.take readyPreview }

end Storyhook.Service
