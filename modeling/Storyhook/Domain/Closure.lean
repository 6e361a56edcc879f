import Storyhook.Library.Replay
import Storyhook.Domain.FoldStory

namespace Storyhook.Domain

open Library.Replay

/-- The slug, as the catalog spells it today, of an event that sets the story's state. -/
def namedSlug (states : StateCatalog) : StoryEvent → Option String
  | .storyCreated _ _ state => some (historicalSlug state states)
  | .storyStateChanged _ state => some (historicalSlug state states)
  | .storyClosedAndArchived _ state => some (historicalSlug state states)
  | _ => none

/-- A move into a state the catalog calls OPEN, the one event that retracts a closure. -/
def reopens (states : StateCatalog) : StoryEvent → Bool
  | .storyStateChanged _ state => namesOpenState states state
  | _ => false

def isDeletion : StoryEvent → Bool
  | .storyDeleted .. => true
  | _ => false

def closesInto (states : StateCatalog) : StoryEvent → Bool
  | .storyClosedAndArchived _ state => !namesOpenState states state
  | _ => false

def lastNamedSlug (states : StateCatalog) (events : List StoryEvent) : Option String :=
  (events.filterMap (namedSlug states)).getLast?

def sinceReopened (states : StateCatalog) (events : List StoryEvent) : List StoryEvent :=
  events.rtakeWhile fun event => !reopens states event

/-- Since the last reopening the story was deleted, or was not closed, or the last event to
name its state names one the catalog does not call OPEN. -/
def ClosureInStep (states : StateCatalog) (events : List StoryEvent) : Prop :=
  (sinceReopened states events).any isDeletion ∨
    ¬ (sinceReopened states events).any (closesInto states) ∨
    ∀ slug ∈ lastNamedSlug states events,
      (states[slug]?).map StateDef.superState ≠ some .open

instance (states : StateCatalog) (events : List StoryEvent) :
    Decidable (ClosureInStep states events) := by
  unfold ClosureInStep
  infer_instance

theorem foldStep_state (states : StateCatalog) (acc : FoldState) (event : StoryEvent) :
    (foldStep states acc event).state = ((namedSlug states event).map some).getD acc.state := by
  cases event with
  | storyCommentAdded atTime text =>
      simp only [foldStep, foldArm, foldComment, namedSlug]
      split <;> rfl
  | storyStateChanged atTime state =>
      simp only [foldStep, foldArm, foldStateChange, namedSlug]
      split <;> rfl
  | storyCreatedAsDraft atTime =>
      simp only [foldStep, foldArm, namedSlug]
      split <;> rfl
  | _ => rfl

theorem foldStep_deletion (states : StateCatalog) (acc : FoldState) (event : StoryEvent) :
    (foldStep states acc event).legacyDeletionActive =
      (!reopens states event && (acc.legacyDeletionActive || isDeletion event)) := by
  cases event with
  | storyCommentAdded atTime text =>
      simp only [foldStep, foldArm, foldComment, reopens, isDeletion]
      split <;> simp
  | storyStateChanged atTime state =>
      simp only [foldStep, foldArm, foldStateChange, reopens, isDeletion]
      split <;> simp_all
  | storyCreatedAsDraft atTime =>
      simp only [foldStep, foldArm, reopens, isDeletion]
      split <;> simp
  | _ => simp [foldStep, foldArm, foldClosedAndArchived, foldDeleted, reopens, isDeletion]

theorem foldStep_closed (states : StateCatalog) (acc : FoldState) (event : StoryEvent) :
    (foldStep states acc event).closedAt.isSome =
      (!reopens states event &&
        (acc.closedAt.isSome || (isDeletion event || closesInto states event))) := by
  cases event with
  | storyCommentAdded atTime text =>
      simp only [foldStep, foldArm, foldComment, reopens, isDeletion, closesInto]
      split <;> simp
  | storyStateChanged atTime state =>
      simp only [foldStep, foldArm, foldStateChange, reopens, isDeletion, closesInto]
      split <;> simp_all
  | storyClosedAndArchived atTime state =>
      simp only [foldStep, foldArm, foldClosedAndArchived, reopens, isDeletion, closesInto]
      cases namesOpenState states state <;> simp
  | storyCreatedAsDraft atTime =>
      simp only [foldStep, foldArm, reopens, isDeletion, closesInto]
      split <;> simp
  | _ => simp [foldStep, foldArm, foldDeleted, reopens, isDeletion, closesInto]

theorem replay_state (states : StateCatalog) (events : List StoryEvent) :
    (replay states events).state = lastNamedSlug states events := by
  have written := foldl_lastWrite (foldStep states) FoldState.state
    (fun event => (namedSlug states event).map some) (foldStep_state states) .initial events
  rw [replay, written, lastNamedSlug, ← List.map_filterMap, List.getLast?_map]
  cases (events.filterMap (namedSlug states)).getLast? <;> rfl

theorem replay_deletion (states : StateCatalog) (events : List StoryEvent) :
    (replay states events).legacyDeletionActive =
      (sinceReopened states events).any isDeletion :=
  foldl_latch (foldStep states) FoldState.legacyDeletionActive (reopens states) isDeletion
    (foldStep_deletion states) .initial rfl events

theorem replay_closed (states : StateCatalog) (events : List StoryEvent) :
    (replay states events).closedAt.isSome =
      ((sinceReopened states events).any isDeletion ||
        (sinceReopened states events).any (closesInto states)) := by
  have latched := foldl_latch (foldStep states) (fun acc => acc.closedAt.isSome)
    (reopens states) (fun event => isDeletion event || closesInto states event)
    (foldStep_closed states) .initial rfl events
  rw [replay, latched, ← sinceReopened]
  induction sinceReopened states events with
  | nil => rfl
  | cons event rest ih => simp only [List.any_cons, ih]; grind

theorem replay_unclosed (states : StateCatalog) (events : List StoryEvent) :
    (replay states events).closedAt = none ↔
      (sinceReopened states events).any isDeletion = false ∧
        (sinceReopened states events).any (closesInto states) = false := by
  rw [← Bool.or_eq_false_iff, ← replay_closed]
  cases (replay states events).closedAt <;> simp

/-- An OPEN snapshot carries no closure marker exactly when its history keeps the closure in
step: a creation or a close marker that lands in an OPEN state retracts nothing. -/
theorem open_snapshot_unclosed_iff (id : String) (events : List StoryEvent)
    (states : StateCatalog) (folded : StorySnapshot)
    (replayed : foldStory id events states = .ok folded) :
    (folded.superstate = .open → folded.closedAt = none ∧ folded.hiddenAt = none) ↔
      ClosureInStep states events := by
  obtain ⟨state, title, createdAt, resting, superstate, named, -, -, rests, rfl⟩ :=
    (finishFold_ok id states (replay states events) folded).mp replayed
  rw [replay_state] at named
  rw [replay_deletion] at rests
  simp only [FoldState.snapshot, ClosureInStep, named, Option.mem_some_iff, forall_eq']
  cases superstate with
  | closed =>
      have settled := restingState_closed id states _ state resting rests
      simp only [reduceCtorEq, false_implies, true_iff]
      exact settled.imp_right Or.inr
  | «open» =>
      obtain ⟨undeleted, rfl, isOpen⟩ := (restingState_open id states _ state resting).mp rests
      simp [replay_unclosed, undeleted, isOpen]

/-- A catalog with the OPEN state `todo` and the CLOSED states `done` and `dropped`. -/
def sampleStates : StateCatalog := stateMap [
  ⟨"todo", .open, none, none⟩, ⟨"done", .closed, none, none⟩, ⟨"dropped", .closed, none, none⟩]

def reclosedHistory : List StoryEvent := [
  .storyCreated "t0" "title" "todo",
  .storyClosedAndArchived "t1" "done",
  .storyClosedAndArchived "t2" "todo"]

theorem reclosed_into_open_keeps_closure :
    ∃ folded, foldStory "SH-1" reclosedHistory sampleStates = .ok folded ∧
      folded.superstate = .open ∧ folded.closedAt = some "t1" :=
  ⟨_, rfl, rfl, rfl⟩

def reopenedHistory : List StoryEvent := [
  .storyCreated "t0" "title" "todo",
  .storyDeleted "t1" "obsolete",
  .storyStateChanged "t2" "todo"]

theorem reopened_story_drops_closure :
    ∃ folded, foldStory "SH-1" reopenedHistory sampleStates = .ok folded ∧
      folded.superstate = .open ∧ folded.closedAt = none ∧ folded.hiddenAt = none := by
  refine ⟨_, rfl, rfl, ?_⟩
  exact (open_snapshot_unclosed_iff "SH-1" reopenedHistory sampleStates _ rfl).mpr
    (by decide) rfl

end Storyhook.Domain
