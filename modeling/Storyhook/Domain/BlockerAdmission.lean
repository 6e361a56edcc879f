import Mathlib.Data.List.Infix
import Storyhook.Domain.Closure
import Storyhook.Domain.Transition

namespace Storyhook.Domain

open Library Library.Outcome

theorem replay_append (states : StateCatalog) (events : List StoryEvent) (event : StoryEvent) :
    replay states (events ++ [event]) = foldStep states (replay states events) event := by
  rw [replay, List.foldl_append]
  rfl

theorem namedSlug_movesTo (states : StateCatalog) (event : StoryEvent) :
    namedSlug states event = (movesTo event).map fun state => historicalSlug state states := by
  cases event <;> rfl

theorem foldStep_movesTo (states : StateCatalog) (acc : FoldState) (event : StoryEvent) :
    (foldStep states acc event).state =
      ((movesTo event).map fun state => historicalSlug state states).or acc.state := by
  rw [foldStep_state, namedSlug_movesTo]
  cases movesTo event <;> rfl

theorem historicalSlug_blocked (states : StateCatalog) (state : String) :
    historicalSlug state states = "blocked" ↔ state = "blocked" := by
  unfold historicalSlug
  split
  · next renamed => simp [renamed.1, droppedStateSlug]
  · rfl

def statesHeld (states : StateCatalog) (events : List StoryEvent) : List String :=
  events.inits.filterMap fun before => (replay states before).state

def lastHeld (states : StateCatalog) (events : List StoryEvent) : Option String :=
  ((statesHeld states events).filter (· != "blocked")).getLast?

theorem statesHeld_append (states : StateCatalog) (events : List StoryEvent) (event : StoryEvent) :
    statesHeld states (events ++ [event]) =
      statesHeld states events ++ (replay states (events ++ [event])).state.toList := by
  have inits : (events ++ [event]).inits = events.inits ++ [events ++ [event]] := by
    simp [List.inits_append]
  rw [statesHeld, inits, List.filterMap_append, ← statesHeld]
  cases held : (replay states (events ++ [event])).state <;> simp [held]

theorem lastHeld_append (states : StateCatalog) (events : List StoryEvent) (event : StoryEvent) :
    lastHeld states (events ++ [event]) =
      ((replay states (events ++ [event])).state.filter (· != "blocked")).or
        (lastHeld states events) := by
  rw [lastHeld, statesHeld_append, List.filter_append, List.getLast?_append, ← lastHeld]
  cases (replay states (events ++ [event])).state with
  | none => rfl
  | some state =>
      by_cases held : state = "blocked"
      · simp [held, Option.filter_some]
      · simp [held, Option.filter_some]

theorem lastHeld_current (states : StateCatalog) (events : List StoryEvent) (state : String)
    (stands : (replay states events).state = some state) (column : state ≠ "blocked") :
    lastHeld states events = some state := by
  induction events using List.reverseRecOn with
  | nil => cases stands
  | append_singleton events event _ =>
      rw [lastHeld_append, stands]
      simp [column]

theorem lastHeld_eq (states : StateCatalog) (events : List StoryEvent) :
    lastHeld states events = events.reverse.findSome? fun event =>
      ((movesTo event).filter (· != "blocked")).map fun state => historicalSlug state states := by
  induction events using List.reverseRecOn with
  | nil => rfl
  | append_singleton events event ih =>
      rw [List.reverse_append, List.reverse_singleton, List.singleton_append,
        List.findSome?_cons, ← ih, lastHeld_append, replay_append, foldStep_movesTo]
      cases movesTo event with
      | some state =>
          by_cases held : state = "blocked"
          · simp [held, (historicalSlug_blocked states "blocked").mpr rfl, Option.filter_some]
          · have column := mt (historicalSlug_blocked states state).mp held
            simp [held, column, Option.filter_some]
      | none =>
          cases stands : (replay states events).state with
          | none => rfl
          | some state =>
              by_cases held : state = "blocked"
              · simp [held, Option.filter_some]
              · simp [held, lastHeld_current states events state stands held, Option.filter_some]

/-- The last column a story held that is not `blocked`; the first OPEN one for a story that held
none. -/
def lastColumn (states : List StateDef) (events : List StoryEvent) (before : StorySnapshot) :
    String :=
  if before.state = "blocked" then
    ((lastHeld (stateMap states) events).or (firstPipelineState states)).getD before.state
  else before.state

def NotLater (states : List StateDef) (target source : String) : Prop :=
  ∃ there here, states.findIdx? (·.slug == target) = some there ∧
    states.findIdx? (·.slug == source) = some here ∧ there ≤ here

/-- Where an event may take a story that has an open blocker. -/
def Admits (states : List StateDef) (events : List StoryEvent) (before after : StorySnapshot) :
    Prop :=
  after.state = before.state ∨ after.state = droppedStateSlug ∨ after.state = "blocked" ∨
    (after.state ≠ completionStateSlug ∧
      NotLater states after.state (lastColumn states events before))

theorem pipelineState_eq (states : List StateDef) (events : List StoryEvent) :
    pipelineState states events =
      (lastHeld (stateMap states) events).or (firstPipelineState states) := by
  rw [pipelineState, lastHeld_eq]

theorem position_ok (id : String) (states : List StateDef) (slug : String) (found : Nat) :
    position id states slug = .ok found ↔ states.findIdx? (·.slug == slug) = some found := by
  unfold position
  cases states.findIdx? (·.slug == slug) <;> simp

theorem validateTransition_ok (states : List StateDef) (index : String → Option StorySnapshot)
    (events : List StoryEvent) (before after : StorySnapshot)
    (blocked : openBlockers before index ≠ [])
    (ran : validateTransition before after.state (pipelineState states events) states index =
      .ok ()) : Admits states events before after := by
  unfold validateTransition at ran
  split at ran
  · next escape =>
      rcases escape with same | dropped | reserved
      · exact Or.inl same
      · exact Or.inr (Or.inl dropped)
      · exact Or.inr (Or.inr (Or.inl reserved))
  · rw [if_neg (mt List.isEmpty_iff.mp blocked)] at ran
    split at ran
    · cases ran
    · next unfinished =>
        simp only [bind_eq_ok, position_ok] at ran
        obtain ⟨there, target, here, source, compared⟩ := ran
        split at compared
        · cases compared
        · next notLater =>
            rw [pipelineState_eq] at source
            refine Or.inr (Or.inr (Or.inr ⟨unfinished, there, here, target, ?_, by omega⟩))
            exact source

theorem foldBegun_ok (id : String) (states : List StateDef) (events : List StoryEvent)
    (folded : StorySnapshot) (ran : foldStory id events (stateMap states) = .ok folded) :
    foldBegun id states events = .ok (some folded) := by
  unfold foldBegun
  split
  · next empty =>
      rw [List.isEmpty_iff.mp empty] at ran
      cases ran
  · rw [ran]
    rfl

theorem validateAppend_ok (id : String) (states : List StateDef)
    (index : String → Option StorySnapshot) (events earlier later : List StoryEvent)
    (event : StoryEvent)
    (ran : validateAppend id states index events (earlier ++ event :: later) = .ok ())
    (before : StorySnapshot)
    (folded : foldStory id (events ++ earlier) (stateMap states) = .ok before) :
    ∃ after, foldStory id (events ++ earlier ++ [event]) (stateMap states) = .ok after ∧
      validateTransition before after.state (pipelineState states (events ++ earlier)) states
        index = .ok () := by
  induction earlier generalizing events with
  | nil =>
      rw [List.nil_append, validateAppend] at ran
      simp only [bind_eq_ok] at ran
      obtain ⟨start, standing, after, moved, _, checked, -⟩ := ran
      rw [List.append_nil] at folded ⊢
      refine ⟨after, moved, ?_⟩
      rw [foldBegun_ok id states events before folded, Except.ok.injEq] at standing
      subst standing
      exact checked
  | cons first earlier ih =>
      rw [List.cons_append, validateAppend] at ran
      simp only [bind_eq_ok] at ran
      obtain ⟨_, -, _, -, _, _, rest⟩ := ran
      rw [List.append_cons events first earlier] at folded ⊢
      exact ih (events ++ [first]) rest folded

/-- Blocker admission holds over every batch. -/
theorem blocker_admission (id : String) (states : List StateDef)
    (index : String → Option StorySnapshot) (history proposed earlier later : List StoryEvent)
    (event : StoryEvent) (accepted : validateAppend id states index history proposed = .ok ())
    (placed : proposed = earlier ++ event :: later) (before : StorySnapshot)
    (folded : foldStory id (history ++ earlier) (stateMap states) = .ok before)
    (blocked : openBlockers before index ≠ []) :
    ∃ after, foldStory id (history ++ earlier ++ [event]) (stateMap states) = .ok after ∧
      Admits states (history ++ earlier) before after := by
  obtain ⟨after, moved, checked⟩ :=
    validateAppend_ok id states index history earlier later event (placed ▸ accepted) before folded
  exact ⟨after, moved, validateTransition_ok states index _ before after blocked checked⟩

def at1 : String := "2026-01-01T00:00:00Z"

def waitingHistory (column : String) : List StoryEvent :=
  [.storyCreated at1 "waiting" column, .storyRelationshipAdded at1 "SH-2" "blocked-by"]

def oneBlocker (id : String) : Option StorySnapshot :=
  if id = "SH-2" then some { (default : StorySnapshot) with id := "SH-2", superstate := .open }
  else none

def columns : List StateDef := [
  ⟨"dropped", .closed, none, none⟩,
  ⟨"todo", .open, none, none⟩,
  ⟨"wontfix", .closed, none, none⟩,
  ⟨"in-progress", .open, some stateRoleActive, none⟩,
  ⟨"blocked", .open, none, none⟩,
  ⟨"done", .closed, none, none⟩]

/-- A story goes back through `blocked` to the column it came from. -/
theorem blocker_admission_detour : ∃ before after,
    foldStory "SH-1" (waitingHistory "todo" ++ [.storyStateChanged at1 "blocked"])
      (stateMap columns) = .ok before ∧ openBlockers before oneBlocker = ["SH-2"] ∧
    foldStory "SH-1" (waitingHistory "todo" ++ [.storyStateChanged at1 "blocked"] ++
      [.storyStateChanged at1 "todo"]) (stateMap columns) = .ok after ∧
    Admits columns (waitingHistory "todo" ++ [.storyStateChanged at1 "blocked"]) before after := by
  obtain ⟨_, accepted, -⟩ := any_ok (validateAppend "SH-1" columns oneBlocker (waitingHistory "todo")
    [.storyStateChanged at1 "blocked", .storyStateChanged at1 "todo"]) (fun _ => true)
    (by decide +kernel)
  obtain ⟨before, folded, waits⟩ := any_ok
    (foldStory "SH-1" (waitingHistory "todo" ++ [.storyStateChanged at1 "blocked"])
      (stateMap columns)) (fun before => openBlockers before oneBlocker == ["SH-2"])
    (by decide +kernel)
  have waiting : openBlockers before oneBlocker = ["SH-2"] := by simpa using waits
  obtain ⟨after, moved, admitted⟩ := blocker_admission "SH-1" columns oneBlocker
    (waitingHistory "todo") _ [.storyStateChanged at1 "blocked"] [] (.storyStateChanged at1 "todo")
    accepted rfl before folded (by simp [waiting])
  exact ⟨before, after, folded, waiting, moved, admitted⟩

/-- A waiting story closes in an earlier column, and one whose deletion was recorded the retired
way comes back through `blocked` to a column later than the one it was deleted into. -/
theorem earlier_closed_column_admitted :
    (validateAppend "SH-1" columns oneBlocker (waitingHistory "in-progress")
        [.storyStateChanged at1 "wontfix"] = .ok () ∧
      ∃ before after,
        foldStory "SH-1" (waitingHistory "in-progress") (stateMap columns) = .ok before ∧
        foldStory "SH-1" (waitingHistory "in-progress" ++ [.storyStateChanged at1 "wontfix"])
          (stateMap columns) = .ok after ∧
        openBlockers before oneBlocker = ["SH-2"] ∧ before.state = "in-progress" ∧
        after.state = "wontfix" ∧ after.superstate = .closed) ∧
    (validateAppend "SH-1" columns oneBlocker
        (waitingHistory "in-progress" ++ [.storyDeleted at1 "gone", .storyStateChanged at1 "blocked"])
        [.storyStateChanged at1 "in-progress"] = .ok () ∧
      ∃ deleted before,
        foldStory "SH-1" (waitingHistory "in-progress" ++ [.storyDeleted at1 "gone"])
          (stateMap columns) = .ok deleted ∧
        foldStory "SH-1" (waitingHistory "in-progress" ++
          [.storyDeleted at1 "gone", .storyStateChanged at1 "blocked"]) (stateMap columns) =
            .ok before ∧
        openBlockers before oneBlocker = ["SH-2"] ∧ deleted.state = "dropped" ∧
        before.state = "blocked" ∧ ¬ NotLater columns "in-progress" deleted.state) := by
  refine ⟨?_, ?_⟩
  · obtain ⟨_, accepted, -⟩ := any_ok (validateAppend "SH-1" columns oneBlocker
      (waitingHistory "in-progress") [.storyStateChanged at1 "wontfix"]) (fun _ => true)
      (by decide +kernel)
    obtain ⟨before, folded, start⟩ := any_ok
      (foldStory "SH-1" (waitingHistory "in-progress") (stateMap columns))
      (fun before => openBlockers before oneBlocker == ["SH-2"] && before.state == "in-progress")
      (by decide +kernel)
    obtain ⟨after, moved, finish⟩ := any_ok (foldStory "SH-1"
      (waitingHistory "in-progress" ++ [.storyStateChanged at1 "wontfix"]) (stateMap columns))
      (fun after => after.state == "wontfix" && after.superstate == .closed) (by decide +kernel)
    rw [Bool.and_eq_true, beq_iff_eq, beq_iff_eq] at start finish
    exact ⟨accepted, before, after, folded, moved, start.1, start.2, finish⟩
  · obtain ⟨_, accepted, -⟩ := any_ok (validateAppend "SH-1" columns oneBlocker
      (waitingHistory "in-progress" ++ [.storyDeleted at1 "gone", .storyStateChanged at1 "blocked"])
      [.storyStateChanged at1 "in-progress"]) (fun _ => true) (by decide +kernel)
    obtain ⟨deleted, gone, rested⟩ := any_ok (foldStory "SH-1"
      (waitingHistory "in-progress" ++ [.storyDeleted at1 "gone"]) (stateMap columns))
      (fun deleted => deleted.state == "dropped") (by decide +kernel)
    obtain ⟨before, folded, start⟩ := any_ok (foldStory "SH-1" (waitingHistory "in-progress" ++
      [.storyDeleted at1 "gone", .storyStateChanged at1 "blocked"]) (stateMap columns))
      (fun before => openBlockers before oneBlocker == ["SH-2"] && before.state == "blocked")
      (by decide +kernel)
    rw [Bool.and_eq_true, beq_iff_eq, beq_iff_eq] at start
    rw [beq_iff_eq] at rested
    refine ⟨accepted, deleted, before, gone, folded, start.1, rested, start.2, ?_⟩
    rintro ⟨there, here, target, source, earlier⟩
    rw [rested] at source
    cases target
    cases source
    exact absurd earlier (by decide)

end Storyhook.Domain
