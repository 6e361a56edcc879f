import Storyhook.Domain.BlockerAdmission
import Storyhook.Domain.RelationReplay

namespace Storyhook.Domain

open Library.Replay

def holdOf : StoryEvent → Option (Option String)
  | .storyAwaitingSet _ reason => some (some reason)
  | .storyAwaitingCleared _ => some none
  | _ => none

def heldBy (events : List StoryEvent) : Option String :=
  ((events.filterMap holdOf).getLast?).getD none

theorem foldStep_awaiting (states : StateCatalog) (acc : FoldState) (event : StoryEvent) :
    (foldStep states acc event).awaiting = (holdOf event).getD acc.awaiting := by
  cases event with
  | storyCommentAdded atTime text =>
      simp only [foldStep, foldArm, foldComment]
      split <;> rfl
  | storyStateChanged atTime state =>
      simp only [foldStep, foldArm, foldStateChange]
      split <;> rfl
  | storyCreatedAsDraft atTime =>
      simp only [foldStep, foldArm]
      split <;> rfl
  | _ => rfl

theorem replay_awaiting (states : StateCatalog) (events : List StoryEvent) :
    (replay states events).awaiting = heldBy events :=
  foldl_lastWrite (foldStep states) FoldState.awaiting holdOf (foldStep_awaiting states)
    .initial events

/-- An event that neither moves its story, nor holds or deletes it. -/
structure Quiet (event : StoryEvent) : Prop where
  moves : movesTo event = none
  holds : holdOf event = none
  deletes : isDeletion event = false

/-- An event that does not move its story, nor deletes it. -/
structure Still (event : StoryEvent) : Prop where
  moves : movesTo event = none
  deletes : isDeletion event = false

theorem Quiet.still (event : StoryEvent) (quiet : Quiet event) : Still event :=
  ⟨quiet.moves, quiet.deletes⟩

theorem Still.of_quiet (events : List StoryEvent) (quiet : ∀ event ∈ events, Quiet event) :
    ∀ event ∈ events, Still event := fun event member => (quiet event member).still

/-- What every edit keeps of a catalog: `dropped` is closed, and there is no `closed`. -/
structure Conforming (states : StateCatalog) : Prop where
  dropped : (states[droppedStateSlug]?).map StateDef.superState = some .closed
  retired : states["closed"]? = none

def currentSlug (slug : String) : String := if slug = "closed" then droppedStateSlug else slug

theorem historicalSlug_conforming (states : StateCatalog) (conforming : Conforming states)
    (slug : String) : historicalSlug slug states = currentSlug slug := by
  simp [historicalSlug, currentSlug, conforming.dropped, conforming.retired]

theorem Conforming.current (states : StateCatalog) (conforming : Conforming states) (slug : String)
    (definition : StateDef) (known : states[slug]? = some definition) :
    currentSlug slug = slug := by
  rw [currentSlug, if_neg]
  rintro rfl
  rw [conforming.retired] at known
  cases known

def lastMove (events : List StoryEvent) : Option String :=
  ((events.filterMap movesTo).getLast?).map currentSlug

theorem replay_lastMove (states : StateCatalog) (conforming : Conforming states)
    (events : List StoryEvent) : (replay states events).state = lastMove events := by
  rw [replay_state, lastNamedSlug, lastMove, ← List.getLast?_map, List.map_filterMap]
  congr 1
  apply List.filterMap_congr
  intro event _
  rw [namedSlug_movesTo]
  cases movesTo event with
  | none => rfl
  | some slug => exact congrArg some (historicalSlug_conforming states conforming slug)

def Undeleted (events : List StoryEvent) : Prop := ∀ event ∈ events, isDeletion event = false

theorem Undeleted.append (earlier later : List StoryEvent) (first : Undeleted earlier)
    (second : Undeleted later) : Undeleted (earlier ++ later) := by
  intro event member
  exact (List.mem_append.mp member).elim (first event) (second event)

theorem Undeleted.still (events : List StoryEvent) (still : ∀ event ∈ events, Still event) :
    Undeleted events := fun event member => (still event member).deletes

theorem replay_undeleted (states : StateCatalog) (events : List StoryEvent)
    (undeleted : Undeleted events) : (replay states events).legacyDeletionActive = false := by
  rw [replay_deletion, List.any_eq_false]
  intro event member
  have inside : event ∈ events := (List.rtakeWhile_suffix _ events).subset member
  simp [undeleted event inside]

def shut (states : StateCatalog) (slug : String) : Bool :=
  !(states[slug]?).any fun found => found.superState = .open

theorem namesOpenState_shut (states : StateCatalog) (conforming : Conforming states)
    (slug : String) : namesOpenState states slug = !shut states (currentSlug slug) := by
  rw [namesOpenState, historicalSlug_conforming states conforming, shut, Bool.not_not]

theorem foldStory_undeleted (id : String) (events : List StoryEvent) (states : StateCatalog)
    (conforming : Conforming states) (undeleted : Undeleted events) (snapshot : StorySnapshot) :
    foldStory id events states = .ok snapshot ↔
      ∃ state title createdAt superstate, lastMove events = some state ∧
        (replay states events).title = some title ∧
        (replay states events).createdAt = some createdAt ∧
        (states[state]?).map StateDef.superState = some superstate ∧
        snapshot = (replay states events).snapshot id title createdAt state superstate := by
  rw [foldStory, finishFold_ok, replay_lastMove states conforming,
    replay_undeleted states events undeleted]
  constructor
  · rintro ⟨state, title, createdAt, resting, superstate, moved, titled, created, rests, rfl⟩
    simp only [restingState, Bool.false_eq_true, if_false] at rests
    cases found : states[state]? with
    | none =>
        rw [found] at rests
        cases rests
    | some definition =>
        rw [found] at rests
        cases rests
        exact ⟨state, title, createdAt, _, moved, titled, created, by rw [found]; rfl, rfl⟩
  · rintro ⟨state, title, createdAt, superstate, moved, titled, created, known, rfl⟩
    refine ⟨state, title, createdAt, state, superstate, moved, titled, created, ?_, rfl⟩
    obtain ⟨definition, found, rfl⟩ := Option.map_eq_some_iff.mp known
    simp [restingState, found]

/-- The time of the last close marker, and the states named since, its own included. -/
def closureStep (closed : Option (String × List String)) :
    StoryEvent → Option (String × List String)
  | .storyClosedAndArchived atTime state => some (atTime, [currentSlug state])
  | .storyStateChanged _ state => closed.map fun found => (found.1, found.2 ++ [currentSlug state])
  | _ => closed

def closure (events : List StoryEvent) : Option (String × List String) :=
  events.foldl closureStep none

/-- The closing time in a catalog: none once a state named since is OPEN. -/
def stamp (states : StateCatalog) (closed : Option (String × List String)) : Option String :=
  (closed.filter fun found => found.2.all (shut states)).map (·.1)

/-- In every catalog the closing time is that of the last close marker. -/
def Stamped (events : List StoryEvent) : Prop :=
  ∀ states, Conforming states → (replay states events).closedAt = stamp states (closure events)

theorem closure_snoc (events : List StoryEvent) (event : StoryEvent) :
    closure (events ++ [event]) = closureStep (closure events) event :=
  List.foldl_concat ..

theorem closure_still (events later : List StoryEvent)
    (still : ∀ event ∈ later, movesClosure event = false) :
    closure (events ++ later) = closure events := by
  induction later using List.reverseRecOn with
  | nil => rw [List.append_nil]
  | append_singleton earlier event ih =>
      rw [← List.append_assoc, closure_snoc, ih fun other member => still other (by simp [member])]
      have last := still event (by simp)
      cases event <;> first | rfl | cases last

theorem Stamped.nil : Stamped [] := fun _ _ => rfl

theorem Stamped.still (events later : List StoryEvent) (stamped : Stamped events)
    (still : ∀ event ∈ later, movesClosure event = false) : Stamped (events ++ later) := by
  intro states conforming
  rw [replay_closedAt states events later still, closure_still events later still]
  exact stamped states conforming

theorem stamp_move (states : StateCatalog) (closed : Option (String × List String))
    (atTime state : String) :
    stamp states (closureStep closed (.storyStateChanged atTime state)) =
      if shut states (currentSlug state) then stamp states closed else none := by
  cases closed with
  | none => simp [stamp, closureStep]
  | some found =>
      simp only [stamp, closureStep, Option.map_some, Option.filter_some, List.all_append,
        List.all_cons, List.all_nil, Bool.and_true]
      cases shut states (currentSlug state) <;> simp

theorem Stamped.move (events : List StoryEvent) (stamped : Stamped events)
    (atTime state : String) : Stamped (events ++ [.storyStateChanged atTime state]) := by
  intro states conforming
  rw [replay_append, closure_snoc, stamp_move, ← stamped states conforming]
  simp only [foldStep, foldArm, foldStateChange, namesOpenState_shut states conforming]
  cases shut states (currentSlug state) <;> rfl

theorem Stamped.transition (events extra : List StoryEvent) (stamped : Stamped events)
    (still : ∀ event ∈ extra, movesClosure event = false) (moved closed state : String) :
    Stamped (events ++ [.storyStateChanged moved state] ++ extra ++
      [.storyClosedAndArchived closed state]) := by
  intro states conforming
  have before := (stamped.move events moved state).still _ extra still states conforming
  rw [replay_append, closure_snoc]
  simp only [foldStep, foldArm, foldClosedAndArchived, namesOpenState_shut states conforming]
  rw [before, closure_still _ _ still, closure_snoc, stamp_move]
  cases open' : shut states (currentSlug state) <;>
    simp [stamp, closureStep, Option.filter_some, open']

theorem heldBy_append (earlier later : List StoryEvent) :
    heldBy (earlier ++ later) = ((later.filterMap holdOf).getLast?).getD (heldBy earlier) := by
  rw [heldBy, List.filterMap_append, List.getLast?_append, heldBy]
  cases (later.filterMap holdOf).getLast? <;> simp

theorem lastMove_append (earlier later : List StoryEvent) :
    lastMove (earlier ++ later) = (lastMove later).or (lastMove earlier) := by
  rw [lastMove, List.filterMap_append, List.getLast?_append, lastMove, lastMove]
  cases (later.filterMap movesTo).getLast? <;> simp

theorem filterMap_still (events : List StoryEvent) (still : ∀ event ∈ events, Still event) :
    events.filterMap movesTo = [] :=
  List.filterMap_eq_nil_iff.mpr fun event member => (still event member).moves

theorem lastMove_still (earlier later : List StoryEvent)
    (still : ∀ event ∈ later, Still event) : lastMove (earlier ++ later) = lastMove earlier := by
  rw [lastMove_append, lastMove, filterMap_still later still]
  rfl

theorem heldBy_silent (earlier later : List StoryEvent)
    (silent : ∀ event ∈ later, holdOf event = none) :
    heldBy (earlier ++ later) = heldBy earlier := by
  rw [heldBy_append, List.filterMap_eq_nil_iff.mpr silent]
  rfl

theorem Still.closes (event : StoryEvent) (still : Still event) : movesClosure event = false := by
  obtain ⟨moves, deletes⟩ := still
  cases event with
  | storyStateChanged | storyClosedAndArchived => cases moves
  | storyDeleted => cases deletes
  | _ => rfl

/-- What every history the commands write keeps: its closing time is that of its last close marker
in every catalog, and its last move is the last state named since. -/
structure Shaped (events : List StoryEvent) : Prop where
  stamped : Stamped events
  last : ∀ found, closure events = some found → found.2.getLast? = lastMove events

theorem Shaped.opening (events : List StoryEvent)
    (still : ∀ event ∈ events, movesClosure event = false) : Shaped events where
  stamped := Stamped.nil.still [] events still
  last := by
    intro found closed
    rw [← List.nil_append events, closure_still [] events still] at closed
    cases closed

section Shaped

variable (events : List StoryEvent) (shaped : Shaped events)

include shaped

theorem Shaped.still (later : List StoryEvent) (still : ∀ event ∈ later, Still event) :
    Shaped (events ++ later) where
  stamped := shaped.stamped.still events later fun event member => (still event member).closes
  last := by
    intro found closed
    rw [closure_still events later fun event member => (still event member).closes] at closed
    rw [lastMove_still events later still]
    exact shaped.last found closed

theorem Shaped.move (now state : String) :
    Shaped (events ++ [.storyStateChanged now state]) where
  stamped := shaped.stamped.move events now state
  last := by
    intro found closed
    rw [closure_snoc, closureStep, Option.map_eq_some_iff] at closed
    obtain ⟨before, -, rfl⟩ := closed
    rw [lastMove_append]
    simp [lastMove, movesTo]

theorem Shaped.transition (extra : List StoryEvent) (still : ∀ event ∈ extra, Still event)
    (moved closed state : String) :
    Shaped (events ++ ([.storyStateChanged moved state] ++ extra ++
      [.storyClosedAndArchived closed state])) where
  stamped := by
    have stamped := shaped.stamped.transition events extra
      (fun event member => (still event member).closes) moved closed state
    simpa only [List.append_assoc] using stamped
  last := by
    intro found named
    rw [← List.append_assoc, closure_snoc] at named
    cases named
    rw [← List.append_assoc, lastMove_append]
    simp [lastMove, movesTo]

end Shaped

theorem Shaped.unclosed (events : List StoryEvent) (shaped : Shaped events) (states : StateCatalog)
    (conforming : Conforming states) (state : String) (moved : lastMove events = some state)
    (isOpen : (states[state]?).map StateDef.superState = some .open) :
    (replay states events).closedAt = none := by
  rw [shaped.stamped states conforming, stamp]
  cases closed : closure events with
  | none => rfl
  | some found =>
      have last := (shaped.last found closed).trans moved
      have member := List.mem_of_getLast? last
      obtain ⟨definition, known, opened⟩ := Option.map_eq_some_iff.mp isOpen
      have ajar : shut states state = false := by simp [shut, known, opened]
      rw [Option.filter_some, if_neg, Option.map_none]
      intro all
      rw [List.all_eq_true] at all
      exact Bool.false_ne_true (ajar.symm.trans (all state member))

theorem replay_move_unclosed (states : StateCatalog) (events : List StoryEvent) (now state : String)
    (unclosed : (replay states events).closedAt = none) :
    (replay states (events ++ [.storyStateChanged now state])).closedAt = none := by
  rw [replay_append]
  simp only [foldStep, foldArm, foldStateChange]
  split
  · rfl
  · exact unclosed

theorem foldStep_catalogs (first second : StateCatalog) (conforming : Conforming first)
    (other : Conforming second) (acc : FoldState) (closedAt : Option String) (event : StoryEvent)
    (alive : acc.legacyDeletionActive = false) (kept : isDeletion event = false) :
    { foldStep second { acc with closedAt } event with closedAt := none } =
      { foldStep first acc event with closedAt := none } := by
  cases event with
  | storyCreated atTime title state =>
      simp [foldStep, foldArm, historicalSlug_conforming, conforming, other]
  | storyCommentAdded atTime text =>
      simp only [foldStep, foldArm, foldComment]
      split <;> rfl
  | storyStateChanged atTime state =>
      simp only [foldStep, foldArm, foldStateChange, alive,
        historicalSlug_conforming first conforming, historicalSlug_conforming second other]
      cases namesOpenState first state <;> cases namesOpenState second state <;>
        simp
  | storyClosedAndArchived atTime state =>
      simp [foldStep, foldArm, foldClosedAndArchived, historicalSlug_conforming, conforming, other]
  | storyCreatedAsDraft atTime =>
      simp only [foldStep, foldArm]
      split <;> rfl
  | storyDeleted => cases kept
  | _ => rfl

theorem replay_catalogs (first second : StateCatalog) (conforming : Conforming first)
    (other : Conforming second) (events : List StoryEvent) (undeleted : Undeleted events) :
    replay second events =
      { replay first events with closedAt := (replay second events).closedAt } := by
  induction events using List.reverseRecOn with
  | nil => rfl
  | append_singleton earlier event ih =>
      have before : Undeleted earlier := fun event member => undeleted event (by simp [member])
      have same := foldStep_catalogs first second conforming other (replay first earlier)
        (replay second earlier).closedAt event (replay_undeleted first earlier before)
        (undeleted event (by simp))
      rw [← ih before, ← replay_append, ← replay_append] at same
      exact congrArg (fun acc : FoldState =>
        { acc with closedAt := (replay second (earlier ++ [event])).closedAt }) same

/-- A stamped history folds to the same snapshot in a second catalog just where that agrees on
the superstate of its state and on the closing time. -/
theorem fold_catalogs (id : String) (first second : StateCatalog) (conforming : Conforming first)
    (other : Conforming second) (events : List StoryEvent) (undeleted : Undeleted events)
    (stamped : Stamped events) (snapshot : StorySnapshot)
    (folded : foldStory id events first = .ok snapshot) :
    foldStory id events second = .ok snapshot ↔
      (second[snapshot.state]?).map StateDef.superState = some snapshot.superstate ∧
        stamp second (closure events) = stamp first (closure events) := by
  obtain ⟨state, title, createdAt, superstate, moved, titled, created, known, rfl⟩ :=
    (foldStory_undeleted id events first conforming undeleted snapshot).mp folded
  have same := replay_catalogs first second conforming other events undeleted
  rw [← stamped first conforming, ← stamped second other]
  rw [foldStory_undeleted id events second other undeleted]
  constructor
  · rintro ⟨state', title', createdAt', superstate', moved', -, -, known', equal⟩
    rw [moved, Option.some.injEq] at moved'
    subst moved'
    have shown := congrArg StorySnapshot.superstate equal
    have closed := congrArg StorySnapshot.closedAt equal
    simp only [FoldState.snapshot] at shown closed ⊢
    exact ⟨shown ▸ known', closed.symm⟩
  · rintro ⟨superstates, closed⟩
    rw [closed] at same
    have whole : replay second events = replay first events := same
    rw [whole]
    exact ⟨state, title, createdAt, superstate, moved, titled, created, superstates, rfl⟩

end Storyhook.Domain
