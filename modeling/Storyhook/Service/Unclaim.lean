import Storyhook.Domain.BlockerAdmission
import Storyhook.Domain.Closure
import Storyhook.Service.EngineLanes

/-! Where a claimed story is put back, beside the states its history folds to. -/

namespace Storyhook.Service

open Storyhook.Domain

inductive UnclaimFallback where
  | noPriorState
  | priorStateRemoved (origin : String)
  | priorStateClosed (origin : String)
  deriving DecidableEq, Repr

structure UnclaimOutcome where
  id : String
  fromState : String
  restoredTo : String
  fallback : Option UnclaimFallback
  deriving DecidableEq, Repr

def unclaimFallbackState : String := "todo"

def resolveUnclaimDestination (id : String) (events : List StoryEvent) (active : String)
    (states : StateCatalog) : UnclaimOutcome :=
  let fallback (reason : UnclaimFallback) : UnclaimOutcome :=
    ⟨id, active, unclaimFallbackState, some reason⟩
  match stateClaimedFrom events active with
  | none => fallback .noPriorState
  | some origin =>
      match states[origin]? with
      | none => fallback (.priorStateRemoved origin)
      | some found =>
          if found.superState ≠ .open then fallback (.priorStateClosed origin)
          else ⟨id, active, origin, none⟩

def foldedState (id : String) (states : StateCatalog) (events : List StoryEvent) : Option String :=
  (foldStory id events states).toOption.map (·.state)

/-- A history folds to the active state at an event, and to another one before it. -/
def Enters (id : String) (states : StateCatalog) (active : String) (events : List StoryEvent)
    (index : Nat) (slug : String) : Prop :=
  index < events.length ∧ foldedState id states (events.take index) = some slug ∧ slug ≠ active ∧
    foldedState id states (events.take (index + 1)) = some active

/-- The last event at which a history enters the active state, with the state before it. -/
def EntersLast (id : String) (states : StateCatalog) (active : String) (events : List StoryEvent)
    (slug : String) : Prop :=
  ∃ index, Enters id states active events index slug ∧
    ∀ later other, index < later → ¬ Enters id states active events later other

/-- What an unclaim restores is the state that the fold has before its last entry. -/
def UnclaimAgrees (id : String) (states : StateCatalog) (active : String)
    (events : List StoryEvent) : Prop :=
  ∀ slug, EntersLast id states active events slug →
    stateClaimedFrom events active = some slug ∧
      (resolveUnclaimDestination id events active states).restoredTo =
        if (states[slug]?).map StateDef.superState = some .open then slug else unclaimFallbackState

/-- Whether some named slugs pass into one for the last time from another. -/
def PassesFrom (slug active : String) (named : List String) : Prop :=
  ∃ earlier later, named = earlier ++ slug :: active :: later ∧ slug ≠ active ∧
    (active :: later).IsChain fun left right => right = active → left = active

theorem getLast_filter_range (count index : Nat) (test : Nat → Bool) :
    ((List.range count).filter test).getLast? = some index ↔
      index < count ∧ test index = true ∧
        ∀ later, index < later → later < count → test later = false := by
  induction count with
  | zero => simp
  | succ count further =>
      rw [List.range_succ, List.filter_append, List.filter_singleton]
      cases last : test count with
      | true =>
          simp only [cond_true, List.getLast?_concat, Option.some.injEq]
          constructor
          · rintro rfl
            exact ⟨Nat.lt_succ_self _, last, fun later after before => by omega⟩
          · rintro ⟨within, -, none⟩
            by_contra apart
            rw [none count (by omega) (Nat.lt_succ_self _)] at last
            cases last
      | false =>
          rw [cond_false, List.append_nil, further]
          constructor
          · rintro ⟨within, found, none⟩
            refine ⟨Nat.lt_succ_of_lt within, found, fun later after before => ?_⟩
            rcases Nat.lt_succ_iff_lt_or_eq.mp before with less | rfl
            · exact none later after less
            · exact last
          · rintro ⟨within, found, none⟩
            refine ⟨?_, found, fun later after before => none later after (by omega)⟩
            rcases Nat.lt_succ_iff_lt_or_eq.mp within with less | rfl
            · exact less
            · rw [last] at found
              cases found

theorem stateClaimedFrom_iff (events : List StoryEvent) (active slug : String) :
    stateClaimedFrom events active = some slug ↔
      PassesFrom slug active (events.filterMap movesTo) := by
  simp only [stateClaimedFrom, Option.bind_eq_some_iff, getLast_filter_range, Bool.and_eq_true,
    beq_iff_eq, Bool.or_eq_true, bne_iff_ne, ne_eq]
  generalize events.filterMap movesTo = named
  constructor
  · rintro ⟨index, ⟨within, ⟨entered, apart⟩, none⟩, found⟩
    split at found
    · cases found
    · next positive =>
        obtain ⟨before, rfl⟩ := Nat.exists_eq_succ_of_ne_zero positive
        simp only [Nat.succ_eq_add_one, Nat.add_sub_cancel] at found entered within apart
        obtain ⟨bound, first⟩ := List.getElem?_eq_some_iff.mp found
        obtain ⟨inside, second⟩ := List.getElem?_eq_some_iff.mp entered
        refine ⟨named.take before, named.drop (before + 2), ?_, ?_, ?_⟩
        · rw [← first, ← second, ← List.drop_eq_getElem_cons, ← List.drop_eq_getElem_cons,
            List.take_append_drop]
        · rintro rfl
          rcases apart with zero | unlike
          · cases zero
          · exact unlike found
        · rw [← second, ← List.drop_eq_getElem_cons, List.isChain_iff_getElem]
          intro place inside back
          rw [List.length_drop] at inside
          rw [List.getElem_drop] at back ⊢
          have unentered := none (before + 1 + (place + 1)) (by omega) (by omega)
          simp only [← Nat.add_assoc, Nat.add_sub_cancel, Bool.and_eq_false_iff,
            beq_eq_false_iff_ne, Bool.or_eq_false_iff, bne_eq_false_iff_eq] at unentered
          rcases unentered with other | ⟨-, stays⟩
          · rw [List.getElem?_eq_getElem (by omega)] at other
            exact absurd (congrArg some (back.trans second)) other
          · rw [List.getElem?_eq_getElem (by omega), Option.some.injEq] at stays
            exact stays.trans second.symm
  · rintro ⟨earlier, later, rfl, apart, chained⟩
    refine ⟨earlier.length + 1, ⟨?_, ⟨?_, ?_⟩, ?_⟩, ?_⟩
    · simp
    · simp
    · simp [apart]
    · intro index after before
      obtain ⟨place, rfl⟩ := Nat.exists_eq_add_of_lt after
      have tail (shift : Nat) : (earlier ++ slug :: active :: later)[earlier.length + 1 + shift]? =
          (active :: later)[shift]? := by
        rw [List.getElem?_append_right (by omega)]
        simp [show earlier.length + 1 + shift - earlier.length = shift + 1 by omega]
      have inside : place + 1 < (active :: later).length := by
        simp only [List.length_append, List.length_cons] at before ⊢
        omega
      have steps := List.isChain_iff_getElem.mp chained place inside
      rw [Nat.add_assoc _ place 1, tail, ← Nat.add_assoc, Nat.add_sub_cancel, tail,
        List.getElem?_eq_getElem inside, List.getElem?_eq_getElem (by omega)]
      simpa using steps
    · simp

/-- What an unclaim restores is the state before the fold's last entry just where the slugs that
the history names last pass into the active one from that state. -/
theorem unclaim_agrees_iff (id : String) (states : StateCatalog) (active : String)
    (events : List StoryEvent) :
    stateClaimedFrom events active ≠ some active ∧
      (UnclaimAgrees id states active events ↔ ∀ slug, EntersLast id states active events slug →
        PassesFrom slug active (events.filterMap movesTo)) := by
  constructor
  · intro claimed
    obtain ⟨_, _, -, apart, -⟩ := (stateClaimedFrom_iff events active active).mp claimed
    exact apart rfl
  · refine forall_congr' fun slug => imp_congr_right fun _ => ?_
    rw [← stateClaimedFrom_iff]
    refine and_iff_left_of_imp fun claimed => ?_
    simp only [resolveUnclaimDestination, claimed]
    cases defined : states[slug]? with
    | none => simp
    | some found => by_cases isOpen : found.superState = .open <;> simp [isOpen]

/-- A history whose story is created and, since it was last reopened, not deleted, and that names
a slug last that the catalog still has. -/
structure ShowsState (states : StateCatalog) (events : List StoryEvent) (slug : String) : Prop where
  created : ∃ atTime title state, .storyCreated atTime title state ∈ events
  undeleted : (sinceReopened states events).any isDeletion = false
  named : (events.filterMap movesTo).getLast? = some slug
  spelled : historicalSlug slug states = slug
  defined : states[slug]? ≠ none

/-- An event that names the active state after a history that shows another, while every later
event that names it follows one that shows where the story is. -/
structure Followed (states : StateCatalog) (active : String) (before : List StoryEvent)
    (entering : StoryEvent) (after : List StoryEvent) : Prop where
  spelled : historicalSlug active states = active
  defined : states[active]? ≠ none
  shown : ∃ slug, slug ≠ active ∧ ShowsState states before slug
  enters : movesTo entering = some active
  literal : ∀ event ∈ after, namedSlug states event = some active → movesTo event = some active
  unrested : ∀ event ∈ after, isDeletion event = true →
    (restingStateForClosure states).map StateDef.slug ≠ some active
  later : ∀ passed event rest, after = passed ++ event :: rest → movesTo event = some active →
    ∃ slug, ShowsState states (before ++ entering :: passed) slug

/-- Whether a history never folds into the active state, or shows from where it does. -/
def Readable (id : String) (states : StateCatalog) (active : String) (events : List StoryEvent) :
    Prop :=
  (∀ index slug, ¬ Enters id states active events index slug) ∨
    ∃ before entering after, events = before ++ entering :: after ∧
      Followed states active before entering after

section Fold

variable (id : String) (states : StateCatalog) (active : String) (events : List StoryEvent)

theorem foldStep_begun (acc : FoldState) (event : StoryEvent)
    (begun : acc.title.isSome = true ∧ acc.createdAt.isSome = true) :
    (foldStep states acc event).title.isSome = true ∧
      (foldStep states acc event).createdAt.isSome = true := by
  cases event with
  | storyCommentAdded atTime text =>
      simp only [foldStep, foldArm, foldComment]
      split <;> exact begun
  | storyStateChanged atTime state =>
      simp only [foldStep, foldArm, foldStateChange]
      split <;> exact begun
  | storyCreatedAsDraft atTime =>
      simp only [foldStep, foldArm]
      split <;> exact begun
  | storyCreated atTime title state => exact ⟨rfl, rfl⟩
  | storyTitleSet atTime title => exact ⟨rfl, begun.2⟩
  | _ => exact begun

theorem replay_begun (atTime title state : String)
    (created : .storyCreated atTime title state ∈ events) :
    (replay states events).title.isSome = true ∧
      (replay states events).createdAt.isSome = true := by
  obtain ⟨before, rest, rfl⟩ := List.append_of_mem created
  rw [replay, List.foldl_append, List.foldl_cons]
  exact List.foldlRecOn rest (foldStep states) ⟨rfl, rfl⟩
    fun acc begun event _ => foldStep_begun states acc event begun

theorem foldedState_iff (slug : String) : foldedState id states events = some slug ↔
    ∃ state superstate, (replay states events).state = some state ∧
      (replay states events).title.isSome = true ∧ (replay states events).createdAt.isSome = true ∧
      restingState id states (replay states events).legacyDeletionActive state =
        .ok (slug, superstate) := by
  constructor
  · intro folded
    obtain ⟨snapshot, found, rfl⟩ := Option.map_eq_some_iff.mp folded
    obtain ⟨state, title, createdAt, resting, superstate, named, titled, created, rests, rfl⟩ :=
      (finishFold_ok id states _ _).mp ((Library.Outcome.toOption_some _ _).mp found)
    refine ⟨state, superstate, named, ?_, ?_, rests⟩
    · rw [titled, Option.isSome_some]
    · rw [created, Option.isSome_some]
  · rintro ⟨state, superstate, named, titled, created, rests⟩
    obtain ⟨title, hasTitle⟩ := Option.isSome_iff_exists.mp titled
    obtain ⟨createdAt, hasCreated⟩ := Option.isSome_iff_exists.mp created
    have folds := (finishFold_ok id states (replay states events) _).mpr
      ⟨state, title, createdAt, slug, superstate, named, hasTitle, hasCreated, rests, rfl⟩
    rw [foldedState, foldStory, folds]
    rfl

theorem ShowsState.folded (slug : String) (shown : ShowsState states events slug) :
    foldedState id states events = some slug := by
  obtain ⟨atTime, title, state, created⟩ := shown.created
  obtain ⟨titled, dated⟩ := replay_begun states events atTime title state created
  obtain ⟨found, defined⟩ := Option.ne_none_iff_exists'.mp shown.defined
  refine (foldedState_iff id states events slug).mpr ⟨slug, found.superState, ?_, titled, dated, ?_⟩
  · have respelled : namedSlug states = fun event => (movesTo event).map
      (historicalSlug · states) :=
      funext (namedSlug_movesTo states)
    rw [replay_state, lastNamedSlug, respelled, ← List.map_filterMap,
      List.getLast?_map, shown.named,
      Option.map_some, shown.spelled]
  · rw [replay_deletion, shown.undeleted, restingState, if_neg Bool.false_ne_true, defined]

theorem restingState_slug (deleted : Bool) (state slug : String) (superstate : SuperState)
    (rests : restingState id states deleted state = .ok (slug, superstate)) :
    slug = if deleted then ((restingStateForClosure states).map StateDef.slug).getD state
      else state := by
  unfold restingState at rests
  cases deleted with
  | false =>
      simp only [Bool.false_eq_true, if_false] at rests ⊢
      split at rests <;> cases rests
      rfl
  | true =>
      simp only [if_true] at rests ⊢
      split at rests
      all_goals
        next found =>
          cases rests
          rw [found]
          rfl

theorem enters_named (before : List StoryEvent) (event : StoryEvent) (slug : String)
    (shown : foldedState id states before = some slug) (apart : slug ≠ active)
    (entered : foldedState id states (before ++ [event]) = some active) :
    namedSlug states event = some active ∨ isDeletion event = true ∧
      (restingStateForClosure states).map StateDef.slug = some active := by
  obtain ⟨state, superstate, named, -, -, rests⟩ := (foldedState_iff id states before slug).mp shown
  obtain ⟨state', superstate', named', -, -, rests'⟩ :=
    (foldedState_iff id states (before ++ [event]) active).mp entered
  have step : replay states (before ++ [event]) = foldStep states (replay states before) event := by
    rw [replay, List.foldl_append]
    rfl
  rw [step, foldStep_state, named] at named'
  rw [step, foldStep_deletion] at rests'
  generalize (replay states before).legacyDeletionActive = latched at rests rests'
  have old := restingState_slug id states latched state slug superstate rests
  have new := restingState_slug id states _ state' active superstate' rests'
  cases moved : namedSlug states event with
  | none =>
      have kept : reopens states event = false := by
        cases event with
        | storyStateChanged => cases moved
        | _ => rfl
      rw [moved] at named'
      obtain rfl : state = state' := Option.some.inj named'
      rw [kept, Bool.not_false, Bool.true_and] at new
      cases deletes : isDeletion event with
      | false =>
          rw [deletes, Bool.or_false, ← old] at new
          exact absurd new.symm apart
      | true =>
          rw [deletes, Bool.or_true, if_pos rfl] at new
          refine Or.inr ⟨rfl, ?_⟩
          cases rested : (restingStateForClosure states).map StateDef.slug with
          | some resting => rw [new, rested, Option.getD_some]
          | none =>
              rw [rested, Option.getD_none] at old new
              rw [ite_self] at old
              exact absurd (old.trans new.symm) apart
  | some target =>
      have undeleted : isDeletion event = false := by
        cases event with
        | storyDeleted => cases moved
        | _ => rfl
      rw [moved] at named'
      obtain rfl : target = state' := Option.some.inj named'
      rw [undeleted, Bool.or_false] at new
      refine Or.inl (congrArg some ?_)
      by_cases deleted : (!reopens states event && latched) = true
      · rw [if_pos deleted] at new
        rw [if_pos (Bool.and_eq_true_iff.mp deleted).2] at old
        cases rested : (restingStateForClosure states).map StateDef.slug with
        | none => rw [new, rested, Option.getD_none]
        | some resting =>
            rw [rested, Option.getD_some] at old new
            exact absurd (old.trans new.symm) apart
      · rw [if_neg deleted] at new
        exact new.symm

theorem ShowsState.moved (slug target : String) (event : StoryEvent)
    (shown : ShowsState states events slug) (names : movesTo event = some target)
    (spelled : historicalSlug target states = target) (defined : states[target]? ≠ none) :
    ShowsState states (events ++ [event]) target where
  created := by
    obtain ⟨atTime, title, state, created⟩ := shown.created
    exact ⟨atTime, title, state, List.mem_append_left _ created⟩
  undeleted := by
    have undeleted : isDeletion event = false := by
      cases event with
      | storyDeleted => cases names
      | _ => rfl
    rw [← replay_deletion, replay, List.foldl_append, List.foldl_cons, List.foldl_nil,
      foldStep_deletion, ← replay, replay_deletion, shown.undeleted, undeleted, Bool.or_false,
      Bool.and_false]
  named := by
    rw [List.filterMap_append, List.filterMap_cons_some names, List.filterMap_nil,
      List.getLast?_concat]
  spelled := spelled
  defined := defined

end Fold

section Passages

variable (id : String) (states : StateCatalog) (active : String) (before : List StoryEvent)
  (entering : StoryEvent) (after : List StoryEvent)

theorem Followed.onward (followed : Followed states active before entering after)
    (passed : List StoryEvent) (event : StoryEvent) (rest : List StoryEvent) (slug : String)
    (split : after = passed ++ event :: rest) (names : movesTo event = some active)
    (apart : slug ≠ active)
    (last : ((entering :: passed).filterMap movesTo).getLast? = some slug) :
    Followed states active (before ++ entering :: passed) event rest where
  spelled := followed.spelled
  defined := followed.defined
  shown := by
    obtain ⟨other, shown⟩ := followed.later passed event rest split names
    have named := shown.named
    rw [List.filterMap_append, List.getLast?_append, last, Option.some_or] at named
    exact ⟨slug, apart, Option.some.inj named ▸ shown⟩
  enters := names
  literal := fun other member => followed.literal other (split ▸ by simp [member])
  unrested := fun other member => followed.unrested other (split ▸ by simp [member])
  later := by
    rintro further other tail rfl named
    obtain ⟨slug, shown⟩ := followed.later (passed ++ event :: further) other tail
      (by simp [split]) named
    refine ⟨slug, ?_⟩
    rwa [List.append_assoc, List.cons_append]

theorem passes_again (enters : movesTo entering = some active)
    (again : ¬ (active :: after.filterMap movesTo).IsChain
      fun left right => right = active → left = active) :
    ∃ passed event rest slug, after = passed ++ event :: rest ∧ movesTo event = some active ∧
      slug ≠ active ∧ ((entering :: passed).filterMap movesTo).getLast? = some slug := by
  by_contra never
  apply again
  rw [List.isChain_iff_forall_rel_of_append_cons_cons]
  intro left right front back split same
  by_contra elsewhere
  apply never
  rw [same, ← List.filterMap_cons_some enters] at split
  have shifted : List.filterMap movesTo (entering :: after) =
      (front ++ [left]) ++ active :: back := by simpa using split
  obtain ⟨first, second, whole, upto, onward⟩ := List.filterMap_eq_append_iff.mp shifted
  obtain ⟨skipped, event, rest, rfl, unmoved, names, -⟩ := List.filterMap_eq_cons_iff.mp onward
  cases first with
  | nil => simp at upto
  | cons head passed =>
      obtain ⟨rfl, rfl⟩ := List.cons.inj whole
      refine ⟨passed ++ skipped, event, rest, left, by simp, names, elsewhere, ?_⟩
      rw [← List.cons_append, List.filterMap_append, upto, List.filterMap_eq_nil_iff.mpr unmoved,
        List.append_nil, List.getLast?_concat]

theorem Followed.unentered (followed : Followed states active before entering after)
    (straight : (active :: after.filterMap movesTo).IsChain
      fun left right => right = active → left = active)
    (index : Nat) (slug : String) (beyond : before.length < index) :
    ¬ Enters id states active (before ++ entering :: after) index slug := by
  rintro ⟨within, shown, apart, entered⟩
  obtain ⟨shift, rfl⟩ := Nat.exists_eq_add_of_lt beyond
  have inside : shift < after.length := by
    rw [List.length_append, List.length_cons] at within
    omega
  obtain ⟨passed, event, rest, rfl, rfl⟩ : ∃ passed event rest,
      after = passed ++ event :: rest ∧ passed.length = shift := by
    refine ⟨after.take shift, after[shift], after.drop (shift + 1), ?_, ?_⟩
    · rw [← List.drop_eq_getElem_cons, List.take_append_drop]
    · exact List.length_take_of_le (Nat.le_of_lt inside)
  have here : before ++ entering :: (passed ++ event :: rest) =
      (before ++ entering :: passed) ++ event :: rest := by simp
  have there : before ++ entering :: (passed ++ event :: rest) =
      (before ++ entering :: passed ++ [event]) ++ rest := by simp
  rw [here, List.take_left' (by simp; omega)] at shown
  rw [there, List.take_left' (by simp; omega)] at entered
  have member : event ∈ passed ++ event :: rest := by simp
  rcases enters_named id states active _ event slug shown apart entered with named | ⟨deletes, rests⟩
  · have names := followed.literal event member named
    obtain ⟨other, plain⟩ := followed.later passed event rest rfl names
    obtain rfl : slug = other := Option.some.inj (shown.symm.trans (plain.folded id states _ other))
    have last := plain.named
    rw [List.filterMap_append, List.filterMap_cons_some followed.enters, List.getLast?_append_cons,
      List.getLast?_eq_some_iff] at last
    obtain ⟨front, named⟩ := last
    rw [List.filterMap_append, List.filterMap_cons_some names, ← List.cons_append, named,
      List.append_assoc, List.singleton_append, List.isChain_iff_forall_rel_of_append_cons_cons]
      at straight
    exact apart (straight rfl rfl)
  · exact followed.unrested event member deletes rests

theorem Followed.passes (followed : Followed states active before entering after) :
    ∀ slug, EntersLast id states active (before ++ entering :: after) slug →
      PassesFrom slug active ((before ++ entering :: after).filterMap movesTo) := by
  generalize size : after.length = count
  induction count using Nat.strongRecOn generalizing before entering after with
  | ind count further =>
      by_cases straight : (active :: after.filterMap movesTo).IsChain
          fun left right => right = active → left = active
      · obtain ⟨slug, apart, shown⟩ := followed.shown
        have moved := shown.moved states before slug active entering followed.enters followed.spelled
          followed.defined
        have entered : Enters id states active
          (before ++ entering :: after) before.length slug := by
          refine ⟨by simp, ?_, apart, ?_⟩
          · rw [List.take_left]
            exact shown.folded id states before slug
          · rw [List.take_length_add_append, List.take_one, List.head?_cons, Option.toList_some]
            exact moved.folded id states _ active
        rintro other ⟨index, enters, none⟩
        have same : index = before.length := by
          rcases Nat.lt_trichotomy index before.length with early | same | late
          · exact absurd entered (none _ slug early)
          · exact same
          · exact absurd enters
              (followed.unentered id states active before entering after straight index other late)
        subst same
        obtain rfl : slug = other := Option.some.inj (entered.2.1.symm.trans enters.2.1)
        obtain ⟨earlier, named⟩ := List.getLast?_eq_some_iff.mp shown.named
        refine ⟨earlier, after.filterMap movesTo, ?_, apart, straight⟩
        rw [List.filterMap_append, named, List.filterMap_cons_some followed.enters,
          List.append_assoc, List.singleton_append]
      · obtain ⟨passed, event, rest, slug, rfl, names, apart, last⟩ :=
          passes_again active entering after followed.enters straight
        have onward := followed.onward states active before entering _ passed event rest slug rfl names
          apart last
        have found := further rest.length (by simp [← size]; omega) _ event rest onward rfl
        simpa only [List.append_assoc, List.cons_append] using found

end Passages

/-- A history of a story that was never deleted and only ever in states the catalog still has. -/
structure PlainHistory (states : StateCatalog) (events : List StoryEvent) : Prop where
  created : ∃ atTime title state rest, events = .storyCreated atTime title state :: rest
  undeleted : ∀ event ∈ events, isDeletion event = false
  defined : ∀ event ∈ events, ∀ slug, movesTo event = some slug →
    historicalSlug slug states = slug ∧ states[slug]? ≠ none

section Plain

variable (id : String) (states : StateCatalog) (active : String) (events : List StoryEvent)

theorem PlainHistory.shows (plain : PlainHistory states events) (front back : List StoryEvent)
    (split : events = front ++ back) (some : front ≠ []) :
    ∃ slug, ShowsState states front slug := by
  obtain ⟨atTime, title, state, rest, begun⟩ := plain.created
  obtain ⟨first, later, rfl⟩ := List.exists_cons_of_ne_nil some
  obtain ⟨rfl, -⟩ := List.cons.inj (split.symm.trans begun)
  have within (event : StoryEvent) (member : event ∈ .storyCreated atTime title state :: later) :
      event ∈ events := split ▸ List.mem_append_left back member
  obtain ⟨slug, last⟩ : ∃ slug,
      ((.storyCreated atTime title state :: later).filterMap movesTo).getLast? = .some slug := by
    rw [List.filterMap_cons_some (show movesTo _ = .some state from rfl)]
    exact ⟨_, List.getLast?_cons⟩
  obtain ⟨event, member, moved⟩ := List.mem_filterMap.mp (List.mem_of_getLast? last)
  obtain ⟨spelled, defined⟩ := plain.defined event (within event member) slug moved
  refine ⟨slug, ⟨atTime, title, state, List.mem_cons_self⟩, ?_, last, spelled, defined⟩
  rw [List.any_eq_false]
  intro other inside
  rw [plain.undeleted other (within other ((List.rtakeWhile_suffix _ _).subset inside))]
  exact Bool.false_ne_true

theorem PlainHistory.literal (plain : PlainHistory states events) (event : StoryEvent)
    (member : event ∈ events) (named : namedSlug states event = some active) :
    movesTo event = some active := by
  rw [namedSlug_movesTo] at named
  obtain ⟨slug, moved, respelled⟩ := Option.map_eq_some_iff.mp named
  rw [moved, ← respelled, (plain.defined event member slug moved).1]

theorem PlainHistory.readable (plain : PlainHistory states events) :
    Readable id states active events := by
  by_cases unentered : ∀ index slug, ¬ Enters id states active events index slug
  · exact Or.inl unentered
  simp only [not_forall, not_not] at unentered
  obtain ⟨index, slug, within, shown, apart, entered⟩ := unentered
  have split : events = events.take index ++ events[index] :: events.drop (index + 1) := by
    rw [← List.drop_eq_getElem_cons, List.take_append_drop]
  rw [List.take_add_one, List.getElem?_eq_getElem within, Option.toList_some] at entered
  generalize events.take index = before, events[index] = entering,
    events.drop (index + 1) = after at split shown entered
  have member : entering ∈ events := split ▸ by simp
  have some : before ≠ [] := by
    rintro rfl
    cases shown
  obtain ⟨state, plainly⟩ := plain.shows states events before _ split some
  obtain rfl : slug = state := Option.some.inj (shown.symm.trans
    (plainly.folded id states before state))
  have enters : movesTo entering = .some active := by
    rcases enters_named id states active before entering slug shown apart entered with
      named | ⟨deletes, -⟩
    · exact plain.literal states active events entering member named
    · rw [plain.undeleted entering member] at deletes
      cases deletes
  obtain ⟨spelled, defined⟩ := plain.defined entering member active enters
  refine Or.inr ⟨before, entering, after, split, spelled, defined, ⟨slug, apart, plainly⟩, enters,
    ?_, ?_, ?_⟩
  · exact fun event inside => plain.literal states active events event (split ▸ by simp [inside])
  · intro event inside deletes
    rw [plain.undeleted event (split ▸ by simp [inside])] at deletes
    cases deletes
  · rintro passed event rest rfl -
    exact plain.shows states events (before ++ entering :: passed) (event :: rest)
      (by simp [split]) (by simp)

end Plain

theorem unclaim_readable (id : String) (states : StateCatalog) (active : String)
    (events : List StoryEvent) :
    stateClaimedFrom events active ≠ some active ∧
      (Readable id states active events → UnclaimAgrees id states active events) := by
  obtain ⟨never, agrees⟩ := unclaim_agrees_iff id states active events
  refine ⟨never, fun readable => agrees.mpr ?_⟩
  rcases readable with unentered | ⟨before, entering, after, rfl, followed⟩
  · rintro slug ⟨index, entered, -⟩
    exact absurd entered (unentered index slug)
  · exact followed.passes id states active before entering after

/-- A catalog whose OPEN state `review` comes before the active one. -/
def reviewStates : StateCatalog := stateMap [
  ⟨"todo", .open, none, none⟩, ⟨"review", .open, none, none⟩,
  ⟨"in-progress", .open, some stateRoleActive, none⟩, ⟨"dropped", .closed, none, none⟩]

/-- A story claimed, closed and deleted in the old way, put back into `todo` and claimed twice. -/
def recoveredHistory : List StoryEvent := [
  .storyCreated "t0" "title" "review",
  .storyStateChanged "t1" "in-progress",
  .storyClosedAndArchived "t2" "closed",
  .storyDeleted "t3" "obsolete",
  .storyStateChanged "t4" "todo",
  .storyStateChanged "t5" "in-progress",
  .storyStateChanged "t6" "in-progress"]

theorem recovered_readable : Readable "SH-1" reviewStates "in-progress" recoveredHistory := by
  refine Or.inr ⟨recoveredHistory.take 5, _, recoveredHistory.drop 6, rfl, by decide +kernel,
    by decide +kernel, ⟨"todo", by decide, ⟨_, _, _, List.mem_cons_self⟩, by decide +kernel, rfl,
      by decide +kernel, by decide +kernel⟩, rfl, ?_, ?_, ?_⟩
  · intro event member
    rw [List.mem_singleton.mp member]
    exact fun _ => rfl
  · intro event member deletes
    rw [List.mem_singleton.mp member] at deletes
    cases deletes
  · intro passed event rest split names
    cases passed with
    | nil =>
        exact ⟨"in-progress", ⟨_, _, _, List.mem_cons_self⟩, by decide +kernel, rfl,
          by decide +kernel, by decide +kernel⟩
    | cons _ tail => simp [recoveredHistory] at split

theorem unclaim_recovered :
    EntersLast "SH-1" reviewStates "in-progress" recoveredHistory "todo" ∧
      UnclaimAgrees "SH-1" reviewStates "in-progress" recoveredHistory := by
  constructor
  · refine ⟨5, ⟨by decide, rfl, by decide, rfl⟩, fun later other after enters => ?_⟩
    obtain rfl : later = 6 := by
      have within : later < 7 := enters.1
      omega
    exact enters.2.2.1 (Option.some.inj (enters.2.1.symm.trans rfl))
  · exact (unclaim_readable "SH-1" reviewStates "in-progress" recoveredHistory).2 recovered_readable

/-- A claimed story that was deleted in the old way and claimed again. -/
def reclaimedHistory : List StoryEvent := [
  .storyCreated "t0" "title" "review",
  .storyStateChanged "t1" "in-progress",
  .storyDeleted "t2" "obsolete",
  .storyStateChanged "t3" "in-progress"]

/-- It is put back into `review`, though it was claimed out of `dropped`. -/
theorem unclaim_skips_deletion : ¬ ∀ id states active events,
    UnclaimAgrees id states active events := by
  intro agrees
  have entered : EntersLast "SH-1" reviewStates "in-progress" reclaimedHistory "dropped" := by
    refine ⟨3, ⟨by decide, rfl, by decide, rfl⟩, fun later other after enters => ?_⟩
    have within : later < 4 := enters.1
    omega
  exact absurd (agrees _ _ _ _ _ entered).1 (by decide +kernel)

end Storyhook.Service
