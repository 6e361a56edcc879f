import Storyhook.Domain.Closure
import Storyhook.Service.BothEnds
import Storyhook.Service.Hierarchy
import Storyhook.Service.ReadModel

/-! What taking a relation back does to where its two stories stand. -/

namespace Storyhook.Service

open Storyhook.Domain Storyhook.Store
open Library Library.Outcome

/-- Where a story stands: its state, its closing time and what it is awaiting. -/
def lifecycle (snapshot : StorySnapshot) : String × SuperState × Option String × Option String :=
  (snapshot.state, snapshot.superstate, snapshot.closedAt, snapshot.awaiting)

def isStateEvent : StoryEvent → Bool
  | .storyCreated .. | .storyStateChanged .. | .storyStateCleared .. | .storyClosedAndArchived ..
  | .storyDeleted .. => true
  | _ => false

def stateHistory (db : Database) (no : StoryNo) : List StoryEvent :=
  (history db no).filter isStateEvent

/-- Whether a story's row is what its history folds to. -/
def InStep (db : Database) (no : StoryNo) : Prop :=
  ∀ row : StoryRow, db.stories[no]? = some row →
    foldStory (toId db.idPrefix no) (history db no) (stateMap db.states) = .ok row.snapshot

/-- Whether taking back the relation leaves the story without children. -/
def LosesLastChild (row : StoryRow) (relation otherId : String) : Prop :=
  relation = "parent-of" ∧
    row.snapshot.relationships.filter (·.relation == "parent-of") = [⟨"parent-of", otherId⟩]

section Ends

variable (db after : Database) (no : StoryNo) (relation otherId : String)

/-- An epic that loses its last child takes the state it was shown in; no other end moves. -/
structure EndFramed : Prop where
  untouched : ∀ row later : StoryRow, db.stories[no]? = some row → after.stories[no]? = some later →
    ¬ (isEpic row.snapshot = true ∧ LosesLastChild row relation otherId) →
      lifecycle later.snapshot = lifecycle row.snapshot ∧ stateHistory after no = stateHistory db no
  restated : ∀ row later : StoryRow, db.stories[no]? = some row → after.stories[no]? = some later →
    isEpic row.snapshot = true → LosesLastChild row relation otherId →
      ∀ shown, (storyMap db)[row.snapshot.id]? = some shown → later.snapshot.state = shown.state

/-- Whether a story of the history would rest in a state it moved to: a deletion in force gives
way to an open state only. -/
def RestsIn (slug : String) : Prop :=
  (replay (stateMap db.states) (history db no)).legacyDeletionActive = true →
    namesOpenState (stateMap db.states) slug = true ∨
      ∀ closing ∈ restingStateForClosure (stateMap db.states), closing.slug = slug

/-- A story that loses its last child is an epic, and would rest in the state it is shown in. -/
def EndPlain : Prop :=
  ∀ row : StoryRow, db.stories[no]? = some row → LosesLastChild row relation otherId →
    isEpic row.snapshot = true ∧
      ∀ shown, (storyMap db)[row.snapshot.id]? = some shown → RestsIn db no shown.state

end Ends

/-- What taking a relation back owes both of its ends. -/
def RemovalFramed (db after : Database) (a relation b : String) : Prop :=
  ∀ aNo bNo name inverse, a = toId db.idPrefix aNo → b = toId db.idPrefix bNo →
    relationEdges relation = some [(name, inverse)] →
      EndFramed db after aNo name b ∧ EndFramed db after bNo inverse a

def RemovalPlain (db : Database) (a relation b : String) : Prop :=
  ∀ aNo bNo name inverse, a = toId db.idPrefix aNo → b = toId db.idPrefix bNo →
    relationEdges relation = some [(name, inverse)] →
      EndPlain db aNo name b ∧ EndPlain db bNo inverse a

def Removes (events : List StoryEvent) : Prop :=
  ∀ event ∈ events, ∃ now otherId relation, event = .storyRelationshipRemoved now otherId relation

section Replay

variable (states : StateCatalog) (acc : FoldState)

theorem Removes.stays (events : List StoryEvent) (removes : Removes events) :
    let after := events.foldl (foldStep states) acc
    after.state = acc.state ∧ after.legacyDeletionActive = acc.legacyDeletionActive ∧
      after.closedAt = acc.closedAt ∧ after.awaiting = acc.awaiting := by
  induction events generalizing acc with
  | nil => exact ⟨rfl, rfl, rfl, rfl⟩
  | cons event rest further =>
      obtain ⟨own, others⟩ := List.forall_mem_cons.mp removes
      obtain ⟨now, otherId, relation, rfl⟩ := own
      exact further _ others

theorem Removes.stateless (events : List StoryEvent) (removes : Removes events) :
    events.filter isStateEvent = [] := by
  refine List.filter_eq_nil_iff.mpr fun event member => ?_
  obtain ⟨now, otherId, relation, rfl⟩ := removes event member
  exact Bool.false_ne_true

theorem historicalSlug_defined (slug : String) (target : StateDef)
    (known : states[slug]? = some target) : historicalSlug slug states = slug := by
  rw [historicalSlug, if_neg]
  rintro ⟨rfl, missing, -⟩
  rw [missing] at known
  cases known

theorem transition_replay (target : StateDef) (awaiting : Bool) (now : String)
    (known : states[target.slug]? = some target) :
    let after := (stateTransitionEvents target awaiting now []).foldl (foldStep states) acc
    after.state = some target.slug ∧
      after.legacyDeletionActive =
        (acc.legacyDeletionActive && !namesOpenState states target.slug) := by
  have named := historicalSlug_defined states target.slug target known
  have moved : (foldStep states acc (.storyStateChanged now target.slug)).state = some target.slug ∧
      (foldStep states acc (.storyStateChanged now target.slug)).legacyDeletionActive =
        (acc.legacyDeletionActive && !namesOpenState states target.slug) := by
    rw [foldStep_state, foldStep_deletion]
    simp [namedSlug, named, reopens, isDeletion, Bool.and_comm]
  unfold stateTransitionEvents
  split
  · cases awaiting with
    | true => exact ⟨congrArg some named, moved.2⟩
    | false => exact ⟨congrArg some named, moved.2⟩
  · exact moved

theorem finishFold_lifecycle (id : String) (other : FoldState) (before later : StorySnapshot)
    (first : finishFold id states acc = .ok before)
    (second : finishFold id states other = .ok later)
    (state : other.state = acc.state)
    (deleted : other.legacyDeletionActive = acc.legacyDeletionActive)
    (closed : other.closedAt = acc.closedAt) (awaiting : other.awaiting = acc.awaiting) :
    lifecycle later = lifecycle before := by
  obtain ⟨slug, _, _, resting, superstate, stands, -, -, rests, rfl⟩ :=
    (finishFold_ok _ _ _ _).mp first
  obtain ⟨slug', _, _, resting', superstate', stands', -, -, rests', rfl⟩ :=
    (finishFold_ok _ _ _ _).mp second
  rw [state, stands, Option.some.injEq] at stands'
  rw [deleted, ← stands', rests, Except.ok.injEq, Prod.mk.injEq] at rests'
  simp only [lifecycle, FoldState.snapshot, closed, awaiting, rests']

theorem finishFold_rests (id : String) (later : StorySnapshot) (target : StateDef)
    (folded : finishFold id states acc = .ok later) (state : acc.state = some target.slug)
    (known : states[target.slug]? = some target) :
    later.state = target.slug ↔ (acc.legacyDeletionActive = true →
      ∀ closing ∈ restingStateForClosure states, closing.slug = target.slug) := by
  obtain ⟨stood, _, _, resting, superstate, stands, -, -, rests, rfl⟩ :=
    (finishFold_ok _ _ _ _).mp folded
  rw [state, Option.some.injEq] at stands
  subst stands
  show resting = target.slug ↔ _
  unfold restingState at rests
  split at rests
  · next deleted =>
      split at rests
      · next found closing =>
          cases rests
          simp [deleted, closing]
      · next none =>
          cases rests
          simp [none]
  · next kept =>
      rw [known] at rests
      cases rests
      simp [kept]

theorem moved_rests (id : String) (later : StorySnapshot) (target : StateDef) (awaiting : Bool)
    (now : String) (earlier retracted : List StoryEvent) (removes : Removes earlier)
    (retracts : Removes retracted) (known : states[target.slug]? = some target)
    (folded : finishFold id states ((earlier ++ stateTransitionEvents target awaiting now [] ++
      retracted).foldl (foldStep states) acc) = .ok later) :
    later.state = target.slug ↔ (acc.legacyDeletionActive = true →
      namesOpenState states target.slug = true ∨
        ∀ closing ∈ restingStateForClosure states, closing.slug = target.slug) := by
  rw [List.foldl_append, List.foldl_append] at folded
  obtain ⟨-, first, -⟩ := removes.stays states acc
  obtain ⟨stood, moved⟩ := transition_replay states (earlier.foldl (foldStep states) acc) target
    awaiting now known
  obtain ⟨state, deleted, -⟩ := retracts.stays states ((stateTransitionEvents target awaiting now
    []).foldl (foldStep states) (earlier.foldl (foldStep states) acc))
  rw [finishFold_rests states _ id later target folded (state.trans stood) known, deleted, moved,
    first, Bool.and_eq_true, Bool.not_eq_true']
  grind

end Replay

structure Follows (db after : Database) (no : StoryNo) (events : List StoryEvent) : Prop where
  idPrefix : after.idPrefix = db.idPrefix
  states : after.states = db.states
  own : history after no = history db no ++ events
  stays : InStep db no → InStep after no
  present : db.stories[no]? ≠ none → after.stories[no]? ≠ none

section Follows

variable (ctx : Ctx) (db middle after : Database) (no : StoryNo)

theorem Follows.refl : Follows db db no [] :=
  ⟨rfl, rfl, (List.append_nil _).symm, id, id⟩

theorem Follows.trans (events more : List StoryEvent) (first : Follows db middle no events)
    (second : Follows middle after no more) : Follows db after no (events ++ more) where
  idPrefix := second.idPrefix.trans first.idPrefix
  states := second.states.trans first.states
  own := by rw [second.own, first.own, List.append_assoc]
  stays := second.stays ∘ first.stays
  present := second.present ∘ first.present

theorem Wrote.follows (events : List StoryEvent) (snapshot : StorySnapshot)
    (wrote : Wrote db after no events snapshot) : Follows db after no events where
  idPrefix := wrote.idPrefix
  states := wrote.states
  own := wrote.own
  stays := by
    intro _ row stored
    obtain ⟨later, found, same, -⟩ := wrote.row
    rw [found, Option.some.injEq] at stored
    rw [← stored, same, wrote.idPrefix, wrote.states, wrote.own]
    exact wrote.folded
  present := by
    intro _ absent
    obtain ⟨later, found, -⟩ := wrote.row
    rw [found] at absent
    cases absent

theorem Wrote.passes (story : StoryNo) (events : List StoryEvent) (snapshot : StorySnapshot)
    (wrote : Wrote db after story events snapshot) (other : story ≠ no) :
    Follows db after no [] where
  idPrefix := wrote.idPrefix
  states := wrote.states
  own := by rw [wrote.history_elsewhere _ _ _ _ _ no other, List.append_nil]
  stays := by
    intro before row stored
    rw [wrote.row_elsewhere _ _ _ _ _ no other] at stored
    rw [wrote.idPrefix, wrote.states, wrote.history_elsewhere _ _ _ _ _ no other]
    exact before row stored
  present := by
    rw [wrote.row_elsewhere _ _ _ _ _ no other]
    exact id

theorem appendSome_follows (story : StoryNo) (expected : ExpectedSeq) (events : List StoryEvent)
    (written : appendSome ctx db story expected events = .ok after) :
    Follows db after no (if story = no then events else []) := by
  unfold appendSome at written
  split at written
  · next blank =>
      cases written
      rw [List.isEmpty_iff.mp blank, ite_self]
      exact Follows.refl db no
  · obtain ⟨⟨result, snapshot⟩, ran, rfl⟩ := (map_eq_ok _ _ _).mp written
    have wrote := appendAndFold_ok ctx db result story expected events snapshot ran
    split
    · next own => exact own ▸ wrote.follows db result story events snapshot
    · next other => exact wrote.passes db result no story events snapshot other

/-- What follows for a story from writes that only take relations back. -/
def Retracts (db after : Database) (no : StoryNo) : Prop :=
  ∃ events, Removes events ∧ Follows db after no events

theorem Retracts.refl : Retracts db db no :=
  ⟨[], fun _ none => absurd none List.not_mem_nil, Follows.refl db no⟩

theorem Retracts.trans (first : Retracts db middle no) (second : Retracts middle after no) :
    Retracts db after no := by
  obtain ⟨events, removes, follows⟩ := first
  obtain ⟨more, removes', follows'⟩ := second
  exact ⟨events ++ more, List.forall_mem_append.mpr ⟨removes, removes'⟩,
    follows.trans db middle after no events more follows'⟩

theorem appendSome_retracts (story : StoryNo) (expected : ExpectedSeq) (events : List StoryEvent)
    (removes : Removes events)
    (written : appendSome ctx db story expected events = .ok after) : Retracts db after no := by
  refine ⟨_, ?_, appendSome_follows ctx db after no story expected events written⟩
  split
  · exact removes
  · exact fun _ none => absurd none List.not_mem_nil

theorem retractDependent_retracts (blockerId : String) (dependent : StoryNo)
    (ran : retractDependent ctx blockerId db dependent = .ok after) : Retracts db after no := by
  unfold retractDependent at ran
  split at ran
  · cases ran
    exact Retracts.refl db no
  · next row stored =>
      split at ran
      · refine appendSome_retracts ctx db after no dependent (.exact row.headSeq)
          [.storyRelationshipRemoved ctx.now blockerId "blocked-by"] (fun event member => ?_) ran
        rw [List.mem_singleton.mp member]
        exact ⟨_, _, _, rfl⟩
      · cases ran
        exact Retracts.refl db no

theorem retractIf_retracts (closes : Bool) (story : StoryNo)
    (ran : retractIf ctx closes db story = .ok after) : Retracts db after no := by
  unfold retractIf at ran
  split at ran
  · obtain ⟨⟨result, events⟩, retracted, rfl⟩ := (map_eq_ok _ _ _).mp ran
    simp only [retractClosedBlockerEdges, bind_eq_ok, pure_eq_ok, demand_ok, Prod.mk.injEq]
      at retracted
    obtain ⟨middle, loop, row, stored, last, written, rfl, -⟩ := retracted
    have dependents : Retracts db middle no := foldlM_ok _
      (fun _ state => Retracts db state no) _ (fun _ dependent _ before next _ earlier stepped =>
        earlier.trans db before next no
          (retractDependent_retracts ctx before next no _ dependent stepped))
      db middle (Retracts.refl db no) loop
    refine dependents.trans db middle last no
      (appendSome_retracts ctx middle last no story _ _ (fun event member => ?_) written)
    obtain ⟨dependent, -, rfl⟩ := List.mem_map.mp member
    exact ⟨_, _, _, rfl⟩
  · cases ran
    exact Retracts.refl db no

end Follows

/-- What taking a relation back writes to one of its ends. -/
structure EndWritten (ctx : Ctx) (db after : Database) (no : StoryNo) (id : String)
    (row : StoryRow) (relation otherId : String) : Prop where
  named : id = toId db.idPrefix no
  stored : db.stories[no]? = some row
  written : ∃ settled closes retracted, settleParent ctx (stateMap db.states) (storyMap db) id row
      (edgeEvents ctx.now row.snapshot relation otherId true) true = .ok (settled, closes) ∧
    Removes retracted ∧ Follows db after no (settled ++ retracted)

theorem relate_ends (ctx : Ctx) (db after : Database) (a relation b : String)
    (outcome : RelationOutcome) (ran : relate ctx db a relation b true = .ok (after, outcome)) :
    ∃ aNo bNo aRow bRow name inverse, relationEdges relation = some [(name, inverse)] ∧
      EndWritten ctx db after aNo a aRow name b ∧ EndWritten ctx db after bNo b bRow inverse a := by
  simp only [relate, bind_eq_ok, demand_ok, refuse_ok, Prod.exists] at ran
  obtain ⟨aNo, aRow, resolved, bNo, bRow, found, -, apart, edges, known, -, -, ⟨⟩, -, aEvents,
    aCloses, aSettled, bEvents, bCloses, bSettled, written⟩ := ran
  obtain ⟨spelledA, storedA, -⟩ := resolveOpenStory_ok db a aNo aRow resolved
  obtain ⟨spelledB, storedB⟩ := resolveStory_ok db b bNo bRow found
  obtain ⟨⟨name, inverse⟩, rfl⟩ := relationEdges_single relation edges known
  have other : bNo ≠ aNo := by
    rintro rfl
    rw [spelledA, spelledB] at apart
    simp at apart
  simp only [List.flatMap_cons, List.flatMap_nil, List.append_nil] at aSettled bSettled
  have follows : ∃ retractedA retractedB, Removes retractedA ∧ Removes retractedB ∧
      Follows db after aNo (aEvents ++ retractedA) ∧ Follows db after bNo
        (bEvents ++ retractedB) := by
    have none : Removes [] := fun _ none => absurd none List.not_mem_nil
    split at written
    · next blank =>
        rw [Bool.and_eq_true] at blank
        cases written
        rw [List.isEmpty_iff.mp blank.1, List.isEmpty_iff.mp blank.2]
        exact ⟨[], [], none, none, Follows.refl db aNo, Follows.refl db bNo⟩
    · simp only [bind_eq_ok, pure_eq_ok, demand_ok, Prod.mk.injEq] at written
      obtain ⟨first, bWritten, second, aWritten, third, aRetracted, last, bRetracted, -,
        -, rfl, -⟩ :=
        written
      have later (no : StoryNo) : Retracts second last no :=
        (retractIf_retracts ctx second third no aCloses aNo aRetracted).trans second third last no
          (retractIf_retracts ctx third last no bCloses bNo bRetracted)
      obtain ⟨retractedA, removesA, followsA⟩ := later aNo
      obtain ⟨retractedB, removesB, followsB⟩ := later bNo
      have ownA := (appendSome_follows ctx db first aNo bNo _ _ bWritten).trans db first second aNo
        _ _ (appendSome_follows ctx first second aNo aNo _ _ aWritten)
      have ownB := (appendSome_follows ctx db first bNo bNo _ _ bWritten).trans db first second bNo
        _ _ (appendSome_follows ctx first second bNo aNo _ _ aWritten)
      rw [if_neg other, if_pos rfl, List.nil_append] at ownA
      rw [if_pos rfl, if_neg (Ne.symm other), List.append_nil] at ownB
      exact ⟨retractedA, retractedB, removesA, removesB, ownA.trans db second last aNo _ _ followsA,
        ownB.trans db second last bNo _ _ followsB⟩
  obtain ⟨retractedA, retractedB, removesA, removesB, followsA, followsB⟩ := follows
  exact ⟨aNo, bNo, aRow, bRow, name, inverse, known,
    ⟨spelledA, storedA, aEvents, aCloses, retractedA, aSettled, removesA, followsA⟩,
    ⟨spelledB, storedB, bEvents, bCloses, retractedB, bSettled, removesB, followsB⟩⟩

section Settle

variable (now : String) (row : StoryRow) (relation otherId : String)

theorem edgeEvents_removes : Removes (edgeEvents now row.snapshot relation otherId true) := by
  intro event member
  simp only [edgeEvents, if_true] at member
  split at member
  · rw [List.mem_singleton.mp member]
    exact ⟨now, otherId, relation, rfl⟩
  · cases member

theorem losesLastChild_iff :
    losesLastChild row.snapshot (edgeEvents now row.snapshot relation otherId true) = true ↔
      LosesLastChild row relation otherId := by
  simp only [losesLastChild, edgeEvents, if_true, Bool.and_eq_true, beq_iff_eq, LosesLastChild]
  constructor
  · rintro ⟨single, removed⟩
    split at removed
    · next held =>
        simp only [List.any_cons, List.any_nil, Bool.or_false, beq_iff_eq] at removed
        subst removed
        obtain ⟨only, listed⟩ := List.length_eq_one_iff.mp single
        have member : StoryRelation.mk "parent-of" otherId ∈
            row.snapshot.relationships.filter (·.relation == "parent-of") :=
          List.mem_filter.mpr ⟨(hasRelation_iff _ _ _).mp held, by simp⟩
        rw [listed, List.mem_singleton] at member
        exact ⟨rfl, member ▸ listed⟩
    · cases removed
  · rintro ⟨rfl, listed⟩
    have member : StoryRelation.mk "parent-of" otherId ∈ row.snapshot.relationships :=
      (List.mem_filter.mp (listed ▸ List.mem_singleton_self _)).1
    rw [if_pos ((hasRelation_iff _ _ _).mpr member), listed]
    exact ⟨rfl, by simp⟩

theorem settleParent_removal (ctx : Ctx) (states : List StateDef) (effective : StoryMap)
    (id : String) (shown : StorySnapshot) (settled : List StoryEvent) (closes : Bool)
    (present : effective[id]? = some shown)
    (ran : settleParent ctx (stateMap states) effective id row
      (edgeEvents ctx.now row.snapshot relation otherId true) true = .ok (settled, closes)) :
    ¬ LosesLastChild row relation otherId ∧
        settled = edgeEvents ctx.now row.snapshot relation otherId true ∨
      LosesLastChild row relation otherId ∧ ∃ target, (stateMap states)[shown.state]? =
        some target ∧
        settled = edgeEvents ctx.now row.snapshot relation otherId true ++
          stateTransitionEvents target row.snapshot.awaiting.isSome ctx.now [] := by
  rw [settleParent, if_pos rfl, present] at ran
  dsimp only at ran
  rw [← losesLastChild_iff ctx.now]
  split at ran
  · next loses =>
      obtain ⟨target, found, same⟩ := (map_eq_ok _ _ _).mp ran
      cases same
      exact .inr ⟨loses, target, (demand_ok _ _ _).mp found, rfl⟩
  · next keeps =>
      cases ran
      exact .inl ⟨keeps, rfl⟩

end Settle

theorem EndWritten.framed_iff (ctx : Ctx) (db after : Database) (no : StoryNo) (id : String)
    (row : StoryRow) (relation otherId : String)
    (written : EndWritten ctx db after no id row relation otherId) (inStep : InStep db no) :
    EndFramed db after no relation otherId ↔ EndPlain db no relation otherId := by
  obtain ⟨rfl, stored, settled, closes, retracted, settle, removes, follows⟩ := written
  have before := inStep row stored
  have named : row.snapshot.id = toId db.idPrefix no := by
    obtain ⟨_, _, _, _, _, _, _, _, _, shape⟩ := (finishFold_ok _ _ _ _).mp before
    rw [shape]
    rfl
  obtain ⟨shown, present⟩ := storyMap_present db no row stored
  obtain ⟨later, found⟩ := Option.ne_none_iff_exists'.mp
    (follows.present (by rw [stored]; exact Option.some_ne_none row))
  have folded := follows.stays inStep later found
  rw [follows.idPrefix, follows.states, follows.own, foldStory, replay, List.foldl_append,
    ← replay] at folded
  have edges := edgeEvents_removes ctx.now row relation otherId
  rcases settleParent_removal row relation otherId ctx db.states
    (storyMap db) _ shown settled closes
    (named ▸ present) settle with ⟨keeps, rfl⟩ | ⟨loses, target, known, rfl⟩
  · have bare := List.forall_mem_append.mpr ⟨edges, removes⟩
    obtain ⟨state, deleted, closed, awaiting⟩ := Removes.stays (stateMap db.states)
      (replay (stateMap db.states) (history db no)) _ bare
    have same := finishFold_lifecycle _ _ _ _ _ _ before folded state deleted closed awaiting
    refine iff_of_true ⟨?_, ?_⟩ ?_
    · intro row' later' stored' found' _
      cases stored.symm.trans stored'
      cases found.symm.trans found'
      refine ⟨same, ?_⟩
      rw [stateHistory, follows.own, List.filter_append, Removes.stateless _ bare, List.append_nil]
      rfl
    · intro row' later' stored' _ _ loses
      cases stored.symm.trans stored'
      exact absurd loses keeps
    · intro row' stored' loses
      cases stored.symm.trans stored'
      exact absurd loses keeps
  · by_cases epic : isEpic row.snapshot = true
    · obtain ⟨-, slug⟩ := stateMap_some db.states _ target known
      have rests := moved_rests
        (stateMap db.states) _ _ later.snapshot target _ ctx.now _ retracted edges
        removes (slug.symm ▸ known) folded
      rw [slug] at rests
      constructor
      · intro framed row' stored' _
        cases stored.symm.trans stored'
        refine ⟨epic, fun shown' present' => ?_⟩
        cases present.symm.trans present'
        exact rests.mp (framed.restated row later stored found epic loses shown present)
      · intro plain
        refine ⟨fun row' later' stored' _ other => ?_, fun row' later' stored' found' _ _ shown' =>
          fun present' => ?_⟩
        · cases stored.symm.trans stored'
          exact absurd ⟨epic, loses⟩ other
        · cases stored.symm.trans stored'
          cases found.symm.trans found'
          cases present.symm.trans present'
          exact rests.mpr ((plain row stored loses).2 shown present)
    · refine iff_of_false (fun framed => ?_) fun plain => epic (plain row stored loses).1
      have same := (framed.untouched row later stored found fun both => epic both.1).2
      rw [stateHistory, follows.own, List.filter_append, ← stateHistory] at same
      have none := List.append_right_eq_self.mp same
      simp [stateTransitionEvents, isStateEvent] at none

/-- Taking a relation back frames both ends just where both are plain. -/
theorem removal_framed_iff (ctx : Ctx) (db after : Database) (a relation b : String)
    (outcome : RelationOutcome)
    (inStep : ∀ no, a = toId db.idPrefix no ∨ b = toId db.idPrefix no → InStep db no)
    (ran : relate ctx db a relation b true = .ok (after, outcome)) :
    RemovalFramed db after a relation b ↔ RemovalPlain db a relation b := by
  obtain ⟨aNo, bNo, aRow, bRow, name, inverse, known, first, second⟩ :=
    relate_ends ctx db after a relation b outcome ran
  have one := first.framed_iff ctx db after aNo a aRow name b (inStep aNo (.inl first.named))
  have two := second.framed_iff ctx db after bNo b bRow inverse a (inStep bNo (.inr second.named))
  constructor
  · intro framed aNo' bNo' name' inverse' namedA namedB known'
    obtain rfl := toId_injective _ _ _ (first.named.symm.trans namedA)
    obtain rfl := toId_injective _ _ _ (second.named.symm.trans namedB)
    cases known.symm.trans known'
    obtain ⟨framedA, framedB⟩ := framed aNo bNo name inverse first.named second.named known
    exact ⟨one.mp framedA, two.mp framedB⟩
  · intro plain aNo' bNo' name' inverse' namedA namedB known'
    obtain rfl := toId_injective _ _ _ (first.named.symm.trans namedA)
    obtain rfl := toId_injective _ _ _ (second.named.symm.trans namedB)
    cases known.symm.trans known'
    obtain ⟨plainA, plainB⟩ := plain aNo bNo name inverse first.named second.named known
    exact ⟨one.mpr plainA, two.mpr plainB⟩

theorem performs_inStep (idPrefix : String) (states : List StateDef) (types : List String)
    (automationsEnabled : Bool) (db : Database) (no : StoryNo)
    (reached : Runs.Reachable PerformsOpen
      (emptyProject idPrefix states types automationsEnabled) db) : InStep db no :=
  (Runs.reachable_invariant PerformsOpen Agreed _ db
    (emptyProject_agreed idPrefix states types automationsEnabled) performsOpen_agreed
      reached).kept.folded no

def familyOperations (storyType : Option String) : List Operation :=
  [.create { titledStory "parent" [] with storyType := storyType },
    .create (titledStory "child" []), .relate "SH-1" "parent-of" "SH-2" false]

theorem family_inStep (storyType : Option String) (db : Database) (no : StoryNo)
    (ran : (familyOperations storyType).foldlM (perform (plainCtx "t1"))
      (emptyProject "SH" defaultStates defaultTypes true) = .ok db) : InStep db no := by
  refine performs_inStep "SH" defaultStates defaultTypes true db no
    (Runs.foldlM_reachable PerformsOpen (perform (plainCtx "t1")) _ ?_ _ db ran)
  intro operation listed before after performed
  refine ⟨plainCtx "t1", operation, ?_, performed⟩
  simp only [familyOperations, List.mem_cons, List.not_mem_nil, or_false] at listed
  rcases listed with rfl | rfl | rfl <;> rfl

theorem removal_framed_epic : ∃ db after outcome,
    (familyOperations (some "epic")).foldlM (perform (plainCtx "t1"))
        (emptyProject "SH" defaultStates defaultTypes true) = .ok db ∧
      relate (plainCtx "t2") db "SH-1" "parent-of" "SH-2" true = .ok (after, outcome) ∧
        (RemovalFramed db after "SH-1" "parent-of" "SH-2" ↔
          RemovalPlain db "SH-1" "parent-of" "SH-2") := by
  obtain ⟨db, ran, removes⟩ := any_ok _
    (fun db => (relate (plainCtx "t2") db "SH-1" "parent-of" "SH-2" true).toOption.isSome)
    (by decide +kernel : ((familyOperations (some "epic")).foldlM (perform (plainCtx "t1"))
      (emptyProject "SH" defaultStates defaultTypes true)).toOption.any
        (fun db => (relate (plainCtx "t2") db "SH-1" "parent-of" "SH-2" true).toOption.isSome) =
          true)
  cases removed : relate (plainCtx "t2") db "SH-1" "parent-of" "SH-2" true with
  | error refused =>
      rw [removed] at removes
      cases removes
  | ok written =>
      obtain ⟨after, outcome⟩ := written
      exact ⟨db, after, outcome, ran, removed, removal_framed_iff (plainCtx "t2") db after "SH-1"
        "parent-of" "SH-2" outcome (fun no _ => family_inStep (some "epic") db no ran) removed⟩

/-- Taking the only child from a story of no type restates it. -/
theorem removal_restates_plain_parent : ¬ ∀ (db after : Database) (a relation b : String)
    (outcome : RelationOutcome), (∀ no, InStep db no) →
      relate (plainCtx "t2") db a relation b true = .ok (after, outcome) →
        RemovalFramed db after a relation b := by
  intro framed
  obtain ⟨db, ran, restated⟩ := any_ok _
    (fun db => (relate (plainCtx "t2") db "SH-1" "parent-of" "SH-2" true).toOption.any
      fun written => db.idPrefix == "SH" && db.stories[1]?.any (fun row => !isEpic row.snapshot) &&
        written.1.stories[1]?.isSome && decide (stateHistory written.1 1 ≠ stateHistory db 1))
    (by decide +kernel : ((familyOperations none).foldlM (perform (plainCtx "t1"))
      (emptyProject "SH" defaultStates defaultTypes true)).toOption.any
        (fun db => (relate (plainCtx "t2") db "SH-1" "parent-of" "SH-2" true).toOption.any
          fun written => db.idPrefix == "SH" &&
            db.stories[1]?.any (fun row => !isEpic row.snapshot) &&
            written.1.stories[1]?.isSome &&
            decide (stateHistory written.1 1 ≠ stateHistory db 1)) = true)
  obtain ⟨⟨after, outcome⟩, removed, moved⟩ := any_ok _ _ restated
  simp only [Bool.and_eq_true, beq_iff_eq, decide_eq_true_eq, Option.any_eq_true,
    Option.isSome_iff_exists, Bool.not_eq_true'] at moved
  obtain ⟨⟨⟨same, row, stored, plain⟩, later, found⟩, moved⟩ := moved
  have ends := framed db after "SH-1" "parent-of" "SH-2" outcome
    (fun no => family_inStep none db no ran) removed 1 2 "parent-of" "child-of" (by rw [same]; rfl)
      (by rw [same]; rfl) rfl
  refine moved (ends.1.untouched row later stored found fun epic => ?_).2
  rw [plain] at epic
  exact Bool.false_ne_true epic.1

end Storyhook.Service
