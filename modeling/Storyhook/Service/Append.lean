import Storyhook.Domain.Epics
import Storyhook.Domain.RelationReplay
import Storyhook.Store.Append
import Storyhook.Store.RelationClosure

namespace Storyhook.Service

open Storyhook.Domain Storyhook.Store
open Library Library.Outcome

/-- What a command brings to its writes: the time, the lowercase mapping, and the refusals that
rest on records outside these tables. -/
structure Ctx where
  now : String
  toLowercase : List Char → List Char
  admitAppend : Database → StoryNo → List StoryEvent → Except AppError Unit
  refuseDeletion : Database → StoryNo → Except AppError Unit
  wouldCreateParentCycle : StoryMap → String → String → Bool
  undefinedState : String → StateCatalog → AppError

/-- Appends events to a story and folds the result into the read model. -/
def appendAndFold (ctx : Ctx) (db : Database) (story : StoryNo) (expected : ExpectedSeq)
    (events : List StoryEvent) : Except AppError (Database × StorySnapshot) := do
  ctx.admitAppend db story events
  let (appended, head) ← appendEvents db story expected events
  let snapshot ← foldStory (toId db.idPrefix story) (history appended story) (stateMap db.states)
  let written ← putStory appended snapshot head
  return (written, snapshot)

/-- A read model that is the fold of its events, with every claim in the relations table. -/
structure Kept (db : Database) : Prop where
  folded : ∀ (no : StoryNo) (row : StoryRow), db.stories[no]? = some row →
    foldStory (toId db.idPrefix no) (history db no) (stateMap db.states) = .ok row.snapshot
  archived : ∀ (no : StoryNo) (row : StoryRow), db.stories[no]? = some row →
    row.archived = row.snapshot.closedAt.isSome
  logged : ∀ no : StoryNo, db.stories[no]? = none → db.events[no]? = none
  named : ∀ (no : StoryNo) (row : StoryRow), db.stories[no]? = some row →
    ∀ relation ∈ row.snapshot.relationships, ∃ other,
      parseId db.idPrefix relation.otherId = .ok other
  covered : ∀ edge ∈ ledger db, edge ∈ db.relations.rows
  allocated : ∀ (no : StoryNo) (row : StoryRow), db.stories[no]? = some row → no < db.nextStoryNo

/-- What a successful append and fold does to the tables. -/
structure Wrote (db after : Database) (story : StoryNo) (events : List StoryEvent)
    (snapshot : StorySnapshot) : Prop where
  idPrefix : after.idPrefix = db.idPrefix
  states : after.states = db.states
  nextStoryNo : after.nextStoryNo = db.nextStoryNo
  own : history after story = history db story ++ events
  others : ∀ no : StoryNo, story ≠ no → after.events[no]? = db.events[no]?
  folded : foldStory (toId db.idPrefix story) (history db story ++ events) (stateMap db.states) =
    .ok snapshot
  put : ∃ middle head, Appends db middle story events ∧ Put middle after story snapshot head

theorem appendAndFold_ok (ctx : Ctx) (db after : Database) (story : StoryNo)
    (expected : ExpectedSeq) (events : List StoryEvent) (snapshot : StorySnapshot)
    (written : appendAndFold ctx db story expected events = .ok (after, snapshot)) :
    Wrote db after story events snapshot := by
  simp only [appendAndFold, bind_eq_ok, pure_eq_ok, Prod.exists, Prod.mk.injEq] at written
  obtain ⟨-, -, middle, head, appended, folded, result, result', put, rfl, rfl⟩ := written
  have appends := appendEvents_ok db middle story expected events head appended
  rw [appends.history] at result
  obtain ⟨no, parsed, change⟩ := putStory_put middle _ _ head put
  have named : folded.id = toId db.idPrefix story := by
    obtain ⟨_, _, _, _, _, _, _, _, _, rfl⟩ := (finishFold_ok _ _ _ _).mp result
    rfl
  rw [appends.idPrefix, named] at parsed
  have same := toId_injective _ _ _ ((parseId_ok _ _ _).mp parsed).1
  subst same
  refine ⟨change.idPrefix.trans appends.idPrefix, change.states.trans appends.states,
    change.nextStoryNo.trans appends.nextStoryNo, ?_, ?_, result, middle, head, appends, change⟩
  · rw [history, change.events, ← history, appends.history]
  · intro no other
    rw [change.events, appends.elsewhere no other]

section Wrote

variable (db after : Database) (story : StoryNo) (events : List StoryEvent)
  (snapshot : StorySnapshot)

theorem Wrote.row (wrote : Wrote db after story events snapshot) :
    ∃ row : StoryRow, after.stories[story]? = some row ∧ row.snapshot = snapshot ∧
      row.archived = snapshot.closedAt.isSome := by
  obtain ⟨middle, head, -, put⟩ := wrote.put
  refine ⟨_, (Put.row _ _ _ _ _ put story).trans (if_pos rfl), rfl, rfl⟩

theorem Wrote.row_elsewhere (wrote : Wrote db after story events snapshot) (no : StoryNo)
    (other : story ≠ no) : after.stories[no]? = db.stories[no]? := by
  obtain ⟨middle, head, appends, put⟩ := wrote.put
  rw [Put.row _ _ _ _ _ put no, if_neg other, appends.stories]

theorem Wrote.history_elsewhere (wrote : Wrote db after story events snapshot) (no : StoryNo)
    (other : story ≠ no) : history after no = history db no := by
  rw [history, wrote.others no other, history]

theorem Wrote.kept (wrote : Wrote db after story events snapshot) (kept : Kept db)
    (allocated : story < db.nextStoryNo) : Kept after := by
  obtain ⟨middle, head, appends, put⟩ := wrote.put
  have rows := Put.row _ _ _ _ _ put
  refine ⟨?_, ?_, ?_, ?_, ?_, ?_⟩
  · intro no row stored
    rw [rows] at stored
    split at stored
    · next same =>
        cases stored
        subst same
        rw [wrote.idPrefix, wrote.own, wrote.states]
        exact wrote.folded
    · next other =>
        rw [wrote.idPrefix, wrote.states, wrote.history_elsewhere _ _ _ _ _ no other]
        exact kept.folded no row (appends.stories ▸ stored)
  · intro no row stored
    rw [rows] at stored
    split at stored
    · cases stored
      rfl
    · exact kept.archived no row (appends.stories ▸ stored)
  · intro no absent
    rw [rows] at absent
    split at absent
    · cases absent
    · next other =>
        rw [wrote.others no other]
        exact kept.logged no (appends.stories ▸ absent)
  · intro no row stored
    rw [rows] at stored
    rw [wrote.idPrefix]
    split at stored
    · cases stored
      rw [← appends.idPrefix]
      exact put.named
    · exact kept.named no row (appends.stories ▸ stored)
  · intro edge claimed
    have older (apart : story ≠ edge.storyNo) : edge ∈ middle.relations.rows := by
      have before := (Put.stored_elsewhere _ _ _ _ _ put edge.storyNo apart _).mp claimed
      rw [StoredClaim, appends.stories, appends.idPrefix] at before
      rw [appends.relations]
      exact kept.covered edge before
    by_cases own : story = edge.storyNo
    · subst own
      exact put.claimed _ ((Put.stored_own _ _ _ _ _ put _).mp claimed)
    · by_cases toward : story = edge.otherNo
      · obtain ⟨inverse, inverted, back⟩ := middle.relations.mirrored edge (older own)
        have returned := inverseRelation_involutive _ _ inverted
        rw [after.relations.mem_mirror edge.storyNo edge.otherNo _ inverse inverted, ← toward,
          put.own inverse edge.relation edge.storyNo returned]
        rw [← toward] at back
        refine Or.inr ⟨back, ?_⟩
        rw [toward]
        exact claimed
      · rw [put.elsewhere edge (Ne.symm own) (Ne.symm toward)]
        exact older own
  · intro no row stored
    rw [rows] at stored
    rw [wrote.nextStoryNo]
    split at stored
    · next same => exact same ▸ allocated
    · exact kept.allocated no row (appends.stories ▸ stored)

end Wrote

theorem parsedClaims_listed (idPrefix : String) (snapshot : StorySnapshot)
    (named : ∀ relation ∈ snapshot.relationships, ∃ other,
      parseId idPrefix relation.otherId = .ok other) (claim : Claim) :
    claim ∈ parsedClaims idPrefix snapshot ↔
      ⟨claim.relation, toId idPrefix claim.otherNo⟩ ∈ snapshot.relationships := by
  rw [mem_parsedClaims]
  constructor
  · rintro ⟨relation, member, name, parsed⟩
    rw [← name, ← ((parseId_ok _ _ _).mp parsed).1]
    exact member
  · intro member
    obtain ⟨other, parsed⟩ := named _ member
    have same := toId_injective _ _ _ ((parseId_ok _ _ _).mp parsed).1
    exact ⟨_, member, rfl, same ▸ parsed⟩

theorem mem_ledger_row (db : Database) (kept : Kept db) (edge : RelationEdge) (row : StoryRow)
    (stored : db.stories[edge.storyNo]? = some row) :
    edge ∈ ledger db ↔
      ⟨edge.relation, toId db.idPrefix edge.otherNo⟩ ∈ row.snapshot.relationships := by
  rw [← parsedClaims_listed db.idPrefix row.snapshot (kept.named _ row stored)
    ⟨edge.relation, edge.otherNo⟩]
  simp only [ledger, Set.mem_ofPred_eq, StoredClaim, stored, Option.some.injEq, exists_eq_left']

theorem mem_ledger_absent (db : Database) (edge : RelationEdge)
    (absent : db.stories[edge.storyNo]? = none) : edge ∉ ledger db := by
  rintro ⟨row, stored, -⟩
  rw [absent] at stored
  cases stored

theorem mem_ledger_replay (db : Database) (kept : Kept db) (edge : RelationEdge) :
    edge ∈ ledger db ↔ ⟨edge.relation, toId db.idPrefix edge.otherNo⟩ ∈
      (replay (stateMap db.states) (history db edge.storyNo)).relationships := by
  cases stored : db.stories[edge.storyNo]? with
  | some row =>
      rw [mem_ledger_row db kept edge row stored]
      obtain ⟨_, _, _, _, _, _, _, _, _, same⟩ :=
        (finishFold_ok _ _ _ _).mp (kept.folded _ row stored)
      rw [same]
      exact Std.TreeSet.mem_toList
  | none =>
      refine iff_of_false (mem_ledger_absent db edge stored) ?_
      rw [history, kept.logged _ stored]
      exact Std.TreeSet.not_mem_emptyc

/-- The edges a batch of a story's events adds. -/
def added (idPrefix : String) (story : StoryNo) (events : List StoryEvent) : Set RelationEdge :=
  {edge | edge.storyNo = story ∧
    ⟨edge.relation, toId idPrefix edge.otherNo⟩ ∈ events.filterMap addedRelation}

def removed (idPrefix : String) (story : StoryNo) (events : List StoryEvent) : Set RelationEdge :=
  {edge | edge.storyNo = story ∧
    ⟨edge.relation, toId idPrefix edge.otherNo⟩ ∈ events.filterMap removedRelation}

theorem added_one (idPrefix now relation : String) (story other : StoryNo) :
    added idPrefix story [.storyRelationshipAdded now (toId idPrefix other) relation] =
      {⟨story, relation, other⟩} := by
  ext ⟨own, name, far⟩
  simp only [added, Set.mem_ofPred_eq, List.filterMap_cons, addedRelation, List.filterMap_nil,
    List.mem_singleton, StoryRelation.mk.injEq, Set.mem_singleton_iff, RelationEdge.mk.injEq]
  refine and_congr_right fun _ => and_congr_right fun _ => ?_
  exact ⟨toId_injective _ _ _, fun same => congrArg _ same⟩

theorem removed_one (idPrefix now relation : String) (story other : StoryNo) :
    removed idPrefix story [.storyRelationshipRemoved now (toId idPrefix other) relation] =
      {⟨story, relation, other⟩} := by
  ext ⟨own, name, far⟩
  simp only [removed, Set.mem_ofPred_eq, List.filterMap_cons, removedRelation, List.filterMap_nil,
    List.mem_singleton, StoryRelation.mk.injEq, Set.mem_singleton_iff, RelationEdge.mk.injEq]
  refine and_congr_right fun _ => and_congr_right fun _ => ?_
  exact ⟨toId_injective _ _ _, fun same => congrArg _ same⟩

section Ledger

variable (db after : Database) (story : StoryNo) (events : List StoryEvent)
  (snapshot : StorySnapshot) (wrote : Wrote db after story events snapshot) (kept : Kept db)

include wrote kept

theorem archived_kept (row : StoryRow) (stored : db.stories[story]? = some row)
    (still : ∀ event ∈ events, movesClosure event = false) :
    ∃ written : StoryRow, after.stories[story]? = some written ∧
      written.archived = row.archived := by
  obtain ⟨written, found, same, archived⟩ := wrote.row db after story events snapshot
  refine ⟨written, found, ?_⟩
  rw [archived, kept.archived story row stored]
  obtain ⟨_, _, _, _, _, _, _, _, _, before⟩ :=
    (finishFold_ok _ _ _ _).mp (kept.folded story row stored)
  obtain ⟨_, _, _, _, _, _, _, _, _, now⟩ := (finishFold_ok _ _ _ _).mp wrote.folded
  rw [before, now]
  simp only [FoldState.snapshot, replay_closedAt _ _ _ still]

variable (allocated : story < db.nextStoryNo)

include allocated

theorem ledger_added (adds : ∀ event ∈ events, removedRelation event = none) :
    ledger after = ledger db ∪ added db.idPrefix story events := by
  ext edge
  rw [mem_ledger_replay after (wrote.kept db after story events snapshot kept allocated),
    wrote.idPrefix, wrote.states, Set.mem_union, mem_ledger_replay db kept]
  by_cases own : story = edge.storyNo
  · subst own
    rw [wrote.own, replay_adds _ _ _ adds]
    simp [added]
  · rw [wrote.history_elsewhere _ _ _ _ _ _ own]
    simp [added, Ne.symm own]

theorem ledger_removed (removes : ∀ event ∈ events, addedRelation event = none) :
    ledger after = ledger db \ removed db.idPrefix story events := by
  ext edge
  rw [mem_ledger_replay after (wrote.kept db after story events snapshot kept allocated),
    wrote.idPrefix, wrote.states, Set.mem_sdiff, mem_ledger_replay db kept]
  by_cases own : story = edge.storyNo
  · subst own
    rw [wrote.own, replay_removes _ _ _ removes]
    simp [removed]
  · rw [wrote.history_elsewhere _ _ _ _ _ _ own]
    simp [removed, Ne.symm own]

end Ledger

/-- Tables with the same stories, whose read model is still the fold of its events. -/
structure Steady (db after : Database) : Prop where
  kept : Kept after
  idPrefix : after.idPrefix = db.idPrefix
  states : after.states = db.states
  nextStoryNo : after.nextStoryNo = db.nextStoryNo
  present : ∀ no : StoryNo, after.stories[no]? = none ↔ db.stories[no]? = none

theorem Steady.refl (db : Database) (kept : Kept db) : Steady db db :=
  ⟨kept, rfl, rfl, rfl, fun _ => Iff.rfl⟩

theorem Steady.trans (db middle after : Database) (first : Steady db middle)
    (second : Steady middle after) : Steady db after where
  kept := second.kept
  idPrefix := second.idPrefix.trans first.idPrefix
  states := second.states.trans first.states
  nextStoryNo := second.nextStoryNo.trans first.nextStoryNo
  present := fun no => (second.present no).trans (first.present no)

theorem Steady.stored (db after : Database) (steady : Steady db after) (no : StoryNo)
    (row : StoryRow) (stored : db.stories[no]? = some row) :
    ∃ later : StoryRow, after.stories[no]? = some later := by
  rw [← Option.ne_none_iff_exists']
  intro absent
  rw [steady.present no, stored] at absent
  cases absent

/-- A change of the tables that adds just these edges to the histories. -/
structure Gains (db after : Database) (edges : Set RelationEdge) : Prop extends
    Steady db after where
  ledger : ledger after = ledger db ∪ edges

/-- A change of the tables that removes just these edges from the histories. -/
structure Loses (db after : Database) (edges : Set RelationEdge) : Prop extends
    Steady db after where
  ledger : ledger after = ledger db \ edges

theorem Gains.trans (db middle after : Database) (earlier later : Set RelationEdge)
    (first : Gains db middle earlier) (second : Gains middle after later) :
    Gains db after (earlier ∪ later) where
  toSteady := Steady.trans db middle after first.toSteady second.toSteady
  ledger := by rw [second.ledger, first.ledger, Set.union_assoc]

theorem Loses.trans (db middle after : Database) (earlier later : Set RelationEdge)
    (first : Loses db middle earlier) (second : Loses middle after later) :
    Loses db after (earlier ∪ later) where
  toSteady := Steady.trans db middle after first.toSteady second.toSteady
  ledger := by rw [second.ledger, first.ledger, Set.sdiff_sdiff]

theorem Gains.none (db : Database) (kept : Kept db) : Gains db db ∅ where
  toSteady := Steady.refl db kept
  ledger := (Set.union_empty _).symm

theorem Loses.none (db : Database) (kept : Kept db) : Loses db db ∅ where
  toSteady := Steady.refl db kept
  ledger := Set.sdiff_empty.symm

theorem Gains.congr (db after : Database) (edges others : Set RelationEdge)
    (gains : Gains db after edges) (same : Store.ledger db ∪ edges = Store.ledger db ∪ others) :
    Gains db after others where
  toSteady := gains.toSteady
  ledger := gains.ledger.trans same

theorem Loses.congr (db after : Database) (edges others : Set RelationEdge)
    (loses : Loses db after edges) (same : Store.ledger db \ edges = Store.ledger db \ others) :
    Loses db after others where
  toSteady := loses.toSteady
  ledger := loses.ledger.trans same

section AppendStored

variable (ctx : Ctx) (db after : Database) (story : StoryNo) (row : StoryRow)
  (expected : ExpectedSeq) (events : List StoryEvent) (snapshot : StorySnapshot) (kept : Kept db)
  (stored : db.stories[story]? = some row)
  (written : appendAndFold ctx db story expected events = .ok (after, snapshot))

include kept stored written

theorem append_steady : Steady db after := by
  have wrote := appendAndFold_ok ctx db after story expected events snapshot written
  refine ⟨wrote.kept db after story events snapshot kept (kept.allocated story row stored),
    wrote.idPrefix, wrote.states, wrote.nextStoryNo, ?_⟩
  intro no
  by_cases own : story = no
  · subst own
    obtain ⟨later, found, -⟩ := wrote.row db after story events snapshot
    simp [found, stored]
  · rw [wrote.row_elsewhere db after story events snapshot no own]

theorem append_gains (adds : ∀ event ∈ events, removedRelation event = none) :
    Gains db after (added db.idPrefix story events) where
  toSteady := append_steady ctx db after story row expected events snapshot kept stored written
  ledger := ledger_added db after story events snapshot
    (appendAndFold_ok ctx db after story expected events snapshot written) kept
    (kept.allocated story row stored) adds

theorem append_loses (removes : ∀ event ∈ events, addedRelation event = none) :
    Loses db after (removed db.idPrefix story events) where
  toSteady := append_steady ctx db after story row expected events snapshot kept stored written
  ledger := ledger_removed db after story events snapshot
    (appendAndFold_ok ctx db after story expected events snapshot written) kept
    (kept.allocated story row stored) removes

end AppendStored

end Storyhook.Service
