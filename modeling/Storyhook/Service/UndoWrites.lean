import Storyhook.Service.UndoReplay

/-! What an undo writes to the history of its story. -/

namespace Storyhook.Service

open Storyhook.Domain Storyhook.Store
open Library Library.Outcome

/-! ### The parts of a compensation -/

theorem mem_whereDiffer (differ : Bool) (event written : StoryEvent)
    (member : event ∈ whereDiffer differ written) : event = written := by
  cases differ with
  | true => exact List.mem_singleton.mp member
  | false => exact absurd member List.not_mem_nil

section Compensation

variable (ctx : Ctx) (shown goal : StorySnapshot)

theorem compensateType_plain (now : String) (typed : List StoryEvent)
    (ran : compensateType now shown goal = .ok typed) :
    ∀ event ∈ typed, isRelation event = false := by
  rw [compensateType] at ran
  split at ran
  · split at ran
    · cases ran
      exact List.forall_mem_singleton.mpr rfl
    · cases ran
  · cases ran
    exact fun event none => absurd none List.not_mem_nil

theorem fieldEvents_plain (typed : List StoryEvent)
    (ran : compensateType ctx.now shown goal = .ok typed) :
    ∀ event ∈ fieldEvents ctx shown goal typed, isRelation event = false := by
  simp only [fieldEvents, List.forall_mem_append]
  refine ⟨⟨⟨⟨⟨⟨?_, ?_⟩, ?_⟩, ?_⟩, ?_⟩, ?_⟩, compensateType_plain shown goal ctx.now typed ran⟩
  · intro event member
    rw [mem_whereDiffer _ event _ member]
    rfl
  · intro event member
    rw [mem_whereDiffer _ event _ member]
    rfl
  · intro event member
    rw [mem_whereDiffer _ event _ member]
    cases goal.priorityAssessed <;> rfl
  · intro event member
    rw [mem_whereDiffer _ event _ member]
    cases goal.complexityAssessed <;> rfl
  · intro event member
    rw [mem_whereDiffer _ event _ member]
    rfl
  · intro event member
    rw [mem_whereDiffer _ event _ member]
    cases goal.awaiting <;> rfl

theorem compensateState_plain (now : String) :
    ∀ event ∈ compensateState now shown goal, isRelation event = false := by
  rw [compensateState]
  split
  · rw [List.singleton_append, List.forall_mem_cons]
    refine ⟨rfl, ?_⟩
    split
    · rw [List.forall_mem_append]
      refine ⟨fun event member => ?_, List.forall_mem_singleton.mpr rfl⟩
      rw [mem_whereDiffer _ event _ member]
      rfl
    · exact fun event none => absurd none List.not_mem_nil
  · split
    · exact List.forall_mem_singleton.mpr rfl
    · intro event member
      rw [mem_whereDiffer _ event _ member]
      rfl

theorem compensateComments_plain (now : String) :
    ∀ event ∈ compensateComments now shown goal, isRelation event = false := by
  rw [compensateComments, List.forall_mem_append]
  refine ⟨fun event member => ?_, fun event member => ?_⟩
  · obtain ⟨comment, -, rfl⟩ := List.mem_map.mp member
    rfl
  · obtain ⟨comment, -, rfl⟩ := List.mem_map.mp member
    rfl

theorem compensateRelations_relate (now : String) :
    ∀ event ∈ compensateRelations now shown goal, isRelation event = true := by
  rw [compensateRelations, List.forall_mem_append]
  refine ⟨fun event member => ?_, fun event member => ?_⟩
  · obtain ⟨relation, -, rfl⟩ := List.mem_map.mp member
    rfl
  · obtain ⟨relation, -, rfl⟩ := List.mem_map.mp member
    rfl

theorem compensate_parts (compensation : List StoryEvent)
    (ran : compensate ctx shown goal = .ok compensation) :
    ∃ typed, compensateType ctx.now shown goal = .ok typed ∧
      compensation.filter (fun event => !isRelation event) = fieldEvents ctx shown goal typed ++
        compensateState ctx.now shown goal ++ compensateComments ctx.now shown goal ∧
      compensation.filter isRelation = compensateRelations ctx.now shown goal := by
  simp only [compensate, bind_eq_ok, pure_eq_ok] at ran
  obtain ⟨typed, typeRan, rfl⟩ := ran
  refine ⟨typed, typeRan, ?_⟩
  have plain : ∀ event ∈ fieldEvents ctx shown goal typed ++ compensateState ctx.now shown goal ++
      compensateComments ctx.now shown goal, isRelation event = false := by
    rw [List.forall_mem_append, List.forall_mem_append]
    exact ⟨⟨fieldEvents_plain ctx shown goal typed typeRan, compensateState_plain shown goal _⟩,
      compensateComments_plain shown goal _⟩
  have related := compensateRelations_relate shown goal ctx.now
  rw [fieldEvents] at plain ⊢
  constructor
  · rw [List.filter_append, List.filter_eq_self.mpr fun event member => by
      rw [plain event member]
      rfl, List.filter_eq_nil_iff.mpr fun event member => by
      rw [related event member]
      exact Bool.false_ne_true, List.append_nil]
  · rw [List.filter_append, List.filter_eq_nil_iff.mpr fun event member => by
      rw [plain event member]
      exact Bool.false_ne_true, List.filter_eq_self.mpr related, List.nil_append]

end Compensation

/-! ### What an undo writes to the history of its story -/

def NamesOthers (id : String) (snapshot : StorySnapshot) : Prop :=
  ∀ relation ∈ snapshot.relationships, relation.otherId ≠ id

/-- Whether a story's row is what its history folds to, its archive flag included. -/
def Fresh (db : Database) (no : StoryNo) : Prop :=
  ∃ row : StoryRow, db.stories[no]? = some row ∧
    foldStory (toId db.idPrefix no) (history db no) (stateMap db.states) = .ok row.snapshot ∧
    row.archived = row.snapshot.closedAt.isSome

/-- What a run of writes does to one story, whose row is fresh once it was written. -/
structure Advances (db after : Database) (no : StoryNo) (events : List StoryEvent) : Prop extends
    Follows db after no events where
  fresh : events ≠ [] ∨ Fresh db no → Fresh after no

section Advances

variable (ctx : Ctx) (db middle after : Database) (no : StoryNo)

theorem Advances.refl : Advances db db no [] :=
  ⟨Follows.refl db no, fun cases => cases.resolve_left fun apart => apart rfl⟩

theorem Advances.trans (events more : List StoryEvent) (first : Advances db middle no events)
    (second : Advances middle after no more) : Advances db after no (events ++ more) where
  toFollows := first.toFollows.trans db middle after no events more second.toFollows
  fresh := by
    intro written
    refine second.fresh ?_
    by_cases none : more = []
    · right
      refine first.fresh (written.imp_left fun some => ?_)
      rwa [none, List.append_nil] at some
    · exact .inl none

theorem Wrote.advances (events : List StoryEvent) (snapshot : StorySnapshot)
    (wrote : Wrote db after no events snapshot) : Advances db after no events where
  toFollows := wrote.follows db after no events snapshot
  fresh := by
    intro _
    obtain ⟨row, found, rfl, archived⟩ := wrote.row
    refine ⟨row, found, ?_, archived⟩
    rw [wrote.idPrefix, wrote.states, wrote.own]
    exact wrote.folded

theorem Wrote.advances_elsewhere (story : StoryNo) (events : List StoryEvent)
    (snapshot : StorySnapshot) (wrote : Wrote db after story events snapshot) (other : story ≠ no) :
    Advances db after no [] where
  toFollows := wrote.passes db after no story events snapshot other
  fresh := by
    intro before
    obtain ⟨row, found, folded, archived⟩ := before.resolve_left fun apart => apart rfl
    refine ⟨row, ?_, ?_, archived⟩
    · rw [wrote.row_elsewhere _ _ _ _ _ no other, found]
    · rw [wrote.idPrefix, wrote.states, wrote.history_elsewhere _ _ _ _ _ no other, folded]

theorem append_advances (story : StoryNo) (expected : ExpectedSeq) (events : List StoryEvent)
    (snapshot : StorySnapshot)
    (written : appendAndFold ctx db story expected events = .ok (after, snapshot)) :
    Advances db after no (if story = no then events else []) := by
  have wrote := appendAndFold_ok ctx db after story expected events snapshot written
  split
  · next own => exact own ▸ wrote.advances db after story events snapshot
  · next other => exact wrote.advances_elsewhere db after no story events snapshot other

theorem appendSome_advances (story : StoryNo) (expected : ExpectedSeq) (events : List StoryEvent)
    (written : appendSome ctx db story expected events = .ok after) :
    Advances db after no (if story = no then events else []) := by
  unfold appendSome at written
  split at written
  · next blank =>
      cases written
      rw [List.isEmpty_iff.mp blank, ite_self]
      exact Advances.refl db no
  · obtain ⟨⟨result, snapshot⟩, ran, rfl⟩ := (map_eq_ok _ _ _).mp written
    exact append_advances ctx db result no story expected events snapshot ran

/-- The table of relations refuses an edge from a story to itself. -/
theorem Wrote.names_others (events : List StoryEvent) (snapshot : StorySnapshot)
    (wrote : Wrote db after no events snapshot) :
    NamesOthers (toId db.idPrefix no) snapshot := by
  intro relation member same
  obtain ⟨middle, head, appends, put⟩ := wrote.put
  obtain ⟨other, parsed⟩ := put.named relation member
  have spelled := ((parseId_ok _ _ _).mp parsed).1
  rw [appends.idPrefix, same] at spelled
  obtain rfl := toId_injective _ _ _ spelled
  have claimed := put.claimed ⟨relation.relation, no⟩
    ((mem_parsedClaims _ _ _).mpr ⟨relation, member, rfl, parsed⟩)
  exact after.relations.apart _ claimed rfl

theorem Wrote.told (events : List StoryEvent) (snapshot : StorySnapshot)
    (wrote : Wrote db after no events snapshot) (relation : StoryRelation) :
    relation ∈ snapshot.relationships ↔
      relation ∈ (replay (stateMap db.states) (history db no ++ events)).relationships := by
  obtain ⟨_, _, _, _, _, -, -, -, -, rfl⟩ := (finishFold_ok _ _ _ _).mp wrote.folded
  exact Std.TreeSet.mem_toList

theorem Wrote.takes_own (events : List StoryEvent) (snapshot : StorySnapshot)
    (wrote : Wrote db after no events snapshot) (relation : StoryRelation)
    (told : relation ∈ (replay (stateMap db.states) (history db no)).relationships)
    (own : relation.otherId = toId db.idPrefix no) :
    relation ∈ events.filterMap removedRelation := by
  by_contra kept
  refine wrote.names_others db after no events snapshot relation ?_ own
  rw [wrote.told]
  exact replay_keeps _ _ events relation told kept

theorem restoreRelation_near (event : StoryEvent) (related : isRelation event = true)
    (ran : restoreRelation ctx no db event = .ok after) :
    ∃ near first, Wrote db near no [event] first := by
  cases event with
  | storyRelationshipAdded atTime otherId relation =>
      simp only [restoreRelation, bind_eq_ok, Prod.exists] at ran
      obtain ⟨other, -, inverse, -, near, first, nearRan, -⟩ := ran
      exact ⟨near, first, appendAndFold_ok ctx db near no .any _ first nearRan⟩
  | storyRelationshipRemoved atTime otherId relation =>
      simp only [restoreRelation, bind_eq_ok, Prod.exists] at ran
      obtain ⟨other, -, inverse, -, near, first, nearRan, -⟩ := ran
      exact ⟨near, first, appendAndFold_ok ctx db near no .any _ first nearRan⟩
  | _ => cases related

/-- The first write of an undo, be it to the fields of the story or to its edges. -/
theorem restored_first (moved : Database) (plain related : List StoryEvent)
    (some : plain ++ related ≠ []) (relates : ∀ event ∈ related, isRelation event = true)
    (own : appendSome ctx db no .any plain = .ok moved)
    (relating : related.foldlM (restoreRelation ctx no) moved = .ok after) :
    ∃ batch near first, (∀ event ∈ batch, event ∈ plain ++ related) ∧
      Wrote db near no batch first := by
  unfold appendSome at own
  split at own
  · next blank =>
      cases own
      rw [List.isEmpty_iff.mp blank, List.nil_append] at some ⊢
      cases related with
      | nil => exact absurd rfl some
      | cons event rest =>
          rw [List.foldlM_cons, bind_eq_ok] at relating
          obtain ⟨next, stepped, -⟩ := relating
          obtain ⟨near, first, wrote⟩ := restoreRelation_near ctx db next no event
            (relates event List.mem_cons_self) stepped
          refine ⟨[event], near, first, ?_, wrote⟩
          exact List.forall_mem_singleton.mpr List.mem_cons_self
  · obtain ⟨⟨result, snapshot⟩, ran, rfl⟩ := (map_eq_ok _ _ _).mp own
    exact ⟨plain, result, snapshot, fun event member => List.mem_append_left _ member,
      appendAndFold_ok ctx db result no .any plain snapshot ran⟩

theorem restoreRemoval_advances (atTime otherId relation : String)
    (ran : restoreRelation ctx no db (.storyRelationshipRemoved atTime otherId relation) =
      .ok after) :
    ∃ mirrored, (∀ event ∈ mirrored, ∃ now name,
        event = .storyRelationshipRemoved now (toId db.idPrefix no) name) ∧
      Advances db after no (.storyRelationshipRemoved atTime otherId relation :: mirrored) := by
  simp only [restoreRelation, bind_eq_ok, pure_eq_ok, Prod.exists] at ran
  obtain ⟨other, -, inverse, -, near, first, nearRan, far, second, farRan, rfl⟩ := ran
  have own := append_advances ctx db near no no .any _ first nearRan
  have others := append_advances ctx near far no other .any _ second farRan
  rw [if_pos rfl] at own
  refine ⟨_, ?_, own.trans db near far no _ _ others⟩
  split
  · exact List.forall_mem_singleton.mpr ⟨ctx.now, inverse, rfl⟩
  · exact fun event none => absurd none List.not_mem_nil

theorem restoreAddition_advances (atTime otherId relation : String)
    (ran : restoreRelation ctx no db (.storyRelationshipAdded atTime otherId relation) =
      .ok after) :
    otherId ≠ toId db.idPrefix no ∧
      Advances db after no [.storyRelationshipAdded atTime otherId relation] := by
  simp only [restoreRelation, bind_eq_ok, pure_eq_ok, Prod.exists] at ran
  obtain ⟨other, parsed, inverse, -, near, first, nearRan, far, second, farRan, rfl⟩ := ran
  have wrote := appendAndFold_ok ctx db near no .any _ first nearRan
  have apart : otherId ≠ toId db.idPrefix no := by
    refine wrote.names_others db near no _ first ⟨relation, otherId⟩ ?_
    rw [wrote.told, replay_adds _ _ _ (List.forall_mem_singleton.mpr rfl)]
    exact .inr List.mem_cons_self
  have elsewhere : other ≠ no := by
    rintro rfl
    exact apart ((parseId_ok _ _ _).mp parsed).1
  have own := append_advances ctx db near no no .any _ first nearRan
  have others := append_advances ctx near far no other .any _ second farRan
  rw [if_pos rfl] at own
  rw [if_neg elsewhere] at others
  exact ⟨apart, own.trans db near far no _ [] others⟩

/-- What taking edges back leaves in the history of a story: one to itself goes from both ends. -/
structure Takes (own : String) (gone taken : List StoryEvent) : Prop where
  all : ∀ event ∈ gone, event ∈ taken
  only : ∀ event ∈ taken, event ∈ gone ∨
    ∃ now name, event = .storyRelationshipRemoved now own name

theorem Takes.nil (own : String) : Takes own [] [] :=
  ⟨fun _ none => none, fun _ none => absurd none List.not_mem_nil⟩

theorem restoreRemovals_advance (gone : List StoryEvent) (removes : Removes gone)
    (ran : gone.foldlM (restoreRelation ctx no) db = .ok after) :
    ∃ taken, Takes (toId db.idPrefix no) gone taken ∧ Advances db after no taken := by
  refine foldlM_ok _ (fun done state => ∃ taken, Takes (toId db.idPrefix no) done taken ∧
    Advances db state no taken) gone ?_ db after ⟨[], Takes.nil _, Advances.refl db no⟩ ran
  intro done event rest before next split carried stepped
  obtain ⟨taken, takes, carried⟩ := carried
  obtain ⟨atTime, otherId, relation, rfl⟩ := removes event (by
    rw [split]
    exact List.mem_append_right _ List.mem_cons_self)
  obtain ⟨mirrored, own, advances⟩ :=
    restoreRemoval_advances ctx before next no atTime otherId relation stepped
  rw [carried.idPrefix] at own
  refine ⟨_, ⟨?_, ?_⟩, carried.trans db before next no taken _ advances⟩
  · intro event member
    rcases List.mem_append.mp member with earlier | last
    · exact List.mem_append_left _ (takes.all event earlier)
    · rw [List.mem_singleton.mp last]
      exact List.mem_append_right _ List.mem_cons_self
  · intro event member
    rcases List.mem_append.mp member with earlier | later
    · exact (takes.only event earlier).imp_left (List.mem_append_left _)
    · rcases List.mem_cons.mp later with rfl | mirror
      · exact .inl (List.mem_append_right _ List.mem_cons_self)
      · exact .inr (own event mirror)

theorem restoreAdditions_advance (now : String) (more : List StoryRelation)
    (ran : (more.map fun relation => StoryEvent.storyRelationshipAdded now relation.otherId
      relation.relation).foldlM (restoreRelation ctx no) db = .ok after) :
    (∀ relation ∈ more, relation.otherId ≠ toId db.idPrefix no) ∧
      Advances db after no (more.map fun relation =>
        .storyRelationshipAdded now relation.otherId relation.relation) := by
  rw [List.foldlM_map] at ran
  refine foldlM_ok _ (fun done state => (∀ relation ∈ done,
    relation.otherId ≠ toId db.idPrefix no) ∧ Advances db state no (done.map fun relation =>
      .storyRelationshipAdded now relation.otherId relation.relation)) more ?_ db after
    ⟨fun _ none => absurd none List.not_mem_nil, Advances.refl db no⟩ ran
  intro done relation rest before next _ carried stepped
  obtain ⟨apart, carried⟩ := carried
  obtain ⟨own, advances⟩ := restoreAddition_advances ctx before next no now relation.otherId
    relation.relation stepped
  rw [carried.idPrefix] at own
  rw [List.map_append]
  exact ⟨List.forall_mem_append.mpr ⟨apart, List.forall_mem_singleton.mpr own⟩,
    carried.trans db before next no _ _ advances⟩

def relationsApart (one other : StorySnapshot) : List StoryRelation :=
  one.relationships.filter fun relation => !other.relationships.contains relation

theorem mem_relationsApart (one other : StorySnapshot) (relation : StoryRelation) :
    relation ∈ relationsApart one other ↔
      relation ∈ one.relationships ∧ relation ∉ other.relationships := by
  rw [relationsApart, List.mem_filter, Bool.not_eq_true', List.contains_eq_mem,
    decide_eq_false_iff_not]

def edgesGone (now : String) (shown goal : StorySnapshot) : List StoryEvent :=
  (relationsApart shown goal).map fun relation =>
    .storyRelationshipRemoved now relation.otherId relation.relation

def edgesBack (now : String) (shown goal : StorySnapshot) : List StoryEvent :=
  (relationsApart goal shown).map fun relation =>
    .storyRelationshipAdded now relation.otherId relation.relation

theorem compensateRelations_edges (now : String) (shown goal : StorySnapshot) :
    compensateRelations now shown goal = edgesGone now shown goal ++ edgesBack now shown goal := by
  rfl

theorem edgesGone_removes (now : String) (shown goal : StorySnapshot) :
    Removes (edgesGone now shown goal) := by
  intro event member
  obtain ⟨relation, -, rfl⟩ := List.mem_map.mp member
  exact ⟨_, _, _, rfl⟩

theorem restoreRelations_advance (now : String) (shown goal : StorySnapshot)
    (ran : (compensateRelations now shown goal).foldlM (restoreRelation ctx no) db = .ok after) :
    ∃ taken, Takes (toId db.idPrefix no) (edgesGone now shown goal) taken ∧
      (∀ relation ∈ relationsApart goal shown, relation.otherId ≠ toId db.idPrefix no) ∧
        Advances db after no (taken ++ edgesBack now shown goal) := by
  rw [compensateRelations_edges, List.foldlM_append, bind_eq_ok] at ran
  obtain ⟨middle, removing, adding⟩ := ran
  obtain ⟨taken, takes, first⟩ := restoreRemovals_advance ctx db middle no _
    (edgesGone_removes now shown goal) removing
  obtain ⟨apart, second⟩ := restoreAdditions_advance ctx middle after no now _ adding
  rw [first.idPrefix] at apart
  exact ⟨taken, takes, apart, first.trans db middle after no taken _ second⟩

/-- A batch that only takes back that the story blocks others, or that it blocks itself. -/
def Unblocks (own : String) (events : List StoryEvent) : Prop :=
  ∀ event ∈ events, ∃ now otherId relation,
    event = .storyRelationshipRemoved now otherId relation ∧ (relation = "blocks" ∨ otherId = own)

theorem Unblocks.nil (own : String) : Unblocks own [] :=
  fun _ none => absurd none List.not_mem_nil

theorem retractDependent_advances (own : String) (dependent : StoryNo)
    (ran : retractDependent ctx own db dependent = .ok after) :
    ∃ events, Unblocks own events ∧ Advances db after no events := by
  unfold retractDependent at ran
  split at ran
  · cases ran
    exact ⟨[], Unblocks.nil own, Advances.refl db no⟩
  · next row stored =>
      split at ran
      · obtain ⟨⟨result, snapshot⟩, written, rfl⟩ := (map_eq_ok _ _ _).mp ran
        refine ⟨_, ?_, append_advances ctx db result no dependent _ _ snapshot written⟩
        split
        · exact List.forall_mem_singleton.mpr ⟨_, _, _, rfl, .inr rfl⟩
        · exact Unblocks.nil own
      · cases ran
        exact ⟨[], Unblocks.nil own, Advances.refl db no⟩

theorem retractClosed_advances (cleanup : List StoryEvent)
    (ran : retractClosedBlockerEdges ctx db no = .ok (after, cleanup)) :
    ∃ events, Unblocks (toId db.idPrefix no) events ∧ Advances db after no events := by
  simp only [retractClosedBlockerEdges, bind_eq_ok, pure_eq_ok, demand_ok, Prod.mk.injEq] at ran
  obtain ⟨middle, loop, row, stored, last, written, rfl, -⟩ := ran
  obtain ⟨events, unblocks, carried⟩ := foldlM_ok _
    (fun _ state => ∃ events, Unblocks (toId db.idPrefix no) events ∧ Advances db state no events) _
    (by
      intro done dependent rest before next _ carried stepped
      obtain ⟨events, unblocks, carried⟩ := carried
      obtain ⟨more, unblocks', carried'⟩ :=
        retractDependent_advances ctx before next no _ dependent stepped
      exact ⟨events ++ more, List.forall_mem_append.mpr ⟨unblocks, unblocks'⟩,
        carried.trans db before next no events more carried'⟩)
    db middle ⟨[], Unblocks.nil _, Advances.refl db no⟩ loop
  have own := appendSome_advances ctx middle last no no _ _ written
  rw [if_pos rfl] at own
  refine ⟨_, List.forall_mem_append.mpr ⟨unblocks, fun event member => ?_⟩,
    carried.trans db middle last no events _ own⟩
  obtain ⟨dependent, -, rfl⟩ := List.mem_map.mp member
  exact ⟨_, _, _, rfl, .inl rfl⟩

theorem settleRestored_advances (id : String) (cleanup : List StoryEvent) (fresh : Fresh db no)
    (ran : settleRestored ctx db no id = .ok (after, cleanup)) :
    ∃ events, Unblocks (toId db.idPrefix no) events ∧ Advances db after no events ∧
      (events ≠ [] → ∃ folded, foldStory (toId db.idPrefix no) (history db no)
        (stateMap db.states) = .ok folded ∧ folded.closedAt.isSome = true) := by
  simp only [settleRestored, bind_eq_ok, demand_ok] at ran
  obtain ⟨row, stored, settled⟩ := ran
  obtain ⟨found, present, folded, archived⟩ := fresh
  cases stored.symm.trans present
  split at settled
  · next closed =>
      obtain ⟨events, unblocks, advances⟩ := retractClosed_advances ctx db after no cleanup settled
      exact ⟨events, unblocks, advances, fun _ => ⟨_, folded, archived.symm.trans closed⟩⟩
  · cases settled
    exact ⟨[], Unblocks.nil _, Advances.refl db no, fun apart => absurd rfl apart⟩

end Advances

/-- The events that an undo writes to the history of its story before any edge is retracted. -/
def undoEvents (ctx : Ctx) (shown goal : StorySnapshot) (typed taken : List StoryEvent) :
    List StoryEvent :=
  fieldEvents ctx shown goal typed ++ compensateState ctx.now shown goal ++
    compensateComments ctx.now shown goal ++ (taken ++ edgesBack ctx.now shown goal)

structure Undo (ctx : Ctx) (db after : Database) (id : String) (target : List StoryEvent)
    (story : StoryNo) (current goal later : StorySnapshot)
    (typed taken retracted : List StoryEvent) : Prop where
  resolved : ∃ row, resolveStory db id = .ok (story, row)
  before : foldStory id (history db story) (stateMap db.states) = .ok current
  aim : foldStory id target (stateMap db.states) = .ok goal
  typedAs : compensateType ctx.now (effectiveSnapshot db current) goal = .ok typed
  takes : Takes id (edgesGone ctx.now (effectiveSnapshot db current) goal) taken
  others : taken ++ retracted ≠ [] → NamesOthers id goal
  states : after.states = db.states
  own : history after story = history db story ++
    undoEvents ctx (effectiveSnapshot db current) goal typed taken ++ retracted
  folded : foldStory id (history after story) (stateMap after.states) = .ok later
  unblocks : Unblocks id retracted
  closed : retracted ≠ [] → ∃ folded, foldStory id (history db story ++
    undoEvents ctx (effectiveSnapshot db current) goal typed taken) (stateMap db.states) =
      .ok folded ∧ folded.closedAt.isSome = true

theorem effective_kept (db : Database) (stored : StorySnapshot) :
    ∃ state superstate computed, effectiveSnapshot db stored =
      { stored with state := state, superstate := superstate, stateComputed := computed } := by
  rw [effectiveSnapshot]
  split
  · exact ⟨_, _, _, rfl⟩
  · exact ⟨_, _, _, rfl⟩

theorem compensation_removed (ctx : Ctx) (shown goal : StorySnapshot)
    (compensation batch : List StoryEvent)
    (ran : compensate ctx shown goal = .ok compensation) (part : ∀ event ∈ batch,
      event ∈ compensation) (relation : StoryRelation)
    (gone : relation ∈ batch.filterMap removedRelation) : relation ∉ goal.relationships := by
  obtain ⟨event, member, removed⟩ := List.mem_filterMap.mp gone
  obtain ⟨typed, typedAs, plain, related⟩ := compensate_parts ctx shown goal compensation ran
  have moves : isRelation event = true := by
    cases event with
    | storyRelationshipRemoved => rfl
    | _ => cases removed
  have written : event ∈ compensateRelations ctx.now shown goal := by
    rw [← related]
    exact List.mem_filter.mpr ⟨part event member, moves⟩
  rw [compensateRelations_edges] at written
  rcases List.mem_append.mp written with removal | addition
  · obtain ⟨own, apart, rfl⟩ := List.mem_map.mp removal
    cases removed
    exact ((mem_relationsApart _ _ _).mp apart).2
  · obtain ⟨own, -, rfl⟩ := List.mem_map.mp addition
    cases removed

theorem foldStory_relationships (id : String) (states : StateCatalog) (events : List StoryEvent)
    (folded : StorySnapshot) (ran : foldStory id events states = .ok folded)
    (relation : StoryRelation) :
    relation ∈ folded.relationships ↔ relation ∈ (replay states events).relationships := by
  obtain ⟨_, _, _, _, _, -, -, -, -, rfl⟩ := (finishFold_ok _ _ _ _).mp ran
  exact Std.TreeSet.mem_toList

/-- An undo that writes leaves its story without an edge to itself, so the goal has none. -/
theorem goal_names_others (ctx : Ctx) (db near : Database) (story : StoryNo)
    (current goal first : StorySnapshot) (compensation batch : List StoryEvent)
    (before : foldStory (toId db.idPrefix story) (history db story) (stateMap db.states) =
      .ok current)
    (compensated : compensate ctx (effectiveSnapshot db current) goal = .ok compensation)
    (part : ∀ event ∈ batch, event ∈ compensation) (wrote : Wrote db near story batch first)
    (apart : ∀ relation ∈ relationsApart goal (effectiveSnapshot db current),
      relation.otherId ≠ toId db.idPrefix story) :
    NamesOthers (toId db.idPrefix story) goal := by
  intro relation member same
  by_cases shared : relation ∈ (effectiveSnapshot db current).relationships
  · obtain ⟨_, _, _, kept⟩ := effective_kept db current
    rw [kept, foldStory_relationships _ _ _ current before] at shared
    have gone := wrote.takes_own db near story batch first relation shared same
    exact compensation_removed ctx _ goal compensation batch compensated part relation gone member
  · exact apart relation ((mem_relationsApart _ _ _).mpr ⟨member, shared⟩) same

theorem undoEvents_filled (ctx : Ctx) (own : String) (shown goal : StorySnapshot)
    (typed taken : List StoryEvent) (takes : Takes own (edgesGone ctx.now shown goal) taken)
    (filled : fieldEvents ctx shown goal typed ++ compensateState ctx.now shown goal ++
      compensateComments ctx.now shown goal ++
        (edgesGone ctx.now shown goal ++ edgesBack ctx.now shown goal) ≠ []) :
    undoEvents ctx shown goal typed taken ≠ [] := by
  intro none
  obtain ⟨fields, edges⟩ := List.append_eq_nil_iff.mp none
  obtain ⟨untaken, back⟩ := List.append_eq_nil_iff.mp edges
  rw [fields, back, List.append_nil] at filled
  obtain ⟨event, member⟩ := List.exists_mem_of_ne_nil _ filled
  have left := takes.all event member
  rw [untaken] at left
  exact absurd left List.not_mem_nil

theorem restore_undo (ctx : Ctx) (db after : Database) (id : String)
    (target appended : List StoryEvent)
    (ran : restore ctx db id target = .ok (after, appended)) :
    ∃ story current goal later typed taken retracted,
      Undo ctx db after id target story current goal later typed taken retracted := by
  unfold restore at ran
  split at ran
  · cases ran
  · simp only [bind_eq_ok, Prod.exists] at ran
    obtain ⟨story, row, found, current, before, goal, aim, compensation, compensated,
      writing⟩ := ran
    obtain ⟨rfl, stored⟩ := resolveStory_ok db id story row found
    obtain ⟨typed, typedAs, plain, related⟩ :=
      compensate_parts ctx (effectiveSnapshot db current) goal compensation compensated
    refine ⟨story, current, goal, ?_⟩
    split at writing
    · next blank =>
        cases writing
        rw [List.isEmpty_iff.mp blank, List.filter_nil] at plain related
        obtain ⟨gone, back⟩ := List.append_eq_nil_iff.mp
          ((compensateRelations_edges ctx.now _ goal).symm.trans related.symm)
        have nothing : undoEvents ctx (effectiveSnapshot db current) goal typed [] = [] := by
          rw [undoEvents, ← plain, back]
          rfl
        refine ⟨current, typed, [], [], ⟨row, found⟩, before, aim, typedAs, ?_,
          fun some => absurd rfl some, rfl, ?_, before, Unblocks.nil _,
          fun some => absurd rfl some⟩
        · rw [gone]
          exact Takes.nil _
        · rw [nothing, List.append_nil, List.append_nil]
    · next some =>
        simp only [bind_eq_ok, pure_eq_ok, Prod.exists, Prod.mk.injEq] at writing
        obtain ⟨moved, own, middle, relating, last, cleanup, settling, rfl, -⟩ := writing
        have parts := List.perm_append_comm.trans
          (List.filter_append_perm isRelation compensation)
        have filled : compensation.filter (fun event => !isRelation event) ++
            compensation.filter isRelation ≠ [] := by
          intro none
          rw [none] at parts
          exact some (List.isEmpty_iff.mpr parts.symm.eq_nil)
        obtain ⟨batch, near, firstly, part, wrote⟩ := restored_first ctx db middle story moved _ _
          filled (fun event member => (List.mem_filter.mp member).2) own relating
        rw [plain] at own
        rw [related] at relating
        rw [plain, related, compensateRelations_edges] at filled
        have first := appendSome_advances ctx db moved story story .any _ own
        rw [if_pos rfl] at first
        obtain ⟨taken, takes, apart, second⟩ :=
          restoreRelations_advance ctx moved middle story ctx.now _ goal relating
        rw [first.idPrefix] at takes apart
        have others := goal_names_others ctx db near story current goal firstly compensation batch
          before compensated (fun event listed => parts.mem_iff.mp (part event listed)) wrote apart
        have whole := first.trans db moved middle story _ _ second
        have written := undoEvents_filled ctx _ _ goal typed taken takes filled
        obtain ⟨retracted, unblocks, settled, closed⟩ := settleRestored_advances ctx middle last
          story (toId db.idPrefix story) cleanup (whole.fresh (.inl written)) settling
        have done := whole.trans db middle last story _ retracted settled
        obtain ⟨later, -, folded, -⟩ := done.fresh
          (.inl (List.append_ne_nil_of_left_ne_nil written _))
        rw [whole.idPrefix] at unblocks closed
        rw [whole.states, whole.own] at closed
        rw [done.idPrefix] at folded
        refine ⟨later.snapshot, typed, taken, retracted, ⟨row, found⟩, before, aim, typedAs, takes,
          fun _ => others, done.states, ?_, folded, unblocks, closed⟩
        rw [done.own, ← List.append_assoc]
        rfl

end Storyhook.Service
