import Storyhook.Service.Story

namespace Storyhook.Service

open Storyhook.Domain Storyhook.Store
open Library Library.Outcome

theorem appendPlain_turns (ctx : Ctx) (db after : Database) (story : StoryNo) (row : StoryRow)
    (expected : ExpectedSeq) (events : List StoryEvent) (snapshot : StorySnapshot)
    (kept : Kept db) (stored : db.stories[story]? = some row) (plain : Plain events)
    (written : appendAndFold ctx db story expected events = .ok (after, snapshot)) :
    Turns db after ∅ := by
  have gains := append_gains ctx db after story row expected events snapshot kept stored
    written fun event member => (plain event member).2
  rw [added_plain _ _ _ plain] at gains
  exact gains.turns db after ∅

theorem appendStateTransition_turns (ctx : Ctx) (db after : Database) (story : StoryNo)
    (row : StoryRow) (target : StateDef) (extra : List StoryEvent) (snapshot : StorySnapshot)
    (kept : Kept db) (stored : db.stories[story]? = some row) (plain : Plain extra)
    (ran : appendStateTransition ctx db story row target extra = .ok (after, snapshot)) :
    Turns db after ∅ := by
  simp only [appendStateTransition, bind_eq_ok, pure_eq_ok, demand_ok, Prod.exists,
    Prod.mk.injEq] at ran
  obtain ⟨moved, first, written, last, retracted, -, -, rfl, -⟩ := ran
  apply retractIf_turns ctx _ db moved last story _ _ retracted
  exact appendPlain_turns ctx db moved story row _ _ first kept stored
    (plain_transition _ _ _ _ plain) written

theorem setState_turns (ctx : Ctx) (db after : Database) (id state : String)
    (comment ifState awaiting : Option String) (leased : Bool) (snapshot : StorySnapshot)
    (kept : Kept db)
    (ran : setState ctx db id state comment ifState awaiting leased = .ok (after, snapshot)) :
    Turns db after ∅ := by
  simp only [setState, bind_eq_ok, demand_ok, Prod.exists] at ran
  obtain ⟨-, -, story, row, opened, -, -, target, -, -, -, moved⟩ := ran
  obtain ⟨-, stored, -⟩ := resolveOpenStory_ok db id story row opened
  refine appendStateTransition_turns ctx db after story row target _ snapshot kept stored ?_ moved
  intro event member
  simp only [List.mem_append, Option.mem_toList, Option.map_eq_some_iff] at member
  rcases member with (lease | ⟨text, -, rfl⟩) | ⟨reason, -, rfl⟩
  · split at lease
    · rw [List.mem_singleton.mp lease]
      exact ⟨rfl, rfl⟩
    · cases lease
  · exact ⟨rfl, rfl⟩
  · exact ⟨rfl, rfl⟩

theorem setFields_turns (ctx : Ctx) (db after : Database) (id : String) (plan : EditPlan)
    (snapshot : StorySnapshot) (kept : Kept db)
    (ran : setFields ctx db id plan = .ok (after, snapshot)) : Turns db after ∅ := by
  simp only [setFields, bind_eq_ok, pure_eq_ok, demand_ok, Prod.exists, Prod.mk.injEq] at ran
  obtain ⟨story, row, opened, -, -, -, -, edited, first, written, last, retracted, -, -, rfl, -⟩ :=
    ran
  obtain ⟨-, stored, -⟩ := resolveOpenStory_ok db id story row opened
  apply retractIf_turns ctx _ db edited last story _ _ retracted
  exact appendPlain_turns ctx db edited story row _ _ first kept stored plan.plain written

theorem creationBatch_plain (ctx : Ctx) (title state : String) (draft : Bool)
    (complexity : Option Complexity) (priority : Priority) (labels : Option (List String))
    (description : Option String) (storyType : String) :
    ∀ event ∈ creationBatch ctx title state draft complexity priority labels description storyType,
      addedRelation event = none ∧ removedRelation event = none ∧ movesClosure event = false := by
  intro event member
  simp only [creationBatch, List.mem_append, List.mem_singleton, Option.mem_toList,
    Option.map_eq_some_iff] at member
  rcases member with (((((rfl | drafted) | ⟨level, -, rfl⟩) | rfl) | labelled) | ⟨text,
    -, rfl⟩) | rfl
  · exact ⟨rfl, rfl, rfl⟩
  · split at drafted
    · rw [List.mem_singleton.mp drafted]
      exact ⟨rfl, rfl, rfl⟩
    · cases drafted
  · exact ⟨rfl, rfl, rfl⟩
  · exact ⟨rfl, rfl, rfl⟩
  · split at labelled
    · cases labelled
    · rw [List.mem_singleton.mp labelled]
      exact ⟨rfl, rfl, rfl⟩
  · exact ⟨rfl, rfl, rfl⟩
  · exact ⟨rfl, rfl, rfl⟩

theorem allocate_kept (db : Database) (kept : Kept db) : Kept (allocateStoryNo db).1 where
  folded := kept.folded
  archived := kept.archived
  logged := kept.logged
  named := kept.named
  covered := kept.covered
  allocated := fun no row stored => Nat.lt_succ_of_lt (kept.allocated no row stored)

/-- What creating a story does: its row is new, and its edges are those its batch adds. -/
structure Creates (db after : Database) (story : StoryNo) (events : List StoryEvent) : Prop where
  kept : Kept after
  idPrefix : after.idPrefix = db.idPrefix
  states : after.states = db.states
  fresh : db.stories[story]? = none
  row : ∃ row : StoryRow, after.stories[story]? = some row ∧
    row.archived = ((replay (stateMap db.states) events).closedAt).isSome
  others : ∀ no : StoryNo, story ≠ no → after.stories[no]? = db.stories[no]?
  ledger : ledger after = ledger db ∪ added db.idPrefix story events

theorem appendNew_creates (ctx : Ctx) (db after : Database) (expected : ExpectedSeq)
    (events : List StoryEvent) (snapshot : StorySnapshot) (kept : Kept db)
    (adds : ∀ event ∈ events, removedRelation event = none)
    (written : appendAndFold ctx (allocateStoryNo db).1 (allocateStoryNo db).2 expected events =
      .ok (after, snapshot)) :
    Creates db after (allocateStoryNo db).2 events ∧
      snapshot.id = toId db.idPrefix (allocateStoryNo db).2 := by
  have wrote := appendAndFold_ok ctx _ after _ expected events snapshot written
  have ready := allocate_kept db kept
  have room : (allocateStoryNo db).2 < (allocateStoryNo db).1.nextStoryNo := Nat.lt_succ_self _
  have fresh : db.stories[(allocateStoryNo db).2]? = none := by
    by_contra taken
    obtain ⟨row, stored⟩ := Option.ne_none_iff_exists'.mp taken
    exact absurd (kept.allocated _ row stored) (Nat.lt_irrefl _)
  have blank : history (allocateStoryNo db).1 (allocateStoryNo db).2 = [] := by
    have unlogged : (allocateStoryNo db).1.events[(allocateStoryNo db).2]? = none :=
      kept.logged _ fresh
    rw [history, unlogged]
    rfl
  obtain ⟨row, stored, -, archived⟩ := wrote.row _ after _ events snapshot
  have folded := wrote.folded
  rw [blank, List.nil_append] at folded
  obtain ⟨_, _, _, _, _, _, _, _, _, shape⟩ := (finishFold_ok _ _ _ _).mp folded
  have ledgers := ledger_added (allocateStoryNo db).1 after _ events snapshot wrote ready room adds
  refine ⟨⟨wrote.kept _ after _ events snapshot ready room, wrote.idPrefix, wrote.states, fresh,
    ⟨row, stored, ?_⟩, fun no other => wrote.row_elsewhere _ after _ events snapshot no other,
    ledgers⟩, ?_⟩
  · rw [archived, shape]
    rfl
  · rw [shape]
    rfl

theorem create_turns (ctx : Ctx) (db after : Database) (input : NewStoryInput)
    (snapshot : StorySnapshot) (kept : Kept db)
    (ran : create ctx db input = .ok (after, snapshot)) :
    ∃ subject blockers, Turns db after (blockedEdges subject blockers) := by
  simp only [create, bind_eq_ok, pure_eq_ok, Prod.exists, Prod.mk.injEq] at ran
  obtain ⟨base, batched, blockers, located, -, -, created, first, written, last, touched, linked,
    rfl, -⟩ := ran
  simp only [baseCreationEvents, bind_eq_ok, pure_eq_ok] at batched
  obtain ⟨storyType, -, priority, -, state, -, complexity, -, rfl⟩ := batched
  have plain := creationBatch_plain ctx input.title state input.draft complexity priority
    input.labels input.description storyType
  generalize creationBatch ctx input.title state input.draft complexity priority input.labels
    input.description storyType = base at plain written
  have found := resolveBlockers_ok db none input.blockedBy blockers located
  obtain ⟨creates, named⟩ := appendNew_creates ctx db created _ _ first kept (by
    intro event member
    rcases List.mem_append.mp member with inBase | edge
    · exact (plain event inBase).2.1
    · obtain ⟨blocker, -, rfl⟩ := List.mem_map.mp edge
      rfl) written
  generalize (allocateStoryNo db).2 = story at creates named
  rw [named, ← creates.idPrefix] at linked
  have apart (blocker : ResolvedBlocker) (member : blocker ∈ blockers) : story ≠ blocker.no := by
    rintro rfl
    have taken := (found blocker member).2
    rw [creates.fresh] at taken
    cases taken
  have gains := appendBlocksEdges_gain ctx created last story blockers touched creates.kept
    (fun blocker member => ⟨blocker.row, by
      rw [creates.others _ (apart blocker member)]
      exact (found blocker member).2⟩)
    (fun blocker member has => by
      rw [creates.idPrefix] at has
      rw [creates.ledger]
      exact Or.inl ((hasRelation_ledger db kept blocker.no blocker.row
        (found blocker member).2 ⟨"blocks", story⟩).mp has)) linked
  have edges : added db.idPrefix story (base ++ blockers.map fun blocker =>
      StoryEvent.storyRelationshipAdded ctx.now blocker.id "blocked-by") =
      claimed story (blockedClaims blockers) := by
    ext edge
    simp only [added, claimed, blockedClaims, Set.mem_ofPred_eq, List.mem_filterMap,
      List.mem_append, List.mem_map]
    refine and_congr_right fun _ => ?_
    constructor
    · rintro ⟨event, inBase | ⟨blocker, member, rfl⟩, adds⟩
      · rw [(plain event inBase).1] at adds
        cases adds
      · rw [(found blocker member).1] at adds
        have spelled := Option.some.inj adds
        simp only [StoryRelation.mk.injEq] at spelled
        exact ⟨blocker, member, by rw [← spelled.1, toId_injective _ _ _ spelled.2]⟩
    · rintro ⟨blocker, member, same⟩
      refine ⟨_, Or.inr ⟨blocker, member, rfl⟩, ?_⟩
      rw [addedRelation, (found blocker member).1]
      simp only [Claim.mk.injEq] at same
      rw [same.1, same.2]
  refine ⟨story, blockers, gains.kept, gains.idPrefix.trans creates.idPrefix,
    gains.states.trans creates.states, ∅, Mirrored.empty mirror, ?_⟩
  rw [gains.ledger, creates.ledger, edges, Set.sdiff_empty, Set.union_assoc, Set.union_comm
    (claimed _ _)]
  rfl

theorem purgeStory_ok (db after : Database) (story : StoryNo)
    (purged : purgeStory db story = .ok after) :
    after = { db with
      relations := db.relations.purge story
      stories := db.stories.erase story
      events := db.events.erase story } := by
  unfold purgeStory at purged
  split at purged
  · exact (Except.ok.inj purged).symm
  · cases purged

section Purge

variable (db after : Database) (story : StoryNo) (purged : purgeStory db story = .ok after)

include purged

theorem purged_row (no : StoryNo) (row : StoryRow) :
    after.stories[no]? = some row ↔ story ≠ no ∧ db.stories[no]? = some row := by
  rw [purgeStory_ok db after story purged, Std.TreeMap.getElem?_erase]
  simp only [Std.LawfulEqOrd.compare_eq_iff_eq, ite_eq_iff]
  grind

theorem purged_events (no : StoryNo) (other : story ≠ no) : after.events[no]? = db.events[no]? := by
  rw [purgeStory_ok db after story purged, Std.TreeMap.getElem?_erase, if_neg]
  rwa [Std.LawfulEqOrd.compare_eq_iff_eq]

theorem purged_ledger : ledger after = ledger db \ {edge | edge.storyNo = story} := by
  have same : after.idPrefix = db.idPrefix := by rw [purgeStory_ok db after story purged]
  ext edge
  simp only [ledger, StoredClaim, purged_row db after story purged, same, Set.mem_sdiff,
    Set.mem_ofPred_eq]
  grind

theorem purged_kept (kept : Kept db) (unnamed : ∀ edge ∈ ledger db, edge.otherNo ≠ story) :
    Kept after := by
  have rows := purged_row db after story purged
  have shape := purgeStory_ok db after story purged
  have idPrefix : after.idPrefix = db.idPrefix := by rw [shape]
  refine ⟨?_, ?_, ?_, ?_, ?_, ?_⟩
  · intro no row stored
    obtain ⟨other, before⟩ := (rows no row).mp stored
    have states : after.states = db.states := by rw [shape]
    rw [history, purged_events db after story purged no other, idPrefix, states]
    exact kept.folded no row before
  · intro no row stored
    exact kept.archived no row ((rows no row).mp stored).2
  · intro no absent
    by_cases own : story = no
    · rw [shape, own]
      exact Std.TreeMap.getElem?_erase_self
    · rw [purged_events db after story purged no own]
      apply kept.logged
      by_contra present
      obtain ⟨row, before⟩ := Option.ne_none_iff_exists'.mp present
      rw [(rows no row).mpr ⟨own, before⟩] at absent
      cases absent
  · intro no row stored
    rw [idPrefix]
    exact kept.named no row ((rows no row).mp stored).2
  · intro edge claimed
    rw [purged_ledger db after story purged] at claimed
    rw [shape]
    exact (RelationTable.mem_purge _ _ _).mpr
      ⟨kept.covered edge claimed.1, claimed.2, unnamed edge claimed.1⟩
  · intro no row stored
    have next : after.nextStoryNo = db.nextStoryNo := by rw [shape]
    rw [next]
    exact kept.allocated no row ((rows no row).mp stored).2

end Purge

theorem mem_survivingClaims (db : Database) (kept : Kept db) (story : StoryNo)
    (claim : SurvivingClaim) :
    claim ∈ (survivingClaims db story).toList ↔ ∃ other : StoryNo,
      claim.claimant = toId db.idPrefix other ∧ ⟨other, claim.relation, story⟩ ∈ ledger db := by
  simp only [survivingClaims, Std.TreeSet.mem_toList, Std.TreeSet.mem_ofList,
    List.contains_iff_mem, List.mem_flatMap, RelationTable.relationsTo, List.mem_filter, beq_iff_eq]
  constructor
  · rintro ⟨edge, -, listed⟩
    split at listed
    · cases listed
    · next row stored =>
        obtain ⟨relation, member, rfl⟩ := List.mem_map.mp listed
        obtain ⟨inside, named⟩ := List.mem_filter.mp member
        refine ⟨edge.storyNo, rfl,
          (mem_ledger_row db kept ⟨edge.storyNo, relation.relation, story⟩ row stored).mpr ?_⟩
        rw [← eq_of_beq named]
        exact inside
  · rintro ⟨other, spelled, inside⟩
    obtain ⟨row, stored, -⟩ := id inside
    refine ⟨_, ⟨kept.covered _ inside, rfl⟩, ?_⟩
    have claims := (mem_ledger_row db kept _ row stored).mp inside
    simp only [stored]
    refine List.mem_map.mpr ⟨_, List.mem_filter.mpr ⟨claims, beq_iff_eq.mpr rfl⟩, ?_⟩
    rw [← spelled]

theorem retractClaim_ok (ctx : Ctx) (db after : Database) (story other : StoryNo)
    (claim : SurvivingClaim) (kept : Kept db) (spelled : claim.claimant = toId db.idPrefix other)
    (ran : retractClaim ctx (toId db.idPrefix story) db claim = .ok after) :
    Loses db after {⟨other, claim.relation, story⟩} := by
  simp only [retractClaim, bind_eq_ok, pure_eq_ok, Prod.exists] at ran
  obtain ⟨no, row, found, last, snapshot, written, rfl⟩ := ran
  obtain ⟨same, stored⟩ := resolveStory_ok db _ no row found
  obtain rfl := toId_injective _ _ _ (spelled.symm.trans same)
  rw [← removed_one db.idPrefix ctx.now claim.relation other story]
  exact append_loses ctx db last other row _ _ snapshot kept stored written (by simp
    [addedRelation])

def endedBy (story : StoryNo) : Set RelationEdge :=
  {edge | edge.otherNo = story ∨ edge.storyNo = story}

theorem endedBy_mirrored (story : StoryNo) : Mirrored mirror (endedBy story) := by
  intro edge ends back mirrored
  obtain ⟨inverse, -, rfl⟩ := Option.map_eq_some_iff.mp mirrored
  exact ends.symm

theorem retractClaims_ok (ctx : Ctx) (db after : Database) (story : StoryNo) (kept : Kept db)
    (ran : (survivingClaims db story).toList.foldlM (retractClaim ctx (toId db.idPrefix story)) db =
      .ok after) : Loses db after {edge | edge.otherNo = story} := by
  have listed := mem_survivingClaims db kept story
  generalize (survivingClaims db story).toList = claims at ran listed
  have loses := foldlM_ok _ (fun done state => Loses db state {edge | edge.otherNo = story ∧
    (⟨toId db.idPrefix edge.storyNo, edge.relation⟩ : SurvivingClaim) ∈ done}) claims (by
      intro done claim rest before next split loses stepped
      obtain ⟨other, spelled, -⟩ := (listed claim).mp (by simp [split])
      rw [← loses.idPrefix] at stepped spelled
      have more := retractClaim_ok ctx before next story other claim loses.kept spelled stepped
      apply (Loses.trans _ _ _ _ _ loses more).congr
      congr 1
      ext ⟨own, relation, far⟩
      rw [loses.idPrefix] at spelled
      cases claim
      have same := toId_injective db.idPrefix own other
      simp_all
      grind) db after ((Loses.none db kept).congr db db ∅ _ (by simp)) ran
  apply loses.congr
  ext edge
  simp only [Set.mem_sdiff, Set.mem_ofPred_eq]
  refine and_congr_right fun inside => not_congr (and_iff_left_of_imp ?_)
  rintro rfl
  exact (listed _).mpr ⟨edge.storyNo, rfl, inside⟩

theorem delete_turns (ctx : Ctx) (db after : Database) (id : String) (kept : Kept db)
    (ran : delete ctx db id = .ok after) : Turns db after ∅ := by
  simp only [delete, bind_eq_ok, Prod.exists] at ran
  obtain ⟨story, row, -, -, -, middle, retracted, purged⟩ := ran
  have loses := retractClaims_ok ctx db middle story kept retracted
  have shape := purgeStory_ok middle after story purged
  refine ⟨purged_kept middle after story purged loses.kept ?_, ?_, ?_, endedBy story,
    endedBy_mirrored story, ?_⟩
  · intro edge inside
    rw [loses.ledger] at inside
    exact inside.2
  · rw [shape]
    exact loses.idPrefix
  · rw [shape]
    exact loses.states
  · rw [purged_ledger middle after story purged, loses.ledger, Set.sdiff_sdiff, Set.union_empty]
    rfl

end Storyhook.Service
