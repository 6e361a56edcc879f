import Storyhook.Service.Hierarchy

namespace Storyhook.Service

open Storyhook.Domain Storyhook.Store
open Library Library.Outcome

def batchIds (db : Database) (count : Nat) : List String :=
  (List.range count).map fun index => toId db.idPrefix (db.nextStoryNo + index)

def relationshipLink (ids : List String) (a : String) (relationship : ImportRelationship) :
    Option (String × String) :=
  match relationshipEnd ids relationship with
  | .error _ => none
  | .ok b => if a == b then none else parentLink a relationship.relation b

def storyLinks (ids : List String) (entry : ImportStory × String) : List (String × String) :=
  (entry.1.relationships.getD []).filterMap (relationshipLink ids entry.2)

def batchLinks (db : Database) (stories : List ImportStory) : List (String × String) :=
  let ids := batchIds db stories.length
  (stories.zip ids).flatMap (storyLinks ids)

section Import

variable (ctx : Ctx)

theorem importStories_ids (defaultType : String) (db : Database) (stories : List ImportStory)
    (finish : Database × List String)
    (ran : stories.foldlM (importStory ctx defaultType) (db, []) = .ok finish) :
    finish.2 = batchIds db stories.length := by
  have counted := foldlM_ok _ (fun done state => state.1.idPrefix = db.idPrefix ∧
    state.1.nextStoryNo = db.nextStoryNo + done.length ∧ state.2 = batchIds db done.length) stories
    (by
      intro done story rest before after _ carried stepped
      obtain ⟨samePrefix, next, ids⟩ := carried
      simp only [importStory, bind_eq_ok, pure_eq_ok, Prod.exists] at stepped
      obtain ⟨events, -, written, snapshot, appended, rfl⟩ := stepped
      have wrote := appendAndFold_ok ctx _ written _ _ events snapshot appended
      obtain ⟨_, _, _, _, _, _, _, _, _, shape⟩ := (finishFold_ok _ _ _ _).mp wrote.folded
      have named : snapshot.id = toId before.1.idPrefix before.1.nextStoryNo := by
        rw [shape]
        rfl
      refine ⟨wrote.idPrefix.trans samePrefix, ?_, ?_⟩
      · rw [wrote.nextStoryNo, List.length_append, List.length_singleton, ← Nat.add_assoc, ← next]
        rfl
      · rw [List.length_append, List.length_singleton, batchIds, List.range_succ, List.map_append,
          List.map_singleton, named, next, samePrefix, ids, batchIds])
    (db, []) finish ⟨rfl, rfl, rfl⟩ ran
  exact counted.2.2

theorem parentLink_edges (a relation b : String) (pair : String × String)
    (known : relationEdges relation = some [pair]) :
    parentLink a pair.1 b = parentLink a relation b := by
  unfold relationEdges at known
  repeat' split at known
  all_goals cases known
  · next named => rcases named with rfl | rfl <;> rfl
  all_goals
    next named =>
      subst named
      rfl

theorem linkRelationship_shows (createdIds : List String) (a : String) (aNo : StoryNo)
    (row : StoryRow) (relationship : ImportRelationship) (done next : Database × List String)
    (graph : HierarchyGraph) (kept : Kept done.1) (spelled : a = toId done.1.idPrefix aNo)
    (stored : done.1.stories[aNo]? = some row) (shown : Shows graph done.1)
    (ran : linkRelationship ctx createdIds a done relationship = .ok next) :
    Shows (graph.addLinks (relationshipLink createdIds a relationship).toList) next.1 := by
  simp only [linkRelationship, bind_eq_ok] at ran
  obtain ⟨b, pointed, linking⟩ := ran
  simp only [relationshipLink, pointed]
  split at linking
  · next same =>
      rw [pure_eq_ok] at linking
      subst linking
      rw [if_pos same]
      exact shown
  · next apart =>
      simp only [bind_eq_ok, pure_eq_ok, demand_ok] at linking
      obtain ⟨edges, known, linked, folded, rfl⟩ := linking
      obtain ⟨pair, rfl⟩ := relationEdges_single _ edges known
      simp only [List.foldlM_cons, List.foldlM_nil, bind_eq_ok, pure_eq_ok, exists_eq_right]
        at folded
      obtain ⟨bNo, named, gains, -⟩ :=
        linkEdge_gains ctx done.1 linked a b aNo row pair kept spelled stored folded
      rw [if_neg apart, ← parentLink_edges _ _ _ pair known, spelled,
        ((parseId_ok _ _ _).mp named).1]
      exact shown.gained graph done.1 linked _ _ kept gains fun parent child =>
        parents_linked done.1.idPrefix done.1 aNo bNo pair parent child
          (relationEdges_inverse _ _ known pair List.mem_cons_self)

theorem linkBatch_shows (start : Database) (stories : List ImportStory) (createdIds : List String)
    (finish : Database × List String) (graph : HierarchyGraph) (kept : Kept start)
    (created : ∀ id ∈ createdIds, ∃ no row, id = toId start.idPrefix no ∧
      start.stories[no]? = some row) (shown : Shows graph start)
    (ran : linkBatch ctx start stories createdIds = .ok finish) :
    Steady start finish.1 ∧
      Shows (graph.addLinks ((stories.zip createdIds).flatMap
        (storyLinks createdIds))) finish.1 := by
  refine foldlM_ok (linkStory ctx createdIds) (fun done state => Steady start state.1 ∧
    Shows (graph.addLinks (done.flatMap (storyLinks createdIds))) state.1) _ ?_ (start, []) finish
    ⟨Steady.refl start kept, shown⟩ ran
  intro done entry rest before after split holds linking
  obtain ⟨-, inCreated⟩ := List.of_mem_zip
    (show entry ∈ stories.zip createdIds by simp [split])
  obtain ⟨no, row, spelled, stored⟩ := created entry.2 inCreated
  rw [List.flatMap_append, List.flatMap_singleton, HierarchyGraph.addLinks_append]
  refine foldlM_ok (linkRelationship ctx createdIds entry.2)
    (fun earlier state => Steady start state.1 ∧
    Shows ((graph.addLinks (done.flatMap (storyLinks createdIds))).addLinks
      (earlier.filterMap (relationshipLink createdIds entry.2))) state.1) _ ?_ _ _ holds linking
  intro earlier relationship later middle next _ carried stepped
  obtain ⟨steady, drawn⟩ := carried
  obtain ⟨present, found⟩ := steady.stored start middle.1 no row stored
  have spells := spelled.trans (congrArg (toId · no) steady.idPrefix.symm)
  obtain ⟨-, moved, -⟩ := linkRelationship_ok ctx createdIds entry.2 no present relationship middle
    next steady.kept spells found stepped
  refine ⟨steady.trans start middle.1 next.1 moved, ?_⟩
  rw [List.filterMap_append, HierarchyGraph.addLinks_append]
  have added := linkRelationship_shows ctx createdIds entry.2 no present relationship middle next _
    steady.kept spells found drawn stepped
  cases link : relationshipLink createdIds entry.2 relationship <;> simpa [link] using added

theorem importBatch_shows (db after : Database) (stories : List ImportStory)
    (report : List String × List String) (graph : HierarchyGraph) (kept : Kept db)
    (shown : Shows graph db) (ran : importBatch ctx db stories = .ok (after, report)) :
    Kept after ∧ Shows (graph.addLinks (batchLinks db stories)) after := by
  unfold importBatch at ran
  split at ran
  · next blank =>
      cases ran
      rw [List.isEmpty_iff.mp blank]
      exact ⟨kept, shown⟩
  · simp only [bind_eq_ok, pure_eq_ok, Prod.exists, Prod.mk.injEq] at ran
    obtain ⟨-, -, defaultType, -, middle, createdIds, creating, last, lines, linking, rfl, -⟩ := ran
    have created := importStories_created ctx defaultType db stories _ kept creating
    have ids : ∀ id ∈ createdIds, ∃ no row, id = toId middle.idPrefix no ∧
        middle.stories[no]? = some row := by
      intro id member
      obtain ⟨no, row, spelled, -, stored⟩ := created.ids id member
      exact ⟨no, row, spelled.trans (by rw [created.idPrefix]), stored⟩
    have drawn : Shows graph middle := shown.kept graph db middle kept created.kept (by
      intro parent child
      rw [created.idPrefix, created.ledger])
    obtain rfl := importStories_ids ctx defaultType db stories _ creating
    obtain ⟨steady, linked⟩ :=
      linkBatch_shows ctx middle stories _ _ graph created.kept ids drawn linking
    exact ⟨steady.kept, linked⟩

end Import

def snapshotLinks (id : String) (relations : List StoryRelation) : List (String × String) :=
  relations.flatMap fun relation => (parentLink id relation.relation relation.otherId).toList

def restoreLinks (db : Database) (id : String) (target : List StoryEvent) :
    Except AppError (List (String × String) × List (String × String)) := do
  let (story, _) ← resolveStory db id
  let publicId := toId db.idPrefix story
  let current ← foldStory publicId (history db story) (stateMap db.states)
  let after ← foldStory publicId target (stateMap db.states)
  return (snapshotLinks publicId (current.relationships.filter fun relation =>
      !after.relationships.contains relation),
    snapshotLinks publicId (after.relationships.filter fun relation =>
      !current.relationships.contains relation))

theorem whereDiffer_mem (differ : Bool) (event written : StoryEvent)
    (member : written ∈ whereDiffer differ event) : written = event := by
  unfold whereDiffer at member
  split at member
  · exact List.mem_singleton.mp member
  · cases member

theorem compensateState_fields (now : String) (before after : StorySnapshot) :
    ∀ event ∈ compensateState now before after, isRelation event = false := by
  intro event member
  unfold compensateState at member
  split at member
  · rcases List.mem_append.mp member with moved | closing
    · rw [List.mem_singleton.mp moved]
      rfl
    · split at closing
      · rcases List.mem_append.mp closing with cleared | closed
        · rw [whereDiffer_mem _ _ event cleared]
          rfl
        · rw [List.mem_singleton.mp closed]
          rfl
      · cases closing
  · split at member
    · rw [List.mem_singleton.mp member]
      rfl
    · rw [whereDiffer_mem _ _ event member]
      rfl

theorem compensate_relations (ctx : Ctx) (before after : StorySnapshot) (events : List StoryEvent)
    (ran : compensate ctx before after = .ok events) :
    events.filter isRelation = compensateRelations ctx.now before after := by
  simp only [compensate, bind_eq_ok, pure_eq_ok] at ran
  obtain ⟨typed, typing, rfl⟩ := ran
  rw [List.filter_append]
  have related : (compensateRelations ctx.now before after).filter isRelation =
      compensateRelations ctx.now before after := by
    rw [List.filter_eq_self]
    intro event member
    rcases List.mem_append.mp member with listed | listed <;>
      obtain ⟨relation, -, rfl⟩ := List.mem_map.mp listed <;> rfl
  rw [related, List.append_left_eq_self, List.filter_eq_nil_iff]
  intro event member
  rw [Bool.not_eq_true]
  simp only [List.mem_append] at member
  rcases member with (((((((title | text) | priority) | complexity) | labels) | awaiting) | kind) |
    state) | comments
  · rw [whereDiffer_mem _ _ event title]
    rfl
  · rw [whereDiffer_mem _ _ event text]
    rfl
  · rw [whereDiffer_mem _ _ event priority]
    split <;> rfl
  · rw [whereDiffer_mem _ _ event complexity]
    split <;> rfl
  · rw [whereDiffer_mem _ _ event labels]
    rfl
  · rw [whereDiffer_mem _ _ event awaiting]
    split <;> rfl
  · unfold compensateType at typing
    split at typing
    · split at typing <;> cases typing
      rw [List.mem_singleton.mp kind]
      rfl
    · cases typing
      cases kind
  · exact compensateState_fields ctx.now before after event state
  · rcases List.mem_append.mp comments with listed | listed <;>
      obtain ⟨comment, -, rfl⟩ := List.mem_map.mp listed <;> rfl

section Restore

variable (ctx : Ctx) (story : StoryNo) (row : StoryRow) (start : Database)
  (stored : start.stories[story]? = some row)

include stored

theorem restoreRemovals_shows (relations : List StoryRelation) (finish : Database)
    (graph : HierarchyGraph) (kept : Kept start) (shown : Shows graph start)
    (ran : (relations.map fun relation => StoryEvent.storyRelationshipRemoved ctx.now
      relation.otherId relation.relation).foldlM (restoreRelation ctx story) start = .ok finish) :
    Steady start finish ∧
      Shows (graph.dropLinks (snapshotLinks (toId start.idPrefix story) relations)) finish := by
  rw [List.foldlM_map] at ran
  refine foldlM_ok _ (fun done state => Steady start state ∧
    Shows (graph.dropLinks (snapshotLinks (toId start.idPrefix story) done)) state) relations ?_
    start finish ⟨Steady.refl start kept, shown⟩ ran
  intro done relation rest before next _ carried stepped
  obtain ⟨steady, drawn⟩ := carried
  obtain ⟨present, found⟩ := steady.stored start before story row stored
  obtain ⟨other, inverse, parsed, inverted, loses⟩ :=
    restoreRemoved_ok ctx story present before next _ _ _ steady.kept found stepped
  refine ⟨steady.trans start before next loses.toSteady, ?_⟩
  rw [snapshotLinks, List.flatMap_append, List.flatMap_singleton, HierarchyGraph.dropLinks_append]
  refine drawn.lost _ before next _ _ steady.kept loses
    (bothEnds_reciprocal story other _ (by simpa using inverted)) fun parent child => ?_
  rw [parents_bothEnds _ _ _ _ _ _ _ inverted, ← steady.idPrefix,
    ← ((parseId_ok _ _ _).mp parsed).1]

theorem restoreAdditions_shows (relations : List StoryRelation) (finish : Database)
    (graph : HierarchyGraph) (kept : Kept start) (shown : Shows graph start)
    (ran : (relations.map fun relation => StoryEvent.storyRelationshipAdded ctx.now
      relation.otherId relation.relation).foldlM (restoreRelation ctx story) start = .ok finish) :
    Steady start finish ∧
      Shows (graph.addLinks (snapshotLinks (toId start.idPrefix story) relations)) finish := by
  rw [List.foldlM_map] at ran
  refine foldlM_ok _ (fun done state => Steady start state ∧
    Shows (graph.addLinks (snapshotLinks (toId start.idPrefix story) done)) state) relations ?_
    start finish ⟨Steady.refl start kept, shown⟩ ran
  intro done relation rest before next _ carried stepped
  obtain ⟨steady, drawn⟩ := carried
  obtain ⟨present, found⟩ := steady.stored start before story row stored
  obtain ⟨other, inverse, parsed, inverted, gains⟩ :=
    restoreAdded_ok ctx story present before next _ _ _ steady.kept found stepped
  refine ⟨steady.trans start before next gains.toSteady, ?_⟩
  rw [snapshotLinks, List.flatMap_append, List.flatMap_singleton, HierarchyGraph.addLinks_append]
  refine drawn.gained _ before next _ _ steady.kept gains fun parent child => ?_
  rw [parents_bothEnds _ _ _ _ _ _ _ inverted, ← steady.idPrefix,
    ← ((parseId_ok _ _ _).mp parsed).1]

end Restore

theorem settleRestored_shows (ctx : Ctx) (db after : Database) (story : StoryNo) (id : String)
    (cleanup : List StoryEvent) (graph : HierarchyGraph) (kept : Kept db) (shown : Shows graph db)
    (ran : settleRestored ctx db story id = .ok (after, cleanup)) :
    Kept after ∧ Shows graph after := by
  simp only [settleRestored, bind_eq_ok, demand_ok] at ran
  obtain ⟨row, -, settled⟩ := ran
  split at settled
  · have loses := retractClosedBlockerEdges_ok ctx db after story cleanup kept settled
    refine ⟨loses.kept, shown.kept graph db after kept loses.kept fun parent child => ?_⟩
    rw [loses.idPrefix, loses.ledger, parents_diff _ _ _ (blockerEdges_reciprocal story)]
    exact and_iff_left (parents_blocks db.idPrefix story parent child)
  · cases settled
    exact ⟨kept, shown⟩

theorem effectiveSnapshot_relationships (db : Database) (stored : StorySnapshot) :
    (effectiveSnapshot db stored).relationships = stored.relationships := by
  unfold effectiveSnapshot
  split <;> rfl

theorem restore_shows (ctx : Ctx) (db after : Database) (id : String)
    (target appended : List StoryEvent) (graph : HierarchyGraph) (kept : Kept db)
    (shown : Shows graph db) (ran : restore ctx db id target = .ok (after, appended)) :
    ∃ dropped added, restoreLinks db id target = .ok (dropped, added) ∧ Kept after ∧
      Shows ((graph.dropLinks dropped).addLinks added) after := by
  unfold restore at ran
  split at ran
  · cases ran
  · simp only [bind_eq_ok, Prod.exists] at ran
    obtain ⟨story, row, found, current, folded, goal, aimed, compensation, compensated, writing⟩ :=
      ran
    obtain ⟨-, stored⟩ := resolveStory_ok db id story row found
    have relations := compensate_relations ctx _ _ _ compensated
    rw [compensateRelations, effectiveSnapshot_relationships] at relations
    refine ⟨snapshotLinks (toId db.idPrefix story) (current.relationships.filter fun relation =>
        !goal.relationships.contains relation),
      snapshotLinks (toId db.idPrefix story) (goal.relationships.filter fun relation =>
        !current.relationships.contains relation), ?_, ?_⟩
    · simp only [restoreLinks, bind_eq_ok, pure_eq_ok]
      exact ⟨(story, row), found, current, folded, goal, aimed, rfl⟩
    · split at writing
      · next blank =>
          cases writing
          rw [List.isEmpty_iff.mp blank, List.filter_nil, eq_comm, List.append_eq_nil_iff,
            List.map_eq_nil_iff, List.map_eq_nil_iff] at relations
          rw [relations.1, relations.2]
          exact ⟨kept, shown⟩
      · simp only [bind_eq_ok, pure_eq_ok, Prod.exists, Prod.mk.injEq] at writing
        obtain ⟨moved, plain, related, relating, last, cleanup, settling, rfl, -⟩ := writing
        have first := appendSome_plain ctx db moved story row _ _ kept stored
          (plain_stories _) plain
        have drawn : Shows graph moved := shown.kept graph db moved kept first.kept (by
          intro parent child
          rw [first.idPrefix, first.ledger, Set.union_empty])
        rw [relations, List.foldlM_append, bind_eq_ok] at relating
        obtain ⟨removed, removing, adding⟩ := relating
        obtain ⟨present, held⟩ := first.stored db moved story row stored
        obtain ⟨steadyRemoved, shownRemoved⟩ := restoreRemovals_shows ctx story present moved held _
          removed graph first.kept drawn removing
        obtain ⟨again, still⟩ := steadyRemoved.stored moved removed story present held
        obtain ⟨steadyAdded, shownAdded⟩ := restoreAdditions_shows ctx story again removed still _
          related _ steadyRemoved.kept shownRemoved adding
        rw [first.idPrefix, steadyRemoved.idPrefix, first.idPrefix] at shownAdded
        exact settleRestored_shows ctx related last story id cleanup _ steadyAdded.kept shownAdded
          settling

/-- Whether the parent edges a batch import or a restore adds would each pass the check that relating
two stories makes. -/
def parentLinksAdmitted (db : Database) : Operation → Bool
  | .importBatch stories =>
      (HierarchyGraph.fromStories (storyMap db)).admitsLinks (batchLinks db stories)
  | .restore id target =>
      match restoreLinks db id target with
      | .error _ => true
      | .ok (dropped, added) =>
          ((HierarchyGraph.fromStories (storyMap db)).dropLinks dropped).admitsLinks added
  | _ => true

section Steps

variable (ctx : Ctx) (db after : Database) (layered : Layered db)

include layered

theorem Layered.shown : Shows (HierarchyGraph.fromStories (storyMap db)) db := by
  rw [Shows, fromStories_child, storyMap_parents db layered.kept layered.ended]

theorem Turns.parents (gained : Set RelationEdge) (turns : Turns db after gained)
    (parent child : String) (names : StoredParent after parent child) :
    StoredParent db parent child ∨ Parents db.idPrefix gained parent child := by
  rw [storedParent_ledger after turns.kept, turns.idPrefix] at names
  rw [storedParent_ledger db layered.kept, ← parents_union]
  exact parents_mono _ _ _ (turns.within db after gained) parent child names

theorem Turns.acyclic (gained : Set RelationEdge) (turns : Turns db after gained)
    (apart : ∀ parent child, ¬ Parents db.idPrefix gained parent child) :
    Reach.Acyclic (StoredParent after) :=
  layered.acyclic.narrow _ _ fun parent child names =>
    (turns.parents db after layered gained parent child names).resolve_right (apart parent child)

theorem relate_acyclic (a relation b : String) (remove : Bool) (outcome : RelationOutcome)
    (checks : ctx.wouldCreateParentCycle = wouldCreateParentCycle)
    (ran : relate ctx db a relation b remove = .ok (after, outcome)) :
    Kept after ∧ Reach.Acyclic (StoredParent after) := by
  obtain ⟨⟨aNo, bNo, edges, rfl, rfl, known, turns⟩, admitted⟩ :=
    relate_turns ctx db after a relation b remove outcome layered.kept ran
  refine ⟨turns.kept, ?_⟩
  obtain ⟨pair, rfl⟩ := relationEdges_single relation edges known
  have inverted := relationEdges_inverse relation _ known pair List.mem_cons_self
  cases remove with
  | true =>
      apply turns.acyclic db after layered
      rintro parent child ⟨up, down, -, -, claims | claims⟩ <;> exact claims
  | false =>
      have named (parent child : String) :=
        parents_bothEnds db.idPrefix aNo bNo pair.1 pair.2 parent child inverted
      simp only [parentLink_edges _ relation _ pair known] at named
      cases link : parentLink (toId db.idPrefix aNo) relation (toId db.idPrefix bNo) with
      | none =>
          apply turns.acyclic db after layered
          intro parent child names
          rw [(named parent child).mp names] at link
          cases link
      | some link' =>
          obtain ⟨up, down⟩ := link'
          have apart : wouldCreateParentCycle (storyMap db) up down = false := by
            simp only [admitHierarchy, validateParentConstraints, checks, Bool.false_eq_true,
              if_false] at admitted
            unfold parentLink at link
            split at link
            · next same =>
                cases link
                rw [if_pos same] at admitted
                exact (refuse_ok _ _ _).mp admitted
            · next notDown =>
                split at link
                · next same =>
                    cases link
                    rw [if_neg notDown, if_pos same] at admitted
                    exact (refuse_ok _ _ _).mp admitted
                · cases link
          have still := (Reach.withEdge_acyclic (StoredParent db) up down layered.acyclic).mpr (by
            rw [← storyMap_parents db layered.kept layered.ended,
              ← wouldCreateParentCycle_iff, apart]
            exact Bool.false_ne_true)
          refine still.narrow _ _ fun parent child names => ?_
          refine (turns.parents db after layered _ parent child names).imp id fun added => ?_
          have same := link.symm.trans ((named parent child).mp added)
          cases same
          exact ⟨rfl, rfl⟩

theorem perform_acyclic (operation : Operation)
    (checks : ctx.wouldCreateParentCycle = wouldCreateParentCycle)
    (ran : perform ctx db operation = .ok after) :
    Kept after ∧ (Reach.Acyclic (StoredParent after) ↔
      parentLinksAdmitted db operation = true) := by
  simp only [perform, bind_eq_ok] at ran
  obtain ⟨written, body, committed⟩ := ran
  obtain rfl := commit_ok written after committed
  have nothing : ∀ parent child, ¬ Parents db.idPrefix ∅ parent child := by
    rintro parent child ⟨up, down, -, -, claims | claims⟩ <;> exact claims
  have quiet (gained : Set RelationEdge) (turns : Turns db after gained)
      (apart : ∀ parent child, ¬ Parents db.idPrefix gained parent child) :
      Kept after ∧ (Reach.Acyclic (StoredParent after) ↔ true = true) :=
    ⟨turns.kept, iff_of_true (turns.acyclic db after layered gained apart) rfl⟩
  cases operation with
  | relate a relation b remove =>
      obtain ⟨⟨result, outcome⟩, related, rfl⟩ := (map_eq_ok _ _ _).mp body
      obtain ⟨kept, acyclic⟩ :=
        relate_acyclic ctx db result layered a relation b remove outcome checks related
      exact ⟨kept, iff_of_true acyclic rfl⟩
  | blockOn id blockers awaiting =>
      obtain ⟨⟨result, touched⟩, blocked, rfl⟩ := (map_eq_ok _ _ _).mp body
      obtain ⟨subject, resolved, turns⟩ :=
        edgeBatch_turns ctx db result id blockers awaiting false touched layered.kept blocked
      exact quiet _ turns (parents_blocked db.idPrefix subject resolved)
  | unblockFrom id blockers =>
      obtain ⟨⟨result, touched⟩, unblocked, rfl⟩ := (map_eq_ok _ _ _).mp body
      obtain ⟨subject, resolved, turns⟩ :=
        edgeBatch_turns ctx db result id blockers none true touched layered.kept unblocked
      exact quiet _ turns nothing
  | create input =>
      obtain ⟨⟨result, snapshot⟩, created, rfl⟩ := (map_eq_ok _ _ _).mp body
      obtain ⟨subject, blockers, turns⟩ :=
        create_turns ctx db result input snapshot layered.kept created
      exact quiet _ turns (parents_blocked db.idPrefix subject blockers)
  | importBatch stories =>
      obtain ⟨⟨result, report⟩, imported, rfl⟩ := (map_eq_ok _ _ _).mp body
      have shown := layered.shown
      obtain ⟨kept, linked⟩ :=
        importBatch_shows ctx db result stories report _ layered.kept shown imported
      refine ⟨kept, ?_⟩
      rw [parentLinksAdmitted, HierarchyGraph.admitsLinks_iff _ _ (shown ▸ layered.acyclic), linked]
  | setState id state comment ifState awaiting leased =>
      obtain ⟨⟨result, snapshot⟩, moved, rfl⟩ := (map_eq_ok _ _ _).mp body
      exact quiet _ (setState_turns ctx db result id state comment ifState awaiting leased snapshot
        layered.kept moved) nothing
  | setFields id plan =>
      obtain ⟨⟨result, snapshot⟩, edited, rfl⟩ := (map_eq_ok _ _ _).mp body
      exact quiet _ (setFields_turns ctx db result id plan snapshot layered.kept edited) nothing
  | delete id => exact quiet _ (delete_turns ctx db after id layered.kept body) nothing
  | restore id target =>
      obtain ⟨⟨result, appended⟩, restored, rfl⟩ := (map_eq_ok _ _ _).mp body
      have shown := layered.shown
      obtain ⟨dropped, added, links, kept, linked⟩ :=
        restore_shows ctx db result id target appended _ layered.kept shown restored
      have thinner := layered.acyclic.narrow _ _ fun parent child names =>
        (shown ▸ HierarchyGraph.dropLinks_child _ dropped parent child names :
          StoredParent db parent child)
      refine ⟨kept, ?_⟩
      rw [parentLinksAdmitted, links, linked]
      exact (HierarchyGraph.admitsLinks_iff _ _ thinner).symm

end Steps

/-- A command whose relations are checked against the stored hierarchy. -/
def PerformsChecked (before after : Database) : Prop :=
  ∃ ctx operation, ctx.wouldCreateParentCycle = wouldCreateParentCycle ∧
    perform ctx before operation = .ok after

/-- Such a command that adds no parent edge the check would refuse. -/
def PerformsAdmitted (before after : Database) : Prop :=
  ∃ ctx operation, ctx.wouldCreateParentCycle = wouldCreateParentCycle ∧
    parentLinksAdmitted before operation = true ∧ perform ctx before operation = .ok after

theorem emptyProject_layered (idPrefix : String) (states : List StateDef) (types : List String)
    (automationsEnabled : Bool) :
    Layered (emptyProject idPrefix states types automationsEnabled) where
  kept := (emptyProject_agreed idPrefix states types automationsEnabled).kept
  ended := by
    rintro edge ⟨row, stored, -⟩
    cases stored
  acyclic := by
    intro node path
    obtain ⟨next, ⟨no, row, stored, -⟩, -⟩ := Relation.TransGen.head'_iff.mp path
    cases stored

theorem performsAdmitted_layered (before after : Database) (layered : Layered before)
    (performed : PerformsAdmitted before after) : Layered after := by
  obtain ⟨ctx, operation, checks, admitted, ran⟩ := performed
  obtain ⟨kept, acyclic⟩ := perform_acyclic ctx before after layered operation checks ran
  simp only [perform, bind_eq_ok] at ran
  obtain ⟨written, -, committed⟩ := ran
  obtain rfl := commit_ok written after committed
  exact ⟨kept, fun edge inside => (commit_present after after committed edge
    (kept.covered edge inside)).2, acyclic.mpr admitted⟩

/-- In every run whose imports and restores add no parent edge that the check would refuse, the
hierarchy has no cycle; the next command leaves one just if it adds such an edge; and the check
refuses just the edges that would close a cycle. -/
theorem hierarchy_acyclic (idPrefix : String) (states : List StateDef) (types : List String)
    (automationsEnabled : Bool) (db : Database)
    (reached : Runs.Reachable PerformsAdmitted
      (emptyProject idPrefix states types automationsEnabled) db) :
    Reach.Acyclic (StoredParent db) ∧
      (∀ ctx operation after, ctx.wouldCreateParentCycle = wouldCreateParentCycle →
        perform ctx db operation = .ok after →
          (Reach.Acyclic (StoredParent after) ↔ parentLinksAdmitted db operation = true)) ∧
      ∀ stories parentId childId, wouldCreateParentCycle stories parentId childId = true ↔
        Relation.ReflTransGen (ParentOf stories) childId parentId := by
  have layered := Runs.reachable_invariant PerformsAdmitted Layered _ db
    (emptyProject_layered idPrefix states types automationsEnabled) performsAdmitted_layered reached
  refine ⟨layered.acyclic, ?_, wouldCreateParentCycle_iff⟩
  intro ctx operation after checks ran
  exact (perform_acyclic ctx db after layered operation checks ran).2

def checkedCtx (now : String) : Ctx :=
  { plainCtx now with wouldCreateParentCycle := wouldCreateParentCycle }

def childStory (title : String) (parent : Option Nat) : ImportStory where
  title := title
  complexity := none
  priority := none
  labels := none
  relationships := parent.map fun index => [⟨"child-of", some index, none⟩]
  description := none
  state := none
  storyType := none

theorem hierarchy_acyclic_imported : ∃ db,
    perform (checkedCtx "t1") (emptyProject "SH" defaultStates defaultTypes true)
        (.importBatch [childStory "first" none, childStory "second" (some 0)]) = .ok db ∧
      Reach.Acyclic (StoredParent db) ∧
        (wouldCreateParentCycle (storyMap db) "SH-2" "SH-1" = true ↔
          Relation.ReflTransGen (ParentOf (storyMap db)) "SH-1" "SH-2") := by
  obtain ⟨db, ran, -⟩ := any_ok _ (fun _ => true)
    (by decide +kernel : (perform (checkedCtx "t1") (emptyProject "SH" defaultStates defaultTypes true)
      (.importBatch [childStory "first" none, childStory "second" (some 0)])).toOption.any
        (fun _ => true) = true)
  have settled := hierarchy_acyclic "SH" defaultStates defaultTypes true db
    (.single ⟨checkedCtx "t1", _, rfl, by decide +kernel, ran⟩)
  exact ⟨db, ran, settled.1, settled.2.2 _ _ _⟩

/-- A batch can name each of two stories as the child of the other. -/
theorem imported_parents_cross : ¬ ∀ (idPrefix : String) (states : List StateDef)
    (types : List String) (automationsEnabled : Bool) (db : Database),
      Runs.Reachable PerformsChecked (emptyProject idPrefix states types automationsEnabled) db →
        Reach.Acyclic (StoredParent db) := by
  intro acyclic
  obtain ⟨db, ran, -⟩ := any_ok _ (fun _ => true)
    (by decide +kernel : (perform (checkedCtx "t1") (emptyProject "SH" defaultStates defaultTypes true)
      (.importBatch [childStory "first" (some 1), childStory "second" (some 0)])).toOption.any
        (fun _ => true) = true)
  have still := acyclic "SH" defaultStates defaultTypes true db
    (.single ⟨checkedCtx "t1", _, rfl, ran⟩)
  have layered := emptyProject_layered "SH" defaultStates defaultTypes true
  rw [(perform_acyclic (checkedCtx "t1") _ db layered _ rfl ran).2] at still
  exact absurd still (by decide +kernel)

end Storyhook.Service
