import Storyhook.Service.Transfer

namespace Storyhook.Service

open Storyhook.Domain Storyhook.Store
open Library Library.Outcome

/-- Tables in which the same stories exist, and the same of them are closed. -/
def SameClosure (db after : Database) : Prop :=
  ∀ no : StoryNo, (after.stories[no]?).map (·.archived) = (db.stories[no]?).map (·.archived)

theorem SameClosure.trans (db middle after : Database) (first : SameClosure db middle)
    (second : SameClosure middle after) : SameClosure db after :=
  fun no => (second no).trans (first no)

theorem isOpen_iff (db : Database) (id : String) (story : StoryNo)
    (parsed : parseId db.idPrefix id = .ok story) :
    isOpen db id = true ↔ (db.stories[story]?).map (·.archived) = some false := by
  rw [isOpen, parsed]
  simp only
  cases db.stories[story]? <;> simp

theorem Wrote.named (db after : Database) (story : StoryNo) (events : List StoryEvent)
    (snapshot : StorySnapshot) (wrote : Wrote db after story events snapshot)
    (adds : ∀ event ∈ events, removedRelation event = none) (relation : StoryRelation)
    (listed : relation ∈ events.filterMap addedRelation) :
    ∃ other, parseId db.idPrefix relation.otherId = .ok other := by
  obtain ⟨middle, head, appends, put⟩ := wrote.put
  rw [← appends.idPrefix]
  apply put.named
  obtain ⟨_, _, _, _, _, _, _, _, _, shape⟩ := (finishFold_ok _ _ _ _).mp wrote.folded
  rw [shape]
  exact Std.TreeSet.mem_toList.mpr ((replay_adds _ _ _ adds relation).mpr (Or.inr listed))

theorem append_closure (ctx : Ctx) (db after : Database) (story : StoryNo) (row : StoryRow)
    (expected : ExpectedSeq) (events : List StoryEvent) (snapshot : StorySnapshot) (kept : Kept db)
    (stored : db.stories[story]? = some row)
    (written : appendAndFold ctx db story expected events = .ok (after, snapshot))
    (still : ∀ event ∈ events, movesClosure event = false) : SameClosure db after := by
  have wrote := appendAndFold_ok ctx db after story expected events snapshot written
  intro no
  by_cases own : story = no
  · subst own
    obtain ⟨later, found, same⟩ :=
      archived_kept db after story events snapshot wrote kept row stored still
    rw [found, stored, Option.map_some, Option.map_some, same]
  · rw [wrote.row_elsewhere db after story events snapshot no own]

theorem appendRelation_gains (ctx : Ctx) (db after : Database) (a b relation : String)
    (aNo : StoryNo) (row : StoryRow) (kept : Kept db) (spelled : a = toId db.idPrefix aNo)
    (stored : db.stories[aNo]? = some row)
    (ran : appendRelation ctx db a b relation = .ok after) :
    ∃ bNo, parseId db.idPrefix b = .ok bNo ∧ Gains db after {⟨aNo, relation, bNo⟩} ∧
      SameClosure db after := by
  unfold appendRelation at ran
  split at ran
  · cases ran
  · next story parsed =>
      obtain ⟨⟨result, snapshot⟩, written, rfl⟩ := (map_eq_ok _ _ _).mp ran
      obtain rfl := toId_injective _ _ _ (spelled.symm.trans ((parseId_ok _ _ _).mp parsed).1)
      have wrote := appendAndFold_ok ctx db result aNo _ _ snapshot written
      obtain ⟨bNo, named⟩ := wrote.named _ _ _ _ _ (by simp [removedRelation])
        ⟨relation, b⟩ (by simp [addedRelation])
      obtain rfl := ((parseId_ok _ _ _).mp named).1
      refine ⟨bNo, named, ?_, ?_⟩
      · rw [← added_one db.idPrefix ctx.now relation aNo bNo]
        exact append_gains ctx db result aNo row _ _ snapshot kept stored written (by simp
          [removedRelation])
      · exact append_closure ctx db result aNo row _ _ snapshot kept stored written (by simp
          [movesClosure])

/-- The edges a link writes: the near end, and the far end where the story there is open. -/
def linkedEdges (db : Database) (aNo bNo : StoryNo) (edges : List (String × String)) :
    Set RelationEdge :=
  if (db.stories[bNo]?).map (·.archived) = some false then bothEnds aNo bNo edges
  else claimed aNo (edges.map fun edge => ⟨edge.1, bNo⟩)

theorem linkEdge_gains (ctx : Ctx) (db after : Database) (a b : String) (aNo : StoryNo)
    (row : StoryRow) (edge : String × String) (kept : Kept db)
    (spelled : a = toId db.idPrefix aNo) (stored : db.stories[aNo]? = some row)
    (ran : linkEdge ctx a b db edge = .ok after) :
    ∃ bNo, parseId db.idPrefix b = .ok bNo ∧ Gains db after (linkedEdges db aNo bNo [edge]) ∧
      SameClosure db after := by
  simp only [linkEdge, bind_eq_ok] at ran
  obtain ⟨near, nearRan, far⟩ := ran
  obtain ⟨bNo, named, gainsNear, closureNear⟩ :=
    appendRelation_gains ctx db near a b edge.1 aNo row kept spelled stored nearRan
  refine ⟨bNo, named, ?_⟩
  have opened := isOpen_iff near b bNo (by rw [gainsNear.idPrefix, named])
  rw [closureNear bNo] at opened
  have single : ({⟨aNo, edge.1, bNo⟩} : Set RelationEdge) = claimed aNo [⟨edge.1, bNo⟩] := by
    ext ⟨own, name, other⟩
    simp [claimed]
  split at far
  · next present =>
      obtain ⟨old, oldStored, -⟩ := Option.map_eq_some_iff.mp (opened.mp present)
      obtain ⟨later, found⟩ := gainsNear.stored db near bNo old oldStored
      have spelledB := ((parseId_ok _ _ _).mp named).1
      rw [← gainsNear.idPrefix] at spelledB spelled
      obtain ⟨again, back, gainsFar, closureFar⟩ := appendRelation_gains ctx near after b a edge.2
        bNo later gainsNear.kept spelledB found far
      obtain rfl := toId_injective _ _ _ (spelled.symm.trans ((parseId_ok _ _ _).mp back).1)
      refine ⟨?_, closureNear.trans db near after closureFar⟩
      rw [linkedEdges, if_pos (opened.mp present)]
      apply (Gains.trans _ _ _ _ _ gainsNear gainsFar).congr
      congr 1
      ext ⟨own, name, other⟩
      simp [bothEnds, claimed, or_comm]
  · next absent =>
      rw [pure_eq_ok] at far
      subst far
      rw [linkedEdges, if_neg (mt opened.mpr absent)]
      exact ⟨single ▸ gainsNear, closureNear⟩

/-- What one described relation wrote: nothing where it names its own story. -/
def LinkStep (createdIds : List String) (relationship : ImportRelationship) (aNo : StoryNo)
    (db after : Database) : Prop :=
  after = db ∨ ∃ bNo pair, bNo ≠ aNo ∧
    relationshipEnd createdIds relationship = .ok (toId db.idPrefix bNo) ∧
      parseId db.idPrefix (toId db.idPrefix bNo) = .ok bNo ∧
        relationEdges relationship.relation = some [pair] ∧
          Gains db after (linkedEdges db aNo bNo [pair])

theorem linkRelationship_ok (ctx : Ctx) (createdIds : List String) (a : String) (aNo : StoryNo)
    (row : StoryRow) (relationship : ImportRelationship) (done next : Database × List String)
    (kept : Kept done.1) (spelled : a = toId done.1.idPrefix aNo)
    (stored : done.1.stories[aNo]? = some row)
    (ran : linkRelationship ctx createdIds a done relationship = .ok next) :
    LinkStep createdIds relationship aNo done.1 next.1 ∧ Steady done.1 next.1 ∧
      SameClosure done.1 next.1 := by
  simp only [linkRelationship, bind_eq_ok] at ran
  obtain ⟨b, pointed, linking⟩ := ran
  split at linking
  · rw [pure_eq_ok] at linking
    subst linking
    exact ⟨Or.inl rfl, Steady.refl done.1 kept, fun _ => rfl⟩
  · next apart =>
      simp only [bind_eq_ok, pure_eq_ok, demand_ok] at linking
      obtain ⟨edges, known, linked, folded, rfl⟩ := linking
      obtain ⟨pair, rfl⟩ := relationEdges_single _ edges known
      simp only [List.foldlM_cons, List.foldlM_nil, bind_eq_ok, pure_eq_ok, exists_eq_right]
        at folded
      obtain ⟨bNo, named, gains, closure⟩ :=
        linkEdge_gains ctx done.1 linked a b aNo row pair kept spelled stored folded
      obtain rfl := ((parseId_ok _ _ _).mp named).1
      refine ⟨Or.inr ⟨bNo, pair, ?_, pointed, named, known, gains⟩, gains.toSteady, closure⟩
      rintro rfl
      exact apart (beq_iff_eq.mpr spelled)

theorem linkBatch_ok (ctx : Ctx) (start : Database) (stories : List ImportStory)
    (createdIds : List String) (finish : Database × List String) (kept : Kept start)
    (created : ∀ id ∈ createdIds, ∃ no row, id = toId start.idPrefix no ∧
      start.stories[no]? = some row)
    (Inv : Database → Prop) (initial : Inv start)
    (preserved : ∀ story ∈ stories, ∀ relationship ∈ story.relationships.getD [],
      ∀ aNo before next, Steady start before → SameClosure start before → Inv before →
        LinkStep createdIds relationship aNo before next → Inv next)
    (ran : linkBatch ctx start stories createdIds = .ok finish) :
    Steady start finish.1 ∧ SameClosure start finish.1 ∧ Inv finish.1 := by
  refine foldlM_ok _ (fun _ state => Steady start state.1 ∧ SameClosure start state.1 ∧
    Inv state.1) _ ?_ _ _ ⟨Steady.refl start kept, fun _ => rfl, initial⟩ ran
  intro done entry rest before after split holds linking
  have member : entry ∈ stories.zip createdIds := by simp [split]
  obtain ⟨inStories, inCreated⟩ := List.of_mem_zip member
  obtain ⟨no, row, spelled, stored⟩ := created entry.2 inCreated
  refine foldlM_ok _ (fun _ state => Steady start state.1 ∧ SameClosure start state.1 ∧
    Inv state.1) _ ?_ _ _ holds linking
  intro earlier relationship later middle next shape carried stepped
  obtain ⟨steady, closure, holding⟩ := carried
  obtain ⟨present, found⟩ := steady.stored start middle.1 no row stored
  obtain ⟨step, moved, still⟩ := linkRelationship_ok ctx createdIds entry.2 no present relationship
    middle next steady.kept (steady.idPrefix ▸ spelled) found stepped
  refine ⟨steady.trans start middle.1 next.1 moved, closure.trans start middle.1 next.1 still, ?_⟩
  exact preserved entry.1 inStories relationship (by simp [shape]) no middle.1 next.1 steady closure
    holding step

/-- The tables once the stories of a batch have been created, before any link. -/
structure Created (start state : Database) (createdIds : List String) : Prop where
  kept : Kept state
  idPrefix : state.idPrefix = start.idPrefix
  states : state.states = start.states
  ledger : ledger state = ledger start
  ids : ∀ id ∈ createdIds, ∃ no row, id = toId start.idPrefix no ∧ start.stories[no]? = none ∧
    state.stories[no]? = some row
  rows : ∀ (no : StoryNo) (row : StoryRow), state.stories[no]? = some row →
    start.stories[no]? = some row ∨ (start.stories[no]? = none ∧ row.archived = false)
  stays : ∀ (no : StoryNo) (row : StoryRow), start.stories[no]? = some row →
    state.stories[no]? = some row

theorem importStory_created (ctx : Ctx) (defaultType : String) (start : Database)
    (done next : Database × List String) (story : ImportStory)
    (created : Created start done.1 done.2)
    (ran : importStory ctx defaultType done story = .ok next) : Created start next.1 next.2 := by
  simp only [importStory, bind_eq_ok, pure_eq_ok, Prod.exists] at ran
  obtain ⟨events, batched, after, snapshot, written, rfl⟩ := ran
  simp only [importEvents, bind_eq_ok, pure_eq_ok] at batched
  obtain ⟨state, -, complexity, -, priority, -, rfl⟩ := batched
  have plain := creationBatch_plain ctx story.title state false complexity priority story.labels
    story.description (story.storyType.getD defaultType)
  generalize creationBatch ctx story.title state false complexity priority story.labels
    story.description (story.storyType.getD defaultType) = events at plain written
  obtain ⟨creates, named⟩ := appendNew_creates ctx done.1 after _ events snapshot created.kept
    (fun event member => (plain event member).2.1) written
  generalize (allocateStoryNo done.1).2 = no at creates named
  obtain ⟨row, stored, archived⟩ := creates.row
  have opened : row.archived = false := by
    have still := replay_closedAt (stateMap done.1.states) [] events fun event member =>
      (plain event member).2.2
    rw [List.nil_append] at still
    rw [archived, still]
    rfl
  have unclaimed := added_plain done.1.idPrefix no events fun event member =>
    ⟨(plain event member).1, (plain event member).2.1⟩
  have unused : start.stories[no]? = none := by
    by_contra taken
    obtain ⟨old, before⟩ := Option.ne_none_iff_exists'.mp taken
    have fresh := creates.fresh
    rw [created.stays no old before] at fresh
    cases fresh
  refine ⟨creates.kept, creates.idPrefix.trans created.idPrefix,
    creates.states.trans created.states, ?_, ?_, ?_, ?_⟩
  · rw [creates.ledger, unclaimed, Set.union_empty, created.ledger]
  · intro id member
    rcases List.mem_append.mp member with earlier | last
    · obtain ⟨other, old, spelled, absent, present⟩ := created.ids id earlier
      refine ⟨other, old, spelled, absent, ?_⟩
      rw [creates.others other, present]
      rintro rfl
      rw [creates.fresh] at present
      cases present
    · rw [List.mem_singleton] at last
      refine ⟨no, row, ?_, unused, stored⟩
      rw [last, named, created.idPrefix]
  · intro other old present
    by_cases own : no = other
    · subst own
      rw [stored, Option.some.injEq] at present
      exact Or.inr ⟨unused, present ▸ opened⟩
    · rw [creates.others other own] at present
      exact created.rows other old present
  · intro other old present
    have before := created.stays other old present
    rw [creates.others other, before]
    rintro rfl
    rw [unused] at present
    cases present

theorem importStories_created (ctx : Ctx) (defaultType : String) (start : Database)
    (stories : List ImportStory) (finish : Database × List String) (kept : Kept start)
    (ran : stories.foldlM (importStory ctx defaultType) (start, []) = .ok finish) :
    Created start finish.1 finish.2 := by
  refine foldlM_ok _ (fun _ state => Created start state.1 state.2) stories ?_ _ _ ?_ ran
  · intro done story rest before after _ created stepped
    exact importStory_created ctx defaultType start before after story created stepped
  · exact ⟨kept, rfl, rfl, rfl, by simp, fun _ _ stored => Or.inl stored, fun _ _ stored => stored⟩

theorem closedEnd_named (start state : Database) (createdIds : List String)
    (relationship : ImportRelationship) (bNo : StoryNo) (created : Created start state createdIds)
    (pointed : relationshipEnd createdIds relationship = .ok (toId state.idPrefix bNo))
    (named : parseId state.idPrefix (toId state.idPrefix bNo) = .ok bNo)
    (closed : (state.stories[bNo]?).map (·.archived) = some true) :
    namesClosed start relationship = true := by
  obtain ⟨row, stored, archived⟩ := Option.map_eq_some_iff.mp closed
  rw [created.idPrefix] at pointed named
  rcases created.rows bNo row stored with before | ⟨-, opened⟩
  · unfold relationshipEnd at pointed
    unfold namesClosed
    cases byIndex : relationship.refIndex with
    | some refIndex =>
        rw [byIndex] at pointed
        obtain ⟨no, later, spelled, absent, -⟩ :=
          created.ids _ (List.mem_of_getElem? ((demand_ok _ _ _).mp pointed))
        rw [toId_injective _ _ _ spelled, absent] at before
        cases before
    | none =>
        cases byId : relationship.otherId with
        | none => simp [byIndex, byId] at pointed
        | some id =>
            simp only [byIndex, byId, Except.ok.injEq] at pointed
            simp [pointed, named, before, archived]
  · rw [opened] at archived
    cases archived

def EndsMet (db : Database) : Prop :=
  ∀ edge ∈ ledger db, db.stories[edge.otherNo]? ≠ none →
    ∃ back, mirror edge = some back ∧ back ∈ ledger db

theorem linkStep_endsMet (createdIds : List String) (relationship : ImportRelationship)
    (aNo : StoryNo) (before after : Database) (met : EndsMet before)
    (step : LinkStep createdIds relationship aNo before after)
    (opened : ∀ bNo : StoryNo,
      relationshipEnd createdIds relationship = .ok (toId before.idPrefix bNo) →
        parseId before.idPrefix (toId before.idPrefix bNo) = .ok bNo →
          (before.stories[bNo]?).map (·.archived) ≠ some true) : EndsMet after := by
  rcases step with rfl | ⟨bNo, pair, -, pointed, named, known, gains⟩
  · exact met
  · intro edge inside present
    rw [gains.ledger] at inside ⊢
    rw [Ne, gains.present] at present
    rcases inside with older | linked
    · obtain ⟨back, mirrored, member⟩ := met edge older present
      exact ⟨back, mirrored, Or.inl member⟩
    · unfold linkedEdges at linked ⊢
      split at linked
      · next target =>
          obtain ⟨back, mirrored, member⟩ := bothEnds_reciprocal aNo bNo [pair]
            (relationEdges_inverse _ _ known) edge linked
          exact ⟨back, mirrored, Or.inr (by rwa [if_pos target])⟩
      · next target =>
          obtain ⟨-, listed⟩ := linked
          simp only [List.map_cons, List.map_nil, List.mem_singleton, Claim.mk.injEq] at listed
          obtain ⟨row, stored⟩ := Option.ne_none_iff_exists'.mp present
          rw [listed.2] at stored
          have closed := opened bNo pointed named
          rw [stored] at target closed
          cases archived : row.archived <;> simp [archived] at target closed

theorem importBatch_agreed (ctx : Ctx) (db after : Database) (stories : List ImportStory)
    (report : List String × List String) (agreed : Agreed db)
    (opened : linksClosed db stories = false)
    (ran : importBatch ctx db stories = .ok (after, report))
    (committed : commit after = .ok after) : Agreed after := by
  unfold importBatch at ran
  split at ran
  · cases ran
    exact agreed
  · simp only [bind_eq_ok, pure_eq_ok, Prod.exists, Prod.mk.injEq] at ran
    obtain ⟨-, -, defaultType, -, middle, createdIds, creating, last, lines, linking, rfl, -⟩ := ran
    have created := importStories_created ctx defaultType db stories _ agreed.kept creating
    have ids : ∀ id ∈ createdIds, ∃ no row, id = toId middle.idPrefix no ∧
        middle.stories[no]? = some row := by
      intro id member
      obtain ⟨no, row, spelled, -, stored⟩ := created.ids id member
      exact ⟨no, row, spelled.trans (by rw [created.idPrefix]), stored⟩
    obtain ⟨steady, -, met⟩ := linkBatch_ok ctx middle stories createdIds _ created.kept ids EndsMet
      (by
        intro edge inside _
        rw [created.ledger] at inside ⊢
        exact agreed.ends edge inside)
      (by
        intro story listed relationship member aNo before next held closure met step
        refine linkStep_endsMet createdIds relationship aNo before next met step ?_
        intro bNo pointed named closed
        rw [held.idPrefix] at pointed named
        rw [closure bNo] at closed
        have names := closedEnd_named db middle createdIds relationship bNo created pointed named
          closed
        simp only [linksClosed, List.any_eq_false, Bool.not_eq_true] at opened
        rw [opened story listed relationship member] at names
        cases names)
      linking
    refine ⟨steady.kept, fun edge inside => met edge inside ?_⟩
    exact (commit_present last last committed edge (steady.kept.covered edge inside)).2

end Storyhook.Service
