import Storyhook.Service.Relation

namespace Storyhook.Service

open Storyhook.Domain Storyhook.Store
open Library Library.Outcome

def Plain (events : List StoryEvent) : Prop :=
  ∀ event ∈ events, addedRelation event = none ∧ removedRelation event = none

theorem added_plain (idPrefix : String) (story : StoryNo) (events : List StoryEvent)
    (plain : Plain events) : added idPrefix story events = ∅ := by
  ext edge
  simp only [added, Set.mem_ofPred_eq, List.mem_filterMap, Set.mem_empty_iff_false, iff_false]
  rintro ⟨-, event, member, adds⟩
  rw [(plain event member).1] at adds
  cases adds

theorem plain_transition (target : StateDef) (awaiting : Bool) (now : String)
    (extra : List StoryEvent) (plain : Plain extra) :
    Plain (stateTransitionEvents target awaiting now extra) := by
  intro event member
  simp only [stateTransitionEvents, List.mem_append, List.mem_singleton] at member
  rcases member with (rfl | inside) | closing
  · exact ⟨rfl, rfl⟩
  · exact plain event inside
  · split at closing
    · split at closing <;> simp at closing
      · rcases closing with rfl | rfl <;> exact ⟨rfl, rfl⟩
      · subst closing
        exact ⟨rfl, rfl⟩
    · cases closing

theorem hasRelation_iff (story : StorySnapshot) (relation otherId : String) :
    hasRelation story relation otherId = true ↔ ⟨relation, otherId⟩ ∈ story.relationships := by
  simp only [hasRelation, List.any_eq_true, Bool.and_eq_true, beq_iff_eq]
  constructor
  · rintro ⟨candidate, member, rfl, rfl⟩
    exact member
  · exact fun member => ⟨_, member, rfl, rfl⟩

theorem resolveStory_ok (db : Database) (id : String) (no : StoryNo) (row : StoryRow)
    (found : resolveStory db id = .ok (no, row)) :
    id = toId db.idPrefix no ∧ db.stories[no]? = some row := by
  unfold resolveStory at found
  cases parsed : parseId db.idPrefix id with
  | error failure => simp [parsed] at found
  | ok number =>
      cases stored : db.stories[number]? with
      | none => simp [parsed, stored, demand, Except.map] at found
      | some present =>
          simp only [parsed, stored, demand, Except.map, Except.ok.injEq, Prod.mk.injEq] at found
          obtain ⟨rfl, rfl⟩ := found
          exact ⟨((parseId_ok _ _ _).mp parsed).1, stored⟩

theorem resolveOpenStory_ok (db : Database) (id : String) (no : StoryNo) (row : StoryRow)
    (found : resolveOpenStory db id = .ok (no, row)) :
    id = toId db.idPrefix no ∧ db.stories[no]? = some row ∧ row.archived = false := by
  simp only [resolveOpenStory, bind_eq_ok, pure_eq_ok, refuse_ok] at found
  obtain ⟨resolved, located, -, opened, rfl⟩ := found
  obtain ⟨spelled, stored⟩ := resolveStory_ok db id _ _ located
  exact ⟨spelled, stored, opened⟩

def claimed (story : StoryNo) (claims : List Claim) : Set RelationEdge :=
  {edge | edge.storyNo = story ∧ ⟨edge.relation, edge.otherNo⟩ ∈ claims}

/-- The events that bring a story to make these claims, or to make none of them. -/
def claimEvents (now idPrefix : String) (snapshot : StorySnapshot) (claims : List Claim)
    (remove : Bool) : List StoryEvent :=
  claims.flatMap fun claim =>
    edgeEvents now snapshot claim.relation (toId idPrefix claim.otherNo) remove

section ClaimEvents

variable (now idPrefix : String) (story : StoryNo) (snapshot : StorySnapshot)
  (claims : List Claim) (extra : List StoryEvent) (plain : Plain extra)

theorem mem_claimEvents (remove : Bool) (event : StoryEvent) :
    event ∈ claimEvents now idPrefix snapshot claims remove ↔ ∃ claim ∈ claims,
      hasRelation snapshot claim.relation (toId idPrefix claim.otherNo) = remove ∧
        event = if remove then
          .storyRelationshipRemoved now (toId idPrefix claim.otherNo) claim.relation
        else .storyRelationshipAdded now (toId idPrefix claim.otherNo) claim.relation := by
  rw [claimEvents, List.mem_flatMap]
  refine exists_congr fun claim => and_congr_right fun _ => ?_
  cases held : hasRelation snapshot claim.relation (toId idPrefix claim.otherNo) <;>
    cases remove <;> simp [edgeEvents, held]

include plain

theorem claimEvents_add : ∀ event ∈ claimEvents now idPrefix snapshot claims false ++ extra,
    removedRelation event = none := by
  intro event member
  rcases List.mem_append.mp member with edge | other
  · obtain ⟨claim, -, -, rfl⟩ := (mem_claimEvents _ _ _ _ _ _).mp edge
    rfl
  · exact (plain event other).2

theorem claimEvents_remove : ∀ event ∈ claimEvents now idPrefix snapshot claims true ++ extra,
    addedRelation event = none := by
  intro event member
  rcases List.mem_append.mp member with edge | other
  · obtain ⟨claim, -, -, rfl⟩ := (mem_claimEvents _ _ _ _ _ _).mp edge
    rfl
  · exact (plain event other).1

theorem added_claimEvents (edges : Set RelationEdge) (held : ∀ claim ∈ claims,
      hasRelation snapshot claim.relation (toId idPrefix claim.otherNo) = true →
        ⟨story, claim.relation, claim.otherNo⟩ ∈ edges) :
    edges ∪ added idPrefix story (claimEvents now idPrefix snapshot claims false ++ extra) =
      edges ∪ claimed story claims := by
  ext edge
  simp only [Set.mem_union, added, claimed, Set.mem_ofPred_eq, List.mem_filterMap, List.mem_append]
  constructor
  · rintro (old | ⟨own, event, member | other, adds⟩)
    · exact Or.inl old
    · obtain ⟨claim, listed, -, rfl⟩ := (mem_claimEvents _ _ _ _ _ _).mp member
      have spelled := Option.some.inj adds
      simp only [StoryRelation.mk.injEq] at spelled
      have same := toId_injective _ _ _ spelled.2
      right
      rw [← spelled.1, ← same]
      exact ⟨own, listed⟩
    · rw [(plain event other).1] at adds
      cases adds
  · rintro (old | ⟨rfl, listed⟩)
    · exact Or.inl old
    · cases has : hasRelation snapshot edge.relation (toId idPrefix edge.otherNo) with
      | true => exact Or.inl (held _ listed has)
      | false =>
          refine Or.inr ⟨rfl, _, Or.inl ((mem_claimEvents _ _ _ _ _ _).mpr
            ⟨_, listed, has, rfl⟩), ?_⟩
          rfl

theorem removed_claimEvents (edges : Set RelationEdge) (held : ∀ claim ∈ claims,
      ⟨story, claim.relation, claim.otherNo⟩ ∈ edges →
        hasRelation snapshot claim.relation (toId idPrefix claim.otherNo) = true) :
    edges \ removed idPrefix story (claimEvents now idPrefix snapshot claims true ++ extra) =
      edges \ claimed story claims := by
  ext edge
  simp only [Set.mem_sdiff, removed, claimed, Set.mem_ofPred_eq, List.mem_filterMap,
    List.mem_append]
  refine and_congr_right fun inside => not_congr ?_
  constructor
  · rintro ⟨own, event, member | other, removes⟩
    · obtain ⟨claim, listed, -, rfl⟩ := (mem_claimEvents _ _ _ _ _ _).mp member
      have spelled := Option.some.inj removes
      simp only [StoryRelation.mk.injEq] at spelled
      have same := toId_injective _ _ _ spelled.2
      rw [← spelled.1, ← same]
      exact ⟨own, listed⟩
    · rw [(plain event other).2] at removes
      cases removes
  · rintro ⟨rfl, listed⟩
    have has := held _ listed inside
    exact ⟨rfl, _, Or.inl ((mem_claimEvents _ _ _ _ _ _).mpr ⟨_, listed, has, rfl⟩), rfl⟩

end ClaimEvents

section AppendSome

variable (ctx : Ctx) (db after : Database) (story : StoryNo) (row : StoryRow)
  (expected : ExpectedSeq) (events : List StoryEvent) (kept : Kept db)
  (stored : db.stories[story]? = some row)
  (written : appendSome ctx db story expected events = .ok after)

include kept stored written

theorem appendSome_gains (adds : ∀ event ∈ events, removedRelation event = none) :
    Gains db after (added db.idPrefix story events) := by
  unfold appendSome at written
  split at written
  · next blank =>
      cases written
      rw [List.isEmpty_iff.mp blank]
      apply (Gains.none db kept).congr
      simp [added]
  · obtain ⟨⟨result, snapshot⟩, ran, rfl⟩ := (map_eq_ok _ _ _).mp written
    exact append_gains ctx db result story row expected events snapshot kept stored ran adds

theorem appendSome_loses (removes : ∀ event ∈ events, addedRelation event = none) :
    Loses db after (removed db.idPrefix story events) := by
  unfold appendSome at written
  split at written
  · next blank =>
      cases written
      rw [List.isEmpty_iff.mp blank]
      apply (Loses.none db kept).congr
      simp [removed]
  · obtain ⟨⟨result, snapshot⟩, ran, rfl⟩ := (map_eq_ok _ _ _).mp written
    exact append_loses ctx db result story row expected events snapshot kept stored ran removes

end AppendSome

section Claims

variable (ctx : Ctx) (db after : Database) (story : StoryNo) (row : StoryRow)
  (expected : ExpectedSeq) (now idPrefix : String) (snapshot : StorySnapshot)
  (claims : List Claim) (extra : List StoryEvent) (plain : Plain extra) (kept : Kept db)
  (stored : db.stories[story]? = some row) (spelled : db.idPrefix = idPrefix)

include plain kept stored spelled

theorem claims_gained (held : ∀ claim ∈ claims,
      hasRelation snapshot claim.relation (toId idPrefix claim.otherNo) = true →
        ⟨story, claim.relation, claim.otherNo⟩ ∈ ledger db)
    (written : appendSome ctx db story expected
      (claimEvents now idPrefix snapshot claims false ++ extra) = .ok after) :
    Gains db after (claimed story claims) := by
  have adds := claimEvents_add now idPrefix snapshot claims extra plain
  apply (appendSome_gains ctx db after story row expected _ kept stored written adds).congr
  rw [spelled]
  exact added_claimEvents now idPrefix story snapshot claims extra plain (ledger db) held

theorem claims_lost (held : ∀ claim ∈ claims,
      ⟨story, claim.relation, claim.otherNo⟩ ∈ ledger db →
        hasRelation snapshot claim.relation (toId idPrefix claim.otherNo) = true)
    (written : appendSome ctx db story expected
      (claimEvents now idPrefix snapshot claims true ++ extra) = .ok after) :
    Loses db after (claimed story claims) := by
  have removes := claimEvents_remove now idPrefix snapshot claims extra plain
  apply (appendSome_loses ctx db after story row expected _ kept stored written removes).congr
  rw [spelled]
  exact removed_claimEvents now idPrefix story snapshot claims extra plain (ledger db) held

end Claims

theorem hasRelation_ledger (db : Database) (kept : Kept db) (story : StoryNo) (row : StoryRow)
    (stored : db.stories[story]? = some row) (claim : Claim) :
    hasRelation row.snapshot claim.relation (toId db.idPrefix claim.otherNo) = true ↔
      ⟨story, claim.relation, claim.otherNo⟩ ∈ ledger db := by
  rw [hasRelation_iff, mem_ledger_row db kept ⟨story, claim.relation, claim.otherNo⟩ row stored]

def blockerEdges (blocker : StoryNo) : Set RelationEdge :=
  {edge | (edge.storyNo = blocker ∧ edge.relation = "blocks") ∨
    (edge.otherNo = blocker ∧ edge.relation = "blocked-by")}

theorem blockerEdges_reciprocal (blocker : StoryNo) :
    Reciprocal mirror (blockerEdges blocker) := by
  rintro ⟨story, relation, other⟩ (⟨rfl, rfl⟩ | ⟨rfl, rfl⟩)
  · exact ⟨⟨other, "blocked-by", story⟩, rfl, Or.inr ⟨rfl, rfl⟩⟩
  · exact ⟨⟨other, "blocks", story⟩, rfl, Or.inl ⟨rfl, rfl⟩⟩

theorem retractDependent_ok (ctx : Ctx) (db after : Database) (blocker dependent : StoryNo)
    (kept : Kept db)
    (retracted : retractDependent ctx (toId db.idPrefix blocker) db dependent = .ok after) :
    Loses db after {⟨dependent, "blocked-by", blocker⟩} := by
  unfold retractDependent at retracted
  cases stored : db.stories[dependent]? with
  | none =>
      simp only [stored] at retracted
      cases retracted
      apply (Loses.none db kept).congr
      rw [Set.sdiff_empty, Set.sdiff_singleton_eq_self]
      exact mem_ledger_absent db _ stored
  | some row =>
      have listed := mem_ledger_row db kept ⟨dependent, "blocked-by", blocker⟩ row stored
      simp only [stored] at retracted
      split at retracted
      · obtain ⟨⟨result, snapshot⟩, ran, rfl⟩ := (map_eq_ok _ _ _).mp retracted
        rw [← removed_one db.idPrefix ctx.now "blocked-by" dependent blocker]
        exact append_loses ctx db result dependent row _ _ snapshot kept stored ran (by simp
          [addedRelation])
      · next lacks =>
          cases retracted
          apply (Loses.none db kept).congr
          rw [Set.sdiff_empty, Set.sdiff_singleton_eq_self]
          rwa [listed, ← hasRelation_iff]

theorem retractions_claimEvents (now idPrefix : String) (snapshot : StorySnapshot)
    (dependents : List StoryNo) :
    (((dependents.map (toId idPrefix)).filter fun dependent =>
        hasRelation snapshot "blocks" dependent).map fun dependent =>
          StoryEvent.storyRelationshipRemoved now dependent "blocks") =
      claimEvents now idPrefix snapshot (dependents.map fun other => ⟨"blocks", other⟩) true := by
  induction dependents with
  | nil => rfl
  | cons first rest ih =>
      rw [claimEvents] at ih ⊢
      rw [List.map_cons, List.map_cons, List.flatMap_cons, ← ih, List.filter_cons]
      cases held : hasRelation snapshot "blocks" (toId idPrefix first) <;> simp [edgeEvents, held]

theorem retractDependents_ok (ctx : Ctx) (db after : Database) (blocker : StoryNo)
    (dependents : List StoryNo) (kept : Kept db) (retracted :
      dependents.foldlM (retractDependent ctx (toId db.idPrefix blocker)) db = .ok after) :
    Loses db after {edge | edge.storyNo ∈ dependents ∧ edge.relation = "blocked-by" ∧
      edge.otherNo = blocker} := by
  refine foldlM_ok _ (fun done state => Loses db state {edge | edge.storyNo ∈ done ∧
    edge.relation = "blocked-by" ∧ edge.otherNo = blocker}) dependents ?_ db after ?_ retracted
  · intro done dependent rest before next _ loses stepped
    rw [← loses.idPrefix] at stepped
    have more := retractDependent_ok ctx before next blocker dependent loses.kept stepped
    apply (Loses.trans _ _ _ _ _ loses more).congr
    congr 1
    ext ⟨story, relation, other⟩
    simp only [Set.mem_union, Set.mem_ofPred_eq, Set.mem_singleton_iff, RelationEdge.mk.injEq,
      List.mem_append, List.mem_singleton, or_and_right]
  · apply (Loses.none db kept).congr
    simp

theorem retractClosedBlockerEdges_ok (ctx : Ctx) (db after : Database) (blocker : StoryNo)
    (events : List StoryEvent) (kept : Kept db)
    (retracted : retractClosedBlockerEdges ctx db blocker = .ok (after, events)) :
    Loses db after (blockerEdges blocker) := by
  simp only [retractClosedBlockerEdges, bind_eq_ok, pure_eq_ok, demand_ok, Prod.mk.injEq]
    at retracted
  generalize listing : (Std.TreeSet.ofList (((db.relations.relationsFrom blocker).filter
    (·.relation == "blocks")).map (·.otherNo))).toList = dependents at retracted
  obtain ⟨middle, ran, row, stored, last, written, rfl, -⟩ := retracted
  have dependent (other : StoryNo) :
      other ∈ dependents ↔ RelationEdge.mk blocker "blocks" other ∈ db.relations.rows := by
    rw [← listing, Std.TreeSet.mem_toList, Std.TreeSet.mem_ofList, List.contains_iff_mem,
      ← RelationTable.mem_relationsFrom db.relations blocker ⟨"blocks", other⟩]
    simp only [List.mem_map, List.mem_filter, beq_iff_eq]
    constructor
    · rintro ⟨⟨relation, far⟩, ⟨member, rfl⟩, rfl⟩
      exact member
    · exact fun member => ⟨_, ⟨member, rfl⟩, rfl⟩
  have first := retractDependents_ok ctx db middle blocker dependents kept ran
  rw [← first.idPrefix, retractions_claimEvents, ← List.append_nil (claimEvents _ _ _ _ _)]
    at written
  have second := claims_lost ctx middle last blocker row _ _ _ row.snapshot _ [] (by simp [Plain])
    first.kept stored rfl (fun claim _ inside =>
      (hasRelation_ledger middle first.kept blocker row stored claim).mpr inside) written
  apply (Loses.trans _ _ _ _ _ first second).congr
  ext ⟨story, relation, other⟩
  simp only [Set.mem_sdiff, Set.mem_union, Set.mem_ofPred_eq, blockerEdges, claimed, List.mem_map,
    Claim.mk.injEq]
  refine and_congr_right fun inside => not_congr ?_
  have row := kept.covered _ inside
  constructor
  · rintro (⟨-, rfl, rfl⟩ | ⟨rfl, far, listed, rfl, rfl⟩)
    · exact Or.inr ⟨rfl, rfl⟩
    · exact Or.inl ⟨rfl, rfl⟩
  · rintro (⟨rfl, rfl⟩ | ⟨rfl, rfl⟩)
    · exact Or.inr ⟨rfl, other, (dependent other).mpr row, rfl, rfl⟩
    · refine Or.inl ⟨(dependent story).mpr ?_, rfl, rfl⟩
      exact (db.relations.mem_mirror story other "blocked-by" "blocks" rfl).mp row

/-- A read model in which every edge one history records is recorded by the other. -/
structure Agreed (db : Database) : Prop where
  kept : Kept db
  ends : Reciprocal mirror (ledger db)

/-- A change of the tables that adds edges to the histories, and retracts others on both ends. -/
structure Turns (db after : Database) (gained : Set RelationEdge) : Prop where
  kept : Kept after
  idPrefix : after.idPrefix = db.idPrefix
  states : after.states = db.states
  retracts : ∃ lost, Mirrored mirror lost ∧ ledger after = (ledger db ∪ gained) \ lost

theorem Turns.none (db : Database) (kept : Kept db) : Turns db db ∅ :=
  ⟨kept, rfl, rfl, ∅, Mirrored.empty mirror, by rw [Set.union_empty, Set.sdiff_empty]⟩

theorem Gains.turns (db after : Database) (edges : Set RelationEdge)
    (gains : Gains db after edges) :
    Turns db after edges :=
  ⟨gains.kept, gains.idPrefix, gains.states, ∅, Mirrored.empty mirror, by
    rw [gains.ledger, Set.sdiff_empty]⟩

theorem Turns.retract (db middle after : Database) (gained lost : Set RelationEdge)
    (turns : Turns db middle gained) (loses : Loses middle after lost)
    (closed : Mirrored mirror lost) : Turns db after gained := by
  obtain ⟨earlier, mirrored, edges⟩ := turns.retracts
  refine ⟨loses.kept, loses.idPrefix.trans turns.idPrefix, loses.states.trans turns.states,
    earlier ∪ lost, Mirrored.union mirror _ _ mirrored closed, ?_⟩
  rw [loses.ledger, edges, Set.sdiff_sdiff]

theorem Loses.turns (db after : Database) (lost : Set RelationEdge) (kept : Kept db)
    (loses : Loses db after lost) (closed : Mirrored mirror lost) : Turns db after ∅ :=
  (Turns.none db kept).retract db db after ∅ lost loses closed

theorem Turns.within (db after : Database) (gained : Set RelationEdge)
    (turns : Turns db after gained) : ledger after ⊆ ledger db ∪ gained := by
  obtain ⟨lost, -, edges⟩ := turns.retracts
  rw [edges]
  exact Set.sdiff_subset

theorem Turns.agreed (db after : Database) (gained : Set RelationEdge)
    (turns : Turns db after gained) (agreed : Agreed db) (closed : Reciprocal mirror gained) :
    Agreed after := by
  obtain ⟨lost, mirrored, edges⟩ := turns.retracts
  refine ⟨turns.kept, ?_⟩
  rw [edges]
  exact Reciprocal.diff mirror mirror_involutive _ _
    (Reciprocal.union mirror _ _ agreed.ends closed) mirrored

theorem retractIf_turns (ctx : Ctx) (closes : Bool) (db middle after : Database) (story : StoryNo)
    (gained : Set RelationEdge) (turns : Turns db middle gained)
    (retracted : retractIf ctx closes middle story = .ok after) : Turns db after gained := by
  unfold retractIf at retracted
  split at retracted
  · obtain ⟨⟨result, events⟩, ran, rfl⟩ := (map_eq_ok _ _ _).mp retracted
    exact turns.retract db middle result gained _
      (retractClosedBlockerEdges_ok ctx middle result story events turns.kept ran)
      (Reciprocal.mirrored mirror _ (blockerEdges_reciprocal story))
  · cases retracted
    exact turns

theorem settleParent_ok (ctx : Ctx) (states : StateCatalog) (effective : StoryMap) (id : String)
    (row : StoryRow) (events settled : List StoryEvent) (remove closes : Bool)
    (ran : settleParent ctx states effective id row events remove = .ok (settled, closes)) :
    ∃ extra, Plain extra ∧ settled = events ++ extra := by
  have unchanged : Plain [] := by simp [Plain]
  unfold settleParent at ran
  split at ran
  · split at ran
    · split at ran
      · obtain ⟨target, -, same⟩ := (map_eq_ok _ _ _).mp ran
        cases same
        exact ⟨_, plain_transition _ _ _ _ unchanged, rfl⟩
      · cases ran
        exact ⟨[], unchanged, (List.append_nil _).symm⟩
    · cases ran
      exact ⟨[], unchanged, (List.append_nil _).symm⟩
  · split at ran
    · cases ran
      refine ⟨_, ?_, rfl⟩
      simp [Plain, addedRelation, removedRelation]
    · cases ran
      exact ⟨[], unchanged, (List.append_nil _).symm⟩

def bothEnds (a b : StoryNo) (edges : List (String × String)) : Set RelationEdge :=
  claimed b (edges.map fun edge => ⟨edge.2, a⟩) ∪ claimed a (edges.map fun edge => ⟨edge.1, b⟩)

theorem bothEnds_reciprocal (a b : StoryNo) (edges : List (String × String))
    (inverse : ∀ pair ∈ edges, inverseRelation pair.1 = some pair.2) :
    Reciprocal mirror (bothEnds a b edges) := by
  rintro ⟨story, relation, other⟩ (⟨rfl, listed⟩ | ⟨rfl, listed⟩)
  · obtain ⟨pair, member, same⟩ := List.mem_map.mp listed
    cases same
    have back := inverseRelation_involutive _ _ (inverse pair member)
    exact ⟨⟨other, pair.1, story⟩, by simp [mirror, back],
      Or.inr ⟨rfl, List.mem_map.mpr ⟨pair, member, rfl⟩⟩⟩
  · obtain ⟨pair, member, same⟩ := List.mem_map.mp listed
    cases same
    exact ⟨⟨other, pair.2, story⟩, by simp [mirror, inverse pair member],
      Or.inl ⟨rfl, List.mem_map.mpr ⟨pair, member, rfl⟩⟩⟩

theorem bothEnds_written (ctx : Ctx) (db first second : Database) (aNo bNo : StoryNo)
    (aRow bRow : StoryRow) (edges : List (String × String)) (aExtra bExtra : List StoryEvent)
    (remove : Bool) (kept : Kept db) (storedA : db.stories[aNo]? = some aRow)
    (storedB : db.stories[bNo]? = some bRow) (aPlain : Plain aExtra) (bPlain : Plain bExtra)
    (inverse : ∀ pair ∈ edges, inverseRelation pair.1 = some pair.2)
    (bWritten : appendSome ctx db bNo (.exact bRow.headSeq) (claimEvents ctx.now db.idPrefix
      bRow.snapshot (edges.map fun edge => ⟨edge.2, aNo⟩) remove ++ bExtra) = .ok first)
    (aWritten : appendSome ctx first aNo (.exact aRow.headSeq) (claimEvents ctx.now db.idPrefix
      aRow.snapshot (edges.map fun edge => ⟨edge.1, bNo⟩) remove ++ aExtra) = .ok second) :
    Turns db second (if remove then ∅ else bothEnds aNo bNo edges) := by
  have listedA := hasRelation_ledger db kept aNo aRow storedA
  have listedB := hasRelation_ledger db kept bNo bRow storedB
  cases remove with
  | false =>
      have gainsB := claims_gained ctx db first bNo bRow _ _ _ bRow.snapshot _ bExtra bPlain
        kept storedB rfl (fun claim _ held => (listedB claim).mp held) bWritten
      obtain ⟨later, present⟩ := gainsB.stored db first aNo aRow storedA
      have gainsA := claims_gained ctx first second aNo later _ _ _ aRow.snapshot _ aExtra aPlain
        gainsB.kept present gainsB.idPrefix (fun claim _ held => by
          rw [gainsB.ledger]
          exact Or.inl ((listedA claim).mp held)) aWritten
      exact (Gains.trans _ _ _ _ _ gainsB gainsA).turns db second _
  | true =>
      have losesB := claims_lost ctx db first bNo bRow _ _ _ bRow.snapshot _ bExtra bPlain
        kept storedB rfl (fun claim _ inside => (listedB claim).mpr inside) bWritten
      obtain ⟨later, present⟩ := losesB.stored db first aNo aRow storedA
      have losesA := claims_lost ctx first second aNo later _ _ _ aRow.snapshot _ aExtra aPlain
        losesB.kept present losesB.idPrefix (fun claim _ inside => by
          rw [losesB.ledger] at inside
          exact (listedA claim).mpr inside.1) aWritten
      exact (Loses.trans _ _ _ _ _ losesB losesA).turns db second _ kept
        (Reciprocal.mirrored mirror _ (bothEnds_reciprocal aNo bNo edges inverse))

theorem appendSome_nil (ctx : Ctx) (db : Database) (story : StoryNo) (expected : ExpectedSeq)
    (events : List StoryEvent) (blank : events.isEmpty = true) :
    appendSome ctx db story expected events = .ok db := if_pos blank

/-- What relating two stories does, with the check it passed before it added anything. -/
structure Relates (ctx : Ctx) (db after : Database) (a relation b : String) (remove : Bool) : Prop
    where
  named : ∃ aNo bNo edges, a = toId db.idPrefix aNo ∧ b = toId db.idPrefix bNo ∧
    relationEdges relation = some edges ∧
    Turns db after (if remove then ∅ else bothEnds aNo bNo edges)
  admitted : admitHierarchy ctx db a b relation remove = .ok ()

theorem relate_turns (ctx : Ctx) (db after : Database) (a relation b : String) (remove : Bool)
    (outcome : RelationOutcome) (kept : Kept db)
    (related : relate ctx db a relation b remove = .ok (after, outcome)) :
    Relates ctx db after a relation b remove := by
  simp only [relate, bind_eq_ok, demand_ok, refuse_ok, Prod.exists] at related
  obtain ⟨aNo, aRow, resolved, bNo, bRow, found, -, apart, edges, known, -, -, ⟨⟩,
    admitted, aEvents,
    aCloses, aSettled, bEvents, bCloses, bSettled, written⟩ := related
  obtain ⟨spelledA, storedA, -⟩ := resolveOpenStory_ok db a aNo aRow resolved
  obtain ⟨spelledB, storedB⟩ := resolveStory_ok db b bNo bRow found
  refine ⟨⟨aNo, bNo, edges, spelledA, spelledB, known, ?_⟩, admitted⟩
  obtain ⟨aExtra, aPlain, rfl⟩ := settleParent_ok ctx _ _ _ _ _ _ _ _ aSettled
  obtain ⟨bExtra, bPlain, rfl⟩ := settleParent_ok ctx _ _ _ _ _ _ _ _ bSettled
  have ends := fun first second => bothEnds_written ctx db first second aNo bNo aRow bRow edges
    aExtra bExtra remove kept storedA storedB aPlain bPlain
      (relationEdges_inverse relation edges known)
  have aShape : (edges.flatMap fun edge => edgeEvents ctx.now aRow.snapshot edge.1 b remove) =
      claimEvents ctx.now db.idPrefix aRow.snapshot
        (edges.map fun edge => ⟨edge.1, bNo⟩) remove := by
    rw [claimEvents, List.flatMap_map, spelledB]
  have bShape : (edges.flatMap fun edge => edgeEvents ctx.now bRow.snapshot edge.2 a remove) =
      claimEvents ctx.now db.idPrefix bRow.snapshot
        (edges.map fun edge => ⟨edge.2, aNo⟩) remove := by
    rw [claimEvents, List.flatMap_map, spelledA]
  rw [aShape, bShape] at written
  split at written
  · next blank =>
      rw [Bool.and_eq_true] at blank
      rw [pure_eq_ok, Prod.mk.injEq] at written
      obtain ⟨rfl, -⟩ := written
      exact ends db db (appendSome_nil ctx db bNo _ _ blank.2)
        (appendSome_nil ctx db aNo _ _ blank.1)
  · simp only [bind_eq_ok, pure_eq_ok, demand_ok, Prod.mk.injEq] at written
    obtain ⟨first, bWritten, second, aWritten, third, aRetracted, last, bRetracted, -, -, rfl, -⟩ :=
      written
    apply retractIf_turns ctx bCloses db third last bNo _ _ bRetracted
    apply retractIf_turns ctx aCloses db second third aNo _ _ aRetracted
    exact ends first second bWritten aWritten

theorem resolveBlockers_ok (db : Database) (subject : Option String) (blockers : List String)
    (resolved : List ResolvedBlocker) (ran : resolveBlockers db subject blockers = .ok resolved) :
    ∀ blocker ∈ resolved, blocker.id = toId db.idPrefix blocker.no ∧
      db.stories[blocker.no]? = some blocker.row := by
  intro blocker member
  obtain ⟨id, -, found⟩ := mapM_ok _ _ _ ran blocker member
  simp only [resolveBlocker, bind_eq_ok, pure_eq_ok, Prod.exists] at found
  obtain ⟨-, -, no, row, located, rfl⟩ := found
  exact resolveStory_ok db id no row located

def blocksEdges (subject : StoryNo) (blockers : List ResolvedBlocker) : Set RelationEdge :=
  {edge | edge.storyNo ∈ blockers.map (·.no) ∧ edge.relation = "blocks" ∧ edge.otherNo = subject}

def blockedClaims (blockers : List ResolvedBlocker) : List Claim :=
  blockers.map fun blocker => ⟨"blocked-by", blocker.no⟩

def blockedEdges (subject : StoryNo) (blockers : List ResolvedBlocker) : Set RelationEdge :=
  blocksEdges subject blockers ∪ claimed subject (blockedClaims blockers)

theorem blocks_reciprocal (subject : StoryNo) (blockers : List ResolvedBlocker) :
    Reciprocal mirror (blockedEdges subject blockers) := by
  rintro ⟨story, relation, other⟩ (⟨listed, rfl, rfl⟩ | ⟨rfl, listed⟩)
  · obtain ⟨blocker, member, rfl⟩ := List.mem_map.mp listed
    exact ⟨⟨other, "blocked-by", blocker.no⟩, rfl,
      Or.inr ⟨rfl, List.mem_map.mpr ⟨blocker, member, rfl⟩⟩⟩
  · obtain ⟨blocker, member, same⟩ := List.mem_map.mp listed
    cases same
    exact ⟨⟨blocker.no, "blocks", story⟩, rfl,
      Or.inl ⟨List.mem_map.mpr ⟨blocker, member, rfl⟩, rfl, rfl⟩⟩

section BlocksEdges

variable (ctx : Ctx) (db after : Database) (subject : StoryNo) (blockers : List ResolvedBlocker)
  (touched : List String) (kept : Kept db)
  (present : ∀ blocker ∈ blockers, ∃ row : StoryRow, db.stories[blocker.no]? = some row)

include kept present

theorem appendBlocksEdges_gain (held : ∀ blocker ∈ blockers,
      hasRelation blocker.row.snapshot "blocks" (toId db.idPrefix subject) = true →
        ⟨blocker.no, "blocks", subject⟩ ∈ ledger db)
    (ran : appendBlocksEdges ctx db blockers (toId db.idPrefix subject) false =
      .ok (after, touched)) : Gains db after (blocksEdges subject blockers) := by
  refine foldlM_ok _ (fun done state => Gains db state.1 (blocksEdges subject done)) blockers
    ?_ (db, []) (after, touched) ?_ ran
  · intro done blocker rest before next split gains stepped
    have member : blocker ∈ blockers := by simp [split]
    obtain ⟨row, stored⟩ := present blocker member
    obtain ⟨later, found⟩ := gains.stored db before.1 blocker.no row stored
    simp only [appendBlocksEdge, bind_eq_ok, pure_eq_ok] at stepped
    obtain ⟨written, appended, rfl⟩ := stepped
    have more := claims_gained ctx before.1 written blocker.no later _ ctx.now db.idPrefix
      blocker.row.snapshot [⟨"blocks", subject⟩] [] (by simp [Plain]) gains.kept found
      gains.idPrefix (by
        intro claim single has
        rw [List.mem_singleton.mp single] at has ⊢
        rw [gains.ledger]
        exact Or.inl (held blocker member has)) (by simpa [claimEvents] using appended)
    apply (Gains.trans _ _ _ _ _ gains more).congr
    congr 1
    ext ⟨story, relation, other⟩
    simp [blocksEdges, claimed, or_and_right]
  · apply (Gains.none db kept).congr
    simp [blocksEdges]

theorem appendBlocksEdges_lose (held : ∀ blocker ∈ blockers,
      ⟨blocker.no, "blocks", subject⟩ ∈ ledger db →
        hasRelation blocker.row.snapshot "blocks" (toId db.idPrefix subject) = true)
    (ran : appendBlocksEdges ctx db blockers (toId db.idPrefix subject) true =
      .ok (after, touched)) : Loses db after (blocksEdges subject blockers) := by
  refine foldlM_ok _ (fun done state => Loses db state.1 (blocksEdges subject done)) blockers
    ?_ (db, []) (after, touched) ?_ ran
  · intro done blocker rest before next split loses stepped
    have member : blocker ∈ blockers := by simp [split]
    obtain ⟨row, stored⟩ := present blocker member
    obtain ⟨later, found⟩ := loses.stored db before.1 blocker.no row stored
    simp only [appendBlocksEdge, bind_eq_ok, pure_eq_ok] at stepped
    obtain ⟨written, appended, rfl⟩ := stepped
    have more := claims_lost ctx before.1 written blocker.no later _ ctx.now db.idPrefix
      blocker.row.snapshot [⟨"blocks", subject⟩] [] (by simp [Plain]) loses.kept found
      loses.idPrefix (by
        intro claim single inside
        rw [List.mem_singleton.mp single] at inside ⊢
        rw [loses.ledger] at inside
        exact held blocker member inside.1) (by simpa [claimEvents] using appended)
    apply (Loses.trans _ _ _ _ _ loses more).congr
    congr 1
    ext ⟨story, relation, other⟩
    simp [blocksEdges, claimed, or_and_right]
  · apply (Loses.none db kept).congr
    simp [blocksEdges]

end BlocksEdges

theorem plain_awaiting (ctx : Ctx) (blockers : List ResolvedBlocker) (awaiting : Option String)
    (events : List StoryEvent) (ran : awaitingEvents ctx blockers awaiting = .ok events) :
    Plain events := by
  unfold awaitingEvents at ran
  split at ran
  · cases ran
    simp [Plain]
  · simp only at ran
    split at ran
    · cases ran
    · split at ran <;> cases ran <;> simp [Plain, addedRelation, removedRelation]

theorem edgeBatch_turns (ctx : Ctx) (db after : Database) (id : String) (blockers : List String)
    (awaiting : Option String) (remove : Bool) (touched : List String) (kept : Kept db)
    (ran : edgeBatch ctx db id blockers awaiting remove = .ok (after, touched)) :
    ∃ subject resolved, Turns db after (if remove then ∅ else blockedEdges subject resolved) := by
  simp only [edgeBatch, bind_eq_ok, pure_eq_ok, Prod.exists, Prod.mk.injEq] at ran
  obtain ⟨aNo, aRow, opened, resolved, located, middle, changed, blocksRan, reasons, explained,
    last, written, rfl, -⟩ := ran
  refine ⟨aNo, resolved, ?_⟩
  obtain ⟨spelled, stored, -⟩ := resolveOpenStory_ok db id aNo aRow opened
  have found := resolveBlockers_ok db _ blockers resolved located
  have plain := plain_awaiting ctx resolved awaiting reasons explained
  have present : ∀ blocker ∈ resolved, ∃ row : StoryRow, db.stories[blocker.no]? = some row :=
    fun blocker member => ⟨_, (found blocker member).2⟩
  have listed (blocker : ResolvedBlocker) (member : blocker ∈ resolved) :=
    hasRelation_ledger db kept blocker.no blocker.row (found blocker member).2 ⟨"blocks", aNo⟩
  have own := hasRelation_ledger db kept aNo aRow stored
  have shape : (resolved.flatMap fun blocker =>
      edgeEvents ctx.now aRow.snapshot "blocked-by" blocker.id remove) =
      claimEvents ctx.now db.idPrefix aRow.snapshot (blockedClaims resolved) remove := by
    rw [claimEvents, blockedClaims, List.flatMap_map]
    exact List.flatMap_congr fun blocker member => by rw [(found blocker member).1]
  rw [shape] at written
  rw [spelled] at blocksRan
  cases remove with
  | false =>
      have gainsB := appendBlocksEdges_gain ctx db middle aNo resolved changed kept present
        (fun blocker member has => (listed blocker member).mp has) blocksRan
      obtain ⟨later, still⟩ := gainsB.stored db middle aNo aRow stored
      have gainsA := claims_gained ctx middle last aNo later _ _ _ aRow.snapshot _ reasons plain
        gainsB.kept still gainsB.idPrefix (fun claim _ has => by
          rw [gainsB.ledger]
          exact Or.inl ((own claim).mp has)) written
      exact (Gains.trans _ _ _ _ _ gainsB gainsA).turns db last _
  | true =>
      have losesB := appendBlocksEdges_lose ctx db middle aNo resolved changed kept present
        (fun blocker member inside => (listed blocker member).mpr inside) blocksRan
      obtain ⟨later, still⟩ := losesB.stored db middle aNo aRow stored
      have losesA := claims_lost ctx middle last aNo later _ _ _ aRow.snapshot _ reasons plain
        losesB.kept still losesB.idPrefix (fun claim _ inside => by
          rw [losesB.ledger] at inside
          exact (own claim).mpr inside.1) written
      exact (Loses.trans _ _ _ _ _ losesB losesA).turns db last _ kept
        (Reciprocal.mirrored mirror _ (blocks_reciprocal aNo resolved))

end Storyhook.Service
