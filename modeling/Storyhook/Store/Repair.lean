import Storyhook.Store.Findings

namespace Storyhook.Store

open Storyhook.Domain
open Library.Outcome

/-- The stories whose rows a repair can write: they fold, and on all of their events. -/
def Rewritable (db : Database) (no : StoryNo) : Prop :=
  Decoded db no ∧ ∃ snapshot, Folds db no snapshot

def RebuiltRow (db : Database) (no : StoryNo) (row : StoryRow) : Prop :=
  ∃ log snapshot, db.events[no]? = some log ∧
    (rebuildStory db.idPrefix db.states no log).snapshot = .ok snapshot ∧
      row = storyRow db no snapshot log.head.seq

/-- The tables of a repair that has written some stories so far. -/
structure Repaired (origin : Database) (written : List StoryNo) (db : Database) : Prop where
  idPrefix : db.idPrefix = origin.idPrefix
  states : db.states = origin.states
  events : db.events = origin.events
  decoded : ∀ no ∈ written, Decoded origin no
  rows : ∀ no ∈ written, ∃ row, RebuiltRow origin no row ∧ db.stories[no]? = some row
  kept : ∀ no, no ∉ written → db.stories[no]? = origin.stories[no]?
  known : ∀ no ∈ written, ∀ claim, StoredClaim db no claim →
    ∃ inverse, inverseRelation claim.relation = some inverse
  untouched : ∀ row : RelationEdge, row.storyNo ∉ written → row.otherNo ∉ written →
    (row ∈ db.relations.rows ↔ row ∈ origin.relations.rows)
  edges : ∀ no ∈ written, ∀ relation inverse other, inverseRelation relation = some inverse →
    (RelationEdge.mk no relation other ∈ db.relations.rows ↔
      StoredClaim db no ⟨relation, other⟩ ∨ (StoredClaim db other ⟨inverse, no⟩ ∧
        (other ∈ written ∨ RelationEdge.mk no relation other ∈ origin.relations.rows)))

theorem Repaired.begin (db : Database) : Repaired db [] db where
  idPrefix := rfl
  states := rfl
  events := rfl
  decoded := by simp
  rows := by simp
  kept := fun _ _ => rfl
  known := by simp
  untouched := fun _ _ _ => Iff.rfl
  edges := by simp

section Write

variable (origin before after : Database) (written : List StoryNo) (story : StoryNo)
  (snapshot : StorySnapshot) (head : Nat)

theorem Repaired.claimed_mirror (repaired : Repaired origin written before)
    (no other : StoryNo) (member : no ∈ written) (relation inverse : String)
    (inverted : inverseRelation relation = some inverse)
    (claimed : StoredClaim before no ⟨relation, other⟩) :
    RelationEdge.mk other inverse no ∈ before.relations.rows := by
  rw [← before.relations.mem_mirror no other relation inverse inverted,
    repaired.edges no member relation inverse other inverted]
  exact Or.inl claimed

theorem Repaired.edges_own (repaired : Repaired origin written before)
    (put : Put before after story snapshot head) (fresh : story ∉ written)
    (relation inverse : String) (other : StoryNo)
    (inverted : inverseRelation relation = some inverse) :
    RelationEdge.mk story relation other ∈ after.relations.rows ↔
      StoredClaim after story ⟨relation, other⟩ ∨ (StoredClaim after other ⟨inverse, story⟩ ∧
        (other ∈ written ++ [story] ∨
          RelationEdge.mk story relation other ∈ origin.relations.rows)) := by
  rw [put.own relation inverse other inverted, Put.stored_own before after story snapshot head put]
  by_cases loop : story = other
  · subst loop
    have absent (name : String) : Claim.mk name story ∉ parsedClaims before.idPrefix snapshot :=
      fun claim => after.relations.apart _ (put.claimed _ claim) rfl
    simp only [Put.stored_own before after story snapshot head put, absent, false_and, and_false,
      or_false]
  · refine or_congr Iff.rfl ?_
    rw [and_comm, Put.stored_elsewhere before after story snapshot head put other loop]
    refine and_congr_right fun back => ?_
    simp only [List.mem_append, List.mem_singleton, Ne.symm loop, or_false]
    by_cases done : other ∈ written
    · have mirror := repaired.claimed_mirror origin before written other story done inverse relation
        (inverseRelation_involutive _ _ inverted) back
      exact iff_of_true mirror (Or.inl done)
    · rw [repaired.untouched ⟨story, relation, other⟩ fresh done, or_iff_right done]

theorem Repaired.edges_toward (repaired : Repaired origin written before)
    (put : Put before after story snapshot head) (no : StoryNo) (member : no ∈ written)
    (apart : story ≠ no) (relation inverse : String)
    (inverted : inverseRelation relation = some inverse) :
    RelationEdge.mk no relation story ∈ after.relations.rows ↔
      StoredClaim after no ⟨relation, story⟩ ∨ StoredClaim after story ⟨inverse, no⟩ := by
  have back := inverseRelation_involutive _ _ inverted
  rw [after.relations.mem_mirror no story relation inverse inverted,
    put.own inverse relation no back, Put.stored_own before after story snapshot head put,
    Put.stored_elsewhere before after story snapshot head put no apart, or_comm]
  refine or_congr ⟨fun both => both.2, fun claimed => ⟨?_, claimed⟩⟩ Iff.rfl
  exact repaired.claimed_mirror origin before written no story member relation inverse inverted
    claimed

theorem Repaired.edges_elsewhere (repaired : Repaired origin written before)
    (put : Put before after story snapshot head) (no : StoryNo) (member : no ∈ written)
    (apart : story ≠ no) (relation inverse : String) (other : StoryNo) (beyond : story ≠ other)
    (inverted : inverseRelation relation = some inverse) :
    RelationEdge.mk no relation other ∈ after.relations.rows ↔
      StoredClaim after no ⟨relation, other⟩ ∨ (StoredClaim after other ⟨inverse, no⟩ ∧
        (other ∈ written ++ [story] ∨
          RelationEdge.mk no relation other ∈ origin.relations.rows)) := by
  rw [put.elsewhere ⟨no, relation, other⟩ (Ne.symm apart) (Ne.symm beyond),
    repaired.edges no member relation inverse other inverted,
    Put.stored_elsewhere before after story snapshot head put no apart,
    Put.stored_elsewhere before after story snapshot head put other beyond,
    List.mem_append, List.mem_singleton, or_iff_left (Ne.symm beyond)]

theorem Repaired.write (repaired : Repaired origin written before)
    (put : Put before after story snapshot head) (fresh : story ∉ written)
    (log : EventLog) (found : origin.events[story]? = some log) (decoded : Decoded origin story)
    (folded : (rebuildStory origin.idPrefix origin.states story log).snapshot = .ok snapshot)
    (current : head = log.head.seq) : Repaired origin (written ++ [story]) after where
  idPrefix := put.idPrefix.trans repaired.idPrefix
  states := put.states.trans repaired.states
  events := put.events.trans repaired.events
  decoded := by
    intro no member
    rcases List.mem_append.mp member with earlier | last
    · exact repaired.decoded no earlier
    · exact List.mem_singleton.mp last ▸ decoded
  rows := by
    intro no member
    rw [Put.row before after story snapshot head put no]
    rcases List.mem_append.mp member with earlier | last
    · have apart : story ≠ no := fun same => fresh (same ▸ earlier)
      rw [if_neg apart]
      exact repaired.rows no earlier
    · have same := List.mem_singleton.mp last
      subst same
      refine ⟨_, ⟨log, snapshot, found, folded, rfl⟩, ?_⟩
      rw [if_pos rfl, current]
      simp only [storyRow, globalSeqAt, repaired.events]
  kept := by
    intro no absent
    rw [List.mem_append, not_or, List.mem_singleton] at absent
    rw [Put.row before after story snapshot head put no, if_neg (Ne.symm absent.2)]
    exact repaired.kept no absent.1
  known := by
    intro no member claim claimed
    rcases List.mem_append.mp member with earlier | last
    · have apart : story ≠ no := fun same => fresh (same ▸ earlier)
      rw [Put.stored_elsewhere before after story snapshot head put no apart] at claimed
      exact repaired.known no earlier claim claimed
    · rw [List.mem_singleton.mp last,
        Put.stored_own before after story snapshot head put] at claimed
      obtain ⟨inverse, inverted, -⟩ := after.relations.mirrored _ (put.claimed claim claimed)
      exact ⟨inverse, inverted⟩
  untouched := by
    intro row own other
    rw [List.mem_append, not_or, List.mem_singleton] at own other
    rw [put.elsewhere row own.2 other.2]
    exact repaired.untouched row own.1 other.1
  edges := by
    intro no member relation inverse other inverted
    rcases List.mem_append.mp member with earlier | last
    · have apart : story ≠ no := fun same => fresh (same ▸ earlier)
      by_cases toward : story = other
      · subst toward
        rw [repaired.edges_toward origin before after written story snapshot head put no earlier
          apart relation inverse inverted]
        simp
      · exact repaired.edges_elsewhere origin before after written story snapshot head put no
          earlier apart relation inverse other toward inverted
    · have same := List.mem_singleton.mp last
      subst same
      exact repaired.edges_own origin before after written no snapshot head put fresh relation
        inverse other inverted

end Write

/-- What the loop of a repair has done with the stories it has seen. -/
structure Swept (db : Database) (seen : List RebuiltStory) (state : Database × RepairReport) :
    Prop where
  repaired : Repaired db state.2.rewritten state.1
  rewritten : ∀ no, no ∈ state.2.rewritten ↔ ∃ story ∈ seen, story.storyNo = no ∧
    story.isComplete = true ∧ ∃ snapshot, story.snapshot = .ok snapshot
  unrepairable : ∀ no, no ∈ state.2.unrepairable.map (·.1) ↔ ∃ story ∈ seen,
    story.storyNo = no ∧ ∃ reason, story.snapshot = .error reason
  before : state.2.repaired = diff db

theorem repairStory_ok (db after : Database) (report finish : RepairReport) (story : RebuiltStory)
    (swept : repairStory (db, report) story = .ok (after, finish)) :
    (∃ reason, story.snapshot = .error reason ∧ after = db ∧ finish =
      { report with unrepairable := report.unrepairable ++ [(story.storyNo, reason)] }) ∨
    (∃ snapshot, story.snapshot = .ok snapshot ∧ story.isComplete = false ∧ after = db ∧ finish =
      { report with withheld := report.withheld ++ [(story.storyNo, story.unknownEvents)] }) ∨
    (∃ snapshot, story.snapshot = .ok snapshot ∧ story.isComplete = true ∧
      putStory db snapshot story.headSeq = .ok after ∧ finish =
        { report with rewritten := report.rewritten ++ [story.storyNo] }) := by
  unfold repairStory at swept
  split at swept
  · next reason failed =>
      left
      cases swept
      exact ⟨reason, failed, rfl, rfl⟩
  · next snapshot folded =>
      right
      split at swept
      · next partly =>
          left
          cases swept
          exact ⟨snapshot, folded, by simpa using partly, rfl, rfl⟩
      · next whole =>
          right
          simp only [bind_eq_ok, pure_eq_ok, Prod.mk.injEq] at swept
          obtain ⟨result, put, rfl, rfl⟩ := swept
          exact ⟨snapshot, folded, by simpa using whole, put, rfl⟩

theorem rebuild_distinct (db : Database) : ((rebuild db).map (·.storyNo)).Nodup := by
  have keys : (rebuild db).map (·.storyNo) = db.events.keys := by
    rw [← Std.TreeMap.map_fst_toList_eq_keys, rebuild, List.map_map]
    rfl
  rw [keys]
  exact Std.TreeMap.nodup_keys

theorem Folds.id (db : Database) (no : StoryNo) (snapshot : StorySnapshot)
    (folds : Folds db no snapshot) : snapshot.id = toId db.idPrefix no := by
  obtain ⟨log, -, folded⟩ := folds
  unfold rebuildStory at folded
  cases result : foldStory (toId db.idPrefix no) (partitionKnown no log.rows).1
      (stateMap db.states) with
  | error failure => simp [result, Except.mapError] at folded
  | ok found =>
      have same : found = snapshot := by simpa [result, Except.mapError] using folded
      rw [← same]
      obtain ⟨_, _, _, _, _, _, _, _, _, rfl⟩ := (finishFold_ok _ _ _ _).mp result
      rfl

theorem swept_step (db : Database) (seen : List RebuiltStory) (story : RebuiltStory)
    (rest : List RebuiltStory) (before after : Database × RepairReport)
    (split : rebuild db = seen ++ story :: rest) (swept : Swept db seen before)
    (stepped : repairStory before story = .ok after) : Swept db (seen ++ [story]) after := by
  have member : story ∈ rebuild db := by simp [split]
  obtain ⟨state, report⟩ := before
  obtain ⟨next, finish⟩ := after
  rcases repairStory_ok state next report finish story stepped with
    ⟨reason, failed, rfl, rfl⟩ | ⟨snapshot, folded, partly, rfl, rfl⟩ |
    ⟨snapshot, folded, whole, put, rfl⟩
  · refine ⟨swept.repaired, ?_, ?_, swept.before⟩
    · intro no
      simp [swept.rewritten, or_and_right, exists_or, failed]
    · intro no
      simp only [List.map_append, List.mem_append, swept.unrepairable]
      simp [or_and_right, exists_or, failed, eq_comm]
  · refine ⟨swept.repaired, ?_, ?_, swept.before⟩
    · intro no
      simp [swept.rewritten, or_and_right, exists_or, partly]
    · intro no
      rw [swept.unrepairable]
      simp [or_and_right, exists_or, folded]
  · have fresh : story.storyNo ∉ report.rewritten := by
      intro done
      obtain ⟨other, seenBefore, same, -⟩ := (swept.rewritten _).mp done
      have distinct := rebuild_distinct db
      rw [split, List.map_append, List.nodup_append] at distinct
      exact distinct.2.2 _ (List.mem_map.mpr ⟨other, seenBefore, same⟩) _
        (List.mem_cons_self) rfl
    have folds := (folds_iff db story member snapshot).mp folded
    obtain ⟨log, found, same⟩ := (mem_rebuild db story).mp member
    obtain ⟨no, parsed, change⟩ := putStory_put state next snapshot story.headSeq put
    rw [swept.repaired.idPrefix, folds.id] at parsed
    have named := toId_injective _ _ _ ((parseId_ok _ _ _).mp parsed).1
    subst named
    refine ⟨?_, ?_, ?_, swept.before⟩
    · refine swept.repaired.write db state next report.rewritten story.storyNo snapshot
        story.headSeq change fresh log found ((isComplete_iff db story member).mp whole) ?_ ?_
      · rw [← same, folded]
      · rw [same]
        rfl
    · intro no
      rw [List.mem_append, swept.rewritten, List.mem_singleton, eq_comm (a := no)]
      simp [or_and_right, exists_or, folded, whole]
    · intro no
      rw [swept.unrepairable]
      simp [or_and_right, exists_or, folded]

theorem repairReadModel_ok (db after : Database) (report : RepairReport)
    (repaired : repairReadModel db = .ok (after, report)) :
    Repaired db report.rewritten after ∧ (∀ no, no ∈ report.rewritten ↔ Rewritable db no) ∧
      (∀ no, no ∈ report.unrepairable.map (·.1) ↔ ∃ reason, FoldFails db no reason) ∧
        report.repaired = diff db := by
  simp only [repairReadModel, bind_eq_ok, pure_eq_ok, Prod.exists, Prod.mk.injEq] at repaired
  obtain ⟨written, reported, ran, settled, committed, rfl, rfl⟩ := repaired
  have swept : Swept db (rebuild db) (written, reported) := by
    refine foldlM_ok repairStory (Swept db) (rebuild db) ?_ _ _ ?_ ran
    · exact swept_step db
    · exact ⟨.begin db, by simp, by simp, rfl⟩
  rw [commit_ok written settled committed]
  refine ⟨swept.repaired, ?_, ?_, swept.before⟩
  · intro no
    rw [swept.rewritten]
    constructor
    · rintro ⟨story, member, rfl, whole, snapshot, folded⟩
      exact ⟨(isComplete_iff db story member).mp whole, snapshot,
        (folds_iff db story member snapshot).mp folded⟩
    · rintro ⟨decoded, snapshot, folds⟩
      have ⟨log, found, _⟩ := folds
      obtain ⟨story, member, rfl⟩ := exists_rebuilt db no log found
      exact ⟨story, member, rfl, (isComplete_iff db story member).mpr decoded, snapshot,
        (folds_iff db story member snapshot).mpr folds⟩
  · intro no
    rw [swept.unrepairable]
    constructor
    · rintro ⟨story, member, rfl, reason, failed⟩
      exact ⟨reason, (foldFails_iff db story member reason).mp failed⟩
    · rintro ⟨reason, fails⟩
      have ⟨log, found, _⟩ := fails
      obtain ⟨story, member, rfl⟩ := exists_rebuilt db no log found
      exact ⟨story, member, rfl, reason, (foldFails_iff db story member reason).mpr fails⟩

end Storyhook.Store
