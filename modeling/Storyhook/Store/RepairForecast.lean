import Storyhook.Store.Repair

namespace Storyhook.Store

open Storyhook.Domain

theorem globalSeqAt_head (db : Database) (no : StoryNo) (log : EventLog)
    (found : db.events[no]? = some log) :
    globalSeqAt db no log.head.seq = log.head.globalSeq := by
  have ordered := log.ordered
  rw [← List.dropLast_append_getLast log.present, List.pairwise_append] at ordered
  have located : log.rows.find? (·.seq == log.head.seq) = some log.head := by
    conv_lhs => rw [← List.dropLast_append_getLast log.present]
    rw [List.find?_append, List.find?_eq_none.mpr]
    · simp [EventLog.head]
    · intro row earlier
      have below := ordered.2.2 row earlier _ (List.mem_singleton_self _)
      simp only [EventLog.head, beq_iff_eq]
      omega
  rw [globalSeqAt, found, Option.bind_some, located]
  rfl

theorem columnComparisons_settled (db : Database) (no : StoryNo) (log : EventLog)
    (snapshot : StorySnapshot) (found : db.events[no]? = some log) :
    ∀ column ∈ columnComparisons (storyRow db no snapshot log.head.seq) snapshot log.head.seq
        log.head.globalSeq, column.persisted = column.rebuilt := by
  have global := globalSeqAt_head db no log found
  simp [columnComparisons, storyRow, global]

theorem snapshot_column_basis (row : StoryRow) (expected : StorySnapshot) (head global : Nat)
    (persisted rebuilt : Rendered) : ∀ column ∈ columnComparisons row expected head global ++
      [⟨"relations", persisted, rebuilt, .fold⟩],
    column.field = snapshotField → column.basis = .fold := by
  simp [columnComparisons, snapshotField]

section Repaired

variable (db after : Database) (written : List StoryNo)

theorem Repaired.rebuilt (repaired : Repaired db written after) :
    rebuild after = rebuild db := by
  rw [rebuild, rebuild, repaired.idPrefix, repaired.states, repaired.events]

theorem Repaired.folds (repaired : Repaired db written after) (no : StoryNo)
    (snapshot : StorySnapshot) : Folds after no snapshot ↔ Folds db no snapshot := by
  rw [Folds, Folds, repaired.idPrefix, repaired.states, repaired.events]

theorem Repaired.foldFails (repaired : Repaired db written after) (no : StoryNo)
    (reason : String) : FoldFails after no reason ↔ FoldFails db no reason := by
  rw [FoldFails, FoldFails, repaired.idPrefix, repaired.states, repaired.events]

theorem Repaired.foldClaim (repaired : Repaired db written after) (no : StoryNo)
    (claim : Claim) : FoldClaim after no claim ↔ FoldClaim db no claim := by
  simp only [FoldClaim, repaired.folds, repaired.idPrefix]

theorem Repaired.stored_written (repaired : Repaired db written after) (no : StoryNo)
    (member : no ∈ written) (claim : Claim) :
    StoredClaim after no claim ↔ FoldClaim db no claim := by
  obtain ⟨row, ⟨log, snapshot, found, folded, rfl⟩, stored⟩ := repaired.rows no member
  have folds : Folds db no snapshot := ⟨log, found, folded⟩
  rw [StoredClaim, stored, repaired.idPrefix]
  constructor
  · rintro ⟨row, same, claimed⟩
    cases same
    exact ⟨snapshot, folds, claimed⟩
  · rintro ⟨other, again, claimed⟩
    rw [Folds.unique db no other snapshot again folds] at claimed
    exact ⟨_, rfl, claimed⟩

theorem Repaired.stored_kept (repaired : Repaired db written after) (no : StoryNo)
    (absent : no ∉ written) (claim : Claim) :
    StoredClaim after no claim ↔ StoredClaim db no claim := by
  rw [StoredClaim, StoredClaim, repaired.kept no absent, repaired.idPrefix]

theorem Repaired.findings_written (repaired : Repaired db written after) (story : RebuiltStory)
    (member : story ∈ rebuild db) (done : story.storyNo ∈ written)
    (claims : Std.TreeSet RelationEdge) (divergence : Divergence) (basis : Basis)
    (found : (divergence, basis) ∈ storyFindings after claims story) :
    divergence.field = "relations" ∧ edgesText (persistedEdges after story.storyNo) ≠
      edgesText (closureEdges claims story.storyNo) := by
  obtain ⟨expected, row, folded, stored, column, compared, differs, -, rfl⟩ :=
    (mem_storyFindings after claims story divergence basis).mp found
  rcases List.mem_append.mp compared with indexed | relations
  · obtain ⟨fresh, ⟨log, snapshot, located, rebuilt, rfl⟩, held⟩ :=
      repaired.rows story.storyNo done
    obtain ⟨again, sameLog, same⟩ := (mem_rebuild db story).mp member
    rw [located, Option.some.injEq] at sameLog
    subst sameLog
    rw [stored, Option.some.injEq] at held
    rw [← same, folded, Except.ok.injEq] at rebuilt
    rw [held, rebuilt] at indexed
    have head : story.headSeq = log.head.seq := congrArg RebuiltStory.headSeq same
    have global : story.headGlobalSeq = log.head.globalSeq :=
      congrArg RebuiltStory.headGlobalSeq same
    rw [head, global] at indexed
    exact absurd (columnComparisons_settled db _ log snapshot located column indexed) differs
  · rw [List.mem_singleton.mp relations] at differs ⊢
    exact ⟨rfl, fun same => differs (congrArg Rendered.text same)⟩

def Renders (edges : Std.TreeSet String) (edge : String → StoryNo → Prop) : Prop :=
  ∀ text, text ∈ edges ↔ ∃ relation inverse other,
    inverseRelation relation = some inverse ∧ edge relation other ∧ text = edgeText relation other

theorem persistedEdges_renders (no : StoryNo) :
    Renders (persistedEdges db no) fun relation other =>
      RelationEdge.mk no relation other ∈ db.relations.rows := by
  intro text
  rw [persistedEdges, Std.TreeSet.mem_ofList, List.contains_iff_mem, List.mem_map]
  constructor
  · rintro ⟨claim, member, rfl⟩
    rw [RelationTable.mem_relationsFrom] at member
    obtain ⟨inverse, inverted, -⟩ := db.relations.mirrored _ member
    exact ⟨claim.relation, inverse, claim.otherNo, inverted, member, rfl⟩
  · rintro ⟨relation, inverse, other, -, member, rfl⟩
    exact ⟨⟨relation, other⟩, (RelationTable.mem_relationsFrom _ _ _).mpr member, rfl⟩

theorem closureEdges_renders (no : StoryNo) (named : ∀ claim, FoldClaim db no claim →
    ∃ inverse, inverseRelation claim.relation = some inverse) :
    Renders (closureEdges (historyClaims db.idPrefix (rebuild db)) no) fun relation other =>
      FoldClaim db no ⟨relation, other⟩ ∨
        ∃ inverse, inverseRelation relation = some inverse ∧ FoldClaim db other ⟨inverse, no⟩ := by
  intro text
  rw [closureEdges, Std.TreeSet.mem_ofList, List.contains_iff_mem, List.mem_flatMap]
  simp only [Std.TreeSet.mem_toList, mem_historyClaims, List.mem_append]
  constructor
  · rintro ⟨⟨story, relation, other⟩, claimed, own | mirror⟩
    · split at own
      · next same =>
          dsimp only at same claimed own
          subst same
          obtain ⟨inverse, inverted⟩ := named _ claimed
          exact ⟨relation, inverse, other, inverted, Or.inl claimed, List.mem_singleton.mp own⟩
      · cases own
    · split at mirror
      · cases mirror
      · next inverse inverted =>
          split at mirror
          · next same =>
              dsimp only at same claimed inverted mirror
              subst same
              have back := inverseRelation_involutive _ _ inverted
              exact ⟨inverse, relation, story, back, Or.inr ⟨relation, back, claimed⟩,
                List.mem_singleton.mp mirror⟩
          · cases mirror
  · rintro ⟨relation, inverse, other, inverted, own | ⟨back, known, claimed⟩, rfl⟩
    · refine ⟨⟨no, relation, other⟩, own, Or.inl ?_⟩
      simp
    · refine ⟨⟨other, back, no⟩, claimed, Or.inr ?_⟩
      simp [inverseRelation_involutive _ _ known]

theorem Renders.edgesText_eq (left right : Std.TreeSet String)
    (first second : String → StoryNo → Prop) (leftRenders : Renders left first)
    (rightRenders : Renders right second) :
    edgesText left = edgesText right ↔ ∀ relation inverse other,
      inverseRelation relation = some inverse → (first relation other ↔ second relation other) := by
  have clear (edges : Std.TreeSet String) (edge : String → StoryNo → Prop)
      (renders : Renders edges edge) (text : String) (member : text ∈ edges) :
      ' ' ∉ text.toList ∧ text.toList ≠ [] := by
    obtain ⟨relation, inverse, other, inverted, -, rfl⟩ := (renders text).mp member
    exact edgeText_clear relation inverse other inverted
  have has (edges : Std.TreeSet String) (edge : String → StoryNo → Prop)
      (renders : Renders edges edge) (relation inverse : String) (other : StoryNo)
      (inverted : inverseRelation relation = some inverse) :
      edgeText relation other ∈ edges ↔ edge relation other := by
    rw [renders]
    constructor
    · rintro ⟨named, back, target, known, holds, same⟩
      obtain ⟨rfl, rfl⟩ := edgeText_injective relation inverse named back other target inverted
        known same
      exact holds
    · exact fun holds => ⟨relation, inverse, other, inverted, holds, rfl⟩
  rw [edgesText_eq_iff left right (clear left first leftRenders) (clear right second rightRenders)]
  constructor
  · intro same relation inverse other inverted
    rw [← has left first leftRenders relation inverse other inverted, same,
      has right second rightRenders relation inverse other inverted]
  · intro same text
    rw [leftRenders, rightRenders]
    refine exists_congr fun relation => exists_congr fun inverse => exists_congr fun other =>
      and_congr_right fun inverted => and_congr_left fun _ => ?_
    exact same relation inverse other inverted

theorem Repaired.undiverged_iff (repaired : Repaired db written after) (no : StoryNo)
    (member : no ∈ written) :
    (∀ divergence ∈ (diff after).divergences, divergence.storyNo ≠ no) ↔
      edgesText (persistedEdges after no) =
        edgesText (closureEdges (historyClaims after.idPrefix (rebuild after)) no) := by
  constructor
  · intro silent
    by_contra differs
    obtain ⟨row, ⟨log, snapshot, located, folded, rfl⟩, held⟩ := repaired.rows no member
    have listed : rebuildStory db.idPrefix db.states no log ∈ rebuild db :=
      (mem_rebuild _ _).mpr ⟨log, located, rfl⟩
    have whole := (isComplete_iff db _ listed).mpr (repaired.decoded no member)
    refine silent ⟨no, "relations", _, _⟩ ((mem_divergences after _).mpr ⟨_,
      repaired.rebuilt ▸ listed, .fold, (mem_storyFindings _ _ _ _ _).mpr ⟨snapshot, _, folded,
        held, _, List.mem_append_right _ (List.mem_singleton_self _), ?_, rfl, rfl⟩, ?_⟩) rfl
    · exact fun same => differs (Rendered.text.inj same)
    · simp [vouched, whole]
  · intro same divergence found diverges
    obtain ⟨story, listed, basis, finding, -⟩ := (mem_divergences after divergence).mp found
    rw [repaired.rebuilt] at listed
    have named : story.storyNo = no := by
      obtain ⟨_, _, -, -, _, -, -, -, rfl⟩ := (mem_storyFindings _ _ _ _ _).mp finding
      exact diverges
    subst named
    exact (repaired.findings_written db after written story listed member _ _ _ finding).2 same

theorem Repaired.edges_settled_iff (repaired : Repaired db written after) (no : StoryNo)
    (member : no ∈ written) :
    edgesText (persistedEdges after no) =
        edgesText (closureEdges (historyClaims after.idPrefix (rebuild after)) no) ↔
      ∀ other, other ∉ written → ∀ relation inverse, inverseRelation relation = some inverse →
        ¬ FoldClaim db no ⟨relation, other⟩ →
          (RelationEdge.mk no relation other ∈ db.relations.rows ∧
            StoredClaim db other ⟨inverse, no⟩ ↔ FoldClaim db other ⟨inverse, no⟩) := by
  have named : ∀ claim, FoldClaim after no claim →
      ∃ inverse, inverseRelation claim.relation = some inverse := by
    intro claim claimed
    rw [repaired.foldClaim, ← repaired.stored_written db after written no member] at claimed
    exact repaired.known no member claim claimed
  rw [Renders.edgesText_eq _ _ _ _ (persistedEdges_renders after no)
    (closureEdges_renders after no named)]
  have implied (relation inverse : String) (other : StoryNo)
      (inverted : inverseRelation relation = some inverse) :
      (FoldClaim after no ⟨relation, other⟩ ∨ ∃ back, inverseRelation relation = some back ∧
        FoldClaim after other ⟨back, no⟩) ↔
        FoldClaim db no ⟨relation, other⟩ ∨ FoldClaim db other ⟨inverse, no⟩ := by
    simp only [repaired.foldClaim, inverted, Option.some.injEq, exists_eq_left']
  constructor
  · intro same other absent relation inverse inverted unclaimed
    have edge := same relation inverse other inverted
    rw [implied relation inverse other inverted, repaired.edges no member relation inverse other
      inverted, repaired.stored_written db after written no member,
      repaired.stored_kept db after written other absent] at edge
    simp only [unclaimed, absent, false_or] at edge
    rw [and_comm]
    exact edge
  · intro agree relation inverse other inverted
    rw [implied relation inverse other inverted, repaired.edges no member relation inverse other
      inverted, repaired.stored_written db after written no member]
    by_cases done : other ∈ written
    · rw [repaired.stored_written db after written other done]
      simp [done]
    · by_cases claimed : FoldClaim db no ⟨relation, other⟩
      · simp [claimed]
      · rw [← agree other done relation inverse inverted claimed,
          repaired.stored_kept db after written other done]
        simp [claimed, done, and_comm]

end Repaired

/-- Every story that folds on part of its events has a row. -/
def WithheldRowsPresent (db : Database) : Prop :=
  ∀ no snapshot, Folds db no snapshot → ¬ Decoded db no → no ∈ db.stories

/-- Between a story a repair can write and one it cannot, an edge the first does not claim is in
the tables, and in the second's row, just when the second's readable events claim it. -/
def WithheldEdgesAgree (db : Database) : Prop :=
  ∀ no other, Rewritable db no → ¬ Rewritable db other →
    ∀ relation inverse, inverseRelation relation = some inverse →
      ¬ FoldClaim db no ⟨relation, other⟩ →
        (RelationEdge.mk no relation other ∈ db.relations.rows ∧
          StoredClaim db other ⟨inverse, no⟩ ↔ FoldClaim db other ⟨inverse, no⟩)

theorem mem_report_unattested (db after : Database) (report : RepairReport)
    (repaired : repairReadModel db = .ok (after, report)) (no : StoryNo) :
    no ∈ report.unattested ↔
      (∃ reason, FoldFails db no reason) ∨ (no ∈ db.stories ∧ db.events[no]? = none) := by
  obtain ⟨-, -, unrepairable, before⟩ := repairReadModel_ok db after report repaired
  rw [RepairReport.unattested, Std.TreeSet.mem_ofList, List.contains_iff_mem, List.mem_append,
    unrepairable, before, mem_extraRows]

theorem repaired_snapshots_agree (db after : Database) (report : RepairReport)
    (repaired : repairReadModel db = .ok (after, report)) :
    ∀ divergence ∈ (diff after).divergences, divergence.field ≠ snapshotField := by
  obtain ⟨settled, rewritten, -, -⟩ := repairReadModel_ok db after report repaired
  intro divergence member whole
  obtain ⟨story, listed, basis, finding, attested⟩ := (mem_divergences after divergence).mp member
  rw [settled.rebuilt] at listed
  obtain ⟨expected, row, folded, -, column, compared, -, rfl, same⟩ :=
    (mem_storyFindings _ _ _ _ _).mp finding
  have column_field : column.field = snapshotField := by rw [← whole, same]
  have complete : story.isComplete = true := by
    rw [snapshot_column_basis _ _ _ _ _ _ column compared column_field] at attested
    simpa [vouched] using attested
  have done : story.storyNo ∈ report.rewritten := by
    rw [rewritten]
    exact ⟨(isComplete_iff db story listed).mp complete, expected,
      (folds_iff db story listed expected).mp folded⟩
  have relations := (settled.findings_written db after _ story listed done _ _ _ finding).1
  rw [whole] at relations
  exact absurd relations (by decide)

theorem mem_repaired_unattested (db after : Database) (report : RepairReport)
    (repaired : repairReadModel db = .ok (after, report)) (no : StoryNo) :
    no ∈ (diff after).unattested ↔ no ∈ report.unattested ∨
      ((∃ snapshot, Folds db no snapshot) ∧ ¬ Decoded db no ∧ no ∉ db.stories) := by
  obtain ⟨settled, rewritten, -, -⟩ := repairReadModel_ok db after report repaired
  have kept (absent : no ∉ report.rewritten) : no ∈ after.stories ↔ no ∈ db.stories := by
    rw [Std.TreeMap.mem_iff_isSome_getElem?, settled.kept no absent,
      ← Std.TreeMap.mem_iff_isSome_getElem?]
  have agree : ¬ ∃ divergence ∈ (diff after).divergences,
      divergence.field = snapshotField ∧ divergence.storyNo = no :=
        fun ⟨divergence, member, whole, _⟩ =>
    repaired_snapshots_agree db after report repaired divergence member whole
  rw [mem_unattested, mem_report_unattested db after report repaired, mem_missingRows,
    mem_foldFailures, mem_extraRows, or_iff_left agree, settled.events]
  simp only [settled.folds, settled.foldFails]
  by_cases done : no ∈ report.rewritten
  · obtain ⟨row, -, held⟩ := settled.rows no done
    have present : no ∈ after.stories := by
      rw [Std.TreeMap.mem_iff_isSome_getElem?, held]
      rfl
    obtain ⟨decoded, snapshot, log, found, -⟩ := (rewritten no).mp done
    simp [present, decoded, found]
  · have withheld : (∃ snapshot, Folds db no snapshot) → ¬ Decoded db no :=
      fun folds decoded => done ((rewritten no).mpr ⟨decoded, folds⟩)
    rw [kept done]
    tauto

theorem repair_unattested_iff (db after : Database) (report : RepairReport)
    (repaired : repairReadModel db = .ok (after, report)) :
    (diff after).unattested.toList = report.unattested.toList ↔ WithheldRowsPresent db := by
  rw [← Std.TreeSet.equiv_iff_toList_eq, Std.TreeSet.equiv_iff_forall_mem_iff]
  simp only [mem_repaired_unattested db after report repaired,
    mem_report_unattested db after report repaired]
  constructor
  · intro same no snapshot folds partly
    by_contra absent
    rcases (same no).mp (Or.inr ⟨⟨snapshot, folds⟩, partly, absent⟩) with ⟨reason, fails⟩ | extra
    · obtain ⟨log, found, folded⟩ := folds
      obtain ⟨other, again, failed⟩ := fails
      rw [found, Option.some.injEq] at again
      rw [again, failed] at folded
      cases folded
    · exact absent extra.1
  · intro present no
    refine or_iff_left ?_
    rintro ⟨⟨snapshot, folds⟩, partly, absent⟩
    exact absent (present no snapshot folds partly)

theorem repair_undiverged_iff (db after : Database) (report : RepairReport)
    (repaired : repairReadModel db = .ok (after, report)) :
    (∀ no ∈ report.rewritten, ∀ divergence ∈ (diff after).divergences, divergence.storyNo ≠ no) ↔
      WithheldEdgesAgree db := by
  obtain ⟨settled, rewritten, -, -⟩ := repairReadModel_ok db after report repaired
  constructor
  · intro silent no other whole withheld
    have done := (rewritten no).mpr whole
    apply (settled.edges_settled_iff db after _ no done).mp
    · exact (settled.undiverged_iff db after _ no done).mp (silent no done)
    · exact fun member => withheld ((rewritten other).mp member)
  · intro agree no done
    apply (settled.undiverged_iff db after _ no done).mpr
    apply (settled.edges_settled_iff db after _ no done).mpr
    intro other absent
    exact agree no other ((rewritten no).mp done) fun whole => absent ((rewritten other).mpr whole)

/-- What a repair's report forecasts of the next diff holds unless a withheld story lacks a row, or
the two ends of one of its edges tell the tables and the histories apart. -/
theorem repair_forecast_iff (db after : Database) (report : RepairReport)
    (repaired : repairReadModel db = .ok (after, report)) :
    ((diff after).unattested.toList = report.unattested.toList ∧
      ∀ no ∈ report.rewritten, ∀ divergence ∈ (diff after).divergences,
        divergence.storyNo ≠ no) ↔
      WithheldRowsPresent db ∧ WithheldEdgesAgree db :=
  and_congr (repair_unattested_iff db after report repaired)
    (repair_undiverged_iff db after report repaired)

def unrowed (events : EventLog) : Database where
  idPrefix := "SH"
  states := [⟨"todo", .open, none, none⟩]
  types := ["task"]
  automationsEnabled := true
  nextStoryNo := 2
  nextGlobalSeq := 5
  events := Std.TreeMap.ofList [(1, events)]
  stories := ∅
  relations := .empty

def createdEvents (first : Nat) : List StoredEvent := [
  ⟨1, first, .known (.storyCreated "2026-01-01" "Count the seats" "todo")⟩,
  ⟨2, first + 1, .known (.storyPrioritySet "2026-01-01" .low)⟩,
  ⟨3, first + 2, .known (.storyTypeSet "2026-01-01" "task")⟩]

def createdLog : EventLog := ⟨createdEvents 1, by decide, by decide⟩

def newerLog : EventLog :=
  ⟨createdEvents 1 ++ [⟨4, 4, .unknown "StoryPinned"⟩], by decide, by decide⟩

def blockedLog : EventLog := ⟨createdEvents 4 ++
  [⟨4, 10, .known (.storyRelationshipAdded "2026-01-02" "SH-2" "blocked-by")⟩],
  by decide, by decide⟩

/-- The other end of the relation, with a last event that a newer build wrote. -/
def blockingLog : EventLog := ⟨createdEvents 7 ++
  [⟨4, 11, .known (.storyRelationshipAdded "2026-01-02" "SH-1" "blocks")⟩,
    ⟨5, 12, .unknown "StoryPinned"⟩], by decide, by decide⟩

def loggedStories : Database :=
  { unrowed createdLog with
    nextStoryNo := 4
    nextGlobalSeq := 13
    events := Std.TreeMap.ofList [(1, blockedLog), (2, blockingLog), (3, createdLog)] }

/-- Three stories, one of them withheld, and the row of that one alone. -/
def threeStories : Database :=
  { loggedStories with
    stories := match (rebuildStory "SH" loggedStories.states 2 blockingLog).snapshot with
      | .ok snapshot => Std.TreeMap.ofList [(2, storyRow loggedStories 2 snapshot 4)]
      | .error _ => ∅ }

theorem threeStories_logs (no : StoryNo) (log : EventLog)
    (found : threeStories.events[no]? = some log) :
    no = 1 ∧ log = blockedLog ∨ no = 2 ∧ log = blockingLog ∨ no = 3 ∧ log = createdLog := by
  have member := Std.TreeMap.mem_toList_iff_getElem?_eq_some.mpr found
  have entries : threeStories.events.toList =
      [(1, blockedLog), (2, blockingLog), (3, createdLog)] := by rfl
  rw [entries] at member
  simpa using member

theorem threeStories_withheld (no : StoryNo) (snapshot : StorySnapshot)
    (folds : Folds threeStories no snapshot) (partly : ¬ Decoded threeStories no) : no = 2 := by
  obtain ⟨log, found, -⟩ := folds
  rcases threeStories_logs no log found with ⟨rfl, rfl⟩ | ⟨rfl, -⟩ | ⟨rfl, rfl⟩
  · exact absurd ⟨blockedLog, found, by decide⟩ partly
  · rfl
  · exact absurd ⟨createdLog, found, by decide⟩ partly

theorem threeStories_claims (no : StoryNo) (claim : Claim)
    (claims : FoldClaim threeStories no claim) :
    no = 1 ∧ claim = ⟨"blocked-by", 2⟩ ∨ no = 2 ∧ claim = ⟨"blocks", 1⟩ := by
  obtain ⟨snapshot, ⟨log, found, folded⟩, member⟩ := claims
  have told (expected : List Claim)
      (claims : ((rebuildStory threeStories.idPrefix threeStories.states no log).snapshot.toOption.map
        (parsedClaims threeStories.idPrefix)) = some expected) : claim ∈ expected := by
    rw [folded] at claims
    exact Option.some.inj claims ▸ member
  rcases threeStories_logs no log found with ⟨rfl, rfl⟩ | ⟨rfl, rfl⟩ | ⟨rfl, rfl⟩
  · exact Or.inl ⟨rfl, List.mem_singleton.mp (told [⟨"blocked-by", 2⟩] (by decide +kernel))⟩
  · exact Or.inr ⟨rfl, List.mem_singleton.mp (told [⟨"blocks", 1⟩] (by decide +kernel))⟩
  · exact absurd (told [] (by decide +kernel)) List.not_mem_nil

theorem threeStories_blocked : FoldClaim threeStories 1 ⟨"blocked-by", 2⟩ := by
  have claims : ((rebuildStory threeStories.idPrefix threeStories.states 1
      blockedLog).snapshot.toOption.map (parsedClaims threeStories.idPrefix)) =
        some [⟨"blocked-by", 2⟩] := by decide +kernel
  cases folded : (rebuildStory threeStories.idPrefix threeStories.states 1 blockedLog).snapshot with
  | error reason => simp [folded, Except.toOption] at claims
  | ok snapshot =>
      rw [folded] at claims
      refine ⟨snapshot, ⟨blockedLog, by rfl, folded⟩, ?_⟩
      rw [Option.some.inj claims]
      exact List.mem_singleton_self _

theorem three_stories_forecast : ∃ after report,
    repairReadModel threeStories = .ok (after, report) ∧ report.rewritten = [1, 3] ∧
      (diff after).unattested.toList = report.unattested.toList ∧
        ∀ no ∈ report.rewritten, ∀ divergence ∈ (diff after).divergences,
          divergence.storyNo ≠ no := by
  have ran : (repairReadModel threeStories).toOption.any fun done =>
      done.2.rewritten == [1, 3] := by decide +kernel
  cases repaired : repairReadModel threeStories with
  | error failure => simp [repaired, Except.toOption] at ran
  | ok done =>
      refine ⟨done.1, done.2, rfl, by simpa [repaired, Except.toOption] using ran, ?_⟩
      apply (repair_forecast_iff threeStories _ _ repaired).mpr
      constructor
      · intro no snapshot folds partly
        rw [threeStories_withheld no snapshot folds partly]
        decide +kernel
      · intro no other whole withheld relation inverse paired unclaimed
        constructor
        · rintro ⟨edge, -⟩
          simp [threeStories, loggedStories, unrowed, RelationTable.empty] at edge
        · intro claims
          rcases threeStories_claims other _ claims with ⟨rfl, same⟩ | ⟨rfl, same⟩
          · cases same
            obtain ⟨log, found, all⟩ := whole.1
            rcases threeStories_logs 2 log found with ⟨none, -⟩ | ⟨-, rfl⟩ | ⟨none, -⟩
            · cases none
            · cases all
            · cases none
          · cases same
            obtain rfl : "blocked-by" = relation :=
              Option.some.inj (inverseRelation_involutive relation "blocks" paired)
            exact absurd threeStories_blocked unclaimed

theorem withheld_story_unforeseen :
    (repairReadModel (unrowed newerLog)).map (fun done =>
      ((diff done.1).unattested.toList, done.2.unattested.toList)) = .ok ([1], []) := by
  decide +kernel

end Storyhook.Store
