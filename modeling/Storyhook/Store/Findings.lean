import Storyhook.Store.Rebuild

namespace Storyhook.Store

open Storyhook.Domain
open Library.Text

/-- The story's events fold to the snapshot, whether or not all of them could be read. -/
def Folds (db : Database) (no : StoryNo) (snapshot : StorySnapshot) : Prop :=
  ∃ log, db.events[no]? = some log ∧
    (rebuildStory db.idPrefix db.states no log).snapshot = .ok snapshot

def FoldFails (db : Database) (no : StoryNo) (reason : String) : Prop :=
  ∃ log, db.events[no]? = some log ∧
    (rebuildStory db.idPrefix db.states no log).snapshot = .error reason

def Decoded (db : Database) (no : StoryNo) : Prop :=
  ∃ log, db.events[no]? = some log ∧ (partitionKnown no log.rows).2 = []

def FoldClaim (db : Database) (no : StoryNo) (claim : Claim) : Prop :=
  ∃ snapshot, Folds db no snapshot ∧ claim ∈ parsedClaims db.idPrefix snapshot

theorem mem_rebuild (db : Database) (story : RebuiltStory) :
    story ∈ rebuild db ↔ ∃ log, db.events[story.storyNo]? = some log ∧
      story = rebuildStory db.idPrefix db.states story.storyNo log := by
  unfold rebuild
  simp only [List.mem_map, Prod.exists, Std.TreeMap.mem_toList_iff_getElem?_eq_some]
  constructor
  · rintro ⟨no, log, found, rfl⟩
    exact ⟨log, found, rfl⟩
  · rintro ⟨log, found, same⟩
    exact ⟨story.storyNo, log, found, same.symm⟩

theorem isComplete_iff (db : Database) (story : RebuiltStory) (member : story ∈ rebuild db) :
    story.isComplete = true ↔ Decoded db story.storyNo := by
  obtain ⟨log, found, same⟩ := (mem_rebuild db story).mp member
  rw [RebuiltStory.isComplete, List.isEmpty_iff, Decoded, found, same]
  simp [rebuildStory]

theorem folds_iff (db : Database) (story : RebuiltStory) (member : story ∈ rebuild db)
    (snapshot : StorySnapshot) :
    story.snapshot = .ok snapshot ↔ Folds db story.storyNo snapshot := by
  obtain ⟨log, found, same⟩ := (mem_rebuild db story).mp member
  rw [Folds, found]
  simp only [Option.some.injEq, exists_eq_left']
  rw [← same]

theorem foldFails_iff (db : Database) (story : RebuiltStory) (member : story ∈ rebuild db)
    (reason : String) : story.snapshot = .error reason ↔ FoldFails db story.storyNo reason := by
  obtain ⟨log, found, same⟩ := (mem_rebuild db story).mp member
  rw [FoldFails, found]
  simp only [Option.some.injEq, exists_eq_left']
  rw [← same]

theorem exists_rebuilt (db : Database) (no : StoryNo) (log : EventLog)
    (found : db.events[no]? = some log) : ∃ story ∈ rebuild db, story.storyNo = no :=
  ⟨rebuildStory db.idPrefix db.states no log, (mem_rebuild _ _).mpr ⟨log, found, rfl⟩, rfl⟩

theorem Folds.unique (db : Database) (no : StoryNo) (left right : StorySnapshot)
    (first : Folds db no left) (second : Folds db no right) : left = right := by
  obtain ⟨log, found, folded⟩ := first
  obtain ⟨other, again, refolded⟩ := second
  rw [found, Option.some.injEq] at again
  subst again
  rw [folded] at refolded
  exact Except.ok.inj refolded

theorem mem_historyClaims (db : Database) (edge : RelationEdge) :
    edge ∈ historyClaims db.idPrefix (rebuild db) ↔
      FoldClaim db edge.storyNo ⟨edge.relation, edge.otherNo⟩ := by
  rw [historyClaims, Std.TreeSet.mem_ofList, List.contains_iff_mem, List.mem_flatMap]
  constructor
  · rintro ⟨story, member, claimed⟩
    split at claimed
    · cases claimed
    · next snapshot folded =>
        obtain ⟨claim, asserted, rfl⟩ := List.mem_map.mp claimed
        exact ⟨snapshot, (folds_iff db story member snapshot).mp folded, asserted⟩
  · rintro ⟨snapshot, ⟨log, found, folded⟩, asserted⟩
    refine ⟨_, (mem_rebuild db (rebuildStory _ _ edge.storyNo log)).mpr ⟨log, found, rfl⟩, ?_⟩
    rw [folded]
    exact List.mem_map.mpr ⟨_, asserted, rfl⟩

theorem mem_missingRows (db : Database) (no : StoryNo) :
    no ∈ (diff db).missingRows ↔ (∃ snapshot, Folds db no snapshot) ∧ no ∉ db.stories := by
  simp only [diff, diffRebuilt, List.mem_filterMap]
  constructor
  · rintro ⟨story, member, missing⟩
    split at missing
    · cases missing
    · next snapshot folded =>
        split at missing
        · cases missing
        · next absent =>
            cases missing
            exact ⟨⟨snapshot, (folds_iff db story member snapshot).mp folded⟩, absent⟩
  · rintro ⟨⟨snapshot, log, found, folded⟩, absent⟩
    refine ⟨_, (mem_rebuild db (rebuildStory _ _ no log)).mpr ⟨log, found, rfl⟩, ?_⟩
    rw [folded]
    exact if_neg absent

theorem mem_foldFailures (db : Database) (no : StoryNo) :
    no ∈ (diff db).foldFailures.map (·.1) ↔ ∃ reason, FoldFails db no reason := by
  simp only [diff, diffRebuilt, List.mem_map, List.mem_filterMap]
  constructor
  · rintro ⟨⟨named, reason⟩, ⟨story, member, failed⟩, rfl⟩
    split at failed
    · next why broken =>
        cases failed
        exact ⟨reason, (foldFails_iff db story member reason).mp broken⟩
    · cases failed
  · rintro ⟨reason, log, found, failed⟩
    refine ⟨(no, reason),
      ⟨_, (mem_rebuild db (rebuildStory _ _ no log)).mpr ⟨log, found, rfl⟩, ?_⟩, rfl⟩
    rw [failed]
    rfl

theorem mem_extraRows (db : Database) (no : StoryNo) :
    no ∈ (diff db).extraRows ↔ no ∈ db.stories ∧ db.events[no]? = none := by
  simp only [diff, diffRebuilt, List.mem_filter, Std.TreeMap.mem_keys, Bool.not_eq_true',
    List.any_eq_false, beq_iff_eq]
  refine and_congr_right fun _ => ?_
  rw [Option.eq_none_iff_forall_ne_some]
  constructor
  · intro unnamed log found
    obtain ⟨story, member, same⟩ := exists_rebuilt db no log found
    exact unnamed story member same
  · intro absent story member same
    obtain ⟨log, found, -⟩ := (mem_rebuild db story).mp member
    exact absent log (same ▸ found)

theorem mem_divergences (db : Database) (divergence : Divergence) :
    divergence ∈ (diff db).divergences ↔ ∃ story ∈ rebuild db, ∃ basis,
      (divergence, basis) ∈ storyFindings db (historyClaims db.idPrefix (rebuild db)) story ∧
        vouched story basis = true := by
  simp only [diff, diffRebuilt, List.mem_flatMap, List.mem_map, List.mem_filter, Prod.exists,
    exists_and_right, exists_eq_right]

theorem mem_storyFindings (db : Database) (claims : Std.TreeSet RelationEdge)
    (story : RebuiltStory) (divergence : Divergence) (basis : Basis) :
    (divergence, basis) ∈ storyFindings db claims story ↔ ∃ expected row,
      story.snapshot = .ok expected ∧ db.stories[story.storyNo]? = some row ∧
      ∃ column ∈ columnComparisons row expected story.headSeq story.headGlobalSeq ++
          [⟨"relations", .text (edgesText (persistedEdges db story.storyNo)),
            .text (edgesText (closureEdges claims story.storyNo)), .fold⟩],
        column.persisted ≠ column.rebuilt ∧ basis = column.basis ∧
          divergence = ⟨story.storyNo, column.field, column.persisted, column.rebuilt⟩ := by
  unfold storyFindings
  split
  · next expected row folded stored =>
      simp only [folded, stored, List.mem_filterMap, Except.ok.injEq, Option.some.injEq,
        Option.ite_none_left_eq_some, Prod.mk.injEq]
      grind
  · next other =>
      constructor
      · intro member
        cases member
      · rintro ⟨expected, row, folded, stored, -⟩
        exact absurd stored (other expected row folded)

theorem mem_unattested (db : Database) (no : StoryNo) :
    no ∈ (diff db).unattested ↔ no ∈ (diff db).missingRows ∨
      no ∈ (diff db).foldFailures.map (·.1) ∨ no ∈ (diff db).extraRows ∨
        ∃ divergence ∈ (diff db).divergences,
          divergence.field = snapshotField ∧ divergence.storyNo = no := by
  rw [ReadModelDiff.unattested, Std.TreeSet.mem_ofList, List.contains_iff_mem]
  simp only [List.mem_append, or_assoc, List.mem_map, List.mem_filter, beq_iff_eq, and_assoc]

theorem toList_edgeText (relation : String) (other : StoryNo) :
    (edgeText relation other).toList = relation.toList ++ ':' :: Nat.toDigits 10 other := by
  simp [edgeText, Nat.toList_repr]

theorem edgeText_injective (relation inverse named back : String) (other target : StoryNo)
    (known : inverseRelation relation = some inverse)
    (alsoKnown : inverseRelation named = some back)
    (same : edgeText relation other = edgeText named target) :
    relation = named ∧ other = target := by
  have texts := congrArg String.toList same
  rw [toList_edgeText, toList_edgeText] at texts
  have first := (splitOnce_eq_some ':' _ _ (Nat.toDigits 10 other)).mpr
    ⟨rfl, (inverseRelation_clear relation inverse known).1⟩
  have second := (splitOnce_eq_some ':' _ _ _).mpr
    ⟨texts, (inverseRelation_clear named back alsoKnown).1⟩
  rw [first, Option.some.injEq, Prod.mk.injEq] at second
  refine ⟨String.toList_inj.mp second.1, ?_⟩
  have values := congrArg (fun digits => Nat.ofDigitChars 10 digits 0) second.2
  simpa using values

theorem edgeText_clear (relation inverse : String) (other : StoryNo)
    (known : inverseRelation relation = some inverse) :
    ' ' ∉ (edgeText relation other).toList ∧ (edgeText relation other).toList ≠ [] := by
  rw [toList_edgeText]
  constructor
  · rw [List.mem_append, List.mem_cons, not_or, not_or]
    refine ⟨(inverseRelation_clear relation inverse known).2, by decide, ?_⟩
    intro blank
    exact absurd (Nat.isDigit_of_mem_toDigits (by decide) (by decide) blank) (by decide)
  · simp

theorem edgesText_eq_iff (left right : Std.TreeSet String)
    (leftClear : ∀ text ∈ left, ' ' ∉ text.toList ∧ text.toList ≠ [])
    (rightClear : ∀ text ∈ right, ' ' ∉ text.toList ∧ text.toList ≠ []) :
    edgesText left = edgesText right ↔ ∀ text, text ∈ left ↔ text ∈ right := by
  rw [← Std.TreeSet.equiv_iff_forall_mem_iff, Std.TreeSet.equiv_iff_toList_eq]
  constructor
  · intro same
    have texts := congrArg String.toList same
    simp only [edgesText, String.toList_intercalate] at texts
    have pieces := intercalate_injective ' ' (left.toList.map String.toList)
      (right.toList.map String.toList) ?_ ?_ ?_ ?_ texts
    · exact List.map_injective_iff.mpr (fun _ _ => String.toList_injective) pieces
    all_goals grind
  · intro same
    rw [edgesText, same, edgesText]

end Storyhook.Store
