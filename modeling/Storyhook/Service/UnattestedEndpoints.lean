import Storyhook.Domain.IntegrityIssues
import Storyhook.Service.Hierarchy
import Storyhook.Store.Repair

/-! The endpoints that a story's view holds for unknown, beside those the doctor does. -/

namespace Storyhook.Service

open Storyhook.Domain Storyhook.Store

def endpointExists (db : Database) (id : String) : Bool :=
  match parseId db.idPrefix id with
  | .error _ => false
  | .ok story => 0 < headSeq db story

def missingEnds (stories : StoryMap) : Std.TreeSet String :=
  .ofList (((stories.values.flatMap (·.relationships)).map (·.otherId)).filter
    (!stories.contains ·))

def unattestedEndpoints (db : Database) (stories : StoryMap) : Std.TreeSet String :=
  let candidates := missingEnds stories
  if candidates.isEmpty then ∅
  else .ofList (candidates.toList.filter (endpointExists db))

def renderedIds (stories : Std.TreeSet StoryNo) (idPrefix : String) : Std.TreeSet String :=
  .ofList (stories.toList.map (toId idPrefix))

/-- The views suppress nothing that the doctor does not. -/
def EndpointsWithin (db : Database) : Prop :=
  ∀ id ∈ unattestedEndpoints db (storyMap db), id ∈ renderedIds (diff db).unattested db.idPrefix

/-- A story with events that a relation names and that no row has the id of. -/
structure NamedApart (db : Database) (no : StoryNo) : Prop where
  numbered : Numbered no
  begun : 0 < headSeq db no
  absent : toId db.idPrefix no ∉ storyMap db
  named : ∃ story ∈ (storyMap db).values, ∃ relation ∈ story.relationships,
    relation.otherId = toId db.idPrefix no

/-- A row whose history folds, but only in part. -/
def Unvouched (db : Database) (no : StoryNo) : Prop :=
  no ∈ db.stories ∧ (∃ snapshot, Folds db no snapshot) ∧ ¬ Decoded db no

theorem mem_unattestedEndpoints (db : Database) (id : String) :
    id ∈ unattestedEndpoints db (storyMap db) ↔
      ∃ no, id = toId db.idPrefix no ∧ NamedApart db no := by
  have candidate : id ∈ missingEnds (storyMap db) ↔ (∃ story ∈ (storyMap db).values,
      ∃ relation ∈ story.relationships, relation.otherId = id) ∧ id ∉ storyMap db := by
    rw [missingEnds, Std.TreeSet.mem_ofList, List.contains_iff_mem, List.mem_filter,
      Bool.not_eq_true', ← Bool.not_eq_true]
    simp only [List.mem_map, List.mem_flatMap]
    refine and_congr ⟨?_, ?_⟩ Iff.rfl
    · rintro ⟨relation, ⟨story, inside, claimed⟩, same⟩
      exact ⟨story, inside, relation, claimed, same⟩
    · rintro ⟨story, inside, relation, claimed, same⟩
      exact ⟨relation, ⟨story, inside, claimed⟩, same⟩
  have probed : id ∈ unattestedEndpoints db (storyMap db) ↔
      id ∈ missingEnds (storyMap db) ∧ endpointExists db id = true := by
    simp only [unattestedEndpoints]
    split
    · next none =>
        refine iff_of_false Std.TreeSet.not_mem_emptyc fun both => ?_
        exact Std.TreeSet.not_mem_of_isEmpty none both.1
    · rw [Std.TreeSet.mem_ofList, List.contains_iff_mem, List.mem_filter, Std.TreeSet.mem_toList]
  have there : endpointExists db id = true ↔
      ∃ no, id = toId db.idPrefix no ∧ Numbered no ∧ 0 < headSeq db no := by
    unfold endpointExists
    cases parsed : parseId db.idPrefix id with
    | error failure =>
        refine iff_of_false Bool.false_ne_true ?_
        rintro ⟨no, same, numbered, -⟩
        rw [(parseId_ok db.idPrefix id no).mpr ⟨same, numbered⟩] at parsed
        cases parsed
    | ok no =>
        obtain ⟨rfl, numbered⟩ := (parseId_ok _ _ _).mp parsed
        simp only [decide_eq_true_eq]
        refine ⟨fun begun => ⟨no, rfl, numbered, begun⟩, ?_⟩
        rintro ⟨other, same, -, begun⟩
        rw [toId_injective _ _ _ same]
        exact begun
  rw [probed, candidate, there]
  constructor
  · rintro ⟨⟨named, absent⟩, no, rfl, numbered, begun⟩
    exact ⟨no, rfl, numbered, begun, absent, named⟩
  · rintro ⟨no, rfl, numbered, begun, absent, named⟩
    exact ⟨⟨named, absent⟩, no, rfl, numbered, begun⟩

theorem mem_renderedIds (stories : Std.TreeSet StoryNo) (idPrefix : String) (no : StoryNo) :
    toId idPrefix no ∈ renderedIds stories idPrefix ↔ no ∈ stories := by
  rw [renderedIds, Std.TreeSet.mem_ofList, List.contains_iff_mem, List.mem_map]
  constructor
  · rintro ⟨other, member, same⟩
    rw [← toId_injective _ _ _ same]
    exact Std.TreeSet.mem_toList.mp member
  · exact fun member => ⟨no, Std.TreeSet.mem_toList.mpr member, rfl⟩

theorem snapshot_folded (row : StoryRow) (expected : StorySnapshot) (head headGlobal : Nat)
    (relations : Comparison) (compared : relations.basis = .fold) (column : Comparison)
    (member : column ∈ columnComparisons row expected head headGlobal ++ [relations])
    (field : column.field = snapshotField) : column.basis = .fold := by
  rcases List.mem_append.mp member with listed | last
  · rcases List.mem_cons.mp listed with rfl | listed
    · exact absurd field (show "head_seq" ≠ snapshotField by decide)
    · rcases List.mem_cons.mp listed with rfl | listed
      · exact absurd field (show "head_global_seq" ≠ snapshotField by decide)
      · simp only [List.mem_cons, List.not_mem_nil, or_false] at listed
        rcases listed with rfl | rfl | rfl | rfl | rfl | rfl | rfl | rfl | rfl | rfl | rfl | rfl |
          rfl | rfl | rfl <;> rfl
  · rw [List.mem_singleton.mp last]
    exact compared

theorem NamedApart.unattested (db : Database) (no : StoryNo) (apart : NamedApart db no) :
    no ∈ (diff db).unattested ↔ ¬ Unvouched db no := by
  obtain ⟨log, events⟩ : ∃ log, db.events[no]? = some log := by
    have begun := apart.begun
    unfold headSeq at begun
    cases found : db.events[no]? with
    | none => simp [found] at begun
    | some log => exact ⟨log, rfl⟩
  rw [mem_unattested, mem_missingRows, mem_foldFailures, mem_extraRows]
  cases folded : (rebuildStory db.idPrefix db.states no log).snapshot with
  | error reason =>
      refine iff_of_true (Or.inr (Or.inl ⟨reason, log, events, folded⟩)) ?_
      rintro ⟨-, ⟨snapshot, other, again, folds⟩, -⟩
      cases events.symm.trans again
      rw [folded] at folds
      cases folds
  | ok expected =>
      have folds : Folds db no expected := ⟨log, events, folded⟩
      by_cases stored : no ∈ db.stories
      · obtain ⟨row, found⟩ := Option.isSome_iff_exists.mp
          (Std.TreeMap.isSome_getElem?_iff_mem.mpr stored)
        have differs : row.snapshot ≠ expected := by
          rintro rfl
          obtain ⟨effective, shown⟩ := storyMap_present db no row found
          rw [Folds.id db no _ folds] at shown
          exact apart.absent (Std.TreeMap.mem_iff_isSome_getElem?.mpr (by rw [shown]; rfl))
        by_cases decoded : Decoded db no
        · refine iff_of_true (Or.inr (Or.inr (Or.inr ?_))) fun unvouched => unvouched.2.2 decoded
          have member : rebuildStory db.idPrefix db.states no log ∈ rebuild db :=
            (mem_rebuild db _).mpr ⟨log, events, rfl⟩
          refine ⟨⟨no, snapshotField, .document row.snapshot, .document expected⟩,
            (mem_divergences db _).mpr ⟨_, member, .fold, ?_, ?_⟩, rfl, rfl⟩
          · refine (mem_storyFindings db _ _ _ _).mpr ⟨expected, row, folded, found, _,
              List.mem_append_left _ (List.mem_of_mem_getLast? rfl), ?_, rfl, rfl⟩
            exact fun same => differs (Rendered.document.inj same)
          · rw [vouched, (isComplete_iff db _ member).mpr decoded]
            rfl
        · refine iff_of_false ?_ (not_not.mpr ⟨stored, ⟨expected, folds⟩, decoded⟩)
          rintro (missing | failed | extra | ⟨divergence, member, field, same⟩)
          · exact missing.2 stored
          · obtain ⟨reason, other, again, failed⟩ := failed
            cases events.symm.trans again
            rw [folded] at failed
            cases failed
          · rw [events] at extra
            cases extra.2
          · obtain ⟨story, rebuilt, basis, listed, counts⟩ := (mem_divergences db _).mp member
            obtain ⟨folding, held, -, -, column, columns, -, rfl, rfl⟩ :=
              (mem_storyFindings db _ _ _ _).mp listed
            simp only at field same
            rw [vouched, Bool.or_eq_true, isComplete_iff db story rebuilt, same] at counts
            rcases counts with complete | based
            · exact decoded complete
            · have folds :=
                snapshot_folded held folding _ _ ⟨_, _, _, .fold⟩ rfl column columns field
              rw [folds] at based
              cases based
      · exact iff_of_true (Or.inl ⟨⟨expected, folds⟩, stored⟩) fun unvouched => stored unvouched.1

theorem endpointsWithin_iff (db : Database) :
    EndpointsWithin db ↔ ∀ no, NamedApart db no → ¬ Unvouched db no := by
  constructor
  · intro within no apart
    have suppressed := within _ ((mem_unattestedEndpoints db _).mpr ⟨no, rfl, apart⟩)
    exact (apart.unattested db no).mp ((mem_renderedIds _ _ no).mp suppressed)
  · intro vouched id suppressed
    obtain ⟨no, rfl, apart⟩ := (mem_unattestedEndpoints db id).mp suppressed
    exact (mem_renderedIds _ _ no).mpr ((apart.unattested db no).mpr (vouched no apart))

/-- Suppression removes findings where the hierarchy's cycles stay found the same way, and the
views' suppression is the doctor's but for rows that are unvouched. -/
theorem suppression_removes (stories : StoryMap) (smaller larger : Std.TreeSet String)
    (within : ∀ id ∈ smaller, id ∈ larger) (db : Database) :
    (HierarchyKept stories smaller larger → FindingsKept stories smaller larger) ∧
      (EndpointsWithin db ↔ ∀ no, NamedApart db no → ¬ Unvouched db no) :=
  ⟨findingsKept_of_hierarchy stories smaller larger within, endpointsWithin_iff db⟩

def doorsToCycle : StoryMap := .ofList [parentOf "SH-1" ["SH-3"], parentOf "SH-2" ["SH-3"],
  parentOf "SH-3" ["SH-4"], parentOf "SH-4" ["SH-3"]]

theorem doorsToCycle_entries :
    (HierarchyGraph.fromAttested doorsToCycle ∅).entries =
        [⟨"SH-2", []⟩, ⟨"SH-4", ["SH-3", "SH-1"]⟩, ⟨"SH-3", ["SH-1"]⟩, ⟨"SH-1", []⟩] ∧
      (HierarchyGraph.fromAttested doorsToCycle (.ofList ["SH-2"])).entries =
        (HierarchyGraph.fromAttested doorsToCycle ∅).entries := by
  decide +kernel

theorem doorsToCycle_round (id other : String)
    (there : other ∈ (HierarchyGraph.fromAttested doorsToCycle ∅).below id)
    (back : id ∈ (HierarchyGraph.fromAttested doorsToCycle ∅).below other) :
    Library.DepthFirst.OnCycle (HierarchyGraph.fromAttested doorsToCycle ∅).below id :=
  .tail (.single there) back

theorem doorsToCycle_outside :
    ¬ Library.DepthFirst.OnCycle (HierarchyGraph.fromAttested doorsToCycle ∅).below "SH-2" := by
  intro cycle
  obtain ⟨parent, -, arc⟩ := Relation.TransGen.tail'_iff.mp cycle
  have none : ∀ parent ∈ (HierarchyGraph.fromAttested doorsToCycle ∅).childrenByParent.keys,
      "SH-2" ∉ (HierarchyGraph.fromAttested doorsToCycle ∅).below parent := by decide +kernel
  exact none parent (HierarchyGraph.below_named _
    (HierarchyGraph.fromAttested_mirrored _ _) _ _ arc).1
    arc

theorem doorsToCycle_kept : DoorsKept doorsToCycle ∅ (.ofList ["SH-2"]) where
  rounds := by
    intro graph entry earlier inside cyclic
    have third := doorsToCycle_round "SH-3" "SH-4" (by decide +kernel) (by decide +kernel)
    have fourth := doorsToCycle_round "SH-4" "SH-3" (by decide +kernel) (by decide +kernel)
    simp only [graph, doorsToCycle_entries.1, List.suffix_cons_iff, List.suffix_nil,
      List.cons.injEq,
      reduceCtorEq, or_false] at inside
    rcases inside with ⟨rfl, rfl⟩ | ⟨rfl, rfl⟩ | ⟨rfl, rfl⟩ | ⟨rfl, rfl⟩
    · exact absurd cyclic doorsToCycle_outside
    · exact ⟨"SH-3", by decide +kernel, third, fun _ => List.mem_cons_self⟩
    · exact ⟨"SH-4", by decide +kernel, fourth, by decide +kernel⟩
    · exact ⟨"SH-3", by decide +kernel, third, by decide +kernel⟩
  doors := by
    intro graph left entry member cyclic id under outside
    have third := doorsToCycle_round "SH-3" "SH-4" (by decide +kernel) (by decide +kernel)
    simp only [left, doorsToCycle_entries.2, doorsToCycle_entries.1, List.mem_cons,
      List.not_mem_nil, or_false] at member
    have first : ∃ other ∈ graph.entries, Library.DepthFirst.OnCycle graph.below other.node ∧
        "SH-1" ∈ other.above :=
      ⟨⟨"SH-3", ["SH-1"]⟩, by rw [doorsToCycle_entries.1]; simp, third, List.mem_cons_self⟩
    rcases member with rfl | rfl | rfl | rfl
    · cases under
    · rcases List.mem_cons.mp under with rfl | rest
      · exact Or.inl third
      · rw [List.mem_singleton.mp rest]
        exact Or.inr first
    · rw [List.mem_singleton.mp under]
      exact Or.inr first
    · cases under

theorem suppression_kept : FindingsKept doorsToCycle ∅ (.ofList ["SH-2"]) :=
  (suppression_removes doorsToCycle ∅ (.ofList ["SH-2"])
    (fun id none => absurd none Std.TreeSet.not_mem_emptyc) blankProject).1
      (Or.inr doorsToCycle_kept)

/-- With the first door suppressed the walk comes to the cycle by the second. -/
theorem suppression_adds : ¬ ∀ stories (smaller larger : Std.TreeSet String),
    (∀ id ∈ smaller, id ∈ larger) → ∀ id, ∀ finding ∈
      (computeIntegrityIssues stories larger).getD id [],
        finding ∈ (computeIntegrityIssues stories smaller).getD id [] := by
  intro kept
  have added := kept doorsToCycle ∅ (.ofList ["SH-1"])
    (fun id none => absurd none Std.TreeSet.not_mem_emptyc) "SH-2" (cycleFinding "SH-2")
    (by decide +kernel)
  exact absurd added (by decide +kernel)

end Storyhook.Service
