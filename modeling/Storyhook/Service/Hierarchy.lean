import Mathlib.Data.List.Nodup
import Storyhook.Domain.Hierarchy
import Storyhook.Library.Keyed
import Storyhook.Service.BothEnds

namespace Storyhook.Service

open Storyhook.Domain Storyhook.Store
open Library Library.Outcome

/-- Whether a stored snapshot names the one story as the parent of the other, or the other as the
child of the one. -/
def StoredParent (db : Database) (parent child : String) : Prop :=
  ∃ (no : StoryNo) (row : StoryRow), db.stories[no]? = some row ∧
    (row.snapshot.id = parent ∧ ⟨"parent-of", child⟩ ∈ row.snapshot.relationships ∨
      row.snapshot.id = child ∧ ⟨"child-of", parent⟩ ∈ row.snapshot.relationships)

def Parents (idPrefix : String) (edges : Set RelationEdge) (parent child : String) : Prop :=
  ∃ up down : StoryNo, parent = toId idPrefix up ∧ child = toId idPrefix down ∧
    (⟨up, "parent-of", down⟩ ∈ edges ∨ ⟨down, "child-of", up⟩ ∈ edges)

theorem stored_id (db : Database) (kept : Kept db) (no : StoryNo) (row : StoryRow)
    (stored : db.stories[no]? = some row) : row.snapshot.id = toId db.idPrefix no := by
  obtain ⟨_, _, _, _, _, _, _, _, _, shape⟩ := (finishFold_ok _ _ _ _).mp
    (kept.folded no row stored)
  rw [shape]
  rfl

theorem storedParent_ledger (db : Database) (kept : Kept db) :
    StoredParent db = Parents db.idPrefix (ledger db) := by
  funext parent child
  rw [eq_iff_iff]
  constructor
  · rintro ⟨no, row, stored, ⟨rfl, member⟩ | ⟨rfl, member⟩⟩
    · obtain ⟨down, parsed⟩ := kept.named no row stored _ member
      obtain rfl := ((parseId_ok _ _ _).mp parsed).1
      exact ⟨no, down, stored_id db kept no row stored, rfl,
        Or.inl ((mem_ledger_row db kept ⟨no, "parent-of", down⟩ row stored).mpr member)⟩
    · obtain ⟨up, parsed⟩ := kept.named no row stored _ member
      obtain rfl := ((parseId_ok _ _ _).mp parsed).1
      exact ⟨up, no, rfl, stored_id db kept no row stored,
        Or.inr ((mem_ledger_row db kept ⟨no, "child-of", up⟩ row stored).mpr member)⟩
  · rintro ⟨up, down, rfl, rfl, claims | claims⟩
    · obtain ⟨row, stored, -⟩ := id claims
      exact ⟨up, row, stored, Or.inl ⟨stored_id db kept up row stored,
        (mem_ledger_row db kept _ row stored).mp claims⟩⟩
    · obtain ⟨row, stored, -⟩ := id claims
      exact ⟨down, row, stored, Or.inr ⟨stored_id db kept down row stored,
        (mem_ledger_row db kept _ row stored).mp claims⟩⟩

/-- Tables without parent cycles, in which every edge goes to a story there is. -/
structure Layered (db : Database) : Prop where
  kept : Kept db
  ended : ∀ edge ∈ ledger db, db.stories[edge.otherNo]? ≠ none
  acyclic : Reach.Acyclic (StoredParent db)

section Shown

variable (db : Database)

theorem applyComputed_lookup (stories : StoryMap) (states : List StateDef) (id : String) :
    ∃ memo, (applyComputedEpicStates stories states)[id]? =
      (stories[id]?).map (projectEpic memo id) :=
  ⟨_, Std.TreeMap.getElem?_map⟩

theorem projectEpic_claims (memo : Std.TreeMap String Effective) (id : String)
    (story : StorySnapshot) : (projectEpic memo id story).id = story.id ∧
      (projectEpic memo id story).relationships = story.relationships := by
  unfold projectEpic
  split
  · exact ⟨rfl, rfl⟩
  · split <;> exact ⟨rfl, rfl⟩

theorem storyMap_present (story : StoryNo) (row : StoryRow)
    (stored : db.stories[story]? = some row) :
    ∃ effective, (storyMap db)[row.snapshot.id]? = some effective := by
  have listed : (row.snapshot.id, row.snapshot) ∈ db.stories.toList.map fun entry =>
      (entry.2.snapshot.id, entry.2.snapshot) :=
    List.mem_map.mpr ⟨_, Std.TreeMap.mem_toList_iff_getElem?_eq_some.mpr stored, rfl⟩
  have held : row.snapshot.id ∈ (Std.TreeMap.ofList (db.stories.toList.map fun entry =>
      (entry.2.snapshot.id, entry.2.snapshot)) : StoryMap) := by
    rw [Std.TreeMap.mem_ofList, List.contains_iff_mem]
    exact List.mem_map_of_mem listed
  have found := Std.TreeMap.getElem?_eq_some_getElem held
  unfold storyMap
  split
  · rw [applyComputedEpicStates, projectInOrder, Std.TreeMap.getElem?_map, found]
    exact ⟨_, rfl⟩
  · exact ⟨_, found⟩

theorem storyMap_source (id : String) (story : StorySnapshot)
    (found : (storyMap db)[id]? = some story) : ∃ (no : StoryNo) (row : StoryRow),
      db.stories[no]? = some row ∧ row.snapshot.id = id ∧
        (story = row.snapshot ∨ ∃ memo, story = projectEpic memo id row.snapshot) := by
  have plain (snapshot : StorySnapshot) (found : (Std.TreeMap.ofList (db.stories.toList.map
      fun entry => (entry.2.snapshot.id, entry.2.snapshot)) : StoryMap)[id]? = some snapshot) :
      ∃ (no : StoryNo) (row : StoryRow), db.stories[no]? = some row ∧ row.snapshot.id = id ∧
        row.snapshot = snapshot := by
    obtain ⟨entry, member, same⟩ := List.mem_map.mp (ofList_mem _ id snapshot found)
    cases same
    exact ⟨entry.1, entry.2, Std.TreeMap.mem_toList_iff_getElem?_eq_some.mp member, rfl, rfl⟩
  unfold storyMap at found
  split at found
  · obtain ⟨memo, looked⟩ := applyComputed_lookup _ db.states id
    rw [looked, Option.map_eq_some_iff] at found
    obtain ⟨snapshot, listed, rfl⟩ := found
    obtain ⟨no, row, stored, named, rfl⟩ := plain snapshot listed
    exact ⟨no, row, stored, named, Or.inr ⟨memo, rfl⟩⟩
  · obtain ⟨no, row, stored, named, rfl⟩ := plain story found
    exact ⟨no, row, stored, named, Or.inl rfl⟩

theorem storyMap_lookup (id : String) (story : StorySnapshot)
    (found : (storyMap db)[id]? = some story) : ∃ (no : StoryNo) (row : StoryRow),
      db.stories[no]? = some row ∧ row.snapshot.id = id ∧ story.id = id ∧
        story.relationships = row.snapshot.relationships := by
  obtain ⟨no, row, stored, named, rfl | ⟨memo, rfl⟩⟩ := storyMap_source db id story found
  · exact ⟨no, row, stored, named, named, rfl⟩
  · obtain ⟨sameId, sameClaims⟩ := projectEpic_claims memo id row.snapshot
    exact ⟨no, row, stored, named, sameId.trans named, sameClaims⟩

theorem storyMap_plain (id : String) (story : StorySnapshot)
    (found : (storyMap db)[id]? = some story) (plain : isEpic story = false) :
    ∃ (no : StoryNo) (row : StoryRow), db.stories[no]? = some row ∧ row.snapshot = story := by
  obtain ⟨no, row, stored, -, rfl | ⟨memo, rfl⟩⟩ := storyMap_source db id story found
  · exact ⟨no, row, stored, rfl⟩
  · refine ⟨no, row, stored, ?_⟩
    unfold projectEpic at plain ⊢
    split
    · rfl
    · next projected =>
        rw [projected] at plain
        split
        · rfl
        · next epic =>
            simp only [epic, Bool.false_eq_true, if_false] at plain
            exact absurd plain (by simpa [isEpic] using epic)

variable (kept : Kept db)

include kept

theorem storedIds_apart : ((db.stories.toList.map fun entry =>
    (entry.2.snapshot.id, entry.2.snapshot)).map (·.1)).Nodup := by
  have spelled : (db.stories.toList.map fun entry =>
      (entry.2.snapshot.id, entry.2.snapshot)).map (·.1) =
      (db.stories.toList.map (·.1)).map (toId db.idPrefix) := by
    rw [List.map_map, List.map_map]
    refine List.map_congr_left fun entry member => ?_
    exact stored_id db kept entry.1 entry.2 (Std.TreeMap.mem_toList_iff_getElem?_eq_some.mp member)
  rw [spelled, Std.TreeMap.map_fst_toList_eq_keys]
  exact Std.TreeMap.nodup_keys.map fun left right => toId_injective db.idPrefix left right

theorem storyMap_row (no : StoryNo) (row : StoryRow) (stored : db.stories[no]? = some row) :
    ∃ story, (storyMap db)[row.snapshot.id]? = some story ∧ story.id = row.snapshot.id ∧
      story.relationships = row.snapshot.relationships := by
  have listed : (Std.TreeMap.ofList (db.stories.toList.map fun entry =>
      (entry.2.snapshot.id, entry.2.snapshot)) : StoryMap)[row.snapshot.id]? =
        some row.snapshot :=
    ofList_of_mem _ (storedIds_apart db kept) _ _ (List.mem_map.mpr
      ⟨(no, row), Std.TreeMap.mem_toList_iff_getElem?_eq_some.mpr stored, rfl⟩)
  unfold storyMap
  split
  · obtain ⟨memo, looked⟩ := applyComputed_lookup _ db.states row.snapshot.id
    rw [looked, listed]
    exact ⟨_, rfl, projectEpic_claims memo row.snapshot.id row.snapshot⟩
  · exact ⟨_, listed, rfl, rfl⟩

theorem storyMap_parents (ended : ∀ edge ∈ ledger db, db.stories[edge.otherNo]? ≠ none) :
    ParentOf (storyMap db) = StoredParent db := by
  have present (no other : StoryNo) (row : StoryRow) (relation : String)
      (stored : db.stories[no]? = some row)
      (member : ⟨relation, toId db.idPrefix other⟩ ∈ row.snapshot.relationships) :
      toId db.idPrefix other ∈ storyMap db := by
    have claims := (mem_ledger_row db kept ⟨no, relation, other⟩ row stored).mpr member
    obtain ⟨far, there⟩ := Option.ne_none_iff_exists'.mp (ended _ claims)
    obtain ⟨story, found, -⟩ := storyMap_row db kept other far there
    rw [stored_id db kept other far there] at found
    exact Std.TreeMap.mem_iff_isSome_getElem?.mpr (by simp [found])
  funext parent child
  rw [eq_iff_iff]
  constructor
  · rintro ⟨⟨id, story⟩, member, relation, listed, -, claim⟩
    obtain ⟨no, row, stored, named, same, claims⟩ :=
      storyMap_lookup db id story (Std.TreeMap.mem_toList_iff_getElem?_eq_some.mp member)
    rw [claims] at listed
    refine ⟨no, row, stored, ?_⟩
    rw [named, ← same]
    rcases claim with ⟨rfl, own⟩ | ⟨rfl, own⟩
    · exact Or.inl ⟨own, listed⟩
    · exact Or.inr ⟨own, listed⟩
  · rintro ⟨no, row, stored, claims⟩
    obtain ⟨story, found, same, copied⟩ := storyMap_row db kept no row stored
    refine ⟨(row.snapshot.id, story), Std.TreeMap.mem_toList_iff_getElem?_eq_some.mpr found, ?_⟩
    rw [← copied] at claims
    rcases claims with ⟨rfl, listed⟩ | ⟨rfl, listed⟩
    · obtain ⟨other, parsed⟩ := kept.named no row stored _ (copied ▸ listed)
      obtain rfl := ((parseId_ok _ _ _).mp parsed).1
      exact ⟨_, listed, present no other row _ stored (copied ▸ listed), Or.inl ⟨rfl, same⟩⟩
    · obtain ⟨other, parsed⟩ := kept.named no row stored _ (copied ▸ listed)
      obtain rfl := ((parseId_ok _ _ _).mp parsed).1
      exact ⟨_, listed, present no other row _ stored (copied ▸ listed), Or.inr ⟨rfl, same⟩⟩

end Shown

section Edges

variable (idPrefix : String) (edges more : Set RelationEdge)

theorem parents_union (parent child : String) : Parents idPrefix (edges ∪ more) parent child ↔
    Parents idPrefix edges parent child ∨ Parents idPrefix more parent child := by
  simp only [Parents, Set.mem_union]
  grind

theorem parents_mono (within : edges ⊆ more) (parent child : String)
    (claims : Parents idPrefix edges parent child) : Parents idPrefix more parent child := by
  obtain ⟨up, down, named, spelled, listed⟩ := claims
  exact ⟨up, down, named, spelled, listed.imp (@within _) (@within _)⟩

/-- The parent edge a relation from one story to another stands for. -/
def parentLink (a relation b : String) : Option (String × String) :=
  if relation = "parent-of" then some (a, b)
  else if relation = "child-of" then some (b, a)
  else none

theorem parents_near (a b : StoryNo) (relation parent child : String) :
    Parents idPrefix (claimed a [⟨relation, b⟩]) parent child ↔
      parentLink (toId idPrefix a) relation (toId idPrefix b) = some (parent, child) := by
  simp only [Parents, claimed, Set.mem_ofPred_eq, List.mem_singleton, Claim.mk.injEq, parentLink]
  split
  · next down =>
      simp only [Option.some.injEq, Prod.mk.injEq]
      constructor
      · rintro ⟨up, low, rfl, rfl, ⟨rfl, -, rfl⟩ | ⟨-, other, -⟩⟩
        · exact ⟨rfl, rfl⟩
        · exact absurd (other.trans down) (by decide)
      · rintro ⟨rfl, rfl⟩
        exact ⟨a, b, rfl, rfl, Or.inl ⟨rfl, down.symm, rfl⟩⟩
  · next notDown =>
      split
      · next up =>
          simp only [Option.some.injEq, Prod.mk.injEq]
          constructor
          · rintro ⟨high, low, rfl, rfl, ⟨-, other, -⟩ | ⟨rfl, -, rfl⟩⟩
            · exact absurd other.symm notDown
            · exact ⟨rfl, rfl⟩
          · rintro ⟨rfl, rfl⟩
            exact ⟨b, a, rfl, rfl, Or.inr ⟨rfl, up.symm, rfl⟩⟩
      · next notUp =>
          refine iff_of_false ?_ fun linked => by cases linked
          rintro ⟨high, low, -, -, ⟨-, other, -⟩ | ⟨-, other, -⟩⟩
          · exact notDown other.symm
          · exact notUp other.symm

theorem parents_far (a b : StoryNo) (relation inverse parent child : String)
    (inverted : inverseRelation relation = some inverse) :
    Parents idPrefix (claimed b [⟨inverse, a⟩]) parent child ↔
      parentLink (toId idPrefix a) relation (toId idPrefix b) = some (parent, child) := by
  rw [parents_near, parentLink, parentLink]
  have turned := inverseRelation_involutive relation inverse inverted
  by_cases down : relation = "parent-of"
  · subst down
    cases inverted
    rfl
  · by_cases up : relation = "child-of"
    · subst up
      cases inverted
      rfl
    · rw [if_neg down, if_neg up, if_neg, if_neg]
      · rintro rfl
        exact down (Option.some.inj turned).symm
      · rintro rfl
        exact up (Option.some.inj turned).symm

theorem parents_bothEnds (a b : StoryNo) (relation inverse parent child : String)
    (inverted : inverseRelation relation = some inverse) :
    Parents idPrefix (bothEnds a b [(relation, inverse)]) parent child ↔
      parentLink (toId idPrefix a) relation (toId idPrefix b) = some (parent, child) := by
  rw [bothEnds, parents_union]
  simp only [List.map_cons, List.map_nil]
  rw [parents_far idPrefix a b relation inverse parent child inverted, parents_near, or_self]

theorem parents_linked (db : Database) (a b : StoryNo) (pair : String × String)
    (parent child : String) (inverted : inverseRelation pair.1 = some pair.2) :
    Parents idPrefix (linkedEdges db a b [pair]) parent child ↔
      parentLink (toId idPrefix a) pair.1 (toId idPrefix b) = some (parent, child) := by
  unfold linkedEdges
  split
  · exact parents_bothEnds idPrefix a b pair.1 pair.2 parent child inverted
  · exact parents_near idPrefix a b pair.1 parent child

theorem parents_diff (closed : Reciprocal mirror more) (parent child : String) :
    Parents idPrefix (edges \ more) parent child ↔
      Parents idPrefix edges parent child ∧ ¬ Parents idPrefix more parent child := by
  constructor
  · rintro ⟨up, down, rfl, rfl, claims⟩
    refine ⟨⟨up, down, rfl, rfl, claims.imp (·.1) (·.1)⟩, ?_⟩
    rintro ⟨high, low, sameUp, sameDown, gone⟩
    obtain rfl := toId_injective _ _ _ sameUp
    obtain rfl := toId_injective _ _ _ sameDown
    have both : (⟨up, "parent-of", down⟩ : RelationEdge) ∈ more ∧
        (⟨down, "child-of", up⟩ : RelationEdge) ∈ more := by
      rcases gone with listed | listed
      · obtain ⟨back, mirrored, member⟩ := closed _ listed
        cases mirrored
        exact ⟨listed, member⟩
      · obtain ⟨back, mirrored, member⟩ := closed _ listed
        cases mirrored
        exact ⟨member, listed⟩
    rcases claims with kept | kept
    · exact kept.2 both.1
    · exact kept.2 both.2
  · rintro ⟨⟨up, down, rfl, rfl, claims⟩, still⟩
    refine ⟨up, down, rfl, rfl, ?_⟩
    rcases claims with listed | listed
    · exact Or.inl ⟨listed, fun gone => still ⟨up, down, rfl, rfl, Or.inl gone⟩⟩
    · exact Or.inr ⟨listed, fun gone => still ⟨up, down, rfl, rfl, Or.inr gone⟩⟩

theorem parents_blocks (blocker : StoryNo) (parent child : String) :
    ¬ Parents idPrefix (blockerEdges blocker) parent child := by
  simp [Parents, blockerEdges]

theorem parents_blocked (subject : StoryNo) (blockers : List ResolvedBlocker)
    (parent child : String) :
    ¬ Parents idPrefix (blockedEdges subject blockers) parent child := by
  simp [Parents, blockedEdges, blocksEdges, claimed, blockedClaims]

end Edges

def Shows (graph : HierarchyGraph) (db : Database) : Prop :=
  StoredParent db = graph.Child

theorem Shows.kept (graph : HierarchyGraph) (db after : Database) (known : Kept db)
    (still : Kept after) (shown : Shows graph db)
    (same : ∀ parent child, Parents after.idPrefix (ledger after) parent child ↔
      Parents db.idPrefix (ledger db) parent child) : Shows graph after := by
  rw [Shows, storedParent_ledger after still, ← shown, storedParent_ledger db known]
  funext parent child
  exact propext (same parent child)

theorem Shows.gained (graph : HierarchyGraph) (db after : Database) (edges : Set RelationEdge)
    (link : Option (String × String)) (known : Kept db) (gains : Gains db after edges)
    (names : ∀ parent child, Parents db.idPrefix edges parent child ↔ link = some (parent, child))
    (shown : Shows graph db) : Shows (graph.addLinks link.toList) after := by
  rw [Shows, storedParent_ledger after gains.kept, gains.idPrefix, gains.ledger]
  rw [Shows, storedParent_ledger db known] at shown
  funext parent child
  rw [eq_iff_iff, parents_union, names, shown]
  cases link with
  | none => simp [HierarchyGraph.addLinks]
  | some link =>
      simp only [HierarchyGraph.addLinks, Option.toList_some, List.foldl_cons, List.foldl_nil,
        HierarchyGraph.child_addChild, Reach.withEdge, Option.some.injEq]
      grind

theorem Shows.lost (graph : HierarchyGraph) (db after : Database) (edges : Set RelationEdge)
    (link : Option (String × String)) (known : Kept db) (loses : Loses db after edges)
    (closed : Reciprocal mirror edges)
    (names : ∀ parent child, Parents db.idPrefix edges parent child ↔ link = some (parent, child))
    (shown : Shows graph db) : Shows (graph.dropLinks link.toList) after := by
  rw [Shows, storedParent_ledger after loses.kept, loses.idPrefix, loses.ledger]
  rw [Shows, storedParent_ledger db known] at shown
  funext parent child
  rw [eq_iff_iff, parents_diff _ _ _ closed, names, shown]
  cases link with
  | none => simp [HierarchyGraph.dropLinks]
  | some link =>
      simp only [HierarchyGraph.dropLinks, Option.toList_some, List.foldl_cons, List.foldl_nil,
        HierarchyGraph.child_dropChild, Option.some.injEq]
      grind

end Storyhook.Service
