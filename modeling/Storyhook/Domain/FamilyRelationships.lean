import Storyhook.Domain.HierarchyCycles
import Storyhook.Library.Flood

/-! The ancestors and descendants that are shown beside a story's own relationships. -/

namespace Storyhook.Domain

open Storyhook.Library
open Relation

namespace HierarchyGraph

def neighboursOf (graph : HierarchyGraph) (forward : Bool) (storyId : String) :
    Std.TreeSet String :=
  if forward then graph.childrenOf storyId else graph.parentsOf storyId

def onward (graph : HierarchyGraph) (forward : Bool) (storyId : String) : List String :=
  (graph.neighboursOf forward storyId).toList.reverse

def walkTransitive (graph : HierarchyGraph) (storyId : String) (cycleNodes : Std.TreeSet String)
    (forward : Bool) : Std.TreeSet String :=
  let stack := graph.onward forward storyId
  Flood.flood (graph.onward forward) cycleNodes.contains
    (stack.length + (graph.named.map fun id => (graph.onward forward id).length).sum + 1) stack ∅

def transitiveDescendants (graph : HierarchyGraph) (storyId : String)
    (cycleNodes : Std.TreeSet String) : Std.TreeSet String :=
  graph.walkTransitive storyId cycleNodes true

def transitiveAncestors (graph : HierarchyGraph) (storyId : String)
    (cycleNodes : Std.TreeSet String) : Std.TreeSet String :=
  graph.walkTransitive storyId cycleNodes false

end HierarchyGraph

def familyOf (graph : HierarchyGraph) (cycleNodes : Std.TreeSet String) (storyId : String) :
    List StoryRelation :=
  if cycleNodes.contains storyId then []
  else
    let directChildren := graph.childrenOf storyId
    let directParents := graph.parentsOf storyId
    let descendants := graph.transitiveDescendants storyId cycleNodes
    let ancestors := graph.transitiveAncestors storyId cycleNodes
    (descendants.toList.filter (!directChildren.contains ·)).map (⟨"ancestor-of", ·⟩) ++
      (ancestors.toList.filter (!directParents.contains ·)).map (⟨"descendent-of", ·⟩)

def deriveFamilyRelationships (stories : StoryMap) : Std.TreeMap String (List StoryRelation) :=
  let graph := HierarchyGraph.fromStories stories
  let cycleNodes := graph.cycleNodes
  stories.map fun storyId _ => familyOf graph cycleNodes storyId

section Walk

open HierarchyGraph

variable (graph : HierarchyGraph) (mirrored : graph.Mirrored)

/-- An arc from parent to child between two stories that are reported in no cycle. -/
def KeptArc (parent child : String) : Prop :=
  graph.Child parent child ∧ parent ∉ graph.cycleNodes ∧ child ∉ graph.cycleNodes

theorem contains_eq_false (set : Std.TreeSet String) (id : String) :
    set.contains id = false ↔ id ∉ set := by
  rw [← Bool.not_eq_true]
  rfl

include mirrored

theorem walkTransitive_mem (forward : Bool) (storyId other : String)
    (kept : storyId ∉ graph.cycleNodes) :
    other ∈ graph.walkTransitive storyId graph.cycleNodes forward ↔
      TransGen (Flood.FreeArc (graph.onward forward) graph.cycleNodes.contains) storyId other := by
  rw [walkTransitive, Flood.mem_flood _ _ graph.named _ _ ?_ (Nat.lt_succ_self _),
    Flood.free_path_iff _ _ storyId other ((contains_eq_false _ _).mpr kept)]
  intro id some
  obtain ⟨near, listed⟩ := List.exists_mem_of_ne_nil _ some
  rw [onward, List.mem_reverse, Std.TreeSet.mem_toList] at listed
  cases forward with
  | true => exact List.mem_append_left _ (graph.below_named mirrored id near
      (Std.TreeSet.mem_toList.mpr listed)).1
  | false =>
      have arc := (mirrored near id).mp listed
      exact (graph.below_named mirrored near id (Std.TreeSet.mem_toList.mpr arc)).2

theorem transitiveDescendants_mem (storyId other : String) (kept : storyId ∉ graph.cycleNodes) :
    other ∈ graph.transitiveDescendants storyId graph.cycleNodes ↔
      TransGen (KeptArc graph) storyId other := by
  rw [transitiveDescendants, walkTransitive_mem graph mirrored true storyId other kept]
  refine iff_of_eq (congrFun (congrFun (congrArg TransGen ?_) _) _)
  funext parent child
  simp only [Flood.FreeArc, KeptArc, contains_eq_false, onward, List.mem_reverse,
    Std.TreeSet.mem_toList]
  rfl

theorem transitiveAncestors_mem (storyId other : String) (kept : storyId ∉ graph.cycleNodes) :
    other ∈ graph.transitiveAncestors storyId graph.cycleNodes ↔
      TransGen (KeptArc graph) other storyId := by
  rw [transitiveAncestors, walkTransitive_mem graph mirrored false storyId other kept,
    ← transGen_swap]
  refine iff_of_eq (congrFun (congrFun (congrArg TransGen ?_) _) _)
  funext parent child
  simp only [Flood.FreeArc, KeptArc, contains_eq_false, onward, List.mem_reverse,
    Std.TreeSet.mem_toList, Function.swap]
  exact propext ⟨fun ⟨arc, one, two⟩ => ⟨(mirrored parent child).mp arc, two, one⟩,
    fun ⟨arc, two, one⟩ => ⟨(mirrored parent child).mpr arc, one, two⟩⟩

theorem keptArc_acyclic : Reach.Acyclic (KeptArc graph) := by
  intro node cycle
  obtain ⟨search, entered⟩ := graph.entries_search mirrored
  obtain ⟨_, -, last⟩ := TransGen.tail'_iff.mp cycle
  refine DepthFirst.cycle_marked _ _ search entered node
    (mt (graph.mem_cycleNodes node).mpr last.2.2) ?_
  refine TransGen.mono (fun child parent arc => ?_) node node (transGen_swap.mpr cycle)
  exact ⟨Std.TreeSet.mem_toList.mpr arc.1, mt (graph.mem_cycleNodes child).mpr arc.2.2⟩

end Walk

/-- Whether the derived relationships list the relation for the story. -/
def Lists (stories : StoryMap) (id : String) (relation : StoryRelation) : Prop :=
  ∃ family, (deriveFamilyRelationships stories)[id]? = some family ∧ relation ∈ family

/-- What the derived relationships promise. -/
structure FamilyDual (stories : StoryMap) : Prop where
  dual : ∀ one other, Lists stories one ⟨"ancestor-of", other⟩ ↔
    Lists stories other ⟨"descendent-of", one⟩
  apart : ∀ id relation, Lists stories id relation → relation.otherId ≠ id
  indirect : ∀ id relation, Lists stories id relation →
    ¬ ParentOf stories id relation.otherId ∧ ¬ ParentOf stories relation.otherId id
  acyclic : ∀ id ∈ (HierarchyGraph.fromStories stories).cycleNodes, ∀ relation,
    ¬ Lists stories id relation

section Family

open HierarchyGraph

variable (stories : StoryMap)

theorem fromStories_mirrored : (fromStories stories).Mirrored := fromAttested_mirrored stories ∅

theorem lists_iff (id : String) (relation : StoryRelation) : Lists stories id relation ↔
    id ∈ stories ∧ relation ∈ familyOf (fromStories stories)
      (fromStories stories).cycleNodes id := by
  simp only [Lists, deriveFamilyRelationships, Std.TreeMap.getElem?_map, Option.map_eq_some_iff,
    Std.TreeMap.mem_iff_isSome_getElem?, Option.isSome_iff_exists]
  grind

theorem lists_path (id : String) (relation : StoryRelation) : Lists stories id relation ↔
    id ∈ stories ∧
      (∃ other, relation = ⟨"ancestor-of", other⟩ ∧ ¬ ParentOf stories id other ∧
        TransGen (KeptArc (fromStories stories)) id other ∨
      relation = ⟨"descendent-of", other⟩ ∧ ¬ ParentOf stories other id ∧
        TransGen (KeptArc (fromStories stories)) other id) := by
  have mirrored := fromStories_mirrored stories
  have child (parent child : String) :
      child ∈ (fromStories stories).childrenOf parent ↔ ParentOf stories parent child := by
    rw [← fromStories_child]
    rfl
  have cycling (one other : String) (path : TransGen (KeptArc (fromStories stories)) one other) :
      one ∉ (fromStories stories).cycleNodes ∧ other ∉ (fromStories stories).cycleNodes := by
    obtain ⟨_, first, -⟩ := TransGen.head'_iff.mp path
    obtain ⟨_, -, last⟩ := TransGen.tail'_iff.mp path
    exact ⟨first.2.1, last.2.2⟩
  rw [lists_iff]
  refine and_congr_right fun _ => ?_
  rw [familyOf]
  split
  · next reported =>
      refine iff_of_false List.not_mem_nil ?_
      rintro ⟨other, ⟨-, -, path⟩ | ⟨-, -, path⟩⟩
      · exact (cycling _ _ path).1 reported
      · exact (cycling _ _ path).2 reported
  · next kept =>
      simp only [List.mem_append, List.mem_map, List.mem_filter, Std.TreeSet.mem_toList,
        transitiveDescendants_mem _ mirrored id _ kept,
          transitiveAncestors_mem _ mirrored id _ kept,
        Bool.not_eq_true', contains_eq_false, mirrored _ id, child]
      grind

theorem parentOf_known (keyed : ∀ (id : String) story, stories[id]? = some story → story.id = id)
    (parent child : String) (claimed : ParentOf stories parent child) :
    parent ∈ stories ∧ child ∈ stories := by
  obtain ⟨entry, member, relation, -, known, claimed⟩ := claimed
  have there := Std.TreeMap.mem_toList_iff_getElem?_eq_some.mp member
  have own : entry.2.id ∈ stories := by
    rw [keyed entry.1 entry.2 there]
    exact Std.TreeMap.mem_iff_isSome_getElem?.mpr (by rw [there]; rfl)
  rcases claimed with ⟨rfl, rfl⟩ | ⟨rfl, rfl⟩
  · exact ⟨own, known⟩
  · exact ⟨known, own⟩

theorem deriveFamilyRelationships_dual
    (keyed : ∀ (id : String) story, stories[id]? = some story → story.id = id) :
    FamilyDual stories := by
  have acyclic := keptArc_acyclic (fromStories stories) (fromStories_mirrored stories)
  have claim (parent child : String) (arc : KeptArc (fromStories stories) parent child) :
      ParentOf stories parent child := by
    rw [← fromStories_child]
    exact arc.1
  have known (one other : String) (path : TransGen (KeptArc (fromStories stories)) one other) :
      one ∈ stories ∧ other ∈ stories := by
    obtain ⟨_, first, -⟩ := TransGen.head'_iff.mp path
    obtain ⟨_, -, last⟩ := TransGen.tail'_iff.mp path
    exact ⟨(parentOf_known stories keyed _ _ (claim _ _ first)).1,
      (parentOf_known stories keyed _ _ (claim _ _ last)).2⟩
  have kept (one other : String) (path : TransGen (KeptArc (fromStories stories)) one other)
      (back : ParentOf stories other one) : KeptArc (fromStories stories) other one := by
    obtain ⟨_, first, -⟩ := TransGen.head'_iff.mp path
    obtain ⟨_, -, last⟩ := TransGen.tail'_iff.mp path
    rw [← fromStories_child] at back
    exact ⟨back, last.2.2, first.2.1⟩
  constructor
  · intro one other
    rw [lists_path, lists_path]
    constructor
    · rintro ⟨-, _, ⟨same, apart, path⟩ | ⟨same, -⟩⟩
      · cases same
        exact ⟨(known one other path).2, one, .inr ⟨rfl, apart, path⟩⟩
      · exact absurd (congrArg StoryRelation.relation same) (by simp)
    · rintro ⟨-, _, ⟨same, -⟩ | ⟨same, apart, path⟩⟩
      · exact absurd (congrArg StoryRelation.relation same) (by simp)
      · cases same
        exact ⟨(known one other path).1, other, .inl ⟨rfl, apart, path⟩⟩
  · intro id relation listed same
    obtain ⟨-, other, ⟨rfl, -, path⟩ | ⟨rfl, -, path⟩⟩ := (lists_path stories id relation).mp listed
    · exact acyclic id (same ▸ path)
    · exact acyclic id (same ▸ path)
  · intro id relation listed
    obtain ⟨-, other, ⟨rfl, apart, path⟩ | ⟨rfl, apart, path⟩⟩ :=
      (lists_path stories id relation).mp listed
    · exact ⟨apart, fun back => acyclic id (path.tail (kept id other path back))⟩
    · exact ⟨fun back => acyclic id (.head (kept other id path back) path), apart⟩
  · intro id reported relation listed
    obtain ⟨-, member⟩ := (lists_iff stories id relation).mp listed
    have contained : (fromStories stories).cycleNodes.contains id = true := reported
    rw [familyOf, if_pos contained] at member
    exact List.not_mem_nil member

end Family

def threeGenerations : StoryMap := .ofList [
  parentOf "SH-1" [],
  ("SH-2", { (default : StorySnapshot) with
    id := "SH-2", relationships := [⟨"child-of", "SH-1"⟩, ⟨"parent-of", "SH-3"⟩] }),
  parentOf "SH-3" []]

theorem grandchild_listed : FamilyDual threeGenerations ∧
    Lists threeGenerations "SH-3" ⟨"descendent-of", "SH-1"⟩ := by
  have keyed : ∀ entry ∈ threeGenerations.toList, entry.2.id = entry.1 := by decide +kernel
  have dual := deriveFamilyRelationships_dual threeGenerations fun id story found =>
    keyed (id, story) (Std.TreeMap.mem_toList_iff_getElem?_eq_some.mpr found)
  exact ⟨dual, (dual.dual "SH-1" "SH-3").mp
    ((lists_iff threeGenerations _ _).mpr ⟨by decide +kernel, by decide +kernel⟩)⟩

end Storyhook.Domain
