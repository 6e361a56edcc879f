import Storyhook.Domain.Epics
import Storyhook.Library.Reach
import Storyhook.Library.Replay

namespace Storyhook.Domain

open Storyhook.Library

/-- The hierarchy the stories' rows claim, from either end of its edges. -/
structure HierarchyGraph where
  childrenByParent : Std.TreeMap String (Std.TreeSet String)
  parentsByChild : Std.TreeMap String (Std.TreeSet String)

namespace HierarchyGraph

def enter (edges : Std.TreeMap String (Std.TreeSet String)) (near far : String) :
    Std.TreeMap String (Std.TreeSet String) :=
  edges.insert near ((edges.getD near ∅).insert far)

def addChild (graph : HierarchyGraph) (parent child : String) : HierarchyGraph where
  childrenByParent := enter graph.childrenByParent parent child
  parentsByChild := enter graph.parentsByChild child parent

def childrenOf (graph : HierarchyGraph) (storyId : String) : Std.TreeSet String :=
  graph.childrenByParent.getD storyId ∅

/-- An edge counts from the end that claims it, when the other end is a story. -/
def record (stories : StoryMap) (story : StorySnapshot) (graph : HierarchyGraph)
    (relation : StoryRelation) : HierarchyGraph :=
  if relation.relation = "parent-of" ∧ relation.otherId ∈ stories then
    graph.addChild story.id relation.otherId
  else if relation.relation = "child-of" ∧ relation.otherId ∈ stories then
    graph.addChild relation.otherId story.id
  else graph

def fromAttested (stories : StoryMap) (unattested : Std.TreeSet String) : HierarchyGraph :=
  let blank := stories.map fun _ _ => (∅ : Std.TreeSet String)
  stories.toList.foldl (fun graph entry =>
    if unattested.contains entry.2.id then graph
    else entry.2.relationships.foldl (record stories entry.2) graph) ⟨blank, blank⟩

def fromStories (stories : StoryMap) : HierarchyGraph := fromAttested stories ∅

/-- A walk down from the child, that finds the parent where the edge would close a cycle. -/
def wouldCreateCycle (graph : HierarchyGraph) (parentId childId : String) : Bool :=
  if parentId = childId then true
  else Reach.seeks (fun current => (graph.childrenOf current).toList.reverse) parentId
    ((graph.childrenByParent.keys.map fun key => (graph.childrenOf key).size).sum + 2) [childId] ∅

def Child (graph : HierarchyGraph) (parent child : String) : Prop :=
  child ∈ graph.childrenOf parent

theorem child_addChild (graph : HierarchyGraph) (parent child : String) :
    (graph.addChild parent child).Child = Reach.withEdge graph.Child parent child := by
  funext left right
  simp only [Child, childrenOf, addChild, enter, Reach.withEdge, Std.TreeMap.getD_insert,
    Std.LawfulEqOrd.compare_eq_iff_eq, eq_iff_iff]
  by_cases same : parent = left
  · subst same
    simp only [if_true, Std.TreeSet.mem_insert, Std.LawfulEqOrd.compare_eq_iff_eq]
    grind
  · simp only [same, if_false]
    grind

theorem wouldCreateCycle_iff (graph : HierarchyGraph) (parentId childId : String) :
    graph.wouldCreateCycle parentId childId = true ↔
      Relation.ReflTransGen graph.Child childId parentId := by
  unfold wouldCreateCycle
  split
  · next same => exact iff_of_true rfl (same ▸ .refl)
  · rw [Reach.seeks_iff _ _ graph.childrenByParent.keys]
    · apply iff_of_eq
      congr 1
      funext left right
      simp only [Child, List.mem_reverse, Std.TreeSet.mem_toList]
    · intro node some
      rw [Std.TreeMap.mem_keys]
      by_contra absent
      apply some
      rw [childrenOf, Std.TreeMap.getD_eq_fallback absent]
      rfl
    · simp only [List.length_reverse, Std.TreeSet.length_toList]
      exact Nat.lt_succ_self _

def Says (stories : StoryMap) (story : StorySnapshot) (parent child : String)
    (relation : StoryRelation) : Prop :=
  relation.otherId ∈ stories ∧
    (relation = ⟨"parent-of", child⟩ ∧ story.id = parent ∨
      relation = ⟨"child-of", parent⟩ ∧ story.id = child)

theorem record_child (stories : StoryMap) (story : StorySnapshot) (parent child : String)
    (graph : HierarchyGraph) (relation : StoryRelation) :
    (record stories story graph relation).Child parent child ↔
      graph.Child parent child ∨ Says stories story parent child relation := by
  obtain ⟨name, otherId⟩ := relation
  unfold record Says
  split
  · next down =>
      rw [child_addChild, Reach.withEdge]
      simp only [StoryRelation.mk.injEq] at down ⊢
      grind
  · next notDown =>
      split
      · next up =>
          rw [child_addChild, Reach.withEdge]
          simp only [StoryRelation.mk.injEq] at up ⊢
          grind
      · next notUp =>
          simp only [StoryRelation.mk.injEq] at notDown notUp ⊢
          grind

end HierarchyGraph

/-- Whether some story claims the edge, from its end or from the far one, to a story there is. -/
def ParentOf (stories : StoryMap) (parent child : String) : Prop :=
  ∃ entry ∈ stories.toList, ∃ relation ∈ entry.2.relationships,
    HierarchyGraph.Says stories entry.2 parent child relation

theorem fromStories_child (stories : StoryMap) :
    (HierarchyGraph.fromStories stories).Child = ParentOf stories := by
  funext parent child
  rw [eq_iff_iff, HierarchyGraph.fromStories, HierarchyGraph.fromAttested]
  rw [Replay.foldl_collects _ (HierarchyGraph.Child · parent child) (fun entry =>
    ∃ relation ∈ entry.2.relationships,
      HierarchyGraph.Says stories entry.2 parent child relation)]
  · refine or_iff_right ?_
    simp only [HierarchyGraph.Child, HierarchyGraph.childrenOf, Std.TreeMap.getD_eq_getD_getElem?,
      Std.TreeMap.getElem?_map]
    cases stories[parent]? <;> simp
  · intro graph entry
    rw [if_neg (by simp)]
    exact Replay.foldl_collects _ (HierarchyGraph.Child · parent child) _
      (HierarchyGraph.record_child stories entry.2 parent child) graph entry.2.relationships

def wouldCreateParentCycle (stories : StoryMap) (parentId childId : String) : Bool :=
  (HierarchyGraph.fromStories stories).wouldCreateCycle parentId childId

theorem wouldCreateParentCycle_iff (stories : StoryMap) (parentId childId : String) :
    wouldCreateParentCycle stories parentId childId = true ↔
      Relation.ReflTransGen (ParentOf stories) childId parentId := by
  rw [wouldCreateParentCycle, HierarchyGraph.wouldCreateCycle_iff, fromStories_child]

namespace HierarchyGraph

def dropChild (graph : HierarchyGraph) (parent child : String) : HierarchyGraph where
  childrenByParent := graph.childrenByParent.insert parent ((graph.childrenOf parent).erase child)
  parentsByChild :=
    graph.parentsByChild.insert child ((graph.parentsByChild.getD child ∅).erase parent)

theorem child_dropChild (graph : HierarchyGraph) (parent child left right : String) :
    (graph.dropChild parent child).Child left right ↔
      graph.Child left right ∧ ¬ (left = parent ∧ right = child) := by
  simp only [Child, childrenOf, dropChild, Std.TreeMap.getD_insert,
    Std.LawfulEqOrd.compare_eq_iff_eq]
  by_cases same : parent = left
  · subst same
    simp only [if_true, Std.TreeSet.mem_erase, Ne, Std.LawfulEqOrd.compare_eq_iff_eq]
    grind
  · simp only [same, if_false]
    grind

def addLinks (graph : HierarchyGraph) (links : List (String × String)) : HierarchyGraph :=
  links.foldl (fun graph link => graph.addChild link.1 link.2) graph

def dropLinks (graph : HierarchyGraph) (links : List (String × String)) : HierarchyGraph :=
  links.foldl (fun graph link => graph.dropChild link.1 link.2) graph

/-- Whether each of the links, asked about in turn, closes no cycle. -/
def admitsLinks : HierarchyGraph → List (String × String) → Bool
  | _, [] => true
  | graph, link :: rest =>
      !graph.wouldCreateCycle link.1 link.2 && (graph.addChild link.1 link.2).admitsLinks rest

theorem addLinks_append (graph : HierarchyGraph) (first second : List (String × String)) :
    graph.addLinks (first ++ second) = (graph.addLinks first).addLinks second :=
  List.foldl_append

theorem dropLinks_append (graph : HierarchyGraph) (first second : List (String × String)) :
    graph.dropLinks (first ++ second) = (graph.dropLinks first).dropLinks second :=
  List.foldl_append

theorem addLinks_child (graph : HierarchyGraph) (links : List (String × String))
    (left right : String) (before : graph.Child left right) :
    (graph.addLinks links).Child left right := by
  induction links generalizing graph with
  | nil => exact before
  | cons link rest ih =>
      apply ih
      rw [child_addChild]
      exact Or.inl before

theorem dropLinks_child (graph : HierarchyGraph) (links : List (String × String))
    (left right : String) (after : (graph.dropLinks links).Child left right) :
    graph.Child left right := by
  induction links generalizing graph with
  | nil => exact after
  | cons link rest ih => exact ((child_dropChild _ _ _ _ _).mp (ih _ after)).1

theorem admitsLinks_iff (graph : HierarchyGraph) (links : List (String × String))
    (acyclic : Reach.Acyclic graph.Child) :
    graph.admitsLinks links = true ↔ Reach.Acyclic (graph.addLinks links).Child := by
  induction links generalizing graph with
  | nil => exact iff_of_true rfl acyclic
  | cons link rest ih =>
      have closes := Reach.withEdge_acyclic graph.Child link.1 link.2 acyclic
      rw [← child_addChild, ← wouldCreateCycle_iff] at closes
      rw [admitsLinks, Bool.and_eq_true, Bool.not_eq_true']
      cases asked : graph.wouldCreateCycle link.1 link.2 with
      | true =>
          refine iff_of_false (by simp) ?_
          intro still
          refine absurd asked (closes.mp (still.narrow _ _ ?_))
          exact fun left right before => addLinks_child _ rest left right before
      | false =>
          rw [eq_self, true_and]
          exact ih _ (closes.mpr (by simp [asked]))

end HierarchyGraph

end Storyhook.Domain
