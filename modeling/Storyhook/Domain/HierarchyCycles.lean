import Storyhook.Domain.Hierarchy
import Storyhook.Library.DepthFirst
import Storyhook.Library.Keyed

/-! The stories that the hierarchy's cycles are reported against. -/

namespace Storyhook.Domain

open Storyhook.Library
open Storyhook.Library.DepthFirst (Entry nodes Looped Marked OnCycle Untangled)

namespace HierarchyGraph

def parentsOf (graph : HierarchyGraph) (storyId : String) : Std.TreeSet String :=
  graph.parentsByChild.getD storyId ∅

/-- The locals of the search for cycles; the last story pushed stands first on the stack. -/
structure CycleWalk where
  visited : Std.TreeSet String
  visiting : Std.TreeSet String
  stack : List String
  cycleNodes : Std.TreeSet String

def CycleWalk.start : CycleWalk := ⟨∅, ∅, [], ∅⟩

def CycleWalk.enter (walk : CycleWalk) (node : String) : CycleWalk :=
  { walk with
    visited := walk.visited.insert node
    visiting := walk.visiting.insert node
    stack := node :: walk.stack }

def CycleWalk.leave (walk : CycleWalk) (node : String) : CycleWalk :=
  { walk with visiting := walk.visiting.erase node, stack := walk.stack.tail }

def CycleWalk.mark (walk : CycleWalk) (child : String) : CycleWalk :=
  { walk with
    cycleNodes := (walk.stack.foldl Std.TreeSet.insert walk.cycleNodes).insert child }

def visitChild (visit : CycleWalk → String → CycleWalk) (walk : CycleWalk) (child : String) :
    CycleWalk :=
  if walk.visiting.contains child then walk.mark child else visit walk child

/-- The children of a story, in the order the walk takes them. -/
def below (graph : HierarchyGraph) (storyId : String) : List String :=
  (graph.childrenOf storyId).toList

def visitCycleNodes (graph : HierarchyGraph) : Nat → CycleWalk → String → CycleWalk
  | 0, walk, _ => walk
  | fuel + 1, walk, node =>
      if walk.visited.contains node then walk
      else ((graph.below node).foldl (visitChild (graph.visitCycleNodes fuel))
        (walk.enter node)).leave node

def named (graph : HierarchyGraph) : List String :=
  graph.childrenByParent.keys ++ graph.parentsByChild.keys

def cycleNodes (graph : HierarchyGraph) : Std.TreeSet String :=
  (graph.childrenByParent.keys.foldl (graph.visitCycleNodes (graph.named.length + 1))
    .start).cycleNodes

/-- The entries of a depth-first walk over the graph, ids ascending. -/
def entries (graph : HierarchyGraph) : List (Entry String) :=
  DepthFirst.walk graph.below (graph.named.length + 1) graph.childrenByParent.keys

section Marks

variable (graph : HierarchyGraph)

structure Tells (walk : CycleWalk) (above : List String)
    (entries : List (Entry String)) : Prop where
  visited : ∀ id, id ∈ walk.visited ↔ id ∈ nodes entries
  visiting : ∀ id, id ∈ walk.visiting ↔ id ∈ above
  stack : walk.stack = above
  entered : ∀ id ∈ above, id ∈ nodes entries

theorem mem_foldl_insert (ids : List String) (set : Std.TreeSet String) (id : String) :
    id ∈ ids.foldl Std.TreeSet.insert set ↔ id ∈ set ∨ id ∈ ids := by
  induction ids generalizing set with
  | nil => simp
  | cons first rest further =>
      rw [List.foldl_cons, further, mem_insert_key, List.mem_cons]
      grind

def Visits (above : List String) (walk after : CycleWalk) (entries left : List (Entry String))
    (backs : String → Prop) : Prop :=
  Tells after above left ∧ ∃ new, left = new ++ entries ∧ ∀ id, id ∈ after.cycleNodes ↔
    id ∈ walk.cycleNodes ∨ Marked graph.below new id ∨ backs id

theorem marked_append (one two : List (Entry String)) (id : String) :
    Marked graph.below (one ++ two) id ↔ Marked graph.below one id ∨ Marked graph.below two id := by
  simp only [Marked, List.mem_append]
  grind

theorem marked_singleton (entry : Entry String) (id : String) : Marked graph.below [entry] id ↔
    id ∈ entry.node :: entry.above ∧ Looped graph.below entry := by
  simp only [Marked, List.mem_singleton, exists_eq_left]

theorem visitChildren_tells (above : List String) (step : List (Entry String) → String →
      List (Entry String)) (visit : CycleWalk → String → CycleWalk)
    (skips : ∀ entries child, child ∈ nodes entries → step entries child = entries)
    (each : ∀ walk entries child, Tells walk above entries →
      graph.Visits above walk (visit walk child) entries (step entries child) fun _ => False)
    (children : List String) (walk : CycleWalk) (entries : List (Entry String))
    (tells : Tells walk above entries) :
    graph.Visits above walk (children.foldl (visitChild visit) walk) entries
      (children.foldl step entries) fun id => id ∈ above ∧ ∃ child ∈ children, child ∈ above := by
  induction children generalizing walk entries with
  | nil => exact ⟨tells, [], rfl, by simp [Marked]⟩
  | cons child rest further =>
      rw [List.foldl_cons, List.foldl_cons, visitChild]
      split
      · next back =>
          have inside : child ∈ above := (tells.visiting child).mp back
          rw [skips entries child (tells.entered child inside)]
          obtain ⟨kept, new, same, marks⟩ := further (walk.mark child) entries
            ⟨tells.visited, tells.visiting, tells.stack, tells.entered⟩
          refine ⟨kept, new, same, fun id => (marks id).trans ?_⟩
          simp only [CycleWalk.mark, mem_insert_key, mem_foldl_insert, tells.stack, List.mem_cons]
          grind
      · next onward =>
          have outside : child ∉ above := fun inside => onward ((tells.visiting child).mpr inside)
          obtain ⟨kept, first, same, marks⟩ := each walk entries child tells
          obtain ⟨last, second, same', marks'⟩ := further (visit walk child) _ kept
          refine ⟨last, second ++ first, by rw [same', same, List.append_assoc], fun id => ?_⟩
          rw [marks' id, marks id, marked_append]
          simp only [List.mem_cons]
          grind

theorem visit_tells (fuel : Nat) (above : List String) (walk : CycleWalk)
    (entries : List (Entry String)) (node : String) (tells : Tells walk above entries) :
    graph.Visits above walk (graph.visitCycleNodes fuel walk node) entries
      (DepthFirst.enter graph.below fuel above entries node) fun _ => False := by
  induction fuel generalizing above walk entries node with
  | zero => exact ⟨tells, [], rfl, by simp [visitCycleNodes, Marked]⟩
  | succ fuel further =>
      rw [visitCycleNodes, DepthFirst.enter]
      have seen : walk.visited.contains node = true ↔ node ∈ nodes entries := tells.visited node
      by_cases again : node ∈ nodes entries
      · rw [if_pos (seen.mpr again), if_pos again]
        exact ⟨tells, [], rfl, by simp [Marked]⟩
      · rw [if_neg (mt seen.mp again), if_neg again]
        have skips (before : List (Entry String)) (child : String) (inside : child ∈ nodes before) :
            DepthFirst.enter graph.below fuel (node :: above) before child = before := by
          cases fuel with
          | zero => rfl
          | succ fuel => rw [DepthFirst.enter, if_pos inside]
        have entered : Tells (walk.enter node) (node :: above) (⟨node, above⟩ :: entries) := by
          refine ⟨fun id => ?_, fun id => ?_, congrArg (node :: ·) tells.stack, fun id member => ?_⟩
          · rw [CycleWalk.enter, mem_insert_key, tells.visited]
            exact List.mem_cons.symm
          · rw [CycleWalk.enter, mem_insert_key, tells.visiting, List.mem_cons]
          · rcases List.mem_cons.mp member with rfl | under
            · exact List.mem_cons_self
            · exact List.mem_cons_of_mem _ (tells.entered id under)
        obtain ⟨kept, new, same, marks⟩ := graph.visitChildren_tells (node :: above) _
          (graph.visitCycleNodes fuel) skips
          (fun walk entries child tells => further (node :: above) walk entries child tells)
          (graph.below node) (walk.enter node) _ entered
        refine ⟨⟨kept.visited, fun id => ?_, ?_, fun id under =>
          kept.entered id (List.mem_cons_of_mem _ under)⟩, new ++ [⟨node, above⟩], ?_, fun id => ?_⟩
        · have outside : node ∉ above := mt (tells.entered node) again
          simp only [CycleWalk.leave, Std.TreeSet.mem_erase, ne_eq,
            Std.LawfulEqOrd.compare_eq_iff_eq, kept.visiting, List.mem_cons]
          grind
        · exact congrArg List.tail kept.stack
        · rw [same, List.append_assoc]
          rfl
        · rw [marked_append, marked_singleton, or_false]
          exact marks id

theorem mem_cycleNodes (id : String) :
    id ∈ graph.cycleNodes ↔ Marked graph.below graph.entries id := by
  have runs (roots : List String) (walk : CycleWalk) (entries : List (Entry String))
      (tells : Tells walk [] entries) : graph.Visits [] walk
        (roots.foldl (graph.visitCycleNodes (graph.named.length + 1)) walk) entries
        (roots.foldl (DepthFirst.enter graph.below
          (graph.named.length + 1) []) entries) fun _ => False := by
    induction roots generalizing walk entries with
    | nil => exact ⟨tells, [], rfl, by simp [Marked]⟩
    | cons root rest further =>
        obtain ⟨kept, first, same, marks⟩ :=
          graph.visit_tells (graph.named.length + 1) [] walk entries root tells
        obtain ⟨last, second, same', marks'⟩ := further _ _ kept
        refine ⟨last, second ++ first, ?_, fun id => ?_⟩
        · rw [List.foldl_cons, same', same, List.append_assoc]
        · rw [List.foldl_cons, marks' id, marks id, marked_append]
          grind
  obtain ⟨-, new, same, marks⟩ := runs graph.childrenByParent.keys .start []
    ⟨by simp [CycleWalk.start, nodes], by simp [CycleWalk.start], rfl, nofun⟩
  rw [cycleNodes, marks id, entries, DepthFirst.walk, same]
  simp [CycleWalk.start]

end Marks

section Mirror

variable (graph : HierarchyGraph)

def Mirrored : Prop :=
  ∀ parent child, parent ∈ graph.parentsOf child ↔ child ∈ graph.childrenOf parent

theorem mem_enter (edges : Std.TreeMap String (Std.TreeSet String)) (near far left right : String) :
    right ∈ (enter edges near far).getD left ∅ ↔
      right ∈ edges.getD left ∅ ∨ left = near ∧ right = far := by
  rw [enter, Std.TreeMap.getD_insert]
  split
  · next same =>
      rw [Std.LawfulEqOrd.eq_of_compare same, mem_insert_key]
      simp [or_comm]
  · next apart =>
      have unlike : left ≠ near := fun same => apart (same ▸ Std.ReflCmp.compare_self)
      simp [unlike]

theorem Mirrored.addChild (mirrored : graph.Mirrored) (parent child : String) :
    (graph.addChild parent child).Mirrored := by
  intro left right
  rw [parentsOf, childrenOf, HierarchyGraph.addChild, mem_enter, mem_enter]
  exact or_congr (mirrored left right) and_comm

theorem fromAttested_mirrored (stories : StoryMap) (unattested : Std.TreeSet String) :
    (fromAttested stories unattested).Mirrored := by
  have blank (id : String) : (stories.map fun _ _ => (∅ : Std.TreeSet String)).getD id ∅ = ∅ := by
    rw [Std.TreeMap.getD_eq_getD_getElem?, Std.TreeMap.getElem?_map]
    cases stories[id]? <;> rfl
  have recorded (story : StorySnapshot) (relation : StoryRelation) (before : HierarchyGraph)
      (mirrored : before.Mirrored) : (record stories story before relation).Mirrored := by
    unfold record
    split
    · exact mirrored.addChild before _ _
    · split
      · exact mirrored.addChild before _ _
      · exact mirrored
  refine List.foldlRecOn stories.toList _ ?_ fun before mirrored entry _ => ?_
  · intro parent child
    rw [parentsOf, childrenOf, blank, blank]
    exact iff_of_false Std.TreeSet.not_mem_emptyc Std.TreeSet.not_mem_emptyc
  · split
    · exact mirrored
    · exact List.foldlRecOn entry.2.relationships _ mirrored fun graph kept relation _ =>
        recorded entry.2 relation graph kept

theorem below_named (mirrored : graph.Mirrored) (node child : String)
    (arc : child ∈ graph.below node) :
    node ∈ graph.childrenByParent.keys ∧ child ∈ graph.named := by
  have inside := Std.TreeSet.mem_toList.mp arc
  constructor
  · rw [Std.TreeMap.mem_keys]
    by_contra absent
    rw [childrenOf, Std.TreeMap.getD_eq_fallback absent] at inside
    exact Std.TreeSet.not_mem_emptyc inside
  · refine List.mem_append_right _ (Std.TreeMap.mem_keys.mpr ?_)
    by_contra absent
    have back := (mirrored node child).mpr inside
    rw [parentsOf, Std.TreeMap.getD_eq_fallback absent] at back
    exact Std.TreeSet.not_mem_emptyc back

theorem entries_search (mirrored : graph.Mirrored) :
    DepthFirst.Search graph.below [] graph.entries ∧
      ∀ node, graph.below node ≠ [] → node ∈ nodes graph.entries := by
  obtain ⟨search, entered⟩ := DepthFirst.walk_search graph.below graph.named
    (fun node child arc => (graph.below_named mirrored node child arc).2) _ (Room.start graph.named)
    graph.childrenByParent.keys fun root member => List.mem_append_left _ member
  refine ⟨search, fun node some => entered node ?_⟩
  obtain ⟨child, arc⟩ := List.exists_mem_of_ne_nil _ some
  exact (graph.below_named mirrored node child arc).1

theorem arc_below : DepthFirst.Arc graph.below = graph.Child := by
  funext node child
  exact propext Std.TreeSet.mem_toList

end Mirror

end HierarchyGraph

/-- Whether an attested story claims the edge, from either end, to a story there is. -/
def AttestedParentOf (stories : StoryMap) (unattested : Std.TreeSet String)
    (parent child : String) : Prop :=
  ∃ entry ∈ stories.toList, entry.2.id ∉ unattested ∧ ∃ relation ∈ entry.2.relationships,
    HierarchyGraph.Says stories entry.2 parent child relation

section Exact

open HierarchyGraph

variable (stories : StoryMap) (unattested : Std.TreeSet String)

theorem fromAttested_child :
    (fromAttested stories unattested).Child = AttestedParentOf stories unattested := by
  funext parent child
  rw [eq_iff_iff, fromAttested]
  rw [Replay.foldl_collects _ (HierarchyGraph.Child · parent child) (fun entry =>
    entry.2.id ∉ unattested ∧ ∃ relation ∈ entry.2.relationships,
      Says stories entry.2 parent child relation)]
  · refine or_iff_right ?_
    simp only [HierarchyGraph.Child, childrenOf, Std.TreeMap.getD_eq_getD_getElem?,
      Std.TreeMap.getElem?_map]
    cases stories[parent]? <;> simp
  · intro graph entry
    split
    · next unknown => simp [show entry.2.id ∈ unattested from unknown]
    · next attested =>
        rw [Replay.foldl_collects _ (HierarchyGraph.Child · parent child) _
          (record_child stories entry.2 parent child) graph entry.2.relationships]
        exact or_congr_right (and_iff_right attested).symm

/-- Exactly the stories on cycles are reported just where the walk over the hierarchy, ids
ascending, is untangled. -/
theorem cycleNodes_exact :
    (∀ id, id ∈ (fromAttested stories unattested).cycleNodes ↔
      Relation.TransGen (AttestedParentOf stories unattested) id id) ↔
    Untangled (fromAttested stories unattested).below
      (fromAttested stories unattested).entries := by
  obtain ⟨search, entered⟩ :=
    (fromAttested stories unattested).entries_search (fromAttested_mirrored stories unattested)
  rw [← DepthFirst.marks_exact _ _ search entered]
  refine forall_congr' fun id => ?_
  rw [mem_cycleNodes, OnCycle, arc_below, fromAttested_child]

end Exact

section Alike

open HierarchyGraph

/-- The stories a map of edges has a row for: those there are, and those with an edge. -/
def RowsFor (stories : StoryMap) (edges : Std.TreeMap String (Std.TreeSet String)) : Prop :=
  ∀ id, id ∈ edges ↔ id ∈ stories ∨ ∃ other, other ∈ edges.getD id ∅

theorem RowsFor.enter (stories : StoryMap) (edges : Std.TreeMap String (Std.TreeSet String))
    (rows : RowsFor stories edges) (near far : String) :
    RowsFor stories (enter edges near far) := by
  intro id
  simp only [mem_enter, exists_or]
  rw [HierarchyGraph.enter, Std.TreeMap.mem_insert, Std.LawfulEqOrd.compare_eq_iff_eq, rows id]
  simp only [exists_and_left, exists_eq, and_true]
  grind

def Rowed (stories : StoryMap) (graph : HierarchyGraph) : Prop :=
  RowsFor stories graph.childrenByParent ∧ RowsFor stories graph.parentsByChild

theorem fromAttested_rows (stories : StoryMap) (unattested : Std.TreeSet String) :
    Rowed stories (fromAttested stories unattested) := by
  have added (graph : HierarchyGraph) (parent child : String) (rows : Rowed stories graph) :
      Rowed stories (graph.addChild parent child) :=
    ⟨rows.1.enter stories _ parent child, rows.2.enter stories _ child parent⟩
  refine List.foldlRecOn stories.toList _ ?_ fun before rows entry _ => ?_
  · have blank : RowsFor stories (stories.map fun _ _ => (∅ : Std.TreeSet String)) := by
      intro id
      rw [Std.TreeMap.getD_eq_getD_getElem?, Std.TreeMap.getElem?_map, Std.TreeMap.mem_map]
      cases stories[id]? <;> simp
    exact ⟨blank, blank⟩
  · split
    · exact rows
    · refine List.foldlRecOn entry.2.relationships _ rows fun graph kept relation _ => ?_
      unfold record
      split
      · exact added graph _ _ kept
      · split
        · exact added graph _ _ kept
        · exact kept

variable (stories : StoryMap) (one other : Std.TreeSet String)
  (alike : AttestedParentOf stories one = AttestedParentOf stories other)

include alike

theorem fromAttested_below (id : String) :
    (fromAttested stories one).below id = (fromAttested stories other).below id := by
  apply ascending_unique _ _ Std.TreeSet.ordered_toList Std.TreeSet.ordered_toList
  intro child
  rw [Std.TreeSet.mem_toList, Std.TreeSet.mem_toList]
  have same := congrFun (congrFun ((fromAttested_child stories one).trans
    (alike.trans (fromAttested_child stories other).symm)) id) child
  exact iff_of_eq same

theorem fromAttested_entries :
    (fromAttested stories one).entries = (fromAttested stories other).entries := by
  have same : (fromAttested stories one).Child = (fromAttested stories other).Child :=
    (fromAttested_child stories one).trans (alike.trans (fromAttested_child stories other).symm)
  have parents : (fromAttested stories one).childrenByParent.keys =
      (fromAttested stories other).childrenByParent.keys := by
    apply ascending_unique _ _ Std.TreeMap.ordered_keys Std.TreeMap.ordered_keys
    intro id
    rw [Std.TreeMap.mem_keys, Std.TreeMap.mem_keys, (fromAttested_rows stories one).1 id,
      (fromAttested_rows stories other).1 id]
    exact or_congr_right (exists_congr fun child => iff_of_eq (congrFun (congrFun same id) child))
  have children : (fromAttested stories one).parentsByChild.keys =
      (fromAttested stories other).parentsByChild.keys := by
    apply ascending_unique _ _ Std.TreeMap.ordered_keys Std.TreeMap.ordered_keys
    intro id
    rw [Std.TreeMap.mem_keys, Std.TreeMap.mem_keys, (fromAttested_rows stories one).2 id,
      (fromAttested_rows stories other).2 id]
    refine or_congr_right (exists_congr fun parent => ?_)
    exact (fromAttested_mirrored stories one parent id).trans
      ((iff_of_eq (congrFun (congrFun same parent) id)).trans
        (fromAttested_mirrored stories other parent id).symm)
  rw [entries, entries, named, named, parents, children,
    show (fromAttested stories one).below = (fromAttested stories other).below from
      funext (fromAttested_below stories one other alike)]

end Alike

def parentOf (id : String) (children : List String) : String × StorySnapshot :=
  (id, { (default : StorySnapshot) with
    id := id, relationships := children.map (⟨"parent-of", ·⟩) })

def sharedCycles : StoryMap := .ofList [parentOf "SH-1" ["SH-2"], parentOf "SH-2" ["SH-3", "SH-4"],
  parentOf "SH-3" ["SH-2"], parentOf "SH-4" ["SH-3"]]

/-- `SH-1`, on no cycle, is reported; `SH-4`, on one, is not. -/
theorem shared_cycles_misreported :
    (¬ ∀ stories unattested id, id ∈ (HierarchyGraph.fromAttested stories unattested).cycleNodes →
      Relation.TransGen (AttestedParentOf stories unattested) id id) ∧
    ¬ ∀ stories unattested id, Relation.TransGen (AttestedParentOf stories unattested) id id →
      id ∈ (HierarchyGraph.fromAttested stories unattested).cycleNodes := by
  constructor
  · intro sound
    have cycle := sound sharedCycles ∅ "SH-1" (by decide +kernel)
    obtain ⟨parent, -, entry, member, -, relation, recorded, -, claimed⟩ :=
      Relation.TransGen.tail'_iff.mp cycle
    have none : ∀ entry ∈ sharedCycles.toList, ∀ relation ∈ entry.2.relationships,
        relation ≠ ⟨"parent-of", "SH-1"⟩ ∧ relation.relation ≠ "child-of" := by decide +kernel
    obtain ⟨unlike, noChild⟩ := none entry member relation recorded
    rcases claimed with ⟨down, -⟩ | ⟨up, -⟩
    · exact unlike down
    · exact noChild (congrArg StoryRelation.relation up)
  · intro complete
    have arc (parent child : String) (children : List String)
        (there : sharedCycles[parent]? = some (parentOf parent children).2)
        (listed : child ∈ children) (known : child ∈ sharedCycles) :
        AttestedParentOf sharedCycles ∅ parent child :=
      ⟨(parent, _), Std.TreeMap.mem_toList_iff_getElem?_eq_some.mpr there,
        Std.TreeSet.not_mem_emptyc, ⟨"parent-of", child⟩, List.mem_map_of_mem listed, known,
        .inl ⟨rfl, rfl⟩⟩
    have around : Relation.TransGen (AttestedParentOf sharedCycles ∅) "SH-4" "SH-4" :=
      ((Relation.TransGen.single (arc "SH-4" "SH-3" ["SH-3"] (by decide +kernel) (by simp)
        (by decide +kernel))).tail (arc "SH-3" "SH-2" ["SH-2"] (by decide +kernel) (by simp)
          (by decide +kernel))).tail (arc "SH-2" "SH-4" ["SH-3", "SH-4"] (by decide +kernel)
            (by simp) (by decide +kernel))
    exact absurd (complete sharedCycles ∅ "SH-4" around) (by decide +kernel)

end Storyhook.Domain
