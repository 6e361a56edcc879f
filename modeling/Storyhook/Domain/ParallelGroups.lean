import Mathlib.Order.Comparable
import Storyhook.Domain.DependencyGraph
import Storyhook.Library.Components
import Storyhook.Library.Flood

/-! The groups of open stories that no dependency joins. -/

namespace Storyhook.Domain

open Storyhook.Library
open Relation

namespace DependencyGraph

def beside (graph : DependencyGraph) (id : String) : List String :=
  ((graph.predecessorsOf id).toList ++ (graph.successorsOf id).toList).reverse

def groupOf (graph : DependencyGraph) (node : String) : Std.TreeSet String :=
  Flood.flood graph.beside (fun _ => false)
    (1 + (graph.nodes.toList.map fun id => (graph.beside id).length).sum + 1) [node] ∅

def parallelGroups (graph : DependencyGraph) : List (Std.TreeSet String) :=
  Components.sweep graph.groupOf graph.nodes.toList

end DependencyGraph

section Groups

open DependencyGraph

variable (stories : StoryMap)

theorem mem_beside (id other : String) :
    other ∈ (fromOpenStories stories).beside id ↔ SymmGen (Dependent stories) id other := by
  rw [beside, List.mem_reverse, List.mem_append, Std.TreeSet.mem_toList, Std.TreeSet.mem_toList,
    mem_predecessorsOf, mem_successorsOf, SymmGen, or_comm]

theorem mem_groupOf (id other : String) :
    other ∈ (fromOpenStories stories).groupOf id ↔ EqvGen (Dependent stories) id other := by
  have known (node : String) (some : (fromOpenStories stories).beside node ≠ []) :
      node ∈ (fromOpenStories stories).nodes.toList := by
    obtain ⟨other, near⟩ := List.exists_mem_of_ne_nil _ some
    rw [Std.TreeSet.mem_toList, mem_nodes]
    rcases (mem_beside stories node other).mp near with waits | blocks
    · exact waits.first
    · exact blocks.second
  have arcs : Flood.OpenArc (fromOpenStories stories).beside (fun _ => false) =
      SymmGen (Dependent stories) := by
    funext one other
    rw [Flood.OpenArc, mem_beside, eq_self, and_true]
  have fuelled : [id].length + ((fromOpenStories stories).nodes.toList.map fun key =>
      ((fromOpenStories stories).beside key).length).sum < 1 +
        ((fromOpenStories stories).nodes.toList.map fun key =>
          ((fromOpenStories stories).beside key).length).sum + 1 := Nat.lt_succ_self _
  rw [groupOf, Flood.mem_flood _ _ _ _ _ known fuelled, arcs, EqvGen.reflTransGen_symmGen]
  simp

theorem parallelGroups_partition : Components.Partition (Dependent stories) (IsOpenStory stories)
    (fromOpenStories stories).parallelGroups := by
  have nodes : IsOpenStory stories = (· ∈ (fromOpenStories stories).nodes.toList) := by
    funext id
    rw [Std.TreeSet.mem_toList, mem_nodes]
  rw [parallelGroups, nodes]
  refine Components.sweep_partition _ _ _ (fun one other waits => ?_) fun node _ other =>
    mem_groupOf stories node other
  rw [Std.TreeSet.mem_toList, Std.TreeSet.mem_toList, mem_nodes, mem_nodes]
  exact iff_of_true waits.first waits.second

end Groups

end Storyhook.Domain
