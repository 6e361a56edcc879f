import Mathlib.Data.List.Induction
import Mathlib.Logic.Relation
import Mathlib.Tactic.Common

/-! The groups that a sweep over all nodes makes of those that edges join. -/

namespace Storyhook.Library.Components

open Relation

variable {ν : Type} [Ord ν]

def gather (group : ν → Std.TreeSet ν) (swept : Std.TreeSet ν × List (Std.TreeSet ν)) (node : ν) :
    Std.TreeSet ν × List (Std.TreeSet ν) :=
  if swept.1.contains node then swept else (swept.1 ∪ group node, swept.2 ++ [group node])

def sweep (group : ν → Std.TreeSet ν) (nodes : List ν) : List (Std.TreeSet ν) :=
  (nodes.foldl (gather group) (∅, [])).2

/-- The nodes divided into groups of those that edges join. -/
structure Partition (edge : ν → ν → Prop) (IsNode : ν → Prop) (groups : List (Std.TreeSet ν)) :
    Prop where
  covered : ∀ node, IsNode node ↔ ∃ group ∈ groups, node ∈ group
  filled : ∀ group ∈ groups, ∃ node, node ∈ group
  apart : groups.Pairwise fun one other => ∀ node ∈ one, node ∉ other
  closed : ∀ group ∈ groups, ∀ node other, edge node other → (node ∈ group ↔ other ∈ group)
  joined : ∀ group ∈ groups, ∀ node ∈ group, ∀ other ∈ group, EqvGen edge node other

/-- What a sweep has made of the nodes it has passed. -/
structure Swept (edge : ν → ν → Prop) (passed : List ν)
    (swept : Std.TreeSet ν × List (Std.TreeSet ν)) : Prop where
  visited : ∀ node, node ∈ swept.1 ↔ ∃ group ∈ swept.2, node ∈ group
  reached : ∀ node ∈ passed, node ∈ swept.1
  opened : ∀ group ∈ swept.2, ∃ start ∈ passed, ∀ node, node ∈ group ↔ EqvGen edge start node
  apart : swept.2.Pairwise fun one other => ∀ node ∈ one, node ∉ other

section Sweep

variable (edge : ν → ν → Prop) (group : ν → Std.TreeSet ν)

theorem Swept.start : Swept edge [] ((∅, []) : Std.TreeSet ν × List (Std.TreeSet ν)) where
  visited := by simp
  reached := by simp
  opened := by simp
  apart := .nil

variable [Std.TransOrd ν]
variable (passed : List ν) (swept : Std.TreeSet ν × List (Std.TreeSet ν)) (node : ν)

theorem Swept.gather (before : Swept edge passed swept)
    (exact : ∀ other, other ∈ group node ↔ EqvGen edge node other) :
    Swept edge (passed ++ [node]) (gather group swept node) := by
  unfold Components.gather
  split
  · next again =>
      refine ⟨before.visited, ?_, ?_, before.apart⟩
      · intro other member
        rcases List.mem_append.mp member with early | own
        · exact before.reached other early
        · exact List.mem_singleton.mp own ▸ again
      · intro opened member
        obtain ⟨start, early, same⟩ := before.opened opened member
        exact ⟨start, List.mem_append_left _ early, same⟩
  · next fresh =>
      constructor
      · intro other
        simp only [Std.TreeSet.mem_union_iff, before.visited, List.mem_append, List.mem_singleton,
          or_and_right, exists_or, exists_eq_left]
      · intro other member
        rw [Std.TreeSet.mem_union_iff]
        rcases List.mem_append.mp member with early | own
        · exact .inl (before.reached other early)
        · exact .inr ((exact other).mpr (List.mem_singleton.mp own ▸ .refl _))
      · intro opened member
        rcases List.mem_append.mp member with early | own
        · obtain ⟨start, inside, same⟩ := before.opened opened early
          exact ⟨start, List.mem_append_left _ inside, same⟩
        · rw [List.mem_singleton.mp own]
          exact ⟨node, List.mem_append_right _ List.mem_cons_self, exact⟩
      · refine List.pairwise_append.mpr ⟨before.apart, List.pairwise_singleton _ _, ?_⟩
        intro early member late own other inside both
        rw [List.mem_singleton.mp own, exact] at both
        -- a group that shares a node with the new one would have held its first node
        obtain ⟨start, -, same⟩ := before.opened early member
        exact fresh ((before.visited node).mpr
          ⟨early, member, (same node).mpr (((same other).mp inside).trans _ _ _ (both.symm _ _))⟩)

theorem sweep_swept (nodes : List ν)
    (exact : ∀ node ∈ nodes, ∀ other, other ∈ group node ↔ EqvGen edge node other) :
    Swept edge nodes (nodes.foldl (Components.gather group) (∅, [])) := by
  induction nodes using List.reverseRecOn with
  | nil => exact Swept.start edge
  | append_singleton earlier node further =>
      rw [List.foldl_append, List.foldl_cons, List.foldl_nil]
      refine Swept.gather edge group earlier _ node ?_ ?_
      · exact further fun other member => exact other (List.mem_append_left _ member)
      · exact exact node (List.mem_append_right _ List.mem_cons_self)

theorem sweep_partition (nodes : List ν) (within : ∀ one other, edge one other →
      (one ∈ nodes ↔ other ∈ nodes))
    (exact : ∀ node ∈ nodes, ∀ other, other ∈ group node ↔ EqvGen edge node other) :
    Partition edge (· ∈ nodes) (sweep group nodes) := by
  have swept := sweep_swept edge group nodes exact
  have staying (one other : ν) (path : EqvGen edge one other) : one ∈ nodes ↔ other ∈ nodes := by
    induction path with
    | rel one other step => exact within one other step
    | refl => rfl
    | symm _ _ _ same => exact same.symm
    | trans _ _ _ _ _ first second => exact first.trans second
  constructor
  · intro node
    refine ⟨fun member => (swept.visited node).mp (swept.reached node member), ?_⟩
    rintro ⟨opened, member, inside⟩
    obtain ⟨start, known, same⟩ := swept.opened opened member
    exact (staying start node ((same node).mp inside)).mp known
  · intro opened member
    obtain ⟨start, -, same⟩ := swept.opened opened member
    exact ⟨start, (same start).mpr (.refl start)⟩
  · exact swept.apart
  · intro opened member node other arc
    obtain ⟨start, -, same⟩ := swept.opened opened member
    rw [same, same]
    exact ⟨fun path => path.trans _ _ _ (.rel _ _ arc),
      fun path => path.trans _ _ _ (.symm _ _ (.rel _ _ arc))⟩
  · intro opened member node inside other inside'
    obtain ⟨start, -, same⟩ := swept.opened opened member
    exact (((same node).mp inside).symm _ _).trans _ _ _ ((same other).mp inside')

end Sweep

end Storyhook.Library.Components
