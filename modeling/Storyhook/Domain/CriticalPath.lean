import Mathlib.Data.List.Chain
import Storyhook.Domain.DependencyGraph
import Storyhook.Library.LongestSearch
import Storyhook.Library.Reach

/-! The longest chain of dependent stories, and when a cycle makes it pass a story twice. -/

namespace Storyhook.Domain

open Storyhook.Library
open Relation

namespace DependencyGraph

variable (graph : DependencyGraph)

def dependents (id : String) : List String := (graph.successorsOf id).toList

def longestFrom : Std.TreeMap String (List String) :=
  LongestChain.survey graph.dependents (graph.nodes.toList.length + 1) graph.nodes.toList

def criticalPath : List String :=
  (LongestChain.lastLongest (graph.longestFrom.toList.map (·.2))).getD []

/-- Whether a dependency leads back to a story that the depth-first search is under way from. -/
def TurnsBack : String → String → Prop :=
  LongestChain.BackArc
    (DepthFirst.walk graph.dependents (graph.nodes.toList.length + 1) graph.nodes.toList)

def Foremost : String → List String → Prop :=
  LongestChain.Foremost graph.dependents graph.TurnsBack graph.nodes.toList

/-- Whether the foremost of the chains that end where they turn back turns back on itself. -/
def ClosesUp : Prop :=
  ∃ node passed last, graph.Foremost node (passed ++ [last]) ∧ last ∈ node :: passed

end DependencyGraph

/-- What the critical path promises. -/
structure CriticalPath (stories : StoryMap) (path : List String) : Prop where
  opened : ∀ id ∈ path, IsOpenStory stories id
  chained : path.IsChain (Dependent stories)
  distinct : path.Nodup
  longest : Reach.Acyclic (Dependent stories) → ∀ chain : List String,
    (∀ id ∈ chain, IsOpenStory stories id) → chain.IsChain (Dependent stories) →
      chain.length ≤ path.length

/-- Open stories that differ, each waiting for the one before it, and one of them for the last. -/
structure Circling (stories : StoryMap) (passed : List String) (last : String) : Prop where
  opened : ∀ id ∈ passed ++ [last], IsOpenStory stories id
  chained : (passed ++ [last]).IsChain (Dependent stories)
  distinct : (passed ++ [last]).Nodup
  closed : ∃ id ∈ passed ++ [last], Dependent stories last id

/-- Open stories, each waiting for the one before it, which does not come to wait for it. -/
structure Straight (stories : StoryMap) (chain : List String) : Prop where
  opened : ∀ id ∈ chain, IsOpenStory stories id
  chained : chain.IsChain fun id waiting =>
    Dependent stories id waiting ∧ ¬ ReflTransGen (Dependent stories) waiting id

/-- Whether every cycle, entered however early, falls short of a chain that meets none twice. -/
def Outdone (stories : StoryMap) : Prop :=
  ∀ passed last, Circling stories passed last →
    ∃ chain, Straight stories chain ∧ passed.length + 2 < chain.length

theorem Circling.cyclic (stories : StoryMap) (passed : List String) (last : String)
    (circling : Circling stories passed last) :
    ∃ id ∈ passed ++ [last], TransGen (Dependent stories) id id := by
  obtain ⟨id, member, waits⟩ := circling.closed
  refine ⟨id, member, .tail' ?_ waits⟩
  obtain ⟨before, onward, split⟩ := List.append_of_mem member
  have chained : (id :: onward).IsChain (Dependent stories) :=
    (split ▸ circling.chained).suffix (List.suffix_append before _)
  have reached := List.IsChain.induction (ReflTransGen (Dependent stories) id)
    (id :: onward) chained
    (fun _ _ waits toward => toward.tail waits) (fun _ => .refl)
  apply reached last
  apply List.mem_of_getLast?
  rw [← List.getLast?_append_cons before id onward, ← split, List.getLast?_concat]

theorem outdone_of_acyclic (stories : StoryMap) (acyclic : Reach.Acyclic (Dependent stories)) :
    Outdone stories := by
  intro passed last circling
  obtain ⟨id, -, cyclic⟩ := circling.cyclic
  exact absurd cyclic (acyclic id)

section Path

open DependencyGraph

variable (stories : StoryMap)

theorem mem_dependents (id waiting : String) :
    waiting ∈ (fromOpenStories stories).dependents id ↔ Dependent stories id waiting := by
  rw [dependents, Std.TreeSet.mem_toList, mem_successorsOf]

theorem mem_order (id : String) :
    id ∈ (fromOpenStories stories).nodes.toList ↔ IsOpenStory stories id := by
  rw [Std.TreeSet.mem_toList, mem_nodes]

theorem dependents_known (id : String) :
    ∀ waiting ∈ (fromOpenStories stories).dependents id,
      waiting ∈ (fromOpenStories stories).nodes.toList := fun waiting arc =>
  (mem_order stories waiting).mpr ((mem_dependents stories id waiting).mp arc).second

theorem dependents_ordered (id : String) :
    ((fromOpenStories stories).dependents id).Pairwise LongestChain.Earlier :=
  Std.TreeSet.ordered_toList

theorem criticalPath_foremost (some : (fromOpenStories stories).nodes.toList ≠ []) :
    ∃ node rest, (fromOpenStories stories).criticalPath = node :: rest ∧
      (fromOpenStories stories).Foremost node rest := by
  obtain ⟨node, rest, found, foremost⟩ := LongestChain.lastLongest_foremost _ _ _
    (Room.start _) (dependents_known stories) (dependents_ordered stories) some
  exact ⟨node, rest, by rw [criticalPath, longestFrom, found, Option.getD_some], foremost⟩

theorem turnsBack_reaches (id other : String)
    (back : (fromOpenStories stories).TurnsBack id other) :
    ReflTransGen (Dependent stories) other id := by
  obtain ⟨search, -⟩ := DepthFirst.walk_search _ _ (dependents_known stories) _ (Room.start _) _
    fun _ known => known
  obtain ⟨entry, member, rfl, under⟩ := back
  rcases List.mem_cons.mp under with rfl | above
  · exact .refl
  · have path := DepthFirst.above_path _ _ search entry.above entry.node member other above
    exact ReflTransGen.mono (fun one other => (mem_dependents stories one other).mp) _ _
      path.to_reflTransGen

theorem straight_cut (node : String) (rest : List String)
    (straight : Straight stories (node :: rest)) :
    LongestChain.Cut (fromOpenStories stories).dependents (fromOpenStories stories).TurnsBack node
      rest := by
  apply LongestChain.Cut.of_isChain
  refine straight.chained.imp fun id waiting ⟨waits, forward⟩ => ?_
  exact ⟨(mem_dependents stories id waiting).mpr waits,
    fun back => forward (turnsBack_reaches stories id waiting back)⟩

theorem criticalPath_chain (node : String) (rest : List String)
    (foremost : (fromOpenStories stories).Foremost node rest) :
    (∀ id ∈ node :: rest, IsOpenStory stories id) ∧
      (node :: rest).IsChain (Dependent stories) ∧
      (Reach.Acyclic (Dependent stories) → ∀ chain : List String,
        (∀ id ∈ chain, IsOpenStory stories id) → chain.IsChain (Dependent stories) →
          chain.length ≤ (node :: rest).length) := by
  have arcs : (fun one other => other ∈ (fromOpenStories stories).dependents one) =
      Dependent stories := by
    funext one other
    rw [mem_dependents]
  have chained : (node :: rest).IsChain (Dependent stories) :=
    arcs ▸ foremost.best.cut.isChain
  refine ⟨?_, chained, fun acyclic chain opened linked => ?_⟩
  · have known := (mem_order stories node).mp foremost.known
    exact List.IsChain.induction (IsOpenStory stories) (node :: rest) chained
      (fun _ _ waits _ => waits.second) (by simpa using known)
  · cases chain with
    | nil => exact Nat.zero_le _
    | cons first onward =>
        have straight : Straight stories (first :: onward) := ⟨opened, linked.imp
          fun id waiting waits => ⟨waits, fun back => acyclic id (.head' waits back)⟩⟩
        exact Nat.succ_le_succ (foremost.longest first
          ((mem_order stories first).mpr (opened first List.mem_cons_self)) onward
          (straight_cut stories first onward straight))

theorem criticalPath_iff : CriticalPath stories (fromOpenStories stories).criticalPath ↔
    ¬ (fromOpenStories stories).ClosesUp := by
  constructor
  · rintro path ⟨node, passed, last, foremost, again⟩
    obtain ⟨node', rest, found, foremost'⟩ :=
      criticalPath_foremost stories (List.ne_nil_of_mem foremost.known)
    obtain ⟨rfl, rfl⟩ := foremost.unique _ _ _ _ _ _ _ foremost'
    have distinct := path.distinct
    rw [found, ← List.cons_append] at distinct
    exact (List.nodup_append.mp distinct).2.2 last again last List.mem_cons_self rfl
  · intro straight
    by_cases none : (fromOpenStories stories).nodes.toList = []
    · have blank : (fromOpenStories stories).criticalPath = [] := by
        rw [criticalPath, longestFrom, none]
        rfl
      rw [blank]
      refine ⟨by simp, .nil, .nil, fun _ chain opened _ => ?_⟩
      cases chain with
      | nil => exact Nat.le_refl _
      | cons first rest =>
          have known := (mem_order stories first).mpr (opened first List.mem_cons_self)
          exact absurd (none ▸ known) List.not_mem_nil
    · obtain ⟨node, rest, found, foremost⟩ := criticalPath_foremost stories none
      obtain ⟨opened, chained, longest⟩ := criticalPath_chain stories node rest foremost
      rw [found]
      refine ⟨opened, chained, ?_, longest⟩
      have front := foremost.best.cut.nodup _ _ (LongestChain.ahead_acyclic _ _ _ (Room.start _)
        (dependents_known stories) (dependents_ordered stories))
      rcases List.eq_nil_or_concat' rest with rfl | ⟨passed, last, rfl⟩
      · exact List.nodup_singleton _
      · rw [← List.cons_append, List.dropLast_concat] at front
        rw [← List.cons_append]
        refine List.nodup_append.mpr ⟨front, List.nodup_singleton _, ?_⟩
        rintro id inside other own rfl
        exact straight ⟨node, passed, last, foremost, List.mem_singleton.mp own ▸ inside⟩

theorem closesUp_circling (node : String) (passed : List String) (last : String)
    (foremost : (fromOpenStories stories).Foremost node (passed ++ [last]))
    (again : last ∈ node :: passed) :
    ∃ front final, node :: passed = front ++ [final] ∧ Circling stories front final := by
  obtain ⟨opened, chained, -⟩ := criticalPath_chain stories node (passed ++ [last]) foremost
  have distinct := foremost.best.cut.nodup _ _ (LongestChain.ahead_acyclic _ _ _ (Room.start _)
    (dependents_known stories) (dependents_ordered stories))
  obtain ⟨front, final, split⟩ : ∃ front final, node :: passed = front ++ [final] :=
    ⟨_, _, (List.dropLast_append_getLast (List.cons_ne_nil node passed)).symm⟩
  rw [← List.cons_append, split] at opened chained distinct
  rw [List.dropLast_concat] at distinct
  refine ⟨front, final, split, ?_, (List.isChain_append.mp chained).1, distinct, last,
    split ▸ again, ?_⟩
  · exact fun id member => opened id (List.mem_append_left _ member)
  · apply (List.isChain_append.mp chained).2.2 final _ last
    · exact List.head?_singleton
    · exact List.getLast?_concat

/-- A path that closes a cycle has one story more than the chain that comes round. -/
theorem criticalPath_outdone (outdone : Outdone stories) :
    CriticalPath stories (fromOpenStories stories).criticalPath := by
  rw [criticalPath_iff]
  rintro ⟨node, passed, last, foremost, again⟩
  obtain ⟨front, final, split, circling⟩ :=
    closesUp_circling stories node passed last foremost again
  obtain ⟨chain, straight, longer⟩ := outdone front final circling
  cases chain with
  | nil => exact absurd longer (Nat.not_lt_zero _)
  | cons first onward =>
      have known := (mem_order stories first).mpr (straight.opened first List.mem_cons_self)
      have upTo := foremost.longest first known onward (straight_cut stories first onward straight)
      have size := congrArg List.length split
      simp only [List.length_cons, List.length_append, List.length_nil] at upTo size longer
      omega

end Path

def blocking (rows : List (String × List String)) : StoryMap :=
  .ofList (rows.map fun row => (row.1, { (default : StorySnapshot) with
    id := row.1, superstate := .open, relationships := row.2.map (⟨"blocks", ·⟩) }))

def cycleBesideRow : StoryMap := blocking
  [("SH-1", ["SH-2"]), ("SH-2", ["SH-1"]),
    ("SH-3", ["SH-4"]), ("SH-4", ["SH-5"]), ("SH-5", ["SH-6"]), ("SH-6", [])]

theorem cycleBesideRow_arc (id waiting : String) (waits : Dependent cycleBesideRow id waiting) :
    id ∈ ["SH-1", "SH-2"] ∧ waiting ∈ ["SH-1", "SH-2"] ∨
      id ∉ ["SH-1", "SH-2"] ∧ waiting ∉ ["SH-1", "SH-2"] ∧ id < waiting := by
  have all : ∀ id ∈ (DependencyGraph.fromOpenStories cycleBesideRow).nodes.toList,
      ∀ waiting ∈ (DependencyGraph.fromOpenStories cycleBesideRow).dependents id,
        id ∈ ["SH-1", "SH-2"] ∧ waiting ∈ ["SH-1", "SH-2"] ∨
          id ∉ ["SH-1", "SH-2"] ∧ waiting ∉ ["SH-1", "SH-2"] ∧ id < waiting := by
    decide +kernel
  exact all id ((mem_order _ id).mpr waits.first) waiting ((mem_dependents _ id waiting).mpr waits)

theorem cycleBesideRow_reach (id waiting : String)
    (path : TransGen (Dependent cycleBesideRow) id waiting) :
    id ∈ ["SH-1", "SH-2"] ∧ waiting ∈ ["SH-1", "SH-2"] ∨
      id ∉ ["SH-1", "SH-2"] ∧ waiting ∉ ["SH-1", "SH-2"] ∧ id < waiting := by
  induction path with
  | single waits => exact cycleBesideRow_arc id _ waits
  | tail _ waits further =>
      rcases further with ⟨around, before⟩ | ⟨outside, before, less⟩
      · rcases cycleBesideRow_arc _ _ waits with ⟨-, after⟩ | ⟨apart, -⟩
        · exact .inl ⟨around, after⟩
        · exact absurd before apart
      · rcases cycleBesideRow_arc _ _ waits with ⟨around, -⟩ | ⟨-, after, more⟩
        · exact absurd around before
        · exact .inr ⟨outside, after, String.lt_trans less more⟩

theorem cycleBesideRow_outdone : Outdone cycleBesideRow := by
  intro passed last circling
  have short : (passed ++ [last]).length ≤ 2 := by
    obtain ⟨id, member, cyclic⟩ := circling.cyclic
    have around : id ∈ ["SH-1", "SH-2"] := by
      rcases cycleBesideRow_reach id id cyclic with ⟨around, -⟩ | ⟨-, -, less⟩
      · exact around
      · exact absurd less (String.lt_irrefl id)
    obtain ⟨first, rest, split⟩ := List.exists_cons_of_ne_nil (List.concat_ne_nil last passed)
    have alike : ∀ other ∈ passed ++ [last],
        (other ∈ ["SH-1", "SH-2"] ↔ first ∈ ["SH-1", "SH-2"]) := by
      apply List.IsChain.induction (fun other => other ∈ ["SH-1", "SH-2"] ↔ first ∈ ["SH-1", "SH-2"])
        _ circling.chained
      · intro one other waits same
        rw [← same]
        rcases cycleBesideRow_arc one other waits with ⟨here, there⟩ | ⟨here, there, -⟩
        · exact iff_of_true there here
        · exact iff_of_false there here
      · intro some
        simp only [split, List.head_cons]
    have within : passed ++ [last] ⊆ ["SH-1", "SH-2"] := fun other inside =>
      (alike other inside).mpr ((alike id member).mp around)
    exact (circling.distinct.subperm within).length_le
  rw [List.length_append, List.length_singleton] at short
  refine ⟨["SH-3", "SH-4", "SH-5", "SH-6"], ⟨?_, ?_⟩, Nat.succ_lt_succ (Nat.lt_of_le_of_lt short (by decide))⟩
  · have known : ∀ id ∈ ["SH-3", "SH-4", "SH-5", "SH-6"],
        id ∈ (DependencyGraph.fromOpenStories cycleBesideRow).nodes.toList := by decide +kernel
    exact fun id member => (mem_order _ id).mp (known id member)
  · have chain : ["SH-3", "SH-4", "SH-5", "SH-6"].IsChain fun id waiting =>
        waiting ∈ (DependencyGraph.fromOpenStories cycleBesideRow).dependents id ∧ id < waiting ∧
          id ∉ ["SH-1", "SH-2"] := by
      decide +kernel
    refine chain.imp fun id waiting ⟨member, less, outside⟩ => ?_
    refine ⟨(mem_dependents _ id waiting).mp member, fun back => ?_⟩
    rcases reflTransGen_iff_eq_or_transGen.mp back with rfl | path
    · exact String.lt_irrefl id less
    · rcases cycleBesideRow_reach waiting id path with ⟨-, around⟩ | ⟨-, -, more⟩
      · exact outside around
      · exact String.lt_irrefl id (String.lt_trans less more)

theorem criticalPath_beside : CriticalPath cycleBesideRow
    (DependencyGraph.fromOpenStories cycleBesideRow).criticalPath :=
  criticalPath_outdone cycleBesideRow cycleBesideRow_outdone

/-! Without a longer chain the ids decide: a story before the cycle is passed by, or is not. -/

example : (DependencyGraph.fromOpenStories (blocking
    [("SH-1", ["SH-2"]), ("SH-2", ["SH-1"]), ("SH-3", ["SH-2"])])).criticalPath =
      ["SH-3", "SH-2", "SH-1"] := by decide +kernel

example : (DependencyGraph.fromOpenStories (blocking
    [("SH-1", ["SH-2"]), ("SH-2", ["SH-3"]), ("SH-3", ["SH-2"])])).criticalPath =
      ["SH-1", "SH-2", "SH-3", "SH-2"] := by decide +kernel

def blockingEachOther : StoryMap := .ofList [
  ("SH-1", { (default : StorySnapshot) with
    id := "SH-1", superstate := .open, relationships := [⟨"blocks", "SH-2"⟩] }),
  ("SH-2", { (default : StorySnapshot) with
    id := "SH-2", superstate := .open, relationships := [⟨"blocks", "SH-1"⟩] })]

theorem blocker_twice : ¬ CriticalPath blockingEachOther
    (DependencyGraph.fromOpenStories blockingEachOther).criticalPath := by
  intro path
  exact absurd path.distinct (by decide +kernel)

end Storyhook.Domain
