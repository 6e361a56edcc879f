import Storyhook.Domain.HierarchyCycles

/-! The dependencies between open stories, from either end of their edges. -/

namespace Storyhook.Domain

open Storyhook.Library

structure DependencyGraph where
  predecessors : Std.TreeMap String (Std.TreeSet String)
  successors : Std.TreeMap String (Std.TreeSet String)
  nodes : Std.TreeSet String

namespace DependencyGraph

def openStories (stories : StoryMap) : StoryMap :=
  stories.filter fun _ story => story.superstate == .open

def addDependency (graph : DependencyGraph) (before after : String) : DependencyGraph :=
  { graph with
    predecessors := HierarchyGraph.enter graph.predecessors after before
    successors := HierarchyGraph.enter graph.successors before after }

def recordDependency (known : StoryMap) (id : String) (graph : DependencyGraph)
    (relation : StoryRelation) : DependencyGraph :=
  if relation.otherId ∉ known then graph
  else if relation.relation = "blocked-by" then graph.addDependency relation.otherId id
  else if relation.relation = "blocks" then graph.addDependency id relation.otherId
  else graph

def fromOpenStories (stories : StoryMap) : DependencyGraph :=
  let known := openStories stories
  let blank := known.map fun _ _ => (∅ : Std.TreeSet String)
  known.toList.foldl (fun graph entry =>
    entry.2.relationships.foldl (recordDependency known entry.1) graph)
      ⟨blank, blank, known.keys.foldl Std.TreeSet.insert ∅⟩

def successorsOf (graph : DependencyGraph) (id : String) : Std.TreeSet String :=
  graph.successors.getD id ∅

def predecessorsOf (graph : DependencyGraph) (id : String) : Std.TreeSet String :=
  graph.predecessors.getD id ∅

end DependencyGraph

def IsOpenStory (stories : StoryMap) (id : String) : Prop :=
  ∃ story, stories[id]? = some story ∧ story.superstate = .open

def Claims (stories : StoryMap) (id : String) (relation : StoryRelation) : Prop :=
  ∃ story, stories[id]? = some story ∧ relation ∈ story.relationships

/-- Whether one open story waits for another, as the row of either says. -/
structure Dependent (stories : StoryMap) (id waiting : String) : Prop where
  first : IsOpenStory stories id
  second : IsOpenStory stories waiting
  claimed : Claims stories waiting ⟨"blocked-by", id⟩ ∨ Claims stories id ⟨"blocks", waiting⟩

section Graph

open DependencyGraph

variable (stories : StoryMap)

theorem mem_openStories (id : String) (story : StorySnapshot) :
    (openStories stories)[id]? = some story ↔
      stories[id]? = some story ∧ story.superstate = .open := by
  rw [openStories, Std.TreeMap.getElem?_filter', Option.filter_eq_some_iff, beq_iff_eq]

theorem mem_open_iff (id : String) : id ∈ openStories stories ↔ IsOpenStory stories id := by
  simp only [Std.TreeMap.mem_iff_isSome_getElem?, Option.isSome_iff_exists, mem_openStories,
    IsOpenStory]

def SaysWaits (known : StoryMap) (id before after : String) (relation : StoryRelation) : Prop :=
  relation.otherId ∈ known ∧ (relation = ⟨"blocked-by", before⟩ ∧ id = after ∨
    relation = ⟨"blocks", after⟩ ∧ id = before)

theorem successorsOf_addDependency (graph : DependencyGraph) (before after id other : String) :
    other ∈ (graph.addDependency before after).successorsOf id ↔
      other ∈ graph.successorsOf id ∨ id = before ∧ other = after :=
  HierarchyGraph.mem_enter graph.successors before after id other

theorem predecessorsOf_addDependency (graph : DependencyGraph) (before after id other : String) :
    other ∈ (graph.addDependency before after).predecessorsOf id ↔
      other ∈ graph.predecessorsOf id ∨ id = after ∧ other = before :=
  HierarchyGraph.mem_enter graph.predecessors after before id other

theorem fromOpenStories_collects (holds : DependencyGraph → Prop) (before after : String)
    (adds : ∀ graph first second, holds (graph.addDependency first second) ↔
      holds graph ∨ before = first ∧ after = second)
    (blank : ¬ holds ⟨(openStories stories).map fun _ _ => ∅, (openStories stories).map fun _ _ => ∅,
      (openStories stories).keys.foldl Std.TreeSet.insert ∅⟩) :
    holds (fromOpenStories stories) ↔ Dependent stories before after := by
  rw [fromOpenStories, Replay.foldl_collects _ holds (fun entry =>
    ∃ relation ∈ entry.2.relationships,
      SaysWaits (openStories stories) entry.1 before after relation), or_iff_right blank]
  · constructor
    · rintro ⟨⟨id, story⟩, member, relation, recorded, known, claimed⟩
      have there := (mem_openStories stories id story).mp
        (Std.TreeMap.mem_toList_iff_getElem?_eq_some.mp member)
      have own : IsOpenStory stories id := ⟨story, there⟩
      have other := (mem_open_iff stories relation.otherId).mp known
      rcases claimed with ⟨rfl, rfl⟩ | ⟨rfl, rfl⟩
      · exact ⟨other, own, .inl ⟨story, there.1, recorded⟩⟩
      · exact ⟨own, other, .inr ⟨story, there.1, recorded⟩⟩
    · rintro ⟨first, second, ⟨story, there, recorded⟩ | ⟨story, there, recorded⟩⟩
      · obtain ⟨same, found, isOpen⟩ := second
        cases there.symm.trans found
        exact ⟨(after, story), Std.TreeMap.mem_toList_iff_getElem?_eq_some.mpr
          ((mem_openStories stories after story).mpr ⟨there, isOpen⟩), _, recorded,
          (mem_open_iff stories before).mpr first, .inl ⟨rfl, rfl⟩⟩
      · obtain ⟨same, found, isOpen⟩ := first
        cases there.symm.trans found
        exact ⟨(before, story), Std.TreeMap.mem_toList_iff_getElem?_eq_some.mpr
          ((mem_openStories stories before story).mpr ⟨there, isOpen⟩), _, recorded,
          (mem_open_iff stories after).mpr second, .inr ⟨rfl, rfl⟩⟩
  · intro graph entry
    refine Replay.foldl_collects _ holds _ (fun graph relation => ?_) graph entry.2.relationships
    obtain ⟨name, otherId⟩ := relation
    simp only [recordDependency, SaysWaits, StoryRelation.mk.injEq]
    split
    · next outside => exact (or_iff_left fun claim => outside claim.1).symm
    · next inside =>
        have known : otherId ∈ openStories stories := not_not.mp inside
        split
        · next waits =>
            rw [adds]
            grind
        · next notWaits =>
            split
            · next blocks =>
                rw [adds]
                grind
            · next notBlocks => grind

theorem blank_getD (id : String) :
    ((openStories stories).map fun _ _ => (∅ : Std.TreeSet String)).getD id ∅ = ∅ := by
  rw [Std.TreeMap.getD_eq_getD_getElem?, Std.TreeMap.getElem?_map]
  cases (openStories stories)[id]? <;> rfl

theorem mem_successorsOf (id waiting : String) :
    waiting ∈ (fromOpenStories stories).successorsOf id ↔ Dependent stories id waiting := by
  refine fromOpenStories_collects stories (waiting ∈ ·.successorsOf id) id waiting
    (fun graph first second => successorsOf_addDependency graph first second id waiting) ?_
  rw [successorsOf, blank_getD]
  exact Std.TreeSet.not_mem_emptyc

theorem mem_predecessorsOf (id waiting : String) :
    id ∈ (fromOpenStories stories).predecessorsOf waiting ↔ Dependent stories id waiting := by
  refine fromOpenStories_collects stories (id ∈ ·.predecessorsOf waiting) id waiting
    (fun graph first second => ?_) ?_
  · rw [predecessorsOf_addDependency, and_comm (a := waiting = second)]
  · rw [predecessorsOf, blank_getD]
    exact Std.TreeSet.not_mem_emptyc

theorem mem_nodes (id : String) :
    id ∈ (fromOpenStories stories).nodes ↔ IsOpenStory stories id := by
  have kept : (fromOpenStories stories).nodes =
      (openStories stories).keys.foldl Std.TreeSet.insert ∅ := by
    refine List.foldlRecOn (motive := fun graph : DependencyGraph => graph.nodes =
      (openStories stories).keys.foldl Std.TreeSet.insert ∅) _ _ rfl fun graph same entry _ => ?_
    refine List.foldlRecOn (motive := fun graph : DependencyGraph => graph.nodes =
      (openStories stories).keys.foldl Std.TreeSet.insert ∅) _ _ same fun graph same relation _ => ?_
    unfold recordDependency
    split
    · exact same
    · split
      · exact same
      · split <;> exact same
  rw [kept, HierarchyGraph.mem_foldl_insert, or_iff_right Std.TreeSet.not_mem_emptyc,
    Std.TreeMap.mem_keys, mem_open_iff]

end Graph

end Storyhook.Domain
