import Storyhook.Domain.HierarchyCycles
import Storyhook.Domain.Relation

/-! The integrity findings on a project's stories, and what suppressing some stories leaves. -/

namespace Storyhook.Domain

open Storyhook.Library
open HierarchyGraph (fromAttested_mirrored)
open Storyhook.Library.DepthFirst (Marked OnCycle Untangled nodes)

inductive FindingCode where
  | danglingRelation
  | missingReciprocalRelation
  | missingInverseRelation
  | parentChildCycle
  deriving DecidableEq, Repr

structure FindingData where
  relation : String
  other : String
  deriving DecidableEq, Repr

structure Finding where
  code : FindingCode
  subject : Option String
  remedy : Option String
  message : String
  data : Option FindingData
  deriving DecidableEq, Repr

namespace Finding

def new (code : FindingCode) (message : String) : Finding := ⟨code, none, none, message, none⟩

def about (finding : Finding) (subject : String) : Finding :=
  { finding with subject := some subject }

def repairedOn (finding : Finding) (remedy : String) : Finding :=
  { finding with remedy := some remedy }

def carrying (finding : Finding) (data : FindingData) : Finding :=
  { finding with data := some data }

end Finding

def isMutualRelation (relation : String) : Bool :=
  relation == "relates-to" || relation == "duplicate-of"

def danglingFinding (story : StorySnapshot) (relation : StoryRelation) : Finding :=
  (((Finding.new .danglingRelation ("dangling relation `" ++ relation.relation ++
    "` to missing story `" ++ relation.otherId ++ "`")).about story.id).repairedOn
      story.id).carrying ⟨relation.relation, relation.otherId⟩

def unansweredFinding (story : StorySnapshot) (relation : StoryRelation) (inverse : String) :
    Finding :=
  let (code, message) :=
    if isMutualRelation relation.relation then
      (FindingCode.missingReciprocalRelation, "missing reciprocal relation `" ++
        relation.relation ++ "` on story `" ++ relation.otherId ++ "`")
    else (FindingCode.missingInverseRelation, "missing inverse relation `" ++ inverse ++
      "` on story `" ++ relation.otherId ++ "`")
  (((Finding.new code message).about story.id).repairedOn relation.otherId).carrying
    ⟨relation.relation, relation.otherId⟩

def cycleFinding (node : String) : Finding :=
  (Finding.new .parentChildCycle "parent/child cycle detected").about node

def relationFinding (stories : StoryMap) (unattested : Std.TreeSet String) (story : StorySnapshot)
    (relation : StoryRelation) : Option Finding :=
  if unattested.contains relation.otherId then none
  else match stories[relation.otherId]? with
    | none => some (danglingFinding story relation)
    | some otherStory =>
        match inverseRelation relation.relation with
        | none => none
        | some expectedInverse =>
            if otherStory.relationships.any fun candidate =>
                candidate.otherId == story.id && candidate.relation == expectedInverse then none
            else some (unansweredFinding story relation expectedInverse)

/-- The findings on relations, each with the story it is filed under. -/
def relationFindings (stories : StoryMap) (unattested : Std.TreeSet String) :
    List (String × Finding) :=
  stories.toList.flatMap fun entry =>
    if unattested.contains entry.2.id then []
    else entry.2.relationships.filterMap fun relation =>
      (relationFinding stories unattested entry.2 relation).map (entry.2.id, ·)

def cycleFindings (stories : StoryMap) (unattested : Std.TreeSet String) :
    List (String × Finding) :=
  (HierarchyGraph.fromAttested stories unattested).cycleNodes.toList.filterMap fun node =>
    if unattested.contains node then none else some (node, cycleFinding node)

def file (issues : Std.TreeMap String (List Finding)) (entry : String × Finding) :
    Std.TreeMap String (List Finding) :=
  issues.insert entry.1 (issues.getD entry.1 [] ++ [entry.2])

def computeIntegrityIssues (stories : StoryMap) (unattested : Std.TreeSet String) :
    Std.TreeMap String (List Finding) :=
  (relationFindings stories unattested ++ cycleFindings stories unattested).foldl file ∅

/-- Every finding under the larger set is one under the smaller, in the same order. -/
def FindingsKept (stories : StoryMap) (smaller larger : Std.TreeSet String) : Prop :=
  ∀ id, ((computeIntegrityIssues stories larger).getD id []).Sublist
    ((computeIntegrityIssues stories smaller).getD id [])

/-- A story that the walk over an attested hierarchy has on its way to an arc back into it. -/
def Tripped (stories : StoryMap) (unattested : Std.TreeSet String) (id : String) : Prop :=
  Marked (HierarchyGraph.fromAttested stories unattested).below
    (HierarchyGraph.fromAttested stories unattested).entries id

/-- No story that stays attested is found on such a way only once the others' edges are gone. -/
def WaysKept (stories : StoryMap) (smaller larger : Std.TreeSet String) : Prop :=
  ∀ id, id ∉ larger → Tripped stories larger id → Tripped stories smaller id

theorem foldl_file (entries : List (String × Finding)) (issues : Std.TreeMap String (List Finding))
    (id : String) : (entries.foldl file issues).getD id [] =
      issues.getD id [] ++ (entries.filter (·.1 = id)).map (·.2) := by
  induction entries generalizing issues with
  | nil => simp
  | cons entry entries further =>
      rw [List.foldl_cons, further, file, Std.TreeMap.getD_insert, List.filter_cons]
      by_cases same : entry.1 = id
      · subst same
        simp
      · simp [same]

theorem filed_under (stories : StoryMap) (unattested : Std.TreeSet String) (id : String) :
    (computeIntegrityIssues stories unattested).getD id [] =
      ((relationFindings stories unattested).filter (·.1 = id)).map (·.2) ++
        ((cycleFindings stories unattested).filter (·.1 = id)).map (·.2) := by
  rw [computeIntegrityIssues, foldl_file, List.filter_append, List.map_append]
  simp

theorem relationFinding_code (stories : StoryMap) (unattested : Std.TreeSet String)
    (story : StorySnapshot) (relation : StoryRelation) (finding : Finding)
    (found : relationFinding stories unattested story relation = some finding) :
    finding.code ≠ .parentChildCycle := by
  unfold relationFinding at found
  split at found
  · cases found
  · split at found
    · cases found
      nofun
    · split at found
      · cases found
      · split at found
        · cases found
        · cases found
          rw [unansweredFinding]
          cases isMutualRelation relation.relation <;> nofun

theorem relationFindings_code (stories : StoryMap) (unattested : Std.TreeSet String)
    (entry : String × Finding) (member : entry ∈ relationFindings stories unattested) :
    entry.2.code ≠ .parentChildCycle := by
  obtain ⟨story, -, inside⟩ := List.mem_flatMap.mp member
  split at inside
  · cases inside
  · obtain ⟨relation, -, made⟩ := List.mem_filterMap.mp inside
    obtain ⟨finding, found, rfl⟩ := Option.map_eq_some_iff.mp made
    exact relationFinding_code stories unattested story.2 relation finding found

theorem filterMap_cycles (nodes : List String) (unattested : Std.TreeSet String) (id : String) :
    ((nodes.filterMap fun node => if unattested.contains node then none
      else some (node, cycleFinding node)).filter (·.1 = id)).map (·.2) =
      if unattested.contains id then [] else List.replicate (nodes.count id) (cycleFinding id) := by
  induction nodes with
  | nil => simp
  | cons node nodes further =>
      rw [List.filterMap_cons, List.count_cons]
      by_cases same : node = id
      · subst same
        cases known : unattested.contains node with
        | true => simpa [known] using further
        | false =>
            rw [known] at further
            simpa [List.replicate_succ] using further
      · cases unattested.contains node with
        | true => simpa [same] using further
        | false => simpa [same] using further

theorem cycleFindings_under (stories : StoryMap) (unattested : Std.TreeSet String) (id : String) :
    ((cycleFindings stories unattested).filter (·.1 = id)).map (·.2) =
      if id ∉ unattested ∧ id ∈ (HierarchyGraph.fromAttested stories unattested).cycleNodes then
        [cycleFinding id] else [] := by
  have distinct : (HierarchyGraph.fromAttested stories unattested).cycleNodes.toList.Nodup :=
    Std.TreeSet.distinct_toList.imp fun apart same =>
      apart (Std.LawfulEqOrd.compare_eq_iff_eq.mpr same)
  rw [cycleFindings, filterMap_cycles, distinct.count]
  simp only [Std.TreeSet.mem_toList]
  by_cases known : unattested.contains id = true
  · rw [if_pos known, if_neg fun both => both.1 known]
  · rw [if_neg known]
    by_cases there : id ∈ (HierarchyGraph.fromAttested stories unattested).cycleNodes
    · rw [if_pos there, if_pos ⟨known, there⟩, List.replicate_one]
    · rw [if_neg there, if_neg fun both => there both.2, List.replicate_zero]

theorem relationFinding_kept (stories : StoryMap) (smaller larger : Std.TreeSet String)
    (within : ∀ id ∈ smaller, id ∈ larger) (story : StorySnapshot) (relation : StoryRelation)
    (finding : Finding) (found : relationFinding stories larger story relation = some finding) :
    relationFinding stories smaller story relation = some finding := by
  unfold relationFinding at found ⊢
  split at found
  · cases found
  · next outside =>
      rw [if_neg (show ¬ smaller.contains _ = true from fun inside => outside (within _ inside))]
      exact found

theorem sublist_filterMap {α β : Type} (entries : List α) (first second : α → Option β)
    (kept : ∀ entry result, first entry = some result → second entry = some result) :
    (entries.filterMap first).Sublist (entries.filterMap second) := by
  induction entries with
  | nil => exact List.Sublist.slnil
  | cons entry entries further =>
      rw [List.filterMap_cons]
      cases made : first entry with
      | none => exact further.trans (by rw [List.filterMap_cons]; split <;> simp)
      | some result =>
          rw [List.filterMap_cons_some (kept entry result made)]
          exact further.cons_cons result

theorem sublist_flatMap {α β : Type} (entries : List α) (first second : α → List β)
    (kept : ∀ entry, (first entry).Sublist (second entry)) :
    (entries.flatMap first).Sublist (entries.flatMap second) := by
  induction entries with
  | nil => exact List.Sublist.slnil
  | cons entry entries further =>
      rw [List.flatMap_cons, List.flatMap_cons]
      exact (kept entry).append further

theorem relationFindings_kept (stories : StoryMap) (smaller larger : Std.TreeSet String)
    (within : ∀ id ∈ smaller, id ∈ larger) :
    (relationFindings stories larger).Sublist (relationFindings stories smaller) := by
  refine sublist_flatMap _ _ _ fun entry => ?_
  split
  · exact List.nil_sublist _
  · next outside =>
      rw [if_neg (show ¬ smaller.contains _ = true from fun inside => outside (within _ inside))]
      refine sublist_filterMap _ _ _ fun relation filed made => ?_
      obtain ⟨finding, found, rfl⟩ := Option.map_eq_some_iff.mp made
      rw [relationFinding_kept stories smaller larger within entry.2 relation finding found]
      rfl

theorem findingsKept_iff (stories : StoryMap) (smaller larger : Std.TreeSet String)
    (within : ∀ id ∈ smaller, id ∈ larger) :
    FindingsKept stories smaller larger ↔ WaysKept stories smaller larger := by
  have trips (unattested : Std.TreeSet String) (id : String) : Tripped stories unattested id ↔
      id ∈ (HierarchyGraph.fromAttested stories unattested).cycleNodes := by
    rw [Tripped, HierarchyGraph.mem_cycleNodes]
  refine forall_congr' fun id => ?_
  rw [filed_under, filed_under, cycleFindings_under, cycleFindings_under, trips, trips]
  have relations := ((relationFindings_kept stories smaller larger within).filter
    (·.1 = id)).map (·.2)
  constructor
  · intro kept outside tripped
    rw [if_pos ⟨outside, tripped⟩] at kept
    rcases List.mem_append.mp (kept.subset (List.mem_append_right _ List.mem_cons_self)) with
      filed | filed
    · obtain ⟨entry, member, same⟩ := List.mem_map.mp filed
      have other := relationFindings_code stories smaller entry (List.mem_of_mem_filter member)
      rw [same] at other
      exact absurd rfl other
    · split at filed
      · next there => exact there.2
      · cases filed
  · intro kept
    refine relations.append ?_
    split
    · next tripped =>
        rw [if_pos ⟨fun inside => tripped.1 (within id inside), kept tripped.1 tripped.2⟩]
    · exact List.nil_sublist _

/-- A listing of the smaller set's hierarchy that enters every story on a cycle before one of its
children on cycles has been left, beside one of the larger's that puts no attested story above a
cycle but those on cycles, or above one, of the smaller's. -/
structure DoorsKept (stories : StoryMap) (smaller larger : Std.TreeSet String) : Prop where
  rounds : let graph := HierarchyGraph.fromAttested stories smaller
    ∀ entry earlier, entry :: earlier <:+ graph.entries → OnCycle graph.below entry.node →
      ∃ child ∈ graph.below entry.node, OnCycle graph.below child ∧
        (child ∈ nodes earlier → child ∈ entry.above)
  doors : let graph := HierarchyGraph.fromAttested stories smaller
    let left := HierarchyGraph.fromAttested stories larger
    ∀ entry ∈ left.entries, OnCycle left.below entry.node → ∀ id ∈ entry.above, id ∉ larger →
      OnCycle graph.below id ∨
        ∃ other ∈ graph.entries, OnCycle graph.below other.node ∧ id ∈ other.above

theorem onCycle_kept (stories : StoryMap) (smaller larger : Std.TreeSet String)
    (within : ∀ id ∈ smaller, id ∈ larger) (id : String)
    (cyclic : OnCycle (HierarchyGraph.fromAttested stories larger).below id) :
    OnCycle (HierarchyGraph.fromAttested stories smaller).below id := by
  rw [OnCycle, HierarchyGraph.arc_below, fromAttested_child] at cyclic ⊢
  refine Relation.TransGen.mono ?_ id id cyclic
  rintro parent child ⟨entry, member, attested, claimed⟩
  exact ⟨entry, member, fun inside => attested (within _ inside), claimed⟩

theorem DoorsKept.ways (stories : StoryMap) (smaller larger : Std.TreeSet String)
    (within : ∀ id ∈ smaller, id ∈ larger) (kept : DoorsKept stories smaller larger) :
    WaysKept stories smaller larger := by
  obtain ⟨search, entered⟩ := (HierarchyGraph.fromAttested stories smaller).entries_search
    (fromAttested_mirrored stories smaller)
  have marked := DepthFirst.marked_of_onward _ _ search entered kept.rounds
  rintro id outside ⟨entry, member, onWay, looped⟩
  obtain ⟨-, -, -, -, cyclic⟩ := DepthFirst.looped_onCycle _ _
    ((HierarchyGraph.fromAttested stories larger).entries_search
      (fromAttested_mirrored stories larger)).1 entry member looped
  rcases List.mem_cons.mp onWay with rfl | under
  · exact marked _ (onCycle_kept stories smaller larger within _ cyclic)
  · rcases kept.doors entry member cyclic id under outside with around | ⟨other, placed,
      round, above⟩
    · exact marked id around
    · exact DepthFirst.marked_above _ _ search other placed (marked _ round) id above

theorem doorsKept_of_untangled (stories : StoryMap) (smaller larger : Std.TreeSet String)
    (within : ∀ id ∈ smaller, id ∈ larger)
    (plain : Untangled (HierarchyGraph.fromAttested stories smaller).below
      (HierarchyGraph.fromAttested stories smaller).entries)
    (plainer : Untangled (HierarchyGraph.fromAttested stories larger).below
      (HierarchyGraph.fromAttested stories larger).entries) : DoorsKept stories smaller larger where
  rounds := plain.onward
  doors := fun entry member cyclic id under _ =>
    Or.inl (onCycle_kept stories smaller larger within id
      (plainer.below entry member cyclic id under))

/-- Whether the larger set takes no edge from the hierarchy, or opens no other way to its cycles. -/
def HierarchyKept (stories : StoryMap) (smaller larger : Std.TreeSet String) : Prop :=
  AttestedParentOf stories smaller = AttestedParentOf stories larger ∨
    DoorsKept stories smaller larger

theorem findingsKept_of_hierarchy (stories : StoryMap) (smaller larger : Std.TreeSet String)
    (within : ∀ id ∈ smaller, id ∈ larger) (kept : HierarchyKept stories smaller larger) :
    FindingsKept stories smaller larger := by
  rw [findingsKept_iff stories smaller larger within]
  rcases kept with alike | doors
  · intro id _ tripped
    have below : (HierarchyGraph.fromAttested stories smaller).below =
        (HierarchyGraph.fromAttested stories larger).below :=
      funext (fromAttested_below stories smaller larger alike)
    rwa [Tripped, below, fromAttested_entries stories smaller larger alike]
  · exact doors.ways stories smaller larger within

end Storyhook.Domain
