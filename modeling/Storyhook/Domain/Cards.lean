import Storyhook.Domain.BlockInert
import Storyhook.Domain.IntegrityIssues
import Storyhook.Domain.ReadyOrder
import Storyhook.Library.Mapped

/-! What a card leaves out of a snapshot, and that no rollup over a project's stories reads it. -/

namespace Storyhook.Domain

open Storyhook.Library
open Storyhook.Library.Worklist

structure ProgressRollup where
  childrenDone : Nat
  childrenTotal : Nat
  deriving DecidableEq, Repr

def liveChildren (story : StorySnapshot) (allStories : StoryMap) : List StorySnapshot :=
  (relatedIds story "parent-of").filterMap (allStories[·]?)

def computeProgress (story : StorySnapshot) (allStories : StoryMap) : Option ProgressRollup :=
  let children := liveChildren story allStories
  if children.isEmpty then none
  else some ⟨(children.filter (·.superstate == .closed)).length, children.length⟩

/-- Where the board places a story's card, when that is not its own state. -/
def computeDisplayState (story : StorySnapshot) (allStories : StoryMap) (states : List StateDef) :
    Option String :=
  if story.draft then none
  else do
    let defaultOpen ← defaultOpenState states
    if story.state != defaultOpen.slug then none
    else if needsIntervention story allStories then some displayPromotionState
    else none

def StorySnapshot.card (snapshot : StorySnapshot) : StorySnapshot :=
  { snapshot with description := none, comments := [], referencedByCommits := [], attachments := [] }

abbrev Cards (cards stories : StoryMap) : Prop := Mapped StorySnapshot.card cards stories

theorem projectEpic_card (memo : Std.TreeMap String Effective) (id : String)
    (story : StorySnapshot) :
    projectEpic memo id story.card = (projectEpic memo id story).card := by
  have epic : isEpic story.card = isEpic story := rfl
  unfold projectEpic
  rw [epic]
  split
  · rfl
  · split <;> rfl

section Maps

variable (cards stories : StoryMap) (cut : Cards cards stories)

include cut

theorem Cards.lookup : (cards[·]?) = fun id : String => (stories[id]?).map StorySnapshot.card :=
  funext fun id => cut.get _ _ _ id

theorem Cards.sameBlockViews : SameBlockViews cards stories := by
  unfold SameBlockViews viewed
  simp only [cut.get, Option.map_map]
  rfl

theorem applyComputedEpicStates_card (states : List StateDef) :
    Cards (applyComputedEpicStates cards states) (applyComputedEpicStates stories states) := by
  have tasks := sameBlockViews_tasks cards stories states cut.sameBlockViews
  unfold applyComputedEpicStates projectInOrder computedEpicStates
  rw [cut.keys, cut.size, tasks]
  exact cut.map _ _ _ _ _ _ (projectEpic_card _)

theorem liveChildren_card (story : StorySnapshot) :
    liveChildren story.card cards = (liveChildren story stories).map StorySnapshot.card := by
  have related : relatedIds story.card "parent-of" = relatedIds story "parent-of" := rfl
  rw [liveChildren, liveChildren, related, List.map_filterMap, cut.lookup]

theorem computeProgress_card (story : StorySnapshot) :
    computeProgress story.card cards = computeProgress story stories := by
  unfold computeProgress
  simp only [liveChildren_card cards stories cut, List.isEmpty_map, List.length_map,
    List.filter_map]
  rfl

theorem needsIntervention_card (story : StorySnapshot) :
    needsIntervention story.card cards = needsIntervention story stories := by
  have facts : (fun id : String => (cards[id]?).map BlockFacts.of) =
      fun id : String => (stories[id]?).map BlockFacts.of := by
    funext id
    rw [cut.get, Option.map_map]
    rfl
  unfold needsIntervention
  rw [facts, cut.size]
  rfl

theorem computeDisplayState_card (story : StorySnapshot) (states : List StateDef) :
    computeDisplayState story.card cards states = computeDisplayState story stories states := by
  unfold computeDisplayState
  rw [needsIntervention_card cards stories cut]
  rfl

theorem isBlocked_card (story : StorySnapshot) :
    isBlocked story.card (cards[·]?) = isBlocked story (stories[·]?) := by
  unfold isBlocked
  rw [cut.lookup]
  simp only [Option.any_map]
  rfl

theorem isReady_card (story : StorySnapshot) :
    isReady story.card (cards[·]?) = isReady story (stories[·]?) := by
  unfold isReady
  rw [isBlocked_card cards stories cut]
  rfl

theorem isClaimable_card (story : StorySnapshot) (active : Option StateDef) :
    isClaimable story.card (cards[·]?) active = isClaimable story (stories[·]?) active := by
  unfold isClaimable
  rw [isReady_card cards stories cut]
  rfl

end Maps

namespace HierarchyGraph

def Alike (left right : HierarchyGraph) : Prop :=
  left.childrenByParent.Equiv right.childrenByParent ∧
    left.parentsByChild.Equiv right.parentsByChild

theorem enter_alike (edges others : Std.TreeMap String (Std.TreeSet String))
    (alike : edges.Equiv others) (near far : String) :
    (enter edges near far).Equiv (enter others near far) := by
  rw [enter, enter, alike.getD_eq]
  exact alike.insert _ _

theorem Alike.addChild (left right : HierarchyGraph) (alike : left.Alike right)
    (parent child : String) : (left.addChild parent child).Alike (right.addChild parent child) :=
  ⟨enter_alike _ _ alike.1 _ _, enter_alike _ _ alike.2 _ _⟩

theorem Alike.below (left right : HierarchyGraph) (alike : left.Alike right) :
    left.below = right.below := by
  funext id
  rw [HierarchyGraph.below, HierarchyGraph.below, childrenOf, childrenOf, alike.1.getD_eq]

theorem Alike.visitCycleNodes (left right : HierarchyGraph) (alike : left.Alike right)
    (fuel : Nat) : left.visitCycleNodes fuel = right.visitCycleNodes fuel := by
  induction fuel with
  | zero => rfl
  | succ fuel ih =>
      funext walk node
      rw [HierarchyGraph.visitCycleNodes, HierarchyGraph.visitCycleNodes, ih, alike.below]

theorem Alike.cycleNodes (left right : HierarchyGraph) (alike : left.Alike right) :
    left.cycleNodes = right.cycleNodes := by
  rw [HierarchyGraph.cycleNodes, HierarchyGraph.cycleNodes, named, named, alike.1.keys_eq,
    alike.2.keys_eq, alike.visitCycleNodes]

section Cards

variable (cards stories : StoryMap) (cut : Cards cards stories)

include cut

theorem record_card (story : StorySnapshot) (left right : HierarchyGraph)
    (alike : left.Alike right) (relation : StoryRelation) :
    (record cards story.card left relation).Alike (record stories story right relation) := by
  have held : relation.otherId ∈ cards ↔ relation.otherId ∈ stories := by
    rw [← Std.TreeMap.contains_iff_mem, cut.contains, Std.TreeMap.contains_iff_mem]
  unfold record
  simp only [held]
  split
  · exact alike.addChild _ _ _ _
  · split
    · exact alike.addChild _ _ _ _
    · exact alike

theorem foldl_record_card (story : StorySnapshot) (relations : List StoryRelation)
    (left right : HierarchyGraph) (alike : left.Alike right) :
    (relations.foldl (record cards story.card) left).Alike
      (relations.foldl (record stories story) right) := by
  induction relations generalizing left right with
  | nil => exact alike
  | cons relation rest ih => exact ih _ _ (record_card cards stories cut story _ _ alike relation)

def attest (stories : StoryMap) (unattested : Std.TreeSet String) (graph : HierarchyGraph)
    (entry : String × StorySnapshot) : HierarchyGraph :=
  if unattested.contains entry.2.id then graph
  else entry.2.relationships.foldl (record stories entry.2) graph

theorem foldl_attest_card (unattested : Std.TreeSet String)
    (entries : List (String × StorySnapshot)) (left right : HierarchyGraph)
    (alike : left.Alike right) :
    ((entries.map fun entry => (entry.1, entry.2.card)).foldl (attest cards unattested) left).Alike
      (entries.foldl (attest stories unattested) right) := by
  induction entries generalizing left right with
  | nil => exact alike
  | cons entry rest ih =>
      have same : unattested.contains entry.2.card.id = unattested.contains entry.2.id := rfl
      refine ih _ _ ?_
      rw [attest, attest, same]
      split
      · exact alike
      · exact foldl_record_card cards stories cut entry.2 _ _ _ alike

theorem fromAttested_card (unattested : Std.TreeSet String) :
    (fromAttested cards unattested).Alike (fromAttested stories unattested) := by
  have blank : (cards.map fun _ _ => (∅ : Std.TreeSet String)).Equiv
      (stories.map fun _ _ => (∅ : Std.TreeSet String)) :=
    (Std.TreeMap.Equiv.map cut _).trans Std.TreeMap.map_map_equiv
  unfold fromAttested
  rw [cut.toList]
  exact foldl_attest_card cards stories cut unattested _ _ _ ⟨blank, blank⟩

end Cards

end HierarchyGraph

section Integrity

variable (cards stories : StoryMap) (cut : Cards cards stories) (unattested : Std.TreeSet String)

include cut

theorem relationFinding_card (story : StorySnapshot) (relation : StoryRelation) :
    relationFinding cards unattested story.card relation =
      relationFinding stories unattested story relation := by
  unfold relationFinding
  rw [cut.get]
  cases stories[relation.otherId]? <;> rfl

theorem relationFindings_card :
    relationFindings cards unattested = relationFindings stories unattested := by
  unfold relationFindings
  rw [cut.toList, List.flatMap_map]
  simp only [relationFinding_card cards stories cut unattested]
  rfl

theorem cycleFindings_card : cycleFindings cards unattested = cycleFindings stories unattested := by
  rw [cycleFindings, cycleFindings,
    (HierarchyGraph.fromAttested_card cards stories cut unattested).cycleNodes]

theorem computeIntegrityIssues_card :
    computeIntegrityIssues cards unattested = computeIntegrityIssues stories unattested := by
  rw [computeIntegrityIssues, computeIntegrityIssues,
    relationFindings_card cards stories cut unattested,
    cycleFindings_card cards stories cut unattested]

end Integrity

section Ranking

variable (cards stories : StoryIndex) (cut : Cards cards.stories stories.stories)

include cut

theorem all_card : cards.all = stories.all.map StorySnapshot.card := by
  rw [StoryIndex.all, StoryIndex.all, cut.toList, List.map_map, List.map_map]
  rfl

theorem filterMap_card (ids : List String) :
    ids.filterMap cards.story = (ids.filterMap stories.story).map StorySnapshot.card := by
  rw [List.map_filterMap]
  exact congrArg (List.filterMap · ids) cut.lookup

theorem openRelated_card (story : StorySnapshot) (relation : String) :
    openRelated story.card relation cards =
      (openRelated story relation stories).map StorySnapshot.card := by
  have related : relatedIds story.card relation = relatedIds story relation := rfl
  rw [openRelated, openRelated, related, filterMap_card cards stories cut, List.filter_map]
  rfl

theorem relays_card (story : StorySnapshot) (relayed : Option Priority) :
    relays cards story.card relayed =
      (relays stories story relayed).map fun message => (message.1.card, message.2) := by
  have lent : lentLevel story.card relayed = lentLevel story relayed := rfl
  have epic : isEpic story.card = isEpic story := rfl
  unfold relays
  rw [lent, epic]
  simp only [openRelated_card cards stories cut, List.map_map]
  cases lentLevel story relayed with
  | none => rfl
  | some level =>
      cases relayed with
      | none => simp [Function.comp_def]
      | some relayed => cases isEpic story <;> simp [Function.comp_def]

theorem compute_card : BlockerFloors.compute cards = BlockerFloors.compute stories := by
  have sources : cards.all.filter isSource = (stories.all.filter isSource).map StorySnapshot.card := by
    rw [all_card cards stories cut, List.filter_map]
    rfl
  have started : BlockerFloors.start cards =
      (BlockerFloors.start stories).image StorySnapshot.card := by
    rw [BlockerFloors.start, sources]
    rfl
  have settled : (BlockerFloors.settle cards).received = (BlockerFloors.settle stories).received := by
    unfold BlockerFloors.settle
    rw [started, cut.size,
      drain_image StorySnapshot.card StorySnapshot.id StorySnapshot.id (fun _ => rfl)
        (relays stories) (relays cards) (relays_card cards stories cut)]
    simp [Spread.image]
  unfold BlockerFloors.compute
  rw [settled]
  congr 2
  funext id floor
  have found : cards.story id = (stories.story id).map StorySnapshot.card := cut.get _ _ _ id
  rw [found, Option.bind_map]
  rfl

theorem effective_card (story : StorySnapshot) :
    (ReadyRanking.new cards).effective story.card = (ReadyRanking.new stories).effective story := by
  unfold ReadyRanking.effective ReadyRanking.new
  simp only [compute_card cards stories cut]
  rfl

theorem parentEpicPriority_card (story : StorySnapshot) :
    (ReadyRanking.new cards).parentEpicPriority story.card =
      (ReadyRanking.new stories).parentEpicPriority story := by
  have levels (ids : List String) :
      ((ids.filterMap cards.story).filter isEpic).map (ReadyRanking.new cards).effective =
        ((ids.filterMap stories.story).filter isEpic).map (ReadyRanking.new stories).effective := by
    rw [filterMap_card cards stories cut, List.filter_map, List.map_map]
    exact List.map_congr_left fun epic _ => effective_card cards stories cut epic
  unfold ReadyRanking.parentEpicPriority
  rw [effective_card cards stories cut]
  exact congrArg (fun levels : List Priority => levels.min?.getD _) (levels _)

theorem readyKey_card (story : StorySnapshot) :
    readyKey (.new cards) story.card = readyKey (.new stories) story := by
  rw [readyKey, readyKey, effective_card cards stories cut, parentEpicPriority_card cards stories cut]
  rfl

end Ranking

end Storyhook.Domain
