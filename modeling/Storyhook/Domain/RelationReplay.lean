import Storyhook.Domain.FoldStory

namespace Storyhook.Domain

def addedRelation : StoryEvent → Option StoryRelation
  | .storyRelationshipAdded _ otherId relation => some ⟨relation, otherId⟩
  | _ => none

def removedRelation : StoryEvent → Option StoryRelation
  | .storyRelationshipRemoved _ otherId relation => some ⟨relation, otherId⟩
  | _ => none

def movesClosure : StoryEvent → Bool
  | .storyStateChanged .. | .storyClosedAndArchived .. | .storyDeleted .. => true
  | _ => false

theorem foldStep_relationships (states : StateCatalog) (acc : FoldState) (event : StoryEvent)
    (relation : StoryRelation) :
    relation ∈ (foldStep states acc event).relationships ↔
      addedRelation event = some relation ∨
        (relation ∈ acc.relationships ∧ removedRelation event ≠ some relation) := by
  cases event with
  | storyRelationshipAdded atTime otherId name =>
      simp [foldStep, foldArm, addedRelation, removedRelation, Std.TreeSet.mem_insert]
  | storyRelationshipRemoved atTime otherId name =>
      simp [foldStep, foldArm, addedRelation, removedRelation, Std.TreeSet.mem_erase, and_comm]
  | storyCommentAdded atTime text =>
      simp only [foldStep, foldArm, foldComment, addedRelation, removedRelation]
      split <;> simp
  | storyStateChanged atTime state =>
      simp only [foldStep, foldArm, foldStateChange, addedRelation, removedRelation]
      split <;> simp
  | storyCreatedAsDraft atTime =>
      simp only [foldStep, foldArm, addedRelation, removedRelation]
      split <;> simp
  | _ => simp [foldStep, foldArm, foldClosedAndArchived, foldDeleted, addedRelation,
      removedRelation]

theorem foldStep_closedAt (states : StateCatalog) (acc : FoldState) (event : StoryEvent)
    (still : movesClosure event = false) : (foldStep states acc event).closedAt = acc.closedAt := by
  cases event with
  | storyCommentAdded atTime text =>
      simp only [foldStep, foldArm, foldComment]
      split <;> rfl
  | storyCreatedAsDraft atTime =>
      simp only [foldStep, foldArm]
      split <;> rfl
  | storyStateChanged | storyClosedAndArchived | storyDeleted => cases still
  | _ => rfl

theorem replay_adds (states : StateCatalog) (history events : List StoryEvent)
    (kept : ∀ event ∈ events, removedRelation event = none) (relation : StoryRelation) :
    relation ∈ (replay states (history ++ events)).relationships ↔
      relation ∈ (replay states history).relationships ∨
        relation ∈ events.filterMap addedRelation := by
  induction events using List.reverseRecOn with
  | nil => simp
  | append_singleton earlier event ih =>
      have before := ih fun event member => kept event (List.mem_append_left _ member)
      have last := kept event (by simp)
      rw [replay] at before ⊢
      rw [← List.append_assoc, List.foldl_concat, foldStep_relationships, before, last]
      simp only [List.filterMap_append, List.mem_append, List.mem_filterMap, List.mem_singleton,
        exists_eq_left, ne_eq, reduceCtorEq, not_false_eq_true, and_true]
      rw [or_comm, or_assoc]

theorem replay_removes (states : StateCatalog) (history events : List StoryEvent)
    (bare : ∀ event ∈ events, addedRelation event = none) (relation : StoryRelation) :
    relation ∈ (replay states (history ++ events)).relationships ↔
      relation ∈ (replay states history).relationships ∧
        relation ∉ events.filterMap removedRelation := by
  induction events using List.reverseRecOn with
  | nil => simp
  | append_singleton earlier event ih =>
      have before := ih fun event member => bare event (List.mem_append_left _ member)
      have last := bare event (by simp)
      rw [replay] at before ⊢
      rw [← List.append_assoc, List.foldl_concat, foldStep_relationships, before, last]
      simp only [List.filterMap_append, List.mem_append, List.mem_filterMap, List.mem_singleton,
        exists_eq_left, ne_eq, reduceCtorEq, false_or]
      rw [not_or, and_assoc]

theorem replay_keeps (states : StateCatalog) (history events : List StoryEvent)
    (relation : StoryRelation) (told : relation ∈ (replay states history).relationships)
    (kept : relation ∉ events.filterMap removedRelation) :
    relation ∈ (replay states (history ++ events)).relationships := by
  induction events using List.reverseRecOn with
  | nil =>
      rw [List.append_nil]
      exact told
  | append_singleton earlier event ih =>
      rw [List.filterMap_append, List.mem_append, not_or] at kept
      have before := ih kept.1
      rw [replay] at before ⊢
      rw [← List.append_assoc, List.foldl_concat, foldStep_relationships]
      exact .inr ⟨before, fun gone => kept.2 (List.mem_filterMap.mpr ⟨event, by simp, gone⟩)⟩

theorem replay_closedAt (states : StateCatalog) (history events : List StoryEvent)
    (still : ∀ event ∈ events, movesClosure event = false) :
    (replay states (history ++ events)).closedAt = (replay states history).closedAt := by
  induction events using List.reverseRecOn with
  | nil => rw [List.append_nil]
  | append_singleton earlier event ih =>
      have before := ih fun event member => still event (List.mem_append_left _ member)
      rw [replay] at before ⊢
      rw [← List.append_assoc, List.foldl_concat, foldStep_closedAt states _ event
        (still event (by simp)), before]

end Storyhook.Domain
