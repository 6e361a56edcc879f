import Mathlib.Data.List.Basic
import Mathlib.Tactic.Common

namespace Storyhook.Domain

/-- The failures the modelled functions raise, each with the text it carries. -/
inductive AppError where
  | usage (message : String)
  | validation (message : String)
  | notFound (message : String)
  | integrity (message : String)
  | storage (message : String)
  | stateConflict (expected actual : String)
  deriving DecidableEq, Repr

inductive Priority where
  | critical | high | medium | low | none
  deriving DecidableEq, Repr, Inhabited

inductive Complexity where
  | low | medium | high
  deriving DecidableEq, Repr, Inhabited

inductive SuperState where
  | «open» | closed
  deriving DecidableEq, Repr, Inhabited

inductive MediaType where
  | png | jpeg | gif | webp
  deriving DecidableEq, Repr, Inhabited

structure StateDef where
  slug : String
  superState : SuperState
  role : Option String
  description : Option String
  deriving DecidableEq, Repr, Inhabited

def stateRoleActive : String := "active"
def droppedStateSlug : String := "dropped"
def verifyingStateSlug : String := "verifying"
def completionStateSlug : String := "done"

/-- A project's state catalog, keyed by slug. -/
abbrev StateCatalog := Std.TreeMap String StateDef

def stateMap (states : List StateDef) : StateCatalog :=
  .ofList (states.map fun state => (state.slug, state))

structure StoryComment where
  atTime : String
  text : String
  deriving DecidableEq, Repr, Inhabited

structure CommitReference where
  atTime : String
  sha : String
  subject : String
  deriving DecidableEq, Repr, Inhabited

structure Attachment where
  id : UInt32
  name : String
  mediaType : MediaType
  byteLen : UInt64
  sha256 : String
  addedAt : String
  deriving DecidableEq, Repr, Inhabited

structure StoryRelation where
  relation : String
  otherId : String
  deriving DecidableEq, Repr, Inhabited

instance : Ord StoryRelation :=
  ⟨compareLex (compareOn StoryRelation.relation) (compareOn StoryRelation.otherId)⟩

instance : Std.TransOrd StoryRelation :=
  inferInstanceAs (Std.TransCmp
    (compareLex (compareOn StoryRelation.relation) (compareOn StoryRelation.otherId)))

instance : Std.LawfulEqOrd StoryRelation where
  eq_of_compare {left right} equal := by
    have both := compareLex_eq_eq.mp equal
    have relation := Std.LawfulEqOrd.eq_of_compare (α := String) both.1
    have other := Std.LawfulEqOrd.eq_of_compare (α := String) both.2
    cases left
    cases right
    simp_all

structure StorySnapshot where
  id : String
  title : String
  createdAt : String
  updatedAt : String
  state : String
  superstate : SuperState
  stateComputed : Bool
  awaiting : Option String
  comments : List StoryComment
  referencedByCommits : List CommitReference
  relationships : List StoryRelation
  priority : Priority
  priorityAssessed : Bool
  complexity : Complexity
  complexityAssessed : Bool
  labels : List String
  storyType : Option String
  description : Option String
  closedAt : Option String
  hiddenAt : Option String
  draft : Bool
  attachments : List Attachment
  nextAttachmentId : UInt32
  deriving DecidableEq, Repr, Inhabited

/-- The events of a story's history, each with the payload its replay reads. -/
inductive StoryEvent where
  | storyCreated (atTime title state : String)
  | storyCommentAdded (atTime text : String)
  | storyCommentRetracted (atTime commentAt text : String)
  | storyAwaitingSet (atTime awaiting : String)
  | storyAwaitingCleared (atTime : String)
  | storyStateChanged (atTime state : String)
  | storyCleanupLeaseRecorded (atTime : String)
  | storyStateCleared (atTime : String)
  | storyRelationshipAdded (atTime otherId relation : String)
  | storyRelationshipRemoved (atTime otherId relation : String)
  | storyComplexitySet (atTime : String) (complexity : Complexity)
  | storyComplexityCleared (atTime : String)
  | storyPrioritySet (atTime : String) (priority : Priority)
  | storyPriorityCleared (atTime : String)
  | storyTypeSet (atTime storyType : String)
  | storyLabelsSet (atTime : String) (labels : List String)
  | storyTitleSet (atTime title : String)
  | storyDescriptionSet (atTime description : String)
  | storyClosedAndArchived (atTime state : String)
  | storyDeleted (atTime reason : String)
  | storyCommitLinked (atTime sha subject : String)
  | storyHidden (atTime : String)
  | storyUnhidden (atTime : String)
  | storyPrLinked (atTime : String)
  | storyPrUnlinked (atTime : String)
  | storyPrMerged (atTime : String)
  | storyPrClosed (atTime : String)
  | storyCreatedAsDraft (atTime : String)
  | storyPublished (atTime : String)
  | storyAttachmentAdded (atTime : String) (id : UInt32) (name : String)
      (mediaType : MediaType) (byteLen : UInt64) (sha256 : String)
  | storyAttachmentRemoved (atTime : String) (id : UInt32)
  deriving DecidableEq, Repr

def eventKind : StoryEvent → String
  | .storyCreated .. => "StoryCreated"
  | .storyCommentAdded .. => "StoryCommentAdded"
  | .storyCommentRetracted .. => "StoryCommentRetracted"
  | .storyAwaitingSet .. => "StoryAwaitingSet"
  | .storyAwaitingCleared .. => "StoryAwaitingCleared"
  | .storyStateChanged .. => "StoryStateChanged"
  | .storyCleanupLeaseRecorded .. => "StoryCleanupLeaseRecorded"
  | .storyStateCleared .. => "StoryStateCleared"
  | .storyRelationshipAdded .. => "StoryRelationshipAdded"
  | .storyRelationshipRemoved .. => "StoryRelationshipRemoved"
  | .storyComplexitySet .. => "StoryComplexitySet"
  | .storyComplexityCleared .. => "StoryComplexityCleared"
  | .storyPrioritySet .. => "StoryPrioritySet"
  | .storyPriorityCleared .. => "StoryPriorityCleared"
  | .storyTypeSet .. => "StoryTypeSet"
  | .storyLabelsSet .. => "StoryLabelsSet"
  | .storyTitleSet .. => "StoryTitleSet"
  | .storyDescriptionSet .. => "StoryDescriptionSet"
  | .storyClosedAndArchived .. => "StoryClosedAndArchived"
  | .storyDeleted .. => "StoryDeleted"
  | .storyCommitLinked .. => "StoryCommitLinked"
  | .storyHidden .. => "StoryHidden"
  | .storyUnhidden .. => "StoryUnhidden"
  | .storyPrLinked .. => "StoryPrLinked"
  | .storyPrUnlinked .. => "StoryPrUnlinked"
  | .storyPrMerged .. => "StoryPrMerged"
  | .storyPrClosed .. => "StoryPrClosed"
  | .storyCreatedAsDraft .. => "StoryCreatedAsDraft"
  | .storyPublished .. => "StoryPublished"
  | .storyAttachmentAdded .. => "StoryAttachmentAdded"
  | .storyAttachmentRemoved .. => "StoryAttachmentRemoved"

/-- The kinds a write may append without deriving block-delivery edges. -/
def blockInertEventKinds : List String := [
  "StoryCommentAdded",
  "StoryCommentRetracted",
  "StoryCleanupLeaseRecorded",
  "StoryComplexitySet",
  "StoryComplexityCleared",
  "StoryPrioritySet",
  "StoryPriorityCleared",
  "StoryLabelsSet",
  "StoryTitleSet",
  "StoryDescriptionSet",
  "StoryCommitLinked",
  "StoryPrLinked",
  "StoryPrUnlinked",
  "StoryPrMerged",
  "StoryPrClosed",
  "StoryAttachmentAdded",
  "StoryAttachmentRemoved"]

def mayChangeEffectiveBlock (event : StoryEvent) : Bool :=
  !blockInertEventKinds.contains (eventKind event)

end Storyhook.Domain
