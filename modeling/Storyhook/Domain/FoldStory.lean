import Storyhook.Library.Outcome
import Storyhook.Library.Text
import Storyhook.Domain.Story

namespace Storyhook.Domain

open Library.Outcome Library.Text

/-- The current spelling of a slug an event names: `closed` reads as `dropped` once the
catalog has been migrated. -/
def historicalSlug (slug : String) (states : StateCatalog) : String :=
  if slug = "closed" ∧ states["closed"]? = none ∧
      (states[droppedStateSlug]?).map StateDef.superState = some .closed then
    droppedStateSlug
  else
    slug

/-- Whether the catalog defines the slug an event names, and calls it OPEN. -/
def namesOpenState (states : StateCatalog) (slug : String) : Bool :=
  (states[historicalSlug slug states]?).any fun found => found.superState = .open

private def closedState (states : StateCatalog) (slug : String) : Option StateDef :=
  (states[slug]?).filter fun found => found.superState = .closed

def restingStateForClosure (states : StateCatalog) : Option StateDef :=
  (closedState states droppedStateSlug).or <|
    (closedState states "closed").or <|
      (closedState states completionStateSlug).or <|
        states.values.find? fun found => found.superState = .closed

def isAsciiHexdigit (character : Char) : Bool :=
  character.isDigit || ('a' ≤ character && character ≤ 'f') ||
    ('A' ≤ character && character ≤ 'F')

def parseGitLinkComment (text : String) : Option (String × String) := do
  let rest ← "[git] ".toList.isPrefixOf? text.toList
  let (sha, subject) ← splitOnce ':' rest
  let subject := (" ".toList.isPrefixOf? subject).getD subject
  if !sha.isEmpty && sha.all isAsciiHexdigit then
    some (String.ofList sha, String.ofList subject)
  else
    none

/-- Drops the last entry that satisfies the predicate, when there is one. -/
def removeLast {α : Type} (matching : α → Bool) (entries : List α) : List α :=
  (entries.reverse.eraseP matching).reverse

structure FoldState where
  title : Option String
  createdAt : Option String
  updatedAt : Option String
  state : Option String
  stateComputed : Bool
  awaiting : Option String
  priority : Priority
  priorityAssessed : Bool
  complexity : Complexity
  complexityAssessed : Bool
  storyType : Option String
  description : Option String
  labels : List String
  comments : List StoryComment
  referencedByCommits : List CommitReference
  relationships : Std.TreeSet StoryRelation
  closedAt : Option String
  legacyDeletionActive : Bool
  hiddenAt : Option String
  draft : Bool
  published : Bool
  attachments : List Attachment
  nextAttachmentId : UInt32

def FoldState.initial : FoldState where
  title := none
  createdAt := none
  updatedAt := none
  state := none
  stateComputed := false
  awaiting := none
  priority := .none
  priorityAssessed := false
  complexity := .medium
  complexityAssessed := false
  storyType := none
  description := none
  labels := []
  comments := []
  referencedByCommits := []
  relationships := ∅
  closedAt := none
  legacyDeletionActive := false
  hiddenAt := none
  draft := false
  published := false
  attachments := []
  nextAttachmentId := 1

def foldComment (atTime text : String) (acc : FoldState) : FoldState :=
  match parseGitLinkComment text with
  | some (sha, subject) =>
      { acc with
        referencedByCommits := acc.referencedByCommits ++ [⟨atTime, sha, subject⟩] }
  | none => { acc with comments := acc.comments ++ [⟨atTime, text⟩] }

/-- A move into a state the catalog defines as OPEN retracts the closure, and the archive
stamp of a deletion still in force. -/
def foldStateChange (states : StateCatalog) (slug : String) (acc : FoldState) : FoldState :=
  let moved := { acc with state := some (historicalSlug slug states), stateComputed := false }
  if namesOpenState states slug then
    { moved with
      closedAt := none
      hiddenAt := if acc.legacyDeletionActive then none else acc.hiddenAt
      legacyDeletionActive := false }
  else
    moved

/-- A close marker stamps the closure unless the catalog now calls its state OPEN. -/
def foldClosedAndArchived (states : StateCatalog) (atTime slug : String)
    (acc : FoldState) : FoldState :=
  { acc with
    state := some (historicalSlug slug states)
    stateComputed := false
    closedAt := if namesOpenState states slug then acc.closedAt else some atTime }

def foldDeleted (atTime : String) (acc : FoldState) : FoldState :=
  { acc with
    legacyDeletionActive := true
    closedAt := acc.closedAt.or (some atTime)
    hiddenAt := some atTime }

/-- The arm of one event. Every arm but this one's caller leaves `updatedAt` to it. -/
def foldArm (states : StateCatalog) (acc : FoldState) : StoryEvent → FoldState
  | .storyCreated atTime title state =>
      { acc with
        title := some title
        createdAt := some atTime
        state := some (historicalSlug state states) }
  | .storyCommentAdded atTime text => foldComment atTime text acc
  | .storyCommitLinked atTime sha subject =>
      { acc with
        referencedByCommits := acc.referencedByCommits ++ [⟨atTime, sha, subject⟩] }
  | .storyCommentRetracted _ commentAt text =>
      { acc with
        comments := removeLast (fun entry => entry.atTime = commentAt && entry.text = text)
          acc.comments }
  | .storyAwaitingSet _ blockedOn => { acc with awaiting := some blockedOn }
  | .storyAwaitingCleared _ => { acc with awaiting := none }
  | .storyStateChanged _ state => foldStateChange states state acc
  | .storyCleanupLeaseRecorded _ => acc
  | .storyStateCleared _ => { acc with stateComputed := true }
  | .storyComplexitySet _ level => { acc with complexity := level, complexityAssessed := true }
  | .storyComplexityCleared _ =>
      { acc with complexity := .medium, complexityAssessed := false }
  | .storyPrioritySet _ level => { acc with priority := level, priorityAssessed := true }
  | .storyPriorityCleared _ => { acc with priority := .none, priorityAssessed := false }
  | .storyTypeSet _ storyType => { acc with storyType := some storyType }
  | .storyLabelsSet _ labels => { acc with labels := labels }
  | .storyTitleSet _ title => { acc with title := some title }
  | .storyDescriptionSet _ description => { acc with description := some description }
  | .storyRelationshipAdded _ otherId relation =>
      { acc with relationships := acc.relationships.insert ⟨relation, otherId⟩ }
  | .storyRelationshipRemoved _ otherId relation =>
      { acc with relationships := acc.relationships.erase ⟨relation, otherId⟩ }
  | .storyClosedAndArchived atTime state => foldClosedAndArchived states atTime state acc
  | .storyDeleted atTime _ => foldDeleted atTime acc
  | .storyHidden atTime => { acc with hiddenAt := some atTime }
  | .storyUnhidden _ => { acc with hiddenAt := none }
  | .storyPrLinked _ | .storyPrUnlinked _ | .storyPrMerged _ | .storyPrClosed _ => acc
  | .storyCreatedAsDraft _ => if acc.published then acc else { acc with draft := true }
  | .storyPublished _ => { acc with draft := false, published := true }
  | .storyAttachmentAdded atTime id name mediaType byteLen sha256 =>
      { acc with
        attachments := acc.attachments ++ [⟨id, name, mediaType, byteLen, sha256, atTime⟩]
        nextAttachmentId := max acc.nextAttachmentId (id + 1) }
  | .storyAttachmentRemoved _ id =>
      { acc with attachments := acc.attachments.filter fun entry => entry.id ≠ id }

def eventAt : StoryEvent → String
  | .storyCreated atTime .. | .storyCommentAdded atTime .. | .storyCommentRetracted atTime ..
  | .storyAwaitingSet atTime .. | .storyAwaitingCleared atTime | .storyStateChanged atTime ..
  | .storyCleanupLeaseRecorded atTime | .storyStateCleared atTime
  | .storyRelationshipAdded atTime .. | .storyRelationshipRemoved atTime ..
  | .storyComplexitySet atTime .. | .storyComplexityCleared atTime
  | .storyPrioritySet atTime .. | .storyPriorityCleared atTime | .storyTypeSet atTime ..
  | .storyLabelsSet atTime .. | .storyTitleSet atTime .. | .storyDescriptionSet atTime ..
  | .storyClosedAndArchived atTime .. | .storyDeleted atTime .. | .storyCommitLinked atTime ..
  | .storyHidden atTime | .storyUnhidden atTime | .storyPrLinked atTime
  | .storyPrUnlinked atTime | .storyPrMerged atTime | .storyPrClosed atTime
  | .storyCreatedAsDraft atTime | .storyPublished atTime | .storyAttachmentAdded atTime ..
  | .storyAttachmentRemoved atTime .. => atTime

/-- Every arm of the replay loop stamps `updatedAt` with its event's own instant. -/
def foldStep (states : StateCatalog) (acc : FoldState) (event : StoryEvent) : FoldState :=
  { foldArm states acc event with updatedAt := some (eventAt event) }

def replay (states : StateCatalog) (events : List StoryEvent) : FoldState :=
  events.foldl (foldStep states) .initial

/-- The state and superstate a story rests in once its history has been replayed. -/
def restingState (id : String) (states : StateCatalog) (legacyDeletionActive : Bool)
    (state : String) : Except AppError (String × SuperState) :=
  if legacyDeletionActive then
    match restingStateForClosure states with
    | some resting => .ok (resting.slug, .closed)
    | none => .ok (state, .closed)
  else
    match states[state]? with
    | some found => .ok (state, found.superState)
    | none =>
        .error (.validation ("story " ++ id ++ " references undefined state `" ++ state ++ "`"))

def required {α : Type} (id field : String) : Option α → Except AppError α
  | some value => .ok value
  | none => .error (.integrity ("story " ++ id ++ " is missing " ++ field))

/-- The record the fold builds out of the locals; an OPEN story is never hidden. -/
def FoldState.snapshot (acc : FoldState) (id title createdAt state : String)
    (superstate : SuperState) : StorySnapshot where
  id := id
  title := title
  createdAt := createdAt
  updatedAt := acc.updatedAt.getD createdAt
  state := state
  superstate := superstate
  stateComputed := acc.stateComputed
  awaiting := acc.awaiting
  comments := acc.comments
  referencedByCommits := acc.referencedByCommits
  relationships := acc.relationships.toList
  priority := acc.priority
  priorityAssessed := acc.priorityAssessed
  complexity := acc.complexity
  complexityAssessed := acc.complexityAssessed
  labels := acc.labels
  storyType := acc.storyType
  description := acc.description
  closedAt := acc.closedAt
  hiddenAt := if superstate = .open then none else acc.hiddenAt
  draft := acc.draft
  attachments := acc.attachments
  nextAttachmentId := acc.nextAttachmentId

def finishFold (id : String) (states : StateCatalog) (acc : FoldState) :
    Except AppError StorySnapshot := do
  let state ← required id "state" acc.state
  let title ← required id "title" acc.title
  let createdAt ← required id "created_at" acc.createdAt
  let (state, superstate) ← restingState id states acc.legacyDeletionActive state
  return acc.snapshot id title createdAt state superstate

def foldStory (id : String) (events : List StoryEvent) (states : StateCatalog) :
    Except AppError StorySnapshot :=
  finishFold id states (replay states events)

theorem required_ok {α : Type} (id field : String) (found : Option α) (value : α) :
    required id field found = .ok value ↔ found = some value := by
  cases found <;> simp [required]

theorem finishFold_ok (id : String) (states : StateCatalog) (acc : FoldState)
    (folded : StorySnapshot) :
    finishFold id states acc = .ok folded ↔
      ∃ state title createdAt resting superstate,
        acc.state = some state ∧ acc.title = some title ∧ acc.createdAt = some createdAt ∧
        restingState id states acc.legacyDeletionActive state = .ok (resting, superstate) ∧
        folded = acc.snapshot id title createdAt resting superstate := by
  simp only [finishFold, bind_eq_ok, pure_eq_ok, required_ok]
  constructor
  · rintro ⟨state, named, title, titled, createdAt, created, ⟨resting, superstate⟩, rests, rfl⟩
    exact ⟨state, title, createdAt, resting, superstate, named, titled, created, rests, rfl⟩
  · rintro ⟨state, title, createdAt, resting, superstate, named, titled, created, rests, rfl⟩
    exact ⟨state, named, title, titled, createdAt, created, (resting, superstate), rests, rfl⟩

theorem restingState_open (id : String) (states : StateCatalog) (deleted : Bool)
    (state resting : String) :
    restingState id states deleted state = .ok (resting, .open) ↔
      deleted = false ∧ resting = state ∧
        (states[state]?).map StateDef.superState = some .open := by
  unfold restingState
  cases deleted with
  | true =>
      cases restingStateForClosure states <;> simp
  | false =>
      cases found : states[state]? with
      | none => simp
      | some entry => simp [eq_comm]

theorem restingState_closed (id : String) (states : StateCatalog) (deleted : Bool)
    (state resting : String)
    (rests : restingState id states deleted state = .ok (resting, .closed)) :
    deleted = true ∨ (states[state]?).map StateDef.superState ≠ some .open := by
  cases deleted with
  | true => exact Or.inl rfl
  | false =>
      right
      simp only [restingState] at rests
      cases found : states[state]? with
      | none => simp
      | some entry => simp_all

end Storyhook.Domain
