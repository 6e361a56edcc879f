import Storyhook.Service.Transfer

namespace Storyhook.Service

open Storyhook.Domain Storyhook.Store
open Library Library.Outcome

def whereDiffer (differ : Bool) (event : StoryEvent) : List StoryEvent :=
  if differ then [event] else []

def compensatePriority (now : String) (before after : StorySnapshot) : List StoryEvent :=
  whereDiffer (before.priority != after.priority || before.priorityAssessed !=
    after.priorityAssessed)
    (if after.priorityAssessed then .storyPrioritySet now after.priority
      else .storyPriorityCleared now)

def compensateComplexity (now : String) (before after : StorySnapshot) : List StoryEvent :=
  whereDiffer (before.complexity != after.complexity ||
      before.complexityAssessed != after.complexityAssessed)
    (if after.complexityAssessed then .storyComplexitySet now after.complexity
      else .storyComplexityCleared now)

def compensateAwaiting (now : String) (before after : StorySnapshot) : List StoryEvent :=
  whereDiffer (before.awaiting != after.awaiting) (match after.awaiting with
    | some reason => .storyAwaitingSet now reason
    | none => .storyAwaitingCleared now)

def compensateType (now : String) (before after : StorySnapshot) :
    Except AppError (List StoryEvent) :=
  if before.storyType != after.storyType then
    match after.storyType with
    | some storyType => .ok [.storyTypeSet now storyType]
    | none => .error (.validation
        "cannot undo a story's type back to unset: there is no event that clears it")
  else .ok []

/-- The state last among the scalar fields: the events that reopen a story have to land. -/
def compensateState (now : String) (before after : StorySnapshot) : List StoryEvent :=
  if before.stateComputed && !hasChildren after then
    [.storyStateChanged now before.state] ++
      if before.superstate == .closed then
        whereDiffer before.awaiting.isSome (.storyAwaitingCleared now) ++
          [.storyClosedAndArchived now before.state]
      else []
  else if !before.stateComputed && after.stateComputed && hasChildren after then
    [.storyStateCleared now]
  else whereDiffer (before.state != after.state) (.storyStateChanged now after.state)

def compensateComments (now : String) (before after : StorySnapshot) : List StoryEvent :=
  ((before.comments.filter fun comment => !after.comments.contains comment).map fun comment =>
      .storyCommentRetracted now comment.atTime comment.text) ++
    (after.comments.filter fun comment => !before.comments.contains comment).map fun comment =>
      .storyCommentAdded now comment.text

def compensateRelations (now : String) (before after : StorySnapshot) : List StoryEvent :=
  ((before.relationships.filter fun relation => !after.relationships.contains relation).map
      fun relation => .storyRelationshipRemoved now relation.otherId relation.relation) ++
    (after.relationships.filter fun relation => !before.relationships.contains relation).map
      fun relation => .storyRelationshipAdded now relation.otherId relation.relation

def compensate (ctx : Ctx) (before after : StorySnapshot) : Except AppError (List StoryEvent) := do
  let typed ← compensateType ctx.now before after
  return whereDiffer (before.title != after.title) (.storyTitleSet ctx.now after.title) ++
    whereDiffer (before.description != after.description)
      (.storyDescriptionSet ctx.now (after.description.getD "")) ++
    compensatePriority ctx.now before after ++
    compensateComplexity ctx.now before after ++
    whereDiffer (before.labels != after.labels)
      (.storyLabelsSet ctx.now (normalizeLabels ctx after.labels)) ++
    compensateAwaiting ctx.now before after ++
    typed ++
    compensateState ctx.now before after ++
    compensateComments ctx.now before after ++
    compensateRelations ctx.now before after

def isRelation : StoryEvent → Bool
  | .storyRelationshipAdded .. | .storyRelationshipRemoved .. => true
  | _ => false

/-- Appends a relation event to the story, and its mirror image to the other. -/
def restoreRelation (ctx : Ctx) (story : StoryNo) (db : Database) (event : StoryEvent) :
    Except AppError Database :=
  match event with
  | .storyRelationshipAdded _ otherId relation => do
      let other ← parseId db.idPrefix otherId
      let inverse ← demand (inverseRelation relation)
        (.validation ("`" ++ relation ++ "` has no inverse to undo"))
      let (near, _) ← appendAndFold ctx db story .any [event]
      let (far, _) ← appendAndFold ctx near other .any
        [.storyRelationshipAdded ctx.now (toId db.idPrefix story) inverse]
      return far
  | .storyRelationshipRemoved _ otherId relation => do
      let other ← parseId db.idPrefix otherId
      let inverse ← demand (inverseRelation relation)
        (.validation ("`" ++ relation ++ "` has no inverse to undo"))
      let (near, _) ← appendAndFold ctx db story .any [event]
      let (far, _) ← appendAndFold ctx near other .any
        [.storyRelationshipRemoved ctx.now (toId db.idPrefix story) inverse]
      return far
  | _ => .ok db

/-- The snapshot a story shows: an epic in the state its children give it. -/
def effectiveSnapshot (db : Database) (stored : StorySnapshot) : StorySnapshot :=
  match (storyMap db)[stored.id]? with
  | some effective => { stored with
      state := effective.state
      superstate := effective.superstate
      stateComputed := effective.stateComputed }
  | none => stored

/-- Retracts a restored story's blocking edges where the restored state is a closed one. -/
def settleRestored (ctx : Ctx) (db : Database) (story : StoryNo) (id : String) :
    Except AppError (Database × List StoryEvent) := do
  let row ← demand db.stories[story]? (storyNotFound id)
  if row.archived then retractClosedBlockerEdges ctx db story else return (db, [])

/-- Brings a story to what another history folds to, by appending the events that get it there. -/
def restore (ctx : Ctx) (db : Database) (id : String) (target : List StoryEvent) :
    Except AppError (Database × List StoryEvent) :=
  if target.isEmpty then .error (.validation ("cannot undo creation of `" ++ id ++
    "`: story deletion is permanent; use `story delete " ++ id ++ "`"))
  else do
    let (story, _) ← resolveStory db id
    let states := stateMap db.states
    let publicId := toId db.idPrefix story
    let current ← foldStory publicId (history db story) states
    let after ← foldStory publicId target states
    let compensation ← compensate ctx (effectiveSnapshot db current) after
    if compensation.isEmpty then return (db, [])
    else
      let moved ← appendSome ctx db story .any (compensation.filter fun event => !isRelation event)
      let related ← (compensation.filter isRelation).foldlM (restoreRelation ctx story) moved
      let (settled, cleanup) ← settleRestored ctx related story id
      return (settled, compensation ++ cleanup)

end Storyhook.Service
