import Storyhook.Service.StoryEnds

namespace Storyhook.Service

open Storyhook.Domain Storyhook.Store
open Library Library.Outcome

/-- A relation of a described story, to another of its batch or to one by id. -/
structure ImportRelationship where
  relation : String
  refIndex : Option Nat
  otherId : Option String

structure ImportStory where
  title : String
  complexity : Option String
  priority : Option String
  labels : Option (List String)
  relationships : Option (List ImportRelationship)
  description : Option String
  state : Option String
  storyType : Option String

/-- Refuses the whole batch when a description names a type the project does not define. -/
def requireKnownTypes (db : Database) (stories : List ImportStory) : Except AppError Unit :=
  let known := (Std.TreeSet.ofList db.types).toList
  let invalid := (Std.TreeSet.ofList ((stories.filterMap (·.storyType)).filter fun slug =>
    !known.contains slug)).toList
  refuse (!invalid.isEmpty) (.validation ("unknown types: " ++ ", ".intercalate invalid ++
    ". Available types: " ++ ", ".intercalate known))

/-- The events one description writes, the same batch a new story opens with. -/
def importEvents (ctx : Ctx) (states : List StateDef) (defaultType : String)
    (story : ImportStory) : Except AppError (List StoryEvent) := do
  let state ← openingState states story.state
  let complexity ← optionalComplexity story.complexity
  let priority ← optionalPriority story.priority
  return creationBatch ctx story.title state false complexity priority story.labels
    story.description (story.storyType.getD defaultType)

def importStory (ctx : Ctx) (defaultType : String) (done : Database × List String)
    (story : ImportStory) : Except AppError (Database × List String) := do
  let events ← importEvents ctx done.1.states defaultType story
  let (allocated, no) := allocateStoryNo done.1
  let (created, snapshot) ← appendAndFold ctx allocated no (.exact 0) events
  return (created, done.2 ++ [snapshot.id])

def relationshipEnd (createdIds : List String) (relationship : ImportRelationship) :
    Except AppError String :=
  match relationship.refIndex, relationship.otherId with
  | some refIndex, _ => demand createdIds[refIndex]? (.validation
      ("ref_index " ++ Nat.repr refIndex ++ " out of bounds for import batch"))
  | none, some other => .ok other
  | none, none => .error (.validation "relationship must have ref_index or other_id")

def appendRelation (ctx : Ctx) (db : Database) (storyId otherId relation : String) :
    Except AppError Database :=
  match parseId db.idPrefix storyId with
  | .error _ => .error (storyNotFound storyId)
  | .ok story => (appendAndFold ctx db story .any
      [.storyRelationshipAdded ctx.now otherId relation]).map (·.1)

/-- Whether a story exists and has not been archived. -/
def isOpen (db : Database) (id : String) : Bool :=
  match parseId db.idPrefix id with
  | .error _ => false
  | .ok story => (db.stories[story]?).any fun row => !row.archived

/-- Appends the near end of an edge, and the far end where the story there is open. -/
def linkEdge (ctx : Ctx) (a b : String) (db : Database) (edge : String × String) :
    Except AppError Database := do
  let near ← appendRelation ctx db a b edge.1
  if isOpen near b then appendRelation ctx near b a edge.2 else return near

def linkRelationship (ctx : Ctx) (createdIds : List String) (a : String)
    (done : Database × List String) (relationship : ImportRelationship) :
    Except AppError (Database × List String) := do
  let b ← relationshipEnd createdIds relationship
  if a == b then return done
  else do
    let edges ← demand (relationEdges relationship.relation)
      (.validation ("unsupported relationship `" ++ relationship.relation ++ "`"))
    let linked ← edges.foldlM (linkEdge ctx a b) done.1
    return (linked, done.2 ++ [a ++ " " ++ relationship.relation ++ " " ++ b])

def linkStory (ctx : Ctx) (createdIds : List String) (done : Database × List String)
    (entry : ImportStory × String) : Except AppError (Database × List String) :=
  (entry.1.relationships.getD []).foldlM (linkRelationship ctx createdIds entry.2) done

/-- The second pass: every relation the descriptions of a batch asked for. -/
def linkBatch (ctx : Ctx) (db : Database) (stories : List ImportStory)
    (createdIds : List String) : Except AppError (Database × List String) :=
  (stories.zip createdIds).foldlM (linkStory ctx createdIds) (db, [])

/-- Creates the stories a batch describes, then links them; the ids, and a line for each relation. -/
def importBatch (ctx : Ctx) (db : Database) (stories : List ImportStory) :
    Except AppError (Database × List String × List String) :=
  if stories.isEmpty then .ok (db, [], [])
  else do
    requireKnownTypes db stories
    let defaultType ← defaultStoryType db
    let (created, createdIds) ← stories.foldlM (importStory ctx defaultType) (db, [])
    let (linked, lines) ← linkBatch ctx created stories createdIds
    return (linked, createdIds, lines)

def namesClosed (db : Database) (relationship : ImportRelationship) : Bool :=
  relationship.refIndex.isNone && relationship.otherId.any fun id =>
    match parseId db.idPrefix id with
    | .error _ => false
    | .ok story => (db.stories[story]?).any (·.archived)

def linksClosed (db : Database) (stories : List ImportStory) : Bool :=
  stories.any fun story => (story.relationships.getD []).any (namesClosed db)

end Storyhook.Service
