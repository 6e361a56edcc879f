import Storyhook.Service.Append

namespace Storyhook.Service

open Storyhook.Domain Storyhook.Store
open Library Library.Outcome

def storyNotFound (id : String) : AppError := .notFound ("story `" ++ id ++ "` not found")

def resolveStory (db : Database) (id : String) : Except AppError (StoryNo × StoryRow) :=
  match parseId db.idPrefix id with
  | .error _ => .error (storyNotFound id)
  | .ok no => (demand db.stories[no]? (storyNotFound id)).map fun row => (no, row)

def closedStoryRefusal (id : String) : String :=
  "story `" ++ id ++ "` is closed; reopen it with `story reopen " ++ id ++
    "` to change it — a comment needs no reopen"

def resolveOpenStory (db : Database) (id : String) : Except AppError (StoryNo × StoryRow) := do
  let found ← resolveStory db id
  refuse found.2.archived (.validation (closedStoryRefusal id))
  return found

/-- Every story of the project by id, epics in the state their children give them. -/
def storyMap (db : Database) : StoryMap :=
  let stories : StoryMap := .ofList (db.stories.toList.map fun entry =>
    (entry.2.snapshot.id, entry.2.snapshot))
  if db.automationsEnabled then applyComputedEpicStates stories db.states else stories

def hasRelation (story : StorySnapshot) (relation otherId : String) : Bool :=
  story.relationships.any fun candidate =>
    candidate.relation == relation && candidate.otherId == otherId

def hasChildren (story : StorySnapshot) : Bool :=
  story.relationships.any fun relation => relation.relation == "parent-of"

/-- One end's event for an edge that is to be there, or to be gone; none where it already is. -/
def edgeEvents (now : String) (story : StorySnapshot) (relation otherId : String)
    (remove : Bool) : List StoryEvent :=
  let has := hasRelation story relation otherId
  if remove then
    if has then [.storyRelationshipRemoved now otherId relation] else []
  else
    if has then [] else [.storyRelationshipAdded now otherId relation]

def stateTransitionEvents (target : StateDef) (awaiting : Bool) (now : String)
    (extra : List StoryEvent) : List StoryEvent :=
  [.storyStateChanged now target.slug] ++ extra ++
    if target.superState = .closed then
      (if awaiting then [.storyAwaitingCleared now] else []) ++
        [.storyClosedAndArchived now target.slug]
    else []

def gainsFirstChild (story : StorySnapshot) (events : List StoryEvent) : Bool :=
  isEpic story && !hasChildren story && events.any fun event => match event with
    | .storyRelationshipAdded _ _ relation => relation == "parent-of"
    | _ => false

def losesLastChild (story : StorySnapshot) (events : List StoryEvent) : Bool :=
  (story.relationships.filter fun relation => relation.relation == "parent-of").length == 1 &&
    events.any fun event => match event with
      | .storyRelationshipRemoved _ _ relation => relation == "parent-of"
      | _ => false

def validateParentConstraints (ctx : Ctx) (stories : StoryMap) (a b relation : String) :
    Except AppError Unit :=
  let cycle (parent child : String) := refuse (ctx.wouldCreateParentCycle stories parent child)
    (.validation ("adding `" ++ relation ++ "` from `" ++ a ++ "` to `" ++ b ++
      "` would create a cycle"))
  if relation = "parent-of" then cycle a b
  else if relation = "child-of" then cycle b a
  else .ok ()

def admitHierarchy (ctx : Ctx) (db : Database) (a b relation : String) (remove : Bool) :
    Except AppError Unit :=
  if remove then .ok () else validateParentConstraints ctx (storyMap db) a b relation

def appendSome (ctx : Ctx) (db : Database) (story : StoryNo) (expected : ExpectedSeq)
    (events : List StoryEvent) : Except AppError Database :=
  if events.isEmpty then .ok db
  else (appendAndFold ctx db story expected events).map (·.1)

def retractDependent (ctx : Ctx) (blockerId : String) (db : Database) (dependent : StoryNo) :
    Except AppError Database :=
  match db.stories[dependent]? with
  | none => .ok db
  | some row =>
      if hasRelation row.snapshot "blocked-by" blockerId then
        (appendAndFold ctx db dependent (.exact row.headSeq)
          [.storyRelationshipRemoved ctx.now blockerId "blocked-by"]).map (·.1)
      else .ok db

/-- Retracts every dependency for which the story is the blocker, from both ends. -/
def retractClosedBlockerEdges (ctx : Ctx) (db : Database) (blocker : StoryNo) :
    Except AppError (Database × List StoryEvent) := do
  let blockerId := toId db.idPrefix blocker
  let dependents : Std.TreeSet StoryNo := .ofList
    (((db.relations.relationsFrom blocker).filter (·.relation == "blocks")).map (·.otherNo))
  let middle ← dependents.toList.foldlM (retractDependent ctx blockerId) db
  let row ← demand middle.stories[blocker]? (storyNotFound blockerId)
  let events := ((dependents.toList.map (toId db.idPrefix)).filter fun dependent =>
    hasRelation row.snapshot "blocks" dependent).map fun dependent =>
      StoryEvent.storyRelationshipRemoved ctx.now dependent "blocks"
  let after ← appendSome ctx middle blocker (.exact row.headSeq) events
  return (after, events)

inductive RelationOutcome where
  | changed (story : StorySnapshot)
  | unchanged (remove : Bool)

/-- The events of an end that takes its first child, or that keeps a state of its own when it loses
its last; and whether that state is a closed one. -/
def settleParent (ctx : Ctx) (states : StateCatalog) (effective : StoryMap) (id : String)
    (row : StoryRow) (events : List StoryEvent) (remove : Bool) :
    Except AppError (List StoryEvent × Bool) :=
  if remove then
    match effective[id]? with
    | some state =>
        if losesLastChild row.snapshot events then
          (demand states[state.state]? (.validation ("epic `" ++ id ++
            "` computed undefined state `" ++ state.state ++ "`"))).map fun target =>
              (events ++ stateTransitionEvents target row.snapshot.awaiting.isSome ctx.now [],
                target.superState == .closed)
        else .ok (events, false)
    | none => .ok (events, false)
  else if gainsFirstChild row.snapshot events then
    .ok (events ++ [.storyStateCleared ctx.now], false)
  else .ok (events, false)

def retractIf (ctx : Ctx) (closes : Bool) (db : Database) (story : StoryNo) :
    Except AppError Database :=
  if closes then (retractClosedBlockerEdges ctx db story).map (·.1) else .ok db

/-- Adds or removes a relation between two stories, on both ends. -/
def relate (ctx : Ctx) (db : Database) (a relation b : String) (remove : Bool) :
    Except AppError (Database × RelationOutcome) := do
  let (aNo, aRow) ← resolveOpenStory db a
  let (bNo, bRow) ← resolveStory db b
  refuse (a == b) (.validation "stories cannot relate to themselves")
  let edges ← demand (relationEdges relation)
    (.validation ("unsupported relationship `" ++ relation ++ "`"))
  refuse (!remove && bRow.archived && edges.any (·.2 == "parent-of"))
    (.validation (closedStoryRefusal b))
  admitHierarchy ctx db a b relation remove
  let states := stateMap db.states
  let (aEvents, aCloses) ← settleParent ctx states (storyMap db) a aRow
    (edges.flatMap fun edge => edgeEvents ctx.now aRow.snapshot edge.1 b remove) remove
  let (bEvents, bCloses) ← settleParent ctx states (storyMap db) b bRow
    (edges.flatMap fun edge => edgeEvents ctx.now bRow.snapshot edge.2 a remove) remove
  if aEvents.isEmpty && bEvents.isEmpty then return (db, .unchanged remove)
  else
    let first ← appendSome ctx db bNo (.exact bRow.headSeq) bEvents
    let second ← appendSome ctx first aNo (.exact aRow.headSeq) aEvents
    let third ← retractIf ctx aCloses second aNo
    let after ← retractIf ctx bCloses third bNo
    let stored ← demand after.stories[aNo]? (storyNotFound a)
    return (after, .changed stored.snapshot)

structure ResolvedBlocker where
  id : String
  no : StoryNo
  row : StoryRow

def resolveBlocker (db : Database) (subject : Option String) (id : String) :
    Except AppError ResolvedBlocker := do
  refuse (subject == some id) (.validation "stories cannot relate to themselves")
  let (no, row) ← resolveStory db id
  return ⟨id, no, row⟩

def resolveBlockers (db : Database) (subject : Option String) (blockers : List String) :
    Except AppError (List ResolvedBlocker) :=
  blockers.eraseDups.mapM (resolveBlocker db subject)

/-- Appends one blocker's own end of an edge, and remembers that it changed. -/
def appendBlocksEdge (ctx : Ctx) (subjectId : String) (remove : Bool)
    (done : Database × List String) (blocker : ResolvedBlocker) :
    Except AppError (Database × List String) := do
  let events := edgeEvents ctx.now blocker.row.snapshot "blocks" subjectId remove
  let after ← appendSome ctx done.1 blocker.no (.exact blocker.row.headSeq) events
  return (after, if events.isEmpty then done.2 else done.2 ++ [blocker.id])

def appendBlocksEdges (ctx : Ctx) (db : Database) (blockers : List ResolvedBlocker)
    (subjectId : String) (remove : Bool) : Except AppError (Database × List String) :=
  blockers.foldlM (appendBlocksEdge ctx subjectId remove) (db, [])

/-- The explanation of a block: a comment beside new edges, a hold of its own without any. -/
def awaitingEvents (ctx : Ctx) (blockers : List ResolvedBlocker) :
    Option String → Except AppError (List StoryEvent)
  | none => .ok []
  | some reason =>
      let reason := String.ofList (Text.trim reason.toList)
      if reason.isEmpty then .error (.validation "awaiting reason must not be empty")
      else if blockers.isEmpty then .ok [.storyAwaitingSet ctx.now reason]
      else .ok [.storyCommentAdded ctx.now
        ("Blocked on " ++ ", ".intercalate (blockers.map (·.id)) ++ ": " ++ reason)]

def edgeBatch (ctx : Ctx) (db : Database) (id : String) (blockers : List String)
    (awaiting : Option String) (remove : Bool) : Except AppError (Database × List String) := do
  let (aNo, aRow) ← resolveOpenStory db id
  let resolved ← resolveBlockers db (some id) blockers
  let (middle, touched) ← appendBlocksEdges ctx db resolved id remove
  let reasons ← awaitingEvents ctx resolved awaiting
  let events := resolved.flatMap (fun blocker =>
    edgeEvents ctx.now aRow.snapshot "blocked-by" blocker.id remove) ++ reasons
  let after ← appendSome ctx middle aNo (.exact aRow.headSeq) events
  return (after, touched)

def blockOn (ctx : Ctx) (db : Database) (id : String) (blockers : List String)
    (awaiting : Option String) : Except AppError (Database × List String) :=
  edgeBatch ctx db id blockers awaiting false

def unblockFrom (ctx : Ctx) (db : Database) (id : String) (blockers : List String) :
    Except AppError (Database × List String) :=
  edgeBatch ctx db id blockers none true

end Storyhook.Service
