import Storyhook.Service.RelationEnds

namespace Storyhook.Service

open Storyhook.Domain Storyhook.Store
open Library Library.Outcome

def assignablePriority (raw : String) : Except AppError Priority :=
  match String.ofList (Text.toAsciiLowercase raw.toList) with
  | "critical" => .ok .critical
  | "high" => .ok .high
  | "medium" => .ok .medium
  | "low" => .ok .low
  | _ => .error (.validation "priority must be one of: critical, high, medium, low")

def parseComplexity (raw : String) : Except AppError Complexity :=
  match raw with
  | "low" => .ok .low
  | "medium" => .ok .medium
  | "high" => .ok .high
  | _ => .error (.validation ("invalid complexity `" ++ raw ++
      "`; use low, medium, or high. Read story help complexity-rubric"))

/-- Labels split at commas, trimmed, lowered, sorted and without repetition. -/
def normalizeLabels (ctx : Ctx) (raw : List String) : List String :=
  let pieces := raw.flatMap fun value => (value.toList.splitOn ',').map fun piece =>
    String.ofList (ctx.toLowercase (Text.trim piece))
  (Std.TreeSet.ofList (pieces.filter fun piece => !piece.isEmpty)).toList

def requireKnownType (db : Database) (slug : String) : Except AppError Unit :=
  refuse (!db.types.contains slug) (.validation ("unknown type `" ++ slug ++
    "`. Available types: " ++ ", ".intercalate (db.types.mergeSort fun left right => left ≤ right)))

def defaultStoryType (db : Database) : Except AppError String :=
  demand db.types.head? (.validation "project has no configured story types")

def openingState (states : List StateDef) : Option String → Except AppError String
  | some slug => do
      refuse (!states.any fun state => state.slug == slug && state.superState == .open)
        (.validation ("'" ++ slug ++ "' is not a valid OPEN state. Available OPEN states: " ++
          ", ".intercalate ((states.filter (·.superState == .open)).map (·.slug))))
      return slug
  | none => (demand (defaultOpenState states)
      (.validation "project has no OPEN-mapped default state")).map (·.slug)

def optionalPriority : Option String → Except AppError Priority
  | some raw => assignablePriority raw
  | none => .ok .low

def optionalComplexity : Option String → Except AppError (Option Complexity)
  | some raw => (parseComplexity raw).map some
  | none => .ok none

def creationBatch (ctx : Ctx) (title state : String) (draft : Bool)
    (complexity : Option Complexity) (priority : Priority) (labels : Option (List String))
    (description : Option String) (storyType : String) : List StoryEvent :=
  let normalized := normalizeLabels ctx (labels.getD [])
  [.storyCreated ctx.now title state] ++
    (if draft then [.storyCreatedAsDraft ctx.now] else []) ++
    (complexity.map (.storyComplexitySet ctx.now)).toList ++
    [.storyPrioritySet ctx.now priority] ++
    (if normalized.isEmpty then [] else [.storyLabelsSet ctx.now normalized]) ++
    ((description.filter fun text => !(Text.trim text.toList).isEmpty).map
      (.storyDescriptionSet ctx.now)).toList ++
    [.storyTypeSet ctx.now storyType]

structure NewStoryInput where
  title : String
  state : Option String
  storyType : Option String
  description : Option String
  priority : Option String
  complexity : Option String
  labels : Option (List String)
  draft : Bool
  blockedBy : List String

def creationType (db : Database) : Option String → Except AppError String
  | some slug => (requireKnownType db slug).map fun _ => slug
  | none => defaultStoryType db

def baseCreationEvents (ctx : Ctx) (db : Database) (input : NewStoryInput) :
    Except AppError (List StoryEvent) := do
  let storyType ← creationType db input.storyType
  let priority ← optionalPriority input.priority
  let state ← openingState db.states input.state
  let complexity ← optionalComplexity input.complexity
  return creationBatch ctx input.title state input.draft complexity priority input.labels
    input.description storyType

def statePosition (states : List StateDef) (slug : String) : Except AppError Nat :=
  demand (states.findIdx? (·.slug == slug)) (.validation ("cannot compare state `" ++ slug ++
    "`; repair the state catalog with `story doctor --fix`"))

def validateBlockedCreation (state : String) (states : List StateDef)
    (blockers openBlockers : List String) : Except AppError Unit :=
  if blockers.isEmpty then .ok ()
  else do
    let default ← demand (defaultOpenState states)
      (.validation "project has no OPEN-mapped default state")
    refuse (state == "blocked") (.validation
      ("a story filed with blockers cannot open in `blocked`: that state is a separate hold " ++
      "that stays after " ++ ", ".intercalate blockers ++
      " close, so the story would never become ready again. File it in `" ++ default.slug ++
      "`; its blocked-by edges already keep it from being claimed"))
    if openBlockers.isEmpty then .ok ()
    else do
      let wanted ← statePosition states state
      let first ← statePosition states default.slug
      refuse (wanted > first) (.validation ("a story cannot be filed in `" ++ state ++
        "` while it is blocked by " ++ ", ".intercalate openBlockers ++ "; file it in `" ++
        default.slug ++ "` and move it once its blockers close"))

def admitBlockedCreation (db : Database) (events : List StoryEvent)
    (blockers : List ResolvedBlocker) : Except AppError Unit :=
  if blockers.isEmpty || !db.automationsEnabled then .ok ()
  else match events with
    | .storyCreated _ _ state :: _ =>
        let index := storyMap db
        let standing := blockers.filter fun blocker =>
          (index[toId db.idPrefix blocker.no]?).any fun story => story.superstate == .open
        validateBlockedCreation state db.states (blockers.map (·.id)) (standing.map (·.id))
    | _ => .error (.storage "internal: a creation batch must open with StoryCreated")

def create (ctx : Ctx) (db : Database) (input : NewStoryInput) :
    Except AppError (Database × StorySnapshot) := do
  let base ← baseCreationEvents ctx db input
  let blockers ← resolveBlockers db none input.blockedBy
  admitBlockedCreation db base blockers
  let events := base ++ blockers.map fun blocker =>
    StoryEvent.storyRelationshipAdded ctx.now blocker.id "blocked-by"
  let (allocated, story) := allocateStoryNo db
  let (created, snapshot) ← appendAndFold ctx allocated story (.exact 0) events
  let (after, _) ← appendBlocksEdges ctx created blockers snapshot.id false
  return (after, snapshot)

/-- Appends a transition, and retracts what the story blocked where it closes. -/
def appendStateTransition (ctx : Ctx) (db : Database) (story : StoryNo) (row : StoryRow)
    (target : StateDef) (extra : List StoryEvent) : Except AppError (Database × StorySnapshot) := do
  let events := stateTransitionEvents target row.awaiting.isSome ctx.now extra
  let (moved, _) ← appendAndFold ctx db story (.exact row.headSeq) events
  let after ← retractIf ctx (target.superState == .closed) moved story
  let stored ← demand after.stories[story]? (storyNotFound (toId db.idPrefix story))
  return (after, stored.snapshot)

def refuseEpicStateChange (story : StorySnapshot) : Except AppError Unit :=
  refuse (isEpic story) (.validation ("story `" ++ story.id ++
    "` is an epic, so its state is computed from its children and cannot be moved directly; " ++
      "move a child instead, or change this story's type if it is not a folder"))

def admitStateChange (db : Database) (moves : Bool) (story : StorySnapshot) :
    Except AppError Unit :=
  if moves && db.automationsEnabled then refuseEpicStateChange story else .ok ()

def checkExpectedState (db : Database) (id : String) : Option String → Except AppError Unit
  | none => .ok ()
  | some expected => do
      let (_, row) ← resolveStory db id
      refuse (row.state != expected) (.stateConflict expected row.state)

/-- Moves a story to a state. A comment, a hold and a lease record go into the same batch. -/
def setState (ctx : Ctx) (db : Database) (id state : String) (comment ifState : Option String)
    (awaiting : Option String) (leased : Bool) : Except AppError (Database × StorySnapshot) := do
  checkExpectedState db id ifState
  let (story, row) ← resolveOpenStory db id
  admitStateChange db true row.snapshot
  let states := stateMap db.states
  let target ← demand states[state]? (ctx.undefinedState state states)
  refuse (awaiting.isSome && target.superState == .closed) (.validation
    "--reason cannot be combined with a move to a closed state; awaiting is cleared on close")
  appendStateTransition ctx db story row target
    ((if leased then [.storyCleanupLeaseRecorded ctx.now] else []) ++
      (comment.map (.storyCommentAdded ctx.now)).toList ++
      (awaiting.map (.storyAwaitingSet ctx.now)).toList)

/-- The events of one edit of a story's fields; none of them is about a relation. -/
structure EditPlan where
  events : List StoryEvent
  movedTo : Option String
  plain : Plain events

def setFields (ctx : Ctx) (db : Database) (id : String) (plan : EditPlan) :
    Except AppError (Database × StorySnapshot) := do
  let states := stateMap db.states
  let (story, row) ← resolveOpenStory db id
  refuse plan.events.isEmpty (.usage "no fields to update")
  admitStateChange db plan.movedTo.isSome row.snapshot
  let (edited, _) ← appendAndFold ctx db story (.exact row.headSeq) plan.events
  let closes := (plan.movedTo.bind fun slug => states[slug]?).any (·.superState == .closed)
  let after ← retractIf ctx closes edited story
  let stored ← demand after.stories[story]? (storyNotFound id)
  return (after, stored.snapshot)

/-- A claim some other story makes on one about to go. -/
structure SurvivingClaim where
  claimant : String
  relation : String
  deriving DecidableEq, Repr

instance : Ord SurvivingClaim :=
  ⟨compareLex (compareOn SurvivingClaim.claimant) (compareOn SurvivingClaim.relation)⟩

instance : Std.TransOrd SurvivingClaim :=
  inferInstanceAs (Std.TransCmp
    (compareLex (compareOn SurvivingClaim.claimant) (compareOn SurvivingClaim.relation)))

instance : Std.LawfulEqOrd SurvivingClaim where
  eq_of_compare {left right} equal := by
    have both := compareLex_eq_eq.mp equal
    have claimant := Std.LawfulEqOrd.eq_of_compare (α := String) both.1
    have relation := Std.LawfulEqOrd.eq_of_compare (α := String) both.2
    cases left
    cases right
    simp_all

/-- Every edge a surviving story still claims into the story, as the claimant's snapshot has it. -/
def survivingClaims (db : Database) (story : StoryNo) : Std.TreeSet SurvivingClaim :=
  let claimsOf (edge : RelationEdge) : List SurvivingClaim :=
    match db.stories[edge.storyNo]? with
    | none => []
    | some row => (row.snapshot.relationships.filter fun relation =>
        relation.otherId == toId db.idPrefix story).map fun relation =>
          ⟨toId db.idPrefix edge.storyNo, relation.relation⟩
  .ofList ((db.relations.relationsTo story).flatMap claimsOf)

def retractClaim (ctx : Ctx) (canonical : String) (db : Database) (claim : SurvivingClaim) :
    Except AppError Database := do
  let (other, row) ← resolveStory db claim.claimant
  let (after, _) ← appendAndFold ctx db other (.exact row.headSeq)
    [.storyRelationshipRemoved ctx.now canonical claim.relation]
  return after

/-- Removes a story for good, after the claims that would outlive it. -/
def delete (ctx : Ctx) (db : Database) (id : String) : Except AppError Database := do
  let (story, _) ← resolveStory db id
  ctx.refuseDeletion db story
  let retracted := (survivingClaims db story).toList
  let after ← retracted.foldlM (retractClaim ctx (toId db.idPrefix story)) db
  purgeStory after story

end Storyhook.Service
