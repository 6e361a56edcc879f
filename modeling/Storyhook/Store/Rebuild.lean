import Storyhook.Store.Tables

namespace Storyhook.Store

open Storyhook.Domain

def errorText : AppError → String
  | .usage message | .validation message | .notFound message | .integrity message
  | .storage message => message
  | .stateConflict expected actual =>
      "state conflict: expected `" ++ expected ++ "`, was `" ++ actual ++ "`"

def superStateText : SuperState → String
  | .open => "OPEN"
  | .closed => "CLOSED"

def priorityText : Priority → String
  | .critical => "critical"
  | .high => "high"
  | .medium => "medium"
  | .low => "low"
  | .none => "none"

def boolText (flag : Bool) : String := if flag then "true" else "false"

def optionalText (value : Option String) : String := value.getD "<none>"

structure RebuiltStory where
  storyNo : StoryNo
  headSeq : Nat
  headGlobalSeq : Nat
  snapshot : Except String StorySnapshot
  unknownEvents : List UnknownEventDiagnostic

def RebuiltStory.isComplete (story : RebuiltStory) : Bool := story.unknownEvents.isEmpty

def rebuildStory (idPrefix : String) (states : List StateDef) (storyNo : StoryNo)
    (log : EventLog) : RebuiltStory where
  storyNo := storyNo
  headSeq := log.head.seq
  headGlobalSeq := log.head.globalSeq
  snapshot := (foldStory (toId idPrefix storyNo) (partitionKnown storyNo log.rows).1
    (stateMap states)).mapError errorText
  unknownEvents := (partitionKnown storyNo log.rows).2

def rebuild (db : Database) : List RebuiltStory :=
  db.events.toList.map fun entry => rebuildStory db.idPrefix db.states entry.1 entry.2

/-- What a comparison's rebuilt side is derived from. -/
inductive Basis where
  | events | fold
  deriving DecidableEq, Repr

/-- A compared value: a rendered column, or a whole snapshot. -/
inductive Rendered where
  | text (value : String)
  | document (snapshot : StorySnapshot)
  deriving DecidableEq, Repr

structure Divergence where
  storyNo : StoryNo
  field : String
  persisted : Rendered
  rebuilt : Rendered
  deriving DecidableEq, Repr

def snapshotField : String := "snapshot"

structure Comparison where
  field : String
  persisted : Rendered
  rebuilt : Rendered
  basis : Basis

/-- Every indexed column of a row beside what the events say it should hold. -/
def columnComparisons (row : StoryRow) (expected : StorySnapshot) (rebuiltHead : Nat)
    (rebuiltHeadGlobal : Nat) : List Comparison := [
  ⟨"head_seq", .text (Nat.repr row.headSeq), .text (Nat.repr rebuiltHead), .events⟩,
  ⟨"head_global_seq", .text (Nat.repr row.headGlobalSeq), .text (Nat.repr rebuiltHeadGlobal),
    .events⟩,
  ⟨"title", .text row.title, .text expected.title, .fold⟩,
  ⟨"state", .text row.state, .text expected.state, .fold⟩,
  ⟨"superstate", .text (superStateText row.superstate),
    .text (superStateText expected.superstate), .fold⟩,
  ⟨"priority", .text (priorityText row.priority), .text (priorityText expected.priority), .fold⟩,
  ⟨"story_type", .text (optionalText row.storyType), .text (optionalText expected.storyType),
    .fold⟩,
  ⟨"awaiting", .text (optionalText row.awaiting), .text (optionalText expected.awaiting), .fold⟩,
  ⟨"archived", .text (boolText row.archived), .text (boolText expected.closedAt.isSome), .fold⟩,
  ⟨"created_at", .text row.createdAt, .text expected.createdAt, .fold⟩,
  ⟨"updated_at", .text row.updatedAt, .text expected.updatedAt, .fold⟩,
  ⟨"closed_at", .text (optionalText row.closedAt), .text (optionalText expected.closedAt), .fold⟩,
  ⟨"description", .text (optionalText row.description), .text (optionalText expected.description),
    .fold⟩,
  ⟨"hidden_at", .text (optionalText row.hiddenAt), .text (optionalText expected.hiddenAt), .fold⟩,
  ⟨"draft", .text (boolText row.draft), .text (boolText expected.draft), .fold⟩,
  ⟨"labels", .text (",".intercalate row.labels),
    .text (",".intercalate (storedLabels expected.labels)), .fold⟩,
  ⟨snapshotField, .document row.snapshot, .document expected, .fold⟩]

def edgeText (relation : String) (other : StoryNo) : String := relation ++ ":" ++ Nat.repr other

def historyClaims (idPrefix : String) (rebuilt : List RebuiltStory) : Std.TreeSet RelationEdge :=
  .ofList (rebuilt.flatMap fun story => match story.snapshot with
    | .error _ => []
    | .ok snapshot => (parsedClaims idPrefix snapshot).map fun claim =>
        RelationEdge.mk story.storyNo claim.relation claim.otherNo)

def closureEdges (claims : Std.TreeSet RelationEdge) (story : StoryNo) : Std.TreeSet String :=
  .ofList (claims.toList.flatMap fun edge =>
    (if edge.storyNo = story then [edgeText edge.relation edge.otherNo] else []) ++
      match inverseRelation edge.relation with
      | none => []
      | some inverse => if edge.otherNo = story then [edgeText inverse edge.storyNo] else [])

/-- The claims only one end makes, whose other end's history is complete or not. -/
def oneSidedClaims (rebuilt : List RebuiltStory) (claims : Std.TreeSet RelationEdge)
    (complete : Bool) : List RelationEdge :=
  claims.toList.filter fun edge =>
    match inverseRelation edge.relation with
    | none => false
    | some inverse =>
        !claims.contains ⟨edge.otherNo, inverse, edge.storyNo⟩ &&
          (rebuilt.any fun story => !story.isComplete && story.storyNo == edge.otherNo) == !complete

structure ReadModelDiff where
  divergences : List Divergence
  missingRows : List StoryNo
  extraRows : List StoryNo
  unknownEvents : List UnknownEventDiagnostic
  foldFailures : List (StoryNo × String)
  asymmetricRelations : List RelationEdge
  unvouched : List Divergence
  unvouchedRelations : List RelationEdge

def edgesText (edges : Std.TreeSet String) : String := " ".intercalate edges.toList

def persistedEdges (db : Database) (story : StoryNo) : Std.TreeSet String :=
  .ofList ((db.relations.relationsFrom story).map fun claim =>
    edgeText claim.relation claim.otherNo)

/-- Where a story's row disagrees with its events, with what each finding rests on. -/
def storyFindings (db : Database) (claims : Std.TreeSet RelationEdge) (story : RebuiltStory) :
    List (Divergence × Basis) :=
  match story.snapshot, db.stories[story.storyNo]? with
  | .ok expected, some row =>
      let relations : Comparison := ⟨"relations", .text (edgesText (persistedEdges db story.storyNo)),
        .text (edgesText (closureEdges claims story.storyNo)), .fold⟩
      (columnComparisons row expected story.headSeq story.headGlobalSeq ++ [relations]).filterMap
        fun column =>
          if column.persisted = column.rebuilt then none
          else some (⟨story.storyNo, column.field, column.persisted, column.rebuilt⟩, column.basis)
  | _, _ => []

def vouched (story : RebuiltStory) (basis : Basis) : Bool := story.isComplete || basis == .events

def diffRebuilt (db : Database) (rebuilt : List RebuiltStory) : ReadModelDiff :=
  let claims := historyClaims db.idPrefix rebuilt
  { divergences := rebuilt.flatMap fun story =>
      ((storyFindings db claims story).filter fun finding => vouched story finding.2).map (·.1)
    missingRows := rebuilt.filterMap fun story => match story.snapshot with
      | .error _ => none
      | .ok _ => if db.stories.contains story.storyNo then none else some story.storyNo
    extraRows := db.stories.keys.filter fun no => !rebuilt.any (·.storyNo == no)
    unknownEvents := rebuilt.flatMap (·.unknownEvents)
    foldFailures := rebuilt.filterMap fun story => match story.snapshot with
      | .error reason => some (story.storyNo, reason)
      | .ok _ => none
    asymmetricRelations := oneSidedClaims rebuilt claims true
    unvouched := rebuilt.flatMap fun story =>
      ((storyFindings db claims story).filter fun finding => !vouched story finding.2).map (·.1)
    unvouchedRelations := oneSidedClaims rebuilt claims false }

def diff (db : Database) : ReadModelDiff := diffRebuilt db (rebuild db)

/-- Every story the events do not corroborate. -/
def ReadModelDiff.unattested (diff : ReadModelDiff) : Std.TreeSet StoryNo :=
  .ofList (diff.missingRows ++ diff.foldFailures.map (·.1) ++ diff.extraRows ++
    (diff.divergences.filter (·.field == snapshotField)).map (·.storyNo))

structure RepairReport where
  rewritten : List StoryNo
  repaired : ReadModelDiff
  unrepairable : List (StoryNo × String)
  withheld : List (StoryNo × List UnknownEventDiagnostic)

/-- Every story the events still do not corroborate after the repair. -/
def RepairReport.unattested (report : RepairReport) : Std.TreeSet StoryNo :=
  .ofList (report.unrepairable.map (·.1) ++ report.repaired.extraRows)

def repairStory (done : Database × RepairReport) (story : RebuiltStory) :
    Except AppError (Database × RepairReport) :=
  match story.snapshot with
  | .error reason =>
      .ok (done.1,
        { done.2 with unrepairable := done.2.unrepairable ++ [(story.storyNo, reason)] })
  | .ok snapshot =>
      if !story.isComplete then
        .ok (done.1,
          { done.2 with withheld := done.2.withheld ++ [(story.storyNo, story.unknownEvents)] })
      else do
        let after ← putStory done.1 snapshot story.headSeq
        return (after, { done.2 with rewritten := done.2.rewritten ++ [story.storyNo] })

/-- Rewrites the read model from the events, in one transaction. -/
def repairReadModel (db : Database) : Except AppError (Database × RepairReport) := do
  let rebuilt := rebuild db
  let (written, report) ← rebuilt.foldlM repairStory (db, ⟨[], diffRebuilt db rebuilt, [], []⟩)
  let after ← commit written
  return (after, report)

end Storyhook.Store
