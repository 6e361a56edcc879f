import Storyhook.Domain.FoldStory
import Storyhook.Store.Relations

namespace Storyhook.Store

open Storyhook.Domain
open Library.Outcome

/-- An event as stored: decoded, or of a kind this build does not read. -/
inductive StoredPayload where
  | known (event : StoryEvent)
  | unknown (kind : String)
  deriving DecidableEq, Repr

structure StoredEvent where
  seq : Nat
  globalSeq : Nat
  payload : StoredPayload
  deriving DecidableEq, Repr

structure EventLog where
  rows : List StoredEvent
  ordered : rows.Pairwise fun earlier later => earlier.seq < later.seq
  present : rows ≠ []

def EventLog.head (log : EventLog) : StoredEvent := log.rows.getLast log.present

structure UnknownEventDiagnostic where
  storyNo : StoryNo
  seq : Nat
  kind : String
  deriving DecidableEq, Repr

/-- Splits stored events into those a fold reads and a diagnostic for each it cannot. -/
def partitionKnown (storyNo : StoryNo) (events : List StoredEvent) :
    List StoryEvent × List UnknownEventDiagnostic :=
  (events.filterMap fun event => match event.payload with
      | .known decoded => some decoded
      | .unknown _ => none,
   events.filterMap fun event => match event.payload with
      | .known _ => none
      | .unknown kind => some ⟨storyNo, event.seq, kind⟩)

/-- A row of the read model: its indexed columns beside the folded snapshot. -/
structure StoryRow where
  storyNo : StoryNo
  headSeq : Nat
  headGlobalSeq : Nat
  title : String
  state : String
  superstate : SuperState
  priority : Priority
  storyType : Option String
  awaiting : Option String
  archived : Bool
  createdAt : String
  updatedAt : String
  closedAt : Option String
  description : Option String
  hiddenAt : Option String
  draft : Bool
  labels : List String
  snapshot : StorySnapshot
  deriving DecidableEq, Repr

/-- One project's tables. -/
structure Database where
  idPrefix : String
  states : List StateDef
  types : List String
  automationsEnabled : Bool
  nextStoryNo : StoryNo
  nextGlobalSeq : Nat
  events : Std.TreeMap StoryNo EventLog
  stories : Std.TreeMap StoryNo StoryRow
  relations : RelationTable

def storedLabels (labels : List String) : List String := (Std.TreeSet.ofList labels).toList

/-- The change-feed position of a story's event; zero where the log has none at that sequence. -/
def globalSeqAt (db : Database) (story : StoryNo) (seq : Nat) : Nat :=
  (((db.events[story]?).bind fun log => log.rows.find? (·.seq == seq)).map (·.globalSeq)).getD 0

def storyRow (db : Database) (story : StoryNo) (snapshot : StorySnapshot) (head : Nat) :
    StoryRow where
  storyNo := story
  headSeq := head
  headGlobalSeq := globalSeqAt db story head
  title := snapshot.title
  state := snapshot.state
  superstate := snapshot.superstate
  priority := snapshot.priority
  storyType := snapshot.storyType
  awaiting := snapshot.awaiting
  archived := snapshot.closedAt.isSome
  createdAt := snapshot.createdAt
  updatedAt := snapshot.updatedAt
  closedAt := snapshot.closedAt
  description := snapshot.description
  hiddenAt := snapshot.hiddenAt
  draft := snapshot.draft
  labels := storedLabels snapshot.labels
  snapshot := snapshot

def checkRow (row : StoryRow) : Except AppError Unit := do
  if row.storyType.isNone then throw (.storage "NOT NULL constraint failed: stories.story_type")
  if row.priority == .none then throw (.storage "CHECK constraint failed: priority")
  if (row.superstate == .closed) != row.archived then
    throw (.storage "CHECK constraint failed: (superstate = 'CLOSED') = archived")

/-- What a snapshot's relationships say of stories of this project. -/
def parsedClaims (idPrefix : String) (snapshot : StorySnapshot) : List Claim :=
  snapshot.relationships.filterMap fun relation =>
    match parseId idPrefix relation.otherId with
    | .ok other => some ⟨relation.relation, other⟩
    | .error _ => none

/-- As `parsedClaims`, refusing a relationship that names no story of this project. -/
def desiredClaims (idPrefix : String) : List StoryRelation → Except AppError (List Claim)
  | [] => .ok []
  | relation :: rest => do
      let other ← parseId idPrefix relation.otherId
      let later ← desiredClaims idPrefix rest
      return ⟨relation.relation, other⟩ :: later

/-- Whether the story at the far end of an edge asserts it, in the snapshot held for it. -/
def claimedByOtherEnd (db : Database) (story : StoryNo) (claim : Claim) : Bool :=
  match inverseRelation claim.relation with
  | none => false
  | some inverse =>
      match db.stories[claim.otherNo]? with
      | none => false
      | some row =>
          row.snapshot.relationships.any fun back =>
            back.relation == inverse &&
              match parseId db.idPrefix back.otherId with
              | .ok target => target == story
              | .error _ => false

def putRelations (db : Database) (story : StoryNo) (snapshot : StorySnapshot) :
    Except AppError RelationTable := do
  let desired := Std.TreeSet.ofList (← desiredClaims db.idPrefix snapshot.relationships)
  let existing := Std.TreeSet.ofList (db.relations.relationsFrom story)
  let stale := existing.toList.filter fun claim =>
    !desired.contains claim && !claimedByOtherEnd db story claim
  let fresh := desired.toList.filter fun claim => !existing.contains claim
  (db.relations.deleteClaims story stale).insertClaims story fresh

def putStory (db : Database) (snapshot : StorySnapshot) (head : Nat) :
    Except AppError Database := do
  let story ← parseId db.idPrefix snapshot.id
  let row := storyRow db story snapshot head
  checkRow row
  let written := { db with stories := db.stories.insert story row }
  let relations ← putRelations written story snapshot
  return { written with relations := relations }

/-- The references a transaction must have mended by the time it commits. -/
def commit (db : Database) : Except AppError Database :=
  if (db.relations.rows.toList.all fun edge =>
        db.stories.contains edge.storyNo && db.stories.contains edge.otherNo) &&
      db.stories.toList.all fun entry => db.states.any fun definition =>
        definition.slug == entry.2.state && definition.superState == entry.2.superstate then
    .ok db
  else .error (.storage "FOREIGN KEY constraint failed")

theorem mem_parsedClaims (idPrefix : String) (snapshot : StorySnapshot) (claim : Claim) :
    claim ∈ parsedClaims idPrefix snapshot ↔ ∃ relation ∈ snapshot.relationships,
      relation.relation = claim.relation ∧
        parseId idPrefix relation.otherId = .ok claim.otherNo := by
  unfold parsedClaims
  rw [List.mem_filterMap]
  refine exists_congr fun relation => and_congr_right fun _ => ?_
  cases parseId idPrefix relation.otherId with
  | error failure => simp
  | ok other =>
      cases claim
      simp [eq_comm]

theorem desiredClaims_ok (idPrefix : String) (relations : List StoryRelation)
    (claims : List Claim) (parsed : desiredClaims idPrefix relations = .ok claims)
    (claim : Claim) :
    claim ∈ claims ↔ ∃ relation ∈ relations, relation.relation = claim.relation ∧
      parseId idPrefix relation.otherId = .ok claim.otherNo := by
  induction relations generalizing claims with
  | nil =>
      cases parsed
      simp
  | cons relation rest ih =>
      simp only [desiredClaims, bind_eq_ok, pure_eq_ok] at parsed
      obtain ⟨other, first, later, others, rfl⟩ := parsed
      rw [List.mem_cons, ih later others, List.exists_mem_cons_iff, first]
      refine or_congr ?_ Iff.rfl
      cases claim
      simp [eq_comm]

theorem desiredClaims_named (idPrefix : String) (relations : List StoryRelation)
    (claims : List Claim) (parsed : desiredClaims idPrefix relations = .ok claims) :
    ∀ relation ∈ relations, ∃ other, parseId idPrefix relation.otherId = .ok other := by
  induction relations generalizing claims with
  | nil => simp
  | cons relation rest ih =>
      simp only [desiredClaims, bind_eq_ok, pure_eq_ok] at parsed
      obtain ⟨other, first, later, others, -⟩ := parsed
      rw [List.forall_mem_cons]
      exact ⟨⟨other, first⟩, ih later others⟩

theorem claimedByOtherEnd_iff (db : Database) (story : StoryNo) (claim : Claim) :
    claimedByOtherEnd db story claim = true ↔ ∃ inverse row,
      inverseRelation claim.relation = some inverse ∧
        db.stories[claim.otherNo]? = some row ∧
          Claim.mk inverse story ∈ parsedClaims db.idPrefix row.snapshot := by
  unfold claimedByOtherEnd
  cases inverseRelation claim.relation with
  | none => simp
  | some inverse =>
      cases db.stories[claim.otherNo]? with
      | none => simp
      | some row =>
          simp only [Option.some.injEq, List.any_eq_true, Bool.and_eq_true, beq_iff_eq,
            mem_parsedClaims]
          constructor
          · rintro ⟨back, member, name, target⟩
            refine ⟨inverse, row, rfl, rfl, back, member, name, ?_⟩
            split at target
            · next no parsed => rw [parsed, beq_iff_eq.mp target]
            · cases target
          · rintro ⟨_, _, rfl, rfl, back, member, name, parsed⟩
            exact ⟨back, member, name, by simp [parsed]⟩

theorem putRelations_own (db : Database) (story : StoryNo) (snapshot : StorySnapshot)
    (after : RelationTable) (written : putRelations db story snapshot = .ok after)
    (claim : Claim) :
    RelationEdge.mk story claim.relation claim.otherNo ∈ after.rows ↔
      claim ∈ parsedClaims db.idPrefix snapshot ∨
        (RelationEdge.mk story claim.relation claim.otherNo ∈ db.relations.rows ∧
          claimedByOtherEnd db story claim = true) := by
  simp only [putRelations, bind_eq_ok] at written
  obtain ⟨desired, parsed, inserted⟩ := written
  have wanted : (Std.TreeSet.ofList desired).contains claim = true ↔ claim ∈ desired := by
    rw [Std.TreeSet.contains_ofList, List.contains_iff_mem]
  have held : (Std.TreeSet.ofList (db.relations.relationsFrom story)).contains claim = true ↔
      RelationEdge.mk story claim.relation claim.otherNo ∈ db.relations.rows := by
    rw [Std.TreeSet.contains_ofList, List.contains_iff_mem, RelationTable.mem_relationsFrom]
  rw [RelationTable.insertClaims_own _ _ _ _ inserted, RelationTable.deleteClaims_own,
    mem_parsedClaims, ← desiredClaims_ok db.idPrefix _ desired parsed]
  simp only [List.mem_filter, Std.TreeSet.mem_toList, ← Std.TreeSet.contains_iff_mem, wanted,
    Bool.and_eq_true, Bool.not_eq_true', ← Bool.not_eq_true, held] at held ⊢
  by_cases asserted : claim ∈ desired
  · simp only [asserted, true_and, true_or, not_true_eq_false, false_and, and_false,
      not_false_eq_true, iff_true]
    exact (em _).symm
  · simp only [asserted, false_and, false_or, not_false_eq_true, true_and]
    tauto

theorem putRelations_elsewhere (db : Database) (story : StoryNo) (snapshot : StorySnapshot)
    (after : RelationTable) (written : putRelations db story snapshot = .ok after)
    (row : RelationEdge) (notOwn : row.storyNo ≠ story) (notOther : row.otherNo ≠ story) :
    row ∈ after.rows ↔ row ∈ db.relations.rows := by
  simp only [putRelations, bind_eq_ok] at written
  obtain ⟨desired, -, inserted⟩ := written
  rw [RelationTable.insertClaims_elsewhere _ _ _ _ inserted row notOwn notOther,
    RelationTable.deleteClaims_elsewhere _ _ _ row notOwn notOther]

theorem putRelations_parsed (db : Database) (story : StoryNo) (snapshot : StorySnapshot)
    (after : RelationTable) (written : putRelations db story snapshot = .ok after) :
    ∃ claims, desiredClaims db.idPrefix snapshot.relationships = .ok claims := by
  simp only [putRelations, bind_eq_ok] at written
  obtain ⟨desired, parsed, -⟩ := written
  exact ⟨desired, parsed⟩

theorem putStory_ok (db after : Database) (snapshot : StorySnapshot) (head : Nat)
    (written : putStory db snapshot head = .ok after) :
    ∃ story relations, parseId db.idPrefix snapshot.id = .ok story ∧
      putRelations { db with stories := db.stories.insert story (storyRow db story snapshot head) }
        story snapshot = .ok relations ∧
      after = { db with
        stories := db.stories.insert story (storyRow db story snapshot head)
        relations := relations } := by
  simp only [putStory, bind_eq_ok, pure_eq_ok] at written
  obtain ⟨story, parsed, -, -, relations, related, rfl⟩ := written
  exact ⟨story, relations, parsed, related, rfl⟩

def StoredClaim (db : Database) (story : StoryNo) (claim : Claim) : Prop :=
  ∃ row, db.stories[story]? = some row ∧ claim ∈ parsedClaims db.idPrefix row.snapshot

structure Put (db after : Database) (story : StoryNo) (snapshot : StorySnapshot) (head : Nat) :
    Prop where
  idPrefix : after.idPrefix = db.idPrefix
  states : after.states = db.states
  nextStoryNo : after.nextStoryNo = db.nextStoryNo
  events : after.events = db.events
  stories : after.stories = db.stories.insert story (storyRow db story snapshot head)
  named : ∀ relation ∈ snapshot.relationships, ∃ other,
    parseId db.idPrefix relation.otherId = .ok other
  claimed : ∀ claim ∈ parsedClaims db.idPrefix snapshot,
    RelationEdge.mk story claim.relation claim.otherNo ∈ after.relations.rows
  own : ∀ relation inverse other, inverseRelation relation = some inverse →
    (RelationEdge.mk story relation other ∈ after.relations.rows ↔
      ⟨relation, other⟩ ∈ parsedClaims db.idPrefix snapshot ∨
        (RelationEdge.mk story relation other ∈ db.relations.rows ∧
          StoredClaim after other ⟨inverse, story⟩))
  elsewhere : ∀ row : RelationEdge, row.storyNo ≠ story → row.otherNo ≠ story →
    (row ∈ after.relations.rows ↔ row ∈ db.relations.rows)

theorem putStory_put (db after : Database) (snapshot : StorySnapshot) (head : Nat)
    (written : putStory db snapshot head = .ok after) :
    ∃ story, parseId db.idPrefix snapshot.id = .ok story ∧ Put db after story snapshot head := by
  obtain ⟨story, relations, parsed, related, rfl⟩ := putStory_ok db after snapshot head written
  refine ⟨story, parsed, rfl, rfl, rfl, rfl, rfl, ?_, ?_, ?_, ?_⟩
  · obtain ⟨claims, listed⟩ := putRelations_parsed _ story snapshot relations related
    exact desiredClaims_named _ _ claims listed
  · intro claim member
    exact (putRelations_own _ story snapshot relations related claim).mpr (Or.inl member)
  · intro relation inverse other inverted
    rw [putRelations_own _ story snapshot relations related ⟨relation, other⟩,
      claimedByOtherEnd_iff]
    refine or_congr Iff.rfl (and_congr_right fun _ => ?_)
    constructor
    · rintro ⟨back, row, known, stored, claimed⟩
      rw [inverted, Option.some.injEq] at known
      subst known
      exact ⟨row, stored, claimed⟩
    · rintro ⟨row, stored, claimed⟩
      exact ⟨inverse, row, inverted, stored, claimed⟩
  · intro row notOwn notOther
    exact putRelations_elsewhere _ story snapshot relations related row notOwn notOther

theorem Put.row (db after : Database) (story : StoryNo) (snapshot : StorySnapshot) (head : Nat)
    (put : Put db after story snapshot head) (no : StoryNo) :
    after.stories[no]? =
      if story = no then some (storyRow db story snapshot head) else db.stories[no]? := by
  rw [put.stories, Std.TreeMap.getElem?_insert]
  simp only [Std.LawfulEqOrd.compare_eq_iff_eq]

theorem Put.stored_own (db after : Database) (story : StoryNo) (snapshot : StorySnapshot)
    (head : Nat) (put : Put db after story snapshot head) (claim : Claim) :
    StoredClaim after story claim ↔ claim ∈ parsedClaims db.idPrefix snapshot := by
  unfold StoredClaim
  rw [Put.row db after story snapshot head put story, if_pos rfl, put.idPrefix]
  simp [storyRow]

theorem Put.stored_elsewhere (db after : Database) (story : StoryNo) (snapshot : StorySnapshot)
    (head : Nat) (put : Put db after story snapshot head) (no : StoryNo) (other : story ≠ no)
    (claim : Claim) : StoredClaim after no claim ↔ StoredClaim db no claim := by
  unfold StoredClaim
  rw [Put.row db after story snapshot head put no, if_neg other, put.idPrefix]

theorem commit_ok (db after : Database) (committed : commit db = .ok after) : after = db := by
  unfold commit at committed
  split at committed
  · exact (Except.ok.inj committed).symm
  · cases committed

theorem commit_present (db after : Database) (committed : commit db = .ok after)
    (edge : RelationEdge) (member : edge ∈ db.relations.rows) :
    db.stories[edge.storyNo]? ≠ none ∧ db.stories[edge.otherNo]? ≠ none := by
  unfold commit at committed
  split at committed
  · next sound =>
      simp only [Bool.and_eq_true, List.all_eq_true] at sound
      have ends := sound.1 edge (Std.TreeSet.mem_toList.mpr member)
      rwa [Std.TreeMap.contains_eq_isSome_getElem?, Std.TreeMap.contains_eq_isSome_getElem?,
        Option.isSome_iff_ne_none, Option.isSome_iff_ne_none] at ends
  · cases committed

end Storyhook.Store
