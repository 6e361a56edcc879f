import Storyhook.Domain.Epics
import Storyhook.Store.Append

/-! The cleanup intents of a project, derived at each commit from the stories a transaction wrote. -/

namespace Storyhook.Store

open Storyhook.Domain

/-- One closed lifecycle of a story. -/
structure ClosureCleanup (Lease : Type) where
  story : StoryNo
  token : String
  generation : Nat
  lease : Option Lease
  completed : Bool
  retryAt : Option String
  detail : Option String
  deriving DecidableEq, Repr

def effectiveStates (rows : List StoryRow) (states : List StateDef) :
    Std.TreeMap StoryNo Effective :=
  let snapshots := applyComputedEpicStates
    (.ofList (rows.map fun row => (row.snapshot.id, row.snapshot))) states
  .ofList (rows.filterMap fun row => (snapshots[row.snapshot.id]?).map fun snapshot =>
    (row.storyNo, snapshot.state, snapshot.superstate))

def typedEpic (row : StoryRow) : Bool := row.storyType == some epicTypeSlug

/-- A project without epics is answered for by the columns of its rows. -/
def effective (db : Database) : Std.TreeMap StoryNo Effective :=
  if db.stories.values.any typedEpic then effectiveStates db.stories.values db.states
  else db.stories.map fun _ row => (row.state, row.superstate)

structure Closures (Lease : Type) where
  db : Database
  cleanups : Std.TreeMap StoryNo (ClosureCleanup Lease)

/-- What a transaction has noted of the stories it is to write: whether each was closed, and its
intent. -/
structure ClosureChanges (Lease : Type) where
  stories : Std.TreeMap StoryNo (Bool × Option (ClosureCleanup Lease))
  project : Bool

section Tables

variable {Lease : Type} (tables : Closures Lease) (changes : ClosureChanges Lease)

def epicNumbers (db : Database) : List StoryNo :=
  (db.stories.toList.filter fun entry => typedEpic entry.2).map (·.1)

def captureProject : ClosureChanges Lease :=
  if changes.project then changes
  else
    { project := true
      stories := (epicNumbers tables.db).foldl (fun captured story =>
        let prior := tables.cleanups[story]?
        captured.insert story (prior.isSome, prior)) changes.stories }

def capture (story : StoryNo) : ClosureChanges Lease :=
  let changes := captureProject tables changes
  if changes.stories.contains story then changes
  else
    let closed := (tables.db.stories[story]?).any (·.superstate == .closed)
    { changes with stories := changes.stories.insert story (closed, tables.cleanups[story]?) }

def insertCleanup (record : ClosureCleanup Lease) : Except AppError (Closures Lease) :=
  if tables.cleanups.toList.any fun entry =>
      entry.1 != record.story && entry.2.token == record.token then
    .error (.storage "UNIQUE constraint failed: closure_cleanups.token")
  else .ok { tables with cleanups := tables.cleanups.insert record.story record }

/-- A stale worker cannot complete, postpone or replace another closure. -/
def updateCleanup [DecidableEq Lease] (record : ClosureCleanup Lease) :
    Except AppError (Bool × Closures Lease) :=
  match tables.cleanups[record.story]? with
  | none => .ok (false, tables)
  | some current =>
      if current.token ≠ record.token then .ok (false, tables)
      else if current.generation ≠ record.generation ∨
          (current.lease.isSome = true ∧ current.lease ≠ record.lease) ∨
          (current.completed = true ∧ record.completed = false) then
        .error (.integrity "closure cleanup authority cannot change or move backwards")
      else .ok (true, { tables with cleanups := tables.cleanups.insert record.story record })

def latestLease (leaseOf : StoredEvent → Lease) (events : List StoredEvent) : Option Lease :=
  events.reverse.findSome? fun event => match event.payload with
    | .known (.storyCleanupLeaseRecorded _) => some (leaseOf event)
    | _ => none

def eventRows (db : Database) (story : StoryNo) : List StoredEvent :=
  ((db.events[story]?).map (·.rows)).getD []

def newCleanup (leaseOf : StoredEvent → Lease) (token : String) (story : StoryNo) (row : StoryRow) :
    ClosureCleanup Lease where
  story := story
  token := token
  generation := row.headGlobalSeq
  lease := latestLease leaseOf (eventRows tables.db story)
  completed := false
  retryAt := none
  detail := none

def closedRow (states : Std.TreeMap StoryNo Effective) (story : StoryNo) : Option StoryRow :=
  (tables.db.stories[story]?).filter fun _ => (states[story]?).any (·.2 == .closed)

/-- What a commit makes of a story that was written. A worker's progress is kept, and the intent
that was noted is put back where the story's row went and came back. -/
def settle (leaseOf : StoredEvent → Lease) (draw : StoryNo → String)
    (states : Std.TreeMap StoryNo Effective) (story : StoryNo)
    (noted : Bool × Option (ClosureCleanup Lease)) : Except AppError (Closures Lease) :=
  if !tables.db.automationsEnabled then .ok tables
  else
    match closedRow tables states story with
    | none => .ok { tables with cleanups := tables.cleanups.erase story }
    | some row =>
        let fresh := newCleanup tables leaseOf (draw story) story row
        if noted.1 then
          if tables.cleanups.contains story then .ok tables
          else insertCleanup tables (noted.2.getD fresh)
        else insertCleanup tables fresh

def finish (leaseOf : StoredEvent → Lease) (draw : StoryNo → String) :
    Except AppError (Closures Lease) :=
  let states := effective tables.db
  changes.stories.toList.foldlM
    (fun tables entry => settle tables leaseOf draw states entry.1 entry.2) tables

end Tables

/-- What a transaction writes of the stories, their catalog and the intents. -/
inductive ClosureWrite (Lease : Type) where
  | putStory (snapshot : StorySnapshot) (head : Nat)
  | purgeStory (story : StoryNo)
  | putStates (states : List StateDef)
  | setPrefix (idPrefix : String)
  | putSettings (automationsEnabled : Bool)
  | appendEvents (story : StoryNo) (expected : ExpectedSeq) (events : List StoryEvent)
  | updateCleanup (record : ClosureCleanup Lease)

section Writes

variable {Lease : Type} [DecidableEq Lease]

def ClosureWrite.run (state : Closures Lease × ClosureChanges Lease) :
    ClosureWrite Lease → Except AppError (Closures Lease × ClosureChanges Lease)
  | .putStory snapshot head => do
      let story ← parseId state.1.db.idPrefix snapshot.id
      let changes := capture state.1 state.2 story
      let db ← Store.putStory state.1.db snapshot head
      return ({ state.1 with db := db }, changes)
  | .purgeStory story => do
      let changes := capture state.1 state.2 story
      let db ← Store.purgeStory state.1.db story
      return (⟨db, state.1.cleanups.erase story⟩, changes)
  | .putStates states =>
      .ok ({ state.1 with db := { state.1.db with states := states } },
        captureProject state.1 state.2)
  | .setPrefix idPrefix =>
      .ok ({ state.1 with db := { state.1.db with idPrefix := idPrefix } }, state.2)
  | .putSettings automationsEnabled =>
      .ok ({ state.1 with db := { state.1.db with automationsEnabled := automationsEnabled } },
        state.2)
  | .appendEvents story expected events => do
      let appended ← Store.appendEvents state.1.db story expected events
      return ({ state.1 with db := appended.1 }, state.2)
  | .updateCleanup record => do
      let updated ← Store.updateCleanup state.1 record
      return (updated.2, state.2)

/-- A transaction: its writes in order, and the tokens it would draw for new intents. -/
structure ClosureTransaction (Lease : Type) where
  writes : List (ClosureWrite Lease)
  draw : StoryNo → String

def ClosureTransaction.commit (leaseOf : StoredEvent → Lease) (tables : Closures Lease)
    (transaction : ClosureTransaction Lease) : Except AppError (Closures Lease) := do
  let written ← transaction.writes.foldlM (fun state write => write.run state) (tables, ⟨∅, false⟩)
  let settled ← finish written.1 written.2 leaseOf transaction.draw
  let db ← Store.commit settled.db
  return { settled with db := db }

/-- A transaction that fails leaves everything as it was. -/
def ClosureTransaction.perform (leaseOf : StoredEvent → Lease) (tables : Closures Lease)
    (transaction : ClosureTransaction Lease) : Closures Lease :=
  (transaction.commit leaseOf tables).toOption.getD tables

def runClosures (leaseOf : StoredEvent → Lease) (start : Closures Lease)
    (transactions : List (ClosureTransaction Lease)) : Closures Lease :=
  transactions.foldl (ClosureTransaction.perform leaseOf) start

end Writes

end Storyhook.Store
