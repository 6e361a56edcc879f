import Storyhook.Domain.FoldStory
import Storyhook.Library.Runs
import Storyhook.Library.Transaction
import Storyhook.Store.Append

namespace Storyhook.Store.EventTable

open Storyhook.Domain
open Library Library.Statement

abbrev ProjectId := Nat

inductive StoreError where
  | notFound (message : String)
  | validation (message : String)
  | conflict (expected : ExpectedSeq) (actual : Nat)
  | sqlite (message : String)
  | refused (message : String)
  deriving DecidableEq, Repr

structure RawEvent where
  kind : String
  atTime : String
  payload : String
  deriving DecidableEq, Repr

inductive LinkSource where
  | live | replayed
  deriving DecidableEq, Repr

structure EventRow where
  project : ProjectId
  storyNo : StoryNo
  seq : Nat
  globalSeq : Nat
  event : RawEvent
  deriving DecidableEq, Repr

structure Counters where
  nextStoryNo : StoryNo
  nextGlobalSeq : Nat
  deriving DecidableEq, Repr

/-- The tables an append reads and writes; events in the order they were inserted. -/
structure Tables where
  projects : Std.TreeMap ProjectId Counters
  events : List EventRow
  commitLinks : List (ProjectId × StoryNo × String)

def Tables.setCounters (tables : Tables) (project : ProjectId) (counters : Counters) : Tables :=
  { tables with projects := tables.projects.insert project counters }

/-- What stands outside the tables: the JSON of a payload and of an event, the refusals of other
records, and the pull-request links. -/
structure Host where
  payloadField : String → String → Option String
  encode : StoryEvent → RawEvent
  refuse : ProjectId → StoryNo → List RawEvent → Option String
  projectPrLink : ProjectId → StoryNo → RawEvent → Option String

abbrev Body := Statement Tables StoreError

def missing (project : ProjectId) : StoreError :=
  .notFound ("project " ++ Nat.repr project ++ " does not exist")

/-- A sum outside the database's integers is a real number, which no counter is read from. -/
def notAnInteger : StoreError := .sqlite "Invalid column type Real"

def allocateStoryNo (project : ProjectId) : Body StoryNo := do
  let tables ← read
  match tables.projects[project]? with
  | none => fail (missing project)
  | some counters =>
      if counters.nextStoryNo < i64Max then do
        write (tables.setCounters project { counters with nextStoryNo := counters.nextStoryNo + 1 })
        return counters.nextStoryNo
      else fail notAnInteger

def wrapI64 (sum : Int) : Int := sum.bmod (2 ^ 64)

def raised (next highest : Nat) : Nat := (max (next : Int) (wrapI64 (highest + 1))).toNat

def reserveStoryNo (project : ProjectId) (highest : StoryNo) : Body Unit := do
  let tables ← read
  match tables.projects[project]? with
  | none => fail (missing project)
  | some counters => write (tables.setCounters project
      { counters with nextStoryNo := raised counters.nextStoryNo highest })

def allocateGlobalSeqs (project : ProjectId) (count : Nat) : Body Nat := do
  if i64Max < count then fail (.validation "that is more events than one append can carry")
  else do
    let tables ← read
    match tables.projects[project]? with
    | none => fail (missing project)
    | some counters =>
        if counters.nextGlobalSeq + count ≤ i64Max then do
          write (tables.setCounters project
            { counters with nextGlobalSeq := counters.nextGlobalSeq + count })
          return counters.nextGlobalSeq
        else fail notAnInteger

def storyRows (tables : Tables) (project : ProjectId) (story : StoryNo) : List EventRow :=
  tables.events.filter fun row => row.project == project && row.storyNo == story

def headSeq (tables : Tables) (project : ProjectId) (story : StoryNo) : Nat :=
  ((storyRows tables project story).map (·.seq)).foldl max 0

def insertEvent (row : EventRow) : Body Unit := do
  let tables ← read
  if tables.events.any fun older => older.project == row.project &&
      (older.globalSeq == row.globalSeq ||
        (older.storyNo == row.storyNo && older.seq == row.seq)) then
    fail (.sqlite "UNIQUE constraint failed: events")
  else if row.seq == 0 || row.globalSeq == 0 || row.storyNo == 0 then
    fail (.sqlite "CHECK constraint failed: events")
  else write { tables with events := tables.events ++ [row] }

/-- Records a commit hash; only a replayed comment may name one that is there already. -/
def recordCommitLink (project : ProjectId) (story : StoryNo) (sha : String) (legacy : Bool) :
    Body Unit := do
  let tables ← read
  if sha.isEmpty then fail (.sqlite "CHECK constraint failed: story_commit_links")
  else if tables.commitLinks.contains (project, story, sha) then
    if legacy then return () else fail (.sqlite "UNIQUE constraint failed: story_commit_links")
  else write { tables with commitLinks := tables.commitLinks ++ [(project, story, sha)] }

def gitLinkSha (text : String) : Option String := (parseGitLinkComment text).map (·.1)

/-- The commit hash an event's payload names, and whether it is a comment that does. -/
def commitLinkOf (host : Host) (source : LinkSource) (event : RawEvent) : Option (String × Bool) :=
  if event.kind == "StoryCommitLinked" then
    (host.payloadField event.payload "sha").map fun sha => (sha, false)
  else if event.kind == "StoryCommentAdded" && source == .replayed then
    ((host.payloadField event.payload "text").bind gitLinkSha).map fun sha => (sha, true)
  else none

def projectCommitLink (host : Host) (project : ProjectId) (story : StoryNo) (source : LinkSource)
    (event : RawEvent) : Body Unit :=
  match commitLinkOf host source event with
  | none => pure ()
  | some (sha, legacy) => recordCommitLink project story sha legacy

def projectPrLink (host : Host) (project : ProjectId) (story : StoryNo) (event : RawEvent) :
    Body Unit :=
  match host.projectPrLink project story event with
  | none => pure ()
  | some message => fail (.sqlite message)

/-- The loop of an append, from a position of the story's and of the project's sequence on. -/
def appendRows (host : Host) (project : ProjectId) (story : StoryNo) (source : LinkSource) :
    Nat → Nat → List RawEvent → Body Unit
  | _, _, [] => pure ()
  | seq, global, event :: rest => do
      insertEvent ⟨project, story, seq, global, event⟩
      projectCommitLink host project story source event
      projectPrLink host project story event
      appendRows host project story source (seq + 1) (global + 1) rest

def appendRawEvents (host : Host) (project : ProjectId) (story : StoryNo) (expected : ExpectedSeq)
    (events : List RawEvent) (source : LinkSource) : Body Nat :=
  match host.refuse project story events with
  | some message => fail (.refused message)
  | none => do
      let tables ← read
      let head := headSeq tables project story
      if expected != .any && expected != .exact head then fail (.conflict expected head)
      else if events.isEmpty then return head
      else do
        let first ← allocateGlobalSeqs project events.length
        appendRows host project story source (head + 1) first events
        return head + events.length

def appendEvents (host : Host) (project : ProjectId) (story : StoryNo) (expected : ExpectedSeq)
    (events : List StoryEvent) : Body Nat :=
  appendRawEvents host project story expected (events.map host.encode) .live

inductive Call where
  | allocateStoryNo (project : ProjectId)
  | reserveStoryNo (project : ProjectId) (highest : StoryNo)
  | appendEvents (project : ProjectId) (story : StoryNo) (expected : ExpectedSeq)
      (events : List StoryEvent)
  | appendRawEvents (project : ProjectId) (story : StoryNo) (expected : ExpectedSeq)
      (events : List RawEvent) (source : LinkSource)

inductive Answer where
  | allocated (project : ProjectId) (story : StoryNo)
  | reserved (project : ProjectId) (highest : StoryNo)
  | appended (project : ProjectId) (story : StoryNo) (head : Nat)
  deriving DecidableEq, Repr

def perform (host : Host) : Call → Body Answer
  | .allocateStoryNo project => .allocated project <$> allocateStoryNo project
  | .reserveStoryNo project highest => do
      reserveStoryNo project highest
      return .reserved project highest
  | .appendEvents project story expected events =>
      .appended project story <$> appendEvents host project story expected events
  | .appendRawEvents project story expected events source =>
      .appended project story <$> appendRawEvents host project story expected events source

/-- One write transaction: its calls, and whether it then commits. -/
structure Transaction where
  host : Host
  calls : List Call
  commits : Bool

def Transaction.body (transaction : Transaction) : Body (List Answer) := do
  let answers ← transaction.calls.mapM (perform transaction.host)
  if transaction.commits then return answers else fail (.refused "rolled back")

/-- The tables, and the answers of the transactions that committed. -/
structure Record where
  tables : Tables
  answers : List Answer

def submit (record : Record) (transaction : Transaction) : Record :=
  match transact transaction.body record.tables with
  | (.ok answers, tables) => ⟨tables, record.answers ++ answers⟩
  | (.error _, tables) => ⟨tables, record.answers⟩

/-- Projects that have just been created. -/
def created (projects : List ProjectId) : Record where
  tables := ⟨.ofList (projects.map fun project => (project, Counters.mk 1 1)), [], []⟩
  answers := []

def run (projects : List ProjectId) (transactions : List Transaction) : Record :=
  transactions.foldl submit (created projects)

end Storyhook.Store.EventTable
