import Storyhook.Store.Findings

namespace Storyhook.Store

open Storyhook.Domain

inductive ExpectedSeq where
  | any
  | exact (seq : Nat)
  deriving DecidableEq, Repr

def ExpectedSeq.text : ExpectedSeq → String
  | .any => "any"
  | .exact seq => "seq " ++ Nat.repr seq

/-- The decoded events of a story. -/
def history (db : Database) (story : StoryNo) : List StoryEvent :=
  ((db.events[story]?).map fun log => (partitionKnown story log.rows).1).getD []

def headSeq (db : Database) (story : StoryNo) : Nat :=
  ((db.events[story]?).map fun log => log.head.seq).getD 0

def numbered (seq global : Nat) : List StoryEvent → List StoredEvent
  | [] => []
  | event :: rest => ⟨seq, global, .known event⟩ :: numbered (seq + 1) (global + 1) rest

theorem numbered_from (seq global : Nat) (events : List StoryEvent) (row : StoredEvent)
    (member : row ∈ numbered seq global events) : seq ≤ row.seq := by
  induction events generalizing seq global with
  | nil => cases member
  | cons event rest ih =>
      rcases List.mem_cons.mp member with rfl | later
      · exact Nat.le_refl _
      · have above := ih (seq + 1) (global + 1) later
        omega

theorem numbered_ordered (seq global : Nat) (events : List StoryEvent) :
    (numbered seq global events).Pairwise fun earlier later => earlier.seq < later.seq := by
  induction events generalizing seq global with
  | nil => exact List.Pairwise.nil
  | cons event rest ih =>
      apply List.Pairwise.cons _ (ih (seq + 1) (global + 1))
      exact fun row member => numbered_from (seq + 1) (global + 1) rest row member

theorem partitionKnown_numbered (story : StoryNo) (earlier : List StoredEvent) (seq global : Nat)
    (events : List StoryEvent) :
    (partitionKnown story (earlier ++ numbered seq global events)).1 =
      (partitionKnown story earlier).1 ++ events := by
  rw [partitionKnown, partitionKnown, List.filterMap_append]
  refine congrArg (_ ++ ·) ?_
  induction events generalizing seq global with
  | nil => rfl
  | cons event rest ih => exact congrArg (event :: ·) (ih (seq + 1) (global + 1))

theorem EventLog.seq_le_head (log : EventLog) (row : StoredEvent) (member : row ∈ log.rows) :
    row.seq ≤ log.head.seq := by
  have ordered := log.ordered
  rw [← List.dropLast_append_getLast log.present, List.pairwise_append] at ordered
  rw [← List.dropLast_append_getLast log.present, List.mem_append, List.mem_singleton] at member
  rcases member with earlier | rfl
  · exact Nat.le_of_lt (ordered.2.2 row earlier _ (List.mem_singleton_self _))
  · exact Nat.le_refl _

def EventLog.extend (log : EventLog) (global : Nat) (events : List StoryEvent) : EventLog where
  rows := log.rows ++ numbered (log.head.seq + 1) global events
  ordered := by
    rw [List.pairwise_append]
    refine ⟨log.ordered, numbered_ordered _ _ _, ?_⟩
    intro earlier old later new
    have below := EventLog.seq_le_head log earlier old
    have above := numbered_from _ _ _ later new
    omega
  present := by simp [log.present]

def EventLog.begin (global : Nat) (first : StoryEvent) (rest : List StoryEvent) : EventLog where
  rows := numbered 1 global (first :: rest)
  ordered := numbered_ordered _ _ _
  present := by simp [numbered]

def appendEvents (db : Database) (story : StoryNo) (expected : ExpectedSeq)
    (events : List StoryEvent) : Except AppError (Database × Nat) :=
  let head := headSeq db story
  if expected ≠ .any ∧ expected ≠ .exact head then
    .error (.stateConflict expected.text ("seq " ++ Nat.repr head))
  else match events with
    | [] => .ok (db, head)
    | first :: rest =>
        let log := match db.events[story]? with
          | none => EventLog.begin db.nextGlobalSeq first rest
          | some log => log.extend db.nextGlobalSeq (first :: rest)
        .ok ({ db with
          events := db.events.insert story log
          nextGlobalSeq := db.nextGlobalSeq + events.length }, head + events.length)

structure Appends (db after : Database) (story : StoryNo) (events : List StoryEvent) : Prop where
  idPrefix : after.idPrefix = db.idPrefix
  states : after.states = db.states
  nextStoryNo : after.nextStoryNo = db.nextStoryNo
  stories : after.stories = db.stories
  relations : after.relations = db.relations
  history : history after story = history db story ++ events
  elsewhere : ∀ no, story ≠ no → after.events[no]? = db.events[no]?

theorem appendEvents_ok (db after : Database) (story : StoryNo) (expected : ExpectedSeq)
    (events : List StoryEvent) (head : Nat)
    (appended : appendEvents db story expected events = .ok (after, head)) :
    Appends db after story events := by
  simp only [appendEvents] at appended
  split at appended
  · cases appended
  · split at appended
    · cases appended
      exact ⟨rfl, rfl, rfl, rfl, rfl, (List.append_nil _).symm, fun _ _ => rfl⟩
    · next first rest =>
        cases appended
        refine ⟨rfl, rfl, rfl, rfl, rfl, ?_, ?_⟩
        · simp only [history, Std.TreeMap.getElem?_insert_self, Option.map_some, Option.getD_some]
          split
          · next absent =>
              rw [absent]
              exact partitionKnown_numbered story [] 1 db.nextGlobalSeq (first :: rest)
          · next log found =>
              rw [found]
              exact partitionKnown_numbered story log.rows _ _ _
        · intro no other
          rw [Std.TreeMap.getElem?_insert, if_neg]
          rwa [Std.LawfulEqOrd.compare_eq_iff_eq]

def allocateStoryNo (db : Database) : Database × StoryNo :=
  ({ db with nextStoryNo := db.nextStoryNo + 1 }, db.nextStoryNo)

/-- Removes a story's rows from every table that holds any, both directions of its edges
included. -/
def purgeStory (db : Database) (story : StoryNo) : Except AppError Database :=
  if db.stories.contains story then
    .ok { db with
      relations := db.relations.purge story
      stories := db.stories.erase story
      events := db.events.erase story }
  else .error (.notFound ("purging a story that does not exist (story " ++ Nat.repr story ++ ")"))

end Storyhook.Store
