import Storyhook.Store.EventNumbering

namespace Storyhook.Store.EventTable

open Storyhook.Domain
open Library Library.Statement

def Call.Expects (project : ProjectId) (story : StoryNo) (head : Nat) : Call → Prop
  | .appendEvents owner no expected _ => owner = project ∧ no = story ∧ expected = .exact head
  | .appendRawEvents owner no expected _ _ => owner = project ∧ no = story ∧ expected = .exact head
  | _ => False

/-- The number of events a call appends. -/
def Call.size : Call → Nat
  | .appendEvents _ _ _ events => events.length
  | .appendRawEvents _ _ _ events _ => events.length
  | _ => 0

theorem Appended.head_seq (tables after : Tables) (project : ProjectId) (story : StoryNo)
    (expected : ExpectedSeq) (events : List RawEvent) (head : Nat)
    (appended : Appended tables after project story expected events head) (sound : Sound tables) :
    headSeq after project story = headSeq tables project story + events.length := by
  have kept := Appended.keeps_sound tables after project story expected events head appended sound
  rcases appended.tables with ⟨rfl, rfl⟩ | ⟨counters, -, -, rows⟩
  · rfl
  · rw [headSeq_sound after kept, headSeq_sound tables sound, storyRows_append tables after _ rows,
      filter_numberedRows, if_pos ⟨rfl, rfl⟩, List.length_append,
      length_numberedRows]

theorem perform_expects (host : Host) (call : Call) (tables after : Tables) (answer : Answer)
    (project : ProjectId) (story : StoryNo) (head : Nat)
    (expects : call.Expects project story head)
    (ran : perform host call tables = (.ok answer, after)) :
    head = headSeq tables project story ∧
      (Sound tables → headSeq after project story = head + call.size) := by
  have met : ∀ events, Appended tables after project story (.exact head) events
      (headSeq tables project story + events.length) →
      head = headSeq tables project story ∧
        (Sound tables → headSeq after project story = head + events.length) := by
    intro events appended
    have same : head = headSeq tables project story := by
      simpa using appended.expected
    exact ⟨same, fun sound =>
      same ▸ Appended.head_seq tables after project story _ events _ appended sound⟩
  cases call with
  | allocateStoryNo _ => exact absurd expects id
  | reserveStoryNo _ _ => exact absurd expects id
  | appendEvents owner no expected events =>
      obtain ⟨rfl, rfl, rfl⟩ := expects
      rw [perform, map_ok] at ran
      obtain ⟨reached, ran, -⟩ := ran
      have appended := appendRawEvents_ok host _ _ _ _ .live tables after reached ran
      have moved := met _ (appended.head ▸ appended)
      rwa [List.length_map] at moved
  | appendRawEvents owner no expected events source =>
      obtain ⟨rfl, rfl, rfl⟩ := expects
      rw [perform, map_ok] at ran
      obtain ⟨reached, ran, -⟩ := ran
      have appended := appendRawEvents_ok host _ _ _ _ source tables after reached ran
      exact met events (appended.head ▸ appended)

theorem body_moves (transaction : Transaction) (tables after : Tables) (answers : List Answer)
    (project : ProjectId) (story : StoryNo) (head : Nat) (sound : Sound tables)
    (ran : transaction.body tables = (.ok answers, after))
    (writes : ∃ call ∈ transaction.calls, call.Expects project story head ∧ 0 < call.size) :
    head < headSeq after project story := by
  obtain ⟨call, member, expects, some⟩ := writes
  obtain ⟨before, answer, middle, early, performed, late⟩ :=
    (body_visits transaction tables after answers ran).2 call member
  have kept := early.1 sound
  have reached := (perform_expects transaction.host call before middle answer project story head
    expects performed).2 kept
  have done := perform_ok transaction.host call before middle answer performed
  have later := late.headSeq_le middle after (done.sound kept) project story
  omega

theorem submit_stale (record : Record) (transaction : Transaction) (project : ProjectId)
    (story : StoryNo) (head : Nat) (sound : Sound record.tables)
    (past : head < headSeq record.tables project story)
    (expecting : ∃ call ∈ transaction.calls, call.Expects project story head) :
    submit record transaction = record := by
  rcases submit_eq record transaction with ⟨_, _, same⟩ | ⟨answers, after, ran, -⟩
  · exact same
  · obtain ⟨call, member, expects⟩ := expecting
    obtain ⟨before, answer, middle, early, performed, -⟩ :=
      (body_visits transaction record.tables after answers ran).2 call member
    have reached := (perform_expects transaction.host call before middle answer project story head
      expects performed).1
    have grown := early.headSeq_le record.tables before sound project story
    omega

def NeverConflicts {α : Type} (body : Body α) : Prop :=
  ∀ tables after expected actual, body tables ≠ (.error (.conflict expected actual), after)

section NeverConflicts

variable {α β : Type}

theorem NeverConflicts.bind (first : Body α) (next : α → Body β) (early : NeverConflicts first)
    (late : ∀ value, NeverConflicts (next value)) : NeverConflicts (first >>= next) := by
  intro tables after expected actual failed
  rcases (bind_error _ _ _ _ _).mp failed with failed | ⟨value, middle, -, failed⟩
  · exact early tables after expected actual failed
  · exact late value middle after expected actual failed

theorem NeverConflicts.pure (value : α) : NeverConflicts (Pure.pure value : Body α) := by
  intro tables after expected actual failed
  cases failed

theorem NeverConflicts.read : NeverConflicts (Statement.read : Body Tables) := by
  intro tables after expected actual failed
  cases failed

theorem NeverConflicts.write (written : Tables) :
    NeverConflicts (Statement.write written : Body Unit) := by
  intro tables after expected actual failed
  cases failed

theorem NeverConflicts.fail (failure : StoreError)
    (other : ∀ expected actual, failure ≠ .conflict expected actual) :
    NeverConflicts (Statement.fail failure : Body α) := by
  intro tables after expected actual failed
  have same : failure = .conflict expected actual := by
    injection failed with left _
    injection left
  exact other expected actual same

end NeverConflicts

theorem insertEvent_neverConflicts (row : EventRow) : NeverConflicts (insertEvent row) := by
  refine NeverConflicts.bind _ _ NeverConflicts.read fun tables => ?_
  split
  · exact NeverConflicts.fail _ (by simp)
  · split
    · exact NeverConflicts.fail _ (by simp)
    · exact NeverConflicts.write _

theorem recordCommitLink_neverConflicts (project : ProjectId) (story : StoryNo) (sha : String)
    (legacy : Bool) : NeverConflicts (recordCommitLink project story sha legacy) := by
  refine NeverConflicts.bind _ _ NeverConflicts.read fun tables => ?_
  split
  · exact NeverConflicts.fail _ (by simp)
  · split
    · split
      · exact NeverConflicts.pure _
      · exact NeverConflicts.fail _ (by simp)
    · exact NeverConflicts.write _

theorem projectCommitLink_neverConflicts (host : Host) (project : ProjectId) (story : StoryNo)
    (source : LinkSource) (event : RawEvent) :
    NeverConflicts (projectCommitLink host project story source event) := by
  unfold projectCommitLink
  split
  · exact NeverConflicts.pure _
  · exact recordCommitLink_neverConflicts project story _ _

theorem projectPrLink_neverConflicts (host : Host) (project : ProjectId) (story : StoryNo)
    (event : RawEvent) : NeverConflicts (projectPrLink host project story event) := by
  unfold projectPrLink
  split
  · exact NeverConflicts.pure _
  · exact NeverConflicts.fail _ (by simp)

theorem appendRows_neverConflicts (host : Host) (project : ProjectId) (story : StoryNo)
    (source : LinkSource) (seq global : Nat) (events : List RawEvent) :
    NeverConflicts (appendRows host project story source seq global events) := by
  induction events generalizing seq global with
  | nil => exact NeverConflicts.pure _
  | cons event rest ih =>
      refine NeverConflicts.bind _ _ (insertEvent_neverConflicts _) fun _ => ?_
      refine NeverConflicts.bind _ _ (projectCommitLink_neverConflicts host project story source _)
        fun _ => ?_
      refine NeverConflicts.bind _ _ (projectPrLink_neverConflicts host project story _) fun _ => ?_
      exact ih (seq + 1) (global + 1)

theorem allocateGlobalSeqs_neverConflicts (project : ProjectId) (count : Nat) :
    NeverConflicts (allocateGlobalSeqs project count) := by
  unfold allocateGlobalSeqs
  split
  · exact NeverConflicts.fail _ (by simp)
  · refine NeverConflicts.bind _ _ NeverConflicts.read fun tables => ?_
    split
    · exact NeverConflicts.fail _ (by simp [missing])
    · split
      · exact NeverConflicts.bind _ _ (NeverConflicts.write _) fun _ => NeverConflicts.pure _
      · exact NeverConflicts.fail _ (by simp [notAnInteger])

theorem append_conflict (host : Host) (project : ProjectId) (story : StoryNo)
    (expected required : ExpectedSeq) (actual : Nat) (events : List RawEvent) (source : LinkSource)
    (tables after : Tables) :
    appendRawEvents host project story expected events source tables =
        (.error (.conflict required actual), after) ↔
      host.refuse project story events = none ∧ expected ≠ .any ∧
        expected ≠ .exact (headSeq tables project story) ∧ required = expected ∧
        actual = headSeq tables project story ∧ after = tables := by
  unfold appendRawEvents
  cases refused : host.refuse project story events with
  | some message =>
      simp only [reduceCtorEq, false_and, iff_false]
      exact NeverConflicts.fail _ (by simp) _ _ _ _
  | none =>
      dsimp only
      rw [read_bind]
      split
      · next apart =>
          rw [Bool.and_eq_true, bne_iff_ne, bne_iff_ne] at apart
          constructor
          · rintro ⟨⟩
            exact ⟨rfl, apart.1, apart.2, rfl, rfl, rfl⟩
          · rintro ⟨-, -, -, rfl, rfl, rfl⟩
            rfl
      · next agreed =>
          rw [Bool.and_eq_true, bne_iff_ne, bne_iff_ne] at agreed
          constructor
          · intro failed
            split at failed
            · exact absurd failed (NeverConflicts.pure _ _ _ _ _)
            · refine absurd failed (NeverConflicts.bind _ _
                (allocateGlobalSeqs_neverConflicts project _) (fun first => ?_) _ _ _ _)
              exact NeverConflicts.bind _ _
                (appendRows_neverConflicts host project story source _ _ events) fun _ =>
                  NeverConflicts.pure _
          · rintro ⟨-, some, other, -⟩
            exact absurd ⟨some, other⟩ agreed

/-- What the event log promises of a run. -/
structure LogKept (projects : List ProjectId) (transactions : List Transaction) : Prop where
  contiguous : ∀ (project : ProjectId) (story : StoryNo),
    (storyRows (run projects transactions).tables project story).map (·.seq) =
      List.range' 1 (headSeq (run projects transactions).tables project story)
  rising : (run projects transactions).tables.events.Pairwise fun earlier later =>
    earlier.project = later.project → earlier.globalSeq < later.globalSeq
  /-- Rows are only ever added, behind the ones there are. -/
  growing : ∀ (before after : List Transaction), transactions = before ++ after →
    (run projects before).tables.events <+: (run projects transactions).tables.events
  /-- Wherever in a transaction it stands. -/
  exact : ∀ (host : Host) (call : Call) (tables after : Tables) (answer : Answer)
    (project : ProjectId) (story : StoryNo) (head : Nat), call.Expects project story head →
      perform host call tables = (.ok answer, after) → head = headSeq tables project story
  conflict : ∀ (host : Host) (call : Call) (tables after : Tables) (required : ExpectedSeq)
    (actual : Nat), perform host call tables = (.error (.conflict required actual), after) →
      after = tables ∧ ∀ (project : ProjectId) (story : StoryNo) (head : Nat),
        call.Expects project story head → head ≠ headSeq tables project story
  unchanged : ∀ (transaction : Transaction) (failure : StoreError),
    (transact transaction.body (run projects transactions).tables).1 = .error failure →
      submit (run projects transactions) transaction = run projects transactions
  /-- After a writer that appended something at a head, no other one commits there. -/
  single : ∀ (before between : List Transaction) (first : Transaction),
    transactions = before ++ first :: between →
    ∀ (answers : List Answer) (after : Tables),
      first.body (run projects before).tables = (.ok answers, after) →
      ∀ (project : ProjectId) (story : StoryNo) (head : Nat),
        (∃ call ∈ first.calls, call.Expects project story head ∧ 0 < call.size) →
        ∀ second : Transaction, (∃ call ∈ second.calls, call.Expects project story head) →
          submit (run projects transactions) second = run projects transactions
  handedOut : (run projects transactions).answers.Pairwise Follows

theorem allocateStoryNo_neverConflicts (project : ProjectId) :
    NeverConflicts (allocateStoryNo project) := by
  refine NeverConflicts.bind _ _ NeverConflicts.read fun tables => ?_
  split
  · exact NeverConflicts.fail _ (by simp [missing])
  · split
    · exact NeverConflicts.bind _ _ (NeverConflicts.write _) fun _ => NeverConflicts.pure _
    · exact NeverConflicts.fail _ (by simp [notAnInteger])

theorem reserveStoryNo_neverConflicts (project : ProjectId) (highest : StoryNo) :
    NeverConflicts (reserveStoryNo project highest) := by
  refine NeverConflicts.bind _ _ NeverConflicts.read fun tables => ?_
  split
  · exact NeverConflicts.fail _ (by simp [missing])
  · exact NeverConflicts.write _

theorem perform_conflict (host : Host) (call : Call) (tables after : Tables)
    (required : ExpectedSeq) (actual : Nat)
    (failed : perform host call tables = (.error (.conflict required actual), after)) :
    after = tables ∧ ∀ (project : ProjectId) (story : StoryNo) (head : Nat),
      call.Expects project story head → head ≠ headSeq tables project story := by
  have mapped {α : Type} (body : Body α) (wrap : α → Answer) (failed : (wrap <$> body) tables =
      (.error (.conflict required actual), after)) :
      body tables = (.error (.conflict required actual), after) := by
    rw [map_eq_pure_bind, bind_error] at failed
    rcases failed with early | ⟨value, middle, -, late⟩
    · exact early
    · exact absurd late (NeverConflicts.pure _ _ _ _ _)
  cases call with
  | allocateStoryNo project =>
      exact absurd (mapped _ _ failed) (allocateStoryNo_neverConflicts project _ _ _ _)
  | reserveStoryNo project highest =>
      refine absurd failed (NeverConflicts.bind _ _ (reserveStoryNo_neverConflicts project highest)
        (fun _ => NeverConflicts.pure _) _ _ _ _)
  | appendEvents project story expected events =>
      obtain ⟨-, -, apart, -, -, same⟩ := (append_conflict host project story expected required
        actual _ .live tables after).mp (mapped _ _ failed)
      refine ⟨same, ?_⟩
      rintro _ _ head ⟨rfl, rfl, rfl⟩
      simpa using apart
  | appendRawEvents project story expected events source =>
      obtain ⟨-, -, apart, -, -, same⟩ := (append_conflict host project story expected required
        actual events source tables after).mp (mapped _ _ failed)
      refine ⟨same, ?_⟩
      rintro _ _ head ⟨rfl, rfl, rfl⟩
      simpa using apart

theorem run_append (projects : List ProjectId) (before after : List Transaction) :
    run projects (before ++ after) = after.foldl submit (run projects before) :=
  List.foldl_append

/-- The event log is a compare-and-swap log with contiguous numbering. -/
theorem event_log_numbering (projects : List ProjectId) (transactions : List Transaction)
    (inRange : ∀ transaction ∈ transactions, transaction.InRange) :
    LogKept projects transactions where
  contiguous := by
    intro project story
    have sound := run_sound projects transactions
    rw [headSeq_sound _ sound]
    exact sound.contiguous project story
  rising := (run_sound projects transactions).rising
  growing := by
    rintro before after rfl
    rw [run_append]
    exact (foldl_submit_grows after (run projects before)).2
  exact := by
    intro host call tables after answer project story head expects performed
    exact (perform_expects host call tables after answer project story head expects performed).1
  conflict := perform_conflict
  unchanged := by
    intro transaction failure failed
    rcases submit_eq (run projects transactions) transaction with ⟨_, _, same⟩ | ⟨_, _, ran, -⟩
    · exact same
    · rw [(transact_ok _ _ _ _).mpr ran] at failed
      cases failed
  single := by
    rintro before between first rfl answers after ran project story head writes second expecting
    have sound := run_sound projects before
    have moved := body_moves first
      (run projects before).tables after answers project story head sound
      ran writes
    have settled : (submit (run projects before) first).tables = after := by
      rw [submit, (transact_ok _ _ _ _).mpr ran]
    have grown := foldl_submit_grows between (submit (run projects before) first)
    have kept := (submit_grows (run projects before) first).1 sound
    have later := grown.headSeq_le _ _ kept project story
    rw [settled] at later
    refine submit_stale _ second project story head (run_sound _ _) ?_ expecting
    rw [run_append, List.foldl_cons]
    exact Nat.lt_of_lt_of_le moved later
  handedOut := (run_valid projects transactions inRange).follows

def plainHost : Host where
  payloadField := fun _ _ => none
  encode := fun _ => ⟨"StoryCreated", "", ""⟩
  refuse := fun _ _ _ => none
  projectPrLink := fun _ _ _ => none

def rawEvent (kind : String) : RawEvent := ⟨kind, "2026-01-01T00:00:00Z", ""⟩

/-- Two stories of a project grow side by side, and numbers are handed out past a reserved one. -/
theorem event_log_numbering_two_stories :
    LogKept [1] [
      ⟨plainHost, [.allocateStoryNo 1, .reserveStoryNo 1 40,
        .appendRawEvents 1 1 (.exact 0) [rawEvent "StoryCreated"] .replayed], true⟩,
      ⟨plainHost, [.allocateStoryNo 1,
        .appendRawEvents 1 41 (.exact 0) [rawEvent "StoryCreated"] .live], true⟩] :=
  event_log_numbering [1] _ (by simp [Transaction.InRange, Call.InRange, i64Max])

/-- Reserving the last number there is reserves nothing. -/
theorem last_number_not_reserved :
    ¬ LogKept [1] [⟨plainHost, [.reserveStoryNo 1 i64Max, .allocateStoryNo 1], true⟩] := by
  intro kept
  have answers : (run [1] [⟨plainHost, [.reserveStoryNo 1 i64Max, .allocateStoryNo 1],
      true⟩]).answers = [.reserved 1 i64Max, .allocated 1 1] := by
    decide +kernel
  have handedOut := kept.handedOut
  rw [answers, List.pairwise_pair] at handedOut
  exact absurd (handedOut 1 i64Max 1 rfl rfl) (by decide)

end Storyhook.Store.EventTable
