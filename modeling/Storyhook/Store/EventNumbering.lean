import Storyhook.Store.EventTable

namespace Storyhook.Store.EventTable

open Storyhook.Domain
open Library Library.Statement

/-- The rows a batch becomes, numbered from a position of each sequence on. -/
def numberedRows (project : ProjectId) (story : StoryNo) (seq global : Nat) :
    List RawEvent → List EventRow
  | [] => []
  | event :: rest =>
      ⟨project, story, seq, global, event⟩ :: numberedRows project story (seq + 1) (global + 1) rest

section NumberedRows

variable (project : ProjectId) (story : StoryNo) (seq global : Nat) (events : List RawEvent)

theorem numberedRows_seq :
    (numberedRows project story seq global events).map (·.seq) = List.range' seq events.length := by
  induction events generalizing seq global with
  | nil => rfl
  | cons event rest ih => simp [numberedRows, ih, List.range'_succ]

theorem length_numberedRows :
    (numberedRows project story seq global events).length = events.length := by
  induction events generalizing seq global with
  | nil => rfl
  | cons event rest ih => simp [numberedRows, ih]

theorem mem_numberedRows (row : EventRow)
    (member : row ∈ numberedRows project story seq global events) :
    row.project = project ∧ row.storyNo = story ∧ global ≤ row.globalSeq ∧
      row.globalSeq < global + events.length := by
  induction events generalizing seq global with
  | nil => cases member
  | cons event rest ih =>
      rcases List.mem_cons.mp member with rfl | later
      · simp
      · obtain ⟨own, named, above, below⟩ := ih (seq + 1) (global + 1) later
        refine ⟨own, named, by omega, ?_⟩
        rw [List.length_cons]
        omega

theorem numberedRows_rising :
    (numberedRows project story seq global events).Pairwise fun earlier later =>
      earlier.globalSeq < later.globalSeq := by
  induction events generalizing seq global with
  | nil => exact List.Pairwise.nil
  | cons event rest ih =>
      refine List.Pairwise.cons ?_ (ih (seq + 1) (global + 1))
      intro row member
      exact (mem_numberedRows project story (seq + 1) (global + 1) rest row member).2.2.1

end NumberedRows

/-- Each story's sequence numbers run from one without a gap, and the change-feed positions of a
project rise in the order of insertion, below its counter. -/
structure Sound (tables : Tables) : Prop where
  contiguous : ∀ (project : ProjectId) (story : StoryNo),
    (storyRows tables project story).map (·.seq) =
      List.range' 1 (storyRows tables project story).length
  rising : tables.events.Pairwise fun earlier later =>
    earlier.project = later.project → earlier.globalSeq < later.globalSeq
  below : ∀ row ∈ tables.events, ∃ counters,
    tables.projects[row.project]? = some counters ∧ row.globalSeq < counters.nextGlobalSeq

theorem foldl_max_range (count : Nat) : (List.range' 1 count).foldl max 0 = count := by
  induction count with
  | zero => rfl
  | succ count ih =>
      rw [List.range'_concat, List.foldl_append, ih]
      simp only [List.foldl_cons, List.foldl_nil]
      omega

theorem headSeq_sound (tables : Tables) (sound : Sound tables) (project : ProjectId)
    (story : StoryNo) :
    headSeq tables project story = (storyRows tables project story).length := by
  rw [headSeq, sound.contiguous, foldl_max_range]

theorem getElem?_setCounters (tables : Tables) (project other : ProjectId) (counters : Counters) :
    (tables.setCounters project counters).projects[other]? =
      if project = other then some counters else tables.projects[other]? := by
  rw [Tables.setCounters, Std.TreeMap.getElem?_insert]
  simp only [Std.LawfulEqOrd.compare_eq_iff_eq]

theorem insertEvent_ok (row : EventRow) (tables after : Tables) (done : Unit)
    (ran : insertEvent row tables = (.ok done, after)) :
    after = { tables with events := tables.events ++ [row] } := by
  simp only [insertEvent, bind_ok, read_ok] at ran
  obtain ⟨_, _, ⟨rfl, rfl⟩, written⟩ := ran
  split at written
  · exact absurd written (fail_ok _ _ _ _)
  · split at written
    · exact absurd written (fail_ok _ _ _ _)
    · exact ((write_ok _ _ _ _).mp written).symm

theorem projectCommitLink_ok (host : Host) (project : ProjectId) (story : StoryNo)
    (source : LinkSource) (event : RawEvent) (tables after : Tables) (done : Unit)
    (ran : projectCommitLink host project story source event tables = (.ok done, after)) :
    after.projects = tables.projects ∧ after.events = tables.events := by
  unfold projectCommitLink at ran
  cases linked : commitLinkOf host source event with
  | none =>
      rw [linked] at ran
      rw [((pure_ok _ _ _ _).mp ran).2]
      exact ⟨rfl, rfl⟩
  | some link =>
      rw [linked] at ran
      simp only [recordCommitLink, bind_ok, read_ok] at ran
      obtain ⟨_, _, ⟨rfl, rfl⟩, written⟩ := ran
      split at written
      · exact absurd written (fail_ok _ _ _ _)
      · split at written
        · split at written
          · rw [((pure_ok _ _ _ _).mp written).2]
            exact ⟨rfl, rfl⟩
          · exact absurd written (fail_ok _ _ _ _)
        · rw [← (write_ok _ _ _ _).mp written]
          exact ⟨rfl, rfl⟩

theorem projectPrLink_ok (host : Host) (project : ProjectId) (story : StoryNo) (event : RawEvent)
    (tables after : Tables) (done : Unit)
    (ran : projectPrLink host project story event tables = (.ok done, after)) : after = tables := by
  unfold projectPrLink at ran
  cases refused : host.projectPrLink project story event with
  | none =>
      rw [refused] at ran
      exact ((pure_ok _ _ _ _).mp ran).2.symm
  | some message =>
      rw [refused] at ran
      exact absurd ran (fail_ok _ _ _ _)

theorem appendRows_ok (host : Host) (project : ProjectId) (story : StoryNo) (source : LinkSource)
    (seq global : Nat) (events : List RawEvent) (tables after : Tables) (done : Unit)
    (ran : appendRows host project story source seq global events tables = (.ok done, after)) :
    after.projects = tables.projects ∧
      after.events = tables.events ++ numberedRows project story seq global events := by
  induction events generalizing seq global tables with
  | nil =>
      rw [((pure_ok _ _ _ _).mp ran).2]
      exact ⟨rfl, (List.append_nil _).symm⟩
  | cons event rest ih =>
      simp only [appendRows, bind_ok] at ran
      obtain ⟨_, inserted, first, _, linked, second, _, pulled, third, others⟩ := ran
      obtain rfl := projectPrLink_ok host project story event linked pulled _ third
      obtain ⟨projects, rows⟩ :=
        projectCommitLink_ok host project story source event inserted pulled _ second
      obtain rfl := insertEvent_ok _ tables inserted _ first
      obtain ⟨kept, appended⟩ := ih (seq + 1) (global + 1) pulled others
      refine ⟨kept.trans projects, ?_⟩
      rw [appended, rows, numberedRows, List.append_assoc, List.singleton_append]

theorem allocateGlobalSeqs_ok (project : ProjectId) (count first : Nat) (tables after : Tables)
    (ran : allocateGlobalSeqs project count tables = (.ok first, after)) :
    ∃ counters, tables.projects[project]? = some counters ∧ first = counters.nextGlobalSeq ∧
      after = tables.setCounters project { counters with
        nextGlobalSeq := counters.nextGlobalSeq + count } := by
  unfold allocateGlobalSeqs at ran
  split at ran
  · exact absurd ran (fail_ok _ _ _ _)
  · simp only [bind_ok, read_ok] at ran
    obtain ⟨_, _, ⟨rfl, rfl⟩, counted⟩ := ran
    cases stored : tables.projects[project]? with
    | none =>
        simp only [stored] at counted
        exact absurd counted (fail_ok _ _ _ _)
    | some counters =>
        simp only [stored] at counted
        split at counted
        · simp only [bind_ok, pure_ok, write_ok] at counted
          obtain ⟨_, _, rfl, rfl, rfl⟩ := counted
          exact ⟨counters, rfl, rfl, rfl⟩
        · exact absurd counted (fail_ok _ _ _ _)

theorem allocateStoryNo_ok (project : ProjectId) (story : StoryNo) (tables after : Tables)
    (ran : allocateStoryNo project tables = (.ok story, after)) :
    ∃ counters, tables.projects[project]? = some counters ∧ story = counters.nextStoryNo ∧
      after = tables.setCounters project { counters with
        nextStoryNo := counters.nextStoryNo + 1 } := by
  simp only [allocateStoryNo, bind_ok, read_ok] at ran
  obtain ⟨_, _, ⟨rfl, rfl⟩, counted⟩ := ran
  cases stored : tables.projects[project]? with
  | none =>
      simp only [stored] at counted
      exact absurd counted (fail_ok _ _ _ _)
  | some counters =>
      simp only [stored] at counted
      split at counted
      · simp only [bind_ok, pure_ok, write_ok] at counted
        obtain ⟨_, _, rfl, rfl, rfl⟩ := counted
        exact ⟨counters, rfl, rfl, rfl⟩
      · exact absurd counted (fail_ok _ _ _ _)

theorem reserveStoryNo_ok (project : ProjectId) (highest : StoryNo) (tables after : Tables)
    (done : Unit) (ran : reserveStoryNo project highest tables = (.ok done, after)) :
    ∃ counters, tables.projects[project]? = some counters ∧
      after = tables.setCounters project { counters with
        nextStoryNo := raised counters.nextStoryNo highest } := by
  simp only [reserveStoryNo, bind_ok, read_ok] at ran
  obtain ⟨_, _, ⟨rfl, rfl⟩, counted⟩ := ran
  cases stored : tables.projects[project]? with
  | none =>
      simp only [stored] at counted
      exact absurd counted (fail_ok _ _ _ _)
  | some counters =>
      simp only [stored, write_ok] at counted
      exact ⟨counters, rfl, counted.symm⟩

theorem wrapI64_successor (highest : Nat) (short : highest < i64Max) :
    wrapI64 (highest + 1) = highest + 1 := by
  have bounded : highest < 9223372036854775807 := short
  have size : ((2 ^ 64 : Nat) : Int) = 18446744073709551616 := rfl
  apply Int.bmod_eq_of_le <;> rw [size] <;> omega

theorem le_raised (next highest : Nat) : next ≤ raised next highest := by
  have larger := Int.le_max_left (next : Int) (wrapI64 (highest + 1))
  unfold raised
  omega

theorem lt_raised (next highest : Nat) (short : highest < i64Max) :
    highest < raised next highest := by
  rw [raised, wrapI64_successor highest short]
  omega

structure Appended (tables after : Tables) (project : ProjectId) (story : StoryNo)
    (expected : ExpectedSeq) (events : List RawEvent) (head : Nat) : Prop where
  expected : expected = .any ∨ expected = .exact (headSeq tables project story)
  head : head = headSeq tables project story + events.length
  tables : (events = [] ∧ after = tables) ∨ ∃ counters,
    tables.projects[project]? = some counters ∧
      after.projects = (tables.setCounters project { counters with
        nextGlobalSeq := counters.nextGlobalSeq + events.length }).projects ∧
      after.events = tables.events ++ numberedRows project story
        (headSeq tables project story + 1) counters.nextGlobalSeq events

theorem appendRawEvents_ok (host : Host) (project : ProjectId) (story : StoryNo)
    (expected : ExpectedSeq) (events : List RawEvent) (source : LinkSource) (tables after : Tables)
    (head : Nat)
    (ran : appendRawEvents host project story expected events source tables = (.ok head, after)) :
    Appended tables after project story expected events head := by
  unfold appendRawEvents at ran
  cases refused : host.refuse project story events with
  | some message =>
      rw [refused] at ran
      exact absurd ran (fail_ok _ _ _ _)
  | none =>
      rw [refused] at ran
      simp only [bind_ok, read_ok] at ran
      obtain ⟨_, _, ⟨rfl, rfl⟩, admitted⟩ := ran
      split at admitted
      · exact absurd admitted (fail_ok _ _ _ _)
      · next matching =>
          have required : expected = .any ∨ expected = .exact (headSeq tables project story) := by
            simpa [or_iff_not_imp_left] using matching
          split at admitted
          · next blank =>
              obtain ⟨rfl, rfl⟩ := (pure_ok _ _ _ _).mp admitted
              obtain rfl := List.isEmpty_iff.mp blank
              exact ⟨required, rfl, Or.inl ⟨rfl, rfl⟩⟩
          · simp only [bind_ok, pure_ok] at admitted
            obtain ⟨first, counted, allocated, _, _, rows, rfl, rfl⟩ := admitted
            obtain ⟨counters, stored, rfl, rfl⟩ := allocateGlobalSeqs_ok project _ _ _ _ allocated
            obtain ⟨projects, appended⟩ := appendRows_ok host project story source _ _ events _ _ _
              rows
            exact ⟨required, rfl, Or.inr ⟨counters, stored, projects, appended⟩⟩

theorem storyRows_append (tables after : Tables) (rows : List EventRow)
    (events : after.events = tables.events ++ rows) (project : ProjectId) (story : StoryNo) :
    storyRows after project story = storyRows tables project story ++
      rows.filter fun row => row.project == project && row.storyNo == story := by
  rw [storyRows, events, List.filter_append, storyRows]

theorem filter_numberedRows (project other : ProjectId) (story another : StoryNo) (seq global : Nat)
    (events : List RawEvent) :
    (numberedRows project story seq global events).filter
        (fun row => row.project == other && row.storyNo == another) =
      if project = other ∧ story = another then numberedRows project story seq global events
      else [] := by
  split
  · next same =>
      refine List.filter_eq_self.mpr fun row member => ?_
      obtain ⟨own, named, -⟩ := mem_numberedRows project story seq global events row member
      simp [own, named, same]
  · next apart =>
      refine List.filter_eq_nil_iff.mpr fun row member => ?_
      obtain ⟨own, named, -⟩ := mem_numberedRows project story seq global events row member
      simpa [own, named] using apart

def nextOf (tables : Tables) (project : ProjectId) : Option StoryNo :=
  (tables.projects[project]?).map (·.nextStoryNo)

section Append

variable (tables after : Tables) (project : ProjectId) (story : StoryNo) (expected : ExpectedSeq)
  (events : List RawEvent) (head : Nat)
  (appended : Appended tables after project story expected events head) (sound : Sound tables)

include appended

theorem Appended.extends : tables.events <+: after.events := by
  rcases appended.tables with ⟨-, rfl⟩ | ⟨counters, -, -, rows⟩
  · exact List.prefix_rfl
  · exact ⟨_, rows.symm⟩

theorem Appended.nextStoryNo (other : ProjectId) :
    nextOf after other = nextOf tables other := by
  rcases appended.tables with ⟨-, rfl⟩ | ⟨counters, stored, projects, -⟩
  · rfl
  · rw [nextOf, nextOf, projects, getElem?_setCounters]
    split
    · next same => rw [← same, stored]; rfl
    · rfl

include sound

theorem Appended.keeps_sound : Sound after := by
  rcases appended.tables with ⟨-, rfl⟩ | ⟨counters, stored, projects, rows⟩
  · exact sound
  · refine ⟨?_, ?_, ?_⟩
    · intro other another
      rw [storyRows_append tables after _ rows, filter_numberedRows, List.map_append,
        List.length_append, sound.contiguous]
      split
      · next same =>
          obtain ⟨rfl, rfl⟩ := same
          rw [numberedRows_seq, headSeq_sound tables sound, Nat.add_comm _ 1,
            List.range'_append_1]
          congr 1
          rw [length_numberedRows]
      · simp
    · rw [rows, List.pairwise_append]
      have risen := numberedRows_rising project story (headSeq tables project story + 1)
        counters.nextGlobalSeq events
      refine ⟨sound.rising, risen.imp (by intro earlier later less _; exact less), ?_⟩
      intro older inside newer member same
      obtain ⟨own, -, above, -⟩ := mem_numberedRows project story _ _ events newer member
      obtain ⟨current, found, below⟩ := sound.below older inside
      rw [same, own, stored, Option.some.injEq] at found
      subst found
      omega
    · intro row member
      rw [rows, List.mem_append] at member
      rw [projects, getElem?_setCounters]
      rcases member with older | newer
      · obtain ⟨current, found, below⟩ := sound.below row older
        split
        · next same =>
            rw [← same, stored, Option.some.injEq] at found
            subst found
            exact ⟨_, rfl, Nat.lt_add_right _ below⟩
        · exact ⟨current, found, below⟩
      · obtain ⟨own, -, -, below⟩ := mem_numberedRows project story _ _ events row newer
        rw [own, if_pos rfl]
        exact ⟨_, rfl, below⟩

end Append

def Answer.taken : Answer → Option (ProjectId × StoryNo)
  | .allocated project story => some (project, story)
  | .reserved project highest => some (project, highest)
  | .appended .. => none

/-- A number handed out lies above every one its project handed out or reserved before. -/
def Follows (earlier later : Answer) : Prop :=
  ∀ project lower story, earlier.taken = some (project, lower) →
    later = .allocated project story → lower < story

/-- Sound tables, with story numbers handed out in rising order below their counters. -/
structure Valid (record : Record) : Prop where
  sound : Sound record.tables
  follows : record.answers.Pairwise Follows
  below : ∀ answer ∈ record.answers, ∀ project taken, answer.taken = some (project, taken) →
    ∃ next, nextOf record.tables project = some next ∧ taken < next

theorem Sound.counted (tables : Tables) (project : ProjectId) (counters later : Counters)
    (sound : Sound tables) (stored : tables.projects[project]? = some counters)
    (same : later.nextGlobalSeq = counters.nextGlobalSeq) :
    Sound (tables.setCounters project later) := by
  refine ⟨sound.contiguous, sound.rising, fun row member => ?_⟩
  obtain ⟨current, found, below⟩ := sound.below row member
  rw [getElem?_setCounters]
  split
  · next own =>
      rw [← own, stored, Option.some.injEq] at found
      subst found
      exact ⟨later, rfl, same ▸ below⟩
  · exact ⟨current, found, below⟩

theorem Valid.joined (record : Record) (after : Tables) (answer : Answer) (valid : Valid record)
    (sound : Sound after)
    (rises : ∀ project next, nextOf record.tables project = some next →
      ∃ later, nextOf after project = some later ∧ next ≤ later)
    (fresh : ∀ project story, answer = .allocated project story →
      nextOf record.tables project = some story)
    (covered : ∀ project taken, answer.taken = some (project, taken) →
      ∃ next, nextOf after project = some next ∧ taken < next) :
    Valid ⟨after, record.answers ++ [answer]⟩ := by
  refine ⟨sound, ?_, ?_⟩
  · rw [List.pairwise_append]
    refine ⟨valid.follows, List.pairwise_singleton _ _, ?_⟩
    intro earlier member later single project lower story taken allocated
    rw [List.mem_singleton.mp single] at allocated
    obtain ⟨next, counter, below⟩ := valid.below earlier member project lower taken
    rw [fresh project story allocated, Option.some.injEq] at counter
    exact counter ▸ below
  · intro earlier member project taken listed
    rcases List.mem_append.mp member with older | last
    · obtain ⟨next, counter, below⟩ := valid.below earlier older project taken listed
      obtain ⟨later, moved, above⟩ := rises project next counter
      exact ⟨later, moved, Nat.lt_of_lt_of_le below above⟩
    · rw [List.mem_singleton.mp last] at listed
      exact covered project taken listed

def Rises (tables after : Tables) : Prop :=
  ∀ project next, nextOf tables project = some next →
    ∃ later, nextOf after project = some later ∧ next ≤ later

theorem nextOf_setCounters (tables : Tables) (project other : ProjectId) (counters : Counters) :
    nextOf (tables.setCounters project counters) other =
      if project = other then some counters.nextStoryNo else nextOf tables other := by
  rw [nextOf, getElem?_setCounters]
  split <;> rfl

theorem Rises.counted (tables : Tables) (project : ProjectId) (counters later : Counters)
    (stored : tables.projects[project]? = some counters)
    (above : counters.nextStoryNo ≤ later.nextStoryNo) :
    Rises tables (tables.setCounters project later) := by
  intro other next counter
  rw [nextOf_setCounters]
  split
  · next same =>
      rw [nextOf, ← same, stored, Option.map_some, Option.some.injEq] at counter
      exact ⟨later.nextStoryNo, rfl, counter ▸ above⟩
  · exact ⟨next, counter, Nat.le_refl _⟩

theorem Appended.rises (tables after : Tables) (project : ProjectId) (story : StoryNo)
    (expected : ExpectedSeq) (events : List RawEvent) (head : Nat)
    (appended : Appended tables after project story expected events head) : Rises tables after := by
  intro other next counter
  rw [Appended.nextStoryNo tables after project story expected events head appended]
  exact ⟨next, counter, Nat.le_refl _⟩

/-- A call that reserves no number whose successor is out of range. -/
def Call.InRange : Call → Prop
  | .reserveStoryNo _ highest => highest < i64Max
  | _ => True

structure Performed (call : Call) (answer : Answer) (tables after : Tables) : Prop where
  sound : Sound tables → Sound after
  longer : tables.events <+: after.events
  rises : Rises tables after
  fresh : ∀ project story, answer = .allocated project story → nextOf tables project = some story
  covered : call.InRange → ∀ project taken, answer.taken = some (project, taken) →
    ∃ next, nextOf after project = some next ∧ taken < next

theorem appended_performed (call : Call) (tables after : Tables) (project : ProjectId)
    (story : StoryNo) (expected : ExpectedSeq) (events : List RawEvent) (head : Nat)
    (appended : Appended tables after project story expected events head) :
    Performed call (.appended project story head) tables after where
  sound := Appended.keeps_sound tables after project story expected events head appended
  longer := Appended.extends tables after project story expected events head appended
  rises := appended.rises
  fresh := by
    intro other another allocated
    cases allocated
  covered := by
    intro _ other another taken
    cases taken

theorem perform_ok (host : Host) (call : Call) (tables after : Tables) (answer : Answer)
    (ran : perform host call tables = (.ok answer, after)) :
    Performed call answer tables after := by
  cases call with
  | allocateStoryNo project =>
      rw [perform, map_ok] at ran
      obtain ⟨story, allocated, rfl⟩ := ran
      obtain ⟨counters, stored, rfl, rfl⟩ := allocateStoryNo_ok project _ _ _ allocated
      refine ⟨fun sound => sound.counted _ _ counters _ stored rfl, List.prefix_rfl,
        Rises.counted tables project counters _ stored (Nat.le_succ _), ?_, ?_⟩
      · rintro _ _ ⟨⟩
        rw [nextOf, stored, Option.map_some]
      · rintro - _ _ ⟨⟩
        rw [nextOf_setCounters, if_pos rfl]
        exact ⟨_, rfl, Nat.lt_succ_self _⟩
  | reserveStoryNo project highest =>
      simp only [perform, bind_ok, pure_ok] at ran
      obtain ⟨_, middle, reserved, rfl, rfl⟩ := ran
      obtain ⟨counters, stored, rfl⟩ := reserveStoryNo_ok project highest _ _ _ reserved
      refine ⟨fun sound => sound.counted _ _ counters _ stored rfl, List.prefix_rfl,
        Rises.counted tables project counters _ stored ?_, ?_, ?_⟩
      · dsimp only
        exact le_raised _ highest
      · rintro _ _ ⟨⟩
      · rintro short _ _ ⟨⟩
        rw [nextOf_setCounters, if_pos rfl]
        refine ⟨_, rfl, ?_⟩
        dsimp only
        exact lt_raised _ highest short
  | appendEvents project story expected events =>
      rw [perform, map_ok] at ran
      obtain ⟨head, ran, rfl⟩ := ran
      exact appended_performed _ tables after project story expected _ head
        (appendRawEvents_ok host project story expected _ .live tables after head ran)
  | appendRawEvents project story expected events source =>
      rw [perform, map_ok] at ran
      obtain ⟨head, ran, rfl⟩ := ran
      exact appended_performed _ tables after project story expected _ head
        (appendRawEvents_ok host project story expected events source tables after head ran)

def Grows (tables after : Tables) : Prop :=
  (Sound tables → Sound after) ∧ tables.events <+: after.events

theorem Grows.refl (tables : Tables) : Grows tables tables := ⟨id, List.prefix_rfl⟩

theorem Grows.trans (first second third : Tables) (early : Grows first second)
    (late : Grows second third) : Grows first third :=
  ⟨late.1 ∘ early.1, early.2.trans late.2⟩

theorem Grows.headSeq_le (tables after : Tables) (grows : Grows tables after)
    (sound : Sound tables) (project : ProjectId) (story : StoryNo) :
    headSeq tables project story ≤ headSeq after project story := by
  rw [headSeq_sound tables sound, headSeq_sound after (grows.1 sound)]
  obtain ⟨rows, longer⟩ := grows.2
  rw [storyRows_append tables after rows longer.symm, List.length_append]
  exact Nat.le_add_right _ _

theorem body_ok (transaction : Transaction) (tables after : Tables) (answers : List Answer)
    (ran : transaction.body tables = (.ok answers, after)) :
    transaction.calls.mapM (perform transaction.host) tables = (.ok answers, after) := by
  rw [Transaction.body, bind_ok] at ran
  obtain ⟨_, _, performed, committed⟩ := ran
  split at committed
  · obtain ⟨rfl, rfl⟩ := (pure_ok _ _ _ _).mp committed
    exact performed
  · exact absurd committed (fail_ok _ _ _ _)

theorem body_visits (transaction : Transaction) (tables after : Tables) (answers : List Answer)
    (ran : transaction.body tables = (.ok answers, after)) :
    Grows tables after ∧ ∀ call ∈ transaction.calls, ∃ before answer middle, Grows tables before ∧
      perform transaction.host call before = (.ok answer, middle) ∧ Grows middle after := by
  refine mapM_visits _ Grows Grows.refl Grows.trans ?_ _ _ tables after
    (body_ok transaction tables after answers ran)
  intro call before answer after performed
  have done := perform_ok transaction.host call before after answer performed
  exact ⟨done.sound, done.longer⟩

theorem submit_eq (record : Record) (transaction : Transaction) :
    (∃ failure, (transact transaction.body record.tables).1 = .error failure ∧
        submit record transaction = record) ∨
      ∃ answers after, transaction.body record.tables = (.ok answers, after) ∧
        submit record transaction = ⟨after, record.answers ++ answers⟩ := by
  unfold submit
  rcases ran : transact transaction.body record.tables with ⟨failure | answers, after⟩
  · refine Or.inl ⟨failure, rfl, ?_⟩
    rw [transact_error _ _ _ _ ran]
  · exact Or.inr ⟨answers, after, (transact_ok _ _ _ _).mp ran, rfl⟩

theorem submit_grows (record : Record) (transaction : Transaction) :
    Grows record.tables (submit record transaction).tables := by
  rcases submit_eq record transaction with ⟨_, _, same⟩ | ⟨answers, after, ran, same⟩
  · rw [same]
    exact Grows.refl _
  · rw [same]
    exact (body_visits transaction record.tables after answers ran).1

theorem foldl_submit_grows (transactions : List Transaction) (record : Record) :
    Grows record.tables (transactions.foldl submit record).tables := by
  induction transactions generalizing record with
  | nil => exact Grows.refl _
  | cons transaction rest ih =>
      exact Grows.trans _ _ _ (submit_grows record transaction) (ih (submit record transaction))

/-- A transaction that reserves no number whose successor is out of range. -/
def Transaction.InRange (transaction : Transaction) : Prop :=
  ∀ call ∈ transaction.calls, call.InRange

theorem submit_valid (record : Record) (transaction : Transaction) (valid : Valid record)
    (inRange : transaction.InRange) : Valid (submit record transaction) := by
  rcases submit_eq record transaction with ⟨_, _, same⟩ | ⟨answers, after, ran, same⟩
  · rwa [same]
  · rw [same]
    refine mapM_keeps (perform transaction.host) (fun done tables => Valid ⟨tables, done⟩)
      transaction.calls ?_ record.answers answers record.tables after valid
      (body_ok transaction record.tables after answers ran)
    intro call member done before answer after valid performed
    have did := perform_ok transaction.host call before after answer performed
    exact Valid.joined ⟨before, done⟩ after answer valid (did.sound valid.sound) did.rises did.fresh
      (did.covered (inRange call member))

theorem created_valid (projects : List ProjectId) : Valid (created projects) where
  sound := ⟨fun _ _ => rfl, List.Pairwise.nil, fun _ member => absurd member List.not_mem_nil⟩
  follows := List.Pairwise.nil
  below := fun _ member => absurd member List.not_mem_nil

theorem run_sound (projects : List ProjectId) (transactions : List Transaction) :
    Sound (run projects transactions).tables :=
  (foldl_submit_grows transactions (created projects)).1 (created_valid projects).sound

theorem run_valid (projects : List ProjectId) (transactions : List Transaction)
    (inRange : ∀ transaction ∈ transactions, transaction.InRange) :
    Valid (run projects transactions) := by
  induction transactions using List.reverseRecOn with
  | nil => exact created_valid projects
  | append_singleton earlier last ih =>
      rw [run, List.foldl_append]
      refine submit_valid _ last (ih fun transaction member => inRange transaction ?_)
        (inRange last ?_)
      · exact List.mem_append_left _ member
      · simp

end Storyhook.Store.EventTable
