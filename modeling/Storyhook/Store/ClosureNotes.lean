import Storyhook.Domain.EpicProjection
import Storyhook.Library.Keyed
import Storyhook.Store.ClosureCleanup

/-! What a transaction has noted when it comes to commit: every story whose effective state it can
have changed, as that story was when the transaction began. -/

namespace Storyhook.Store

open Storyhook.Domain
open Library Library.Outcome

theorem repr_no_dash (no : StoryNo) : '-' ∉ (Nat.repr no).toList := by
  rw [Nat.toList_repr]
  intro member
  exact absurd (Nat.isDigit_of_mem_toDigits (by decide) (by decide) member) (by decide)

theorem toId_number (first second : String) (left right : StoryNo)
    (same : toId first left = toId second right) : left = right := by
  have spelled : first.toList ++ '-' :: (Nat.repr left).toList =
      second.toList ++ '-' :: (Nat.repr right).toList := by
    simpa [toId] using congrArg String.toList same
  have tails : (Nat.repr left).toList = (Nat.repr right).toList := by
    rcases List.append_eq_append_iff.mp spelled with ⟨mid, -, rest⟩ | ⟨mid, -, rest⟩
    · cases mid with
      | nil => exact (List.cons.inj rest).2
      | cons _ mid =>
          refine absurd ?_ (repr_no_dash left)
          rw [(List.cons.inj rest).2]
          exact List.mem_append_right _ List.mem_cons_self
    · cases mid with
      | nil => exact (List.cons.inj rest).2.symm
      | cons _ mid =>
          refine absurd ?_ (repr_no_dash right)
          rw [(List.cons.inj rest).2]
          exact List.mem_append_right _ List.mem_cons_self
  refine toId_injective "" left right ?_
  rw [toId, toId, String.toList_inj.mp tails]

/-- A row as `putStory` files it, under whatever prefix. -/
structure FiledRow (no : StoryNo) (row : StoryRow) : Prop where
  storyNo : row.storyNo = no
  state : row.state = row.snapshot.state
  superstate : row.superstate = row.snapshot.superstate
  storyType : row.storyType = row.snapshot.storyType
  named : ∃ idPrefix, row.snapshot.id = toId idPrefix no

def Filed (db : Database) : Prop :=
  ∀ (no : StoryNo) row, db.stories[no]? = some row → FiledRow no row

section Effective

variable (db : Database) (filed : Filed db)

theorem mem_rows (row : StoryRow) :
    row ∈ db.stories.values ↔ ∃ no : StoryNo, db.stories[no]? = some row := by
  rw [values_listed, List.mem_map]
  constructor
  · rintro ⟨⟨no, _⟩, member, rfl⟩
    exact ⟨no, Std.TreeMap.mem_toList_iff_getElem?_eq_some.mp member⟩
  · rintro ⟨no, found⟩
    exact ⟨(no, row), Std.TreeMap.mem_toList_iff_getElem?_eq_some.mpr found, rfl⟩

/-- What every story of the project is effectively, worked out in full. -/
def projected : Std.TreeMap StoryNo Effective := effectiveStates db.stories.values db.states

theorem projected_absent (no : StoryNo) (absent : db.stories[no]? = none)
    (keyed : ∀ (other : StoryNo) row, db.stories[other]? = some row → row.storyNo = other) :
    (projected db)[no]? = none := by
  rw [Option.eq_none_iff_forall_ne_some]
  intro state found
  have member := ofList_mem _ _ _ found
  obtain ⟨row, inside, named⟩ := List.mem_filterMap.mp member
  obtain ⟨snapshot, -, same⟩ := Option.map_eq_some_iff.mp named
  obtain ⟨other, stored⟩ := (mem_rows db row).mp inside
  have here : other = no := (keyed other row stored).symm.trans (congrArg Prod.fst same)
  rw [here, absent] at stored
  cases stored

theorem rows_apart {β : Type} (key : StoryRow → β)
    (alike : ∀ (one other : StoryNo) left right, db.stories[one]? = some left →
      db.stories[other]? = some right → key left = key right → one = other) :
    (db.stories.values.map key).Nodup := by
  have apart := Std.TreeMap.distinct_keys_toList (t := db.stories)
  rw [values_listed, List.map_map]
  refine List.pairwise_map.mpr (apart.imp_of_mem ?_)
  intro one other first second differ same
  refine differ (Std.LawfulEqOrd.compare_eq_iff_eq.mpr
    (alike one.1 other.1 one.2 other.2 ?_ ?_ same))
  · exact Std.TreeMap.mem_toList_iff_getElem?_eq_some.mp first
  · exact Std.TreeMap.mem_toList_iff_getElem?_eq_some.mp second

include filed

theorem projected_plain (no : StoryNo) (row : StoryRow) (stored : db.stories[no]? = some row)
    (plain : typedEpic row = false) : (projected db)[no]? = some (row.state, row.superstate) := by
  have inside := (mem_rows db row).mpr ⟨no, stored⟩
  have files := filed no row stored
  have ids : (db.stories.values.map fun row => row.snapshot.id).Nodup := by
    refine rows_apart db _ fun one other left right first second same => ?_
    obtain ⟨_, named⟩ := (filed one left first).named
    obtain ⟨_, names⟩ := (filed other right second).named
    exact toId_number _ _ _ _ (named.symm.trans (same.trans names))
  have snapshot : (Std.TreeMap.ofList (db.stories.values.map fun row =>
      (row.snapshot.id, row.snapshot)))[row.snapshot.id]? = some row.snapshot := by
    refine ofList_of_mem _ ?_ _ _ (List.mem_map_of_mem inside)
    rw [List.map_map]
    exact ids
  have shown : (applyComputedEpicStates (.ofList (db.stories.values.map fun row =>
      (row.snapshot.id, row.snapshot))) db.states)[row.snapshot.id]? = some row.snapshot := by
    rw [applyComputedEpicStates, projectInOrder, Std.TreeMap.getElem?_map, snapshot,
      Option.map_some]
    refine congrArg some (projectEpic_plain _ _ _ ?_)
    rw [isEpic, ← files.storyType]
    exact plain
  refine ofList_of_mem _ ?_ _ _ ?_
  · have numbers : (db.stories.values.map (·.storyNo)).Nodup := by
      refine rows_apart db _ fun one other left right first second same => ?_
      exact (filed one left first).storyNo.symm.trans (same.trans
        (filed other right second).storyNo)
    refine List.pairwise_map.mpr ((List.pairwise_map.mp numbers).filterMap _ ?_)
    intro left right differ one oneOf other otherOf same
    obtain ⟨_, -, rfl⟩ := Option.map_eq_some_iff.mp oneOf
    obtain ⟨_, -, rfl⟩ := Option.map_eq_some_iff.mp otherOf
    exact differ same
  · refine List.mem_filterMap.mpr ⟨row, inside, ?_⟩
    rw [shown, Option.map_some, files.storyNo, files.state, files.superstate]

theorem effective_projected (no : StoryNo) : (effective db)[no]? = (projected db)[no]? := by
  unfold effective
  split
  · rfl
  · next epics =>
      rw [Std.TreeMap.getElem?_map]
      cases stored : db.stories[no]? with
      | none =>
          rw [projected_absent db no stored fun other row found => (filed other row found).storyNo]
          rfl
      | some row =>
          refine (projected_plain db filed no row stored ?_).symm
          rw [Bool.not_eq_true, List.any_eq_false] at epics
          exact Bool.eq_false_iff.mpr (epics row ((mem_rows db row).mpr ⟨no, stored⟩))

end Effective

def Shut (db : Database) (no : StoryNo) : Prop :=
  ∃ state, (projected db)[no]? = some (state, .closed)

theorem shut_plain (db : Database) (filed : Filed db) (no : StoryNo) (row : StoryRow)
    (stored : db.stories[no]? = some row) (plain : typedEpic row = false) :
    Shut db no ↔ row.superstate = .closed := by
  rw [Shut, projected_plain db filed no row stored plain]
  simp

theorem shut_absent (db : Database) (filed : Filed db) (no : StoryNo)
    (absent : db.stories[no]? = none) : ¬ Shut db no := by
  rintro ⟨state, shut⟩
  rw [projected_absent db no absent fun other row found => (filed other row found).storyNo] at shut
  cases shut

variable {Lease : Type}

/-- What may become of an intent while it stands. -/
structure Later (old new : ClosureCleanup Lease) : Prop where
  story : new.story = old.story
  token : new.token = old.token
  generation : new.generation = old.generation
  lease : ∀ lease, old.lease = some lease → new.lease = some lease
  completed : old.completed = true → new.completed = true

theorem Later.refl (record : ClosureCleanup Lease) : Later record record :=
  ⟨rfl, rfl, rfl, fun _ held => held, fun done => done⟩

theorem Later.trans (first second third : ClosureCleanup Lease) (one : Later first second)
    (two : Later second third) : Later first third where
  story := two.story.trans one.story
  token := two.token.trans one.token
  generation := two.generation.trans one.generation
  lease lease held := two.lease lease (one.lease lease held)
  completed done := two.completed (one.completed done)

def Follows (old new : Option (ClosureCleanup Lease)) : Prop :=
  ∀ record, new = some record → ∃ earlier, old = some earlier ∧ Later earlier record

/-- Tables whose intents are those of the closed stories. -/
structure Intended (tables : Closures Lease) : Prop where
  filed : Filed tables.db
  keyed : ∀ (no : StoryNo) record, tables.cleanups[no]? = some record → record.story = no
  closed : ∀ no : StoryNo, (tables.cleanups[no]?).isSome ↔ Shut tables.db no

/-- What the writes of a transaction have come to, and what is noted of them. -/
structure Noted (start now : Closures Lease) (changes : ClosureChanges Lease) : Prop where
  filed : Filed now.db
  unread : changes.project = false → now.db.stories = start.db.stories ∧
    now.db.states = start.db.states ∧ ∀ no : StoryNo, changes.stories[no]? = none
  unwritten : changes.project = true → ∀ no : StoryNo, changes.stories[no]? = none →
    now.db.stories[no]? = start.db.stories[no]? ∧
      ∀ row, now.db.stories[no]? = some row → typedEpic row = false
  noted : ∀ (no : StoryNo) wasClosed before, changes.stories[no]? = some (wasClosed, before) →
    (wasClosed = true ↔ Shut start.db no) ∧ Follows start.cleanups[no]? before ∧
      ((start.cleanups[no]?).isSome → before.isSome)
  follows : ∀ no : StoryNo, Follows start.cleanups[no]? now.cleanups[no]?
  held : ∀ no : StoryNo, changes.stories[no]? = none → (start.cleanups[no]?).isSome →
    (now.cleanups[no]?).isSome

section Notes

variable (start now : Closures Lease) (changes : ClosureChanges Lease)

theorem Noted.begin (intended : Intended start) : Noted start start ⟨∅, false⟩ where
  filed := intended.filed
  unread _ := ⟨rfl, rfl, fun _ => rfl⟩
  unwritten read := by cases read
  noted no wasClosed before inside := by cases inside
  follows no record held := ⟨record, held, Later.refl record⟩
  held _ _ held := held

theorem mem_epicNumbers (db : Database) (no : StoryNo) :
    no ∈ epicNumbers db ↔ ∃ row, db.stories[no]? = some row ∧ typedEpic row = true := by
  rw [epicNumbers, List.mem_map]
  constructor
  · rintro ⟨⟨_, row⟩, member, rfl⟩
    obtain ⟨inside, epic⟩ := List.mem_filter.mp member
    exact ⟨row, Std.TreeMap.mem_toList_iff_getElem?_eq_some.mp inside, epic⟩
  · rintro ⟨row, stored, epic⟩
    refine ⟨(no, row), List.mem_filter.mpr ⟨?_, epic⟩, rfl⟩
    exact Std.TreeMap.mem_toList_iff_getElem?_eq_some.mpr stored

theorem insertAll_get {ν : Type} (value : StoryNo → ν) (numbers : List StoryNo)
    (map : Std.TreeMap StoryNo ν) (no : StoryNo) :
    (numbers.foldl (fun held story => held.insert story (value story)) map)[no]? =
      if no ∈ numbers then some (value no) else map[no]? := by
  induction numbers generalizing map with
  | nil => simp
  | cons story rest further =>
      rw [List.foldl_cons, further]
      by_cases inside : no ∈ rest
      · simp [inside]
      · by_cases same : no = story
        · simp [same]
        · rw [if_neg inside, if_neg (by simp [inside, same]), Std.TreeMap.getElem?_insert, if_neg]
          rw [Std.LawfulEqOrd.compare_eq_iff_eq]
          exact fun equal => same equal.symm

variable (noted : Noted start now changes)

include noted

theorem Noted.write (after : Closures Lease) (filed : Filed after.db)
    (read : changes.project = true)
    (unwritten : ∀ no : StoryNo, changes.stories[no]? = none →
      after.db.stories[no]? = now.db.stories[no]? ∧
        ((now.cleanups[no]?).isSome → (after.cleanups[no]?).isSome))
    (follows : ∀ no : StoryNo, Follows now.cleanups[no]? after.cleanups[no]?) :
    Noted start after changes where
  filed := filed
  unread unread := by
    rw [read] at unread
    cases unread
  unwritten _ no outside := by
    rw [(unwritten no outside).1]
    exact noted.unwritten read no outside
  noted := noted.noted
  follows no record held := by
    obtain ⟨middle, had, last⟩ := follows no record held
    obtain ⟨earlier, first, later⟩ := noted.follows no middle had
    exact ⟨earlier, first, later.trans _ _ _ last⟩
  held no outside held := (unwritten no outside).2 (noted.held no outside held)

theorem Noted.beside (after : Closures Lease) (stories : after.db.stories = now.db.stories)
    (states : after.db.states = now.db.states)
    (lasting : ∀ no : StoryNo, (now.cleanups[no]?).isSome → (after.cleanups[no]?).isSome)
    (follows : ∀ no : StoryNo, Follows now.cleanups[no]? after.cleanups[no]?) :
    Noted start after changes where
  filed no row stored := noted.filed no row (by rwa [stories] at stored)
  unread unread := by
    rw [stories, states]
    exact noted.unread unread
  unwritten read no outside := by
    rw [stories]
    exact noted.unwritten read no outside
  noted := noted.noted
  follows no record held := by
    obtain ⟨middle, had, last⟩ := follows no record held
    obtain ⟨earlier, first, later⟩ := noted.follows no middle had
    exact ⟨earlier, first, later.trans _ _ _ last⟩
  held no outside held := lasting no (noted.held no outside held)

variable (intended : Intended start)

include intended

theorem captureProject_noted : Noted start now (captureProject now changes) ∧
    (captureProject now changes).project = true := by
  cases read : changes.project with
  | true =>
      have same : captureProject now changes = changes := by simp [captureProject, read]
      rw [same]
      exact ⟨noted, read⟩
  | false =>
      obtain ⟨stories, states, empty⟩ := noted.unread read
      have found (no : StoryNo) : (captureProject now changes).stories[no]? =
          if no ∈ epicNumbers now.db then
            some ((now.cleanups[no]?).isSome, now.cleanups[no]?) else none := by
        rw [captureProject, read]
        simp only [Bool.false_eq_true, if_false]
        rw [insertAll_get (fun story => ((now.cleanups[story]?).isSome, now.cleanups[story]?)),
          empty no]
      have done : (captureProject now changes).project = true := by simp [captureProject, read]
      have lasting (no : StoryNo) (held : (start.cleanups[no]?).isSome) :
          (now.cleanups[no]?).isSome := noted.held no (empty no) held
      refine ⟨⟨noted.filed, ?_, ?_, ?_, noted.follows, fun no _ held => lasting no held⟩, done⟩
      · intro unread
        rw [done] at unread
        cases unread
      · intro _ no outside
        rw [found, ite_eq_right_iff] at outside
        refine ⟨by rw [stories], fun row stored => Bool.eq_false_iff.mpr fun epic => ?_⟩
        cases outside ((mem_epicNumbers now.db no).mpr ⟨row, stored, epic⟩)
      · intro no wasClosed before inside
        rw [found, Option.ite_none_right_eq_some] at inside
        obtain ⟨-, same⟩ := inside
        cases same
        refine ⟨?_, noted.follows no, lasting no⟩
        rw [← intended.closed no]
        refine ⟨fun held => ?_, lasting no⟩
        obtain ⟨record, stands⟩ := Option.isSome_iff_exists.mp held
        obtain ⟨earlier, had, -⟩ := noted.follows no record stands
        rw [had]
        rfl

theorem capture_noted (story : StoryNo) : Noted start now (capture now changes story) ∧
    (capture now changes story).project = true ∧
    ∃ note, (capture now changes story).stories[story]? = some note := by
  obtain ⟨noted, read⟩ := captureProject_noted start now changes noted intended
  rw [capture]
  generalize captureProject now changes = captured at noted read
  by_cases inside : captured.stories.contains story = true
  · simp only [inside, if_true]
    refine ⟨noted, read, ?_⟩
    rw [Std.TreeMap.contains_eq_isSome_getElem?] at inside
    exact Option.isSome_iff_exists.mp inside
  · simp only [inside]
    have outside : captured.stories[story]? = none := by
      rw [Std.TreeMap.contains_eq_isSome_getElem?, Option.not_isSome_iff_eq_none] at inside
      exact inside
    obtain ⟨same, plain⟩ := noted.unwritten read story outside
    have found (no : StoryNo) (note : Bool × Option (ClosureCleanup Lease)) :
        (captured.stories.insert story note)[no]? =
          if story = no then some note else captured.stories[no]? := by
      rw [Std.TreeMap.getElem?_insert]
      simp only [Std.LawfulEqOrd.compare_eq_iff_eq]
    refine ⟨⟨noted.filed, ?_, ?_, ?_, noted.follows, ?_⟩, read, ?_⟩
    · intro unread
      rw [show captured.project = false from unread] at read
      cases read
    · intro _ no absent
      simp only [Bool.false_eq_true, if_false] at absent
      rw [found] at absent
      split at absent
      · cases absent
      · exact noted.unwritten read no absent
    · intro no wasClosed before inside
      simp only [Bool.false_eq_true, if_false] at inside
      rw [found] at inside
      split at inside
      · next here =>
          subst here
          cases inside
          refine ⟨?_, noted.follows story, noted.held story outside⟩
          cases stored : now.db.stories[story]? with
          | none =>
              rw [stored] at same
              have open_ := shut_absent start.db intended.filed story same.symm
              simp [open_]
          | some row =>
              rw [stored] at same
              rw [shut_plain start.db intended.filed story row same.symm (plain row stored)]
              simp
      · exact noted.noted no wasClosed before inside
    · intro no absent held
      simp only [Bool.false_eq_true, if_false] at absent
      rw [found] at absent
      split at absent
      · cases absent
      · exact noted.held no absent held
    · simp only [Bool.false_eq_true, if_false]
      exact ⟨_, (found story _).trans (if_pos rfl)⟩

end Notes

theorem updateCleanup_follows [DecidableEq Lease] (tables after : Closures Lease)
    (keyed : ∀ (no : StoryNo) record, tables.cleanups[no]? = some record → record.story = no)
    (record : ClosureCleanup Lease) (answer : Bool)
    (updated : updateCleanup tables record = .ok (answer, after)) :
    after.db = tables.db ∧ ∀ no : StoryNo,
      ((tables.cleanups[no]?).isSome → (after.cleanups[no]?).isSome) ∧
        Follows tables.cleanups[no]? after.cleanups[no]? := by
  have same : ∀ no : StoryNo, ((tables.cleanups[no]?).isSome → (tables.cleanups[no]?).isSome) ∧
      Follows tables.cleanups[no]? tables.cleanups[no]? :=
    fun no => ⟨fun held => held, fun record held => ⟨record, held, Later.refl record⟩⟩
  unfold updateCleanup at updated
  split at updated
  · cases updated
    exact ⟨rfl, same⟩
  · next current stands =>
      split_ifs at updated with token backwards
      · cases updated
        exact ⟨rfl, same⟩
      · cases updated
        simp only [not_or, not_and, not_not] at backwards
        obtain ⟨generation, lease, completed⟩ := backwards
        refine ⟨rfl, fun no => ?_⟩
        rw [Std.TreeMap.getElem?_insert]
        simp only [Std.LawfulEqOrd.compare_eq_iff_eq]
        split
        · next here =>
            subst here
            refine ⟨fun _ => rfl, fun new wrote => ?_⟩
            cases wrote
            have token := not_not.mp token
            refine ⟨current, stands, (keyed _ current stands).symm, token.symm,
              generation.symm, ?_, ?_⟩
            · intro held leased
              rw [leased] at lease
              exact (lease rfl).symm
            · intro done
              exact Bool.not_eq_false _ ▸ completed done
        · exact same no

section Write

variable [DecidableEq Lease] (start : Closures Lease) (intended : Intended start)

include intended

theorem write_noted (write : ClosureWrite Lease)
    (state after : Closures Lease × ClosureChanges Lease)
    (noted : Noted start state.1 state.2) (ran : write.run state = .ok after) :
    Noted start after.1 after.2 := by
  obtain ⟨now, changes⟩ := state
  have still (no : StoryNo) : Follows now.cleanups[no]? now.cleanups[no]? :=
    fun record held => ⟨record, held, Later.refl record⟩
  cases write with
  | putStory snapshot head =>
      simp only [ClosureWrite.run, bind_eq_ok, pure_eq_ok] at ran
      obtain ⟨story, parsed, db, put, rfl⟩ := ran
      obtain ⟨noted, read, note, inside⟩ := capture_noted start now changes noted intended story
      obtain ⟨_, parses, change⟩ := putStory_put now.db db snapshot head put
      rw [parsed] at parses
      cases parses
      have found (no : StoryNo) : db.stories[no]? =
          if story = no then some (storyRow now.db story snapshot head) else now.db.stories[no]? := by
        rw [change.stories, Std.TreeMap.getElem?_insert]
        simp only [Std.LawfulEqOrd.compare_eq_iff_eq]
      refine noted.write start now _ ⟨db, now.cleanups⟩ ?_ read ?_ still
      · intro no row stored
        rw [found] at stored
        split at stored
        · next here =>
            subst here
            cases stored
            exact ⟨rfl, rfl, rfl, rfl, _, ((parseId_ok _ _ _).mp parsed).1⟩
        · exact noted.filed no row stored
      · intro no outside
        refine ⟨?_, fun held => held⟩
        rw [found, if_neg]
        rintro rfl
        rw [inside] at outside
        cases outside
  | purgeStory story =>
      simp only [ClosureWrite.run, bind_eq_ok, pure_eq_ok] at ran
      obtain ⟨db, purged, rfl⟩ := ran
      obtain ⟨noted, read, note, inside⟩ := capture_noted start now changes noted intended story
      have stories : db.stories = now.db.stories.erase story := by
        unfold purgeStory at purged
        split at purged <;> cases purged
        rfl
      refine noted.write start now _ ⟨db, now.cleanups.erase story⟩ ?_ read ?_ ?_
      · intro no row stored
        rw [stories, Std.TreeMap.getElem?_erase] at stored
        split at stored
        · cases stored
        · exact noted.filed no row stored
      · intro no outside
        have other : ¬ compare story no = .eq := by
          rw [Std.LawfulEqOrd.compare_eq_iff_eq]
          rintro rfl
          rw [inside] at outside
          cases outside
        refine ⟨?_, fun held => ?_⟩
        · rw [stories, Std.TreeMap.getElem?_erase, if_neg other]
        · rwa [Std.TreeMap.getElem?_erase, if_neg other]
      · intro no record held
        rw [Std.TreeMap.getElem?_erase] at held
        split at held
        · cases held
        · exact ⟨record, held, Later.refl record⟩
  | putStates states =>
      cases ran
      obtain ⟨noted, read⟩ := captureProject_noted start now changes noted intended
      exact noted.write start now _ _ noted.filed read (fun _ _ => ⟨rfl, fun held => held⟩) still
  | setPrefix idPrefix =>
      cases ran
      exact noted.beside start now changes _ rfl rfl (fun _ held => held) still
  | putSettings automationsEnabled =>
      cases ran
      exact noted.beside start now changes _ rfl rfl (fun _ held => held) still
  | appendEvents story expected events =>
      simp only [ClosureWrite.run, bind_eq_ok, pure_eq_ok] at ran
      obtain ⟨⟨db, head⟩, appended, rfl⟩ := ran
      have change := appendEvents_ok now.db db story expected events head appended
      exact noted.beside start now changes _ change.stories change.states (fun _ held => held) still
  | updateCleanup record =>
      simp only [ClosureWrite.run, bind_eq_ok, pure_eq_ok] at ran
      obtain ⟨⟨answer, tables⟩, updated, rfl⟩ := ran
      have keyed (no : StoryNo) (held : ClosureCleanup Lease)
          (stands : now.cleanups[no]? = some held) : held.story = no := by
        obtain ⟨earlier, had, later⟩ := noted.follows no held stands
        exact later.story.trans (intended.keyed no earlier had)
      obtain ⟨same, moved⟩ := updateCleanup_follows now tables keyed record answer updated
      exact noted.beside start now changes tables (by rw [same]) (by rw [same])
        (fun no => (moved no).1) (fun no => (moved no).2)

end Write

end Storyhook.Store
