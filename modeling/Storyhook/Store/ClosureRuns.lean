import Mathlib.Data.List.Infix
import Storyhook.Store.ClosureNotes
import Storyhook.Store.RelationClosure

/-! Over a run of transactions the intents of a project are those of its closed stories, one for
each time a story is closed. -/

namespace Storyhook.Store

open Storyhook.Domain
open Library Library.Outcome

variable {Lease : Type}

/-- What a commit leaves as the intent of a story that was noted. -/
def settled (tables : Closures Lease) (leaseOf : StoredEvent → Lease) (draw : StoryNo → String)
    (states : Std.TreeMap StoryNo Effective) (story : StoryNo)
    (noted : Bool × Option (ClosureCleanup Lease)) : Option (ClosureCleanup Lease) :=
  if !tables.db.automationsEnabled then tables.cleanups[story]?
  else
    (closedRow tables states story).bind fun row =>
      let fresh := newCleanup tables leaseOf (draw story) story row
      if noted.1 then tables.cleanups[story]?.or (some (noted.2.getD fresh)) else some fresh

section Finish

variable (leaseOf : StoredEvent → Lease) (draw : StoryNo → String)

theorem insertCleanup_ok (tables after : Closures Lease) (record : ClosureCleanup Lease)
    (inserted : insertCleanup tables record = .ok after) :
    after = { tables with cleanups := tables.cleanups.insert record.story record } := by
  unfold insertCleanup at inserted
  split at inserted
  · cases inserted
  · exact (Except.ok.inj inserted).symm

theorem settle_ok (states : Std.TreeMap StoryNo Effective) (tables after : Closures Lease)
    (story : StoryNo) (noted : Bool × Option (ClosureCleanup Lease))
    (own : ∀ record, noted.2 = some record → record.story = story)
    (ran : settle tables leaseOf draw states story noted = .ok after) :
    after.db = tables.db ∧ ∀ no : StoryNo, after.cleanups[no]? =
      if story = no then settled tables leaseOf draw states story noted
      else tables.cleanups[no]? := by
  have kept (no : StoryNo) : tables.cleanups[no]? =
      if story = no then tables.cleanups[story]? else tables.cleanups[no]? := by
    split
    · next here => rw [here]
    · rfl
  have written (record : ClosureCleanup Lease) (mine : record.story = story)
      (inserted : insertCleanup tables record = .ok after) :
      after.db = tables.db ∧ ∀ no : StoryNo, after.cleanups[no]? =
        if story = no then some record else tables.cleanups[no]? := by
    rw [insertCleanup_ok tables after record inserted]
    refine ⟨rfl, fun no => ?_⟩
    rw [Std.TreeMap.getElem?_insert, mine]
    simp only [Std.LawfulEqOrd.compare_eq_iff_eq]
  unfold settle at ran
  unfold settled
  by_cases disabled : (!tables.db.automationsEnabled) = true
  · rw [if_pos disabled] at ran ⊢
    cases ran
    exact ⟨rfl, kept⟩
  · rw [if_neg disabled] at ran ⊢
    cases shown : closedRow tables states story with
    | none =>
        rw [shown] at ran
        cases ran
        refine ⟨rfl, fun no => ?_⟩
        rw [Std.TreeMap.getElem?_erase]
        simp only [Std.LawfulEqOrd.compare_eq_iff_eq, Option.bind_none]
    | some row =>
        rw [shown] at ran
        simp only [Option.bind_some] at ran ⊢
        by_cases closed : noted.1 = true
        · rw [if_pos closed] at ran ⊢
          by_cases stands : tables.cleanups.contains story = true
          · rw [if_pos stands] at ran
            cases ran
            rw [Std.TreeMap.contains_eq_isSome_getElem?] at stands
            rw [Option.or_of_isSome stands]
            exact ⟨rfl, kept⟩
          · rw [if_neg stands] at ran
            rw [Std.TreeMap.contains_eq_isSome_getElem?, Option.not_isSome_iff_eq_none] at stands
            rw [stands, Option.none_or]
            refine written _ ?_ ran
            cases before : noted.2 with
            | none => rfl
            | some record => exact own record before
        · rw [if_neg closed] at ran ⊢
          exact written _ rfl ran

theorem settled_congr (tables other : Closures Lease) (states : Std.TreeMap StoryNo Effective)
    (story : StoryNo) (noted : Bool × Option (ClosureCleanup Lease)) (db : other.db = tables.db)
    (same : other.cleanups[story]? = tables.cleanups[story]?) :
    settled other leaseOf draw states story noted =
      settled tables leaseOf draw states story noted := by
  simp only [settled, closedRow, newCleanup, db, same]

/-- The noted stories that a commit has settled so far, and no others. -/
def Settling (tables : Closures Lease)
    (done : List (StoryNo × Bool × Option (ClosureCleanup Lease)))
    (state : Closures Lease) : Prop :=
  state.db = tables.db ∧ ∀ no : StoryNo,
    (∀ note, (no, note) ∈ done →
      state.cleanups[no]? = settled tables leaseOf draw (effective tables.db) no note) ∧
    ((∀ note, (no, note) ∉ done) → state.cleanups[no]? = tables.cleanups[no]?)

theorem Settling.step (tables before after : Closures Lease) (story : StoryNo)
    (done : List (StoryNo × Bool × Option (ClosureCleanup Lease)))
    (note : Bool × Option (ClosureCleanup Lease)) (fresh : ∀ other, (story, other) ∉ done)
    (own : ∀ record, note.2 = some record → record.story = story)
    (swept : Settling leaseOf draw tables done before)
    (ran : settle before leaseOf draw (effective tables.db) story note = .ok after) :
    Settling leaseOf draw tables (done ++ [(story, note)]) after := by
  obtain ⟨db, settles⟩ := swept
  obtain ⟨same, moved⟩ := settle_ok leaseOf draw
    (effective tables.db) before after story note own ran
  refine ⟨same.trans db, fun no => ?_⟩
  rw [moved no]
  by_cases here : story = no
  · subst here
    rw [if_pos rfl, settled_congr leaseOf draw tables before _ story note db
      ((settles story).2 fresh)]
    constructor
    · intro other member
      rcases List.mem_append.mp member with earlier | last
      · exact absurd earlier (fresh other)
      · cases List.mem_singleton.mp last
        rfl
    · intro outside
      exact absurd (List.mem_append_right done List.mem_cons_self) (outside note)
  · rw [if_neg here]
    constructor
    · intro other member
      rcases List.mem_append.mp member with earlier | last
      · exact (settles no).1 other earlier
      · cases List.mem_singleton.mp last
        exact absurd rfl here
    · intro outside
      exact (settles no).2 fun other member => outside other (List.mem_append_left _ member)

theorem finish_ok (tables after : Closures Lease) (changes : ClosureChanges Lease)
    (own : ∀ (no : StoryNo) note, changes.stories[no]? = some note →
      ∀ record, note.2 = some record → record.story = no)
    (ran : finish tables changes leaseOf draw = .ok after) :
    after.db = tables.db ∧ ∀ no : StoryNo, after.cleanups[no]? =
      match changes.stories[no]? with
      | none => tables.cleanups[no]?
      | some note => settled tables leaseOf draw (effective tables.db) no note := by
  have apart := Std.TreeMap.distinct_keys_toList (t := changes.stories)
  have listed (no : StoryNo) note : (no, note) ∈ changes.stories.toList ↔
      changes.stories[no]? = some note := Std.TreeMap.mem_toList_iff_getElem?_eq_some
  have swept : Settling leaseOf draw tables changes.stories.toList after := by
    refine foldlM_ok _ (Settling leaseOf draw tables) changes.stories.toList ?_ tables after
      ⟨rfl, fun no => ⟨by simp, fun _ => rfl⟩⟩ ran
    rintro done ⟨story, note⟩ rest before middle split swept stepped
    refine swept.step leaseOf draw tables before middle story done note ?_
      (own story note ?_) stepped
    · intro other earlier
      rw [split, List.pairwise_append] at apart
      exact apart.2.2 _ earlier _ List.mem_cons_self Std.ReflCmp.compare_self
    · rw [← listed, split]
      exact List.mem_append_right _ List.mem_cons_self
  refine ⟨swept.1, fun no => ?_⟩
  cases found : changes.stories[no]? with
  | none =>
      refine (swept.2 no).2 fun note member => ?_
      rw [listed, found] at member
      cases member
  | some note => exact (swept.2 no).1 note ((listed no note).mpr found)

end Finish

/-- What a commit does to the intent of one story. -/
structure Lived (leaseOf : StoredEvent → Lease) (draw : StoryNo → String)
    (before after : Closures Lease) (no : StoryNo) : Prop where
  still : Shut before.db no → Shut after.db no → ∃ old new, before.cleanups[no]? = some old ∧
    after.cleanups[no]? = some new ∧ Later old new
  closed : ¬ Shut before.db no → Shut after.db no → ∃ row, after.db.stories[no]? = some row ∧
    after.cleanups[no]? = some (newCleanup after leaseOf (draw no) no row)
  opened : ¬ Shut after.db no → after.cleanups[no]? = none

section Commit

variable (leaseOf : StoredEvent → Lease) (draw : StoryNo → String)

theorem Intended.lived (start after : Closures Lease) (intended : Intended start)
    (filed : Filed after.db) (lived : ∀ no, Lived leaseOf draw start after no) :
    Intended after where
  filed := filed
  keyed no record stands := by
    by_cases is : Shut after.db no
    · by_cases was : Shut start.db no
      · obtain ⟨old, new, had, here, later⟩ := (lived no).still was is
        rw [here] at stands
        cases stands
        exact later.story.trans (intended.keyed no old had)
      · obtain ⟨row, -, here⟩ := (lived no).closed was is
        rw [here] at stands
        cases stands
        rfl
    · rw [(lived no).opened is] at stands
      cases stands
  closed no := by
    by_cases is : Shut after.db no
    · refine iff_of_true ?_ is
      by_cases was : Shut start.db no
      · obtain ⟨old, new, -, here, -⟩ := (lived no).still was is
        rw [here]
        rfl
      · obtain ⟨row, -, here⟩ := (lived no).closed was is
        rw [here]
        rfl
    · rw [(lived no).opened is]
      exact iff_of_false (by simp) is

theorem closedRow_iff (tables : Closures Lease) (filed : Filed tables.db) (no : StoryNo) :
    (∃ row, closedRow tables (effective tables.db) no = some row ∧
        tables.db.stories[no]? = some row) ∧ Shut tables.db no ∨
      closedRow tables (effective tables.db) no = none ∧ ¬ Shut tables.db no := by
  have shut : ((effective tables.db)[no]?).any (·.2 == .closed) = true ↔ Shut tables.db no := by
    rw [Shut, effective_projected tables.db filed no]
    cases (projected tables.db)[no]? with
    | none => simp
    | some state =>
        obtain ⟨slug, superstate⟩ := state
        simp
  rw [closedRow]
  cases stored : tables.db.stories[no]? with
  | none => exact Or.inr ⟨rfl, shut_absent tables.db filed no stored⟩
  | some row =>
      rw [Option.filter_some]
      by_cases closed : Shut tables.db no
      · exact Or.inl ⟨⟨row, if_pos (shut.mpr closed), rfl⟩, closed⟩
      · exact Or.inr ⟨if_neg fun found => closed (shut.mp found), closed⟩

theorem Noted.shut_iff (start now : Closures Lease) (changes : ClosureChanges Lease)
    (noted : Noted start now changes) (filed : Filed start.db) (no : StoryNo)
    (outside : changes.stories[no]? = none) : Shut now.db no ↔ Shut start.db no := by
  cases read : changes.project with
  | false =>
      obtain ⟨stories, states, -⟩ := noted.unread read
      rw [Shut, Shut, projected, projected, stories, states]
  | true =>
      obtain ⟨same, plain⟩ := noted.unwritten read no outside
      cases stored : now.db.stories[no]? with
      | none =>
          rw [stored] at same
          exact iff_of_false (shut_absent now.db noted.filed no stored)
            (shut_absent start.db filed no same.symm)
      | some row =>
          rw [stored] at same
          rw [shut_plain now.db noted.filed no row stored (plain row stored),
            shut_plain start.db filed no row same.symm (plain row stored)]

theorem Noted.own (start now : Closures Lease) (changes : ClosureChanges Lease)
    (noted : Noted start now changes) (intended : Intended start) (no : StoryNo)
    (note : Bool × Option (ClosureCleanup Lease)) (found : changes.stories[no]? = some note)
    (record : ClosureCleanup Lease) (before : note.2 = some record) : record.story = no := by
  obtain ⟨-, follows, -⟩ := noted.noted no note.1 note.2 found
  obtain ⟨earlier, had, later⟩ := follows record before
  exact later.story.trans (intended.keyed no earlier had)

theorem settled_lived (start now after : Closures Lease) (changes : ClosureChanges Lease)
    (intended : Intended start) (noted : Noted start now changes)
    (enabled : now.db.automationsEnabled = true)
    (ran : finish now changes leaseOf draw = .ok after) :
    after.db = now.db ∧ ∀ no, Lived leaseOf draw start after no := by
  obtain ⟨db, settles⟩ := finish_ok leaseOf draw now after changes
    (noted.own start now changes intended) ran
  refine ⟨db, fun no => ?_⟩
  have settles := settles no
  cases found : changes.stories[no]? with
  | none =>
      rw [found] at settles
      have same : Shut after.db no ↔ Shut start.db no := by
        rw [db]
        exact noted.shut_iff start now changes intended.filed no found
      refine ⟨fun was _ => ?_, fun was is => absurd (same.mp is) was, fun was => ?_⟩
      · obtain ⟨new, stands⟩ := Option.isSome_iff_exists.mp
          (noted.held no found ((intended.closed no).mpr was))
        obtain ⟨old, had, later⟩ := noted.follows no new stands
        exact ⟨old, new, had, settles.trans stands, later⟩
      · rw [settles, Option.eq_none_iff_forall_ne_some]
        intro new stands
        obtain ⟨old, had, -⟩ := noted.follows no new stands
        rw [same, ← intended.closed no, had] at was
        exact was rfl
  | some note =>
      obtain ⟨wasClosed, before⟩ := note
      obtain ⟨was, follows, lasts⟩ := noted.noted no wasClosed before found
      rw [found] at settles
      simp only [settled, enabled, Bool.not_true, Bool.false_eq_true, if_false] at settles
      rcases closedRow_iff now noted.filed no with ⟨⟨row, shown, stored⟩, closed⟩ | ⟨none, opened⟩
      · rw [shown, Option.bind_some] at settles
        refine ⟨fun start_ _ => ?_, fun start_ _ => ?_, fun is => ?_⟩
        · rw [if_pos (was.mpr start_)] at settles
          obtain ⟨old, had⟩ := Option.isSome_iff_exists.mp ((intended.closed no).mpr start_)
          cases stands : now.cleanups[no]? with
          | some new =>
              obtain ⟨earlier, first, later⟩ := noted.follows no new stands
              rw [stands, Option.some_or] at settles
              exact ⟨earlier, new, first, settles, later⟩
          | none =>
              obtain ⟨new, kept⟩ := Option.isSome_iff_exists.mp (lasts (by rw [had]; rfl))
              obtain ⟨earlier, first, later⟩ := follows new kept
              rw [stands, Option.none_or, kept, Option.getD_some] at settles
              exact ⟨earlier, new, first, settles, later⟩
        · rw [if_neg fun closed => start_ (was.mp closed)] at settles
          refine ⟨row, by rwa [db], ?_⟩
          rw [settles, newCleanup, newCleanup, db]
        · rw [db] at is
          exact absurd closed is
      · rw [none, Option.bind_none] at settles
        refine ⟨fun _ is => ?_, fun _ is => ?_, fun _ => settles⟩
        · rw [db] at is
          exact absurd is opened
        · rw [db] at is
          exact absurd is opened

end Commit

section Runs

variable [DecidableEq Lease] (leaseOf : StoredEvent → Lease)

theorem commit_lived (start after : Closures Lease) (transaction : ClosureTransaction Lease)
    (intended : Intended start) (committed : transaction.commit leaseOf start = .ok after)
    (enabled : after.db.automationsEnabled = true) :
    Intended after ∧ ∀ no, Lived leaseOf transaction.draw start after no := by
  simp only [ClosureTransaction.commit, bind_eq_ok, pure_eq_ok] at committed
  obtain ⟨⟨now, changes⟩, wrote, settled, finished, db, checked, rfl⟩ := committed
  have noted : Noted start now changes := foldlM_ok _
    (fun _ (state : Closures Lease × ClosureChanges Lease) => Noted start state.1 state.2)
    transaction.writes
    (fun _ write _ before after _ noted ran =>
      write_noted start intended write before after noted ran)
    (start, ⟨∅, false⟩) (now, changes) (Noted.begin start intended) wrote
  have same : db = settled.db := by
    unfold Store.commit at checked
    split at checked <;> cases checked
    rfl
  subst same
  obtain ⟨fold, -⟩ := finish_ok leaseOf transaction.draw now settled changes
    (noted.own start now changes intended) finished
  obtain ⟨-, lived⟩ := settled_lived leaseOf transaction.draw start now settled changes intended
    noted (by rw [← fold]; exact enabled) finished
  exact ⟨intended.lived leaseOf transaction.draw start settled
    (by rw [fold]; exact noted.filed) lived,
    lived⟩

theorem perform_cases (start : Closures Lease) (transaction : ClosureTransaction Lease) :
    transaction.perform leaseOf start = start ∨
      transaction.commit leaseOf start = .ok (transaction.perform leaseOf start) := by
  rw [ClosureTransaction.perform]
  cases transaction.commit leaseOf start with
  | error failure => exact Or.inl rfl
  | ok after => exact Or.inr rfl

theorem runClosures_concat (start : Closures Lease) (run : List (ClosureTransaction Lease))
    (last : ClosureTransaction Lease) : runClosures leaseOf start (run ++ [last]) =
      last.perform leaseOf (runClosures leaseOf start run) := by
  rw [runClosures, List.foldl_append]
  rfl

/-- No transaction of a run leaves the project's automations off. -/
def Automated (start : Closures Lease) (run : List (ClosureTransaction Lease)) : Prop :=
  ∀ before, before <+: run → (runClosures leaseOf start before).db.automationsEnabled = true

theorem closures_kept (start : Closures Lease) (run : List (ClosureTransaction Lease))
    (intended : Intended start) (automated : Automated leaseOf start run) :
    Intended (runClosures leaseOf start run) := by
  induction run using List.reverseRecOn with
  | nil => exact intended
  | append_singleton before last further =>
      have middle := further fun earlier inside =>
        automated earlier (inside.trans (List.prefix_append before [last]))
      have enabled := automated (before ++ [last]) (List.prefix_refl _)
      rw [runClosures_concat] at enabled ⊢
      rcases perform_cases leaseOf (runClosures leaseOf start before) last with stays | committed
      · rwa [stays]
      · exact (commit_lived leaseOf _ _ last middle committed enabled).1

/-- Over any transactions that leave automations on, the stories that have an intent are the closed
ones, an epic being closed by its children; and what the commits read of the stories is their
projection, whether or not there was an epic to project. -/
theorem cleanups_of_closed (start : Closures Lease) (run : List (ClosureTransaction Lease))
    (intended : Intended start) (automated : Automated leaseOf start run) (no : StoryNo) :
    let tables := runClosures leaseOf start run
    ((tables.cleanups[no]?).isSome ↔ ∃ state, (projected tables.db)[no]? = some (state, .closed)) ∧
      (effective tables.db)[no]? = (projected tables.db)[no]? := by
  have kept := closures_kept leaseOf start run intended automated
  exact ⟨kept.closed no, effective_projected _ kept.filed no⟩

/-- The story is closed after every transaction of a run, and was before. -/
def ShutThroughout (start : Closures Lease) (run : List (ClosureTransaction Lease)) (no : StoryNo) :
    Prop :=
  ∀ before, before <+: run → Shut (runClosures leaseOf start before).db no

theorem shutThroughout_concat (start : Closures Lease) (run : List (ClosureTransaction Lease))
    (last : ClosureTransaction Lease) (no : StoryNo) :
    ShutThroughout leaseOf start (run ++ [last]) no ↔ ShutThroughout leaseOf start run no ∧
      Shut (runClosures leaseOf start (run ++ [last])).db no := by
  constructor
  · intro shut
    exact ⟨fun before inside => shut before (inside.trans (List.prefix_append run [last])),
      shut (run ++ [last]) (List.prefix_refl _)⟩
  · rintro ⟨earlier, final⟩ before inside
    rcases List.prefix_concat_iff.mp inside with rfl | within
    · exact final
    · exact earlier before within

theorem intent_came (start : Closures Lease) (run : List (ClosureTransaction Lease))
    (intended : Intended start) (automated : Automated leaseOf start run) (no : StoryNo)
    (new : ClosureCleanup Lease)
    (stands : (runClosures leaseOf start run).cleanups[no]? = some new) :
    ShutThroughout leaseOf start run no ∧
        (∃ old, start.cleanups[no]? = some old ∧ Later old new) ∨
      ¬ ShutThroughout leaseOf start run no ∧ ∃ transaction ∈ run, new.token =
        transaction.draw no := by
  induction run using List.reverseRecOn generalizing new with
  | nil =>
      refine Or.inl ⟨fun before inside => ?_, new, stands, Later.refl new⟩
      rw [List.prefix_nil.mp inside]
      refine (intended.closed no).mp ?_
      rw [show start.cleanups[no]? = some new from stands]
      rfl
  | append_singleton before last further =>
      have automates : Automated leaseOf start before := fun earlier inside =>
        automated earlier (inside.trans (List.prefix_append before [last]))
      have middle := closures_kept leaseOf start before intended automates
      have final := closures_kept leaseOf start (before ++ [last]) intended automated
      have shut : Shut (runClosures leaseOf start (before ++ [last])).db no := by
        rw [← final.closed no, stands]
        rfl
      rw [shutThroughout_concat, and_iff_left shut]
      have enabled := automated (before ++ [last]) (List.prefix_refl _)
      rw [runClosures_concat] at stands shut enabled
      -- What the run before the last transaction says of an intent that this one carried on.
      have carried (old : ClosureCleanup Lease) (later : Later old new)
          (had : (runClosures leaseOf start before).cleanups[no]? = some old) :
          ShutThroughout leaseOf start before no ∧
              (∃ first, start.cleanups[no]? = some first ∧ Later first new) ∨
            ¬ ShutThroughout leaseOf start before no ∧
              ∃ transaction ∈ before ++ [last], new.token = transaction.draw no := by
        rcases further automates old had with ⟨closed, first, began, later_⟩ | ⟨opened, drawn⟩
        · exact Or.inl ⟨closed, first, began, later_.trans _ _ _ later⟩
        · obtain ⟨transaction, inside, same⟩ := drawn
          exact Or.inr ⟨opened, transaction, List.mem_append_left _ inside, later.token.trans same⟩
      rcases perform_cases leaseOf (runClosures leaseOf start before) last with stays | committed
      · rw [stays] at stands
        exact carried new (Later.refl new) stands
      · obtain ⟨-, lived⟩ := commit_lived leaseOf _ _ last middle committed enabled
        by_cases was : Shut (runClosures leaseOf start before).db no
        · obtain ⟨old, other, had, here, later⟩ := (lived no).still was shut
          rw [here] at stands
          cases stands
          exact carried old later had
        · obtain ⟨row, -, here⟩ := (lived no).closed was shut
          rw [here] at stands
          cases stands
          refine Or.inr ⟨fun closed => was (closed before (List.prefix_refl _)), last, ?_, rfl⟩
          exact List.mem_append_right _ List.mem_cons_self

/-- An intent lasts as long as its story stays closed, with its token, its generation and whatever
lease it has taken, and no longer: what a story closed again later has is another. -/
theorem closure_lifecycle (start : Closures Lease) (run : List (ClosureTransaction Lease))
    (intended : Intended start) (automated : Automated leaseOf start run) (no : StoryNo)
    (old new : ClosureCleanup Lease) (had : start.cleanups[no]? = some old)
    (fresh : ∀ transaction ∈ run, transaction.draw no ≠ old.token)
    (stands : (runClosures leaseOf start run).cleanups[no]? = some new) :
    (new.token = old.token ↔ ShutThroughout leaseOf start run no) ∧
      (ShutThroughout leaseOf start run no → Later old new) := by
  rcases intent_came leaseOf start run intended automated no new stands with
    ⟨closed, first, began, later⟩ | ⟨opened, transaction, inside, drawn⟩
  · rw [had] at began
    cases began
    exact ⟨iff_of_true later.token closed, fun _ => later⟩
  · refine ⟨iff_of_false ?_ opened, fun closed => absurd closed opened⟩
    rw [drawn]
    exact fresh transaction inside

end Runs

def familySnapshot (id storyType state : String) (superstate : SuperState)
    (relationships : List StoryRelation) : StorySnapshot :=
  { (default : StorySnapshot) with
    id := id
    state := state
    superstate := superstate
    storyType := some storyType
    priority := .low
    relationships := relationships
    closedAt := if superstate = .closed then some "2026-09-29T00:00:00Z" else none }

def familyTables : Closures Unit where
  db := { blankProject with states := plainStates }
  cleanups := ∅

def putChild (state : String) (superstate : SuperState) (token : StoryNo → String) :
    ClosureTransaction Unit where
  writes := [.putStory (familySnapshot "SH-2" "normal" state superstate [⟨"child-of", "SH-1"⟩]) 0]
  draw := token

def putFamily : ClosureTransaction Unit where
  writes := [
    .putStory (familySnapshot "SH-1" "epic" "todo" .open [⟨"parent-of", "SH-2"⟩]) 0,
    .putStory (familySnapshot "SH-2" "normal" "todo" .open [⟨"child-of", "SH-1"⟩]) 0]
  draw no := "family-" ++ Nat.repr no

theorem familyTables_intended : Intended familyTables where
  filed no row stored := by cases stored
  keyed no record stands := by cases stands
  closed no := by
    refine iff_of_false (fun held => by cases held) (shut_absent _ ?_ no rfl)
    intro no row stored
    cases stored

def closeChild : ClosureTransaction Unit := putChild "done" .closed fun no => "first-" ++ Nat.repr no

def closedFamily : Closures Unit := runClosures (fun _ => ()) familyTables [putFamily, closeChild]

def reopening : List (ClosureTransaction Unit) :=
  [putChild "todo" .open fun no => "none-" ++ Nat.repr no,
   putChild "done" .closed fun no => "second-" ++ Nat.repr no]

theorem automated_inits (start : Closures Unit) (run : List (ClosureTransaction Unit))
    (each : (run.inits.all fun before =>
      (runClosures (fun _ => ()) start before).db.automationsEnabled) = true) :
    Automated (fun _ => ()) start run :=
  fun before inside => List.all_eq_true.mp each before ((List.mem_inits _ _).mpr inside)

theorem automated_closing : Automated (fun _ => ()) familyTables [putFamily, closeChild] :=
  automated_inits _ _ (by decide +kernel)

/-- The epic is closed by its child. -/
theorem cleanups_of_closed_family :
    ∃ state, (projected closedFamily.db)[1]? = some (state, .closed) :=
  (cleanups_of_closed (fun _ => ()) familyTables [putFamily, closeChild] familyTables_intended
    automated_closing 1).1.mp (by decide +kernel)

/-- The epic's intent after its child was reopened and closed again has a token of its own. -/
theorem closure_lifecycle_reopened : ¬ ShutThroughout (fun _ => ()) closedFamily reopening 1 := by
  have lived := closure_lifecycle (fun _ => ()) closedFamily reopening
    (closures_kept _ _ _ familyTables_intended automated_closing)
    (automated_inits _ _ (by decide +kernel)) 1 ⟨1, "first-1", 0, none, false, none, none⟩
    ⟨1, "second-1", 0, none, false, none, none⟩ (by decide +kernel)
    (fun transaction inside => by
      have each : (reopening.all fun transaction => transaction.draw 1 != "first-1") = true := by
        decide +kernel
      exact bne_iff_ne.mp (List.all_eq_true.mp each transaction inside))
    (by decide +kernel)
  intro closed
  exact absurd (lived.1.mpr closed) (by decide)

end Storyhook.Store
