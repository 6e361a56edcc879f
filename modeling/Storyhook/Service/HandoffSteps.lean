import Storyhook.Library.Runs
import Storyhook.Service.HandoffMonitor

/-! What an act can do to the continuations, and what holds of them at any moment. -/

namespace Storyhook.Service.Handoffs

open Storyhook.Store
open Library Library.Outcome

/-- The row a copy was read from is as it was, unless it has been written since. -/
def Copy (rows : Rows) (record : Continuation) : Prop :=
  ∃ row ∈ rows, row.id = record.id ∧ row.story = record.story ∧ record.revision ≤ row.revision ∧
    (row.revision = record.revision → row = record)

/-- A copy that was changed and has not been written. -/
structure Draft (rows : Rows) (base record : Continuation) : Prop where
  copy : Copy rows base
  id : record.id = base.id
  story : record.story = base.story
  handoff : record.handoff = base.handoff
  generation : record.generation = base.generation
  revision : record.revision = base.revision

def Waiting (record : Continuation) : Prop :=
  record.status = .pending ∨ record.status = .awaitingAck

def Monitor.Held (rows : Rows) : Monitor → Prop
  | .starting | .idle => True
  | .recovering rest => ∀ record ∈ rest, Copy rows record ∧ record.status = .attempting
  | .pass rest => ∀ record ∈ rest, Copy rows record ∧ monitored record = true
  | .holding record rest | .ineligible _ record rest | .observing record rest
  | .absent record rest | .launching record rest =>
      (Copy rows record ∧ Waiting record) ∧
        ∀ record ∈ rest, Copy rows record ∧ monitored record = true
  | .resuming record rest =>
      (Copy rows record ∧ record.status = .attempting) ∧
        ∀ record ∈ rest, Copy rows record ∧ monitored record = true
  | .saving record rest =>
      (∃ base, Draft rows base record ∧
        (record.status = .needsAttention ∧ monitored base = true ∨
          record.status = .awaitingAck ∧ base.status = .attempting)) ∧
        ∀ record ∈ rest, Copy rows record ∧ monitored record = true

structure Sound (project : Project) : Prop where
  ids : (project.rows.map (·.id)).Nodup
  alone : ∀ row ∈ project.rows, ∀ other ∈ project.rows, row.story = other.story →
    row.status.outstanding = true → other.status.outstanding = true → row.id = other.id
  context : ∀ row ∈ project.rows, row.status.outstanding = true → row.handoff.kind = .context
  held : project.monitor.Held project.rows
  retries : ∀ record ∈ project.retries, Copy project.rows record

inductive Turned (project : Project) : HandoffAct → Continuation → Continuation → Prop
  | noted (story : StoryNo) (id : String) (input : CompactionReceipt) (row next : Continuation)
      (outstanding : row.status.outstanding = true) (status : next.status = row.status) :
      Turned project (.receipted story id input) row next
  | acked (headSeq : Int) (story : StoryNo) (id : String) (review : Review)
      (row next : Continuation) (named : row.id = id ∧ row.story = story)
      (reached : row.status ≠ .pending ∧ row.status ≠ .superseded)
      (session : row.capture.provider = review.provider ∧ row.capture.sessionId = review.sessionId)
      (status : next.status = .acknowledged) (current : headSeq = review.sequence)
      (reviewed : next.reviewedSeq = some review.sequence ∧ next.reviewedHead = some review.head) :
      Turned project (.acked headSeq story id review) row next
  | retried (observedAbsent : Bool) (row next : Continuation)
      (uncertain : row.status = .needsAttention) (status : next.status = .pending) :
      Turned project (.retried row observedAbsent) row next
  | replaced (story : StoryNo) (row next : Continuation) (own : ofStory story row = true)
      (still : row.status ≠ .attempting) (status : next.status = .superseded) :
      Turned project (.replaced story) row next
  | rebound (story : StoryNo) (proposal : Restoration) (row next : Continuation)
      (status : next.status = row.status)
      (reviewed : next.reviewedSeq = row.reviewedSeq ∧ next.reviewedHead = row.reviewedHead) :
      Turned project (.rebound story proposal) row next
  | retired (row next : Continuation) (drained : project.monitor.permitted = false)
      (status : next.status = .superseded) : Turned project .retired row next
  | recovered (row next : Continuation) (rest : Rows)
      (monitor : project.monitor = .recovering (row :: rest)) (lost : row.status = .attempting)
      (status : next.status = .needsAttention) : Turned project .recovered row next
  | stopped (eligibility : Eligibility) (failure : String) (row next : Continuation) (rest : Rows)
      (monitor : project.monitor = .ineligible failure row rest) (waiting : Waiting row)
      (status : next.status = .superseded ∨ next.status = .needsAttention) :
      Turned project (.rejudged eligibility) row next
  | intended (row next : Continuation) (rest : Rows)
      (monitor : project.monitor = .launching row rest) (waiting : Waiting row)
      (status : next.status = .attempting) : Turned project (.intended true) row next
  | saved (row next record : Continuation) (rest : Rows)
      (monitor : project.monitor = .saving record rest) (story : record.story = row.story)
      (status : next.status = record.status)
      (how : record.status = .needsAttention ∧ monitored row = true ∨
        record.status = .awaitingAck ∧ row.status = .attempting) : Turned project .saved row next

structure Turn (project : Project) (action : HandoffAct) (row next : Continuation) : Prop where
  id : next.id = row.id
  story : next.story = row.story
  handoff : next.handoff = row.handoff
  generation : next.generation = row.generation
  revision : next.revision = row.revision + 1
  how : Turned project action row next

structure Added (rows : Rows) (action : HandoffAct) (record : Continuation) : Prop where
  fresh : ∀ row ∈ rows, row.id ≠ record.id
  requested : ∃ read now capture,
    action = .requested read record.story record.id now record.handoff capture
  status : record.status = .acknowledged ∧ record.handoff.kind = .obviationReview ∨
    (record.status = .awaitingAck ∨ record.status = .needsAttention) ∧
      record.handoff.kind = .context ∧
      ∀ row ∈ rows, row.story = record.story → row.status.outstanding = false

/-- What an act can do to the rows. -/
inductive Change (project : Project) (action : HandoffAct) (after : Rows) : Prop
  | turned (turn : Continuation → Continuation) (rows : after = project.rows.map turn)
      (turns : ∀ row ∈ project.rows, turn row = row ∨ Turn project action row (turn row))
  | added (record : Continuation) (rows : after = project.rows ++ [record])
      (new : Added project.rows action record)

theorem Change.still (project : Project) (action : HandoffAct) :
    Change project action project.rows :=
  .turned id (by simp) (by simp)

section Table

variable (rows : Rows) (ids : (rows.map (·.id)).Nodup)

include ids

theorem same_of_id (row other : Continuation) (member : row ∈ rows) (listed : other ∈ rows)
    (same : row.id = other.id) : row = other :=
  List.inj_on_of_nodup_map ids member listed same

theorem save_ok (record : Continuation) (after : Rows) (next : Continuation)
    (saved : save rows record = .ok (after, next)) :
    next = { record with revision := record.revision + 1 } ∧
      ∃ row ∈ rows, row.id = record.id ∧ row.story = record.story ∧
        row.revision = record.revision ∧
        after = rows.map fun other => if other.id = row.id then next else other := by
  simp only [save, updateContinuation, ne_eq, not_true_eq_false, if_false] at saved
  simp only [bind, Except.bind, refuse, pure, Except.pure] at saved
  split at saved
  · cases saved
  · next written =>
      split_ifs at written with refused
      simp only [Except.ok.injEq, Prod.mk.injEq] at saved
      obtain ⟨rfl, rfl⟩ := saved
      refine ⟨rfl, ?_⟩
      have once : 0 < rows.countP (updates
          { record with revision := record.revision + 1 } record.revision) := by
        simp at refused
        omega
      obtain ⟨row, member, matching⟩ := List.countP_pos_iff.mp once
      simp only [updates, Bool.and_eq_true, beq_iff_eq] at matching
      refine ⟨row, member, matching.1.1, matching.1.2, matching.2, List.map_congr_left ?_⟩
      intro other listed
      by_cases same : other.id = row.id
      · rw [same_of_id rows ids other row listed member same]
        simp [updates, matching]
      · rw [if_neg same, if_neg]
        simp only [updates, Bool.and_eq_true, beq_iff_eq]
        intro written
        exact same (written.1.1.trans matching.1.1.symm)

theorem copied (record row : Continuation) (copy : Copy rows record) (member : row ∈ rows)
    (same : row.id = record.id) (revision : row.revision = record.revision) : row = record := by
  obtain ⟨other, listed, named, -, -, unwritten⟩ := copy
  have equal := same_of_id rows ids row other member listed (same.trans named.symm)
  subst equal
  exact unwritten revision

end Table

structure Rewritten (row next : Continuation) : Prop where
  id : next.id = row.id
  story : next.story = row.story
  handoff : next.handoff = row.handoff
  generation : next.generation = row.generation
  revision : next.revision = row.revision + 1

def Rewrites (how : Continuation → Continuation → Prop) (rows chain after : Rows) : Prop :=
  ∃ turn : Continuation → Continuation, after = rows.map turn ∧ ∀ row ∈ rows,
    turn row = row ∨ row ∈ chain ∧ Rewritten row (turn row) ∧ how row (turn row)

theorem rewrites_more (how : Continuation → Continuation → Prop) (rows rest after : Rows)
    (record next : Continuation) (ids : (rows.map (·.id)).Nodup)
    (apart : ((record :: rest).map (·.id)).Nodup) (member : record ∈ rows)
    (rewritten : Rewritten record next) (done : how record next)
    (others : Rewrites how (rows.map fun other => if other.id = record.id then next else other) rest
      after) : Rewrites how rows (record :: rest) after := by
  obtain ⟨turn, rfl, turns⟩ := others
  refine ⟨fun other => turn (if other.id = record.id then next else other), by simp, ?_⟩
  intro row listed
  have how := turns _ (List.mem_map_of_mem listed)
  dsimp only at how ⊢
  by_cases same : row.id = record.id
  · have equal := same_of_id rows ids row record listed member same
    subst equal
    rw [if_pos rfl] at how ⊢
    rcases how with still | ⟨later, -⟩
    · rw [still]
      exact Or.inr ⟨List.mem_cons_self, rewritten, done⟩
    · have twice := List.mem_map_of_mem (f := (·.id)) later
      rw [rewritten.id] at twice
      exact absurd twice (List.nodup_cons.mp apart).1
  · rw [if_neg same] at how ⊢
    exact how.imp_right fun ⟨later, kept⟩ => ⟨List.mem_cons_of_mem record later, kept⟩

theorem still_listed (rows rest : Rows) (record next : Continuation)
    (apart : ((record :: rest).map (·.id)).Nodup) (listed : ∀ row ∈ rest, row ∈ rows) :
    ∀ row ∈ rest, row ∈ rows.map fun other => if other.id = record.id then next else other := by
  intro row member
  refine List.mem_map.mpr ⟨row, listed row member, if_neg fun same => ?_⟩
  have twice := List.mem_map_of_mem (f := (·.id)) member
  rw [same] at twice
  exact (List.nodup_cons.mp apart).1 twice

theorem replaced_ids (rows : Rows) (record next : Continuation) (same : next.id = record.id) :
    (rows.map fun other => if other.id = record.id then next else other).map (·.id) =
      rows.map (·.id) := by
  rw [List.map_map]
  refine List.map_congr_left fun other _ => ?_
  show (if other.id = record.id then next else other).id = other.id
  split_ifs with here
  · rw [same, here]
  · rfl

def Supersedes (row next : Continuation) : Prop :=
  row.status ≠ .superseded ∧ next.status = .superseded

theorem supersedeEach_turns (rows chain after : Rows) (names : List String)
    (ids : (rows.map (·.id)).Nodup) (apart : (chain.map (·.id)).Nodup)
    (listed : ∀ record ∈ chain, record ∈ rows)
    (ran : supersedeEach rows chain = .ok (after, names)) :
    Rewrites Supersedes rows chain after := by
  induction chain generalizing rows names with
  | nil =>
      cases ran
      exact ⟨id, by simp, by simp⟩
  | cons record rest further =>
      have unlisted := List.nodup_cons.mp apart
      simp only [supersedeEach] at ran
      split_ifs at ran with done
      · obtain ⟨turn, rfl, turns⟩ := further rows names ids unlisted.2
          (fun row member => listed row (List.mem_cons_of_mem record member)) ran
        refine ⟨turn, rfl, fun row member => (turns row member).imp_right ?_⟩
        exact fun ⟨later, kept⟩ => ⟨List.mem_cons_of_mem record later, kept⟩
      · rw [bind_eq_ok] at ran
        obtain ⟨⟨middle, next⟩, saved, ran⟩ := ran
        rw [bind_eq_ok] at ran
        obtain ⟨⟨final, others⟩, later, ended⟩ := ran
        cases ended
        obtain ⟨put, row, member, named, -, -, rfl⟩ := save_ok rows ids _ middle next saved
        have first := listed record List.mem_cons_self
        have equal := same_of_id rows ids row record member first named
        subst equal
        have superseded : Rewritten row next := by
          rw [put]
          exact ⟨rfl, rfl, rfl, rfl, rfl⟩
        refine rewrites_more _ rows rest _ row next ids apart first superseded
          ⟨done, by rw [put]; rfl⟩
          (further _ others ?_ unlisted.2 ?_ later)
        · rw [replaced_ids rows row next superseded.id]
          exact ids
        · exact still_listed rows rest row _ apart
            fun row member => listed row (List.mem_cons_of_mem _ member)

theorem updateContinuation_listed (rows : Rows) (record next : Continuation)
    (ids : (rows.map (·.id)).Nodup) (member : record ∈ rows) (id : next.id = record.id)
    (story : next.story = record.story) (revision : next.revision = record.revision + 1) :
    (updateContinuation rows next record.revision).map (·.2) =
      .ok (rows.map fun other => if other.id = record.id then next else other) := by
  rw [updateContinuation, if_neg (not_not.mpr revision), Except.map]
  refine congrArg Except.ok (List.map_congr_left fun other listed => ?_)
  by_cases same : other.id = record.id
  · rw [same_of_id rows ids other record listed member same]
    simp [updates, id, story]
  · rw [if_neg same, if_neg]
    simp [updates, id, same]

theorem retireEach_turns (rows chain after : Rows)
    (ids : (rows.map (·.id)).Nodup) (apart : (chain.map (·.id)).Nodup)
    (listed : ∀ record ∈ chain, record ∈ rows)
    (ran : retireEach rows chain = .ok after) : Rewrites Supersedes rows chain after := by
  induction chain generalizing rows with
  | nil =>
      cases ran
      exact ⟨id, by simp, by simp⟩
  | cons record rest further =>
      have unlisted := List.nodup_cons.mp apart
      simp only [retireEach] at ran
      split_ifs at ran with outstanding
      · rw [bind_eq_ok] at ran
        obtain ⟨⟨written, middle⟩, updated, later⟩ := ran
        have first := listed record List.mem_cons_self
        obtain ⟨next, is⟩ : ∃ next, next = { record.supersede
            "Project automations disabled; explicit new handoff required" with
            revision := record.revision + 1 } := ⟨_, rfl⟩
        have superseded : Rewritten record next := by
          rw [is]
          exact ⟨rfl, rfl, rfl, rfl, rfl⟩
        have put := updateContinuation_listed rows record next ids first superseded.id
          superseded.story superseded.revision
        rw [is, updated, Except.map, Except.ok.injEq, ← is] at put
        dsimp only at put later
        subst put
        have done : record.status ≠ .superseded := by
          intro superseded
          rw [superseded] at outstanding
          cases outstanding
        refine rewrites_more _ rows rest _ record next ids apart first superseded
          ⟨done, by rw [is]; rfl⟩ (further _ ?_ unlisted.2 ?_ later)
        · rw [replaced_ids rows record next superseded.id]
          exact ids
        · exact still_listed rows rest record _ apart
            fun row member => listed row (List.mem_cons_of_mem _ member)
      · obtain ⟨turn, rfl, turns⟩ := further rows ids unlisted.2
          (fun row member => listed row (List.mem_cons_of_mem record member)) ran
        refine ⟨turn, rfl, fun row member => (turns row member).imp_right ?_⟩
        exact fun ⟨later, kept⟩ => ⟨List.mem_cons_of_mem record later, kept⟩

def Rebinds (row next : Continuation) : Prop :=
  next.status = row.status ∧ next.reviewedSeq = row.reviewedSeq ∧
    next.reviewedHead = row.reviewedHead

theorem rebindEach_turns (proposal : Restoration) (rows chain after : Rows)
    (ids : (rows.map (·.id)).Nodup) (apart : (chain.map (·.id)).Nodup)
    (listed : ∀ record ∈ chain, record ∈ rows)
    (ran : rebindEach proposal rows chain = .ok after) : Rewrites Rebinds rows chain after := by
  induction chain generalizing rows with
  | nil =>
      cases ran
      exact ⟨id, by simp, by simp⟩
  | cons record rest further =>
      have unlisted := List.nodup_cons.mp apart
      simp only [rebindEach, bind_eq_ok] at ran
      obtain ⟨capture, -, ran⟩ := ran
      split_ifs at ran with same
      · obtain ⟨turn, rfl, turns⟩ := further rows ids unlisted.2
          (fun row member => listed row (List.mem_cons_of_mem record member)) ran
        refine ⟨turn, rfl, fun row member => (turns row member).imp_right ?_⟩
        exact fun ⟨later, kept⟩ => ⟨List.mem_cons_of_mem record later, kept⟩
      · rw [bind_eq_ok] at ran
        obtain ⟨⟨middle, next⟩, saved, later⟩ := ran
        obtain ⟨put, row, member, named, -, -, rfl⟩ := save_ok rows ids _ middle next saved
        have first := listed record List.mem_cons_self
        have equal := same_of_id rows ids row record member first named
        subst equal
        have rebound : Rewritten row next := by
          rw [put]
          exact ⟨rfl, rfl, rfl, rfl, rfl⟩
        refine rewrites_more _ rows rest _ row next ids apart first rebound
          (by rw [put]; exact ⟨rfl, rfl, rfl⟩) (further _ ?_ unlisted.2 ?_ later)
        · rw [replaced_ids rows row next rebound.id]
          exact ids
        · exact still_listed rows rest row _ apart
            fun row member => listed row (List.mem_cons_of_mem _ member)

theorem insertContinuation_ok (rows after : Rows) (record : Continuation)
    (inserted : insertContinuation rows record = .ok after) :
    (∀ row ∈ rows, row.id ≠ record.id) ∧ after = rows ++ [record] := by
  rw [insertContinuation, bind_eq_ok] at inserted
  obtain ⟨done, unique, ended⟩ := inserted
  rw [refuse_ok] at unique
  rw [pure_eq_ok] at ended
  simp only [List.any_eq_false, beq_iff_eq] at unique
  exact ⟨unique, ended.symm⟩

structure Requested (rows : Rows) (story : StoryNo) (id : String) (handoff : Handoff)
    (capture : Capture) (record : Continuation) (feedback : Bool) : Prop where
  fresh : ∀ row ∈ rows, row.id ≠ record.id
  named : record.id = id
  owned : record.story = story
  carried : record.handoff = handoff
  dated : record.generation = generationOf capture
  standing : record.status = .acknowledged ∧ handoff.kind = .obviationReview ∨
    (record.status = .awaitingAck ∨ record.status = .needsAttention) ∧ handoff.kind = .context ∧
      ∀ row ∈ rows, row.story = story → row.status.outstanding = false
  told : feedback = true → record.status = .awaitingAck

theorem request_ok (rows after : Rows) (read : RequestRead) (story : StoryNo) (id now : String)
    (handoff : Handoff) (capture : Capture) (record : Continuation) (feedback : Bool)
    (ran : request rows read story id now handoff capture = .ok (after, record, feedback)) :
    capture.messageId ≠ none ∧
      (rows.find? (recorded story handoff.kind capture) = some record ∧ after = rows ∧
        feedback = false ∨
      rows.find? (recorded story handoff.kind capture) = none ∧ after = rows ++ [record] ∧
        Requested rows story id handoff capture record feedback) := by
  simp only [request, bind_eq_ok, refuse_ok] at ran
  obtain ⟨_, message, _, slug, ran⟩ := ran
  constructor
  · intro missing
    rw [missing] at message
    cases message
  split at ran
  · next old found =>
      simp only [bind_eq_ok, pure_eq_ok] at ran
      obtain ⟨_, _, ended⟩ := ran
      cases ended
      exact Or.inl ⟨found, rfl, rfl⟩
  · next unknown =>
      refine Or.inr ⟨unknown, ?_⟩
      simp only [bind_eq_ok, refuse_ok] at ran
      obtain ⟨_, resolved, _, _, binding, bound, ran⟩ := ran
      split at ran
      · next kind =>
          simp only [bind_eq_ok, pure_eq_ok] at ran
          obtain ⟨_, _, _, inserted, ended⟩ := ran
          cases ended
          obtain ⟨fresh, rfl⟩ := insertContinuation_ok _ _ _ inserted
          exact ⟨rfl, fresh, rfl, rfl, rfl, rfl, Or.inl ⟨rfl, kind⟩, by simp⟩
      · next kind =>
          simp only [bind_eq_ok, pure_eq_ok] at ran
          obtain ⟨_, _, _, _, _, inserted, ended⟩ := ran
          cases ended
          obtain ⟨fresh, rfl⟩ := insertContinuation_ok _ _ _ inserted
          simp only [kind, beq_self_eq_true, Bool.true_and, List.any_eq_false, Bool.and_eq_true,
            beq_iff_eq, not_and, Bool.not_eq_true] at resolved
          by_cases idle : unchanged rows story capture ≥ 2
          · simp only [if_pos idle] at fresh ⊢
            exact ⟨trivial, fresh, rfl, rfl, rfl, rfl, Or.inr ⟨Or.inr rfl, kind, resolved⟩, by simp⟩
          · simp only [if_neg idle] at fresh ⊢
            exact ⟨trivial, fresh, rfl, rfl, rfl, rfl, Or.inr ⟨Or.inl rfl, kind, resolved⟩, by simp⟩

theorem find_ok (rows : Rows) (idPrefix : String) (story : StoryNo) (id : String)
    (record : Continuation) (found : find rows idPrefix story id = .ok record) :
    record ∈ rows ∧ record.id = id ∧ record.story = story := by
  rw [find, demand_ok] at found
  have named := List.find?_some found
  rw [Bool.and_eq_true, beq_iff_eq, beq_iff_eq] at named
  exact ⟨List.mem_of_find?_eq_some found, named⟩

theorem rewrites_change (project : Project) (action : HandoffAct)
    (how : Continuation → Continuation → Prop) (chain after : Rows)
    (ran : Rewrites how project.rows chain after)
    (turned : ∀ row ∈ chain, ∀ next, how row next → Turned project action row next) :
    Change project action after := by
  obtain ⟨turn, rows, turns⟩ := ran
  refine .turned turn rows fun row member => (turns row member).imp_right ?_
  intro ⟨listed, rewritten, done⟩
  exact ⟨rewritten.id, rewritten.story, rewritten.handoff, rewritten.generation,
    rewritten.revision, turned row listed _ done⟩

section Commands

variable (project : Project) (sound : Sound project)

include sound

theorem save_change (action : HandoffAct) (record next : Continuation) (after : Rows)
    (saved : save project.rows record = .ok (after, next))
    (turn : ∀ row ∈ project.rows, row.id = record.id → row.story = record.story →
      row.revision = record.revision → Turn project action row next) :
    Change project action after := by
  obtain ⟨-, row, member, named, owned, revision, rfl⟩ :=
    save_ok project.rows sound.ids record after next saved
  refine .turned _ rfl fun other listed => ?_
  by_cases same : other.id = row.id
  · rw [same_of_id project.rows sound.ids other row listed member same]
    exact Or.inr (by rw [if_pos rfl]; exact turn row member named owned revision)
  · exact Or.inl (if_neg same)

theorem save_found (action : HandoffAct) (latest record next : Continuation) (after : Rows)
    (member : latest ∈ project.rows) (saved : save project.rows record = .ok (after, next))
    (named : record.id = latest.id) (turn : Turn project action latest next) :
    Change project action after := by
  refine save_change project sound action record next after saved fun row listed same _ _ => ?_
  rw [same_of_id project.rows sound.ids row latest listed member (same.trans named)]
  exact turn

theorem receipt_change (story : StoryNo) (id : String) (input : CompactionReceipt) (after : Rows)
    (record : Continuation)
    (ran : receipt project.rows project.idPrefix story id input = .ok (after, record)) :
    Change project (.receipted story id input) after := by
  simp only [receipt, bind_eq_ok, refuse_ok] at ran
  obtain ⟨latest, found, _, _, ran⟩ := ran
  split_ifs at ran with known
  · cases ran
    exact .still project _
  · rw [bind_eq_ok] at ran
    obtain ⟨_, outstanding, saved⟩ := ran
    rw [refuse_ok] at outstanding
    rw [Bool.not_eq_false'] at outstanding
    have put := (save_ok project.rows sound.ids _ after record saved).1
    refine save_found project sound _ latest _ record after (find_ok _ _ _ _ _ found).1 saved rfl ?_
    rw [put]
    exact ⟨rfl, rfl, rfl, rfl, rfl, .noted story id input latest _ outstanding rfl⟩

theorem ack_change (headSeq : Int) (story : StoryNo) (id : String) (review : Review) (after : Rows)
    (record : Continuation)
    (ran : ack project.rows project.idPrefix (.ok ()) headSeq story id review = .ok (after, record)) :
    Change project (.acked headSeq story id review) after := by
  simp only [ack, bind_eq_ok, refuse_ok] at ran
  obtain ⟨latest, found, _, -, _, session, _, current, ran⟩ := ran
  obtain ⟨member, named⟩ := find_ok _ _ _ _ _ found
  rw [Bool.or_eq_false_iff, bne_eq_false_iff_eq, bne_eq_false_iff_eq] at session
  rw [bne_eq_false_iff_eq] at current
  split_ifs at ran with known
  · cases ran
    exact .still project _
  · simp only [bind_eq_ok, refuse_ok] at ran
    obtain ⟨_, -, _, reached, saved⟩ := ran
    rw [Bool.or_eq_false_iff, beq_eq_false_iff_ne, beq_eq_false_iff_ne] at reached
    have put := (save_ok project.rows sound.ids _ after record saved).1
    refine save_found project sound _ latest _ record after member saved rfl ?_
    rw [put]
    exact ⟨rfl, rfl, rfl, rfl, rfl,
      .acked headSeq story id review latest _ named reached session rfl current ⟨rfl, rfl⟩⟩

theorem retry_change (observed : Continuation) (observedAbsent : Bool) (after : Rows)
    (record : Continuation) (copy : Copy project.rows observed)
    (ran : retry project.rows project.idPrefix (.ok ()) observed observedAbsent =
      .ok (after, record)) :
    Change project (.retried observed observedAbsent) after := by
  simp only [retry, bind_eq_ok, refuse_ok] at ran
  obtain ⟨_, -, latest, found, _, -, _, uncertain, saved⟩ := ran
  obtain ⟨member, named, -⟩ := find_ok _ _ _ _ _ found
  rw [Bool.or_eq_false_iff, bne_eq_false_iff_eq, bne_eq_false_iff_eq] at uncertain
  have equal := copied project.rows sound.ids observed latest copy member named uncertain.1
  subst equal
  have put := (save_ok project.rows sound.ids _ after record saved).1
  refine save_found project sound _ latest _ record after member saved rfl ?_
  rw [put]
  exact ⟨rfl, rfl, rfl, rfl, rfl, .retried observedAbsent latest _ uncertain.2 rfl⟩

theorem replace_change (story : StoryNo) (after : Rows) (outcome : ReplacementOutcome)
    (ran : supersedeForReplacement project.rows story = .ok (after, outcome)) :
    Change project (.replaced story) after := by
  simp only [supersedeForReplacement] at ran
  split_ifs at ran with attempting
  · cases ran
    exact .still project _
  · rw [map_eq_ok] at ran
    obtain ⟨⟨final, names⟩, superseded, ended⟩ := ran
    cases ended
    have chained (row : Continuation) :
        row ∈ (project.rows.filter (ofStory story)).mergeSort older ↔
          row ∈ project.rows ∧ ofStory story row = true := by
      rw [List.mem_mergeSort, List.mem_filter]
    have apart : (((project.rows.filter (ofStory story)).mergeSort older).map (·.id)).Nodup := by
      rw [((List.mergeSort_perm _ _).map _).nodup_iff]
      exact sound.ids.sublist (List.filter_sublist.map _)
    refine rewrites_change project _ _ _ _ (supersedeEach_turns project.rows _ _ names sound.ids
      apart (fun row member => ((chained row).mp member).1) superseded) ?_
    intro row member next ⟨_, status⟩
    refine .replaced story row next ((chained row).mp member).2
      (fun attempts => attempting ?_) status
    refine List.ne_nil_of_mem (List.mem_map_of_mem (a := row) (List.mem_filter.mpr ⟨member, ?_⟩))
    rw [attempts]
    rfl

theorem retire_change (after : Rows) (drained : project.monitor.permitted = false)
    (ran : retireEach project.rows project.rows = .ok after) : Change project .retired after :=
  rewrites_change project _ _ _ _ (retireEach_turns project.rows project.rows after sound.ids
    sound.ids (fun _ member => member) ran) fun row _ next superseded =>
      .retired row next drained superseded.2

theorem rebind_change (story : StoryNo) (proposal : Restoration) (after : Rows)
    (ran : rebind project.rows story proposal = .ok after) :
    Change project (.rebound story proposal) after :=
  rewrites_change project _ _ _ _ (rebindEach_turns proposal project.rows _ after sound.ids
    (sound.ids.sublist (List.filter_sublist.map _)) (fun _ member => (List.mem_filter.mp member).1)
    ran) fun row _ next rebinds => .rebound story proposal row next rebinds.1 rebinds.2

theorem command_change (action : HandoffAct) (after : Project)
    (ran : project.command action = some after) :
    Change project action after.rows ∧ after.monitor = project.monitor ∧
      ∀ record ∈ after.retries, record ∈ project.retries ∨ record ∈ after.rows := by
  cases action with
  | requested read story id now handoff capture =>
      simp only [Project.command, Option.map_eq_some_iff, toOption_some] at ran
      obtain ⟨⟨rows, record, feedback⟩, ran, rfl⟩ := ran
      refine ⟨?_, rfl, fun _ => Or.inl⟩
      rcases (request_ok _ _ _ _ _ _ _ _ _ _ ran).2 with ⟨-, rfl, -⟩ | ⟨-, rfl, requested⟩
      · exact .still project _
      · refine .added record rfl ⟨requested.fresh, ⟨read, now, capture, ?_⟩, ?_⟩
        · rw [requested.named, requested.owned, requested.carried]
        · rw [requested.carried, requested.owned]
          exact requested.standing
  | receipted story id input =>
      simp only [Project.command, Option.map_eq_some_iff, toOption_some] at ran
      obtain ⟨⟨rows, record⟩, ran, rfl⟩ := ran
      exact ⟨receipt_change project sound story id input rows record ran, rfl, fun _ => Or.inl⟩
  | acked headSeq story id review =>
      simp only [Project.command, Option.map_eq_some_iff, toOption_some] at ran
      obtain ⟨⟨rows, record⟩, ran, rfl⟩ := ran
      exact ⟨ack_change project sound headSeq story id review rows record ran, rfl, fun _ => Or.inl⟩
  | looked story id =>
      simp only [Project.command, Option.map_eq_some_iff, toOption_some] at ran
      obtain ⟨record, found, rfl⟩ := ran
      refine ⟨.still project _, rfl, fun other listed => ?_⟩
      rcases List.mem_cons.mp listed with rfl | earlier
      · exact Or.inr (find_ok _ _ _ _ _ found).1
      · exact Or.inl earlier
  | retried observed observedAbsent =>
      simp only [Project.command, Option.ite_none_right_eq_some, Option.map_eq_some_iff,
        toOption_some] at ran
      obtain ⟨looked, ⟨rows, record⟩, ran, rfl⟩ := ran
      exact ⟨retry_change project sound observed observedAbsent rows record
        (sound.retries observed looked) ran, rfl, fun _ listed =>
          Or.inl (List.mem_of_mem_erase listed)⟩
  | replaced story =>
      simp only [Project.command, Option.map_eq_some_iff, toOption_some] at ran
      obtain ⟨⟨rows, outcome⟩, ran, rfl⟩ := ran
      exact ⟨replace_change project sound story rows outcome ran, rfl, fun _ => Or.inl⟩
  | rebound story proposal =>
      simp only [Project.command, Option.map_eq_some_iff, toOption_some] at ran
      obtain ⟨rows, ran, rfl⟩ := ran
      exact ⟨rebind_change project sound story proposal rows ran, rfl, fun _ => Or.inl⟩
  | retired =>
      simp only [Project.command] at ran
      split_ifs at ran with permitted
      simp only [Option.map_eq_some_iff, toOption_some] at ran
      obtain ⟨rows, ran, rfl⟩ := ran
      exact ⟨retire_change project sound rows (Bool.eq_false_iff.mpr permitted) ran, rfl,
        fun _ => Or.inl⟩
  | _ => cases ran

end Commands

theorem turned_copy (project : Project) (action : HandoffAct) (after : Rows)
    (change : Change project action after) (record : Continuation)
    (copy : Copy project.rows record) : Copy after record := by
  obtain ⟨row, member, id, story, revision, unwritten⟩ := copy
  cases change with
  | added other rows new =>
      subst rows
      exact ⟨row, List.mem_append_left _ member, id, story, revision, unwritten⟩
  | turned turn rows turns =>
      subst rows
      refine ⟨turn row, List.mem_map_of_mem member, ?_⟩
      rcases turns row member with still | turned
      · rw [still]
        exact ⟨id, story, revision, unwritten⟩
      · have moved := turned.revision
        refine ⟨turned.id.trans id, turned.story.trans story, by omega, fun same => ?_⟩
        omega

theorem copy_of_mem (rows : Rows) (record : Continuation) (member : record ∈ rows) :
    Copy rows record := ⟨record, member, rfl, rfl, le_refl _, fun _ => rfl⟩

theorem held_copy (rows after : Rows) (copies : ∀ record, Copy rows record → Copy after record)
    (monitor : Monitor) (held : monitor.Held rows) : monitor.Held after := by
  have list {p : Continuation → Prop} {rest : Rows}
      (held : ∀ record ∈ rest, Copy rows record ∧ p record) :
      ∀ record ∈ rest, Copy after record ∧ p record :=
    fun record member => ⟨copies record (held record member).1, (held record member).2⟩
  cases monitor with
  | starting => trivial
  | idle => trivial
  | recovering rest => exact list held
  | pass rest => exact list held
  | holding record rest => exact ⟨⟨copies record held.1.1, held.1.2⟩, list held.2⟩
  | ineligible failure record rest => exact ⟨⟨copies record held.1.1, held.1.2⟩, list held.2⟩
  | observing record rest => exact ⟨⟨copies record held.1.1, held.1.2⟩, list held.2⟩
  | absent record rest => exact ⟨⟨copies record held.1.1, held.1.2⟩, list held.2⟩
  | launching record rest => exact ⟨⟨copies record held.1.1, held.1.2⟩, list held.2⟩
  | resuming record rest => exact ⟨⟨copies record held.1.1, held.1.2⟩, list held.2⟩
  | saving record rest =>
      obtain ⟨⟨base, draft, how⟩, others⟩ := held
      exact ⟨⟨base, { draft with copy := copies base draft.copy }, how⟩, list others⟩

structure Stepped (project : Project) (action : HandoffAct) (after : Project) : Prop where
  change : Change project action after.rows
  held : after.monitor.Held after.rows
  retries : ∀ record ∈ after.retries, record ∈ project.retries

theorem stepped_still (project : Project) (action : HandoffAct) (monitor : Monitor)
    (held : monitor.Held project.rows) :
    Stepped project action { project with monitor := monitor } :=
  ⟨.still project action, held, fun _ member => member⟩

theorem persist_stepped (project : Project) (sound : Sound project) (action : HandoffAct)
    (record : Continuation) (monitor : Continuation → Monitor)
    (turn : ∀ row ∈ project.rows, row.id = record.id → row.story = record.story →
      row.revision = record.revision → ∀ next, next = { record with revision :=
        record.revision + 1 } →
      Turn project action row next)
    (held : ∀ rows next, (∀ other, Copy project.rows other → Copy rows other) →
      next = { record with revision := record.revision + 1 } → Copy rows next →
      (monitor next).Held rows) :
    Stepped project action (project.persist record monitor) := by
  unfold Project.persist
  split
  · next rows next saved =>
      obtain ⟨put, row, member, named, owned, revision, after⟩ :=
        save_ok project.rows sound.ids record rows next saved
      have change := save_change project sound action record next rows saved
        fun row member named owned revision => turn row member named owned revision next put
      have written : next ∈ rows := by
        rw [after]
        exact List.mem_map.mpr ⟨row, member, if_pos rfl⟩
      exact ⟨change, held rows next (turned_copy project action rows change) put
        (copy_of_mem rows next written), fun _ member => member⟩
  · exact ⟨.still project action, trivial, fun _ member => member⟩

theorem monitored_iff (record : Continuation) : monitored record = true ↔
    record.status = .pending ∨ record.status = .attempting ∨ record.status = .awaitingAck := by
  simp only [monitored, Bool.or_eq_true, beq_iff_eq, or_assoc]

theorem waiting_monitored (record : Continuation) (waiting : Waiting record) :
    monitored record = true :=
  (monitored_iff record).mpr (waiting.imp_right Or.inr)

theorem waiting_of_monitored (record : Continuation) (held : monitored record = true)
    (still : record.status ≠ .attempting) : Waiting record := by
  rcases (monitored_iff record).mp held with pending | attempting | awaiting
  · exact Or.inl pending
  · exact absurd attempting still
  · exact Or.inr awaiting

theorem draft_attention (rows : Rows) (record : Continuation) (detail : String)
    (copy : Copy rows record) (held : monitored record = true) :
    ∃ base, Draft rows base (record.needsAttention detail) ∧
      ((record.needsAttention detail).status = .needsAttention ∧ monitored base = true ∨
        (record.needsAttention detail).status = .awaitingAck ∧ base.status = .attempting) :=
  ⟨record, ⟨copy, rfl, rfl, rfl, rfl, rfl⟩, Or.inl ⟨rfl, held⟩⟩

theorem draft_answered (rows : Rows) (record : Continuation) (answer : ResumeAnswer)
    (copy : Copy rows record) (attempting : record.status = .attempting) :
    ∃ base, Draft rows base (record.answered answer) ∧
      ((record.answered answer).status = .needsAttention ∧ monitored base = true ∨
        (record.answered answer).status = .awaitingAck ∧ base.status = .attempting) := by
  have held : monitored record = true := (monitored_iff record).mpr (Or.inr (Or.inl attempting))
  cases answer with
  | submitted capture =>
      cases capture with
      | none => exact draft_attention rows record _ copy held
      | some capture =>
          rw [Continuation.answered]
          split_ifs with valid
          · exact ⟨record, ⟨copy, rfl, rfl, rfl, rfl, rfl⟩, Or.inr ⟨rfl, attempting⟩⟩
          · exact draft_attention rows record _ copy held
  | refused detail => exact draft_attention rows record _ copy held
  | failed failure => exact draft_attention rows record _ copy held

theorem seen_held (rows : Rows) (record : Continuation) (rest : Rows) (expired : Bool)
    (observation : Observation) (copy : Copy rows record) (waiting : Waiting record)
    (others : ∀ other ∈ rest, Copy rows other ∧ monitored other = true) :
    (Project.seen record rest expired observation).Held rows := by
  have attention (detail : String) := draft_attention rows record detail copy
    (waiting_monitored record waiting)
  cases observation with
  | live =>
      rw [Project.seen]
      split_ifs
      · exact ⟨attention _, others⟩
      · exact others
  | absent => exact ⟨⟨copy, waiting⟩, others⟩
  | uncertain detail => exact ⟨attention _, others⟩
  | failed failure => exact ⟨attention _, others⟩

/-- What a record whose story may not go on keeps. -/
structure Stopped (record next : Continuation) : Prop where
  id : next.id = record.id
  story : next.story = record.story
  handoff : next.handoff = record.handoff
  generation : next.generation = record.generation
  revision : next.revision = record.revision
  status : next.status = .superseded ∨ next.status = .needsAttention

theorem stopped_other (record : Continuation) (failure : String) (eligibility : Eligibility)
    (refused : eligibility ≠ .eligible) : Stopped record (record.stopped failure eligibility) := by
  cases eligibility with
  | eligible => exact absurd rfl refused
  | closed => exact ⟨rfl, rfl, rfl, rfl, rfl, Or.inl rfl⟩
  | other observed => exact ⟨rfl, rfl, rfl, rfl, rfl, Or.inr rfl⟩

section Monitored

variable (project : Project) (sound : Sound project)

include sound

theorem recover_stepped (record : Continuation) (rest : Rows) (detail : String)
    (monitor : project.monitor = .recovering (record :: rest)) :
    Stepped project .recovered
      (project.persist (record.needsAttention detail) fun _ => .recovering rest) := by
  have held := sound.held
  rw [monitor] at held
  obtain ⟨⟨copy, attempting⟩, others⟩ := List.forall_mem_cons.mp held
  refine persist_stepped project sound _ _ _ ?_ fun rows next copies _ _ =>
    held_copy project.rows rows copies (.recovering rest) others
  rintro row member named - revision next rfl
  have equal := copied project.rows sound.ids record row copy member named revision
  subst equal
  exact ⟨rfl, rfl, rfl, rfl, rfl, .recovered row _ rest monitor attempting rfl⟩

theorem take_stepped (record : Continuation) (rest : Rows)
    (monitor : project.monitor = .pass (record :: rest)) :
    Stepped project .taken { project with
      monitor := if record.status = .attempting then .pass rest else .holding record rest } := by
  have held := sound.held
  rw [monitor] at held
  obtain ⟨⟨copy, known⟩, others⟩ := List.forall_mem_cons.mp held
  refine stepped_still project _ _ ?_
  split_ifs with attempting
  · exact others
  · exact ⟨⟨copy, waiting_of_monitored record known attempting⟩, others⟩

theorem stop_stepped (failure : String) (record : Continuation) (rest : Rows)
    (eligibility : Eligibility) (refused : eligibility ≠ .eligible)
    (monitor : project.monitor = .ineligible failure record rest) :
    Stepped project (.rejudged eligibility)
      (project.persist (record.stopped failure eligibility) fun _ => .pass rest) := by
  have held := sound.held
  rw [monitor] at held
  have other := stopped_other record failure eligibility refused
  refine persist_stepped project sound _ _ _ ?_ fun rows next copies _ _ =>
    held_copy project.rows rows copies (.pass rest) held.2
  rintro row member named - revision next rfl
  have equal := copied project.rows sound.ids record row held.1.1 member
    (named.trans other.id) (revision.trans other.revision)
  subst equal
  exact ⟨other.id, other.story, other.handoff, other.generation,
    congrArg (· + 1) other.revision, .stopped eligibility failure row _ rest monitor held.1.2
      other.status⟩

theorem intend_stepped (record : Continuation) (rest : Rows)
    (monitor : project.monitor = .launching record rest) :
    Stepped project (.intended true) (project.persist
      { record with status := .attempting, phase := .resume, attempts := record.attempts + 1 }
      fun next => .resuming next rest) := by
  have held := sound.held
  rw [monitor] at held
  refine persist_stepped project sound _ _ _ ?_ fun rows next copies put copy =>
    ⟨⟨copy, by rw [put]⟩, held_copy project.rows rows copies (.pass rest) held.2⟩
  rintro row member named - revision next rfl
  have equal := copied project.rows sound.ids record row held.1.1 member named revision
  subst equal
  exact ⟨rfl, rfl, rfl, rfl, rfl, .intended row _ rest monitor held.1.2 rfl⟩

theorem save_stepped (record : Continuation) (rest : Rows)
    (monitor : project.monitor = .saving record rest) :
    Stepped project .saved (project.persist record fun _ => .pass rest) := by
  have held := sound.held
  rw [monitor] at held
  obtain ⟨⟨base, draft, how⟩, others⟩ := held
  refine persist_stepped project sound _ _ _ ?_ fun rows next copies _ _ =>
    held_copy project.rows rows copies (.pass rest) others
  rintro row member named - revision next rfl
  have equal := copied project.rows sound.ids base row draft.copy member
    (named.trans draft.id) (revision.trans draft.revision)
  subst equal
  exact ⟨draft.id, draft.story, draft.handoff, draft.generation,
    congrArg (· + 1) draft.revision, .saved row _ record rest monitor draft.story rfl how⟩

end Monitored

theorem step_stepped (project : Project) (sound : Sound project) (action : HandoffAct)
    (after : Project) (ran : project.step project.monitor action = some after) :
    Stepped project action after := by
  have held := sound.held
  have listed (p : Continuation → Bool) :
      ∀ record ∈ project.rows.filter p, Copy project.rows record ∧ p record = true :=
    fun record member =>
      ⟨copy_of_mem _ _ (List.mem_filter.mp member).1, (List.mem_filter.mp member).2⟩
  unfold Project.step at ran
  split at ran
  · cases ran
    exact ⟨.still project _, trivial, fun _ none => by cases none⟩
  · cases ran
    refine stepped_still project _ _ fun record member => ?_
    exact ⟨(listed _ record member).1, beq_iff_eq.mp (listed _ record member).2⟩
  · cases ran
    exact stepped_still project _ _ trivial
  · next record rest monitor =>
      cases ran
      rw [monitor] at held
      exact stepped_still project _ _ (List.forall_mem_cons.mp held).2
  · next record rest monitor =>
      cases ran
      exact recover_stepped project sound record rest _ monitor
  · cases ran
    exact stepped_still project _ _ trivial
  · cases ran
    exact stepped_still project _ _ trivial
  · cases ran
    exact stepped_still project _ _ (listed _)
  · next record rest monitor =>
      cases ran
      rw [monitor] at held
      exact stepped_still project _ _ (List.forall_mem_cons.mp held).2
  · next record rest monitor =>
      cases ran
      exact take_stepped project sound record rest monitor
  · cases ran
    exact stepped_still project _ _ trivial
  · cases ran
    exact stepped_still project _ _ trivial
  · next record rest monitor =>
      cases ran
      rw [monitor] at held
      exact stepped_still project _ _ held
  · next record rest failure monitor =>
      cases ran
      rw [monitor] at held
      exact stepped_still project _ _ held
  · next failure record rest eligibility monitor =>
      split_ifs at ran with eligible
      · cases ran
        rw [monitor] at held
        exact stepped_still project _ _ held.2
      · cases ran
        exact stop_stepped project sound failure record rest eligibility eligible monitor
  · cases ran
    exact stepped_still project _ _ trivial
  · next record rest observation expired monitor =>
      cases ran
      rw [monitor] at held
      exact stepped_still project _ _
        (seen_held project.rows record rest expired observation held.1.1 held.1.2 held.2)
  · next record rest monitor =>
      cases ran
      rw [monitor] at held
      exact stepped_still project _ _ held
  · next record rest label monitor =>
      cases ran
      rw [monitor] at held
      exact stepped_still project _ _ ⟨draft_attention project.rows record _ held.1.1
        (waiting_monitored record held.1.2), held.2⟩
  · cases ran
    exact stepped_still project _ _ trivial
  · next record rest eligible monitor =>
      split_ifs at ran with may
      · cases ran
        subst may
        exact intend_stepped project sound record rest monitor
      · cases ran
        exact stepped_still project _ _ trivial
  · cases ran
    exact stepped_still project _ _ trivial
  · next record rest answer monitor =>
      cases ran
      rw [monitor] at held
      exact stepped_still project _ _
        ⟨draft_answered project.rows record answer held.1.1 held.1.2, held.2⟩
  · next record rest monitor =>
      cases ran
      exact save_stepped project sound record rest monitor
  · cases ran
    exact stepped_still project _ _ trivial
  · cases ran

theorem act_stepped (project : Project) (sound : Sound project) (action : HandoffAct)
    (after : Project) (acted : project.act action = some after) :
    Change project action after.rows ∧ after.monitor.Held after.rows ∧
      ∀ record ∈ after.retries, Copy after.rows record := by
  have copies := turned_copy project action after.rows
  rw [Project.act, Option.or_eq_some_iff] at acted
  rcases acted with commanded | ⟨-, stepped⟩
  · obtain ⟨change, monitor, retries⟩ := command_change project sound action after commanded
    refine ⟨change, ?_, fun record member => ?_⟩
    · rw [monitor]
      exact held_copy project.rows after.rows (copies change) project.monitor sound.held
    · rcases retries record member with earlier | listed
      · exact copies change record (sound.retries record earlier)
      · exact copy_of_mem after.rows record listed
  · have stepped := step_stepped project sound action after stepped
    exact ⟨stepped.change, stepped.held, fun record member =>
      copies stepped.change record (sound.retries record (stepped.retries record member))⟩

theorem turned_outstanding (project : Project) (action : HandoffAct) (row next : Continuation)
    (turned : Turned project action row next) (outstanding : next.status.outstanding = true) :
    row.status.outstanding = true := by
  cases turned with
  | noted => assumption
  | acked _ _ _ _ _ _ _ _ _ status =>
      rw [status] at outstanding
      cases outstanding
  | retried _ _ _ uncertain =>
      rw [uncertain]
      rfl
  | replaced _ _ _ _ _ status =>
      rw [status] at outstanding
      cases outstanding
  | rebound _ _ _ _ status =>
      rw [← status]
      exact outstanding
  | retired _ _ _ status =>
      rw [status] at outstanding
      cases outstanding
  | recovered _ _ _ _ lost =>
      rw [lost]
      rfl
  | stopped _ _ _ _ _ _ waiting =>
      rcases waiting with is | is <;> rw [is] <;> rfl
  | intended _ _ _ _ waiting =>
      rcases waiting with is | is <;> rw [is] <;> rfl
  | saved _ _ _ _ _ _ _ how =>
      rcases how with ⟨-, known⟩ | ⟨-, is⟩
      · rcases (monitored_iff row).mp known with is | is | is <;> rw [is] <;> rfl
      · rw [is]
        rfl

theorem turn_from (project : Project) (action : HandoffAct) (row next : Continuation)
    (how : next = row ∨ Turn project action row next) :
    next.id = row.id ∧ next.story = row.story ∧ next.handoff = row.handoff ∧
      next.generation = row.generation ∧
      (next.status.outstanding = true → row.status.outstanding = true) := by
  rcases how with rfl | turn
  · exact ⟨rfl, rfl, rfl, rfl, fun outstanding => outstanding⟩
  · exact ⟨turn.id, turn.story, turn.handoff, turn.generation,
      turned_outstanding project action row next turn.how⟩

theorem added_resolved (rows : Rows) (action : HandoffAct) (record : Continuation)
    (new : Added rows action record) (outstanding : record.status.outstanding = true) :
    record.handoff.kind = .context ∧
      ∀ row ∈ rows, row.story = record.story → ¬ row.status.outstanding = true := by
  rcases new.status with ⟨acknowledged, -⟩ | ⟨-, kind, resolved⟩
  · rw [acknowledged] at outstanding
    cases outstanding
  · exact ⟨kind, fun row member same => Bool.not_eq_true _ ▸ resolved row member same⟩

theorem act_sound (project : Project) (sound : Sound project) (action : HandoffAct)
    (after : Project) (acted : project.act action = some after) : Sound after := by
  obtain ⟨change, held, retries⟩ := act_stepped project sound action after acted
  cases change with
  | turned turn rows turns =>
      have was (row : Continuation) (member : row ∈ project.rows) :=
        turn_from project action row (turn row) (turns row member)
      refine ⟨?_, ?_, ?_, held, retries⟩
      · have same : (project.rows.map turn).map (·.id) = project.rows.map (·.id) := by
          rw [List.map_map]
          exact List.map_congr_left fun row member => (was row member).1
        rw [rows, same]
        exact sound.ids
      · rw [rows]
        intro next put other placed same outstanding awaiting
        obtain ⟨row, member, rfl⟩ := List.mem_map.mp put
        obtain ⟨second, listed, rfl⟩ := List.mem_map.mp placed
        have first := was row member
        have last := was second listed
        rw [first.1, last.1]
        exact sound.alone row member second listed (first.2.1.symm.trans (same.trans last.2.1))
          (first.2.2.2.2 outstanding) (last.2.2.2.2 awaiting)
      · rw [rows]
        intro next put outstanding
        obtain ⟨row, member, rfl⟩ := List.mem_map.mp put
        have first := was row member
        rw [first.2.2.1]
        exact sound.context row member (first.2.2.2.2 outstanding)
  | added record rows new =>
      have resolved := added_resolved project.rows action record new
      refine ⟨?_, ?_, ?_, held, retries⟩
      · rw [rows, List.map_append, List.nodup_append]
        refine ⟨sound.ids, by simp, fun id listed other placed => ?_⟩
        obtain ⟨row, member, rfl⟩ := List.mem_map.mp listed
        rw [List.mem_singleton.mp placed]
        exact new.fresh row member
      · rw [rows]
        simp only [List.mem_append, List.mem_singleton]
        intro row member other listed same outstanding awaiting
        rcases member with member | rfl
        · rcases listed with listed | rfl
          · exact sound.alone row member other listed same outstanding awaiting
          · exact absurd outstanding ((resolved awaiting).2 row member same)
        · rcases listed with listed | rfl
          · exact absurd awaiting ((resolved outstanding).2 other listed same.symm)
          · rfl
      · rw [rows]
        intro row placed outstanding
        rcases List.mem_append.mp placed with member | last
        · exact sound.context row member outstanding
        · obtain rfl := List.mem_singleton.mp last
          exact (resolved outstanding).1

theorem run_sound (project final : Project) (acts : List HandoffAct) (sound : Sound project)
    (ran : project.run acts = some final) : Sound final :=
  Runs.possible_invariant Project.act Sound
    (fun before action after sound acted => act_sound before sound action after acted)
    project final acts sound ran

end Storyhook.Service.Handoffs
