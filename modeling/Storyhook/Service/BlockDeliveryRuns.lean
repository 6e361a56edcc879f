import Storyhook.Library.Runs
import Storyhook.Service.BlockDelivery
import Storyhook.Service.Hierarchy

namespace Storyhook.Service.Delivery

open Storyhook.Domain Storyhook.Store
open Library Library.Statement

/-- A story's intents that have not started. -/
def pendingOf (tables : Tables) (story : StoryNo) : List BlockDelivery :=
  tables.deliveries.filter (isPending story)

def enqueued (tables : Tables) : List (StoryNo × BlockAction) :=
  tables.deliveries.map fun delivery => (delivery.story, delivery.action)

section Update

variable (delivery : BlockDelivery) (expected : DeliveryStatus)
  (settled : delivery.status ≠ .pending)

theorem updated_enqueued (row : BlockDelivery) :
    (updated delivery expected row).story = row.story ∧
      (updated delivery expected row).action = row.action := by
  unfold updated
  split <;> exact ⟨rfl, rfl⟩

include settled

theorem updated_pending (story : StoryNo) (row : BlockDelivery)
    (pending : isPending story (updated delivery expected row)) :
    updated delivery expected row = row := by
  unfold updated at pending ⊢
  split
  · next written =>
      rw [if_pos written, isPending, Bool.and_eq_true, beq_iff_eq, beq_iff_eq] at pending
      exact absurd pending.2 settled
  · rfl

theorem updated_filter (story : StoryNo) (rows : List BlockDelivery) :
    ((rows.map (updated delivery expected)).filter (isPending story)).Sublist
      (rows.filter (isPending story)) := by
  induction rows with
  | nil => exact List.Sublist.slnil
  | cons row rest ih =>
      rw [List.map_cons]
      by_cases pending : isPending story (updated delivery expected row)
      · have same := updated_pending delivery expected settled story row pending
        rw [same] at pending ⊢
        rw [List.filter_cons_of_pos pending, List.filter_cons_of_pos pending]
        exact ih.cons_cons row
      · rw [List.filter_cons_of_neg pending]
        exact ih.trans (List.Sublist.filter _ (List.sublist_cons_self row rest))

theorem updated_filter_other (story : StoryNo) (apart : story ≠ delivery.story)
    (rows : List BlockDelivery) :
    (rows.map (updated delivery expected)).filter (isPending story) =
      rows.filter (isPending story) := by
  induction rows with
  | nil => rfl
  | cons row rest ih =>
      rw [List.map_cons]
      by_cases pending : isPending story row
      · have same : updated delivery expected row = row := by
          rw [isPending, Bool.and_eq_true, beq_iff_eq] at pending
          unfold updated updates
          rw [if_neg]
          simp [pending.1, apart]
        rw [same, List.filter_cons_of_pos pending, List.filter_cons_of_pos pending, ih]
      · have absent : ¬ isPending story (updated delivery expected row) := fun held =>
          pending (updated_pending delivery expected settled story row held ▸ held)
        rw [List.filter_cons_of_neg pending, List.filter_cons_of_neg absent, ih]

end Update

theorem updateBlockDelivery_ok (delivery : BlockDelivery) (expected : DeliveryStatus)
    (tables after : Tables) (answer : Bool)
    (ran : updateBlockDelivery delivery expected tables = (.ok answer, after)) :
    after = { tables with deliveries := tables.deliveries.map (updated delivery expected) } := by
  simp only [updateBlockDelivery, bind_ok, read_ok, write_ok, pure_ok] at ran
  obtain ⟨_, _, ⟨rfl, rfl⟩, _, _, rfl, -, rfl⟩ := ran
  rfl

/-- What revoking a story's pending intents changes. -/
structure Revoked (tables after : Tables) (story : StoryNo) : Prop where
  db : after.db = tables.db
  derives : after.derivesBlockEdges = tables.derivesBlockEdges
  enqueued : enqueued after = enqueued tables
  shrinks : ∀ other, (pendingOf after other).Sublist (pendingOf tables other)
  others : ∀ other, other ≠ story → pendingOf after other = pendingOf tables other

theorem Revoked.refl (tables : Tables) (story : StoryNo) : Revoked tables tables story :=
  ⟨rfl, rfl, rfl, fun _ => List.Sublist.refl _, fun _ _ => rfl⟩

theorem Revoked.trans (first second third : Tables) (story : StoryNo)
    (early : Revoked first second story) (late : Revoked second third story) :
    Revoked first third story where
  db := late.db.trans early.db
  derives := late.derives.trans early.derives
  enqueued := late.enqueued.trans early.enqueued
  shrinks := fun other => (late.shrinks other).trans (early.shrinks other)
  others := fun other apart => (late.others other apart).trans (early.others other apart)

theorem revoked_update (delivery : BlockDelivery) (expected : DeliveryStatus) (tables : Tables)
    (settled : delivery.status ≠ .pending) :
    Revoked tables { tables with deliveries := tables.deliveries.map (updated delivery expected) }
      delivery.story where
  db := rfl
  derives := rfl
  enqueued := by
    simp only [enqueued, List.map_map]
    refine List.map_congr_left fun row _ => ?_
    have kept := updated_enqueued delivery expected row
    simp [kept]
  shrinks := fun other => updated_filter delivery expected settled other tables.deliveries
  others := fun other apart =>
    updated_filter_other delivery expected settled other apart tables.deliveries

theorem not_mem_updated (delivery : BlockDelivery) (reason : String)
    (pending : isPending delivery.story delivery) (rows : List BlockDelivery) :
    delivery ∉ rows.map
      (updated { delivery with status := .superseded, detail := reason } .pending) := by
  intro member
  obtain ⟨row, -, same⟩ := List.mem_map.mp member
  have kept : delivery = row := same.symm.trans
    (updated_pending _ .pending (by simp) delivery.story row (by rw [same]; exact pending))
  subst kept
  rw [isPending, Bool.and_eq_true, beq_iff_eq, beq_iff_eq] at pending
  have changed := congrArg BlockDelivery.status same
  simp [updated, updates, pending.2] at changed

theorem supersedeEach_ok (story : StoryNo) (reason : String) (rows : List BlockDelivery)
    (tables after : Tables) (count : Nat)
    (ran : supersedeEach story reason rows tables = (.ok count, after)) :
    Revoked tables after story ∧ ∀ row ∈ rows, row ∉ pendingOf after story := by
  induction rows generalizing tables count with
  | nil =>
      obtain ⟨-, rfl⟩ := (pure_ok _ _ _ _).mp ran
      exact ⟨Revoked.refl tables story, fun _ member => absurd member List.not_mem_nil⟩
  | cons delivery rest ih =>
      unfold supersedeEach at ran
      split at ran
      · next pending =>
          simp only [bind_ok, pure_ok] at ran
          obtain ⟨answer, middle, written, more, _, later, -, rfl⟩ := ran
          have owned : delivery.story = story := by
            rw [isPending, Bool.and_eq_true, beq_iff_eq] at pending
            exact pending.1
          subst owned
          obtain rfl := updateBlockDelivery_ok _ _ tables middle answer written
          obtain ⟨revoked, cleared⟩ := ih _ more later
          have first := revoked_update { delivery with status := .superseded, detail := reason }
            .pending tables (by simp)
          refine ⟨first.trans _ _ _ _ revoked, ?_⟩
          rw [List.forall_mem_cons]
          refine ⟨fun member => ?_, cleared⟩
          have there := List.mem_filter.mp ((revoked.shrinks _).subset member)
          exact not_mem_updated delivery reason pending _ there.1
      · next settled =>
          obtain ⟨revoked, cleared⟩ := ih tables count ran
          refine ⟨revoked, List.forall_mem_cons.mpr ⟨fun member => ?_, cleared⟩⟩
          exact settled (List.mem_filter.mp member).2

theorem supersedePending_ok (story : StoryNo) (reason : String) (tables after : Tables)
    (count : Nat) (ran : supersedePending story reason tables = (.ok count, after)) :
    Revoked tables after story ∧ pendingOf after story = [] := by
  simp only [supersedePending, bind_ok, read_ok] at ran
  obtain ⟨_, _, ⟨rfl, rfl⟩, each⟩ := ran
  obtain ⟨revoked, cleared⟩ := supersedeEach_ok story reason _ _ _ _ each
  refine ⟨revoked, List.eq_nil_iff_forall_not_mem.mpr fun row member => ?_⟩
  have there := List.mem_filter.mp ((revoked.shrinks story).subset member)
  exact cleared row there.1 member

theorem supersedeEnded_ok (story : StoryNo) (previous next : Standing) (tables after : Tables)
    (done : Unit) (ran : supersedeEnded story previous next tables = (.ok done, after)) :
    Revoked tables after story ∧ pendingOf after story =
      if previous.blocked != next.blocked || !next.interruptible then []
      else pendingOf tables story := by
  unfold supersedeEnded at ran
  split at ran
  · next ended =>
      rw [map_ok] at ran
      obtain ⟨count, ran, -⟩ := ran
      rw [if_pos ended]
      exact supersedePending_ok story _ tables after count ran
  · next going =>
      obtain ⟨-, rfl⟩ := (pure_ok _ _ _ _).mp ran
      rw [if_neg going]
      exact ⟨Revoked.refl tables story, rfl⟩

theorem enqueueBlockDelivery_ok (story : StoryNo) (action : BlockAction) (tables after : Tables)
    (done : Unit) (ran : enqueueBlockDelivery story action tables = (.ok done, after)) :
    after = { tables with deliveries :=
      tables.deliveries ++ [⟨nextDeliveryId tables, story, action, .pending, none, ""⟩] } := by
  simp only [enqueueBlockDelivery, bind_ok, read_ok] at ran
  obtain ⟨_, _, ⟨rfl, rfl⟩, written⟩ := ran
  split at written
  · exact ((write_ok _ _ _ _).mp written).symm
  · exact absurd written (fail_ok _ _ _ _)

def edgeActions (owned : Except DeliveryError Bool) (previous next : Standing) :
    List BlockAction :=
  if !previous.blocked && next.blocked then [.interrupt]
  else if previous.blocked && !next.blocked && next.active then
    if owned.toOption = some false then [.resume] else []
  else []

theorem nextAction_ok (gate : Gate) (story : StoryNo) (previous next : Standing)
    (tables after : Tables) (action : Option BlockAction)
    (ran : nextAction gate story previous next tables = (.ok action, after)) :
    after = tables ∧
      action.toList = edgeActions (gate.ownsResume tables.db story) previous next := by
  unfold nextAction at ran
  unfold edgeActions
  split at ran
  · next blocks =>
      obtain ⟨rfl, rfl⟩ := (pure_ok _ _ _ _).mp ran
      rw [if_pos blocks]
      exact ⟨rfl, rfl⟩
  · next unblocked =>
      rw [if_neg unblocked]
      split at ran
      · next resumes =>
          simp only [bind_ok, read_ok, ofExcept_ok, pure_ok] at ran
          obtain ⟨_, _, ⟨rfl, rfl⟩, owned, _, ⟨asked, rfl⟩, rfl, rfl⟩ := ran
          rw [if_pos resumes, asked]
          cases owned <;> exact ⟨rfl, rfl⟩
      · next idle =>
          obtain ⟨rfl, rfl⟩ := (pure_ok _ _ _ _).mp ran
          rw [if_neg idle]
          exact ⟨rfl, rfl⟩

theorem checkSubmission_ok (gate : Gate) (story : StoryNo) (previous next : Standing)
    (tables after : Tables) (done : Unit)
    (ran : checkSubmission gate story previous next tables = (.ok done, after)) :
    after = tables := by
  simp only [checkSubmission, bind_ok, read_ok] at ran
  obtain ⟨_, _, ⟨rfl, rfl⟩, checked⟩ := ran
  cases asks : gate.checkSubmission with
  | none =>
      rw [asks] at checked
      exact ((pure_ok _ _ _ _).mp checked).2.symm
  | some check =>
      simp only [asks] at checked
      split at checked
      · cases refused : check tables.db story previous.sequence with
        | none =>
            rw [refused] at checked
            exact ((pure_ok _ _ _ _).mp checked).2.symm
        | some failure =>
            rw [refused] at checked
            exact absurd checked (fail_ok _ _ _ _)
      · exact ((pure_ok _ _ _ _).mp checked).2.symm

structure Edged (gate : Gate) (tables after : Tables) (story : StoryNo)
    (previous next : Standing) : Prop where
  db : after.db = tables.db
  derives : after.derivesBlockEdges = tables.derivesBlockEdges
  enqueued : enqueued after = enqueued tables ++
    (edgeActions (gate.ownsResume tables.db story) previous next).map fun action => (story, action)
  others : ∀ other, other ≠ story → pendingOf after other = pendingOf tables other
  pending : (pendingOf after story).map (·.action) =
    (if previous.blocked != next.blocked || !next.interruptible then []
      else (pendingOf tables story).map (·.action)) ++
      if next.interruptible then edgeActions (gate.ownsResume tables.db story) previous next else []

theorem pendingOf_enqueued (tables : Tables) (delivery : BlockDelivery) (story : StoryNo) :
    pendingOf { tables with deliveries := tables.deliveries ++ [delivery] } story =
      pendingOf tables story ++ if isPending story delivery then [delivery] else [] := by
  rw [pendingOf, List.filter_append, ← pendingOf]
  cases held : isPending story delivery <;> simp [held]

theorem enqueueAction_ok (story : StoryNo) (next : Standing) (action : BlockAction)
    (tables after : Tables) (done : Unit)
    (ran : enqueueAction story next (some action) tables = (.ok done, after)) :
    after.db = tables.db ∧ after.derivesBlockEdges = tables.derivesBlockEdges ∧
      enqueued after = enqueued tables ++ [(story, action)] ∧
      (∀ other, other ≠ story → pendingOf after other = pendingOf tables other) ∧
      (pendingOf after story).map (·.action) =
        if next.interruptible then (pendingOf tables story).map (·.action) ++ [action] else [] := by
  simp only [enqueueAction, bind_ok] at ran
  obtain ⟨_, middle, written, settled⟩ := ran
  obtain rfl := enqueueBlockDelivery_ok story action tables middle _ written
  have named : enqueued { tables with deliveries := tables.deliveries ++
      [⟨nextDeliveryId tables, story, action, .pending, none, ""⟩] } =
      enqueued tables ++ [(story, action)] := by
    simp [enqueued]
  have elsewhere (other : StoryNo) (apart : other ≠ story) :
      pendingOf { tables with deliveries := tables.deliveries ++
        [⟨nextDeliveryId tables, story, action, .pending, none, ""⟩] } other =
      pendingOf tables other := by
    rw [pendingOf_enqueued]
    simp [isPending, Ne.symm apart]
  split at settled
  · next idle =>
      rw [map_ok] at settled
      obtain ⟨count, settled, -⟩ := settled
      obtain ⟨revoked, cleared⟩ := supersedePending_ok story _ _ after count settled
      refine ⟨revoked.db, revoked.derives, revoked.enqueued.trans named, ?_, ?_⟩
      · exact fun other apart => (revoked.others other apart).trans (elsewhere other apart)
      · rw [cleared, if_neg (by simpa using idle)]
        rfl
  · next running =>
      obtain ⟨-, rfl⟩ := (pure_ok _ _ _ _).mp settled
      refine ⟨rfl, rfl, named, elsewhere, ?_⟩
      rw [if_pos (by simpa using running), pendingOf_enqueued]
      simp [isPending]

theorem deriveEdge_ok (gate : Gate) (story : StoryNo) (previous next : Standing)
    (tables after : Tables) (done : Unit)
    (ran : deriveEdge gate story previous next tables = (.ok done, after)) :
    Edged gate tables after story previous next := by
  simp only [deriveEdge, bind_ok] at ran
  obtain ⟨_, _, checked, _, middle, ended, action, _, chosen, queued⟩ := ran
  obtain rfl := checkSubmission_ok gate story previous next tables _ _ checked
  obtain ⟨revoked, left⟩ := supersedeEnded_ok story previous next _ middle _ ended
  obtain ⟨rfl, actions⟩ := nextAction_ok gate story previous next middle _ action chosen
  rw [revoked.db] at actions
  cases action with
  | none =>
      obtain ⟨-, rfl⟩ := (pure_ok _ _ _ _).mp queued
      rw [Option.toList_none] at actions
      refine ⟨revoked.db, revoked.derives, ?_, revoked.others, ?_⟩
      · rw [revoked.enqueued, ← actions, List.map_nil, List.append_nil]
      · rw [left, ← actions, ite_self, List.append_nil]
        split <;> rfl
  | some action =>
      obtain ⟨db, derives, named, others, pending⟩ :=
        enqueueAction_ok story next action _ after _ queued
      rw [Option.toList_some] at actions
      refine ⟨db.trans revoked.db, derives.trans revoked.derives, ?_, ?_, ?_⟩
      · rw [named, revoked.enqueued, ← actions]
        rfl
      · exact fun other apart => (others other apart).trans (revoked.others other apart)
      · rw [pending, left, ← actions]
        cases next.interruptible with
        | false => simp
        | true => cases previous.blocked != next.blocked <;> simp

def edgeOf (before after : List (StoryNo × Standing)) (story : StoryNo) :
    Option (Standing × Standing) := do
  let previous ← before.lookup story
  let next ← after.lookup story
  return (previous, next)

structure Derived (gate : Gate) (before after : List (StoryNo × Standing)) (start finish : Tables) :
    Prop where
  db : finish.db = start.db
  derives : finish.derivesBlockEdges = start.derivesBlockEdges
  enqueued : ∃ added, enqueued finish = enqueued start ++ added ∧ ∀ story,
    (added.filter (·.1 == story)).map (·.2) = (edgeOf before after story).elim [] fun edge =>
      edgeActions (gate.ownsResume start.db story) edge.1 edge.2
  pending : ∀ story, (pendingOf finish story).map (·.action) =
    (edgeOf before after story).elim ((pendingOf start story).map (·.action)) fun edge =>
      (if edge.1.blocked != edge.2.blocked || !edge.2.interruptible then []
        else (pendingOf start story).map (·.action)) ++
        if edge.2.interruptible then
          edgeActions (gate.ownsResume start.db story) edge.1 edge.2 else []

theorem edgeOf_cons (before rest : List (StoryNo × Standing)) (story other : StoryNo)
    (next : Standing) : edgeOf before ((story, next) :: rest) other =
      if other = story then (before.lookup story).map fun previous => (previous, next)
      else edgeOf before rest other := by
  simp only [edgeOf, List.lookup_cons]
  split
  · next same =>
      rw [beq_iff_eq] at same
      subst same
      cases before.lookup other <;> simp
  · next apart => simp_all

theorem edgeOf_absent (before after : List (StoryNo × Standing)) (story : StoryNo)
    (absent : story ∉ after.map (·.1)) : edgeOf before after story = none := by
  have missing : after.lookup story = none := by
    rw [List.lookup_eq_none_iff]
    intro entry member
    have listed : entry.1 ∈ after.map (·.1) := List.mem_map_of_mem member
    rw [bne_iff_ne]
    rintro rfl
    exact absent listed
  rw [edgeOf, missing]
  cases before.lookup story <;> rfl

theorem deriveEdges_ok (gate : Gate) (before after : List (StoryNo × Standing))
    (distinct : (after.map (·.1)).Nodup) (start finish : Tables) (done : Unit)
    (ran : deriveEdges gate before after start = (.ok done, finish)) :
    Derived gate before after start finish := by
  induction after generalizing start with
  | nil =>
      obtain ⟨-, rfl⟩ := (pure_ok _ _ _ _).mp ran
      have none (story : StoryNo) : edgeOf before [] story = none :=
        edgeOf_absent before [] story List.not_mem_nil
      refine ⟨rfl, rfl, ⟨[], (List.append_nil _).symm, fun story => ?_⟩, fun story => ?_⟩
      · rw [none]
        rfl
      · rw [none]
        rfl
  | cons entry rest ih =>
      obtain ⟨story, next⟩ := entry
      simp only [deriveEdges, bind_ok] at ran
      obtain ⟨_, middle, first, others⟩ := ran
      obtain ⟨fresh, apart⟩ := List.nodup_cons.mp distinct
      have later := ih apart middle others
      have fresh : edgeOf before rest story = none := edgeOf_absent before rest story fresh
      cases there : before.lookup story with
      | none =>
          rw [there] at first
          obtain ⟨-, rfl⟩ := (pure_ok _ _ _ _).mp first
          have same (other : StoryNo) :
              edgeOf before ((story, next) :: rest) other = edgeOf before rest other := by
            rw [edgeOf_cons, there]
            split
            · next named => rw [named, fresh]; rfl
            · rfl
          refine ⟨later.db, later.derives, ?_, ?_⟩
          · simp only [same]
            exact later.enqueued
          · simp only [same]
            exact later.pending
      | some previous =>
          rw [there] at first
          have edged := deriveEdge_ok gate story previous next start middle _ first
          obtain ⟨added, queued, each⟩ := later.enqueued
          rw [edged.db] at each
          refine ⟨later.db.trans edged.db, later.derives.trans edged.derives,
            ⟨_, by rw [queued, edged.enqueued, List.append_assoc], fun other => ?_⟩,
              fun other => ?_⟩
          · rw [List.filter_append, List.map_append, each, edgeOf_cons, there]
            split
            · next named =>
                subst named
                simp [fresh, List.filter_map, Function.comp_def]
            · next elsewhere =>
                simp [List.filter_map, Function.comp_def, Ne.symm elsewhere]
          · rw [later.pending, edgeOf_cons, there, edged.db]
            split
            · next named =>
                subst named
                rw [fresh]
                exact edged.pending
            · next elsewhere => rw [edged.others other elsewhere]

/-- A story's standing, when the project has it. -/
def standingOf (db : Database) (story : StoryNo) : Option Standing :=
  (db.stories[story]?).bind fun row => (rowStanding (storyMap db) row).toOption

theorem mapM_lookup {κ β γ ε : Type} [BEq κ] (answer : β → Except ε γ) (entries : List (κ × β))
    (results : List (κ × γ))
    (ran : entries.mapM (fun entry => (entry.1, ·) <$> answer entry.2) = .ok results) :
    results.map (·.1) = entries.map (·.1) ∧
      ∀ key, results.lookup key = (entries.lookup key).bind fun value =>
        (answer value).toOption := by
  induction entries generalizing results with
  | nil =>
      rw [List.mapM_nil, Outcome.pure_eq_ok] at ran
      subst ran
      exact ⟨rfl, fun _ => rfl⟩
  | cons entry rest ih =>
      simp only [List.mapM_cons, Outcome.bind_eq_ok, Outcome.pure_eq_ok] at ran
      obtain ⟨first, answered, others, later, rfl⟩ := ran
      obtain ⟨keys, looked⟩ := ih others later
      cases value : answer entry.2 with
      | error failure =>
          rw [value] at answered
          cases answered
      | ok found =>
          rw [value] at answered
          cases answered
          refine ⟨by simp [keys], fun key => ?_⟩
          rw [List.lookup_cons, ← Prod.eta entry, List.lookup_cons]
          cases key == entry.1 with
          | true => simp [value, Except.toOption]
          | false => exact looked key

theorem lookup_distinct {κ β : Type} [BEq κ] [LawfulBEq κ] (entries : List (κ × β))
    (distinct : (entries.map (·.1)).Nodup) (key : κ) (value : β) (member : (key, value) ∈ entries) :
    entries.lookup key = some value := by
  induction entries with
  | nil => cases member
  | cons entry rest ih =>
      obtain ⟨fresh, apart⟩ := List.nodup_cons.mp distinct
      rcases List.mem_cons.mp member with rfl | inside
      · exact List.lookup_cons_self
      · have other : (key == entry.1) = false := by
          rw [beq_eq_false_iff_ne]
          rintro rfl
          exact fresh (List.mem_map.mpr ⟨(entry.1, value), inside, rfl⟩)
        rw [← Prod.eta entry, List.lookup_cons, other]
        exact ih apart inside

theorem lookup_toList (db : Database) (story : StoryNo) :
    db.stories.toList.lookup story = db.stories[story]? := by
  cases stored : db.stories[story]? with
  | some row =>
      refine lookup_distinct _ ?_ story row (Std.TreeMap.mem_toList_iff_getElem?_eq_some.mpr stored)
      rw [Std.TreeMap.map_fst_toList_eq_keys]
      exact Std.TreeMap.nodup_keys
  | none =>
      rw [List.lookup_eq_none_iff]
      intro entry member
      have found := Std.TreeMap.mem_toList_iff_getElem?_eq_some.mp member
      rw [bne_iff_ne]
      rintro rfl
      rw [stored] at found
      cases found

theorem snapshot_ok (db : Database) (listing : List (StoryNo × Standing))
    (ran : snapshot db = .ok listing) :
    (listing.map (·.1)).Nodup ∧ ∀ story, listing.lookup story = standingOf db story := by
  obtain ⟨keys, looked⟩ := mapM_lookup _ _ _ ran
  refine ⟨?_, fun story => by rw [looked, lookup_toList, standingOf]⟩
  rw [keys, Std.TreeMap.map_fst_toList_eq_keys]
  exact Std.TreeMap.nodup_keys

theorem standingOf_present (db : Database) (story : StoryNo) (present : story ∈ db.stories) :
    ∃ found, standingOf db story = some found := by
  have stored := Std.TreeMap.getElem?_eq_some_getElem present
  obtain ⟨effective, known⟩ := storyMap_present db story _ stored
  refine ⟨standing (storyMap db) effective db.stories[story].headGlobalSeq, ?_⟩
  rw [standingOf, stored, Option.bind_some, rowStanding, known]
  rfl

/-- What a mutation may do to delivery intents: take a purged story's with it, revoke a story's
pending ones, or settle one. -/
inductive DeliveryWrite where
  | purge (story : StoryNo)
  | supersedePending (story : StoryNo) (reason : String)
  | settle (delivery : BlockDelivery) (expected : DeliveryStatus)
      (settled : delivery.status ≠ .pending)

def DeliveryWrite.perform : DeliveryWrite → Body Unit
  | .purge story => do
      let tables ← read
      write { tables with deliveries := tables.deliveries.filter (·.story != story) }
  | .supersedePending story reason => (fun _ => ()) <$> Delivery.supersedePending story reason
  | .settle delivery expected _ => (fun _ => ()) <$> updateBlockDelivery delivery expected

/-- A service transaction: what it does to the stories and their catalog, and to the intents. -/
structure Mutation where
  gate : Gate
  change : Tables → Except DeliveryError Database
  writes : Tables → List DeliveryWrite

def cascade (db : Database) (deliveries : List BlockDelivery) : List BlockDelivery :=
  deliveries.filter fun delivery => db.stories.contains delivery.story

def performAll : List DeliveryWrite → Body Unit
  | [] => pure ()
  | first :: rest => do
      first.perform
      performAll rest

def Mutation.body (mutation : Mutation) : Body Unit := do
  let tables ← read
  performAll (mutation.writes tables)
  let left ← read
  let db ← ofExcept (mutation.change tables)
  write { left with db := db, deliveries := cascade db left.deliveries }

def Mutation.derived (mutation : Mutation) : Body Unit :=
  deriveBlockEdges mutation.gate mutation.body

def submit (tables : Tables) (mutation : Mutation) : Tables :=
  (transact mutation.derived tables).2

/-- A transaction with the project's automations on. -/
def Step (before after : Tables) : Prop :=
  ∃ mutation : Mutation, before.db.automationsEnabled = true ∧ after = submit before mutation

/-- What a mutation leaves of the intents before the derivation: nothing pending that was not. -/
structure Lessened (tables after : Tables) : Prop where
  derives : after.derivesBlockEdges = tables.derivesBlockEdges
  shrinks : ∀ story, (pendingOf after story).Sublist (pendingOf tables story)

theorem Lessened.refl (tables : Tables) : Lessened tables tables :=
  ⟨rfl, fun _ => List.Sublist.refl _⟩

theorem Lessened.trans (first second third : Tables) (early : Lessened first second)
    (late : Lessened second third) : Lessened first third :=
  ⟨late.derives.trans early.derives,
    fun story => (late.shrinks story).trans (early.shrinks story)⟩

theorem lessened_filter (tables : Tables) (db : Database) (kept : BlockDelivery → Bool) :
    Lessened tables { tables with db := db, deliveries := tables.deliveries.filter kept } :=
  ⟨rfl, fun _ => List.Sublist.filter _ List.filter_sublist⟩

theorem perform_lessens (written : DeliveryWrite) (tables after : Tables) (done : Unit)
    (ran : written.perform tables = (.ok done, after)) : Lessened tables after := by
  cases written with
  | purge story =>
      simp only [DeliveryWrite.perform, bind_ok, read_ok, write_ok] at ran
      obtain ⟨_, _, ⟨rfl, rfl⟩, rfl⟩ := ran
      exact lessened_filter tables tables.db _
  | supersedePending story reason =>
      rw [DeliveryWrite.perform, map_ok] at ran
      obtain ⟨count, ran, -⟩ := ran
      have revoked := (supersedePending_ok story reason tables after count ran).1
      exact ⟨revoked.derives, revoked.shrinks⟩
  | settle delivery expected settled =>
      rw [DeliveryWrite.perform, map_ok] at ran
      obtain ⟨answer, ran, -⟩ := ran
      obtain rfl := updateBlockDelivery_ok delivery expected tables after answer ran
      have revoked := revoked_update delivery expected tables settled
      exact ⟨revoked.derives, revoked.shrinks⟩

theorem performAll_lessens (writes : List DeliveryWrite) (tables after : Tables) (done : Unit)
    (ran : performAll writes tables = (.ok done, after)) : Lessened tables after := by
  induction writes generalizing tables with
  | nil =>
      obtain ⟨-, rfl⟩ := (pure_ok _ _ _ _).mp ran
      exact Lessened.refl tables
  | cons first rest ih =>
      simp only [performAll, bind_ok] at ran
      obtain ⟨_, middle, performed, later⟩ := ran
      exact (perform_lessens first tables middle _ performed).trans _ _ _ (ih middle later)

theorem body_lessens (mutation : Mutation) (tables after : Tables) (done : Unit)
    (ran : mutation.body tables = (.ok done, after)) :
    Lessened tables after ∧ ∀ delivery ∈ after.deliveries, delivery.story ∈ after.db.stories := by
  simp only [Mutation.body, bind_ok, read_ok, ofExcept_ok, write_ok] at ran
  obtain ⟨_, _, ⟨rfl, rfl⟩, _, left, performed, _, _, ⟨rfl, rfl⟩, db, _, ⟨-, rfl⟩, rfl⟩ := ran
  refine ⟨(performAll_lessens _ _ _ _ performed).trans _ _ _ (lessened_filter _ db _), ?_⟩
  intro delivery member
  exact Std.TreeMap.mem_iff_contains.mpr (List.mem_filter.mp member).2

/-- What a transaction under derivation goes through. -/
structure Ran (mutation : Mutation) (tables left after : Tables)
    (before now : List (StoryNo × Standing)) : Prop where
  body : mutation.body { tables with derivesBlockEdges := true } = (.ok (), left)
  listed : snapshot tables.db = .ok before
  relisted : snapshot left.db = .ok now
  derived : Derived mutation.gate before now { left with derivesBlockEdges := false } after

theorem derived_ok (mutation : Mutation) (tables after : Tables) (done : Unit)
    (enabled : tables.db.automationsEnabled = true) (idle : tables.derivesBlockEdges = false)
    (ran : mutation.derived tables = (.ok done, after)) :
    ∃ left before now, Ran mutation tables left after before now := by
  unfold Mutation.derived deriveBlockEdges at ran
  rw [read_bind, idle, enabled] at ran
  simp only [Bool.false_eq_true, if_false, Bool.not_true, setDerivation, bind_ok, read_ok, write_ok,
    ofExcept_ok, pure_ok] at ran
  obtain ⟨before, _, ⟨listed, rfl⟩, _, _, ⟨_, _, ⟨rfl, rfl⟩, rfl⟩, _, left, body, _, _,
    ⟨_, _, ⟨rfl, rfl⟩, rfl⟩, _, _, ⟨rfl, rfl⟩, now, _, ⟨relisted, rfl⟩, _, _, edges, -, rfl⟩ := ran
  exact ⟨left, before, now, body, listed, relisted,
    deriveEdges_ok mutation.gate before now (snapshot_ok left.db now relisted).1 _ _ _ edges⟩

/-- Intents that have not started, as every transaction leaves them. -/
structure Settled (tables : Tables) : Prop where
  idle : tables.derivesBlockEdges = false
  owned : ∀ delivery ∈ tables.deliveries, delivery.story ∈ tables.db.stories
  agrees : ∀ story found, standingOf tables.db story = some found →
    (pendingOf tables story).map (·.action) = [] ∨
      (found.interruptible = true ∧ (pendingOf tables story).map (·.action) =
        [if found.blocked then .interrupt else .resume])

theorem edgeActions_same (owned : Except DeliveryError Bool) (previous next : Standing)
    (same : previous.blocked = next.blocked) : edgeActions owned previous next = [] := by
  unfold edgeActions
  cases unblocked : next.blocked <;> simp [same, unblocked]

theorem edgeActions_cases (owned : Except DeliveryError Bool) (previous next : Standing) :
    edgeActions owned previous next = [] ∨
      edgeActions owned previous next = [if next.blocked then .interrupt else .resume] := by
  unfold edgeActions
  split
  · next blocks =>
      rw [Bool.and_eq_true] at blocks
      rw [if_pos blocks.2]
      exact Or.inr rfl
  · split
    · next resumes =>
        rw [Bool.and_eq_true, Bool.and_eq_true] at resumes
        split
        · rw [if_neg (by simpa using resumes.1.2)]
          exact Or.inr rfl
        · exact Or.inl rfl
    · exact Or.inl rfl

theorem standing_agrees (owned : Except DeliveryError Bool) (previous next : Standing)
    (before left after : List BlockAction) (shrinks : left.Sublist before)
    (earlier : before = [] ∨ (previous.interruptible = true ∧
      before = [if previous.blocked then .interrupt else .resume]))
    (formula : after = (if previous.blocked != next.blocked || !next.interruptible then []
      else left) ++ if next.interruptible then edgeActions owned previous next else []) :
    after = [] ∨ (next.interruptible = true ∧
      after = [if next.blocked then .interrupt else .resume]) := by
  cases running : next.interruptible with
  | false =>
      left
      simp [formula, running]
  | true =>
      by_cases same : previous.blocked = next.blocked
      · rw [edgeActions_same owned previous next same] at formula
        have kept : after = left := by simp [formula, same, running]
        rcases earlier with none | ⟨-, one⟩
        · exact Or.inl (kept.trans (List.sublist_nil.mp (none ▸ shrinks)))
        · rw [one, List.sublist_singleton] at shrinks
          rcases shrinks with none | single
          · exact Or.inl (kept.trans none)
          · exact Or.inr ⟨rfl, by rw [kept, single, same]⟩
      · have fresh : after = edgeActions owned previous next := by simp [formula, same, running]
        rcases edgeActions_cases owned previous next with none | one
        · exact Or.inl (fresh.trans none)
        · exact Or.inr ⟨rfl, fresh.trans one⟩

section Transaction

variable (mutation : Mutation) (tables left after : Tables) (before now : List (StoryNo × Standing))
  (ran : Ran mutation tables left after before now)

include ran

theorem Ran.edge (story : StoryNo) : edgeOf before now story = do
    let previous ← standingOf tables.db story
    let next ← standingOf after.db story
    return (previous, next) := by
  rw [edgeOf, (snapshot_ok tables.db before ran.listed).2,
    (snapshot_ok left.db now ran.relisted).2, ran.derived.db]

theorem Ran.left_owned : ∀ delivery ∈ left.deliveries, delivery.story ∈ after.db.stories := by
  rw [ran.derived.db]
  exact (body_lessens mutation _ left () ran.body).2

theorem Ran.fresh (settled : Settled tables) (story : StoryNo)
    (absent : standingOf tables.db story = none) : pendingOf left story = [] := by
  have shrinks := (body_lessens mutation _ left () ran.body).1.shrinks story
  have none : pendingOf tables story = [] := by
    refine List.filter_eq_nil_iff.mpr fun delivery member held => ?_
    rw [isPending, Bool.and_eq_true, beq_iff_eq] at held
    have present := settled.owned delivery member
    rw [held.1] at present
    obtain ⟨found, stands⟩ := standingOf_present tables.db story present
    rw [absent] at stands
    cases stands
  exact List.sublist_nil.mp (none ▸ shrinks)

theorem Ran.keeps_owned : ∀ delivery ∈ after.deliveries, delivery.story ∈ after.db.stories := by
  intro delivery member
  obtain ⟨added, queued, each⟩ := ran.derived.enqueued
  have listed : (delivery.story, delivery.action) ∈ enqueued after :=
    List.mem_map.mpr ⟨delivery, member, rfl⟩
  rw [queued, List.mem_append] at listed
  rcases listed with older | newer
  · obtain ⟨other, inside, same⟩ := List.mem_map.mp older
    have owned := Ran.left_owned mutation tables left after before now ran other inside
    rw [Prod.mk.injEq] at same
    exact same.1 ▸ owned
  · have named : delivery.action ∈
        (added.filter (·.1 == delivery.story)).map (·.2) :=
      List.mem_map.mpr ⟨_, List.mem_filter.mpr ⟨newer, beq_self_eq_true _⟩, rfl⟩
    rw [each, Ran.edge mutation tables left after before now ran] at named
    cases stored : after.db.stories[delivery.story]? with
    | some row => exact Std.TreeMap.mem_iff_isSome_getElem?.mpr (by rw [stored]; rfl)
    | none =>
        have gone : standingOf after.db delivery.story = none := by rw [standingOf, stored]; rfl
        rw [gone] at named
        cases earlier : standingOf tables.db delivery.story <;> simp [earlier] at named

theorem Ran.keeps_settled (settled : Settled tables) : Settled after where
  idle := ran.derived.derives
  owned := Ran.keeps_owned mutation tables left after before now ran
  agrees := by
    intro story next stands
    have pending := ran.derived.pending story
    rw [Ran.edge mutation tables left after before now ran, stands] at pending
    cases there : standingOf tables.db story with
    | none =>
        rw [there] at pending
        have none := Ran.fresh mutation tables left after before now ran settled story there
        left
        have kept : (pendingOf after story).map (·.action) =
            (pendingOf left story).map (·.action) := pending
        rw [kept, none, List.map_nil]
    | some previous =>
        rw [there] at pending
        have shrinks := ((body_lessens mutation _ left () ran.body).1.shrinks story).map (·.action)
        have earlier := settled.agrees story previous there
        have formula : (pendingOf after story).map (·.action) =
            (if previous.blocked != next.blocked || !next.interruptible then []
              else (pendingOf left story).map (·.action)) ++
              if next.interruptible then
                edgeActions (mutation.gate.ownsResume left.db story) previous next else [] := pending
        exact standing_agrees _ previous next _ _ _ shrinks earlier formula

end Transaction

theorem submit_settled (mutation : Mutation) (tables : Tables)
    (enabled : tables.db.automationsEnabled = true) (settled : Settled tables) :
    Settled (submit tables mutation) := by
  unfold submit
  rcases ran : transact mutation.derived tables with ⟨failure | done, after⟩
  · rw [transact_error _ _ _ _ ran]
    exact settled
  · obtain ⟨left, before, now, went⟩ := derived_ok mutation tables after done enabled settled.idle
      ((transact_ok _ _ _ _).mp ran)
    exact Ran.keeps_settled mutation tables left after before now went settled

theorem reachable_settled (start tables : Tables) (fresh : start.deliveries = [])
    (idle : start.derivesBlockEdges = false) (reached : Runs.Reachable Step start tables) :
    Settled tables := by
  refine Runs.reachable_invariant Step Settled start tables ?_ ?_ reached
  · refine ⟨idle, ?_, fun story found _ => Or.inl ?_⟩
    · rw [fresh]
      exact fun _ member => absurd member List.not_mem_nil
    · rw [pendingOf, fresh]
      rfl
  · rintro before after settled ⟨mutation, enabled, rfl⟩
    exact submit_settled mutation before enabled settled

/-- What a transaction enqueues for a story, given how it stood before and stands after. -/
def enqueuedFor (added : List (StoryNo × BlockAction)) (story : StoryNo) : List BlockAction :=
  (added.filter (·.1 == story)).map (·.2)

/-- Exactly the intents of the stories that were there before and whose blocking changed. -/
structure Enqueues (mutation : Mutation) (tables after : Tables)
    (added : List (StoryNo × BlockAction)) : Prop where
  interrupt : ∀ story previous next, standingOf tables.db story = some previous →
    standingOf after.db story = some next → previous.blocked = false → next.blocked = true →
      enqueuedFor added story = [.interrupt]
  resume : ∀ story previous next, standingOf tables.db story = some previous →
    standingOf after.db story = some next → previous.blocked = true → next.blocked = false →
      next.active = true → mutation.gate.ownsResume after.db story = .ok false →
        enqueuedFor added story = [.resume]
  unchanged : ∀ story previous next, standingOf tables.db story = some previous →
    standingOf after.db story = some next → (previous.blocked = next.blocked ∨
      (next.blocked = false ∧ (next.active = false ∨
        mutation.gate.ownsResume after.db story ≠ .ok false))) → enqueuedFor added story = []
  created : ∀ story, standingOf tables.db story = none ∨ standingOf after.db story = none →
    enqueuedFor added story = []

theorem Ran.enqueues (mutation : Mutation) (tables left after : Tables)
    (before now : List (StoryNo × Standing)) (ran : Ran mutation tables left after before now) :
    ∃ added, enqueued after = enqueued left ++ added ∧ Enqueues mutation tables after added := by
  obtain ⟨added, queued, each⟩ := ran.derived.enqueued
  have rule (story : StoryNo) (previous next : Standing)
      (earlier : standingOf tables.db story = some previous)
      (later : standingOf after.db story = some next) : enqueuedFor added story =
        edgeActions (mutation.gate.ownsResume after.db story) previous next := by
    rw [enqueuedFor, each, Ran.edge mutation tables left after before now ran, earlier, later,
      ran.derived.db]
    rfl
  refine ⟨added, queued, ?_, ?_, ?_, ?_⟩
  · intro story previous next earlier later free held
    rw [rule story previous next earlier later]
    simp [edgeActions, free, held]
  · intro story previous next earlier later held free active owned
    rw [rule story previous next earlier later, owned]
    simp [edgeActions, free, held, active, Except.toOption]
  · intro story previous next earlier later still
    rw [rule story previous next earlier later]
    rcases still with same | ⟨free, idle | kept⟩
    · exact edgeActions_same _ previous next same
    · simp [edgeActions, free, idle]
    · have other : (mutation.gate.ownsResume after.db story).toOption ≠ some false := by
        cases owned : mutation.gate.ownsResume after.db story with
        | error failure => simp [Except.toOption]
        | ok answer =>
            rw [owned] at kept
            simpa [Except.toOption] using kept
      simp [edgeActions, free, other]
  · intro story absent
    rw [enqueuedFor, each, Ran.edge mutation tables left after before now ran]
    rcases absent with none | none
    · simp [none]
    · cases standingOf tables.db story <;> simp [none]

/-- Block delivery matches effective blocking over every run. -/
theorem block_delivery_over_runs (start tables : Tables) (fresh : start.deliveries = [])
    (idle : start.derivesBlockEdges = false) (reached : Runs.Reachable Step start tables) :
    (∀ story ∈ tables.db.stories, ∃ found, standingOf tables.db story = some found ∧
      (pendingOf tables story).length ≤ 1 ∧ ∀ delivery ∈ pendingOf tables story,
        found.interruptible = true ∧
          (delivery.action = .interrupt ↔ found.blocked = true)) ∧
    ∀ mutation : Mutation, tables.db.automationsEnabled = true →
      (∀ failure after, transact mutation.derived tables = (.error failure, after) →
        after = tables) ∧
      (∀ after, transact mutation.derived tables = (.ok (), after) → ∃ left added,
        mutation.body { tables with derivesBlockEdges := true } = (.ok (), left) ∧
          after.db = left.db ∧ enqueued after = enqueued left ++ added ∧
          Enqueues mutation tables after added) := by
  have settled := reachable_settled start tables fresh idle reached
  refine ⟨fun story present => ?_, fun mutation enabled => ⟨?_, ?_⟩⟩
  · obtain ⟨found, stands⟩ := standingOf_present tables.db story present
    refine ⟨found, stands, ?_⟩
    rcases settled.agrees story found stands with none | ⟨running, one⟩
    · rw [List.map_eq_nil_iff] at none
      simp [none]
    · obtain ⟨delivery, single, acts⟩ := List.map_eq_singleton_iff.mp one
      rw [single]
      refine ⟨Nat.le_refl _, ?_⟩
      rw [List.forall_mem_singleton, acts]
      exact ⟨running, by cases found.blocked <;> simp⟩
  · exact fun failure after failed => transact_error _ _ _ _ failed
  · intro after ran
    obtain ⟨left, before, now, went⟩ := derived_ok mutation tables after () enabled settled.idle
      ((transact_ok _ _ _ _).mp ran)
    obtain ⟨added, queued, each⟩ := Ran.enqueues mutation tables left after before now went
    exact ⟨left, added, went.body, went.derived.db, queued, each⟩

def oneStory (awaiting : Option String) : Database :=
  { blankProject with
    stories := .ofList [(1, storyRow blankProject 1
      { relatedSnapshot "SH-1" [] with
        superstate := .open
        state := "in-progress"
        awaiting := awaiting } 1)] }

def setHold (awaiting : Option String) : Mutation where
  gate := ⟨none, fun _ _ => .ok false⟩
  change := fun _ => .ok (oneStory awaiting)
  writes := fun _ => []

/-- A hold that is set and lifted leaves the resume pending and the interrupt revoked. -/
theorem block_delivery_hold_lifted :
    (submit (submit ⟨oneStory none, [], false⟩ (setHold (some "review"))) (setHold none)).deliveries =
        [⟨1, 1, .interrupt, .superseded, none, "effective block episode ended"⟩,
          ⟨2, 1, .resume, .pending, none, ""⟩] ∧
      ∃ found, standingOf
          (submit (submit ⟨oneStory none, [], false⟩ (setHold (some "review"))) (setHold none)).db 1 =
        some found ∧ found.blocked = false := by
  have first : Step ⟨oneStory none, [], false⟩
      (submit ⟨oneStory none, [], false⟩ (setHold (some "review"))) := ⟨_, rfl, rfl⟩
  have second : Step (submit ⟨oneStory none, [], false⟩ (setHold (some "review")))
      (submit (submit ⟨oneStory none, [], false⟩ (setHold (some "review"))) (setHold none)) :=
    ⟨_, by decide +kernel, rfl⟩
  have deliveries : (submit (submit ⟨oneStory none, [], false⟩ (setHold (some "review")))
      (setHold none)).deliveries =
        [⟨1, 1, .interrupt, .superseded, none, "effective block episode ended"⟩,
          ⟨2, 1, .resume, .pending, none, ""⟩] := by decide +kernel
  refine ⟨deliveries, ?_⟩
  obtain ⟨found, stands, -, agrees⟩ := (block_delivery_over_runs
    ⟨oneStory none, [], false⟩ _ rfl rfl
    ((Relation.ReflTransGen.single first).tail second)).1 1 (by decide +kernel)
  refine ⟨found, stands, ?_⟩
  have resume := (agrees ⟨2, 1, .resume, .pending, none, ""⟩ (by
    rw [pendingOf, deliveries]
    decide)).2
  simpa using resume

end Storyhook.Service.Delivery
