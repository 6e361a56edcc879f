import Mathlib.Data.List.Perm.Subperm
import Storyhook.Store.LandingGroups
import Storyhook.Service.BatchLanding

namespace Storyhook.Service

open Storyhook.Store
open Library Library.Outcome

variable {ω : Type}

/-- What the check of a group finds, where it passes. -/
structure GroupValid (batches : List VerificationBatch) (group : BatchLandingIntent)
    (record : VerificationBatch) : Prop where
  listed : record ∈ batches
  id : record.id = group.batch.id
  bound : ∀ row ∈ group.rows, row.batch = some group.batch ∧
    row.certification = group.certification ∧ row.project = record.project
  member : ∀ row ∈ group.rows, row.story ∈ record.members.map (·.story)
  phase : record.phase = .landed ∨
    record.phase = .landing ∧ group.rows.length + record.withdrawn.length = record.members.length ∧
      ∀ row ∈ group.rows, row.story ∉ record.withdrawn

theorem checkPhase_ok (record : VerificationBatch) (group : BatchLandingIntent)
    (ran : checkPhase record group = .ok ()) : record.phase = .landed ∨
      record.phase = .landing ∧
        group.rows.length + record.withdrawn.length = record.members.length ∧
        ∀ row ∈ group.rows, row.story ∉ record.withdrawn := by
  unfold checkPhase at ran
  split at ran
  · next landing =>
      simp only [refuse_ok, Bool.or_eq_false_iff, decide_eq_false_iff_not, not_not,
        List.any_eq_false, List.contains_iff_mem] at ran
      exact Or.inr ⟨landing, ran⟩
  · next landed => exact Or.inl landed
  · cases ran

theorem validateBatch_ok (batches : List VerificationBatch) (group : BatchLandingIntent)
    (some : group.rows ≠ []) (ran : validateBatch batches group = .ok ()) :
    ∃ record, GroupValid batches group record := by
  unfold validateBatch at ran
  split at ran
  · next none => exact absurd none some
  · next first others _ =>
      simp only [bind_eq_ok, refuse_ok, demand_ok, List.any_eq_false, Bool.or_eq_true,
        decide_eq_true_eq, not_or, not_not] at ran
      obtain ⟨_, agree, record, found, _, _, _, rows, phase⟩ := ran
      have listed := List.mem_of_find?_eq_some found
      have matching := List.find?_some found
      rw [Bool.and_eq_true, beq_iff_eq, beq_iff_eq] at matching
      refine ⟨record, listed, matching.2, fun row member => ?_, fun row member => ?_,
        checkPhase_ok record group phase⟩
      · obtain ⟨⟨⟨bound, certified⟩, project⟩, _⟩ := agree row member
        exact ⟨bound, certified, project.trans matching.1.symm⟩
      · have checked := forM_ok _ _ rows row member
        simp only [checkMember, bind_eq_ok, demand_ok] at checked
        obtain ⟨landed, there, _⟩ := checked
        have same := List.find?_some there
        exact List.mem_map.mpr ⟨landed, List.mem_of_find?_eq_some there, beq_iff_eq.mp same⟩

/-- Tables as their constraints and the check before every commit leave them. -/
structure Committed (services : Submissions ω) (store : LandingStore ω) : Prop where
  accepted : validatePending services.toFences store = .ok ()
  keys : (store.intents.map fun row => (row.project, row.story)).Nodup
  ids : (store.batches.map (·.id)).Nodup
  sound : ∀ record ∈ store.batches, record.Sound

/-- Every batch that is landing can still be found from an intent. -/
def Recoverable (store : LandingStore ω) : Prop :=
  ∀ record ∈ store.batches, record.phase = .landing → store.rowsOf record ≠ []

/-- What the rows that remain of a batch say about its record. -/
structure RowsValid (store : LandingStore ω) (record : VerificationBatch) : Prop where
  bound : ∃ batch certification, ∀ row ∈ store.rowsOf record, row.batch = some batch ∧
    row.certification = certification ∧ row.project = record.project
  member : ∀ row ∈ store.rowsOf record, row.story ∈ record.members.map (·.story)
  phase : record.phase = .landed ∨ record.phase = .landing ∧
    (store.rowsOf record).length + record.withdrawn.length = record.members.length ∧
    ∀ row ∈ store.rowsOf record, row.story ∉ record.withdrawn

section Exact

variable (services : Submissions ω) (store : LandingStore ω) (committed : Committed services store)

include committed

theorem Committed.rows (record : VerificationBatch) (listed : record ∈ store.batches)
    (some : store.rowsOf record ≠ []) : RowsValid store record := by
  obtain ⟨row, member⟩ := List.exists_mem_of_ne_nil _ some
  obtain ⟨inside, bound, bindsTo, same⟩ := (rowsOfBatch_mem _ _ _).mp member
  have grouped := collect_grouped store.intents
  obtain ⟨group, there, shared⟩ := grouped.covered row inside bound bindsTo
  obtain ⟨rows, filled⟩ := grouped.rows group there
  have accepted := committed.accepted
  simp only [validatePending, bind_eq_ok] at accepted
  obtain ⟨_, _, groups⟩ := accepted
  obtain ⟨found, valid⟩ := validateBatch_ok store.batches group filled
    (forM_ok _ _ groups group there)
  have one : found = record :=
    List.inj_on_of_nodup_map committed.ids valid.listed listed
      (valid.id.trans (shared.trans same))
  rw [one] at valid
  have all : store.rowsOf record = group.rows := by
    rw [rows, LandingStore.rowsOf, valid.id]
  refine ⟨⟨group.batch, group.certification, ?_⟩, ?_, ?_⟩
  · rw [all]
    exact valid.bound
  · rw [all]
    exact valid.member
  · rw [all]
    exact valid.phase

theorem Committed.apart (record : VerificationBatch) (valid : RowsValid store record) :
    ((store.rowsOf record).map (·.story)).Nodup := by
  obtain ⟨batch, certification, bound⟩ := valid.bound
  have keys : ((store.rowsOf record).map fun row => (row.project, row.story)).Nodup :=
    committed.keys.sublist (List.filter_sublist.map _)
  refine List.pairwise_map.mpr ((List.pairwise_map.mp keys).imp_of_mem ?_)
  intro left right leftIn rightIn differ same
  refine differ (Prod.ext ?_ same)
  exact (bound left leftIn).2.2.trans (bound right rightIn).2.2.symm

theorem Committed.exact (record : VerificationBatch) (listed : record ∈ store.batches)
    (landing : record.phase = .landing) (some : store.rowsOf record ≠ []) (story : StoryNo)
    (member : story ∈ record.members.map (·.story)) (kept : story ∉ record.withdrawn) :
    story ∈ (store.rowsOf record).map (·.story) := by
  have valid := committed.rows services store record listed some
  have sound := committed.sound record listed
  rcases valid.phase with landed | ⟨_, count, free⟩
  · rw [landing] at landed
    cases landed
  · have apart : ((store.rowsOf record).map (·.story) ++ record.withdrawn).Nodup := by
      refine List.Nodup.append (committed.apart services store record valid) sound.once ?_
      intro other inside withdrawn
      obtain ⟨row, there, rfl⟩ := List.mem_map.mp inside
      exact free row there withdrawn
    have within : (store.rowsOf record).map (·.story) ++ record.withdrawn ⊆
        record.members.map (·.story) := by
      intro other inside
      rcases List.mem_append.mp inside with pending | withdrawn
      · obtain ⟨row, there, rfl⟩ := List.mem_map.mp pending
        exact valid.member row there
      · exact sound.members other withdrawn
    have full : (record.members.map (·.story)).length ≤
        ((store.rowsOf record).map (·.story) ++ record.withdrawn).length :=
      Nat.le_of_eq (by rw [List.length_append, List.length_map, List.length_map, count])
    have everyone := (List.Nodup.subperm apart within).perm_of_length_le full
    rcases List.mem_append.mp (everyone.mem_iff.mpr member) with row | withdrawn
    · exact row
    · exact absurd withdrawn kept

theorem Committed.single (record : VerificationBatch) (listed : record ∈ store.batches)
    (landing : record.phase = .landing) (some : store.rowsOf record ≠ []) (member : BatchMember)
    (inside : member ∈ record.members) (kept : member.story ∉ record.withdrawn) :
    (store.rowsOf record).countP (·.story == member.story) = 1 := by
  have valid := committed.rows services store record listed some
  have apart := committed.apart services store record valid
  have present := committed.exact services store record listed landing some member.story
    (List.mem_map.mpr ⟨member, inside, rfl⟩) kept
  have counted := List.count_eq_one_of_mem apart present
  rwa [List.count, List.countP_map] at counted

end Exact

/-- What the intents of a batch are in each phase of its record. -/
structure Authority (store : LandingStore ω) (record : VerificationBatch) : Prop where
  landing : record.phase = .landing →
    store.rowsOf record ≠ [] ∧
    (∀ member ∈ record.members, member.story ∉ record.withdrawn →
      (store.rowsOf record).countP (·.story == member.story) = 1) ∧
    (∀ row ∈ store.rowsOf record, row.story ∉ record.withdrawn) ∧
    ∃ batch certification, ∀ row ∈ store.rowsOf record,
      row.batch = some batch ∧ row.certification = certification
  members : ∀ row ∈ store.rowsOf record, row.story ∈ record.members.map (·.story)
  ended : record.phase ≠ .landing → record.phase ≠ .landed → store.rowsOf record = []

theorem Committed.authority (services : Submissions ω) (store : LandingStore ω)
    (committed : Committed services store) (recoverable : Recoverable store)
    (record : VerificationBatch) (listed : record ∈ store.batches) : Authority store record where
  landing := by
    intro landing
    have some := recoverable record listed landing
    have valid := committed.rows services store record listed some
    obtain ⟨batch, certification, bound⟩ := valid.bound
    refine ⟨some, fun member inside kept => ?_, ?_, batch, certification, fun row member => ?_⟩
    · exact committed.single services store record listed landing some member inside kept
    · rcases valid.phase with landed | ⟨_, _, free⟩
      · rw [landing] at landed
        cases landed
      · exact free
    · exact ⟨(bound row member).1, (bound row member).2.1⟩
  members := by
    intro row member
    exact (committed.rows services store record listed
      (List.ne_nil_of_mem member)).member row member
  ended := by
    intro unlanding unlanded
    by_contra some
    rcases (committed.rows services store record listed some).phase with landed | ⟨landing, _⟩
    · exact unlanded landed
    · exact unlanding landing

end Storyhook.Service
