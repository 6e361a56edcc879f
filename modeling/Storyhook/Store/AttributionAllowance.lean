import Mathlib.Data.List.Nodup
import Storyhook.Store.Attribution
import Storyhook.Library.Keyed

namespace Storyhook.Store

open Storyhook.Service
open Library Library.Outcome

/-- The records of a submitted generation. -/
def generationOf (table : Attributions) (submission : GateSubmission) : List AttributionRecord :=
  table.filter fun row => row.submission.sameGeneration submission

def inFlight (record : AttributionRecord) : Nat :=
  (if record.preparation.any (·.unsettled) then 1 else 0) + record.probes.countP (·.unsettled)

def Reserves (old next : AttributionRecord) : Prop :=
  (old.preparation = none ∧ next.preparation ≠ none) ∨ next.probes.length ≠ old.probes.length

/-- Nothing that a record has completed, planned, assessed or charged is different later. -/
structure Retains (record later : AttributionRecord) : Prop where
  id : later.id = record.id
  submission : later.submission = record.submission
  prepared : record.preparation.isSome → later.preparation.isSome
  preparation : ∀ preparation, record.preparation = some preparation →
    preparation.completed.isSome → later.preparation = some preparation
  settlement : ∀ settlement, record.settlement = some settlement →
    later.settlement = some settlement
  plans : record.plans <+: later.plans
  assessments : record.assessments <+: later.assessments
  charged : record.diagnosisMs ≤ later.diagnosisMs
  reserved : record.probes.map (·.id) <+: later.probes.map (·.id)
  probes : ∀ (index : Nat) (probe : DiagnosticProbe), record.probes[index]? = some probe →
    probe.completed.isSome → later.probes[index]? = some probe

theorem inFlight_zero (record : AttributionRecord) :
    inFlight record = 0 ↔ record.hasUnsettledExecution = false := by
  simp only [inFlight, AttributionRecord.hasUnsettledExecution, Bool.or_eq_false_iff,
    Nat.add_eq_zero_iff, List.countP_eq_zero, List.any_eq_false, ite_eq_right_iff,
    Nat.one_ne_zero, imp_false, Bool.not_eq_true]

theorem executionSettled (record : AttributionRecord)
    (settled : record.hasUnsettledDiagnosis = false) : record.hasUnsettledExecution = false := by
  rw [AttributionRecord.hasUnsettledDiagnosis, Bool.or_eq_false_iff] at settled
  exact settled.1

section Reservation

variable (rfc3339 : String → Bool)

theorem decode_same (record decoded : AttributionRecord)
    (ran : decode rfc3339 record = .ok decoded) : decoded = record := by
  unfold decode at ran
  split at ran
  · exact (Except.ok.inj ran).symm
  · cases ran

theorem mapM_decode (rows records : List AttributionRecord)
    (ran : rows.mapM (decode rfc3339) = .ok records) : records = rows := by
  induction rows generalizing records with
  | nil =>
      rw [List.mapM_nil, pure_eq_ok] at ran
      exact ran.symm
  | cons row rest further =>
      simp only [List.mapM_cons, bind_eq_ok, pure_eq_ok] at ran
      obtain ⟨first, decoded, others, later, rfl⟩ := ran
      rw [decode_same rfc3339 row first decoded, further others later]

theorem generationOf_listed (table : Attributions) (submission : GateSubmission)
    (records : List AttributionRecord)
    (ran : listAttributions rfc3339 table submission.project = .ok records) :
    (records.filter fun record => record.submission.sameGeneration submission) =
      generationOf table submission := by
  rw [mapM_decode rfc3339 _ records ran, List.filter_filter, generationOf]
  refine List.filter_congr fun row _ => ?_
  rw [Bool.and_eq_left_iff_imp]
  intro same
  exact beq_iff_eq.mpr ((GateSubmission.sameGeneration_iff _ _).mp same).1

theorem reservationSteps (old next : AttributionRecord) (records : List AttributionRecord)
    (used : Nat × Nat) (ran : records.foldlM (reservationStep old next) (0, 0) = .ok used) :
    used = ((records.map (·.probes.length)).sum, (records.map (·.diagnosisMs)).sum) ∧
      ∀ record ∈ records, record.hasUnsettledExecution = false := by
  refine foldlM_ok (reservationStep old next)
    (fun done used =>
      used = ((done.map (·.probes.length)).sum, (done.map (·.diagnosisMs)).sum) ∧
        ∀ record ∈ done, record.hasUnsettledExecution = false)
    records ?_ (0, 0) used ⟨rfl, fun record none => by cases none⟩ ran
  intro done record rest before after _ holds stepped
  obtain ⟨rfl, settled⟩ := holds
  simp only [reservationStep, bind_eq_ok, refuse_ok, pure_eq_ok] at stepped
  obtain ⟨_, _, _, _, _, free, rfl⟩ := stepped
  constructor
  · simp only [List.map_append, List.map_singleton, List.sum_append, List.sum_singleton]
  · intro other member
    rcases List.mem_append.mp member with earlier | here
    · exact settled other earlier
    · rw [List.mem_singleton.mp here]
      split at free
      · exact free
      · exact executionSettled record free

/-- What an update that reserves work has been checked for. -/
structure ReservationChecked (table : Attributions) (old next : AttributionRecord) : Prop where
  shape : validPreparation old next = true ∨ validProbe old next = true
  charged : next.diagnosisMs = old.diagnosisMs
  probes : ((generationOf table next.submission).map (·.probes.length)).sum < maxProbes
  time : ((generationOf table next.submission).map (·.diagnosisMs)).sum < maxDiagnosisMs
  settled : ∀ row ∈ generationOf table next.submission, row.hasUnsettledExecution = false

theorem checkReservation_ok (table : Attributions) (old next : AttributionRecord)
    (ran : checkReservation rfc3339 table old next = .ok ()) :
    (isPreparing old next = false ∧ isProbing old next = false) ∨
      ReservationChecked table old next := by
  unfold checkReservation at ran
  split at ran
  · next idle =>
      rw [Bool.and_eq_true, Bool.not_eq_true', Bool.not_eq_true'] at idle
      exact Or.inl idle
  · right
    simp only [bind_eq_ok, refuse_ok, Bool.or_eq_false_iff, Bool.and_eq_false_iff,
      Bool.not_eq_false', decide_eq_false_iff_not, not_not, ge_iff_le, Nat.not_le] at ran
    obtain ⟨_, ⟨⟨⟨_, shape⟩, _⟩, charged⟩, records, listed, used, summed, starts, time⟩ := ran
    rw [generationOf_listed rfc3339 table next.submission records listed] at summed
    obtain ⟨rfl, settled⟩ := reservationSteps old next _ used summed
    exact ⟨shape, charged, starts, time, settled⟩

end Reservation

section Preserved

variable (record next : AttributionRecord)

theorem unsettled_preserved (old new : DiagnosticProbe)
    (preserved : AttributionRecord.probePreserved old new = true)
    (unsettled : new.unsettled = true) :
    old.unsettled = true := by
  simp only [AttributionRecord.probePreserved, Bool.and_eq_true, Bool.or_eq_true, beq_iff_eq,
    Option.isNone_iff_eq_none] at preserved
  unfold DiagnosticProbe.unsettled at unsettled ⊢
  rcases preserved.2 with none | same
  · rw [none]
    rfl
  · rwa [same]

theorem countP_preserved (old new : List DiagnosticProbe) (same : new.length = old.length)
    (preserved : ∀ pair ∈ old.zip new, AttributionRecord.probePreserved pair.1 pair.2 = true) :
    new.countP (·.unsettled) ≤ old.countP (·.unsettled) := by
  induction old generalizing new with
  | nil =>
      rw [List.length_nil, List.length_eq_zero_iff] at same
      subst same
      exact Nat.le_refl _
  | cons probe rest further =>
      cases new with
      | nil => cases same
      | cons changed others =>
          rw [List.zip_cons_cons, List.forall_mem_cons] at preserved
          have tail := further others (Nat.succ.inj same) preserved.2
          rw [List.countP_cons, List.countP_cons]
          have head : (if changed.unsettled = true then 1 else 0) ≤
              (if probe.unsettled = true then 1 else 0) := by
            split
            · next unsettled =>
                exact Nat.le_of_eq
                  (if_pos (unsettled_preserved probe changed preserved.1 unsettled)).symm
            · exact Nat.zero_le _
          exact Nat.add_le_add tail head

/-- What the next revision of a record that is not retired keeps. -/
structure Preserved : Prop where
  id : record.id = next.id
  submission : record.submission = next.submission
  preparation : ∀ old, record.preparation = some old →
    ∃ new, next.preparation = some new ∧ old.preservedBy new = true
  settlement : ∀ old, record.settlement = some old → next.settlement = some old
  plans : record.plans <+: next.plans
  assessments : record.assessments <+: next.assessments
  charged : record.diagnosisMs ≤ next.diagnosisMs
  reserved : record.probes.length ≤ next.probes.length
  probes : ∀ pair ∈ record.probes.zip next.probes,
    AttributionRecord.probePreserved pair.1 pair.2 = true

theorem probePreserved_refl (probe : DiagnosticProbe) :
    AttributionRecord.probePreserved probe probe = true := by
  simp [AttributionRecord.probePreserved]

theorem preservedBy_preserved (kept : record.preservedBy next = true) : Preserved record next := by
  unfold AttributionRecord.preservedBy at kept
  split at kept
  · have same := beq_iff_eq.mp kept
    rw [same]
    refine ⟨rfl, rfl, fun old found => ⟨old, found, ?_⟩, fun old found => found,
      List.prefix_refl _, List.prefix_refl _, Nat.le_refl _, Nat.le_refl _, ?_⟩
    · simp [DiagnosticPreparation.preservedBy]
    · intro pair member
      obtain ⟨index, there⟩ := List.mem_iff_getElem?.mp member
      obtain ⟨left, right⟩ := List.getElem?_zip_eq_some.mp there
      rw [Option.some.inj (left.symm.trans right)]
      exact probePreserved_refl pair.2
  · simp only [Bool.and_eq_true, beq_iff_eq, decide_eq_true_eq, List.isPrefixOf_iff_prefix,
      Option.all_eq_true, Option.any_eq_true, List.all_eq_true, ge_iff_le] at kept
    obtain ⟨⟨⟨⟨⟨⟨⟨⟨⟨⟨⟨⟨⟨⟨id, _⟩, submission⟩, _⟩, _⟩, _⟩, _⟩, preparation⟩, settlement⟩, plans⟩,
      assessments⟩, _⟩, charged⟩, reserved⟩, probes⟩ := kept
    exact ⟨id, submission, preparation, settlement, plans, assessments, charged, reserved, probes⟩

theorem Preserved.probe {record next : AttributionRecord} (preserved : Preserved record next)
    (index : Nat) (old : DiagnosticProbe) (there : record.probes[index]? = some old) :
    ∃ new, next.probes[index]? = some new ∧ AttributionRecord.probePreserved old new = true := by
  obtain ⟨bound, _⟩ := List.getElem?_eq_some_iff.mp there
  have within := Nat.lt_of_lt_of_le bound preserved.reserved
  refine ⟨next.probes[index], List.getElem?_eq_getElem within, ?_⟩
  refine preserved.probes (old, next.probes[index]) (List.mem_iff_getElem?.mpr ⟨index, ?_⟩)
  exact List.getElem?_zip_eq_some.mpr ⟨there, List.getElem?_eq_getElem within⟩

theorem Preserved.retains {record next : AttributionRecord} (preserved : Preserved record next) :
    Retains record next where
  id := preserved.id.symm
  submission := preserved.submission.symm
  prepared := by
    intro some
    obtain ⟨old, found⟩ := Option.isSome_iff_exists.mp some
    obtain ⟨new, later, _⟩ := preserved.preparation old found
    rw [later]
    rfl
  preparation := by
    intro old found completed
    obtain ⟨new, later, kept⟩ := preserved.preparation old found
    simp only [DiagnosticPreparation.preservedBy, Bool.and_eq_true, Bool.or_eq_true, beq_iff_eq,
      Option.isNone_iff_eq_none] at kept
    rw [later]
    rcases kept.2 with none | same
    · rw [none] at completed
      cases completed
    · cases old
      cases new
      simp only at kept same
      rw [kept.1, same]
  settlement := preserved.settlement
  plans := preserved.plans
  assessments := preserved.assessments
  charged := preserved.charged
  reserved := by
    rw [List.prefix_iff_getElem?]
    intro index bound
    rw [List.length_map] at bound
    obtain ⟨new, later, kept⟩ :=
      preserved.probe index record.probes[index] (List.getElem?_eq_getElem bound)
    simp only [AttributionRecord.probePreserved, Bool.and_eq_true, beq_iff_eq] at kept
    rw [List.getElem?_map, later, List.getElem_map, Option.map_some, kept.1.1.1.1]
  probes := by
    intro index old there completed
    obtain ⟨new, later, kept⟩ := preserved.probe index old there
    simp only [AttributionRecord.probePreserved, Bool.and_eq_true, Bool.or_eq_true, beq_iff_eq,
      Option.isNone_iff_eq_none] at kept
    rw [later]
    obtain ⟨⟨⟨⟨id, plan⟩, side⟩, started⟩, none | same⟩ := kept
    · rw [none] at completed
      cases completed
    · cases old
      cases new
      simp only at id plan side started same
      rw [id, plan, side, started, same]

theorem Retains.refl (record : AttributionRecord) : Retains record record where
  id := rfl
  submission := rfl
  prepared := fun some => some
  preparation := fun _ found _ => found
  settlement := fun _ found => found
  plans := List.prefix_refl _
  assessments := List.prefix_refl _
  charged := Nat.le_refl _
  reserved := List.prefix_refl _
  probes := fun _ _ found _ => found

theorem Retains.trans {record middle later : AttributionRecord} (first : Retains record middle)
    (second : Retains middle later) : Retains record later where
  id := second.id.trans first.id
  submission := second.submission.trans first.submission
  prepared := fun some => second.prepared (first.prepared some)
  preparation := fun preparation found completed =>
    second.preparation preparation (first.preparation preparation found completed) completed
  settlement := fun settlement found => second.settlement settlement (first.settlement _ found)
  plans := first.plans.trans second.plans
  assessments := first.assessments.trans second.assessments
  charged := Nat.le_trans first.charged second.charged
  reserved := first.reserved.trans second.reserved
  probes := fun index probe found completed =>
    second.probes index probe (first.probes index probe found completed) completed

theorem Preserved.inFlight {record next : AttributionRecord} (preserved : Preserved record next)
    (unprepared : isPreparing record next = false) (unprobed : isProbing record next = false) :
    inFlight next ≤ inFlight record := by
  apply Nat.add_le_add
  · split
    · next unsettled =>
        rw [Option.any_eq_true] at unsettled
        obtain ⟨new, later, running⟩ := unsettled
        cases found : record.preparation with
        | none => simp only [isPreparing, found, later, Option.isNone_none, Option.isSome_some,
            Bool.and_self, Bool.true_eq_false] at unprepared
        | some old =>
            obtain ⟨same, there, kept⟩ := preserved.preparation old found
            obtain rfl := Option.some.inj (later.symm.trans there)
            simp only [DiagnosticPreparation.preservedBy, Bool.and_eq_true, Bool.or_eq_true,
              beq_iff_eq, Option.isNone_iff_eq_none] at kept
            have still : old.unsettled = true := by
              unfold DiagnosticPreparation.unsettled at running ⊢
              rcases kept.2 with none | equal
              · rw [none]
                rfl
              · rwa [equal]
            simp only [Option.any_some, still, if_true, Nat.le_refl]
    · exact Nat.zero_le _
  · refine countP_preserved record.probes next.probes ?_ preserved.probes
    simpa only [isProbing, bne_eq_false_iff_eq] using unprobed

end Preserved

theorem ReservationChecked.longer (table : Attributions) (old next : AttributionRecord)
    (checked : ReservationChecked table old next) :
    next.probes.length ≤ old.probes.length + 1 := by
  rcases checked.shape with preparing | probing
  · simp only [validPreparation, Bool.and_eq_true, List.isEmpty_iff] at preparing
    obtain ⟨⟨⟨⟨_, empty⟩, _⟩, _⟩, _⟩ := preparing
    rw [empty]
    exact Nat.zero_le _
  · simp only [validProbe, Bool.and_eq_true, beq_iff_eq] at probing
    obtain ⟨⟨⟨_, longer⟩, _⟩, _⟩ := probing
    exact Nat.le_of_eq longer

theorem ReservationChecked.single (table : Attributions) (old next : AttributionRecord)
    (checked : ReservationChecked table old next) (settled : old.hasUnsettledExecution = false) :
    inFlight next ≤ 1 := by
  rcases checked.shape with preparing | probing
  · simp only [validPreparation, Bool.and_eq_true, List.isEmpty_iff] at preparing
    obtain ⟨⟨⟨⟨_, empty⟩, _⟩, _⟩, _⟩ := preparing
    rw [Storyhook.Store.inFlight, empty]
    split <;> decide
  · simp only [validProbe, Bool.and_eq_true, beq_iff_eq, List.isPrefixOf_iff_prefix] at probing
    obtain ⟨⟨⟨⟨_, prepared⟩, longer⟩, _⟩, added, appended⟩ := probing
    rw [AttributionRecord.hasUnsettledExecution, Bool.or_eq_false_iff] at settled
    rw [← appended, List.length_append, Nat.add_right_inj] at longer
    have none : old.probes.countP (·.unsettled) = 0 := by
      rw [List.countP_eq_zero]
      exact List.any_eq_false.mp settled.2
    rw [Storyhook.Store.inFlight, prepared, settled.1, ← appended, List.countP_append, none,
      if_neg Bool.false_ne_true, Nat.zero_add, Nat.zero_add, ← longer]
    exact List.countP_le_length

/-- What an update that writes a row has found and checked. -/
structure Updated (table after : Attributions) (record : AttributionRecord) (expected : Int)
    (old : AttributionRecord) : Prop where
  member : old ∈ table
  target : isTarget record expected old = true
  preserved : Preserved old record
  checked : (isPreparing old record = false ∧ isProbing old record = false) ∨
    ReservationChecked table old record
  written : after = table.map fun row => if isTarget record expected row then record else row

theorem updateAttribution_ok (rfc3339 : String → Bool) (table : Attributions)
    (record : AttributionRecord) (expected : Int) (changed : Bool) (after : Attributions)
    (ran : updateAttribution rfc3339 table record expected = .ok (changed, after)) :
    (changed = false ∧ after = table) ∨
      changed = true ∧ ∃ old, Updated table after record expected old := by
  simp only [updateAttribution, bind_eq_ok, refuse_ok] at ran
  obtain ⟨_, _, _, _, ran⟩ := ran
  split at ran
  · obtain ⟨rfl, rfl⟩ := Prod.mk.inj (Except.ok.inj ran)
    exact Or.inl ⟨rfl, rfl⟩
  · next row found =>
      simp only [bind_eq_ok, refuse_ok, pure_eq_ok, Bool.not_eq_false'] at ran
      obtain ⟨old, decoded, _, kept, _, checked, written⟩ := ran
      obtain ⟨rfl, rfl⟩ := Prod.mk.inj written
      rw [decode_same rfc3339 row old decoded] at kept checked
      exact Or.inr ⟨rfl, row, List.mem_of_find?_eq_some found, List.find?_some found,
        preservedBy_preserved row record kept, checkReservation_ok rfc3339 table row record checked,
        rfl⟩

theorem insertAttribution_ok (rfc3339 : String → Bool) (table after : Attributions)
    (record : AttributionRecord) (ran : insertAttribution rfc3339 table record = .ok after) :
    after = table ++ [record] ∧ (∀ row ∈ table, row.id ≠ record.id) ∧
      record.preparation = none ∧ record.probes = [] ∧ record.diagnosisMs = 0 := by
  simp only [insertAttribution, bind_eq_ok, refuse_ok, pure_eq_ok, Bool.or_eq_false_iff,
    Option.isSome_eq_false_iff, Option.isNone_iff_eq_none, Bool.not_eq_false',
    List.isEmpty_iff, decide_eq_false_iff_not, not_not, List.any_eq_false, beq_iff_eq] at ran
  obtain ⟨_, _, _, ⟨⟨⟨⟨⟨_, prepared⟩, _⟩, probes⟩, _⟩, charged⟩, _, fresh, _, _, rfl⟩ := ran
  exact ⟨rfl, fresh, prepared, probes, charged⟩

def spent (weight : AttributionRecord → Nat) (table : Attributions) (submission : GateSubmission) :
    Nat :=
  ((generationOf table submission).map weight).sum

/-- The records of every generation within their allowance, with one execution at most in flight. -/
structure Ledger (table : Attributions) : Prop where
  ids : (table.map (·.id)).Nodup
  probes : ∀ submission, spent (·.probes.length) table submission ≤ maxProbes
  flight : ∀ submission, spent inFlight table submission ≤ 1

theorem ledger_empty : Ledger [] :=
  ⟨List.nodup_nil, fun _ => Nat.zero_le _, fun _ => Nat.zero_le _⟩

section Updates

variable (table after : Attributions) (record : AttributionRecord) (expected : Int)
  (old : AttributionRecord) (updated : Updated table after record expected old)

include updated

theorem Updated.alone (ids : (table.map (·.id)).Nodup) (row : AttributionRecord)
    (member : row ∈ table) (hit : isTarget record expected row = true) : row = old := by
  have target := updated.target
  simp only [isTarget, Bool.and_eq_true, beq_iff_eq] at hit target
  exact List.inj_on_of_nodup_map ids member updated.member (hit.1.1.trans target.1.1.symm)

theorem Updated.ids : after.map (·.id) = table.map (·.id) := by
  rw [updated.written, List.map_map]
  refine List.map_congr_left fun row member => ?_
  simp only [Function.comp_apply]
  split
  · next hit =>
      simp only [isTarget, Bool.and_eq_true, beq_iff_eq] at hit
      exact hit.1.1.symm
  · rfl

theorem Updated.spent (ids : (table.map (·.id)).Nodup) (weight : AttributionRecord → Nat)
    (submission : GateSubmission) :
    Store.spent weight after submission +
        (if old.submission.sameGeneration submission then weight old else 0) =
      Store.spent weight table submission +
        (if old.submission.sameGeneration submission then weight record else 0) := by
  have moved := sum_replaced table (isTarget record expected) old record
    (fun row => if row.submission.sameGeneration submission then weight row else 0)
    (List.Nodup.of_map _ ids) updated.member updated.target
    (updated.alone table after record expected old ids)
  rw [Store.spent, Store.spent, generationOf, generationOf, sum_filter, sum_filter,
    updated.written, moved, updated.preserved.submission]

theorem generationOf_same (submission : GateSubmission)
    (same : old.submission.sameGeneration submission = true) :
    generationOf table submission = generationOf table record.submission := by
  refine List.filter_congr fun row _ => ?_
  rw [← updated.preserved.submission]
  exact (GateSubmission.sameGeneration_congr old.submission submission row.submission same).symm

theorem Updated.old_member (submission : GateSubmission)
    (same : old.submission.sameGeneration submission = true) :
    old ∈ generationOf table submission :=
  List.mem_filter.mpr ⟨updated.member, same⟩

theorem Updated.ledger (ledger : Ledger table) : Ledger after where
  ids := by
    rw [updated.ids table after record expected old]
    exact ledger.ids
  probes := by
    intro submission
    have moved := updated.spent table after record expected old ledger.ids (·.probes.length)
      submission
    have before := ledger.probes submission
    by_cases same : old.submission.sameGeneration submission = true
    · rw [if_pos same, if_pos same] at moved
      rcases updated.checked with ⟨_, unprobed⟩ | checked
      · have still : record.probes.length = old.probes.length := by
          simpa only [isProbing, bne_eq_false_iff_eq] using unprobed
        omega
      · have shared := generationOf_same table after record expected old updated submission same
        have room : Store.spent (·.probes.length) table submission < maxProbes := by
          rw [Store.spent, shared]
          exact checked.probes
        have longer := checked.longer table old record
        omega
    · rw [if_neg same, if_neg same] at moved
      omega
  flight := by
    intro submission
    have moved := updated.spent table after record expected old ledger.ids inFlight submission
    have before := ledger.flight submission
    by_cases same : old.submission.sameGeneration submission = true
    · rw [if_pos same, if_pos same] at moved
      rcases updated.checked with ⟨unprepared, unprobed⟩ | checked
      · have fewer := updated.preserved.inFlight unprepared unprobed
        omega
      · have there := updated.old_member table after record expected old submission same
        have shared := generationOf_same table after record expected old updated submission same
        have none : Store.spent inFlight table submission = 0 := by
          rw [Store.spent, List.sum_eq_zero_iff_forall_eq_nat]
          intro weight member
          obtain ⟨row, inside, rfl⟩ := List.mem_map.mp member
          exact (inFlight_zero row).mpr (checked.settled row (shared ▸ inside))
        have single := checked.single table old record
          (checked.settled old (shared ▸ there))
        omega
    · rw [if_neg same, if_neg same] at moved
      omega

theorem Updated.retains (ids : (table.map (·.id)).Nodup) (row : AttributionRecord)
    (member : row ∈ table) : ∃ later ∈ after, Retains row later := by
  rw [updated.written]
  refine ⟨_, List.mem_map.mpr ⟨row, member, rfl⟩, ?_⟩
  split
  · next hit =>
      rw [updated.alone table after record expected old ids row member hit]
      exact updated.preserved.retains
  · exact Retains.refl row

end Updates

section Runs

variable (rfc3339 : String → Bool)

theorem insert_ledger (table after : Attributions) (record : AttributionRecord)
    (ran : insertAttribution rfc3339 table record = .ok after) (ledger : Ledger table) :
    Ledger after := by
  obtain ⟨rfl, fresh, prepared, probes, _⟩ := insertAttribution_ok rfc3339 table after record ran
  have spentMore : ∀ (weight : AttributionRecord → Nat) (submission : GateSubmission),
      weight record = 0 → spent weight (table ++ [record]) submission =
        spent weight table submission := by
    intro weight submission free
    rw [spent, spent, generationOf, generationOf, sum_filter, sum_filter, List.map_append,
      List.sum_append, List.map_singleton, List.sum_singleton, free, ite_self, Nat.add_zero]
  constructor
  · rw [List.map_append, List.map_singleton]
    refine List.Nodup.append ledger.ids (List.nodup_singleton _) ?_
    rw [List.disjoint_singleton]
    intro taken
    obtain ⟨row, member, same⟩ := List.mem_map.mp taken
    exact fresh row member same
  · intro submission
    rw [spentMore _ submission (by rw [probes]; rfl)]
    exact ledger.probes submission
  · intro submission
    rw [spentMore _ submission (by rw [inFlight, prepared, probes]; rfl)]
    exact ledger.flight submission

theorem perform_ledger (table : Attributions) (call : AttributionCall) (ledger : Ledger table) :
    Ledger (call.perform rfc3339 table) := by
  cases call with
  | insert record =>
      cases ran : insertAttribution rfc3339 table record with
      | error failure =>
          simp only [AttributionCall.perform, ran]
          exact ledger
      | ok after =>
          simp only [AttributionCall.perform, ran]
          exact insert_ledger rfc3339 table after record ran ledger
  | update record expected =>
      cases ran : updateAttribution rfc3339 table record expected with
      | error failure =>
          simp only [AttributionCall.perform, ran]
          exact ledger
      | ok outcome =>
          obtain ⟨changed, after⟩ := outcome
          simp only [AttributionCall.perform, ran]
          rcases updateAttribution_ok rfc3339 table record expected changed after ran with
            ⟨_, rfl⟩ | ⟨_, old, updated⟩
          · exact ledger
          · exact updated.ledger table after record expected old ledger

theorem perform_retains (table : Attributions) (call : AttributionCall) (ledger : Ledger table)
    (row : AttributionRecord) (member : row ∈ table) :
    ∃ later ∈ call.perform rfc3339 table, Retains row later := by
  cases call with
  | insert record =>
      cases ran : insertAttribution rfc3339 table record with
      | error failure =>
          simp only [AttributionCall.perform, ran]
          exact ⟨row, member, Retains.refl row⟩
      | ok after =>
          obtain ⟨rfl, _⟩ := insertAttribution_ok rfc3339 table after record ran
          simp only [AttributionCall.perform, ran]
          exact ⟨row, List.mem_append_left _ member, Retains.refl row⟩
  | update record expected =>
      cases ran : updateAttribution rfc3339 table record expected with
      | error failure =>
          simp only [AttributionCall.perform, ran]
          exact ⟨row, member, Retains.refl row⟩
      | ok outcome =>
          obtain ⟨changed, after⟩ := outcome
          simp only [AttributionCall.perform, ran]
          rcases updateAttribution_ok rfc3339 table record expected changed after ran with
            ⟨_, rfl⟩ | ⟨_, old, updated⟩
          · exact ⟨row, member, Retains.refl row⟩
          · exact updated.retains table after record expected old ledger.ids row member

theorem runCalls_ledger (calls : List AttributionCall) (table : Attributions)
    (ledger : Ledger table) : Ledger (calls.foldl (AttributionCall.perform rfc3339) table) := by
  induction calls generalizing table with
  | nil => exact ledger
  | cons call rest further => exact further _ (perform_ledger rfc3339 table call ledger)

theorem runCalls_retains (calls : List AttributionCall) (table : Attributions)
    (ledger : Ledger table) (row : AttributionRecord) (member : row ∈ table) :
    ∃ later ∈ calls.foldl (AttributionCall.perform rfc3339) table, Retains row later := by
  induction calls generalizing table row with
  | nil => exact ⟨row, member, Retains.refl row⟩
  | cons call rest further =>
      obtain ⟨middle, inside, first⟩ := perform_retains rfc3339 table call ledger row member
      obtain ⟨later, final, second⟩ :=
        further _ (perform_ledger rfc3339 table call ledger) middle inside
      exact ⟨later, final, first.trans second⟩

/-- The diagnosis allowance of a project's attribution records over a run of calls. -/
structure AllowanceHolds (calls : List AttributionCall) : Prop where
  probes : ∀ submission, spent (·.probes.length) (runCalls rfc3339 calls) submission ≤ maxProbes
  flight : ∀ submission, spent inFlight (runCalls rfc3339 calls) submission ≤ 1
  inserted : ∀ before record later after, calls = before ++ .insert record :: later →
    insertAttribution rfc3339 (runCalls rfc3339 before) record = .ok after →
    record.preparation = none ∧ record.probes = [] ∧ record.diagnosisMs = 0
  reserved : ∀ before record expected later after, calls =
    before ++ .update record expected :: later →
    updateAttribution rfc3339 (runCalls rfc3339 before) record expected = .ok (true, after) →
    ∃ old ∈ runCalls rfc3339 before, old.id = record.id ∧ old.revision = expected ∧
      (Reserves old record → record.probes.length ≤ old.probes.length + 1 ∧
        spent (·.probes.length) (runCalls rfc3339 before) record.submission < maxProbes ∧
        spent (·.diagnosisMs) (runCalls rfc3339 before) record.submission < maxDiagnosisMs ∧
        ∀ row ∈ generationOf (runCalls rfc3339 before) record.submission,
          row.hasUnsettledExecution = false)
  kept : ∀ before later row, calls = before ++ later → row ∈ runCalls rfc3339 before →
    ∃ last ∈ runCalls rfc3339 calls, Retains row last

/-- No run of insertions and updates gets a generation more diagnosis than it is allowed. -/
theorem allowance_holds (calls : List AttributionCall) : AllowanceHolds rfc3339 calls where
  probes := (runCalls_ledger rfc3339 calls [] ledger_empty).probes
  flight := (runCalls_ledger rfc3339 calls [] ledger_empty).flight
  inserted := fun before record later after _ ran =>
    (insertAttribution_ok rfc3339 _ after record ran).2.2
  reserved := by
    intro before record expected later after _ ran
    rcases updateAttribution_ok rfc3339 _ record expected true after ran with
      ⟨absurd', _⟩ | ⟨_, old, updated⟩
    · cases absurd'
    · have target := updated.target
      simp only [isTarget, Bool.and_eq_true, beq_iff_eq] at target
      refine ⟨old, updated.member, target.1.1, target.2, fun reserves => ?_⟩
      rcases updated.checked with ⟨unprepared, unprobed⟩ | checked
      · rcases reserves with ⟨absent, present⟩ | differs
        · rw [isPreparing, absent, Option.isNone_none, Bool.true_and, Option.isSome_eq_false_iff,
            Option.isNone_iff_eq_none] at unprepared
          exact absurd unprepared present
        · exact absurd (by simpa only [isProbing, bne_eq_false_iff_eq] using unprobed) differs
      · exact ⟨checked.longer _ old record, checked.probes, checked.time, checked.settled⟩
  kept := by
    intro before later row split member
    subst split
    rw [runCalls, List.foldl_append]
    exact runCalls_retains rfc3339 later _ (runCalls_ledger rfc3339 before [] ledger_empty) row
      member

end Runs

end Storyhook.Store
