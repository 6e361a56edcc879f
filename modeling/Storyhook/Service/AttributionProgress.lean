import Storyhook.Service.AttributionEvidence

/-! How an attribution record goes on, whatever assessments it has. -/

namespace Storyhook.Service

open Storyhook.Store
open Library Library.Outcome AttributionRecord

inductive Progress where
  | prepared (result : PreparationResult)
  | probed (result : ProbeResult)
  | settled (settlement : DiagnosticSettlement)
  | planned (plan : ContrastPlan)
  | retired (reason : String)
  deriving DecidableEq, Repr

def completeLast (probes : List DiagnosticProbe) (result : ProbeResult) : List DiagnosticProbe :=
  match probes.getLast? with
  | none => probes
  | some probe => probes.dropLast ++ [{ probe with completed := some result }]

/-- The next revision of a record, with the time it is charged by then. -/
def Progress.next (record : AttributionRecord) (charged : Nat) (progress : Progress) :
    AttributionRecord :=
  let revised := { record with revision := record.revision + 1, diagnosisMs := charged }
  match progress with
  | .prepared result => { revised with
      preparation := record.preparation.map fun preparation =>
        { preparation with completed := some result } }
  | .probed result => { revised with probes := completeLast record.probes result }
  | .settled settlement => { revised with settlement := some settlement }
  | .planned plan => { revised with plans := record.plans ++ [plan] }
  | .retired reason => { revised with held := false, retired := some reason }

/-- Whether a progress is one the record waits for, with all that it has to name. -/
def Progress.Fits (rfc3339 : String → Bool) (record : AttributionRecord) (charged : Nat) :
    Progress → Prop
  | .prepared result => record.preparation.any (·.completed.isNone) = true ∧
      isBlank result.log = false ∧ isBlank result.detail = false
  | .probed result => record.probes.getLast?.any (·.completed.isNone) = true ∧
      isBlank result.executionId = false ∧ result.executionId ∉ executionsOf record.probes ∧
      isBlank result.log = false
  | .settled settlement => record.settlement = none ∧
      record.preparation.any (·.completed.isSome) = true ∧
      (∀ probe ∈ record.probes, probe.completed.isSome = true) ∧
      isBlank settlement.detail = false ∧ rfc3339 settlement.completedAt = true ∧
      settlement.milliseconds ≤ charged
  | .planned plan => plan.component ∈ record.components.map (·.id) ∧
      plan.component ∉ record.plans.map (·.component) ∧
      [plan.base, plan.candidateTree, plan.controlTree, plan.detector].any isBlank = false ∧
      plan.argv ≠ [] ∧ plan.argv.any isBlank = false ∧ plan.relation.blankPatch = false
  | .retired reason => record.retired = none ∧ isBlank reason = false

structure Progress.WellFormed (rfc3339 : String → Bool) (record : AttributionRecord)
    (charged : Nat) (progress : Progress) : Prop where
  fits : progress.Fits rfc3339 record charged
  grown : record.diagnosisMs ≤ charged
  covered : (progress.next record charged).diagnosed ≤ charged
  bounded : charged ≤ u64Max

/-- Whether a record may be replaced by its next revision. -/
def Accepts (rfc3339 : String → Bool) (record next : AttributionRecord) : Prop :=
  next.validate rfc3339 = .ok () ∧ record.preservedBy next = true

/-- The cause that the probes an assessment names show, their preparation apart. -/
def shown (record : AttributionRecord) (assessment : AttributionAssessment) : FailureCause :=
  match record.components.find? (·.id == assessment.component), record.retained assessment with
  | some component, some count =>
      classifyEvidence { record.earlier count with preparation := none } component
  | _, _ => .unknown

def Premature (record : AttributionRecord) (assessment : AttributionAssessment) : Prop :=
  assessment.cause = .unknown ∧ shown record assessment ≠ .unknown

/-- Whether a progress leaves a preparation and a settlement that are both complete and clean. -/
def Progress.closes (record : AttributionRecord) : Progress → Bool
  | .prepared result => result.cleanupComplete && record.settlement.any (·.cleanupComplete)
  | .settled settlement =>
      settlement.cleanupComplete && record.preparation.all fun prepared => !prepared.unsettled
  | .probed _ | .planned _ | .retired _ => false

/-- Whether a progress closes a diagnosis that an assessment has not waited for. -/
def Progress.Refuted (record : AttributionRecord) (progress : Progress) : Prop :=
  progress.closes record = true ∧ ∃ assessment ∈ record.assessments, Premature record assessment

def Ripe (record : AttributionRecord) : Prop :=
  ∀ assessment ∈ record.assessments, ∀ id ∈ assessment.probes,
    ∃ probe ∈ record.probes, probe.id = id ∧ probe.completed.isSome = true

theorem validate_ok (rfc3339 : String → Bool) (record : AttributionRecord) :
    record.validate rfc3339 = .ok () ↔ Checked rfc3339 record := by
  rw [← check_ok, validate]
  cases record.check rfc3339 <;> simp [Except.mapError]

section Preserved

variable (rfc3339 : String → Bool) (record : AttributionRecord) (charged : Nat)

theorem completeLast_append (probes : List DiagnosticProbe) (probe : DiagnosticProbe)
    (result : ProbeResult) :
    completeLast (probes ++ [probe]) result = probes ++ [{ probe with completed := some result }] := by
  simp [completeLast]

theorem zip_preserved (probes : List DiagnosticProbe) (old new : DiagnosticProbe)
    (member : (old, new) ∈ probes.zip probes) : probePreserved old new = true := by
  obtain ⟨index, there⟩ := List.mem_iff_getElem?.mp member
  obtain ⟨left, right⟩ := List.getElem?_zip_eq_some.mp there
  obtain rfl : old = new := Option.some.inj (left.symm.trans right)
  simp [probePreserved]

theorem preparation_preserved (preparation : Option DiagnosticPreparation) :
    preparation.all (fun old => preparation.any fun new => old.preservedBy new) = true := by
  cases preparation <;> simp [DiagnosticPreparation.preservedBy]

theorem settlement_preserved (settlement : Option DiagnosticSettlement) :
    settlement.all (fun old => settlement == some old) = true := by
  cases settlement <;> simp

theorem Progress.preserved_iff (progress : Progress)
    (wellFormed : progress.WellFormed rfc3339 record charged) :
    record.preservedBy (progress.next record charged) = true ↔ record.retired = none := by
  obtain ⟨fits, grown, -, -⟩ := wellFormed
  constructor
  · intro kept
    by_contra retired
    rw [preservedBy, if_pos (Option.isSome_iff_ne_none.mpr retired), beq_iff_eq] at kept
    cases progress with
    | prepared result =>
        obtain ⟨preparation, found, running⟩ := (Option.any_eq_true _ _).mp fits.1
        have same := congrArg AttributionRecord.preparation kept
        simp only [Progress.next, found, Option.map_some, Option.some.injEq] at same
        rw [same] at running
        cases running
    | probed result =>
        obtain ⟨probe, last, running⟩ := (Option.any_eq_true _ _).mp fits.1
        obtain ⟨probes, split⟩ := List.getLast?_eq_some_iff.mp last
        have same := congrArg AttributionRecord.probes kept
        simp only [Progress.next, split, completeLast_append, List.append_cancel_left_eq,
          List.cons.injEq, and_true] at same
        rw [same] at running
        cases running
    | settled settlement =>
        have same := congrArg AttributionRecord.settlement kept
        rw [fits.1] at same
        cases same
    | planned plan =>
        have same := congrArg AttributionRecord.plans kept
        simp [Progress.next] at same
    | retired reason => exact retired fits.1
  · intro live
    have zipped := zip_preserved record.probes
    have prepared := preparation_preserved record.preparation
    have settled := settlement_preserved record.settlement
    rw [preservedBy, live, Option.isSome_none, if_neg Bool.false_ne_true]
    cases progress with
    | prepared result =>
        obtain ⟨preparation, found, running⟩ := (Option.any_eq_true _ _).mp fits.1
        simpa [Progress.next, grown, found, settled, DiagnosticPreparation.preservedBy, running]
          using zipped
    | probed result =>
        obtain ⟨probe, last, running⟩ := (Option.any_eq_true _ _).mp fits.1
        obtain ⟨probes, split⟩ := List.getLast?_eq_some_iff.mp last
        simpa [Progress.next, grown, split, completeLast_append, prepared, settled,
          List.zip_append, probePreserved, running] using zip_preserved probes
    | settled settlement =>
        simpa [Progress.next, grown, fits.1, prepared] using zipped
    | planned plan =>
        simpa [Progress.next, grown, prepared, settled] using zipped
    | retired reason =>
        simpa [Progress.next, grown, prepared, settled] using zipped

end Preserved

section Checks

variable (rfc3339 : String → Bool) (record : AttributionRecord) (charged : Nat)

theorem ProbesSound.widen (next : AttributionRecord) (probes : List DiagnosticProbe)
    (elapsed later : Nat) (sound : ProbesSound rfc3339 record probes elapsed)
    (plans : record.plans.length ≤ next.plans.length)
    (length : next.probes.length = record.probes.length) (time : later + timeOf probes ≤ u64Max) :
    ProbesSound rfc3339 next probes later where
  ids := sound.ids
  executions := sound.executions
  shaped := fun probe member =>
    have shaped := sound.shaped probe member
    ⟨shaped.id, Nat.lt_of_lt_of_le shaped.plan plans, shaped.started, shaped.result⟩
  last := by
    rw [length]
    exact sound.last
  time := fun _ => time

theorem ProbesSound.complete (next : AttributionRecord) (probes : List DiagnosticProbe)
    (probe : DiagnosticProbe) (result : ProbeResult) (elapsed : Nat)
    (sound : ProbesSound rfc3339 record (probes ++ [probe]) elapsed)
    (execution : isBlank result.executionId = false)
    (fresh : result.executionId ∉ executionsOf (probes ++ [probe]))
    (log : isBlank result.log = false) (plans : next.plans = record.plans)
    (length : next.probes.length = record.probes.length)
    (time : elapsed + timeOf probes + result.milliseconds ≤ u64Max) :
    ProbesSound rfc3339 next (probes ++ [{ probe with completed := some result }]) elapsed := by
  obtain ⟨before, shaped, free, -, -⟩ := (ProbesSound.snoc rfc3339 record probes probe elapsed).mp sound
  refine (ProbesSound.snoc rfc3339 next probes _ elapsed).mpr ⟨?_, ?_, free, nofun, ?_⟩
  · refine ProbesSound.widen rfc3339 record next probes elapsed elapsed before ?_ length ?_
    · exact Nat.le_of_eq (congrArg List.length plans.symm)
    · omega
  · refine ⟨shaped.id, plans ▸ shaped.plan, shaped.started, ?_⟩
    rintro _ ⟨⟩
    exact ⟨execution, log⟩
  · rintro _ ⟨⟩
    refine ⟨fun member => fresh ?_, time⟩
    rw [executionsOf_append]
    exact List.mem_append_left _ (List.mem_reverse.mp member)

theorem settlementSound_iff : record.settlementMalformed rfc3339 = false ↔
    ∀ settlement, record.settlement = some settlement → record.preparation ≠ none ∧
      isBlank settlement.detail = false ∧ rfc3339 settlement.completedAt = true ∧
      settlement.milliseconds ≤ record.diagnosisMs := by
  unfold settlementMalformed
  cases record.settlement with
  | none => simp
  | some settlement =>
      cases record.preparation <;> simp [and_assoc]

theorem unplanned_retained (assessment : AttributionAssessment) (component : FailureComponent)
    (count : Nat) (backed : Backed record assessment component count)
    (unplanned : component.id ∉ record.plans.map (·.component)) :
    record.probes.take count = [] := by
  have none : record.selected component.id count = [] := by
    refine List.map_eq_nil_iff.mpr (List.filter_eq_nil_iff.mpr fun probe _ own => ?_)
    obtain ⟨plan, found, same⟩ := Option.map_eq_some_iff.mp (beq_iff_eq.mp own)
    exact unplanned (List.mem_map.mpr ⟨plan, List.mem_of_getElem? found, same⟩)
  have retained := backed.retained
  rw [AttributionRecord.retained, ← backed.selected, none] at retained
  cases retained
  rfl

section Closing

variable (progress : Progress) (count : Nat) (component : FailureComponent)
  (fits : progress.Fits rfc3339 record charged)

/-- Whether a progress completes what a diagnosis has besides its probes. -/
def Progress.settles : Progress → Bool
  | .prepared _ | .settled _ => true
  | .probed _ | .planned _ | .retired _ => false

include fits

theorem Progress.waiting (settles : progress.settles = true) :
    (record.earlier count).hasUnsettledDiagnosis = true := by
  cases progress with
  | prepared result =>
      obtain ⟨preparation, found, running⟩ := (Option.any_eq_true _ _).mp fits.1
      simp [hasUnsettledDiagnosis, hasUnsettledExecution, earlier, found,
        DiagnosticPreparation.unsettled, Option.isNone_iff_eq_none.mp running]
  | settled settlement =>
      obtain ⟨preparation, found, -⟩ := (Option.any_eq_true _ _).mp fits.2.1
      simp [hasUnsettledDiagnosis, earlier, fits.1, found]
  | probed _ | planned _ | retired _ => cases settles

theorem Progress.stays_waiting (settles : progress.settles = true)
    (closes : progress.closes record = false) :
    ((progress.next record charged).earlier count).hasUnsettledDiagnosis = true := by
  cases progress with
  | prepared result =>
      obtain ⟨preparation, found, -⟩ := (Option.any_eq_true _ _).mp fits.1
      cases clean : result.cleanupComplete with
      | false =>
          simp [hasUnsettledDiagnosis, hasUnsettledExecution, earlier, Progress.next, found, clean,
            DiagnosticPreparation.unsettled]
      | true =>
          simp only [Progress.closes, clean, Bool.true_and] at closes
          cases settled : record.settlement with
          | none => simp [hasUnsettledDiagnosis, earlier, Progress.next, found, settled]
          | some settlement =>
              rw [settled, Option.any_some] at closes
              simp [hasUnsettledDiagnosis, earlier, Progress.next, found, settled, closes]
  | settled settlement =>
      obtain ⟨preparation, found, -⟩ := (Option.any_eq_true _ _).mp fits.2.1
      simp only [Progress.closes, found, Option.all_some, Bool.and_eq_false_iff,
        Bool.not_eq_false'] at closes
      rcases closes with unclean | unsettled
      · simp [hasUnsettledDiagnosis, earlier, Progress.next, found, unclean]
      · simp [hasUnsettledDiagnosis, hasUnsettledExecution, earlier, Progress.next, found, unsettled]
  | probed _ | planned _ | retired _ => cases settles

theorem Progress.closing (closes : progress.closes record = true) :
    classifyEvidence ((progress.next record charged).earlier count) component =
      classifyEvidence { record.earlier count with preparation := none } component := by
  cases progress with
  | prepared result =>
      obtain ⟨preparation, found, -⟩ := (Option.any_eq_true _ _).mp fits.1
      rw [Progress.closes, Bool.and_eq_true] at closes
      obtain ⟨settlement, settled, clean⟩ := (Option.any_eq_true _ _).mp closes.2
      refine classify_congr _ _ component rfl rfl rfl ?_ rfl rfl
      simp [hasUnsettledDiagnosis, hasUnsettledExecution, earlier, Progress.next, found, settled,
        clean, closes.1, DiagnosticPreparation.unsettled]
  | settled settlement =>
      obtain ⟨preparation, found, -⟩ := (Option.any_eq_true _ _).mp fits.2.1
      simp only [Progress.closes, found, Option.all_some, Bool.and_eq_true, Bool.not_eq_true']
        at closes
      refine classify_congr _ _ component rfl rfl rfl ?_ rfl rfl
      simp [hasUnsettledDiagnosis, hasUnsettledExecution, earlier, Progress.next, found, closes]
  | probed _ | planned _ | retired _ => cases closes

end Closing

section Next

variable (progress : Progress) (checked : Checked rfc3339 record)
  (wellFormed : progress.WellFormed rfc3339 record charged)

include checked wellFormed

theorem Progress.settlement : (progress.next record charged).settlementMalformed rfc3339 = false := by
  rw [settlementSound_iff]
  have settled := (settlementSound_iff rfc3339 record).mp checked.settlement
  have grown := wellFormed.grown
  cases progress with
  | settled settlement =>
      obtain ⟨-, prepared, -, detail, completed, within⟩ := wellFormed.fits
      rintro _ ⟨⟩
      refine ⟨fun none => ?_, detail, completed, within⟩
      simp only [Progress.next] at none
      rw [none] at prepared
      cases prepared
  | prepared result =>
      intro settlement found
      obtain ⟨prepared, detail, completed, within⟩ := settled settlement found
      exact ⟨by simpa [Progress.next] using prepared, detail, completed, Nat.le_trans within grown⟩
  | probed _ | planned _ | retired _ =>
      intro settlement found
      obtain ⟨prepared, detail, completed, within⟩ := settled settlement found
      exact ⟨prepared, detail, completed, Nat.le_trans within grown⟩

theorem Progress.plans : (progress.next record charged).plansMalformed = false := by
  cases progress with
  | planned plan =>
      obtain ⟨known, unplanned, named, argv, arguments, patch⟩ := wellFormed.fits
      have planned := checked.plans
      simp only [plansMalformed, Bool.or_eq_false_iff, decide_eq_false_iff_not, not_not] at planned
      simp only [plansMalformed, Progress.next, Bool.or_eq_false_iff, decide_eq_false_iff_not,
        not_not, List.any_append, List.map_append, List.map_singleton, List.nodup_append]
      refine ⟨⟨planned.1, List.nodup_singleton _, fun name member other same => ?_⟩, planned.2, ?_⟩
      · rw [List.mem_singleton.mp same]
        rintro rfl
        exact unplanned member
      · rw [List.any_cons, List.any_nil, Bool.or_false]
        simp only [known, named, arguments, patch, List.isEmpty_eq_false_iff.mpr argv, not_true,
          decide_false, Bool.or_false]
  | prepared _ | probed _ | settled _ | retired _ => exact checked.plans

theorem Progress.preparation : PreparationSound rfc3339 (progress.next record charged) := by
  cases progress with
  | prepared result =>
      intro preparation found
      obtain ⟨old, prepared, rfl⟩ := Option.map_eq_some_iff.mp found
      refine ⟨(checked.preparation old prepared).1, ?_⟩
      rintro _ ⟨⟩
      exact wellFormed.fits.2
  | probed _ | settled _ | planned _ | retired _ => exact checked.preparation

theorem Progress.probes : ProbesSound rfc3339 (progress.next record charged)
    (progress.next record charged).probes (progress.next record charged).preparationTime := by
  have time := Nat.le_trans wellFormed.covered wellFormed.bounded
  cases progress with
  | probed result =>
      obtain ⟨running, execution, fresh, log⟩ := wellFormed.fits
      obtain ⟨probe, last, -⟩ := (Option.any_eq_true _ _).mp running
      obtain ⟨probes, split⟩ := List.getLast?_eq_some_iff.mp last
      have sound := checked.probes
      rw [split] at sound fresh
      have after : completeLast record.probes result =
          probes ++ [{ probe with completed := some result }] := by
        rw [split, completeLast_append]
      have length : (completeLast record.probes result).length = record.probes.length := by
        rw [after, split, List.length_append, List.length_append]
        rfl
      have took : timeOf (completeLast record.probes result) =
          timeOf probes + result.milliseconds := by
        rw [after, timeOf_append]
        rfl
      show ProbesSound rfc3339 _ (completeLast record.probes result) record.preparationTime
      rw [after]
      refine ProbesSound.complete rfc3339 record _ probes probe result _ sound execution fresh log
        rfl length ?_
      rw [Nat.add_assoc, ← took]
      exact time
  | prepared _ | settled _ | planned _ | retired _ =>
      refine ProbesSound.widen rfc3339 record _ record.probes _ _ checked.probes ?_ rfl time
      simp [Progress.next]

theorem Progress.allowance : (progress.next record charged).probes.length ≤ maxProbes := by
  cases progress with
  | probed result =>
      obtain ⟨probe, last, -⟩ := (Option.any_eq_true _ _).mp wellFormed.fits.1
      obtain ⟨probes, split⟩ := List.getLast?_eq_some_iff.mp last
      have within := checked.allowance
      rw [split] at within
      simpa [Progress.next, split, completeLast_append] using within
  | prepared _ | settled _ | planned _ | retired _ => exact checked.allowance

theorem Progress.checked_iff :
    Checked rfc3339 (progress.next record charged) ↔ ∀ assessment ∈ record.assessments,
      (progress.next record charged).checkAssessment assessment = .ok () := by
  have settlement := progress.settlement rfc3339 record charged checked wellFormed
  have plans := progress.plans rfc3339 record charged checked wellFormed
  have preparation := progress.preparation rfc3339 record charged checked wellFormed
  have probes := progress.probes rfc3339 record charged checked wellFormed
  have allowance := progress.allowance rfc3339 record charged checked wellFormed
  have charges : (progress.next record charged).diagnosisMs = charged := by
    cases progress <;> rfl
  have assessed : (progress.next record charged).assessments = record.assessments := by
    cases progress <;> rfl
  rw [← assessed]
  refine ⟨Checked.assessments, fun assessments => ⟨?_, ?_, ?_, ?_, ?_, ?_, ?_, settlement, ?_, plans,
    preparation, probes, allowance, charges.symm ▸ wellFormed.covered, assessments⟩⟩
  · cases progress <;> exact checked.version
  · cases progress <;> exact Int.le_trans checked.revision (Int.le_add_one (Int.le_refl _))
  · cases progress <;> exact checked.project
  · cases progress <;> exact checked.named
  · cases progress <;> exact checked.created
  · cases progress with
    | retired reason => rfl
    | prepared _ | probed _ | settled _ | planned _ => exact checked.hold
  · cases progress with
    | retired reason => exact wellFormed.fits.2
    | prepared _ | probed _ | settled _ | planned _ => exact checked.reason
  · cases progress <;> exact checked.components

omit checked in
theorem Progress.ids :
    (progress.next record charged).probes.map (·.id) = record.probes.map (·.id) := by
  cases progress with
  | probed result =>
      obtain ⟨probe, last, -⟩ := (Option.any_eq_true _ _).mp wellFormed.fits.1
      obtain ⟨probes, split⟩ := List.getLast?_eq_some_iff.mp last
      simp [Progress.next, split, completeLast_append]
  | prepared _ | settled _ | planned _ | retired _ => rfl

omit wellFormed in
theorem retained_completed (ripe : Ripe record) (assessment : AttributionAssessment)
    (member : assessment ∈ record.assessments) (count : Nat)
    (counted : record.retained assessment = some count) :
    ∀ probe ∈ record.probes.take count, probe.completed ≠ none := by
  unfold retained at counted
  split at counted
  · cases counted
    nofun
  · next last named =>
      obtain ⟨position, found, rfl⟩ := Option.map_eq_some_iff.mp counted
      obtain ⟨within, same, -⟩ := List.findIdx?_eq_some_iff_getElem.mp found
      obtain ⟨ran, inside, id, completed⟩ := ripe assessment member last
        (List.mem_of_getLast? named)
      have single : record.probes[position] = ran :=
        List.inj_on_of_nodup_map checked.probes.ids (List.getElem_mem within) inside
          ((beq_iff_eq.mp same).trans id.symm)
      intro probe before running
      obtain ⟨index, there⟩ := List.mem_iff_getElem?.mp before
      rw [List.getElem?_take] at there
      split at there
      · next bound =>
          have final := checked.probes.last index probe there running
          obtain rfl : index = position := by omega
          rw [List.getElem?_eq_getElem within, single, Option.some.injEq] at there
          rw [there, running] at completed
          cases completed
      · cases there

theorem Progress.kept (ripe : Ripe record) (assessment : AttributionAssessment)
    (member : assessment ∈ record.assessments) (count : Nat)
    (counted : record.retained assessment = some count) :
    (progress.next record charged).probes.take count = record.probes.take count := by
  cases progress with
  | probed result =>
      obtain ⟨probe, last, running⟩ := (Option.any_eq_true _ _).mp wellFormed.fits.1
      obtain ⟨probes, split⟩ := List.getLast?_eq_some_iff.mp last
      have completed := retained_completed rfc3339 record checked ripe assessment member count
        counted
      have within : count ≤ probes.length := by
        by_contra beyond
        refine completed probe ?_ (Option.isNone_iff_eq_none.mp running)
        rw [split, List.take_of_length_le]
        · exact List.mem_append_right _ (List.mem_singleton_self _)
        · rw [List.length_append, List.length_singleton]
          omega
      simp only [Progress.next, split, completeLast_append]
      rw [List.take_append_of_le_length within, List.take_append_of_le_length within]
  | prepared _ | settled _ | planned _ | retired _ => rfl

omit checked wellFormed in
theorem closed_cause_iff (assessment : AttributionAssessment) (component : FailureComponent)
    (count : Nat) (backed : Backed record assessment component count)
    (waiting : (record.earlier count).hasUnsettledDiagnosis = true) :
    classifyEvidence { record.earlier count with preparation := none } component =
      assessment.cause ↔ ¬ Premature record assessment := by
  have shows : shown record assessment =
      classifyEvidence { record.earlier count with preparation := none } component := by
    rw [shown, backed.found, backed.retained]
  have observes : observed { record.earlier count with preparation := none } component =
      assessment.cause := by
    rw [← backed.cause, classify_untested _ component (.inl waiting)]
    exact observed_congr _ _ component rfl
  rw [Premature, shows]
  by_cases unknown : assessment.cause = .unknown
  · simp [unknown]
  · have found := classify_observed { record.earlier count with preparation := none } component
      (by rw [observes]; exact unknown)
    exact iff_of_true (found.trans observes) fun premature => unknown premature.1

theorem Progress.assessed (ripe : Ripe record) (assessment : AttributionAssessment)
    (member : assessment ∈ record.assessments) :
    (progress.next record charged).checkAssessment assessment = .ok () ↔
      ¬ (progress.closes record = true ∧ Premature record assessment) := by
  obtain ⟨component, count, backed⟩ := (checkAssessment_ok _ _).mp (checked.assessments _ member)
  have kept := progress.kept rfc3339 record charged checked wellFormed ripe assessment member count
    backed.retained
  have fits := wellFormed.fits
  rw [Backed.next_iff record (progress.next record charged) assessment component count backed
    (by cases progress <;> rfl) (by cases progress <;> exact Int.le_add_one (Int.le_refl _))
    (progress.ids rfc3339 record charged wellFormed) kept
    (by cases progress <;> simp [Progress.next])
    fun probe inside => (checked.probes.shaped probe inside).plan]
  by_cases settles : progress.settles = true
  · have waiting := progress.waiting rfc3339 record charged count fits settles
    cases closes : progress.closes record with
    | true =>
        rw [progress.closing rfc3339 record charged count component fits closes,
          closed_cause_iff record assessment component count backed waiting]
        simp
    | false =>
        refine iff_of_true ?_ (fun both => Bool.false_ne_true both.1)
        rw [← backed.cause, classify_untested _ component (.inl waiting), classify_untested _ component
          (.inl (progress.stays_waiting rfc3339 record charged count fits settles closes))]
        refine observed_congr _ _ component ?_
        cases progress <;> rfl
  · rw [← backed.cause]
    cases progress with
    | probed result =>
        refine iff_of_true (classify_congr _ _ component rfl rfl rfl ?_ kept rfl)
          (fun both => Bool.false_ne_true both.1)
        rw [hasUnsettledDiagnosis, hasUnsettledDiagnosis, hasUnsettledExecution,
          hasUnsettledExecution, earlier, earlier, kept]
        rfl
    | planned plan =>
        refine iff_of_true ?_ (fun both => Bool.false_ne_true both.1)
        by_cases own : plan.component = component.id
        · have blank := unplanned_retained record assessment component count backed
            (own ▸ fits.2.1)
          rw [classify_untested _ _ (.inr blank), classify_untested _ _ (.inr blank)]
          exact observed_congr _ _ component rfl
        · refine classify_congr _ _ component rfl rfl rfl rfl rfl ?_
          simp [plansFor, Progress.next, earlier, List.zipIdx_append, own]
    | retired reason =>
        exact iff_of_true (classify_congr _ _ component rfl rfl rfl rfl rfl rfl)
          (fun both => Bool.false_ne_true both.1)
    | prepared _ | settled _ => exact absurd rfl settles

theorem Progress.accepted_iff (ripe : Ripe record) :
    Accepts rfc3339 record (progress.next record charged) ↔
      record.retired = none ∧ ¬ progress.Refuted record := by
  have assessed := progress.assessed rfc3339 record charged checked wellFormed ripe
  rw [Accepts, validate_ok, progress.preserved_iff rfc3339 record charged wellFormed,
    progress.checked_iff rfc3339 record charged checked wellFormed, and_comm]
  refine and_congr_right fun _ => ?_
  constructor
  · rintro accepted ⟨closes, assessment, member, premature⟩
    exact (assessed assessment member).mp (accepted assessment member) ⟨closes, premature⟩
  · intro upheld assessment member
    exact (assessed assessment member).mpr fun both =>
      upheld ⟨both.1, assessment, member, both.2⟩

end Next

end Checks

end Storyhook.Service
