import Mathlib.Data.List.Induction
import Mathlib.Data.List.Nodup
import Storyhook.Service.Attribution

/-! What an attribution record is checked for, and what its assessments rest on. -/

namespace Storyhook.Service.AttributionRecord

open Storyhook.Store
open Library Library.Outcome

def executionsOf (probes : List DiagnosticProbe) : List String :=
  probes.filterMap fun probe => probe.completed.map (·.executionId)

def timeOf (probes : List DiagnosticProbe) : Nat :=
  (probes.filterMap fun probe => probe.completed.map (·.milliseconds)).sum

def preparationTime (record : AttributionRecord) : Nat :=
  ((record.preparation.bind (·.completed)).map (·.milliseconds)).getD 0

def diagnosed (record : AttributionRecord) : Nat :=
  record.preparationTime + timeOf record.probes

section Probes

variable (rfc3339 : String → Bool) (record : AttributionRecord)

structure ProbeShaped (probe : DiagnosticProbe) : Prop where
  id : isBlank probe.id = false
  plan : probe.plan < record.plans.length
  started : rfc3339 probe.startedAt = true
  result : ∀ result, probe.completed = some result →
    isBlank result.executionId = false ∧ isBlank result.log = false

/-- Probes with ids and executions of their own, of which the last of the record alone may run. -/
structure ProbesSound (probes : List DiagnosticProbe) (elapsed : Nat) : Prop where
  ids : (probes.map (·.id)).Nodup
  executions : (executionsOf probes).Nodup
  shaped : ∀ probe ∈ probes, ProbeShaped rfc3339 record probe
  last : ∀ (index : Nat) (probe : DiagnosticProbe), probes[index]? = some probe →
    probe.completed = none → index + 1 = record.probes.length
  time : (∃ probe ∈ probes, probe.completed ≠ none) → elapsed + timeOf probes ≤ u64Max

structure ProbeNext (seen : ProbesSeen) (probe : DiagnosticProbe) (index : Nat) : Prop where
  shaped : ProbeShaped rfc3339 record probe
  fresh : probe.id ∉ seen.ids
  last : probe.completed = none → index + 1 = record.probes.length
  result : ∀ result, probe.completed = some result →
    result.executionId ∉ seen.executions ∧ seen.elapsed + result.milliseconds ≤ u64Max

theorem probeStep_ok (seen after : ProbesSeen) (probe : DiagnosticProbe) (index : Nat) :
    record.probeStep rfc3339 seen probe index = .ok after ↔
      ProbeNext rfc3339 record seen probe index ∧
        after = ⟨probe.id :: seen.ids, executionsOf [probe] ++ seen.executions,
          seen.elapsed + timeOf [probe]⟩ := by
  unfold probeStep
  split
  · next malformed =>
      refine iff_of_false nofun ?_
      rintro ⟨⟨shaped, fresh, last, -⟩, -⟩
      simp only [Bool.or_eq_true, shaped.id, List.contains_iff_mem, fresh, decide_eq_true_eq,
        Nat.not_le.mpr shaped.plan, shaped.started, Bool.not_true, Bool.and_eq_true,
        Option.isNone_iff_eq_none, bne_iff_ne, or_false, Bool.false_eq_true, false_or] at malformed
      exact malformed.2 (last malformed.1)
  · next formed =>
      simp only [Bool.or_eq_true, List.contains_iff_mem, decide_eq_true_eq, ge_iff_le, not_or,
        Nat.not_le, Bool.not_eq_true, Bool.not_eq_false', Bool.and_eq_true,
        Option.isNone_iff_eq_none, bne_iff_ne, not_and, not_not] at formed
      obtain ⟨⟨⟨⟨id, fresh⟩, plan⟩, started⟩, last⟩ := formed
      cases completed : probe.completed with
      | none =>
          simp only [executionsOf, timeOf, completed, List.filterMap_cons, List.filterMap_nil,
            Option.map_none, List.sum_nil, Nat.add_zero, List.nil_append, Except.ok.injEq]
          constructor
          · rintro rfl
            refine ⟨⟨⟨id, plan, started, ?_⟩, fresh, last, ?_⟩, rfl⟩
            · rw [completed]
              nofun
            · rw [completed]
              nofun
          · rintro ⟨-, rfl⟩
            rfl
      | some result =>
          have gathered : (⟨probe.id :: seen.ids, executionsOf [probe] ++ seen.executions,
              seen.elapsed + timeOf [probe]⟩ : ProbesSeen) = ⟨probe.id :: seen.ids,
                result.executionId :: seen.executions, seen.elapsed + result.milliseconds⟩ := by
            simp [executionsOf, timeOf, completed]
          rw [gathered]
          have alone : ∀ other, probe.completed = some other → other = result := by
            intro other found
            rw [completed] at found
            exact (Option.some.inj found).symm
          dsimp only
          split
          · next malformed =>
              refine iff_of_false nofun ?_
              rintro ⟨⟨shaped, -, -, result'⟩, -⟩
              simp [shaped.result result completed, (result' result completed).1] at malformed
          · next formed =>
              simp only [Bool.or_eq_true, List.contains_iff_mem, not_or, Bool.not_eq_true] at formed
              obtain ⟨⟨execution, other⟩, log⟩ := formed
              split
              · next beyond =>
                  refine iff_of_false nofun ?_
                  rintro ⟨⟨-, -, -, result'⟩, -⟩
                  exact absurd (result' result completed).2 (Nat.not_le.mpr beyond)
              · next within =>
                  rw [Except.ok.injEq]
                  constructor
                  · rintro rfl
                    refine ⟨⟨⟨id, plan, started, fun found same => ?_⟩, fresh, last,
                      fun found same => ?_⟩, rfl⟩
                    · rw [alone found same]
                      exact ⟨execution, log⟩
                    · rw [alone found same]
                      exact ⟨other, Nat.not_lt.mp within⟩
                  · rintro ⟨-, rfl⟩
                    rfl

theorem executionsOf_append (probes more : List DiagnosticProbe) :
    executionsOf (probes ++ more) = executionsOf probes ++ executionsOf more :=
  List.filterMap_append

theorem timeOf_append (probes more : List DiagnosticProbe) :
    timeOf (probes ++ more) = timeOf probes + timeOf more := by
  rw [timeOf, List.filterMap_append, List.sum_append]
  rfl

theorem mem_executionsOf (probes : List DiagnosticProbe) (execution : String) :
    execution ∈ executionsOf probes ↔ ∃ probe ∈ probes, ∃ result,
      probe.completed = some result ∧ result.executionId = execution := by
  simp [executionsOf]

def gathered (probes : List DiagnosticProbe) (elapsed : Nat) : ProbesSeen :=
  ⟨(probes.map (·.id)).reverse, (executionsOf probes).reverse, elapsed + timeOf probes⟩

theorem gathered_snoc (probes : List DiagnosticProbe) (probe : DiagnosticProbe) (elapsed : Nat) :
    gathered (probes ++ [probe]) elapsed =
      ⟨probe.id :: (gathered probes elapsed).ids,
        executionsOf [probe] ++ (gathered probes elapsed).executions,
        (gathered probes elapsed).elapsed + timeOf [probe]⟩ := by
  have single : (executionsOf [probe]).reverse = executionsOf [probe] := by
    cases completed : probe.completed <;> simp [executionsOf, completed]
  rw [gathered, executionsOf_append, timeOf_append, List.reverse_append, single, ← Nat.add_assoc,
    List.map_append, List.reverse_append]
  rfl

theorem ProbesSound.snoc (probes : List DiagnosticProbe) (probe : DiagnosticProbe) (elapsed : Nat) :
    ProbesSound rfc3339 record (probes ++ [probe]) elapsed ↔
      ProbesSound rfc3339 record probes elapsed ∧
        ProbeNext rfc3339 record (gathered probes elapsed) probe probes.length := by
  constructor
  · rintro ⟨ids, executions, shaped, last, time⟩
    rw [List.map_append, List.map_singleton, List.nodup_append] at ids
    rw [executionsOf_append, List.nodup_append] at executions
    rw [timeOf_append] at time
    refine ⟨⟨ids.1, executions.1, fun other member => shaped other (List.mem_append_left _ member),
      fun index other found => ?_, ?_⟩, ⟨shaped probe (by simp), ?_, ?_, ?_⟩⟩
    · exact last index other (by
        rw [List.getElem?_append_left (List.getElem?_eq_some_iff.mp found).1, found])
    · rintro ⟨other, member, completed⟩
      have within := time ⟨other, List.mem_append_left _ member, completed⟩
      omega
    · intro member
      exact ids.2.2 _ (List.mem_reverse.mp member) _ (List.mem_singleton_self _) rfl
    · exact last probes.length probe (by simp)
    · intro result completed
      have ran : executionsOf [probe] = [result.executionId] := by simp [executionsOf, completed]
      have took : timeOf [probe] = result.milliseconds := by simp [timeOf, completed]
      constructor
      · intro member
        exact executions.2.2 _ (List.mem_reverse.mp member) result.executionId (by simp [ran]) rfl
      · have within := time ⟨probe, by simp, by simp [completed]⟩
        simp only [gathered]
        omega
  · rintro ⟨⟨ids, executions, shaped, last, time⟩, ⟨formed, fresh, final, result⟩⟩
    refine ⟨?_, ?_, ?_, ?_, ?_⟩
    · rw [List.map_append, List.map_singleton, List.nodup_append]
      refine ⟨ids, List.nodup_singleton _, fun id member other same => ?_⟩
      rw [List.mem_singleton.mp same]
      rintro rfl
      exact fresh (List.mem_reverse.mpr member)
    · rw [executionsOf_append, List.nodup_append]
      refine ⟨executions, ?_, fun execution member other ran => ?_⟩
      · cases completed : probe.completed <;> simp [executionsOf, completed]
      · obtain ⟨_, same, found, completed, rfl⟩ := (mem_executionsOf [probe] other).mp ran
        rw [List.mem_singleton.mp same] at completed
        rintro rfl
        exact (result found completed).1 (List.mem_reverse.mpr member)
    · intro other member
      rcases List.mem_append.mp member with before | here
      · exact shaped other before
      · rw [List.mem_singleton.mp here]
        exact formed
    · intro index other found running
      rcases Nat.lt_or_ge index probes.length with before | beyond
      · rw [List.getElem?_append_left before] at found
        exact last index other found running
      · rw [List.getElem?_append_right beyond, List.getElem?_singleton] at found
        split at found
        · next here =>
            cases found
            rw [← final running, Nat.le_antisymm (Nat.sub_eq_zero_iff_le.mp here) beyond]
        · cases found
    · rw [timeOf_append]
      rintro ⟨other, member, completed⟩
      cases ran : probe.completed with
      | none =>
          have rested : timeOf [probe] = 0 := by simp [timeOf, ran]
          rcases List.mem_append.mp member with before | here
          · rw [rested]
            exact time ⟨other, before, completed⟩
          · rw [List.mem_singleton.mp here] at completed
            exact absurd ran completed
      | some found =>
          have took : timeOf [probe] = found.milliseconds := by simp [timeOf, ran]
          rw [took, ← Nat.add_assoc]
          exact (result found ran).2

theorem probeSteps_ok (probes : List DiagnosticProbe) (elapsed : Nat) (seen : ProbesSeen) :
    probes.zipIdx.foldlM (fun seen entry => record.probeStep rfc3339 seen entry.1 entry.2)
        ⟨[], [], elapsed⟩ = .ok seen ↔
      ProbesSound rfc3339 record probes elapsed ∧ seen = gathered probes elapsed := by
  induction probes using List.reverseRecOn generalizing seen with
  | nil =>
      simp only [List.zipIdx_nil, List.foldlM_nil, pure_eq_ok]
      constructor
      · rintro rfl
        exact ⟨⟨List.nodup_nil, List.nodup_nil, nofun, nofun, nofun⟩, rfl⟩
      · rintro ⟨-, rfl⟩
        rfl
  | append_singleton probes probe earlier =>
      rw [List.zipIdx_append, List.foldlM_append, bind_eq_ok, ProbesSound.snoc, gathered_snoc]
      simp only [earlier, List.zipIdx_singleton, List.foldlM_cons, List.foldlM_nil, bind_eq_ok,
        pure_eq_ok, probeStep_ok, Nat.zero_add]
      constructor
      · rintro ⟨_, ⟨sound, rfl⟩, after, ⟨following, rfl⟩, rfl⟩
        exact ⟨⟨sound, following⟩, rfl⟩
      · rintro ⟨⟨sound, following⟩, rfl⟩
        exact ⟨_, ⟨sound, rfl⟩, _, ⟨following, rfl⟩, rfl⟩

end Probes

section Checks

variable (rfc3339 : String → Bool) (record : AttributionRecord)

def PreparationSound : Prop :=
  ∀ preparation, record.preparation = some preparation → rfc3339 preparation.startedAt = true ∧
    ∀ result, preparation.completed = some result →
      isBlank result.log = false ∧ isBlank result.detail = false

theorem preparationElapsed_ok (elapsed : Nat) :
    record.preparationElapsed rfc3339 = .ok elapsed ↔
      PreparationSound rfc3339 record ∧ record.preparationTime = elapsed := by
  unfold preparationElapsed PreparationSound preparationTime
  cases record.preparation with
  | none => simp
  | some preparation =>
      cases started : rfc3339 preparation.startedAt with
      | false => simp [started]
      | true =>
          cases completed : preparation.completed with
          | none => simp [started, completed]
          | some result =>
              cases log : isBlank result.log <;> cases detail : isBlank result.detail <;>
                simp [started, completed, log, detail]

/-- The number of probes up to the last one that an assessment names. -/
def retained (assessment : AttributionAssessment) : Option Nat :=
  match assessment.probes.getLast? with
  | none => some 0
  | some last => (record.probes.findIdx? (·.id == last)).map (· + 1)

/-- A record as it was before the probes after a number of them. -/
def earlier (count : Nat) : AttributionRecord :=
  { record with assessments := [], probes := record.probes.take count }

def selected (component : String) (count : Nat) : List String :=
  ((record.probes.take count).filter fun probe =>
    record.probedComponent probe == some component).map (·.id)

/-- An assessment that the evidence it names still supports. -/
structure Backed (assessment : AttributionAssessment) (component : FailureComponent)
    (count : Nat) : Prop where
  found : record.components.find? (·.id == assessment.component) = some component
  revised : 0 ≤ assessment.evidenceRevision ∧ assessment.evidenceRevision < record.revision
  detail : isBlank assessment.detail = false
  distinct : assessment.probes.Nodup
  retained : record.retained assessment = some count
  selected : record.selected component.id count = assessment.probes
  cause : classifyEvidence (record.earlier count) component = assessment.cause

/-- Whether the probes up to a number are those an assessment names, with the cause it gives. -/
def checkCause (assessment : AttributionAssessment) (count : Nat) : Except String Unit :=
  match record.components.find? (·.id == assessment.component) with
  | none => .error "assessment references are inconsistent"
  | some component =>
      refuse (record.selected component.id count ≠ assessment.probes ||
        classifyEvidence (record.earlier count) component ≠ assessment.cause)
        "assessment cause is not supported by its complete retained probe history"

theorem checkAssessment_eq (assessment : AttributionAssessment) :
    record.checkAssessment assessment = (do
      refuse (assessment.component ∉ record.components.map (·.id) ||
        assessment.evidenceRevision < 0 || assessment.evidenceRevision ≥ record.revision ||
        isBlank assessment.detail || ¬ assessment.probes.Nodup)
        "assessment references are inconsistent"
      let count ← demand (record.retained assessment) "assessment names an absent probe"
      record.checkCause assessment count) := by
  unfold checkAssessment AttributionRecord.retained
  cases assessment.probes.getLast? with
  | none => rfl
  | some last =>
      dsimp only
      cases record.probes.findIdx? (·.id == last) with
      | none => rfl
      | some position => rfl

theorem checkCause_ok (assessment : AttributionAssessment) (count : Nat) :
    record.checkCause assessment count = .ok () ↔
      ∃ component, record.components.find? (·.id == assessment.component) = some component ∧
        record.selected component.id count = assessment.probes ∧
        classifyEvidence (record.earlier count) component = assessment.cause := by
  unfold checkCause
  cases record.components.find? (·.id == assessment.component) with
  | none => exact iff_of_false nofun nofun
  | some component => simp [refuse_ok]

theorem checkAssessment_ok (assessment : AttributionAssessment) :
    record.checkAssessment assessment = .ok () ↔
      ∃ component count, Backed record assessment component count := by
  simp only [checkAssessment_eq, bind_eq_ok, refuse_ok, demand_ok, checkCause_ok,
    Bool.or_eq_false_iff, decide_eq_false_iff_not, not_not, Int.not_lt, ge_iff_le, Int.not_le]
  constructor
  · rintro ⟨-, ⟨⟨⟨⟨-, from0⟩, before⟩, detail⟩, distinct⟩, count, retained, component,
      found, selected,
      cause⟩
    exact ⟨component, count, found, ⟨from0, before⟩, detail, distinct, retained, selected, cause⟩
  · rintro ⟨component, count, backed⟩
    refine ⟨(), ⟨⟨⟨⟨?_, backed.revised.1⟩, backed.revised.2⟩, backed.detail⟩,
      backed.distinct⟩, count,
      backed.retained, component, backed.found, backed.selected, backed.cause⟩
    have named := List.find?_some backed.found
    exact List.mem_map.mpr ⟨component, List.mem_of_find?_eq_some backed.found, beq_iff_eq.mp named⟩

structure Checked : Prop where
  version : record.version = 1
  revision : 0 ≤ record.revision
  project : 0 < record.submission.project
  named : [record.id, record.attempt, record.submission.storyId].any isBlank = false
  created : rfc3339 record.createdAt = true
  hold : record.held = !record.retired.isSome
  reason : record.retired.any isBlank = false
  settlement : record.settlementMalformed rfc3339 = false
  components : record.componentsMalformed = false
  plans : record.plansMalformed = false
  preparation : PreparationSound rfc3339 record
  probes : ProbesSound rfc3339 record record.probes record.preparationTime
  allowance : record.probes.length ≤ maxProbes
  charged : record.diagnosed ≤ record.diagnosisMs
  assessments : ∀ assessment ∈ record.assessments, record.checkAssessment assessment = .ok ()

theorem check_ok : record.check rfc3339 = .ok () ↔ Checked rfc3339 record := by
  simp only [check, bind_eq_ok, refuse_ok, preparationElapsed_ok, probeSteps_ok,
    Bool.or_eq_false_iff, decide_eq_false_iff_not]
  constructor
  · rintro ⟨-, ⟨⟨⟨⟨⟨⟨version, revision⟩, project⟩, named⟩, created⟩, hold⟩, reason⟩, -,
      settlement, -,
      components, -, plans, elapsed, ⟨preparation, rfl⟩, seen, ⟨probes, rfl⟩, -,
      ⟨allowance, charged⟩, assessments⟩
    refine ⟨not_not.mp version, Int.not_lt.mp revision, Int.not_le.mp project, named,
      by simpa using created, ?_, reason, settlement,
      components, plans, preparation, probes, Nat.not_lt.mp allowance, Nat.not_lt.mp charged,
      forM_ok _ _ assessments⟩
    cases held : record.held <;> cases retired : record.retired.isSome <;> simp_all
  · intro checked
    refine ⟨(), ⟨⟨⟨⟨⟨⟨not_not.mpr checked.version, Int.not_lt.mpr checked.revision⟩,
      Int.not_le.mpr checked.project⟩, checked.named⟩, by rw [checked.created]; rfl⟩, ?_⟩,
      checked.reason⟩, (), checked.settlement, (), checked.components, (), checked.plans, _,
      ⟨checked.preparation, rfl⟩, _, ⟨checked.probes, rfl⟩, (),
      ⟨Nat.not_lt.mpr checked.allowance, Nat.not_lt.mpr checked.charged⟩,
      forM_of_ok _ _ checked.assessments⟩
    rw [checked.hold]
    cases record.retired.isSome <;> rfl

end Checks

section Evidence

variable (record other : AttributionRecord) (component : FailureComponent)

def observed : FailureCause :=
  if component ∉ record.components then .unknown
  else match component.observedCause with
    | .hostExternal => .hostExternal
    | .integration => .integration
    | .candidateCaused | .sharedProject | .unknown => .unknown

theorem classify_untested
    (untested : record.hasUnsettledDiagnosis = true ∨ record.probes = []) :
    classifyEvidence record component = observed record component := by
  unfold classifyEvidence observed
  split
  · rfl
  · cases component.observedCause with
    | unknown =>
        dsimp only
        rcases untested with running | none
        · rw [running, Bool.or_true, Bool.true_or, Bool.true_or, Bool.true_or, if_pos rfl]
        · rw [none]
          split
          · rfl
          · split
            · rfl
            · split
              · split
                · rfl
                · rfl
              · rfl
    | candidateCaused => rfl
    | sharedProject => rfl
    | hostExternal => rfl
    | integration => rfl

theorem classify_observed (known : observed record component ≠ .unknown) :
    classifyEvidence record component = observed record component := by
  unfold observed at known
  unfold classifyEvidence observed
  split
  · rfl
  · next listed =>
      rw [if_neg listed] at known
      cases cause : component.observedCause <;> rw [cause] at known
      all_goals first
        | rfl
        | exact absurd rfl known

def plansFor (component : String) : List (ContrastPlan × Nat) :=
  record.plans.zipIdx.filter fun entry => entry.1.component == component

theorem classify_congr (components : other.components = record.components)
    (generation : other.submission = record.submission) (inputs : other.inputs = record.inputs)
    (unsettled : other.hasUnsettledDiagnosis = record.hasUnsettledDiagnosis)
    (probes : other.probes = record.probes)
    (plans : other.plansFor component.id = record.plansFor component.id) :
    classifyEvidence other component = classifyEvidence record component := by
  unfold plansFor at plans
  unfold classifyEvidence
  rw [components, generation, inputs, unsettled, probes, plans]

theorem observed_congr (components : other.components = record.components) :
    observed other component = observed record component := by
  unfold observed
  rw [components]

end Evidence

section Kept

variable (record next : AttributionRecord) (assessment : AttributionAssessment)
  (component : FailureComponent) (count : Nat)

theorem retained_congr (ids : next.probes.map (·.id) = record.probes.map (·.id)) :
    next.retained assessment = record.retained assessment := by
  unfold retained
  cases assessment.probes.getLast? with
  | none => rfl
  | some last =>
      have named (probes : List DiagnosticProbe) : probes.findIdx? (·.id == last) =
          (probes.map (·.id)).findIdx? (· == last) := by
        rw [List.findIdx?_map]
        rfl
      dsimp only
      rw [named, named, ids]

theorem selected_congr (name : String)
    (kept : next.probes.take count = record.probes.take count)
    (plans : record.plans <+: next.plans)
    (planned : ∀ probe ∈ record.probes, probe.plan < record.plans.length) :
    next.selected name count = record.selected name count := by
  unfold selected
  rw [kept]
  refine congrArg _ (List.filter_congr fun probe member => ?_)
  have bound := planned probe (List.mem_of_mem_take member)
  obtain ⟨more, same⟩ := plans
  rw [probedComponent, probedComponent, ← same, List.getElem?_append_left bound]

theorem Backed.next_iff (backed : Backed record assessment component count)
    (components : next.components = record.components)
    (revision : record.revision ≤ next.revision)
    (ids : next.probes.map (·.id) = record.probes.map (·.id))
    (kept : next.probes.take count = record.probes.take count)
    (plans : record.plans <+: next.plans)
    (planned : ∀ probe ∈ record.probes, probe.plan < record.plans.length) :
    next.checkAssessment assessment = .ok () ↔
      classifyEvidence (next.earlier count) component = assessment.cause := by
  have reached := retained_congr record next assessment ids
  rw [checkAssessment_ok]
  constructor
  · rintro ⟨other, place, later⟩
    have found := later.found
    rw [components, backed.found, Option.some.injEq] at found
    have counted := later.retained
    rw [reached, backed.retained, Option.some.injEq] at counted
    rw [found, counted]
    exact later.cause
  · intro cause
    refine ⟨component, count, by rw [components, backed.found], ⟨backed.revised.1, ?_⟩,
      backed.detail, backed.distinct, by rw [reached, backed.retained], ?_, cause⟩
    · exact Int.lt_of_lt_of_le backed.revised.2 revision
    · rw [selected_congr record next count component.id kept plans planned, backed.selected]

end Kept

end Storyhook.Service.AttributionRecord
