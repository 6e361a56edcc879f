import Storyhook.Library.Runs
import Storyhook.Service.AttributionContrast
import Storyhook.Store.AttributionRuns

/-! The causes one diagnosis names, over all that becomes of its record. -/

namespace Storyhook.Store

open Storyhook.Service Storyhook.Service.AttributionRecord
open Library Library.Outcome

/-- One says that the candidate caused a failure, and the other that the project did. -/
def Contradict (one other : FailureCause) : Prop :=
  one = .candidateCaused ∧ other = .sharedProject ∨ one = .sharedProject ∧ other = .candidateCaused

/-- Nothing that is said of a record contradicts what is said of it later, and no one is named
without the contrast having been shown. -/
structure Agreed (record later : AttributionRecord) : Prop where
  classified : ∀ component,
    ¬Contradict (record.classify component) (later.classify component)
  assessed : ∀ one ∈ record.assessments, ∀ other ∈ later.assessments,
    one.component = other.component → ¬Contradict one.cause other.cause
  shown : ∀ component control,
    controlOutcome component (record.classify component) = some control →
      Shown record component control

theorem not_contradict (component : FailureComponent) (one other : FailureCause)
    (alike : ∀ control another, controlOutcome component one = some control →
      controlOutcome component other = some another → control = another) :
    ¬Contradict one other := by
  rintro (⟨rfl, rfl⟩ | ⟨rfl, rfl⟩)
  · cases alike _ _ rfl rfl
  · cases alike _ _ rfl rfl

theorem contradict_comm (one other : FailureCause) :
    Contradict one other ↔ Contradict other one := by
  rw [Contradict, Contradict, or_comm, and_comm (a := one = .sharedProject),
    and_comm (a := one = .candidateCaused)]

theorem shown_agree (component : FailureComponent) (few many : AttributionRecord)
    (plans : few.plans <+: many.plans)
    (probes : ∀ probe ∈ few.probes, probe.completed.isSome = true → probe ∈ many.probes)
    (control another : ProbeOutcome) (one : Shown few component control)
    (other : Shown many component another) : control = another := by
  obtain ⟨plan, index, alone, -, shown⟩ := one
  obtain ⟨plan', index', alone', -, shown'⟩ := other
  have planned : (plan, index) ∈ many.plansFor component.id := by
    have inside : (plan, index) ∈ few.plansFor component.id := by
      rw [alone]
      exact List.mem_singleton_self _
    obtain ⟨listed, same⟩ := List.mem_filter.mp inside
    obtain ⟨rest, split⟩ := plans
    refine List.mem_filter.mpr ⟨?_, same⟩
    rw [← split, List.zipIdx_append]
    exact List.mem_append_left _ listed
  rw [alone', List.mem_singleton] at planned
  cases planned
  have long : 1 < (few.probes.filter fun probe => probe.plan == index).length := by
    have filled := List.length_pos_iff.mpr shown.filled
    have blocks := shown.blocks
    omega
  have there := List.getElem?_eq_getElem long
  have side := shown.order 1 _ there
  have member := List.getElem_mem long
  generalize (few.probes.filter fun probe => probe.plan == index)[1] = probe at side member
  have isControl : probe.side = .control := (Option.some.inj side).symm
  obtain ⟨environment, ran⟩ := shown.ran
  obtain ⟨environment', ran'⟩ := shown'.ran
  obtain ⟨result, _, completed, -, -, ended, -⟩ := ran probe member
  obtain ⟨inside, own⟩ := List.mem_filter.mp member
  have kept : probe ∈ many.probes := probes probe inside (by rw [completed]; rfl)
  obtain ⟨result', _, completed', -, -, ended', -⟩ :=
    ran' probe (List.mem_filter.mpr ⟨kept, own⟩)
  cases completed.symm.trans completed'
  rw [isControl] at ended ended'
  exact ended.symm.trans ended'

theorem classify_shown (record : AttributionRecord) (component : FailureComponent)
    (control : ProbeOutcome)
    (named : controlOutcome component (record.classify component) = some control) :
    Shown record component control := by
  unfold AttributionRecord.classify at named
  split at named
  · cases named
  · exact classifyEvidence_shown record component control named

theorem classify_agreed (record later : AttributionRecord) (retains : Retains record later)
    (component : FailureComponent) :
    ¬Contradict (record.classify component) (later.classify component) :=
  not_contradict component _ _ fun control another one other =>
    shown_agree component record later retains.plans retains.completed control another
      (classify_shown record component control one) (classify_shown later component another other)

theorem backed_agreed (record : AttributionRecord) (component : FailureComponent)
    (few many : Nat) (fewer : few ≤ many) :
    ¬Contradict (classifyEvidence (record.earlier few) component)
      (classifyEvidence (record.earlier many) component) :=
  not_contradict component _ _ fun control another one other =>
    shown_agree component (record.earlier few) (record.earlier many) (List.prefix_refl _)
      (fun _ member _ => (List.take_prefix_take_left fewer).subset member)
      control another (classifyEvidence_shown _ component control one)
      (classifyEvidence_shown _ component another other)

theorem assessments_agreed (rfc3339 : String → Bool) (record : AttributionRecord)
    (checked : Checked rfc3339 record) (one other : AttributionAssessment)
    (oneMember : one ∈ record.assessments) (otherMember : other ∈ record.assessments)
    (same : one.component = other.component) : ¬Contradict one.cause other.cause := by
  obtain ⟨component, few, backed⟩ :=
    (checkAssessment_ok record one).mp (checked.assessments one oneMember)
  obtain ⟨component', many, backed'⟩ :=
    (checkAssessment_ok record other).mp (checked.assessments other otherMember)
  have found := backed.found
  rw [same, backed'.found] at found
  cases found
  rw [← backed.cause, ← backed'.cause]
  rcases Nat.le_total few many with fewer | more
  · exact backed_agreed record component few many fewer
  · rw [contradict_comm]
    exact backed_agreed record component many few more

theorem agreed_of_retains (rfc3339 : String → Bool) (record later : AttributionRecord)
    (checked : Checked rfc3339 later) (retains : Retains record later) : Agreed record later :=
  ⟨classify_agreed record later retains,
    fun one oneMember other otherMember same => assessments_agreed rfc3339 later checked one other
      (retains.assessments.subset oneMember) otherMember same,
    classify_shown record⟩

theorem run_checked (rfc3339 : String → Bool) (record later : AttributionRecord)
    (checked : Checked rfc3339 record)
    (ran : Runs.Reachable (Accepts rfc3339) record later) :
    Checked rfc3339 later ∧ Retains record later := by
  induction ran with
  | refl => exact ⟨checked, Retains.refl record⟩
  | tail _ last further =>
      exact ⟨(validate_ok rfc3339 _).mp last.1,
        further.2.trans (preservedBy_preserved _ _ last.2).retains⟩

/-- No accepted updates of a record bring two causes that contradict each other. -/
theorem verdicts_agree (rfc3339 : String → Bool) (first record later : AttributionRecord)
    (valid : first.validate rfc3339 = .ok ())
    (ran : Runs.Reachable (Accepts rfc3339) first record)
    (further : Runs.Reachable (Accepts rfc3339) record later) : Agreed record later := by
  have checked := (run_checked rfc3339 first record ((validate_ok rfc3339 first).mp valid) ran).1
  obtain ⟨sound, retains⟩ := run_checked rfc3339 record later checked further
  exact agreed_of_retains rfc3339 record later sound retains

def settledRecord : AttributionRecord :=
  { probedRecord 4 with
    revision := 11
    settlement := some ⟨"2026-10-03T12:00:00Z", 0, "settled", true⟩ }

def judgedRecord : AttributionRecord :=
  { settledRecord with
    revision := 12
    assessments := [⟨"case", 11, .candidateCaused, (ranProbes 4).map (·.id), "contrast"⟩] }

theorem verdicts_agree_judged : Agreed settledRecord judgedRecord ∧
    heldRecord.components.map settledRecord.classify = [.candidateCaused] := by
  have settles : Accepts atNoon heldRecord settledRecord :=
    ⟨(validate_ok _ _).mpr ((check_ok _ _).mp (by decide +kernel)), by decide +kernel⟩
  have judges : Accepts atNoon settledRecord judgedRecord :=
    ⟨(validate_ok _ _).mpr ((check_ok _ _).mp (by decide +kernel)), by decide +kernel⟩
  have valid : heldRecord.validate atNoon = .ok () :=
    (validate_ok _ _).mpr ((check_ok _ _).mp (by decide +kernel))
  exact ⟨verdicts_agree atNoon heldRecord settledRecord judgedRecord valid
    (.single settles) (.single judges), by decide +kernel⟩

theorem calls_agree (rfc3339 : String → Bool) (calls more : List AttributionCall)
    (record later : AttributionRecord) (member : record ∈ runCalls rfc3339 calls)
    (still : later ∈ runCalls rfc3339 (calls ++ more)) (same : later.id = record.id) :
    Agreed record later := by
  have ledger := runCalls_ledger rfc3339 calls [] ledger_empty
  obtain ⟨row, final, retains⟩ := runCalls_retains rfc3339 more _ ledger record member
  have joined : more.foldl (AttributionCall.perform rfc3339) (runCalls rfc3339 calls) =
      runCalls rfc3339 (calls ++ more) := by
    rw [runCalls, runCalls, List.foldl_append]
  change row ∈ more.foldl (AttributionCall.perform rfc3339) (runCalls rfc3339 calls) at final
  rw [joined] at final
  have ids := (runCalls_ledger rfc3339 (calls ++ more) [] ledger_empty).ids
  obtain rfl := List.inj_on_of_nodup_map ids final still (retains.id.trans same.symm)
  exact agreed_of_retains rfc3339 record row
    (runCalls_standing rfc3339 (calls ++ more) row final).1 retains

end Storyhook.Store
