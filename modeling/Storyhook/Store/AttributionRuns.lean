import Storyhook.Service.AttributionProgress
import Storyhook.Store.AttributionAllowance

/-! Attribution records over runs of insertions and updates. -/

namespace Storyhook.Store

open Storyhook.Service Storyhook.Service.AttributionRecord
open Library Library.Outcome

/-- Every record as its validation found it, with assessments of completed probes. -/
def Standing (rfc3339 : String → Bool) (table : Attributions) : Prop :=
  ∀ row ∈ table, Checked rfc3339 row ∧ Ripe row

section Ripe

variable (record next : AttributionRecord)

theorem Retains.completed {record later : AttributionRecord} (retains : Retains record later)
    (probe : DiagnosticProbe) (member : probe ∈ record.probes)
    (completed : probe.completed.isSome = true) : probe ∈ later.probes := by
  obtain ⟨index, there⟩ := List.mem_iff_getElem?.mp member
  exact List.mem_of_getElem? (retains.probes index probe there completed)

theorem supports_completed (assessment : AttributionAssessment)
    (supported : record.supports assessment = true) : ∀ id ∈ assessment.probes,
      ∃ probe ∈ record.probes, probe.id = id ∧ probe.completed.isSome = true := by
  simp only [supports, Bool.and_eq_true, beq_iff_eq, List.all_eq_true] at supported
  obtain ⟨⟨⟨-, completed⟩, named⟩, -⟩ := supported
  intro id member
  rw [← named] at member
  obtain ⟨probe, inside, rfl⟩ := List.mem_map.mp member
  exact ⟨probe, (List.mem_filter.mp inside).1, rfl, completed probe inside⟩

theorem preservedBy_ripe (ripe : Ripe record) (kept : record.preservedBy next = true) :
    Ripe next := by
  have retains := (preservedBy_preserved record next kept).retains
  have stays : ∀ id, (∃ probe ∈ record.probes, probe.id = id ∧ probe.completed.isSome = true) →
      ∃ probe ∈ next.probes, probe.id = id ∧ probe.completed.isSome = true := by
    rintro id ⟨probe, member, same, completed⟩
    exact ⟨probe, retains.completed probe member completed, same, completed⟩
  intro assessment member id named
  refine stays id ?_
  unfold preservedBy at kept
  split at kept
  · rw [beq_iff_eq.mp kept] at ripe ⊢
    exact ripe assessment member id named
  · simp only [Bool.and_eq_true, List.isPrefixOf_iff_prefix, List.all_eq_true] at kept
    obtain ⟨⟨⟨⟨⟨-, added, same⟩, supported⟩, -⟩, -⟩, -⟩ := kept
    rw [← same, List.drop_left] at supported
    rw [← same] at member
    rcases List.mem_append.mp member with before | later
    · exact ripe assessment before id named
    · exact supports_completed record assessment (supported assessment later) id named

end Ripe

section Runs

variable (rfc3339 : String → Bool) (table after : Attributions) (record : AttributionRecord)

theorem insert_standing (ran : insertAttribution rfc3339 table record = .ok after)
    (standing : Standing rfc3339 table) : Standing rfc3339 after := by
  simp only [insertAttribution, bind_eq_ok, refuse_ok, pure_eq_ok, Bool.or_eq_false_iff,
    Bool.not_eq_false', List.isEmpty_iff] at ran
  obtain ⟨⟨⟩, valid, -, ⟨⟨-, unassessed⟩, -⟩, -, -, -, -, rfl⟩ := ran
  intro row member
  rcases List.mem_append.mp member with before | here
  · exact standing row before
  · rw [List.mem_singleton.mp here]
    refine ⟨(validate_ok rfc3339 record).mp valid, ?_⟩
    rw [Ripe, unassessed]
    exact fun assessment none => absurd none List.not_mem_nil

theorem update_standing (expected : Int) (changed : Bool)
    (ran : updateAttribution rfc3339 table record expected = .ok (changed, after))
    (standing : Standing rfc3339 table) : Standing rfc3339 after := by
  simp only [updateAttribution, bind_eq_ok, refuse_ok] at ran
  obtain ⟨⟨⟩, valid, -, -, ran⟩ := ran
  split at ran
  · cases ran
    exact standing
  · next row found =>
      simp only [bind_eq_ok, refuse_ok, pure_eq_ok, Bool.not_eq_false'] at ran
      obtain ⟨old, decoded, -, kept, -, -, written⟩ := ran
      obtain ⟨-, rfl⟩ := Prod.mk.inj written
      rw [decode_same rfc3339 row old decoded] at kept
      have ripe := (standing row (List.mem_of_find?_eq_some found)).2
      intro other member
      obtain ⟨before, inside, rfl⟩ := List.mem_map.mp member
      split
      · exact ⟨(validate_ok rfc3339 record).mp valid, preservedBy_ripe row record ripe kept⟩
      · exact standing before inside

theorem runCalls_standing (calls : List AttributionCall) :
    Standing rfc3339 (runCalls rfc3339 calls) := by
  unfold runCalls
  refine List.foldlRecOn calls (AttributionCall.perform rfc3339)
    (fun row none => absurd none List.not_mem_nil) fun table standing call _ => ?_
  cases call with
  | insert record =>
      cases ran : insertAttribution rfc3339 table record with
      | error failure =>
          simp only [AttributionCall.perform, ran]
          exact standing
      | ok after =>
          simp only [AttributionCall.perform, ran]
          exact insert_standing rfc3339 table after record ran standing
  | update record expected =>
      cases ran : updateAttribution rfc3339 table record expected with
      | error failure =>
          simp only [AttributionCall.perform, ran]
          exact standing
      | ok outcome =>
          obtain ⟨changed, after⟩ := outcome
          simp only [AttributionCall.perform, ran]
          exact update_standing rfc3339 table after record expected changed ran standing

/-- A record goes on as it waits to unless it is retired, or an assessment left open a cause that
its probes show and its closed diagnosis gives. -/
theorem progress_accepted_iff (calls : List AttributionCall) (progress : Progress) (charged : Nat)
    (member : record ∈ runCalls rfc3339 calls)
    (wellFormed : progress.WellFormed rfc3339 record charged) :
    Accepts rfc3339 record (progress.next record charged) ↔
      record.retired = none ∧ ¬ progress.Refuted record := by
  obtain ⟨checked, ripe⟩ := runCalls_standing rfc3339 calls record member
  exact progress.accepted_iff rfc3339 record charged checked wellFormed ripe

end Runs

def atNoon (text : String) : Bool := text == "2026-10-03T12:00:00Z"

def digits (digit : Char) : String := String.ofList (List.replicate 40 digit)

def heldRecord : AttributionRecord where
  version := 1
  id := "diagnosis"
  revision := 0
  submission := ⟨1, "SH-1", some 2, none⟩
  attempt := "attempt"
  inputs := ⟨some (digits '1'), some (digits '2'), some (digits '3'), none, none, none, none⟩
  createdAt := "2026-10-03T12:00:00Z"
  components := [⟨"case", "check", "assertion", "requirement", "case.log", .unknown⟩]
  preparation := none
  settlement := none
  plans := [⟨"case", digits '3', digits '2', digits '4', "detector", .unchanged, ["runner"]⟩]
  probes := []
  assessments := []
  diagnosisMs := 0
  held := true
  retired := none

def sideOf (index : Nat) : ProbeSide := contrastOrder.getD index .candidate

def ranProbe (index : Nat) : DiagnosticProbe where
  id := "probe-" ++ toString index
  plan := 0
  side := sideOf index
  startedAt := "2026-10-03T12:00:00Z"
  completed := some {
    tree := if sideOf index = .candidate then digits '3' else digits '4'
    detector := "detector"
    executions := 1
    outcome := if sideOf index = .candidate then .failed "assertion" else .passed
    environment := some ⟨"toolchain", "fixtures", "policy", "grant", true⟩
    log := "probe.log"
    executionId := "execution-" ++ toString index
    cleanupComplete := true
    milliseconds := 0 }

def ranProbes (count : Nat) : List DiagnosticProbe := (List.range count).map ranProbe

def probedRecord (count : Nat) : AttributionRecord :=
  { heldRecord with
    preparation := some ⟨"2026-10-03T12:00:00Z", some ⟨0, "log", "detail", true⟩⟩
    probes := ranProbes count }

def assessedRecord (count : Nat) : AttributionRecord :=
  { probedRecord count with
    revision := 2 * count + 3
    assessments :=
      [⟨"case", 2 * count + 2, .unknown, (ranProbes count).map (·.id), "not settled"⟩] }

/-- The updates of a comparison that is assessed before it is settled. -/
def comparison (count : Nat) : List AttributionRecord :=
  { heldRecord with preparation := some ⟨"2026-10-03T12:00:00Z", none⟩ } ::
    probedRecord 0 :: ((List.range count).flatMap fun index =>
      [{ probedRecord index with
        probes := ranProbes index ++ [{ ranProbe index with completed := none }] },
        probedRecord (index + 1)]) ++ [assessedRecord count]

def comparisonCalls (count : Nat) : List AttributionCall :=
  .insert heldRecord :: (comparison count).zipIdx.map fun entry =>
    .update { entry.1 with revision := entry.2 + 1 } entry.2

def cleanSettlement : Progress := .settled ⟨"2026-10-03T12:00:00Z", 0, "settled", true⟩

/-- A settlement after an assessment of two probes, which show no cause. -/
theorem progress_accepted_settled :
    assessedRecord 2 ∈ runCalls atNoon (comparisonCalls 2) ∧
      (Accepts atNoon (assessedRecord 2) (cleanSettlement.next (assessedRecord 2) 0) ↔
        (assessedRecord 2).retired = none ∧ ¬ cleanSettlement.Refuted (assessedRecord 2)) ∧
      (cleanSettlement.next (assessedRecord 2) 0).validate atNoon = .ok () := by
  have member : assessedRecord 2 ∈ runCalls atNoon (comparisonCalls 2) := by decide +kernel
  refine ⟨member, ?_, by decide +kernel⟩
  exact progress_accepted_iff atNoon (assessedRecord 2) (comparisonCalls 2) cleanSettlement 0 member
    ⟨⟨rfl, rfl, by decide +kernel, by decide +kernel, by decide +kernel, Nat.le_refl 0⟩,
      Nat.le_refl 0, by decide +kernel, by decide⟩

/-- An assessment made before its settlement keeps the settlement from being recorded. -/
theorem early_assessment_blocks_settlement : ¬ ∀ (rfc3339 : String → Bool)
    (calls : List AttributionCall) (record : AttributionRecord) (progress : Progress)
    (charged : Nat), record ∈ runCalls rfc3339 calls → record.retired = none →
      progress.WellFormed rfc3339 record charged →
        Accepts rfc3339 record (progress.next record charged) := by
  intro accepts
  have accepted := accepts atNoon (comparisonCalls 4) (assessedRecord 4) cleanSettlement 0
    (by decide +kernel) rfl
    ⟨⟨rfl, rfl, by decide +kernel, by decide +kernel, by decide +kernel, Nat.le_refl 0⟩,
      Nat.le_refl 0, by decide +kernel, by decide⟩
  have refused : ((cleanSettlement.next (assessedRecord 4) 0).validate atNoon).isOk = false := by
    decide +kernel
  rw [accepted.1] at refused
  cases refused

end Storyhook.Store
