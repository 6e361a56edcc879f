import Mathlib.Algebra.GroupWithZero.Nat
import Storyhook.Domain.FoldStory
import Storyhook.Store.GateEvidence
import Storyhook.Library.Outcome

namespace Storyhook.Service

open Storyhook.Store
open Library Library.Outcome

def maxProbes : Nat := 8

def maxDiagnosisMs : Nat := 300000

def u64Max : Nat := 2 ^ 64 - 1

inductive FailureCause where
  | candidateCaused | sharedProject | hostExternal | integration | unknown
  deriving DecidableEq, Repr

structure FailureComponent where
  id : String
  check : String
  signature : String
  requirement : String
  log : String
  observedCause : FailureCause
  deriving DecidableEq, Repr

inductive ProbeSide where
  | candidate | control
  deriving DecidableEq, Repr

inductive DetectorRelation where
  | unchanged
  | transplant (patch : String)
  | ablation (patch : String)
  deriving DecidableEq, Repr

structure ContrastPlan where
  component : String
  candidateTree : String
  base : String
  controlTree : String
  detector : String
  relation : DetectorRelation
  argv : List String
  deriving DecidableEq, Repr

structure ProbeEnvironment where
  toolchain : String
  fixtures : String
  resourcePolicy : String
  grant : String
  supported : Bool
  deriving DecidableEq, Repr

inductive ProbeOutcome where
  | passed
  | failed (signature : String)
  | unavailable (detail : String)
  deriving DecidableEq, Repr

structure ProbeResult where
  tree : String
  detector : String
  executions : Nat
  outcome : ProbeOutcome
  environment : Option ProbeEnvironment
  log : String
  executionId : String
  cleanupComplete : Bool
  milliseconds : Nat
  deriving DecidableEq, Repr

structure DiagnosticProbe where
  id : String
  plan : Nat
  side : ProbeSide
  startedAt : String
  completed : Option ProbeResult
  deriving DecidableEq, Repr

structure AttributionAssessment where
  component : String
  evidenceRevision : Int
  cause : FailureCause
  probes : List String
  detail : String
  deriving DecidableEq, Repr

structure PreparationResult where
  milliseconds : Nat
  log : String
  detail : String
  cleanupComplete : Bool
  deriving DecidableEq, Repr

structure DiagnosticPreparation where
  startedAt : String
  completed : Option PreparationResult
  deriving DecidableEq, Repr

structure DiagnosticSettlement where
  completedAt : String
  milliseconds : Nat
  detail : String
  cleanupComplete : Bool
  deriving DecidableEq, Repr

structure AttributionRecord where
  version : Nat
  id : String
  revision : Int
  submission : GateSubmission
  attempt : String
  inputs : GateInputs
  createdAt : String
  components : List FailureComponent
  preparation : Option DiagnosticPreparation
  settlement : Option DiagnosticSettlement
  plans : List ContrastPlan
  probes : List DiagnosticProbe
  assessments : List AttributionAssessment
  diagnosisMs : Nat
  held : Bool
  retired : Option String
  deriving DecidableEq, Repr

def isBlank (text : String) : Bool := (Text.trim text.toList).isEmpty

def DiagnosticPreparation.unsettled (preparation : DiagnosticPreparation) : Bool :=
  preparation.completed.all fun result => !result.cleanupComplete

def DiagnosticPreparation.preservedBy (preparation next : DiagnosticPreparation) : Bool :=
  preparation.startedAt == next.startedAt &&
    (preparation.completed.isNone || preparation.completed == next.completed)

def DiagnosticProbe.unsettled (probe : DiagnosticProbe) : Bool :=
  probe.completed.all fun result => !result.cleanupComplete

def DetectorRelation.blankPatch : DetectorRelation → Bool
  | .transplant patch | .ablation patch => isBlank patch
  | .unchanged => false

namespace AttributionRecord

def hasUnsettledExecution (record : AttributionRecord) : Bool :=
  record.preparation.any (·.unsettled) || record.probes.any (·.unsettled)

/-- Before its settlement a comparison still owns what it was prepared with. -/
def hasUnsettledDiagnosis (record : AttributionRecord) : Bool :=
  record.hasUnsettledExecution ||
    (record.preparation.isSome && record.settlement.all fun settled => !settled.cleanupComplete)

end AttributionRecord

def oid (value : String) : Bool :=
  (value.length == 40 || value.length == 64) && value.toList.all Domain.isAsciiHexdigit

structure Contrast where
  environment : Option ProbeEnvironment
  controlsPass : Bool
  controlsFail : Bool

def contrastOrder : List ProbeSide := [.candidate, .control, .control, .candidate]

def contrastStep (component : FailureComponent) (plan : ContrastPlan) (seen : Contrast)
    (probe : DiagnosticProbe) (index : Nat) : Option Contrast := do
  guard (contrastOrder[index % 4]? = some probe.side)
  let result ← probe.completed
  let tree := if probe.side = .candidate then plan.candidateTree else plan.controlTree
  guard (result.tree = tree ∧ result.detector = plan.detector ∧ result.executions = 1 ∧
    result.cleanupComplete ∧ ¬ isBlank result.log ∧ ¬ isBlank result.executionId)
  let observed ← result.environment
  guard (observed.supported ∧ [observed.toolchain, observed.fixtures, observed.resourcePolicy,
    observed.grant].all fun text => !isBlank text)
  match seen.environment with
  | some expected =>
      guard (observed.toolchain = expected.toolchain ∧ observed.fixtures = expected.fixtures ∧
        observed.resourcePolicy = expected.resourcePolicy)
  | none => pure ()
  let environment := some (seen.environment.getD observed)
  let matchingFailure : Bool := result.outcome = .failed component.signature
  if probe.side = .candidate then do
    guard matchingFailure
    pure { seen with environment := environment }
  else
    pure {
      environment := environment
      controlsPass := seen.controlsPass && result.outcome = .passed
      controlsFail := seen.controlsFail && matchingFailure }

def contrast (component : FailureComponent) (plan : ContrastPlan) (probes : List DiagnosticProbe) :
    FailureCause :=
  match probes.zipIdx.foldlM (fun seen entry => contrastStep component plan seen entry.1 entry.2)
      ⟨none, true, true⟩ with
  | none => .unknown
  | some seen =>
      if seen.controlsPass then .candidateCaused
      else if seen.controlsFail then .sharedProject
      else .unknown

def planUsable (inputs : GateInputs) (plan : ContrastPlan) : Bool :=
  some plan.candidateTree == inputs.tree && some plan.base == inputs.base &&
    oid plan.controlTree && plan.controlTree != plan.candidateTree && !isBlank plan.detector &&
    !plan.argv.isEmpty && !plan.argv.any isBlank && !plan.relation.blankPatch

def classifyEvidence (record : AttributionRecord) (component : FailureComponent) : FailureCause :=
  if component ∉ record.components then .unknown
  else match component.observedCause with
    | .hostExternal => .hostExternal
    | .integration => .integration
    | .candidateCaused | .sharedProject => .unknown
    | .unknown =>
        if record.submission.generation.isNone || record.hasUnsettledDiagnosis ||
            [record.inputs.head, record.inputs.base, record.inputs.tree].any (fun value =>
              value.all fun text => !oid text) ||
            isBlank component.signature || record.probes.length > maxProbes then .unknown
        else if ¬ (record.probes.map (·.id)).Nodup ∨
            ¬ (record.probes.filterMap fun probe => probe.completed.map (·.executionId)).Nodup then
          .unknown
        else match record.plans.zipIdx.filter fun entry => entry.1.component == component.id with
          | [(plan, index)] =>
              if !planUsable record.inputs plan then .unknown
              else
                let probes := record.probes.filter fun probe => probe.plan == index
                if probes.length < 4 ∨ probes.length % 4 ≠ 0 then .unknown
                else contrast component plan probes
          | _ => .unknown

namespace AttributionRecord

section Validation

variable (rfc3339 : String → Bool) (record : AttributionRecord)

def settlementMalformed : Bool :=
  record.settlement.any fun settled =>
    record.preparation.isNone || isBlank settled.detail || !rfc3339 settled.completedAt ||
      settled.milliseconds > record.diagnosisMs

def componentsMalformed : Bool :=
  record.components.isEmpty || ¬ (record.components.map (·.id)).Nodup ||
    record.components.any fun component =>
      [component.id, component.check, component.signature, component.requirement,
        component.log].any isBlank ||
      component.observedCause = .candidateCaused || component.observedCause = .sharedProject

def plansMalformed : Bool :=
  ¬ (record.plans.map (·.component)).Nodup ||
    record.plans.any fun plan =>
      plan.component ∉ record.components.map (·.id) ||
      [plan.base, plan.candidateTree, plan.controlTree, plan.detector].any isBlank ||
      plan.argv.isEmpty || plan.argv.any isBlank || plan.relation.blankPatch

/-- The time a preparation took, where it has one that is well formed. -/
def preparationElapsed : Except String Nat :=
  match record.preparation with
  | none => .ok 0
  | some preparation =>
      if !rfc3339 preparation.startedAt then
        .error "preparation reservation needs a valid timestamp"
      else match preparation.completed with
        | none => .ok 0
        | some result =>
            if isBlank result.log || isBlank result.detail then
              .error "completed preparation needs raw output and diagnostics"
            else .ok result.milliseconds

/-- The ids and executions of the probes before one, and the time they took. -/
structure ProbesSeen where
  ids : List String
  executions : List String
  elapsed : Nat

def probeStep (seen : ProbesSeen) (probe : DiagnosticProbe) (index : Nat) :
    Except String ProbesSeen :=
  if isBlank probe.id || seen.ids.contains probe.id || probe.plan ≥ record.plans.length ||
      !rfc3339 probe.startedAt || (probe.completed.isNone && index + 1 != record.probes.length) then
    .error "probe reservation is malformed, duplicate or out of order"
  else match probe.completed with
    | none => .ok { seen with ids := probe.id :: seen.ids }
    | some result =>
        if isBlank result.executionId || seen.executions.contains result.executionId ||
            isBlank result.log then
          .error "completed probes need distinct physical execution and output references"
        else if seen.elapsed + result.milliseconds > u64Max then
          .error "diagnosis duration overflow"
        else .ok ⟨probe.id :: seen.ids, result.executionId :: seen.executions,
          seen.elapsed + result.milliseconds⟩

def probedComponent (probe : DiagnosticProbe) : Option String :=
  record.plans[probe.plan]?.map (·.component)

/-- An assessment rests on every probe of its component up to the last one it names. -/
def checkAssessment (assessment : AttributionAssessment) : Except String Unit := do
  refuse (assessment.component ∉ record.components.map (·.id) || assessment.evidenceRevision < 0 ||
    assessment.evidenceRevision ≥ record.revision || isBlank assessment.detail ||
    ¬ assessment.probes.Nodup) "assessment references are inconsistent"
  let count ← match assessment.probes.getLast? with
    | none => .ok 0
    | some last =>
        match record.probes.findIdx? (·.id == last) with
        | none => .error "assessment names an absent probe"
        | some position => .ok (position + 1)
  let earlier := { record with assessments := [], probes := record.probes.take count }
  match earlier.components.find? (·.id == assessment.component) with
  -- The component was found above.
  | none => .error "assessment references are inconsistent"
  | some component =>
      let selected := (earlier.probes.filter fun probe =>
        earlier.probedComponent probe == some component.id).map (·.id)
      refuse (selected ≠ assessment.probes || classifyEvidence earlier component ≠ assessment.cause)
        "assessment cause is not supported by its complete retained probe history"

def check : Except String Unit := do
  refuse (record.version ≠ 1 || record.revision < 0 || record.submission.project ≤ 0 ||
    [record.id, record.attempt, record.submission.storyId].any isBlank ||
    !rfc3339 record.createdAt || record.held == record.retired.isSome ||
    record.retired.any isBlank) "identity, timestamp or hold state is inconsistent"
  refuse (record.settlementMalformed rfc3339)
    "comparison settlement needs preparation, diagnostics, time and charged duration"
  refuse record.componentsMalformed "failures must be distinct observations, not causal assertions"
  refuse record.plansMalformed
    "contrast plans need one known component and complete immutable inputs"
  let elapsed ← record.preparationElapsed rfc3339
  let seen ← record.probes.zipIdx.foldlM
    (fun seen entry => record.probeStep rfc3339 seen entry.1 entry.2) ⟨[], [], elapsed⟩
  refuse (record.probes.length > maxProbes || record.diagnosisMs < seen.elapsed)
    "probe allowance or retained elapsed time is inconsistent"
  record.assessments.forM record.checkAssessment

def validate : Except StoreError Unit :=
  (record.check rfc3339).mapError fun why =>
    .validation ("invalid attribution " ++ record.id ++ ": " ++ why)

end Validation

/-- An assessment made at a revision, of all that was then completed. -/
def supports (record : AttributionRecord) (assessment : AttributionAssessment) : Bool :=
  let probes := record.probes.filter fun probe =>
    record.probedComponent probe == some assessment.component
  assessment.evidenceRevision == record.revision && probes.all (·.completed.isSome) &&
    probes.map (·.id) == assessment.probes &&
    (record.components.find? (·.id == assessment.component)).any fun component =>
      classifyEvidence record component == assessment.cause

def probePreserved (old new : DiagnosticProbe) : Bool :=
  old.id == new.id && old.plan == new.plan && old.side == new.side &&
    old.startedAt == new.startedAt && (old.completed.isNone || old.completed == new.completed)

def preservedBy (record next : AttributionRecord) : Bool :=
  if record.retired.isSome then record == { next with revision := record.revision }
  else
    record.id == next.id && record.version == next.version &&
    record.submission == next.submission && record.attempt == next.attempt &&
    record.inputs == next.inputs && record.createdAt == next.createdAt &&
    record.components == next.components &&
    record.preparation.all (fun old => next.preparation.any fun new => old.preservedBy new) &&
    record.settlement.all (fun old => next.settlement == some old) &&
    record.plans.isPrefixOf next.plans && record.assessments.isPrefixOf next.assessments &&
    (next.assessments.drop record.assessments.length).all record.supports &&
    next.diagnosisMs ≥ record.diagnosisMs && next.probes.length ≥ record.probes.length &&
    (record.probes.zip next.probes).all fun pair => probePreserved pair.1 pair.2

end AttributionRecord

end Storyhook.Service
