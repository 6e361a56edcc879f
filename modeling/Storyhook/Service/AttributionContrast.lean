import Mathlib.Data.Option.Basic
import Storyhook.Service.AttributionEvidence

/-! What a comparison has to have shown where it names who caused a failure. -/

namespace Storyhook.Service

open Storyhook.Store
open Library Library.Outcome AttributionRecord

def AttributionRecord.classify (record : AttributionRecord) (component : FailureComponent) :
    FailureCause :=
  if !record.held || record.retired.isSome then .unknown else classifyEvidence record component

def ContrastPlan.tree (plan : ContrastPlan) : ProbeSide → String
  | .candidate => plan.candidateTree
  | .control => plan.controlTree

/-- What a probe is to end in: a candidate in the failure, a control as given. -/
def expectedOutcome (component : FailureComponent) (control : ProbeOutcome) :
    ProbeSide → ProbeOutcome
  | .candidate => .failed component.signature
  | .control => control

def SameEnvironment (one other : ProbeEnvironment) : Prop :=
  one.toolchain = other.toolchain ∧ one.fixtures = other.fixtures ∧
    one.resourcePolicy = other.resourcePolicy

/-- Every probe, in order, is of a complete block, ran once on its planned tree in the one
environment, and ended as it was to. -/
structure ContrastShown (component : FailureComponent) (plan : ContrastPlan)
    (probes : List DiagnosticProbe) (control : ProbeOutcome) : Prop where
  filled : probes ≠ []
  blocks : probes.length % 4 = 0
  order : ∀ (index : Nat) (probe : DiagnosticProbe), probes[index]? = some probe →
    contrastOrder[index % 4]? = some probe.side
  ran : ∃ environment, ∀ probe ∈ probes, ∃ result observed, probe.completed = some result ∧
    result.executions = 1 ∧ result.tree = plan.tree probe.side ∧
    result.outcome = expectedOutcome component control probe.side ∧
    result.environment = some observed ∧ SameEnvironment observed environment

/-- The component has one plan, for the tree that failed, and its probes have shown the
contrast. -/
def Shown (record : AttributionRecord) (component : FailureComponent) (control : ProbeOutcome) :
    Prop :=
  ∃ plan index, record.plansFor component.id = [(plan, index)] ∧
    some plan.candidateTree = record.inputs.tree ∧
    ContrastShown component plan (record.probes.filter fun probe => probe.plan == index) control

section Contrast

variable (component : FailureComponent) (plan : ContrastPlan)

/-- What one more probe of a comparison is and does. -/
structure Compares (seen next : Contrast) (probe : DiagnosticProbe) (index : Nat)
    (result : ProbeResult) (observed : ProbeEnvironment) : Prop where
  order : contrastOrder[index % 4]? = some probe.side
  completed : probe.completed = some result
  once : result.executions = 1
  tree : result.tree = plan.tree probe.side
  environment : result.environment = some observed
  same : ∀ expected, seen.environment = some expected → SameEnvironment observed expected
  kept : next.environment = some (seen.environment.getD observed)
  candidate : probe.side = .candidate → result.outcome = .failed component.signature ∧
    next.controlsPass = seen.controlsPass ∧ next.controlsFail = seen.controlsFail
  control : probe.side = .control →
    next.controlsPass = (seen.controlsPass && decide (result.outcome = .passed)) ∧
    next.controlsFail = (seen.controlsFail && decide (result.outcome = .failed component.signature))

theorem guard_bind_some {α : Type} (holds : Prop) [Decidable holds] (rest : Unit → Option α)
    (value : α) :
    ((guard holds : Option Unit) >>= rest) = some value ↔ holds ∧ rest () = some value := by
  by_cases here : holds <;> simp [guard, here]

theorem contrastStep_some (seen next : Contrast) (probe : DiagnosticProbe) (index : Nat)
    (stepped : contrastStep component plan seen probe index = some next) :
    ∃ result observed, Compares component plan seen next probe index result observed := by
  unfold contrastStep at stepped
  obtain ⟨order, stepped⟩ := (guard_bind_some _ _ _).mp stepped
  obtain ⟨result, completed, stepped⟩ := Option.bind_eq_some_iff.mp stepped
  obtain ⟨⟨tree, -, once, -⟩, stepped⟩ := (guard_bind_some _ _ _).mp stepped
  obtain ⟨observed, environment, stepped⟩ := Option.bind_eq_some_iff.mp stepped
  obtain ⟨-, stepped⟩ := (guard_bind_some _ _ _).mp stepped
  have planned : result.tree = plan.tree probe.side := by
    rw [tree]
    cases probe.side <;> rfl
  have ended : (∀ expected, seen.environment = some expected → SameEnvironment observed expected) ∧
      (if probe.side = .candidate then do
        guard (decide (result.outcome = .failed component.signature) = true)
        pure { seen with environment := some (seen.environment.getD observed) }
      else pure {
        environment := some (seen.environment.getD observed)
        controlsPass := seen.controlsPass && decide (result.outcome = .passed)
        controlsFail := seen.controlsFail &&
          decide (result.outcome = .failed component.signature) }) = some next := by
    cases known : seen.environment with
    | none =>
        rw [known] at stepped
        exact ⟨nofun, stepped⟩
    | some expected =>
        rw [known] at stepped
        obtain ⟨same, stepped⟩ := (guard_bind_some _ _ _).mp stepped
        refine ⟨?_, stepped⟩
        rintro _ ⟨⟩
        exact same
  obtain ⟨same, stepped⟩ := ended
  refine ⟨result, observed, ?_⟩
  split at stepped
  · next candidate =>
      obtain ⟨failed, written⟩ := (guard_bind_some _ _ _).mp stepped
      cases written
      exact ⟨order, completed, once, planned, environment, same, rfl,
        fun _ => ⟨of_decide_eq_true failed, rfl, rfl⟩, fun control => by
          rw [candidate] at control
          cases control⟩
  · next other =>
      cases stepped
      exact ⟨order, completed, once, planned, environment, same, rfl,
        fun candidate => absurd candidate other, fun _ => ⟨rfl, rfl⟩⟩

/-- What the probes of a comparison have been, as far as it went. -/
structure Compared (probes : List DiagnosticProbe) (seen : Contrast) : Prop where
  order : ∀ (index : Nat) (probe : DiagnosticProbe), probes[index]? = some probe →
    contrastOrder[index % 4]? = some probe.side
  ran : ∀ probe ∈ probes, ∃ result observed expected, probe.completed = some result ∧
    result.executions = 1 ∧ result.tree = plan.tree probe.side ∧
    result.environment = some observed ∧ seen.environment = some expected ∧
    SameEnvironment observed expected ∧
    (probe.side = .candidate → result.outcome = .failed component.signature) ∧
    (probe.side = .control → (seen.controlsPass = true → result.outcome = .passed) ∧
      (seen.controlsFail = true → result.outcome = .failed component.signature))

theorem compared_start : Compared component plan [] ⟨none, true, true⟩ := ⟨nofun, nofun⟩

theorem Compared.snoc (probes : List DiagnosticProbe) (probe : DiagnosticProbe)
    (seen next : Contrast) (compared : Compared component plan probes seen)
    (stepped : contrastStep component plan seen probe probes.length = some next) :
    Compared component plan (probes ++ [probe]) next := by
  obtain ⟨result, observed, step⟩ := contrastStep_some component plan seen next probe _ stepped
  have passes : next.controlsPass = true → seen.controlsPass = true := by
    cases side : probe.side with
    | candidate => exact fun passed => (step.candidate side).2.1 ▸ passed
    | control =>
        rw [(step.control side).1]
        exact fun passed => ((Bool.and_eq_true _ _).mp passed).1
  have fails : next.controlsFail = true → seen.controlsFail = true := by
    cases side : probe.side with
    | candidate => exact fun failed => (step.candidate side).2.2 ▸ failed
    | control =>
        rw [(step.control side).2]
        exact fun failed => ((Bool.and_eq_true _ _).mp failed).1
  refine ⟨fun index other there => ?_, fun other member => ?_⟩
  · rcases Nat.lt_or_ge index probes.length with before | beyond
    · rw [List.getElem?_append_left before] at there
      exact compared.order index other there
    · rw [List.getElem?_append_right beyond, List.getElem?_singleton] at there
      split at there
      · next here =>
          cases there
          rw [Nat.le_antisymm (Nat.sub_eq_zero_iff_le.mp here) beyond]
          exact step.order
      · cases there
  · rcases List.mem_append.mp member with before | here
    · obtain ⟨earlier, environment, expected, completed, once, tree, shown, known, same, candidate,
        control⟩ := compared.ran other before
      refine ⟨earlier, environment, expected, completed, once, tree, shown, ?_, same, candidate,
        fun side => ⟨fun passed => (control side).1 (passes passed),
          fun failed => (control side).2 (fails failed)⟩⟩
      rw [step.kept, known]
      rfl
    · rw [List.mem_singleton.mp here]
      refine ⟨result, observed, seen.environment.getD observed, step.completed,
        step.once, step.tree,
        step.environment, step.kept, ?_, fun side => (step.candidate side).1, fun side => ?_⟩
      · cases known : seen.environment with
        | none => exact ⟨rfl, rfl, rfl⟩
        | some expected => exact step.same expected known
      · rw [(step.control side).1, (step.control side).2]
        exact ⟨fun passed => of_decide_eq_true ((Bool.and_eq_true _ _).mp passed).2,
          fun failed => of_decide_eq_true ((Bool.and_eq_true _ _).mp failed).2⟩

theorem compared_of_steps (probes : List DiagnosticProbe) (seen : Contrast)
    (ran : probes.zipIdx.foldlM (fun seen entry => contrastStep component plan seen entry.1 entry.2)
      ⟨none, true, true⟩ = some seen) : Compared component plan probes seen := by
  induction probes using List.reverseRecOn generalizing seen with
  | nil =>
      cases ran
      exact compared_start component plan
  | append_singleton probes probe further =>
      rw [List.zipIdx_append, List.foldlM_append] at ran
      obtain ⟨before, steps, last⟩ := Option.bind_eq_some_iff.mp ran
      rw [List.zipIdx_singleton, List.foldlM_cons] at last
      obtain ⟨next, step, same⟩ := Option.bind_eq_some_iff.mp last
      cases same
      rw [Nat.zero_add] at step
      exact (further before steps).snoc component plan probes probe before seen step

theorem Compared.shown (probes : List DiagnosticProbe) (seen : Contrast)
    (compared : Compared component plan probes seen) (enough : 4 ≤ probes.length)
    (blocks : probes.length % 4 = 0) (control : ProbeOutcome)
    (alike : ∀ result : ProbeResult, (seen.controlsPass = true → result.outcome = .passed) →
      (seen.controlsFail = true → result.outcome = .failed component.signature) →
      result.outcome = control) : ContrastShown component plan probes control := by
  have filled : probes ≠ [] := by
    rintro rfl
    cases enough
  refine ⟨filled, blocks, compared.order, ?_⟩
  obtain ⟨first, rest, rfl⟩ := List.exists_cons_of_ne_nil filled
  obtain ⟨-, -, environment, -, -, -, -, known, -⟩ := compared.ran first List.mem_cons_self
  refine ⟨environment, fun probe member => ?_⟩
  obtain ⟨result, observed, expected, completed, once, tree, shown, held, same, candidate,
    controls⟩ := compared.ran probe member
  cases known.symm.trans held
  refine ⟨result, observed, completed, once, tree, ?_, shown, same⟩
  cases side : probe.side with
  | candidate => exact candidate side
  | control => exact alike result (controls side).1 (controls side).2

end Contrast

def controlOutcome (component : FailureComponent) : FailureCause → Option ProbeOutcome
  | .candidateCaused => some .passed
  | .sharedProject => some (.failed component.signature)
  | .hostExternal | .integration | .unknown => none

theorem contrast_shown (component : FailureComponent) (plan : ContrastPlan)
    (probes : List DiagnosticProbe) (enough : 4 ≤ probes.length) (blocks : probes.length % 4 = 0)
    (control : ProbeOutcome)
    (named : controlOutcome component (contrast component plan probes) = some control) :
    ContrastShown component plan probes control := by
  unfold contrast at named
  split at named
  · cases named
  · next seen ran =>
      have compared := compared_of_steps component plan probes seen ran
      refine compared.shown component plan probes seen enough blocks control
        fun result passed failed => ?_
      split at named
      · next passes =>
          cases named
          exact passed passes
      · split at named
        · next fails =>
            cases named
            exact failed fails
        · cases named

theorem classifyEvidence_shown (record : AttributionRecord) (component : FailureComponent)
    (control : ProbeOutcome)
    (named : controlOutcome component (classifyEvidence record component) = some control) :
    Shown record component control := by
  unfold classifyEvidence at named
  split at named
  · cases named
  · split at named
    · cases named
    · cases named
    · cases named
    · cases named
    · split at named
      · cases named
      · split at named
        · cases named
        · split at named
          · next plan index alone =>
              split at named
              · cases named
              · next usable =>
                  dsimp only at named
                  split at named
                  · cases named
                  · next complete =>
                      rw [not_or, Nat.not_lt, not_not] at complete
                      refine ⟨plan, index, alone, ?_, contrast_shown component plan _ complete.1
                        complete.2 control named⟩
                      simp only [planUsable, Bool.not_eq_true, Bool.not_eq_false', Bool.and_eq_true,
                        beq_iff_eq] at usable
                      exact usable.1.1.1.1.1.1.1
          · cases named

end Storyhook.Service
