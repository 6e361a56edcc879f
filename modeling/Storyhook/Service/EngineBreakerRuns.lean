import Storyhook.Service.EngineBreaker
import Storyhook.Service.EngineLaneRuns

/-! The counts over whole runs of passes, operators and other writers. -/

namespace Storyhook.Service

open Storyhook.Domain Storyhook.Store
open Library Library.Outcome

theorem sinceCompletion_mem (runId : String) (log : List LoggedCommit)
    (entry : Nat × EngineQuarantineRecord) (member : entry ∈ sinceCompletion runId log) :
    ∃ write ∈ log, write.pass = entry.1 := by
  induction log using List.reverseRecOn with
  | nil => cases member
  | append_singleton log write earlier =>
      have before (there : entry ∈ sinceCompletion runId log) :
          ∃ write' ∈ log ++ [write], write'.pass = entry.1 := by
        obtain ⟨found, listed, same⟩ := earlier there
        exact ⟨found, List.mem_append_left [write] listed, same⟩
      rw [sinceCompletion_concat] at member
      split at member
      · rw [countCommit] at member
        split at member
        · exact before (List.mem_filter.mp member).1
        · rcases List.mem_append.mp member with old | new
          · exact before old
          · rw [List.mem_singleton.mp new]
            exact ⟨write, List.mem_append_right log (List.mem_singleton_self write), rfl⟩
      · exact before member

section Step

variable (machine : PassMachine) (kept : BreakerKept machine)

include kept

section Pass

variable (id : Nat) (pass : Pass) (here : machine.passes id = some pass)

include here

section Last

variable (last : pass.phase.Owes → (machine.owing pass.runId).getLast? = some id)

include last

theorem BreakerKept.completed (completions : Nat) (hardStops : List EngineQuarantineRecord)
    (next : PassPhase) (own : pass.phase.uncounted = some hardStops)
    (owed : next.owed = (completions + 1, hardStops)) (uncounted : next.uncounted = some hardStops)
    (unclaiming : next.mayClaim = false) :
    BreakerKept { machine with
      passes := Function.update machine.passes id (some { pass with phase := next })
      log := machine.log ++ [⟨id, pass.runId, .completed⟩] } := by
  have series : countCommit (sinceCompletion pass.runId machine.log)
      ⟨id, pass.runId, .completed⟩ = hardStops.map (id, ·) :=
    kept.own id pass hardStops here own last
  refine kept.committed machine id pass here last next .completed ?_ unclaiming ?_ ?_ ?_
  · rw [PassPhase.Owes, owed]
    exact fun none => Nat.succ_ne_zero completions (congrArg Prod.fst none)
  · intro run _
    rw [series, owed]
    exact stopsExact_completed run completions hardStops id
  · intro stops same
    cases uncounted.symm.trans same
    rw [series, List.filter_eq_self]
    intro entry member
    obtain ⟨record, -, rfl⟩ := List.mem_map.mp member
    exact beq_self_eq_true id
  · intro other away _
    rw [series, List.filter_eq_nil_iff]
    intro entry member own
    obtain ⟨record, -, rfl⟩ := List.mem_map.mp member
    exact away (eq_of_beq own).symm

theorem BreakerKept.quarantined (record : EngineQuarantineRecord) (next : PassPhase)
    (owed : next.owed = (pass.phase.owed.1, pass.phase.owed.2 ++ [record]))
    (uncounted : next.uncounted = pass.phase.uncounted.map (· ++ [record]))
    (unclaiming : next.mayClaim = false) :
    BreakerKept { machine with
      passes := Function.update machine.passes id (some { pass with phase := next })
      log := machine.log ++ [⟨id, pass.runId, .quarantined record⟩] } := by
  have series : countCommit (sinceCompletion pass.runId machine.log)
      ⟨id, pass.runId, .quarantined record⟩ =
        sinceCompletion pass.runId machine.log ++ [(id, record)] := rfl
  refine kept.committed machine id pass here last next (.quarantined record) ?_ unclaiming ?_ ?_ ?_
  · rw [PassPhase.Owes, owed]
    exact fun none => List.append_ne_nil_of_right_ne_nil _ (List.cons_ne_nil record [])
      (congrArg Prod.snd none)
  · intro run due
    rw [series, owed]
    exact due.quarantined run _ _ _ id record
  · intro stops same
    rw [uncounted, Option.map_eq_some_iff] at same
    obtain ⟨before, own, rfl⟩ := same
    rw [series, List.filter_append, kept.own id pass before here own last, List.map_append]
    congr 1
    exact List.filter_eq_self.mpr fun entry member => by
      rw [List.mem_singleton.mp member]
      exact beq_self_eq_true id
  · intro other away none
    rw [series, List.filter_append, none, List.nil_append]
    refine List.filter_eq_nil_iff.mpr fun entry member own => ?_
    rw [List.mem_singleton.mp member] at own
    exact away (eq_of_beq own).symm

end Last

/-- What the others still owe, after a pass that was first to commit has counted. -/
theorem BreakerKept.paid (run : EngineRunRecord)
    (found : engineRun machine.tables pass.runId = some run)
    (first : pass.phase.Owes → (machine.owing pass.runId).head? = some id) :
    StopsExact (machine.settle pass.runId (counted run pass.phase.owed.1 pass.phase.owed.2)
      ((machine.owing pass.runId).filter (· != id))) (sinceCompletion pass.runId machine.log) := by
  have exact := kept.exact pass.runId run found
  by_cases owes : pass.phase.Owes
  · rw [owing_first machine pass.runId id (first owes), PassMachine.settle, List.foldl_cons,
      owedBy_own machine id pass here] at exact
    exact exact
  · rw [owing_quiet machine id pass here owes, not_not.mp owes]
    exact exact.settle_idle machine pass.runId run _ _

omit kept in
theorem last_left (first : pass.phase.Owes → (machine.owing pass.runId).head? = some id)
    (other : Nat) (ends : ((machine.owing pass.runId).filter (· != id)).getLast? = some other) :
    (machine.owing pass.runId).getLast? = some other := by
  by_cases owes : pass.phase.Owes
  · rw [owing_first machine pass.runId id (first owes), List.getLast?_cons, ends,
      Option.getD_some]
  · rw [owing_quiet machine id pass here owes] at ends
    exact ends

theorem BreakerKept.scored (after : EngineTables) (run next : EngineRunRecord) (refused : Bool)
    (first : pass.phase.Owes → (machine.owing pass.runId).head? = some id)
    (found : engineRun machine.tables pass.runId = some run)
    (stored : engineRun after pass.runId = some next)
    (number : next.consecutiveHardStops =
      (counted run pass.phase.owed.1 pass.phase.owed.2).consecutiveHardStops)
    (recent : next.recentQuarantines =
      (counted run pass.phase.owed.1 pass.phase.owed.2).recentQuarantines)
    (halts : next.state = .running → next.consecutiveHardStops < hardStopBreaker)
    (others : ∀ runId, runId ≠ pass.runId → engineRun after runId = engineRun machine.tables runId) :
    BreakerKept { machine with
      tables := after
      passes := Function.update machine.passes id
        (some { pass with phase := .viewing refused }) } := by
  have present (runId : String) (before : (engineRun machine.tables runId).isSome = true) :
      (engineRun after runId).isSome = true := by
    by_cases own : runId = pass.runId
    · rw [own, stored]
      rfl
    · rw [others runId own]
      exact before
  have owed (runId : String) (other : Nat) := update_owedBy machine { machine with
    tables := after
    passes := Function.update machine.passes id (some { pass with phase := .viewing refused }) }
    id pass here (some (.viewing refused)) rfl runId other
  have order (runId : String) := owing_counted machine { machine with
    tables := after
    passes := Function.update machine.passes id (some { pass with phase := .viewing refused }) }
    id pass here (.viewing refused) rfl rfl rfl runId
  refine ⟨?_, ?_, ?_, ?_, ?_⟩
  · intro other one there
    rcases update_one machine id other pass one _ there with ⟨rfl, rfl⟩ | ⟨-, before⟩
    · exact ⟨(kept.known other pass here).1, present _ (kept.known other pass here).2⟩
    · exact ⟨(kept.known other one before).1, present _ (kept.known other one before).2⟩
  · intro write member
    exact ⟨(kept.logged write member).1, present _ (kept.logged write member).2⟩
  · intro runId now there
    rw [order]
    split
    · next mine =>
        subst mine
        cases stored.symm.trans there
        rw [settle_other machine pass.runId _ next _ fun other member => ?_]
        · obtain ⟨number, recent⟩ := settle_congr machine pass.runId _ next
            ((machine.owing pass.runId).filter (· != id)) number recent
          exact (kept.paid machine id pass here run found first).congr _ _ _ number recent
        · rw [owed, if_neg fun both => bne_iff_ne.mp (List.mem_filter.mp member).2 both.1]
    · next elsewhere =>
        rw [settle_other machine runId _ now _ fun other _ => ?_]
        · rw [others runId fun same => elsewhere same.symm] at there
          exact kept.exact runId now there
        · rw [owed, if_neg fun both => elsewhere both.2]
  · intro other one stops there uncounted final
    rcases update_one machine id other pass one _ there with ⟨rfl, rfl⟩ | ⟨away, before⟩
    · cases uncounted
    · refine kept.own other one stops before uncounted fun due => ?_
      have ends := final due
      rw [order] at ends
      split at ends
      · next mine =>
          rw [← mine] at ends ⊢
          exact last_left machine id pass here first other ends
      · exact ends
  · intro other one now there claims stands running
    have due (own : one.runId = pass.runId) : now.consecutiveHardStops < hardStopBreaker := by
      rw [own] at stands
      cases stored.symm.trans stands
      exact halts running
    rcases update_one machine id other pass one _ there with ⟨rfl, rfl⟩ | ⟨-, before⟩
    · exact due rfl
    · by_cases own : one.runId = pass.runId
      · exact due own
      · rw [others one.runId own] at stands
        exact kept.below other one now before claims stands running

theorem BreakerKept.moved (answer : PassAnswer) (move : PassMove)
    (ran : pass.advance answer machine.tables = .ok move)
    (whole : move.phase = none → ¬pass.phase.Owes)
    (last : pass.phase.commits = true → pass.phase.Owes →
      (machine.owing pass.runId).getLast? = some id)
    (first : pass.phase.scores = true → pass.phase.Owes →
      (machine.owing pass.runId).head? = some id) :
    BreakerKept (machine.moved id pass move) := by
  obtain ⟨tables, phase, commit⟩ := move
  have retabled (counts : CountsKept none machine.tables tables) :
      BreakerKept { machine with tables := tables } :=
    kept.retabled machine none tables counts fun _ _ _ none =>
      (Option.some_ne_none _ none.symm).elim
  rcases pass.advance_moves answer machine.tables _ ran with
    ⟨counts, silent, goesOn⟩ |
    ⟨completions, hardStops, next, counts, commits, own, there, owed, uncounted,
      unclaiming, written⟩ |
    ⟨record, next, counts, commits, there, owed, uncounted, unclaiming, written⟩ |
    ⟨run, next, refused, found, stored, number, recent, halts, others, scores, there, silent⟩
  · cases silent
    have still := (retabled counts).rephased _ id pass here phase goesOn whole
    rw [PassMachine.moved, Option.map_none, Option.toList_none, List.append_nil]
    exact still
  · cases there
    cases written
    exact (retabled counts).completed _ id pass here (last commits) completions hardStops next own
      owed uncounted unclaiming
  · cases there
    cases written
    exact (retabled counts).quarantined _ id pass here (last commits) record next owed uncounted
      unclaiming
  · cases there
    cases silent
    have still := kept.scored machine id pass here tables run next refused (first scores) found
      stored number recent halts others
    rw [PassMachine.moved, Option.map_none, Option.toList_none, List.append_nil]
    exact still

end Pass

theorem BreakerKept.end (id : Nat)
    (whole : ∀ pass, machine.passes id = some pass → ¬pass.phase.Owes) :
    BreakerKept (machine.end id) := by
  cases here : machine.passes id with
  | none =>
      have same : machine.end id = machine := by
        rw [PassMachine.end, ← here, Function.update_eq_self]
      rw [same]
      exact kept
  | some pass =>
      exact kept.rephased machine id pass here none (fun _ none => nomatch none) fun _ =>
        whole pass here

theorem BreakerKept.began (runId : String) (kind : ReconcilePass)
    (found : (engineRun machine.tables runId).isSome = true) :
    BreakerKept { machine with
      passes := Function.update machine.passes machine.started (some ⟨runId, kind, .opened⟩)
      started := machine.started + 1 } := by
  have split (other : Nat) (one : Pass)
      (there : Function.update machine.passes machine.started (some ⟨runId, kind, .opened⟩) other =
        some one) : other = machine.started ∧ one = ⟨runId, kind, .opened⟩ ∨
          other < machine.started ∧ machine.passes other = some one := by
    by_cases same : other = machine.started
    · subst same
      rw [Function.update_self] at there
      exact Or.inl ⟨rfl, (Option.some.inj there).symm⟩
    · rw [Function.update_of_ne same] at there
      exact Or.inr ⟨(kept.known other one there).1, there⟩
  have fresh : machine.passes machine.started = none := by
    cases before : machine.passes machine.started with
    | none => rfl
    | some one => exact absurd (kept.known _ one before).1 (Nat.lt_irrefl _)
  have owed (runId' : String) (other : Nat) : PassMachine.owedBy { machine with
      passes := Function.update machine.passes machine.started (some ⟨runId, kind, .opened⟩)
      started := machine.started + 1 } runId' other = machine.owedBy runId' other := by
    rw [PassMachine.owedBy, PassMachine.owedBy]
    by_cases same : other = machine.started
    · subst same
      simp only [Function.update_self, fresh]
      exact ite_self _
    · simp only [Function.update_of_ne same]
  have order (runId' : String) := owing_congr machine runId' { machine with
    passes := Function.update machine.passes machine.started (some ⟨runId, kind, .opened⟩)
    started := machine.started + 1 } rfl (owed runId')
  refine ⟨?_, ?_, ?_, ?_, ?_⟩
  · intro other one there
    rcases split other one there with ⟨rfl, rfl⟩ | ⟨early, before⟩
    · exact ⟨Nat.lt_succ_self machine.started, found⟩
    · exact ⟨Nat.lt_succ_of_lt early, (kept.known other one before).2⟩
  · intro write member
    exact ⟨Nat.lt_succ_of_lt (kept.logged write member).1, (kept.logged write member).2⟩
  · intro other run there
    rw [order, settle_other machine other _ run _ fun id _ => owed other id]
    exact kept.exact other run there
  · intro other one stops there uncounted last
    rcases split other one there with ⟨rfl, rfl⟩ | ⟨-, before⟩
    · cases uncounted
      refine List.filter_eq_nil_iff.mpr fun entry member own => ?_
      obtain ⟨write, listed, same⟩ := sinceCompletion_mem _ machine.log entry member
      exact Nat.ne_of_lt (kept.logged write listed).1 (same.trans (eq_of_beq own))
    · rw [order] at last
      exact kept.own other one stops before uncounted last
  · intro other one run there claims now running
    rcases split other one there with ⟨rfl, rfl⟩ | ⟨-, before⟩
    · cases claims
    · exact kept.below other one run before claims now running

theorem BreakerKept.step (action : PassAction) (orderly : Orderly machine action) :
    BreakerKept (machine.step action) := by
  cases action with
  | command host command =>
      rw [PassMachine.step]
      cases ran : command.run host machine.tables with
      | error error => exact kept
      | ok after =>
          obtain ⟨resumed, counts, own⟩ :=
            command.countsKept host machine.tables after ran
          refine kept.retabled machine resumed after counts fun id pass here same => ?_
          rw [own pass.runId same] at orderly
          exact orderly.unresumed pass.runId rfl id (kept.known id pass here).1 pass here rfl
  | begin runId kind =>
      rw [PassMachine.step]
      split
      · next found => exact kept.began machine runId kind found
      · exact kept
  | advance id answer =>
      have whole (pass : Pass) (here : machine.passes id = some pass) :=
        orderly.whole id (kept.known id pass here).1 pass here
      rw [PassMachine.step] at whole ⊢
      cases here : machine.passes id with
      | none => exact kept
      | some pass =>
          simp only [here] at whole ⊢
          cases ran : pass.advance answer machine.tables with
          | error error =>
              simp only [ran] at whole
              refine kept.end machine id fun one there => ?_
              cases here.symm.trans there
              exact whole pass rfl (Function.update_self ..)
          | ok move =>
              simp only [ran] at whole
              refine kept.moved machine id pass here answer move ran (fun returned => ?_)
                (orderly.committing id rfl pass here) (orderly.counting id rfl pass here)
              refine whole pass rfl ?_
              rw [PassMachine.moved, returned]
              exact Function.update_self ..
  | quit id =>
      exact kept.end machine id fun pass here => orderly.whole id (kept.known id pass here).1 pass
        here (Function.update_self ..)

theorem BreakerKept.unclaimed (action : PassAction) (orderly : Orderly machine action)
    (runId : String) (claims : machine.Claims action runId) :
    (sinceCompletion runId machine.log).length < hardStopBreaker := by
  obtain ⟨id, answer, pass, filled, after, lane, rfl, here, rfl, phase, claimed⟩ := claims
  rcases claimLane_ok answer.host machine.tables after pass.runId (some lane) claimed with
    ⟨none, -⟩ | ⟨run, slot, taken, candidate, story, project, -, named, claims⟩
  · exact (Option.some_ne_none lane none).elim
  · have found := (runForProject_found machine.tables run.id run claims.found).2
    rw [named] at found
    rw [← (kept.exact pass.runId run found).number]
    refine Nat.lt_of_le_of_lt (settle_unstopped machine pass.runId run _ ?_) ?_
    · exact orderly.claiming id rfl pass here (phase ▸ rfl)
    · exact kept.below id pass run here (phase ▸ rfl) found claims.running

end Step

theorem runPasses_kept (start : PassMachine) (kept : BreakerKept start)
    (actions : List PassAction) (orderly : OrderlyRun start actions) :
    BreakerKept (runPasses start actions) := by
  induction actions generalizing start with
  | nil => exact kept
  | cons action rest further =>
      exact further (start.step action) (kept.step start action orderly.1) orderly.2

theorem orderlyRun_append (start : PassMachine) (before later : List PassAction) :
    OrderlyRun start (before ++ later) ↔
      OrderlyRun start before ∧ OrderlyRun (runPasses start before) later := by
  induction before generalizing start with
  | nil => exact (iff_of_eq (true_and _)).symm
  | cons action rest further =>
      rw [List.cons_append, OrderlyRun, OrderlyRun, further (start.step action), and_assoc]
      rfl

/-- The breaker counts exactly in every run that is orderly. -/
theorem hard_stops_counted (slug : String) (project : Database) (actions : List PassAction)
    (orderly : OrderlyRun (noPasses slug project) actions) :
    StopsCounted (noPasses slug project) actions := by
  have kept := noPasses_kept slug project
  refine ⟨?_, ?_⟩
  · rintro before later rfl runId run found settled
    have first := ((orderlyRun_append _ before later).mp orderly).1
    have exact := (runPasses_kept _ kept before first).exact runId run found
    rw [owing_settled _ runId settled] at exact
    exact exact
  · rintro before action later rfl runId claims
    obtain ⟨first, there, -⟩ := (orderlyRun_append _ before (action :: later)).mp orderly
    exact (runPasses_kept _ kept before first).unclaimed _ action there runId claims

instance (phase : PassPhase) : Decidable phase.Owes :=
  inferInstanceAs (Decidable (phase.owed ≠ (0, [])))

instance (machine : PassMachine) (action : PassAction) : Decidable (Orderly machine action) :=
  decidable_of_iff (_ ∧ _ ∧ _ ∧ _ ∧ _)
    ⟨fun ⟨whole, committing, counting, claiming, unresumed⟩ =>
      ⟨whole, committing, counting, claiming, unresumed⟩,
    fun orderly => ⟨orderly.whole, orderly.committing, orderly.counting, orderly.claiming,
      orderly.unresumed⟩⟩

instance decidableOrderlyRun (machine : PassMachine) (actions : List PassAction) :
    Decidable (OrderlyRun machine actions) :=
  match actions with
  | [] => isTrue trivial
  | action :: rest =>
      have := decidableOrderlyRun (machine.step action) rest
      inferInstanceAs (Decidable (Orderly machine action ∧ OrderlyRun (machine.step action) rest))

def claimedStories : Database :=
  (appended [filedStory, { filedStory with story := 2 },
    plainAppend [.storyStateChanged "2026-01-05T10:00:01Z" "in-progress"],
    { plainAppend [.storyStateChanged "2026-01-05T10:00:01Z" "in-progress"] with
      story := 2 }]).project

def runningDispatch (id pane : String) : InspectedDispatch where
  lease := ⟨1, "sh", id, "/work/sh", "/work/" ++ id, id, "/tmp/tmux"⟩
  paneId := pane
  windowName := id
  identity := ⟨.claude, 7, "@1"⟩

def vanishedLane (index : Nat) (id pane : String) (head : Nat) : ObservedLane where
  lane := { idleLane "run" index "2026-01-05T10:00:03Z" with
    state := .working
    storyId := some id
    paneId := some pane
    windowName := some id
    worktreePath := some ("/work/" ++ id)
    cleanupLease := some (runningDispatch id pane).lease
    adoptedIdentity := some (runningDispatch id pane).identity
    dispatchedAt := some "2026-01-05T10:00:03Z"
    lastProgressAt := some "2026-01-05T10:00:03Z"
    lastProgressSeq := some head }
  classification := .hardStop .windowGone
  headGlobalSeq := some head
  window := .gone "no such window"
  evidence := ⟨none, some "no such window", none⟩

/-- Two lanes of a run, both seen without a window; the stories given are reserved for a reset by
then. -/
def vanishing (reserved : List String) : PassAnswer where
  host := { plainHost "2026-01-05T10:00:05Z" with
    admitLane := fun _ lane => if lane.storyId.any reserved.contains then
      .error (.storage "reset owns engine lane") else .ok () }
  automated := true
  observed := [vanishedLane 0 "SH-1" "%1" 7, vanishedLane 1 "SH-2" "%2" 8]
  controller := true
  dispatch := .error "no dispatch"

def passOver (reserved : List String) (steps : Nat) : List PassAction :=
  .command (plainHost "2026-01-05T10:00:02Z") (.start "run" .project twoLanes) ::
    .command (plainHost "2026-01-05T10:00:03Z") (.adopt "run" ["SH-1", "SH-2"]
      (claimedStories.stories.toList.map (·.2))
      [runningDispatch "SH-1" "%1", runningDispatch "SH-2" "%2"]) ::
    .begin "run" .steady :: List.replicate steps (.advance 0 (vanishing reserved))

/-- Two passes over one run: the second sees its lane before the first has counted, and both count
in the order of their quarantines. -/
def overlapping : List PassAction :=
  passOver [] 0 ++ [
    .advance 0 (vanishing []), .advance 0 { vanishing [] with observed := [vanishedLane 0 "SH-1" "%1" 7] },
    .begin "run" .steady, .advance 1 (vanishing []),
    .advance 1 { vanishing [] with observed := [vanishedLane 1 "SH-2" "%2" 8] },
    .advance 0 (vanishing []), .advance 1 (vanishing []),
    .advance 0 (vanishing []), .advance 1 (vanishing [])]

theorem hard_stops_counted_overlapping :
    StopsCounted (noPasses "sh" claimedStories) overlapping ∧
      (engineRun (runPasses (noPasses "sh" claimedStories) overlapping).tables "run").map
        (·.consecutiveHardStops) = some 2 :=
  ⟨hard_stops_counted "sh" claimedStories overlapping (by decide +kernel), by decide +kernel⟩

theorem end_passes (machine : PassMachine) (other id : Nat) (pass : Pass)
    (here : (machine.end other).passes id = some pass) : machine.passes id = some pass := by
  by_cases same : id = other
  · rw [same] at here
    exact (Option.some_ne_none pass (here.symm.trans (Function.update_self ..))).elim
  · exact (Function.update_of_ne same ..).symm.trans here

theorem step_started (machine : PassMachine) (action : PassAction)
    (known : ∀ id pass, machine.passes id = some pass → id < machine.started) (id : Nat)
    (pass : Pass) (here : (machine.step action).passes id = some pass) :
    id < (machine.step action).started := by
  cases action with
  | command host command => exact known id pass here
  | begin runId kind =>
      rw [PassMachine.step] at here ⊢
      split at here
      · next found =>
          rw [if_pos found]
          by_cases same : id = machine.started
          · rw [same]
            exact Nat.lt_succ_self machine.started
          · exact Nat.lt_succ_of_lt (known id pass
              ((Function.update_of_ne same ..).symm.trans here))
      · next absent =>
          rw [if_neg absent]
          exact known id pass here
  | advance other answer =>
      rw [PassMachine.step] at here ⊢
      cases there : machine.passes other with
      | none =>
          simp only [there] at here ⊢
          exact known id pass here
      | some one =>
          simp only [there] at here ⊢
          cases ran : one.advance answer machine.tables with
          | error error =>
              simp only [ran] at here ⊢
              exact known id pass (end_passes machine other id pass here)
          | ok move =>
              simp only [ran] at here ⊢
              rcases update_passes machine other id one pass move.phase here with
                ⟨rfl, -⟩ | ⟨-, before⟩
              · exact known id one there
              · exact known id pass before
  | quit other => exact known id pass (end_passes machine other id pass here)

theorem runPasses_started (start : PassMachine) (actions : List PassAction)
    (known : ∀ id pass, start.passes id = some pass → id < start.started) (id : Nat) (pass : Pass)
    (here : (runPasses start actions).passes id = some pass) :
    id < (runPasses start actions).started := by
  induction actions generalizing start with
  | nil => exact known id pass here
  | cons action rest further =>
      exact further (start.step action) (step_started start action known) here

/-- A pass that fails at its second lane has quarantined the first, and nobody counts it. -/
theorem quarantine_uncounted :
    ¬ ∀ slug project actions, StopsCounted (noPasses slug project) actions := by
  intro counted
  have exact := (counted "sh" claimedStories (passOver ["SH-2"] 4)).exact (passOver ["SH-2"] 4) []
    (List.append_nil _).symm "run"
  have found : (engineRun (runPasses (noPasses "sh" claimedStories) (passOver ["SH-2"] 4)).tables
      "run").map (·.consecutiveHardStops) = some 0 := by decide +kernel
  have stops : (sinceCompletion "run" (runPasses (noPasses "sh" claimedStories)
      (passOver ["SH-2"] 4)).log).length = 1 := by decide +kernel
  have quiet : ∀ id < (runPasses (noPasses "sh" claimedStories) (passOver ["SH-2"] 4)).started,
      ∀ pass ∈ (runPasses (noPasses "sh" claimedStories) (passOver ["SH-2"] 4)).passes id,
        ¬pass.phase.Owes := by decide +kernel
  obtain ⟨run, here, none⟩ := Option.map_eq_some_iff.mp found
  have settled : (runPasses (noPasses "sh" claimedStories) (passOver ["SH-2"] 4)).Settled "run" :=
    fun id pass there _ => quiet id
      (runPasses_started _ _ (fun _ _ here => (Option.some_ne_none _ here.symm).elim) id pass there)
      pass there
  have number := (exact run here settled).number
  rw [stops, none] at number
  cases number

end Storyhook.Service
