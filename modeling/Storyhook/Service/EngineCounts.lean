import Storyhook.Service.EnginePasses

/-! What each transaction makes of the counts of hard stops. -/

namespace Storyhook.Service

open Storyhook.Domain Storyhook.Store
open Library Library.Outcome

/-- Every run keeps its counts, and only one that is resumed starts to run; a new run has none. -/
structure CountsKept (resumed : Option String) (tables after : EngineTables) : Prop where
  kept : ∀ runId run, engineRun tables runId = some run → ∃ next,
    engineRun after runId = some next ∧ next.consecutiveHardStops = run.consecutiveHardStops ∧
      next.recentQuarantines = run.recentQuarantines ∧
      (next.state = .running → run.state = .running ∨ resumed = some runId)
  fresh : ∀ runId next, engineRun after runId = some next → engineRun tables runId = none →
    next.consecutiveHardStops = 0 ∧ next.recentQuarantines = []

section Kept

variable (tables : EngineTables)

theorem countsKept_runs (after : EngineTables) (resumed : Option String)
    (same : after.runs = tables.runs) : CountsKept resumed tables after := by
  have found : engineRun after = engineRun tables := by
    funext runId
    rw [engineRun, engineRun, same]
  refine ⟨fun runId run here => ⟨run, ?_, rfl, rfl, Or.inl⟩, fun runId next here absent => ?_⟩
  · rw [found]
    exact here
  · rw [found, absent] at here
    cases here

theorem CountsKept.trans (middle after : EngineTables) (resumed : Option String)
    (first : CountsKept none tables middle) (second : CountsKept resumed middle after) :
    CountsKept resumed tables after := by
  refine ⟨fun runId run here => ?_, fun runId last here absent => ?_⟩
  · obtain ⟨next, there, number, recent, runs⟩ := first.kept runId run here
    obtain ⟨last, found, sameNumber, sameRecent, stillRuns⟩ := second.kept runId next there
    refine ⟨last, found, sameNumber.trans number, sameRecent.trans recent, fun running => ?_⟩
    rcases stillRuns running with before | begun
    · exact Or.inl ((runs before).resolve_right nofun)
    · exact Or.inr begun
  · cases there : engineRun middle runId with
    | none => exact second.fresh runId last here there
    | some next =>
        obtain ⟨found, same, number, recent, -⟩ := second.kept runId next there
        cases here.symm.trans same
        obtain ⟨zero, blank⟩ := first.fresh runId next there absent
        exact ⟨number.trans zero, recent.trans blank⟩

theorem countsKept_update (run next : EngineRunRecord) (resumed : Option String)
    (found : engineRun tables next.id = some run)
    (number : next.consecutiveHardStops = run.consecutiveHardStops)
    (recent : next.recentQuarantines = run.recentQuarantines)
    (runs : next.state = .running → run.state = .running ∨ resumed = some next.id) :
    CountsKept resumed tables (updateEngineRun tables next) := by
  obtain ⟨listed, named⟩ := engineRun_mem tables next.id run found
  have written := engineRun_update tables next run listed named
  refine ⟨fun runId other here => ?_, fun runId last here absent => ?_⟩
  · by_cases own : runId = next.id
    · subst own
      cases found.symm.trans here
      exact ⟨next, written, number, recent, runs⟩
    · refine ⟨other, ?_, rfl, rfl, Or.inl⟩
      rw [engineRun_update_other tables next runId own]
      exact here
  · by_cases own : runId = next.id
    · rw [own, found] at absent
      cases absent
    · rw [engineRun_update_other tables next runId own, absent] at here
      cases here

end Kept

section Lanes

variable (host : EngineHost) (tables after : EngineTables)

theorem putLane_runs (lane : EngineLaneRecord) (ran : putLane host tables lane = .ok after) :
    after.runs = tables.runs := by
  rw [putLane_ok host tables after lane ran]
  rfl

theorem putOrRetire_runs (lane : EngineLaneRecord)
    (ran : putOrRetireIdleLane host tables lane = .ok after) : after.runs = tables.runs := by
  simp only [putOrRetireIdleLane, bind_eq_ok] at ran
  obtain ⟨run, -, ran⟩ := ran
  split at ran
  · cases ran
    rfl
  · obtain ⟨-, -, written⟩ := (bind_eq_ok _ _ _).mp ran
    cases written
    rfl

theorem whileCurrent_runs (lane : EngineLaneRecord) (head : Option Nat)
    (write : Except AppError EngineTables) (applied : Bool)
    (kept : write = .ok after → after.runs = tables.runs)
    (ran : whileCurrent tables lane head write = .ok (after, applied)) :
    after.runs = tables.runs := by
  rcases whileCurrent_ok tables after lane head write applied ran with
    ⟨-, rfl⟩ | ⟨-, written, -⟩
  · rfl
  · exact kept written

theorem recordProgress_runs (lane : EngineLaneRecord) (head : Option Nat) (probe : WindowProbe)
    (pass : ReconcilePass) (applied : Bool)
    (ran : recordProgress host tables lane head probe pass = .ok (after, applied)) :
    after.runs = tables.runs := by
  refine whileCurrent_runs tables after lane head _ applied (fun written => ?_) ran
  simp only at written
  split at written
  · cases written
    rfl
  · exact putLane_runs host tables after _ written

theorem letGo_runs (lane : EngineLaneRecord) (head : Option Nat) (outcome : String)
    (applied : Bool) (ran : letGo host tables lane head outcome = .ok (after, applied)) :
    after.runs = tables.runs :=
  whileCurrent_runs tables after lane head _ applied
    (fun written => putOrRetire_runs host tables after _ written) ran

theorem quarantineLane_runs (lane : EngineLaneRecord) (kind : HardStopKind)
    (evidence : QuarantineEvidence) (head : Option Nat) (record : Option EngineQuarantineRecord)
    (ran : quarantineLane host tables lane kind evidence head = .ok (after, record)) :
    after.runs = tables.runs := by
  simp only [quarantineLane, bind_eq_ok, Prod.exists] at ran
  obtain ⟨written, applied, wrote, same⟩ := ran
  cases same
  refine whileCurrent_runs tables after lane head _ applied (fun write => ?_) wrote
  simp only [bind_eq_ok] at write
  obtain ⟨id, -, project, -, put⟩ := write
  exact putLane_runs host { tables with project := project } after _ put

theorem clearQuarantinedLane_runs (lane : EngineLaneRecord)
    (ran : clearQuarantinedLane host tables lane = .ok after) : after.runs = tables.runs := by
  simp only [clearQuarantinedLane] at ran
  split at ran
  · cases ran
    rfl
  · exact putOrRetire_runs host tables after _ ran

theorem recordDispatch_runs (working : EngineLaneRecord) (payload : DispatchPayload)
    (applied : Bool) (ran : recordDispatch host tables working payload = .ok (after, applied)) :
    after.runs = tables.runs := by
  rw [recordDispatch] at ran
  split at ran
  · cases ran
    rfl
  · obtain ⟨written, put, same⟩ := (bind_eq_ok _ _ _).mp ran
    cases same
    exact putLane_runs host tables after _ put

theorem quarantineRefusedDispatch_runs (working : EngineLaneRecord) (diagnosis : String)
    (held : Bool) (ran : quarantineRefusedDispatch host tables working diagnosis = .ok (after, held)) :
    after.runs = tables.runs := by
  rw [quarantineRefusedDispatch] at ran
  split at ran
  · cases ran
    rfl
  · simp only [bind_eq_ok] at ran
    obtain ⟨id, -, ran⟩ := ran
    split at ran
    · obtain ⟨freed, put, same⟩ := (bind_eq_ok _ _ _).mp ran
      cases same
      exact putOrRetire_runs host tables after _ put
    · split at ran
      · obtain ⟨freed, put, same⟩ := (bind_eq_ok _ _ _).mp ran
        cases same
        exact putOrRetire_runs host tables after _ put
      · simp only [bind_eq_ok, Prod.exists] at ran
        obtain ⟨project, snapshot, -, ran⟩ := ran
        split at ran
        · obtain ⟨freed, put, same⟩ := (bind_eq_ok _ _ _).mp ran
          cases same
          exact putOrRetire_runs host { tables with project := project } after _ put
        · obtain ⟨written, put, same⟩ := (bind_eq_ok _ _ _).mp ran
          cases same
          exact putLane_runs host { tables with project := project } after _ put

theorem claimLane_runs (runId : String) (taken : Option EngineLaneRecord)
    (ran : claimLane host tables runId = .ok (after, taken)) : after.runs = tables.runs := by
  rcases claimLane_ok host tables after runId taken ran with
    ⟨-, rfl⟩ | ⟨run, slot, lane, candidate, story, project, -, -, claims⟩
  · rfl
  · rw [claims.written]
    rfl

theorem deletes_runs (lanes : List EngineLaneRecord) :
    (lanes.foldl deleteEngineLane tables).runs = tables.runs := by
  induction lanes generalizing tables with
  | nil => rfl
  | cons lane rest further => exact further (deleteEngineLane tables lane)

end Lanes

section Rows

variable (host : EngineHost) (tables after : EngineTables) (runId : String)

theorem runForProject_found (run : EngineRunRecord)
    (found : runForProject tables runId = .ok run) :
    run.id = runId ∧ engineRun tables runId = some run :=
  ⟨(runForProject_mem tables runId run found).2, (runForProject_ok tables runId run found).1⟩

theorem transition_ok (mutate : EngineRunRecord → Except AppError EngineRunRecord)
    (ran : transition host tables runId mutate = .ok after) :
    ∃ run next, engineRun tables runId = some run ∧ run.id = runId ∧ mutate run = .ok next ∧
      (after = tables ∧ next = run ∨
        after = updateEngineRun tables { next with updatedAt := host.now }) := by
  simp only [transition, bind_eq_ok, pure_eq_ok] at ran
  obtain ⟨run, found, next, mutated, ran⟩ := ran
  obtain ⟨named, there⟩ := runForProject_found tables runId run found
  refine ⟨run, next, there, named, mutated, ?_⟩
  split at ran
  · next same => exact Or.inl ⟨ran.symm, same⟩
  · exact Or.inr ran.symm

theorem transition_rows (mutate : EngineRunRecord → Except AppError EngineRunRecord)
    (same : ∀ run next, mutate run = .ok next → next.id = run.id)
    (ran : transition host tables runId mutate = .ok after) : ∃ run next updatedAt,
      engineRun tables runId = some run ∧ mutate run = .ok next ∧
        engineRun after runId = some { next with updatedAt := updatedAt } ∧
        ∀ other, other ≠ runId → engineRun after other = engineRun tables other := by
  obtain ⟨run, next, found, named, mutated, ⟨rfl, rfl⟩ | rfl⟩ :=
    transition_ok host tables after runId mutate ran
  · exact ⟨next, next, next.updatedAt, found, mutated, found, fun _ _ => rfl⟩
  · obtain ⟨listed, -⟩ := engineRun_mem tables runId run found
    obtain rfl : next.id = runId := (same run next mutated).trans named
    exact ⟨run, next, host.now, found, mutated,
      engineRun_update tables { next with updatedAt := host.now } run listed named,
      fun other apart => engineRun_update_other tables _ other apart⟩

theorem transition_countsKept (resumed : Option String)
    (mutate : EngineRunRecord → Except AppError EngineRunRecord)
    (keeps : ∀ run next, mutate run = .ok next → next.id = run.id ∧
      next.consecutiveHardStops = run.consecutiveHardStops ∧
      next.recentQuarantines = run.recentQuarantines ∧
      (next.state = .running → run.state = .running ∨ resumed = some runId))
    (ran : transition host tables runId mutate = .ok after) : CountsKept resumed tables after := by
  obtain ⟨run, next, found, named, mutated, ⟨rfl, -⟩ | rfl⟩ :=
    transition_ok host tables after runId mutate ran
  · exact countsKept_runs after after resumed rfl
  · obtain ⟨id, number, recent, runs⟩ := keeps run next mutated
    rw [← named, ← id] at found runs
    exact countsKept_update tables run { next with updatedAt := host.now } resumed found number
      recent runs

theorem pause_countsKept (ran : pause host tables runId = .ok after) :
    CountsKept none tables after := by
  refine transition_countsKept host tables after runId none _ (fun run next mutated => ?_) ran
  obtain ⟨-, -, same⟩ := (bind_eq_ok _ _ _).mp mutated
  cases same
  exact ⟨rfl, rfl, rfl, nofun⟩

theorem resume_countsKept (ran : resume host tables runId = .ok after) :
    CountsKept (some runId) tables after := by
  refine transition_countsKept host tables after runId (some runId) _
    (fun run next mutated => ?_) ran
  simp only [bind_eq_ok] at mutated
  obtain ⟨-, -, -, -, same⟩ := mutated
  cases same
  exact ⟨rfl, rfl, rfl, fun _ => Or.inr rfl⟩

theorem stopRun_countsKept (ran : stopRun host tables runId = .ok after) :
    CountsKept none tables after := by
  refine transition_countsKept host tables after runId none _ (fun run next mutated => ?_) ran
  obtain ⟨-, -, same⟩ := (bind_eq_ok _ _ _).mp mutated
  cases same
  refine ⟨rfl, rfl, rfl, fun running => ?_⟩
  simp only at running
  split at running <;> cases running

theorem haltInvalidScope_countsKept (run : EngineRunRecord)
    (found : engineRun tables run.id = some run) :
    CountsKept none tables (haltInvalidScope host tables run).1 := by
  rw [haltInvalidScope]
  split
  · exact countsKept_update tables run _ none found rfl rfl
      fun running => by cases running
  · exact countsKept_runs tables tables none rfl

theorem finishIfDrained_countsKept (ran : finishIfDrained host tables runId = .ok after) :
    CountsKept none tables after := by
  simp only [finishIfDrained, bind_eq_ok] at ran
  obtain ⟨run, found, ran⟩ := ran
  obtain ⟨named, there⟩ := runForProject_found tables runId run found
  rw [← named] at there
  split at ran
  · cases ran
    exact haltInvalidScope_countsKept host tables run there
  · simp only [bind_eq_ok] at ran
    obtain ⟨waiting, -, ran⟩ := ran
    split at ran
    · cases ran
      exact countsKept_update tables run _ none there rfl rfl
        fun running => by cases running
    · cases ran
      exact countsKept_runs tables tables none rfl

theorem configure_countsKept (settings : RunSettings)
    (ran : configure host tables runId settings = .ok after) : CountsKept none tables after := by
  simp only [configure, bind_eq_ok, pure_eq_ok] at ran
  obtain ⟨run, found, -, -, -, -, filled, added, rfl⟩ := ran
  obtain ⟨named, there⟩ := runForProject_found tables runId run found
  have same : filled.runs = tables.runs := by
    rw [putLanes_ok host _ filled _ added, puts_runs, deletes_runs]
  refine CountsKept.trans tables filled _ none (countsKept_runs tables filled none same) ?_
  refine countsKept_update filled run _ none ?_ rfl rfl Or.inl
  rw [engineRun, same, ← engineRun]
  exact named ▸ there

theorem startRun_countsKept (scope : EngineScope) (settings : RunSettings)
    (ran : startRun host tables runId scope settings = .ok after) :
    CountsKept none tables after := by
  simp only [startRun, createEngineRun, bind_eq_ok, pure_eq_ok, refuse_ok] at ran
  obtain ⟨-, -, -, -, -, -, -, -, created, ⟨-, fresh, -, -, rfl⟩, added⟩ := ran
  have runs : after.runs = tables.runs ++ [newRun host tables.slug runId scope settings] := by
    rw [putLanes_ok host _ after _ added, puts_runs]
  have found (other : String) : engineRun after other = (engineRun tables other).or
      (if runId = other then some (newRun host tables.slug runId scope settings) else none) := by
    rw [engineRun, runs, List.find?_append, ← engineRun, List.find?_singleton]
    congr 1
    exact if_congr beq_iff_eq rfl rfl
  refine ⟨fun other run here => ⟨run, ?_, rfl, rfl, Or.inl⟩, fun other next here absent => ?_⟩
  · rw [found, here, Option.some_or]
  · rw [found, absent, Option.none_or] at here
    split at here
    · cases here
      exact ⟨rfl, rfl⟩
    · cases here

theorem adopt_countsKept (ids : List String) (before : List StoryRow)
    (inspected : List InspectedDispatch) (lanes : List EngineLaneRecord)
    (ran : adopt host tables runId ids before inspected = .ok (after, lanes)) :
    CountsKept none tables after := by
  obtain ⟨run, rfl, adopts⟩ := adopt_ok host tables after runId ids before inspected lanes ran
  rw [adopts.written]
  split
  · exact countsKept_runs tables tables none rfl
  · have same := puts_runs tables lanes
    refine CountsKept.trans tables _ _ none (countsKept_runs tables _ none same) ?_
    refine countsKept_update _ run _ none ?_ rfl rfl Or.inl
    rw [engineRun, same, ← engineRun]
    exact (runForProject_ok tables run.id run adopts.found).1

theorem EngineCommand.countsKept (command : EngineCommand)
    (ran : command.run host tables = .ok after) :
    ∃ resumed, CountsKept resumed tables after ∧
      ∀ runId, resumed = some runId → command = .resume runId := by
  cases command with
  | start runId scope settings =>
      exact ⟨none, startRun_countsKept host tables after runId scope settings ran, nofun⟩
  | configure runId settings =>
      exact ⟨none, configure_countsKept host tables after runId settings ran, nofun⟩
  | pause runId => exact ⟨none, pause_countsKept host tables after runId ran, nofun⟩
  | resume runId =>
      refine ⟨some runId, resume_countsKept host tables after runId ran, ?_⟩
      rintro _ ⟨⟩
      rfl
  | stop runId => exact ⟨none, stopRun_countsKept host tables after runId ran, nofun⟩
  | adopt runId ids before found =>
      obtain ⟨⟨_, lanes⟩, adopted, rfl⟩ := (map_eq_ok _ _ _).mp ran
      exact ⟨none, adopt_countsKept host tables _ runId ids before found lanes adopted, nofun⟩
  | elsewhere project =>
      cases ran
      exact ⟨none, countsKept_runs tables _ none rfl, nofun⟩

end Rows

/-! ### The steps of a pass -/

/-- The completions and hard stops that a pass has committed and not counted. -/
def PassPhase.owed : PassPhase → Nat × List EngineQuarantineRecord
  | .applying _ completed hardStops => (completed, hardStops)
  | .refusing hardStops => (0, hardStops)
  | _ => (0, [])

def PassPhase.Owes (phase : PassPhase) : Prop := phase.owed ≠ (0, [])

def PassPhase.uncounted : PassPhase → Option (List EngineQuarantineRecord)
  | .opened | .observing => some []
  | .applying _ _ hardStops => some hardStops
  | _ => none

/-- Whether the next step may free a lane of a completed story or quarantine one. -/
def PassPhase.commits : PassPhase → Bool
  | .applying (seen :: _) _ _ => match seen.classification with
    | .completed | .hardStop _ => true
    | _ => false
  | .dispatching _ _ => true
  | _ => false

def PassPhase.scores : PassPhase → Bool
  | .applying [] _ _ | .refusing _ => true
  | _ => false

def PassPhase.claims : PassPhase → Bool
  | .filling _ => true
  | _ => false

def PassPhase.mayClaim : PassPhase → Bool
  | .viewing refused => !refused
  | .surveying next | .clearing _ next => next == .fill
  | .entering | .filling _ | .dispatching _ _ => true
  | _ => false

/-- A pass that commits nothing owes what it owed, and claims only if it might have. -/
structure GoesOn (phase next : PassPhase) : Prop where
  owed : next.owed = phase.owed
  uncounted : ∀ stops, next.uncounted = some stops → phase.uncounted = some stops
  mayClaim : next.mayClaim = true → phase.mayClaim = true

/-- What a step of a pass does to the counts, and to what it owes them. -/
inductive Moves (pass : Pass) (tables : EngineTables) (move : PassMove) : Prop
  | quiet (counts : CountsKept none tables move.tables) (silent : move.commit = none)
      (goesOn : ∀ next, move.phase = some next → GoesOn pass.phase next)
  | completed (completions : Nat) (hardStops : List EngineQuarantineRecord) (next : PassPhase)
      (counts : CountsKept none tables move.tables) (commits : pass.phase.commits = true)
      (own : pass.phase.uncounted = some hardStops)
      (phase : move.phase = some next) (owed : next.owed = (completions + 1, hardStops))
      (uncounted : next.uncounted = some hardStops) (unclaiming : next.mayClaim = false)
      (written : move.commit = some .completed)
  | quarantined (record : EngineQuarantineRecord) (next : PassPhase)
      (counts : CountsKept none tables move.tables) (commits : pass.phase.commits = true)
      (phase : move.phase = some next)
      (owed : next.owed = (pass.phase.owed.1, pass.phase.owed.2 ++ [record]))
      (uncounted : next.uncounted = pass.phase.uncounted.map (· ++ [record]))
      (unclaiming : next.mayClaim = false) (written : move.commit = some (.quarantined record))
  | scored (run next : EngineRunRecord) (refused : Bool)
      (found : engineRun tables pass.runId = some run)
      (stored : engineRun move.tables pass.runId = some next)
      (number : next.consecutiveHardStops =
        (counted run pass.phase.owed.1 pass.phase.owed.2).consecutiveHardStops)
      (recent : next.recentQuarantines =
        (counted run pass.phase.owed.1 pass.phase.owed.2).recentQuarantines)
      (halts : next.state = .running → next.consecutiveHardStops < hardStopBreaker)
      (others : ∀ runId, runId ≠ pass.runId → engineRun move.tables runId = engineRun tables runId)
      (scores : pass.phase.scores = true) (phase : move.phase = some (.viewing refused))
      (silent : move.commit = none)

section Steps

variable (pass : Pass) (answer : PassAnswer) (tables : EngineTables) (move : PassMove)

theorem tripped_counts (run : EngineRunRecord) :
    (tripped run).consecutiveHardStops = run.consecutiveHardStops ∧
      (tripped run).recentQuarantines = run.recentQuarantines ∧
      ((tripped run).state = .running → run.consecutiveHardStops < hardStopBreaker) := by
  rw [tripped]
  split
  · exact ⟨rfl, rfl, fun running => by cases running⟩
  · next quiet =>
      refine ⟨rfl, rfl, fun running => ?_⟩
      by_contra due
      exact quiet (by simp [running, Nat.le_of_not_lt due])

theorem scorePass_moves (refused : Bool) (scores : pass.phase.scores = true)
    (ran : scorePass pass.runId answer tables pass.phase.owed.1 pass.phase.owed.2 refused =
      .ok move) : Moves pass tables move := by
  simp only [scorePass, bind_eq_ok, pure_eq_ok] at ran
  obtain ⟨after, scored, rfl⟩ := ran
  obtain ⟨run, next, updatedAt, found, mutated, stored, others⟩ :=
    transition_rows answer.host tables after pass.runId _ (fun run next mutated => by
      cases mutated
      exact (tripped_kept _).1) scored
  cases mutated
  obtain ⟨number, recent, halts⟩ :=
    tripped_counts (counted run pass.phase.owed.1 pass.phase.owed.2)
  exact .scored run _ refused found stored number recent (fun running => number ▸ halts running)
    others scores rfl rfl

theorem applyObserved_moves (seen : ObservedLane) (rest : List ObservedLane) (completed : Nat)
    (hardStops : List EngineQuarantineRecord)
    (phase : pass.phase = .applying (seen :: rest) completed hardStops)
    (ran : applyObserved pass.kind answer tables seen rest completed hardStops = .ok move) :
    Moves pass tables move := by
  have goesOn : GoesOn pass.phase (.applying rest completed hardStops) := by
    rw [phase]
    exact ⟨rfl, fun _ => id, nofun⟩
  have commits (kind : seen.classification = .completed ∨
      ∃ kind, seen.classification = .hardStop kind) : pass.phase.commits = true := by
    rcases kind with same | ⟨kind, same⟩ <;> rw [phase, PassPhase.commits, same]
  rw [applyObserved] at ran
  split at ran
  · simp only [bind_eq_ok, pure_eq_ok, Prod.exists] at ran
    obtain ⟨after, applied, ran, rfl⟩ := ran
    refine .quiet (countsKept_runs _ _ _ (recordProgress_runs _ _ _ _ _ _ _ _ ran)) rfl ?_
    rintro next ⟨⟩
    exact goesOn
  · simp only [bind_eq_ok, pure_eq_ok, Prod.exists] at ran
    obtain ⟨after, applied, ran, rfl⟩ := ran
    refine .quiet (countsKept_runs _ _ _ (recordProgress_runs _ _ _ _ _ _ _ _ ran)) rfl ?_
    rintro next ⟨⟩
    exact goesOn
  · simp only [bind_eq_ok, pure_eq_ok, Prod.exists] at ran
    obtain ⟨after, applied, ran, rfl⟩ := ran
    refine .quiet (countsKept_runs _ _ _ (letGo_runs _ _ _ _ _ _ _ ran)) rfl ?_
    rintro next ⟨⟩
    exact goesOn
  · next shape =>
      simp only [bind_eq_ok, pure_eq_ok, Prod.exists] at ran
      obtain ⟨after, applied, ran, rfl⟩ := ran
      have counts := countsKept_runs tables after none (letGo_runs _ _ _ _ _ _ _ ran)
      cases applied with
      | false =>
          refine .quiet counts rfl ?_
          rintro next ⟨⟩
          exact goesOn
      | true =>
          refine .completed completed hardStops (.applying rest (completed + 1) hardStops) counts
            (commits (Or.inl shape)) ?_ rfl rfl rfl rfl rfl
          rw [phase]
          rfl
  · next kind shape =>
      simp only [bind_eq_ok, pure_eq_ok, Prod.exists] at ran
      obtain ⟨after, record, ran, rfl⟩ := ran
      have counts := countsKept_runs tables after none (quarantineLane_runs _ _ _ _ _ _ _ _ ran)
      cases record with
      | none =>
          refine .quiet counts rfl ?_
          rintro next ⟨⟩
          rw [Option.toList_none, List.append_nil]
          exact goesOn
      | some record =>
          refine .quarantined record (.applying rest completed (hardStops ++ [record])) counts
            (commits (Or.inr ⟨kind, shape⟩)) rfl ?_ ?_ rfl rfl
          · rw [phase]
            rfl
          · rw [phase]
            rfl

theorem openPass_moves (phase : pass.phase = .opened)
    (ran : openPass pass.runId answer tables = .ok move) : Moves pass tables move := by
  simp only [openPass, bind_eq_ok] at ran
  obtain ⟨run, found, ran⟩ := ran
  obtain ⟨named, there⟩ := runForProject_found tables pass.runId run found
  split at ran
  · obtain rfl := (pure_eq_ok _ _).mp ran
    exact .quiet (countsKept_runs tables tables none rfl) rfl fun _ here => nomatch here
  · obtain rfl := (pure_eq_ok _ _).mp ran
    refine .quiet (haltInvalidScope_countsKept answer.host tables run ?_) rfl fun next here => ?_
    · rw [named]
      exact there
    · rw [Option.ite_none_left_eq_some] at here
      obtain rfl := Option.some.inj here.2
      rw [phase]
      exact ⟨rfl, fun _ => id, nofun⟩

theorem viewRun_moves (refused : Bool) (phase : pass.phase = .viewing refused)
    (ran : viewRun pass.runId pass.kind refused tables = .ok move) : Moves pass tables move := by
  simp only [viewRun, bind_eq_ok, pure_eq_ok] at ran
  obtain ⟨run, -, rfl⟩ := ran
  refine .quiet (countsKept_runs tables tables none rfl) rfl fun next here => ?_
  rw [phase]
  simp only at here
  split at here
  · split at here
    · cases here
      exact ⟨rfl, nofun, nofun⟩
    · next unrefused =>
        split at here
        · cases here
        · cases here
          refine ⟨rfl, nofun, fun _ => ?_⟩
          rw [PassPhase.mayClaim, Bool.not_eq_true] at *
          rw [unrefused]
          rfl
  · split at here
    · cases here
      exact ⟨rfl, nofun, nofun⟩
    · cases here

theorem goesOn_afterFill (phase next : PassPhase) (filled : Bool)
    (settled : phase.owed = (0, [])) (here : afterFill filled = some next) :
    GoesOn phase next := by
  rw [afterFill] at here
  split at here
  · cases here
  · cases here
    exact ⟨settled.symm, nofun, nofun⟩

theorem goesOn_afterClearing (phase next : PassPhase) (after : AfterClearing)
    (settled : phase.owed = (0, [])) (claims : after = .fill → phase.mayClaim = true)
    (here : after.phase = some next) : GoesOn phase next := by
  cases after with
  | fill =>
      cases here
      exact ⟨settled.symm, nofun, fun _ => claims rfl⟩
  | finish =>
      cases here
      exact ⟨settled.symm, nofun, nofun⟩
  | leave => cases here

theorem claimNext_moves (filled : Bool) (phase : pass.phase = .filling filled)
    (ran : claimNext pass.runId answer tables filled = .ok move) : Moves pass tables move := by
  simp only [claimNext, bind_eq_ok, pure_eq_ok, Prod.exists] at ran
  obtain ⟨after, taken, claimed, rfl⟩ := ran
  refine .quiet (countsKept_runs _ _ _ (claimLane_runs _ _ _ _ _ claimed)) rfl fun next here => ?_
  rw [phase]
  cases taken with
  | none => exact goesOn_afterFill _ next filled rfl here
  | some working =>
      cases here
      exact ⟨rfl, nofun, fun _ => rfl⟩

theorem recordDispatched_moves (working : EngineLaneRecord) (filled : Bool)
    (phase : pass.phase = .dispatching working filled)
    (ran : recordDispatched answer tables working filled = .ok move) : Moves pass tables move := by
  rw [recordDispatched] at ran
  split at ran
  · simp only [bind_eq_ok, pure_eq_ok, Prod.exists] at ran
    obtain ⟨after, applied, recorded, -, -, rfl⟩ := ran
    refine .quiet (countsKept_runs _ _ _ (recordDispatch_runs _ _ _ _ _ _ recorded)) rfl ?_
    rintro next ⟨⟩
    rw [phase]
    exact ⟨rfl, nofun, fun _ => rfl⟩
  · next diagnosis _ =>
      simp only [bind_eq_ok, pure_eq_ok, Prod.exists] at ran
      obtain ⟨after, held, refused, rfl⟩ := ran
      have counts := countsKept_runs tables after none
        (quarantineRefusedDispatch_runs _ _ _ _ _ _ refused)
      cases held with
      | true =>
          refine .quarantined (refusedRecord working diagnosis)
            (.refusing [refusedRecord working diagnosis]) counts ?_ rfl ?_ ?_ rfl rfl <;>
            rw [phase] <;> rfl
      | false =>
          refine .quiet counts rfl fun next here => ?_
          rw [phase]
          exact goesOn_afterFill _ next filled rfl here

theorem Pass.advance_moves (ran : pass.advance answer tables = .ok move) :
    Moves pass tables move := by
  have still := countsKept_runs tables tables none rfl
  rw [Pass.advance] at ran
  split at ran
  · next phase => exact openPass_moves pass answer tables move phase ran
  · next phase =>
      simp only [bind_eq_ok, pure_eq_ok] at ran
      obtain ⟨run, -, rfl⟩ := ran
      refine .quiet still rfl ?_
      rintro next ⟨⟩
      rw [phase]
      exact ⟨rfl, fun _ => id, nofun⟩
  · next completed hardStops phase =>
      refine scorePass_moves pass answer tables move false (phase ▸ rfl) ?_
      rw [phase]
      exact ran
  · next seen rest completed hardStops phase =>
      exact applyObserved_moves pass answer tables move seen rest completed hardStops phase ran
  · next hardStops phase =>
      refine scorePass_moves pass answer tables move true (phase ▸ rfl) ?_
      rw [phase]
      exact ran
  · next refused phase => exact viewRun_moves pass tables move refused phase ran
  · next next' phase =>
      cases ran
      refine .quiet still rfl fun next here => ?_
      rw [phase]
      have claims : next' = .fill → (PassPhase.surveying next').mayClaim = true := by
        rintro rfl
        rfl
      simp only at here
      split at here
      · exact goesOn_afterClearing _ next next' rfl claims here
      · cases here
        exact ⟨rfl, nofun, id⟩
  · next next' phase =>
      cases ran
      refine .quiet still rfl fun next here => ?_
      rw [phase]
      refine goesOn_afterClearing _ next next' rfl ?_ here
      rintro rfl
      rfl
  · next lane rest next' phase =>
      simp only [bind_eq_ok, pure_eq_ok] at ran
      obtain ⟨after, cleared, rfl⟩ := ran
      refine .quiet (countsKept_runs _ _ _ (clearQuarantinedLane_runs _ _ _ _ cleared)) rfl ?_
      rintro next ⟨⟩
      rw [phase]
      exact ⟨rfl, nofun, id⟩
  · next phase =>
      simp only [bind_eq_ok, pure_eq_ok] at ran
      obtain ⟨run, -, rfl⟩ := ran
      refine .quiet still rfl fun next here => ?_
      rw [phase]
      simp only at here
      split at here
      · cases here
        exact ⟨rfl, nofun, nofun⟩
      · cases here
        exact ⟨rfl, nofun, fun _ => rfl⟩
  · next filled phase => exact claimNext_moves pass answer tables move filled phase ran
  · next working filled phase =>
      exact recordDispatched_moves pass answer tables move working filled phase ran
  · next phase =>
      simp only [bind_eq_ok, pure_eq_ok] at ran
      obtain ⟨after, finished, rfl⟩ := ran
      exact .quiet (finishIfDrained_countsKept _ _ _ _ finished) rfl fun _ here => nomatch here

end Steps

end Storyhook.Service
