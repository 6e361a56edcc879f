import Mathlib.Data.List.DropRight
import Storyhook.Service.EngineCounts

/-! Whether a run has counted the hard stops that its passes have committed. -/

namespace Storyhook.Service

open Storyhook.Domain Storyhook.Store
open Library Library.Outcome

/-- The quarantines that count, each with its pass: after a completion only those of its own
pass. -/
def countCommit (series : List (Nat × EngineQuarantineRecord)) (write : LoggedCommit) :
    List (Nat × EngineQuarantineRecord) :=
  match write.commit with
  | .completed => series.filter (·.1 == write.pass)
  | .quarantined record => series ++ [(write.pass, record)]

def sinceCompletion (runId : String) (log : List LoggedCommit) :
    List (Nat × EngineQuarantineRecord) :=
  (log.filter (·.runId == runId)).foldl countCommit []

/-- The run has counted these, and holds the last of them. -/
structure StopsExact (run : EngineRunRecord) (series : List (Nat × EngineQuarantineRecord)) :
    Prop where
  number : run.consecutiveHardStops = series.length
  recent : run.recentQuarantines = (series.map (·.2)).rtake hardStopBreaker

/-- No pass over the run has committed what it has not counted. -/
def PassMachine.Settled (machine : PassMachine) (runId : String) : Prop :=
  ∀ id pass, machine.passes id = some pass → pass.runId = runId → ¬pass.phase.Owes

def PassMachine.Claims (machine : PassMachine) (action : PassAction) (runId : String) : Prop :=
  ∃ id answer pass filled after lane, action = .advance id answer ∧
    machine.passes id = some pass ∧ pass.runId = runId ∧ pass.phase = .filling filled ∧
    claimLane answer.host machine.tables runId = .ok (after, some lane)

/-- The breaker counts exactly, and no run whose breaker is due claims. -/
structure StopsCounted (start : PassMachine) (actions : List PassAction) : Prop where
  exact : ∀ before later, actions = before ++ later → ∀ runId run,
    engineRun (runPasses start before).tables runId = some run →
      (runPasses start before).Settled runId →
        StopsExact run (sinceCompletion runId (runPasses start before).log)
  unclaimed : ∀ before action later, actions = before ++ action :: later → ∀ runId,
    (runPasses start before).Claims action runId →
      (sinceCompletion runId (runPasses start before).log).length < hardStopBreaker

def PassAction.advanced : PassAction → Option Nat
  | .advance id _ => some id
  | _ => none

def PassAction.resumed : PassAction → Option String
  | .command _ (.resume runId) => some runId
  | _ => none

def PassMachine.owedBy (machine : PassMachine) (runId : String) (id : Nat) :
    Nat × List EngineQuarantineRecord :=
  match machine.passes id with
  | some pass => if pass.runId = runId then pass.phase.owed else (0, [])
  | none => (0, [])

def lastCommits (runId : String) (log : List LoggedCommit) : List Nat :=
  (log.filter (·.runId == runId)).foldl
    (fun ids write => ids.filter (· != write.pass) ++ [write.pass]) []

/-- The passes that owe the run something, in the order of their commits. -/
def PassMachine.owing (machine : PassMachine) (runId : String) : List Nat :=
  (lastCommits runId machine.log).filter fun id => machine.owedBy runId id != (0, [])

/-- A pass does not end with commits uncounted, passes over a run count in the order in which they
commit, none claims while another has hard stops to count, and no run is resumed while a pass over
it may claim. -/
structure Orderly (machine : PassMachine) (action : PassAction) : Prop where
  whole : ∀ id < machine.started, ∀ pass ∈ machine.passes id,
    (machine.step action).passes id = none → ¬pass.phase.Owes
  committing : ∀ id ∈ action.advanced, ∀ pass ∈ machine.passes id, pass.phase.commits = true →
    pass.phase.Owes → (machine.owing pass.runId).getLast? = some id
  counting : ∀ id ∈ action.advanced, ∀ pass ∈ machine.passes id, pass.phase.scores = true →
    pass.phase.Owes → (machine.owing pass.runId).head? = some id
  claiming : ∀ id ∈ action.advanced, ∀ pass ∈ machine.passes id, pass.phase.claims = true →
    ∀ other ∈ machine.owing pass.runId, (machine.owedBy pass.runId other).2 = []
  unresumed : ∀ runId ∈ action.resumed, ∀ id < machine.started, ∀ pass ∈ machine.passes id,
    pass.runId = runId → pass.phase.mayClaim = false

def OrderlyRun (machine : PassMachine) : List PassAction → Prop
  | [] => True
  | action :: rest => Orderly machine action ∧ OrderlyRun (machine.step action) rest

/-! ### Counting -/

theorem rtake_rtake_append {α : Type} (count : Nat) (front back : List α) :
    (front.rtake count ++ back).rtake count = (front ++ back).rtake count := by
  simp only [List.rtake, List.length_append, List.length_drop]
  rw [← List.drop_append_of_le_length (Nat.sub_le _ _), List.drop_drop]
  congr 1
  omega

theorem StopsExact.congr (run next : EngineRunRecord) (series : List (Nat × EngineQuarantineRecord))
    (exact : StopsExact run series)
    (number : next.consecutiveHardStops = run.consecutiveHardStops)
    (recent : next.recentQuarantines = run.recentQuarantines) : StopsExact next series :=
  ⟨number.trans exact.number, recent.trans exact.recent⟩

theorem counted_recent (run : EngineRunRecord) (completions : Nat)
    (hardStops : List EngineQuarantineRecord) :
    (counted run completions hardStops).recentQuarantines =
      ((if 0 < completions then [] else run.recentQuarantines) ++ hardStops).rtake
        hardStopBreaker := rfl

theorem StopsExact.idle (run : EngineRunRecord) (series : List (Nat × EngineQuarantineRecord))
    (exact : StopsExact run series) : StopsExact (counted run 0 []) series := by
  refine ⟨exact.number, ?_⟩
  rw [counted_recent, if_neg (Nat.lt_irrefl 0), exact.recent, rtake_rtake_append, List.append_nil]

theorem StopsExact.quarantined (run : EngineRunRecord) (completions : Nat)
    (hardStops : List EngineQuarantineRecord) (series : List (Nat × EngineQuarantineRecord))
    (id : Nat) (record : EngineQuarantineRecord)
    (exact : StopsExact (counted run completions hardStops) series) :
    StopsExact (counted run completions (hardStops ++ [record])) (series ++ [(id, record)]) := by
  constructor
  · have number := exact.number
    simp only [counted] at number
    simp only [counted, List.length_append, List.length_singleton]
    rw [← number, Nat.add_assoc]
  · have recent := exact.recent
    rw [counted_recent] at recent
    rw [counted_recent, ← List.append_assoc, ← rtake_rtake_append, recent, rtake_rtake_append,
      List.map_append, List.map_singleton]

theorem stopsExact_completed (run : EngineRunRecord) (completions : Nat)
    (hardStops : List EngineQuarantineRecord) (id : Nat) :
    StopsExact (counted run (completions + 1) hardStops) (hardStops.map (id, ·)) := by
  constructor
  · simp [counted]
  · rw [counted_recent, if_pos (Nat.succ_pos completions), List.nil_append, List.map_map]
    exact congrArg (List.rtake · hardStopBreaker) (List.map_id hardStops).symm

/-- A run once these passes have counted what they owe it. -/
def PassMachine.settle (machine : PassMachine) (runId : String) (run : EngineRunRecord)
    (ids : List Nat) : EngineRunRecord :=
  ids.foldl (fun run id => counted run (machine.owedBy runId id).1 (machine.owedBy runId id).2) run

theorem settle_concat (machine : PassMachine) (runId : String) (run : EngineRunRecord)
    (ids : List Nat) (id : Nat) : machine.settle runId run (ids ++ [id]) =
      counted (machine.settle runId run ids) (machine.owedBy runId id).1
        (machine.owedBy runId id).2 := by
  rw [PassMachine.settle, List.foldl_append]
  rfl

theorem settle_congr (machine : PassMachine) (runId : String) (run next : EngineRunRecord)
    (ids : List Nat) (number : next.consecutiveHardStops = run.consecutiveHardStops)
    (recent : next.recentQuarantines = run.recentQuarantines) :
    (machine.settle runId next ids).consecutiveHardStops =
        (machine.settle runId run ids).consecutiveHardStops ∧
      (machine.settle runId next ids).recentQuarantines =
        (machine.settle runId run ids).recentQuarantines := by
  induction ids generalizing run next with
  | nil => exact ⟨number, recent⟩
  | cons id rest further =>
      refine further _ _ ?_ ?_
      · simp only [counted, number]
      · simp only [counted, recent]

theorem StopsExact.settle_idle (machine : PassMachine) (runId : String) (run : EngineRunRecord)
    (ids : List Nat) (series : List (Nat × EngineQuarantineRecord))
    (exact : StopsExact (machine.settle runId run ids) series) :
    StopsExact (machine.settle runId (counted run 0 []) ids) series := by
  cases ids with
  | nil => exact exact.idle
  | cons id rest =>
      have recent (completions : Nat) (hardStops : List EngineQuarantineRecord) :
          (counted (counted run 0 []) completions hardStops).recentQuarantines =
            (counted run completions hardStops).recentQuarantines := by
        rw [counted_recent, counted_recent, counted_recent]
        by_cases done : 0 < completions
        · rw [if_pos done, if_pos done]
        · rw [if_neg done, if_neg done, if_neg (Nat.lt_irrefl 0), List.append_nil,
            rtake_rtake_append]
      obtain ⟨number, recent⟩ := settle_congr machine runId
        (counted run (machine.owedBy runId id).1 (machine.owedBy runId id).2)
        (counted (counted run 0 []) (machine.owedBy runId id).1 (machine.owedBy runId id).2) rest
        rfl (recent _ _)
      exact exact.congr _ _ series number recent

theorem settle_unstopped (machine : PassMachine) (runId : String) (run : EngineRunRecord)
    (ids : List Nat) (unstopped : ∀ id ∈ ids, (machine.owedBy runId id).2 = []) :
    (machine.settle runId run ids).consecutiveHardStops ≤ run.consecutiveHardStops := by
  induction ids generalizing run with
  | nil => exact Nat.le_refl _
  | cons id rest further =>
      refine Nat.le_trans (further _ fun other member =>
        unstopped other (List.mem_cons_of_mem id member)) ?_
      simp only [counted, unstopped id List.mem_cons_self, List.length_nil, Nat.add_zero]
      split
      · exact Nat.zero_le _
      · exact Nat.le_refl _

/-! ### Who owes -/

theorem lastCommits_concat (runId : String) (log : List LoggedCommit) (write : LoggedCommit) :
    lastCommits runId (log ++ [write]) =
      if write.runId = runId then
        (lastCommits runId log).filter (· != write.pass) ++ [write.pass]
      else lastCommits runId log := by
  rw [lastCommits, List.filter_append, List.foldl_append, List.filter_singleton]
  by_cases own : write.runId = runId
  · rw [if_pos own, beq_iff_eq.mpr own]
    rfl
  · rw [if_neg own, beq_false_of_ne own]
    rfl

theorem lastCommits_nodup (runId : String) (log : List LoggedCommit) :
    (lastCommits runId log).Nodup := by
  induction log using List.reverseRecOn with
  | nil => exact List.nodup_nil
  | append_singleton log write earlier =>
      rw [lastCommits_concat]
      split
      · refine List.nodup_append.mpr ⟨earlier.filter _, List.nodup_singleton _, ?_⟩
        intro id member other last
        rw [List.mem_singleton.mp last]
        exact bne_iff_ne.mp (List.mem_filter.mp member).2
      · exact earlier

section Owing

variable (machine : PassMachine) (runId : String)

theorem owing_nodup : (machine.owing runId).Nodup := (lastCommits_nodup runId machine.log).filter _

theorem owing_owes (id : Nat) (member : id ∈ machine.owing runId) :
    machine.owedBy runId id ≠ (0, []) := bne_iff_ne.mp (List.mem_filter.mp member).2

theorem owing_pass (id : Nat) (member : id ∈ machine.owing runId) :
    ∃ pass, machine.passes id = some pass ∧ pass.runId = runId ∧ pass.phase.Owes := by
  have owes := owing_owes machine runId id member
  rw [PassMachine.owedBy] at owes
  split at owes
  · next pass here =>
      split at owes
      · next own => exact ⟨pass, here, own, owes⟩
      · exact absurd rfl owes
  · exact absurd rfl owes

theorem owing_settled (settled : machine.Settled runId) : machine.owing runId = [] := by
  refine List.eq_nil_iff_forall_not_mem.mpr fun id member => ?_
  obtain ⟨pass, here, own, owes⟩ := owing_pass machine runId id member
  exact settled id pass here own owes

theorem owedBy_own (id : Nat) (pass : Pass) (here : machine.passes id = some pass) :
    machine.owedBy pass.runId id = pass.phase.owed := by
  rw [PassMachine.owedBy, here]
  exact if_pos rfl

theorem owing_last (id : Nat) (last : (machine.owing runId).getLast? = some id) :
    machine.owing runId = (machine.owing runId).filter (· != id) ++ [id] := by
  obtain ⟨front, order⟩ := List.getLast?_eq_some_iff.mp last
  have nodup := order ▸ owing_nodup machine runId
  have apart : ∀ other ∈ front, (other != id) = true := fun other member =>
    bne_iff_ne.mpr ((List.nodup_append.mp nodup).2.2 other member id List.mem_cons_self)
  rw [order, List.filter_append, List.filter_eq_self.mpr apart, List.filter_singleton,
    bne_self_eq_false, cond_false, List.append_nil]

theorem owing_first (id : Nat) (first : (machine.owing runId).head? = some id) :
    machine.owing runId = id :: (machine.owing runId).filter (· != id) := by
  obtain ⟨rest, order⟩ := List.head?_eq_some_iff.mp first
  have nodup := order ▸ owing_nodup machine runId
  have apart : ∀ other ∈ rest, (other != id) = true := by
    intro other member
    refine bne_iff_ne.mpr ?_
    rintro rfl
    exact (List.nodup_cons.mp nodup).1 member
  rw [order, List.filter_cons, bne_self_eq_false, if_neg Bool.false_ne_true,
    List.filter_eq_self.mpr apart]

theorem owing_quiet (id : Nat) (pass : Pass) (here : machine.passes id = some pass)
    (quiet : ¬pass.phase.Owes) :
    (machine.owing pass.runId).filter (· != id) = machine.owing pass.runId := by
  refine List.filter_eq_self.mpr fun other member => bne_iff_ne.mpr ?_
  rintro rfl
  refine owing_owes machine pass.runId other member ?_
  rw [owedBy_own machine other pass here]
  exact not_not.mp quiet

theorem owing_congr (next : PassMachine) (log : next.log = machine.log)
    (owed : ∀ id, next.owedBy runId id = machine.owedBy runId id) :
    next.owing runId = machine.owing runId := by
  rw [PassMachine.owing, PassMachine.owing, log]
  exact List.filter_congr fun id _ => by rw [owed]

theorem lastCommits_none (log : List LoggedCommit)
    (none : ∀ write ∈ log, write.runId ≠ runId) : lastCommits runId log = [] := by
  rw [lastCommits, List.filter_eq_nil_iff.mpr]
  · rfl
  · intro write member own
    exact none write member (eq_of_beq own)

theorem settle_other (next : PassMachine) (run : EngineRunRecord) (ids : List Nat)
    (owed : ∀ id ∈ ids, next.owedBy runId id = machine.owedBy runId id) :
    next.settle runId run ids = machine.settle runId run ids := by
  refine List.foldl_ext _ _ run fun run id member => ?_
  rw [owed id member]

end Owing

theorem sinceCompletion_concat (runId : String) (log : List LoggedCommit) (write : LoggedCommit) :
    sinceCompletion runId (log ++ [write]) =
      if write.runId = runId then countCommit (sinceCompletion runId log) write
      else sinceCompletion runId log := by
  rw [sinceCompletion, List.filter_append, List.foldl_append, List.filter_singleton]
  by_cases own : write.runId = runId
  · rw [if_pos own, beq_iff_eq.mpr own]
    rfl
  · rw [if_neg own, beq_false_of_ne own]
    rfl

theorem sinceCompletion_none (runId : String) (log : List LoggedCommit)
    (none : ∀ write ∈ log, write.runId ≠ runId) : sinceCompletion runId log = [] := by
  rw [sinceCompletion, List.filter_eq_nil_iff.mpr]
  · rfl
  · intro write member own
    exact none write member (eq_of_beq own)

theorem uncounted_settled (phase : PassPhase) (stops : List EngineQuarantineRecord)
    (own : phase.uncounted = some stops) (settled : ¬phase.Owes) : stops = [] := by
  cases phase with
  | opened | observing =>
      cases own
      rfl
  | applying observed completed hardStops =>
      cases own
      exact congrArg Prod.snd (not_not.mp settled)
  | _ => cases own

/-! ### What every step keeps -/

/-- Each run's counts, with what its passes still owe them, are those of the log. -/
structure BreakerKept (machine : PassMachine) : Prop where
  known : ∀ id pass, machine.passes id = some pass →
    id < machine.started ∧ (engineRun machine.tables pass.runId).isSome = true
  logged : ∀ write ∈ machine.log,
    write.pass < machine.started ∧ (engineRun machine.tables write.runId).isSome = true
  exact : ∀ runId run, engineRun machine.tables runId = some run →
    StopsExact (machine.settle runId run (machine.owing runId)) (sinceCompletion runId machine.log)
  own : ∀ id pass stops, machine.passes id = some pass → pass.phase.uncounted = some stops →
    (pass.phase.Owes → (machine.owing pass.runId).getLast? = some id) →
      (sinceCompletion pass.runId machine.log).filter (·.1 == id) = stops.map (id, ·)
  below : ∀ id pass run, machine.passes id = some pass → pass.phase.mayClaim = true →
    engineRun machine.tables pass.runId = some run → run.state = .running →
      run.consecutiveHardStops < hardStopBreaker

theorem noPasses_kept (slug : String) (project : Database) :
    BreakerKept (noPasses slug project) where
  known := fun _ _ here => (Option.some_ne_none _ here.symm).elim
  logged := fun _ member => absurd member List.not_mem_nil
  exact := fun _ _ here => (Option.some_ne_none _ here.symm).elim
  own := fun _ _ _ here => (Option.some_ne_none _ here.symm).elim
  below := fun _ _ _ here => (Option.some_ne_none _ here.symm).elim

section Step

variable (machine : PassMachine) (kept : BreakerKept machine)

theorem CountsKept.before (resumed : Option String) (tables after : EngineTables)
    (counts : CountsKept resumed tables after) (runId : String) (run next : EngineRunRecord)
    (found : engineRun tables runId = some run) (here : engineRun after runId = some next) :
    next.consecutiveHardStops = run.consecutiveHardStops ∧
      next.recentQuarantines = run.recentQuarantines ∧
      (next.state = .running → run.state = .running ∨ resumed = some runId) := by
  obtain ⟨same, there, kept⟩ := counts.kept runId run found
  cases here.symm.trans there
  exact kept

theorem CountsKept.isSome (resumed : Option String) (tables after : EngineTables)
    (counts : CountsKept resumed tables after) (runId : String)
    (found : (engineRun tables runId).isSome = true) : (engineRun after runId).isSome = true := by
  obtain ⟨run, here⟩ := Option.isSome_iff_exists.mp found
  obtain ⟨next, there, -⟩ := counts.kept runId run here
  exact Option.isSome_iff_exists.mpr ⟨next, there⟩

theorem update_passes (id other : Nat) (pass one : Pass) (phase : Option PassPhase)
    (there : Function.update machine.passes id
      (phase.map fun phase => { pass with phase := phase }) other = some one) :
    other = id ∧ (∃ next, phase = some next ∧ one = { pass with phase := next }) ∨
      other ≠ id ∧ machine.passes other = some one := by
  by_cases same : other = id
  · subst same
    rw [Function.update_self, Option.map_eq_some_iff] at there
    obtain ⟨next, here, rfl⟩ := there
    exact Or.inl ⟨rfl, next, here, rfl⟩
  · rw [Function.update_of_ne same] at there
    exact Or.inr ⟨same, there⟩

theorem update_owedBy (next : PassMachine) (id : Nat) (pass : Pass)
    (here : machine.passes id = some pass) (phase : Option PassPhase)
    (passes : next.passes = Function.update machine.passes id
      (phase.map fun phase => { pass with phase := phase })) (runId : String) (other : Nat) :
    next.owedBy runId other = if other = id ∧ pass.runId = runId
      then (phase.map PassPhase.owed).getD (0, []) else machine.owedBy runId other := by
  rw [PassMachine.owedBy, PassMachine.owedBy, passes]
  by_cases same : other = id
  · subst same
    rw [Function.update_self, here]
    by_cases own : pass.runId = runId
    · rw [if_pos ⟨rfl, own⟩]
      cases phase with
      | none => rfl
      | some phase => exact if_pos own
    · rw [if_neg fun both => own both.2]
      cases phase with
      | none => exact (if_neg own).symm
      | some phase => exact (if_neg own).trans (if_neg own).symm
  · rw [Function.update_of_ne same, if_neg fun both => same both.1]

theorem update_one (id other : Nat) (pass one : Pass) (phase : PassPhase)
    (there : Function.update machine.passes id (some { pass with phase := phase }) other =
      some one) :
    other = id ∧ one = { pass with phase := phase } ∨
      other ≠ id ∧ machine.passes other = some one := by
  rcases update_passes machine id other pass one (some phase) there with
    ⟨same, next, found, rfl⟩ | elsewhere
  · cases found
    exact Or.inl ⟨same, rfl⟩
  · exact Or.inr elsewhere

section Owing

variable (next : PassMachine) (id : Nat) (pass : Pass) (here : machine.passes id = some pass)
  (phase : PassPhase)
  (passes : next.passes = Function.update machine.passes id (some { pass with phase := phase }))

include here passes

/-- A pass that commits comes last among those that owe its run. -/
theorem owing_committed (commit : LaneCommit) (owes : phase.Owes)
    (log : next.log = machine.log ++ [⟨id, pass.runId, commit⟩]) (runId : String) :
    next.owing runId = if pass.runId = runId then (machine.owing runId).filter (· != id) ++ [id]
      else machine.owing runId := by
  have owed := update_owedBy machine next id pass here (some phase) passes runId
  rw [PassMachine.owing, log, lastCommits_concat]
  split
  · next mine =>
      rw [List.filter_append, List.filter_filter, PassMachine.owing, List.filter_filter,
        List.filter_singleton, owed, if_pos ⟨rfl, mine⟩]
      rw [Option.map_some, Option.getD_some, bne_iff_ne.mpr owes, cond_true]
      congr 1
      refine List.filter_congr fun other _ => ?_
      by_cases same : other = id
      · rw [same, bne_self_eq_false, Bool.and_false, Bool.false_and]
      · rw [owed, if_neg fun both => same both.1, Bool.and_comm]
  · next elsewhere =>
      refine List.filter_congr fun other _ => ?_
      rw [owed, if_neg fun both => elsewhere both.2]

/-- A pass that has counted is no longer among them. -/
theorem owing_counted (quiet : phase.owed = (0, [])) (log : next.log = machine.log)
    (runId : String) :
    next.owing runId = if pass.runId = runId then (machine.owing runId).filter (· != id)
      else machine.owing runId := by
  have owed := update_owedBy machine next id pass here (some phase) passes runId
  rw [PassMachine.owing, log]
  split
  · next mine =>
      rw [PassMachine.owing, List.filter_filter]
      refine List.filter_congr fun other _ => ?_
      by_cases same : other = id
      · rw [owed, if_pos ⟨same, mine⟩, same, bne_self_eq_false, Bool.false_and, Option.map_some,
          Option.getD_some, quiet]
        exact bne_self_eq_false _
      · rw [owed, if_neg fun both => same both.1, bne_iff_ne.mpr same, Bool.true_and]
  · next elsewhere =>
      refine List.filter_congr fun other _ => ?_
      rw [owed, if_neg fun both => elsewhere both.2]

end Owing

include kept

theorem BreakerKept.absent (runId : String) (absent : engineRun machine.tables runId = none) :
    ∀ write ∈ machine.log, write.runId ≠ runId := by
  intro write member same
  have found := (kept.logged write member).2
  rw [same, absent] at found
  cases found

theorem BreakerKept.retabled (resumed : Option String) (after : EngineTables)
    (counts : CountsKept resumed machine.tables after)
    (unresumed : ∀ id pass, machine.passes id = some pass → resumed = some pass.runId →
      pass.phase.mayClaim = false) : BreakerKept { machine with tables := after } where
  known := fun id pass here =>
    ⟨(kept.known id pass here).1, counts.isSome _ _ _ _ (kept.known id pass here).2⟩
  logged := fun write member =>
    ⟨(kept.logged write member).1, counts.isSome _ _ _ _ (kept.logged write member).2⟩
  exact := by
    intro runId next here
    cases found : engineRun machine.tables runId with
    | none =>
        have silent := kept.absent machine runId found
        have nobody : PassMachine.owing { machine with tables := after } runId = [] := by
          rw [PassMachine.owing, lastCommits_none runId machine.log silent, List.filter_nil]
        rw [nobody, sinceCompletion_none runId machine.log silent]
        obtain ⟨zero, blank⟩ := counts.fresh runId next here found
        exact ⟨zero, blank⟩
    | some run =>
        obtain ⟨number, recent, -⟩ := counts.before _ _ _ runId run next found here
        obtain ⟨number, recent⟩ :=
          settle_congr machine runId run next (machine.owing runId) number recent
        exact (kept.exact runId run found).congr _ _ _ number recent
  own := kept.own
  below := by
    intro id pass next there claims here running
    obtain ⟨run, found⟩ := Option.isSome_iff_exists.mp (kept.known id pass there).2
    obtain ⟨number, -, runs⟩ := counts.before _ _ _ pass.runId run next found here
    rw [number]
    rcases runs running with before | begun
    · exact kept.below id pass run there claims found before
    · rw [unresumed id pass there begun] at claims
      cases claims

section Pass

variable (id : Nat) (pass : Pass) (here : machine.passes id = some pass)

include here

theorem BreakerKept.rephased (phase : Option PassPhase)
    (goesOn : ∀ next, phase = some next → GoesOn pass.phase next)
    (whole : phase = none → ¬pass.phase.Owes) :
    BreakerKept { machine with
      passes := Function.update machine.passes id
        (phase.map fun phase => { pass with phase := phase }) } := by
  have owed (runId : String) (other : Nat) : PassMachine.owedBy { machine with
      passes := Function.update machine.passes id
        (phase.map fun phase => { pass with phase := phase }) } runId other =
          machine.owedBy runId other := by
    rw [update_owedBy machine _ id pass here phase rfl]
    split
    · next same =>
        obtain ⟨rfl, rfl⟩ := same
        rw [owedBy_own machine other pass here]
        cases next : phase with
        | none => exact (not_not.mp (whole next)).symm
        | some next' => exact (goesOn next' next).owed
    · rfl
  have order (runId : String) := owing_congr machine runId { machine with
    passes := Function.update machine.passes id
      (phase.map fun phase => { pass with phase := phase }) } rfl (owed runId)
  refine ⟨?_, kept.logged, ?_, ?_, ?_⟩
  · intro other one there
    rcases update_passes machine id other pass one phase there with
      ⟨rfl, next, -, rfl⟩ | ⟨-, before⟩
    · exact kept.known other pass here
    · exact kept.known other one before
  · intro runId run found
    rw [order, settle_other machine runId _ run _ fun other _ => owed runId other]
    exact kept.exact runId run found
  · intro other one stops there uncounted last
    rw [order] at last
    rcases update_passes machine id other pass one phase there with
      ⟨rfl, next, goes, rfl⟩ | ⟨-, before⟩
    · refine kept.own other pass stops here ((goesOn next goes).uncounted stops uncounted) ?_
      rw [PassPhase.Owes, ← (goesOn next goes).owed]
      exact last
    · exact kept.own other one stops before uncounted last
  · intro other one run there claims found running
    rcases update_passes machine id other pass one phase there with
      ⟨rfl, next, goes, rfl⟩ | ⟨-, before⟩
    · exact kept.below other pass run here ((goesOn next goes).mayClaim claims) found running
    · exact kept.below other one run before claims found running

section Last

variable (last : pass.phase.Owes → (machine.owing pass.runId).getLast? = some id)

include last

theorem BreakerKept.due (run : EngineRunRecord)
    (found : engineRun machine.tables pass.runId = some run) :
    StopsExact (counted
      (machine.settle pass.runId run ((machine.owing pass.runId).filter (· != id)))
      pass.phase.owed.1 pass.phase.owed.2) (sinceCompletion pass.runId machine.log) := by
  have exact := kept.exact pass.runId run found
  by_cases owes : pass.phase.Owes
  · rw [owing_last machine pass.runId id (last owes), settle_concat,
      owedBy_own machine id pass here] at exact
    exact exact
  · rw [owing_quiet machine id pass here owes, not_not.mp owes]
    exact exact.idle

theorem BreakerKept.committed (next : PassPhase) (commit : LaneCommit) (owes : next.Owes)
    (unclaiming : next.mayClaim = false)
    (exact : ∀ run, StopsExact (counted run pass.phase.owed.1 pass.phase.owed.2)
      (sinceCompletion pass.runId machine.log) → StopsExact (counted run next.owed.1 next.owed.2)
        (countCommit (sinceCompletion pass.runId machine.log) ⟨id, pass.runId, commit⟩))
    (own : ∀ stops, next.uncounted = some stops →
      (countCommit (sinceCompletion pass.runId machine.log) ⟨id, pass.runId, commit⟩).filter
        (·.1 == id) = stops.map (id, ·))
    (others : ∀ other, other ≠ id →
      (sinceCompletion pass.runId machine.log).filter (·.1 == other) = [] →
        (countCommit (sinceCompletion pass.runId machine.log) ⟨id, pass.runId, commit⟩).filter
          (·.1 == other) = []) :
    BreakerKept { machine with
      passes := Function.update machine.passes id (some { pass with phase := next })
      log := machine.log ++ [⟨id, pass.runId, commit⟩] } := by
  have series (runId : String) : sinceCompletion runId
      (machine.log ++ [⟨id, pass.runId, commit⟩]) = if pass.runId = runId then
        countCommit (sinceCompletion runId machine.log) ⟨id, pass.runId, commit⟩
      else sinceCompletion runId machine.log := sinceCompletion_concat runId machine.log _
  have owed (runId : String) (other : Nat) := update_owedBy machine { machine with
    passes := Function.update machine.passes id (some { pass with phase := next })
    log := machine.log ++ [⟨id, pass.runId, commit⟩] } id pass here (some next) rfl runId other
  have order (runId : String) := owing_committed machine { machine with
    passes := Function.update machine.passes id (some { pass with phase := next })
    log := machine.log ++ [⟨id, pass.runId, commit⟩] } id pass here next rfl commit owes rfl runId
  refine ⟨?_, ?_, ?_, ?_, ?_⟩
  · intro other one there
    rcases update_one machine id other pass one next there with ⟨rfl, rfl⟩ | ⟨-, before⟩
    · exact kept.known other pass here
    · exact kept.known other one before
  · intro write member
    rcases List.mem_append.mp member with old | new
    · exact kept.logged write old
    · rw [List.mem_singleton.mp new]
      exact kept.known id pass here
  · intro runId run found
    rw [series, order]
    split
    · next mine =>
        subst mine
        rw [settle_concat, settle_other machine pass.runId _ run _ fun other member => ?_]
        · rw [owed, if_pos ⟨rfl, rfl⟩]
          exact exact _ (kept.due machine id pass here last run found)
        · rw [owed, if_neg fun both => bne_iff_ne.mp (List.mem_filter.mp member).2 both.1]
    · next elsewhere =>
        rw [settle_other machine runId _ run _ fun other _ => ?_]
        · exact kept.exact runId run found
        · rw [owed, if_neg fun both => elsewhere both.2]
  · intro other one stops there uncounted final
    rcases update_one machine id other pass one next there with ⟨rfl, rfl⟩ | ⟨away, before⟩
    · rw [series, if_pos rfl]
      exact own stops uncounted
    · rw [order] at final
      rw [series]
      split at final
      · next mine =>
          -- the pass that committed is last now, so this one owes nothing
          have quiet : ¬one.phase.Owes := by
            intro due
            have same := (List.getLast?_concat ..).symm.trans (final due)
            exact away (Option.some.inj same).symm
          have none : stops = [] := uncounted_settled one.phase stops uncounted quiet
          rw [if_pos mine, none, List.map_nil, ← mine]
          refine others other away ?_
          have earlier := kept.own other one stops before uncounted fun due => absurd due quiet
          rw [mine, earlier, none, List.map_nil]
      · next elsewhere =>
          rw [if_neg elsewhere]
          exact kept.own other one stops before uncounted final
  · intro other one run there claims found running
    rcases update_one machine id other pass one next there with ⟨rfl, rfl⟩ | ⟨-, before⟩
    · rw [unclaiming] at claims
      cases claims
    · exact kept.below other one run before claims found running

end Last

end Pass

end Step

end Storyhook.Service
