import Storyhook.Service.EngineLanes

/-! What each transaction may make of the lanes. -/

namespace Storyhook.Service

open Storyhook.Domain Storyhook.Store
open Library Library.Outcome

/-- Lanes as the tables hold them between transactions. -/
structure Laned (tables : EngineTables) : Prop where
  filed : Filed tables.project
  keyed : tables.lanes.Pairwise fun one other => one.sameKey other = false
  holding : ∀ lane ∈ tables.lanes, lane.state = .idle ↔ lane.storyId = none
  owned : ∀ lane ∈ tables.lanes, ∃ run ∈ tables.runs, run.id = lane.runId
  ids : (tables.runs.map (·.id)).Nodup
  idleBelow : ∀ lane ∈ tables.lanes, lane.state = .idle → ∀ run ∈ tables.runs,
    run.id = lane.runId → lane.laneIndex < run.lanes

def Quiet (before after : EngineTables) : Prop :=
  ∀ lane ∈ after.lanes, isOccupied lane = true →
    ∃ old ∈ before.lanes, old.sameKey lane = true ∧ isOccupied old = true ∧
      old.storyId = lane.storyId

def Distinct (tables : EngineTables) : Prop :=
  ∀ one ∈ tables.lanes, ∀ other ∈ tables.lanes, one.runId = other.runId →
    isOccupied one = true → isOccupied other = true → one.storyId = other.storyId →
      one.laneIndex = other.laneIndex

theorem sameKey_symm (one other : EngineLaneRecord) : one.sameKey other = other.sameKey one := by
  rw [EngineLaneRecord.sameKey, EngineLaneRecord.sameKey, Bool.eq_iff_iff]
  simp only [Bool.and_eq_true, beq_iff_eq]
  exact and_congr eq_comm eq_comm

section Steps

variable (tables : EngineTables)

theorem Quiet.refl : Quiet tables tables := by
  intro lane member taken
  exact ⟨lane, member, (sameKey_iff lane lane).mpr ⟨rfl, rfl⟩, taken, rfl⟩

theorem Quiet.trans (middle after : EngineTables) (first : Quiet tables middle)
    (second : Quiet middle after) : Quiet tables after := by
  intro lane member taken
  obtain ⟨between, inside, key, held, same⟩ := second lane member taken
  obtain ⟨old, there, oldKey, oldHeld, oldSame⟩ := first between inside held
  rw [sameKey_iff] at key oldKey
  exact ⟨old, there, (sameKey_iff old lane).mpr ⟨oldKey.1.trans key.1, oldKey.2.trans key.2⟩,
    oldHeld, oldSame.trans same⟩

theorem Quiet.distinct (after : EngineTables) (quiet : Quiet tables after)
    (distinct : Distinct tables) : Distinct after := by
  intro one first other second same oneHeld otherHeld story
  obtain ⟨old, oldThere, oldKey, oldHeld, oldStory⟩ := quiet one first oneHeld
  obtain ⟨late, lateThere, lateKey, lateHeld, lateStory⟩ := quiet other second otherHeld
  rw [sameKey_iff] at oldKey lateKey
  have index := distinct old oldThere late lateThere
    (oldKey.1.trans (same.trans lateKey.1.symm)) oldHeld lateHeld
    (oldStory.trans (story.trans lateStory.symm))
  exact oldKey.2.symm.trans (index.trans lateKey.2)

theorem keyed_unique (laned : Laned tables) (one other : EngineLaneRecord)
    (first : one ∈ tables.lanes) (second : other ∈ tables.lanes)
    (same : one.sameKey other = true) : one = other := by
  by_contra apart
  have symmetric : Std.Symm fun one other : EngineLaneRecord => one.sameKey other = false :=
    ⟨fun one other clear => (sameKey_symm other one).trans clear⟩
  have fresh := laned.keyed.forall first second apart
  rw [same] at fresh
  cases fresh

theorem Laned.delete (laned : Laned tables) (lane : EngineLaneRecord) :
    Laned (deleteEngineLane tables lane) where
  filed := laned.filed
  keyed := laned.keyed.sublist List.filter_sublist
  holding := fun other member => laned.holding other ((mem_delete tables lane other).mp member).1
  owned := fun other member => laned.owned other ((mem_delete tables lane other).mp member).1
  ids := laned.ids
  idleBelow := fun other member => laned.idleBelow other
    ((mem_delete tables lane other).mp member).1

theorem delete_quiet (lane : EngineLaneRecord) : Quiet tables (deleteEngineLane tables lane) := by
  intro other member taken
  exact Quiet.refl tables other ((mem_delete tables lane other).mp member).1 taken

structure Fits (lane : EngineLaneRecord) : Prop where
  holding : lane.state = .idle ↔ lane.storyId = none
  owned : ∃ run ∈ tables.runs, run.id = lane.runId
  idleBelow : lane.state = .idle → ∀ run ∈ tables.runs, run.id = lane.runId →
    lane.laneIndex < run.lanes

theorem Laned.put (laned : Laned tables) (lane : EngineLaneRecord) (fits : Fits tables lane) :
    Laned (putEngineLane tables lane) where
  filed := laned.filed
  keyed := by
    have apart : ∀ {one other : EngineLaneRecord}, one.sameKey other = false →
        other.sameKey one = false := fun clear => (sameKey_symm _ _).trans clear
    rw [(put_perm tables lane).pairwise_iff apart, List.pairwise_cons]
    refine ⟨fun other member => ?_, laned.keyed.sublist List.filter_sublist⟩
    exact apart ((mem_delete tables lane other).mp member).2
  holding := by
    intro other member
    rcases (mem_put tables lane other).mp member with rfl | ⟨inside, -⟩
    · exact fits.holding
    · exact laned.holding other inside
  owned := by
    intro other member
    rcases (mem_put tables lane other).mp member with rfl | ⟨inside, -⟩
    · exact fits.owned
    · exact laned.owned other inside
  ids := laned.ids
  idleBelow := by
    intro other member
    rcases (mem_put tables lane other).mp member with rfl | ⟨inside, -⟩
    · exact fits.idleBelow
    · exact laned.idleBelow other inside

theorem put_quiet (lane : EngineLaneRecord)
    (kept : isOccupied lane = true → ∃ old ∈ tables.lanes, old.sameKey lane = true ∧
      isOccupied old = true ∧ old.storyId = lane.storyId) :
    Quiet tables (putEngineLane tables lane) := by
  intro other member taken
  rcases (mem_put tables lane other).mp member with rfl | ⟨inside, -⟩
  · exact kept taken
  · exact Quiet.refl tables other inside taken

structure TakesNone (after : EngineTables) : Prop where
  laned : Laned after
  quiet : Quiet tables after

theorem TakesNone.refl (laned : Laned tables) : TakesNone tables tables :=
  ⟨laned, Quiet.refl tables⟩

theorem TakesNone.trans (middle after : EngineTables) (first : TakesNone tables middle)
    (second : TakesNone middle after) : TakesNone tables after :=
  ⟨second.laned, first.quiet.trans tables middle after second.quiet⟩

theorem Laned.project (laned : Laned tables) (project : Database) (filed : Filed project) :
    TakesNone tables { tables with project := project } where
  laned := ⟨filed, laned.keyed, laned.holding, laned.owned, laned.ids, laned.idleBelow⟩
  quiet := Quiet.refl tables

theorem Laned.update (laned : Laned tables) (run : EngineRunRecord)
    (below : ∀ lane ∈ tables.lanes, lane.state = .idle → run.id = lane.runId →
      lane.laneIndex < run.lanes) : TakesNone tables (updateEngineRun tables run) where
  laned := {
    filed := laned.filed
    keyed := laned.keyed
    holding := laned.holding
    owned := by
      intro lane member
      obtain ⟨old, there, same⟩ := laned.owned lane member
      refine ⟨_, List.mem_map.mpr ⟨old, there, rfl⟩, ?_⟩
      split
      · next hit => exact (beq_iff_eq.mp hit).symm.trans same
      · exact same
    ids := by
      rw [updateEngineRun, List.map_map]
      refine (List.map_congr_left fun old _ => ?_).symm ▸ laned.ids
      simp only [Function.comp_apply]
      split
      · next hit => exact (beq_iff_eq.mp hit).symm
      · rfl
    idleBelow := by
      intro lane member resting other listed same
      rcases mem_update tables run other listed with rfl | ⟨there, -⟩
      · exact below lane member resting same
      · exact laned.idleBelow lane member resting other there same }
  quiet := Quiet.refl tables

theorem engineRun_unique (laned : Laned tables) (runId : String) (run other : EngineRunRecord)
    (found : engineRun tables runId = some run) (listed : other ∈ tables.runs)
    (same : other.id = runId) : other = run := by
  obtain ⟨there, named⟩ := engineRun_mem tables runId run found
  exact List.inj_on_of_nodup_map laned.ids listed there (same.trans named.symm)

end Steps

section Writes

variable (host : EngineHost) (tables after : EngineTables)

theorem putLane_ok (lane : EngineLaneRecord) (ran : putLane host tables lane = .ok after) :
    after = putEngineLane tables lane := by
  simp only [putLane, bind_eq_ok, pure_eq_ok] at ran
  obtain ⟨-, -, rfl⟩ := ran
  rfl

theorem putLanes_ok (lanes : List EngineLaneRecord)
    (ran : lanes.foldlM (putLane host) tables = .ok after) :
    after = lanes.foldl putEngineLane tables := by
  induction lanes generalizing tables with
  | nil => exact ((pure_eq_ok _ _).mp ran).symm
  | cons lane rest further =>
      rw [List.foldlM_cons, bind_eq_ok] at ran
      obtain ⟨middle, first, others⟩ := ran
      rw [List.foldl_cons, ← putLane_ok host tables middle lane first]
      exact further middle others

theorem puts_runs (lanes : List EngineLaneRecord) :
    (lanes.foldl putEngineLane tables).runs = tables.runs := by
  induction lanes generalizing tables with
  | nil => rfl
  | cons lane rest further => exact further (putEngineLane tables lane)

theorem puts_project (lanes : List EngineLaneRecord) :
    (lanes.foldl putEngineLane tables).project = tables.project := by
  induction lanes generalizing tables with
  | nil => rfl
  | cons lane rest further => exact further (putEngineLane tables lane)

theorem mem_puts (lanes : List EngineLaneRecord) (other : EngineLaneRecord)
    (member : other ∈ (lanes.foldl putEngineLane tables).lanes) :
    other ∈ lanes ∨ other ∈ tables.lanes := by
  induction lanes generalizing tables with
  | nil => exact Or.inr member
  | cons lane rest further =>
      rcases further (putEngineLane tables lane) member with new | old
      · exact Or.inl (List.mem_cons_of_mem lane new)
      · rcases (mem_put tables lane other).mp old with rfl | ⟨there, -⟩
        · exact Or.inl List.mem_cons_self
        · exact Or.inr there

theorem puts_update (lanes : List EngineLaneRecord) (run : EngineRunRecord) :
    updateEngineRun (lanes.foldl putEngineLane tables) run =
      lanes.foldl putEngineLane (updateEngineRun tables run) := by
  induction lanes generalizing tables with
  | nil => rfl
  | cons lane rest further => exact further (putEngineLane tables lane)

theorem puts_laned (laned : Laned tables) (lanes : List EngineLaneRecord)
    (fits : ∀ lane ∈ lanes, Fits tables lane) : Laned (lanes.foldl putEngineLane tables) := by
  induction lanes generalizing tables with
  | nil => exact laned
  | cons lane rest further =>
      obtain ⟨first, others⟩ := List.forall_mem_cons.mp fits
      exact further (putEngineLane tables lane) (laned.put tables lane first)
        fun other member => ⟨(others other member).holding, (others other member).owned,
          (others other member).idleBelow⟩

theorem puts_takesNone (laned : Laned tables) (lanes : List EngineLaneRecord)
    (fits : ∀ lane ∈ lanes, Fits tables lane) (idle : ∀ lane ∈ lanes, lane.state = .idle) :
    TakesNone tables (lanes.foldl putEngineLane tables) := by
  refine ⟨puts_laned tables laned lanes fits, ?_⟩
  clear fits laned
  induction lanes generalizing tables with
  | nil => exact Quiet.refl tables
  | cons lane rest further =>
      obtain ⟨first, others⟩ := List.forall_mem_cons.mp idle
      refine Quiet.trans tables (putEngineLane tables lane) _
        (put_quiet tables lane fun taken => ?_)
        (further _ others)
      simp [isOccupied, first] at taken

theorem idleLane_fits (runId : String) (index : Nat) (atTime : String)
    (owned : ∃ run ∈ tables.runs, run.id = runId)
    (below : ∀ run ∈ tables.runs, run.id = runId → index < run.lanes) :
    Fits tables (idleLane runId index atTime) where
  holding := ⟨fun _ => rfl, fun _ => rfl⟩
  owned := owned
  idleBelow := fun _ => below

theorem putOrRetire_takesNone (laned : Laned tables) (lane : EngineLaneRecord)
    (idle : lane.state = .idle) (story : lane.storyId = none)
    (ran : putOrRetireIdleLane host tables lane = .ok after) : TakesNone tables after := by
  simp only [putOrRetireIdleLane, bind_eq_ok, demand_ok] at ran
  obtain ⟨run, found, ran⟩ := ran
  split at ran
  · cases ran
    exact ⟨laned.delete tables lane, delete_quiet tables lane⟩
  · next inside =>
      obtain ⟨-, -, written⟩ := (bind_eq_ok _ _ _).mp ran
      cases written
      have fits : Fits tables lane := by
        refine ⟨⟨fun _ => story, fun _ => idle⟩, ?_, fun _ other listed same => ?_⟩
        · exact ⟨run, engineRun_mem tables lane.runId run found⟩
        · rw [engineRun_unique tables laned lane.runId run other found listed same]
          exact Nat.lt_of_not_le inside
      exact puts_takesNone tables laned [lane] (by simpa using fits) (by simpa using idle)

theorem putLane_takesNone (laned : Laned tables) (old lane : EngineLaneRecord)
    (ran : putLane host tables lane = .ok after) (there : old ∈ tables.lanes)
    (run : lane.runId = old.runId) (index : lane.laneIndex = old.laneIndex)
    (idle : lane.state = .idle ↔ old.state = .idle) (story : lane.storyId = old.storyId)
    (taken : isOccupied lane = true → isOccupied old = true) : TakesNone tables after := by
  rw [putLane_ok host tables after lane ran]
  refine ⟨laned.put tables lane ⟨?_, ?_, ?_⟩, put_quiet tables lane fun held => ?_⟩
  · rw [idle, story]
    exact laned.holding old there
  · rw [run]
    exact laned.owned old there
  · rw [run, index, idle]
    exact laned.idleBelow old there
  · exact ⟨old, there, (sameKey_iff old lane).mpr ⟨run.symm, index.symm⟩, taken held, story.symm⟩

theorem appended_filed (ctx : Ctx) (db written : Database) (filed : Filed db) (story : StoryNo)
    (expected : ExpectedSeq) (events : List StoryEvent) (snapshot : StorySnapshot)
    (ran : appendRestoredAndFold ctx db story expected events = .ok (written, snapshot)) :
    Filed written :=
  (run_writes db written ⟨.ordinary, ctx, story, expected, events⟩ snapshot ran).2.filed _ _ _ _ _
    filed

theorem holdStory_filed (db written : Database) (filed : Filed db) (kind : HardStopKind)
    (id reason : String) (ran : holdStory host db kind id reason = .ok written) :
    Filed written := by
  rw [holdStory] at ran
  split at ran
  · cases ran
    exact filed
  · simp only [bind_eq_ok, Prod.exists] at ran
    obtain ⟨story, row, -, held, snapshot, folded, same⟩ := ran
    cases same
    exact appended_filed host.toCtx db written filed story _ _ snapshot folded

end Writes

section Transactions

variable (host : EngineHost) (tables after : EngineTables)

theorem whileCurrent_ok (lane : EngineLaneRecord) (head : Option Nat)
    (write : Except AppError EngineTables) (applied : Bool)
    (ran : whileCurrent tables lane head write = .ok (after, applied)) :
    applied = false ∧ after = tables ∨
      applied = true ∧ write = .ok after ∧ lane ∈ tables.lanes ∧ lane.storyId ≠ none := by
  simp only [whileCurrent, bind_eq_ok] at ran
  obtain ⟨current, observed, ran⟩ := ran
  split at ran
  · next holds =>
      obtain ⟨written, wrote, same⟩ := (map_eq_ok _ _ _).mp ran
      cases same
      refine Or.inr ⟨rfl, wrote, ?_⟩
      rw [holds, observationIsCurrent] at observed
      split at observed
      · cases observed
      · next there =>
          simp only [Bool.or_eq_true, Bool.not_eq_true', not_or, Bool.not_eq_false] at there
          simp only [bind_eq_ok, demand_ok] at observed
          obtain ⟨id, held, -⟩ := observed
          refine ⟨((mem_engineLanes tables lane lane.runId).mp
            (List.contains_iff_mem.mp there.2)).1, ?_⟩
          rw [held]
          exact Option.some_ne_none id
  · cases ran
    exact Or.inl ⟨rfl, rfl⟩

theorem runForProject_mem (runId : String) (run : EngineRunRecord)
    (found : runForProject tables runId = .ok run) : run ∈ tables.runs ∧ run.id = runId :=
  engineRun_mem tables runId run (runForProject_ok tables runId run found).1

variable (laned : Laned tables)

include laned

theorem recordProgress_takesNone (lane : EngineLaneRecord) (head : Option Nat)
    (probe : WindowProbe) (pass : ReconcilePass) (applied : Bool)
    (ran : recordProgress host tables lane head probe pass = .ok (after, applied)) :
    TakesNone tables after := by
  rcases whileCurrent_ok tables after lane head _ applied ran with
    ⟨-, rfl⟩ | ⟨-, written, there, -⟩
  · exact TakesNone.refl after laned
  · simp only at written
    split at written
    · cases written
      exact TakesNone.refl tables laned
    · exact putLane_takesNone host tables after laned lane _ written there rfl rfl Iff.rfl rfl id

theorem letGo_takesNone (lane : EngineLaneRecord) (head : Option Nat) (outcome : String)
    (applied : Bool) (ran : letGo host tables lane head outcome = .ok (after, applied)) :
    TakesNone tables after := by
  rcases whileCurrent_ok tables after lane head _ applied ran with
    ⟨-, rfl⟩ | ⟨-, written, -, -⟩
  · exact TakesNone.refl after laned
  · exact putOrRetire_takesNone host tables after laned _ rfl rfl written

theorem quarantineLane_takesNone (lane : EngineLaneRecord) (kind : HardStopKind)
    (evidence : QuarantineEvidence) (head : Option Nat) (record : Option EngineQuarantineRecord)
    (ran : quarantineLane host tables lane kind evidence head = .ok (after, record)) :
    TakesNone tables after := by
  simp only [quarantineLane, bind_eq_ok, Prod.exists] at ran
  obtain ⟨written, applied, wrote, same⟩ := ran
  cases same
  rcases whileCurrent_ok tables after lane head _ applied wrote with
    ⟨-, rfl⟩ | ⟨-, write, there, holds⟩
  · exact TakesNone.refl after laned
  · simp only [bind_eq_ok, demand_ok] at write
    obtain ⟨id, held, project, appended, put⟩ := write
    have moved := laned.project tables project
      (holdStory_filed host tables.project project laned.filed kind id _ appended)
    refine moved.trans tables _ after (putLane_takesNone host _ after moved.laned lane _ put there
      rfl rfl ⟨fun idle => ?_, fun idle => ?_⟩ rfl fun taken => ?_)
    · cases idle
    · exact absurd ((laned.holding lane there).mp idle) holds
    · cases taken

theorem clearQuarantinedLane_takesNone (lane : EngineLaneRecord)
    (ran : clearQuarantinedLane host tables lane = .ok after) : TakesNone tables after := by
  simp only [clearQuarantinedLane] at ran
  split at ran
  · cases ran
    exact TakesNone.refl tables laned
  · exact putOrRetire_takesNone host tables after laned _ rfl rfl ran

theorem recordDispatch_takesNone (working : EngineLaneRecord) (payload : DispatchPayload)
    (dispatching : working.state = .dispatching) (applied : Bool)
    (ran : recordDispatch host tables working payload = .ok (after, applied)) :
    TakesNone tables after := by
  rw [recordDispatch] at ran
  split at ran
  · cases ran
    exact TakesNone.refl tables laned
  · next there =>
      simp only [Bool.not_eq_true', Bool.not_eq_false] at there
      simp only [bind_eq_ok] at ran
      obtain ⟨written, put, same⟩ := ran
      cases same
      refine putLane_takesNone host tables after laned working _ put
        ((mem_engineLanes _ _ _).mp (List.contains_iff_mem.mp there)).1 rfl rfl
        ⟨fun idle => ?_, fun idle => ?_⟩ rfl fun _ => ?_
      · cases idle
      · rw [dispatching] at idle
        cases idle
      · rw [isOccupied, dispatching]
        rfl

theorem quarantineRefusedDispatch_takesNone (working : EngineLaneRecord) (diagnosis : String)
    (dispatching : working.state = .dispatching) (held : Bool)
    (ran : quarantineRefusedDispatch host tables working diagnosis = .ok (after, held)) :
    TakesNone tables after := by
  rw [quarantineRefusedDispatch] at ran
  split at ran
  · cases ran
    exact TakesNone.refl tables laned
  · next there =>
      simp only [Bool.not_eq_true', Bool.not_eq_false] at there
      simp only [bind_eq_ok] at ran
      obtain ⟨id, -, ran⟩ := ran
      split at ran
      · obtain ⟨freed, put, same⟩ := (bind_eq_ok _ _ _).mp ran
        cases same
        exact putOrRetire_takesNone host tables after laned _ rfl rfl put
      · next story row found =>
          split at ran
          · obtain ⟨freed, put, same⟩ := (bind_eq_ok _ _ _).mp ran
            cases same
            exact putOrRetire_takesNone host tables after laned _ rfl rfl put
          · simp only [bind_eq_ok, Prod.exists] at ran
            obtain ⟨project, snapshot, folded, ran⟩ := ran
            have moved := laned.project tables project
              (appended_filed _ _ _ laned.filed _ _ _ _ folded)
            refine moved.trans tables _ after ?_
            split at ran
            · obtain ⟨freed, put, same⟩ := (bind_eq_ok _ _ _).mp ran
              cases same
              exact putOrRetire_takesNone host _ after moved.laned _ rfl rfl put
            · obtain ⟨written, put, same⟩ := (bind_eq_ok _ _ _).mp ran
              cases same
              refine putLane_takesNone host _ after moved.laned working _ put
                ((mem_engineLanes _ _ _).mp (List.contains_iff_mem.mp there)).1 rfl rfl
                ⟨fun idle => ?_, fun idle => ?_⟩ rfl fun taken => ?_
              · cases idle
              · rw [dispatching] at idle
                cases idle
              · cases taken

theorem update_takesNone (run next : EngineRunRecord) (listed : run ∈ tables.runs)
    (id : next.id = run.id) (lanes : next.lanes = run.lanes) :
    TakesNone tables (updateEngineRun tables next) := by
  refine laned.update tables next fun lane member idle same => ?_
  rw [lanes]
  exact laned.idleBelow lane member idle run listed (id.symm.trans same)

theorem transition_takesNone (runId : String)
    (mutate : EngineRunRecord → Except AppError EngineRunRecord)
    (kept : ∀ run next, mutate run = .ok next → next.id = run.id ∧ next.lanes = run.lanes)
    (ran : transition host tables runId mutate = .ok after) : TakesNone tables after := by
  simp only [transition, bind_eq_ok, pure_eq_ok] at ran
  obtain ⟨before, found, run, mutated, ran⟩ := ran
  obtain ⟨id, lanes⟩ := kept before run mutated
  split at ran
  · subst ran
    exact TakesNone.refl tables laned
  · subst ran
    exact update_takesNone tables laned before _
      (runForProject_mem tables runId before found).1 id lanes

omit laned in
theorem tripped_kept (run : EngineRunRecord) :
    (tripped run).id = run.id ∧ (tripped run).lanes = run.lanes := by
  rw [tripped]
  split <;> exact ⟨rfl, rfl⟩

theorem applyBreaker_takesNone (runId : String) (completions : Nat)
    (hardStops : List EngineQuarantineRecord)
    (ran : applyBreaker host tables runId completions hardStops = .ok after) :
    TakesNone tables after := by
  refine transition_takesNone host tables after laned runId _ (fun run next mutated => ?_) ran
  cases mutated
  exact tripped_kept (counted run completions hardStops)

theorem pause_takesNone (runId : String) (ran : pause host tables runId = .ok after) :
    TakesNone tables after := by
  refine transition_takesNone host tables after laned runId _ (fun run next mutated => ?_) ran
  obtain ⟨-, -, same⟩ := (bind_eq_ok _ _ _).mp mutated
  cases same
  exact ⟨rfl, rfl⟩

theorem resume_takesNone (runId : String) (ran : resume host tables runId = .ok after) :
    TakesNone tables after := by
  refine transition_takesNone host tables after laned runId _ (fun run next mutated => ?_) ran
  simp only [bind_eq_ok] at mutated
  obtain ⟨-, -, -, -, same⟩ := mutated
  cases same
  exact ⟨rfl, rfl⟩

theorem stopRun_takesNone (runId : String) (ran : stopRun host tables runId = .ok after) :
    TakesNone tables after := by
  refine transition_takesNone host tables after laned runId _ (fun run next mutated => ?_) ran
  obtain ⟨-, -, same⟩ := (bind_eq_ok _ _ _).mp mutated
  cases same
  exact ⟨rfl, rfl⟩

theorem finishIfDrained_takesNone (runId : String)
    (ran : finishIfDrained host tables runId = .ok after) : TakesNone tables after := by
  simp only [finishIfDrained, haltInvalidScope, bind_eq_ok] at ran
  obtain ⟨run, found, ran⟩ := ran
  have listed := (runForProject_mem tables runId run found).1
  split at ran
  · simp only [if_true] at ran
    cases ran
    exact update_takesNone tables laned run _ listed rfl rfl
  · simp only [Bool.false_eq_true, if_false, bind_eq_ok] at ran
    obtain ⟨waiting, -, ran⟩ := ran
    split at ran
    · cases ran
      exact update_takesNone tables laned run _ listed rfl rfl
    · cases ran
      exact TakesNone.refl tables laned

theorem deletes_takesNone (lanes : List EngineLaneRecord) :
    TakesNone tables (lanes.foldl deleteEngineLane tables) ∧
      (lanes.foldl deleteEngineLane tables).runs = tables.runs ∧
      ∀ lane ∈ (lanes.foldl deleteEngineLane tables).lanes,
        lane ∈ tables.lanes ∧ ∀ gone ∈ lanes, lane.sameKey gone = false := by
  induction lanes generalizing tables with
  | nil => exact ⟨TakesNone.refl tables laned, rfl, fun lane member => ⟨member, by simp⟩⟩
  | cons first rest further =>
      obtain ⟨takes, runs, gone⟩ := further (deleteEngineLane tables first)
        (laned.delete tables first)
      refine ⟨TakesNone.trans tables _ _ ⟨laned.delete tables first,
        delete_quiet tables first⟩ takes,
        runs, fun lane member => ?_⟩
      obtain ⟨inside, others⟩ := gone lane member
      obtain ⟨there, apart⟩ := (mem_delete tables first lane).mp inside
      exact ⟨there, List.forall_mem_cons.mpr ⟨apart, others⟩⟩

theorem configure_takesNone (runId : String) (settings : RunSettings)
    (ran : configure host tables runId settings = .ok after) : TakesNone tables after := by
  simp only [configure, bind_eq_ok, pure_eq_ok] at ran
  obtain ⟨run, found, -, -, -, -, filled, added, rfl⟩ := ran
  obtain ⟨listed, named⟩ := runForProject_mem tables runId run found
  obtain ⟨takes, runs, gone⟩ := deletes_takesNone tables laned
    ((engineLanes tables runId).filter fun lane =>
      settings.lanes ≤ lane.laneIndex && lane.state == .idle)
  rw [putLanes_ok host _ filled _ added, puts_update]
  refine takes.trans tables _ _ ?_
  have resized := takes.laned.update _ (withSettings host run settings) (by
    intro lane member idle same
    obtain ⟨there, apart⟩ := gone lane member
    by_contra outside
    have surplus : lane ∈ (engineLanes tables runId).filter fun lane =>
        settings.lanes ≤ lane.laneIndex && lane.state == .idle := by
      rw [List.mem_filter, mem_engineLanes, Bool.and_eq_true, decide_eq_true_iff, beq_iff_eq]
      exact ⟨⟨there, same.symm.trans named⟩, Nat.le_of_not_lt outside, idle⟩
    have clear := apart lane surplus
    rw [(sameKey_iff lane lane).mpr ⟨rfl, rfl⟩] at clear
    cases clear)
  refine resized.trans _ _ _ (puts_takesNone _ resized.laned _ ?_ ?_)
  · intro lane member
    obtain ⟨index, place, rfl⟩ := List.mem_map.mp member
    refine idleLane_fits _ runId index host.now
      ⟨_, update_mem _ (withSettings host run settings) run (runs ▸ listed) rfl, named⟩ ?_
    intro next member same
    rcases mem_update _ _ next member with rfl | ⟨-, apart⟩
    · exact List.mem_range.mp (List.mem_filter.mp place).1
    · exact absurd (same.trans named.symm) apart
  · intro lane member
    obtain ⟨index, -, rfl⟩ := List.mem_map.mp member
    rfl

theorem startRun_takesNone (runId : String) (scope : EngineScope) (settings : RunSettings)
    (ran : startRun host tables runId scope settings = .ok after) : TakesNone tables after := by
  simp only [startRun, createEngineRun, bind_eq_ok, pure_eq_ok, refuse_ok] at ran
  obtain ⟨-, -, -, -, -, -, -, -, created, ⟨-, fresh, -, -, rfl⟩, added⟩ := ran
  have unused : ∀ run ∈ tables.runs, run.id ≠ runId := by
    intro run listed same
    rw [List.any_eq_false] at fresh
    exact fresh run listed (beq_iff_eq.mpr same)
  rw [putLanes_ok host _ after _ added]
  have begun : Laned { tables with
      runs := tables.runs ++ [newRun host tables.slug runId scope settings] } := {
    filed := laned.filed
    keyed := laned.keyed
    holding := laned.holding
    owned := by
      intro lane member
      obtain ⟨run, listed, same⟩ := laned.owned lane member
      exact ⟨run, List.mem_append_left _ listed, same⟩
    ids := by
      rw [List.map_append, List.map_singleton, List.nodup_append]
      refine ⟨laned.ids, List.nodup_singleton _, ?_⟩
      intro id old other new same
      obtain ⟨run, listed, rfl⟩ := List.mem_map.mp old
      rw [List.mem_singleton.mp new] at same
      exact unused run listed same
    idleBelow := by
      intro lane member idle run listed same
      rcases List.mem_append.mp listed with old | new
      · exact laned.idleBelow lane member idle run old same
      · obtain rfl := List.mem_singleton.mp new
        obtain ⟨owner, there, named⟩ := laned.owned lane member
        exact absurd (named.trans same.symm) (unused owner there) }
  refine TakesNone.trans tables _ _ ⟨begun, Quiet.refl tables⟩ (puts_takesNone _ begun _ ?_ ?_)
  · intro lane member
    obtain ⟨index, place, rfl⟩ := List.mem_map.mp member
    refine idleLane_fits _ runId index host.now
      ⟨_, List.mem_append_right _ (List.mem_singleton_self _), rfl⟩ ?_
    intro run listed same
    rcases List.mem_append.mp listed with old | new
    · exact absurd same (unused run old)
    · rw [List.mem_singleton.mp new]
      exact List.mem_range.mp place
  · intro lane member
    obtain ⟨index, -, rfl⟩ := List.mem_map.mp member
    rfl

end Transactions

end Storyhook.Service
