import Storyhook.Service.EngineLaneSteps

/-! What a claim or an adoption makes of the lanes it takes. -/

namespace Storyhook.Service

open Storyhook.Domain Storyhook.Store
open Library Library.Outcome

/-- A claim that took a lane: the slot, and the story at the head of the ready queue. -/
structure Claims (host : EngineHost) (tables after : EngineTables) (run : EngineRunRecord)
    (slot lane : EngineLaneRecord) (candidate : StoryView) (story : StoryNo)
    (project : Database) : Prop where
  found : runForProject tables run.id = .ok run
  running : run.state = .running
  unblocked : host.blocksAdmission tables = false
  available : scopeIsAvailable tables.project run.scope = true
  offered : ∃ rest, (laneAdmission tables.project run (engineLanes tables run.id) host.now).slots =
    slot :: rest
  ready : ∃ rest, nextFiltered host tables.project run.scope.storyId [labelNoAuto] =
    .ok (candidate :: rest)
  named : candidate.story.id = toId tables.project.idPrefix story
  wrote : ∃ events snapshot, Wrote tables.project project story events snapshot
  runId : lane.runId = slot.runId
  laneIndex : lane.laneIndex = slot.laneIndex
  state : lane.state = .dispatching
  storyId : lane.storyId = some candidate.story.id
  written : after = putEngineLane { tables with project := project } lane

theorem claimLane_ok (host : EngineHost) (tables after : EngineTables) (runId : String)
    (taken : Option EngineLaneRecord) (ran : claimLane host tables runId = .ok (after, taken)) :
    taken = none ∧ after = tables ∨ ∃ run slot lane candidate story project,
      taken = some lane ∧ run.id = runId ∧
        Claims host tables after run slot lane candidate story project := by
  simp only [claimLane, bind_eq_ok] at ran
  obtain ⟨run, found, ran⟩ := ran
  have named := (runForProject_mem tables runId run found).2
  subst named
  split at ran
  · cases ran
    exact Or.inl ⟨rfl, rfl⟩
  · next admits =>
      simp only [Bool.or_eq_true, bne_iff_ne, not_or, not_not, Bool.not_eq_true'] at admits
      split at ran
      · cases ran
        exact Or.inl ⟨rfl, rfl⟩
      · next slot rest offered =>
          simp only [bind_eq_ok, demand_ok] at ran
          obtain ⟨active, -, queue, ready, ran⟩ := ran
          split at ran
          · cases ran
            exact Or.inl ⟨rfl, rfl⟩
          · next candidate others =>
              simp only [bind_eq_ok, Prod.exists] at ran
              obtain ⟨story, row, resolved, project, snapshot, folded, written, put, same⟩ := ran
              cases same
              simp only [resolveOpenStory, bind_eq_ok] at resolved
              obtain ⟨⟨no, stored⟩, known, _, -, same⟩ := resolved
              cases same
              have id := (resolveStory_some _ _ _ _ known).1
              have wrote := (run_writes tables.project project ⟨.ordinary, host.toCtx, story, _, _⟩
                snapshot folded).2
              have same : snapshot.id = candidate.story.id := by
                obtain ⟨_, _, _, _, _, _, _, _, _, shape⟩ := (finishFold_ok _ _ _ _).mp wrote.folded
                rw [shape, id]
                rfl
              exact Or.inr ⟨run, slot, _, candidate, story, project, rfl, rfl, {
                found := found
                running := admits.1.1
                unblocked := Bool.eq_false_iff.mpr admits.1.2
                available := (Bool.not_eq_false _).mp admits.2
                offered := ⟨rest, offered⟩
                ready := ⟨others, ready⟩
                named := id
                wrote := ⟨_, snapshot, wrote⟩
                runId := rfl
                laneIndex := rfl
                state := rfl
                storyId := congrArg some same
                written := putLane_ok host _ after _ put }⟩

theorem admitted_vacant (tables : EngineTables) (laned : Laned tables) (run : EngineRunRecord)
    (found : runForProject tables run.id = .ok run) (atTime : String) (slot : EngineLaneRecord)
    (offered : slot ∈ (laneAdmission tables.project run (engineLanes tables run.id) atTime).slots) :
    slot.runId = run.id ∧ slot.laneIndex < 2 * run.lanes ∧
      ∀ old ∈ tables.lanes, old.sameKey slot = true → old.state = .idle := by
  obtain ⟨listed, -⟩ := runForProject_mem tables run.id run found
  have inside : slot ∈ vacantLanes run (engineLanes tables run.id) atTime := by
    rcases admissionFrom_cases run (engineLanes tables run.id) atTime
      (laneOccupancy tables.project (engineLanes tables run.id)) with empty | ⟨-, -, slots⟩
    · rw [laneAdmission, empty] at offered
      cases offered
    · rw [laneAdmission, slots] at offered
      exact List.mem_of_mem_take offered
  obtain ⟨idle, there | ⟨named, within, unused⟩⟩ := vacantLanes_mem _ _ _ slot inside
  · obtain ⟨member, named⟩ := (mem_engineLanes tables slot run.id).mp there
    have below := laned.idleBelow slot member idle run listed named.symm
    refine ⟨named, by omega, fun old held same => ?_⟩
    rw [keyed_unique tables laned old slot held member same]
    exact idle
  · refine ⟨named, within, fun old held same => ?_⟩
    rw [sameKey_iff] at same
    exact absurd same.2 (unused old ((mem_engineLanes tables old run.id).mpr
      ⟨held, same.1.trans named⟩))

section Counts

variable (tables : EngineTables)

theorem occupancy_total (db : Database) (lanes : List EngineLaneRecord) :
    (laneOccupancy db lanes).active + (laneOccupancy db lanes).verifying.length =
      lanes.countP isOccupied := by
  rw [laneOccupancy, List.length_map, ← List.countP_eq_length_filter]
  induction lanes with
  | nil => rfl
  | cons lane rest further =>
      simp only [List.countP_cons] at further ⊢
      cases isOccupied lane <;> cases handedOff db lane <;> simp <;> omega

theorem countP_puts (wanted : EngineLaneRecord → Bool) (runId : String)
    (lanes : List EngineLaneRecord) :
    (engineLanes (lanes.foldl putEngineLane tables) runId).countP wanted ≤
      (engineLanes tables runId).countP wanted + lanes.length := by
  induction lanes generalizing tables with
  | nil => exact Nat.le_refl _
  | cons lane rest further =>
      have later := further (putEngineLane tables lane)
      have first : (engineLanes (putEngineLane tables lane) runId).countP wanted ≤
          (engineLanes tables runId).countP wanted + 1 := by
        simp only [engineLanes, List.countP_filter]
        rw [countP_put]
        have fewer : (deleteEngineLane tables lane).lanes.countP
            (fun other => wanted other && other.runId == runId) ≤
              tables.lanes.countP fun other => wanted other && other.runId == runId :=
          List.Sublist.countP_le List.filter_sublist
        split <;> omega
      rw [List.foldl_cons, List.length_cons]
      omega

end Counts

section Claims

variable (host : EngineHost) (tables after : EngineTables) (run : EngineRunRecord)
  (slot lane : EngineLaneRecord) (candidate : StoryView) (story : StoryNo) (project : Database)
  (laned : Laned tables) (claims : Claims host tables after run slot lane candidate story project)

include laned claims

theorem Claims.vacant : slot.runId = run.id ∧ slot.laneIndex < 2 * run.lanes ∧
    ∀ old ∈ tables.lanes, old.sameKey slot = true → old.state = .idle := by
  obtain ⟨rest, offered⟩ := claims.offered
  exact admitted_vacant tables laned run claims.found host.now slot
    (offered ▸ List.mem_cons_self)

theorem Claims.stillHandedOff (other : EngineLaneRecord)
    (before : handedOff tables.project other = true) :
    handedOff project other = true := by
  obtain ⟨rest, ready⟩ := claims.ready
  obtain ⟨events, snapshot, wrote⟩ := claims.wrote
  obtain ⟨no, claimed, stored, id, offers⟩ :=
    nextFiltered_stored host tables.project laned.filed _ _
    _ ready candidate List.mem_cons_self
  obtain rfl := toId_injective _ _ _ (claims.named.symm.trans id)
  obtain ⟨row, found, handed⟩ := (Option.any_eq_true _ _).mp before
  obtain ⟨storyId, holds, resolved⟩ := Option.bind_eq_some_iff.mp found
  obtain ⟨other, named, there⟩ := optionalLaneStory_some tables.project storyId row resolved
  have apart : story ≠ other := by
    rintro rfl
    rw [stored, Option.some.injEq] at there
    rw [there, handed] at offers
    cases offers
  have kept : optionalLaneStory project storyId = some row := by
    rw [← resolved, optionalLaneStory, optionalLaneStory, resolveStory, resolveStory,
      wrote.idPrefix, named]
    cases parsed : parseId tables.project.idPrefix (toId tables.project.idPrefix other) with
    | error failure => rfl
    | ok same =>
        obtain rfl := toId_injective _ _ _ ((parseId_ok _ _ _).mp parsed).1
        simp only
        rw [wrote.row_elsewhere _ _ _ _ _ _ apart]
  rw [handedOff, holds, Option.bind_some, kept]
  exact handed

theorem Claims.keepsLaned : Laned after := by
  obtain ⟨events, snapshot, wrote⟩ := claims.wrote
  obtain ⟨named, -, -⟩ := Claims.vacant host tables after run slot lane candidate story project laned
    claims
  have moved := (laned.project tables project (wrote.filed _ _ _ _ _ laned.filed)).laned
  rw [claims.written]
  refine moved.put _ lane ⟨⟨fun idle => ?_, fun none => ?_⟩, ?_, fun idle => ?_⟩
  · rw [claims.state] at idle
    cases idle
  · rw [claims.storyId] at none
    cases none
  · exact ⟨run, (runForProject_mem tables run.id run claims.found).1,
      named.symm.trans claims.runId.symm⟩
  · rw [claims.state] at idle
    cases idle

theorem Claims.capacity :
    (laneOccupancy after.project (engineLanes after run.id)).active ≤ run.lanes ∧
      (laneOccupancy after.project (engineLanes after run.id)).active +
        (laneOccupancy after.project (engineLanes after run.id)).verifying.length ≤
          2 * run.lanes := by
  obtain ⟨rest, offered⟩ := claims.offered
  rcases admissionFrom_cases run (engineLanes tables run.id) host.now
    (laneOccupancy tables.project (engineLanes tables run.id)) with empty | ⟨room, backlog, -⟩
  · rw [laneAdmission, empty] at offered
    cases offered
  · have before := occupancy_total tables.project (engineLanes tables run.id)
    have total := countP_puts { tables with project := project } isOccupied run.id [lane]
    have active := countP_puts { tables with project := project }
      (fun other => isOccupied other && !handedOff project other) run.id [lane]
    have fewer : (engineLanes tables run.id).countP
        (fun other => isOccupied other && !handedOff project other) ≤
          (laneOccupancy tables.project (engineLanes tables run.id)).active := by
      refine List.countP_mono_left fun other _ working => ?_
      rw [Bool.and_eq_true, Bool.not_eq_true'] at working ⊢
      refine ⟨working.1, ?_⟩
      by_contra handed
      rw [Bool.not_eq_false] at handed
      have still := Claims.stillHandedOff host tables after run slot lane candidate story project laned
        claims other handed
      rw [working.2] at still
      cases still
    rw [claims.written]
    have after := occupancy_total project
      (engineLanes (putEngineLane { tables with project := project } lane) run.id)
    have same : (laneOccupancy project (engineLanes (putEngineLane
        { tables with project := project } lane) run.id)).active =
          (engineLanes (putEngineLane { tables with project := project } lane) run.id).countP
            fun other => isOccupied other && !handedOff project other := rfl
    simp only [List.foldl_cons, List.foldl_nil, List.length_singleton] at total active
    simp only [engineLanes] at *
    constructor
    · exact Nat.le_trans (same ▸ active) (by omega)
    · exact Nat.le_trans (Nat.le_of_eq after) (by omega)

theorem Claims.distinct (distinct : Distinct tables)
    (unheld : ∀ other ∈ engineLanes tables run.id, isOccupied other = true →
      other.storyId ≠ some candidate.story.id) : Distinct after := by
  obtain ⟨named, -, -⟩ := Claims.vacant host tables after run slot lane candidate story project laned
    claims
  have elsewhere (other : EngineLaneRecord) (member : other ∈ tables.lanes)
      (same : other.runId = lane.runId) (held : isOccupied other = true) :
      other.storyId ≠ lane.storyId := by
    rw [claims.storyId]
    exact unheld other ((mem_engineLanes tables other run.id).mpr
      ⟨member, same.trans (claims.runId.trans named)⟩) held
  rw [claims.written]
  intro one first other second same oneHeld otherHeld story
  rcases (mem_put _ lane one).mp first with oneNew | ⟨oneThere, -⟩ <;>
    rcases (mem_put _ lane other).mp second with otherNew | ⟨otherThere, -⟩
  · rw [oneNew, otherNew]
  · rw [oneNew] at same story
    exact absurd story.symm (elsewhere other otherThere same.symm otherHeld)
  · rw [otherNew] at same story
    exact absurd story (elsewhere one oneThere same oneHeld)
  · exact distinct one oneThere other otherThere same oneHeld otherHeld story

end Claims

theorem zip_sublist {α β : Type} (left : List α) (right : List β) :
    ((left.zip right).map (·.1)).Sublist left ∧ ((left.zip right).map (·.2)).Sublist right := by
  induction left generalizing right with
  | nil => exact ⟨List.nil_sublist _, List.nil_sublist _⟩
  | cons first rest further =>
      cases right with
      | nil => exact ⟨List.nil_sublist _, List.nil_sublist _⟩
      | cons other others =>
          obtain ⟨fewer, less⟩ := further others
          exact ⟨fewer.cons_cons first, less.cons_cons other⟩

section Adoption

variable (host : EngineHost) (tables after : EngineTables) (runId : String)

theorem eligible_apart (run : EngineRunRecord) (ids : List String) (rows : List StoryRow)
    (ran : eligible host tables run ids = .ok rows) : (rows.map (·.snapshot.id)).Nodup := by
  simp only [eligible, bind_eq_ok] at ran
  obtain ⟨-, -, -, -, ran⟩ := ran
  refine foldlM_ok _ (fun _ rows => (rows.map (·.snapshot.id)).Nodup) ids ?_ [] rows
    List.nodup_nil ran
  intro done id rest before next _ apart checked
  simp only [checkEligible, bind_eq_ok, refuse_ok, pure_eq_ok, Prod.exists] at checked
  obtain ⟨no, row, -, -, fresh, -, -, -, -, rfl⟩ := checked
  rw [List.map_append, List.map_singleton, List.nodup_append]
  refine ⟨apart, List.nodup_singleton _, ?_⟩
  intro name old other new same
  obtain ⟨earlier, listed, rfl⟩ := List.mem_map.mp old
  rw [List.mem_singleton.mp new] at same
  rw [List.any_eq_false] at fresh
  exact fresh earlier listed (beq_iff_eq.mpr same)

theorem boundLane_none (run : EngineRunRecord) (found : runForProject tables runId = .ok run)
    (row : StoryRow) (dispatch : InspectedDispatch)
    (ran : boundLane tables runId row dispatch = .ok none) (lane : EngineLaneRecord)
    (member : lane ∈ engineLanes tables runId) : lane.storyId ≠ some row.snapshot.id := by
  obtain ⟨known, slug⟩ := runForProject_ok tables runId run found
  obtain ⟨listed, named⟩ := engineRun_mem tables runId run known
  have inside : lane ∈ (tables.runs.filter (·.projectSlug == tables.slug)).flatMap
      fun run => engineLanes tables run.id := by
    rw [List.mem_flatMap]
    exact ⟨run, List.mem_filter.mpr ⟨listed, beq_iff_eq.mpr slug⟩, named ▸ member⟩
  refine foldlM_ok _ (fun done (bound : Option EngineLaneRecord) => bound = none →
    ∀ lane ∈ done, lane.storyId ≠ some row.snapshot.id) _ ?_ none none ?_ ran rfl lane inside
  · intro done next rest before bound _ earlier stepped none
    split at stepped
    · obtain ⟨-, -, same⟩ := (bind_eq_ok _ _ _).mp stepped
      rw [none] at same
      cases same
    · next apart =>
        rw [pure_eq_ok] at stepped
        intro other listed
        rcases List.mem_append.mp listed with old | new
        · exact earlier (stepped.trans none) other old
        · rw [List.mem_singleton.mp new]
          exact fun same => apart (beq_iff_eq.mpr same)
  · intro _ lane member
    cases member

theorem additionsTo_ok (run : EngineRunRecord) (found : runForProject tables runId = .ok run)
    (pairs additions : List (StoryRow × InspectedDispatch))
    (ran : additionsTo tables runId pairs = .ok additions) : additions.Sublist pairs ∧
      ∀ pair ∈ additions, ∀ lane ∈ engineLanes tables runId,
        lane.storyId ≠ some pair.1.snapshot.id := by
  refine foldlM_ok _ (fun done (additions : List (StoryRow × InspectedDispatch)) =>
    additions.Sublist done ∧ ∀ pair ∈ additions, ∀ lane ∈ engineLanes tables runId,
      lane.storyId ≠ some pair.1.snapshot.id) pairs ?_ [] additions
    ⟨List.Sublist.refl _, fun pair member => by cases member⟩ ran
  rintro done pair rest before next - ⟨fewer, unheld⟩ stepped
  simp only [bind_eq_ok, pure_eq_ok] at stepped
  obtain ⟨existing, bound, rfl⟩ := stepped
  cases existing with
  | some lane => exact ⟨fewer.trans (List.sublist_append_left done [pair]), unheld⟩
  | none =>
      refine ⟨fewer.append (List.Sublist.refl [pair]), fun other member => ?_⟩
      rcases List.mem_append.mp member with old | new
      · exact unheld other old
      · rw [List.mem_singleton.mp new]
        exact boundLane_none tables runId run found pair.1 pair.2 bound

/-- An adoption: lanes put into slots of the run, for stories that none of its lanes holds. -/
structure Adopts (run : EngineRunRecord) (lanes : List EngineLaneRecord) : Prop where
  found : runForProject tables run.id = .ok run
  slots : ∃ slots : List EngineLaneRecord,
    slots.Sublist (laneAdmission tables.project run (engineLanes tables run.id) host.now).slots ∧
      lanes.map (·.laneIndex) = slots.map (·.laneIndex)
  working : ∀ lane ∈ lanes, lane.runId = run.id ∧ lane.state = .working ∧ lane.storyId ≠ none
  apart : (lanes.map (·.storyId)).Nodup
  unheld : ∀ lane ∈ lanes, ∀ other ∈ engineLanes tables run.id, other.storyId ≠ lane.storyId
  written : after = if lanes.isEmpty then tables
    else updateEngineRun (lanes.foldl putEngineLane tables) { run with updatedAt := host.now }

theorem adopt_ok (ids : List String) (before : List StoryRow) (found : List InspectedDispatch)
    (lanes : List EngineLaneRecord)
    (ran : adopt host tables runId ids before found = .ok (after, lanes)) :
    ∃ run, run.id = runId ∧ Adopts host tables after run lanes := by
  simp only [adopt, bind_eq_ok, refuse_ok, pure_eq_ok] at ran
  obtain ⟨-, -, -, -, run, known, current, checked, -, -, additions, gathered, -, room,
    written, put,
    same⟩ := ran
  obtain ⟨rfl, rfl⟩ := Prod.mk.inj same
  have named := (runForProject_mem tables runId run known).2
  subst named
  obtain ⟨fewer, unheld⟩ := additionsTo_ok tables run.id run known _ additions gathered
  obtain ⟨taken, slots⟩ := zip_sublist additions
    (laneAdmission tables.project run (engineLanes tables run.id) host.now).slots
  refine ⟨run, rfl, known, ⟨_, slots, ?_⟩, ?_, ?_, ?_, ?_⟩
  · rw [List.map_map, List.map_map]
    rfl
  · intro lane member
    obtain ⟨pair, -, rfl⟩ := List.mem_map.mp member
    exact ⟨rfl, rfl, Option.some_ne_none _⟩
  · have stories : (additions.map fun pair => some pair.1.snapshot.id).Nodup := by
      have rows : (additions.map (·.1)).Sublist current :=
        (fewer.map _).trans (zip_sublist current found).1
      have ids := (eligible_apart host tables run ids current checked).sublist (rows.map _)
      rw [List.map_map] at ids
      have spelled : (additions.map fun pair => some pair.1.snapshot.id) =
          (additions.map fun pair => pair.1.snapshot.id).map some := by
        rw [List.map_map]
        rfl
      rw [spelled]
      exact ids.map (Option.some_injective _)
    rw [List.map_map]
    refine List.Nodup.sublist ?_ stories
    have shorter := taken.map fun pair : StoryRow × InspectedDispatch => some pair.1.snapshot.id
    rw [List.map_map] at shorter
    exact shorter
  · intro lane member other held
    obtain ⟨pair, listed, rfl⟩ := List.mem_map.mp member
    exact unheld pair.1 (List.of_mem_zip listed).1 other held
  · rw [putLanes_ok host tables written _ put]
    cases zipped : (additions.zip (laneAdmission tables.project run
      (engineLanes tables run.id) host.now).slots).map (fun entry =>
        adoptedLane host run.id entry.1.1 entry.1.2 entry.2) <;> rfl

variable (run : EngineRunRecord) (lanes : List EngineLaneRecord) (laned : Laned tables)
  (adopts : Adopts host tables after run lanes)

include laned adopts

theorem Adopts.vacant (lane : EngineLaneRecord) (member : lane ∈ lanes) :
    lane.laneIndex < 2 * run.lanes ∧
      ∀ old ∈ tables.lanes, old.sameKey lane = true → old.state = .idle := by
  obtain ⟨slots, offered, places⟩ := adopts.slots
  have placed : lane.laneIndex ∈ slots.map (·.laneIndex) :=
    places ▸ List.mem_map_of_mem member
  obtain ⟨slot, listed, index⟩ := List.mem_map.mp placed
  obtain ⟨named, within, idle⟩ := admitted_vacant tables laned run adopts.found host.now slot
    (offered.subset listed)
  refine ⟨index ▸ within, fun old held same => idle old held ?_⟩
  rw [sameKey_iff] at same ⊢
  exact ⟨same.1.trans ((adopts.working lane member).1.trans named.symm), same.2.trans index.symm⟩

omit laned in
theorem Adopts.fits (lane : EngineLaneRecord) (member : lane ∈ lanes) : Fits tables lane := by
  obtain ⟨named, working, holds⟩ := adopts.working lane member
  refine ⟨⟨fun idle => ?_, fun none => absurd none holds⟩, ?_, fun idle => ?_⟩
  · rw [working] at idle
    cases idle
  · exact ⟨run, (runForProject_mem tables run.id run adopts.found).1, named.symm⟩
  · rw [working] at idle
    cases idle

theorem Adopts.keepsLaned : Laned after := by
  rw [adopts.written]
  split
  · exact laned
  · have written := puts_laned tables laned lanes
      (Adopts.fits host tables after run lanes adopts)
    refine (update_takesNone _ written run { run with updatedAt := host.now } ?_ rfl rfl).laned
    rw [puts_runs]
    exact (runForProject_mem tables run.id run adopts.found).1

omit laned in
theorem Adopts.lanes_eq : after.lanes = (lanes.foldl putEngineLane tables).lanes := by
  rw [adopts.written]
  cases lanes <;> rfl

omit laned in
theorem Adopts.project_eq : after.project = tables.project := by
  rw [adopts.written]
  cases lanes with
  | nil => rfl
  | cons lane rest => exact puts_project _ _

omit laned in
theorem Adopts.distinct (distinct : Distinct tables) : Distinct after := by
  have elsewhere (lane : EngineLaneRecord) (member : lane ∈ lanes) (other : EngineLaneRecord)
      (there : other ∈ tables.lanes) (same : other.runId = lane.runId) :
      other.storyId ≠ lane.storyId :=
    adopts.unheld lane member other ((mem_engineLanes tables other run.id).mpr
      ⟨there, same.trans (adopts.working lane member).1⟩)
  intro one first other second same oneHeld otherHeld story
  rw [Adopts.lanes_eq host tables after run lanes adopts] at first second
  rcases mem_puts tables lanes one first with oneNew | oneThere <;>
    rcases mem_puts tables lanes other second with otherNew | otherThere
  · rw [List.inj_on_of_nodup_map adopts.apart oneNew otherNew story]
  · exact absurd story.symm (elsewhere one oneNew other otherThere same.symm)
  · exact absurd story (elsewhere other otherNew one oneThere same)
  · exact distinct one oneThere other otherThere same oneHeld otherHeld story

omit laned in
theorem Adopts.capacity (some : lanes ≠ []) :
    (laneOccupancy after.project (engineLanes after run.id)).active ≤ run.lanes ∧
      (laneOccupancy after.project (engineLanes after run.id)).active +
        (laneOccupancy after.project (engineLanes after run.id)).verifying.length ≤
          2 * run.lanes := by
  obtain ⟨slots, offered, places⟩ := adopts.slots
  have fewer : lanes.length ≤ slots.length := by
    have same := congrArg List.length places
    rw [List.length_map, List.length_map] at same
    exact Nat.le_of_eq same
  have positive := List.length_pos_of_ne_nil some
  have offer := offered.length_le
  rcases admissionFrom_cases run (engineLanes tables run.id) host.now
    (laneOccupancy tables.project (engineLanes tables run.id)) with empty | ⟨room, backlog, taken⟩
  · rw [laneAdmission, empty, List.length_nil] at offer
    omega
  · rw [laneAdmission, taken, List.length_take] at offer
    have before := occupancy_total tables.project (engineLanes tables run.id)
    have total := countP_puts tables isOccupied run.id lanes
    have active := countP_puts tables
      (fun other => isOccupied other && !handedOff tables.project other) run.id lanes
    have now : engineLanes after run.id = engineLanes
      (lanes.foldl putEngineLane tables) run.id := by
      rw [engineLanes, engineLanes, Adopts.lanes_eq host tables after run lanes adopts]
    rw [now, Adopts.project_eq host tables after run lanes adopts]
    have later := occupancy_total tables.project
      (engineLanes (lanes.foldl putEngineLane tables) run.id)
    simp only [laneOccupancy] at before later room backlog offer ⊢
    omega

end Adoption

end Storyhook.Service
