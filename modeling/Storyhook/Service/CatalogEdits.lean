import Mathlib.Data.List.Nodup
import Storyhook.Domain.ProjectedStates
import Storyhook.Service.Rows

/-! What the edits of a state catalog leave of the read model. -/

namespace Storyhook.Service

open Storyhook.Domain Storyhook.Store
open Library Library.Outcome

inductive CatalogEdit where
  | add (slug : String) (superstate : SuperState) (role description : Option String)
  | update (slug : String) (changes : StateChanges) (moveStoriesTo : Option String)
  | remove (slug : String) (moveStoriesTo : Option String)
  | reorder (order : List String)
  deriving DecidableEq, Repr

def CatalogEdit.run (ctx : Ctx) (db : Database) : CatalogEdit → Except AppError Database
  | .add slug superstate role description =>
      (addState db slug superstate role description).map (·.1)
  | .update slug changes moveStoriesTo => (updateState ctx db slug changes moveStoriesTo).map (·.1)
  | .remove slug moveStoriesTo => (removeState ctx db slug moveStoriesTo).map (·.1)
  | .reorder order => (reorderStates db order).map (·.1)

theorem missingRequired_none (states : List StateDef) (required : List RequiredState)
    (missing : missingRequired states required = .ok []) :
    ∀ one ∈ required, ∃ found, states.find? (·.slug == one.slug) = some found ∧
      found.superState = one.superState := by
  induction required with
  | nil => simp
  | cons first rest ih =>
      rw [missingRequired] at missing
      rw [List.forall_mem_cons]
      split at missing
      · obtain ⟨later, -, listed⟩ := (map_eq_ok _ _ _).mp missing
        cases listed
      · next found located =>
          simp only [bind_eq_ok, refuse_ok] at missing
          obtain ⟨-, same, later⟩ := missing
          exact ⟨⟨found, located, by simpa using same⟩, ih later⟩

theorem validateRequiredStates_conforming (states : List StateDef)
    (distinct : (states.map StateDef.slug).Nodup)
    (unused : ∀ state ∈ states, state.slug ≠ "closed") (done : Unit)
    (valid : validateRequiredStates states = .ok done) : Conforming (stateMap states) := by
  simp only [validateRequiredStates, bind_eq_ok] at valid
  obtain ⟨missing, required, rest⟩ := valid
  split at rest
  · next nothing =>
      rw [List.isEmpty_iff] at nothing
      subst nothing
      obtain ⟨found, located, closed⟩ := missingRequired_none states _ required
        ⟨droppedStateSlug, .closed⟩ (by simp [requiredStates])
      have named : found.slug = droppedStateSlug := by simpa using List.find?_some located
      have known := stateMap_of_mem states distinct found (List.mem_of_find?_eq_some located)
      refine ⟨by rw [← named, known, Option.map_some, closed], ?_⟩
      rw [Option.eq_none_iff_forall_ne_some]
      intro legacy listed
      obtain ⟨member, spelled⟩ := stateMap_some states "closed" legacy listed
      exact unused legacy member spelled
  · cases rest

/-- A catalog whose slugs are distinct and that has no `closed`. -/
structure Spelled (states : List StateDef) : Prop where
  distinct : (states.map StateDef.slug).Nodup
  unused : ∀ state ∈ states, state.slug ≠ "closed"

theorem Sound.spelled (allowed : Allowance) (db : Database) (sound : Sound allowed db) :
    Spelled db.states where
  distinct := sound.distinct
  unused := by
    intro state member spelled
    have known := stateMap_of_mem db.states sound.distinct state member
    rw [spelled, sound.conforming.retired] at known
    cases known

theorem Rows.catalog (allowed : Allowance) (db : Database) (states : List StateDef)
    (rows : Rows allowed db) : Rows allowed { db with states } :=
  ⟨rows.told, rows.mirrored, rows.named, rows.logged, rows.allocated⟩

theorem commit_known (db after : Database) (committed : commit db = .ok after)
    (distinct : (db.states.map StateDef.slug).Nodup) (no : StoryNo) (row : StoryRow)
    (stored : db.stories[no]? = some row) :
    ((stateMap db.states)[row.state]?).map StateDef.superState = some row.superstate := by
  unfold commit at committed
  split at committed
  · next fine =>
      rw [Bool.and_eq_true, List.all_eq_true, List.all_eq_true] at fine
      have listed := fine.2 (no, row) (Std.TreeMap.mem_toList_iff_getElem?_eq_some.mpr stored)
      obtain ⟨definition, member, same⟩ := List.any_eq_true.mp listed
      simp only [Bool.and_eq_true, beq_iff_eq] at same
      rw [← same.1, stateMap_of_mem db.states distinct definition member, Option.map_some, same.2]
  · cases committed

theorem commit_sound (allowed : Allowance) (db after : Database) (rows : Rows allowed db)
    (spelled : Spelled db.states) (conforming : Conforming (stateMap db.states))
    (committed : commit db = .ok after) : Sound allowed after := by
  have known := commit_known db after committed spelled.distinct
  obtain rfl := commit_ok db after committed
  refine ⟨rows, conforming, spelled.distinct, ?_⟩
  intro no row stored
  have columns := rows.columns no row stored
  rw [Known, ← columns.state, ← columns.superstate]
  exact known no row stored

theorem writeStates_ok (db after : Database) (states : List StateDef)
    (written : writeStates db states = .ok after) :
    after = { db with states } ∧ ∃ done, validateRequiredStates states = .ok done := by
  simp only [writeStates, bind_eq_ok, pure_eq_ok] at written
  obtain ⟨done, valid, rfl⟩ := written
  exact ⟨rfl, done, valid⟩

theorem Known.agrees (states : List StateDef) (distinct : (states.map StateDef.slug).Nodup)
    (snapshot : StorySnapshot) (known : Known (stateMap states) snapshot) :
    Agrees states (snapshot.state, snapshot.superstate) := by
  intro definition found
  rw [Known, stateMap_find states distinct, found, Option.map_some, Option.some.injEq] at known
  exact known.symm

section Effective

variable (allowed : Allowance) (db : Database) (sound : Sound allowed db)

include sound

theorem Sound.entries_apart : ((db.stories.toList.map fun entry =>
    (entry.2.snapshot.id, entry.2.snapshot)).map (·.1)).Nodup := by
  have spelled : (db.stories.toList.map fun entry =>
      (entry.2.snapshot.id, entry.2.snapshot)).map (·.1) = db.stories.keys.map
        (toId db.idPrefix) := by
    rw [← Std.TreeMap.map_fst_toList_eq_keys, List.map_map, List.map_map]
    apply List.map_congr_left
    intro entry member
    exact sound.named entry.1 entry.2 (Std.TreeMap.mem_toList_iff_getElem?_eq_some.mp member)
  rw [spelled]
  exact List.Nodup.map (toId_injective db.idPrefix) Std.TreeMap.nodup_keys

theorem Sound.effective (no : StoryNo) (row : StoryRow) (stored : db.stories[no]? = some row) :
    ∃ effective : StorySnapshot, (storyMap db)[row.snapshot.id]? = some effective ∧
      (effective.state = row.snapshot.state ∨ isEpic row.snapshot = true) ∧
        Agrees db.states (effective.state, effective.superstate) := by
  have held := ofList_of_mem _ sound.entries_apart row.snapshot.id row.snapshot
    (List.mem_map.mpr ⟨_, Std.TreeMap.mem_toList_iff_getElem?_eq_some.mpr stored, rfl⟩)
  have agree (id : String) (story : StorySnapshot) (found : (Std.TreeMap.ofList
      (db.stories.toList.map fun entry => (entry.2.snapshot.id, entry.2.snapshot)) :
        StoryMap)[id]? = some story) : Agrees db.states (story.state, story.superstate) := by
    obtain ⟨entry, member, same⟩ := List.mem_map.mp (ofList_mem _ id story found)
    cases same
    exact (sound.known entry.1 entry.2
      (Std.TreeMap.mem_toList_iff_getElem?_eq_some.mp member)).agrees db.states sound.distinct
  unfold storyMap
  split
  · have projected (order : List String) (effective : StorySnapshot) :=
      projected_agrees order _ db.states agree row.snapshot.id effective
    simp only [projectInOrder, Std.TreeMap.getElem?_map, held, Option.map_some] at projected
    rw [applyComputedEpicStates, projectInOrder, Std.TreeMap.getElem?_map, held, Option.map_some]
    refine ⟨_, rfl, ?_, projected _ _ rfl⟩
    unfold projectEpic
    split
    · exact .inl rfl
    · split
      · exact .inl rfl
      · next epic => exact .inr (by simpa using epic)
  · exact ⟨row.snapshot, held, .inl rfl, agree _ _ held⟩

theorem resolveMigration_none (nextStates : List StateDef) (slug : String)
    (moveStoriesTo : Option String) (action : String)
    (resolved : resolveMigration db nextStates slug moveStoriesTo action = .ok none)
    (no : StoryNo) (row : StoryRow) (stored : db.stories[no]? = some row)
    (here : row.state = slug) : row.snapshot.superstate = .closed := by
  obtain ⟨effective, standing, placed, agrees⟩ := sound.effective allowed db no row stored
  have rests : row.snapshot.state = slug := (sound.columns no row stored).state.symm.trans here
  unfold resolveMigration at resolved
  simp only at resolved
  split at resolved
  · next nobody =>
      obtain ⟨unarchived, dormant⟩ := Nat.add_eq_zero_iff.mp nobody
      by_cases stays : effective.state = slug
      · have known := sound.known no row stored
        rw [Known, stateMap_find db.states sound.distinct, rests] at known
        obtain ⟨definition, found, superstate⟩ := Option.map_eq_some_iff.mp known
        have same := agrees definition (stays ▸ found)
        rw [← superstate, ← same]
        by_contra opened
        have listed : effective ∈ (storyMap db).toList.map (·.2) :=
          List.mem_map.mpr ⟨_, Std.TreeMap.mem_toList_iff_getElem?_eq_some.mpr standing, rfl⟩
        have counted := List.eq_nil_of_length_eq_zero unarchived
        rw [List.filter_eq_nil_iff] at counted
        refine counted effective (List.mem_filter.mpr ⟨listed, by simp [stays]⟩) ?_
        simpa using opened
      · have epic := placed.resolve_left fun equal => stays (equal.trans rests)
        have counted := List.eq_nil_of_length_eq_zero dormant
        rw [List.filter_eq_nil_iff] at counted
        refine absurd ?_ (counted (no, row) (List.mem_filter.mpr
          ⟨Std.TreeMap.mem_toList_iff_getElem?_eq_some.mpr stored, by simp [here]⟩))
        simp [epic, standing, stays]
  · simp only [bind_eq_ok, map_eq_ok] at resolved
    obtain ⟨-, -, asked, -, -, -, found, -, impossible⟩ := resolved
    cases impossible

end Effective

theorem resolveMigration_some (db : Database) (nextStates : List StateDef) (slug : String)
    (moveStoriesTo : Option String) (action : String) (target : StateDef)
    (resolved : resolveMigration db nextStates slug moveStoriesTo action = .ok (some target)) :
    target ∈ nextStates ∧ target.slug ≠ slug ∧ moveStoriesTo = some target.slug ∧
      (stateUsage db slug).unarchived + dormantEpics db slug ≠ 0 := by
  unfold resolveMigration at resolved
  simp only at resolved
  split at resolved
  · cases resolved
  · next needed =>
      simp only [bind_eq_ok, demand_ok, refuse_ok, map_eq_ok] at resolved
      obtain ⟨-, -, asked, given, -, -, found, located, same⟩ := resolved
      cases same
      have named : target.slug = asked := by simpa using List.find?_some located
      have member := List.mem_filter.mp (List.mem_of_find?_eq_some located)
      exact ⟨member.1, by simpa using member.2, named ▸ given, needed⟩

def restsIn (db : Database) (no : StoryNo) : Option (String × SuperState) :=
  (db.stories[no]?).map fun row => (row.snapshot.state, row.snapshot.superstate)

theorem Told.stays (allowed : Allowance) (id : String) (states : StateCatalog)
    (conforming : Conforming states) (row : StoryRow) (events batch : List StoryEvent)
    (snapshot : StorySnapshot) (told : Told allowed events row.snapshot)
    (known : Known states row.snapshot) (still : ∀ event ∈ batch, Still event)
    (folded : foldStory id (events ++ batch) states = .ok snapshot) :
    snapshot.state = row.snapshot.state ∧ snapshot.superstate = row.snapshot.superstate := by
  have undeleted := told.undeleted.append _ _ (Undeleted.still batch still)
  obtain ⟨state, title, createdAt, superstate, moved, -, -, here, rfl⟩ :=
    (foldStory_undeleted id _ states conforming undeleted snapshot).mp folded
  rw [lastMove_still events batch still, told.moved, Option.some.injEq] at moved
  subst moved
  exact ⟨rfl, Option.some.inj (here.symm.trans known)⟩

section Migration

variable (ctx : Ctx) (allowed : Allowance) (loud : allowed ≠ .quiet) (db after : Database)

theorem Step.quiet_sound (sound : Sound allowed db) (step : Step .quiet db after) :
    Sound allowed after ∧ ∀ no, restsIn after no = restsIn db no := by
  cases step with
  | create loud => exact absurd rfl loud
  | append story row events snapshot stored batch wrote checked =>
      have quiet : ∀ event ∈ events, Quiet event := by
        cases batch with
        | quiet _ _ quiet => exact quiet
        | hold _ loud | move _ loud | epic _ loud | edit _ loud => exact absurd rfl loud
      have widened : Step allowed db after :=
        .append after story row events snapshot stored (.quiet allowed events quiet) wrote checked
      refine ⟨widened.sound allowed db after sound, ?_⟩
      intro no
      by_cases own : story = no
      · subst own
        obtain ⟨later, found, same, -⟩ := wrote.row
        have stays := (sound.told story row stored).stays allowed _ _ sound.conforming row _ events
          snapshot (sound.known story row stored) (Still.of_quiet events quiet) wrote.folded
        rw [restsIn, restsIn, found, stored, Option.map_some, Option.map_some, same,
          stays.1, stays.2]
      · rw [restsIn, restsIn, wrote.row_elsewhere _ _ _ _ _ no own]

theorem Steps.quiet_sound (sound : Sound allowed db) (steps : Steps .quiet db after) :
    Sound allowed after ∧ ∀ no, restsIn after no = restsIn db no := by
  refine Runs.reachable_invariant (Step .quiet)
    (fun state => Sound allowed state ∧ ∀ no, restsIn state no = restsIn db no) db after
    ⟨sound, fun _ => rfl⟩ ?_ steps
  rintro before next ⟨kept, same⟩ step
  obtain ⟨later, stays⟩ := step.quiet_sound allowed before next kept
  exact ⟨later, fun no => (stays no).trans (same no)⟩

include loud

theorem migrateOccupant_rests (sound : Sound allowed db) (source : String) (target : StateDef)
    (known : (stateMap db.states)[target.slug]? = some target) (occupant : StoryNo × StoryRow)
    (ran : migrateOccupant ctx source target db occupant = .ok after) :
    Sound allowed after ∧ (∃ superstate, restsIn after occupant.1 =
      some (target.slug, superstate)) ∧
      ∀ no, occupant.1 ≠ no → restsIn after no = restsIn db no := by
  simp only [migrateOccupant, bind_eq_ok, demand_ok, Prod.exists] at ran
  obtain ⟨row, stored, moved, snapshot, written, retracted⟩ := ran
  have wrote := appendAndFold_ok ctx db moved _ _ _ snapshot written
  have batch := migrationEvents_batch allowed loud _ ctx.now source target row known
  have kept := (append_step ctx allowed db moved occupant.1 row _ _ snapshot stored batch
    written).sound allowed db moved sound
  obtain ⟨later, stays⟩ := Steps.quiet_sound allowed moved after kept
    (retractIf_steps ctx .quiet _ moved after occupant.1 retracted)
  obtain ⟨placed, found, same, -⟩ := wrote.row
  refine ⟨later, ⟨snapshot.superstate, ?_⟩, ?_⟩
  · have last := (kept.told occupant.1 placed found).moved
    rw [wrote.own, lastMove_append, same] at last
    have goes : lastMove (migrationEvents ctx.now source target row) = some target.slug := by
      unfold migrationEvents
      split
      · exact congrArg some (sound.conforming.current _ target.slug target known)
      · rw [← transition_moves _ sound.conforming target row.awaiting.isSome ctx.now [] known
          (by simp)]
        rfl
    rw [goes, Option.some_or, Option.some.injEq] at last
    rw [stays, restsIn, found, Option.map_some, same, last]
  · intro no other
    rw [stays, restsIn, restsIn, wrote.row_elsewhere _ _ _ _ _ no other]

theorem migrateOccupants_vacates (sound : Sound allowed db) (source : String) (target : StateDef)
    (known : (stateMap db.states)[target.slug]? = some target) (apart : target.slug ≠ source)
    (moved : Nat) (ran : migrateOccupants ctx db source target = .ok (after, moved))
    (no : StoryNo) :
    restsIn after no ≠ some (source, .open) := by
  simp only [migrateOccupants, bind_eq_ok, pure_eq_ok, Prod.mk.injEq] at ran
  obtain ⟨last, loop, rfl, -⟩ := ran
  have swept := foldlM_ok _ (fun done state => Sound allowed state ∧ state.states = db.states ∧
    ∀ no, restsIn state no = some (source, .open) →
      restsIn db no = some (source, .open) ∧ no ∉ done.map (·.1)) _ (by
    rintro done occupant rest before next - ⟨kept, states, left⟩ stepped
    have defined := states ▸ known
    obtain ⟨later, ⟨superstate, rests⟩, elsewhere⟩ := migrateOccupant_rests ctx allowed loud before
      next kept source target defined occupant stepped
    refine ⟨later, ((migrateOccupant_steps ctx allowed loud source target before next occupant defined
      stepped).states).trans states, ?_⟩
    intro no here
    by_cases own : occupant.1 = no
    · subst own
      rw [rests, Option.some.injEq, Prod.mk.injEq] at here
      exact absurd here.1 apart
    · obtain ⟨before, fresh⟩ := left no ((elsewhere no own).symm.trans here)
      refine ⟨before, ?_⟩
      simpa [fresh] using Ne.symm own) db last ⟨sound, rfl, by simp⟩ loop
  intro here
  obtain ⟨before, outside⟩ := swept.2.2 no here
  obtain ⟨row, stored, same⟩ := Option.map_eq_some_iff.mp before
  rw [Prod.mk.injEq] at same
  have columns := sound.columns no row stored
  have unarchived := (columns.unarchived row (sound.told no row stored).checked).mpr same.2
  refine outside (List.mem_map.mpr ⟨(no, row), List.mem_filter.mpr ⟨?_, by simp [unarchived]⟩, rfl⟩)
  rw [storiesIn, List.mem_filter]
  exact ⟨Std.TreeMap.mem_toList_iff_getElem?_eq_some.mpr stored, by simp [columns.state, same.1]⟩

end Migration

/-- A story folded again: its row is that of the new fold. -/
structure Refreshed (db after : Database) (no : StoryNo) (snapshot : StorySnapshot) : Prop where
  folded : foldStory (toId db.idPrefix no) (history db no) (stateMap db.states) = .ok snapshot
  checked : Checked snapshot
  row : ∃ base head, after.stories[no]? = some (storyRow base no snapshot head)

/-- Tables in which the stories of one state were folded again. -/
structure Refolded (db after : Database) (slug : String) : Prop where
  idPrefix : after.idPrefix = db.idPrefix
  states : after.states = db.states
  events : after.events = db.events
  nextStoryNo : after.nextStoryNo = db.nextStoryNo
  fresh : ∀ (no : StoryNo) (row : StoryRow), db.stories[no]? = some row → row.state = slug →
    ∃ snapshot, Refreshed db after no snapshot
  stale : ∀ no : StoryNo, (∀ row : StoryRow, db.stories[no]? = some row → row.state ≠ slug) →
    after.stories[no]? = db.stories[no]?

theorem refoldStory_put (db after : Database) (no : StoryNo) (ran : refoldStory db no = .ok after) :
    ∃ snapshot head, foldStory (toId db.idPrefix no) (history db no) (stateMap db.states) =
      .ok snapshot ∧ Checked snapshot ∧ Put db after no snapshot head := by
  simp only [refoldStory, bind_eq_ok] at ran
  obtain ⟨snapshot, folded, written⟩ := ran
  obtain ⟨story, parsed, put⟩ := putStory_put db after snapshot _ written
  obtain ⟨_, _, _, _, _, _, _, _, _, same⟩ := (finishFold_ok _ _ _ _).mp folded
  have named := congrArg StorySnapshot.id same
  rw [named] at parsed
  have own := toId_injective _ _ _ ((parseId_ok _ _ _).mp parsed).1
  subst own
  exact ⟨snapshot, _, folded, putStory_checked db after snapshot _ written, put⟩

theorem refoldOccupants_refolded (db after : Database) (slug : String)
    (ran : refoldOccupants db slug = .ok after) : Refolded db after slug := by
  have swept := foldlM_ok _ (fun done state => state.idPrefix = db.idPrefix ∧
    state.states = db.states ∧ state.events = db.events ∧ state.nextStoryNo = db.nextStoryNo ∧
      (∀ no, no ∈ done.map (·.1) → ∃ snapshot, Refreshed db state no snapshot) ∧
        ∀ no, no ∉ done.map (·.1) → state.stories[no]? = db.stories[no]?) (storiesIn db slug) (by
    rintro done entry rest before next - ⟨idPrefix, states, events, nextStoryNo, fresh,
      stale⟩ stepped
    obtain ⟨snapshot, head, folded, checked, put⟩ := refoldStory_put before next entry.1 stepped
    have rows := Put.row _ _ _ _ _ put
    refine ⟨put.idPrefix.trans idPrefix, put.states.trans states, put.events.trans events,
      put.nextStoryNo.trans nextStoryNo, ?_, ?_⟩
    · intro no member
      by_cases own : entry.1 = no
      · subst own
        refine ⟨snapshot, ?_, checked, before, head, (rows _).trans (if_pos rfl)⟩
        rwa [idPrefix, states, history, events] at folded
      · obtain ⟨older, folded, checked, base, head, row⟩ := fresh no
          (by simpa [Ne.symm own] using member)
        exact ⟨older, folded, checked, base, head, (rows no).trans ((if_neg own).trans row)⟩
    · intro no outside
      rw [List.map_append, List.mem_append, not_or] at outside
      have other : entry.1 ≠ no := fun own => outside.2 (by simp [own])
      exact (rows no).trans ((if_neg other).trans (stale no outside.1))) db after
    ⟨rfl, rfl, rfl, rfl, by simp, by simp⟩ ran
  obtain ⟨idPrefix, states, events, nextStoryNo, fresh, stale⟩ := swept
  have listed (no : StoryNo) : no ∈ (storiesIn db slug).map (·.1) ↔
      ∃ row : StoryRow, db.stories[no]? = some row ∧ row.state = slug := by
    simp [storiesIn, Std.TreeMap.mem_toList_iff_getElem?_eq_some]
  refine ⟨idPrefix, states, events, nextStoryNo, ?_, ?_⟩
  · exact fun no row stored here => fresh no ((listed no).mpr ⟨row, stored, here⟩)
  · intro no elsewhere
    apply stale
    rw [listed]
    rintro ⟨row, stored, here⟩
    exact elsewhere row stored here

theorem Told.again (allowed : Allowance) (id : String) (states : StateCatalog)
    (conforming : Conforming states) (events : List StoryEvent) (before snapshot : StorySnapshot)
    (told : Told allowed events before) (folded : foldStory id events states = .ok snapshot) :
    snapshot.state = before.state ∧ snapshot.awaiting = before.awaiting ∧
      Known states snapshot := by
  obtain ⟨state, title, createdAt, superstate, moved, -, -, here, rfl⟩ :=
    (foldStory_undeleted id _ states conforming told.undeleted snapshot).mp folded
  rw [told.moved, Option.some.injEq] at moved
  subst moved
  exact ⟨rfl, (replay_awaiting states events).trans told.held.symm, here⟩

theorem Refolded.rows (allowed : Allowance) (db after : Database) (slug : String)
    (conforming : Conforming (stateMap db.states)) (rows : Rows allowed db)
    (opened : allowed = .settled → (∃ (no : StoryNo) (row : StoryRow), db.stories[no]? = some row ∧ row.state = slug) →
      shut (stateMap db.states) slug = false)
    (refolded : Refolded db after slug) : Rows allowed after := by
  have cases (no : StoryNo) (row : StoryRow) (found : after.stories[no]? = some row) :
      db.stories[no]? = some row ∨ ∃ before snapshot base head, db.stories[no]? = some before ∧
        before.state = slug ∧ Refreshed db after no snapshot ∧
          row = storyRow base no snapshot head := by
    by_cases here : ∃ before, db.stories[no]? = some before ∧ before.state = slug
    · obtain ⟨before, stored, here⟩ := here
      obtain ⟨snapshot, refreshed⟩ := refolded.fresh no before stored here
      obtain ⟨base, head, placed⟩ := refreshed.row
      exact .inr ⟨before, snapshot, base, head, stored, here, refreshed,
        Option.some.inj (found.symm.trans placed)⟩
    · exact .inl ((refolded.stale no fun before stored rests =>
        here ⟨before, stored, rests⟩).symm.trans found)
  have same (no : StoryNo) : history after no = history db no := by
    rw [history, refolded.events, history]
  refine ⟨?_, ?_, ?_, ?_, ?_⟩
  · intro no row found
    rw [same]
    rcases cases no row found with stored | ⟨before, snapshot, base, head, stored, here,
      refreshed, rfl⟩
    · exact rows.told no row stored
    · have told := rows.told no before stored
      obtain ⟨stays, held, known⟩ := told.again allowed _ _ conforming _ before.snapshot snapshot
        refreshed.folded
      have last := told.moved
      refine ⟨told.undeleted, told.shaped, last.trans (congrArg some stays.symm),
        held.trans told.held, refreshed.checked, ?_⟩
      intro strict closed
      have placed : snapshot.state = slug :=
        stays.trans ((rows.columns no before stored).state.symm.trans here)
      have ajar := opened strict ⟨no, before, stored, here⟩
      obtain ⟨definition, found, superstate⟩ := Option.map_eq_some_iff.mp known
      rw [placed] at found
      have closes : definition.superState = .closed := superstate.trans closed
      rw [shut, found] at ajar
      simp [closes] at ajar
  · intro no row found
    rcases cases no row found with stored | ⟨before, snapshot, base, head, stored, here,
      refreshed, rfl⟩
    · exact rows.mirrored no row stored
    · exact ⟨base, head, rfl⟩
  · intro no row found
    rw [refolded.idPrefix]
    rcases cases no row found with stored | ⟨before, snapshot, base, head, stored, here,
      refreshed, rfl⟩
    · exact rows.named no row stored
    · obtain ⟨_, _, _, _, _, _, _, _, _, equal⟩ := (finishFold_ok _ _ _ _).mp refreshed.folded
      exact congrArg StorySnapshot.id equal
  · intro no absent
    rw [refolded.events]
    apply rows.logged
    rw [Option.eq_none_iff_forall_ne_some]
    intro row stored
    by_cases here : row.state = slug
    · obtain ⟨snapshot, refreshed⟩ := refolded.fresh no row stored here
      obtain ⟨base, head, placed⟩ := refreshed.row
      rw [placed] at absent
      cases absent
    · have kept := refolded.stale no fun other found rests => here (by
        rw [stored, Option.some.injEq] at found
        exact found ▸ rests)
      rw [kept, stored] at absent
      cases absent
  · intro no row found
    rw [refolded.nextStoryNo]
    rcases cases no row found with stored | ⟨before, snapshot, base, head, stored, here,
      refreshed, rfl⟩
    · exact rows.allocated no row stored
    · exact rows.allocated no before stored

/-- What an edit of the catalog does: it moves stories, gives one slug its new definition or takes
it away, and where it refolds, folds the stories in it again. -/
structure Recast (allowed : Allowance) (db middle after : Database) (slug : String)
    (refolds : Bool) : Prop where
  steps : Steps allowed db middle
  spelled : Spelled after.states
  conforming : Conforming (stateMap after.states)
  elsewhere : ∀ other, other ≠ slug →
    (stateMap after.states)[other]? = (stateMap db.states)[other]?
  vacated : shut (stateMap after.states) slug = true → ∀ no superstate,
    restsIn middle no = some (slug, superstate) → superstate = .closed ∧ refolds = false
  kept : refolds = false → after = { middle with states := after.states }
  refolded : refolds = true → Refolded { middle with states := after.states } after slug

theorem Recast.rows (allowed : Allowance) (db middle after : Database) (slug : String)
    (refolds : Bool) (sound : Sound allowed db)
    (recast : Recast allowed db middle after slug refolds) : Rows allowed after := by
  have moved := recast.steps.sound allowed db middle sound
  have rows := moved.toRows.catalog allowed middle after.states
  cases which : refolds with
  | false =>
      rw [recast.kept which]
      exact rows
  | true =>
      refine (recast.refolded which).rows allowed { middle with states := after.states } after slug
        recast.conforming rows ?_
      rintro - ⟨no, row, stored, here⟩
      rw [← Bool.not_eq_true]
      intro closing
      have stored : middle.stories[no]? = some row := stored
      have placed : restsIn middle no = some (slug, row.snapshot.superstate) := by
        rw [restsIn, stored, Option.map_some, ← (moved.columns no row stored).state, here]
      have stays := (recast.vacated closing no _ placed).2
      rw [which] at stays
      cases stays

theorem Sound.shut_vacant (allowed : Allowance) (db : Database) (sound : Sound allowed db)
    (slug : String) (closed : shut (stateMap db.states) slug = true) (no : StoryNo)
    (superstate : SuperState) (rests : restsIn db no = some (slug, superstate)) :
    superstate = .closed := by
  obtain ⟨row, stored, same⟩ := Option.map_eq_some_iff.mp rests
  rw [Prod.mk.injEq] at same
  obtain ⟨rfl, rfl⟩ := same
  obtain ⟨definition, found, superstate⟩ := Option.map_eq_some_iff.mp (sound.known no row stored)
  rw [← superstate]
  rw [shut, found] at closed
  cases which : definition.superState with
  | closed => rfl
  | «open» => simp [which] at closed

theorem find_changed (states : List StateDef) (slug other : String) (updated : StateDef)
    (spelled : updated.slug = slug) :
    (states.map fun state => if state.slug = slug then updated else state).find?
        (·.slug == other) =
      (states.find? (·.slug == other)).map fun state => if other =
        slug then updated else state := by
  rw [List.find?_map]
  have kept : ((fun state : StateDef => state.slug == other) ∘ fun state =>
      if state.slug = slug then updated else state) = fun state => state.slug == other := by
    funext state
    by_cases same : state.slug = slug <;> simp [same, spelled]
  rw [kept]
  cases located : states.find? (·.slug == other) with
  | none => rfl
  | some found =>
      have named : found.slug = other := by simpa using List.find?_some located
      simp [named]

theorem checkOrder_distinct (states : List StateDef) (seen order : List String) (done : Unit)
    (valid : checkOrder states seen order = .ok done) :
    order.Nodup ∧ ∀ slug ∈ order, slug ∉ seen := by
  induction order generalizing seen with
  | nil => simp
  | cons slug rest ih =>
      simp only [checkOrder, bind_eq_ok, refuse_ok, List.contains_eq_mem] at valid
      obtain ⟨-, -, -, fresh, later⟩ := valid
      obtain ⟨distinct, unseen⟩ := ih (slug :: seen) later
      refine ⟨List.nodup_cons.mpr ⟨fun repeated => ?_, distinct⟩, ?_⟩
      · exact unseen slug repeated (by simp)
      · rw [List.forall_mem_cons]
        exact ⟨by simpa using fresh, fun other member inside =>
          unseen other member (List.mem_cons_of_mem _ inside)⟩

section Edits

variable (ctx : Ctx) (allowed : Allowance) (loud : allowed ≠ .quiet) (db after : Database)
  (sound : Sound allowed db)

include sound

theorem addState_recast (slug : String) (superstate : SuperState)
    (role description : Option String) (state : StateDef)
    (ran : addState db slug superstate role description = .ok (after, state)) :
    Recast allowed db db after slug false ∧ (stateMap db.states)[slug]? = none ∧
      ((stateMap after.states)[slug]?).map StateDef.superState = some superstate := by
  simp only [addState, bind_eq_ok, refuse_ok, pure_eq_ok, Prod.mk.injEq] at ran
  obtain ⟨-, unreserved, -, fresh, done, valid, written, ran, rfl, -⟩ := ran
  have distinct := validateStateDefsForWrite_distinct _ valid
  obtain ⟨rfl, done, required⟩ := writeStates_ok db written _ ran
  have unused : ∀ state ∈ db.states ++ [⟨slug, superstate, role, description⟩],
      state.slug ≠ "closed" := by
    intro state member
    rcases List.mem_append.mp member with old | new
    · exact (sound.spelled allowed db).unused state old
    · cases List.mem_singleton.mp new
      simpa using unreserved
  have conforming := validateRequiredStates_conforming _ distinct unused done required
  have absent : (stateMap db.states)[slug]? = none := by
    rw [stateMap_find db.states sound.distinct, List.find?_eq_none]
    simpa using fresh
  have lookup (other : String) := stateMap_find _ distinct other
  refine ⟨⟨Relation.ReflTransGen.refl, ⟨distinct, unused⟩, conforming, ?_, ?_, fun _ => rfl,
    fun impossible => by cases impossible⟩, absent, ?_⟩
  · intro other apart
    rw [lookup, stateMap_find db.states sound.distinct, List.find?_append]
    simp [Ne.symm apart]
  · rintro - no found rests
    obtain ⟨row, stored, same⟩ := Option.map_eq_some_iff.mp rests
    have known := sound.known no row stored
    rw [Prod.mk.injEq] at same
    rw [Known, same.1, absent] at known
    cases known
  · rw [lookup, List.find?_append, ← stateMap_find db.states sound.distinct, absent]
    simp

include loud

/-- What moves before an edit: nothing, or the stories that have to leave its state. -/
inductive Migrated (ctx : Ctx) (db : Database) (slug : String) (moveStoriesTo : Option String) :
    Database → Prop
  | stays : Migrated ctx db slug moveStoriesTo db
  | moves (after : Database) (target : StateDef) (moved : Nat)
      (asked : moveStoriesTo = some target.slug)
      (needed : (stateUsage db slug).unarchived + dormantEpics db slug ≠ 0)
      (known : (stateMap db.states)[target.slug]? = some target) (apart : target.slug ≠ slug)
      (ran : migrateOccupants ctx db slug target = .ok (after, moved)) :
      Migrated ctx db slug moveStoriesTo after

theorem evacuated (middle : Database) (nextStates : List StateDef) (slug : String)
    (moveStoriesTo : Option String) (action : String) (target : Option StateDef) (moved : Nat)
    (old : ∀ state ∈ nextStates, state.slug ≠ slug → state ∈ db.states)
    (resolved : resolveMigration db nextStates slug moveStoriesTo action = .ok target)
    (ran : migrateTo ctx db slug target = .ok (middle, moved)) :
    Steps allowed db middle ∧ (∀ no, restsIn middle no ≠ some (slug, .open)) ∧
      Migrated ctx db slug moveStoriesTo middle := by
  cases target with
  | none =>
      cases ran
      refine ⟨Relation.ReflTransGen.refl, ?_, .stays⟩
      intro no rests
      obtain ⟨row, stored, same⟩ := Option.map_eq_some_iff.mp rests
      rw [Prod.mk.injEq] at same
      have closed := resolveMigration_none allowed db sound nextStates slug moveStoriesTo action
        resolved no row stored ((sound.columns no row stored).state.trans same.1)
      rw [closed] at same
      cases same.2
  | some target =>
      obtain ⟨member, apart, asked, needed⟩ :=
        resolveMigration_some db nextStates slug moveStoriesTo action target resolved
      have known := stateMap_of_mem db.states sound.distinct target (old target member apart)
      exact ⟨migrateOccupants_steps ctx allowed loud db middle slug target moved known ran,
        migrateOccupants_vacates ctx allowed loud db middle sound slug target known apart moved ran,
        .moves middle target moved asked needed known apart ran⟩

theorem removeState_recast (slug : String) (moveStoriesTo : Option String) (moved : Nat)
    (ran : removeState ctx db slug moveStoriesTo = .ok (after, moved)) :
    ∃ middle, Recast allowed db middle after slug false ∧
      (stateMap after.states)[slug]? = none := by
  simp only [removeState, bind_eq_ok, refuse_ok, pure_eq_ok, Prod.exists, Prod.mk.injEq] at ran
  obtain ⟨-, -, -, -, done, valid, -, -, target, resolved, middle, number, migrated, written, ran,
    rfl, -⟩ := ran
  have distinct := validateStateDefsForWrite_distinct _ valid
  obtain ⟨rfl, done, required⟩ := writeStates_ok middle written _ ran
  have old : ∀ state ∈ db.states.filter (·.slug != slug), state ∈ db.states :=
    fun state member => (List.mem_filter.mp member).1
  have unused : ∀ state ∈ db.states.filter (·.slug != slug), state.slug ≠ "closed" :=
    fun state member => (sound.spelled allowed db).unused state (old state member)
  have conforming := validateRequiredStates_conforming _ distinct unused done required
  obtain ⟨steps, vacant, -⟩ := evacuated ctx allowed loud db sound middle _ slug moveStoriesTo "remove"
    target number (fun state member _ => old state member) resolved migrated
  have lookup (other : String) := stateMap_find _ distinct other
  refine ⟨middle, ⟨steps, ⟨distinct, unused⟩, conforming, ?_, ?_, fun _ => rfl,
    fun impossible => by cases impossible⟩, ?_⟩
  · intro other apart
    rw [lookup, stateMap_find db.states sound.distinct, List.find?_filter]
    congr 1
    funext state
    by_cases same : state.slug = other
    · simp [same, apart]
    · simp [same]
  · rintro - no superstate rests
    refine ⟨?_, rfl⟩
    cases superstate with
    | closed => rfl
    | «open» => exact absurd rests (vacant no)
  · rw [lookup, List.find?_eq_none]
    intro state member
    simpa using (List.mem_filter.mp member).2

theorem updateState_recast (slug : String) (changes : StateChanges)
    (moveStoriesTo : Option String) (updated : StateDef) (moved : Nat)
    (ran : updateState ctx db slug changes moveStoriesTo = .ok (after, updated, moved)) :
    ∃ middle current, (stateMap db.states)[slug]? = some current ∧
      ((stateMap after.states)[slug]?).map StateDef.superState =
        some (changes.superState.getD current.superState) ∧
      Migrated ctx db slug moveStoriesTo middle ∧
        Recast allowed db middle after slug
          (changes.superState.any (· != current.superState)) := by
  simp only [updateState, bind_eq_ok, demand_ok, pure_eq_ok, Prod.exists, Prod.mk.injEq] at ran
  obtain ⟨current, located, -, -, -, -, done, valid, middle, number, migrated, written, ran, last,
    refolds, rfl, rfl, -⟩ := ran
  have distinct := validateStateDefsForWrite_distinct _ valid
  obtain ⟨rfl, done, required⟩ := writeStates_ok middle written _ ran
  have spelled : (StateChanges.applied changes current).slug = slug := by
    simpa [StateChanges.applied] using List.find?_some located
  have old (state : StateDef) (member : state ∈ db.states.map fun state =>
      if state.slug = slug then StateChanges.applied changes current else state) :
      state.slug = slug ∨ state ∈ db.states := by
    obtain ⟨before, listed, rfl⟩ := List.mem_map.mp member
    split
    · exact .inl spelled
    · exact .inr listed
  have unused : ∀ state ∈ db.states.map (fun state =>
      if state.slug = slug then StateChanges.applied changes current else state),
      state.slug ≠ "closed" := by
    intro state member
    rcases old state member with named | before
    · rw [named, ← show current.slug = slug by simpa using List.find?_some located]
      exact (sound.spelled allowed db).unused current (List.mem_of_find?_eq_some located)
    · exact (sound.spelled allowed db).unused state before
  have conforming := validateRequiredStates_conforming _ distinct unused done required
  have lookup (other : String) := (stateMap_find _ distinct other).trans
    (find_changed db.states slug other _ spelled)
  have found := (stateMap_find db.states sound.distinct slug).trans located
  have here := lookup slug
  rw [located, Option.map_some, if_pos rfl] at here
  have elsewhere (other : String) (apart : other ≠ slug) :
      (stateMap (db.states.map fun state =>
        if state.slug = slug then StateChanges.applied changes current else state))[other]? =
          (stateMap db.states)[other]? := by
    rw [lookup, stateMap_find db.states sound.distinct]
    simp [apart]
  cases which : changes.superState.any (· != current.superState) with
  | false =>
      rw [which] at migrated refolds
      cases migrated
      cases refolds
      refine ⟨db, current, found, congrArg (Option.map StateDef.superState) here, .stays, ?_⟩
      rw [which]
      refine ⟨Relation.ReflTransGen.refl, ⟨distinct, unused⟩, conforming, elsewhere, ?_,
        fun _ => rfl, fun impossible => by cases impossible⟩
      intro closing no superstate rests
      refine ⟨sound.shut_vacant allowed db slug ?_ no superstate rests, rfl⟩
      have same : changes.superState.getD current.superState = current.superState := by
        cases asked : changes.superState with
        | none => rfl
        | some wanted => simpa [asked] using which
      rw [shut, here] at closing
      rw [shut, found]
      simpa [StateChanges.applied, same] using closing
  | true =>
      rw [which] at migrated refolds
      simp only [migrateReclassified, if_true, bind_eq_ok] at migrated
      obtain ⟨target, resolved, migrated⟩ := migrated
      obtain ⟨steps, vacant, migrates⟩ := evacuated ctx allowed loud db sound middle _ slug
        moveStoriesTo "change the superstate of" target number
        (fun state member apart => (old state member).resolve_left apart) resolved migrated
      have refolded := refoldOccupants_refolded _ last slug refolds
      have states : last.states = db.states.map fun state =>
        if state.slug = slug then StateChanges.applied changes current else state := refolded.states
      refine ⟨middle, current, found, states ▸ congrArg (Option.map StateDef.superState) here,
        migrates, ?_⟩
      rw [which]
      refine ⟨steps, states ▸ ⟨distinct, unused⟩, states ▸ conforming, states ▸ elsewhere, ?_,
        fun impossible => (by cases impossible), fun _ => states ▸ refolded⟩
      rw [states]
      intro closing no superstate rests
      obtain ⟨wanted, asked, apart⟩ := (Option.any_eq_true _ _).mp which
      have opened : current.superState = .open := by
        rw [shut, here] at closing
        simp only [StateChanges.applied, asked, Option.getD_some, Option.any_some,
          Bool.not_eq_true', decide_eq_false_iff_not] at closing
        rw [bne_iff_ne] at apart
        cases old : current.superState with
        | «open» => rfl
        | closed => cases wanted <;> simp_all
      obtain ⟨row, stored, same⟩ := Option.map_eq_some_iff.mp rests
      have known := (steps.sound allowed db middle sound).known no row stored
      rw [Prod.mk.injEq] at same
      rw [Known, same.1, same.2, steps.states, found, Option.map_some, opened,
        Option.some.injEq] at known
      exact absurd rests (known ▸ vacant no)

omit loud in
theorem reorderStates_recast (order : List String) (reordered : List StateDef)
    (ran : reorderStates db order = .ok (after, reordered)) :
    Recast allowed db db after "" false ∧
      ∀ slug : String, (stateMap after.states)[slug]? = (stateMap db.states)[slug]? := by
  simp only [reorderStates, bind_eq_ok, refuse_ok, pure_eq_ok, Prod.mk.injEq] at ran
  obtain ⟨checked, ordered, -, complete, written, ran, rfl, same⟩ := ran
  rw [same] at ran
  obtain ⟨rfl, done, required⟩ := writeStates_ok db written reordered ran
  have inside (state : StateDef) (member : state ∈ db.states) : state.slug ∈ order := by
    simp only [Bool.not_eq_false', List.isEmpty_iff, List.map_eq_nil_iff, List.filter_eq_nil_iff]
      at complete
    simpa using complete state member
  have listed (state : StateDef) : state ∈ reordered ↔ state ∈ db.states := by
    rw [← same, List.mem_filterMap]
    constructor
    · rintro ⟨slug, -, found⟩
      exact (stateMap_some db.states slug state found).1
    · intro member
      exact ⟨state.slug, inside state member, stateMap_of_mem db.states sound.distinct state member⟩
  have distinct : (reordered.map StateDef.slug).Nodup := by
    rw [← same, List.map_filterMap]
    refine List.Nodup.filterMap ?_ (checkOrder_distinct db.states [] order _ ordered).1
    intro first second slug one two
    obtain ⟨state, found, rfl⟩ := Option.map_eq_some_iff.mp one
    obtain ⟨other, again, named⟩ := Option.map_eq_some_iff.mp two
    rw [← (stateMap_some _ _ _ found).2, ← (stateMap_some _ _ _ again).2, named]
  have lookup (slug : String) : (stateMap reordered)[slug]? = (stateMap db.states)[slug]? := by
    ext state
    constructor
    · intro found
      obtain ⟨member, rfl⟩ := stateMap_some _ slug state found
      exact stateMap_of_mem db.states sound.distinct state ((listed state).mp member)
    · intro found
      obtain ⟨member, rfl⟩ := stateMap_some _ slug state found
      exact stateMap_of_mem _ distinct state ((listed state).mpr member)
  have unused : ∀ state ∈ reordered, state.slug ≠ "closed" :=
    fun state member => (sound.spelled allowed db).unused state ((listed state).mp member)
  refine ⟨⟨Relation.ReflTransGen.refl, ⟨distinct, unused⟩,
    validateRequiredStates_conforming _ distinct unused done required, fun other _ => lookup other,
    ?_, fun _ => rfl, fun impossible => by cases impossible⟩, lookup⟩
  intro closing no superstate rests
  refine ⟨sound.shut_vacant allowed db "" ?_ no superstate rests, rfl⟩
  rwa [shut, lookup] at closing

end Edits

theorem CatalogEdit.sound (ctx : Ctx) (allowed : Allowance) (loud : allowed ≠ .quiet)
    (db written after : Database) (sound : Sound allowed db) (edit : CatalogEdit)
    (ran : edit.run ctx db = .ok written) (committed : commit written = .ok after) :
    Sound allowed after := by
  have settle (middle : Database) (slug : String) (refolds : Bool)
      (recast : Recast allowed db middle written slug refolds) : Sound allowed after :=
    commit_sound allowed written after (recast.rows allowed db middle written slug refolds sound)
      recast.spelled recast.conforming committed
  cases edit with
  | add slug superstate role description =>
      obtain ⟨⟨last, state⟩, added, rfl⟩ := (map_eq_ok _ _ _).mp ran
      exact settle _ _ _ (addState_recast allowed db last sound slug superstate role description state
        added).1
  | update slug changes moveStoriesTo =>
      obtain ⟨⟨last, updated, moved⟩, changed, rfl⟩ := (map_eq_ok _ _ _).mp ran
      obtain ⟨middle, current, -, -, -, recast⟩ :=
        updateState_recast ctx allowed loud db last sound slug
        changes moveStoriesTo updated moved changed
      exact settle _ _ _ recast
  | remove slug moveStoriesTo =>
      obtain ⟨⟨last, moved⟩, removed, rfl⟩ := (map_eq_ok _ _ _).mp ran
      obtain ⟨middle, recast, -⟩ := removeState_recast ctx allowed loud db last sound slug
        moveStoriesTo moved removed
      exact settle _ _ _ recast
  | reorder order =>
      obtain ⟨⟨last, reordered⟩, ordered, rfl⟩ := (map_eq_ok _ _ _).mp ran
      exact settle _ _ _ (reorderStates_recast allowed db last sound order reordered ordered).1

end Storyhook.Service
