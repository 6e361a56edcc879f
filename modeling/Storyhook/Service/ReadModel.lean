import Storyhook.Service.Holds
import Storyhook.Service.TransferWrites

/-! Whether the rows stay the fold of their histories as the state catalog changes. -/

namespace Storyhook.Service

open Storyhook.Domain Storyhook.Store
open Library Library.Outcome

def closureNames (events : List StoryEvent) : List String := (closure events).elim [] (·.2)

/-- The slug an edit turns OPEN. -/
def CatalogEdit.opens (db : Database) : CatalogEdit → Option String
  | .add slug .open _ _ => some slug
  | .update slug changes _ =>
      if changes.superState = some .open && namesClosedState
        (stateMap db.states) slug then some slug
      else none
  | _ => none

/-- Whether the stories an edit moves out of its state go to a closed one. -/
def CatalogEdit.movesShut (db : Database) : CatalogEdit → Bool
  | .update slug _ (some target) =>
      0 < (stateUsage db slug).unarchived + dormantEpics db slug &&
        namesClosedState (stateMap db.states) target
  | _ => false

/-- Where an edit turns a slug OPEN, the closed stories that named it since they were closed are
those standing in it, and none of them is moved to another closed state. -/
def CatalogEdit.admitted (db : Database) (edit : CatalogEdit) : Prop :=
  ∀ slug, edit.opens db = some slug → edit.movesShut db = false ∧
    ∀ (no : StoryNo) (row : StoryRow), db.stories[no]? = some row → row.archived = true →
      slug ∈ closureNames (history db no) → row.state = slug

/-- Every row holds the fold of its history under the catalog. -/
def Folded (db : Database) : Prop :=
  ∀ (no : StoryNo) (row : StoryRow), db.stories[no]? = some row →
    foldStory (toId db.idPrefix no) (history db no) (stateMap db.states) = .ok row.snapshot

theorem Wrote.folds (db after : Database) (story : StoryNo) (events : List StoryEvent)
    (snapshot : StorySnapshot) (wrote : Wrote db after story events snapshot)
    (folded : Folded db) : Folded after := by
  intro no row stored
  rw [wrote.idPrefix, wrote.states]
  by_cases own : story = no
  · subst own
    obtain ⟨later, found, same, -⟩ := wrote.row
    rw [found, Option.some.injEq] at stored
    subst stored
    rw [wrote.own, same]
    exact wrote.folded
  · rw [wrote.history_elsewhere _ _ _ _ _ no own]
    rw [wrote.row_elsewhere _ _ _ _ _ no own] at stored
    exact folded no row stored

theorem Steps.folds (allowed : Allowance) (db after : Database) (folded : Folded db)
    (steps : Steps allowed db after) : Folded after := by
  refine Runs.reachable_invariant (Step allowed) Folded db after folded ?_ steps
  intro before next kept step
  cases step with
  | append story row events snapshot stored batch wrote checked =>
      exact wrote.folds before next story events snapshot kept
  | create loud events snapshot opening wrote checked =>
      exact wrote.folds (allocateStoryNo before).1 next before.nextStoryNo events snapshot kept

theorem stamp_kept (first second : StateCatalog) (slug : String)
    (closed : Option (String × List String))
    (apart : ∀ other, other ≠ slug → shut second other = shut first other)
    (settles : ∀ found, closed = some found → slug ∈ found.2 →
      shut second slug = shut first slug ∨ stamp second closed = none ∧ stamp first closed = none) :
    stamp second closed = stamp first closed := by
  cases which : closed with
  | none => rfl
  | some found =>
      have agree (same : slug ∈ found.2 → shut second slug = shut first slug) :
          found.2.all (shut second) = found.2.all (shut first) := by
        rw [Bool.eq_iff_iff, List.all_eq_true, List.all_eq_true]
        refine forall_congr' fun other => forall_congr' fun member => ?_
        by_cases own : other = slug
        · rw [own, same (own ▸ member)]
        · rw [apart other own]
      by_cases named : slug ∈ found.2
      · rcases settles found which named with same | ⟨later, before⟩
        · rw [stamp, stamp, Option.filter_some, Option.filter_some, agree fun _ => same]
        · rw [← which, later, before]
      · rw [stamp, stamp, Option.filter_some, Option.filter_some, agree fun member =>
          absurd member named]

theorem stamp_open (states : StateCatalog) (found : String × List String) (slug : String)
    (named : slug ∈ found.2) (opened : shut states slug = false) :
    stamp states (some found) = none := by
  rw [stamp, Option.filter_some, if_neg, Option.map_none]
  intro all
  exact Bool.false_ne_true (opened.symm.trans (List.all_eq_true.mp all slug named))

theorem fold_kept (id : String) (first second : StateCatalog) (conforming : Conforming first)
    (other : Conforming second) (slug : String) (events : List StoryEvent)
    (snapshot : StorySnapshot) (told : Told .loose events snapshot)
    (folded : foldStory id events first = .ok snapshot) (known : Known second snapshot)
    (apart : ∀ other, other ≠ slug → shut second other = shut first other)
    (opening : shut second slug = false → shut first slug = true → slug ∈ closureNames events →
      snapshot.closedAt = none) : foldStory id events second = .ok snapshot := by
  have stamped := told.shaped.stamped
  have time : snapshot.closedAt = stamp first (closure events) := by
    obtain ⟨_, _, _, _, _, _, _, _, _, same⟩ := (finishFold_ok _ _ _ _).mp folded
    exact (congrArg StorySnapshot.closedAt same).trans (stamped first conforming)
  refine (fold_catalogs id first second conforming other events told.undeleted stamped snapshot
    folded).mpr ⟨known, stamp_kept first second slug _ apart ?_⟩
  intro found closed named
  have inside : slug ∈ closureNames events := by
    rw [closureNames, closed]
    exact named
  cases before : shut first slug <;> cases later : shut second slug
  · exact .inl rfl
  · right
    have none : stamp first (closure events) = none :=
      closed ▸ stamp_open first found slug named before
    have opened : snapshot.superstate = .open := by
      cases rests : snapshot.superstate with
      | «open» => rfl
      | closed =>
          have marked := told.checked.mp rests
          rw [time, none] at marked
          cases marked
    have unclosed := told.shaped.unclosed events second other snapshot.state told.moved
      (opened ▸ known)
    exact ⟨(stamped second other).symm.trans unclosed, none⟩
  · right
    exact ⟨closed ▸ stamp_open second found slug named later, time.symm.trans
      (opening later before inside)⟩
  · exact .inl rfl

theorem Recast.folds (db middle after : Database) (slug : String) (refolds : Bool)
    (sound : Sound .loose db) (folded : Folded db)
    (recast : Recast .loose db middle after slug refolds) (committed : Sound .loose after)
    (opening : shut (stateMap after.states) slug = false → shut (stateMap db.states) slug = true →
      ∀ (no : StoryNo) (row : StoryRow), middle.stories[no]? = some row → row.archived = true →
        slug ∈ closureNames (history middle no) → refolds = true ∧ row.state = slug) :
    Folded after := by
  have moved := recast.steps.sound .loose db middle sound
  have folds := recast.steps.folds .loose db middle folded
  have states := recast.steps.states
  have apart (other : String) (differs : other ≠ slug) :
      shut (stateMap after.states) other = shut (stateMap middle.states) other := by
    rw [shut, shut, recast.elsewhere other differs, states]
  have stale (no : StoryNo) (row : StoryRow) (before : middle.stories[no]? = some row)
      (stored : after.stories[no]? = some row) (left : refolds = true → row.state ≠ slug) :
      foldStory (toId middle.idPrefix no) (history middle no) (stateMap after.states) =
        .ok row.snapshot := by
    have columns := moved.columns no row before
    refine fold_kept _ _ _ moved.conforming recast.conforming slug _ row.snapshot
      (moved.told no row before) (folds no row before) (committed.known no row stored) apart ?_
    intro ajar closed named
    rw [states] at closed
    have unarchived : row.archived ≠ true := by
      intro archived
      obtain ⟨again, here⟩ := opening ajar closed no row before archived named
      exact left again here
    rw [columns.archived] at unarchived
    simpa using unarchived
  cases which : refolds with
  | false =>
      have same := recast.kept which
      intro no row stored
      have before : middle.stories[no]? = some row := by rwa [same] at stored
      rw [same]
      refine stale no row before stored fun impossible => ?_
      rw [which] at impossible
      cases impossible
  | true =>
      have refolded := recast.refolded which
      intro no row stored
      rw [refolded.idPrefix, history, refolded.events]
      by_cases here : ∃ old : StoryRow, middle.stories[no]? = some old ∧ old.state = slug
      · obtain ⟨old, found, here⟩ := here
        obtain ⟨snapshot, refreshed⟩ := refolded.fresh no old found here
        obtain ⟨base, head, placed⟩ := refreshed.row
        rw [stored, Option.some.injEq] at placed
        rw [placed]
        exact refreshed.folded
      · have before := refolded.stale no fun old found rests => here ⟨old, found, rests⟩
        rw [stored] at before
        exact stale no row before.symm stored fun _ rests => here ⟨row, before.symm, rests⟩

theorem update_opens (first second : StateCatalog) (slug : String) (changes : StateChanges)
    (current : StateDef) (found : first[slug]? = some current)
    (defined : (second[slug]?).map StateDef.superState =
      some (changes.superState.getD current.superState))
    (ajar : shut second slug = false) (closing : shut first slug = true) :
    changes.superState = some .open ∧ current.superState = .closed := by
  obtain ⟨definition, known, superstate⟩ := Option.map_eq_some_iff.mp defined
  rw [shut, known] at ajar
  rw [shut, found] at closing
  have wasClosed : current.superState = .closed := by
    cases which : current.superState with
    | closed => rfl
    | «open» => simp [which] at closing
  refine ⟨?_, wasClosed⟩
  have opened : definition.superState = .open := by simpa using ajar
  rw [opened, wasClosed] at superstate
  cases asked : changes.superState with
  | none =>
      rw [asked] at superstate
      cases superstate
  | some wanted =>
      rw [asked, Option.getD_some] at superstate
      rw [superstate]

section Edits

variable (ctx : Ctx) (db : Database) (sound : Sound .loose db)

include sound

theorem migrateOccupants_archived (after : Database) (source : String) (target : StateDef)
    (known : (stateMap db.states)[target.slug]? = some target) (opened : target.superState = .open)
    (moved : Nat) (ran : migrateOccupants ctx db source target = .ok (after, moved)) (no : StoryNo)
    (row : StoryRow) (stored : after.stories[no]? = some row) (archived : row.archived = true) :
    db.stories[no]? = some row ∧ history after no = history db no := by
  simp only [migrateOccupants, bind_eq_ok, pure_eq_ok, Prod.mk.injEq] at ran
  obtain ⟨last, loop, rfl, -⟩ := ran
  have swept := foldlM_ok _ (fun _ state => Sound .loose state ∧ state.states = db.states ∧
    ∀ (no : StoryNo) (row : StoryRow), state.stories[no]? = some row → row.archived = true →
      db.stories[no]? = some row ∧ history state no = history db no) _ (by
    rintro done occupant rest before next - ⟨kept, states, left⟩ stepped
    have defined := states ▸ known
    have loud : Allowance.loose ≠ .quiet := by decide
    obtain ⟨later, ⟨superstate, rests⟩, -⟩ := migrateOccupant_rests ctx .loose loud before next kept
      source target defined occupant stepped
    have same := (migrateOccupant_steps ctx .loose loud source target before next occupant defined
      stepped).states
    simp only [migrateOccupant, bind_eq_ok, demand_ok, Prod.exists] at stepped
    obtain ⟨placed, -, middle, snapshot, written, retracted⟩ := stepped
    have wrote := appendAndFold_ok ctx before middle _ _ _ snapshot written
    rw [opened, show (SuperState.open == SuperState.closed) = false from rfl,
      Bool.and_false] at retracted
    cases retracted
    refine ⟨later, same.trans states, ?_⟩
    intro no row stored archived
    by_cases own : occupant.1 = no
    · subst own
      obtain ⟨found, listed, both⟩ := Option.map_eq_some_iff.mp rests
      rw [stored, Option.some.injEq] at listed
      subst listed
      rw [Prod.mk.injEq] at both
      have here := later.known _ row stored
      rw [Known, both.1, same, defined, Option.map_some, opened, Option.some.injEq] at here
      have unarchived := ((later.columns _ row stored).unarchived row
        (later.told _ row stored).checked).mpr here.symm
      rw [unarchived] at archived
      cases archived
    · rw [wrote.row_elsewhere _ _ _ _ _ no own] at stored
      rw [wrote.history_elsewhere _ _ _ _ _ no own]
      exact left no row stored archived) db last ⟨sound, rfl, fun _ _ stored _ =>
        ⟨stored, rfl⟩⟩ loop
  exact swept.2.2 no row stored archived

theorem CatalogEdit.folds (written after : Database) (folded : Folded db) (edit : CatalogEdit)
    (admitted : edit.admitted db) (ran : edit.run ctx db = .ok written)
    (committed : commit written = .ok after) : Folded after := by
  have loud : Allowance.loose ≠ .quiet := by decide
  have kept := edit.sound ctx .loose loud db written after sound ran committed
  obtain rfl := commit_ok written after committed
  cases edit with
  | add slug superstate role description =>
      obtain ⟨⟨last, state⟩, added, rfl⟩ := (map_eq_ok _ _ _).mp ran
      obtain ⟨recast, absent, defined⟩ := addState_recast .loose db last sound slug superstate role
        description state added
      refine recast.folds db db last slug false sound folded kept ?_
      rintro ajar - no row stored archived named
      have opened : superstate = .open := by
        obtain ⟨definition, found, rfl⟩ := Option.map_eq_some_iff.mp defined
        rw [shut, found] at ajar
        simpa using ajar
      subst opened
      have here := (admitted slug rfl).2 no row stored archived named
      have known := sound.known no row stored
      rw [Known, ← (sound.columns no row stored).state, here, absent] at known
      cases known
  | update slug changes moveStoriesTo =>
      obtain ⟨⟨last, updated, moved⟩, changed, rfl⟩ := (map_eq_ok _ _ _).mp ran
      obtain ⟨middle, current, found, defined, migrated, recast⟩ :=
        updateState_recast ctx .loose loud
        db last sound slug changes moveStoriesTo updated moved changed
      refine recast.folds db middle last slug _ sound folded kept ?_
      intro ajar closing no row stored archived named
      obtain ⟨asked, wasClosed⟩ := update_opens (stateMap db.states)
        (stateMap last.states) slug changes
        current found defined ajar closing
      have opens : CatalogEdit.opens db (.update slug changes moveStoriesTo) = some slug := by
        simp [CatalogEdit.opens, asked, namesClosedState, found, wasClosed]
      obtain ⟨stays, stands⟩ := admitted slug opens
      refine ⟨by simp [asked, wasClosed], ?_⟩
      cases migrated with
      | stays => exact stands no row stored archived named
      | moves _ target number given needed known apart ran =>
          have ajarTarget : target.superState = .open := by
            rw [given, CatalogEdit.movesShut, Bool.and_eq_false_iff] at stays
            have unclosed := stays.resolve_left (by simpa [Nat.pos_iff_ne_zero] using needed)
            cases which : target.superState with
            | «open» => rfl
            | closed => simp [namesClosedState, known, which] at unclosed
          obtain ⟨before, same⟩ := migrateOccupants_archived ctx db sound middle slug target known
            ajarTarget number ran no row stored archived
          exact stands no row before archived (same ▸ named)
  | remove slug moveStoriesTo =>
      obtain ⟨⟨last, moved⟩, removed, rfl⟩ := (map_eq_ok _ _ _).mp ran
      obtain ⟨middle, recast, absent⟩ := removeState_recast ctx .loose loud db last sound slug
        moveStoriesTo moved removed
      refine recast.folds db middle last slug false sound folded kept ?_
      intro ajar
      rw [shut, absent] at ajar
      cases ajar
  | reorder order =>
      obtain ⟨⟨last, reordered⟩, ordered, rfl⟩ := (map_eq_ok _ _ _).mp ran
      obtain ⟨recast, same⟩ := reorderStates_recast .loose db last sound order reordered ordered
      refine recast.folds db db last "" false sound folded kept ?_
      intro ajar closing
      rw [shut, same] at ajar
      rw [shut, ajar] at closing
      cases closing

end Edits

section Delete

variable (ctx : Ctx) (db after : Database) (sound : Sound .loose db) (folded : Folded db)

include sound folded

theorem purged_folds (story : StoryNo) (purged : purgeStory db story = .ok after) :
    Sound .loose after ∧ Folded after := by
  have rows := purged_row db after story purged
  have events := purged_events db after story purged
  have shape := purgeStory_ok db after story purged
  have idPrefix : after.idPrefix = db.idPrefix := by rw [shape]
  have states : after.states = db.states := by rw [shape]
  have nextStoryNo : after.nextStoryNo = db.nextStoryNo := by rw [shape]
  have same (no : StoryNo) (other : story ≠ no) : history after no = history db no := by
    rw [history, events no other, history]
  refine ⟨⟨⟨?_, ?_, ?_, ?_, ?_⟩, states ▸ sound.conforming, states ▸ sound.distinct, ?_⟩, ?_⟩
  · intro no row stored
    obtain ⟨other, before⟩ := (rows no row).mp stored
    rw [same no other]
    exact sound.told no row before
  · intro no row stored
    exact sound.mirrored no row ((rows no row).mp stored).2
  · intro no row stored
    rw [idPrefix]
    exact sound.named no row ((rows no row).mp stored).2
  · intro no absent
    by_cases own : story = no
    · rw [shape, own]
      exact Std.TreeMap.getElem?_erase_self
    · rw [events no own]
      apply sound.logged
      rw [Option.eq_none_iff_forall_ne_some]
      intro row before
      rw [(rows no row).mpr ⟨own, before⟩] at absent
      cases absent
  · intro no row stored
    rw [nextStoryNo]
    exact sound.allocated no row ((rows no row).mp stored).2
  · intro no row stored
    rw [states]
    exact sound.known no row ((rows no row).mp stored).2
  · intro no row stored
    obtain ⟨other, before⟩ := (rows no row).mp stored
    rw [same no other, idPrefix, states]
    exact folded no row before

theorem delete_folds (id : String) (ran : delete ctx db id = .ok after) :
    Sound .loose after ∧ Folded after := by
  simp only [delete, bind_eq_ok, Prod.exists] at ran
  obtain ⟨story, row, -, -, -, middle, retracted, purged⟩ := ran
  have steps := foldlM_sound .loose db middle sound _ _ (by
    intro claim _ before next kept stepped
    simp only [retractClaim, bind_eq_ok, pure_eq_ok, Prod.exists] at stepped
    obtain ⟨other, claimant, -, last, snapshot, written, rfl⟩ := stepped
    exact appendQuietly_steps ctx .loose before last kept other _ _ snapshot
      ⟨rfl, rfl, rfl⟩ written)
    retracted
  exact purged_folds middle after (Steps.sound .loose db middle sound steps)
    (Steps.folds .loose db middle folded steps) story purged

end Delete

/-- Every command that writes stories or the catalog they are read by. -/
inductive RecordCommand where
  | project (command : ProjectCommand)
  | importBatch (stories : List ImportStory)
  | delete (id : String)
  | restore (id : String) (target : List StoryEvent)

def RecordCommand.run (ctx : Ctx) (db : Database) : RecordCommand → Except AppError Database
  | .project command => command.run ctx db
  | .importBatch stories => (Service.importBatch ctx db stories).map (·.1)
  | .delete id => Service.delete ctx db id
  | .restore id target => (Service.restore ctx db id target).map (·.1)

def RecordCommand.perform (ctx : Ctx) (db : Database) (command : RecordCommand) :
    Except AppError Database := do
  let after ← command.run ctx db
  commit after

/-- A command as its transaction leaves the tables: changed, or as they were. -/
def RecordCommand.submit (ctx : Ctx) (db : Database) (command : RecordCommand) : Database :=
  match command.perform ctx db with
  | .ok after => after
  | .error _ => db

def RecordCommand.admitted (db : Database) : RecordCommand → Prop
  | .project (.catalog edit) => edit.admitted db
  | _ => True

def RecordCommands (before after : Database) : Prop :=
  ∃ ctx command, after = RecordCommand.submit ctx before command

/-- A command that is no catalog edit the fold would be disturbed by. -/
def AdmittedCommands (before after : Database) : Prop :=
  ∃ ctx command, RecordCommand.admitted before command ∧
    after = RecordCommand.submit ctx before command

/-- Rows that are the fold of their histories, in states the catalog defines, and closed just
where they carry a closing time. -/
structure Exact (db : Database) : Prop where
  folded : Folded db
  mirrored : ∀ (no : StoryNo) (row : StoryRow), db.stories[no]? = some row →
    ∃ base head, row = storyRow base no row.snapshot head
  known : ∀ (no : StoryNo) (row : StoryRow), db.stories[no]? = some row →
    ((stateMap db.states)[row.state]?).map StateDef.superState = some row.superstate
  closes : ∀ (no : StoryNo) (row : StoryRow), db.stories[no]? = some row →
    (row.superstate = .closed ↔ row.closedAt.isSome = true)

theorem Sound.exact (db : Database) (sound : Sound .loose db) (folded : Folded db) : Exact db where
  folded := folded
  mirrored := sound.mirrored
  known := by
    intro no row stored
    have columns := sound.columns no row stored
    rw [columns.state, columns.superstate]
    exact sound.known no row stored
  closes := by
    intro no row stored
    obtain ⟨base, head, same⟩ := sound.mirrored no row stored
    rw [same]
    exact (sound.told no row stored).checked

theorem admittedCommands_folds (before after : Database)
    (kept : Sound .loose before ∧ Folded before) (performed : AdmittedCommands before after) :
    Sound .loose after ∧ Folded after := by
  obtain ⟨sound, folded⟩ := kept
  obtain ⟨ctx, command, admitted, rfl⟩ := performed
  unfold RecordCommand.submit
  split
  · next last ran =>
      simp only [RecordCommand.perform, bind_eq_ok] at ran
      obtain ⟨written, body, committed⟩ := ran
      have loud : Allowance.loose ≠ .quiet := by decide
      have settle (steps : Steps .loose before written) : Sound .loose last ∧ Folded last := by
        obtain rfl := commit_ok written last committed
        exact ⟨steps.sound .loose before last sound, steps.folds .loose before last folded⟩
      cases command with
      | project command =>
          cases command with
          | story command =>
              exact settle (command.steps ctx .loose loud before written sound.distinct
                (fun strict => by cases strict) body)
          | catalog edit =>
              exact ⟨edit.sound ctx .loose loud before written last sound body committed,
                edit.folds ctx before sound written last folded admitted body committed⟩
          | setAutomations enabled =>
              obtain rfl := commit_ok written last committed
              cases body
              exact ⟨⟨⟨sound.told, sound.mirrored, sound.named, sound.logged, sound.allocated⟩,
                sound.conforming, sound.distinct, sound.known⟩, folded⟩
      | importBatch stories =>
          obtain ⟨⟨result, report⟩, imported, rfl⟩ := (map_eq_ok _ _ _).mp body
          exact settle (importBatch_steps ctx .loose loud before result sound stories report imported)
      | delete id =>
          obtain rfl := commit_ok written last committed
          exact delete_folds ctx before last sound folded id body
      | restore id target =>
          obtain ⟨⟨result, appended⟩, restored, rfl⟩ := (map_eq_ok _ _ _).mp body
          exact settle (restore_steps ctx before result sound id target appended restored)
  · exact ⟨sound, folded⟩

/-- In every run whose catalog edits are admitted, every row is the fold of its history; and a
command that fails changes nothing. -/
theorem catalog_edits_keep_exact (idPrefix : String) (types : List String)
    (automationsEnabled : Bool) (db : Database) (reached : Runs.Reachable AdmittedCommands
      (emptyProject idPrefix defaultStates types automationsEnabled) db) :
    Exact db ∧ ∀ ctx command failure, RecordCommand.perform ctx db command = .error failure →
      RecordCommand.submit ctx db command = db := by
  have kept := Runs.reachable_invariant AdmittedCommands
    (fun state => Sound .loose state ∧ Folded state) _ db
    ⟨defaultStates_sound .loose idPrefix types automationsEnabled, fun no row stored =>
      by cases stored⟩
    admittedCommands_folds reached
  refine ⟨Sound.exact db kept.1 kept.2, ?_⟩
  intro ctx command failure failed
  rw [RecordCommand.submit, failed]

instance (db : Database) (edit : CatalogEdit) : Decidable (edit.admitted db) :=
  decidable_of_iff ((edit.opens db).all (fun slug => edit.movesShut db = false ∧
      db.stories.toList.all fun entry => !entry.2.archived ||
        !(closureNames (history db entry.1)).contains slug || entry.2.state == slug) = true) (by
    unfold CatalogEdit.admitted
    cases edit.opens db with
    | none => simp
    | some slug =>
        simp only [Option.all_some, decide_eq_true_eq, List.all_eq_true, Prod.forall,
          Std.TreeMap.mem_toList_iff_getElem?_eq_some, Option.some.injEq]
        constructor
        · rintro ⟨stays, stands⟩ _ rfl
          refine ⟨stays, fun no row stored archived named => ?_⟩
          simpa [archived, named] using stands no row stored
        · intro admitted
          obtain ⟨stays, stands⟩ := admitted slug rfl
          refine ⟨stays, fun no row stored => ?_⟩
          by_cases archived : row.archived = true
          · by_cases named : slug ∈ closureNames (history db no)
            · simp [stands no row stored archived named]
            · simp [named]
          · simp [archived])

def projectAfter (commands : List RecordCommand) : Database :=
  commands.foldl (RecordCommand.submit (plainCtx "t1"))
    (emptyProject "SH" defaultStates defaultTypes true)

theorem projectAfter_tail (Steps : Database → Database → Prop) (commands : List RecordCommand)
    (next : RecordCommand) (reached : Runs.Reachable Steps
      (emptyProject "SH" defaultStates defaultTypes true) (projectAfter commands))
    (step : Steps (projectAfter commands)
      (RecordCommand.submit (plainCtx "t1") (projectAfter commands) next)) :
    Runs.Reachable Steps (emptyProject "SH" defaultStates defaultTypes true)
      (projectAfter (commands ++ [next])) := by
  have last : projectAfter (commands ++ [next]) =
      RecordCommand.submit (plainCtx "t1") (projectAfter commands) next := List.foldl_concat ..
  rw [last]
  exact reached.tail step

theorem projectAfter_commands (commands : List RecordCommand) :
    Runs.Reachable RecordCommands (emptyProject "SH" defaultStates defaultTypes true)
      (projectAfter commands) := by
  induction commands using List.reverseRecOn with
  | nil => exact Relation.ReflTransGen.refl
  | append_singleton earlier next ih =>
      exact projectAfter_tail RecordCommands earlier next ih ⟨plainCtx "t1", next, rfl⟩

def addParked : RecordCommand := .project (.catalog (.add "parked" .closed none none))

def createFirst : RecordCommand := .project (.story (.create (titledStory "first" [])))

def moveFirst (state : String) : RecordCommand :=
  .project (.story (.setState "SH-1" state none none none false))

def openParked : RecordCommand :=
  .project (.catalog (.update "parked" ⟨some .open, .keep, .keep⟩ none))

theorem catalog_edits_keep_exact_reopening :
    ((projectAfter [addParked, createFirst, moveFirst "parked", openParked]).stories[1]?).map
        (·.superstate) = some .open ∧
      Exact (projectAfter [addParked, createFirst, moveFirst "parked", openParked]) := by
  have admits (commands : List RecordCommand) (next : RecordCommand) (reached : Runs.Reachable
      AdmittedCommands (emptyProject "SH" defaultStates defaultTypes true) (projectAfter commands))
      (admitted : next.admitted (projectAfter commands)) :=
    projectAfter_tail AdmittedCommands commands next reached ⟨plainCtx "t1", next, admitted, rfl⟩
  have added := admits [] addParked Relation.ReflTransGen.refl (by
    change CatalogEdit.admitted (projectAfter []) _
    decide +kernel)
  have created := admits [addParked] createFirst added trivial
  have parked := admits [addParked, createFirst] (moveFirst "parked") created trivial
  have opened := admits [addParked, createFirst, moveFirst "parked"] openParked parked (by
    change CatalogEdit.admitted (projectAfter [addParked, createFirst, moveFirst "parked"]) _
    decide +kernel)
  exact ⟨by decide +kernel, (catalog_edits_keep_exact "SH" defaultTypes true _ opened).1⟩

/-- A story closed into `done`, reopened, closed into `parked` and restored to `done`. -/
def restoredStory : List RecordCommand := [addParked, createFirst, moveFirst "done",
  .project (.story (.reopen "SH-1")), moveFirst "parked",
  .restore "SH-1" (history (projectAfter [addParked, createFirst, moveFirst "done"]) 1)]

/-- Turning OPEN a state that a restored story had been closed into leaves its row behind. -/
theorem reclassified_state_leaves_row : ¬ ∀ (idPrefix : String) (types : List String)
    (automationsEnabled : Bool) (db : Database), Runs.Reachable RecordCommands
      (emptyProject idPrefix defaultStates types automationsEnabled) db → Exact db := by
  intro exactly
  have folded := (exactly "SH" defaultTypes true _
    (projectAfter_commands (restoredStory ++ [openParked]))).folded
  have stale : ((projectAfter (restoredStory ++ [openParked])).stories[1]?).any (fun row =>
      row.snapshot.closedAt.isSome && ((foldStory "SH-1"
        (history (projectAfter (restoredStory ++ [openParked])) 1)
        (stateMap (projectAfter (restoredStory ++ [openParked])).states)).toOption.any
          (·.closedAt.isNone))) = true := by decide +kernel
  obtain ⟨row, stored, apart⟩ := (Option.any_eq_true _ _).mp stale
  have same := folded 1 row stored
  have spelled : toId (projectAfter (restoredStory ++ [openParked])).idPrefix 1 = "SH-1" := by
    decide +kernel
  rw [spelled] at same
  rw [same] at apart
  simp only [Except.toOption, Option.any_some, Bool.and_eq_true, Option.isNone_iff_eq_none] at apart
  rw [apart.2] at apart
  cases apart.1

end Storyhook.Service
