import Storyhook.Service.BothEnds
import Storyhook.Service.CatalogEdits
import Storyhook.Service.StoryCommands

/-! Whether a closed story can be awaiting something. -/

namespace Storyhook.Service

open Storyhook.Domain Storyhook.Store
open Library Library.Outcome

/-- A command on a project's stories, its states or its automations. -/
inductive ProjectCommand where
  | story (command : StoryCommand)
  | catalog (edit : CatalogEdit)
  | setAutomations (enabled : Bool)

def ProjectCommand.run (ctx : Ctx) (db : Database) : ProjectCommand → Except AppError Database
  | .story command => command.run ctx db
  | .catalog edit => edit.run ctx db
  | .setAutomations enabled => .ok { db with automationsEnabled := enabled }

/-- One command as a transaction of its own. -/
def ProjectCommand.perform (ctx : Ctx) (db : Database) (command : ProjectCommand) :
    Except AppError Database := do
  let after ← command.run ctx db
  commit after

/-- Whether an edit of a story's fields that closes it does not hold it last. -/
def ProjectCommand.settles (db : Database) : ProjectCommand → Prop
  | .story command => command.settles db
  | _ => True

def Commands (before after : Database) : Prop :=
  ∃ ctx command, ProjectCommand.perform ctx before command = .ok after

/-- A command that settles what it closes. -/
def SettledCommands (before after : Database) : Prop :=
  ∃ ctx command, ProjectCommand.settles before command ∧
    ProjectCommand.perform ctx before command = .ok after

/-- No closed story, as stored or as folded, is awaiting anything. -/
structure Unheld (db : Database) : Prop where
  stored : ∀ (no : StoryNo) (row : StoryRow), db.stories[no]? = some row →
    row.superstate = .closed → row.awaiting = none
  folded : ∀ (no : StoryNo) (snapshot : StorySnapshot),
    foldStory (toId db.idPrefix no) (history db no) (stateMap db.states) = .ok snapshot →
      snapshot.superstate = .closed → snapshot.awaiting = none

theorem defaultStates_sound (allowed : Allowance) (idPrefix : String) (types : List String)
    (automationsEnabled : Bool) :
    Sound allowed (emptyProject idPrefix defaultStates types automationsEnabled) where
  told := by
    intro no row stored
    cases stored
  mirrored := by
    intro no row stored
    cases stored
  named := by
    intro no row stored
    cases stored
  logged := fun _ _ => rfl
  allocated := by
    intro no row stored
    cases stored
  conforming := ⟨rfl, rfl⟩
  distinct := by
    change (defaultStates.map StateDef.slug).Nodup
    decide
  known := by
    intro no row stored
    cases stored

theorem settledCommands_sound (before after : Database) (sound : Sound .settled before)
    (performed : SettledCommands before after) : Sound .settled after := by
  obtain ⟨ctx, command, settles, ran⟩ := performed
  simp only [ProjectCommand.perform, bind_eq_ok] at ran
  obtain ⟨written, body, committed⟩ := ran
  have loud : Allowance.settled ≠ .quiet := by decide
  cases command with
  | story command =>
      obtain rfl := commit_ok written after committed
      exact (command.steps ctx .settled loud before after sound.distinct (fun _ => settles)
        body).sound .settled before after sound
  | catalog edit => exact edit.sound ctx .settled loud before written after sound body committed
  | setAutomations enabled =>
      obtain rfl := commit_ok written after committed
      cases body
      exact ⟨⟨sound.told, sound.mirrored, sound.named, sound.logged, sound.allocated⟩,
        sound.conforming, sound.distinct, sound.known⟩

theorem Sound.unheld (db : Database) (sound : Sound .settled db) : Unheld db where
  stored := by
    intro no row stored closed
    have columns := sound.columns no row stored
    rw [columns.awaiting]
    exact (sound.told no row stored).settled rfl (columns.superstate.symm.trans closed)
  folded := by
    intro no snapshot folded closed
    cases stored : db.stories[no]? with
    | none =>
        rw [history, sound.logged no stored] at folded
        cases folded
    | some row =>
        have told := sound.told no row stored
        obtain ⟨stays, held, known⟩ :=
          told.again .settled _ _ sound.conforming _ row.snapshot snapshot
          folded
        rw [held]
        refine told.settled rfl ?_
        have same := sound.known no row stored
        rw [Known, ← stays, known, closed, Option.some.injEq] at same
        exact same.symm

/-- In every run whose field edits settle, no closed story is awaiting anything. -/
theorem closed_story_unheld (idPrefix : String) (types : List String) (automationsEnabled : Bool)
    (db : Database) (reached : Runs.Reachable SettledCommands
      (emptyProject idPrefix defaultStates types automationsEnabled) db) : Unheld db :=
  Sound.unheld db (Runs.reachable_invariant SettledCommands (Sound .settled) _ db
    (defaultStates_sound .settled idPrefix types automationsEnabled) settledCommands_sound reached)

/-- An edit that moves a story, and holds it where a reason is given. -/
def moveEdit (state : String) (blocked : Option String) : FieldEdits where
  title := none
  state := some state
  priority := none
  complexity := none
  labels := none
  blocked := blocked
  unblocked := false
  json := none
  storyType := none
  description := none

theorem moveEdit_settles (state : String) (states : StateCatalog) (awaiting : Bool) :
    Settles states awaiting (holdFields (moveEdit state none)) := by
  intro _
  cases read : namesClosedState states state && awaiting <;>
    simp [holdFields, flagFields, patchFields, moveEdit, HoldField.holds, read]

def closedHolding (db : Database) (no : StoryNo) (held : Bool) : Bool :=
  (db.stories[no]?).any fun row => row.superstate == .closed && row.awaiting.isSome == held

theorem closed_story_unheld_once_held : ∃ db,
    [ProjectCommand.story (.create (titledStory "first" [])), .story (.setAwaiting "SH-1" "reply"),
      .story (.setFields "SH-1" (moveEdit "done" none))].foldlM
        (ProjectCommand.perform (plainCtx "t1")) (emptyProject "SH" defaultStates defaultTypes true) =
          .ok db ∧ closedHolding db 1 false = true ∧ Unheld db := by
  obtain ⟨db, ran, closed⟩ := any_ok _ (closedHolding · 1 false)
    (by decide +kernel : ([ProjectCommand.story (.create (titledStory "first" [])),
      .story (.setAwaiting "SH-1" "reply"),
      .story (.setFields "SH-1" (moveEdit "done" none))].foldlM
        (ProjectCommand.perform (plainCtx "t1"))
          (emptyProject "SH" defaultStates defaultTypes true)).toOption.any
            (closedHolding · 1 false) = true)
  refine ⟨db, ran, closed, closed_story_unheld "SH" defaultTypes true db
    (Runs.foldlM_reachable SettledCommands (ProjectCommand.perform (plainCtx "t1")) _ ?_ _ db ran)⟩
  intro command listed before after performed
  refine ⟨plainCtx "t1", command, ?_, performed⟩
  simp only [List.mem_cons, List.not_mem_nil, or_false] at listed
  rcases listed with rfl | rfl | rfl
  · trivial
  · trivial
  · exact fun story row _ => moveEdit_settles "done" _ _

/-- An edit that closes a story and then holds it leaves it closed and held. -/
theorem closed_by_edit_still_held : ¬ ∀ (idPrefix : String) (types : List String)
    (automationsEnabled : Bool) (db : Database), Runs.Reachable Commands
      (emptyProject idPrefix defaultStates types automationsEnabled) db → Unheld db := by
  intro unheld
  obtain ⟨db, ran, closed⟩ := any_ok _ (closedHolding · 1 true)
    (by decide +kernel : ([ProjectCommand.story (.create (titledStory "first" [])),
      .story (.setFields "SH-1" (moveEdit "done" (some "reply")))].foldlM
        (ProjectCommand.perform (plainCtx "t1"))
          (emptyProject "SH" defaultStates defaultTypes true)).toOption.any
            (closedHolding · 1 true) = true)
  have reached := Runs.foldlM_reachable Commands (ProjectCommand.perform (plainCtx "t1")) _
    (fun command _ before after performed => ⟨plainCtx "t1", command, performed⟩) _ db ran
  obtain ⟨row, stored, both⟩ := (Option.any_eq_true _ _).mp closed
  simp only [Bool.and_eq_true, beq_iff_eq] at both
  have free := (unheld "SH" defaultTypes true db reached).stored 1 row stored both.1
  rw [free] at both
  cases both.2

end Storyhook.Service
