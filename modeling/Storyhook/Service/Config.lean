import Storyhook.Domain.States
import Storyhook.Service.Relation

namespace Storyhook.Service

open Storyhook.Domain Storyhook.Store
open Library Library.Outcome

def writeStates (db : Database) (states : List StateDef) : Except AppError Database := do
  validateRequiredStates states
  return { db with states := states }

def addState (db : Database) (slug : String) (superstate : SuperState)
    (role description : Option String) : Except AppError (Database × StateDef) := do
  refuse (slug == "closed") (.validation ("state `closed` is reserved for legacy history; " ++
    "use `dropped` for abandoned work or choose another custom name"))
  refuse (db.states.any (·.slug == slug)) (.validation ("state `" ++ slug ++ "` already exists"))
  let state : StateDef := ⟨slug, superstate, role, description⟩
  validateStateDefsForWrite (db.states ++ [state])
  let after ← writeStates db (db.states ++ [state])
  return (after, state)

def storiesIn (db : Database) (slug : String) : List (StoryNo × StoryRow) :=
  db.stories.toList.filter fun entry => entry.2.state == slug

structure StateUsage where
  unarchived : Nat
  archived : Nat

/-- How many stories stand in a state, epics where their children put them. -/
def stateUsage (db : Database) (slug : String) : StateUsage :=
  let standing := ((storyMap db).toList.map (·.2)).filter (·.state == slug)
  ⟨(standing.filter (·.superstate != .closed)).length,
    (standing.filter (·.superstate == .closed)).length⟩

def dormantEpics (db : Database) (slug : String) : Nat :=
  let effective := storyMap db
  ((storiesIn db slug).filter fun entry => isEpic entry.2.snapshot &&
    (effective[entry.2.snapshot.id]?).any fun story => story.state != slug).length

def pluralStories (count : Nat) : String := if count = 1 then "story" else "stories"

def occupancy (unarchived dormant : Nat) : String :=
  if dormant = 0 then "holds " ++ toString unarchived ++ " open " ++ pluralStories unarchived
  else if unarchived = 0 then
    "has " ++ toString dormant ++ " computed epic fallback " ++ pluralStories dormant
  else "holds " ++ toString unarchived ++ " open " ++ pluralStories unarchived ++ " and has " ++
    toString dormant ++ " computed epic fallback " ++ pluralStories dormant

/-- Where the stories of a state go before it is removed or reclassified; nowhere when there are
none to move. -/
def resolveMigration (db : Database) (nextStates : List StateDef) (slug : String)
    (moveStoriesTo : Option String) (action : String) : Except AppError (Option StateDef) :=
  let unarchived := (stateUsage db slug).unarchived
  let dormant := dormantEpics db slug
  let candidates := nextStates.filter (·.slug != slug)
  if unarchived + dormant = 0 then .ok none
  else do
    refuse candidates.isEmpty (.validation ("cannot " ++ action ++ " state `" ++ slug ++ "`: it " ++
      occupancy unarchived dormant ++ ", and there is no other state to move them into"))
    let target ← demand moveStoriesTo (.validation ("cannot " ++ action ++ " state `" ++ slug ++
      "` while it " ++ occupancy unarchived dormant ++
      ": name the state they move into (one of: " ++
      ", ".intercalate (candidates.map (·.slug)) ++ ")"))
    refuse (target == slug) (.validation ("stories in `" ++ slug ++ "` cannot be moved into `" ++
      slug ++ "` itself"))
    (demand (candidates.find? (·.slug == target))
      (.notFound ("state `" ++ target ++ "` not found"))).map some

/-- What a migration appends to a story; an epic keeps its state computed. -/
def migrationEvents (now source : String) (target : StateDef) (row : StoryRow) :
    List StoryEvent :=
  .storyCommentAdded now ("[states] moved from `" ++ source ++ "` to `" ++ target.slug ++ "`") ::
    if isEpic row.snapshot then [.storyStateChanged now target.slug, .storyStateCleared now]
    else stateTransitionEvents target row.awaiting.isSome now []

/-- Moves one story, as an earlier move of the batch may have left it. -/
def migrateOccupant (ctx : Ctx) (source : String) (target : StateDef) (db : Database)
    (occupant : StoryNo × StoryRow) : Except AppError Database := do
  let row ← demand db.stories[occupant.1]?
    (.notFound ("story `" ++ occupant.2.snapshot.id ++ "` not found"))
  let (moved, _) ← appendAndFold ctx db occupant.1 (.exact row.headSeq)
    (migrationEvents ctx.now source target row)
  retractIf ctx (!isEpic row.snapshot && target.superState == .closed) moved occupant.1

/-- Moves every open story and every epic of a state into another one. -/
def migrateOccupants (ctx : Ctx) (db : Database) (source : String) (target : StateDef) :
    Except AppError (Database × Nat) := do
  let occupants := (storiesIn db source).filter fun entry =>
    !entry.2.archived || isEpic entry.2.snapshot
  let after ← occupants.foldlM (migrateOccupant ctx source target) db
  return (after, occupants.length)

def migrateTo (ctx : Ctx) (db : Database) (source : String) :
    Option StateDef → Except AppError (Database × Nat)
  | none => .ok (db, 0)
  | some target => migrateOccupants ctx db source target

def refoldStory (db : Database) (story : StoryNo) : Except AppError Database := do
  let snapshot ← foldStory (toId db.idPrefix story) (history db story) (stateMap db.states)
  putStory db snapshot (headSeq db story)

def refoldOccupants (db : Database) (slug : String) : Except AppError Database :=
  (storiesIn db slug).foldlM (fun db entry => refoldStory db entry.1) db

def StateChanges.applied (changes : StateChanges) (current : StateDef) : StateDef where
  slug := current.slug
  superState := changes.superState.getD current.superState
  role := changes.role.apply current.role
  description := changes.description.apply current.description

def migrateReclassified (ctx : Ctx) (db : Database) (nextStates : List StateDef) (slug : String)
    (moveStoriesTo : Option String) (reclassified : Bool) : Except AppError (Database × Nat) :=
  if reclassified then do
    let target ← resolveMigration db nextStates slug moveStoriesTo "change the superstate of"
    migrateTo ctx db slug target
  else .ok (db, 0)

def refoldReclassified (db : Database) (slug : String) (reclassified : Bool) :
    Except AppError Database :=
  if reclassified then refoldOccupants db slug else .ok db

/-- Changes one state. A changed superstate moves the open stories out of it, and folds again
those that stay. -/
def updateState (ctx : Ctx) (db : Database) (slug : String) (changes : StateChanges)
    (moveStoriesTo : Option String) : Except AppError (Database × StateDef × Nat) := do
  let current ← demand (db.states.find? (·.slug == slug))
    (.notFound ("state `" ++ slug ++ "` not found"))
  refuse changes.isEmpty (.usage ("nothing to change on state `" ++ slug ++ "`"))
  let reclassified := changes.superState.any (· != current.superState)
  let updated := StateChanges.applied changes current
  let nextStates := db.states.map fun state => if state.slug = slug then updated else state
  validateRequiredStates nextStates
  validateStateDefsForWrite nextStates
  let (migrated, moved) ← migrateReclassified ctx db nextStates slug moveStoriesTo reclassified
  let written ← writeStates migrated nextStates
  let after ← refoldReclassified written slug reclassified
  return (after, updated, moved)

/-- Removes a state no closed story stands in, and moves the open ones out of it. -/
def removeState (ctx : Ctx) (db : Database) (slug : String) (moveStoriesTo : Option String) :
    Except AppError (Database × Nat) := do
  refuse (!db.states.any (·.slug == slug)) (.notFound ("state `" ++ slug ++ "` not found"))
  let retained := db.states.filter (·.slug != slug)
  validateRequiredStates retained
  validateStateDefsForWrite retained
  let archived := (stateUsage db slug).archived
  refuse (archived > 0) (.validation ("state `" ++ slug ++ "` has " ++ toString archived ++
    " archived " ++ pluralStories archived ++ "; a state with archived history cannot be removed, " ++
    "because reopening one would fold against a state that no longer exists"))
  let target ← resolveMigration db retained slug moveStoriesTo "remove"
  let (migrated, moved) ← migrateTo ctx db slug target
  let after ← writeStates migrated retained
  return (after, moved)

def checkOrder (states : List StateDef) (seen : List String) : List String → Except AppError Unit
  | [] => .ok ()
  | slug :: rest => do
      refuse (!states.any (·.slug == slug)) (.notFound ("state `" ++ slug ++ "` not found"))
      refuse (seen.contains slug)
        (.validation ("state `" ++ slug ++ "` is listed more than once"))
      checkOrder states (slug :: seen) rest

/-- Puts the states in another order, which has to name every one of them. -/
def reorderStates (db : Database) (order : List String) :
    Except AppError (Database × List StateDef) := do
  checkOrder db.states [] order
  let missing := (db.states.filter fun state => !order.contains state.slug).map (·.slug)
  refuse (!missing.isEmpty) (.validation ("the new order must list every state; missing: " ++
    ", ".intercalate (missing.mergeSort fun left right => left ≤ right)))
  let reordered := order.filterMap fun slug => (stateMap db.states)[slug]?
  let after ← writeStates db reordered
  return (after, reordered)

end Storyhook.Service
