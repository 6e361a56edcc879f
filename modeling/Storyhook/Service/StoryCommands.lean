import Storyhook.Service.Writes

namespace Storyhook.Service

open Storyhook.Domain Storyhook.Store
open Library Library.Outcome

def comment (ctx : Ctx) (db : Database) (id text : String) :
    Except AppError (Database × StorySnapshot) := do
  let (story, row) ← resolveStory db id
  appendAndFold ctx db story (.exact row.headSeq) [.storyCommentAdded ctx.now text]

def setPriority (ctx : Ctx) (db : Database) (id priority : String) :
    Except AppError (Database × StorySnapshot) := do
  let level ← assignablePriority priority
  editStory ctx db id fun _ => .ok [.storyPrioritySet ctx.now level]

def setLabels (ctx : Ctx) (db : Database) (id : String) (add remove : List String) :
    Except AppError (Database × StorySnapshot) :=
  let added := normalizeLabels ctx add
  let removed := normalizeLabels ctx remove
  editStory ctx db id fun row =>
    let labels := storedLabels (row.snapshot.labels ++ added)
    .ok [.storyLabelsSet ctx.now (normalizeLabels ctx (labels.filter (!removed.contains ·)))]

/-- Appends one event to a story, unless its snapshot already shows what the event says. -/
def appendUnless (ctx : Ctx) (db : Database) (id : String) (shown : StorySnapshot → Bool)
    (event : StoryEvent) : Except AppError (Database × StorySnapshot) := do
  let (story, row) ← resolveStory db id
  if shown row.snapshot then return (db, row.snapshot)
  else appendAndFold ctx db story (.exact row.headSeq) [event]

def hide (ctx : Ctx) (db : Database) (id : String) :
    Except AppError (Database × StorySnapshot) := do
  let (_, row) ← resolveStory db id
  refuse (row.superstate != .closed) (.validation ("story `" ++ id ++
    "` is open; only a closed story can be archived"))
  appendUnless ctx db id (·.hiddenAt.isSome) (.storyHidden ctx.now)

def unhide (ctx : Ctx) (db : Database) (id : String) :
    Except AppError (Database × StorySnapshot) :=
  appendUnless ctx db id (·.hiddenAt.isNone) (.storyUnhidden ctx.now)

def publish (ctx : Ctx) (db : Database) (id : String) :
    Except AppError (Database × StorySnapshot) :=
  appendUnless ctx db id (!·.draft) (.storyPublished ctx.now)

def reopen (ctx : Ctx) (db : Database) (id : String) :
    Except AppError (Database × StorySnapshot) := do
  let (story, row) ← resolveStory db id
  admitStateChange db true row.snapshot
  refuse (!row.archived) (.validation ("story `" ++ id ++ "` is already open"))
  let target ← demand (defaultOpenState db.states)
    (.validation "project has no OPEN-mapped default state")
  appendAndFold ctx db story (.exact row.headSeq) [.storyStateChanged ctx.now target.slug]

def activeState (states : List StateDef) : Option StateDef :=
  (states.find? (·.role == some stateRoleActive)).or
    (match states.filter (·.superState == .open) with
      | [_, second] => some second
      | _ => none)

def noActiveStateError : AppError :=
  .validation ("no state has role `active`, and this project does not have exactly two OPEN " ++
    "states — a claim has no state to resolve into; set one with `story state set <slug> --role " ++
      "active`")

def claimStory (ctx : Ctx) (db : Database) (id : String) (comment : Option String) :
    Except AppError (Database × StorySnapshot) := do
  let active ← demand (activeState db.states) noActiveStateError
  let (story, row) ← resolveOpenStory db id
  refuse (row.state == active.slug) (.stateConflict "unclaimed" row.state)
  appendAndFold ctx db story (.exact row.headSeq)
    (stateTransitionEvents active row.awaiting.isSome ctx.now
      (comment.map (.storyCommentAdded ctx.now)).toList)

inductive StoryCommand where
  | create (input : NewStoryInput)
  | setState (id state : String) (comment ifState awaiting : Option String) (leased : Bool)
  | setFields (id : String) (edits : FieldEdits)
  | setAwaiting (id awaiting : String)
  | clearAwaiting (id : String)
  | blockOn (id : String) (blockers : List String) (awaiting : Option String)
  | unblockFrom (id : String) (blockers : List String)
  | relate (a relation b : String) (remove : Bool)
  | comment (id text : String)
  | setPriority (id priority : String)
  | setLabels (id : String) (add remove : List String)
  | hide (id : String)
  | unhide (id : String)
  | publish (id : String)
  | reopen (id : String)
  | claim (id : String) (comment : Option String)

def StoryCommand.run (ctx : Ctx) (db : Database) : StoryCommand → Except AppError Database
  | .create input => (Service.create ctx db input).map (·.1)
  | .setState id state text ifState awaiting leased =>
      (Service.setState ctx db id state text ifState awaiting leased).map (·.1)
  | .setFields id edits => (editFields ctx db id edits).map (·.1)
  | .setAwaiting id awaiting => (Service.setAwaiting ctx db id awaiting).map (·.1)
  | .clearAwaiting id => (Service.clearAwaiting ctx db id).map (·.1)
  | .blockOn id blockers awaiting => (Service.blockOn ctx db id blockers awaiting).map (·.1)
  | .unblockFrom id blockers => (Service.unblockFrom ctx db id blockers).map (·.1)
  | .relate a relation b remove => (Service.relate ctx db a relation b remove).map (·.1)
  | .comment id text => (Service.comment ctx db id text).map (·.1)
  | .setPriority id priority => (Service.setPriority ctx db id priority).map (·.1)
  | .setLabels id add remove => (Service.setLabels ctx db id add remove).map (·.1)
  | .hide id => (Service.hide ctx db id).map (·.1)
  | .unhide id => (Service.unhide ctx db id).map (·.1)
  | .publish id => (Service.publish ctx db id).map (·.1)
  | .reopen id => (Service.reopen ctx db id).map (·.1)
  | .claim id text => (claimStory ctx db id text).map (·.1)

/-- Whether a command's edit of a story's fields settles there; other commands always do. -/
def StoryCommand.settles (db : Database) : StoryCommand → Prop
  | .setFields id edits => ∀ story row, resolveOpenStory db id = .ok (story, row) →
      Settles (stateMap db.states) row.snapshot.awaiting.isSome (holdFields edits)
  | _ => True

theorem activeState_mem (states : List StateDef) (active : StateDef)
    (found : activeState states = some active) : active ∈ states := by
  unfold activeState at found
  rcases Option.or_eq_some_iff.mp found with role | ⟨-, second⟩
  · exact List.mem_of_find?_eq_some role
  · split at second
    · next first other pair =>
        have member : other ∈ states.filter (·.superState == .open) := by simp [pair]
        cases second
        exact (List.mem_filter.mp member).1
    · cases second

section Commands

variable (ctx : Ctx) (allowed : Allowance) (loud : allowed ≠ .quiet) (db after : Database)

theorem appendQuiet_steps (id : String) (story : StoryNo) (row : StoryRow)
    (expected : ExpectedSeq) (event : StoryEvent) (snapshot : StorySnapshot)
    (resolved : resolveStory db id = .ok (story, row)) (quiet : Quiet event)
    (written : appendAndFold ctx db story expected [event] = .ok (after, snapshot)) :
    Steps allowed db after := by
  obtain ⟨-, stored⟩ := resolveStory_ok db id story row resolved
  refine Relation.ReflTransGen.single
    (append_step ctx allowed db after story row expected _ snapshot
    stored (.quiet allowed _ ?_) written)
  simpa using quiet

theorem appendUnless_steps (id : String) (shown : StorySnapshot → Bool) (event : StoryEvent)
    (snapshot : StorySnapshot) (quiet : Quiet event)
    (ran : appendUnless ctx db id shown event = .ok (after, snapshot)) :
    Steps allowed db after := by
  simp only [appendUnless, bind_eq_ok, Prod.exists] at ran
  obtain ⟨story, row, resolved, written⟩ := ran
  split at written
  · cases written
    exact Relation.ReflTransGen.refl
  · exact appendQuiet_steps ctx allowed db after id story row _ event snapshot resolved quiet written

include loud

theorem appendMove_steps (story : StoryNo) (row : StoryRow) (expected : ExpectedSeq)
    (target : StateDef) (awaiting : Bool) (extra : List StoryEvent) (snapshot : StorySnapshot)
    (stored : db.stories[story]? = some row)
    (known : (stateMap db.states)[target.slug]? = some target)
    (read : awaiting = row.awaiting.isSome) (quiet : ∀ event ∈ extra, Quiet event)
    (written : appendAndFold ctx db story expected
      (stateTransitionEvents target awaiting ctx.now extra) = .ok (after, snapshot)) :
    Steps allowed db after :=
  Relation.ReflTransGen.single
    (append_step ctx allowed db after story row expected _ snapshot stored
    (.move allowed loud [] extra target awaiting ctx.now known (.inl read) (by simp)
      (Still.of_quiet extra quiet) (fun _ event member => (quiet event member).holds)) written)

theorem reopen_steps (distinct : (db.states.map StateDef.slug).Nodup) (id : String)
    (snapshot : StorySnapshot) (ran : reopen ctx db id = .ok (after, snapshot)) :
    Steps allowed db after := by
  simp only [reopen, bind_eq_ok, demand_ok, Prod.exists] at ran
  obtain ⟨story, row, resolved, -, -, -, -, target, found, written⟩ := ran
  obtain ⟨-, stored⟩ := resolveStory_ok db id story row resolved
  have opened : target.superState = .open := by simpa using List.find?_some found
  have known := stateMap_of_mem db.states distinct target (List.mem_of_find?_eq_some found)
  refine appendMove_steps ctx allowed loud db after story row (.exact row.headSeq) target
    row.awaiting.isSome [] snapshot stored known rfl (by simp) ?_
  simpa [stateTransitionEvents, opened] using written

theorem claimStory_steps (distinct : (db.states.map StateDef.slug).Nodup) (id : String)
    (text : Option String) (snapshot : StorySnapshot)
    (ran : claimStory ctx db id text = .ok (after, snapshot)) : Steps allowed db after := by
  simp only [claimStory, bind_eq_ok, demand_ok, Prod.exists] at ran
  obtain ⟨active, found, story, row, opened, -, -, written⟩ := ran
  obtain ⟨-, stored, -⟩ := resolveOpenStory_ok db id story row opened
  have known := stateMap_of_mem db.states distinct active (activeState_mem db.states active found)
  refine appendMove_steps ctx allowed loud db after story row _ active row.awaiting.isSome _ snapshot
    stored known rfl ?_ written
  intro event member
  obtain ⟨said, -, rfl⟩ := Option.map_eq_some_iff.mp (Option.mem_toList.mp member)
  exact ⟨rfl, rfl, rfl⟩

theorem StoryCommand.steps (distinct : (db.states.map StateDef.slug).Nodup)
    (command : StoryCommand) (settles : allowed = .settled → command.settles db)
    (ran : command.run ctx db = .ok after) : Steps allowed db after := by
  cases command with
  | create input =>
      obtain ⟨⟨last, snapshot⟩, created, rfl⟩ := (map_eq_ok _ _ _).mp ran
      exact create_steps ctx allowed loud db last input snapshot created
  | setState id state text ifState awaiting leased =>
      obtain ⟨⟨last, snapshot⟩, moved, rfl⟩ := (map_eq_ok _ _ _).mp ran
      exact setState_steps ctx allowed loud db last id state text ifState awaiting leased snapshot
        moved
  | setFields id edits =>
      obtain ⟨⟨last, message⟩, edited, rfl⟩ := (map_eq_ok _ _ _).mp ran
      exact editFields_steps ctx allowed loud db last id edits message settles edited
  | setAwaiting id awaiting =>
      obtain ⟨⟨last, snapshot⟩, held, rfl⟩ := (map_eq_ok _ _ _).mp ran
      simp only [Service.setAwaiting, bind_eq_ok] at held
      obtain ⟨-, -, held⟩ := held
      refine editStory_steps ctx allowed loud db last id _ snapshot ?_ held
      intro row events built
      cases built
      simpa using ⟨rfl, rfl⟩
  | clearAwaiting id =>
      obtain ⟨⟨last, snapshot⟩, cleared, rfl⟩ := (map_eq_ok _ _ _).mp ran
      refine editStory_steps ctx allowed loud db last id _ snapshot ?_ cleared
      intro row events built
      cases built
      split
      · simp
      · simpa using ⟨rfl, rfl⟩
  | blockOn id blockers awaiting =>
      obtain ⟨⟨last, touched⟩, blocked, rfl⟩ := (map_eq_ok _ _ _).mp ran
      exact edgeBatch_steps ctx allowed loud db last id blockers awaiting false touched blocked
  | unblockFrom id blockers =>
      obtain ⟨⟨last, touched⟩, unblocked, rfl⟩ := (map_eq_ok _ _ _).mp ran
      exact edgeBatch_steps ctx allowed loud db last id blockers none true touched unblocked
  | relate a relation b remove =>
      obtain ⟨⟨last, outcome⟩, related, rfl⟩ := (map_eq_ok _ _ _).mp ran
      exact relate_steps ctx allowed loud db last a relation b remove outcome related
  | comment id text =>
      obtain ⟨⟨last, snapshot⟩, written, rfl⟩ := (map_eq_ok _ _ _).mp ran
      simp only [Service.comment, bind_eq_ok, Prod.exists] at written
      obtain ⟨story, row, resolved, appended⟩ := written
      exact appendQuiet_steps ctx allowed db last id story row _ _ snapshot resolved ⟨rfl, rfl, rfl⟩
        appended
  | setPriority id priority =>
      obtain ⟨⟨last, snapshot⟩, ranked, rfl⟩ := (map_eq_ok _ _ _).mp ran
      simp only [Service.setPriority, bind_eq_ok] at ranked
      obtain ⟨level, -, ranked⟩ := ranked
      refine editStory_steps ctx allowed loud db last id _ snapshot ?_ ranked
      intro row events built
      cases built
      simpa using ⟨rfl, rfl⟩
  | setLabels id add remove =>
      obtain ⟨⟨last, snapshot⟩, labelled, rfl⟩ := (map_eq_ok _ _ _).mp ran
      simp only [Service.setLabels] at labelled
      refine editStory_steps ctx allowed loud db last id _ snapshot ?_ labelled
      intro row events built
      cases built
      simpa using ⟨rfl, rfl⟩
  | hide id =>
      obtain ⟨⟨last, snapshot⟩, hidden, rfl⟩ := (map_eq_ok _ _ _).mp ran
      simp only [Service.hide, bind_eq_ok, Prod.exists] at hidden
      obtain ⟨-, -, -, -, -, hidden⟩ := hidden
      exact appendUnless_steps ctx allowed db last id _ _ snapshot ⟨rfl, rfl, rfl⟩ hidden
  | unhide id =>
      obtain ⟨⟨last, snapshot⟩, shown, rfl⟩ := (map_eq_ok _ _ _).mp ran
      exact appendUnless_steps ctx allowed db last id _ _ snapshot ⟨rfl, rfl, rfl⟩ shown
  | publish id =>
      obtain ⟨⟨last, snapshot⟩, published, rfl⟩ := (map_eq_ok _ _ _).mp ran
      exact appendUnless_steps ctx allowed db last id _ _ snapshot ⟨rfl, rfl, rfl⟩ published
  | reopen id =>
      obtain ⟨⟨last, snapshot⟩, reopened, rfl⟩ := (map_eq_ok _ _ _).mp ran
      exact reopen_steps ctx allowed loud db last distinct id snapshot reopened
  | claim id text =>
      obtain ⟨⟨last, snapshot⟩, claimed, rfl⟩ := (map_eq_ok _ _ _).mp ran
      exact claimStory_steps ctx allowed loud db last distinct id text snapshot claimed

end Commands

end Storyhook.Service
