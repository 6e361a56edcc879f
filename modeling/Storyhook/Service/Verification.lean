import Storyhook.Domain.Certification
import Storyhook.Service.BothEnds
import Storyhook.Service.ReadModel

namespace Storyhook.Service

open Storyhook.Domain Storyhook.Store
open Library Library.Outcome

def overrideRefusal (id : String) : String :=
  "story `" ++ id ++ "` is under central verification; completing it by hand overrides the " ++
    "verifier and requires a reason: `story move " ++ id ++ " done \"<why>\"` records it as `" ++
    verificationOverriddenPrefix ++ " <why>` and the verifier withdraws its running attempt. " ++
    "To hand the story back without completing it, `story move " ++ id ++ " in-progress`."

/-- When the story last entered `verifying`, and the place of that event in the change feed. -/
def verifyingEntry (db : Database) (story : StoryNo) : Option (String × Nat) :=
  (((db.events[story]?).map (·.rows)).getD []).reverse.findSome? fun event =>
    match event.payload with
    | .known decoded => (entryAt decoded).map (·, event.globalSeq)
    | .unknown _ => none

def certifiedForCurrentStay (db : Database) (story : StoryNo) (row : StoryRow) : Bool :=
  let enteredAt := (verifyingEntry db story).map (·.1)
  row.snapshot.comments.any fun comment =>
    isGreen comment.text && enteredAt.all (· ≤ comment.atTime)

def completesStory (events : List StoryEvent) : Bool :=
  events.any fun event => match event with
    | .storyStateChanged _ state => state == completionStateSlug
    | _ => false

def bringsVerdict (events : List StoryEvent) : Bool :=
  events.any fun event => match event with
    | .storyCommentAdded _ text => carriesVerdict text
    | _ => false

/-- A story leaves `verifying` for the completion state only with a verdict. -/
def refuseUncertifiedCompletion (db : Database) (story : StoryNo) (events : List StoryEvent) :
    Except AppError Unit :=
  if !db.automationsEnabled then .ok ()
  else if !completesStory events then .ok ()
  else match db.stories[story]? with
    | none => .ok ()
    | some row =>
        if row.state != verifyingStateSlug then .ok ()
        else if bringsVerdict events then .ok ()
        else if certifiedForCurrentStay db story row then .ok ()
        else .error (.validation (overrideRefusal row.snapshot.id))

def appendAndFoldMaintenance (ctx : Ctx) (db : Database) (story : StoryNo)
    (expected : ExpectedSeq) (events : List StoryEvent) :
    Except AppError (Database × StorySnapshot) := do
  refuseUncertifiedCompletion db story events
  appendAndFold ctx db story expected events

def appendRestoredAndFold (ctx : Ctx) (db : Database) (story : StoryNo) (expected : ExpectedSeq)
    (events : List StoryEvent) : Except AppError (Database × StorySnapshot) := do
  let index := storyMap db
  if db.automationsEnabled then
    validateAppend (toId db.idPrefix story) db.states (fun id => index[id]?)
      (history db story) events
  appendAndFoldMaintenance ctx db story expected events

inductive Door where
  | ordinary
  | maintenance
  deriving DecidableEq, Repr

structure StoryAppend where
  door : Door
  ctx : Ctx
  story : StoryNo
  expected : ExpectedSeq
  events : List StoryEvent

def StoryAppend.run (append : StoryAppend) (db : Database) :
    Except AppError (Database × StorySnapshot) :=
  match append.door with
  | .ordinary => appendRestoredAndFold append.ctx db append.story append.expected append.events
  | .maintenance =>
      appendAndFoldMaintenance append.ctx db append.story append.expected append.events

def performAppend (db : Database) (append : StoryAppend) : Database :=
  match append.run db with
  | .ok (after, _) => after
  | .error _ => db

def runAppends (start : Database) (appends : List StoryAppend) : Database :=
  appends.foldl performAppend start

/-- An accepted batch that completes a story under central verification. -/
structure CompletesVerifying (db : Database) (append : StoryAppend) : Prop where
  enabled : db.automationsEnabled = true
  completes : completesStory append.events = true
  row : ∃ row : StoryRow, db.stories[append.story]? = some row ∧ row.state = verifyingStateSlug
  accepted : ∃ result, append.run db = .ok result

/-- Every completion of a story in `verifying` brings a verdict, or the log it is appended to has
a GREEN for the current stay. -/
def CompletionsCertified (start : Database) (appends : List StoryAppend) : Prop :=
  ∀ before append later, appends = before ++ append :: later →
    CompletesVerifying (runAppends start before) append →
      bringsVerdict append.events = true ∨
        GreenSinceEntry (history (runAppends start before) append.story)

/-- The completions that bring no verdict are of stories whose earlier verdicts are dated. -/
def TimelyCompletions (start : Database) (appends : List StoryAppend) : Prop :=
  ∀ before append later, appends = before ++ append :: later →
    CompletesVerifying (runAppends start before) append → bringsVerdict append.events = false →
      Timely (history (runAppends start before) append.story)

theorem verifyingEntry_time (db : Database) (story : StoryNo) :
    (verifyingEntry db story).map (·.1) = (history db story).reverse.findSome? entryAt := by
  rw [verifyingEntry, history]
  cases db.events[story]? with
  | none => rfl
  | some log =>
      simp only [Option.map_some, Option.getD_some, partitionKnown, ← List.filterMap_reverse]
      induction log.rows.reverse with
      | nil => rfl
      | cons event rest same =>
          rw [List.findSome?_cons, List.filterMap_cons]
          cases event.payload with
          | unknown kind => exact same
          | known decoded =>
              cases entered : entryAt decoded with
              | some atTime => simp [entered]
              | none => simpa [entered] using same

theorem run_writes (db after : Database) (append : StoryAppend) (snapshot : StorySnapshot)
    (ran : append.run db = .ok (after, snapshot)) :
    refuseUncertifiedCompletion db append.story append.events = .ok () ∧
      Wrote db after append.story append.events snapshot := by
  have passed (maintained : appendAndFoldMaintenance append.ctx db append.story append.expected
      append.events = .ok (after, snapshot)) :
      refuseUncertifiedCompletion db append.story append.events = .ok () ∧
        Wrote db after append.story append.events snapshot := by
    simp only [appendAndFoldMaintenance, bind_eq_ok] at maintained
    obtain ⟨_, admitted, written⟩ := maintained
    exact ⟨admitted, appendAndFold_ok _ _ _ _ _ _ _ written⟩
  rw [StoryAppend.run] at ran
  split at ran
  · simp only [appendRestoredAndFold] at ran
    split at ran
    · obtain ⟨_, _, maintained⟩ := (bind_eq_ok _ _ _).mp ran
      exact passed maintained
    · exact passed ran
  · exact passed ran

theorem performAppend_folds (db : Database) (append : StoryAppend) (folded : Folded db) :
    Folded (performAppend db append) := by
  rw [performAppend]
  split
  · next after snapshot ran =>
      exact (run_writes db after append snapshot ran).2.folds _ _ _ _ _ folded
  · exact folded

theorem runAppends_folds (start : Database) (appends : List StoryAppend) (folded : Folded start) :
    Folded (runAppends start appends) := by
  induction appends generalizing start with
  | nil => exact folded
  | cons append rest further => exact further _ (performAppend_folds start append folded)

theorem row_comments (db : Database) (folded : Folded db) (story : StoryNo) (row : StoryRow)
    (stored : db.stories[story]? = some row) :
    row.snapshot.comments = (liveComments (history db story)).map (·.2) := by
  obtain ⟨_, _, _, _, _, _, _, _, _, same⟩ := (finishFold_ok _ _ _ _).mp (folded story row stored)
  rw [same, ← replay_comments (stateMap db.states)]
  rfl

/-- What the write path lets through has a verdict of its own, or a GREEN the read model shows and
that is dated since the story last entered `verifying`. -/
theorem admitted_green (db : Database) (folded : Folded db) (append : StoryAppend)
    (completing : CompletesVerifying db append) (bare : bringsVerdict append.events = false) :
    ∃ live ∈ liveComments (history db append.story), isGreen live.2.text = true ∧
      ∀ atTime ∈ (history db append.story).reverse.findSome? entryAt, atTime ≤ live.2.atTime := by
  obtain ⟨row, stored, verifying⟩ := completing.row
  obtain ⟨⟨after, snapshot⟩, ran⟩ := completing.accepted
  have admitted := (run_writes db after append snapshot ran).1
  have certified : certifiedForCurrentStay db append.story row = true := by
    by_contra uncertified
    simp [refuseUncertifiedCompletion, completing.enabled, completing.completes, stored, verifying,
      bare, uncertified] at admitted
  rw [certifiedForCurrentStay, verifyingEntry_time, List.any_eq_true] at certified
  obtain ⟨comment, shown, dated⟩ := certified
  rw [row_comments db folded _ row stored] at shown
  obtain ⟨live, member, rfl⟩ := List.mem_map.mp shown
  rw [Bool.and_eq_true] at dated
  refine ⟨live, member, dated.1, fun atTime entered => ?_⟩
  rw [Option.mem_def.mp entered] at dated
  exact of_decide_eq_true dated.2

theorem completions_certified (start : Database) (appends : List StoryAppend)
    (folded : Folded start) (timely : TimelyCompletions start appends) :
    CompletionsCertified start appends := by
  intro before append later placed completing
  cases brought : bringsVerdict append.events with
  | true => exact .inl rfl
  | false =>
      have there := runAppends_folds start before folded
      obtain ⟨live, member, green, dated⟩ := admitted_green _ there append completing brought
      exact .inr ((timely before append later placed completing brought).since _ live member green
        dated)

def plainAppend (events : List StoryEvent) : StoryAppend where
  door := .ordinary
  ctx := plainCtx "2026-01-05T10:00:00Z"
  story := 1
  expected := .any
  events := events

def submitted (atTime : String) : StoryAppend := plainAppend [
  .storyCreated atTime "first" "todo", .storyTypeSet atTime "normal",
  .storyPrioritySet atTime .medium, .storyStateChanged atTime verifyingStateSlug]

def judgedGreen (atTime : String) : StoryAppend :=
  plainAppend [.storyCommentAdded atTime (verificationGreenPrefix ++ " merge tree passed")]

def finished (atTime : String) : StoryAppend := plainAppend [
  .storyStateChanged atTime completionStateSlug, .storyClosedAndArchived atTime completionStateSlug]

def certifiedPath : List StoryAppend :=
  [submitted "2026-01-05T10:00:00Z", judgedGreen "2026-01-05T10:00:05Z",
    finished "2026-01-05T10:00:06Z"]

theorem completions_certified_once :
    CompletionsCertified (emptyProject "SH" defaultStates defaultTypes true) certifiedPath := by
  refine completions_certified _ _ ?_ ?_
  · intro no row stored
    cases stored
  · rintro before append later placed completing -
    obtain _ | ⟨first, _ | ⟨second, _ | ⟨third, further⟩⟩⟩ := before
    · cases placed
      exact absurd completing.completes (by decide +kernel)
    · cases placed
      exact absurd completing.completes (by decide +kernel)
    · cases placed
      decide +kernel
    · cases further <;> cases placed

/-- A verdict given, the story handed back and submitted again, all within one second. -/
def resubmittedPath : List StoryAppend :=
  [submitted "2026-01-05T10:00:00Z", judgedGreen "2026-01-05T10:00:05Z",
    plainAppend [.storyStateChanged "2026-01-05T10:00:05Z" "in-progress"],
    plainAppend [.storyStateChanged "2026-01-05T10:00:05Z" verifyingStateSlug]]

/-- The verdict on the earlier submission completes the story. -/
theorem earlier_verdict_completes : ¬ ∀ start appends, Folded start →
    start.automationsEnabled = true → CompletionsCertified start appends := by
  intro certified
  have stood := certified (emptyProject "SH" defaultStates defaultTypes true)
    (resubmittedPath ++ [finished "2026-01-05T10:00:06Z"])
    (fun no row stored => by cases stored) rfl resubmittedPath _ [] rfl
  have completing : CompletesVerifying (runAppends (emptyProject "SH" defaultStates defaultTypes true)
      resubmittedPath) (finished "2026-01-05T10:00:06Z") := by
    refine ⟨by decide +kernel, by decide +kernel, ?_, ?_⟩
    · obtain ⟨row, stored, verifying⟩ := (Option.any_eq_true _ _).mp (by decide +kernel :
        ((runAppends (emptyProject "SH" defaultStates defaultTypes true)
          resubmittedPath).stories[1]?).any (·.state = verifyingStateSlug) = true)
      exact ⟨row, stored, of_decide_eq_true verifying⟩
    · obtain ⟨result, ran, -⟩ := any_ok _ (fun _ => true) (by decide +kernel :
        ((finished "2026-01-05T10:00:06Z").run (runAppends
          (emptyProject "SH" defaultStates defaultTypes true) resubmittedPath)).toOption.any
            (fun _ => true) = true)
      exact ⟨result, ran⟩
  rcases stood completing with brought | since
  · exact absurd brought (by decide +kernel)
  · exact absurd since (by decide +kernel)

end Storyhook.Service
