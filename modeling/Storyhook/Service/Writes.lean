import Storyhook.Domain.CatalogFold
import Storyhook.Library.Runs
import Storyhook.Service.Config
import Storyhook.Service.FieldEdits

/-! What a command appends, batch by batch. -/

namespace Storyhook.Service

open Storyhook.Domain Storyhook.Store
open Library Library.Outcome

/-- The state events of a compensation: none, a bare move, or a move and its close marker. -/
inductive Restates : List StoryEvent → Prop
  | stays : Restates []
  | moves (now state : String) : Restates [.storyStateChanged now state]
  | closes (now state : String) (clearing : List StoryEvent)
      (still : ∀ event ∈ clearing, Still event) :
      Restates ([.storyStateChanged now state] ++ clearing ++ [.storyClosedAndArchived now state])

def namesClosedState (states : StateCatalog) (slug : String) : Bool :=
  (states[slug]?).any (·.superState == .closed)

def HoldField.closes (states : StateCatalog) : HoldField → Option Bool
  | .move slug => some (namesClosedState states slug)
  | _ => none

/-- Whether a field leaves a hold or takes it back. A move that closes the story takes back the
one it had before the edit. -/
def HoldField.holds (states : StateCatalog) (awaiting : Bool) : HoldField → Option Bool
  | .set => some true
  | .clear => some false
  | .move slug => if namesClosedState states slug && awaiting then some false else none

/-- Where the last move closes the story, the last field to touch its hold does not set one. -/
def Settles (states : StateCatalog) (awaiting : Bool) (fields : List HoldField) : Prop :=
  (fields.filterMap (HoldField.closes states)).getLast? = some true →
    (fields.filterMap (HoldField.holds states awaiting)).getLast? ≠ some true

instance (states : StateCatalog) (awaiting : Bool) (fields : List HoldField) :
    Decidable (Settles states awaiting fields) := by
  unfold Settles
  infer_instance

/-- What the batches of a run may do: nothing to a story's state or hold, no leaving a closed
story held, or anything. -/
inductive Allowance where
  | quiet
  | settled
  | loose
  deriving DecidableEq

/-- A batch a command appends to a story that stands in the given row. -/
inductive Batch (states : StateCatalog) (row : StoryRow) : Allowance → List StoryEvent → Prop
  | quiet (allowed : Allowance) (events : List StoryEvent)
      (quiet : ∀ event ∈ events, Quiet event) : Batch states row allowed events
  | hold (allowed : Allowance) (loud : allowed ≠ .quiet) (events : List StoryEvent)
      (still : ∀ event ∈ events, Still event) (unarchived : row.archived = false) :
      Batch states row allowed events
  | move (allowed : Allowance) (loud : allowed ≠ .quiet) (opening extra : List StoryEvent)
      (target : StateDef) (awaiting : Bool) (now : String)
      (known : states[target.slug]? = some target)
      (read : awaiting = row.awaiting.isSome ∨ awaiting = row.snapshot.awaiting.isSome)
      (quiet : ∀ event ∈ opening, Quiet event) (still : ∀ event ∈ extra, Still event)
      (unheld : target.superState = .closed → ∀ event ∈ extra, holdOf event = none) :
      Batch states row allowed (opening ++ stateTransitionEvents target awaiting now extra)
  | epic (allowed : Allowance) (loud : allowed ≠ .quiet) (now text : String) (target : StateDef)
      (known : states[target.slug]? = some target) :
      Batch states row allowed [.storyCommentAdded now text, .storyStateChanged now target.slug,
        .storyStateCleared now]
  | edit (allowed : Allowance) (loud : allowed ≠ .quiet) (now : String)
      (writes : List FieldWrite)
      (known : ∀ slug target, .state slug target ∈ writes →
        target.slug = slug ∧ states[slug]? = some target)
      (unarchived : row.archived = false)
      (settles : allowed = .settled → Settles states row.snapshot.awaiting.isSome
        (writes.filterMap FieldWrite.holdField)) :
      Batch states row allowed (editPlan now row.snapshot.awaiting.isSome writes).events
  | compensation (front middle back : List StoryEvent) (before : ∀ event ∈ front, Still event)
      (restates : Restates middle) (later : ∀ event ∈ back, Still event) :
      Batch states row .loose (front ++ middle ++ back)

structure Opening (event : StoryEvent) : Prop where
  closes : movesClosure event = false
  holds : holdOf event = none

def Checked (snapshot : StorySnapshot) : Prop :=
  snapshot.superstate = .closed ↔ snapshot.closedAt.isSome = true

/-- A command's next change: one batch of a story's, or a new story's first. -/
inductive Step (allowed : Allowance) (db : Database) : Database → Prop
  | append (after : Database) (story : StoryNo) (row : StoryRow) (events : List StoryEvent)
      (snapshot : StorySnapshot) (stored : db.stories[story]? = some row)
      (batch : Batch (stateMap db.states) row allowed events)
      (wrote : Wrote db after story events snapshot) (checked : Checked snapshot) :
      Step allowed db after
  | create (after : Database) (loud : allowed ≠ .quiet) (events : List StoryEvent)
      (snapshot : StorySnapshot) (opening : ∀ event ∈ events, Opening event)
      (wrote : Wrote (allocateStoryNo db).1 after db.nextStoryNo events snapshot)
      (checked : Checked snapshot) : Step allowed db after

abbrev Steps (allowed : Allowance) : Database → Database → Prop := Runs.Reachable (Step allowed)

theorem checkRow_ok (row : StoryRow) (done : Unit) (checked : checkRow row = .ok done) :
    row.superstate = .closed ↔ row.archived = true := by
  have agree : ((row.superstate == .closed) != row.archived) = false := by
    rw [← Bool.not_eq_true]
    intro apart
    cases untyped : row.storyType.isNone <;> cases unranked : row.priority == .none <;>
      simp [checkRow, untyped, unranked, apart, bind, Except.bind, throw, throwThe,
        MonadExceptOf.throw] at checked
  have same : (row.superstate == .closed) = row.archived := by simpa using agree
  rw [← same, beq_iff_eq]

theorem putStory_checked (db after : Database) (snapshot : StorySnapshot) (head : Nat)
    (written : putStory db snapshot head = .ok after) : Checked snapshot := by
  simp only [putStory, bind_eq_ok] at written
  obtain ⟨story, -, done, checked, -⟩ := written
  exact checkRow_ok _ done checked

theorem append_checked (ctx : Ctx) (db after : Database) (story : StoryNo)
    (expected : ExpectedSeq) (events : List StoryEvent) (snapshot : StorySnapshot)
    (written : appendAndFold ctx db story expected events = .ok (after, snapshot)) :
    Checked snapshot := by
  simp only [appendAndFold, bind_eq_ok, pure_eq_ok, Prod.exists, Prod.mk.injEq] at written
  obtain ⟨-, -, middle, head, -, folded, -, result, put, -, rfl⟩ := written
  exact putStory_checked middle result folded head put

theorem Step.states (allowed : Allowance) (db after : Database) (step : Step allowed db after) :
    after.states = db.states := by
  cases step with
  | append story row events snapshot stored batch wrote checked => exact wrote.states
  | create loud events snapshot opening wrote checked => exact wrote.states

theorem Steps.states (allowed : Allowance) (db after : Database) (steps : Steps allowed db after) :
    after.states = db.states :=
  Runs.reachable_invariant (Step allowed) (fun state => state.states = db.states) db after rfl
    (fun before next same step => (step.states allowed before next).trans same) steps

theorem Step.present (allowed : Allowance) (db after : Database) (step : Step allowed db after)
    (no : StoryNo) (row : StoryRow) (stored : db.stories[no]? = some row) :
    ∃ later, after.stories[no]? = some later := by
  have kept {middle story events snapshot} (wrote : Wrote middle after story events snapshot)
      (found : middle.stories[no]? = some row) : ∃ later, after.stories[no]? = some later := by
    by_cases own : story = no
    · obtain ⟨later, listed, -⟩ := wrote.row
      exact ⟨later, own ▸ listed⟩
    · exact ⟨row, (wrote.row_elsewhere _ _ _ _ _ no own).trans found⟩
  cases step with
  | append story other events snapshot _ batch wrote checked => exact kept wrote stored
  | create loud events snapshot opening wrote checked => exact kept wrote stored

theorem Steps.present (allowed : Allowance) (db after : Database) (steps : Steps allowed db after)
    (no : StoryNo) (row : StoryRow) (stored : db.stories[no]? = some row) :
    ∃ later, after.stories[no]? = some later :=
  Runs.reachable_invariant (Step allowed) (fun state => ∃ later, state.stories[no]? = some later)
    db after ⟨row, stored⟩
    (fun before next found step => found.elim fun present listed =>
      step.present allowed before next no present listed) steps

section Appends

variable (ctx : Ctx) (allowed : Allowance) (db after : Database) (story : StoryNo) (row : StoryRow)
  (expected : ExpectedSeq) (events : List StoryEvent) (snapshot : StorySnapshot)
  (stored : db.stories[story]? = some row) (batch : Batch (stateMap db.states) row allowed events)

include stored batch

theorem append_step (written : appendAndFold ctx db story expected events = .ok (after, snapshot)) :
    Step allowed db after :=
  .append after story row events snapshot stored batch
    (appendAndFold_ok ctx db after story expected events snapshot written)
    (append_checked ctx db after story expected events snapshot written)

theorem appendSome_steps (written : appendSome ctx db story expected events = .ok after) :
    Steps allowed db after := by
  unfold appendSome at written
  split at written
  · cases written
    exact Relation.ReflTransGen.refl
  · obtain ⟨⟨result, folded⟩, ran, rfl⟩ := (map_eq_ok _ _ _).mp written
    exact Relation.ReflTransGen.single
      (append_step ctx allowed db result story row expected events folded stored batch ran)

end Appends

theorem edgeEvents_quiet (now : String) (story : StorySnapshot) (relation otherId : String)
    (remove : Bool) : ∀ event ∈ edgeEvents now story relation otherId remove, Quiet event := by
  intro event member
  simp only [edgeEvents] at member
  split at member <;> split at member <;> simp only [List.mem_singleton, List.not_mem_nil] at member
  all_goals
    subst member
    exact ⟨rfl, rfl, rfl⟩

theorem retractDependent_steps (ctx : Ctx) (allowed : Allowance) (blockerId : String)
    (db after : Database) (dependent : StoryNo)
    (ran : retractDependent ctx blockerId db dependent = .ok after) : Steps allowed db after := by
  unfold retractDependent at ran
  split at ran
  · cases ran
    exact Relation.ReflTransGen.refl
  · next row stored =>
      split at ran
      · obtain ⟨⟨result, folded⟩, written, rfl⟩ := (map_eq_ok _ _ _).mp ran
        refine Relation.ReflTransGen.single
          (append_step ctx allowed db result dependent row _ _ folded stored
            (.quiet allowed _ ?_) written)
        simpa using ⟨rfl, rfl, rfl⟩
      · cases ran
        exact Relation.ReflTransGen.refl

theorem foldlM_steps {ι : Type} (allowed : Allowance)
    (act : Database → ι → Except AppError Database)
    (items : List ι) (turns : ∀ item ∈ items, ∀ before after,
      act before item = .ok after → Steps allowed before after)
    (db after : Database) (ran : items.foldlM act db = .ok after) : Steps allowed db after := by
  have reached := Runs.foldlM_reachable (Steps allowed) act items turns db after ran
  rwa [Runs.Reachable, Relation.reflTransGen_eq_self] at reached

theorem retractClosedBlockerEdges_steps (ctx : Ctx) (allowed : Allowance) (db after : Database)
    (blocker : StoryNo) (events : List StoryEvent)
    (ran : retractClosedBlockerEdges ctx db blocker = .ok (after, events)) :
    Steps allowed db after := by
  simp only [retractClosedBlockerEdges, bind_eq_ok, pure_eq_ok, demand_ok, Prod.mk.injEq] at ran
  obtain ⟨middle, loop, row, stored, last, written, rfl, -⟩ := ran
  refine (foldlM_steps allowed _ _ (fun dependent _ before next stepped =>
    retractDependent_steps ctx allowed _ before next dependent stepped) db middle loop).trans ?_
  refine appendSome_steps ctx allowed middle last blocker row _ _ stored
    (.quiet allowed _ ?_) written
  intro event member
  obtain ⟨dependent, -, rfl⟩ := List.mem_map.mp member
  exact ⟨rfl, rfl, rfl⟩

theorem retractIf_steps (ctx : Ctx) (allowed : Allowance) (closes : Bool) (db after : Database)
    (story : StoryNo)
    (ran : retractIf ctx closes db story = .ok after) : Steps allowed db after := by
  unfold retractIf at ran
  split at ran
  · obtain ⟨⟨result, events⟩, retracted, rfl⟩ := (map_eq_ok _ _ _).mp ran
    exact retractClosedBlockerEdges_steps ctx allowed db result story events retracted
  · cases ran
    exact Relation.ReflTransGen.refl

theorem settleParent_batch (ctx : Ctx) (allowed : Allowance) (loud : allowed ≠ .quiet)
    (states : List StateDef)
    (effective : StoryMap) (id : String) (row : StoryRow) (events settled : List StoryEvent)
    (remove closes : Bool) (quiet : ∀ event ∈ events, Quiet event)
    (ran : settleParent ctx (stateMap states) effective id row events remove =
      .ok (settled, closes)) : Batch (stateMap states) row allowed settled := by
  unfold settleParent at ran
  split at ran
  · split at ran
    · split at ran
      · obtain ⟨target, found, same⟩ := (map_eq_ok _ _ _).mp ran
        cases same
        have known := (demand_ok _ _ _).mp found
        have named := (stateMap_some states _ target known).2
        refine .move allowed loud events [] target _ ctx.now (named.symm ▸ known)
          (Or.inr rfl) quiet ?_ ?_
        · simp
        · simp
      · cases ran
        exact .quiet allowed events quiet
    · cases ran
      exact .quiet allowed events quiet
  · split at ran
    · cases ran
      refine .quiet allowed _ ?_
      intro event member
      rcases List.mem_append.mp member with inside | last
      · exact quiet event inside
      · rw [List.mem_singleton.mp last]
        exact ⟨rfl, rfl, rfl⟩
    · cases ran
      exact .quiet allowed events quiet

theorem appendSome_elsewhere (ctx : Ctx) (db after : Database) (story : StoryNo)
    (expected : ExpectedSeq) (events : List StoryEvent) (no : StoryNo) (other : story ≠ no)
    (written : appendSome ctx db story expected events = .ok after) :
    after.stories[no]? = db.stories[no]? := by
  unfold appendSome at written
  split at written
  · cases written
    rfl
  · obtain ⟨⟨result, folded⟩, ran, rfl⟩ := (map_eq_ok _ _ _).mp written
    exact (appendAndFold_ok ctx db result story expected events folded ran).row_elsewhere
      _ _ _ _ _ no other

theorem relate_steps (ctx : Ctx) (allowed : Allowance) (loud : allowed ≠ .quiet)
    (db after : Database) (a relation b : String)
    (remove : Bool) (outcome : RelationOutcome)
    (ran : relate ctx db a relation b remove = .ok (after, outcome)) : Steps allowed db after := by
  simp only [relate, bind_eq_ok, demand_ok, refuse_ok, Prod.exists] at ran
  obtain ⟨aNo, aRow, resolved, bNo, bRow, found, -, apart, edges, -, -, -, ⟨⟩, -, aEvents, aCloses,
    aSettled, bEvents, bCloses, bSettled, written⟩ := ran
  obtain ⟨spelledA, storedA, -⟩ := resolveOpenStory_ok db a aNo aRow resolved
  obtain ⟨spelledB, storedB⟩ := resolveStory_ok db b bNo bRow found
  have other : bNo ≠ aNo := by
    rintro rfl
    rw [spelledA, spelledB] at apart
    simp at apart
  have quiet (story : StorySnapshot) (id : String) (side : String × String → String) :
      ∀ event ∈ edges.flatMap fun edge => edgeEvents ctx.now story (side edge) id remove,
        Quiet event := by
    intro event member
    obtain ⟨edge, -, inside⟩ := List.mem_flatMap.mp member
    exact edgeEvents_quiet _ _ _ _ _ event inside
  have aBatch := settleParent_batch ctx allowed loud _ _ _ _ _ _ _ _
    (quiet aRow.snapshot b (·.1)) aSettled
  have bBatch := settleParent_batch ctx allowed loud _ _ _ _ _ _ _ _
    (quiet bRow.snapshot a (·.2)) bSettled
  split at written
  · cases written
    exact Relation.ReflTransGen.refl
  · simp only [bind_eq_ok, pure_eq_ok, demand_ok, Prod.mk.injEq] at written
    obtain ⟨first, bWritten, second, aWritten, third, aRetracted, last, bRetracted, -, -, rfl, -⟩ :=
      written
    have one := appendSome_steps ctx allowed db first bNo bRow _ _ storedB bBatch bWritten
    have still := appendSome_elsewhere ctx db first bNo _ _ aNo other bWritten
    have two := appendSome_steps ctx allowed first second aNo aRow _ _ (still.trans storedA)
      (one.states allowed db first ▸ aBatch) aWritten
    exact ((one.trans two).trans
      (retractIf_steps ctx allowed aCloses second third aNo aRetracted)).trans
      (retractIf_steps ctx allowed bCloses third last bNo bRetracted)

section Blockers

variable (ctx : Ctx) (allowed : Allowance) (db after : Database) (blockers : List ResolvedBlocker)
  (subjectId : String) (remove : Bool) (touched : List String)
  (ran : appendBlocksEdges ctx db blockers subjectId remove = .ok (after, touched))

include ran

theorem appendBlocksEdges_steps (present : ∀ blocker ∈ blockers,
      ∃ row : StoryRow, db.stories[blocker.no]? = some row) : Steps allowed db after := by
  refine foldlM_ok _ (fun _ state => Steps allowed db state.1) blockers ?_ (db, []) (after, touched)
    Relation.ReflTransGen.refl ran
  intro done blocker rest before next split steps stepped
  obtain ⟨row, stored⟩ := present blocker (by simp [split])
  obtain ⟨later, found⟩ := Steps.present allowed db before.1 steps blocker.no row stored
  simp only [appendBlocksEdge, bind_eq_ok, pure_eq_ok] at stepped
  obtain ⟨written, appended, rfl⟩ := stepped
  exact steps.trans (appendSome_steps ctx allowed before.1 written blocker.no later _ _ found
    (.quiet allowed _ (edgeEvents_quiet _ _ _ _ _)) appended)

theorem appendBlocksEdges_elsewhere (no : StoryNo)
    (other : ∀ blocker ∈ blockers, blocker.no ≠ no) : after.stories[no]? = db.stories[no]? := by
  refine foldlM_ok _ (fun _ state => state.1.stories[no]? = db.stories[no]?) blockers ?_ (db, [])
    (after, touched) rfl ran
  intro done blocker rest before next split same stepped
  simp only [appendBlocksEdge, bind_eq_ok, pure_eq_ok] at stepped
  obtain ⟨written, appended, rfl⟩ := stepped
  exact (appendSome_elsewhere ctx before.1 written blocker.no _ _ no
    (other blocker (by simp [split])) appended).trans same

end Blockers

theorem resolveBlockers_apart (db : Database) (subject : StoryNo) (blockers : List String)
    (resolved : List ResolvedBlocker)
    (ran : resolveBlockers db (some (toId db.idPrefix subject)) blockers = .ok resolved) :
    ∀ blocker ∈ resolved, blocker.no ≠ subject := by
  intro blocker member
  obtain ⟨id, -, found⟩ := mapM_ok _ _ _ ran blocker member
  simp only [resolveBlocker, bind_eq_ok, refuse_ok, pure_eq_ok, Prod.exists] at found
  obtain ⟨-, apart, no, row, located, rfl⟩ := found
  obtain ⟨spelled, -⟩ := resolveStory_ok db id no row located
  rintro rfl
  rw [spelled] at apart
  simp at apart

theorem awaitingEvents_still (ctx : Ctx) (blockers : List ResolvedBlocker)
    (awaiting : Option String) (events : List StoryEvent)
    (ran : awaitingEvents ctx blockers awaiting = .ok events) : ∀ event ∈ events, Still event := by
  unfold awaitingEvents at ran
  split at ran
  · cases ran
    simp
  · simp only at ran
    split at ran
    · cases ran
    · split at ran <;> cases ran <;> simpa using ⟨rfl, rfl⟩

theorem edgeBatch_steps (ctx : Ctx) (allowed : Allowance) (loud : allowed ≠ .quiet)
    (db after : Database) (id : String)
    (blockers : List String) (awaiting : Option String) (remove : Bool) (touched : List String)
    (ran : edgeBatch ctx db id blockers awaiting remove = .ok (after, touched)) :
    Steps allowed db after := by
  simp only [edgeBatch, bind_eq_ok, pure_eq_ok, Prod.exists, Prod.mk.injEq] at ran
  obtain ⟨aNo, aRow, opened, resolved, located, middle, changed, blocksRan, reasons, explained,
    last, written, rfl, -⟩ := ran
  obtain ⟨spelled, stored, unarchived⟩ := resolveOpenStory_ok db id aNo aRow opened
  have found := resolveBlockers_ok db _ blockers resolved located
  rw [spelled] at located
  have first := appendBlocksEdges_steps ctx allowed db middle resolved id remove changed blocksRan
    fun blocker member => ⟨_, (found blocker member).2⟩
  have same := appendBlocksEdges_elsewhere ctx db middle resolved id remove changed blocksRan aNo
    (resolveBlockers_apart db aNo blockers resolved located)
  refine first.trans (appendSome_steps ctx allowed middle last aNo aRow _ _ (same.trans stored)
    (.hold allowed loud _ ?_ unarchived) written)
  intro event member
  rcases List.mem_append.mp member with edge | reason
  · obtain ⟨blocker, -, inside⟩ := List.mem_flatMap.mp edge
    exact (edgeEvents_quiet _ _ _ _ _ event inside).still
  · exact awaitingEvents_still ctx resolved awaiting reasons explained event reason

theorem creationBatch_opening (ctx : Ctx) (title state : String) (draft : Bool)
    (complexity : Option Complexity) (priority : Priority) (labels : Option (List String))
    (description : Option String) (storyType : String) :
    ∀ event ∈ creationBatch ctx title state draft complexity priority labels description storyType,
      Opening event := by
  intro event member
  simp only [creationBatch, List.mem_append, List.mem_singleton, Option.mem_toList,
    Option.map_eq_some_iff] at member
  rcases member with (((((rfl | drafted) | ⟨level, -, rfl⟩) | rfl) | labelled) | ⟨text,
    -, rfl⟩) | rfl
  · exact ⟨rfl, rfl⟩
  · split at drafted <;> simp only [List.mem_singleton, List.not_mem_nil] at drafted
    subst drafted
    exact ⟨rfl, rfl⟩
  · exact ⟨rfl, rfl⟩
  · exact ⟨rfl, rfl⟩
  · split at labelled <;> simp only [List.mem_singleton, List.not_mem_nil] at labelled
    subst labelled
    exact ⟨rfl, rfl⟩
  · exact ⟨rfl, rfl⟩
  · exact ⟨rfl, rfl⟩

theorem appendNew_step (ctx : Ctx) (allowed : Allowance) (loud : allowed ≠ .quiet)
    (db after : Database) (expected : ExpectedSeq) (events : List StoryEvent)
    (snapshot : StorySnapshot)
    (opening : ∀ event ∈ events, Opening event)
    (written : appendAndFold ctx (allocateStoryNo db).1 (allocateStoryNo db).2 expected events =
      .ok (after, snapshot)) : Step allowed db after :=
  .create after loud events snapshot opening
    (appendAndFold_ok ctx _ after _ expected events snapshot written)
    (append_checked ctx _ after _ expected events snapshot written)

theorem create_steps (ctx : Ctx) (allowed : Allowance) (loud : allowed ≠ .quiet)
    (db after : Database) (input : NewStoryInput) (snapshot : StorySnapshot)
    (ran : create ctx db input = .ok (after, snapshot)) :
    Steps allowed db after := by
  simp only [create, bind_eq_ok, pure_eq_ok, Prod.exists, Prod.mk.injEq] at ran
  obtain ⟨base, batched, blockers, located, -, -, created, first, written, last, touched, linked,
    rfl, -⟩ := ran
  simp only [baseCreationEvents, bind_eq_ok, pure_eq_ok] at batched
  obtain ⟨storyType, -, priority, -, state, -, complexity, -, rfl⟩ := batched
  have found := resolveBlockers_ok db none input.blockedBy blockers located
  have step := appendNew_step ctx allowed loud db created _ _ first (by
    intro event member
    rcases List.mem_append.mp member with inBase | edge
    · exact creationBatch_opening _ _ _ _ _ _ _ _ _ event inBase
    · obtain ⟨blocker, -, rfl⟩ := List.mem_map.mp edge
      exact ⟨rfl, rfl⟩) written
  have steps := Relation.ReflTransGen.single step
  exact steps.trans (appendBlocksEdges_steps ctx allowed created last blockers _ _ touched linked
    fun blocker member => Steps.present allowed db created steps blocker.no _
      (found blocker member).2)

theorem appendStateTransition_steps (ctx : Ctx) (allowed : Allowance) (loud : allowed ≠ .quiet)
    (db after : Database)
    (story : StoryNo) (row : StoryRow) (target : StateDef) (extra : List StoryEvent)
    (snapshot : StorySnapshot) (stored : db.stories[story]? = some row)
    (known : (stateMap db.states)[target.slug]? = some target)
    (still : ∀ event ∈ extra, Still event)
    (unheld : target.superState = .closed → ∀ event ∈ extra, holdOf event = none)
    (ran : appendStateTransition ctx db story row target extra = .ok (after, snapshot)) :
    Steps allowed db after := by
  simp only [appendStateTransition, bind_eq_ok, pure_eq_ok, demand_ok, Prod.exists,
    Prod.mk.injEq] at ran
  obtain ⟨moved, first, written, last, retracted, -, -, rfl, -⟩ := ran
  have step := append_step ctx allowed db moved story row _ _ first stored
    (.move allowed loud [] extra target _ ctx.now known (Or.inl rfl) (by simp) still unheld) written
  exact (Relation.ReflTransGen.single step).trans
    (retractIf_steps ctx allowed _ moved last story retracted)

theorem setState_steps (ctx : Ctx) (allowed : Allowance) (loud : allowed ≠ .quiet)
    (db after : Database) (id state : String)
    (comment ifState awaiting : Option String) (leased : Bool) (snapshot : StorySnapshot)
    (ran : setState ctx db id state comment ifState awaiting leased = .ok (after, snapshot)) :
    Steps allowed db after := by
  simp only [setState, bind_eq_ok, demand_ok, refuse_ok, Prod.exists] at ran
  obtain ⟨-, -, story, row, opened, -, -, target, known, -, unheld, moved⟩ := ran
  obtain ⟨-, stored, -⟩ := resolveOpenStory_ok db id story row opened
  have named := (stateMap_some db.states state target known).2
  refine appendStateTransition_steps ctx allowed loud db after story row target _ snapshot stored
    (named.symm ▸ known) ?_ ?_ moved
  · intro event member
    simp only [List.mem_append, Option.mem_toList, Option.map_eq_some_iff] at member
    rcases member with (lease | ⟨text, -, rfl⟩) | ⟨reason, -, rfl⟩
    · split at lease <;> simp only [List.mem_singleton, List.not_mem_nil] at lease
      subst lease
      exact ⟨rfl, rfl⟩
    · exact ⟨rfl, rfl⟩
    · exact ⟨rfl, rfl⟩
  · intro closes event member
    have unset : awaiting = none := by
      cases awaiting with
      | none => rfl
      | some reason => simp [closes] at unheld
    simp only [List.mem_append, Option.mem_toList, Option.map_eq_some_iff, unset] at member
    rcases member with (lease | ⟨text, -, rfl⟩) | ⟨reason, impossible, -⟩
    · split at lease <;> simp only [List.mem_singleton, List.not_mem_nil] at lease
      subst lease
      rfl
    · rfl
    · cases impossible

theorem setFields_steps (ctx : Ctx) (allowed : Allowance) (db after : Database) (id : String)
    (plan : EditPlan) (snapshot : StorySnapshot)
    (batch : ∀ story row, resolveOpenStory db id = .ok (story, row) →
      Batch (stateMap db.states) row allowed plan.events)
    (ran : setFields ctx db id plan = .ok (after, snapshot)) : Steps allowed db after := by
  simp only [setFields, bind_eq_ok, pure_eq_ok, demand_ok, Prod.exists, Prod.mk.injEq] at ran
  obtain ⟨story, row, opened, -, -, -, -, edited, first, written, last, retracted, -, -, rfl, -⟩ :=
    ran
  obtain ⟨-, stored, -⟩ := resolveOpenStory_ok db id story row opened
  have step := append_step ctx allowed db edited story row _ _ first stored (batch story row opened)
    written
  exact (Relation.ReflTransGen.single step).trans
    (retractIf_steps ctx allowed _ edited last story retracted)

theorem editFields_steps (ctx : Ctx) (allowed : Allowance) (loud : allowed ≠ .quiet)
    (db after : Database) (id : String)
    (edits : FieldEdits) (message : String)
    (settles : allowed = .settled → ∀ story row, resolveOpenStory db id = .ok (story, row) →
      Settles (stateMap db.states) row.snapshot.awaiting.isSome (holdFields edits))
    (ran : editFields ctx db id edits = .ok (after, message)) : Steps allowed db after := by
  simp only [editFields, bind_eq_ok, pure_eq_ok, Prod.exists, Prod.mk.injEq] at ran
  obtain ⟨story, row, opened, writes, planned, last, snapshot, written, rfl, -⟩ := ran
  have plans := planFieldEdits_plans ctx db row.snapshot edits writes planned
  refine setFields_steps ctx allowed db last id _ snapshot ?_ written
  intro again other reopened
  rw [opened] at reopened
  cases reopened
  obtain ⟨-, -, unarchived⟩ := resolveOpenStory_ok db id story row opened
  refine .edit allowed loud ctx.now writes ?_ unarchived ?_
  · intro slug target member
    have known := plans.known slug target member
    exact ⟨(stateMap_some db.states slug target known).2, known⟩
  · rw [plans.read]
    exact fun strict => settles strict story row opened

theorem editStory_steps (ctx : Ctx) (allowed : Allowance) (loud : allowed ≠ .quiet)
    (db after : Database) (id : String)
    (build : StoryRow → Except AppError (List StoryEvent)) (snapshot : StorySnapshot)
    (still : ∀ row events, build row = .ok events → ∀ event ∈ events, Still event)
    (ran : editStory ctx db id build = .ok (after, snapshot)) : Steps allowed db after := by
  simp only [editStory, bind_eq_ok, Prod.exists] at ran
  obtain ⟨story, row, opened, events, built, written⟩ := ran
  obtain ⟨-, stored, unarchived⟩ := resolveOpenStory_ok db id story row opened
  split at written
  · cases written
    exact Relation.ReflTransGen.refl
  · exact Relation.ReflTransGen.single
      (append_step ctx allowed db after story row _ _ snapshot stored
      (.hold allowed loud events (still row events built) unarchived) written)

theorem migrationEvents_batch (allowed : Allowance) (loud : allowed ≠ .quiet)
    (states : StateCatalog) (now source : String) (target : StateDef) (row : StoryRow)
    (known : states[target.slug]? = some target) :
    Batch states row allowed (migrationEvents now source target row) := by
  unfold migrationEvents
  split
  · exact .epic allowed loud now _ target known
  · refine .move allowed loud [_] [] target _ now known (Or.inl rfl) ?_ (by simp) (by simp)
    simpa using ⟨rfl, rfl, rfl⟩

theorem migrateOccupant_steps (ctx : Ctx) (allowed : Allowance) (loud : allowed ≠ .quiet)
    (source : String) (target : StateDef)
    (db after : Database) (occupant : StoryNo × StoryRow)
    (known : (stateMap db.states)[target.slug]? = some target)
    (ran : migrateOccupant ctx source target db occupant = .ok after) : Steps allowed db after := by
  simp only [migrateOccupant, bind_eq_ok, demand_ok, Prod.exists] at ran
  obtain ⟨row, stored, moved, snapshot, written, retracted⟩ := ran
  have batch := migrationEvents_batch allowed loud _ ctx.now source target row known
  exact (Relation.ReflTransGen.single (append_step ctx allowed db moved occupant.1 row _ _ snapshot
    stored batch written)).trans (retractIf_steps ctx allowed _ moved after occupant.1 retracted)

theorem migrateOccupants_steps (ctx : Ctx) (allowed : Allowance) (loud : allowed ≠ .quiet)
    (db after : Database) (source : String)
    (target : StateDef) (moved : Nat) (known : (stateMap db.states)[target.slug]? = some target)
    (ran : migrateOccupants ctx db source target = .ok
    (after, moved)) : Steps allowed db after := by
  simp only [migrateOccupants, bind_eq_ok, pure_eq_ok, Prod.mk.injEq] at ran
  obtain ⟨last, loop, rfl, -⟩ := ran
  refine foldlM_ok _ (fun _ state => Steps allowed db state) _ ?_ db last
    Relation.ReflTransGen.refl loop
  intro done occupant rest before next _ steps stepped
  exact steps.trans (migrateOccupant_steps ctx allowed loud source target before next occupant
    (steps.states allowed db before ▸ known) stepped)

end Storyhook.Service
