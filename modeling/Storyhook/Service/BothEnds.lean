import Storyhook.Library.Runs
import Storyhook.Service.HistoryEnds
import Storyhook.Service.Project

namespace Storyhook.Service

open Storyhook.Domain Storyhook.Store
open Library Library.Outcome

/-- The commands that write a relation, or take one back. -/
inductive Operation where
  | relate (a relation b : String) (remove : Bool)
  | blockOn (id : String) (blockers : List String) (awaiting : Option String)
  | unblockFrom (id : String) (blockers : List String)
  | create (input : NewStoryInput)
  | importBatch (stories : List ImportStory)
  | setState (id state : String) (comment ifState awaiting : Option String) (leased : Bool)
  | setFields (id : String) (plan : EditPlan)
  | delete (id : String)
  | restore (id : String) (target : List StoryEvent)

def operate (ctx : Ctx) (db : Database) : Operation → Except AppError Database
  | .relate a relation b remove => (relate ctx db a relation b remove).map (·.1)
  | .blockOn id blockers awaiting => (blockOn ctx db id blockers awaiting).map (·.1)
  | .unblockFrom id blockers => (unblockFrom ctx db id blockers).map (·.1)
  | .create input => (create ctx db input).map (·.1)
  | .importBatch stories => (importBatch ctx db stories).map (·.1)
  | .setState id state comment ifState awaiting leased =>
      (setState ctx db id state comment ifState awaiting leased).map (·.1)
  | .setFields id plan => (setFields ctx db id plan).map (·.1)
  | .delete id => delete ctx db id
  | .restore id target => (restore ctx db id target).map (·.1)

/-- One command as a transaction of its own. -/
def perform (ctx : Ctx) (db : Database) (operation : Operation) :
    Except AppError Database := do
  let after ← operate ctx db operation
  commit after

def Performs (before after : Database) : Prop :=
  ∃ ctx operation, perform ctx before operation = .ok after

/-- Whether a command is a batch import that links a new story to a closed one. -/
def operationLinksClosed (db : Database) : Operation → Bool
  | .importBatch stories => linksClosed db stories
  | _ => false

/-- A command that is no batch import linking a new story to a closed one. -/
def PerformsOpen (before after : Database) : Prop :=
  ∃ ctx operation, operationLinksClosed before operation = false ∧
    perform ctx before operation = .ok after

/-- Whether the folded snapshot of a story records a relation to another. -/
def Records (db : Database) (story : StoryNo) (relation : String) (other : StoryNo) : Prop :=
  ∃ snapshot, foldStory (toId db.idPrefix story) (history db story) (stateMap db.states) =
    .ok snapshot ∧ ⟨relation, toId db.idPrefix other⟩ ∈ snapshot.relationships

instance (db : Database) (story : StoryNo) (relation : String) (other : StoryNo) :
    Decidable (Records db story relation other) :=
  match folded : foldStory (toId db.idPrefix story) (history db story) (stateMap db.states) with
  | .ok snapshot => decidable_of_iff
      (⟨relation, toId db.idPrefix other⟩ ∈ snapshot.relationships) (by simp [Records, folded])
  | .error _ => isFalse (by simp [Records, folded])

theorem records_ledger (db : Database) (kept : Kept db) (story other : StoryNo)
    (relation : String) :
    Records db story relation other ↔ ⟨story, relation, other⟩ ∈ ledger db := by
  cases stored : db.stories[story]? with
  | some row =>
      rw [mem_ledger_row db kept ⟨story, relation, other⟩ row stored, Records,
        kept.folded story row stored]
      simp
  | none =>
      refine iff_of_false ?_ (mem_ledger_absent db _ stored)
      rintro ⟨snapshot, folded, -⟩
      rw [history, kept.logged story stored] at folded
      cases folded

theorem emptyProject_agreed (idPrefix : String) (states : List StateDef) (types : List String)
    (automationsEnabled : Bool) :
    Agreed (emptyProject idPrefix states types automationsEnabled) where
  kept := by
    refine ⟨?_, ?_, fun _ _ => rfl, ?_, ?_, ?_⟩
    · intro no row stored
      cases stored
    · intro no row stored
      cases stored
    · intro no row stored
      cases stored
    · rintro edge ⟨row, stored, -⟩
      cases stored
    · intro no row stored
      cases stored
  ends := by
    rintro edge ⟨row, stored, -⟩
    cases stored

theorem performsOpen_agreed (before after : Database) (agreed : Agreed before)
    (performed : PerformsOpen before after) : Agreed after := by
  obtain ⟨ctx, operation, opened, ran⟩ := performed
  simp only [perform, bind_eq_ok] at ran
  obtain ⟨written, body, committed⟩ := ran
  obtain rfl := commit_ok written after committed
  have nothing := Reciprocal.empty mirror
  cases operation with
  | relate a relation b remove =>
      obtain ⟨⟨result, outcome⟩, related, rfl⟩ := (map_eq_ok _ _ _).mp body
      obtain ⟨aNo, bNo, edges, -, -, known, turns⟩ :=
        (relate_turns ctx before result a relation b remove outcome agreed.kept related).named
      cases remove with
      | false =>
          exact turns.agreed _ _ _ agreed
            (bothEnds_reciprocal aNo bNo edges (relationEdges_inverse relation edges known))
      | true => exact turns.agreed _ _ _ agreed nothing
  | blockOn id blockers awaiting =>
      obtain ⟨⟨result, touched⟩, blocked, rfl⟩ := (map_eq_ok _ _ _).mp body
      obtain ⟨subject, resolved, turns⟩ :=
        edgeBatch_turns ctx before result id blockers awaiting false touched agreed.kept blocked
      exact turns.agreed _ _ _ agreed (blocks_reciprocal subject resolved)
  | unblockFrom id blockers =>
      obtain ⟨⟨result, touched⟩, unblocked, rfl⟩ := (map_eq_ok _ _ _).mp body
      obtain ⟨subject, resolved, turns⟩ :=
        edgeBatch_turns ctx before result id blockers none true touched agreed.kept unblocked
      exact turns.agreed _ _ _ agreed nothing
  | create input =>
      obtain ⟨⟨result, snapshot⟩, created, rfl⟩ := (map_eq_ok _ _ _).mp body
      obtain ⟨subject, blockers, turns⟩ :=
        create_turns ctx before result input snapshot agreed.kept created
      exact turns.agreed _ _ _ agreed (blocks_reciprocal subject blockers)
  | importBatch stories =>
      obtain ⟨⟨result, report⟩, imported, rfl⟩ := (map_eq_ok _ _ _).mp body
      exact importBatch_agreed ctx before result stories report agreed opened imported committed
  | setState id state comment ifState awaiting leased =>
      obtain ⟨⟨result, snapshot⟩, moved, rfl⟩ := (map_eq_ok _ _ _).mp body
      exact (setState_turns ctx before result id state comment ifState awaiting leased snapshot
        agreed.kept moved).agreed _ _ _ agreed nothing
  | setFields id plan =>
      obtain ⟨⟨result, snapshot⟩, edited, rfl⟩ := (map_eq_ok _ _ _).mp body
      exact (setFields_turns ctx before result id plan snapshot agreed.kept edited).agreed _ _ _
        agreed nothing
  | delete id =>
      exact (delete_turns ctx before after id agreed.kept body).agreed _ _ _ agreed nothing
  | restore id target =>
      obtain ⟨⟨result, appended⟩, restored, rfl⟩ := (map_eq_ok _ _ _).mp body
      exact restore_agreed ctx before result id target appended agreed restored

/-- In every run without a batch import that links to a closed story, a story records a relation
to another just if the other records its inverse. -/
theorem both_ends_recorded (idPrefix : String) (states : List StateDef) (types : List String)
    (automationsEnabled : Bool) (db : Database)
    (reached : Runs.Reachable PerformsOpen
      (emptyProject idPrefix states types automationsEnabled) db)
    (story other : StoryNo) (relation : String) :
    Records db story relation other ↔
      ∃ inverse, inverseRelation relation = some inverse ∧ Records db other inverse story := by
  have agreed := Runs.reachable_invariant PerformsOpen Agreed _ db
    (emptyProject_agreed idPrefix states types automationsEnabled) performsOpen_agreed reached
  simp only [records_ledger db agreed.kept]
  constructor
  · intro inside
    obtain ⟨back, mirrored, member⟩ := agreed.ends _ inside
    obtain ⟨inverse, inverted, rfl⟩ := Option.map_eq_some_iff.mp mirrored
    exact ⟨inverse, inverted, member⟩
  · rintro ⟨inverse, inverted, inside⟩
    obtain ⟨back, mirrored, member⟩ := agreed.ends _ inside
    rw [mirror, inverseRelation_involutive _ _ inverted] at mirrored
    cases mirrored
    exact member

/-- A context in which no record outside the tables refuses a write. -/
def plainCtx (now : String) : Ctx where
  now := now
  toLowercase := id
  admitAppend := fun _ _ _ => .ok ()
  refuseDeletion := fun _ _ => .ok ()
  wouldCreateParentCycle := fun _ _ _ => false
  undefinedState := fun slug _ => .validation ("undefined state `" ++ slug ++ "`")

def titledStory (title : String) (blockedBy : List String) : NewStoryInput where
  title := title
  state := none
  storyType := none
  description := none
  priority := none
  complexity := none
  labels := none
  draft := false
  blockedBy := blockedBy

def relatedStory (title relation otherId : String) : ImportStory where
  title := title
  complexity := none
  priority := none
  labels := none
  relationships := some [⟨relation, none, some otherId⟩]
  description := none
  state := none
  storyType := none

theorem both_ends_recorded_on_creation : ∃ db,
    [Operation.create (titledStory "first" []), .create (titledStory "second" ["SH-1"])].foldlM
        (perform (plainCtx "t1")) (emptyProject "SH" defaultStates defaultTypes true) = .ok db ∧
      Records db 2 "blocked-by" 1 ∧
        (Records db 2 "blocked-by" 1 ↔ ∃ inverse,
          inverseRelation "blocked-by" = some inverse ∧ Records db 1 inverse 2) := by
  obtain ⟨db, ran, recorded⟩ := any_ok _ (fun db => decide (Records db 2 "blocked-by" 1))
    (by decide +kernel : ([Operation.create (titledStory "first" []),
      .create (titledStory "second" ["SH-1"])].foldlM (perform (plainCtx "t1"))
        (emptyProject "SH" defaultStates defaultTypes true)).toOption.any
          (fun db => decide (Records db 2 "blocked-by" 1)) = true)
  refine ⟨db, ran, of_decide_eq_true recorded, both_ends_recorded "SH" defaultStates defaultTypes true db
    (Runs.foldlM_reachable PerformsOpen (perform (plainCtx "t1")) _ ?_ _ db ran) 2 1 "blocked-by"⟩
  intro operation listed before after performed
  refine ⟨plainCtx "t1", operation, ?_, performed⟩
  simp only [List.mem_cons, List.not_mem_nil, or_false] at listed
  rcases listed with rfl | rfl <;> rfl

/-- A story imported with a relation to a closed one records it alone. -/
theorem imported_link_one_sided : ¬ ∀ (idPrefix : String) (states : List StateDef)
    (types : List String) (automationsEnabled : Bool) (db : Database),
      Runs.Reachable Performs (emptyProject idPrefix states types automationsEnabled) db →
        ∀ (story other : StoryNo) (relation : String), Records db story relation other ↔
          ∃ inverse, inverseRelation relation = some inverse ∧ Records db other inverse story := by
  intro agree
  obtain ⟨db, ran, half⟩ := any_ok _
    (fun db => decide (Records db 2 "relates-to" 1 ∧ ¬ Records db 1 "relates-to" 2))
    (by decide +kernel : ([Operation.create (titledStory "first" []),
      .setState "SH-1" "done" none none none false,
      .importBatch [relatedStory "second" "relates-to" "SH-1"]].foldlM (perform (plainCtx "t1"))
        (emptyProject "SH" defaultStates defaultTypes true)).toOption.any
          (fun db => decide (Records db 2 "relates-to" 1 ∧ ¬ Records db 1 "relates-to" 2)) = true)
  obtain ⟨near, far⟩ := of_decide_eq_true half
  have reached := Runs.foldlM_reachable Performs (perform (plainCtx "t1")) _
    (fun operation _ before after performed => ⟨plainCtx "t1", operation, performed⟩) _ db ran
  obtain ⟨inverse, inverted, back⟩ :=
    (agree "SH" defaultStates defaultTypes true db reached 2 1 "relates-to").mp near
  cases inverted
  exact far back

end Storyhook.Service
