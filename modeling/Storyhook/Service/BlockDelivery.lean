import Storyhook.Library.Transaction
import Storyhook.Service.Relation

namespace Storyhook.Service.Delivery

open Storyhook.Domain Storyhook.Store
open Library Library.Statement

inductive BlockAction where
  | interrupt | resume
  deriving DecidableEq, Repr

inductive DeliveryStatus where
  | pending | attempting | delivered | unreached | uncertain | superseded
  deriving DecidableEq, Repr

structure BlockDelivery where
  id : Nat
  story : StoryNo
  action : BlockAction
  status : DeliveryStatus
  target : Option String
  detail : String
  deriving DecidableEq, Repr

inductive DeliveryError where
  | invariant (message : String)
  | corrupt (message : String)
  | sqlite (message : String)
  | refused (failure : AppError)
  deriving DecidableEq, Repr

/-- A project's tables with its delivery intents in the order of their ids, and the mark of a
transaction that derives them. -/
structure Tables where
  db : Database
  deliveries : List BlockDelivery
  derivesBlockEdges : Bool

abbrev Body := Statement Tables DeliveryError

structure Standing where
  blocked : Bool
  active : Bool
  interruptible : Bool
  verifying : Bool
  sequence : Nat
  deriving DecidableEq, Repr

def standing (stories : StoryMap) (story : StorySnapshot) (sequence : Nat) : Standing where
  blocked := isBlocked story (stories[·]?)
  active := story.superstate == .open && story.state == "in-progress"
  interruptible := story.superstate == .open &&
    ["in-progress", "blocked", "verifying"].contains story.state
  verifying := story.state == verifyingStateSlug
  sequence := sequence

def rowStanding (stories : StoryMap) (row : StoryRow) : Except DeliveryError Standing :=
  match stories[row.snapshot.id]? with
  | none => .error (.corrupt "story disappeared during mutation snapshot")
  | some story => .ok (standing stories story row.headGlobalSeq)

/-- Every story's standing under its number. -/
def snapshot (db : Database) : Except DeliveryError (List (StoryNo × Standing)) :=
  db.stories.toList.mapM fun entry => (entry.1, ·) <$> rowStanding (storyMap db) entry.2

def setDerivation (active : Bool) : Body Unit := do
  let tables ← read
  write { tables with derivesBlockEdges := active }

def nextDeliveryId (tables : Tables) : Nat := (tables.deliveries.map (·.id)).foldl max 0 + 1

def enqueueBlockDelivery (story : StoryNo) (action : BlockAction) : Body Unit := do
  let tables ← read
  if tables.db.stories.contains story then
    write { tables with deliveries :=
      tables.deliveries ++ [⟨nextDeliveryId tables, story, action, .pending, none, ""⟩] }
  else fail (.sqlite "FOREIGN KEY constraint failed")

def updates (delivery : BlockDelivery) (expected : DeliveryStatus) (row : BlockDelivery) : Bool :=
  row.id == delivery.id && row.story == delivery.story && row.status == expected

def updated (delivery : BlockDelivery) (expected : DeliveryStatus) (row : BlockDelivery) :
    BlockDelivery :=
  if updates delivery expected row then
    { row with status := delivery.status, target := delivery.target, detail := delivery.detail }
  else row

/-- Writes a delivery's status, target and detail, when its row has the status expected. -/
def updateBlockDelivery (delivery : BlockDelivery) (expected : DeliveryStatus) : Body Bool := do
  let tables ← read
  write { tables with deliveries := tables.deliveries.map (updated delivery expected) }
  return (tables.deliveries.countP (updates delivery expected)) == 1

def isPending (story : StoryNo) (delivery : BlockDelivery) : Bool :=
  delivery.story == story && delivery.status == .pending

def supersedeEach (story : StoryNo) (reason : String) : List BlockDelivery → Body Nat
  | [] => pure 0
  | delivery :: rest =>
      if isPending story delivery then do
        let updated ← updateBlockDelivery
          { delivery with status := .superseded, detail := reason } .pending
        let more ← supersedeEach story reason rest
        return updated.toNat + more
      else supersedeEach story reason rest

def supersedePending (story : StoryNo) (reason : String) : Body Nat := do
  let tables ← read
  supersedeEach story reason tables.deliveries

/-- What the derivation asks of other records: whether a story that newly enters `verifying` may be
submitted, and whether a project recovery owns a story's resume. -/
structure Gate where
  checkSubmission : Option (Database → StoryNo → Nat → Option AppError)
  ownsResume : Database → StoryNo → Except DeliveryError Bool

def checkSubmission (gate : Gate) (story : StoryNo) (previous next : Standing) : Body Unit := do
  let tables ← read
  match gate.checkSubmission with
  | none => pure ()
  | some check =>
      if !previous.verifying && next.verifying then
        match check tables.db story previous.sequence with
        | none => pure ()
        | some failure => fail (.refused failure)
      else pure ()

def supersedeEnded (story : StoryNo) (previous next : Standing) : Body Unit :=
  if previous.blocked != next.blocked || !next.interruptible then
    (fun _ => ()) <$> supersedePending story "effective block episode ended"
  else pure ()

def nextAction (gate : Gate) (story : StoryNo) (previous next : Standing) :
    Body (Option BlockAction) :=
  if !previous.blocked && next.blocked then pure (some .interrupt)
  else if previous.blocked && !next.blocked && next.active then do
    let tables ← read
    let owned ← ofExcept (gate.ownsResume tables.db story)
    return if owned then none else some .resume
  else pure none

def enqueueAction (story : StoryNo) (next : Standing) : Option BlockAction → Body Unit
  | none => pure ()
  | some action => do
      enqueueBlockDelivery story action
      if !next.interruptible then
        (fun _ => ()) <$> supersedePending story "story has no active execution to interrupt"
      else pure ()

def deriveEdge (gate : Gate) (story : StoryNo) (previous next : Standing) : Body Unit := do
  checkSubmission gate story previous next
  supersedeEnded story previous next
  let action ← nextAction gate story previous next
  enqueueAction story next action

/-- The loop over the stories there are now; one that has just been created is passed over. -/
def deriveEdges (gate : Gate) (before : List (StoryNo × Standing)) :
    List (StoryNo × Standing) → Body Unit
  | [] => pure ()
  | (story, next) :: rest => do
      (before.lookup story).elim (pure ()) fun previous => deriveEdge gate story previous next
      deriveEdges gate before rest

def deriveBlockEdges {α : Type} (gate : Gate) (body : Body α) : Body α := do
  let tables ← read
  if tables.derivesBlockEdges then
    fail (.invariant ("block-edge derivation is already running in this transaction; a nested " ++
      "derivation would record the same transition twice"))
  else if !tables.db.automationsEnabled then do
    setDerivation true
    let result ← body
    setDerivation false
    return result
  else do
    let before ← ofExcept (snapshot tables.db)
    setDerivation true
    let result ← body
    setDerivation false
    let left ← read
    let after ← ofExcept (snapshot left.db)
    deriveEdges gate before after
    return result

end Storyhook.Service.Delivery
