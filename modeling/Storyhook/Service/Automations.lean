import Storyhook.Service.BlockDelivery
import Storyhook.Service.Board
import Storyhook.Store.EngineTables

/-! The boundary between automatic work and manual mode of a project, at the grain of its locks. -/

namespace Storyhook.Service

open Storyhook.Store
open Delivery (DeliveryStatus)

/-- What the store holds of a project's automations and of the work they have under way. -/
structure AutomationStore where
  automationsEnabled : Option Bool
  automationsAfter : Option Int
  nextGlobalSeq : Int
  continuations : List ContinuationStatus
  deliveries : List DeliveryStatus
  runs : List EngineRunState
  deriving DecidableEq

namespace AutomationStore

variable (store : AutomationStore)

def enabled : Bool := store.automationsEnabled.getD true

/-- A change of the setting in effect is dated by the last event before it. -/
def persistSetting (requested : Option Bool) : AutomationStore :=
  { store with
    automationsEnabled := requested
    automationsAfter :=
      if store.enabled ≠ requested.getD true then some (store.nextGlobalSeq - 1)
      else store.automationsAfter }

def retire : AutomationStore :=
  { store with
    continuations := store.continuations.map fun status =>
      if status.outstanding then .superseded else status
    deliveries := store.deliveries.map fun status =>
      if status = .pending ∨ status = .attempting then .superseded else status
    runs := store.runs.map fun state => if state.isLive then .paused else state }

def permitsGeneration (generation : Option Int) : Bool :=
  store.enabled && store.automationsAfter.all fun after => generation.any (after < ·)

end AutomationStore

/-- How far a call that sets the setting has come. -/
inductive ControlStage where
  | begun | read | closed | refreshed | persisted | drained
  | finishing (ok : Bool)
  | leaving (ok : Bool)
  deriving DecidableEq, Repr

structure ControlCall where
  requested : Option Bool
  wasEnabled : Bool
  stage : ControlStage
  deriving DecidableEq, Repr

def ControlCall.effective (call : ControlCall) : Bool := call.requested.getD true

/-- The permits that are held are named by when they were given. -/
structure Boundary where
  store : AutomationStore
  active : Nat
  disabling : Bool
  permits : List Nat
  nextPermit : Nat
  control : Option ControlCall
  deriving DecidableEq

/-- What threads do at the boundary, one lock or one transaction at a time. Those of a call that
may fail say whether they succeeded. -/
inductive BoundaryAct where
  | entered (permit : Option Nat)
  | dropped (permit : Nat)
  | appended (events : Nat)
  | worked (continuations : List ContinuationStatus) (deliveries : List DeliveryStatus)
      (runs : List EngineRunState)
  | began (requested : Option Bool)
  | read (ok : Bool)
  | closed
  | refreshed (ok : Bool)
  | persisted (ok : Bool)
  | drained
  | retired (ok : Bool)
  | reopened
  | left
  deriving DecidableEq

namespace Boundary

variable (boundary : Boundary)

def enter : Option Nat × Boundary :=
  if boundary.disabling || !boundary.store.enabled then (none, boundary)
  else
    (some boundary.nextPermit,
      { boundary with
        active := boundary.active + 1
        permits := boundary.permits ++ [boundary.nextPermit]
        nextPermit := boundary.nextPermit + 1 })

def moved (call : ControlCall) (stage : ControlStage) : Boundary :=
  { boundary with control := some { call with stage := stage } }

def refresh (call : ControlCall) (ok : Bool) : Option Boundary :=
  if ok then some (boundary.moved call .refreshed)
  else if call.effective then none
  else some (boundary.moved call (.finishing false))

/-- Turning automations on again is left to the transaction that retires what is old. -/
def persist (call : ControlCall) (ok : Bool) : Option Boundary :=
  if !call.effective || call.wasEnabled then
    if ok then
      some { boundary.moved call .persisted with
        store := boundary.store.persistSetting call.requested }
    else some (boundary.moved call (.finishing false))
  else if ok then some (boundary.moved call .persisted)
  else none

def drain (call : ControlCall) : Option Boundary :=
  if !call.effective || !call.wasEnabled then
    if boundary.active = 0 then some (boundary.moved call .drained) else none
  else some (boundary.moved call (.finishing true))

def retire (call : ControlCall) (ok : Bool) : Boundary :=
  if ok then
    let retired := boundary.store.retire
    { boundary.moved call (.finishing true) with
      store := if call.effective then retired.persistSetting call.requested else retired }
  else boundary.moved call (.finishing false)

/-- The boundary after an act that is possible at it. -/
def act : BoundaryAct → Option Boundary
  | .entered permit =>
      if boundary.enter.1 = permit then some boundary.enter.2 else none
  | .dropped permit =>
      if permit ∈ boundary.permits then
        some { boundary with
          active := boundary.active - 1
          permits := boundary.permits.erase permit }
      else none
  | .appended events =>
      some { boundary with
        store := { boundary.store with nextGlobalSeq := boundary.store.nextGlobalSeq + events } }
  | .worked continuations deliveries runs =>
      some { boundary with
        store := { boundary.store with
          continuations := continuations
          deliveries := deliveries
          runs := runs } }
  | .began requested =>
      match boundary.control with
      | none => some { boundary with control := some ⟨requested, true, .begun⟩ }
      | some _ => none
  | .read ok =>
      match boundary.control with
      | some call =>
          if call.stage = .begun then
            if ok then
              some (boundary.moved { call with wasEnabled := boundary.store.enabled } .read)
            else some (boundary.moved call (.finishing false))
          else none
      | none => none
  | .closed =>
      match boundary.control with
      | some call =>
          if call.stage = .read then some { boundary.moved call .closed with disabling := true }
          else none
      | none => none
  | .refreshed ok =>
      match boundary.control with
      | some call => if call.stage = .closed then boundary.refresh call ok else none
      | none => none
  | .persisted ok =>
      match boundary.control with
      | some call => if call.stage = .refreshed then boundary.persist call ok else none
      | none => none
  | .drained =>
      match boundary.control with
      | some call => if call.stage = .persisted then boundary.drain call else none
      | none => none
  | .retired ok =>
      match boundary.control with
      | some call => if call.stage = .drained then some (boundary.retire call ok) else none
      | none => none
  | .reopened =>
      match boundary.control with
      | some ⟨requested, wasEnabled, .finishing ok⟩ =>
          some { boundary with
            disabling := false
            control := some ⟨requested, wasEnabled, .leaving ok⟩ }
      | _ => none
  | .left =>
      match boundary.control with
      | some ⟨_, _, .leaving _⟩ => some { boundary with control := none }
      | _ => none

def run (acts : List BoundaryAct) : Option Boundary := acts.foldlM act boundary

end Boundary

end Storyhook.Service
