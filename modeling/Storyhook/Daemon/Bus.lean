import Mathlib.Algebra.GroupWithZero.Nat
import Storyhook.Library.Mailbox
import Storyhook.Library.Runs

/-! The change feed of the daemon, at the grain of its locks. -/

namespace Storyhook.Daemon

open Storyhook.Library

def queueCapacity : Nat := 32

inductive Change where
  | project (slug : String)
  | catalog
  | resync
  | reload
  | ping
  deriving DecidableEq, Repr

/-- One subscriber's mailbox. -/
abbrev Slot := Mailbox Change

def Slot.push (slot : Slot) (change : Change) : Slot :=
    Mailbox.push queueCapacity .resync slot change

/-- The subscribers, and a publication that has not reached all of them yet: the lock is held from
its first to its last push, and a subscriber may take from its queue between any two. -/
structure BusState where
  nextId : Nat
  subscribers : List (Nat × Slot)
  dropped : Nat
  publishing : Option (Change × List Nat)
  deriving DecidableEq

def BusState.new : BusState := ⟨0, [], 0, none⟩

def changeSlot (id : Nat) (change : Slot → Slot) (subscribers : List (Nat × Slot)) :
    List (Nat × Slot) :=
  subscribers.map fun entry => if entry.1 = id then (entry.1, change entry.2) else entry

namespace BusState

def subscribe (bus : BusState) : BusState :=
  { bus with
    nextId := bus.nextId + 1
    subscribers := bus.subscribers ++ [(bus.nextId, Mailbox.empty)] }

def unsubscribe (bus : BusState) (id : Nat) : BusState :=
  match bus.subscribers.find? (·.1 == id) with
  | none => bus
  | some (_, slot) =>
      { bus with
        subscribers := bus.subscribers.eraseP (·.1 == id)
        dropped := bus.dropped + slot.dropped }

def slot? (bus : BusState) (id : Nat) : Option Slot := bus.subscribers.lookup id

def totalDropped (bus : BusState) : Nat :=
  bus.dropped + (bus.subscribers.map (·.2.dropped)).sum

end BusState

/-- What the threads of the daemon do to the bus, one lock at a time. -/
inductive BusAct where
  | subscribed (id : Nat)
  | left (id : Nat)
  | published (change : Change)
  | pushed (id : Nat) (change : Change)
  | finished
  | received (id : Nat) (change : Change)
  deriving DecidableEq

/-- The bus after an act that is possible on it. -/
def BusState.act (bus : BusState) : BusAct → Option BusState
  | .subscribed id =>
      if bus.publishing = none ∧ id = bus.nextId then some bus.subscribe else none
  | .left id =>
      if bus.publishing = none ∧ (bus.slot? id).isSome then some (bus.unsubscribe id) else none
  | .published change =>
      if bus.publishing = none then
        some { bus with publishing := some (change, bus.subscribers.map (·.1)) }
      else none
  | .pushed id change =>
      match bus.publishing with
      | some (said, next :: rest) =>
          if said = change ∧ next = id then
            some { bus with
              subscribers := changeSlot id (·.push change) bus.subscribers
              publishing := some (change, rest) }
          else none
      | _ => none
  | .finished =>
      match bus.publishing with
      | some (_, []) => some { bus with publishing := none }
      | _ => none
  | .received id change =>
      ((bus.slot? id).bind (·.take change)).map fun slot =>
        { bus with subscribers := changeSlot id (fun _ => slot) bus.subscribers }

def BusState.run (bus : BusState) (acts : List BusAct) : Option BusState := acts.foldlM act bus

def BusAct.use? (id : Nat) : BusAct → Option (Mailbox.Use Change)
  | .pushed whom change => if whom = id then some (.put change) else none
  | .received whom change => if whom = id then some (.took change) else none
  | _ => none

def uses (id : Nat) (acts : List BusAct) : List (Mailbox.Use Change) :=
  acts.filterMap (BusAct.use? id)

def received (id : Nat) (acts : List BusAct) : List Change := Mailbox.takes (uses id acts)

def BusAct.publication? : BusAct → Option Change
  | .published change => some change
  | _ => none

def publishedSince (id : Nat) (acts : List BusAct) : List Change :=
  (acts.dropWhile (· ≠ .subscribed id)).filterMap BusAct.publication?

end Storyhook.Daemon
