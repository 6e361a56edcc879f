import Storyhook.Daemon.Bus

/-! The watcher that tells the change feed what moved in the store. -/

namespace Storyhook.Daemon

variable {Run : Type} [DecidableEq Run]

/-- Every project with the highest number of its log, and the runs of the engine that are to be
reconciled. -/
structure Snapshot (Run : Type) where
  seqs : List (String × Int)
  runs : List (String × Run)
  deriving DecidableEq

def Snapshot.empty : Snapshot Run := ⟨[], []⟩

def slugSet (slugs : List String) : List String :=
  slugs.dedup.mergeSort fun one other => decide (one ≤ other)

def movedProjects (previous fresh : Snapshot Run) : List String :=
  (fresh.seqs.filter fun entry => previous.seqs.lookup entry.1 ≠ some entry.2).map (·.1)

def movedRuns (projectSlug : Run → String) (previous fresh : Snapshot Run) : List String :=
  ((fresh.runs ++ previous.runs).filter fun entry =>
    fresh.runs.lookup entry.1 ≠ previous.runs.lookup entry.1).map fun entry => projectSlug entry.2

/-- What moved between two snapshots, as far as it can be put down to projects. -/
def attributed (projectSlug : Run → String) (previous fresh : Snapshot Run) : List Change :=
  let projects := slugSet (movedProjects previous fresh ++ movedRuns projectSlug previous fresh)
  projects.map .project ++
    if fresh.seqs.length ≠ previous.seqs.length then [.catalog] else []

def changesBetween (projectSlug : Run → String) (previous fresh : Snapshot Run) : List Change :=
  if attributed projectSlug previous fresh = [] then [.resync]
  else attributed projectSlug previous fresh

structure Baseline (Run : Type) where
  token : Option Nat
  snapshot : Snapshot Run
  deriving DecidableEq

/-- How far the one `notice` that holds the baseline has come. -/
inductive Noticing (Run : Type) where
  | idle
  | asked (token : Nat)
  | seen (token : Nat) (fresh : Snapshot Run)
  | telling (token : Nat) (fresh : Snapshot Run) (todo : List Change)
  deriving DecidableEq

/-- The store with the token that every commit moves on, the watcher and the bus. -/
structure WatchState (Run : Type) where
  token : Nat
  snapshot : Snapshot Run
  baseline : Baseline Run
  noticing : Noticing Run
  bus : BusState
  deriving DecidableEq

/-- A watcher as it is made, whether or not the store could be read. -/
def WatchState.new (token : Nat) (snapshot : Snapshot Run) (readable : Bool) : WatchState Run :=
  ⟨token, snapshot, if readable then ⟨some token, snapshot⟩ else ⟨none,
    Snapshot.empty⟩, .idle, .new⟩

/-- What happens in any order: commits, the stages of a `notice`, each of which reads or publishes,
and what other threads do to the bus. -/
inductive WatchAct (Run : Type) where
  | commit (snapshot : Snapshot Run)
  | ask
  | look
  | lookFailed
  | count
  | tell (change : Change)
  | settle
  | bus (act : BusAct)

def WatchState.act (projectSlug : Run → String) (state : WatchState Run) :
    WatchAct Run → Option (WatchState Run)
  | .commit snapshot => some { state with token := state.token + 1, snapshot := snapshot }
  | .ask =>
      if state.noticing = .idle then
        some (if state.baseline.token = some state.token then state
          else { state with noticing := .asked state.token })
      else none
  | .look =>
      match state.noticing with
      | .asked token => some { state with noticing := .seen token state.snapshot }
      | _ => none
  | .lookFailed =>
      match state.noticing with
      | .asked _ => some { state with noticing := .idle }
      | _ => none
  | .count =>
      match state.noticing, state.bus.publishing with
      | .seen token fresh, none =>
          if state.bus.subscribers = [] then
            some { state with baseline := ⟨some token, fresh⟩, noticing := .idle }
          else
            let todo := changesBetween projectSlug state.baseline.snapshot fresh
            some { state with noticing := .telling token fresh todo }
      | _, _ => none
  | .tell change =>
      match state.noticing with
      | .telling token fresh (next :: todo) =>
          if next = change then
            (state.bus.act (.published change)).map fun bus =>
              { state with noticing := .telling token fresh todo, bus := bus }
          else none
      | _ => none
  | .settle =>
      match state.noticing with
      | .telling token fresh [] =>
          some { state with baseline := ⟨some token, fresh⟩, noticing := .idle }
      | _ => none
  | .bus act => (state.bus.act act).map fun bus => { state with bus := bus }

def WatchState.run (projectSlug : Run → String) (state : WatchState Run)
    (acts : List (WatchAct Run)) : Option (WatchState Run) :=
  acts.foldlM (WatchState.act projectSlug) state

def WatchAct.onBus? : WatchAct Run → Option BusAct
  | .tell change => some (.published change)
  | .bus act => some act
  | _ => none

def onBus (acts : List (WatchAct Run)) : List BusAct := acts.filterMap WatchAct.onBus?

/-- The number of a project in the store, if it is there. -/
def Snapshot.seq (snapshot : Snapshot Run) (slug : String) : Option Int := snapshot.seqs.lookup slug

end Storyhook.Daemon
