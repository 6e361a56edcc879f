import Storyhook.Domain.Story
import Storyhook.Library.MemoSolve

namespace Storyhook.Domain

open Storyhook.Library

/-- The stories of a project under their ids. -/
abbrev StoryMap := Std.TreeMap String StorySnapshot

def epicTypeSlug : String := "epic"
def displayPromotionState : String := "blocked"

/-- An epic is a story typed one, whatever edges it has. -/
def isEpic (story : StorySnapshot) : Bool :=
  story.storyType == some epicTypeSlug

def relatedIds (story : StorySnapshot) (relation : String) : List String :=
  (story.relationships.filter (·.relation == relation)).map (·.otherId)

def defaultOpenState (states : List StateDef) : Option StateDef :=
  states.find? (·.superState == .open)

/-- Whether an open story is explicitly held or has an open dependency. -/
def isBlocked (story : StorySnapshot) (allStories : String → Option StorySnapshot) : Bool :=
  story.superstate == .open &&
    (story.state == "blocked" || story.awaiting.isSome ||
      (relatedIds story "blocked-by").any fun other =>
        (allStories other).any (·.superstate == .open))

/-- Whether work is eligible, publication and obviation included. -/
def isReady (story : StorySnapshot) (allStories : String → Option StorySnapshot) : Bool :=
  story.superstate == .open && !story.draft && !isBlocked story allStories &&
    !story.relationships.any (·.relation == "obviated-by")

/-- What the walk over blockers reads of a story, with the state it is effectively in. -/
structure BlockFacts where
  id : String
  state : String
  superstate : SuperState
  draft : Bool
  awaiting : Bool
  obviated : Bool
  blockers : List String
  deriving DecidableEq, Repr

def BlockFacts.withEffective (story : StorySnapshot) (state : String) (superstate : SuperState) :
    BlockFacts where
  id := story.id
  state := state
  superstate := superstate
  draft := story.draft
  awaiting := story.awaiting.isSome
  obviated := story.relationships.any (·.relation == "obviated-by")
  blockers := relatedIds story "blocked-by"

def BlockFacts.of (story : StorySnapshot) : BlockFacts :=
  .withEffective story story.state story.superstate

section Walk

variable {m : Type → Type} [Monad m]

def anyBlocker (resolve : String → m (Option BlockFacts))
    (walk : BlockFacts → Std.TreeMap String Bool → m (Bool × Std.TreeMap String Bool)) :
    List String → Std.TreeMap String Bool → m (Bool × Std.TreeMap String Bool)
  | [], memo => pure (false, memo)
  | id :: rest, memo => do
      match ← resolve id with
      | none => anyBlocker resolve walk rest memo
      | some blocker =>
          let (needs, after) ← walk blocker memo
          if needs then pure (true, after) else anyBlocker resolve walk rest after

/-- Whether the story, or anything it waits on through open `blocked-by` edges, needs a person.
A story found again under itself is a cycle, which does. -/
def walkNeedsIntervention (resolve : String → m (Option BlockFacts)) :
    Nat → List String → BlockFacts → Std.TreeMap String Bool →
      m (Bool × Std.TreeMap String Bool)
  | 0, _, _, memo => pure (false, memo)
  | fuel + 1, visiting, facts, memo =>
      match memo[facts.id]? with
      | some cached => pure (cached, memo)
      | none =>
          if facts.superstate != .open then pure (false, memo)
          else if facts.state == displayPromotionState || facts.awaiting || facts.obviated ||
              facts.draft then
            pure (true, memo.insert facts.id true)
          else if facts.id ∈ visiting then pure (true, memo)
          else do
            let (result, after) ← anyBlocker resolve
              (walkNeedsIntervention resolve fuel (facts.id :: visiting)) facts.blockers memo
            pure (result, after.insert facts.id result)

end Walk

/-- Whether clearing the story's blocks needs a person; the map has its epics projected. -/
def needsIntervention (story : StorySnapshot) (allStories : StoryMap) : Bool :=
  (walkNeedsIntervention (m := Id) (fun id => (allStories[id]?).map .of)
    (allStories.size + 1) [] (.of story) ∅).1

abbrev Effective := String × SuperState

section Rollup

variable (stories : String → Option StorySnapshot) (fuel : Nat) (states : List StateDef)

def resolveEffective (id : String) : Query String Effective (Option BlockFacts) := do
  match stories id with
  | none => pure none
  | some snapshot =>
      match ← Query.request id with
      | none => pure none
      | some (state, superstate) => pure (some (.withEffective snapshot state superstate))

/-- A draft child does not make its epic blocked; a draft blocker needs a person. -/
def blockedForEpic (child : StorySnapshot) (effectiveState : String) :
    Query String Effective Bool :=
  if child.draft then pure false
  else do
    let facts := .withEffective child effectiveState .open
    let (needs, _) ← walkNeedsIntervention (resolveEffective stories) fuel [] facts ∅
    pure needs

def effectiveChildren :
    List String → Query String Effective (List (StorySnapshot × String × SuperState))
  | [] => pure []
  | id :: rest =>
      match stories id with
      | none => effectiveChildren rest
      | some child => do
          match ← Query.request id with
          | none => effectiveChildren rest
          | some effective =>
              let later ← effectiveChildren rest
              pure ((child, effective) :: later)

def allBlocked : List (StorySnapshot × String × SuperState) → Query String Effective Bool
  | [] => pure true
  | (child, state, _) :: rest => do
      if ← blockedForEpic stories fuel child state then allBlocked rest else pure false

def allIncompleteBlocked (incomplete : List (StorySnapshot × String × SuperState)) :
    Query String Effective Bool :=
  if incomplete.isEmpty then pure false else allBlocked stories fuel incomplete

def closedChildrenState (children : List (StorySnapshot × String × SuperState)) : String :=
  match children with
  | [] => completionStateSlug
  | (_, first, _) :: _ =>
      if first != completionStateSlug && children.all fun (_, state, _) => state == first then first
      else completionStateSlug

def underWay (state : String) : Bool :=
  state == "in-progress" || state == verifyingStateSlug ||
    states.any fun definition =>
      definition.slug == state && definition.role == some stateRoleActive

def childState (story : StorySnapshot) (children : List (StorySnapshot × String × SuperState)) :
    Query String Effective String := do
  if !children.isEmpty && children.all fun (_, _, superstate) => superstate == .closed then
    pure (closedChildrenState children)
  else
    let incomplete := children.filter fun (_, _, superstate) => superstate == .open
    let blocked ← allIncompleteBlocked stories fuel incomplete
    if blocked then pure "blocked"
    else if incomplete.any fun (_, state, _) => underWay states state then pure "in-progress"
    else pure (((defaultOpenState states).map (·.slug)).getD story.state)

def stateSuperstate (state : String) : SuperState :=
  match states.find? (·.slug == state) with
  | some definition => definition.superState
  | none => if state == completionStateSlug then .closed else .open

def computedEpicBody (story : StorySnapshot) : Query String Effective Effective := do
  if !isEpic story then pure (story.state, story.superstate)
  else
    let childIds := relatedIds story "parent-of"
    if childIds.isEmpty then pure (story.state, story.superstate)
    else
      let children ← effectiveChildren stories childIds
      let state ← childState stories fuel states story children
      pure (state, stateSuperstate states state)

/-- How a story's effective state comes from those of others. A story asked for while its own is
being computed answers with its stored state. -/
def epicTask (id : String) : Option (Equations.Task String Effective) :=
  (stories id).map fun story =>
    ⟨(story.state, story.superstate), computedEpicBody stories fuel states story⟩

def computedEpicState (recursion : Nat) (visiting : List String) (id : String)
    (pass : MemoSolve.Pass String Effective) : Option Effective × MemoSolve.Pass String Effective :=
  MemoSolve.solve (epicTask stories fuel states) recursion visiting id pass

end Rollup

def epicTasks (stories : StoryMap) (states : List StateDef) :
    String → Option (Equations.Task String Effective) :=
  epicTask (stories[·]?) (stories.size + 1) states

def computedEpicStates (order : List String) (stories : StoryMap) (states : List StateDef) :
    MemoSolve.Pass String Effective :=
  MemoSolve.solveAll (epicTasks stories states) (stories.size + 1) order .start

def projectEpic (memo : Std.TreeMap String Effective) (id : String) (story : StorySnapshot) :
    StorySnapshot :=
  match memo[id]? with
  | none => story
  | some (state, superstate) =>
      if !isEpic story then story
      else
        { story with
          state := state
          superstate := superstate
          stateComputed := true
          hiddenAt := if superstate == .open then none else story.hiddenAt }

/-- The projection with the epics visited in the given order. -/
def projectInOrder (order : List String) (stories : StoryMap) (states : List StateDef) : StoryMap :=
  stories.map (projectEpic (computedEpicStates order stories states).memo)

/-- Replaces every epic's stored state with its effective one. -/
def applyComputedEpicStates (stories : StoryMap) (states : List StateDef) : StoryMap :=
  projectInOrder stories.keys stories states

end Storyhook.Domain
