import Storyhook.Domain.FoldStory

namespace Storyhook.Domain

open Library Library.Outcome

/-- The blockers of a story that are open; a target the index does not hold is none. -/
def openBlockers (story : StorySnapshot) (index : String → Option StorySnapshot) : List String :=
  (story.relationships.filter fun relation => relation.relation == "blocked-by" &&
    (index relation.otherId).any (·.superstate == .open)).map (·.otherId)

def position (id : String) (states : List StateDef) (slug : String) : Except AppError Nat :=
  match states.findIdx? (·.slug == slug) with
  | some found => .ok found
  | none => .error (.validation ("cannot compare state `" ++ slug ++ "` for story `" ++ id ++
      "`; repair the state catalog with `story doctor --fix`"))

def cannotAdvance (story : StorySnapshot) (target : String) (blockers : List String) : AppError :=
  .validation ("story `" ++ story.id ++ "` cannot advance from `" ++ story.state ++ "` to `" ++
    target ++ "` while blocked by " ++ ", ".intercalate blockers ++
    "; move to `dropped` to abandon it")

def moveSource (story : StorySnapshot) (pipeline : Option String) : String :=
  if story.state = "blocked" then pipeline.getD story.state else story.state

def validateTransition (story : StorySnapshot) (target : String) (pipeline : Option String)
    (states : List StateDef) (index : String → Option StorySnapshot) : Except AppError Unit := do
  if target = story.state ∨ target = droppedStateSlug ∨ target = "blocked" then .ok ()
  else
    let blockers := openBlockers story index
    if blockers.isEmpty then .ok ()
    else if target = completionStateSlug then .error (cannotAdvance story target blockers)
    else do
      let there ← position story.id states target
      let here ← position story.id states (moveSource story pipeline)
      if there > here then .error (cannotAdvance story target blockers) else .ok ()

def movesTo : StoryEvent → Option String
  | .storyCreated _ _ state | .storyStateChanged _ state | .storyClosedAndArchived _ state =>
      some state
  | _ => none

def firstPipelineState (states : List StateDef) : Option String :=
  (states.find? fun state => state.slug != "blocked" && state.superState == .open).map (·.slug)

def pipelineState (states : List StateDef) (events : List StoryEvent) : Option String :=
  (events.reverse.findSome? fun event => ((movesTo event).filter (· != "blocked")).map fun state =>
    historicalSlug state (stateMap states)).or (firstPipelineState states)

def foldBegun (id : String) (states : List StateDef) (events : List StoryEvent) :
    Except AppError (Option StorySnapshot) :=
  if events.isEmpty then .ok none else some <$> foldStory id events (stateMap states)

/-- Validates new events against each preceding fold. -/
def validateAppend (id : String) (states : List StateDef) (index : String → Option StorySnapshot) :
    List StoryEvent → List StoryEvent → Except AppError Unit
  | _, [] => .ok ()
  | events, event :: rest => do
      let before ← foldBegun id states events
      let after ← foldStory id (events ++ [event]) (stateMap states)
      before.elim (.ok ()) fun before =>
        validateTransition before after.state (pipelineState states events) states index
      validateAppend id states index (events ++ [event]) rest

end Storyhook.Domain
