import Storyhook.Store.Tables

namespace Storyhook.Service

open Storyhook.Domain Storyhook.Store

/-- The states a new project starts with. -/
def defaultStates : List StateDef := [
  ⟨"todo", .open, none, none⟩,
  ⟨"in-progress", .open, some stateRoleActive, none⟩,
  ⟨verifyingStateSlug, .open, none, none⟩,
  ⟨"blocked", .open, none, none⟩,
  ⟨completionStateSlug, .closed, none, none⟩,
  ⟨droppedStateSlug, .closed, none, none⟩]

def defaultTypes : List String := ["normal", "epic", "bug", "chore"]

/-- The tables of a project without stories. -/
def emptyProject (idPrefix : String) (states : List StateDef) (types : List String)
    (automationsEnabled : Bool) : Database where
  idPrefix := idPrefix
  states := states
  types := types
  automationsEnabled := automationsEnabled
  nextStoryNo := 1
  nextGlobalSeq := 1
  events := ∅
  stories := ∅
  relations := .empty

end Storyhook.Service
