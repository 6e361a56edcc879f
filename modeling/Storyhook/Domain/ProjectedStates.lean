import Storyhook.Domain.Epics

namespace Storyhook.Domain

open Library

/-- A superstate is the one the catalog gives a state, where it defines the state. -/
def Agrees (states : List StateDef) (effective : Effective) : Prop :=
  ∀ definition, states.find? (·.slug == effective.1) = some definition →
    effective.2 = definition.superState

theorem computedEpicBody_agrees (stories : String → Option StorySnapshot) (fuel : Nat)
    (states : List StateDef) (story : StorySnapshot)
    (own : Agrees states (story.state, story.superstate)) :
    (computedEpicBody stories fuel states story).Yields (Agrees states) := by
  simp only [computedEpicBody]
  split
  · exact own
  · split
    · exact own
    · apply Query.yields_bind
      intro children
      apply Query.yields_bind
      intro state definition found
      simp only [stateSuperstate, found]

theorem projected_agrees (order : List String) (stories : StoryMap) (states : List StateDef)
    (agree : ∀ (id : String) (story : StorySnapshot), stories[id]? = some story →
      Agrees states (story.state, story.superstate)) (id : String) (story : StorySnapshot)
    (projected : (projectInOrder order stories states)[id]? = some story) :
    Agrees states (story.state, story.superstate) := by
  have memo := MemoSolve.solveAll_yields (epicTasks stories states) (stories.size + 1)
    (Agrees states) (by
      intro key task found
      obtain ⟨other, stored, rfl⟩ := Option.map_eq_some_iff.mp found
      exact computedEpicBody_agrees _ _ states other (agree key other stored))
    order .start (by
      intro other value known
      simp [MemoSolve.Pass.start] at known)
  rw [projectInOrder, Std.TreeMap.getElem?_map, Option.map_eq_some_iff] at projected
  obtain ⟨before, stored, rfl⟩ := projected
  simp only [projectEpic]
  split
  · exact agree id before stored
  · next state superstate known =>
      split
      · exact agree id before stored
      · exact memo id _ known

end Storyhook.Domain
