import Mathlib.Data.Set.Insert
import Mathlib.Order.BooleanAlgebra.Set

/-! Sets of edges that hold every edge together with its mirror image. -/

namespace Storyhook.Library

variable {ε : Type} (mirror : ε → Option ε)

def Reciprocal (edges : Set ε) : Prop :=
  ∀ edge ∈ edges, ∃ back, mirror edge = some back ∧ back ∈ edges

def Mirrored (edges : Set ε) : Prop :=
  ∀ edge ∈ edges, ∀ back, mirror edge = some back → back ∈ edges

namespace Reciprocal

theorem empty : Reciprocal mirror ∅ := fun _ member => absurd member (Set.notMem_empty _)

theorem union (left right : Set ε) (first : Reciprocal mirror left)
    (second : Reciprocal mirror right) : Reciprocal mirror (left ∪ right) := by
  intro edge member
  rcases member with inLeft | inRight
  · obtain ⟨back, mirrored, inside⟩ := first edge inLeft
    exact ⟨back, mirrored, Or.inl inside⟩
  · obtain ⟨back, mirrored, inside⟩ := second edge inRight
    exact ⟨back, mirrored, Or.inr inside⟩

/-- A set of edges together with every mirror image of one. -/
def closure (edges : Set ε) : Set ε :=
  {edge | edge ∈ edges ∨ ∃ origin ∈ edges, mirror origin = some edge}

theorem mirrored (edges : Set ε) (whole : Reciprocal mirror edges) : Mirrored mirror edges := by
  intro edge member back known
  obtain ⟨image, same, inside⟩ := whole edge member
  rw [known, Option.some.injEq] at same
  exact same ▸ inside

variable (involutive : ∀ edge back, mirror edge = some back → mirror back = some edge)

include involutive in
theorem mem_closure_mirror (edges : Set ε) (edge back : ε) (known : mirror edge = some back) :
    edge ∈ closure mirror edges ↔ back ∈ closure mirror edges := by
  have returned := involutive edge back known
  constructor
  · rintro (own | ⟨origin, inside, mirrored⟩)
    · exact Or.inr ⟨edge, own, known⟩
    · have origins := involutive origin edge mirrored
      rw [known, Option.some.injEq] at origins
      exact Or.inl (origins ▸ inside)
  · rintro (own | ⟨origin, inside, mirrored⟩)
    · exact Or.inr ⟨back, own, returned⟩
    · have origins := involutive origin back mirrored
      rw [returned, Option.some.injEq] at origins
      exact Or.inl (origins ▸ inside)

include involutive in
theorem diff (edges removed : Set ε) (whole : Reciprocal mirror edges)
    (closed : Mirrored mirror removed) : Reciprocal mirror (edges \ removed) := by
  intro edge member
  obtain ⟨back, mirrored, inside⟩ := whole edge member.1
  refine ⟨back, mirrored, inside, ?_⟩
  intro gone
  exact member.2 (closed back gone edge (involutive edge back mirrored))

end Reciprocal

namespace Mirrored

theorem empty : Mirrored mirror ∅ := fun _ member => absurd member (Set.notMem_empty _)

theorem union (left right : Set ε) (first : Mirrored mirror left)
    (second : Mirrored mirror right) : Mirrored mirror (left ∪ right) := by
  intro edge member back known
  rcases member with inLeft | inRight
  · exact Or.inl (first edge inLeft back known)
  · exact Or.inr (second edge inRight back known)

end Mirrored

end Storyhook.Library
