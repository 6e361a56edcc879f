import Storyhook.Domain.Story

namespace Storyhook.Domain

/-- The edges a relation named by a user stands for: the name on each end. -/
def relationEdges (input : String) : Option (List (String × String)) :=
  if input = "relates-to" ∨ input = "related-to" then some [("relates-to", "relates-to")]
  else if input = "blocks" then some [("blocks", "blocked-by")]
  else if input = "blocked-by" then some [("blocked-by", "blocks")]
  else if input = "parent-of" then some [("parent-of", "child-of")]
  else if input = "child-of" then some [("child-of", "parent-of")]
  else if input = "duplicate-of" then some [("duplicate-of", "duplicate-of")]
  else if input = "obviates" then some [("obviates", "obviated-by")]
  else if input = "obviated-by" then some [("obviated-by", "obviates")]
  else none

/-- The relation vocabulary, with the name each relation has from the far end. -/
def relationInverses : List (String × String) := [
  ("relates-to", "relates-to"),
  ("blocks", "blocked-by"),
  ("blocked-by", "blocks"),
  ("parent-of", "child-of"),
  ("child-of", "parent-of"),
  ("duplicate-of", "duplicate-of"),
  ("obviates", "obviated-by"),
  ("obviated-by", "obviates")]

def inverseRelation (relation : String) : Option String :=
  relationInverses.lookup relation

theorem inverseRelation_some (relation inverse : String) :
    inverseRelation relation = some inverse ↔ (relation, inverse) ∈ relationInverses := by
  constructor
  · intro found
    obtain ⟨before, after, split, -⟩ := List.lookup_eq_some_iff.mp found
    simp [split]
  · intro member
    simp only [relationInverses, List.mem_cons, Prod.mk.injEq, List.not_mem_nil, or_false] at member
    rcases member with ⟨rfl, rfl⟩ | ⟨rfl, rfl⟩ | ⟨rfl, rfl⟩ | ⟨rfl, rfl⟩ | ⟨rfl, rfl⟩ |
      ⟨rfl, rfl⟩ | ⟨rfl, rfl⟩ | ⟨rfl, rfl⟩ <;> rfl

theorem inverseRelation_involutive (relation inverse : String)
    (known : inverseRelation relation = some inverse) :
    inverseRelation inverse = some relation := by
  rw [inverseRelation_some] at known ⊢
  have closed : ∀ pair ∈ relationInverses, (pair.2, pair.1) ∈ relationInverses := by decide
  exact closed (relation, inverse) known

theorem inverseRelation_clear (relation inverse : String)
    (known : inverseRelation relation = some inverse) :
    ':' ∉ relation.toList ∧ ' ' ∉ relation.toList := by
  rw [inverseRelation_some] at known
  have clear : ∀ pair ∈ relationInverses, ':' ∉ pair.1.toList ∧ ' ' ∉ pair.1.toList := by decide
  exact clear (relation, inverse) known

theorem relationEdges_inverse (input : String) (edges : List (String × String))
    (known : relationEdges input = some edges) :
    ∀ pair ∈ edges, inverseRelation pair.1 = some pair.2 := by
  unfold relationEdges at known
  intro pair member
  repeat' split at known
  all_goals cases known
  all_goals
    rw [List.mem_singleton] at member
    subst member
    rfl

theorem relationEdges_single (input : String) (edges : List (String × String))
    (known : relationEdges input = some edges) : ∃ pair, edges = [pair] := by
  unfold relationEdges at known
  repeat' split at known
  all_goals cases known
  all_goals exact ⟨_, rfl⟩

end Storyhook.Domain
