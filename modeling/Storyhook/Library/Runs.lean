import Mathlib.Data.List.Induction
import Mathlib.Logic.Relation
import Storyhook.Library.Outcome

namespace Storyhook.Library.Runs

variable {σ : Type}

/-- The states some finite run of steps leads to. -/
abbrev Reachable (step : σ → σ → Prop) (start : σ) : σ → Prop :=
  Relation.ReflTransGen step start

theorem reachable_invariant (step : σ → σ → Prop) (Inv : σ → Prop) (start state : σ)
    (initial : Inv start)
    (preserved : ∀ before after, Inv before → step before after → Inv after)
    (reached : Reachable step start state) : Inv state := by
  induction reached with
  | refl => exact initial
  | tail _ last ih => exact preserved _ _ ih last

theorem foldlM_reachable {ε ι : Type} (step : σ → σ → Prop) (act : σ → ι → Except ε σ)
    (actions : List ι) (steps : ∀ action ∈ actions, ∀ before after,
      act before action = .ok after → step before after)
    (start finish : σ) (ran : actions.foldlM act start = .ok finish) :
    Reachable step start finish := by
  refine Outcome.foldlM_ok act (fun _ state => Reachable step start state) actions ?_ start finish
    Relation.ReflTransGen.refl ran
  intro done action rest before after split reached stepped
  exact reached.tail (steps action (by simp [split]) before after stepped)

section Possible

variable {ι : Type} (act : σ → ι → Option σ)

theorem possible_append (start final : σ) (first second : List ι) :
    (first ++ second).foldlM act start = some final ↔
      ∃ middle, first.foldlM act start = some middle ∧ second.foldlM act middle = some final := by
  rw [List.foldlM_append, Option.bind_eq_bind, Option.bind_eq_some_iff]

theorem possible_cons (start final : σ) (first : ι) (rest : List ι) :
    (first :: rest).foldlM act start = some final ↔
      ∃ middle, act start first = some middle ∧ rest.foldlM act middle = some final := by
  rw [List.foldlM_cons, Option.bind_eq_bind, Option.bind_eq_some_iff]

theorem possible_concat (start final : σ) (acts : List ι) (last : ι) :
    (acts ++ [last]).foldlM act start = some final ↔
      ∃ middle, acts.foldlM act start = some middle ∧ act middle last = some final := by
  rw [possible_append]
  simp only [possible_cons, List.foldlM_nil, Option.pure_def, Option.some.injEq,
    exists_eq_right]

theorem possible_invariant (Inv : σ → Prop)
    (preserved : ∀ before action after, Inv before → act before action = some after → Inv after)
    (start final : σ) (acts : List ι) (initial : Inv start)
    (ran : acts.foldlM act start = some final) : Inv final := by
  induction acts generalizing start with
  | nil =>
      cases ran
      exact initial
  | cons first rest further =>
      obtain ⟨middle, stepped, later⟩ := (possible_cons act start final first rest).mp ran
      exact further middle (preserved start first middle initial stepped) later

/-- What the acts of a run count up to. -/
def tally (count : σ → ι → Nat) : σ → List ι → Nat
  | _, [] => 0
  | state, action :: rest =>
      count state action + ((act state action).map fun next => tally count next rest).getD 0

theorem tally_paid (Inv : σ → Prop) (cost pay : σ → ι → Nat) (left : σ → Nat)
    (preserved : ∀ before action after, Inv before → act before action = some after → Inv after)
    (paid : ∀ before action after, Inv before → act before action = some after →
      cost before action + left after ≤ pay before action + left before)
    (start final : σ) (acts : List ι) (initial : Inv start)
    (ran : acts.foldlM act start = some final) :
    tally act cost start acts + left final ≤ tally act pay start acts + left start := by
  induction acts generalizing start with
  | nil =>
      cases ran
      simp [tally]
  | cons action rest further =>
      obtain ⟨middle, stepped, later⟩ := (possible_cons act start final action rest).mp ran
      have here := paid start action middle initial stepped
      have there := further middle (preserved start action middle initial stepped) later
      simp only [tally, stepped, Option.map_some, Option.getD_some]
      omega

end Possible

theorem concat_split {α : Type} (run before rest : List α) (last one : α) :
    run ++ [last] = before ++ one :: rest ↔
      (∃ earlier, rest = earlier ++ [last] ∧ run = before ++ one :: earlier) ∨
        rest = [] ∧ run = before ∧ last = one := by
  constructor
  · intro split
    cases rest using List.reverseRecOn with
    | nil =>
        obtain ⟨same, ends⟩ := List.append_inj' split rfl
        exact Or.inr ⟨rfl, same, List.head_eq_of_cons_eq ends⟩
    | append_singleton earlier final =>
        rw [← List.cons_append, ← List.append_assoc] at split
        obtain ⟨same, ends⟩ := List.append_inj' split rfl
        exact Or.inl ⟨earlier, by rw [List.head_eq_of_cons_eq ends], same⟩
  · rintro (⟨earlier, rfl, rfl⟩ | ⟨rfl, rfl, rfl⟩)
    · rw [List.append_assoc, List.cons_append]
    · rfl

end Storyhook.Library.Runs
