import Mathlib.Data.Nat.Basic
import Mathlib.Order.Lattice
import Storyhook.Library.Query

/-! Values under keys that are computed from each other's, and which keys have one. -/

namespace Storyhook.Library.Equations

/-- How a key's value is computed, and what it is taken for until then. -/
structure Task (κ α : Type) where
  provisional : α
  body : Query κ α α

variable {κ α : Type}

/-- A value computed from the values of other keys in so many levels, none of them waiting for
itself. -/
def SolvedIn (tasks : κ → Option (Task κ α)) : Nat → κ → α → Prop
  | 0, _, _ => False
  | height + 1, key, value =>
      ∃ task answers, tasks key = some task ∧ value = task.body.eval answers ∧
        ∀ other ∈ task.body.asked answers,
          match answers other with
          | some found => SolvedIn tasks height other found
          | none => tasks other = none

def Solved (tasks : κ → Option (Task κ α)) (key : κ) (value : α) : Prop :=
  ∃ height, SolvedIn tasks height key value

/-- What an answer to a request is once every value is known to a height. -/
def AnsweredIn (tasks : κ → Option (Task κ α)) (height : Nat) (key : κ) : Option α → Prop
  | some found => SolvedIn tasks height key found
  | none => tasks key = none

theorem solvedIn_succ (tasks : κ → Option (Task κ α)) (height : Nat) (key : κ) (value : α) :
    SolvedIn tasks (height + 1) key value ↔
      ∃ task answers, tasks key = some task ∧ value = task.body.eval answers ∧
        ∀ other ∈ task.body.asked answers, AnsweredIn tasks height other (answers other) := by
  unfold AnsweredIn
  exact Iff.rfl

theorem solvedIn_mono (tasks : κ → Option (Task κ α)) (low high : Nat) (below : low ≤ high)
    (key : κ) (value : α) (solved : SolvedIn tasks low key value) :
    SolvedIn tasks high key value := by
  induction low generalizing high key value with
  | zero => exact solved.elim
  | succ low ih =>
      obtain ⟨upper, rfl⟩ := Nat.exists_eq_add_of_le' (Nat.le_trans (Nat.succ_pos low) below)
      rw [solvedIn_succ] at solved ⊢
      obtain ⟨task, answers, found, rfl, answered⟩ := solved
      refine ⟨task, answers, found, rfl, ?_⟩
      intro other member
      have earlier := answered other member
      unfold AnsweredIn at earlier ⊢
      split
      · next value known =>
          rw [known] at earlier
          exact ih upper (by omega) other value earlier
      · next missing =>
          rw [missing] at earlier
          exact earlier

theorem solvedIn_task (tasks : κ → Option (Task κ α)) (height : Nat) (key : κ) (value : α)
    (solved : SolvedIn tasks height key value) : tasks key ≠ none := by
  cases height with
  | zero => exact solved.elim
  | succ height =>
      obtain ⟨task, -, found, -⟩ := (solvedIn_succ tasks height key value).mp solved
      simp [found]

theorem solvedIn_unique (tasks : κ → Option (Task κ α)) (left right : Nat) (key : κ)
    (value other : α) (first : SolvedIn tasks left key value)
    (second : SolvedIn tasks right key other) : value = other := by
  induction left generalizing right key value other with
  | zero => exact first.elim
  | succ left ih =>
      cases right with
      | zero => exact second.elim
      | succ right =>
          rw [solvedIn_succ] at first second
          obtain ⟨task, answers, found, rfl, answered⟩ := first
          obtain ⟨same, others, again, rfl, alsoAnswered⟩ := second
          rw [found, Option.some.injEq] at again
          subst again
          refine Query.eval_unique task.body answers others (AnsweredIn tasks left)
            (AnsweredIn tasks right) ?_ answered alsoAnswered
          intro asked one two knownOne knownTwo
          cases one <;> cases two
          · rfl
          · exact absurd knownOne (solvedIn_task tasks right asked _ knownTwo)
          · exact absurd knownTwo (solvedIn_task tasks left asked _ knownOne)
          · exact congrArg some (ih right asked _ _ knownOne knownTwo)

theorem solved_unique (tasks : κ → Option (Task κ α)) (key : κ) (value other : α)
    (first : Solved tasks key value) (second : Solved tasks key other) : value = other := by
  obtain ⟨left, first⟩ := first
  obtain ⟨right, second⟩ := second
  exact solvedIn_unique tasks left right key value other first second

open Classical in
noncomputable def solution (tasks : κ → Option (Task κ α)) (key : κ) : Option α :=
  if solved : ∃ value, Solved tasks key value then some solved.choose else none

theorem solution_eq_some (tasks : κ → Option (Task κ α)) (key : κ) (value : α) :
    solution tasks key = some value ↔ Solved tasks key value := by
  unfold solution
  split
  · next solved =>
      rw [Option.some.injEq]
      constructor
      · rintro rfl
        exact solved.choose_spec
      · exact fun other => solved_unique tasks key _ value solved.choose_spec other
  · next unsolved =>
      constructor
      · intro impossible
        cases impossible
      · exact fun solved => absurd ⟨value, solved⟩ unsolved

/-- A key without a task, or one that has a value. -/
def Settled (tasks : κ → Option (Task κ α)) (key : κ) : Prop :=
  tasks key = none ∨ ∃ value, Solved tasks key value

theorem answeredIn_mono (tasks : κ → Option (Task κ α)) (low high : Nat) (below : low ≤ high)
    (key : κ) (found : Option α) (answered : AnsweredIn tasks low key found) :
    AnsweredIn tasks high key found := by
  cases found with
  | none => exact answered
  | some value => exact solvedIn_mono tasks low high below key value answered

theorem solution_missing (tasks : κ → Option (Task κ α)) (key : κ) (missing : tasks key = none) :
    solution tasks key = none := by
  rw [Option.eq_none_iff_forall_ne_some]
  intro value known
  obtain ⟨height, solved⟩ := (solution_eq_some tasks key value).mp known
  exact solvedIn_task tasks height key value solved missing

theorem settled_answered (tasks : κ → Option (Task κ α)) (key : κ)
    (settled : Settled tasks key) : ∃ height, AnsweredIn tasks height key (solution tasks key) := by
  rcases settled with missing | ⟨value, solved⟩
  · rw [solution_missing tasks key missing]
    exact ⟨0, missing⟩
  · rw [(solution_eq_some tasks key value).mpr solved]
    exact solved

theorem settled_bound (tasks : κ → Option (Task κ α)) (keys : List κ)
    (settled : ∀ key ∈ keys, Settled tasks key) :
    ∃ height, ∀ key ∈ keys, AnsweredIn tasks height key (solution tasks key) := by
  induction keys with
  | nil => exact ⟨0, by simp⟩
  | cons key rest ih =>
      obtain ⟨first, head⟩ := settled_answered tasks key (settled key List.mem_cons_self)
      obtain ⟨others, tail⟩ := ih fun other member => settled other (List.mem_cons_of_mem _ member)
      refine ⟨max first others, ?_⟩
      intro other member
      rcases List.mem_cons.mp member with rfl | later
      · exact answeredIn_mono tasks first _ (le_max_left _ _) other _ head
      · exact answeredIn_mono tasks others _ (le_max_right _ _) other _ (tail other later)

theorem solved_of_settled (tasks : κ → Option (Task κ α)) (key : κ) (task : Task κ α)
    (found : tasks key = some task)
    (settled : ∀ other ∈ task.body.asked (solution tasks), Settled tasks other) :
    Solved tasks key (task.body.eval (solution tasks)) := by
  obtain ⟨height, answered⟩ := settled_bound tasks _ settled
  exact ⟨height + 1, (solvedIn_succ tasks height key _).mpr
    ⟨task, solution tasks, found, rfl, answered⟩⟩

theorem solution_equation (tasks : κ → Option (Task κ α)) (key : κ) (task : Task κ α)
    (found : tasks key = some task) (settled : Settled tasks key) :
    solution tasks key = some (task.body.eval (solution tasks)) := by
  rcases settled with missing | ⟨value, height, solved⟩
  · rw [missing] at found
    cases found
  · rw [(solution_eq_some tasks key value).mpr ⟨height, solved⟩]
    cases height with
    | zero => exact solved.elim
    | succ height =>
        obtain ⟨same, answers, again, rfl, answered⟩ :=
          (solvedIn_succ tasks height key value).mp solved
        rw [found, Option.some.injEq] at again
        subst again
        refine congrArg some (Query.eval_congr task.body answers (solution tasks) ?_).1.symm
        intro other member
        have known := answered other member
        cases result : answers other with
        | none =>
            rw [result] at known
            exact solution_missing tasks other known
        | some value =>
            rw [result] at known
            exact (solution_eq_some tasks other value).mpr ⟨height, known⟩

end Storyhook.Library.Equations
