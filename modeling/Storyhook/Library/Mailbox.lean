import Mathlib.Data.List.Basic
import Mathlib.Tactic.Common

/-! A bounded queue that collapses to a single mark once it is full. -/

namespace Storyhook.Library

/-- What waits in the queue, and how much of what was put into it is gone. -/
structure Mailbox (α : Type) where
  queue : List α
  dropped : Nat
  deriving DecidableEq

namespace Mailbox

variable {α : Type}

def empty : Mailbox α := ⟨[], 0⟩

inductive Use (α : Type) where
  | put (item : α)
  | took (item : α)
  deriving DecidableEq

def Use.put? : Use α → Option α
  | .put item => some item
  | .took _ => none

def Use.took? : Use α → Option α
  | .put _ => none
  | .took item => some item

def puts (uses : List (Use α)) : List α := uses.filterMap Use.put?

def takes (uses : List (Use α)) : List α := uses.filterMap Use.took?

variable (capacity : Nat) (mark : α)

/-- A full queue gives way to the mark, which stands for the item too. -/
def push (box : Mailbox α) (item : α) : Mailbox α :=
  if capacity ≤ box.queue.length then ⟨[mark], box.dropped + box.queue.length⟩
  else { box with queue := box.queue ++ [item] }

def take [DecidableEq α] (box : Mailbox α) (item : α) : Option (Mailbox α) :=
  match box.queue with
  | [] => none
  | first :: rest => if first = item then some { box with queue := rest } else none

theorem take_some [DecidableEq α] (box next : Mailbox α) (item : α) :
    box.take item = some next ↔ ∃ rest, box.queue = item :: rest ∧
      next = { box with queue := rest } := by
  unfold take
  split
  · next none => simp [none]
  · next first rest some =>
      rw [some, Option.ite_none_right_eq_some, Option.some.injEq]
      constructor
      · rintro ⟨rfl, rfl⟩
        exact ⟨rest, rfl, rfl⟩
      · rintro ⟨_, same, rfl⟩
        obtain ⟨rfl, rfl⟩ := List.cons_eq_cons.mp same
        exact ⟨rfl, rfl⟩

variable [DecidableEq α]

def use (box : Mailbox α) : Use α → Option (Mailbox α)
  | .put item => some (box.push capacity mark item)
  | .took item => box.take item

def run (box : Mailbox α) (uses : List (Use α)) : Option (Mailbox α) :=
  uses.foldlM (use capacity mark) box

theorem run_keeps (Inv : List α → List α → Mailbox α → Prop) (box final : Mailbox α)
    (uses : List (Use α)) (initial : Inv [] [] box)
    (pushed : ∀ given taken before item, Inv given taken before →
      Inv (given ++ [item]) taken (before.push capacity mark item))
    (popped : ∀ given taken before item rest, before.queue = item :: rest →
      Inv given taken before → Inv given (taken ++ [item]) { before with queue := rest })
    (ran : box.run capacity mark uses = some final) : Inv (puts uses) (takes uses) final := by
  suffices carried : ∀ given taken before, Inv given taken before →
      before.run capacity mark uses = some final →
        Inv (given ++ puts uses) (taken ++ takes uses) final from carried [] [] box initial ran
  clear initial ran
  induction uses with
  | nil =>
      intro given taken before holds ended
      cases ended
      simpa [puts, takes] using holds
  | cons one rest further =>
      intro given taken before holds ran
      rw [run, List.foldlM_cons, Option.bind_eq_bind, Option.bind_eq_some_iff] at ran
      obtain ⟨next, stepped, later⟩ := ran
      cases one with
      | put item =>
          cases stepped
          have whole := further _ _ _ (pushed given taken before item holds) later
          rw [List.append_assoc] at whole
          exact whole
      | took item =>
          obtain ⟨queued, shape, rfl⟩ := (take_some before next item).mp stepped
          have whole := further _ _ _ (popped given taken before item queued shape holds) later
          rw [List.append_assoc] at whole
          exact whole

theorem run_append (box final : Mailbox α) (earlier later : List (Use α)) :
    box.run capacity mark (earlier ++ later) = some final ↔
      ∃ middle, box.run capacity mark earlier = some middle ∧
        middle.run capacity mark later = some final := by
  rw [run, List.foldlM_append, Option.bind_eq_bind, Option.bind_eq_some_iff]
  rfl

theorem run_stands (box final : Mailbox α) (item : α) (uses : List (Use α))
    (ran : (box.push capacity mark item).run capacity mark uses = some final) :
    item ∈ takes uses ++ final.queue ∨ mark ∈ takes uses ++ final.queue := by
  refine run_keeps capacity mark (fun _ taken state => item ∈ taken ++ state.queue ∨
    mark ∈ taken ++ state.queue) _ final uses ?_ ?_ ?_ ran
  · unfold push
    split
    · exact .inr (List.mem_singleton.mpr rfl)
    · exact .inl (List.mem_append_right _ (List.mem_append_right _ (List.mem_singleton.mpr rfl)))
  · intro _ taken before other holds
    unfold push
    split
    · exact .inr (List.mem_append_right _ (List.mem_singleton.mpr rfl))
    · simp only [← List.append_assoc]
      exact holds.imp (List.mem_append_left _) (List.mem_append_left _)
  · intro _ taken before first rest shape holds
    rw [shape] at holds
    simpa only [List.append_assoc, List.singleton_append] using holds

theorem run_ordered (final : Mailbox α) (uses : List (Use α))
    (ran : empty.run capacity mark uses = some final) :
    ((takes uses ++ final.queue).filter (· ≠ mark)).Sublist (puts uses) := by
  refine run_keeps capacity mark (fun given taken state =>
    ((taken ++ state.queue).filter (· ≠ mark)).Sublist given) _ final uses ?_ ?_ ?_ ran
  · exact List.Sublist.refl []
  · intro given taken before item holds
    rw [List.filter_append] at holds
    unfold push
    split
    · rw [List.filter_append, List.filter_cons_of_neg (by simp), List.filter_nil, List.append_nil]
      exact ((List.sublist_append_left _ _).trans holds).trans (List.sublist_append_left _ _)
    · rw [List.filter_append, List.filter_append, ← List.append_assoc]
      exact holds.append List.filter_sublist
  · intro given taken before first rest shape holds
    rw [shape] at holds
    simpa only [List.append_assoc, List.singleton_append] using holds

theorem run_counted (final : Mailbox α) (uses : List (Use α))
    (ran : empty.run capacity mark uses = some final) :
    (puts uses).length = (takes uses).length + final.queue.length + final.dropped := by
  refine run_keeps capacity mark (fun given taken state =>
    given.length = taken.length + state.queue.length + state.dropped) _ final uses rfl ?_ ?_ ran
  · intro given taken before item holds
    unfold push
    split
    · simp only [List.length_append, List.length_singleton]
      omega
    · simp only [List.length_append, List.length_singleton]
      omega
  · intro given taken before first rest shape holds
    rw [shape] at holds
    simp only [List.length_append, List.length_cons, List.length_nil] at holds ⊢
    omega

theorem run_bounded (positive : 0 < capacity) (final : Mailbox α) (uses : List (Use α))
    (ran : empty.run capacity mark uses = some final) : final.queue.length ≤ capacity := by
  refine run_keeps capacity mark (fun _ _ state => state.queue.length ≤ capacity) empty final uses
    (Nat.zero_le capacity) ?_ ?_ ran
  · intro _ _ before item holds
    unfold push
    split
    · exact positive
    · simp only [List.length_append, List.length_singleton]
      omega
  · intro _ _ before first rest shape holds
    rw [shape, List.length_cons] at holds
    exact Nat.le_of_succ_le holds

theorem run_faithful (final : Mailbox α) (uses : List (Use α)) (positive : 0 < capacity)
    (ran : empty.run capacity mark uses = some final) (kept : final.dropped = 0) :
    takes uses ++ final.queue = puts uses := by
  refine run_keeps capacity mark (fun given taken state =>
    state.dropped = 0 → taken ++ state.queue = given) _ final uses (fun _ => rfl) ?_ ?_ ran kept
  · intro given taken before item holds
    unfold push
    split
    · next full =>
        intro none
        exact absurd (Nat.le_trans full (Nat.le_of_add_left_le (Nat.le_of_eq none)))
          (Nat.not_le_of_lt positive)
    · intro none
      rw [← holds none, List.append_assoc]
  · intro given taken before first rest shape holds none
    rw [← holds none, shape, List.append_assoc, List.singleton_append]

end Mailbox

end Storyhook.Library
