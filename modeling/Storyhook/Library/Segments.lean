import Mathlib.Data.List.Basic
import Mathlib.Tactic.Common

/-! Items that arrive in segments, read some at a time. -/

namespace Storyhook.Library.Segments

variable {α : Type}

/-- One read: at most `room` items of the first segment that has any. -/
def take (room : Nat) : List (List α) → List α × List (List α)
  | [] => ([], [])
  | [] :: later => take room later
  | (item :: segment) :: later =>
      ((item :: segment).take room, (item :: segment).drop room :: later)

theorem take_append (room : Nat) (segments : List (List α)) :
    (take room segments).1 ++ (take room segments).2.flatten = segments.flatten := by
  induction segments with
  | nil => rfl
  | cons segment later further =>
      cases segment with
      | nil => exact further
      | cons item segment =>
          rw [take, List.flatten_cons, List.flatten_cons, ← List.append_assoc,
            List.take_append_drop]

theorem take_length (room : Nat) (segments : List (List α)) :
    (take room segments).1.length ≤ room := by
  induction segments with
  | nil => exact Nat.zero_le room
  | cons segment later further =>
      cases segment with
      | nil => exact further
      | cons item segment => exact List.length_take_le room (item :: segment)

theorem take_nil (room : Nat) (segments : List (List α)) (some : 0 < room)
    (empty : (take room segments).1 = []) : segments.flatten = [] := by
  induction segments with
  | nil => rfl
  | cons segment later further =>
      cases segment with
      | nil => exact further empty
      | cons item segment =>
          obtain ⟨less, rfl⟩ := Nat.exists_eq_succ_of_ne_zero (Nat.ne_of_gt some)
          cases empty

end Storyhook.Library.Segments
