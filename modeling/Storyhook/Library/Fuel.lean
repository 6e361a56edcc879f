import Mathlib.Data.List.Basic
import Mathlib.Data.List.Perm.Subperm
import Mathlib.Tactic.Common

/-! How deep a recursion can go that never enters a key it is already under. -/

namespace Storyhook.Library

variable {κ : Type}

/-- Enough fuel for every key of a list that is not under way. -/
structure Room (keys : List κ) (fuel : Nat) (visiting : List κ) : Prop where
  distinct : visiting.Nodup
  known : ∀ key ∈ visiting, key ∈ keys
  fuelled : keys.length < fuel + visiting.length

theorem Room.positive (keys : List κ) (visiting : List κ) (room : Room keys 0 visiting) :
    False := by
  have bounded := (room.distinct.subperm room.known).length_le
  have fuelled := room.fuelled
  omega

theorem Room.enter (keys : List κ) (fuel : Nat) (visiting : List κ) (key : κ)
    (room : Room keys (fuel + 1) visiting) (member : key ∈ keys) (outside : key ∉ visiting) :
    Room keys fuel (key :: visiting) where
  distinct := List.nodup_cons.mpr ⟨outside, room.distinct⟩
  known := by
    intro other entered
    rcases List.mem_cons.mp entered with rfl | earlier
    · exact member
    · exact room.known other earlier
  fuelled := by
    have fuelled := room.fuelled
    simp only [List.length_cons]
    omega

theorem Room.start (keys : List κ) : Room keys (keys.length + 1) [] where
  distinct := List.nodup_nil
  known := by simp
  fuelled := by simp

end Storyhook.Library
