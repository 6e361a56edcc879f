import Mathlib.Data.Nat.Log
import Mathlib.Data.Nat.Size
import Mathlib.Tactic.Common

/-! How often an interval can be halved. -/

namespace Storyhook.Library.Halving

theorem larger_half (width : Nat) : max (width / 2) (width - width / 2) = (width + 1) / 2 := by
  omega

theorem clog_half (width : Nat) (wide : 2 ≤ width) :
    Nat.clog 2 (max (width / 2) (width - width / 2)) + 1 = Nat.clog 2 width := by
  have shifted : width + 2 - 1 = width + 1 := by omega
  rw [larger_half, Nat.clog_of_two_le (by omega) wide, shifted]

theorem size_pred_eq_clog (size : Nat) (positive : 0 < size) :
    Nat.size (size - 1) = Nat.clog 2 size := by
  apply eq_of_forall_ge_iff
  intro bound
  rw [Nat.size_le, Nat.clog_le_iff_le_pow (by omega)]
  omega

end Storyhook.Library.Halving
