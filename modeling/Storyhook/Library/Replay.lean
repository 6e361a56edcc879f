import Mathlib.Data.List.DropRight
import Mathlib.Tactic.Common

/-! What one field of a state holds after a history has been replayed into it, read off the
history alone. Each rule asks for one fact about a single step. -/

namespace Storyhook.Library.Replay

variable {σ ε α : Type} (step : σ → ε → σ)

theorem foldl_latch (latch : σ → Bool) (resets sets : ε → Bool)
    (stepLatch : ∀ state event,
      latch (step state event) = (!resets event && (latch state || sets event)))
    (start : σ) (down : latch start = false) (events : List ε) :
    latch (events.foldl step start) =
      (events.rtakeWhile fun event => !resets event).any sets := by
  induction events using List.reverseRecOn with
  | nil => simpa using down
  | append_singleton history event ih =>
      rw [List.foldl_concat, stepLatch, ih, List.rtakeWhile_concat]
      cases resets event <;> simp

theorem foldl_lastWrite (field : σ → α) (write : ε → Option α)
    (stepField : ∀ state event, field (step state event) = (write event).getD (field state))
    (start : σ) (events : List ε) :
    field (events.foldl step start) = ((events.filterMap write).getLast?).getD (field start) := by
  induction events using List.reverseRecOn with
  | nil => rfl
  | append_singleton history event ih =>
      rw [List.foldl_concat, stepField, ih, List.filterMap_append]
      cases written : write event <;> simp [written]

theorem foldl_collects (holds : σ → Prop) (adds : ε → Prop)
    (stepHolds : ∀ state event, holds (step state event) ↔ holds state ∨ adds event)
    (start : σ) (events : List ε) :
    holds (events.foldl step start) ↔ holds start ∨ ∃ event ∈ events, adds event := by
  induction events generalizing start with
  | nil => simp
  | cons event rest ih =>
      rw [List.foldl_cons, ih, stepHolds, List.exists_mem_cons_iff, or_assoc]

theorem lastWrite_eq_some (write : ε → Option α) (events : List ε) (value : α) :
    (events.filterMap write).getLast? = some value ↔
      ∃ before event after, events = before ++ event :: after ∧ write event = some value ∧
        ∀ later ∈ after, write later = none := by
  rw [List.getLast?_filterMap, List.findSome?_eq_some_iff]
  constructor
  · rintro ⟨after, event, before, split, written, later⟩
    refine ⟨before.reverse, event, after.reverse, ?_, written, fun other member =>
      later other (List.mem_reverse.mp member)⟩
    rw [← List.reverse_reverse events, split]
    simp
  · rintro ⟨before, event, after, rfl, written, later⟩
    exact ⟨after.reverse, event, before.reverse, by simp, written, fun other member =>
      later other (List.mem_reverse.mp member)⟩

end Storyhook.Library.Replay
