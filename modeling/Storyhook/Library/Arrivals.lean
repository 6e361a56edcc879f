import Mathlib.Data.List.Basic
import Mathlib.Tactic.Common

/-! Reading from a connection whose bytes arrive in whatever pieces they do, with waits between. -/

namespace Storyhook.Library

/-- What a read meets: a unit, or a wait without any. Past the last one the connection is closed. -/
inductive Arrival (α : Type) where
  | unit (value : α)
  | quiet
  deriving DecidableEq

/-- How a read ends: with what it reads for, in a wait, or with the connection closed. -/
inductive ReadEnd where
  | complete
  | timedOut
  | closed
  deriving DecidableEq

variable {α : Type}

def Arrival.unit? : Arrival α → Option α
  | .unit value => some value
  | .quiet => none

def arrived (arrivals : List (Arrival α)) : List α := arrivals.filterMap Arrival.unit?

@[simp] theorem arrived_nil : arrived ([] : List (Arrival α)) = [] := rfl

@[simp] theorem arrived_unit (value : α) (rest : List (Arrival α)) :
    arrived (.unit value :: rest) = value :: arrived rest := rfl

@[simp] theorem arrived_quiet (rest : List (Arrival α)) :
    arrived (.quiet :: rest) = arrived rest := rfl

/-- Reads to the first unit that the test accepts, and that one with it. -/
def readUntil (stop : α → Bool) :
    List α → List (Arrival α) → List α × ReadEnd × List (Arrival α)
  | got, [] => (got, .closed, [])
  | got, .quiet :: rest => (got, .timedOut, rest)
  | got, .unit value :: rest =>
      if stop value then (got ++ [value], .complete, rest) else readUntil stop (got ++ [value]) rest

def readUpTo (needed : Nat) :
    List α → List (Arrival α) → List α × ReadEnd × List (Arrival α)
  | held, [] => (held, if needed ≤ held.length then .complete else .closed, [])
  | held, .quiet :: rest =>
      if needed ≤ held.length then (held, .complete, .quiet :: rest) else (held, .timedOut, rest)
  | held, .unit value :: rest =>
      if needed ≤ held.length then (held, .complete, .unit value :: rest)
      else readUpTo needed (held ++ [value]) rest

/-- What a read takes, with nothing lost of what arrived: a wait is consumed as well, and a closed
connection has nothing left. -/
structure Reads (arrivals : List (Arrival α)) (got : List α) (ending : ReadEnd)
    (rest : List (Arrival α)) : Prop where
  taken : arrived arrivals = got ++ arrived rest
  shorter : got.length + rest.length ≤ arrivals.length
  waited : ending = .timedOut → got.length + rest.length < arrivals.length
  closed : ending = .closed → rest = []

theorem Reads.cons {arrivals rest : List (Arrival α)} {got : List α} {ending : ReadEnd}
    (reads : Reads arrivals got ending rest) (value : α) :
    Reads (.unit value :: arrivals) (value :: got) ending rest where
  taken := by simp [reads.taken]
  shorter := by
    have shorter := reads.shorter
    simp only [List.length_cons]
    omega
  waited := by
    intro wait
    have shorter := reads.waited wait
    simp only [List.length_cons]
    omega
  closed := reads.closed

theorem readUntil_reads (stop : α → Bool) (held : List α) (arrivals : List (Arrival α)) :
    ∃ got ending rest, readUntil stop held arrivals = (held ++ got, ending, rest) ∧
      Reads arrivals got ending rest ∧
      match (ending : ReadEnd) with
      | .complete => ∃ front last, got = front ++ [last] ∧ stop last = true ∧
          ∀ value ∈ front, stop value = false
      | _ => ∀ value ∈ got, stop value = false := by
  induction arrivals generalizing held with
  | nil =>
      exact ⟨[], .closed, [], by simp [readUntil], ⟨rfl, by simp, by simp, by simp⟩, by simp⟩
  | cons first rest further =>
      cases first with
      | quiet =>
          exact ⟨[], .timedOut, rest, by simp [readUntil], ⟨rfl, by simp, by simp, by simp⟩, by simp⟩
      | unit value =>
          rw [readUntil]
          split_ifs with stops
          · exact ⟨[value], .complete, rest, rfl, ⟨rfl, Nat.le_of_eq (Nat.add_comm _ _), by simp, by simp⟩,
              [], value, rfl, stops, by simp⟩
          · obtain ⟨got, ending, later, read, reads, kept⟩ := further (held ++ [value])
            refine ⟨value :: got, ending, later, by rw [read, List.append_assoc]; rfl,
              reads.cons value, ?_⟩
            cases ending with
            | complete =>
                obtain ⟨front, last, rfl, stopped, clear⟩ := kept
                exact ⟨value :: front, last, rfl, stopped,
                  List.forall_mem_cons.mpr ⟨by simpa using stops, clear⟩⟩
            | timedOut => exact List.forall_mem_cons.mpr ⟨by simpa using stops, kept⟩
            | closed => exact List.forall_mem_cons.mpr ⟨by simpa using stops, kept⟩

theorem readUpTo_reads (needed : Nat) (held : List α) (arrivals : List (Arrival α))
    (room : held.length ≤ needed) :
    ∃ got ending rest, readUpTo needed held arrivals = (held ++ got, ending, rest) ∧
      Reads arrivals got ending rest ∧
      (ending = .complete → held.length + got.length = needed) ∧
      (ending ≠ .complete → held.length + got.length < needed) := by
  induction arrivals generalizing held with
  | nil =>
      refine ⟨[], _, [], by rw [readUpTo, List.append_nil], ⟨rfl, by simp, ?_, by simp⟩, ?_, ?_⟩
      · split_ifs <;> simp
      · intro ended
        have full : needed ≤ held.length := by
          by_contra short
          rw [if_neg short] at ended
          cases ended
        exact Nat.le_antisymm room full
      · intro ended
        have short : ¬ needed ≤ held.length := fun full => ended (if_pos full)
        simpa using short
  | cons first rest further =>
      by_cases full : needed ≤ held.length
      · refine ⟨[], .complete, first :: rest, ?_, ⟨rfl, by simp, by simp, by simp⟩, ?_, by simp⟩
        · cases first with
          | quiet => rw [readUpTo, if_pos full, List.append_nil]
          | unit value => rw [readUpTo, if_pos full, List.append_nil]
        · intro _
          simp only [List.length_nil]
          omega
      · cases first with
        | quiet =>
            refine ⟨[], .timedOut, rest, by rw [readUpTo, if_neg full, List.append_nil],
              ⟨rfl, by simp, by simp, by simp⟩, by simp, ?_⟩
            intro _
            simp only [List.length_nil]
            omega
        | unit value =>
            obtain ⟨got, ending, later, read, reads, whole, short⟩ :=
              further (held ++ [value]) (by simp only [List.length_append, List.length_singleton]; omega)
            refine ⟨value :: got, ending, later,
              by rw [readUpTo, if_neg full, read, List.append_assoc]; rfl,
              reads.cons value, ?_, ?_⟩
            · intro ended
              have counted := whole ended
              simp only [List.length_append, List.length_cons, List.length_nil] at counted ⊢
              omega
            · intro ended
              have counted := short ended
              simp only [List.length_append, List.length_cons, List.length_nil] at counted ⊢
              omega

theorem front_remains (front back got rest : List α) (same : front ++ back = got ++ rest)
    (short : got.length < front.length) :
    ∃ more, front = got ++ more ∧ more ≠ [] ∧ more ++ back = rest := by
  rcases List.append_eq_append_iff.mp same with ⟨more, rfl, -⟩ | ⟨more, rfl, rfl⟩
  · rw [List.length_append] at short
    omega
  · refine ⟨more, rfl, ?_, rfl⟩
    rintro rfl
    simp at short

end Storyhook.Library
