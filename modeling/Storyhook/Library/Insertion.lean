import Mathlib.Data.List.InsertIdx

/-! Searching a list, and a list that one entry has been inserted into. -/

namespace Storyhook.Library

variable {α : Type}

def rposition (test : α → Bool) (entries : List α) : Option Nat :=
  (entries.reverse.findIdx? test).map fun back => entries.length - 1 - back

variable (test : α → Bool) (entries front back : List α) (entry : α) (place : Nat)

theorem insertIdx_between :
    (front ++ back).insertIdx front.length entry = front ++ entry :: back := by
  induction front with
  | nil => rfl
  | cons first rest further =>
      rw [List.cons_append, List.length_cons, List.insertIdx_succ_cons, further]
      rfl

theorem modify_between (change : α → α) :
    (front ++ entry :: back).modify front.length change = front ++ change entry :: back := by
  induction front with
  | nil => rfl
  | cons first rest further =>
      rw [List.cons_append, List.length_cons, List.modify_succ_cons, further]
      rfl

theorem findIdx_split (found : entries.findIdx? test = some place) :
    ∃ front hit back, entries = front ++ hit :: back ∧ front.length = place ∧ test hit = true ∧
      ∀ other ∈ front, test other = false := by
  induction entries generalizing place with
  | nil => cases found
  | cons first rest further =>
      rw [List.findIdx?_cons] at found
      split at found
      · next passes =>
          cases found
          exact ⟨[], first, rest, rfl, rfl, passes, nofun⟩
      · next misses =>
          obtain ⟨there, later, rfl⟩ := Option.map_eq_some_iff.mp found
          obtain ⟨front, hit, back, rfl, rfl, passes, none⟩ := further there later
          refine ⟨first :: front, hit, back, rfl, rfl, passes, ?_⟩
          exact List.forall_mem_cons.mpr ⟨Bool.eq_false_iff.mpr misses, none⟩

theorem rposition_split (found : rposition test entries = some place) :
    ∃ front hit back, entries = front ++ hit :: back ∧ front.length = place ∧ test hit = true := by
  obtain ⟨there, located, rfl⟩ := Option.map_eq_some_iff.mp found
  obtain ⟨front, hit, back, backwards, rfl, passes, -⟩ := findIdx_split test _ there located
  have forwards : entries = back.reverse ++ hit :: front.reverse := by
    rw [← List.reverse_reverse entries, backwards]
    simp
  refine ⟨back.reverse, hit, front.reverse, forwards, ?_, passes⟩
  simp only [forwards, List.length_append, List.length_cons, List.length_reverse]
  omega

theorem rposition_isSome (passing : α) (member : passing ∈ entries) (passes : test passing = true) :
    (rposition test entries).isSome = true := by
  rw [rposition, Option.isSome_map, List.findIdx?_isSome, List.any_eq_true]
  exact ⟨passing, List.mem_reverse.mpr member, passes⟩

theorem find_insertIdx_miss (misses : test entry = false) :
    (entries.insertIdx place entry).find? test = entries.find? test := by
  induction entries generalizing place with
  | nil =>
      cases place with
      | zero => simp [misses]
      | succ place => rfl
  | cons first rest further =>
      cases place with
      | zero => simp [misses]
      | succ place => rw [List.insertIdx_succ_cons, List.find?_cons, List.find?_cons, further]

theorem find_insertIdx_absent (absent : entries.find? test = none) (passes : test entry = true)
    (within : place ≤ entries.length) :
    (entries.insertIdx place entry).find? test = some entry := by
  induction entries generalizing place with
  | nil =>
      cases Nat.le_zero.mp within
      simp [passes]
  | cons first rest further =>
      rw [List.find?_cons] at absent
      split at absent
      · cases absent
      · next misses =>
          cases place with
          | zero => simp [passes]
          | succ place =>
              rw [List.insertIdx_succ_cons, List.find?_cons, misses]
              exact further place absent (Nat.le_of_succ_le_succ within)

end Storyhook.Library
