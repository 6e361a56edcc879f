import Mathlib.Algebra.GroupWithZero.Nat
import Mathlib.Data.List.Sort
import Mathlib.Tactic.Common

/-! Maps built from lists of entries. -/

namespace Storyhook.Library

variable {κ ν : Type} [Ord κ] [Std.TransOrd κ] [Std.LawfulEqOrd κ]

theorem ofList_mem [BEq κ] [Std.LawfulBEqOrd κ] (entries : List (κ × ν)) (key : κ) (value : ν)
    (found : (Std.TreeMap.ofList entries)[key]? = some value) : (key, value) ∈ entries := by
  rw [Std.TreeMap.ofList_eq_insertMany_empty, Std.TreeMap.getElem?_insertMany_list] at found
  simp only [Std.TreeMap.getElem?_emptyc, Option.or_none, List.findSomeRev?_eq_findSome?_reverse]
    at found
  obtain ⟨entry, member, hit⟩ := List.exists_of_findSome?_eq_some found
  simp only [Std.LawfulEqOrd.compare_eq_iff_eq, Option.ite_none_right_eq_some,
    Option.some.injEq] at hit
  obtain ⟨rfl, rfl⟩ := hit
  exact List.mem_reverse.mp member

theorem ofList_of_mem (entries : List (κ × ν)) (apart : (entries.map (·.1)).Nodup) (key : κ)
    (value : ν) (member : (key, value) ∈ entries) :
    (Std.TreeMap.ofList entries)[key]? = some value := by
  apply Std.TreeMap.getElem?_ofList_of_mem Std.ReflCmp.compare_self
  · exact (List.pairwise_map.mp apart).imp fun different equal =>
      different (Std.LawfulEqOrd.compare_eq_iff_eq.mp equal)
  · exact member

omit [Std.TransOrd κ] [Std.LawfulEqOrd κ] in
theorem values_listed (map : Std.TreeMap κ ν) : map.values = map.toList.map (·.2) := by
  have folded : map.values = map.foldr (fun _ value rest => value :: rest) [] := rfl
  rw [folded, Std.TreeMap.foldr_eq_foldr_toList, List.map_eq_foldr]

omit [Std.LawfulEqOrd κ] in
theorem ascending_unique (one other : List κ) (first : one.Pairwise fun left right =>
      compare left right = .lt) (second : other.Pairwise fun left right => compare left right = .lt)
    (same : ∀ key, key ∈ one ↔ key ∈ other) : one = other := by
  have asymmetric : Std.Asymm fun left right : κ => compare left right = .lt := by
    constructor
    intro left right before after
    rw [Std.OrientedOrd.eq_swap, before] at after
    cases after
  exact first.eq_of_mem_iff second same

theorem mem_insert_key (set : Std.TreeSet κ) (key other : κ) :
    other ∈ set.insert key ↔ other = key ∨ other ∈ set := by
  rw [Std.TreeSet.mem_insert, Std.LawfulEqOrd.compare_eq_iff_eq, eq_comm]

section Sums

variable {α : Type}

theorem sum_replaced (rows : List α) (wanted : α → Bool) (old next : α) (weight : α → Nat)
    (apart : rows.Nodup) (member : old ∈ rows) (hit : wanted old = true)
    (alone : ∀ row ∈ rows, wanted row = true → row = old) :
    ((rows.map fun row => if wanted row then next else row).map weight).sum + weight old =
      (rows.map weight).sum + weight next := by
  induction rows with
  | nil => cases member
  | cons row rest further =>
      rw [List.nodup_cons] at apart
      rw [List.forall_mem_cons] at alone
      by_cases here : wanted row = true
      · obtain rfl := alone.1 here
        have untouched : (rest.map fun other => if wanted other then next else other) = rest := by
          conv_rhs => rw [← List.map_id rest]
          refine List.map_congr_left fun other inside => if_neg fun found => ?_
          exact apart.1 (alone.2 other inside found ▸ inside)
        simp only [List.map_cons, List.sum_cons, if_pos here, untouched]
        omega
      · have later : old ∈ rest := by
          rcases List.mem_cons.mp member with rfl | later
          · exact absurd hit here
          · exact later
        have moved := further apart.2 later alone.2
        simp only [List.map_cons, List.sum_cons, if_neg here]
        omega

theorem sum_filter (rows : List α) (wanted : α → Bool) (weight : α → Nat) :
    ((rows.filter wanted).map weight).sum =
      (rows.map fun row => if wanted row then weight row else 0).sum := by
  induction rows with
  | nil => rfl
  | cons row rest further =>
      by_cases here : wanted row = true
      · rw [List.filter_cons_of_pos here, List.map_cons, List.map_cons, List.sum_cons,
          List.sum_cons, if_pos here, further]
      · rw [List.filter_cons_of_neg here, List.map_cons, List.sum_cons, if_neg here, Nat.zero_add,
          further]

end Sums

end Storyhook.Library
