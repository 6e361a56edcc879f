import Mathlib.Algebra.GroupWithZero.Nat
import Mathlib.Logic.Relation
import Mathlib.Tactic.Common
import Mathlib.Algebra.Order.BigOperators.Group.List
import Mathlib.Algebra.Order.Group.Nat

/-! Relations without cycles, and the search that decides whether an edge would close one. -/

namespace Storyhook.Library.Reach

variable {ν : Type}

/-- No node comes back to itself. -/
def Acyclic (edge : ν → ν → Prop) : Prop :=
  ∀ node, ¬ Relation.TransGen edge node node

def withEdge (edge : ν → ν → Prop) (source target : ν) : ν → ν → Prop :=
  fun left right => edge left right ∨ left = source ∧ right = target

section Paths

variable (edge wider : ν → ν → Prop) (source target : ν)

theorem Acyclic.narrow (acyclic : Acyclic wider)
    (within : ∀ left right, edge left right → wider left right) : Acyclic edge :=
  fun node path => acyclic node (Relation.TransGen.mono within node node path)

theorem withEdge_path (left right : ν)
    (path : Relation.TransGen (withEdge edge source target) left right) :
    Relation.TransGen edge left right ∨
      Relation.ReflTransGen edge left source ∧ Relation.ReflTransGen edge target right := by
  induction path with
  | single step =>
      rcases step with old | ⟨rfl, rfl⟩
      · exact Or.inl (.single old)
      · exact Or.inr ⟨.refl, .refl⟩
  | tail _ step ih =>
      rcases step with old | ⟨rfl, rfl⟩
      · rcases ih with before | ⟨toward, onward⟩
        · exact Or.inl (before.tail old)
        · exact Or.inr ⟨toward, onward.tail old⟩
      · rcases ih with before | ⟨toward, -⟩
        · exact Or.inr ⟨before.to_reflTransGen, .refl⟩
        · exact Or.inr ⟨toward, .refl⟩

theorem withEdge_acyclic (acyclic : Acyclic edge) :
    Acyclic (withEdge edge source target) ↔ ¬ Relation.ReflTransGen edge target source := by
  constructor
  · intro still back
    have around : Relation.ReflTransGen (withEdge edge source target) target source :=
      Relation.ReflTransGen.mono (fun _ _ => Or.inl) target source back
    exact still source (Relation.TransGen.head' (Or.inr ⟨rfl, rfl⟩) around)
  · intro apart node path
    rcases withEdge_path edge source target node node path with old | ⟨toward, onward⟩
    · exact acyclic node old
    · exact apart (onward.trans toward)

end Paths

section Search

variable [Ord ν] [DecidableEq ν] (next : ν → List ν) (goal : ν)

/-- A walk that visits the node on top of its stack and puts what comes next above the rest. -/
def seeks : Nat → List ν → Std.TreeSet ν → Bool
  | 0, _, _ => false
  | _ + 1, [], _ => false
  | fuel + 1, current :: rest, visited =>
      if visited.contains current then seeks fuel rest visited
      else if current = goal then true
      else seeks fuel (next current ++ rest) (visited.insert current)

theorem seeks_sound (fuel : Nat) (stack : List ν) (visited : Std.TreeSet ν)
    (found : seeks next goal fuel stack visited = true) :
    ∃ start ∈ stack, Relation.ReflTransGen (fun left right => right ∈ next left) start goal := by
  induction fuel generalizing stack visited with
  | zero => cases found
  | succ fuel ih =>
      cases stack with
      | nil => cases found
      | cons current rest =>
          unfold seeks at found
          split at found
          · obtain ⟨start, member, path⟩ := ih rest visited found
            exact ⟨start, List.mem_cons_of_mem _ member, path⟩
          · split at found
            · next same => exact ⟨current, List.mem_cons_self, same ▸ .refl⟩
            · obtain ⟨start, member, path⟩ := ih _ _ found
              rcases List.mem_append.mp member with pushed | waiting
              · exact ⟨current, List.mem_cons_self, .head pushed path⟩
              · exact ⟨start, List.mem_cons_of_mem _ waiting, path⟩

variable [Std.TransOrd ν] (keys : List ν)

def potential (stack : List ν) (visited : Std.TreeSet ν) : Nat :=
  stack.length + (keys.map fun key => if visited.contains key then 0 else (next key).length).sum

omit [DecidableEq ν] in
theorem visit_potential (current : ν) (visited : Std.TreeSet ν)
    (fresh : visited.contains current = false) (known : next current ≠ [] → current ∈ keys) :
    (next current).length + (keys.map fun key =>
        if (visited.insert current).contains key then 0 else (next key).length).sum ≤
      (keys.map fun key => if visited.contains key then 0 else (next key).length).sum := by
  have falls : ∀ key, (if (visited.insert current).contains key then 0 else (next key).length) ≤
      if visited.contains key then 0 else (next key).length := by
    intro key
    rw [Std.TreeSet.contains_insert]
    cases visited.contains key <;> cases compare current key == .eq <;> simp
  cases blank : next current with
  | nil =>
      rw [List.length_nil, Nat.zero_add]
      exact List.sum_le_sum fun key _ => falls key
  | cons first later =>
      obtain ⟨before, after, rfl⟩ := List.append_of_mem (known (by simp [blank]))
      have left := List.sum_le_sum fun key (_ : key ∈ before) => falls key
      have right := List.sum_le_sum fun key (_ : key ∈ after) => falls key
      have own : (visited.insert current).contains current = true :=
        Std.TreeSet.contains_insert_self
      simp only [List.map_append, List.map_cons, List.sum_append, List.sum_cons, own, fresh,
        if_true, Bool.false_eq_true, if_false]
      rw [← blank]
      omega

variable [Std.LawfulEqOrd ν]

theorem seeks_complete (fuel : Nat) (stack : List ν) (visited : Std.TreeSet ν)
    (known : ∀ node, next node ≠ [] → node ∈ keys)
    (fuelled : potential next keys stack visited < fuel) (missed : goal ∉ visited)
    (carried : ∀ node ∈ visited, ∀ other ∈ next node, other ∈ visited ∨ other ∈ stack)
    (failed : seeks next goal fuel stack visited = false) :
    ∃ seen : Set ν, (∀ node ∈ stack, node ∈ seen) ∧ (∀ node ∈ visited, node ∈ seen) ∧
      goal ∉ seen ∧ ∀ node ∈ seen, ∀ other ∈ next node, other ∈ seen := by
  induction fuel generalizing stack visited with
  | zero => cases Nat.not_lt_zero _ fuelled
  | succ fuel ih =>
      cases stack with
      | nil =>
          refine ⟨{node | node ∈ visited}, by simp, fun _ => id, missed, ?_⟩
          intro node seen other follows
          simpa using carried node seen other follows
      | cons current rest =>
          unfold seeks at failed
          split at failed
          · next again =>
              have fewer : potential next keys rest visited < fuel := by
                simp only [potential, List.length_cons] at fuelled ⊢
                omega
              obtain ⟨seen, stacked, visits, absent, closed⟩ := ih rest visited fewer missed (by
                intro node seen other follows
                rcases carried node seen other follows with earlier | waiting
                · exact Or.inl earlier
                · rcases List.mem_cons.mp waiting with rfl | later
                  · exact Or.inl again
                  · exact Or.inr later) failed
              refine ⟨seen, ?_, visits, absent, closed⟩
              intro node member
              rcases List.mem_cons.mp member with rfl | later
              · exact visits _ again
              · exact stacked node later
          · next fresh =>
              split at failed
              · cases failed
              · next apart =>
                  have fewer : potential next keys (next current ++ rest)
                      (visited.insert current) < fuel := by
                    have bounded := visit_potential next keys current visited
                      (Bool.eq_false_iff.mpr fresh) (known current)
                    simp only [potential, List.length_cons, List.length_append] at fuelled ⊢
                    omega
                  obtain ⟨seen, stacked, visits, absent, closed⟩ := ih _ _ fewer
                    (by simp [Std.TreeSet.mem_insert, missed, apart]) (by
                      intro node seen other follows
                      rw [Std.TreeSet.mem_insert, Std.LawfulEqOrd.compare_eq_iff_eq] at seen ⊢
                      rcases seen with rfl | earlier
                      · exact Or.inr (List.mem_append_left _ follows)
                      · rcases carried node earlier other follows with before | waiting
                        · exact Or.inl (Or.inr before)
                        · rcases List.mem_cons.mp waiting with rfl | later
                          · exact Or.inl (Or.inl rfl)
                          · exact Or.inr (List.mem_append_right _ later)) failed
                  refine ⟨seen, ?_, fun node member => visits node ?_, absent, closed⟩
                  · intro node member
                    rcases List.mem_cons.mp member with rfl | later
                    · exact visits _ Std.TreeSet.mem_insert_self
                    · exact stacked node (List.mem_append_right _ later)
                  · exact Std.TreeSet.mem_insert.mpr (Or.inr member)

theorem seeks_iff (fuel : Nat) (start : ν) (known : ∀ node, next node ≠ [] → node ∈ keys)
    (fuelled : (keys.map fun key => (next key).length).sum + 1 < fuel) :
    seeks next goal fuel [start] ∅ = true ↔
      Relation.ReflTransGen (fun left right => right ∈ next left) start goal := by
  constructor
  · intro found
    obtain ⟨origin, member, path⟩ := seeks_sound next goal fuel [start] ∅ found
    rwa [List.mem_singleton.mp member] at path
  · intro path
    by_contra failed
    obtain ⟨seen, stacked, -, absent, closed⟩ := seeks_complete next goal keys fuel [start] ∅ known
      (by simpa [potential, Nat.add_comm] using fuelled) Std.TreeSet.not_mem_emptyc
      (fun node member => absurd member Std.TreeSet.not_mem_emptyc) (Bool.eq_false_iff.mpr failed)
    have inside (node : ν)
        (reached : Relation.ReflTransGen (fun left right => right ∈ next left) start node) :
        node ∈ seen := by
      induction reached with
      | refl => exact stacked start List.mem_cons_self
      | tail _ step ih => exact closed _ ih _ step
    exact absent (inside goal path)

end Search

end Storyhook.Library.Reach
