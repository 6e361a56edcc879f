import Storyhook.Library.Keyed
import Storyhook.Library.Reach

/-! The search that collects all that a stack of nodes reaches. -/

namespace Storyhook.Library.Flood

open Relation

variable {ν : Type} [Ord ν] (next : ν → List ν) (bars : ν → Bool)

/-- Visits the node on top of the stack, unless it is barred or has been visited, and puts what
comes next above the rest. -/
def flood : Nat → List ν → Std.TreeSet ν → Std.TreeSet ν
  | 0, _, visited => visited
  | _ + 1, [], visited => visited
  | fuel + 1, current :: rest, visited =>
      if bars current || visited.contains current then flood fuel rest visited
      else flood fuel (next current ++ rest) (visited.insert current)

omit [Ord ν] in
def OpenArc (node other : ν) : Prop := other ∈ next node ∧ bars other = false

variable [Std.TransOrd ν] [Std.LawfulEqOrd ν]

theorem flood_sound (fuel : Nat) (stack : List ν) (visited : Std.TreeSet ν) (node : ν)
    (found : node ∈ flood next bars fuel stack visited) : node ∈ visited ∨
      ∃ start ∈ stack, bars start = false ∧ ReflTransGen (OpenArc next bars) start node := by
  induction fuel generalizing stack visited with
  | zero => exact .inl found
  | succ fuel further =>
      cases stack with
      | nil => exact .inl found
      | cons current rest =>
          rw [flood] at found
          split at found
          · refine (further rest visited found).imp_right ?_
            exact fun ⟨start, member, path⟩ => ⟨start, List.mem_cons_of_mem _ member, path⟩
          · next fresh =>
              rw [Bool.or_eq_true, not_or, Bool.not_eq_true] at fresh
              rcases further _ _ found with early | ⟨start, member, entered, path⟩
              · rw [mem_insert_key] at early
                refine early.symm.imp_right ?_
                rintro rfl
                exact ⟨node, List.mem_cons_self, fresh.1, .refl⟩
              · rcases List.mem_append.mp member with pushed | waiting
                · exact .inr ⟨current, List.mem_cons_self, fresh.1, path.head ⟨pushed, entered⟩⟩
                · exact .inr ⟨start, List.mem_cons_of_mem _ waiting, entered, path⟩

variable (keys : List ν)

theorem flood_closed (fuel : Nat) (stack : List ν) (visited : Std.TreeSet ν)
    (known : ∀ node, next node ≠ [] → node ∈ keys)
    (fuelled : Reach.potential next keys stack visited < fuel)
    (carried : ∀ node ∈ visited, ∀ other ∈ next node,
      bars other = true ∨ other ∈ visited ∨ other ∈ stack) :
    (∀ node ∈ visited, node ∈ flood next bars fuel stack visited) ∧
      (∀ node ∈ stack, bars node = true ∨ node ∈ flood next bars fuel stack visited) ∧
      ∀ node ∈ flood next bars fuel stack visited, ∀ other ∈ next node,
        bars other = true ∨ other ∈ flood next bars fuel stack visited := by
  induction fuel generalizing stack visited with
  | zero => cases Nat.not_lt_zero _ fuelled
  | succ fuel further =>
      cases stack with
      | nil =>
          refine ⟨fun _ => id, fun _ member => absurd member List.not_mem_nil, ?_⟩
          intro node inside other arc
          exact (carried node inside other arc).imp_right (Or.resolve_right · List.not_mem_nil)
      | cons current rest =>
          rw [flood]
          split
          · next again =>
              have skipped : bars current = true ∨ current ∈ visited := by
                rwa [Bool.or_eq_true] at again
              have fewer : Reach.potential next keys rest visited < fuel := by
                simp only [Reach.potential, List.length_cons] at fuelled ⊢
                omega
              obtain ⟨kept, waiting, closed⟩ := further rest visited fewer (by
                intro node inside other arc
                rcases carried node inside other arc with barred | early | pending
                · exact .inl barred
                · exact .inr (.inl early)
                · rcases List.mem_cons.mp pending with rfl | later
                  · exact skipped.imp_right .inl
                  · exact .inr (.inr later))
              refine ⟨kept, List.forall_mem_cons.mpr ⟨?_, waiting⟩, closed⟩
              exact skipped.imp_right (kept current)
          · next fresh =>
              rw [Bool.or_eq_true, not_or] at fresh
              have fewer : Reach.potential next keys (next current ++ rest)
                  (visited.insert current) < fuel := by
                have bounded := Reach.visit_potential next keys current visited
                  (Bool.eq_false_iff.mpr fresh.2) (known current)
                simp only [Reach.potential, List.length_cons, List.length_append] at fuelled ⊢
                omega
              obtain ⟨kept, waiting, closed⟩ := further _ (visited.insert current) fewer (by
                intro node inside other arc
                rcases (mem_insert_key visited current node).mp inside with rfl | early
                · exact .inr (.inr (List.mem_append_left _ arc))
                · rcases carried node early other arc with barred | before | pending
                  · exact .inl barred
                  · exact .inr (.inl ((mem_insert_key _ _ _).mpr (.inr before)))
                  · rcases List.mem_cons.mp pending with rfl | later
                    · exact .inr (.inl ((mem_insert_key _ _ _).mpr (.inl rfl)))
                    · exact .inr (.inr (List.mem_append_right _ later)))
              refine ⟨fun node inside => kept node ((mem_insert_key _ _ _).mpr (.inr inside)),
                List.forall_mem_cons.mpr ⟨.inr (kept _ ((mem_insert_key _ _ _).mpr (.inl rfl))),
                  fun node later => waiting node (List.mem_append_right _ later)⟩, closed⟩

theorem mem_flood (fuel : Nat) (stack : List ν) (known : ∀ node, next node ≠ [] → node ∈ keys)
    (fuelled : stack.length + (keys.map fun key => (next key).length).sum < fuel) (node : ν) :
    node ∈ flood next bars fuel stack ∅ ↔
      ∃ start ∈ stack, bars start = false ∧ ReflTransGen (OpenArc next bars) start node := by
  constructor
  · intro found
    exact (flood_sound next bars fuel stack ∅ node found).resolve_left Std.TreeSet.not_mem_emptyc
  · rintro ⟨start, member, entered, path⟩
    obtain ⟨-, waiting, closed⟩ := flood_closed next bars keys fuel stack ∅ known
      (by simpa [Reach.potential] using fuelled)
      fun _ inside => absurd inside Std.TreeSet.not_mem_emptyc
    induction path with
    | refl => exact (waiting start member).resolve_left (by simp [entered])
    | tail _ arc inside => exact (closed _ inside _ arc.1).resolve_left (by simp [arc.2])

section Between

omit [Ord ν] [Std.TransOrd ν] [Std.LawfulEqOrd ν]

def FreeArc (node other : ν) : Prop :=
  other ∈ next node ∧ bars node = false ∧ bars other = false

theorem free_path_iff (node other : ν) (free : bars node = false) :
    (∃ start ∈ next node, bars start = false ∧ ReflTransGen (OpenArc next bars) start other) ↔
      TransGen (FreeArc next bars) node other := by
  constructor
  · rintro ⟨start, arc, entered, path⟩
    have along : TransGen (FreeArc next bars) node other ∧ bars other = false := by
      induction path with
      | refl => exact ⟨.single ⟨arc, free, entered⟩, entered⟩
      | tail _ step further => exact ⟨further.1.tail ⟨step.1, further.2, step.2⟩, step.2⟩
    exact along.1
  · intro path
    induction path with
    | single step => exact ⟨_, step.1, step.2.2, .refl⟩
    | tail _ step further =>
        obtain ⟨start, arc, entered, before⟩ := further
        exact ⟨start, arc, entered, before.tail ⟨step.1, step.2.2⟩⟩

end Between

end Storyhook.Library.Flood
