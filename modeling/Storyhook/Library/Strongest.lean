import Mathlib.Data.List.Induction
import Mathlib.Data.List.Nodup
import Mathlib.Logic.Function.Basic
import Mathlib.Order.MinMax

/-! Keys in the order in which they are first recorded, each with the most that was recorded. -/

namespace Storyhook.Library

structure Strongest (κ α : Type) where
  order : List κ
  most : κ → Option α

namespace Strongest

variable {κ α : Type} [LinearOrder α]

def empty : Strongest κ α := ⟨[], fun _ => none⟩

def record [DecidableEq κ] (strongest : Strongest κ α) (entry : κ × α) : Strongest κ α :=
  match strongest.most entry.1 with
  | some existing =>
      { strongest with most := Function.update strongest.most entry.1 (some (max existing entry.2)) }
  | none =>
      { order := strongest.order ++ [entry.1]
        most := Function.update strongest.most entry.1 (some entry.2) }

/-- What recording these entries comes to. -/
structure Records (entries : List (κ × α)) (strongest : Strongest κ α) : Prop where
  nodup : strongest.order.Nodup
  listed : ∀ key, key ∈ strongest.order ↔ ∃ value, (key, value) ∈ entries
  known : ∀ key ∈ strongest.order, ∃ value, strongest.most key = some value
  strong : ∀ key value, strongest.most key = some value →
    (key, value) ∈ entries ∧ ∀ other, (key, other) ∈ entries → other ≤ value
  ordered : strongest.order.Pairwise fun earlier later =>
    ∀ front value back, entries = front ++ (later, value) :: back → ∃ other, (earlier, other) ∈ front

theorem Records.empty : Records ([] : List (κ × α)) Strongest.empty where
  nodup := List.nodup_nil
  listed := fun key => by simp [Strongest.empty]
  known := fun key none => nomatch none
  strong := fun key value none => nomatch none
  ordered := List.Pairwise.nil

theorem concat_split {β : Type} (entries front back : List β) (last entry : β)
    (split : entries ++ [last] = front ++ entry :: back) :
    (entries = front ∧ last = entry) ∨ ∃ rest, entries = front ++ entry :: rest := by
  rcases List.eq_nil_or_concat' back with rfl | ⟨init, final, rfl⟩
  · obtain ⟨rfl, same⟩ := List.append_inj' split rfl
    exact .inl ⟨rfl, List.head_eq_of_cons_eq same⟩
  · rw [← List.cons_append, ← List.append_assoc] at split
    exact .inr ⟨init, (List.append_inj' split rfl).1⟩

theorem Records.ordered_concat (entries : List (κ × α)) (strongest : Strongest κ α) (entry : κ × α)
    (records : Records entries strongest) : strongest.order.Pairwise fun earlier later =>
      ∀ front value back, entries ++ [entry] = front ++ (later, value) :: back →
        ∃ other, (earlier, other) ∈ front := by
  refine records.ordered.imp_of_mem fun first _ before front value back split => ?_
  rcases concat_split entries front back entry _ split with ⟨rfl, -⟩ | ⟨rest, same⟩
  · exact (records.listed _).mp first
  · exact before front value rest same

variable [DecidableEq κ]

theorem Records.strong_update (entries : List (κ × α)) (strongest : Strongest κ α) (key : κ)
    (value best : α) (records : Records entries strongest)
    (told : (key, best) ∈ entries ++ [(key, value)])
    (greatest : ∀ other, (key, other) ∈ entries ++ [(key, value)] → other ≤ best) (other : κ) (most : α)
    (held : Function.update strongest.most key (some best) other = some most) :
    (other, most) ∈ entries ++ [(key, value)] ∧
      ∀ less, (other, less) ∈ entries ++ [(key, value)] → less ≤ most := by
  by_cases same : other = key
  · subst same
    rw [Function.update_self, Option.some.injEq] at held
    subst held
    exact ⟨told, greatest⟩
  · rw [Function.update_of_ne same] at held
    obtain ⟨own, above⟩ := records.strong other most held
    refine ⟨List.mem_append_left _ own, fun less member => ?_⟩
    rcases List.mem_append.mp member with old | new
    · exact above less old
    · exact absurd (Prod.mk.inj (List.mem_singleton.mp new)).1 same

theorem Records.known_update (entries : List (κ × α)) (strongest : Strongest κ α) (key other : κ)
    (best : α) (records : Records entries strongest) (member : other ∈ strongest.order ∨ other = key) :
    ∃ value, Function.update strongest.most key (some best) other = some value := by
  by_cases same : other = key
  · exact ⟨best, same ▸ Function.update_self ..⟩
  · rw [Function.update_of_ne same]
    exact records.known other (member.resolve_right same)

theorem Records.recorded (entries : List (κ × α)) (strongest : Strongest κ α) (key : κ) (value : α)
    (records : Records entries strongest) :
    Records (entries ++ [(key, value)]) (strongest.record (key, value)) := by
  have before := records.ordered_concat entries strongest (key, value)
  cases found : strongest.most key with
  | some existing =>
      obtain ⟨told, greatest⟩ := records.strong key existing found
      have present := (records.listed key).mpr ⟨existing, told⟩
      have shape : strongest.record (key, value) = { strongest with
          most := Function.update strongest.most key (some (max existing value)) } := by
        simp only [record, found]
      rw [shape]
      refine ⟨records.nodup, fun other => ?_, fun other member => ?_, ?_, before⟩
      · rw [records.listed]
        constructor
        · exact fun ⟨given, member⟩ => ⟨given, List.mem_append_left _ member⟩
        · rintro ⟨given, member⟩
          rcases List.mem_append.mp member with old | new
          · exact ⟨given, old⟩
          · cases List.mem_singleton.mp new
            exact ⟨existing, told⟩
      · exact records.known_update entries strongest key other _ (Or.inl member)
      · refine records.strong_update entries strongest key value _ ?_ fun less member => ?_
        · rcases max_choice existing value with eq | eq
          · rw [eq]
            exact List.mem_append_left _ told
          · rw [eq]
            exact List.mem_append_right _ (List.mem_singleton_self _)
        · rcases List.mem_append.mp member with old | new
          · exact le_max_of_le_left (greatest less old)
          · cases List.mem_singleton.mp new
            exact le_max_right _ _
  | none =>
      have absent : key ∉ strongest.order := by
        intro member
        obtain ⟨given, known⟩ := records.known key member
        cases found.symm.trans known
      have unsaid (given : α) : (key, given) ∉ entries := fun member =>
        absent ((records.listed key).mpr ⟨given, member⟩)
      have shape : strongest.record (key, value) =
          ⟨strongest.order ++ [key], Function.update strongest.most key (some value)⟩ := by
        simp only [record, found]
      rw [shape]
      refine ⟨?_, fun other => ?_, fun other member => ?_, ?_, ?_⟩
      · refine List.nodup_append.mpr ⟨records.nodup, List.nodup_singleton key, ?_⟩
        intro one here two there same
        exact absent ((same.trans (List.mem_singleton.mp there)) ▸ here)
      · simp only [List.mem_append, records.listed, List.mem_singleton, Prod.mk.injEq, exists_or,
          exists_and_left, exists_eq, and_true]
      · refine records.known_update entries strongest key other value ?_
        exact (List.mem_append.mp member).imp_right List.mem_singleton.mp
      · refine records.strong_update entries strongest key value _
          (List.mem_append_right _ (List.mem_singleton_self _)) fun less member => ?_
        rcases List.mem_append.mp member with old | new
        · exact absurd old (unsaid less)
        · cases List.mem_singleton.mp new
          exact le_rfl
      · refine List.pairwise_append.mpr ⟨before, List.pairwise_singleton _ key, ?_⟩
        intro earlier first later last front most back split
        obtain rfl := List.mem_singleton.mp last
        rcases concat_split entries front back _ _ split with ⟨rfl, -⟩ | ⟨rest, same⟩
        · exact (records.listed _).mp first
        · exact absurd (same ▸ List.mem_append_right _ List.mem_cons_self) (unsaid most)

theorem records_foldl (entries : List (κ × α)) : Records entries (entries.foldl record empty) := by
  induction entries using List.reverseRecOn with
  | nil => exact Records.empty
  | append_singleton init last further =>
      rw [List.foldl_concat]
      exact further.recorded init _ last.1 last.2

end Strongest

end Storyhook.Library
