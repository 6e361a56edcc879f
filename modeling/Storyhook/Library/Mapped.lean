import Mathlib.Data.List.Basic
import Mathlib.Tactic.Common

/-! Maps that hold, key for key, what a function makes of another map's values. -/

namespace Storyhook.Library

variable {κ ν μ : Type} [Ord κ]

/-- Key for key, the one map holds what the function makes of the other's value. -/
def Mapped (change : ν → μ) (image : Std.TreeMap κ μ) (source : Std.TreeMap κ ν) : Prop :=
  image.Equiv (source.map fun _ => change)

namespace Mapped

theorem map {ν' μ' : Type} (change : ν → μ) (image : Std.TreeMap κ μ) (source : Std.TreeMap κ ν)
    (mapped : Mapped change image source) (changed : ν' → μ') (first : κ → μ → μ')
    (second : κ → ν → ν')
    (commute : ∀ key value, first key (change value) = changed (second key value)) :
    Mapped changed (image.map first) (source.map second) := by
  refine (Std.TreeMap.Equiv.map mapped _).trans (Std.TreeMap.map_map_equiv.trans ?_)
  refine .trans ?_ Std.TreeMap.map_map_equiv.symm
  simp only [commute]
  exact .rfl

variable [Std.TransOrd κ]

section Reads

variable (change : ν → μ) (image : Std.TreeMap κ μ) (source : Std.TreeMap κ ν)
  (mapped : Mapped change image source)

include mapped

theorem toList : image.toList = source.toList.map fun entry => (entry.1, change entry.2) := by
  rw [Std.TreeMap.Equiv.toList_eq mapped, Std.TreeMap.toList_map]

theorem keys : image.keys = source.keys := by
  rw [Std.TreeMap.Equiv.keys_eq mapped, Std.TreeMap.keys_map]

theorem size : image.size = source.size := by
  rw [Std.TreeMap.Equiv.size_eq mapped, Std.TreeMap.size_map]

theorem values : image.values = source.values.map change := by
  have listed {ρ : Type} (held : Std.TreeMap κ ρ) : held.values = held.toList.map (·.2) := by
    have folded : held.values = held.foldr (fun _ value rest => value :: rest) [] := rfl
    rw [folded, Std.TreeMap.foldr_eq_foldr_toList, List.map_eq_foldr]
  rw [listed, listed, mapped.toList, List.map_map, List.map_map]
  rfl

theorem get [Std.LawfulEqOrd κ] (key : κ) : image[key]? = (source[key]?).map change := by
  rw [Std.TreeMap.Equiv.getElem?_eq mapped, Std.TreeMap.getElem?_map]

theorem contains [Std.LawfulEqOrd κ] (key : κ) : image.contains key = source.contains key := by
  rw [Std.TreeMap.contains_eq_isSome_getElem?, Std.TreeMap.contains_eq_isSome_getElem?,
    mapped.get, Option.isSome_map]

end Reads

theorem ofList [Std.LawfulEqOrd κ] [BEq κ] [Std.LawfulBEqOrd κ] {α β : Type} (change : ν → μ)
    (items : List α) (alter : α → β) (entry : α → κ × ν) (altered : β → κ × μ)
    (corresponds : ∀ item, altered (alter item) = ((entry item).1, change (entry item).2)) :
    Mapped change (.ofList ((items.map alter).map altered))
      (Std.TreeMap.ofList (items.map entry)) := by
  have entries : (items.map alter).map altered =
      (items.map entry).map fun entry => (entry.1, change entry.2) := by
    rw [List.map_map, List.map_map]
    exact List.map_congr_left fun item _ => corresponds item
  rw [entries]
  refine Std.TreeMap.Equiv.of_forall_constGet?_eq fun key => ?_
  rw [Std.TreeMap.getElem?_map]
  simp only [Std.TreeMap.ofList_eq_insertMany_empty, Std.TreeMap.getElem?_insertMany_list,
    Std.TreeMap.getElem?_emptyc, Option.or_none, List.findSomeRev?_eq_findSome?_reverse]
  rw [← List.map_reverse, List.findSome?_map, List.map_findSome?]
  congr 1
  funext entry
  simp only [Function.comp]
  split <;> rfl

end Mapped

end Storyhook.Library
