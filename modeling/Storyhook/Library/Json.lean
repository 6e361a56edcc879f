import Mathlib.Data.List.Basic
import Mathlib.Tactic.Common

/-! JSON values, with objects as lists of fields. -/

namespace Storyhook.Library

inductive JsonValue where
  | null
  | bool (value : Bool)
  | int (value : Int)
  | float (literal : String)
  | str (value : String)
  | arr (items : List JsonValue)
  | obj (fields : List (String × JsonValue))
  deriving Inhabited

namespace JsonValue

abbrev Fields := List (String × JsonValue)

def isNull : JsonValue → Bool
  | .null => true
  | _ => false

def isBool : JsonValue → Bool
  | .bool _ => true
  | _ => false

def asStr : JsonValue → Option String
  | .str value => some value
  | _ => none

def asInt : JsonValue → Option Int
  | .int value => some value
  | _ => none

def asArr : JsonValue → Option (List JsonValue)
  | .arr items => some items
  | _ => none

def asObj : JsonValue → Option Fields
  | .obj fields => some fields
  | _ => none

def get (value : JsonValue) (key : String) : Option JsonValue :=
  value.asObj.bind (·.lookup key)

namespace Fields

def has (fields : Fields) (key : String) : Bool := fields.any (·.1 == key)

def set : Fields → String → JsonValue → Fields
  | [], key, value => [(key, value)]
  | field :: rest, key, value =>
      if field.1 = key then (key, value) :: rest else field :: set rest key value

def drop (fields : Fields) (key : String) : Fields := fields.filter (·.1 != key)

theorem lookup_drop (fields : Fields) (key other : String) :
    (drop fields key).lookup other = if other = key then none else fields.lookup other := by
  induction fields with
  | nil => simp [drop]
  | cons field rest ih =>
      obtain ⟨name, value⟩ := field
      rw [drop] at ih ⊢
      by_cases gone : name = key
      · subst gone
        rw [List.filter_cons_of_neg (by simp), ih, List.lookup_cons]
        by_cases same : other = name
        · simp [same]
        · simp [same, beq_eq_false_iff_ne.mpr same]
      · rw [List.filter_cons_of_pos (by simpa using gone), List.lookup_cons, List.lookup_cons, ih]
        by_cases same : other = name
        · subst same
          simp [gone]
        · simp [beq_eq_false_iff_ne.mpr same]

theorem lookup_set (fields : Fields) (key : String) (value : JsonValue) (other : String) :
    (set fields key value).lookup other =
      if other = key then some value else fields.lookup other := by
  induction fields with
  | nil =>
      rw [set, List.lookup_cons]
      by_cases same : other = key
      · simp [same]
      · simp [same, beq_eq_false_iff_ne.mpr same]
  | cons field rest ih =>
      obtain ⟨name, old⟩ := field
      unfold set
      by_cases here : name = key
      · subst here
        rw [if_pos rfl, List.lookup_cons, List.lookup_cons]
        by_cases same : other = name
        · simp [same]
        · simp [same, beq_eq_false_iff_ne.mpr same]
      · rw [if_neg here, List.lookup_cons, List.lookup_cons, ih]
        by_cases same : other = name
        · subst same
          simp [here]
        · simp [beq_eq_false_iff_ne.mpr same]

end Fields

end JsonValue

end Storyhook.Library
