import Storyhook.Library.Json

namespace Storyhook.Api

open Storyhook.Library
open JsonValue (Fields)

def preferenceDefaults : Fields := [
  ("filter", .obj [("text", .str ""), ("priorities", .null), ("types", .null),
    ("states", .null)]),
  ("sort", .obj [("col", .str "updated"), ("dir", .int (-1))]),
  ("columnSort", .obj []),
  ("hiddenColumns", .arr []),
  ("view", .str "board"),
  ("showArchived", .bool false),
  ("hideEmptyColumns", .bool false),
  ("keepNotices", .bool false),
  ("filtersOpen", .bool false),
  ("drawerSections", .obj [("relationships", .bool true), ("comments", .bool true),
    ("referencedBy", .bool false)]),
  ("dispatchDefaults", .obj [("agent", .str "claude"), ("auto", .bool false), ("byAgent", .obj [
    ("claude", .obj [("model", .str ""), ("effort", .str ""), ("speed", .str "")]),
    ("codex", .obj [("model", .str ""), ("effort", .str ""), ("speed", .str "")])])]),
  ("repoId", .null)]

/-- In the retired filter shape an empty selection stood for none at all. -/
def widenEmpty (filter : Fields) (key : String) : Fields :=
  if ((filter.lookup key).bind JsonValue.asArr).any List.isEmpty then filter.set key .null
  else filter

def modernFilter (filter : Fields) : Fields :=
  let current := ((filter.drop "showEpics").drop "assignees").drop "showClosed"
  if filter.has "showEpics" then ["priorities", "types", "states"].foldl widenEmpty current
  else current

def modernSort (value : JsonValue) : JsonValue :=
  if (value.get "col").bind JsonValue.asStr = some "assignee" then
    .obj [("col", .str "updated"), ("dir", .int (-1))]
  else value

def modernField (key : String) (value : JsonValue) : JsonValue :=
  if key = "sort" then modernSort value
  else if key = "filter" then
    match value with
    | .obj filter => .obj (modernFilter filter)
    | other => other
  else value

def effectivePreferences (saved : Fields) : Fields :=
  saved.foldl (fun fields field =>
    if fields.has field.1 then fields.set field.1 (modernField field.1 field.2) else fields)
    preferenceDefaults

def holdsAssignment (saved : Fields) : Bool :=
  ((saved.lookup "filter").bind (·.get "assignees")).isSome ||
    ((saved.lookup "sort").bind (·.get "col")).bind JsonValue.asStr == some "assignee"

def shortString (value : JsonValue) (max : Nat) : Bool :=
  value.asStr.any fun text => text.utf8ByteSize ≤ max

def stringArray (value : JsonValue) : Bool :=
  value.asArr.any fun items => items.length ≤ 64 && items.all fun item => shortString item 128

def inclusiveFilterSelection (value : JsonValue) : Bool := value.isNull || stringArray value

def sortValue (value : JsonValue) (field : String) (keys : List String) : Bool :=
  value.asObj.any fun object =>
    object.length == 2 && ((object.lookup field).bind JsonValue.asStr).any keys.contains &&
      ((object.lookup "dir").bind JsonValue.asInt).any fun dir => dir == -1 || dir == 1

def validFilter (filter : Fields) : Bool :=
  let legacy := filter.has "showEpics"
  filter.length == 4 + (filter.has "assignees").toNat + legacy.toNat +
      (filter.has "showClosed").toNat &&
    (filter.lookup "text").any (shortString · 2048) &&
    (filter.lookup "assignees").all stringArray &&
    (["priorities", "types", "states"].all fun key => (filter.lookup key).any fun selection =>
      if legacy then stringArray selection else inclusiveFilterSelection selection) &&
    (filter.lookup "showEpics").all JsonValue.isBool &&
    (filter.lookup "showClosed").all JsonValue.isBool &&
    (!filter.has "showClosed" || legacy)

def validAgentDefaults (agents : Fields) (agent : String) : Bool :=
  ((agents.lookup agent).bind JsonValue.asObj).any fun item =>
    item.length == 3 &&
      (["model", "effort", "speed"].all fun key => (item.lookup key).any (shortString · 128)) &&
      ((item.lookup "speed").bind JsonValue.asStr).any fun speed => speed == "" || speed == "fast"

def validDispatchDefaults (fields : Fields) : Bool :=
  fields.length == 3 &&
    ((fields.lookup "agent").bind JsonValue.asStr).any ["claude", "codex"].contains &&
    (fields.lookup "auto").any JsonValue.isBool &&
    ((fields.lookup "byAgent").bind JsonValue.asObj).any fun agents =>
      agents.length == 2 && ["claude", "codex"].all (validAgentDefaults agents)

def validPreferenceField (key : String) (value : JsonValue) : Bool :=
  match key with
  | "view" => value.asStr.any ["board", "list"].contains
  | "showArchived" | "hideEmptyColumns" | "keepNotices" | "filtersOpen" => value.isBool
  | "repoId" => value.isNull || shortString value 128
  | "hiddenColumns" => stringArray value
  | "sort" => sortValue value "col"
      ["id", "order", "title", "state", "priority", "assignee", "updated"]
  | "columnSort" => value.asObj.any fun map =>
      map.length ≤ 64 && map.all fun entry => entry.1.utf8ByteSize ≤ 128 &&
        sortValue entry.2 "key" ["added", "modified", "priority", "next", "completed"]
  | "filter" => value.asObj.any validFilter
  | "drawerSections" => value.asObj.any fun map =>
      map.length == 3 && ["relationships", "comments", "referencedBy"].all fun key =>
        (map.lookup key).any JsonValue.isBool
  | "dispatchDefaults" => value.asObj.any validDispatchDefaults
  | _ => false

inductive PreferenceError where
  | unauthorized
  | invalid (detail : String)
  | storage (detail : String)
  deriving DecidableEq, Repr

def validatePreferencePatch (jsonBytes : Fields → Option Nat) (patch : Fields) :
    Except PreferenceError Unit :=
  if patch.isEmpty || (jsonBytes patch).all (16384 < ·) then
    .error (.invalid "preference patch is empty or too large")
  else
    match patch.find? fun field => !validPreferenceField field.1 field.2 with
    | some field => .error (.invalid ("invalid preference field " ++ field.1))
    | none => .ok ()

/-- The fields that a record on its way out of the file may still have to be rid of. -/
structure Modern (fields : Fields) : Prop where
  filter : (fields.lookup "filter").bind (·.get "assignees") = none
  sort : ((fields.lookup "sort").bind (·.get "col")).bind JsonValue.asStr ≠ some "assignee"

theorem Modern.holdsNone (fields : Fields) (modern : Modern fields) :
    holdsAssignment fields = false := by
  simp [holdsAssignment, modern.filter, modern.sort]

theorem widenEmpty_assignees (filter : Fields) (key : String) (apart : key ≠ "assignees") :
    (widenEmpty filter key).lookup "assignees" = filter.lookup "assignees" := by
  unfold widenEmpty
  split
  · rw [JsonValue.Fields.lookup_set, if_neg (Ne.symm apart)]
  · rfl

theorem modernFilter_assignees (filter : Fields) : (modernFilter filter).lookup "assignees" = none := by
  have dropped : (((filter.drop "showEpics").drop "assignees").drop "showClosed").lookup
      "assignees" = none := by
    simp [JsonValue.Fields.lookup_drop]
  unfold modernFilter
  split
  · simp only [List.foldl_cons, List.foldl_nil]
    rw [widenEmpty_assignees _ _ (by decide), widenEmpty_assignees _ _ (by decide),
      widenEmpty_assignees _ _ (by decide), dropped]
  · exact dropped

theorem modernSort_col (value : JsonValue) :
    ((modernSort value).get "col").bind JsonValue.asStr ≠ some "assignee" := by
  unfold modernSort
  split
  · decide
  · assumption

theorem set_modern (fields : Fields) (key : String) (value : JsonValue) (modern : Modern fields) :
    Modern (fields.set key (modernField key value)) := by
  constructor
  · rw [JsonValue.Fields.lookup_set]
    split
    · next same =>
        subst same
        rw [Option.bind_some]
        unfold modernField
        rw [if_neg (by decide), if_pos rfl]
        split
        · exact modernFilter_assignees _
        · next plain =>
            unfold JsonValue.get
            cases value <;> first | rfl | exact absurd rfl (plain _)
    · exact modern.filter
  · rw [JsonValue.Fields.lookup_set]
    split
    · next same =>
        subst same
        rw [Option.bind_some]
        unfold modernField
        rw [if_pos rfl]
        exact modernSort_col value
    · exact modern.sort

theorem effectivePreferences_modern (saved : Fields) : Modern (effectivePreferences saved) := by
  have start : Modern preferenceDefaults := by constructor <;> decide
  unfold effectivePreferences
  generalize preferenceDefaults = fields at start
  induction saved generalizing fields with
  | nil => exact start
  | cons field rest ih =>
      rw [List.foldl_cons]
      apply ih
      split
      · exact set_modern fields field.1 field.2 start
      · exact start

end Storyhook.Api
