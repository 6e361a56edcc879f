import Storyhook.Service.Story

namespace Storyhook.Service

open Storyhook.Domain Storyhook.Store
open Library Library.Outcome

/-- Appends what a closure makes of an open story; an empty batch writes nothing. -/
def editStory (ctx : Ctx) (db : Database) (id : String)
    (build : StoryRow → Except AppError (List StoryEvent)) :
    Except AppError (Database × StorySnapshot) := do
  let (story, row) ← resolveOpenStory db id
  let events ← build row
  if events.isEmpty then return (db, row.snapshot)
  else appendAndFold ctx db story (.exact row.headSeq) events

def setAwaiting (ctx : Ctx) (db : Database) (id awaiting : String) :
    Except AppError (Database × StorySnapshot) := do
  let awaiting := String.ofList (Text.trim awaiting.toList)
  refuse awaiting.isEmpty (.validation "awaiting reason must not be empty")
  editStory ctx db id fun _ => .ok [.storyAwaitingSet ctx.now awaiting]

def clearAwaiting (ctx : Ctx) (db : Database) (id : String) :
    Except AppError (Database × StorySnapshot) :=
  editStory ctx db id fun row =>
    .ok (if row.awaiting.isNone then [] else [.storyAwaitingCleared ctx.now])

/-- A JSON value; the fields of an object stand in the order the parser's map gives them. -/
inductive Json where
  | null
  | bool (value : Bool)
  | number (text : String)
  | string (text : String)
  | array (items : List Json)
  | object (fields : List (String × Json))

def Json.asStr : Json → Option String
  | .string text => some text
  | _ => none

/-- The edits of one call. The patch is the parsed one, or the parser's complaint. -/
structure FieldEdits where
  title : Option String
  state : Option String
  priority : Option String
  complexity : Option String
  labels : Option String
  blocked : Option String
  unblocked : Bool
  json : Option (Except String Json)
  storyType : Option String
  description : Option String

inductive FieldWrite where
  | title (title : String)
  | state (slug : String) (target : StateDef)
  | complexity (complexity : Complexity) (raw : String)
  | priority (priority : Priority) (raw : String)
  | labels (labels : List String) (summary : String)
  | blocked (reason : String)
  | unblocked
  | storyType (slug : String)
  | description (description : String)
  deriving DecidableEq, Repr

namespace FieldWrite

/-- The events of a write, for a story that was awaiting something before the edit or not. -/
def events (now : String) (awaiting : Bool) : FieldWrite → List StoryEvent
  | .title text => [.storyTitleSet now text]
  | .state _ target => stateTransitionEvents target awaiting now []
  | .complexity level _ => [.storyComplexitySet now level]
  | .priority level _ => [.storyPrioritySet now level]
  | .labels normalized _ => [.storyLabelsSet now normalized]
  | .blocked reason => [.storyAwaitingSet now reason]
  | .unblocked => [.storyAwaitingCleared now]
  | .storyType slug => [.storyTypeSet now slug]
  | .description text => [.storyDescriptionSet now text]

def change : FieldWrite → String
  | .title text => "title -> " ++ text
  | .state slug _ => "state -> " ++ slug
  | .complexity _ raw => "complexity -> " ++ raw
  | .priority _ raw => "priority -> " ++ raw
  | .labels _ summary => summary
  | .blocked reason => "blocked: " ++ reason
  | .unblocked => "unblocked"
  | .storyType slug => "type -> " ++ slug
  | .description _ => "description updated"

def movedTo : FieldWrite → Option String
  | .state slug _ => some slug
  | _ => none

theorem events_plain (now : String) (awaiting : Bool) (field : FieldWrite) :
    Plain (field.events now awaiting) := by
  cases field with
  | state slug target =>
      apply plain_transition
      intro event member
      cases member
  | _ =>
      intro event member
      rw [events, List.mem_singleton] at member
      subst member
      exact ⟨rfl, rfl⟩

end FieldWrite

def optionally {α : Type} (value : Option α) (write : α → Except AppError FieldWrite) :
    Except AppError (List FieldWrite) :=
  match value with
  | none => .ok []
  | some value => (write value).map ([·])

def stateWrite (ctx : Ctx) (states : StateCatalog) (slug : String) : Except AppError FieldWrite :=
  (demand states[slug]? (ctx.undefinedState slug states)).map (.state slug)

def complexityWrite (raw : String) : Except AppError FieldWrite :=
  (parseComplexity raw).map fun complexity => .complexity complexity raw

def priorityWrite (raw : String) : Except AppError FieldWrite :=
  (assignablePriority raw).map fun priority => .priority priority raw

def typeWrite (db : Database) (slug : String) : Except AppError FieldWrite :=
  (requireKnownType db slug).map fun _ => .storyType slug

def flagWrites (ctx : Ctx) (db : Database) (story : StorySnapshot) (edits : FieldEdits) :
    Except AppError (List FieldWrite) := do
  let state ← optionally edits.state (stateWrite ctx (stateMap db.states))
  let complexity ← optionally edits.complexity complexityWrite
  let priority ← optionally edits.priority priorityWrite
  let storyType ← optionally edits.storyType (typeWrite db)
  return (edits.title.map .title).toList ++ state ++ complexity ++ priority ++
    (edits.labels.map fun csv =>
      .labels (normalizeLabels ctx (story.labels ++ [csv])) ("labels += " ++ csv)).toList ++
    (edits.blocked.map .blocked).toList ++
    (if edits.unblocked then [.unblocked] else []) ++
    storyType ++ (edits.description.map .description).toList

def jsonStr (value : Json) (field : String) : Except AppError String :=
  demand value.asStr (.validation (field ++ " must be a string"))

def jsonLabels (ctx : Ctx) : Json → Except AppError FieldWrite
  | .array items =>
      let labels := normalizeLabels ctx (items.filterMap Json.asStr)
      .ok (.labels labels ("labels -> [" ++ ", ".intercalate labels ++ "]"))
  | _ => .error (.validation "labels must be an array of strings")

def jsonBlocked : Json → Except AppError FieldWrite
  | .null => .ok .unblocked
  | .string reason => .ok (if reason.isEmpty then .unblocked else .blocked reason)
  | _ => .error (.validation "blocked must be a string or null")

/-- What one key of the patch writes; an empty title writes nothing. -/
def jsonWrite (ctx : Ctx) (db : Database) (key : String) (value : Json) :
    Except AppError (List FieldWrite) :=
  match key with
  | "title" => (jsonStr value "title").map fun title => if title.isEmpty then [] else [.title title]
  | "state" => do
      let slug ← jsonStr value "state"
      return [← stateWrite ctx (stateMap db.states) slug]
  | "complexity" => do
      let raw ← jsonStr value "complexity"
      return [← complexityWrite raw]
  | "priority" => do
      let raw ← jsonStr value "priority"
      return [← priorityWrite raw]
  | "labels" => (jsonLabels ctx value).map ([·])
  | "blocked" => (jsonBlocked value).map ([·])
  | "story_type" => do
      let slug ← jsonStr value "story_type"
      return [← typeWrite db slug]
  | "description" => (jsonStr value "description").map fun text => [.description text]
  | other => .error (.validation ("unknown field `" ++ other ++
      "` in JSON. Valid fields: title, state, priority, complexity, labels, blocked, " ++
      "story_type, description"))

def jsonWrites (ctx : Ctx) (db : Database) : List (String × Json) →
    Except AppError (List FieldWrite)
  | [] => .ok []
  | (key, value) :: rest => do
      let first ← jsonWrite ctx db key value
      let later ← jsonWrites ctx db rest
      return first ++ later

def applyJsonPatch (ctx : Ctx) (db : Database) :
    Option (Except String Json) → Except AppError (List FieldWrite)
  | none => .ok []
  | some (.error complaint) => .error (.validation ("invalid JSON: " ++ complaint))
  | some (.ok (.object fields)) => jsonWrites ctx db fields
  | some (.ok _) => .error (.validation "JSON must be an object")

/-- The writes of an edit: those of its flags, then those of its patch. -/
def planFieldEdits (ctx : Ctx) (db : Database) (story : StorySnapshot) (edits : FieldEdits) :
    Except AppError (List FieldWrite) := do
  let flags ← flagWrites ctx db story edits
  let patch ← applyJsonPatch ctx db edits.json
  return flags ++ patch

/-- Whether the story was awaiting something is read once, before any of the writes. -/
def editPlan (now : String) (awaiting : Bool) (writes : List FieldWrite) : EditPlan where
  events := writes.flatMap (FieldWrite.events now awaiting)
  movedTo := (writes.filterMap FieldWrite.movedTo).getLast?
  plain := by
    intro event member
    obtain ⟨field, -, inside⟩ := List.mem_flatMap.mp member
    exact field.events_plain now awaiting event inside

def editFields (ctx : Ctx) (db : Database) (id : String) (edits : FieldEdits) :
    Except AppError (Database × String) := do
  let (_, row) ← resolveOpenStory db id
  let writes ← planFieldEdits ctx db row.snapshot edits
  let (after, _) ← setFields ctx db id
    (editPlan ctx.now row.snapshot.awaiting.isSome writes)
  return (after, "updated " ++ id ++ ": " ++ ", ".intercalate (writes.map FieldWrite.change))

/-- A field an edit asks for that moves its story, or that writes or clears its hold. -/
inductive HoldField where
  | move (slug : String)
  | set
  | clear
  deriving DecidableEq, Repr

def FieldWrite.holdField : FieldWrite → Option HoldField
  | .state slug _ => some (.move slug)
  | .blocked _ => some .set
  | .unblocked => some .clear
  | _ => none

def flagFields (edits : FieldEdits) : List HoldField :=
  (edits.state.map .move).toList ++ (edits.blocked.map fun _ => .set).toList ++
    if edits.unblocked then [.clear] else []

def jsonField : String × Json → Option HoldField
  | ("state", .string slug) => some (.move slug)
  | ("blocked", .null) => some .clear
  | ("blocked", .string reason) => some (if reason.isEmpty then .clear else .set)
  | _ => none

def patchFields : Option (Except String Json) → List HoldField
  | some (.ok (.object fields)) => fields.filterMap jsonField
  | _ => []

/-- Those fields of an edit, flags first and then the keys of the patch. -/
def holdFields (edits : FieldEdits) : List HoldField :=
  flagFields edits ++ patchFields edits.json

/-- The writes an edit makes of some of its fields; a move goes to a state the catalog defines. -/
structure Plans (db : Database) (writes : List FieldWrite) (fields : List HoldField) : Prop where
  read : writes.filterMap FieldWrite.holdField = fields
  known : ∀ slug target, .state slug target ∈ writes → (stateMap db.states)[slug]? = some target

section Plans

variable (ctx : Ctx) (db : Database)

theorem Plans.append (earlier later : List FieldWrite) (first second : List HoldField)
    (one : Plans db earlier first) (two : Plans db later second) :
    Plans db (earlier ++ later) (first ++ second) where
  read := by rw [List.filterMap_append, one.read, two.read]
  known := by
    intro slug target member
    exact (List.mem_append.mp member).elim (one.known slug target) (two.known slug target)

theorem Plans.aside (writes : List FieldWrite)
    (apart : ∀ field ∈ writes, field.holdField = none) : Plans db writes [] where
  read := List.filterMap_eq_nil_iff.mpr apart
  known := fun slug target member => by cases apart _ member

theorem Plans.state (slug : String) (field : FieldWrite)
    (ran : stateWrite ctx (stateMap db.states) slug = .ok field) :
    Plans db [field] [.move slug] := by
  obtain ⟨target, found, rfl⟩ := (map_eq_ok _ _ _).mp ran
  refine ⟨rfl, ?_⟩
  intro other definition member
  cases List.mem_singleton.mp member
  exact (demand_ok _ _ _).mp found

theorem complexityWrite_aside (raw : String) (field : FieldWrite)
    (ran : complexityWrite raw = .ok field) : field.holdField = none := by
  obtain ⟨complexity, -, rfl⟩ := (map_eq_ok _ _ _).mp ran
  rfl

theorem priorityWrite_aside (raw : String) (field : FieldWrite)
    (ran : priorityWrite raw = .ok field) : field.holdField = none := by
  obtain ⟨priority, -, rfl⟩ := (map_eq_ok _ _ _).mp ran
  rfl

theorem typeWrite_aside (slug : String) (field : FieldWrite)
    (ran : typeWrite db slug = .ok field) : field.holdField = none := by
  obtain ⟨known, -, rfl⟩ := (map_eq_ok _ _ _).mp ran
  rfl

theorem Plans.single (field : FieldWrite) (apart : field.holdField = none) :
    Plans db [field] [] := by
  apply Plans.aside
  simpa using apart

theorem Plans.optionally {α : Type} (value : Option α) (write : α → Except AppError FieldWrite)
    (writes : List FieldWrite) (asked : α → Option HoldField)
    (each : ∀ given field, write given = .ok field → Plans db [field] (asked given).toList)
    (ran : Service.optionally value write = .ok writes) :
    Plans db writes (value.bind asked).toList := by
  unfold Service.optionally at ran
  cases value with
  | none =>
      cases ran
      exact Plans.aside db [] (by simp)
  | some given =>
      obtain ⟨field, written, rfl⟩ := (map_eq_ok _ _ _).mp ran
      exact each given field written

theorem flagWrites_plans (story : StorySnapshot) (edits : FieldEdits) (writes : List FieldWrite)
    (ran : flagWrites ctx db story edits = .ok writes) : Plans db writes (flagFields edits) := by
  simp only [flagWrites, bind_eq_ok, pure_eq_ok] at ran
  obtain ⟨state, moved, complexity, level, priority, ranked, storyType, typed, rfl⟩ := ran
  have moves := Plans.optionally db _ _ _ (fun slug => some (.move slug))
    (fun slug field => Plans.state ctx db slug field) moved
  have levels := Plans.optionally db _ _ _ (fun _ => none)
    (fun raw field ran => Plans.single db field (complexityWrite_aside raw field ran)) level
  have ranks := Plans.optionally db _ _ _ (fun _ => none)
    (fun raw field ran => Plans.single db field (priorityWrite_aside raw field ran)) ranked
  have types := Plans.optionally db _ _ _ (fun _ => none)
    (fun slug field ran => Plans.single db field (typeWrite_aside db slug field ran)) typed
  have title : Plans db (edits.title.map .title).toList [] :=
    Plans.aside db _ (by simp [FieldWrite.holdField])
  have labels : Plans db (edits.labels.map fun csv => .labels
      (normalizeLabels ctx (story.labels ++ [csv])) ("labels += " ++ csv)).toList [] :=
    Plans.aside db _ (by simp [FieldWrite.holdField])
  have description : Plans db (edits.description.map .description).toList [] :=
    Plans.aside db _ (by simp [FieldWrite.holdField])
  have hold : Plans db (edits.blocked.map .blocked).toList
      (edits.blocked.map fun _ => HoldField.set).toList := by
    refine ⟨?_, by simp⟩
    cases edits.blocked <;> rfl
  have release : Plans db (if edits.unblocked then [.unblocked] else [])
      (if edits.unblocked then [.clear] else []) := by
    refine ⟨?_, ?_⟩ <;> cases edits.unblocked <;> simp [FieldWrite.holdField]
  have whole := ((((((((title.append db _ _ _ _ moves).append db _ _ _ _ levels).append db _ _ _ _
    ranks).append db _ _ _ _ labels).append db _ _ _ _ hold).append db _ _ _ _ release).append
      db _ _ _ _ types).append db _ _ _ _ description)
  refine ⟨whole.read.trans ?_, whole.known⟩
  simp only [List.nil_append, Option.bind_fun_none, Option.toList_none, List.append_nil,
    Option.map_eq_bind, Function.comp_def, List.append_assoc, flagFields]

theorem jsonStr_ok (value : Json) (field text : String)
    (ran : jsonStr value field = .ok text) : value = .string text := by
  have found := (demand_ok _ _ _).mp ran
  cases value <;> simp_all [Json.asStr]

theorem jsonWrite_plans (key : String) (value : Json) (writes : List FieldWrite)
    (ran : jsonWrite ctx db key value = .ok writes) :
    Plans db writes (jsonField (key, value)).toList := by
  unfold jsonWrite at ran
  split at ran
  · obtain ⟨title, -, rfl⟩ := (map_eq_ok _ _ _).mp ran
    apply Plans.aside
    split <;> simp [FieldWrite.holdField]
  · simp only [bind_eq_ok, pure_eq_ok] at ran
    obtain ⟨slug, named, field, moved, rfl⟩ := ran
    rw [jsonStr_ok value _ slug named]
    exact Plans.state ctx db slug field moved
  · simp only [bind_eq_ok, pure_eq_ok] at ran
    obtain ⟨raw, -, field, written, rfl⟩ := ran
    exact Plans.single db field (complexityWrite_aside raw field written)
  · simp only [bind_eq_ok, pure_eq_ok] at ran
    obtain ⟨raw, -, field, written, rfl⟩ := ran
    exact Plans.single db field (priorityWrite_aside raw field written)
  · obtain ⟨field, labelled, rfl⟩ := (map_eq_ok _ _ _).mp ran
    apply Plans.single
    unfold jsonLabels at labelled
    split at labelled
    · cases labelled
      rfl
    · cases labelled
  · obtain ⟨field, blocked, rfl⟩ := (map_eq_ok _ _ _).mp ran
    unfold jsonBlocked at blocked
    split at blocked
    · cases blocked
      exact ⟨rfl, by simp⟩
    · next reason =>
        cases blocked
        refine ⟨?_, ?_⟩ <;> cases blank : reason.isEmpty <;>
          simp [jsonField, FieldWrite.holdField, blank]
    · cases blocked
  · simp only [bind_eq_ok, pure_eq_ok] at ran
    obtain ⟨slug, -, field, written, rfl⟩ := ran
    exact Plans.single db field (typeWrite_aside db slug field written)
  · obtain ⟨text, -, rfl⟩ := (map_eq_ok _ _ _).mp ran
    exact Plans.single db _ rfl
  · cases ran

theorem jsonWrites_plans (fields : List (String × Json)) (writes : List FieldWrite)
    (ran : jsonWrites ctx db fields = .ok writes) :
    Plans db writes (fields.filterMap jsonField) := by
  induction fields generalizing writes with
  | nil =>
      cases ran
      exact Plans.aside db [] (by simp)
  | cons field rest ih =>
      simp only [jsonWrites, bind_eq_ok, pure_eq_ok] at ran
      obtain ⟨first, one, later, others, rfl⟩ := ran
      have whole := (jsonWrite_plans ctx db _ _ first one).append db _ _ _ _ (ih later others)
      rw [List.filterMap_cons]
      cases read : jsonField field <;> simpa [read] using whole

theorem planFieldEdits_plans (story : StorySnapshot) (edits : FieldEdits)
    (writes : List FieldWrite) (ran : planFieldEdits ctx db story edits = .ok writes) :
    Plans db writes (holdFields edits) := by
  simp only [planFieldEdits, bind_eq_ok, pure_eq_ok] at ran
  obtain ⟨flags, flagged, patch, patched, rfl⟩ := ran
  refine (flagWrites_plans ctx db story edits flags flagged).append db _ _ _ _ ?_
  generalize edits.json = parsed at patched ⊢
  unfold applyJsonPatch at patched
  split at patched
  · cases patched
    exact Plans.aside db [] (by simp)
  · cases patched
  · next fields => exact jsonWrites_plans ctx db fields patch patched
  · cases patched

end Plans

end Storyhook.Service
