import Storyhook.Domain.FoldStory
import Storyhook.Library.Keyed

namespace Storyhook.Domain

open Library Library.Outcome

inductive FieldEdit where
  | keep
  | clear
  | set (value : String)
  deriving DecidableEq, Repr

def FieldEdit.apply (current : Option String) : FieldEdit → Option String
  | .keep => current
  | .clear => none
  | .set value => some value

structure StateChanges where
  superState : Option SuperState
  role : FieldEdit
  description : FieldEdit
  deriving DecidableEq, Repr

def StateChanges.isEmpty (changes : StateChanges) : Bool :=
  changes.superState.isNone && changes.role == .keep && changes.description == .keep

def SuperState.asStr : SuperState → String
  | .open => "OPEN"
  | .closed => "CLOSED"

def validateStateDefs (states : List StateDef) : Except AppError Unit :=
  refuse (!(states.any (·.superState == .open) && states.any (·.superState == .closed)))
    (.validation "state set must include at least one OPEN state and one CLOSED state")

def isSlugCharacter (character : Char) : Bool :=
  character.isLower || character.isDigit || character == '-'

def validateStateSlug (slug : String) : Except AppError Unit :=
  let invalid (reason : String) : Except AppError Unit := .error (.validation
    ("invalid state slug `" ++ slug ++ "`: " ++ reason ++
      " (use lowercase letters, digits, and single dashes, e.g. `in-review`)"))
  if slug.isEmpty then invalid "it is empty"
  else match slug.toList.find? fun character => !isSlugCharacter character with
    | some bad => invalid ("`" ++ String.ofList [bad] ++ "` is not allowed")
    | none =>
        if slug.toList.head? == some '-' || slug.toList.getLast? == some '-' then
          invalid "it starts or ends with a dash"
        else if slug.toList.tails.any (['-', '-'].isPrefixOf ·) then
          invalid "it contains a double dash"
        else .ok ()

def validateStateDefsFrom (seen : List String) : List StateDef → Except AppError Unit
  | [] => .ok ()
  | state :: rest => do
      validateStateSlug state.slug
      refuse (seen.contains state.slug)
        (.validation ("state `" ++ state.slug ++ "` is defined more than once"))
      refuse (state.role.any (· != stateRoleActive)) (.validation ("state `" ++ state.slug ++
        "` has unknown role `" ++ state.role.getD "" ++ "` (the only role is `" ++
        stateRoleActive ++ "`)"))
      validateStateDefsFrom (state.slug :: seen) rest

def validateStateDefsForWrite (states : List StateDef) : Except AppError Unit := do
  validateStateDefs states
  validateStateDefsFrom [] states
  let active := (states.filter (·.role == some stateRoleActive)).map (·.slug)
  refuse (active.length > 1) (.validation ("only one state may have role `" ++ stateRoleActive ++
    "`, but " ++ toString active.length ++ " do: " ++ ", ".intercalate active))

structure RequiredState where
  slug : String
  superState : SuperState
  deriving DecidableEq, Repr

def requiredStates : List RequiredState := [
  ⟨"todo", .open⟩,
  ⟨"in-progress", .open⟩,
  ⟨verifyingStateSlug, .open⟩,
  ⟨"blocked", .open⟩,
  ⟨completionStateSlug, .closed⟩,
  ⟨droppedStateSlug, .closed⟩]

def requiredStateList : String :=
  let slugs := requiredStates.map fun required => "`" ++ required.slug ++ "`"
  ", ".intercalate slugs.dropLast ++ " and " ++ slugs.getLast?.getD ""

/-- Renames a legacy `closed` to `dropped`, refusing a catalog that has both. -/
def normalizeCatalog (states : List StateDef) : Except AppError (List StateDef) := do
  let legacy := states.findIdx? fun state => state.slug == "closed" && state.superState == .closed
  let dropped := states.find? (·.slug == droppedStateSlug)
  refuse (dropped.any (·.superState != .closed) || (legacy.isSome && dropped.isSome))
    (.validation ("conflicting state `dropped`: it must be CLOSED and cannot coexist with legacy " ++
      "`closed`/CLOSED; resolve the conflicting catalog with the previous binary before retrying"))
  return match legacy with
    | some index => states.modify index fun state => { state with slug := droppedStateSlug }
    | none => states

/-- The required states a set lacks; one it has under the wrong superstate is refused. -/
def missingRequired (states : List StateDef) : List RequiredState → Except AppError (List String)
  | [] => .ok []
  | required :: rest =>
      match states.find? (·.slug == required.slug) with
      | none => (missingRequired states rest).map (required.slug :: ·)
      | some found => do
          refuse (found.superState != required.superState) (.validation ("state `" ++
            required.slug ++ "` must be " ++ required.superState.asStr ++
            ", but this project defines it as " ++ found.superState.asStr ++
            "; every project needs " ++ requiredStateList ++ " (SH-125)"))
          missingRequired states rest

def validateRequiredStates (states : List StateDef) : Except AppError Unit := do
  let missing ← missingRequired states requiredStates
  if missing.isEmpty then (normalizeCatalog states).map fun _ => ()
  else .error (.validation ("every project needs " ++ requiredStateList ++ "; " ++
    ", ".intercalate (missing.map fun slug => "`" ++ slug ++ "`") ++
    (if missing.length = 1 then " is" else " are") ++
    " missing. Run `story doctor --fix` to add " ++ (if missing.length = 1 then "it" else "them")))

theorem stateMap_some (states : List StateDef) (slug : String) (found : StateDef)
    (known : (stateMap states)[slug]? = some found) : found ∈ states ∧ found.slug = slug := by
  obtain ⟨state, listed, same⟩ := List.mem_map.mp (ofList_mem _ slug found known)
  cases same
  exact ⟨listed, rfl⟩

theorem stateMap_of_mem (states : List StateDef) (distinct : (states.map StateDef.slug).Nodup)
    (state : StateDef) (member : state ∈ states) : (stateMap states)[state.slug]? = some state := by
  apply ofList_of_mem
  · rwa [List.map_map]
  · exact List.mem_map.mpr ⟨state, member, rfl⟩

theorem stateMap_find (states : List StateDef) (distinct : (states.map StateDef.slug).Nodup)
    (slug : String) : (stateMap states)[slug]? = states.find? (·.slug == slug) := by
  cases located : states.find? (·.slug == slug) with
  | some found =>
      have named : found.slug = slug := by simpa using List.find?_some located
      rw [← named]
      exact stateMap_of_mem states distinct found (List.mem_of_find?_eq_some located)
  | none =>
      rw [Option.eq_none_iff_forall_ne_some]
      intro found known
      obtain ⟨member, named⟩ := stateMap_some states slug found known
      have other := List.find?_eq_none.mp located found member
      exact other (by simp [named])

theorem validateStateDefsFrom_distinct (seen : List String) (states : List StateDef)
    (valid : validateStateDefsFrom seen states = .ok ()) :
    (states.map StateDef.slug).Nodup ∧ ∀ state ∈ states, state.slug ∉ seen := by
  induction states generalizing seen with
  | nil => simp
  | cons state rest ih =>
      simp only [validateStateDefsFrom, bind_eq_ok, refuse_ok, List.contains_eq_mem] at valid
      obtain ⟨-, -, -, fresh, -, -, later⟩ := valid
      obtain ⟨distinct, unseen⟩ := ih (state.slug :: seen) later
      have apart : ∀ other ∈ rest, other.slug ≠ state.slug ∧ other.slug ∉ seen := by
        intro other member
        have outside := unseen other member
        rwa [List.mem_cons, not_or] at outside
      refine ⟨?_, ?_⟩
      · rw [List.map_cons, List.nodup_cons]
        refine ⟨?_, distinct⟩
        intro repeated
        obtain ⟨other, member, same⟩ := List.mem_map.mp repeated
        exact (apart other member).1 same
      · rw [List.forall_mem_cons]
        exact ⟨by simpa using fresh, fun other member => (apart other member).2⟩

theorem validateStateDefsForWrite_distinct (states : List StateDef)
    (valid : validateStateDefsForWrite states = .ok ()) : (states.map StateDef.slug).Nodup := by
  simp only [validateStateDefsForWrite, bind_eq_ok] at valid
  obtain ⟨_, -, _, distinct, -⟩ := valid
  exact (validateStateDefsFrom_distinct [] states distinct).1

end Storyhook.Domain
