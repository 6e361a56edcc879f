import Mathlib.Algebra.Group.Nat.Defs
import Storyhook.Api.Preferences

namespace Storyhook.Api

open Storyhook.Library
open JsonValue (Fields)

/-- Nanoseconds of wall time. -/
abbrev Time := Int

/-- Nanoseconds of monotonic time. -/
abbrev Instant := Nat

/-- What the registry has from the libraries it is built on. -/
structure Platform where
  sha256Hex : String → String
  jsonBytes : Fields → Option Nat

structure TokenRecord where
  name : String
  hash : String
  secretPrefix : String
  createdAt : Time
  expiresAt : Time
  preferences : Fields
  hiddenProjectUuids : List String

/-- The document of `tokens.json`. -/
structure Persisted where
  records : List TokenRecord
  highWater : Option Time

structure Inner where
  persisted : Persisted
  byHash : Std.TreeMap String Nat

def Inner.reindex (inner : Inner) : Inner :=
  { inner with byHash := .ofList ((inner.persisted.records.map (·.hash)).zipIdx) }

structure TokenRegistry where
  inner : Inner
  persistEnv : Bool
  startWall : Time
  startInstant : Instant

/-- A registry beside the document last written, where there is one that can be read. -/
structure Daemon where
  registry : TokenRegistry
  document : Option Persisted

inductive TokenError where
  | atCapacity | nameTaken | notFound | invalid
  | persistence (detail : String)
  deriving DecidableEq, Repr

structure TokenSummary where
  name : String
  secretPrefix : String
  createdAt : Time
  expiresAt : Time
  deriving DecidableEq, Repr

structure MintedToken where
  secret : String
  summary : TokenSummary
  deriving DecidableEq, Repr

structure ValidatedToken where
  name : String
  expiresAt : Time
  deriving DecidableEq, Repr

def maxTokens : Nat := 64

def maxDuration : Nat := (2 ^ 63 - 1) * 1000000

/-- A record as it is kept once its retired settings are gone. -/
def TokenRecord.retired (record : TokenRecord) : TokenRecord :=
  if holdsAssignment record.preferences then
    { record with preferences := effectivePreferences record.preferences }
  else record

/-- What a registry holds after a document has been read; nothing where none can be. -/
def loadInner (document : Option Persisted) : Inner :=
  let persisted := document.getD ⟨[], none⟩
  Inner.reindex ⟨{ persisted with records := persisted.records.map (·.retired) }, ∅⟩

/-- A document with retired settings is written back without them, where it can be. -/
def loadAnchored (document : Option Persisted) (startWall : Time) (startInstant : Instant)
    (disk : Except String Unit) : Daemon :=
  let inner := loadInner document
  let changed := (document.getD ⟨[], none⟩).records.any fun record =>
    holdsAssignment record.preferences
  { registry := ⟨inner, true, startWall, startInstant⟩
    document := match changed, disk with
      | true, .ok () => some inner.persisted
      | _, _ => document }

namespace TokenRegistry

def monotonicFloor (registry : TokenRegistry) (monoNow : Instant) : Time :=
  let elapsed := monoNow - registry.startInstant
  registry.startWall + if elapsed ≤ maxDuration then elapsed else 0

def effectiveNow (registry : TokenRegistry) (inner : Inner) (wallNow : Time)
    (monoNow : Instant) : Time :=
  let effective := max wallNow (registry.monotonicFloor monoNow)
  match inner.persisted.highWater with
  | some highWater => max effective highWater
  | none => effective

end TokenRegistry

def touchHighWater (inner : Inner) (now : Time) : Inner :=
  { inner with persisted := { inner.persisted with
      highWater := some (match inner.persisted.highWater with
        | some existing => max existing now
        | none => now) } }

def pruneExpired (inner : Inner) (now : Time) : Inner :=
  let live := inner.persisted.records.filter fun record => record.expiresAt > now
  if live.length ≠ inner.persisted.records.length then
    (touchHighWater { inner with persisted := { inner.persisted with records :=
      live } } now).reindex
  else inner

def persist (daemon : Daemon) (persisted : Persisted) (disk : Except String Unit) :
    Except TokenError (Option Persisted) :=
  if daemon.registry.persistEnv then
    match disk with
    | .ok () => .ok (some persisted)
    | .error detail => .error (.persistence ("cannot save tokens.json: " ++ detail))
  else .ok daemon.document

/-- The next state in memory once it is on disk, or the one before. -/
def replace {ρ : Type} (daemon : Daemon) (next : Inner) (disk : Except String Unit) (reply : ρ) :
    Except TokenError ρ × Daemon :=
  match persist daemon next.persisted disk with
  | .error failure => (.error failure, daemon)
  | .ok document => (.ok reply,
      { registry := { daemon.registry with inner := next }, document := document })

section Calls

variable (platform : Platform) (daemon : Daemon)

def mint (name secret : String) (wallNow : Time) (monoNow : Instant) (ttl : Int)
    (disk : Except String Unit) : Except TokenError MintedToken × Daemon :=
  let now := daemon.registry.effectiveNow daemon.registry.inner wallNow monoNow
  let next := pruneExpired daemon.registry.inner now
  if next.persisted.records.any (·.name == name) then (.error .nameTaken, daemon)
  else if next.persisted.records.length ≥ maxTokens then (.error .atCapacity, daemon)
  else
    let record : TokenRecord := {
      name := name
      hash := platform.sha256Hex secret
      secretPrefix := (secret.take 8).toString
      createdAt := wallNow
      expiresAt := wallNow + ttl
      preferences := []
      hiddenProjectUuids := [] }
    let pushed := { next with persisted := { next.persisted with
      records := next.persisted.records ++ [record] } }
    replace daemon (touchHighWater pushed now).reindex disk
      ⟨secret, ⟨name, record.secretPrefix, wallNow, record.expiresAt⟩⟩

def revoke (name : String) (wallNow : Time) (monoNow : Instant) (disk : Except String Unit) :
    Except TokenError Unit × Daemon :=
  let inner := daemon.registry.inner
  match inner.persisted.records.findIdx? (·.name == name) with
  | none => (.error .notFound, daemon)
  | some position =>
      let next := { inner with persisted := { inner.persisted with
        records := inner.persisted.records.eraseIdx position } }
      let now := daemon.registry.effectiveNow next wallNow monoNow
      replace daemon (touchHighWater next now).reindex disk ()

def liveRecord (offered : String) (wallNow : Time) (monoNow : Instant) : Option TokenRecord := do
  let inner := daemon.registry.inner
  let index ← inner.byHash[platform.sha256Hex offered]?
  let record ← inner.persisted.records[index]?
  if record.expiresAt > daemon.registry.effectiveNow inner wallNow monoNow then some record
  else none

def validate (offered : String) (wallNow : Time) (monoNow : Instant) : Option ValidatedToken :=
  (liveRecord platform daemon offered wallNow monoNow).map fun record =>
    ⟨record.name, record.expiresAt⟩

def preferences (offered : String) (wallNow : Time) (monoNow : Instant) : Option Fields :=
  (liveRecord platform daemon offered wallNow monoNow).map fun record =>
    effectivePreferences record.preferences

def hiddenProjectUuids (offered : String) (wallNow : Time) (monoNow : Instant) :
    Option (List String) :=
  (liveRecord platform daemon offered wallNow monoNow).map (·.hiddenProjectUuids)

def amend (inner : Inner) (index : Nat) (change : TokenRecord → TokenRecord) : Inner :=
  { inner with persisted := { inner.persisted with
      records := inner.persisted.records.modify index change } }

def setProjectVisible (offered projectUuid : String) (visible : Bool) (wallNow : Time)
    (monoNow : Instant) (disk : Except String Unit) : Except TokenError Unit × Daemon :=
  let inner := daemon.registry.inner
  let now := daemon.registry.effectiveNow inner wallNow monoNow
  match inner.byHash[platform.sha256Hex offered]? with
  | none => (.error .invalid, daemon)
  | some index =>
      match inner.persisted.records[index]? with
      | none => (.error .invalid, daemon)
      | some record =>
          if record.expiresAt ≤ now then (.error .invalid, daemon)
          else if visible != record.hiddenProjectUuids.contains projectUuid then (.ok (), daemon)
          else
            let hidden := if visible then record.hiddenProjectUuids.erase projectUuid
              else record.hiddenProjectUuids ++ [projectUuid]
            let next := amend inner index fun record => { record with hiddenProjectUuids := hidden }
            replace daemon (touchHighWater next now) disk ()

def patchPreferences (offered : String) (patch : Fields) (wallNow : Time) (monoNow : Instant)
    (disk : Except String Unit) : Except PreferenceError Fields × Daemon :=
  match validatePreferencePatch platform.jsonBytes patch with
  | .error refused => (.error refused, daemon)
  | .ok () =>
      let inner := daemon.registry.inner
      let now := daemon.registry.effectiveNow inner wallNow monoNow
      match inner.byHash[platform.sha256Hex offered]? with
      | none => (.error .unauthorized, daemon)
      | some index =>
          match inner.persisted.records[index]? with
          -- A position without a record panics here, before anything has changed.
          | none => (.error .unauthorized, daemon)
          | some record =>
              if record.expiresAt ≤ now then (.error .unauthorized, daemon)
              else
                let patched := effectivePreferences (patch.foldl (fun fields field =>
                  fields.set field.1 field.2) record.preferences)
                let next := touchHighWater (amend inner index fun record =>
                  { record with preferences := patched }) now
                match replace daemon next disk (effectivePreferences patched) with
                | (.ok result, after) => (.ok result, after)
                | (.error (.persistence detail), after) => (.error (.storage detail), after)
                -- Nothing else fails a write.
                | (.error _, after) => (.error .unauthorized, after)

end Calls

inductive TokenCall where
  | mint (name secret : String) (ttl : Int)
  | revoke (name : String)
  | validate (offered : String)
  | preferences (offered : String)
  | hiddenProjectUuids (offered : String)
  | setProjectVisible (offered projectUuid : String) (visible : Bool)
  | patchPreferences (offered : String) (patch : Fields)

/-- A call with the clocks it reads and what the disk makes of a write. -/
structure Request where
  call : TokenCall
  wall : Time
  mono : Instant
  disk : Except String Unit

inductive Reply where
  | minted (result : Except TokenError MintedToken)
  | changed (result : Except TokenError Unit)
  | validated (result : Option ValidatedToken)
  | preferences (result : Option Fields)
  | hidden (result : Option (List String))
  | patched (result : Except PreferenceError Fields)

def answer (platform : Platform) (daemon : Daemon) (request : Request) : Reply × Daemon :=
  match request.call with
  | .mint name secret ttl =>
      let (result, after) :=
        mint platform daemon name secret request.wall request.mono ttl request.disk
      (.minted result, after)
  | .revoke name =>
      let (result, after) := revoke daemon name request.wall request.mono request.disk
      (.changed result, after)
  | .validate offered =>
      (.validated (validate platform daemon offered request.wall request.mono), daemon)
  | .preferences offered =>
      (.preferences (preferences platform daemon offered request.wall request.mono), daemon)
  | .hiddenProjectUuids offered =>
      (.hidden (hiddenProjectUuids platform daemon offered request.wall request.mono), daemon)
  | .setProjectVisible offered projectUuid visible =>
      let (result, after) := setProjectVisible platform daemon offered projectUuid visible
        request.wall request.mono request.disk
      (.changed result, after)
  | .patchPreferences offered patch =>
      let (result, after) := patchPreferences platform daemon offered patch request.wall request.mono
        request.disk
      (.patched result, after)

def Reply.failed : Reply → Bool
  | .minted (.error _) | .changed (.error _) | .patched (.error _) => true
  | .validated none | .preferences none | .hidden none => true
  | _ => false

/-- A request, or a new daemon on the document of the last one. -/
inductive Occurrence where
  | request (request : Request)
  | restart (startWall : Time) (startInstant : Instant) (disk : Except String Unit)

def Occurrence.perform (platform : Platform) (daemon : Daemon) : Occurrence → Daemon
  | .request made => (answer platform daemon made).2
  | .restart startWall startInstant disk =>
      loadAnchored daemon.document startWall startInstant disk

def runDaemon (platform : Platform) (daemon : Daemon) (occurrences : List Occurrence) : Daemon :=
  occurrences.foldl (Occurrence.perform platform) daemon

end Storyhook.Api
