import Storyhook.Api.TokenFile

namespace Storyhook.Api

open Storyhook.Library

def Daemon.records (daemon : Daemon) : List TokenRecord :=
  daemon.registry.inner.persisted.records

def Request.secrets (request : Request) : List String :=
  match request.call with
  | .mint _ secret _ => [secret]
  | _ => []

def Occurrence.secrets : Occurrence → List String
  | .request made => made.secrets
  | .restart _ _ _ => []

/-- The hashes already in use, and those of every secret still to be handed out. -/
def hashesAhead (platform : Platform) (daemon : Daemon) (occurrences : List Occurrence) :
    List String :=
  daemon.records.map (·.hash) ++ (occurrences.flatMap Occurrence.secrets).map platform.sha256Hex

/-- A document as it may be on disk: its records are apart and no more than may exist. -/
structure Sound (document : Option Persisted) : Prop where
  names : ((document.getD ⟨[], none⟩).records.map (·.name)).Nodup
  hashes : ((document.getD ⟨[], none⟩).records.map (·.hash)).Nodup
  few : (document.getD ⟨[], none⟩).records.length ≤ maxTokens

theorem sound_empty : Sound none :=
  ⟨List.nodup_nil, List.nodup_nil, Nat.zero_le _⟩

section Loading

variable (document : Option Persisted)

theorem loadInner_records :
    (loadInner document).persisted.records = (document.getD ⟨[], none⟩).records.map (·.retired) :=
  rfl

theorem loadInner_field {φ : Type} (field : TokenRecord → φ)
    (same : ∀ record, field record.retired = field record) :
    (loadInner document).persisted.records.map field =
      (document.getD ⟨[], none⟩).records.map field := by
  rw [loadInner_records, List.map_map]
  exact List.map_congr_left fun record _ => same record

theorem loadInner_tidied (sound : Sound document) :
    Tidy (loadInner document).persisted.records where
  names := by rw [loadInner_field document _ retired_name]; exact sound.names
  hashes := by rw [loadInner_field document _ retired_hash]; exact sound.hashes
  few := by rw [loadInner_records, List.length_map]; exact sound.few
  modern := fun record member => by
    obtain ⟨old, _, rfl⟩ := List.mem_map.mp member
    exact retired_modern old

theorem loadAnchored_kept (startWall : Time) (startInstant : Instant) (disk : Except String Unit)
    (sound : Sound document) :
    RegistryKept (loadAnchored document startWall startInstant disk) where
  persists := rfl
  loaded := by
    simp only [loadAnchored]
    split
    · rw [loadInner_tidy _ (loadInner_tidied document sound)]
      rfl
    · rfl
  tidy := loadInner_tidied document sound
  indexed := rfl

theorem sound_of_kept (daemon : Daemon) (kept : RegistryKept daemon) : Sound daemon.document := by
  have tidy := kept.tidy
  rw [kept.loaded] at tidy
  constructor
  · rw [← loadInner_field daemon.document _ retired_name]
    exact tidy.names
  · rw [← loadInner_field daemon.document _ retired_hash]
    exact tidy.hashes
  · have few := tidy.few
    rwa [loadInner_records, List.length_map] at few

end Loading

section Steps

variable (platform : Platform) (daemon : Daemon) (kept : RegistryKept daemon)

theorem Rewrite.hashes (request : Request) (now wall : Time) (records after : List TokenRecord)
    (rewrite : Rewrite platform records now wall request.call after) :
    (after.map (·.hash)).Sublist
      (records.map (·.hash) ++ request.secrets.map platform.sha256Hex) := by
  generalize asked : request.call = call at rewrite
  cases rewrite with
  | mint name secret ttl record unnamed room named hashed expires plain =>
      rw [List.map_append, List.map_singleton, hashed]
      simp only [Request.secrets, asked, List.map_singleton]
      exact (List.filter_sublist.map _).append (List.Sublist.refl _)
  | revoke name position record there named =>
      exact ((List.eraseIdx_sublist records position).map _).trans (List.sublist_append_left _ _)
  | amend call offered position record change there hashed live asked name hash expires modern =>
      rw [map_modify records position change _ hash]
      exact List.sublist_append_left _ _

theorem Rewrite.tidy (request : Request) (now wall : Time) (records after : List TokenRecord)
    (tidy : Tidy records)
    (fresh : (records.map (·.hash) ++ request.secrets.map platform.sha256Hex).Nodup)
    (rewrite : Rewrite platform records now wall request.call after) : Tidy after := by
  have apart := fresh.sublist (Rewrite.hashes platform request now wall records after rewrite)
  generalize asked : request.call = call at rewrite
  cases rewrite with
  | mint name secret ttl record unnamed room named hashed expires plain =>
      refine (tidy.sublist List.filter_sublist).push record ?_ ?_ room ?_
      · rwa [named]
      · rw [List.map_append] at apart
        exact List.disjoint_singleton.mp (List.nodup_append'.mp apart).2.2
      · rw [plain]
        rfl
  | revoke name position record there named =>
      exact tidy.sublist (List.eraseIdx_sublist records position)
  | amend call offered position record change there hashed live asked name hash expires modern =>
      exact tidy.modify position change name hash fun record member =>
        modern record (tidy.modern record member)

include kept

theorem write_kept (next : Inner) (tidy : Tidy next.persisted.records)
    (indexed : next.byHash = indexOf next.persisted.records) :
    RegistryKept (daemon.write next) where
  persists := kept.persists
  loaded := by
    rw [Daemon.write, loadInner_tidy next.persisted tidy, ← indexed]
  tidy := tidy
  indexed := indexed

theorem answer_kept (request : Request)
    (fresh : (daemon.records.map (·.hash) ++ request.secrets.map platform.sha256Hex).Nodup) :
    RegistryKept (answer platform daemon request).2 := by
  rcases answer_answered platform daemon kept request with same | ⟨_, next, written,
    rewrite, _, index⟩
  · rwa [same]
  · rw [written]
    exact write_kept daemon kept next
      (Rewrite.tidy platform request _ _ _ _ kept.tidy fresh rewrite) index

theorem answer_hashes (request : Request) :
    ((answer platform daemon request).2.records.map (·.hash)).Sublist
      (daemon.records.map (·.hash) ++ request.secrets.map platform.sha256Hex) := by
  rcases answer_answered platform daemon kept request with same | ⟨_, next, written, rewrite, _, _⟩
  · rw [same]
    exact List.sublist_append_left _ _
  · rw [written]
    exact Rewrite.hashes platform request _ _ _ _ rewrite

theorem restart_hashes (startWall : Time) (startInstant : Instant) (disk : Except String Unit) :
    (loadAnchored daemon.document startWall startInstant disk).records = daemon.records :=
  (congrArg (·.persisted.records) kept.loaded).symm

theorem perform_kept (occurrence : Occurrence)
    (fresh : (hashesAhead platform daemon [occurrence]).Nodup) :
    RegistryKept (occurrence.perform platform daemon) := by
  rw [hashesAhead, List.flatMap_singleton] at fresh
  cases occurrence with
  | request made => exact answer_kept platform daemon kept made fresh
  | restart startWall startInstant disk =>
      exact loadAnchored_kept _ startWall startInstant disk (sound_of_kept daemon kept)

theorem perform_ahead (occurrence : Occurrence) (rest : List Occurrence) :
    (hashesAhead platform (occurrence.perform platform daemon) rest).Sublist
      (hashesAhead platform daemon (occurrence :: rest)) := by
  unfold hashesAhead
  rw [List.flatMap_cons, List.map_append, ← List.append_assoc]
  apply List.Sublist.append _ (List.Sublist.refl _)
  cases occurrence with
  | request made => exact answer_hashes platform daemon kept made
  | restart startWall startInstant disk =>
      rw [Occurrence.perform, restart_hashes daemon kept]
      exact List.sublist_append_left _ _

end Steps

theorem runDaemon_kept (platform : Platform) (daemon : Daemon) (occurrences : List Occurrence)
    (kept : RegistryKept daemon) (fresh : (hashesAhead platform daemon occurrences).Nodup) :
    RegistryKept (runDaemon platform daemon occurrences) := by
  induction occurrences generalizing daemon with
  | nil => exact kept
  | cons occurrence rest further =>
      apply further
      · refine perform_kept platform daemon kept occurrence (fresh.sublist ?_)
        unfold hashesAhead
        rw [List.flatMap_singleton, List.flatMap_cons, List.map_append, ← List.append_assoc]
        exact List.sublist_append_left _ _
      · exact fresh.sublist (perform_ahead platform daemon kept occurrence rest)

/-- The secret whose record a request would change the settings of. -/
def Request.changes (request : Request) : Option String :=
  match request.call with
  | .setProjectVisible offered _ _ | .patchPreferences offered _ => some offered
  | _ => none

/-- A registry and its file agree, and no call reaches past its own record. -/
structure Consistent (platform : Platform) (daemon : Daemon) : Prop where
  loaded : daemon.registry.inner = loadInner daemon.document
  names : (daemon.records.map (·.name)).Nodup
  few : daemon.records.length ≤ maxTokens
  indexed : ∀ (hash : String) (index : Nat), daemon.registry.inner.byHash[hash]? = some index ↔
    ∃ record, daemon.records[index]? = some record ∧ record.hash = hash
  failures : ∀ request, (answer platform daemon request).1.failed = true →
    (answer platform daemon request).2 = daemon
  others : ∀ request offered, request.changes = some offered →
    (answer platform daemon request).2.records.length = daemon.records.length ∧
    ∀ (position : Nat) (record : TokenRecord), daemon.records[position]? = some record →
      record.hash ≠ platform.sha256Hex offered →
      (answer platform daemon request).2.records[position]? = some record

section Consistency

variable (platform : Platform) (daemon : Daemon) (kept : RegistryKept daemon)

include kept

theorem answer_failed (request : Request)
    (failed : (answer platform daemon request).1.failed = true) :
    (answer platform daemon request).2 = daemon := by
  rcases answer_answered platform daemon kept request with same | ⟨succeeded, _⟩
  · exact same
  · rw [succeeded] at failed
    cases failed

theorem answer_others (request : Request) (offered : String)
    (changes : request.changes = some offered) :
    (answer platform daemon request).2.records.length = daemon.records.length ∧
    ∀ (position : Nat) (record : TokenRecord), daemon.records[position]? = some record →
      record.hash ≠ platform.sha256Hex offered →
      (answer platform daemon request).2.records[position]? = some record := by
  rcases answer_answered platform daemon kept request with same | ⟨_, next, written, rewrite, _⟩
  · rw [same]
    exact ⟨rfl, fun position record there _ => there⟩
  · rw [written]
    show next.persisted.records.length = _ ∧ ∀ position record, _ → _ →
      next.persisted.records[position]? = some record
    generalize next.persisted.records = after at rewrite
    generalize asked : request.call = call at rewrite
    simp only [Request.changes, asked] at changes
    cases rewrite with
    | mint name secret ttl record => cases changes
    | revoke name position record => cases changes
    | amend call named position record change there hashed live of name hash =>
        have same : named = offered := by
          rcases of with ⟨project, visible, rfl⟩ | ⟨patch, rfl⟩ <;> exact Option.some.inj changes
        refine ⟨List.length_modify _ _ _, fun other neighbour held apart => ?_⟩
        rw [List.getElem?_modify]
        by_cases here : position = other
        · rw [← here] at held
          obtain rfl := Option.some.inj (held.symm.trans there)
          exact absurd (hashed.trans (congrArg platform.sha256Hex same)) apart
        · simp only [here, if_false, id_map']
          exact held

theorem RegistryKept.consistent : Consistent platform daemon where
  loaded := kept.loaded
  names := kept.tidy.names
  few := kept.tidy.few
  indexed := fun hash index => by
    rw [kept.indexed]
    exact indexOf_iff _ kept.tidy.hashes hash index
  failures := answer_failed platform daemon kept
  others := answer_others platform daemon kept

end Consistency

/-- A registry and its file agree after any calls and restarts, whatever writes fail. -/
theorem registry_consistent (platform : Platform) (document : Option Persisted) (startWall : Time)
    (startInstant : Instant) (disk : Except String Unit) (occurrences : List Occurrence)
    (sound : Sound document)
    (fresh : (hashesAhead platform (loadAnchored document startWall startInstant disk)
      occurrences).Nodup) :
    Consistent platform
      (runDaemon platform (loadAnchored document startWall startInstant disk) occurrences) :=
  (runDaemon_kept platform _ occurrences
    (loadAnchored_kept document startWall startInstant disk sound) fresh).consistent platform _

def refusals (platform : Platform) : Daemon → List Occurrence → List Bool
  | _, [] => []
  | daemon, .request made :: rest =>
      (answer platform daemon made).1.failed :: refusals platform
        (answer platform daemon made).2 rest
  | daemon, occurrence :: rest => refusals platform (occurrence.perform platform daemon) rest

def twoSecrets : Platform where
  sha256Hex secret :=
    if secret = "6060606060606060606060606060606060606060606060606060606060606060" then
      "b394d570aea2846193ee40a6233136b9a777a725dfaddfea600721777645e0ce"
    else "ce63c4ebf143f2aade4d14b4e5d941832c7af9ef9a000df459c9b6a07f155486"
  jsonBytes _ := some 16

/-- Two tokens are minted and one is changed, a change of the other is lost on the disk, and the
next daemon changes the first again and revokes the second. -/
def twoTokens : List Occurrence :=
  let laptop := "5f5f5f5f5f5f5f5f5f5f5f5f5f5f5f5f5f5f5f5f5f5f5f5f5f5f5f5f5f5f5f5f"
  let phone := "6060606060606060606060606060606060606060606060606060606060606060"
  [.request ⟨.mint "laptop" laptop 100, 0, 0, .ok ()⟩,
    .request ⟨.mint "phone" phone 100, 1, 1, .ok ()⟩,
    .request ⟨.patchPreferences laptop [("view", .str "board")], 2, 2, .ok ()⟩,
    .request ⟨.patchPreferences phone [("view", .str "board")], 3, 3, .error "disk full"⟩,
    .restart 4 4 (.ok ()),
    .request ⟨.setProjectVisible laptop "p-1" false, 5, 5, .ok ()⟩,
    .request ⟨.revoke "phone", 6, 6, .ok ()⟩,
    .request ⟨.validate phone, 7, 7, .ok ()⟩]

theorem registry_consistent_two :
    Consistent twoSecrets (runDaemon twoSecrets (loadAnchored none 0 0 (.ok ())) twoTokens) ∧
      refusals twoSecrets (loadAnchored none 0 0 (.ok ())) twoTokens =
        [false, false, false, true, false, false, true] ∧
      (runDaemon twoSecrets (loadAnchored none 0 0 (.ok ())) twoTokens).records.map
        (fun record => (record.name, record.hiddenProjectUuids)) = [("laptop", ["p-1"])] := by
  refine ⟨?_, by decide +kernel, by decide +kernel⟩
  exact registry_consistent twoSecrets none 0 0 (.ok ()) twoTokens sound_empty (by decide)

end Storyhook.Api
