import Mathlib.Data.List.Nodup
import Storyhook.Api.Tokens
import Storyhook.Library.Keyed

namespace Storyhook.Api

open Storyhook.Library
open JsonValue (Fields)

/-- Records with names and secrets of their own, as many as may exist, without retired settings. -/
structure Tidy (records : List TokenRecord) : Prop where
  names : (records.map (·.name)).Nodup
  hashes : (records.map (·.hash)).Nodup
  few : records.length ≤ maxTokens
  modern : ∀ record ∈ records, holdsAssignment record.preferences = false

def indexOf (records : List TokenRecord) : Std.TreeMap String Nat :=
  .ofList ((records.map (·.hash)).zipIdx)

theorem indexOf_iff (records : List TokenRecord) (distinct : (records.map (·.hash)).Nodup)
    (hash : String) (index : Nat) : (indexOf records)[hash]? = some index ↔
      ∃ record, records[index]? = some record ∧ record.hash = hash := by
  have entries : (hash, index) ∈ (records.map (·.hash)).zipIdx ↔
      ∃ record, records[index]? = some record ∧ record.hash = hash := by
    rw [List.mem_zipIdx_iff_getElem?, List.getElem?_map, Option.map_eq_some_iff]
  rw [← entries]
  constructor
  · exact ofList_mem _ hash index
  · refine ofList_of_mem _ ?_ hash index
    rwa [List.zipIdx_map_fst]

/-- What the registry holds in memory is what the document would give when it is loaded. -/
structure RegistryKept (daemon : Daemon) : Prop where
  persists : daemon.registry.persistEnv = true
  loaded : daemon.registry.inner = loadInner daemon.document
  tidy : Tidy daemon.registry.inner.persisted.records
  indexed : daemon.registry.inner.byHash = indexOf daemon.registry.inner.persisted.records

theorem retired_modern (record : TokenRecord) :
    holdsAssignment record.retired.preferences = false := by
  unfold TokenRecord.retired
  split
  · exact (effectivePreferences_modern record.preferences).holdsNone
  · next current => simpa using current

theorem retired_name (record : TokenRecord) : record.retired.name = record.name := by
  unfold TokenRecord.retired
  split <;> rfl

theorem retired_hash (record : TokenRecord) : record.retired.hash = record.hash := by
  unfold TokenRecord.retired
  split <;> rfl

theorem retired_same (record : TokenRecord) (modern : holdsAssignment record.preferences = false) :
    record.retired = record := by
  unfold TokenRecord.retired
  rw [modern]
  rfl

theorem loadInner_tidy (persisted : Persisted) (tidy : Tidy persisted.records) :
    loadInner (some persisted) = ⟨persisted, indexOf persisted.records⟩ := by
  have same : persisted.records.map (·.retired) = persisted.records := by
    conv_rhs => rw [← List.map_id persisted.records]
    exact List.map_congr_left fun record member => retired_same record (tidy.modern record member)
  simp only [loadInner, Option.getD_some, same, Inner.reindex, indexOf]

/-- A daemon after a write: its memory and its document are the same state. -/
def Daemon.write (daemon : Daemon) (next : Inner) : Daemon :=
  { registry := { daemon.registry with inner := next }, document := some next.persisted }

section Replace

variable (daemon : Daemon) (kept : RegistryKept daemon) (next : Inner) (disk : Except String Unit)

include kept

theorem replace_cases {ρ : Type} (reply : ρ) :
    (∃ failure, replace daemon next disk reply = (.error failure, daemon)) ∨
      replace daemon next disk reply = (.ok reply, daemon.write next) := by
  unfold replace persist
  rw [if_pos kept.persists]
  cases disk with
  | error detail => exact Or.inl ⟨_, rfl⟩
  | ok => exact Or.inr rfl

end Replace

theorem Tidy.sublist {records fewer : List TokenRecord} (tidy : Tidy records)
    (within : fewer.Sublist records) : Tidy fewer where
  names := tidy.names.sublist (within.map _)
  hashes := tidy.hashes.sublist (within.map _)
  few := Nat.le_trans within.length_le tidy.few
  modern := fun record member => tidy.modern record (within.subset member)

theorem Tidy.push {records : List TokenRecord} (tidy : Tidy records) (record : TokenRecord)
    (unnamed : record.name ∉ records.map (·.name)) (unhashed : record.hash ∉ records.map (·.hash))
    (room : records.length < maxTokens) (modern : holdsAssignment record.preferences = false) :
    Tidy (records ++ [record]) where
  names := by
    rw [List.map_append, List.map_singleton]
    exact List.Nodup.append tidy.names (List.nodup_singleton _)
      (List.disjoint_singleton.mpr unnamed)
  hashes := by
    rw [List.map_append, List.map_singleton]
    exact List.Nodup.append tidy.hashes (List.nodup_singleton _)
      (List.disjoint_singleton.mpr unhashed)
  few := by
    rw [List.length_append]
    exact room
  modern := fun other member => by
    rcases List.mem_append.mp member with old | new
    · exact tidy.modern other old
    · rw [List.mem_singleton.mp new]
      exact modern

theorem map_modify {φ : Type} (records : List TokenRecord) (index : Nat)
    (change : TokenRecord → TokenRecord) (field : TokenRecord → φ)
    (same : ∀ record, field (change record) = field record) :
    (records.modify index change).map field = records.map field := by
  apply List.ext_getElem?
  intro position
  rw [List.getElem?_map, List.getElem?_map, List.getElem?_modify]
  by_cases here : index = position
  · simp only [here, if_true]
    cases records[position]? with
    | none => rfl
    | some record => exact congrArg some (same record)
  · simp only [here, if_false, id_map']

theorem Tidy.modify {records : List TokenRecord} (tidy : Tidy records) (index : Nat)
    (change : TokenRecord → TokenRecord) (name : ∀ record, (change record).name = record.name)
    (hash : ∀ record, (change record).hash = record.hash)
    (modern : ∀ record ∈ records, holdsAssignment (change record).preferences = false) :
    Tidy (records.modify index change) where
  names := by rw [map_modify records index change _ name]; exact tidy.names
  hashes := by rw [map_modify records index change _ hash]; exact tidy.hashes
  few := by rw [List.length_modify]; exact tidy.few
  modern := fun record member => by
    obtain ⟨position, bound, rfl⟩ := List.mem_iff_getElem.mp member
    rw [List.getElem_modify]
    split
    · exact modern _ (List.getElem_mem _)
    · exact tidy.modern _ (List.getElem_mem _)

theorem indexOf_modify (records : List TokenRecord) (index : Nat)
    (change : TokenRecord → TokenRecord) (hash : ∀ record, (change record).hash = record.hash) :
    indexOf (records.modify index change) = indexOf records := by
  unfold indexOf
  rw [map_modify records index change _ hash]

def live (records : List TokenRecord) (now : Time) : List TokenRecord :=
  records.filter fun record => record.expiresAt > now

theorem pruneExpired_records (inner : Inner) (now : Time) :
    (pruneExpired inner now).persisted.records = live inner.persisted.records now := by
  simp only [pruneExpired]
  split
  · rfl
  · next same =>
      exact (List.filter_eq_self.mpr (List.length_filter_eq_length_iff.mp (not_not.mp same))).symm

def raised (highWater : Option Time) (now : Time) : Time :=
  match highWater with
  | some existing => max existing now
  | none => now

theorem pruneExpired_highWater (inner : Inner) (now : Time) :
    raised (pruneExpired inner now).persisted.highWater now =
      raised inner.persisted.highWater now := by
  simp only [pruneExpired]
  split
  · simp only [Inner.reindex, touchHighWater, raised]
    cases inner.persisted.highWater with
    | none => exact Int.max_self now
    | some existing => exact Int.max_eq_left (Int.le_max_right existing now)
  · rfl

/-- What a write that goes through makes of the records. -/
inductive Rewrite (platform : Platform) (records : List TokenRecord) (now wall : Time) :
    TokenCall → List TokenRecord → Prop where
  | mint (name secret : String) (ttl : Int) (record : TokenRecord)
      (unnamed : name ∉ (live records now).map (·.name))
      (room : (live records now).length < maxTokens)
      (named : record.name = name) (hashed : record.hash = platform.sha256Hex secret)
      (expires : record.expiresAt = wall + ttl) (plain : record.preferences = []) :
      Rewrite platform records now wall (.mint name secret ttl) (live records now ++ [record])
  | revoke (name : String) (position : Nat) (record : TokenRecord)
      (there : records[position]? = some record) (named : record.name = name) :
      Rewrite platform records now wall (.revoke name) (records.eraseIdx position)
  | amend (call : TokenCall) (offered : String) (position : Nat) (record : TokenRecord)
      (change : TokenRecord → TokenRecord)
      (there : records[position]? = some record) (hashed : record.hash = platform.sha256Hex offered)
      (live : now < record.expiresAt)
      (asked : (∃ project visible, call = .setProjectVisible offered project visible) ∨
        ∃ patch, call = .patchPreferences offered patch)
      (name : ∀ record, (change record).name = record.name)
      (hash : ∀ record, (change record).hash = record.hash)
      (expires : ∀ record, (change record).expiresAt = record.expiresAt)
      (modern : ∀ record, holdsAssignment record.preferences = false →
        holdsAssignment (change record).preferences = false) :
      Rewrite platform records now wall call (records.modify position change)

section Calls

variable (platform : Platform) (daemon : Daemon) (kept : RegistryKept daemon)

def timeOf (daemon : Daemon) (request : Request) : Time :=
  daemon.registry.effectiveNow daemon.registry.inner request.wall request.mono

/-- What a call can do: it leaves everything as it is, or one write goes through. -/
def Answered (platform : Platform) (daemon : Daemon) (request : Request)
    (outcome : Reply × Daemon) : Prop :=
  outcome.2 = daemon ∨ outcome.1.failed = false ∧
    ∃ next, outcome.2 = daemon.write next ∧
      Rewrite platform daemon.registry.inner.persisted.records (timeOf daemon request)
        request.wall request.call next.persisted.records ∧
      next.persisted.highWater =
        some (raised daemon.registry.inner.persisted.highWater (timeOf daemon request)) ∧
      next.byHash = indexOf next.persisted.records

include kept

theorem mint_answered (request : Request) (name secret : String) (ttl : Int)
    (asked : request.call = .mint name secret ttl) :
    Answered platform daemon request (answer platform daemon request) := by
  simp only [answer, asked, mint]
  split
  · exact Or.inl rfl
  · next unnamed =>
      split
      · exact Or.inl rfl
      · next room =>
          rcases replace_cases daemon kept _ request.disk _ with ⟨failure, same⟩ | written
          · rw [same]
            exact Or.inl rfl
          · rw [written]
            refine Or.inr ⟨rfl, _, rfl, ?_, ?_, rfl⟩
            · rw [pruneExpired_records] at unnamed room
              simp only [Inner.reindex, touchHighWater, pruneExpired_records, asked]
              refine .mint name secret ttl _ ?_ (Nat.not_le.mp room) rfl rfl rfl rfl
              intro member
              obtain ⟨record, held, same⟩ := List.mem_map.mp member
              exact unnamed (List.any_eq_true.mpr ⟨record, held, beq_iff_eq.mpr same⟩)
            · exact congrArg some (pruneExpired_highWater daemon.registry.inner _)

theorem revoke_answered (request : Request) (name : String)
    (asked : request.call = .revoke name) :
    Answered platform daemon request (answer platform daemon request) := by
  simp only [answer, asked, revoke]
  split
  · exact Or.inl rfl
  · next position found =>
      rcases replace_cases daemon kept _ request.disk () with ⟨failure, same⟩ | written
      · rw [same]
        exact Or.inl rfl
      · rw [written]
        refine Or.inr ⟨rfl, _, rfl, ?_, rfl, rfl⟩
        rw [asked]
        obtain ⟨bound, matching, earlier⟩ := List.findIdx?_eq_some_iff_getElem.mp found
        exact .revoke name position _ (List.getElem?_eq_getElem bound) (beq_iff_eq.mp matching)

theorem indexed_record (hash : String) (index : Nat) (record : TokenRecord)
    (found : daemon.registry.inner.byHash[hash]? = some index)
    (there : daemon.registry.inner.persisted.records[index]? = some record) :
    record.hash = hash := by
  rw [kept.indexed] at found
  obtain ⟨other, held, same⟩ := (indexOf_iff _ kept.tidy.hashes hash index).mp found
  obtain rfl := Option.some.inj (held.symm.trans there)
  exact same

theorem setProjectVisible_answered (request : Request) (offered project : String) (visible : Bool)
    (asked : request.call = .setProjectVisible offered project visible) :
    Answered platform daemon request (answer platform daemon request) := by
  simp only [answer, asked, setProjectVisible]
  split
  · exact Or.inl rfl
  · next index found =>
      split
      · exact Or.inl rfl
      · next record there =>
          split
          · exact Or.inl rfl
          · next unexpired =>
              split
              · exact Or.inl rfl
              · rcases replace_cases daemon kept _ request.disk () with ⟨failure, same⟩ | written
                · rw [same]
                  exact Or.inl rfl
                · rw [written]
                  refine Or.inr ⟨rfl, _, rfl, ?_, rfl, ?_⟩
                  · exact .amend request.call offered index record _ there
                      (indexed_record daemon kept _ index record found there)
                      (Int.not_le.mp unexpired) (Or.inl ⟨project, visible, asked⟩)
                      (fun _ => rfl) (fun _ => rfl) (fun _ => rfl) (fun _ same => same)
                  · refine kept.indexed.trans (Eq.symm ?_)
                    apply indexOf_modify
                    exact fun _ => rfl

theorem patchPreferences_answered (request : Request) (offered : String) (patch : Fields)
    (asked : request.call = .patchPreferences offered patch) :
    Answered platform daemon request (answer platform daemon request) := by
  simp only [answer, asked, patchPreferences]
  split
  · exact Or.inl rfl
  · split
    · exact Or.inl rfl
    · next index found =>
        split
        · exact Or.inl rfl
        · next record there =>
            split
            · exact Or.inl rfl
            · next unexpired =>
                rcases replace_cases daemon kept _ request.disk _ with ⟨failure, same⟩ | written
                · rw [same]
                  cases failure <;> exact Or.inl rfl
                · rw [written]
                  refine Or.inr ⟨rfl, _, rfl, ?_, rfl, ?_⟩
                  · exact .amend request.call offered index record _ there
                      (indexed_record daemon kept _ index record found there)
                      (Int.not_le.mp unexpired) (Or.inr ⟨patch, asked⟩)
                      (fun _ => rfl) (fun _ => rfl) (fun _ => rfl)
                      (fun _ _ => (effectivePreferences_modern _).holdsNone)
                  · refine kept.indexed.trans (Eq.symm ?_)
                    apply indexOf_modify
                    exact fun _ => rfl

theorem answer_answered (request : Request) :
    Answered platform daemon request (answer platform daemon request) := by
  cases asked : request.call with
  | mint name secret ttl => exact mint_answered platform daemon kept request name secret ttl asked
  | revoke name => exact revoke_answered platform daemon kept request name asked
  | validate offered =>
      refine Or.inl ?_
      simp only [answer, asked]
  | preferences offered =>
      refine Or.inl ?_
      simp only [answer, asked]
  | hiddenProjectUuids offered =>
      refine Or.inl ?_
      simp only [answer, asked]
  | setProjectVisible offered project visible =>
      exact setProjectVisible_answered platform daemon kept request offered project visible asked
  | patchPreferences offered patch =>
      exact patchPreferences_answered platform daemon kept request offered patch asked

end Calls

end Storyhook.Api
