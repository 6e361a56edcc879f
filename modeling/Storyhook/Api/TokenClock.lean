import Storyhook.Api.TokenRuns

namespace Storyhook.Api

open Storyhook.Library
open JsonValue (Fields)

def Request.offers (request : Request) : Option String :=
  match request.call with
  | .validate offered | .preferences offered | .hiddenProjectUuids offered
  | .setProjectVisible offered _ _ | .patchPreferences offered _ => some offered
  | .mint _ _ _ | .revoke _ => none

section Calls

variable (platform : Platform) (daemon : Daemon) (request : Request)

/-- A request is let in with a secret of this hash. -/
def Accepts (hash : String) : Prop :=
  request.offers.map platform.sha256Hex = some hash ∧
    (answer platform daemon request).1.failed = false

/-- A request refuses a token because it has expired, or passes over it to mint another. -/
def JudgesExpired (hash : String) : Prop :=
  ∃ record ∈ daemon.records, record.hash = hash ∧ record.expiresAt ≤ timeOf daemon request ∧
    (request.offers.map platform.sha256Hex = some hash ∨
      ∃ name secret ttl, request.call = .mint name secret ttl)

/-- A wall time already shown is not ahead of every clock a request is judged by. -/
def Reaches (wall : Time) : Prop :=
  wall ≤ request.wall ∨
    wall ≤ daemon.registry.startWall + (request.mono - daemon.registry.startInstant : Nat) ∨
    ∃ mark, daemon.registry.inner.persisted.highWater = some mark ∧ wall ≤ mark

end Calls

section Runs

variable (platform : Platform) (start : Daemon) (occurrences : List Occurrence)

/-- Two requests to the same daemon, and what happens up to the first and between them. -/
def SameRun (before : List Occurrence) (first : Request) (middle : List Request)
    (second : Request) : Prop :=
  ∃ rest, occurrences =
    before ++ .request first :: (middle.map .request ++ .request second :: rest)

def InOrder (before : List Occurrence) (first : Request) (middle : List Occurrence)
    (second : Request) : Prop :=
  ∃ rest, occurrences = before ++ .request first :: (middle ++ .request second :: rest)

def Paced : Prop :=
  ∀ before first middle second, SameRun occurrences before first middle second →
    first.mono ≤ second.mono

/-- A token that was shown past its expiry by the wall clock is past it by some clock whenever it
is offered again in the same run. -/
def Steady : Prop :=
  ∀ before first middle second, SameRun occurrences before first middle second →
    let daemon := runDaemon platform start (before ++ .request first :: middle.map .request)
    (∀ record ∈ daemon.records, second.offers.map platform.sha256Hex = some record.hash →
      record.expiresAt ≤ first.wall → Reaches daemon second record.expiresAt) ∧
      second.mono - daemon.registry.startInstant ≤ maxDuration

/-- No clock brings a token back. -/
structure Unrevived : Prop where
  expired : ∀ before first middle second hash, SameRun occurrences before first middle second →
    JudgesExpired platform (runDaemon platform start before) first hash →
    ¬ Accepts platform (runDaemon platform start
      (before ++ .request first :: middle.map .request)) second hash
  outlives : ∀ before first middle second hash, SameRun occurrences before first middle second →
    Accepts platform (runDaemon platform start
      (before ++ .request first :: middle.map .request)) second hash →
    ∃ record ∈ (runDaemon platform start
        (before ++ .request first :: middle.map .request)).records,
      record.hash = hash ∧ timeOf (runDaemon platform start before) first < record.expiresAt
  revoked : ∀ before first middle second name record,
    InOrder occurrences before first middle second →
    first.call = .revoke name →
    (answer platform (runDaemon platform start before) first).1.failed = false →
    record ∈ (runDaemon platform start before).records → record.name = name →
    ¬ Accepts platform (runDaemon platform start (before ++ .request first :: middle)) second
      record.hash
  minted : ∀ before second rest hash, occurrences = before ++ .request second :: rest →
    Accepts platform (runDaemon platform start before) second hash →
    (∃ record ∈ start.records, record.hash = hash) ∨
    ∃ earlier made later name secret ttl, before = earlier ++ .request made :: later ∧
      made.call = .mint name secret ttl ∧ platform.sha256Hex secret = hash ∧
      (answer platform (runDaemon platform start earlier) made).1.failed = false
  stored : ∀ before first middle second hash, InOrder occurrences before first middle second →
    ((∃ name secret ttl, first.call = .mint name secret ttl) ∨ ∃ name, first.call = .revoke name) →
    (answer platform (runDaemon platform start before) first).1.failed = false →
    Accepts platform (runDaemon platform start (before ++ .request first :: middle)) second hash →
    ∃ record ∈ (runDaemon platform start (before ++ .request first :: middle)).records,
      record.hash = hash ∧ timeOf (runDaemon platform start before) first < record.expiresAt

end Runs

theorem runDaemon_append (platform : Platform) (start : Daemon) (before after : List Occurrence) :
    runDaemon platform start (before ++ after) =
      runDaemon platform (runDaemon platform start before) after :=
  List.foldl_append

theorem runDaemon_ahead (platform : Platform) (start : Daemon) (before after : List Occurrence)
    (kept : RegistryKept start) (fresh : (hashesAhead platform start (before ++ after)).Nodup) :
    (hashesAhead platform (runDaemon platform start before) after).Nodup := by
  induction before generalizing start with
  | nil => exact fresh
  | cons occurrence rest further =>
      refine further _ ?_ (fresh.sublist (perform_ahead platform start kept occurrence _))
      refine perform_kept platform start kept occurrence (fresh.sublist ?_)
      rw [hashesAhead, hashesAhead, List.flatMap_singleton, List.cons_append, List.flatMap_cons,
        List.map_append, ← List.append_assoc]
      exact List.sublist_append_left _ _

theorem runDaemon_kept_before (platform : Platform) (start : Daemon)
    (before after : List Occurrence) (kept : RegistryKept start)
    (fresh : (hashesAhead platform start (before ++ after)).Nodup) :
    RegistryKept (runDaemon platform start before) := by
  apply runDaemon_kept platform start before kept
  refine fresh.sublist ?_
  rw [hashesAhead, hashesAhead, List.flatMap_append, List.map_append, ← List.append_assoc]
  exact List.sublist_append_left _ _

theorem position_unique {φ : Type} (records : List TokenRecord) (field : TokenRecord → φ)
    (apart : (records.map field).Nodup) (left right : Nat) (here there : TokenRecord)
    (atLeft : records[left]? = some here) (atRight : records[right]? = some there)
    (same : field here = field there) : left = right := by
  obtain ⟨bound, _⟩ := List.getElem?_eq_some_iff.mp atLeft
  apply (List.getElem?_inj (by rwa [List.length_map]) apart).mp
  rw [List.getElem?_map, List.getElem?_map, atLeft, atRight]
  exact congrArg some same

theorem failed_validated (result : Option ValidatedToken) :
    (Reply.validated result).failed = false ↔ result.isSome := by
  cases result <;> simp [Reply.failed]

theorem failed_preferences (result : Option Fields) :
    (Reply.preferences result).failed = false ↔ result.isSome := by
  cases result <;> simp [Reply.failed]

theorem failed_hidden (result : Option (List String)) :
    (Reply.hidden result).failed = false ↔ result.isSome := by
  cases result <;> simp [Reply.failed]

theorem failed_changed (result : Except TokenError Unit) :
    (Reply.changed result).failed = false ↔ result = .ok () := by
  cases result <;> simp [Reply.failed]

theorem failed_patched (result : Except PreferenceError Fields) :
    (Reply.patched result).failed = false ↔ ∃ patched, result = .ok patched := by
  cases result <;> simp [Reply.failed]

section Step

variable (platform : Platform) (daemon : Daemon) (kept : RegistryKept daemon)

theorem Rewrite.origin (request : Request) (now wall : Time) (records after : List TokenRecord)
    (rewrite : Rewrite platform records now wall request.call after) (record : TokenRecord)
    (member : record ∈ after) :
    (∃ old ∈ records, old.hash = record.hash ∧ old.expiresAt = record.expiresAt) ∨
      ∃ name secret ttl, request.call = .mint name secret ttl ∧
        platform.sha256Hex secret = record.hash := by
  generalize request.call = call at rewrite ⊢
  cases rewrite with
  | mint name secret ttl made unnamed room named hashed expires plain =>
      rcases List.mem_append.mp member with old | new
      · exact Or.inl ⟨record, List.mem_of_mem_filter old, rfl, rfl⟩
      · rw [List.mem_singleton.mp new]
        exact Or.inr ⟨name, secret, ttl, rfl, hashed.symm⟩
  | revoke name position made there named =>
      exact Or.inl ⟨record, List.mem_of_mem_eraseIdx member, rfl, rfl⟩
  | amend call offered position made change there hashed live asked name hash expires modern =>
      obtain ⟨index, bound, rfl⟩ := List.mem_iff_getElem.mp member
      rw [List.length_modify] at bound
      refine Or.inl ⟨records[index], List.getElem_mem bound, ?_⟩
      rw [List.getElem_modify]
      split
      · exact ⟨(hash _).symm, (expires _).symm⟩
      · exact ⟨rfl, rfl⟩

theorem raised_le (highWater : Option Time) (now : Time) : now ≤ raised highWater now := by
  cases highWater with
  | none => exact Int.le_refl now
  | some existing => exact Int.le_max_right existing now

theorem raised_mark (mark now : Time) : mark ≤ raised (some mark) now :=
  Int.le_max_left mark now

theorem timeOf_mark (request : Request) (mark : Time)
    (stored : daemon.registry.inner.persisted.highWater = some mark) :
    mark ≤ timeOf daemon request := by
  simp only [timeOf, TokenRegistry.effectiveNow, stored]
  exact Int.le_max_right _ mark

include kept

theorem answer_origin (request : Request) (record : TokenRecord)
    (member : record ∈ (answer platform daemon request).2.records) :
    (∃ old ∈ daemon.records, old.hash = record.hash ∧ old.expiresAt = record.expiresAt) ∨
      ∃ name secret ttl, request.call = .mint name secret ttl ∧
        platform.sha256Hex secret = record.hash ∧
        (answer platform daemon request).1.failed = false := by
  rcases answer_answered platform daemon kept request with
    same | ⟨succeeded, next, written, rewrite, _⟩
  · rw [same] at member
    exact Or.inl ⟨record, member, rfl, rfl⟩
  · rw [written] at member
    rcases Rewrite.origin platform request _ _ _ _ rewrite record member with
      old | ⟨name, secret, ttl, asked, hashed⟩
    · exact Or.inl old
    · exact Or.inr ⟨name, secret, ttl, asked, hashed, succeeded⟩

theorem perform_mark (occurrence : Occurrence) (mark : Time)
    (stored : daemon.registry.inner.persisted.highWater = some mark) :
    ∃ later, (occurrence.perform platform daemon).registry.inner.persisted.highWater = some later ∧
      mark ≤ later := by
  cases occurrence with
  | request made =>
      rcases answer_answered platform daemon kept made with same | ⟨_, next, written, _, raise, _⟩
      · rw [Occurrence.perform, same]
        exact ⟨mark, stored, Int.le_refl mark⟩
      · rw [Occurrence.perform, written]
        refine ⟨_, raise, ?_⟩
        rw [stored]
        exact raised_mark mark _
  | restart startWall startInstant disk =>
      rw [kept.loaded] at stored
      exact ⟨mark, stored, Int.le_refl mark⟩

theorem answer_anchor (request : Request) :
    (answer platform daemon request).2.registry.startWall = daemon.registry.startWall ∧
      (answer platform daemon request).2.registry.startInstant = daemon.registry.startInstant := by
  rcases answer_answered platform daemon kept request with same | ⟨_, next, written, _⟩
  · rw [same]
    exact ⟨rfl, rfl⟩
  · rw [written]
    exact ⟨rfl, rfl⟩

theorem liveRecord_live (offered : String) (request : Request) (record : TokenRecord)
    (found : liveRecord platform daemon offered request.wall request.mono = some record) :
    record ∈ daemon.records ∧ record.hash = platform.sha256Hex offered ∧
      timeOf daemon request < record.expiresAt := by
  simp only [liveRecord, Option.bind_eq_bind, Option.bind_eq_some_iff] at found
  obtain ⟨index, indexed, held, there, unexpired⟩ := found
  split at unexpired
  · next later =>
      obtain rfl := Option.some.inj unexpired
      exact ⟨List.mem_of_getElem? there, indexed_record daemon kept _ index held indexed there,
        later⟩
  · cases unexpired

theorem setProjectVisible_live (offered project : String) (visible : Bool) (request : Request)
    (succeeded : (setProjectVisible platform daemon offered project visible request.wall
      request.mono request.disk).1 = .ok ()) :
    ∃ record ∈ daemon.records, record.hash = platform.sha256Hex offered ∧
      timeOf daemon request < record.expiresAt := by
  cases found : daemon.registry.inner.byHash[platform.sha256Hex offered]? with
  | none => simp only [setProjectVisible, found, reduceCtorEq] at succeeded
  | some index =>
      cases there : daemon.registry.inner.persisted.records[index]? with
      | none => simp only [setProjectVisible, found, there, reduceCtorEq] at succeeded
      | some record =>
          by_cases gone : record.expiresAt ≤ timeOf daemon request
          · rw [timeOf] at gone
            simp only [setProjectVisible, found, there, if_pos gone, reduceCtorEq] at succeeded
          · exact ⟨record, List.mem_of_getElem? there,
              indexed_record daemon kept _ index record found there, Int.not_le.mp gone⟩

theorem patchPreferences_live (offered : String) (patch patched : Fields) (request : Request)
    (succeeded : (patchPreferences platform daemon offered patch request.wall
      request.mono request.disk).1 = .ok patched) :
    ∃ record ∈ daemon.records, record.hash = platform.sha256Hex offered ∧
      timeOf daemon request < record.expiresAt := by
  cases valid : validatePreferencePatch platform.jsonBytes patch with
  | error refused => simp only [patchPreferences, valid, reduceCtorEq] at succeeded
  | ok =>
      cases found : daemon.registry.inner.byHash[platform.sha256Hex offered]? with
      | none => simp only [patchPreferences, valid, found, reduceCtorEq] at succeeded
      | some index =>
          cases there : daemon.registry.inner.persisted.records[index]? with
          | none => simp only [patchPreferences, valid, found, there, reduceCtorEq] at succeeded
          | some record =>
              by_cases gone : record.expiresAt ≤ timeOf daemon request
              · rw [timeOf] at gone
                simp only [patchPreferences, valid, found, there, if_pos gone, reduceCtorEq]
                  at succeeded
              · exact ⟨record, List.mem_of_getElem? there,
                  indexed_record daemon kept _ index record found there, Int.not_le.mp gone⟩

theorem accepts_live (request : Request) (hash : String)
    (accepts : Accepts platform daemon request hash) :
    ∃ record ∈ daemon.records, record.hash = hash ∧ timeOf daemon request < record.expiresAt := by
  obtain ⟨named, passed⟩ := accepts
  obtain ⟨offered, offers, rfl⟩ := Option.map_eq_some_iff.mp named
  have byLive : (liveRecord platform daemon offered request.wall request.mono).isSome →
      ∃ record ∈ daemon.records, record.hash = platform.sha256Hex offered ∧
        timeOf daemon request < record.expiresAt := by
    intro some
    obtain ⟨record, found⟩ := Option.isSome_iff_exists.mp some
    exact ⟨record, liveRecord_live platform daemon kept offered request record found⟩
  unfold Request.offers at offers
  cases asked : request.call with
  | mint name secret ttl => simp only [asked, reduceCtorEq] at offers
  | revoke name => simp only [asked, reduceCtorEq] at offers
  | validate shown =>
      simp only [asked, Option.some.injEq] at offers
      subst offers
      apply byLive
      simpa only [answer, asked, validate, failed_validated, Option.isSome_map] using passed
  | preferences shown =>
      simp only [asked, Option.some.injEq] at offers
      subst offers
      apply byLive
      simpa only [answer, asked, preferences, failed_preferences, Option.isSome_map] using passed
  | hiddenProjectUuids shown =>
      simp only [asked, Option.some.injEq] at offers
      subst offers
      apply byLive
      simpa only [answer, asked, hiddenProjectUuids, failed_hidden, Option.isSome_map] using passed
  | setProjectVisible shown project visible =>
      simp only [asked, Option.some.injEq] at offers
      subst offers
      apply setProjectVisible_live platform daemon kept shown project visible request
      simpa only [answer, asked, failed_changed] using passed
  | patchPreferences shown patch =>
      simp only [asked, Option.some.injEq] at offers
      subst offers
      simp only [answer, asked, failed_patched] at passed
      obtain ⟨patched, succeeded⟩ := passed
      exact patchPreferences_live platform daemon kept shown patch patched request succeeded

theorem revoke_gone (request : Request) (name : String) (asked : request.call = .revoke name)
    (passed : (answer platform daemon request).1.failed = false) (record : TokenRecord)
    (member : record ∈ daemon.records) (named : record.name = name) :
    record.hash ∉ (answer platform daemon request).2.records.map (·.hash) := by
  simp only [answer, asked] at passed ⊢
  unfold revoke at passed ⊢
  have known : (daemon.registry.inner.persisted.records.findIdx? (·.name == name)).isSome := by
    rw [List.findIdx?_isSome, List.any_eq_true]
    exact ⟨record, member, beq_iff_eq.mpr named⟩
  obtain ⟨position, found⟩ := Option.isSome_iff_exists.mp known
  obtain ⟨bound, matching, earlier⟩ := List.findIdx?_eq_some_iff_getElem.mp found
  simp only [found] at passed ⊢
  rcases replace_cases daemon kept _ request.disk () with ⟨failure, same⟩ | written
  · rw [same] at passed
    cases passed
  · rw [written]
    intro still
    obtain ⟨other, left, same⟩ := List.mem_map.mp still
    obtain ⟨index, apart, there⟩ := List.mem_eraseIdx_iff_getElem?.mp left
    obtain ⟨mine, held⟩ := List.mem_iff_getElem?.mp member
    have unmoved : index = mine :=
      position_unique _ (·.hash) kept.tidy.hashes index mine other record there held same
    have removed : mine = position :=
      position_unique _ (·.name) kept.tidy.names mine position record _ held
        (List.getElem?_eq_getElem bound) (named.trans (beq_iff_eq.mp matching).symm)
    exact apart (unmoved.trans removed)

theorem answer_stored (request : Request)
    (asked : (∃ name secret ttl, request.call = .mint name secret ttl) ∨
      ∃ name, request.call = .revoke name)
    (passed : (answer platform daemon request).1.failed = false) :
    ∃ mark, (answer platform daemon request).2.registry.inner.persisted.highWater = some mark ∧
      timeOf daemon request ≤ mark := by
  rcases asked with ⟨name, secret, ttl, asked⟩ | ⟨name, asked⟩
  · simp only [answer, asked, mint] at passed ⊢
    split at passed
    · cases passed
    · split at passed
      · cases passed
      · next unnamed room =>
          rw [if_neg unnamed, if_neg room]
          rcases replace_cases daemon kept _ request.disk _ with ⟨failure, same⟩ | written
          · rw [same] at passed
            cases passed
          · rw [written]
            exact ⟨_, rfl, raised_le _ _⟩
  · simp only [answer, asked, revoke] at passed ⊢
    split at passed
    · cases passed
    · next position found =>
        rcases replace_cases daemon kept _ request.disk () with ⟨failure, same⟩ | written
        · rw [same] at passed
          cases passed
        · rw [written]
          exact ⟨_, rfl, raised_le _ _⟩

end Step

theorem hashesAhead_left (platform : Platform) (start : Daemon) (before after : List Occurrence)
    (fresh : (hashesAhead platform start (before ++ after)).Nodup) :
    (hashesAhead platform start before).Nodup := by
  refine fresh.sublist ?_
  rw [hashesAhead, hashesAhead, List.flatMap_append, List.map_append, ← List.append_assoc]
  exact List.sublist_append_left _ _

theorem minted_ahead (platform : Platform) (earlier later : List Occurrence) (made : Request)
    (name secret : String) (ttl : Int) (asked : made.call = .mint name secret ttl) :
    platform.sha256Hex secret ∈
      ((earlier ++ .request made :: later).flatMap Occurrence.secrets).map platform.sha256Hex := by
  refine List.mem_map.mpr ⟨secret, ?_, rfl⟩
  refine List.mem_flatMap.mpr ⟨.request made, List.mem_append_right _ List.mem_cons_self, ?_⟩
  simp only [Occurrence.secrets, Request.secrets, asked, List.mem_singleton]

section Run

variable (platform : Platform) (start : Daemon) (kept : RegistryKept start)

include kept

theorem runDaemon_origin (occurrences : List Occurrence)
    (fresh : (hashesAhead platform start occurrences).Nodup) (record : TokenRecord)
    (member : record ∈ (runDaemon platform start occurrences).records) :
    (∃ old ∈ start.records, old.hash = record.hash ∧ old.expiresAt = record.expiresAt) ∨
      ∃ earlier made later name secret ttl, occurrences = earlier ++ .request made :: later ∧
        made.call = .mint name secret ttl ∧ platform.sha256Hex secret = record.hash ∧
        (answer platform (runDaemon platform start earlier) made).1.failed = false := by
  induction occurrences generalizing start with
  | nil => exact Or.inl ⟨record, member, rfl, rfl⟩
  | cons occurrence rest further =>
      have next : RegistryKept (occurrence.perform platform start) :=
        runDaemon_kept_before platform start [occurrence] rest kept fresh
      rcases further _ next (fresh.sublist
        (perform_ahead platform start kept occurrence rest)) member
        with ⟨middle, there, hash, expires⟩ | ⟨earlier, made, later, name, secret, ttl, rfl, minted⟩
      · cases occurrence with
        | restart startWall startInstant disk =>
            rw [Occurrence.perform, restart_hashes start kept] at there
            exact Or.inl ⟨middle, there, hash, expires⟩
        | request made =>
            rcases answer_origin platform start kept made middle there with
              ⟨old, held, sameHash, sameExpiry⟩ | ⟨name, secret, ttl, asked, hashed, passed⟩
            · exact Or.inl ⟨old, held, sameHash.trans hash, sameExpiry.trans expires⟩
            · exact Or.inr ⟨[], made, rest, name, secret, ttl, rfl, asked,
                hashed.trans hash, passed⟩
      · exact Or.inr ⟨occurrence :: earlier, made, later, name, secret, ttl, rfl, minted⟩

theorem runDaemon_absent (occurrences : List Occurrence)
    (fresh : (hashesAhead platform start occurrences).Nodup) (hash : String)
    (absent : hash ∉ hashesAhead platform start occurrences) :
    hash ∉ (runDaemon platform start occurrences).records.map (·.hash) := by
  intro present
  obtain ⟨record, member, rfl⟩ := List.mem_map.mp present
  rcases runDaemon_origin platform start kept occurrences fresh record member with
    ⟨old, there, same, _⟩ | ⟨earlier, made, later, name, secret, ttl, rfl, asked, hashed, _⟩
  · exact absent (List.mem_append_left _ (List.mem_map.mpr ⟨old, there, same⟩))
  · rw [← hashed] at absent
    exact absent (List.mem_append_right _
      (minted_ahead platform earlier later made name secret ttl asked))

theorem runDaemon_expiry (occurrences : List Occurrence)
    (fresh : (hashesAhead platform start occurrences).Nodup) (old record : TokenRecord)
    (held : old ∈ start.records)
    (member : record ∈ (runDaemon platform start occurrences).records)
    (same : record.hash = old.hash) : record.expiresAt = old.expiresAt := by
  rcases runDaemon_origin platform start kept occurrences fresh record member with
    ⟨other, there, hash, expires⟩ | ⟨earlier, made, later, name, secret, ttl, rfl, asked, hashed, _⟩
  · have one : other = old :=
      List.inj_on_of_nodup_map kept.tidy.hashes there held (hash.trans same)
    rw [← expires, one]
  · exact ((List.nodup_append'.mp fresh).2.2 (List.mem_map.mpr
      ⟨old, held, same.symm.trans hashed.symm⟩)
      (minted_ahead platform earlier later made name secret ttl asked)).elim

theorem runDaemon_mark (occurrences : List Occurrence)
    (fresh : (hashesAhead platform start occurrences).Nodup) (mark : Time)
    (stored : start.registry.inner.persisted.highWater = some mark) :
    ∃ later, (runDaemon platform start occurrences).registry.inner.persisted.highWater =
      some later ∧ mark ≤ later := by
  induction occurrences generalizing start mark with
  | nil => exact ⟨mark, stored, Int.le_refl mark⟩
  | cons occurrence rest further =>
      obtain ⟨middle, raise, before⟩ := perform_mark platform start kept occurrence mark stored
      obtain ⟨later, final, after⟩ := further _
        (runDaemon_kept_before platform start [occurrence] rest kept fresh)
        (fresh.sublist (perform_ahead platform start kept occurrence rest)) middle raise
      exact ⟨later, final, Int.le_trans before after⟩

theorem runDaemon_anchor (requests : List Request)
    (fresh : (hashesAhead platform start (requests.map .request)).Nodup) :
    (runDaemon platform start (requests.map .request)).registry.startWall =
        start.registry.startWall ∧
      (runDaemon platform start (requests.map .request)).registry.startInstant =
        start.registry.startInstant := by
  induction requests generalizing start with
  | nil => exact ⟨rfl, rfl⟩
  | cons request rest further =>
      obtain ⟨wall, instant⟩ := answer_anchor platform start kept request
      obtain ⟨sameWall, sameInstant⟩ := further _
        (runDaemon_kept_before platform start [.request request] (rest.map .request) kept fresh)
        (fresh.sublist (perform_ahead platform start kept (.request request) (rest.map .request)))
      exact ⟨sameWall.trans wall, sameInstant.trans instant⟩

end Run

section Clocks

variable (daemon : Daemon) (request : Request)

theorem timeOf_offered :
    max request.wall (daemon.registry.monotonicFloor request.mono) ≤ timeOf daemon request := by
  simp only [timeOf, TokenRegistry.effectiveNow]
  split
  · exact Int.le_max_left _ _
  · exact Int.le_refl _

theorem timeOf_wall : request.wall ≤ timeOf daemon request :=
  Int.le_trans (Int.le_max_left _ _) (timeOf_offered daemon request)

theorem timeOf_floor : daemon.registry.monotonicFloor request.mono ≤ timeOf daemon request :=
  Int.le_trans (Int.le_max_right _ _) (timeOf_offered daemon request)

theorem timeOf_latest (wall : Time) (reached : wall ≤ timeOf daemon request) :
    wall ≤ request.wall ∨ wall ≤ daemon.registry.monotonicFloor request.mono ∨
      ∃ mark, daemon.registry.inner.persisted.highWater = some mark ∧ wall ≤ mark := by
  by_cases shown : wall ≤ request.wall
  · exact Or.inl shown
  by_cases elapsed : wall ≤ daemon.registry.monotonicFloor request.mono
  · exact Or.inr (Or.inl elapsed)
  have behind : max request.wall (daemon.registry.monotonicFloor request.mono) < wall :=
    Int.max_lt.mpr ⟨Int.not_le.mp shown, Int.not_le.mp elapsed⟩
  simp only [timeOf, TokenRegistry.effectiveNow] at reached
  split at reached
  · next mark stored =>
      refine Or.inr (Or.inr ⟨mark, stored, Int.not_lt.mp fun passed => ?_⟩)
      exact absurd reached (Int.not_le.mpr (Int.max_lt.mpr ⟨behind, passed⟩))
  · exact absurd reached (Int.not_le.mpr behind)

theorem monotonicFloor_at (bounded : request.mono - daemon.registry.startInstant ≤ maxDuration) :
    daemon.registry.monotonicFloor request.mono =
      daemon.registry.startWall + (request.mono - daemon.registry.startInstant : Nat) := by
  simp only [TokenRegistry.monotonicFloor, if_pos bounded]

theorem Reaches.timeOf (wall : Time) (reaches : Reaches daemon request wall)
    (bounded : request.mono - daemon.registry.startInstant ≤ maxDuration) :
    wall ≤ timeOf daemon request := by
  rcases reaches with shown | elapsed | ⟨mark, stored, below⟩
  · exact Int.le_trans shown (timeOf_wall daemon request)
  · rw [← monotonicFloor_at daemon request bounded] at elapsed
    exact Int.le_trans elapsed (timeOf_floor daemon request)
  · exact Int.le_trans below (timeOf_mark daemon request mark stored)

theorem timeOf_forward (later : Daemon) (second : Request) (wall : Time)
    (sameWall : later.registry.startWall = daemon.registry.startWall)
    (sameInstant : later.registry.startInstant = daemon.registry.startInstant)
    (marks : ∀ mark, daemon.registry.inner.persisted.highWater = some mark →
      ∃ next, later.registry.inner.persisted.highWater = some next ∧ mark ≤ next)
    (paced : request.mono ≤ second.mono)
    (bounded : second.mono - later.registry.startInstant ≤ maxDuration)
    (reaches : wall ≤ request.wall → Reaches later second wall)
    (reached : wall ≤ Api.timeOf daemon request) : wall ≤ Api.timeOf later second := by
  rcases timeOf_latest daemon request wall reached with shown | floor | ⟨mark, stored, marked⟩
  · exact (reaches shown).timeOf later second wall bounded
  · refine Int.le_trans floor (Int.le_trans ?_ (timeOf_floor later second))
    rw [sameInstant] at bounded
    have elapsed := Nat.sub_le_sub_right paced daemon.registry.startInstant
    rw [monotonicFloor_at daemon request (Nat.le_trans elapsed bounded),
      monotonicFloor_at later second (sameInstant ▸ bounded), sameWall, sameInstant]
    exact Int.add_le_add_left (Int.ofNat_le.mpr elapsed) _
  · obtain ⟨next, raise, below⟩ := marks mark stored
    exact Int.le_trans marked (Int.le_trans below (timeOf_mark later second next raise))

end Clocks

section Unrevived

variable (platform : Platform) (start : Daemon) (occurrences : List Occurrence)
  (kept : RegistryKept start) (fresh : (hashesAhead platform start occurrences).Nodup)

include kept fresh

theorem at_request (before rest : List Occurrence) (split : occurrences = before ++ rest) :
    RegistryKept (runDaemon platform start before) ∧
      (hashesAhead platform (runDaemon platform start before) rest).Nodup := by
  subst split
  exact ⟨runDaemon_kept_before platform start before rest kept fresh,
    runDaemon_ahead platform start before rest kept fresh⟩

theorem sameRun_outlives (paced : Paced occurrences) (steady : Steady platform start occurrences)
    (before : List Occurrence) (first : Request) (middle : List Request) (second : Request)
    (hash : String) (run : SameRun occurrences before first middle second)
    (accepts : Accepts platform (runDaemon platform start
      (before ++ .request first :: middle.map .request)) second hash) :
    ∃ record ∈ (runDaemon platform start
        (before ++ .request first :: middle.map .request)).records,
      record.hash = hash ∧ timeOf (runDaemon platform start before) first < record.expiresAt := by
  obtain ⟨reaches, bounded⟩ := steady before first middle second run
  have monotone := paced before first middle second run
  obtain ⟨rest, split⟩ := run
  obtain ⟨early, ahead⟩ := at_request platform start occurrences kept fresh before _ split
  rw [← List.cons_append, ← List.append_assoc] at split
  obtain ⟨there, _⟩ := at_request platform start occurrences kept fresh _ _ split
  obtain ⟨record, member, same, live⟩ := accepts_live platform _ there second hash accepts
  refine ⟨record, member, same, Int.not_le.mp fun passed => ?_⟩
  have within : (hashesAhead platform (runDaemon platform start before)
      ((first :: middle).map .request)).Nodup := by
    apply hashesAhead_left platform _ ((first :: middle).map .request) (.request second :: rest)
    rwa [List.map_cons, List.cons_append]
  have reached := reaches record member (same ▸ accepts.1)
  rw [runDaemon_append] at live reached bounded
  obtain ⟨sameWall, sameInstant⟩ := runDaemon_anchor platform _ early (first :: middle) within
  have forward := timeOf_forward _ first _ second record.expiresAt sameWall sameInstant
    (runDaemon_mark platform _ early _ within) monotone bounded reached passed
  exact absurd live (Int.not_lt.mpr forward)

theorem sameRun_expired (paced : Paced occurrences) (steady : Steady platform start occurrences)
    (before : List Occurrence) (first : Request) (middle : List Request) (second : Request)
    (hash : String) (run : SameRun occurrences before first middle second)
    (judged : JudgesExpired platform (runDaemon platform start before) first hash) :
    ¬ Accepts platform (runDaemon platform start
      (before ++ .request first :: middle.map .request)) second hash := by
  intro accepts
  obtain ⟨record, member, same, live⟩ :=
    sameRun_outlives platform start occurrences kept fresh paced
    steady before first middle second hash run accepts
  obtain ⟨old, held, rfl, passed, _⟩ := judged
  obtain ⟨rest, split⟩ := run
  rw [← List.cons_append] at split
  obtain ⟨early, ahead⟩ := at_request platform start occurrences kept fresh before _ split
  rw [runDaemon_append] at member
  have unchanged := runDaemon_expiry platform _ early _ (hashesAhead_left platform _ _ _ ahead) old
    record held member same
  rw [unchanged] at live
  exact absurd live (Int.not_lt.mpr passed)

theorem inOrder_revoked (before : List Occurrence) (first : Request) (middle : List Occurrence)
    (second : Request) (name : String) (record : TokenRecord)
    (order : InOrder occurrences before first middle second) (asked : first.call = .revoke name)
    (passed : (answer platform (runDaemon platform start before) first).1.failed = false)
    (member : record ∈ (runDaemon platform start before).records) (named : record.name = name) :
    ¬ Accepts platform (runDaemon platform start (before ++ .request first :: middle)) second
      record.hash := by
  intro accepts
  obtain ⟨rest, split⟩ := order
  obtain ⟨early, ahead⟩ := at_request platform start occurrences kept fresh before _ split
  rw [← List.cons_append, ← List.append_assoc] at split
  obtain ⟨there, _⟩ := at_request platform start occurrences kept fresh _ _ split
  obtain ⟨other, left, same, _⟩ := accepts_live platform _ there second record.hash accepts
  have gone := revoke_gone platform _ early first name asked passed record member named
  have within := hashesAhead_left platform _ (.request first :: middle) _ ahead
  have after : RegistryKept (answer platform (runDaemon platform start before) first).2 :=
    runDaemon_kept_before platform _ [.request first] middle early within
  have later := within.sublist (perform_ahead platform _ early (.request first) middle)
  rw [runDaemon_append] at left
  refine runDaemon_absent platform _ after middle later record.hash ?_
    (List.mem_map.mpr ⟨other, left, same⟩)
  rw [hashesAhead, List.mem_append]
  rintro (still | reminted)
  · exact gone still
  · refine (List.nodup_append'.mp within).2.2 (List.mem_map.mpr ⟨record, member, rfl⟩) ?_
    rw [List.flatMap_cons, List.map_append]
    exact List.mem_append_right _ reminted

theorem accepted_minted (before : List Occurrence) (second : Request) (rest : List Occurrence)
    (hash : String) (split : occurrences = before ++ .request second :: rest)
    (accepts : Accepts platform (runDaemon platform start before) second hash) :
    (∃ record ∈ start.records, record.hash = hash) ∨
    ∃ earlier made later name secret ttl, before = earlier ++ .request made :: later ∧
      made.call = .mint name secret ttl ∧ platform.sha256Hex secret = hash ∧
      (answer platform (runDaemon platform start earlier) made).1.failed = false := by
  subst split
  have there := runDaemon_kept_before platform start before _ kept fresh
  obtain ⟨record, member, rfl, _⟩ := accepts_live platform _ there second hash accepts
  rcases runDaemon_origin platform start kept before
    (hashesAhead_left platform _ _ _ fresh) record member with ⟨old, held, same, _⟩ | minted
  · exact Or.inl ⟨old, held, same⟩
  · exact Or.inr minted

theorem inOrder_stored (before : List Occurrence) (first : Request) (middle : List Occurrence)
    (second : Request) (hash : String) (order : InOrder occurrences before first middle second)
    (asked : (∃ name secret ttl, first.call = .mint name secret ttl) ∨
      ∃ name, first.call = .revoke name)
    (passed : (answer platform (runDaemon platform start before) first).1.failed = false)
    (accepts : Accepts platform (runDaemon platform start (before ++ .request first :: middle))
      second hash) :
    ∃ record ∈ (runDaemon platform start (before ++ .request first :: middle)).records,
      record.hash = hash ∧ timeOf (runDaemon platform start before) first < record.expiresAt := by
  obtain ⟨rest, split⟩ := order
  obtain ⟨early, ahead⟩ := at_request platform start occurrences kept fresh before _ split
  rw [← List.cons_append, ← List.append_assoc] at split
  obtain ⟨there, _⟩ := at_request platform start occurrences kept fresh _ _ split
  obtain ⟨record, member, same, live⟩ := accepts_live platform _ there second hash accepts
  obtain ⟨mark, stored, judged⟩ := answer_stored platform _ early first asked passed
  have within := hashesAhead_left platform _ (.request first :: middle) _ ahead
  have after : RegistryKept (answer platform (runDaemon platform start before) first).2 :=
    runDaemon_kept_before platform _ [.request first] middle early within
  obtain ⟨later, raise, below⟩ := runDaemon_mark platform _ after middle
    (within.sublist (perform_ahead platform _ early (.request first) middle)) mark stored
  refine ⟨record, member, same, ?_⟩
  rw [runDaemon_append] at live
  have reached := timeOf_mark _ second later raise
  exact Int.lt_of_le_of_lt (Int.le_trans judged (Int.le_trans below reached)) live

end Unrevived

/-- Where no token is offered again behind an expiry that the wall clock has shown, none comes
back. -/
theorem steady_unrevived (platform : Platform) (start : Daemon) (occurrences : List Occurrence)
    (kept : RegistryKept start) (fresh : (hashesAhead platform start occurrences).Nodup)
    (paced : Paced occurrences) (steady : Steady platform start occurrences) :
    Unrevived platform start occurrences where
  expired := sameRun_expired platform start occurrences kept fresh paced steady
  outlives := sameRun_outlives platform start occurrences kept fresh paced steady
  revoked := inOrder_revoked platform start occurrences kept fresh
  minted := accepted_minted platform start occurrences kept fresh
  stored := inOrder_stored platform start occurrences kept fresh

def requests (occurrences : List Occurrence) : List Request :=
  occurrences.filterMap fun
    | .request made => some made
    | .restart _ _ _ => none

theorem SameRun.ordered {occurrences before : List Occurrence} {first second : Request}
    {middle : List Request} (run : SameRun occurrences before first middle second) :
    [first, second].Sublist (requests occurrences) := by
  obtain ⟨rest, rfl⟩ := run
  simp only [requests, List.filterMap_append, List.filterMap_cons]
  refine (List.Sublist.cons_cons first ?_).trans (List.sublist_append_right _ _)
  exact (List.singleton_sublist.mpr List.mem_cons_self).trans (List.sublist_append_right _ _)

theorem paced_of_sorted (occurrences : List Occurrence)
    (sorted : (requests occurrences).Pairwise fun first second => first.mono ≤ second.mono) :
    Paced occurrences := by
  intro before first middle second run
  have pair := List.Pairwise.sublist run.ordered sorted
  exact List.rel_of_pairwise_cons pair List.mem_cons_self

theorem steady_of_sorted (platform : Platform) (start : Daemon) (occurrences : List Occurrence)
    (sorted : (requests occurrences).Pairwise fun first second =>
      second.offers.isSome → first.wall ≤ second.wall)
    (brief : ∀ request ∈ requests occurrences, request.mono ≤ maxDuration) :
    Steady platform start occurrences := by
  intro before first middle second run
  have pair := List.Pairwise.sublist run.ordered sorted
  have forward := List.rel_of_pairwise_cons pair List.mem_cons_self
  constructor
  · intro record _ offered passed
    apply Or.inl
    apply Int.le_trans passed
    apply forward
    rw [← Option.isSome_map (f := platform.sha256Hex), offered, Option.isSome_some]
  · have later : second ∈ requests occurrences :=
      run.ordered.subset (List.mem_cons_of_mem _ List.mem_cons_self)
    exact Nat.le_trans (Nat.sub_le _ _) (brief second later)

/-- One token expires and is refused twice; the other is accepted by the next daemon, and revoked
by a request whose wall clock is set back. -/
def expiryAndRevocation : List Occurrence :=
  let laptop := "5f5f5f5f5f5f5f5f5f5f5f5f5f5f5f5f5f5f5f5f5f5f5f5f5f5f5f5f5f5f5f5f"
  let phone := "6060606060606060606060606060606060606060606060606060606060606060"
  [.request ⟨.mint "laptop" laptop 100, 0, 0, .ok ()⟩,
    .request ⟨.mint "phone" phone 500, 1, 1, .ok ()⟩,
    .request ⟨.validate laptop, 50, 50, .ok ()⟩,
    .request ⟨.validate laptop, 200, 200, .ok ()⟩,
    .request ⟨.validate laptop, 205, 205, .ok ()⟩,
    .restart 210 210 (.ok ()),
    .request ⟨.validate phone, 220, 220, .ok ()⟩,
    .request ⟨.revoke "phone", 30, 230, .ok ()⟩,
    .request ⟨.validate phone, 240, 240, .ok ()⟩,
    .request ⟨.validate laptop, 250, 250, .ok ()⟩]

theorem steady_unrevived_two :
    Unrevived twoSecrets (loadAnchored none 0 0 (.ok ())) expiryAndRevocation ∧
      refusals twoSecrets (loadAnchored none 0 0 (.ok ())) expiryAndRevocation =
        [false, false, false, true, true, false, false, true, true] := by
  refine ⟨?_, by decide +kernel⟩
  exact steady_unrevived twoSecrets _ expiryAndRevocation
    (loadAnchored_kept none 0 0 (.ok ()) sound_empty) (by decide)
    (paced_of_sorted expiryAndRevocation (by decide))
    (steady_of_sorted twoSecrets _ expiryAndRevocation (by decide) (by decide))

/-- A token is shown after it has expired, and again once the wall clock has been set back. -/
def setBack : List Occurrence :=
  let secret := "5f5f5f5f5f5f5f5f5f5f5f5f5f5f5f5f5f5f5f5f5f5f5f5f5f5f5f5f5f5f5f5f"
  [.request ⟨.mint "laptop" secret 100, 0, 0, .ok ()⟩,
    .request ⟨.validate secret, 200, 1, .ok ()⟩,
    .request ⟨.validate secret, 50, 2, .ok ()⟩]

/-- Between writes nothing keeps the latest time a token was judged at, and it comes back. -/
theorem setBack_revives : Paced setBack ∧
    (hashesAhead twoSecrets (loadAnchored none 0 0 (.ok ())) setBack).Nodup ∧
    ¬ Unrevived twoSecrets (loadAnchored none 0 0 (.ok ())) setBack := by
  refine ⟨paced_of_sorted setBack (by decide), by decide, fun unrevived => ?_⟩
  let hash := "ce63c4ebf143f2aade4d14b4e5d941832c7af9ef9a000df459c9b6a07f155486"
  refine unrevived.expired (setBack.take 1) _ [] _ hash ⟨[], rfl⟩ ?_ ?_
  · refine ⟨_, List.mem_cons_self, rfl, ?_, Or.inl rfl⟩
    decide +kernel
  · exact ⟨rfl, by decide +kernel⟩

end Storyhook.Api
