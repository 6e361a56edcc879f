import Mathlib.Algebra.Group.Nat.Defs
import Mathlib.Data.List.Nodup
import Storyhook.Api.Host
import Storyhook.Library.Runs

/-! The coupons that hand a browser its credential, each for one redemption in its time. -/

namespace Storyhook.Api.Handoff

open Storyhook.Daemon Storyhook.Library

def couponHeader : String := "X-Storyhook-Handoff"

def TTL : Nat := 120 * 10 ^ 9

def maxLive : Nat := 8

structure Armed where
  coupon : String
  expiresAt : Nat
  deriving DecidableEq

/-- The coupons armed and not yet spent, the oldest first. -/
structure HandoffRegistry where
  armed : List Armed
  deriving DecidableEq

def popFront : List Armed → List Armed
  | [] => []
  | oldest :: rest =>
      if maxLive ≤ (oldest :: rest).length then popFront rest else oldest :: rest

def HandoffRegistry.arm (registry : HandoffRegistry) (coupon : String) (now : Nat) :
    HandoffRegistry :=
  let live := registry.armed.filter fun entry => now < entry.expiresAt
  ⟨popFront live ++ [⟨coupon, now + TTL⟩]⟩

def HandoffRegistry.redeem (registry : HandoffRegistry) (offered : String) (now : Nat) :
    Bool × HandoffRegistry :=
  match registry.armed.findIdx? fun entry => now < entry.expiresAt && entry.coupon == offered with
  | some index => (true, ⟨registry.armed.eraseIdx index⟩)
  | none => (false, registry)

/-- Whether a redemption is admitted, and the registry after asking. -/
def redemptionAdmitted (method : Method) (headers : List Header) (trusted : TrustedHosts)
    (loopback : Bool) (now : Nat) (registry : HandoffRegistry) : Bool × HandoffRegistry :=
  if method ≠ .post then (false, registry)
  else if (headerValue headers "X-Storyhook").isNone then (false, registry)
  else
    match headerValue headers couponHeader with
    | none => (false, registry)
    | some offered =>
        if localRequest headers trusted loopback then registry.redeem offered now
        else (false, registry)

inductive Call where
  | arm (coupon : String) (now : Nat)
  | redeem (offered : String) (now : Nat)

def Call.instant : Call → Nat
  | .arm _ now => now
  | .redeem _ now => now

def HandoffRegistry.call (registry : HandoffRegistry) : Call → HandoffRegistry
  | .arm coupon now => registry.arm coupon now
  | .redeem offered now => (registry.redeem offered now).2

def after (calls : List Call) : HandoffRegistry := calls.foldl HandoffRegistry.call ⟨[]⟩

def armedCoupons (calls : List Call) : List String :=
  calls.filterMap fun call => match call with
    | .arm coupon _ => some coupon
    | .redeem _ _ => none

def liveCoupons (calls : List Call) (now : Nat) : List String :=
  ((after calls).armed.filter fun entry => now < entry.expiresAt).map (·.coupon)

def ArmedAt (calls : List Call) (coupon : String) (instant : Nat) : Prop :=
  .arm coupon instant ∈ calls

def Redeemed (calls : List Call) (coupon : String) : Prop :=
  ∃ before now rest, calls = before ++ .redeem coupon now :: rest ∧
    ((after before).redeem coupon now).1 = true

/-- The coupon is live when another is armed, and no longer so just after. -/
def Evicts (before : List Call) (armed : String) (now : Nat) (coupon : String) : Prop :=
  coupon ∈ liveCoupons before now ∧ coupon ∉ liveCoupons (before ++ [.arm armed now]) now

def Evicted (calls : List Call) (coupon : String) : Prop :=
  ∃ before armed now rest, calls = before ++ .arm armed now :: rest ∧
    Evicts before armed now coupon

/-- The calls come one after another, and no coupon is generated twice. -/
structure Possible (calls : List Call) : Prop where
  ordered : (calls.map Call.instant).Pairwise (· ≤ ·)
  distinct : (armedCoupons calls).Nodup

/-- A coupon is worth one redemption, in its time, unless it is evicted. -/
structure WorthOne (calls : List Call) : Prop where
  redeems : ∀ before coupon now rest, calls = before ++ .redeem coupon now :: rest →
    (((after before).redeem coupon now).1 = true ↔
      ∃ armed, ArmedAt before coupon armed ∧ now < armed + TTL ∧ ¬Redeemed before coupon ∧
        ¬Evicted before coupon)
  evicts : ∀ before armed now rest, calls = before ++ .arm armed now :: rest →
    ∀ coupon, Evicts before armed now coupon ↔
      (liveCoupons before now).length = maxLive ∧ (liveCoupons before now).head? = some coupon
  oldest : ∀ before rest, calls = before ++ rest → ∀ now,
    (liveCoupons before now).Sublist (armedCoupons before)
  refused : ∀ before coupon now rest, calls = before ++ .redeem coupon now :: rest →
    ((after before).redeem coupon now).1 = false → after (before ++ [.redeem coupon now]) =
      after before
  bounded : ∀ before rest, calls = before ++ rest → ∀ now, (liveCoupons before now).length ≤ maxLive

/-! ### One call -/

theorem popFront_short (entries : List Armed) : (popFront entries).length < maxLive := by
  induction entries with
  | nil => exact Nat.zero_lt_succ 7
  | cons oldest rest further =>
      rw [popFront]
      split
      · exact further
      · next room => exact Nat.lt_of_not_le room

theorem popFront_room (entries : List Armed) (room : entries.length < maxLive) :
    popFront entries = entries := by
  cases entries with
  | nil => rfl
  | cons oldest rest => rw [popFront, if_neg (Nat.not_le.mpr room)]

theorem popFront_full (oldest : Armed) (rest : List Armed)
    (full : (oldest :: rest).length = maxLive) : popFront (oldest :: rest) = rest := by
  rw [popFront, if_pos (Nat.le_of_eq full.symm), popFront_room rest]
  rw [← full]
  exact Nat.lt_succ_self _

theorem popFront_suffix (entries : List Armed) : popFront entries <:+ entries := by
  induction entries with
  | nil => exact List.suffix_refl []
  | cons oldest rest further =>
      rw [popFront]
      split
      · exact further.trans (List.suffix_cons _ _)
      · exact List.suffix_refl _

theorem redeem_cases (registry : HandoffRegistry) (offered : String) (now : Nat) :
    (∃ front entry back, registry.armed = front ++ entry :: back ∧ now < entry.expiresAt ∧
      entry.coupon = offered ∧ registry.redeem offered now = (true, ⟨front ++ back⟩)) ∨
    (∀ entry ∈ registry.armed, now < entry.expiresAt → entry.coupon ≠ offered) ∧
      registry.redeem offered now = (false, registry) := by
  rw [HandoffRegistry.redeem]
  cases found : registry.armed.findIdx? fun entry =>
      now < entry.expiresAt && entry.coupon == offered with
  | none =>
      refine Or.inr ⟨fun entry member live same => ?_, rfl⟩
      have passed := List.findIdx?_eq_none_iff.mp found entry member
      simp [live, same] at passed
  | some index =>
      obtain ⟨inside, hit, -⟩ := List.findIdx?_eq_some_iff_getElem.mp found
      rw [Bool.and_eq_true, decide_eq_true_eq, beq_iff_eq] at hit
      refine Or.inl ⟨registry.armed.take index, registry.armed[index],
        registry.armed.drop (index + 1), ?_, hit.1, hit.2, ?_⟩
      · rw [List.getElem_cons_drop, List.take_append_drop]
      · show (true, (⟨registry.armed.eraseIdx index⟩ : HandoffRegistry)) = _
        rw [List.eraseIdx_eq_take_drop_succ]

theorem redeem_iff (calls : List Call) (coupon : String) (now : Nat) :
    ((after calls).redeem coupon now).1 = true ↔ coupon ∈ liveCoupons calls now := by
  rw [liveCoupons, List.mem_map]
  rcases redeem_cases (after calls) coupon now with
    ⟨front, entry, back, split, live, same, redeemed⟩ | ⟨none, refused⟩
  · rw [redeemed]
    have member : entry ∈ (after calls).armed := by simp [split]
    exact iff_of_true rfl
      ⟨entry, List.mem_filter.mpr ⟨member, decide_eq_true live⟩, same⟩
  · rw [refused]
    refine iff_of_false Bool.false_ne_true ?_
    rintro ⟨entry, member, same⟩
    obtain ⟨inside, live⟩ := List.mem_filter.mp member
    exact none entry inside (of_decide_eq_true live) same

theorem redemptionAdmitted_cases (method : Method) (headers : List Header)
    (trusted : TrustedHosts) (loopback : Bool) (now : Nat) (registry : HandoffRegistry) :
    redemptionAdmitted method headers trusted loopback now registry = (false, registry) ∨
      ∃ offered, headerValue headers couponHeader = some offered ∧
        redemptionAdmitted method headers trusted loopback now registry =
          registry.redeem offered now := by
  rw [redemptionAdmitted]
  split
  · exact Or.inl rfl
  · split
    · exact Or.inl rfl
    · split
      · exact Or.inl rfl
      · next offered found =>
          split
          · exact Or.inr ⟨offered, found, rfl⟩
          · exact Or.inl rfl

theorem refused_unchanged (registry : HandoffRegistry) (offered : String) (now : Nat)
    (refused : (registry.redeem offered now).1 = false) :
    (registry.redeem offered now).2 = registry := by
  rcases redeem_cases registry offered now with ⟨_, _, _, -, -, -, redeemed⟩ | ⟨-, same⟩
  · rw [redeemed] at refused
    cases refused
  · rw [same]

/-! ### What the calls leave armed -/

theorem after_concat (calls : List Call) (call : Call) :
    after (calls ++ [call]) = (after calls).call call := by
  rw [after, List.foldl_append]
  rfl

def armings (calls : List Call) : List Armed :=
  calls.filterMap fun call => match call with
    | .arm coupon now => some ⟨coupon, now + TTL⟩
    | .redeem _ _ => none

theorem armings_coupons (calls : List Call) :
    (armings calls).map (·.coupon) = armedCoupons calls := by
  rw [armings, armedCoupons, List.map_filterMap]
  congr 1
  funext call
  cases call <;> rfl

theorem after_armed (calls : List Call) :
    (after calls).armed.Sublist (armings calls) ∧ (after calls).armed.length ≤ maxLive := by
  induction calls using List.reverseRecOn with
  | nil => exact ⟨List.Sublist.refl [], Nat.zero_le _⟩
  | append_singleton calls call further =>
      rw [after_concat, armings, List.filterMap_append]
      cases call with
      | arm coupon now =>
          have kept : (popFront ((after calls).armed.filter fun entry =>
              now < entry.expiresAt)).Sublist (armings calls) :=
            (popFront_suffix _).sublist.trans (List.filter_sublist.trans further.1)
          refine ⟨kept.append (List.Sublist.refl _), ?_⟩
          show (popFront _ ++ [_]).length ≤ maxLive
          rw [List.length_append]
          exact popFront_short _
      | redeem offered now =>
          show ((after calls).redeem offered now).2.armed.Sublist _ ∧
            ((after calls).redeem offered now).2.armed.length ≤ maxLive
          rw [List.filterMap_cons_none rfl, List.filterMap_nil, List.append_nil]
          rcases redeem_cases (after calls) offered now with
            ⟨front, entry, back, split, -, -, redeemed⟩ | ⟨-, same⟩
          · rw [redeemed]
            have left : (front ++ back).Sublist (after calls).armed := by
              rw [split]
              exact (List.Sublist.refl front).append (List.sublist_cons_self _ _)
            exact ⟨left.trans further.1, Nat.le_trans left.length_le further.2⟩
          · rw [same]
            exact further

theorem liveCoupons_sublist (calls : List Call) (now : Nat) :
    (liveCoupons calls now).Sublist (armedCoupons calls) := by
  rw [← armings_coupons]
  exact (List.filter_sublist.trans (after_armed calls).1).map _

theorem liveCoupons_short (calls : List Call) (now : Nat) :
    (liveCoupons calls now).length ≤ maxLive := by
  rw [liveCoupons, List.length_map]
  exact Nat.le_trans (List.length_filter_le _ _) (after_armed calls).2

theorem entry_unique (calls : List Call) (distinct : (armedCoupons calls).Nodup)
    (one other : Armed) (member : one ∈ (after calls).armed) (inside : other ∈ (after calls).armed)
    (same : one.coupon = other.coupon) : one = other := by
  have apart : ((after calls).armed.map (·.coupon)).Nodup :=
    ((after_armed calls).1.map _).nodup (armings_coupons calls ▸ distinct)
  exact List.inj_on_of_nodup_map apart member inside same

theorem mem_liveCoupons (calls : List Call) (now : Nat) (coupon : String) :
    coupon ∈ liveCoupons calls now ↔
      ∃ entry ∈ (after calls).armed, now < entry.expiresAt ∧ entry.coupon = coupon := by
  simp [liveCoupons, and_assoc]

theorem live_arm (calls : List Call) (armed : String) (instant now : Nat) (coupon : String)
    (distinct : (armedCoupons calls).Nodup) (fresh : armed ∉ armedCoupons calls)
    (later : instant ≤ now) :
    coupon ∈ liveCoupons (calls ++ [.arm armed instant]) now ↔
      coupon = armed ∧ now < instant + TTL ∨
        coupon ∈ liveCoupons calls now ∧ ¬Evicts calls armed instant coupon := by
  have entries : (after (calls ++ [.arm armed instant])).armed =
      popFront ((after calls).armed.filter fun entry => instant < entry.expiresAt) ++
        [⟨armed, instant + TTL⟩] := by
    rw [after_concat]
    rfl
  have held (entry : Armed) (member : entry ∈ popFront ((after calls).armed.filter fun entry =>
      instant < entry.expiresAt)) : entry ∈ (after calls).armed ∧ instant < entry.expiresAt := by
    obtain ⟨inside, live⟩ := List.mem_filter.mp ((popFront_suffix _).subset member)
    exact ⟨inside, of_decide_eq_true live⟩
  simp only [mem_liveCoupons, entries, List.mem_append, List.mem_singleton]
  constructor
  · rintro ⟨entry, kept | rfl, live, rfl⟩
    · obtain ⟨inside, then'⟩ := held entry kept
      refine Or.inr ⟨⟨entry, inside, live, rfl⟩, fun evicts => evicts.2 ?_⟩
      rw [mem_liveCoupons, entries]
      exact ⟨entry, List.mem_append_left _ kept, then', rfl⟩
    · exact Or.inl ⟨rfl, live⟩
  · rintro (⟨rfl, live⟩ | ⟨⟨entry, inside, live, rfl⟩, stays⟩)
    · exact ⟨⟨coupon, instant + TTL⟩, Or.inr rfl, live, rfl⟩
    · have before : entry.coupon ∈ liveCoupons calls instant :=
        (mem_liveCoupons calls instant _).mpr
          ⟨entry, inside, Nat.lt_of_le_of_lt later live, rfl⟩
      have still : entry.coupon ∈ liveCoupons (calls ++ [.arm armed instant]) instant := by
        by_contra gone
        exact stays ⟨before, gone⟩
      obtain ⟨other, member, -, same⟩ := (mem_liveCoupons _ instant _).mp still
      rw [entries, List.mem_append, List.mem_singleton] at member
      rcases member with kept | rfl
      · obtain rfl := entry_unique calls distinct other entry (held other kept).1 inside same
        exact ⟨other, Or.inl kept, live, rfl⟩
      · have known := (liveCoupons_sublist calls instant).subset before
        rw [← same] at known
        exact absurd known fresh

theorem live_redeem (calls : List Call) (offered : String) (instant now : Nat) (coupon : String)
    (distinct : (armedCoupons calls).Nodup) :
    coupon ∈ liveCoupons (calls ++ [.redeem offered instant]) now ↔
      coupon ∈ liveCoupons calls now ∧
        ¬(coupon = offered ∧ ((after calls).redeem offered instant).1 = true) := by
  have left : after (calls ++ [.redeem offered instant]) =
      ((after calls).redeem offered instant).2 := after_concat calls _
  rw [mem_liveCoupons, mem_liveCoupons, left]
  rcases redeem_cases (after calls) offered instant with
    ⟨front, taken, back, split, -, rfl, redeemed⟩ | ⟨-, same⟩
  · rw [redeemed]
    constructor
    · rintro ⟨entry, member, live, rfl⟩
      have inside : entry ∈ (after calls).armed := by
        rw [split]
        simpa using (List.mem_append.mp member).imp_right Or.inr
      refine ⟨⟨entry, inside, live, rfl⟩, fun ⟨same, _⟩ => ?_⟩
      obtain rfl := entry_unique calls distinct entry taken inside (by simp [split]) same
      have apart : (after calls).armed.Nodup :=
        ((after_armed calls).1.nodup (List.Nodup.of_map _ (armings_coupons calls ▸ distinct)))
      rw [split, List.nodup_middle, List.nodup_cons] at apart
      exact apart.1 member
    · rintro ⟨⟨entry, member, live, rfl⟩, stays⟩
      rw [split] at member
      refine ⟨entry, ?_, live, rfl⟩
      rcases List.mem_append.mp member with before | rest
      · exact List.mem_append_left _ before
      · rcases List.mem_cons.mp rest with rfl | behind
        · exact absurd ⟨rfl, rfl⟩ stays
        · exact List.mem_append_right _ behind
  · rw [same]
    simp

/-! ### The history of a coupon -/

theorem redeemed_concat (calls : List Call) (call : Call) (coupon : String) :
    Redeemed (calls ++ [call]) coupon ↔ Redeemed calls coupon ∨
      ∃ now, call = .redeem coupon now ∧ ((after calls).redeem coupon now).1 = true := by
  constructor
  · rintro ⟨before, now, rest, split, redeemed⟩
    rcases (Runs.concat_split calls before rest call _).mp split with
      ⟨earlier, -, rfl⟩ | ⟨-, rfl, rfl⟩
    · exact Or.inl ⟨before, now, earlier, rfl, redeemed⟩
    · exact Or.inr ⟨now, rfl, redeemed⟩
  · rintro (⟨before, now, rest, rfl, redeemed⟩ | ⟨now, rfl, redeemed⟩)
    · exact ⟨before, now, rest ++ [call], by simp, redeemed⟩
    · exact ⟨calls, now, [], rfl, redeemed⟩

theorem evicted_concat (calls : List Call) (call : Call) (coupon : String) :
    Evicted (calls ++ [call]) coupon ↔ Evicted calls coupon ∨
      ∃ armed now, call = .arm armed now ∧ Evicts calls armed now coupon := by
  constructor
  · rintro ⟨before, armed, now, rest, split, evicts⟩
    rcases (Runs.concat_split calls before rest call _).mp split with
      ⟨earlier, -, rfl⟩ | ⟨-, rfl, rfl⟩
    · exact Or.inl ⟨before, armed, now, earlier, rfl, evicts⟩
    · exact Or.inr ⟨armed, now, rfl, evicts⟩
  · rintro (⟨before, armed, now, rest, rfl, evicts⟩ | ⟨armed, now, rfl, evicts⟩)
    · exact ⟨before, armed, now, rest ++ [call], by simp, evicts⟩
    · exact ⟨calls, armed, now, [], rfl, evicts⟩

theorem Possible.before (calls rest : List Call) (possible : Possible (calls ++ rest)) :
    Possible calls := by
  obtain ⟨ordered, distinct⟩ := possible
  rw [List.map_append] at ordered
  rw [armedCoupons, List.filterMap_append] at distinct
  exact ⟨(List.pairwise_append.mp ordered).1, (List.nodup_append.mp distinct).1⟩

theorem live_mem (before rest : List Call) (now : Nat) (coupon : String)
    (live : coupon ∈ liveCoupons before now) : coupon ∈ armedCoupons (before ++ rest) := by
  rw [armedCoupons, List.filterMap_append]
  exact List.mem_append_left _ ((liveCoupons_sublist before now).subset live)

theorem redeemed_mem (calls : List Call) (coupon : String) (redeemed : Redeemed calls coupon) :
    coupon ∈ armedCoupons calls := by
  obtain ⟨before, now, rest, rfl, taken⟩ := redeemed
  exact live_mem before _ now coupon ((redeem_iff before coupon now).mp taken)

theorem evicted_mem (calls : List Call) (coupon : String) (evicted : Evicted calls coupon) :
    coupon ∈ armedCoupons calls := by
  obtain ⟨before, armed, now, rest, rfl, evicts⟩ := evicted
  exact live_mem before _ now coupon evicts.1

theorem live_iff (calls : List Call) (possible : Possible calls) (now : Nat)
    (past : ∀ call ∈ calls, call.instant ≤ now) (coupon : String) :
    coupon ∈ liveCoupons calls now ↔ ∃ armed, ArmedAt calls coupon armed ∧ now < armed + TTL ∧
      ¬Redeemed calls coupon ∧ ¬Evicted calls coupon := by
  induction calls using List.reverseRecOn with
  | nil =>
      refine iff_of_false List.not_mem_nil ?_
      rintro ⟨armed, never, -⟩
      cases never
  | append_singleton calls call further =>
      have earlier := possible.before calls [call]
      have known := further earlier fun other member => past other (List.mem_append_left _ member)
      have shown : call.instant ≤ now := past call (by simp)
      simp only [redeemed_concat, evicted_concat, ArmedAt, List.mem_append, List.mem_singleton,
        not_or]
      cases call with
      | arm armed instant =>
          have fresh : armed ∉ armedCoupons calls := by
            have distinct := possible.distinct
            rw [armedCoupons, List.filterMap_append] at distinct
            intro member
            exact (List.nodup_append.mp distinct).2.2 armed member armed (by simp) rfl
          rw [live_arm calls armed instant now coupon earlier.distinct fresh shown, known]
          constructor
          · rintro (⟨rfl, live⟩ | ⟨⟨start, begun, live, unspent, kept⟩, stays⟩)
            · refine ⟨instant, Or.inr rfl, live, ⟨fun redeemed => ?_, nofun⟩, fun evicted => ?_, ?_⟩
              · exact fresh (redeemed_mem calls coupon redeemed)
              · exact fresh (evicted_mem calls coupon evicted)
              · rintro ⟨_, _, -, evicts⟩
                exact fresh ((liveCoupons_sublist calls _).subset evicts.1)
            · refine ⟨start, Or.inl begun, live, ⟨unspent, nofun⟩, kept, ?_⟩
              rintro ⟨_, _, ⟨⟩, evicts⟩
              exact stays evicts
          · rintro ⟨start, begun | same, live, ⟨unspent, -⟩, kept, stays⟩
            · exact Or.inr ⟨⟨start, begun, live, unspent, kept⟩,
                fun evicts => stays ⟨armed, instant, rfl, evicts⟩⟩
            · cases same
              exact Or.inl ⟨rfl, live⟩
      | redeem offered instant =>
          rw [live_redeem calls offered instant now coupon earlier.distinct, known]
          constructor
          · rintro ⟨⟨start, begun, live, unspent, kept⟩, stays⟩
            refine ⟨start, Or.inl begun, live, ⟨unspent, ?_⟩, kept, nofun⟩
            rintro ⟨_, ⟨⟩, taken⟩
            exact stays ⟨rfl, taken⟩
          · rintro ⟨start, begun | same, live, ⟨unspent, stays⟩, kept, -⟩
            · refine ⟨⟨start, begun, live, unspent, kept⟩, ?_⟩
              rintro ⟨rfl, taken⟩
              exact stays ⟨instant, rfl, taken⟩
            · cases same

theorem evicts_iff (calls : List Call) (armed : String) (now : Nat) (coupon : String)
    (distinct : (armedCoupons calls).Nodup) (fresh : armed ∉ armedCoupons calls) :
    Evicts calls armed now coupon ↔ (liveCoupons calls now).length = maxLive ∧
      (liveCoupons calls now).head? = some coupon := by
  have bound := liveCoupons_short calls now
  have apart : (liveCoupons calls now).Nodup := (liveCoupons_sublist calls now).nodup distinct
  have known := (liveCoupons_sublist calls now).subset
  have next : liveCoupons (calls ++ [.arm armed now]) now =
      (popFront ((after calls).armed.filter fun entry => now < entry.expiresAt)).map (·.coupon) ++
        [armed] := by
    have kept : (popFront ((after calls).armed.filter fun entry => now < entry.expiresAt)).filter
        (fun entry => now < entry.expiresAt) =
          popFront ((after calls).armed.filter fun entry => now < entry.expiresAt) :=
      List.filter_eq_self.mpr fun entry member =>
        (List.mem_filter.mp ((popFront_suffix _).subset member)).2
    rw [liveCoupons, after_concat]
    show ((popFront _ ++ [_]).filter _).map _ = _
    rw [List.filter_append, kept, List.map_append]
    simp [TTL]
  rw [Evicts, next, List.mem_append, not_or, List.mem_singleton]
  rw [liveCoupons] at *
  generalize (after calls).armed.filter (fun entry => decide (now < entry.expiresAt)) = live at *
  cases live with
  | nil => simp [maxLive]
  | cons oldest rest =>
      by_cases full : (oldest :: rest).length = maxLive
      · rw [popFront_full oldest rest full, List.length_map, List.map_cons, List.head?_cons,
          Option.some.injEq]
        rw [List.map_cons, List.nodup_cons] at apart
        constructor
        · rintro ⟨member, gone, -⟩
          exact ⟨full, ((List.mem_cons.mp member).resolve_right gone).symm⟩
        · rintro ⟨-, rfl⟩
          refine ⟨List.mem_cons_self, apart.1, ?_⟩
          rintro rfl
          exact fresh (known List.mem_cons_self)
      · have room : (oldest :: rest).length < maxLive := by
          rw [List.length_map] at bound
          exact Nat.lt_of_le_of_ne bound full
        rw [popFront_room _ room, List.length_map]
        exact iff_of_false (fun evicts => evicts.2.1 evicts.1) fun whole => full whole.1

/-- Each coupon is worth one redemption in its time, whatever else is asked. -/
theorem coupon_worth_one :
    (∀ calls, Possible calls → WorthOne calls) ∧
      ∀ method headers trusted loopback now registry,
        (redemptionAdmitted method headers trusted loopback now registry).1 = false →
          (redemptionAdmitted method headers trusted loopback now registry).2 = registry := by
  constructor
  · intro calls possible
    refine ⟨?_, ?_, ?_, ?_, ?_⟩
    · rintro before coupon now rest rfl
      have past : ∀ call ∈ before, call.instant ≤ now := by
        have ordered := possible.ordered
        rw [List.map_append] at ordered
        intro call member
        exact (List.pairwise_append.mp ordered).2.2 _ (List.mem_map_of_mem member) _
          List.mem_cons_self
      rw [redeem_iff]
      exact live_iff before (possible.before before _) now past coupon
    · rintro before armed now rest rfl coupon
      have distinct := possible.distinct
      rw [armedCoupons, List.filterMap_append] at distinct
      have fresh : armed ∉ armedCoupons before := fun member =>
        (List.nodup_append.mp distinct).2.2 armed member armed List.mem_cons_self rfl
      exact evicts_iff before armed now coupon (possible.before before _).distinct fresh
    · rintro before rest rfl now
      exact liveCoupons_sublist before now
    · rintro before coupon now rest rfl refused
      rw [after_concat]
      exact refused_unchanged _ coupon now refused
    · rintro before rest rfl now
      exact liveCoupons_short before now
  · intro method headers trusted loopback now registry refused
    rcases redemptionAdmitted_cases method headers trusted loopback now registry with
      same | ⟨offered, -, asked⟩
    · rw [same]
    · rw [asked] at refused ⊢
      exact refused_unchanged registry offered now refused

/-- Nine coupons, the first evicted by the last; one spent and offered again, one offered late. -/
def nineCoupons : List Call :=
  ["a", "b", "c", "d", "e", "f", "g", "h", "i"].map (.arm · 0) ++
    [.redeem "a" 1, .redeem "b" 2, .redeem "b" 3, .redeem "c" (2 * TTL)]

theorem coupon_worth_one_evicted :
    WorthOne nineCoupons ∧
      ((after (nineCoupons.take 9)).redeem "a" 1).1 = false ∧
      ((after (nineCoupons.take 10)).redeem "b" 2).1 = true ∧
      ((after (nineCoupons.take 11)).redeem "b" 3).1 = false ∧
      ((after (nineCoupons.take 12)).redeem "c" (2 * TTL)).1 = false ∧
      (redemptionAdmitted .get [] ⟨[], []⟩ true 2 (after [.arm "a" 0])).2 = after [.arm "a" 0] := by
  refine ⟨coupon_worth_one.1 nineCoupons ⟨by decide +kernel, by decide +kernel⟩,
    by decide +kernel, by decide +kernel, by decide +kernel, by decide +kernel, ?_⟩
  exact coupon_worth_one.2 .get [] ⟨[], []⟩ true 2 (after [.arm "a" 0]) (by decide)

end Storyhook.Api.Handoff
