import Mathlib.Algebra.BigOperators.Group.Finset.Basic
import Mathlib.Data.List.TakeWhile
import Storyhook.Daemon.Bus

/-! Nothing that is published is lost in silence. -/

namespace Storyhook.Daemon

open Storyhook.Library

section Trace

variable (id : Nat) (acts : List BusAct) (act : BusAct)

theorem uses_concat : uses id (acts ++ [act]) = uses id acts ++ (act.use? id).toList := by
  rw [uses, List.filterMap_append]
  rfl

theorem uses_silent (silent : act.use? id = none) : uses id (acts ++ [act]) = uses id acts := by
  rw [uses_concat, silent]
  exact List.append_nil _

theorem puts_concat : Mailbox.puts (uses id (acts ++ [act])) =
    Mailbox.puts (uses id acts) ++ ((act.use? id).bind Mailbox.Use.put?).toList := by
  rw [uses_concat, Mailbox.puts, List.filterMap_append]
  cases act.use? id with
  | none => rfl
  | some use => cases use <;> rfl

theorem publishedSince_concat (came : .subscribed id ∈ acts) :
    publishedSince id (acts ++ [act]) = publishedSince id acts ++ act.publication?.toList := by
  have some : acts.dropWhile (· ≠ .subscribed id) ≠ [] := by
    intro none
    have gone := List.dropWhile_eq_nil_iff.mp none _ came
    simp at gone
  rw [publishedSince, List.dropWhile_append, if_neg, List.filterMap_append]
  · rfl
  · rw [List.isEmpty_iff]
    exact some

theorem publishedSince_entering (absent : .subscribed id ∉ acts) :
    publishedSince id (acts ++ [.subscribed id]) = [] := by
  have none : acts.dropWhile (· ≠ .subscribed id) = [] := by
    rw [List.dropWhile_eq_nil_iff]
    intro act member
    rw [decide_eq_true_eq]
    rintro rfl
    exact absent member
  rw [publishedSince, List.dropWhile_append_of_pos (List.dropWhile_eq_nil_iff.mp none),
    List.dropWhile_cons_of_neg (by simp)]
  rfl

end Trace

section Slots

variable (id : Nat) (change : Slot → Slot) (subscribers : List (Nat × Slot))

theorem changeSlot_ids : (changeSlot id change subscribers).map (·.1) = subscribers.map (·.1) := by
  rw [changeSlot, List.map_map]
  refine List.map_congr_left fun entry _ => ?_
  rw [Function.comp]
  split <;> rfl

theorem mem_changeSlot (other : Nat) (slot : Slot) :
    (other, slot) ∈ changeSlot id change subscribers ↔ ∃ before, (other, before) ∈ subscribers ∧
      slot = (if other = id then change before else before) := by
  rw [changeSlot, List.mem_map]
  constructor
  · rintro ⟨⟨key, before⟩, member, same⟩
    by_cases own : key = id
    · rw [if_pos own] at same
      cases same
      exact ⟨before, member, (if_pos own).symm⟩
    · rw [if_neg own] at same
      cases same
      exact ⟨_, member, (if_neg own).symm⟩
  · rintro ⟨before, member, rfl⟩
    refine ⟨(other, before), member, ?_⟩
    by_cases own : other = id
    · rw [if_pos own, if_pos own]
    · rw [if_neg own, if_neg own]

theorem slot_unique (distinct : (subscribers.map (·.1)).Nodup) (one other : Slot)
    (first : (id, one) ∈ subscribers) (second : (id, other) ∈ subscribers) : one = other := by
  have same := List.inj_on_of_nodup_map distinct first second rfl
  cases same
  rfl

theorem lookup_mem (slot : Slot) (found : subscribers.lookup id = some slot) :
    (id, slot) ∈ subscribers := by
  obtain ⟨before, after, split, -⟩ := List.lookup_eq_some_iff.mp found
  rw [split]
  exact List.mem_append_right _ List.mem_cons_self

end Slots

def mailbox? (id : Nat) (acts : List BusAct) : Option Slot :=
  Mailbox.run queueCapacity .resync Mailbox.empty (uses id acts)

/-- What a subscriber lost over the acts, gone or not. -/
def lost (id : Nat) (acts : List BusAct) : Nat := ((mailbox? id acts).map (·.dropped)).getD 0

structure BusKept (acts : List BusAct) (bus : BusState) : Prop where
  distinct : (bus.subscribers.map (·.1)).Nodup
  below : ∀ id ∈ bus.subscribers.map (·.1), id < bus.nextId
  came : ∀ id, .subscribed id ∈ acts ↔ id < bus.nextId
  unused : ∀ id, bus.nextId ≤ id → uses id acts = []
  slots : ∀ id slot, (id, slot) ∈ bus.subscribers → mailbox? id acts = some slot
  behind : ∀ change rest, bus.publishing = some (change, rest) →
    rest.Nodup ∧ (∀ id ∈ rest, id ∈ bus.subscribers.map (·.1)) ∧
      ∀ id ∈ bus.subscribers.map (·.1), Mailbox.puts (uses id acts) ++
        (if id ∈ rest then [change] else []) = publishedSince id acts
  reached : bus.publishing = none → ∀ id ∈ bus.subscribers.map (·.1),
    Mailbox.puts (uses id acts) = publishedSince id acts
  gone : bus.dropped = ∑ id ∈ (Finset.range bus.nextId).filter
    (· ∉ bus.subscribers.map (·.1)), lost id acts

theorem BusKept.new : BusKept [] BusState.new where
  distinct := List.nodup_nil
  below := fun _ none => absurd none List.not_mem_nil
  came := fun id => iff_of_false List.not_mem_nil (Nat.not_lt_zero id)
  unused := fun _ _ => rfl
  slots := fun _ _ none => absurd none List.not_mem_nil
  behind := fun _ _ none => by cases none
  reached := fun _ _ none => absurd none List.not_mem_nil
  gone := rfl

section Kept

variable (acts : List BusAct) (bus : BusState) (kept : BusKept acts bus)

theorem lost_silent (id : Nat) (act : BusAct) (silent : act.use? id = none) :
    lost id (acts ++ [act]) = lost id acts := by
  rw [lost, lost, mailbox?, mailbox?, uses_silent id acts act silent]

include kept

theorem BusKept.subscribed (free : bus.publishing = none) :
    BusKept (acts ++ [.subscribed bus.nextId]) bus.subscribe := by
  have silent (id : Nat) : uses id (acts ++ [.subscribed bus.nextId]) = uses id acts :=
    uses_silent id acts _ rfl
  have newcomer : bus.nextId ∉ bus.subscribers.map (·.1) := fun member =>
    Nat.lt_irrefl _ (kept.below _ member)
  have absent : .subscribed bus.nextId ∉ acts := fun came =>
    Nat.lt_irrefl _ ((kept.came bus.nextId).mp came)
  have ids : bus.subscribe.subscribers.map (·.1) = bus.subscribers.map (·.1) ++ [bus.nextId] := by
    rw [BusState.subscribe, List.map_append]
    rfl
  refine ⟨?_, ?_, ?_, ?_, ?_, ?_, ?_, ?_⟩
  · rw [ids, List.nodup_append]
    refine ⟨kept.distinct, List.nodup_singleton _, fun id member other last => ?_⟩
    rw [List.mem_singleton.mp last]
    rintro rfl
    exact newcomer member
  · rw [ids, List.forall_mem_append]
    refine ⟨fun id member => Nat.lt_succ_of_lt (kept.below id member), ?_⟩
    exact List.forall_mem_singleton.mpr (Nat.lt_succ_self _)
  · intro id
    rw [List.mem_append, kept.came, List.mem_singleton, BusAct.subscribed.injEq]
    exact Nat.lt_succ_iff_lt_or_eq.symm
  · intro id above
    rw [silent]
    exact kept.unused id (Nat.le_of_succ_le above)
  · intro id slot member
    rw [mailbox?, silent]
    rcases List.mem_append.mp member with old | new
    · exact kept.slots id slot old
    · cases List.mem_singleton.mp new
      rw [kept.unused bus.nextId (Nat.le_refl _)]
      rfl
  · intro change rest under
    rw [BusState.subscribe, free] at under
    cases under
  · intro _
    rw [ids, List.forall_mem_append]
    constructor
    · intro id member
      rw [silent, publishedSince_concat id acts _ ((kept.came id).mpr (kept.below id member)),
        kept.reached free id member]
      exact (List.append_nil _).symm
    · rw [List.forall_mem_singleton, silent, publishedSince_entering _ _ absent,
        kept.unused bus.nextId (Nat.le_refl _)]
      rfl
  · have same : (Finset.range bus.subscribe.nextId).filter
        (· ∉ bus.subscribe.subscribers.map (·.1)) =
          (Finset.range bus.nextId).filter (· ∉ bus.subscribers.map (·.1)) := by
      ext id
      rw [ids]
      simp only [BusState.subscribe, Finset.mem_filter, Finset.mem_range, List.mem_append,
        List.mem_singleton, not_or, Nat.lt_succ_iff_lt_or_eq]
      constructor
      · rintro ⟨below | rfl, out, other⟩
        · exact ⟨below, out⟩
        · exact absurd rfl other
      · rintro ⟨below, out⟩
        exact ⟨.inl below, out, Nat.ne_of_lt below⟩
    rw [same]
    refine kept.gone.trans (Finset.sum_congr rfl fun id _ => ?_)
    exact (lost_silent acts id _ rfl).symm

theorem BusKept.quiet (act : BusAct) (after : BusState) (silent : ∀ id, act.use? id = none)
    (stays : ∀ id, act ≠ .subscribed id) (ids : after.subscribers = bus.subscribers)
    (nextId : after.nextId = bus.nextId) (dropped : after.dropped = bus.dropped)
    (behind : ∀ change rest, after.publishing = some (change, rest) →
      rest.Nodup ∧ (∀ id ∈ rest, id ∈ after.subscribers.map (·.1)) ∧
        ∀ id ∈ after.subscribers.map (·.1), Mailbox.puts (uses id acts) ++
          (if id ∈ rest then [change] else []) = publishedSince id (acts ++ [act]))
    (reached : after.publishing = none → ∀ id ∈ after.subscribers.map (·.1),
      Mailbox.puts (uses id acts) = publishedSince id (acts ++ [act])) :
    BusKept (acts ++ [act]) after := by
  have same (id : Nat) : uses id (acts ++ [act]) = uses id acts :=
    uses_silent id acts act (silent id)
  refine ⟨ids ▸ kept.distinct, ?_, ?_, ?_, ?_, ?_, ?_, ?_⟩
  · rw [ids, nextId]
    exact kept.below
  · intro id
    rw [nextId, ← kept.came, List.mem_append, List.mem_singleton]
    exact or_iff_left (Ne.symm (stays id))
  · rw [nextId]
    exact fun id above => (same id).trans (kept.unused id above)
  · intro id slot member
    rw [mailbox?, same]
    exact kept.slots id slot (ids ▸ member)
  · intro change rest under
    simpa only [same] using behind change rest under
  · intro free
    simpa only [same] using reached free
  · rw [dropped, nextId, ids]
    exact kept.gone.trans (Finset.sum_congr rfl fun id _ => (lost_silent acts id act
      (silent id)).symm)

theorem BusKept.published (change : Change) (free : bus.publishing = none) :
    BusKept (acts ++ [.published change])
      { bus with publishing := some (change, bus.subscribers.map (·.1)) } := by
  refine kept.quiet acts bus (.published change) _ (fun _ => rfl)
    (fun _ => nofun) rfl rfl rfl ?_ nofun
  rintro _ _ ⟨⟩
  refine ⟨kept.distinct, fun id member => member, fun id member => ?_⟩
  rw [if_pos member, publishedSince_concat id acts _ ((kept.came id).mpr (kept.below id member)),
    kept.reached free id member]
  rfl

theorem BusKept.finished (change : Change) (under : bus.publishing = some (change, [])) :
    BusKept (acts ++ [.finished]) { bus with publishing := none } := by
  refine kept.quiet acts bus .finished _ (fun _ => rfl) (fun _ => nofun) rfl rfl rfl nofun ?_
  intro _ id member
  obtain ⟨-, -, all⟩ := kept.behind change [] under
  have said := all id member
  rw [if_neg List.not_mem_nil, List.append_nil] at said
  rw [publishedSince_concat id acts _ ((kept.came id).mpr (kept.below id member)), said]
  exact (List.append_nil _).symm

theorem BusKept.used (id : Nat) (act : BusAct) (use : Mailbox.Use Change) (change : Slot → Slot)
    (publishing : Option (Change × List Nat))
    (own : act.use? id = some use) (others : ∀ other, other ≠ id → act.use? other = none)
    (stays : ∀ other, act ≠ .subscribed other)
    (member : id ∈ bus.subscribers.map (·.1))
    (runs : ∀ slot, (id, slot) ∈ bus.subscribers →
      Mailbox.use queueCapacity .resync slot use = some (change slot))
    (behind : ∀ said rest, publishing = some (said, rest) →
      rest.Nodup ∧ (∀ id ∈ rest, id ∈ bus.subscribers.map (·.1)) ∧
        ∀ id ∈ bus.subscribers.map (·.1), Mailbox.puts (uses id (acts ++ [act])) ++
          (if id ∈ rest then [said] else []) = publishedSince id (acts ++ [act]))
    (reached : publishing = none → ∀ id ∈ bus.subscribers.map (·.1),
      Mailbox.puts (uses id (acts ++ [act])) = publishedSince id (acts ++ [act])) :
    BusKept (acts ++ [act]) { bus with
      subscribers := changeSlot id change bus.subscribers, publishing := publishing } := by
  have ids := changeSlot_ids id change bus.subscribers
  refine ⟨?_, ?_, ?_, ?_, ?_, ?_, ?_, ?_⟩
  · rw [ids]
    exact kept.distinct
  · rw [ids]
    exact kept.below
  · intro other
    rw [← kept.came, List.mem_append, List.mem_singleton]
    exact or_iff_left (Ne.symm (stays other))
  · intro other above
    rw [uses_silent other acts act (others other ?_), kept.unused other above]
    rintro rfl
    exact absurd (kept.below _ member) (Nat.not_lt_of_le above)
  · intro other slot entry
    obtain ⟨before, stood, rfl⟩ := (mem_changeSlot id change bus.subscribers other slot).mp entry
    have ran := kept.slots other before stood
    by_cases here : other = id
    · subst here
      rw [if_pos rfl, mailbox?, uses_concat, own]
      exact (Mailbox.run_append _ _ _ _ _ _).mpr ⟨before, ran, by
        rw [Option.toList_some, Mailbox.run, List.foldlM_cons, runs before stood]
        rfl⟩
    · rw [if_neg here, mailbox?, uses_silent other acts act (others other here)]
      exact ran
  · intro said rest under
    rw [ids]
    exact behind said rest under
  · rw [ids]
    exact reached
  · rw [ids]
    refine kept.gone.trans (Finset.sum_congr rfl fun other away => ?_)
    refine (lost_silent acts other act (others other ?_)).symm
    rintro rfl
    exact (Finset.mem_filter.mp away).2 member

theorem BusKept.pushed (id : Nat) (change : Change) (rest : List Nat)
    (under : bus.publishing = some (change, id :: rest)) :
    BusKept (acts ++ [.pushed id change]) { bus with
      subscribers := changeSlot id (·.push change) bus.subscribers
      publishing := some (change, rest) } := by
  obtain ⟨ordered, listed, all⟩ := kept.behind change (id :: rest) under
  obtain ⟨once, distinct⟩ := List.nodup_cons.mp ordered
  refine kept.used acts bus id _ (.put change) _ _ (if_pos rfl)
    (fun other apart => if_neg (Ne.symm apart)) (fun _ => nofun) (listed id List.mem_cons_self)
    (fun slot _ => rfl) ?_ nofun
  rintro _ _ ⟨⟩
  refine ⟨distinct, fun other member => listed other (List.mem_cons_of_mem id member), ?_⟩
  intro other member
  have said := all other member
  rw [publishedSince_concat other acts _ ((kept.came other).mpr (kept.below other member)), ← said,
    puts_concat]
  by_cases here : other = id
  · subst here
    rw [if_neg once, if_pos List.mem_cons_self, BusAct.use?, if_pos rfl]
    rfl
  · have same : other ∈ id :: rest ↔ other ∈ rest := by
      rw [List.mem_cons]
      exact or_iff_right here
    rw [BusAct.use?, if_neg (Ne.symm here), if_congr same rfl rfl]
    exact (congrArg (· ++ _) (List.append_nil _)).trans (List.append_nil _).symm

theorem BusKept.received (id : Nat) (change : Change) (slot after : Slot)
    (found : bus.slot? id = some slot) (taken : slot.take change = some after) :
    BusKept (acts ++ [.received id change]) { bus with
      subscribers := changeSlot id (fun _ => after) bus.subscribers } := by
  have entry := lookup_mem id bus.subscribers slot found
  have silent (other : Nat) : Mailbox.puts (uses other (acts ++ [.received id change])) =
      Mailbox.puts (uses other acts) := by
    rw [puts_concat, BusAct.use?]
    split <;> exact List.append_nil _
  have since (other : Nat) (member : other ∈ bus.subscribers.map (·.1)) :
      publishedSince other (acts ++ [.received id change]) = publishedSince other acts := by
    rw [publishedSince_concat other acts _ ((kept.came other).mpr (kept.below other member))]
    exact List.append_nil _
  refine kept.used acts bus id _ (.took change) _ bus.publishing (if_pos rfl)
    (fun other apart => if_neg (Ne.symm apart)) (fun _ => nofun) (List.mem_map_of_mem entry)
    (fun other stood => ?_) ?_ ?_
  · rw [slot_unique id bus.subscribers kept.distinct other slot stood entry]
    exact taken
  · intro said rest under
    obtain ⟨ordered, listed, all⟩ := kept.behind said rest under
    refine ⟨ordered, listed, fun other member => ?_⟩
    rw [silent, since other member]
    exact all other member
  · intro free other member
    rw [silent, since other member]
    exact kept.reached free other member

theorem BusKept.left (id : Nat) (free : bus.publishing = none) (slot : Slot)
    (found : bus.slot? id = some slot) : BusKept (acts ++ [.left id]) (bus.unsubscribe id) := by
  obtain ⟨front, back, split, out⟩ := List.lookup_eq_some_iff.mp found
  have unheld : ∀ entry ∈ front, ¬ (entry.1 == id) = true := fun entry member same =>
    bne_iff_ne.mp (out entry member) (beq_iff_eq.mp same).symm
  have searched : bus.subscribers.find? (·.1 == id) = some (id, slot) := by
    rw [split, List.find?_append, List.find?_eq_none.mpr unheld, Option.none_or,
      List.find?_cons_of_pos (p := fun entry : Nat × Slot => entry.1 == id) (beq_self_eq_true id)]
  have erased : bus.subscribers.eraseP (·.1 == id) = front ++ back := by
    rw [split, List.eraseP_append_right _ unheld,
      List.eraseP_cons_of_pos (p := fun entry : Nat × Slot => entry.1 == id) (beq_self_eq_true id)]
  have gone : bus.unsubscribe id =
      { bus with subscribers := front ++ back, dropped := bus.dropped + slot.dropped } := by
    rw [BusState.unsubscribe, searched, ← erased]
  have same (other : Nat) : uses other (acts ++ [.left id]) = uses other acts :=
    uses_silent other acts _ rfl
  have within : (front ++ back).Sublist bus.subscribers := by
    rw [split]
    exact (List.Sublist.refl front).append (List.sublist_cons_self _ back)
  have listed {other : Nat} (member : other ∈ (front ++ back).map (·.1)) :
      other ∈ bus.subscribers.map (·.1) := (within.map _).subset member
  have ids (other : Nat) : other ∈ bus.subscribers.map (·.1) ↔
      other = id ∨ other ∈ (front ++ back).map (·.1) := by
    rw [split]
    simp only [List.map_append, List.map_cons, List.mem_append, List.mem_cons]
    tauto
  have away : id ∉ (front ++ back).map (·.1) := by
    have distinct := kept.distinct
    rw [split, List.map_append, List.map_cons] at distinct
    rw [List.map_append]
    exact (List.nodup_cons.mp (List.nodup_middle.mp distinct)).1
  rw [gone]
  refine ⟨kept.distinct.sublist (within.map _), fun other member => kept.below other
    (listed member),
    ?_, fun other above => (same other).trans (kept.unused other above), ?_, ?_, ?_, ?_⟩
  · intro other
    rw [← kept.came, List.mem_append, List.mem_singleton]
    exact or_iff_left nofun
  · intro other held member
    rw [mailbox?, same]
    exact kept.slots other held (within.subset member)
  · intro change rest under
    change bus.publishing = some (change, rest) at under
    rw [free] at under
    cases under
  · intro _ other member
    rw [same, publishedSince_concat other acts _ ((kept.came other).mpr
      (kept.below other (listed member))), kept.reached free other (listed member)]
    exact (List.append_nil _).symm
  · have grown : (Finset.range bus.nextId).filter (· ∉ (front ++ back).map (·.1)) =
        insert id ((Finset.range bus.nextId).filter (· ∉ bus.subscribers.map (·.1))) := by
      ext other
      simp only [Finset.mem_filter, Finset.mem_range, Finset.mem_insert, ids other, not_or]
      constructor
      · rintro ⟨below, out⟩
        by_cases own : other = id
        · exact .inl own
        · exact .inr ⟨below, own, out⟩
      · rintro (rfl | ⟨below, -, out⟩)
        · exact ⟨kept.below other ((ids other).mpr (.inl rfl)), away⟩
        · exact ⟨below, out⟩
    have apart : id ∉ (Finset.range bus.nextId).filter (· ∉ bus.subscribers.map (·.1)) := by
      rw [Finset.mem_filter]
      exact fun both => both.2 ((ids id).mpr (.inl rfl))
    have own : lost id acts = slot.dropped := by
      rw [lost, kept.slots id slot (lookup_mem id bus.subscribers slot found)]
      rfl
    rw [grown, Finset.sum_congr rfl fun other _ => lost_silent acts other (.left id) rfl,
      Finset.sum_insert apart, own, ← kept.gone, Nat.add_comm]

theorem BusKept.act (after : BusState) (act : BusAct) (stepped : bus.act act = some after) :
    BusKept (acts ++ [act]) after := by
  cases act with
  | subscribed id =>
      rw [BusState.act, Option.ite_none_right_eq_some] at stepped
      obtain ⟨⟨free, rfl⟩, same⟩ := stepped
      cases same
      exact kept.subscribed acts bus free
  | left id =>
      rw [BusState.act, Option.ite_none_right_eq_some, Option.isSome_iff_exists] at stepped
      obtain ⟨⟨free, slot, found⟩, same⟩ := stepped
      cases same
      exact kept.left acts bus id free slot found
  | published change =>
      rw [BusState.act, Option.ite_none_right_eq_some] at stepped
      obtain ⟨free, same⟩ := stepped
      cases same
      exact kept.published acts bus change free
  | pushed id change =>
      rw [BusState.act] at stepped
      split at stepped
      · next said next rest under =>
          rw [Option.ite_none_right_eq_some] at stepped
          obtain ⟨⟨rfl, rfl⟩, same⟩ := stepped
          cases same
          exact kept.pushed acts bus next said rest under
      · cases stepped
  | finished =>
      rw [BusState.act] at stepped
      split at stepped
      · next change under =>
          cases stepped
          exact kept.finished acts bus change under
      · cases stepped
  | received id change =>
      rw [BusState.act, Option.map_eq_some_iff] at stepped
      obtain ⟨later, taken, rfl⟩ := stepped
      obtain ⟨slot, found, taken⟩ := Option.bind_eq_some_iff.mp taken
      exact kept.received acts bus id change slot later found taken

end Kept

theorem run_concat (bus after : BusState) (acts : List BusAct) (act : BusAct) :
    bus.run (acts ++ [act]) = some after ↔
      ∃ before, bus.run acts = some before ∧ before.act act = some after := by
  rw [BusState.run, List.foldlM_append, Option.bind_eq_bind, Option.bind_eq_some_iff]
  simp only [List.foldlM_cons, List.foldlM_nil, Option.bind_eq_bind, Option.pure_def,
    Option.bind_fun_some]
  rfl

theorem run_kept (acts : List BusAct) (bus : BusState) (ran : BusState.new.run acts = some bus) :
    BusKept acts bus := by
  induction acts using List.reverseRecOn generalizing bus with
  | nil =>
      cases ran
      exact BusKept.new
  | append_singleton earlier act further =>
      obtain ⟨before, ranBefore, stepped⟩ := (run_concat _ bus earlier act).mp ran
      exact (further before ranBefore).act earlier before bus act stepped

theorem act_held (before after : BusState) (act : BusAct) (id : Nat)
    (stepped : before.act act = some after) (old : id < before.nextId) :
    id < after.nextId ∧
      (id ∈ after.subscribers.map (·.1) → id ∈ before.subscribers.map (·.1)) := by
  cases act with
  | subscribed new =>
      rw [BusState.act, Option.ite_none_right_eq_some] at stepped
      obtain ⟨-, same⟩ := stepped
      cases same
      refine ⟨Nat.lt_succ_of_lt old, fun held => ?_⟩
      rw [BusState.subscribe, List.map_append, List.mem_append] at held
      refine held.resolve_right fun newcomer => ?_
      rw [List.mem_singleton.mp newcomer] at old
      exact Nat.lt_irrefl _ old
  | left gone =>
      rw [BusState.act, Option.ite_none_right_eq_some] at stepped
      obtain ⟨-, same⟩ := stepped
      cases same
      rw [BusState.unsubscribe]
      split
      · exact ⟨old, fun held => held⟩
      · exact ⟨old, fun held => (List.eraseP_sublist.map _).subset held⟩
  | published change =>
      rw [BusState.act, Option.ite_none_right_eq_some] at stepped
      obtain ⟨-, same⟩ := stepped
      cases same
      exact ⟨old, fun held => held⟩
  | pushed whom change =>
      rw [BusState.act] at stepped
      split at stepped
      · rw [Option.ite_none_right_eq_some] at stepped
        obtain ⟨-, same⟩ := stepped
        cases same
        exact ⟨old, fun held => (changeSlot_ids whom (·.push change) before.subscribers) ▸ held⟩
      · cases stepped
  | finished =>
      rw [BusState.act] at stepped
      split at stepped
      · cases stepped
        exact ⟨old, fun held => held⟩
      · cases stepped
  | received whom change =>
      rw [BusState.act, Option.map_eq_some_iff] at stepped
      obtain ⟨later, -, rfl⟩ := stepped
      exact ⟨old, fun held => (changeSlot_ids whom (fun _ => later) before.subscribers) ▸ held⟩

theorem run_held (bus final : BusState) (acts : List BusAct) (id : Nat)
    (ran : bus.run acts = some final) (old : id < bus.nextId)
    (held : id ∈ final.subscribers.map (·.1)) : id ∈ bus.subscribers.map (·.1) := by
  induction acts generalizing bus with
  | nil =>
      cases ran
      exact held
  | cons act rest further =>
      rw [BusState.run, List.foldlM_cons, Option.bind_eq_bind, Option.bind_eq_some_iff] at ran
      obtain ⟨next, stepped, later⟩ := ran
      obtain ⟨older, back⟩ := act_held bus next act id stepped old
      exact back (further next later older)

/-- What the feed owes a subscriber: what was published since it came, a resync standing for what a
full queue gave up. -/
structure Delivered (acts : List BusAct) (id : Nat) (slot : Slot) : Prop where
  stands : ∀ before change after, acts = before ++ .published change :: after →
    .subscribed id ∈ before →
      change ∈ received id after ++ slot.queue ∨ .resync ∈ received id after ++ slot.queue
  ordered : ((received id acts ++ slot.queue).filter (· ≠ .resync)).Sublist (publishedSince id acts)
  counted : (publishedSince id acts).length =
    (received id acts).length + slot.queue.length + slot.dropped
  bounded : slot.queue.length ≤ queueCapacity
  faithful : slot.dropped = 0 → received id acts ++ slot.queue = publishedSince id acts

section Delivery

variable (acts : List BusAct) (bus : BusState) (ran : BusState.new.run acts = some bus)
  (settled : bus.publishing = none) (id : Nat) (slot : Slot)
  (member : (id, slot) ∈ bus.subscribers)

include ran settled member

theorem published_put (before after : List BusAct) (change : Change)
    (split : acts = before ++ .published change :: after) (came : .subscribed id ∈ before) :
    ∃ earlier later, uses id after = earlier ++ .put change :: later := by
  obtain ⟨middle, ranBefore, ranAfter⟩ : ∃ middle, BusState.new.run before = some middle ∧
      middle.run (.published change :: after) = some bus := by
    rw [split, BusState.run, List.foldlM_append, Option.bind_eq_bind,
      Option.bind_eq_some_iff] at ran
    exact ran
  have keptBefore := run_kept before middle ranBefore
  have kept := run_kept acts bus ran
  have held : id ∈ middle.subscribers.map (·.1) := run_held middle bus _ id ranAfter
    ((keptBefore.came id).mp came) (List.mem_map_of_mem member)
  have free : middle.publishing = none := by
    rw [BusState.run, List.foldlM_cons, Option.bind_eq_bind, Option.bind_eq_some_iff] at ranAfter
    obtain ⟨next, stepped, -⟩ := ranAfter
    rw [BusState.act, Option.ite_none_right_eq_some] at stepped
    exact stepped.1
  have since : publishedSince id acts = publishedSince id before ++
      change :: after.filterMap BusAct.publication? := by
    have some : before.dropWhile (· ≠ .subscribed id) ≠ [] := by
      intro none
      have gone := List.dropWhile_eq_nil_iff.mp none _ came
      simp at gone
    rw [split, publishedSince, List.dropWhile_append, if_neg, List.filterMap_append]
    · rfl
    · rw [List.isEmpty_iff]
      exact some
  have parted : uses id acts = uses id before ++ uses id after := by
    rw [split, uses, List.filterMap_append]
    rfl
  have all := kept.reached settled id (List.mem_map_of_mem member)
  rw [since, parted, Mailbox.puts, List.filterMap_append, ← Mailbox.puts,
    keptBefore.reached free id held] at all
  obtain ⟨earlier, one, later, shape, -, put, -⟩ :=
    List.filterMap_eq_cons_iff.mp (List.append_cancel_left all)
  refine ⟨earlier, later, ?_⟩
  cases one with
  | put item =>
      cases put
      exact shape
  | took item => cases put

theorem delivered : Delivered acts id slot := by
  have kept := run_kept acts bus ran
  have runs : Mailbox.run queueCapacity .resync Mailbox.empty (uses id acts) = some slot :=
    kept.slots id slot member
  have since := kept.reached settled id (List.mem_map_of_mem member)
  refine ⟨?_, ?_, ?_, ?_, ?_⟩
  · intro before change after split came
    obtain ⟨earlier, later, shape⟩ :=
      published_put acts bus ran settled id slot member before after change split came
    have parted : uses id acts = uses id before ++ earlier ++ .put change :: later := by
      rw [split, uses, List.filterMap_append, List.append_assoc, ← shape]
      rfl
    rw [parted] at runs
    obtain ⟨box, -, ranLater⟩ := (Mailbox.run_append _ _ _ _ _ _).mp runs
    have stands := Mailbox.run_stands queueCapacity Change.resync box slot change later ranLater
    have taken : received id after = Mailbox.takes earlier ++ Mailbox.takes later := by
      rw [received, shape, Mailbox.takes, List.filterMap_append]
      rfl
    rw [taken, List.append_assoc]
    exact stands.imp (List.mem_append_right _) (List.mem_append_right _)
  · rw [← since]
    exact Mailbox.run_ordered queueCapacity Change.resync slot (uses id acts) runs
  · rw [← since]
    exact Mailbox.run_counted queueCapacity Change.resync slot (uses id acts) runs
  · exact Mailbox.run_bounded queueCapacity Change.resync (by decide) slot (uses id acts) runs
  · rw [← since]
    exact Mailbox.run_faithful queueCapacity Change.resync slot (uses id acts) (by decide) runs

end Delivery

theorem totalDropped_exact (acts : List BusAct) (bus : BusState) (kept : BusKept acts bus) :
    bus.totalDropped = ∑ id ∈ Finset.range bus.nextId, lost id acts := by
  have present : (Finset.range bus.nextId).filter (· ∈ bus.subscribers.map (·.1)) =
      (bus.subscribers.map (·.1)).toFinset := by
    ext id
    rw [Finset.mem_filter, Finset.mem_range, List.mem_toFinset]
    exact and_iff_right_of_imp (kept.below id)
  have losses : bus.subscribers.map (·.2.dropped) =
      (bus.subscribers.map (·.1)).map (lost · acts) := by
    rw [List.map_map]
    refine List.map_congr_left fun entry member => ?_
    rw [Function.comp, lost, kept.slots entry.1 entry.2 member]
    rfl
  rw [← Finset.sum_filter_add_sum_filter_not _ (· ∈ bus.subscribers.map (·.1)), present,
    ← kept.gone, BusState.totalDropped, losses, List.sum_toFinset _ kept.distinct, Nat.add_comm]

/-- Once no publication is under way, every subscriber got what was published since it came, waits
for it, or is told to start over; and the losses of the bus are those of all its subscribers. -/
theorem feed_delivers (acts : List BusAct) (bus : BusState)
    (ran : BusState.new.run acts = some bus) (settled : bus.publishing = none) :
    (∀ id slot, (id, slot) ∈ bus.subscribers → Delivered acts id slot) ∧
      bus.totalDropped = ∑ id ∈ Finset.range bus.nextId, lost id acts :=
  ⟨fun id slot member => delivered acts bus ran settled id slot member,
    totalDropped_exact acts bus (run_kept acts bus ran)⟩

/-- Two subscribers that fall behind: the first reads one change before its publication has reached
the other, both lose a full queue, and the second has left by the end. -/
def laggingActs : List BusAct :=
  [.subscribed 0, .subscribed 1, .published (.project "alpha"), .pushed 0 (.project "alpha"),
    .received 0 (.project "alpha"), .pushed 1 (.project "alpha"), .finished] ++
  (List.replicate 32 [.published .catalog, .pushed 0 .catalog, .pushed 1 .catalog,
    .finished]).flatten ++
  [.left 1, .published (.project "beta"), .pushed 0 (.project "beta"), .finished]

theorem feed_delivers_lagging : ∃ bus, BusState.new.run laggingActs = some bus ∧
    bus.subscribers = [(0, ⟨[.resync], 32⟩)] ∧ bus.totalDropped = 64 ∧
    (∀ id slot, (id, slot) ∈ bus.subscribers → Delivered laggingActs id slot) ∧
      bus.totalDropped = ∑ id ∈ Finset.range bus.nextId, lost id laggingActs := by
  have ran : BusState.new.run laggingActs = some ⟨2, [(0, ⟨[.resync], 32⟩)], 32, none⟩ := by
    decide +kernel
  exact ⟨_, ran, rfl, rfl, feed_delivers laggingActs _ ran rfl⟩

end Storyhook.Daemon
