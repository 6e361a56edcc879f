import Storyhook.Service.Automations

/-! Manual mode is quiet, and what was submitted before it is over with, whatever the threads do. -/

namespace Storyhook.Service

open Storyhook.Store
open Library

def ControlStage.shut : ControlStage → Bool
  | .closed | .refreshed | .persisted | .drained => true
  | _ => false

/-- Whether a call has read the setting and written nothing. -/
def ControlStage.reading : ControlStage → Bool
  | .read | .closed | .refreshed => true
  | _ => false

/-- Whether a call has turned automations off and not waited yet for those under way. -/
def ControlCall.draining (call : ControlCall) : Prop :=
  call.stage = .persisted ∧ call.wasEnabled = true ∧ call.effective = false

structure Bounded (boundary : Boundary) : Prop where
  counted : boundary.active = boundary.permits.length
  shut : ∀ call, boundary.control = some call → call.stage.shut = true → boundary.disabling = true
  known : ∀ call, boundary.control = some call → call.stage.reading = true →
    call.wasEnabled = boundary.store.enabled
  written : ∀ call, boundary.control = some call →
    call.stage = .persisted ∨ call.stage = .drained →
    boundary.store.enabled = (call.effective && call.wasEnabled)
  done : ∀ call, boundary.control = some call →
    call.stage = .finishing true ∨ call.stage = .leaving true →
    boundary.store.enabled = call.effective
  emptied : ∀ call, boundary.control = some call → call.stage = .drained → boundary.permits = []
  quiet : boundary.store.enabled = false → boundary.permits = [] ∨
    ∃ call, boundary.control = some call ∧ call.draining

theorem enabled_persisted (store : AutomationStore) (requested : Option Bool) :
    (store.persistSetting requested).enabled = requested.getD true := rfl

theorem enabled_retired (store : AutomationStore) : store.retire.enabled = store.enabled := rfl

theorem staged (boundary after : Boundary) (stage : ControlStage)
    (goes : ControlCall → Option Boundary)
    (acted : (match boundary.control with
      | some call => if call.stage = stage then goes call else none
      | none => none) = some after) :
    ∃ call, boundary.control = some call ∧ call.stage = stage ∧ goes call = some after := by
  cases calls : boundary.control with
  | none =>
      rw [calls] at acted
      cases acted
  | some call =>
      simp only [calls, Option.ite_none_right_eq_some] at acted
      exact ⟨call, rfl, acted⟩

section Acts

variable (boundary after : Boundary) (bounded : Bounded boundary)

include bounded

theorem enter_bounded : Bounded boundary.enter.2 := by
  rw [Boundary.enter]
  by_cases refused : (boundary.disabling || !boundary.store.enabled) = true
  · rw [if_pos refused]
    exact bounded
  · rw [if_neg refused]
    simp only [Bool.or_eq_true, Bool.not_eq_true', not_or, Bool.not_eq_true,
      Bool.not_eq_false] at refused
    obtain ⟨opened, enabled⟩ := refused
    refine ⟨?_, bounded.shut, bounded.known, bounded.written, bounded.done, ?_, ?_⟩
    · simp [bounded.counted]
    · intro call calls drained
      have shut := bounded.shut call calls (by rw [drained]; rfl)
      rw [opened] at shut
      cases shut
    · intro disabled
      rw [show boundary.store.enabled = false from disabled] at enabled
      cases enabled

theorem drop_bounded (permit : Nat) (held : permit ∈ boundary.permits) :
    Bounded { boundary with
      active := boundary.active - 1
      permits := boundary.permits.erase permit } where
  counted := by
    show boundary.active - 1 = (boundary.permits.erase permit).length
    rw [List.length_erase_of_mem held, bounded.counted]
  shut := bounded.shut
  known := bounded.known
  written := bounded.written
  done := bounded.done
  emptied call calls drained := by
    rw [bounded.emptied call calls drained] at held
    cases held
  quiet disabled := by
    rcases bounded.quiet disabled with none | draining
    · rw [none] at held
      cases held
    · exact Or.inr draining

theorem store_bounded (store : AutomationStore) (same : store.enabled = boundary.store.enabled) :
    Bounded { boundary with store := store } where
  counted := bounded.counted
  shut := bounded.shut
  known call calls reading := (bounded.known call calls reading).trans same.symm
  written call calls stage := same.trans (bounded.written call calls stage)
  done call calls stage := same.trans (bounded.done call calls stage)
  emptied := bounded.emptied
  quiet disabled := bounded.quiet (same ▸ disabled)

theorem call_bounded (next : ControlCall) (store : AutomationStore) (disabling : Bool)
    (shut : next.stage.shut = true → disabling = true)
    (known : next.stage.reading = true → next.wasEnabled = store.enabled)
    (written : next.stage = .persisted ∨ next.stage = .drained →
      store.enabled = (next.effective && next.wasEnabled))
    (done : next.stage = .finishing true ∨ next.stage = .leaving true →
      store.enabled = next.effective)
    (emptied : next.stage = .drained → boundary.permits = [])
    (quiet : store.enabled = false → boundary.permits = [] ∨ next.draining) :
    Bounded { boundary with store := store, disabling := disabling, control := some next } where
  counted := bounded.counted
  shut call calls := by
    cases calls
    exact shut
  known call calls := by
    cases calls
    exact known
  written call calls := by
    cases calls
    exact written
  done call calls := by
    cases calls
    exact done
  emptied call calls := by
    cases calls
    exact emptied
  quiet disabled := (quiet disabled).imp_right fun draining => ⟨next, rfl, draining⟩

theorem Bounded.still (call : ControlCall) (calls : boundary.control = some call)
    (stage : call.stage ≠ .persisted) (disabled : boundary.store.enabled = false) :
    boundary.permits = [] := by
  rcases bounded.quiet disabled with none | ⟨other, known, draining⟩
  · exact none
  · rw [calls] at known
    cases known
    exact absurd draining.1 stage

theorem refresh_bounded (call : ControlCall) (calls : boundary.control = some call)
    (stage : call.stage = .closed) (ok : Bool) (ran : boundary.refresh call ok = some after) :
    Bounded after := by
  have shut := bounded.shut call calls (by rw [stage]; rfl)
  have known := bounded.known call calls (by rw [stage]; rfl)
  have still := bounded.still boundary call calls (by rw [stage]; decide)
  unfold Boundary.refresh at ran
  split_ifs at ran with went effective
  · cases ran
    exact call_bounded boundary bounded { call with stage := .refreshed } boundary.store
      boundary.disabling (fun _ => shut) (fun _ => known) (by simp) (by simp) (by simp)
      (fun disabled => Or.inl (still disabled))
  · cases ran
    exact call_bounded boundary bounded { call with stage := .finishing false } boundary.store
      boundary.disabling (fun _ => shut) (by simp [ControlStage.reading]) (by simp) (by simp)
      (by simp)
      (fun disabled => Or.inl (still disabled))

theorem persist_bounded (call : ControlCall) (calls : boundary.control = some call)
    (stage : call.stage = .refreshed) (ok : Bool) (ran : boundary.persist call ok = some after) :
    Bounded after := by
  have shut := bounded.shut call calls (by rw [stage]; rfl)
  have known := bounded.known call calls (by rw [stage]; rfl)
  have still := bounded.still boundary call calls (by rw [stage]; decide)
  unfold Boundary.persist at ran
  split_ifs at ran with writes went went
  · cases ran
    refine call_bounded boundary bounded { call with stage := .persisted } _ boundary.disabling
      (fun _ => shut) (by simp [ControlStage.reading]) (fun _ => ?_) (by simp) (by simp) ?_
    · rw [enabled_persisted]
      show call.effective = (call.effective && call.wasEnabled)
      cases effective : call.effective with
      | false => rfl
      | true => simpa [effective] using writes
    · rw [enabled_persisted]
      intro disabled
      have manual : call.effective = false := disabled
      cases was : call.wasEnabled with
      | false => exact Or.inl (still (known.symm.trans was))
      | true => exact Or.inr ⟨rfl, rfl, manual⟩
  · cases ran
    exact call_bounded boundary bounded { call with stage := .finishing false } boundary.store
      boundary.disabling (fun _ => shut) (by simp [ControlStage.reading]) (by simp) (by simp)
      (by simp)
      (fun disabled => Or.inl (still disabled))
  · cases ran
    have was : call.wasEnabled = false := by
      cases was : call.wasEnabled with
      | false => rfl
      | true => simp [was] at writes
    refine call_bounded boundary bounded { call with stage := .persisted } boundary.store
      boundary.disabling (fun _ => shut) (by simp [ControlStage.reading]) (fun _ => ?_) (by simp)
      (by simp) (fun disabled => Or.inl (still disabled))
    rw [← known]
    show call.wasEnabled = (call.effective && call.wasEnabled)
    rw [was, Bool.and_false]

theorem drain_bounded (call : ControlCall) (calls : boundary.control = some call)
    (stage : call.stage = .persisted) (ran : boundary.drain call = some after) : Bounded after := by
  have shut := bounded.shut call calls (by rw [stage]; rfl)
  have written := bounded.written call calls (Or.inl stage)
  unfold Boundary.drain at ran
  split_ifs at ran with waits empty
  · cases ran
    have gone : boundary.permits = [] := List.length_eq_zero_iff.mp (bounded.counted ▸ empty)
    exact call_bounded boundary bounded { call with stage := .drained } boundary.store
      boundary.disabling (fun _ => shut) (by simp [ControlStage.reading]) (fun _ => written)
      (by simp) (fun _ => gone) (fun _ => Or.inl gone)
  · cases ran
    simp only [Bool.or_eq_true, Bool.not_eq_true', not_or, Bool.not_eq_false] at waits
    obtain ⟨effective, was⟩ := waits
    rw [effective, was] at written
    refine call_bounded boundary bounded { call with stage := .finishing true } boundary.store
      boundary.disabling (fun _ => shut) (by simp [ControlStage.reading]) (by simp)
      (fun _ => ?_) (by simp) (fun disabled => ?_)
    · exact written.trans effective.symm
    · rw [written] at disabled
      cases disabled

theorem retire_bounded (call : ControlCall) (calls : boundary.control = some call)
    (stage : call.stage = .drained) (ok : Bool) : Bounded (boundary.retire call ok) := by
  have shut := bounded.shut call calls (by rw [stage]; rfl)
  have written := bounded.written call calls (Or.inr stage)
  have gone := bounded.emptied call calls stage
  unfold Boundary.retire
  split_ifs with went effective
  · refine call_bounded boundary bounded { call with stage := .finishing true } _
      boundary.disabling (fun _ => shut) (by simp [ControlStage.reading]) (by simp)
      (fun _ => rfl) (by simp) (fun _ => Or.inl gone)
  · refine call_bounded boundary bounded { call with stage := .finishing true } _
      boundary.disabling (fun _ => shut) (by simp [ControlStage.reading]) (by simp)
      (fun _ => ?_) (by simp) (fun _ => Or.inl gone)
    rw [enabled_retired, written]
    show (call.effective && call.wasEnabled) = call.effective
    rw [Bool.eq_false_iff.mpr effective]
    rfl
  · exact call_bounded boundary bounded { call with stage := .finishing false } boundary.store
      boundary.disabling (fun _ => shut) (by simp [ControlStage.reading]) (by simp) (by simp)
      (by simp)
      (fun _ => Or.inl gone)

theorem begin_bounded (idle : boundary.control = none) (requested : Option Bool) :
    Bounded { boundary with control := some ⟨requested, true, .begun⟩ } := by
  refine call_bounded boundary bounded ⟨requested, true, .begun⟩ boundary.store
    boundary.disabling (by simp [ControlStage.shut]) (by simp [ControlStage.reading])
    (by simp) (by simp) (by simp) (fun disabled => Or.inl ?_)
  rcases bounded.quiet disabled with none | ⟨call, calls, -⟩
  · exact none
  · rw [idle] at calls
    cases calls

theorem read_bounded (call : ControlCall) (calls : boundary.control = some call)
    (stage : call.stage = .begun) :
    Bounded (boundary.moved { call with wasEnabled := boundary.store.enabled } .read) ∧
      Bounded (boundary.moved call (.finishing false)) := by
  have still := bounded.still boundary call calls (by rw [stage]; decide)
  constructor
  · exact call_bounded boundary bounded ⟨call.requested, boundary.store.enabled, .read⟩
      boundary.store boundary.disabling (by simp [ControlStage.shut]) (fun _ => rfl) (by simp)
      (by simp) (by simp) (fun disabled => Or.inl (still disabled))
  · exact call_bounded boundary bounded { call with stage := .finishing false } boundary.store
      boundary.disabling (by simp [ControlStage.shut]) (by simp [ControlStage.reading]) (by simp)
      (by simp) (by simp) (fun disabled => Or.inl (still disabled))

theorem close_bounded (call : ControlCall) (calls : boundary.control = some call)
    (stage : call.stage = .read) :
    Bounded { boundary.moved call .closed with disabling := true } := by
  have still := bounded.still boundary call calls (by rw [stage]; decide)
  have known := bounded.known call calls (by rw [stage]; rfl)
  exact call_bounded boundary bounded { call with stage := .closed } boundary.store true
    (fun _ => rfl) (fun _ => known) (by simp) (by simp) (by simp)
    (fun disabled => Or.inl (still disabled))

theorem reopen_bounded (requested : Option Bool) (wasEnabled ok : Bool)
    (calls : boundary.control = some ⟨requested, wasEnabled, .finishing ok⟩) :
    Bounded { boundary with
      disabling := false
      control := some ⟨requested, wasEnabled, .leaving ok⟩ } := by
  have still := bounded.still boundary _ calls (by simp)
  refine call_bounded boundary bounded ⟨requested, wasEnabled, .leaving ok⟩ boundary.store
    false (by simp [ControlStage.shut]) (by simp [ControlStage.reading]) (by simp)
    (fun finished => ?_) (by simp) (fun disabled => Or.inl (still disabled))
  refine bounded.done ⟨requested, wasEnabled, .finishing ok⟩ calls (Or.inl ?_)
  rcases finished with finished | finished
  · cases finished
  · cases finished
    rfl

theorem leave_bounded (call : ControlCall) (calls : boundary.control = some call)
    (stage : call.stage ≠ .persisted) : Bounded { boundary with control := none } where
  counted := bounded.counted
  shut _ idle := by cases idle
  known _ idle := by cases idle
  written _ idle := by cases idle
  done _ idle := by cases idle
  emptied _ idle := by cases idle
  quiet disabled := Or.inl (bounded.still boundary call calls stage disabled)

theorem act_bounded (action : BoundaryAct) (acted : boundary.act action = some after) :
    Bounded after := by
  cases action with
  | entered permit =>
      simp only [Boundary.act, Option.ite_none_right_eq_some, Option.some.injEq] at acted
      obtain ⟨-, rfl⟩ := acted
      exact enter_bounded boundary bounded
  | dropped permit =>
      simp only [Boundary.act, Option.ite_none_right_eq_some, Option.some.injEq] at acted
      obtain ⟨held, rfl⟩ := acted
      exact drop_bounded boundary bounded permit held
  | appended events =>
      cases acted
      exact store_bounded boundary bounded _ rfl
  | worked continuations deliveries runs =>
      cases acted
      exact store_bounded boundary bounded _ rfl
  | began requested =>
      simp only [Boundary.act] at acted
      split at acted
      · next idle =>
          cases acted
          exact begin_bounded boundary bounded idle requested
      · cases acted
  | read ok =>
      obtain ⟨call, calls, stage, goes⟩ := staged boundary after .begun _ acted
      obtain ⟨went, failed⟩ := read_bounded boundary bounded call calls stage
      split_ifs at goes
      · cases goes
        exact went
      · cases goes
        exact failed
  | closed =>
      obtain ⟨call, calls, stage, goes⟩ := staged boundary after .read _ acted
      cases goes
      exact close_bounded boundary bounded call calls stage
  | refreshed ok =>
      obtain ⟨call, calls, stage, goes⟩ := staged boundary after .closed _ acted
      exact refresh_bounded boundary after bounded call calls stage ok goes
  | persisted ok =>
      obtain ⟨call, calls, stage, goes⟩ := staged boundary after .refreshed _ acted
      exact persist_bounded boundary after bounded call calls stage ok goes
  | drained =>
      obtain ⟨call, calls, stage, goes⟩ := staged boundary after .persisted _ acted
      exact drain_bounded boundary after bounded call calls stage goes
  | retired ok =>
      obtain ⟨call, calls, stage, goes⟩ := staged boundary after .drained _ acted
      cases goes
      exact retire_bounded boundary bounded call calls stage ok
  | reopened =>
      simp only [Boundary.act] at acted
      split at acted
      · next requested wasEnabled ok calls =>
          cases acted
          exact reopen_bounded boundary bounded requested wasEnabled ok calls
      · cases acted
  | left =>
      simp only [Boundary.act] at acted
      split at acted
      · next requested wasEnabled ok calls =>
          cases acted
          exact leave_bounded boundary bounded _ calls (by simp)
      · cases acted

end Acts

/-- A daemon that has just started. -/
def Boundary.start (store : AutomationStore) : Boundary := ⟨store, 0, false, [], 0, none⟩

theorem start_bounded (store : AutomationStore) : Bounded (.start store) where
  counted := rfl
  shut call calls := by cases calls
  known call calls := by cases calls
  written call calls := by cases calls
  done call calls := by cases calls
  emptied call calls := by cases calls
  quiet _ := Or.inl rfl

theorem run_bounded (store : AutomationStore) (acts : List BoundaryAct) (final : Boundary)
    (ran : (Boundary.start store).run acts = some final) : Bounded final :=
  Runs.possible_invariant Boundary.act Bounded
    (fun before action after bounded acted => act_bounded before after bounded action acted)
    _ final acts (start_bounded store) ran

/-- A call writes the setting: at once, unless automations are being turned on again. -/
def Writes (boundary : Boundary) (action : BoundaryAct) (call : ControlCall) : Prop :=
  boundary.control = some call ∧
    (action = .persisted true ∧ (call.effective = false ∨ call.wasEnabled = true) ∨
      action = .retired true ∧ call.effective = true)

def AutomationStore.setting (store : AutomationStore) : Option Bool × Option Int :=
  (store.automationsEnabled, store.automationsAfter)

/-- What any act does to the setting, to the log and to the permits. -/
structure BoundaryMove (boundary after : Boundary) (action : BoundaryAct) : Prop where
  setting : after.store.setting = boundary.store.setting ∨ ∃ call, Writes boundary action call ∧
    after.store.setting = (boundary.store.persistSetting call.requested).setting
  log : boundary.store.nextGlobalSeq ≤ after.store.nextGlobalSeq
  permits : boundary.store.enabled = true ∨ after.permits ⊆ boundary.permits
  given : ∀ permit, action = .entered (some permit) → boundary.store.enabled = true

theorem moves_still (boundary after : Boundary) (action : BoundaryAct)
    (store : after.store = boundary.store) (permits : after.permits = boundary.permits)
    (other : ∀ permit, action ≠ .entered permit) : BoundaryMove boundary after action where
  setting := Or.inl (by rw [store])
  log := by rw [store]
  permits := Or.inr (by rw [permits]; exact List.Subset.refl _)
  given permit given := absurd given (other _)

section Inversion

variable (boundary after : Boundary) (call : ControlCall)

theorem refresh_moves (ok : Bool) (ran : boundary.refresh call ok = some after) :
    BoundaryMove boundary after (.refreshed ok) := by
  unfold Boundary.refresh at ran
  split_ifs at ran <;> cases ran <;> exact moves_still _ _ _ rfl rfl (by simp)

theorem persist_moves (calls : boundary.control = some call) (ok : Bool)
    (ran : boundary.persist call ok = some after) :
    BoundaryMove boundary after (.persisted ok) := by
  unfold Boundary.persist at ran
  split_ifs at ran with writes went went
  · cases ran
    subst went
    rw [Bool.or_eq_true, Bool.not_eq_true'] at writes
    exact ⟨Or.inr ⟨call, ⟨calls, Or.inl ⟨rfl, writes⟩⟩, rfl⟩, le_refl _,
      Or.inr (List.Subset.refl _), by simp⟩
  · cases ran
    exact moves_still _ _ _ rfl rfl (by simp)
  · cases ran
    exact moves_still _ _ _ rfl rfl (by simp)

theorem drain_moves (ran : boundary.drain call = some after) :
    BoundaryMove boundary after .drained := by
  unfold Boundary.drain at ran
  split_ifs at ran <;> cases ran <;> exact moves_still _ _ _ rfl rfl (by simp)

theorem retire_moves (calls : boundary.control = some call) (ok : Bool) :
    BoundaryMove boundary (boundary.retire call ok) (.retired ok) := by
  unfold Boundary.retire
  split_ifs with went effective
  · subst went
    exact ⟨Or.inr ⟨call, ⟨calls, Or.inr ⟨rfl, effective⟩⟩, rfl⟩, le_refl _,
      Or.inr (List.Subset.refl _), by simp⟩
  · exact ⟨Or.inl rfl, le_refl _, Or.inr (List.Subset.refl _), by simp⟩
  · exact moves_still _ _ _ rfl rfl (by simp)

theorem act_moves (action : BoundaryAct) (acted : boundary.act action = some after) :
    BoundaryMove boundary after action := by
  cases action with
  | entered permit =>
      simp only [Boundary.act, Option.ite_none_right_eq_some, Option.some.injEq] at acted
      obtain ⟨answer, rfl⟩ := acted
      unfold Boundary.enter at answer ⊢
      split_ifs at answer ⊢ with refused
      · cases answer
        exact ⟨Or.inl rfl, le_refl _, Or.inr (List.Subset.refl _), by simp⟩
      · simp only [Bool.or_eq_true, Bool.not_eq_true', not_or, Bool.not_eq_false] at refused
        exact ⟨Or.inl rfl, le_refl _, Or.inl refused.2, fun _ _ => refused.2⟩
  | dropped permit =>
      simp only [Boundary.act, Option.ite_none_right_eq_some, Option.some.injEq] at acted
      obtain ⟨-, rfl⟩ := acted
      exact ⟨Or.inl rfl, le_refl _, Or.inr List.erase_subset, by simp⟩
  | appended events =>
      cases acted
      refine ⟨Or.inl rfl, ?_, Or.inr (List.Subset.refl _), by simp⟩
      show boundary.store.nextGlobalSeq ≤ boundary.store.nextGlobalSeq + events
      omega
  | worked continuations deliveries runs =>
      cases acted
      exact ⟨Or.inl rfl, le_refl _, Or.inr (List.Subset.refl _), by simp⟩
  | began requested =>
      simp only [Boundary.act] at acted
      split at acted <;> cases acted
      exact moves_still _ _ _ rfl rfl (by simp)
  | read ok =>
      obtain ⟨call, -, -, goes⟩ := staged boundary after .begun _ acted
      split_ifs at goes <;> cases goes <;> exact moves_still _ _ _ rfl rfl (by simp)
  | closed =>
      obtain ⟨call, -, -, goes⟩ := staged boundary after .read _ acted
      cases goes
      exact moves_still _ _ _ rfl rfl (by simp)
  | refreshed ok =>
      obtain ⟨call, -, -, goes⟩ := staged boundary after .closed _ acted
      exact refresh_moves boundary after call ok goes
  | persisted ok =>
      obtain ⟨call, calls, -, goes⟩ := staged boundary after .refreshed _ acted
      exact persist_moves boundary after call calls ok goes
  | drained =>
      obtain ⟨call, -, -, goes⟩ := staged boundary after .persisted _ acted
      exact drain_moves boundary after call goes
  | retired ok =>
      obtain ⟨call, calls, -, goes⟩ := staged boundary after .drained _ acted
      cases goes
      exact retire_moves boundary call calls ok
  | reopened =>
      simp only [Boundary.act] at acted
      split at acted <;> cases acted
      exact moves_still _ _ _ rfl rfl (by simp)
  | left =>
      simp only [Boundary.act] at acted
      split at acted <;> cases acted
      exact moves_still _ _ _ rfl rfl (by simp)

end Inversion

theorem enabled_setting (store other : AutomationStore) (same : store.setting = other.setting) :
    store.enabled = other.enabled := by
  rw [AutomationStore.setting, AutomationStore.setting, Prod.mk.injEq] at same
  rw [AutomationStore.enabled, same.1, AutomationStore.enabled]

theorem off_stays (boundary after : Boundary) (action : BoundaryAct)
    (acted : boundary.act action = some after) (disabled : boundary.store.enabled = false)
    (empty : boundary.permits = [])
    (off : ∀ call, Writes boundary action call → call.effective = false) :
    after.store.enabled = false ∧ after.permits = [] ∧
      ∀ permit, action ≠ .entered (some permit) := by
  have moves := act_moves boundary after action acted
  refine ⟨?_, ?_, fun permit given => ?_⟩
  · rcases moves.setting with same | ⟨call, writes, wrote⟩
    · exact (enabled_setting _ _ same).trans disabled
    · exact (enabled_setting _ _ wrote).trans (off call writes)
  · rcases moves.permits with enabled | fewer
    · rw [disabled] at enabled
      cases enabled
    · rw [empty] at fewer
      exact List.subset_nil.mp fewer
  · have enabled := moves.given permit given
    rw [disabled] at enabled
    cases enabled

/-- When a call that turns automations off returns, they are off, no admitted operation is left
under way, and none is admitted again until a call that turns them on has written so. -/
theorem manual_quiescent (store : AutomationStore) (before later : List BoundaryAct)
    (middle final : Boundary) (call : ControlCall)
    (reached : (Boundary.start store).run before = some middle)
    (returns : middle.control = some call) (done : call.stage = .leaving true)
    (manual : call.effective = false) (ran : middle.run later = some final)
    (off : ∀ earlier action rest state other, later = earlier ++ action :: rest →
      middle.run earlier = some state → Writes state action other → other.effective = false) :
    final.store.enabled = false ∧ final.permits = [] ∧
      ∀ permit, BoundaryAct.entered (some permit) ∉ later := by
  have bounded := run_bounded store before middle reached
  have disabled : middle.store.enabled = false :=
    (bounded.done call returns (Or.inr done)).trans manual
  have empty := bounded.still middle call returns (by rw [done]; decide) disabled
  clear bounded reached returns
  induction later generalizing middle with
  | nil =>
      cases ran
      exact ⟨disabled, empty, by simp⟩
  | cons action rest further =>
      obtain ⟨next, acted, runs⟩ :=
        (Runs.possible_cons Boundary.act middle final action rest).mp ran
      obtain ⟨stays, none, refused⟩ := off_stays middle next action acted disabled empty
        fun other writes => off [] action rest middle other rfl rfl writes
      obtain ⟨last, gone, later⟩ := further next runs
        (fun earlier act others state other split ran writes =>
          off (action :: earlier) act others state other (by rw [split]; rfl)
            ((Runs.possible_cons Boundary.act middle state action earlier).mpr ⟨next, acted, ran⟩)
            writes) stays none
      refine ⟨last, gone, fun permit member => ?_⟩
      rcases List.mem_cons.mp member with here | inside
      · exact refused permit here.symm
      · exact later permit inside

/-- One event, one submission and one run, with automations on by default. -/
def busyStore : AutomationStore := ⟨none, none, 3, [.attempting], [.pending], [.running]⟩

/-- An operation is admitted while automations are being turned off. -/
def turnedOff : List BoundaryAct :=
  [.began (some false), .read true, .entered (some 0), .closed, .entered none, .refreshed true,
    .persisted true, .dropped 0, .drained, .retired true, .reopened]

def quieted (after nextGlobalSeq : Int) (control : Option ControlCall) : Boundary :=
  ⟨⟨some false, some after, nextGlobalSeq, [.superseded], [.superseded], [.paused]⟩, 0,
    false, [], 1,
    control⟩

theorem manual_quiescent_worked :
    (quieted 2 5 none).store.enabled = false ∧ (quieted 2 5 none).permits = [] ∧
      ∀ permit, BoundaryAct.entered (some permit) ∉
        [BoundaryAct.entered none, .left, .appended 2, .entered none] := by
  refine manual_quiescent busyStore turnedOff [.entered none, .left, .appended 2, .entered none]
    (quieted 2 3 (some ⟨some false, true, .leaving true⟩)) (quieted 2 5 none)
    ⟨some false, true, .leaving true⟩ (by decide +kernel) rfl rfl rfl (by decide +kernel) ?_
  intro earlier action rest state other split _ writes
  have member : action ∈ [BoundaryAct.entered none, .left, .appended 2, .entered none] := by
    rw [split]
    simp
  obtain ⟨-, ⟨rfl, -⟩ | ⟨rfl, -⟩⟩ := writes <;> simp at member

/-- The setting was last changed before anything the log is still to hold. -/
def Dated (boundary : Boundary) : Prop :=
  ∀ after, boundary.store.automationsAfter = some after → after < boundary.store.nextGlobalSeq

theorem act_dated (boundary next : Boundary) (action : BoundaryAct)
    (acted : boundary.act action = some next) (dated : Dated boundary) : Dated next := by
  have moves := act_moves boundary next action acted
  have log := moves.log
  intro after dates
  rcases moves.setting with same | ⟨call, -, wrote⟩
  · rw [AutomationStore.setting, AutomationStore.setting, Prod.mk.injEq] at same
    have earlier := dated after (same.2.symm.trans dates)
    omega
  · rw [AutomationStore.setting, AutomationStore.setting, Prod.mk.injEq] at wrote
    rw [wrote.2, AutomationStore.persistSetting] at dates
    split_ifs at dates with changed
    · cases dates
      omega
    · have earlier := dated after dates
      omega

theorem permits_iff (store : AutomationStore) (generation : Int) :
    store.permitsGeneration (some generation) = true ↔ store.enabled = true ∧
      ∀ after, store.automationsAfter = some after → after < generation := by
  rw [AutomationStore.permitsGeneration, Bool.and_eq_true]
  cases store.automationsAfter with
  | none => simp
  | some after => simp

theorem act_permits (boundary next : Boundary) (action : BoundaryAct) (generation : Int)
    (acted : boundary.act action = some next) (logged : generation < boundary.store.nextGlobalSeq) :
    next.store.permitsGeneration (some generation) = true ↔
      boundary.store.permitsGeneration (some generation) = true ∧ next.store.enabled = true := by
  have moves := act_moves boundary next action acted
  rw [permits_iff, permits_iff]
  rcases moves.setting with same | ⟨call, -, wrote⟩
  · rw [enabled_setting _ _ same]
    rw [AutomationStore.setting, AutomationStore.setting, Prod.mk.injEq] at same
    rw [same.2]
    tauto
  · rw [enabled_setting _ _ wrote, enabled_persisted]
    rw [AutomationStore.setting, AutomationStore.setting, Prod.mk.injEq] at wrote
    rw [wrote.2, AutomationStore.persistSetting]
    simp only
    split_ifs with changed
    · constructor
      · rintro ⟨-, before⟩
        have early := before _ rfl
        omega
      · rintro ⟨⟨was, -⟩, is⟩
        exact absurd (was.trans is.symm) changed
    · rw [not_not.mp changed]
      tauto

theorem run_logged (start final : Boundary) (acts : List BoundaryAct) (generation : Int)
    (logged : generation < start.store.nextGlobalSeq) (ran : start.run acts = some final) :
    generation < final.store.nextGlobalSeq :=
  Runs.possible_invariant Boundary.act (fun state => generation < state.store.nextGlobalSeq)
    (fun before action after held acted =>
      Int.lt_of_lt_of_le held (act_moves before after action acted).log)
    start final acts logged ran

theorem run_permits (start final : Boundary) (acts : List BoundaryAct) (generation : Int)
    (logged : generation < start.store.nextGlobalSeq)
    (initial : start.store.permitsGeneration (some generation) = true ↔
      start.store.enabled = true)
    (ran : start.run acts = some final) :
    final.store.permitsGeneration (some generation) = true ↔
      ∀ earlier state, earlier <+: acts → start.run earlier = some state →
        state.store.enabled = true := by
  induction acts using List.reverseRecOn generalizing final with
  | nil =>
      cases ran
      rw [initial]
      constructor
      · intro enabled earlier state before ran
        rw [List.prefix_nil] at before
        subst before
        cases ran
        exact enabled
      · intro enabled
        exact enabled [] start (List.prefix_refl []) rfl
  | append_singleton acts last further =>
      obtain ⟨middle, runs, acted⟩ :=
        (Runs.possible_concat Boundary.act start final acts last).mp ran
      rw [act_permits middle final last generation acted
        (run_logged start middle acts generation logged runs), further middle runs]
      constructor
      · intro ⟨enabled, now⟩ earlier state before ended
        rcases List.prefix_concat_iff.mp before with whole | before
        · subst whole
          rw [ran, Option.some.injEq] at ended
          rw [← ended]
          exact now
        · exact enabled earlier state before ended
      · intro enabled
        refine ⟨fun earlier state before ended => ?_, ?_⟩
        · exact enabled earlier state (before.trans (List.prefix_append acts [last])) ended
        · exact enabled (acts ++ [last]) final (List.prefix_refl _) ran

/-- A submission is permitted exactly while automations have been on ever since it was logged:
whatever was logged before they last changed is over with. -/
theorem generation_permitted_iff (store : AutomationStore) (before later : List BoundaryAct)
    (middle final : Boundary) (events : Nat) (generation : Int)
    (dated : Dated (.start store))
    (reached : (Boundary.start store).run before = some middle)
    (logged : middle.store.nextGlobalSeq ≤ generation ∧
      generation < middle.store.nextGlobalSeq + events)
    (ran : middle.run (.appended events :: later) = some final) :
    final.store.permitsGeneration (some generation) = true ↔
      ∀ earlier state, earlier <+: later → middle.run (.appended events :: earlier) = some state →
        state.store.enabled = true := by
  have dated : Dated middle := Runs.possible_invariant Boundary.act Dated
    (fun state action next dated acted => act_dated state next action acted dated)
    _ middle before dated reached
  refine run_permits { middle with store := { middle.store with
    nextGlobalSeq := middle.store.nextGlobalSeq + events } } final later generation logged.2 ?_ ran
  rw [permits_iff]
  -- the change before it was dated by an event before it
  have older : ∀ after, middle.store.automationsAfter = some after → after < generation :=
    fun after dates => Int.lt_of_lt_of_le (dated after dates) logged.1
  exact ⟨fun permitted => permitted.1, fun enabled => ⟨enabled, older⟩⟩

/-- What was submitted first is over with once automations have been off, though on again. -/
def turnedOn : List BoundaryAct :=
  turnedOff ++ [.left, .began none, .read true, .closed, .refreshed true, .persisted true,
    .drained, .retired true]

def resumed (after nextGlobalSeq : Int) (permit : Nat) : Boundary :=
  ⟨⟨none, some after, nextGlobalSeq, [.superseded], [.superseded], [.paused]⟩, 0, true, [], permit,
    some ⟨none, false, .finishing true⟩⟩

theorem generation_permitted_iff_over :
    (resumed 3 4 1).store.enabled = true ∧
      (resumed 3 4 1).store.permitsGeneration (some 3) = false := by
  refine ⟨rfl, Bool.eq_false_iff.mpr fun permitted => ?_⟩
  have always := (generation_permitted_iff busyStore [] turnedOn (.start busyStore) (resumed 3 4 1)
    1 3 (by simp [Dated, busyStore, Boundary.start]) rfl (by decide) (by decide +kernel)).mp
      permitted
  have enabled := always turnedOff (quieted 3 4 (some ⟨some false, true, .leaving true⟩))
    (List.prefix_append _ _) (by decide +kernel)
  cases enabled

/-- Nothing is under way in the store but runs that wait to be resumed. -/
structure AutomationStore.Settled (store : AutomationStore) : Prop where
  continuations : ∀ status ∈ store.continuations, status.outstanding = false
  deliveries : ∀ status ∈ store.deliveries, status ≠ .pending ∧ status ≠ .attempting
  runs : ∀ state ∈ store.runs, state.isLive = true → state = .paused

theorem retire_settled (store : AutomationStore) : store.retire.Settled where
  continuations status member := by
    obtain ⟨was, -, rfl⟩ := List.mem_map.mp member
    split_ifs with outstanding
    · rfl
    · exact Bool.eq_false_iff.mpr outstanding
  deliveries status member := by
    obtain ⟨was, -, rfl⟩ := List.mem_map.mp member
    split_ifs with undone
    · decide
    · exact not_or.mp undone
  runs state member live := by
    obtain ⟨was, -, rfl⟩ := List.mem_map.mp member
    split_ifs at live ⊢ with lived
    · rfl
    · exact absurd live lived

/-- The act that turns automations on finds none admitted and leaves nothing of what they had
under way, however an earlier call that turned them off was interrupted. -/
theorem enabling_settles (store : AutomationStore) (acts : List BoundaryAct)
    (middle after : Boundary) (action : BoundaryAct)
    (reached : (Boundary.start store).run acts = some middle)
    (acted : middle.act action = some after)
    (manual : middle.store.enabled = false) (automatic : after.store.enabled = true) :
    after.permits = [] ∧ after.store.Settled := by
  have bounded := run_bounded store acts middle reached
  rcases (act_moves middle after action acted).setting with same | ⟨call, ⟨calls, how⟩, wrote⟩
  · rw [enabled_setting _ _ same, manual] at automatic
    cases automatic
  have effective : call.effective = true := by
    rw [enabled_setting _ _ wrote, enabled_persisted] at automatic
    exact automatic
  rcases how with ⟨rfl, how⟩ | ⟨rfl, -⟩
  · -- a call that read them as off does not turn them on before it has waited
    simp only [Boundary.act, calls, Option.ite_none_right_eq_some] at acted
    have known := bounded.known call calls (by rw [acted.1]; rfl)
    rw [effective, known, manual] at how
    simp at how
  · simp only [Boundary.act, calls, Option.ite_none_right_eq_some, Option.some.injEq] at acted
    obtain ⟨drained, rfl⟩ := acted
    have settled := retire_settled middle.store
    simp only [Boundary.retire, if_true, if_pos effective]
    exact ⟨bounded.emptied call calls drained, settled.continuations, settled.deliveries,
      settled.runs⟩

theorem enabling_settles_again : (resumed 2 3 0).permits = [] ∧ (resumed 2 3 0).store.Settled :=
  enabling_settles { busyStore with automationsEnabled := some false }
    [.began none, .read true, .closed, .refreshed true, .persisted true, .drained]
    ⟨⟨some false, none, 3, [.attempting], [.pending], [.running]⟩, 0, true, [], 0,
      some ⟨none, false, .drained⟩⟩ (resumed 2 3 0) (.retired true) (by decide +kernel)
    (by decide +kernel) rfl rfl

end Storyhook.Service
