import Storyhook.Daemon.BusRuns
import Storyhook.Daemon.Watch

/-! Whatever moves in the store is told to the subscribers that do not know it yet. -/

namespace Storyhook.Daemon

open Storyhook.Library

variable {Run : Type}

theorem mem_slugSet (slugs : List String) (slug : String) :
    slug ∈ slugSet slugs ↔ slug ∈ slugs := by
  rw [slugSet, List.mem_mergeSort, List.mem_dedup]

theorem lookup_mem_seqs (seqs : List (String × Int)) (slug : String) (seq : Int)
    (found : seqs.lookup slug = some seq) : (slug, seq) ∈ seqs := by
  obtain ⟨front, back, rfl, -⟩ := List.lookup_eq_some_iff.mp found
  exact List.mem_append_right _ List.mem_cons_self

theorem onBus_append (acts more : List (WatchAct Run)) :
    onBus (acts ++ more) = onBus acts ++ onBus more :=
  List.filterMap_append

def Publishes (wanted : Change → Prop) (acts : List (WatchAct Run)) : Prop :=
  ∃ change, wanted change ∧ .published change ∈ onBus acts

theorem publishes_cons (wanted : Change → Prop) (act : WatchAct Run) (rest : List (WatchAct Run)) :
    Publishes wanted (act :: rest) ↔ Publishes wanted [act] ∨ Publishes wanted rest := by
  have split : onBus (act :: rest) = onBus [act] ++ onBus rest := onBus_append [act] rest
  simp only [Publishes, split, List.mem_append, and_or_left, exists_or]

def Noticing.read? : Noticing Run → Option (Nat × Snapshot Run)
  | .seen token fresh => some (token, fresh)
  | .telling token fresh _ => some (token, fresh)
  | _ => none

/-- The snapshot is not older than the token that was read before it. -/
def Known (state : WatchState Run) (token : Nat) (snapshot : Snapshot Run) : Prop :=
  token ≤ state.token ∧ (token = state.token → snapshot = state.snapshot)

variable (held : Snapshot Run → Prop)

/-- A watcher that has seen nothing but what the store has held, and no more than its token says. -/
structure Lagging (state : WatchState Run) : Prop where
  stored : held state.snapshot
  behind : held state.baseline.snapshot
  between : ∀ token fresh, state.noticing.read? = some (token, fresh) → held fresh
  known : ∀ token ∈ state.baseline.token, Known state token state.baseline.snapshot
  read : ∀ token fresh, state.noticing.read? = some (token, fresh) → Known state token fresh
  asked : ∀ token, state.noticing = .asked token → token ≤ state.token

section Laggings

variable (state : WatchState Run)

theorem Lagging.commit (lagging : Lagging held state) (next : Snapshot Run) (kept : held next) :
    Lagging held { state with token := state.token + 1, snapshot := next } where
  stored := kept
  behind := lagging.behind
  between := lagging.between
  known := fun token held =>
    ⟨Nat.le_succ_of_le (lagging.known token held).1, fun same =>
      absurd (same ▸ (lagging.known token held).1) (Nat.not_succ_le_self _)⟩
  read := fun token fresh read =>
    ⟨Nat.le_succ_of_le (lagging.read token fresh read).1, fun same =>
      absurd (same ▸ (lagging.read token fresh read).1) (Nat.not_succ_le_self _)⟩
  asked := fun token asked => Nat.le_succ_of_le (lagging.asked token asked)

theorem Lagging.settled (lagging : Lagging held state) (token : Nat) (fresh : Snapshot Run)
    (read : state.noticing.read? = some (token, fresh)) :
    Lagging held { state with baseline := ⟨some token, fresh⟩, noticing := .idle } where
  stored := lagging.stored
  behind := lagging.between token fresh read
  between := fun _ _ none => by cases none
  known := fun other held => Option.some.inj held ▸ lagging.read token fresh read
  read := fun _ _ none => by cases none
  asked := fun _ none => by cases none

theorem Lagging.reading (lagging : Lagging held state) (token : Nat) (fresh : Snapshot Run)
    (read : state.noticing.read? = some (token, fresh)) (bus : BusState) (todo : List Change) :
    Lagging held { state with noticing := .telling token fresh todo, bus := bus } where
  stored := lagging.stored
  behind := lagging.behind
  between := fun _ _ same => by
    cases same
    exact lagging.between token fresh read
  known := lagging.known
  read := fun _ _ same => by
    cases same
    exact lagging.read token fresh read
  asked := fun _ none => by cases none

end Laggings

theorem Lagging.new (token : Nat) (snapshot : Snapshot Run) (readable : Bool)
    (blank : held Snapshot.empty) (stored : held snapshot) :
    Lagging held (WatchState.new token snapshot readable) := by
  cases readable with
  | true =>
      refine ⟨stored, stored, fun _ _ none => (by cases none), ?_, fun _ _ none => (by cases none),
        fun _ none => by cases none⟩
      intro other same
      cases same
      exact ⟨Nat.le_refl _, fun _ => rfl⟩
  | false =>
      exact ⟨stored, blank, fun _ _ none => (by cases none), fun _ none => (by cases none),
        fun _ _ none => (by cases none), fun _ none => by cases none⟩

variable [DecidableEq Run]

theorem project_told (projectSlug : Run → String) (previous fresh : Snapshot Run) (slug : String)
    (seq : Int) (found : fresh.seq slug = some seq) (differs : previous.seq slug ≠ some seq) :
    .project slug ∈ changesBetween projectSlug previous fresh := by
  have moved : slug ∈ movedProjects previous fresh := by
    refine List.mem_map.mpr ⟨(slug, seq), List.mem_filter.mpr
      ⟨lookup_mem_seqs _ _ _ found, decide_eq_true fun same => ?_⟩, rfl⟩
    exact differs same
  have told : .project slug ∈ attributed projectSlug previous fresh :=
    List.mem_append_left _
      (List.mem_map_of_mem ((mem_slugSet _ _).mpr (List.mem_append_left _ moved)))
  rw [changesBetween, if_neg (List.ne_nil_of_mem told)]
  exact told

theorem changesBetween_filled (projectSlug : Run → String) (previous fresh : Snapshot Run) :
    changesBetween projectSlug previous fresh ≠ [] := by
  rw [changesBetween]
  split_ifs with none
  · exact List.cons_ne_nil _ _
  · exact none

inductive WatchStep (projectSlug : Run → String) (state : WatchState Run) :
    WatchAct Run → WatchState Run → Prop
  | commit (next : Snapshot Run) : WatchStep projectSlug state (.commit next)
      { state with token := state.token + 1, snapshot := next }
  | unmoved : WatchStep projectSlug state .ask state
  | asked : WatchStep projectSlug state .ask { state with noticing := .asked state.token }
  | looked (token : Nat) (asked : state.noticing = .asked token) :
      WatchStep projectSlug state .look { state with noticing := .seen token state.snapshot }
  | failed : WatchStep projectSlug state .lookFailed { state with noticing := .idle }
  | unheard (token : Nat) (fresh : Snapshot Run) (seen : state.noticing = .seen token fresh)
      (alone : state.bus.subscribers = []) : WatchStep projectSlug state .count
        { state with baseline := ⟨some token, fresh⟩, noticing := .idle }
  | counted (token : Nat) (fresh : Snapshot Run) (seen : state.noticing = .seen token fresh) :
      WatchStep projectSlug state .count
        { state with
          noticing :=
            .telling token fresh (changesBetween projectSlug state.baseline.snapshot fresh) }
  | told (token : Nat) (fresh : Snapshot Run) (change : Change) (todo : List Change)
      (bus : BusState)
      (telling : state.noticing = .telling token fresh (change :: todo))
      (published : state.bus.act (.published change) = some bus) :
      WatchStep projectSlug state (.tell change)
        { state with noticing := .telling token fresh todo, bus := bus }
  | settled (token : Nat) (fresh : Snapshot Run) (telling : state.noticing =
      .telling token fresh []) :
      WatchStep projectSlug state .settle
        { state with baseline := ⟨some token, fresh⟩, noticing := .idle }
  | other (act : BusAct) (bus : BusState) (acted : state.bus.act act = some bus) :
      WatchStep projectSlug state (.bus act) { state with bus := bus }

theorem watchStep (projectSlug : Run → String) (state after : WatchState Run) (act : WatchAct Run)
    (stepped : state.act projectSlug act = some after) : WatchStep projectSlug state act after := by
  cases act with
  | commit next =>
      cases stepped
      exact .commit next
  | ask =>
      rw [WatchState.act, Option.ite_none_right_eq_some] at stepped
      obtain ⟨-, stepped⟩ := stepped
      split_ifs at stepped
      · cases stepped
        exact .unmoved
      · cases stepped
        exact .asked
  | look =>
      rw [WatchState.act] at stepped
      split at stepped
      · next token asked =>
          cases stepped
          exact .looked token asked
      · cases stepped
  | lookFailed =>
      rw [WatchState.act] at stepped
      split at stepped
      · cases stepped
        exact .failed
      · cases stepped
  | count =>
      rw [WatchState.act] at stepped
      split at stepped
      · next token fresh seen free =>
          split_ifs at stepped with alone
          · cases stepped
            exact .unheard token fresh seen alone
          · cases stepped
            exact .counted token fresh seen
      · cases stepped
  | tell change =>
      rw [WatchState.act] at stepped
      split at stepped
      · next token fresh next todo telling =>
          rw [Option.ite_none_right_eq_some, Option.map_eq_some_iff] at stepped
          obtain ⟨rfl, bus, published, rfl⟩ := stepped
          exact .told token fresh next todo bus telling published
      · cases stepped
  | settle =>
      rw [WatchState.act] at stepped
      split at stepped
      · next token fresh telling =>
          cases stepped
          exact .settled token fresh telling
      · cases stepped
  | bus act =>
      rw [WatchState.act, Option.map_eq_some_iff] at stepped
      obtain ⟨bus, acted, rfl⟩ := stepped
      exact .other act bus acted

section Steps

variable (projectSlug : Run → String) (state after : WatchState Run)

theorem Lagging.act (lagging : Lagging held state) (act : WatchAct Run)
    (step : WatchStep projectSlug state act after)
    (keeps : ∀ next, act = .commit next → held next) :
    Lagging held after := by
  cases step with
  | commit next => exact lagging.commit held state next (keeps next rfl)
  | unmoved => exact lagging
  | asked =>
      refine ⟨lagging.stored, lagging.behind, fun _ _ none => (by cases none), lagging.known,
        fun _ _ none => (by cases none), fun token asked => ?_⟩
      cases asked
      exact Nat.le_refl _
  | looked token asked =>
      refine ⟨lagging.stored, lagging.behind, ?_, lagging.known, ?_, fun _ none => by cases none⟩
      · intro other fresh read
        cases read
        exact lagging.stored
      · intro other fresh read
        cases read
        exact ⟨lagging.asked token asked, fun _ => rfl⟩
  | failed =>
      exact ⟨lagging.stored, lagging.behind, fun _ _ none => (by cases none), lagging.known,
        fun _ _ none => (by cases none), fun _ none => by cases none⟩
  | unheard token fresh seen alone =>
      exact lagging.settled held state token fresh (by rw [seen]; rfl)
  | counted token fresh seen =>
      exact lagging.reading held state token fresh (by rw [seen]; rfl) state.bus _
  | told token fresh change todo bus telling published =>
      exact lagging.reading held state token fresh (by rw [telling]; rfl) bus todo
  | settled token fresh telling =>
      exact lagging.settled held state token fresh (by rw [telling]; rfl)
  | other act bus acted =>
      exact ⟨lagging.stored, lagging.behind, lagging.between, lagging.known, lagging.read,
        lagging.asked⟩

end Steps

/-- What a subscriber is owed: as long as nothing wanted has been told, the watcher has seen only what
is old, or is about to tell something wanted. -/
def Owing (old : Option Nat → Snapshot Run → Prop) (wanted : Change → Prop) (told : Prop)
    (state : WatchState Run) : Prop :=
  ¬ told → old state.baseline.token state.baseline.snapshot ∧
    ∀ token fresh todo, state.noticing = .telling token fresh todo →
      old (some token) fresh ∨ ∃ change ∈ todo, wanted change

def Tells (projectSlug : Run → String) (old : Option Nat → Snapshot Run → Prop)
    (wanted : Change → Prop) : Prop :=
  ∀ last previous token fresh, old last previous → ¬ old (some token) fresh →
    ∃ change ∈ changesBetween projectSlug previous fresh, wanted change

section Owings

variable (projectSlug : Run → String) (old : Option Nat → Snapshot Run → Prop)
  (wanted : Change → Prop) (tells : Tells projectSlug old wanted)

include tells

theorem Owing.act (state after : WatchState Run) (act : WatchAct Run) (told : Prop)
    (owing : Owing old wanted told state) (listened : state.bus.subscribers ≠ [])
    (step : WatchStep projectSlug state act after) :
    Owing old wanted (told ∨ Publishes wanted [act]) after := by
  intro untold
  rw [not_or] at untold
  obtain ⟨seen, telling⟩ := owing untold.1
  cases step with
  | commit next => exact ⟨seen, telling⟩
  | unmoved => exact ⟨seen, telling⟩
  | asked => exact ⟨seen, fun _ _ _ none => by cases none⟩
  | looked token asked => exact ⟨seen, fun _ _ _ none => by cases none⟩
  | failed => exact ⟨seen, fun _ _ _ none => by cases none⟩
  | unheard token fresh read alone => exact absurd alone listened
  | counted token fresh read =>
      refine ⟨seen, ?_⟩
      intro other later todo same
      cases same
      exact or_iff_not_imp_left.mpr (tells _ _ token fresh seen)
  | told token fresh change todo bus under published =>
      refine ⟨seen, ?_⟩
      intro other later rest same
      cases same
      refine (telling token fresh _ under).imp_right ?_
      rintro ⟨one, member, isWanted⟩
      rcases List.mem_cons.mp member with rfl | further
      · exact absurd ⟨one, isWanted, List.mem_cons_self⟩ untold.2
      · exact ⟨one, further, isWanted⟩
  | settled token fresh under =>
      refine ⟨(telling token fresh [] under).resolve_right ?_, fun _ _ _ none => by cases none⟩
      rintro ⟨one, member, -⟩
      cases member
  | other act bus acted => exact ⟨seen, telling⟩

end Owings

section RunsOfWatchers

variable (projectSlug : Run → String)

theorem run_single (bus after : BusState) (act : BusAct) (acted : bus.act act = some after) :
    bus.run [act] = some after := by
  rw [BusState.run, List.foldlM_cons, acted]
  rfl

theorem act_bus (state after : WatchState Run) (act : WatchAct Run)
    (step : WatchStep projectSlug state act after) :
    state.bus.run act.onBus?.toList = some after.bus := by
  cases step with
  | told token fresh change todo bus telling published => exact run_single _ _ _ published
  | other act bus acted => exact run_single _ _ _ acted
  | _ => rfl

theorem run_bus (state final : WatchState Run) (acts : List (WatchAct Run))
    (ran : state.run projectSlug acts = some final) :
    state.bus.run (onBus acts) = some final.bus := by
  induction acts generalizing state with
  | nil =>
      cases ran
      rfl
  | cons act rest further =>
      rw [WatchState.run, List.foldlM_cons, Option.bind_eq_bind, Option.bind_eq_some_iff] at ran
      obtain ⟨next, stepped, later⟩ := ran
      have first := act_bus projectSlug state next act (watchStep _ _ _ _ stepped)
      have split : onBus (act :: rest) = act.onBus?.toList ++ onBus rest := by
        rw [onBus, onBus, List.filterMap_cons]
        cases act.onBus? <;> rfl
      rw [split, BusState.run, List.foldlM_append, Option.bind_eq_bind, Option.bind_eq_some_iff]
      exact ⟨next.bus, first, further next later⟩

theorem run_token (state final : WatchState Run) (acts : List (WatchAct Run))
    (ran : state.run projectSlug acts = some final) : state.token ≤ final.token := by
  induction acts generalizing state with
  | nil =>
      cases ran
      exact Nat.le_refl _
  | cons act rest further =>
      rw [WatchState.run, List.foldlM_cons, Option.bind_eq_bind, Option.bind_eq_some_iff] at ran
      obtain ⟨next, stepped, later⟩ := ran
      refine Nat.le_trans ?_ (further next later)
      cases watchStep projectSlug state next act stepped with
      | commit snapshot => exact Nat.le_succ _
      | _ => exact Nat.le_refl _

theorem run_lagging (state final : WatchState Run) (acts : List (WatchAct Run))
    (ran : state.run projectSlug acts = some final) (lagging : Lagging held state)
    (keeps : ∀ next, .commit next ∈ acts → held next) : Lagging held final := by
  induction acts generalizing state with
  | nil =>
      cases ran
      exact lagging
  | cons act rest further =>
      rw [WatchState.run, List.foldlM_cons, Option.bind_eq_bind, Option.bind_eq_some_iff] at ran
      obtain ⟨next, stepped, later⟩ := ran
      have step := watchStep projectSlug state next act stepped
      apply further next later
      · apply lagging.act held projectSlug state next act step
        rintro snapshot rfl
        exact keeps snapshot List.mem_cons_self
      · exact fun snapshot member => keeps snapshot (List.mem_cons_of_mem _ member)

theorem act_older (state after : WatchState Run) (act : WatchAct Run) (id : Nat)
    (step : WatchStep projectSlug state act after) (old : id < state.bus.nextId) :
    id < after.bus.nextId := by
  cases step with
  | told token fresh change todo bus telling published =>
      exact (act_held _ _ _ id published old).1
  | other act bus acted => exact (act_held _ _ _ id acted old).1
  | _ => exact old

theorem run_owing (old : Option Nat → Snapshot Run → Prop) (wanted : Change → Prop)
    (tells : Tells projectSlug old wanted) (id : Nat) (state final : WatchState Run)
    (acts : List (WatchAct Run)) (told : Prop) (ran : state.run projectSlug acts = some final)
    (came : id < state.bus.nextId) (held : id ∈ final.bus.subscribers.map (·.1))
    (owing : Owing old wanted told state) :
    Owing old wanted (told ∨ Publishes wanted acts) final := by
  induction acts generalizing state told with
  | nil =>
      cases ran
      exact fun untold => owing (not_or.mp untold).1
  | cons act rest further =>
      have there := run_held _ _ _ id (run_bus projectSlug state final _ ran) came held
      have listened : state.bus.subscribers ≠ [] := by
        intro none
        rw [none] at there
        cases there
      rw [WatchState.run, List.foldlM_cons, Option.bind_eq_bind, Option.bind_eq_some_iff] at ran
      obtain ⟨next, stepped, later⟩ := ran
      have step := watchStep projectSlug state next act stepped
      have older := act_older projectSlug state next act id step came
      intro untold
      refine further next _ later older
        (owing.act projectSlug old wanted tells state next act told listened step) ?_
      rwa [publishes_cons, ← or_assoc] at untold

theorem published_reaches (start middle final : WatchState Run) (fresh : start.bus = .new)
    (before after : List (WatchAct Run)) (id : Nat) (slot : Slot) (wanted : Change → Prop)
    (ranBefore : start.run projectSlug before = some middle)
    (ranAfter : middle.run projectSlug after = some final)
    (came : .subscribed id ∈ onBus before) (member : (id, slot) ∈ final.bus.subscribers)
    (settled : final.bus.publishing = none) (published : Publishes wanted after) :
    ∃ change, wanted change ∧ (change ∈ received id (onBus after) ++ slot.queue ∨
      .resync ∈ received id (onBus after) ++ slot.queue) := by
  obtain ⟨change, isWanted, there⟩ := published
  obtain ⟨early, late, split⟩ := List.append_of_mem there
  have ran : BusState.new.run (onBus before ++ onBus after) = some final.bus := by
    rw [BusState.run, List.foldlM_append, Option.bind_eq_bind, Option.bind_eq_some_iff]
    exact ⟨middle.bus, fresh ▸ run_bus projectSlug start middle before ranBefore,
      run_bus projectSlug middle final after ranAfter⟩
  have stands := (delivered _ final.bus ran settled id slot member).stands
    (onBus before ++ early) change late (by rw [split, List.append_assoc])
    (List.mem_append_left _ came)
  have later : received id late ++ slot.queue ⊆ received id (onBus after) ++ slot.queue := by
    have taken : received id (onBus after) =
        received id (early ++ [.published change]) ++ received id late := by
      rw [split, received, received, received, uses, uses, uses, ← List.singleton_append,
        ← List.append_assoc, List.filterMap_append, Mailbox.takes, List.filterMap_append]
      rfl
    rw [taken]
    exact List.append_subset.mpr ⟨fun _ here => List.mem_append_left _
      (List.mem_append_right _ here),
      List.subset_append_right _ _⟩
  exact ⟨change, isWanted, stands.imp (fun here => later here) fun here => later here⟩

/-- Once the watcher has caught up with the store and the bus has come to rest, a subscriber has been
told of every project whose log stands where it never stood up to some moment it was there, or to
start over; and after any commit at all it has been told something. -/
theorem watch_tells (token : Nat) (snapshot : Snapshot Run) (readable : Bool)
    (before after : List (WatchAct Run)) (middle final : WatchState Run) (id : Nat) (slot : Slot)
    (ranBefore : (WatchState.new token snapshot readable).run projectSlug before = some middle)
    (ranAfter : middle.run projectSlug after = some final)
    (came : .subscribed id ∈ onBus before) (member : (id, slot) ∈ final.bus.subscribers)
    (caughtUp : final.baseline.token = some final.token)
    (settled : final.bus.publishing = none) :
    (∀ slug seq, final.snapshot.seq slug = some seq → snapshot.seq slug ≠ some seq →
      (∀ earlier, .commit earlier ∈ before → earlier.seq slug ≠ some seq) →
        .project slug ∈ received id (onBus after) ++ slot.queue ∨
          .resync ∈ received id (onBus after) ++ slot.queue) ∧
      (middle.token ≠ final.token → received id (onBus after) ++ slot.queue ≠ []) := by
  have entered : id < middle.bus.nextId :=
    ((run_kept _ _ (run_bus projectSlug _ middle before ranBefore)).came id).mp came
  have there : id ∈ final.bus.subscribers.map (·.1) := List.mem_map_of_mem member
  have reaches := fun wanted =>
    published_reaches projectSlug _ middle final rfl before after id slot
    wanted ranBefore ranAfter came member settled
  have lagging (held : Snapshot Run → Prop) (blank : held Snapshot.empty) (stored : held snapshot)
      (keeps : ∀ next, .commit next ∈ before → held next) : Lagging held middle :=
    run_lagging held projectSlug _ middle before ranBefore
      (Lagging.new held token snapshot readable blank stored) keeps
  constructor
  · intro slug seq stands unlike never
    let old := fun seen : Snapshot Run => seen.seq slug ≠ some seq
    have lag := lagging old (by rintro ⟨⟩) unlike never
    have owing : Owing (fun _ => old) (· = .project slug) False middle := fun _ =>
      ⟨lag.behind, fun token fresh todo under =>
        Or.inl (lag.between token fresh (by rw [under]; rfl))⟩
    have tells : Tells projectSlug (fun _ => old) (· = .project slug) :=
      fun _ previous _ fresh before later =>
        ⟨_, project_told projectSlug previous fresh slug seq (not_not.mp later) before, rfl⟩
    have published : Publishes (· = .project slug) after := by
      by_contra untold
      obtain ⟨seen, -⟩ := run_owing projectSlug _ _ tells id middle final after False ranAfter
        entered there owing (by simpa using untold)
      have lagged := run_lagging (fun _ => True) projectSlug middle final after ranAfter
        (lagging _ trivial trivial fun _ _ => trivial) fun _ _ => trivial
      rw [(lagged.known _ caughtUp).2 rfl] at seen
      exact seen stands
    obtain ⟨change, rfl, reached⟩ := reaches _ published
    exact reached
  · intro moved none
    have lag := lagging (fun _ => True) trivial trivial fun _ _ => trivial
    let old := fun (last : Option Nat) (_ : Snapshot Run) => ∀ token ∈ last, token ≤ middle.token
    have owing : Owing old (fun _ => True) False middle := fun _ =>
      ⟨fun token known => (lag.known token known).1, fun token fresh todo under => Or.inl
        fun other same => Option.some.inj same ▸ (lag.read token fresh (by rw [under]; rfl)).1⟩
    have tells : Tells projectSlug old (fun _ => True) := fun _ previous _ fresh _ _ => by
      obtain ⟨change, member⟩ :=
        List.exists_mem_of_ne_nil _ (changesBetween_filled projectSlug previous fresh)
      exact ⟨change, member, trivial⟩
    have published : Publishes (fun _ => True) after := by
      by_contra untold
      obtain ⟨seen, -⟩ := run_owing projectSlug old _ tells id middle final after False ranAfter
        entered there owing (by simpa using untold)
      exact moved (Nat.le_antisymm (run_token projectSlug middle final after ranAfter)
        (seen _ caughtUp))
    obtain ⟨change, -, reached⟩ := reaches _ published
    rw [none] at reached
    simp at reached

end RunsOfWatchers

/-- Two commits, the second between the token that a notice asks for and the snapshot it reads. -/
def movedTwice : List (WatchAct String) :=
  [.commit ⟨[("alpha", 2)], []⟩, .ask, .commit ⟨[("alpha", 3)], []⟩, .look, .count,
    .tell (.project "alpha"), .bus (.pushed 0 (.project "alpha")), .bus .finished, .settle,
    .ask, .look, .count, .tell .resync, .bus (.pushed 0 .resync), .bus .finished, .settle]

theorem watch_tells_movedTwice : ∃ middle final : WatchState String, ∃ slot,
    (WatchState.new 5 ⟨[("alpha", 1)], []⟩ true).run id [.bus (.subscribed 0)] = some middle ∧
    middle.run id movedTwice = some final ∧ (0, slot) ∈ final.bus.subscribers ∧
    (∀ slug seq, final.snapshot.seq slug = some seq →
      (⟨[("alpha", 1)], []⟩ : Snapshot String).seq slug ≠ some seq →
      (∀ earlier : Snapshot String, .commit earlier ∈ [WatchAct.bus (.subscribed 0)] →
        earlier.seq slug ≠ some seq) →
        .project slug ∈ received 0 (onBus movedTwice) ++ slot.queue ∨
          .resync ∈ received 0 (onBus movedTwice) ++ slot.queue) ∧
      (middle.token ≠ final.token → received 0 (onBus movedTwice) ++ slot.queue ≠ []) := by
  let slot : Slot := ⟨[.project "alpha", .resync], 0⟩
  let middle : WatchState String := ⟨5, ⟨[("alpha", 1)], []⟩, ⟨some 5, ⟨[("alpha", 1)], []⟩⟩, .idle,
    ⟨1, [(0, Mailbox.empty)], 0, none⟩⟩
  let final : WatchState String := ⟨7, ⟨[("alpha", 3)], []⟩, ⟨some 7, ⟨[("alpha", 3)], []⟩⟩, .idle,
    ⟨1, [(0, slot)], 0, none⟩⟩
  have ranBefore : (WatchState.new 5 ⟨[("alpha", 1)], []⟩ true).run id [.bus (.subscribed 0)] =
      some middle := by decide +kernel
  have ranAfter : middle.run id movedTwice = some final := by decide +kernel
  exact ⟨middle, final, slot, ranBefore, ranAfter, List.mem_cons_self,
    watch_tells id 5 ⟨[("alpha", 1)], []⟩ true _ movedTwice middle final 0 slot ranBefore ranAfter
      List.mem_cons_self List.mem_cons_self rfl rfl⟩

end Storyhook.Daemon
