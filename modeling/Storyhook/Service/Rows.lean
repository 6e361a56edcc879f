import Storyhook.Service.Writes

/-! What every row of the read model keeps of its story's history, whatever the catalog. -/

namespace Storyhook.Service

open Storyhook.Domain Storyhook.Store
open Library Library.Outcome

/-- What a snapshot says of the history it is the fold of. -/
structure Told (allowed : Allowance) (events : List StoryEvent) (snapshot : StorySnapshot) :
    Prop where
  undeleted : Undeleted events
  shaped : Shaped events
  moved : lastMove events = some snapshot.state
  held : snapshot.awaiting = heldBy events
  checked : Checked snapshot
  settled : allowed = .settled → snapshot.superstate = .closed → snapshot.awaiting = none

/-- The columns of a row that repeat its snapshot. -/
structure Columns (row : StoryRow) : Prop where
  state : row.state = row.snapshot.state
  superstate : row.superstate = row.snapshot.superstate
  awaiting : row.awaiting = row.snapshot.awaiting
  archived : row.archived = row.snapshot.closedAt.isSome

def Known (states : StateCatalog) (snapshot : StorySnapshot) : Prop :=
  (states[snapshot.state]?).map StateDef.superState = some snapshot.superstate

/-- The read model as far as it does not rest on the catalog. -/
structure Rows (allowed : Allowance) (db : Database) : Prop where
  told : ∀ (no : StoryNo) (row : StoryRow), db.stories[no]? = some row →
    Told allowed (history db no) row.snapshot
  mirrored : ∀ (no : StoryNo) (row : StoryRow), db.stories[no]? = some row →
    ∃ base head, row = storyRow base no row.snapshot head
  named : ∀ (no : StoryNo) (row : StoryRow), db.stories[no]? = some row →
    row.snapshot.id = toId db.idPrefix no
  logged : ∀ no : StoryNo, db.stories[no]? = none → db.events[no]? = none
  allocated : ∀ (no : StoryNo) (row : StoryRow), db.stories[no]? = some row → no < db.nextStoryNo

/-- Rows whose catalog defines the states they stand in. -/
structure Sound (allowed : Allowance) (db : Database) : Prop extends Rows allowed db where
  conforming : Conforming (stateMap db.states)
  distinct : (db.states.map StateDef.slug).Nodup
  known : ∀ (no : StoryNo) (row : StoryRow), db.stories[no]? = some row →
    Known (stateMap db.states) row.snapshot

theorem Rows.columns {allowed : Allowance} {db : Database} (rows : Rows allowed db) (no : StoryNo)
    (row : StoryRow) (stored : db.stories[no]? = some row) : Columns row := by
  obtain ⟨base, head, same⟩ := rows.mirrored no row stored
  exact ⟨congrArg StoryRow.state same, congrArg StoryRow.superstate same,
    congrArg StoryRow.awaiting same, congrArg StoryRow.archived same⟩

theorem Columns.unarchived (row : StoryRow) (columns : Columns row)
    (checked : Checked row.snapshot) :
    row.archived = false ↔ row.snapshot.superstate = .open := by
  have closes : row.snapshot.superstate = .closed ↔ row.archived = true :=
    columns.archived ▸ checked
  rw [← Bool.not_eq_true, ← closes]
  cases row.snapshot.superstate <;> simp

section Transition

variable (states : StateCatalog) (conforming : Conforming states) (target : StateDef)
  (awaiting : Bool) (now : String) (extra : List StoryEvent)

theorem transition_undeleted (still : ∀ event ∈ extra, Still event) :
    Undeleted (stateTransitionEvents target awaiting now extra) := by
  intro event member
  simp only [stateTransitionEvents, List.mem_append, List.mem_singleton] at member
  rcases member with (rfl | inside) | closing
  · rfl
  · exact (still event inside).deletes
  · split at closing
    · rcases List.mem_append.mp closing with clears | closes
      · split at clears <;> simp only [List.mem_singleton, List.not_mem_nil] at clears
        subst clears
        rfl
      · cases List.mem_singleton.mp closes
        rfl
    · cases closing

include conforming

theorem transition_moves (known : states[target.slug]? = some target)
    (still : ∀ event ∈ extra, Still event) :
    lastMove (stateTransitionEvents target awaiting now extra) = some target.slug := by
  rw [← conforming.current states target.slug target known, lastMove, stateTransitionEvents,
    List.filterMap_append, List.getLast?_append, List.filterMap_append, filterMap_still extra still]
  split
  · rw [List.filterMap_append, List.getLast?_append]
    rfl
  · rfl

omit conforming

theorem transition_shaped (events : List StoryEvent) (shaped : Shaped events)
    (still : ∀ event ∈ extra, Still event) :
    Shaped (events ++ stateTransitionEvents target awaiting now extra) := by
  unfold stateTransitionEvents
  split
  · have released : ∀ event ∈ extra ++ (if awaiting then [.storyAwaitingCleared now] else []),
        Still event := by
      intro event member
      rcases List.mem_append.mp member with inside | clears
      · exact still event inside
      · split at clears <;> simp only [List.mem_singleton, List.not_mem_nil] at clears
        subst clears
        exact ⟨rfl, rfl⟩
    have whole := shaped.transition events _ released now now target.slug
    simpa only [List.append_assoc] using whole
  · have moved := (shaped.move events now target.slug).still _ extra still
    simpa only [List.append_assoc, List.append_nil] using moved

theorem transition_releases (events : List StoryEvent)
    (read : awaiting = (heldBy events).isSome) (closes : target.superState = .closed)
    (unheld : ∀ event ∈ extra, holdOf event = none) :
    heldBy (events ++ stateTransitionEvents target awaiting now extra) = none := by
  have silent := List.filterMap_eq_nil_iff.mpr unheld
  rw [heldBy_append, stateTransitionEvents, if_pos closes, List.filterMap_append,
    List.filterMap_append, silent]
  cases awaiting with
  | true => rfl
  | false =>
      have free : heldBy events = none := by simpa using read.symm
      rw [free]
      rfl

end Transition

section Edit

variable (states : StateCatalog) (now : String) (awaiting : Bool)

theorem FieldWrite.events_cases (field : FieldWrite) :
    (∃ slug target, field = .state slug target ∧
      field.events now awaiting = stateTransitionEvents target awaiting now []) ∨
    ((∀ event ∈ field.events now awaiting, Still event) ∧
      ∀ states, field.holdField.bind (HoldField.closes states) = none) := by
  cases field with
  | state slug target => exact .inl ⟨slug, target, rfl, rfl⟩
  | _ => exact .inr ⟨by simpa [FieldWrite.events] using ⟨rfl, rfl⟩, fun _ => rfl⟩

theorem writes_undeleted (writes : List FieldWrite) :
    Undeleted (writes.flatMap (FieldWrite.events now awaiting)) := by
  intro event member
  obtain ⟨field, -, inside⟩ := List.mem_flatMap.mp member
  rcases field.events_cases now awaiting with ⟨slug, target, -, moves⟩ | ⟨still, -⟩
  · rw [moves] at inside
    exact transition_undeleted target awaiting now [] (by simp) event inside
  · exact (still event inside).deletes

theorem writes_shaped (events : List StoryEvent) (shaped : Shaped events)
    (writes : List FieldWrite) :
    Shaped (events ++ writes.flatMap (FieldWrite.events now awaiting)) := by
  induction writes generalizing events with
  | nil => rwa [List.flatMap_nil, List.append_nil]
  | cons field rest ih =>
      rw [List.flatMap_cons, ← List.append_assoc]
      apply ih
      rcases field.events_cases now awaiting with ⟨slug, target, -, moves⟩ | ⟨still, -⟩
      · rw [moves]
        exact transition_shaped target awaiting now [] events shaped (by simp)
      · exact shaped.still events _ still

theorem writes_closes (conforming : Conforming states) (writes : List FieldWrite)
    (known : ∀ slug target, .state slug target ∈ writes →
      target.slug = slug ∧ states[slug]? = some target) :
    (lastMove (writes.flatMap (FieldWrite.events now awaiting))).map (namesClosedState states) =
      ((writes.filterMap FieldWrite.holdField).filterMap (HoldField.closes states)).getLast? := by
  induction writes using List.reverseRecOn with
  | nil => rfl
  | append_singleton earlier field ih =>
      have before := ih fun slug target member => known slug target (by simp [member])
      rw [List.flatMap_append, List.flatMap_singleton, lastMove_append, List.filterMap_append,
        List.filterMap_append, List.getLast?_append, ← before]
      rcases field.events_cases now awaiting with ⟨slug, target, rfl, moves⟩ | ⟨still, apart⟩
      · obtain ⟨rfl, found⟩ := known slug target (by simp)
        rw [moves, transition_moves states conforming target awaiting now [] found (by simp)]
        simp [FieldWrite.holdField, HoldField.closes]
      · have silent := apart states
        rw [lastMove, filterMap_still _ still]
        cases read : field.holdField with
        | none => simp [read]
        | some asked =>
            rw [read, Option.bind_some] at silent
            simp [read, silent]

theorem writes_holds (writes : List FieldWrite)
    (known : ∀ slug target, .state slug target ∈ writes →
      target.slug = slug ∧ states[slug]? = some target) :
    ((writes.flatMap (FieldWrite.events now awaiting)).filterMap holdOf).map Option.isSome =
      (writes.filterMap FieldWrite.holdField).filterMap (HoldField.holds states awaiting) := by
  induction writes with
  | nil => rfl
  | cons field rest ih =>
      have later := ih fun slug target member => known slug target (by simp [member])
      rw [List.flatMap_cons, List.filterMap_append, List.map_append, later]
      cases field with
      | state slug target =>
          obtain ⟨named, found⟩ := known slug target (by simp)
          have closes : namesClosedState states slug = true ↔ target.superState = .closed := by
            simp [namesClosedState, found]
          by_cases closing : target.superState = .closed
          · have shutting := closes.mpr closing
            cases awaiting <;> simp [FieldWrite.events, stateTransitionEvents, closing, holdOf,
              FieldWrite.holdField, HoldField.holds, shutting, List.filterMap_cons]
          · have ajar := Bool.eq_false_iff.mpr (mt closes.mp closing)
            simp [FieldWrite.events, stateTransitionEvents, closing, holdOf, FieldWrite.holdField,
              HoldField.holds, ajar]
      | _ => rfl

theorem writes_release (conforming : Conforming states) (events : List StoryEvent)
    (writes : List FieldWrite) (known : ∀ slug target, .state slug target ∈ writes →
      target.slug = slug ∧ states[slug]? = some target)
    (read : awaiting = (heldBy events).isSome)
    (settles : Settles states awaiting (writes.filterMap FieldWrite.holdField))
    (state : String) (last : lastMove (writes.flatMap (FieldWrite.events now awaiting)) = some state)
    (closed : namesClosedState states state = true) :
    heldBy (events ++ writes.flatMap (FieldWrite.events now awaiting)) = none := by
  have closes := writes_closes states now awaiting conforming writes known
  have holds := writes_holds states now awaiting writes known
  rw [last, Option.map_some, closed] at closes
  have unset := settles closes.symm
  rw [← holds, List.getLast?_map] at unset
  rw [heldBy_append]
  cases final : ((writes.flatMap (FieldWrite.events now awaiting)).filterMap holdOf).getLast? with
  | some found =>
      rw [final] at unset
      cases found with
      | none => rfl
      | some reason => exact absurd rfl unset
  | none =>
      rw [List.getLast?_eq_none_iff.mp final, List.map_nil] at holds
      obtain ⟨asked, listed, shutting⟩ := List.mem_filterMap.mp (List.mem_of_getLast? closes.symm)
      have silent := List.filterMap_eq_nil_iff.mp holds.symm asked listed
      cases asked with
      | move slug =>
          rw [HoldField.closes, Option.some.injEq] at shutting
          have free : awaiting = false := by simpa [HoldField.holds, shutting] using silent
          rw [read] at free
          simpa using free
      | set => cases shutting
      | clear => cases shutting

end Edit

theorem Restates.undeleted (events : List StoryEvent) (restates : Restates events) :
    Undeleted events := by
  intro event member
  cases restates with
  | stays => cases member
  | moves now state =>
      cases List.mem_singleton.mp member
      rfl
  | closes now state clearing still =>
      simp only [List.mem_append, List.mem_singleton] at member
      rcases member with (rfl | inside) | rfl
      · rfl
      · exact (still event inside).deletes
      · rfl

theorem Restates.shaped (events middle : List StoryEvent) (restates : Restates middle)
    (shaped : Shaped events) : Shaped (events ++ middle) := by
  cases restates with
  | stays => rwa [List.append_nil]
  | moves now state => exact shaped.move events now state
  | closes now state clearing still => exact shaped.transition events clearing still now now state

section Batch

variable (states : StateCatalog) (row : StoryRow) (allowed : Allowance)
  (events batch : List StoryEvent) (appended : Batch states row allowed batch)

include appended

theorem Batch.undeleted : Undeleted batch := by
  cases appended with
  | quiet _ _ quiet => exact Undeleted.still batch (Still.of_quiet batch quiet)
  | hold _ _ _ still => exact Undeleted.still batch still
  | move _ _ opening extra target awaiting now known read quiet still =>
      exact (Undeleted.still opening (Still.of_quiet opening quiet)).append _ _
        (transition_undeleted target awaiting now extra still)
  | epic _ _ now text target known =>
      intro event member
      simp only [List.mem_cons, List.not_mem_nil, or_false] at member
      rcases member with rfl | rfl | rfl <;> rfl
  | edit _ _ now writes => exact writes_undeleted now _ writes
  | compensation front middle back before restates later =>
      exact ((Undeleted.still front before).append _ _ (restates.undeleted middle)).append _ _
        (Undeleted.still back later)

theorem Batch.shaped (shaped : Shaped events) : Shaped (events ++ batch) := by
  cases appended with
  | quiet _ _ quiet => exact shaped.still events batch (Still.of_quiet batch quiet)
  | hold _ _ _ still => exact shaped.still events batch still
  | move _ _ opening extra target awaiting now known read quiet still =>
      rw [← List.append_assoc]
      exact transition_shaped target awaiting now extra _
        (shaped.still events opening (Still.of_quiet opening quiet)) still
  | epic _ _ now text target known =>
      have commented := shaped.still events [.storyCommentAdded now text]
        (by simpa using ⟨rfl, rfl⟩)
      have cleared := (commented.move _ now target.slug).still _ [.storyStateCleared now]
        (by simpa using ⟨rfl, rfl⟩)
      simpa only [List.append_assoc, List.cons_append, List.nil_append] using cleared
  | edit _ _ now writes => exact writes_shaped now _ events shaped writes
  | compensation front middle back before restates later =>
      rw [← List.append_assoc, ← List.append_assoc]
      exact (restates.shaped _ middle (shaped.still events front before)).still _ back later

end Batch

section Settled

variable (states : StateCatalog) (conforming : Conforming states) (row : StoryRow)
  (events batch : List StoryEvent) (told : Told .settled events row.snapshot)
  (known : Known states row.snapshot)

include told known

theorem Told.unmoved (state : String) (stays : lastMove (events ++ batch) = lastMove events)
    (moved : lastMove (events ++ batch) = some state)
    (closed : (states[state]?).map StateDef.superState = some .closed) :
    row.snapshot.superstate = .closed ∧ heldBy events = none := by
  have same : row.snapshot.state = state :=
    Option.some.inj ((told.moved.symm.trans stays.symm).trans moved)
  have rests : row.snapshot.superstate = .closed := by
    rw [Known, same, closed, Option.some.injEq] at known
    exact known.symm
  exact ⟨rests, told.held.symm.trans (told.settled rfl rests)⟩

include conforming

theorem Batch.settled (columns : Columns row) (appended : Batch states row .settled batch)
    (state : String) (moved : lastMove (events ++ batch) = some state)
    (closed : (states[state]?).map StateDef.superState = some .closed)
    (stamped : (replay states (events ++ batch)).closedAt.isSome = true) :
    heldBy (events ++ batch) = none := by
  have unmoved := told.unmoved states row events batch known state
  cases appended with
  | quiet _ _ quiet =>
      have stays := lastMove_still events batch (Still.of_quiet batch quiet)
      rw [heldBy_silent events batch fun event member => (quiet event member).holds]
      exact (unmoved stays moved closed).2
  | hold _ _ _ still unarchived =>
      have rests := (unmoved (lastMove_still events batch still) moved closed).1
      have opened := (columns.unarchived row told.checked).mp unarchived
      rw [rests] at opened
      cases opened
  | move _ _ opening extra target awaiting now found read quiet still unheld =>
      have silent := heldBy_silent events opening fun event member => (quiet event member).holds
      have here : state = target.slug := by
        rw [← List.append_assoc, lastMove_append,
          transition_moves states conforming target awaiting now extra found still] at moved
        exact (Option.some.inj moved).symm
      rw [here, found, Option.map_some, Option.some.injEq] at closed
      rw [← List.append_assoc]
      refine transition_releases target awaiting now extra _ ?_ closed (unheld closed)
      rw [silent, ← told.held]
      rw [columns.awaiting] at read
      exact read.elim id id
  | epic _ _ now text target found =>
      cases rests : row.snapshot.superstate with
      | closed =>
          have free := told.held.symm.trans (told.settled rfl rests)
          rw [← free]
          apply heldBy_silent
          simp [holdOf]
      | «open» =>
          have opened := told.shaped.unclosed events states conforming row.snapshot.state told.moved
            (rests ▸ known)
          have commented : (replay states (events ++ [.storyCommentAdded now text])).closedAt =
              none := (replay_closedAt states events [.storyCommentAdded now text] (by
            simp [movesClosure])).trans opened
          have unclosed := replay_move_unclosed states _ now target.slug commented
          have last := (replay_closedAt states _ [.storyStateCleared now] (by
            simp [movesClosure])).trans unclosed
          simp only [List.append_assoc, List.cons_append, List.nil_append] at last
          rw [last] at stamped
          cases stamped
  | edit _ _ now writes defined unarchived settles =>
      have opened := (columns.unarchived row told.checked).mp unarchived
      cases last : lastMove (editPlan now row.snapshot.awaiting.isSome writes).events with
      | none =>
          have stays : lastMove (events ++
            (editPlan now row.snapshot.awaiting.isSome writes).events) =
              lastMove events := by rw [lastMove_append, last, Option.none_or]
          have rests := (unmoved stays moved closed).1
          rw [opened] at rests
          cases rests
      | some slug =>
          rw [lastMove_append, last, Option.some_or, Option.some.injEq] at moved
          subst moved
          refine writes_release states now row.snapshot.awaiting.isSome conforming events writes
            defined (by rw [told.held]) (settles rfl) slug last ?_
          obtain ⟨definition, found, shutting⟩ := Option.map_eq_some_iff.mp closed
          simp [namesClosedState, found, shutting]

end Settled

theorem Batch.told (id : String) (states : StateCatalog) (conforming : Conforming states)
    (row : StoryRow) (allowed : Allowance) (events batch : List StoryEvent)
    (snapshot : StorySnapshot) (told : Told allowed events row.snapshot) (columns : Columns row)
    (known : Known states row.snapshot) (appended : Batch states row allowed batch)
    (folded : foldStory id (events ++ batch) states = .ok snapshot) (checked : Checked snapshot) :
    Told allowed (events ++ batch) snapshot ∧ Known states snapshot := by
  have undeleted := told.undeleted.append _ _ (appended.undeleted states row allowed batch)
  obtain ⟨state, title, createdAt, superstate, moved, -, -, here, rfl⟩ :=
    (foldStory_undeleted id _ states conforming undeleted snapshot).mp folded
  have held := replay_awaiting states (events ++ batch)
  refine ⟨⟨undeleted, appended.shaped states row allowed events batch told.shaped, moved, held,
    checked, ?_⟩, here⟩
  rintro rfl closed
  have rests : superstate = .closed := closed
  subst rests
  exact held.trans (appended.settled states conforming row events batch told known columns state
    moved here (checked.mp rfl))

theorem Opening.told (id : String) (states : StateCatalog) (conforming : Conforming states)
    (allowed : Allowance) (events : List StoryEvent) (snapshot : StorySnapshot)
    (opening : ∀ event ∈ events, Opening event)
    (folded : foldStory id events states = .ok snapshot) (checked : Checked snapshot) :
    Told allowed events snapshot ∧ Known states snapshot := by
  have undeleted : Undeleted events := by
    intro event member
    have closes := (opening event member).closes
    cases event with
    | storyDeleted => cases closes
    | _ => rfl
  obtain ⟨state, title, createdAt, superstate, moved, -, -, here, rfl⟩ :=
    (foldStory_undeleted id _ states conforming undeleted snapshot).mp folded
  have free : heldBy events = none :=
    heldBy_silent [] events fun event member => (opening event member).holds
  refine ⟨⟨undeleted, Shaped.opening events fun event member => (opening event member).closes,
    moved, replay_awaiting states events, checked, ?_⟩, here⟩
  rintro - -
  exact (replay_awaiting states events).trans free

section Step

variable (allowed : Allowance) (db after : Database)

theorem Rows.written (rows : Rows allowed db) (base : Database) (story : StoryNo)
    (snapshot : StorySnapshot) (head : Nat) (idPrefix : after.idPrefix = db.idPrefix)
    (nextStoryNo : after.nextStoryNo = db.nextStoryNo)
    (stored : ∀ no : StoryNo, after.stories[no]? =
      if story = no then some (storyRow base story snapshot head) else db.stories[no]?)
    (others : ∀ no : StoryNo, story ≠ no → after.events[no]? = db.events[no]?)
    (told : Told allowed (history after story) snapshot)
    (named : snapshot.id = toId db.idPrefix story) (allocated : story < db.nextStoryNo) :
    Rows allowed after := by
  refine ⟨?_, ?_, ?_, ?_, ?_⟩
  · intro no row found
    rw [stored] at found
    split at found
    · next own =>
        cases found
        exact own ▸ told
    · next other =>
        rw [history, others no other]
        exact rows.told no row found
  · intro no row found
    rw [stored] at found
    split at found
    · next own =>
        cases found
        exact ⟨base, head, own ▸ rfl⟩
    · exact rows.mirrored no row found
  · intro no row found
    rw [stored] at found
    rw [idPrefix]
    split at found
    · next own =>
        cases found
        exact own ▸ named
    · exact rows.named no row found
  · intro no absent
    rw [stored] at absent
    split at absent
    · cases absent
    · next other =>
        rw [others no other]
        exact rows.logged no absent
  · intro no row found
    rw [stored] at found
    rw [nextStoryNo]
    split at found
    · next own => exact own ▸ allocated
    · exact rows.allocated no row found

theorem Sound.wrote (sound : Sound allowed db) (story : StoryNo) (events : List StoryEvent)
    (snapshot : StorySnapshot) (wrote : Wrote db after story events snapshot)
    (told : Told allowed (history db story ++ events) snapshot)
    (known : Known (stateMap db.states) snapshot) (allocated : story < db.nextStoryNo) :
    Sound allowed after := by
  obtain ⟨middle, head, appends, put⟩ := wrote.put
  have stored (no : StoryNo) : after.stories[no]? =
      if story = no then some (storyRow middle story snapshot head) else db.stories[no]? := by
    rw [Put.row _ _ _ _ _ put, appends.stories]
  obtain ⟨_, _, _, _, _, _, _, _, _, same⟩ := (finishFold_ok _ _ _ _).mp wrote.folded
  refine ⟨sound.toRows.written allowed db after middle story snapshot head wrote.idPrefix
    wrote.nextStoryNo stored wrote.others (wrote.own ▸ told) (congrArg StorySnapshot.id same)
    allocated, wrote.states ▸ sound.conforming, wrote.states ▸ sound.distinct, ?_⟩
  intro no row found
  rw [wrote.states]
  rw [stored] at found
  split at found
  · cases found
    exact known
  · exact sound.known no row found

theorem Sound.fresh (sound : Sound allowed db) : history db db.nextStoryNo = [] := by
  have absent : db.stories[db.nextStoryNo]? = none := by
    rw [Option.eq_none_iff_forall_ne_some]
    intro row stored
    exact Nat.lt_irrefl _ (sound.allocated _ row stored)
  rw [history, sound.logged _ absent]
  rfl

theorem Sound.allocate (sound : Sound allowed db) : Sound allowed (allocateStoryNo db).1 where
  told := sound.told
  mirrored := sound.mirrored
  named := sound.named
  logged := sound.logged
  allocated := fun no row stored => Nat.lt_succ_of_lt (sound.allocated no row stored)
  conforming := sound.conforming
  distinct := sound.distinct
  known := sound.known

theorem Step.sound (sound : Sound allowed db) (step : Step allowed db after) :
    Sound allowed after := by
  cases step with
  | append story row events snapshot stored batch wrote checked =>
      obtain ⟨told, known⟩ := batch.told _ _ sound.conforming row allowed _ events snapshot
        (sound.told story row stored) (sound.columns story row stored)
        (sound.known story row stored) wrote.folded checked
      exact sound.wrote allowed db after story events snapshot wrote told known
        (sound.allocated story row stored)
  | create loud events snapshot opening wrote checked =>
      have begun : history (allocateStoryNo db).1 db.nextStoryNo = [] := sound.fresh
      have folded := wrote.folded
      rw [begun, List.nil_append] at folded
      obtain ⟨told, known⟩ := Opening.told _ _ sound.conforming allowed events snapshot opening folded
        checked
      refine (sound.allocate allowed db).wrote allowed _ after db.nextStoryNo events snapshot wrote ?_
        known (Nat.lt_succ_self _)
      rwa [begun, List.nil_append]

theorem Steps.sound (sound : Sound allowed db) (steps : Steps allowed db after) :
    Sound allowed after :=
  Runs.reachable_invariant (Step allowed) (Sound allowed) db after sound
    (fun before next kept step => step.sound allowed before next kept) steps

end Step

end Storyhook.Service
