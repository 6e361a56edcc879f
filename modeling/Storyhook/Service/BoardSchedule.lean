import Storyhook.Service.Board

/-! The board, the report and the summary of a project give one schedule. -/

namespace Storyhook.Service

open Storyhook.Domain Storyhook.Store
open Library Library.Outcome Library.Schedule

/-- What the board says of a story like the report, though it has no more than its card. -/
structure SameStory (card view : ReportView) : Prop where
  story : card.story = view.story.card
  flaggedReasons : card.flaggedReasons = view.flaggedReasons
  progress : card.progress = view.progress
  displayState : card.displayState = view.displayState
  blockerFloor : card.blockerFloor = view.blockerFloor

structure SameSchedule (board report : ReportData) : Prop where
  readyIds : board.readyIds = report.readyIds
  blockedIds : board.blockedIds = report.blockedIds
  nextIds : board.nextIds = report.nextIds
  rollup : board.summary = report.summary
  stories : List.Forall₂ SameStory board.stories report.stories

/-- The ready ids and the blocked ones are of different open stories, and of the ready ones the
queue lists those an agent may take. -/
structure Apportioned (data : ReportData) : Prop where
  distinct : (data.readyIds ++ data.blockedIds).Nodup
  ofOpen : ∀ id ∈ data.readyIds ++ data.blockedIds,
    ∃ view ∈ data.stories, view.story.id = id ∧ view.story.superstate = .open
  next : ∀ view ∈ data.stories, view.story.id ∈ data.readyIds →
    (view.story.id ∈ data.nextIds ↔ labelHumanOnly ∉ view.story.labels)

section Rows

variable (db : Database) (rows : List StoryRow)

theorem rowsById_board : Mapped boardRow (rowsById (rows.map boardRow)) (rowsById rows) :=
  .ofList _ _ _ _ _ fun _ => rfl

theorem rowSnapshots_board : Cards (rowSnapshots (rows.map boardRow)) (rowSnapshots rows) :=
  (rowsById_board rows).map _ _ _ _ _ _ fun _ _ => rfl

theorem effectiveStories_board :
    Cards (effectiveStories db (rows.map boardRow)).stories (effectiveStories db rows).stories := by
  unfold effectiveStories
  dsimp only
  split
  · exact applyComputedEpicStates_card _ _ (rowSnapshots_board rows) db.states
  · exact rowSnapshots_board rows

theorem unattestedEndpoints_card (cards stories : StoryMap) (cut : Cards cards stories) :
    unattestedEndpoints db cards = unattestedEndpoints db stories := by
  have missing : missingEnds cards = missingEnds stories := by
    unfold missingEnds
    rw [cut.values, List.flatMap_map]
    simp only [cut.contains]
    rfl
  rw [unattestedEndpoints, unattestedEndpoints, missing]

end Rows

def ReportView.card (view : ReportView) : ReportView :=
  { view with story := view.story.card, commits := [] }

theorem sameStory_card (view : ReportView) : SameStory view.card view := ⟨rfl, rfl, rfl, rfl, rfl⟩

section Views

variable (tables : BoardTables) (rows : List StoryRow)

theorem storyView_board (cards stories : StoryIndex) (cut : Cards cards.stories stories.stories)
    (issues : Std.TreeMap String (List Finding)) (floors : BlockerFloors) (story : StorySnapshot) :
    storyView tables (rows.map boardRow) cards issues floors story.card =
      (storyView tables rows stories issues floors story).map ReportView.card := by
  have progress := computeProgress_card cards.stories stories.stories cut story
  have display := computeDisplayState_card cards.stories stories.stories cut story tables.db.states
  have head : (((rowsById (rows.map boardRow))[story.id]?).map (·.headGlobalSeq)) =
      ((rowsById rows)[story.id]?).map (·.headGlobalSeq) := by
    rw [(rowsById_board rows).get, Option.map_map]
    rfl
  have same : story.card.id = story.id := rfl
  unfold storyView
  rw [same, progress, display, head]
  cases parseId tables.db.idPrefix story.id with
  | error failure => rfl
  | ok storyNo =>
      simp only [bind, Except.bind]
      cases shownReset tables storyNo <;> rfl

theorem storyViewsFromRows_board : storyViewsFromRows tables (rows.map boardRow) =
    (storyViewsFromRows tables rows).map (List.map ReportView.card) := by
  have cut := effectiveStories_board tables.db rows
  unfold storyViewsFromRows
  simp only [unattestedEndpoints_card tables.db _ _ cut,
    computeIntegrityIssues_card _ _ cut, compute_card _ _ cut, all_card _ _ cut, List.mapM_map]
  refine Eq.trans (congrArg (List.mapM · _) (funext fun story => ?_)) (mapM_map_results _ _ _)
  exact storyView_board tables rows _ _ cut _ _ story

end Views

section Queue

variable (cards stories : StoryIndex) (cut : Cards cards.stories stories.stories)

def StoryView.card (view : StoryView) : StoryView := ⟨view.story.card⟩

namespace ExecutionQueue

section Filters

variable (views : List StoryView) (active : Option StateDef) (phase : Option String)
  (epicDescendants : Option (Std.TreeSet String)) (excludedLabels : List String)

theorem candidates_card : Mapped StoryView.card
    (candidates (views.map StoryView.card) active phase epicDescendants excludedLabels)
    (candidates views active phase epicDescendants excludedLabels) := by
  have passing : (views.map StoryView.card).filter
        (admitted active phase epicDescendants excludedLabels) =
      (views.filter (admitted active phase epicDescendants excludedLabels)).map StoryView.card :=
    List.filter_map
  rw [candidates, passing]
  exact .ofList _ _ _ _ _ fun _ => rfl

end Filters

section Candidates

variable (listed candidates : Std.TreeMap String StoryView)
  (mapped : Mapped StoryView.card listed candidates)

include mapped

theorem task_card : Task listed = Task candidates := by
  funext id
  simp [Task, mapped.get]

include cut

theorem waits_card : Waits cards listed = Waits stories candidates := by
  have predecessors (view : StoryView) :
      openPredecessors cards view.card = openPredecessors stories view := by
    unfold openPredecessors StoryIndex.story
    simp only [cut.get, Option.any_map]
    rfl
  funext id other
  simp [Waits, mapped.get, predecessors]

theorem noLater_card : NoLater cards listed = NoLater stories candidates := by
  have order (left right : StoryView) : readyOrder (.new cards) left.card.story right.card.story =
      readyOrder (.new stories) left.story right.story := by
    rw [readyOrder_key, readyOrder_key, StoryView.card, StoryView.card,
      readyKey_card cards stories cut, readyKey_card cards stories cut]
  funext id other
  unfold NoLater
  rw [mapped.get, mapped.get]
  cases candidates[id]? with
  | none => simp
  | some left =>
      cases candidates[other]? with
      | none => simp
      | some right => simp [order]

end Candidates

omit cut in
theorem noLater_apart (candidates : Std.TreeMap String StoryView)
    (keyed : ∀ (id : String) (view : StoryView), candidates[id]? = some view → view.story.id = id)
    (id other : String) (task : Task candidates id) (again : Task candidates other)
    (before : NoLater stories candidates id other) (after : NoLater stories candidates other id) :
    id = other := by
  obtain ⟨left, found⟩ := task
  obtain ⟨right, held⟩ := again
  have first := before left right found held
  have second := after right left held found
  rw [readyOrder_key] at first second
  have same := Std.LawfulEqOrd.eq_of_compare (Std.OrientedCmp.isLE_antisymm first second)
  rw [← keyed id left found, ← keyed other right held]
  exact congrArg ReadyKey.id same

end ExecutionQueue

include cut

open ExecutionQueue in
theorem executionQueue_card (views : List StoryView) (active : Option StateDef)
    (phase : Option String) (epicDescendants : Option (Std.TreeSet String))
    (excludedLabels : List String) : ∃ queue cardQueue,
      executionQueue views stories active phase epicDescendants excludedLabels = some queue ∧
      executionQueue (views.map StoryView.card) cards active phase epicDescendants excludedLabels =
        some cardQueue ∧ cardQueue.map (·.story.id) = queue.map (·.story.id) := by
  obtain ⟨order, ran, greedy⟩ :=
    executionQueue_order views stories active phase epicDescendants excludedLabels
  obtain ⟨cardOrder, cardRan, cardGreedy⟩ := executionQueue_order (views.map StoryView.card) cards
    active phase epicDescendants excludedLabels
  have mapped := candidates_card views active phase epicDescendants excludedLabels
  have keyed (views : List StoryView) (id : String) (view : StoryView)
      (found : (candidates views active phase epicDescendants excludedLabels)[id]? = some view) :
      view.story.id = id :=
    (candidates_some views active phase epicDescendants excludedLabels id view found).2.2
  rw [task_card _ _ mapped, waits_card cards stories cut _ _ mapped,
    noLater_card cards stories cut _ _ mapped] at cardGreedy
  obtain rfl := greedy.unique _ _ _ (noLater_apart stories _ (keyed views)) _ _ _ cardGreedy
  refine ⟨_, _, ran, cardRan, ?_⟩
  have tasks := fun id member => ((greedy.apart _ _ _ _ _).2 id member).1
  rw [views_ids _ _ (keyed _) tasks, views_ids _ _ (keyed _) (by rwa [task_card _ _ mapped])]

end Queue

section Report

variable (tables : BoardTables) (views : List ReportView)

theorem viewMap_card : Cards (viewMap (views.map ReportView.card)).stories
    (viewMap views).stories :=
  .ofList _ _ _ _ _ fun _ => rfl

section Loops

variable (cards stories : StoryIndex) (cut : Cards cards.stories stories.stories)

include cut

theorem ready_card (story : StorySnapshot) :
    isReady story.card cards.story = isReady story stories.story :=
  isReady_card cards.stories stories.stories cut story

theorem claimable_card (story : StorySnapshot) (active : Option StateDef) :
    isClaimable story.card cards.story active = isClaimable story stories.story active :=
  isClaimable_card cards.stories stories.stories cut story active

theorem rollup_card : rollup (views.map ReportView.card) cards = rollup views stories := by
  have step (tally : Tally) (view : ReportView) :
      tallyView cards tally view.card = tallyView stories tally view := by
    unfold tallyView ReportView.card
    rw [ready_card cards stories cut]
    rfl
  have opens : ((views.map ReportView.card).filter (·.story.superstate == .open)).length =
      (views.filter (·.story.superstate == .open)).length := by
    rw [List.filter_map, List.length_map]
    rfl
  unfold rollup
  rw [opens, List.length_map, List.foldl_map]
  simp only [step]

theorem place_card (reserved : Std.TreeSet String) (active : Option StateDef)
    (ids : List String × List String) (view : ReportView) :
    place reserved cards active ids view.card = place reserved stories active ids view := by
  unfold place ReportView.card
  rw [ready_card cards stories cut, claimable_card cards stories cut]
  rfl

end Loops

def ReportData.card (data : ReportData) : ReportData :=
  { data with stories := data.stories.map ReportView.card }

/-- The views that no unfinished reset owns, as the queue takes them. -/
def available (tables : BoardTables) (views : List ReportView) : List StoryView :=
  (views.filter fun view => !(resetIds tables).contains view.story.id).map (·.toStoryView)

def placed (tables : BoardTables) (views : List ReportView) : List String × List String :=
  views.foldl (place (resetIds tables) (viewMap views) (activeState tables.db.states)) ([], [])

def composed (tables : BoardTables) (views : List ReportView) (nextIds : List String) :
    ReportData where
  summary := { rollup views (viewMap views) with readyCount := (placed tables views).1.length }
  stories := views
  readyIds := (placed tables views).1
  blockedIds := (placed tables views).2
  nextIds := nextIds

theorem reportFromViews_queue (queue : List StoryView)
    (ran : executionQueue (available tables views) (viewMap views) (activeState tables.db.states)
      none none [] = some queue) :
    reportFromViews tables views = .ok (composed tables views (queue.map (·.story.id))) := by
  unfold available at ran
  unfold reportFromViews
  simp only [ran, demand]
  rfl

theorem composed_card (nextIds : List String) :
    composed tables (views.map ReportView.card) nextIds =
      (composed tables views nextIds).card := by
  have ids : placed tables (views.map ReportView.card) = placed tables views := by
    unfold placed
    simp only [List.foldl_map, place_card _ _ (viewMap_card views)]
  unfold composed
  rw [ids, rollup_card views _ _ (viewMap_card views)]
  rfl

theorem reportFromViews_card : reportFromViews tables (views.map ReportView.card) =
    (reportFromViews tables views).map ReportData.card := by
  have cards : available tables (views.map ReportView.card) =
      (available tables views).map StoryView.card := by
    rw [available, available, List.filter_map, List.map_map, List.map_map]
    rfl
  obtain ⟨queue, cardQueue, ran, cardRan, same⟩ := executionQueue_card _ _ (viewMap_card views)
    (available tables views) (activeState tables.db.states) none none []
  rw [← cards] at cardRan
  rw [reportFromViews_queue tables views queue ran,
    reportFromViews_queue tables _ cardQueue cardRan,
    same, composed_card]
  rfl

theorem boardData_card : boardData tables = (reportData tables).map ReportData.card := by
  unfold boardData reportData storyViews boardStories
  rw [storyViewsFromRows_board]
  cases storyViewsFromRows tables (storyRows tables.db) with
  | error failure => rfl
  | ok views => exact reportFromViews_card tables views

theorem sameSchedule_card (data : ReportData) : SameSchedule data.card data where
  readyIds := rfl
  blockedIds := rfl
  nextIds := rfl
  rollup := rfl
  stories := by
    rw [ReportData.card, List.forall₂_map_left_iff, List.forall₂_same]
    exact fun view _ => sameStory_card view

end Report

section Placing

variable (reserved : Std.TreeSet String) (stories : StoryIndex) (active : Option StateDef)

def offered (view : ReportView) : Bool :=
  !reserved.contains view.story.id && isClaimable view.story stories.story active

def withheld (view : ReportView) : Bool :=
  view.story.superstate == .open && !offered reserved stories active view &&
    (reserved.contains view.story.id || !isReady view.story stories.story)

theorem isClaimable_ready (story : StorySnapshot) (allStories : String → Option StorySnapshot)
    (claimable : isClaimable story allStories active = true) : isReady story allStories = true := by
  unfold isClaimable at claimable
  split at claimable
  · cases claimable
  · next outside =>
      simp only [Bool.or_eq_true, not_or] at outside
      simpa using outside.2

theorem isReady_open (story : StorySnapshot) (allStories : String → Option StorySnapshot)
    (ready : isReady story allStories = true) : (story.superstate == .open) = true := by
  simp only [isReady, Bool.and_eq_true] at ready
  exact ready.1.1.1

theorem offered_open (view : ReportView) (ready : offered reserved stories active view = true) :
    (view.story.superstate == .open) = true := by
  rw [offered, Bool.and_eq_true] at ready
  exact isReady_open _ _ (isClaimable_ready active _ _ ready.2)

theorem place_lists (ids : List String × List String) (view : ReportView) :
    place reserved stories active ids view =
      (ids.1 ++ (if offered reserved stories active view then [view.story.id] else []),
        ids.2 ++ (if withheld reserved stories active view then [view.story.id] else [])) := by
  cases ready : offered reserved stories active view with
  | true =>
      have opens := offered_open reserved stories active view ready
      rw [withheld, ready]
      rw [offered] at ready
      simp [place, opens, ready]
  | false =>
      rw [withheld, ready]
      rw [offered] at ready
      unfold place
      rw [ready]
      cases view.story.superstate == .open with
      | false => simp
      | true => cases reserved.contains view.story.id || !isReady view.story stories.story <;> simp

theorem place_foldl (views : List ReportView) (ids : List String × List String) :
    views.foldl (place reserved stories active) ids =
      (ids.1 ++ (views.filter (offered reserved stories active)).map (·.story.id),
        ids.2 ++ (views.filter (withheld reserved stories active)).map (·.story.id)) := by
  induction views generalizing ids with
  | nil => simp
  | cons view rest ih =>
      rw [List.foldl_cons, ih, place_lists, List.filter_cons, List.filter_cons]
      cases offered reserved stories active view <;> cases withheld reserved stories active view <;>
        simp

end Placing

section Apportioning

variable (tables : BoardTables) (views : List ReportView)
  (apart : (views.map (·.story.id)).Nodup)

theorem placed_lists : placed tables views =
    ((views.filter (offered (resetIds tables) (viewMap views) (activeState tables.db.states))).map
        (·.story.id),
      (views.filter (withheld (resetIds tables) (viewMap views) (activeState tables.db.states))).map
        (·.story.id)) :=
  place_foldl _ _ _ views ([], [])

theorem isReady_unblocked (story : StorySnapshot) (allStories : String → Option StorySnapshot)
    (ready : isReady story allStories = true) :
    ((relatedIds story "blocked-by").any fun other =>
      (allStories other).any (·.superstate == .open)) = false := by
  have opens := isReady_open story allStories ready
  simp only [isReady, isBlocked, opens, Bool.and_eq_true, Bool.true_and, Bool.not_eq_true',
    Bool.or_eq_false_iff] at ready
  exact ready.1.2.2

theorem claimable_free (stories : StoryIndex) (active : Option StateDef) (view : StoryView)
    (claimable : isClaimable view.story stories.story active = true) (other : String) :
    other ∉ ExecutionQueue.openPredecessors stories view := by
  intro waits
  obtain ⟨member, blocker, found, still⟩ :=
    (ExecutionQueue.mem_openPredecessors stories view other).mp waits
  have unblocked := isReady_unblocked _ _ (isClaimable_ready active _ _ claimable)
  rw [List.any_eq_false] at unblocked
  refine unblocked other ?_ (by simp [found, still])
  exact List.mem_map.mpr ⟨_, List.mem_filter.mpr ⟨member, beq_self_eq_true _⟩, rfl⟩

theorem claimable_alone (stories : StoryIndex) (active : Option StateDef) (story : StorySnapshot)
    (claimable : isClaimable story stories.story active = true) :
    isClaimable story (fun _ => none) active = true := by
  have unblocked := isReady_unblocked _ _ (isClaimable_ready active _ _ claimable)
  unfold isClaimable isReady isBlocked at claimable ⊢
  simpa [unblocked] using claimable

open ExecutionQueue in
theorem executionQueue_claimable (views : List StoryView) (stories : StoryIndex)
    (active : Option StateDef) (apart : (views.map (·.story.id)).Nodup) (queue : List StoryView)
    (ran : executionQueue views stories active none none [] = some queue) (view : StoryView)
    (member : view ∈ views) (claimable : isClaimable view.story stories.story active = true) :
    view.story.id ∈ queue.map (·.story.id) ↔ isHumanOnly view.story = false := by
  let candidates := candidates views active none none []
  have keyed (id : String) (view : StoryView) (found : candidates[id]? = some view) :
      view.story.id = id := (candidates_some views active none none [] id view found).2.2
  obtain ⟨order, ordered, greedy⟩ := executionQueue_order views stories active none none []
  obtain rfl := Option.some.inj (ran.symm.trans ordered)
  have own (other : StoryView) (held : other ∈ views) (same : other.story.id = view.story.id) :
      other = view := List.inj_on_of_nodup_map apart held member same
  have passes : admitted active none none [] view = !isHumanOnly view.story := by
    simp [admitted, claimable_alone stories active view.story claimable]
  have tasks := fun id member => ((greedy.apart _ _ _ _ _).2 id member).1
  rw [views_ids candidates order keyed tasks, greedy.listed_iff _ _ _ _ (tasks_finite candidates),
    candidates_task]
  constructor
  · rintro ⟨⟨other, held, taken, same⟩, -⟩
    obtain rfl := own other held same
    simpa [passes] using taken
  · intro agent
    have task : Task candidates view.story.id := by
      rw [candidates_task]
      exact ⟨view, member, by simp [passes, agent], rfl⟩
    refine ⟨⟨view, member, by simp [passes, agent], rfl⟩, ?_⟩
    refine clear_of_settled _ _ _ task fun other waits => ?_
    obtain ⟨listed, found, inside⟩ := waits
    obtain ⟨held, -, same⟩ := candidates_some views active none none [] _ listed found
    obtain rfl := own listed held same
    exact absurd inside (claimable_free stories active listed claimable other)

include apart

theorem placed_apart : ((placed tables views).1 ++ (placed tables views).2).Nodup := by
  rw [placed_lists, List.nodup_append]
  refine ⟨(List.filter_sublist.map _).nodup apart, (List.filter_sublist.map _).nodup apart, ?_⟩
  rintro id ready other blocked rfl
  obtain ⟨view, inside, rfl⟩ := List.mem_map.mp ready
  obtain ⟨second, held, same⟩ := List.mem_map.mp blocked
  obtain ⟨member, takes⟩ := List.mem_filter.mp inside
  obtain ⟨listed, withholds⟩ := List.mem_filter.mp held
  obtain rfl := List.inj_on_of_nodup_map apart listed member same
  simp [withheld, takes] at withholds

omit apart in
theorem placed_open (id : String)
    (member : id ∈ (placed tables views).1 ++ (placed tables views).2) :
    ∃ view ∈ views, view.story.id = id ∧ view.story.superstate = .open := by
  rw [placed_lists, List.mem_append, List.mem_map, List.mem_map] at member
  rcases member with ⟨view, inside, rfl⟩ | ⟨view, inside, rfl⟩
  · obtain ⟨held, ready⟩ := List.mem_filter.mp inside
    exact ⟨view, held, rfl, eq_of_beq (offered_open _ _ _ view ready)⟩
  · obtain ⟨held, blocked⟩ := List.mem_filter.mp inside
    simp only [withheld, Bool.and_eq_true] at blocked
    exact ⟨view, held, rfl, eq_of_beq blocked.1.1⟩

theorem mem_placed (view : ReportView) (member : view ∈ views) :
    view.story.id ∈ (placed tables views).1 ↔
      offered (resetIds tables) (viewMap views) (activeState tables.db.states) view = true := by
  rw [placed_lists]
  constructor
  · intro listed
    obtain ⟨other, inside, same⟩ := List.mem_map.mp listed
    obtain ⟨held, ready⟩ := List.mem_filter.mp inside
    rwa [← List.inj_on_of_nodup_map apart held member same]
  · exact fun ready => List.mem_map.mpr ⟨view, List.mem_filter.mpr ⟨member, ready⟩, rfl⟩

theorem composed_apportioned (queue : List StoryView)
    (ran : executionQueue (available tables views) (viewMap views) (activeState tables.db.states)
      none none [] = some queue) :
    Apportioned (composed tables views (queue.map (·.story.id))) where
  distinct := placed_apart tables views apart
  ofOpen := placed_open tables views
  next := by
    intro view member listed
    have ready := (mem_placed tables views apart view member).mp listed
    rw [offered, Bool.and_eq_true] at ready
    have inside : view.toStoryView ∈ available tables views :=
      List.mem_map_of_mem (List.mem_filter.mpr ⟨member, ready.1⟩)
    have distinct : ((available tables views).map (·.story.id)).Nodup := by
      rw [available, List.map_map]
      exact (List.filter_sublist.map _).nodup apart
    refine (executionQueue_claimable _ _ _ distinct queue ran _ inside ready.2).trans ?_
    rw [isHumanOnly, ← Bool.not_eq_true, List.any_beq']
    simp

omit apart in
theorem Apportioned.card (data : ReportData) (apportioned : Apportioned data) :
    Apportioned data.card where
  distinct := apportioned.distinct
  ofOpen := by
    intro id member
    obtain ⟨view, held, same, opens⟩ := apportioned.ofOpen id member
    exact ⟨view.card, List.mem_map_of_mem held, same, opens⟩
  next := by
    intro card member listed
    obtain ⟨view, held, rfl⟩ := List.mem_map.mp member
    exact apportioned.next view held listed

end Apportioning

section Surfaces

variable (tables : BoardTables)

theorem storyView_story (rows : List StoryRow) (stories : StoryIndex)
    (issues : Std.TreeMap String (List Finding)) (floors : BlockerFloors) (story : StorySnapshot)
    (view : ReportView) (made : storyView tables rows stories issues floors story = .ok view) :
    view.story.id = story.id := by
  simp only [storyView, bind_eq_ok, pure_eq_ok] at made
  obtain ⟨storyNo, -, reset, -, rfl⟩ := made
  rfl

theorem storyViews_apart (views : List ReportView) (ran : storyViews tables = .ok views) :
    (views.map (·.story.id)).Nodup := by
  let stories := effectiveStories tables.db (storyRows tables.db)
  have keys : stories.all.map (·.id) = stories.stories.keys := by
    rw [StoryIndex.all, List.map_map, ← Std.TreeMap.map_fst_toList_eq_keys]
    refine List.map_congr_left fun entry member => ?_
    exact stories.keyed _ _ (Std.TreeMap.mem_toList_iff_getElem?_eq_some.mp member)
  rw [mapM_keeps _ (·.id) (·.story.id) (storyView_story tables _ _ _ _) _ _ ran, keys]
  exact Std.TreeMap.nodup_keys

theorem reportData_total (views : List ReportView) (ran : storyViews tables = .ok views) :
    ∃ queue, executionQueue (available tables views) (viewMap views) (activeState tables.db.states)
        none none [] = some queue ∧
      reportData tables = .ok (composed tables views (queue.map (·.story.id))) := by
  obtain ⟨order, listed, -⟩ := ExecutionQueue.executionQueue_order (available tables views)
    (viewMap views) (activeState tables.db.states) none none []
  refine ⟨_, listed, ?_⟩
  rw [reportData, ran]
  exact reportFromViews_queue tables views _ listed

theorem summary_report : summary tables = reportSummary tables := by
  cases ran : storyViews tables with
  | error failure =>
      rw [summary, reportSummary, reportData, ran]
      rfl
  | ok views =>
      obtain ⟨queue, -, reported⟩ := reportData_total tables views ran
      have same : views.filter (fun view => Std.TreeSet.contains (.ofList (placed tables views).1)
            view.story.id) =
          views.filter (offered (resetIds tables) (viewMap views)
            (activeState tables.db.states)) := by
        refine List.filter_congr fun view member => ?_
        rw [Bool.eq_iff_iff, ← mem_placed tables views
          (storyViews_apart tables views ran) view member,
          Std.TreeSet.contains_iff_mem, Std.TreeSet.mem_ofList, List.contains_iff_mem]
      rw [summary, reportSummary, ran, reported]
      simp only [bind, Except.bind, composed, same]
      rfl

end Surfaces

/-- One schedule, whichever surface asks. -/
theorem one_schedule (tables : BoardTables) :
    ((∃ failure, boardData tables = .error failure ∧ reportData tables = .error failure) ∨
      ∃ board report, boardData tables = .ok board ∧ reportData tables = .ok report ∧
        SameSchedule board report ∧ Apportioned board ∧ Apportioned report) ∧
      summary tables = reportSummary tables := by
  refine ⟨?_, summary_report tables⟩
  rw [boardData_card]
  cases ran : storyViews tables with
  | error failure =>
      have failed : reportData tables = .error failure := by
        rw [reportData, ran]
        rfl
      rw [failed]
      exact .inl ⟨failure, rfl, rfl⟩
  | ok views =>
      obtain ⟨queue, listed, reported⟩ := reportData_total tables views ran
      have apportioned := composed_apportioned tables views
        (storyViews_apart tables views ran) queue
        listed
      rw [reported]
      exact .inr ⟨_, _, rfl, rfl, sameSchedule_card _, apportioned.card,
        apportioned⟩

end Storyhook.Service
