import Mathlib.Data.List.Nodup
import Storyhook.Domain.ReadyOrder
import Storyhook.Library.Keyed
import Storyhook.Library.Replay
import Storyhook.Library.Schedule

namespace Storyhook.Service

open Storyhook.Domain
open Library Library.Schedule

/-- A story as a listing shows it. -/
structure StoryView where
  story : StorySnapshot

structure QueueState where
  counts : Std.TreeMap String Nat
  frontier : Std.TreeSet ReadyKey
  execution : List StoryView

namespace ExecutionQueue

section Queue

variable (views : List StoryView) (stories : StoryIndex) (active : Option StateDef)
  (phase : Option String) (epicDescendants : Option (Std.TreeSet String))
  (excludedLabels : List String)

/-- Whether a view passes every filter, dependencies apart. -/
def admitted (view : StoryView) : Bool :=
  isClaimable view.story (fun _ => none) active && !isHumanOnly view.story &&
    phase.all (fun phase => view.story.labels.contains ("phase:" ++ phase)) &&
    epicDescendants.all (·.contains view.story.id) &&
    !excludedLabels.any fun label => view.story.labels.contains label

def candidates : Std.TreeMap String StoryView :=
  .ofList ((views.filter (admitted active phase epicDescendants excludedLabels)).map fun view =>
    (view.story.id, view))

/-- The stories there are that a story waits for and that are open. -/
def openPredecessors (view : StoryView) : Std.TreeSet String :=
  .ofList ((relatedIds view.story "blocked-by").filter fun other =>
    (stories.story other).any isOpen)

end Queue

section Run

variable (stories : StoryIndex) (candidates : Std.TreeMap String StoryView)

def predecessorCounts : Std.TreeMap String Nat :=
  candidates.map fun _ view => (openPredecessors stories view).size

def enterSuccessor (id : String) (successors : Std.TreeMap String (Std.TreeSet String))
    (predecessor : String) : Std.TreeMap String (Std.TreeSet String) :=
  successors.insert predecessor ((successors.getD predecessor ∅).insert id)

def enterSuccessors (successors : Std.TreeMap String (Std.TreeSet String))
    (entry : String × StoryView) : Std.TreeMap String (Std.TreeSet String) :=
  (openPredecessors stories entry.2).toList.foldl (enterSuccessor entry.1) successors

def successors : Std.TreeMap String (Std.TreeSet String) :=
  candidates.toList.foldl (enterSuccessors stories) ∅

def enterFrontier (state : QueueState) (id : String) : Option QueueState := do
  let view ← candidates[id]?
  let ranking := ReadyRanking.new stories
  let key : ReadyKey := ⟨ranking.effective view.story, ranking.parentEpicPriority view.story,
    storyNumber id, id⟩
  some { state with frontier := state.frontier.insert key }

/-- Nothing where the count would fall below zero. -/
def settle (state : QueueState) (successor : String) : Option QueueState :=
  match state.counts[successor]? with
  | none => some state
  | some 0 => none
  | some (count + 1) =>
      let counted := { state with counts := state.counts.insert successor count }
      if count = 0 then enterFrontier stories candidates counted successor else some counted

def take (state : QueueState) (key : ReadyKey) : Option QueueState := do
  let view ← candidates[key.id]?
  let taken := { state with
    frontier := state.frontier.erase key
    execution := state.execution ++ [view] }
  (((successors stories candidates).getD key.id ∅).toList).foldlM (settle stories candidates) taken

def drain : Nat → QueueState → Option (List StoryView)
  | 0, _ => none
  | fuel + 1, state =>
      match state.frontier.min? with
      | none => some state.execution
      | some key => (take stories candidates state key).bind (drain fuel)

def start : Option QueueState :=
  let counts := predecessorCounts stories candidates
  (counts.toList.filter (·.2 == 0)).foldlM (fun state entry =>
    enterFrontier stories candidates state entry.1) ⟨counts, ∅, []⟩

end Run

end ExecutionQueue

open ExecutionQueue in
/-- The claimable stories in the order they can be worked through; nothing where a count underflows
or an index misses. -/
def executionQueue (views : List StoryView) (stories : StoryIndex) (active : Option StateDef)
    (phase : Option String) (epicDescendants : Option (Std.TreeSet String))
    (excludedLabels : List String) : Option (List StoryView) :=
  let candidates := candidates views active phase epicDescendants excludedLabels
  (start stories candidates).bind (drain stories candidates (candidates.size + 1))

namespace ExecutionQueue

theorem mem_openPredecessors (stories : StoryIndex) (view : StoryView) (other : String) :
    other ∈ openPredecessors stories view ↔ ⟨"blocked-by", other⟩ ∈ view.story.relationships ∧
      ∃ blocker, stories.story other = some blocker ∧ blocker.superstate = .open := by
  simp only [openPredecessors, Std.TreeSet.mem_ofList, List.contains_iff_mem, List.mem_filter,
    relatedIds, List.mem_map, isOpen, Option.any_eq_true, beq_iff_eq]
  refine and_congr_left fun _ => ?_
  constructor
  · rintro ⟨⟨name, far⟩, ⟨member, named⟩, rfl⟩
    subst named
    exact member
  · exact fun member => ⟨_, ⟨member, rfl⟩, rfl⟩

section Loop

variable (stories : StoryIndex) (candidates : Std.TreeMap String StoryView)

theorem mem_successors (node id : String) :
    id ∈ (successors stories candidates).getD node ∅ ↔
      ∃ view, candidates[id]? = some view ∧ node ∈ openPredecessors stories view := by
  rw [successors, Replay.foldl_collects (enterSuccessors stories)
    (fun successors => id ∈ successors.getD node ∅)
    (fun entry => entry.1 = id ∧ node ∈ openPredecessors stories entry.2)]
  · constructor
    · rintro (none | ⟨entry, member, rfl, waits⟩)
      · simp at none
      · exact ⟨entry.2, Std.TreeMap.mem_toList_iff_getElem?_eq_some.mp member, waits⟩
    · rintro ⟨view, found, waits⟩
      exact Or.inr ⟨(id, view), Std.TreeMap.mem_toList_iff_getElem?_eq_some.mpr found, rfl, waits⟩
  · intro before entry
    rw [enterSuccessors, Replay.foldl_collects (enterSuccessor entry.1)
      (fun successors => id ∈ successors.getD node ∅)
      (fun predecessor => predecessor = node ∧ entry.1 = id)]
    · simp only [Std.TreeSet.mem_toList]
      grind
    · intro before predecessor
      rw [enterSuccessor, Std.TreeMap.getD_insert]
      by_cases same : predecessor = node
      · subst same
        simp only [Std.LawfulEqOrd.compare_eq_iff_eq, if_true, Std.TreeSet.mem_insert]
        grind
      · simp [same]

def Task (id : String) : Prop := ∃ view, candidates[id]? = some view

def Waits (id other : String) : Prop :=
  ∃ view, candidates[id]? = some view ∧ other ∈ openPredecessors stories view

theorem tasks_finite : {id | Task candidates id}.Finite := by
  refine (List.finite_toSet candidates.keys).subset ?_
  rintro id ⟨view, found⟩
  exact Std.TreeMap.mem_keys.mpr (Std.TreeMap.mem_iff_isSome_getElem?.mpr (by simp [found]))

def remaining (done : List String) (view : StoryView) : Nat :=
  ((openPredecessors stories view).toList.filter (· ∉ done)).length

theorem remaining_zero (done : List String) (view : StoryView) :
    remaining stories done view = 0 ↔ ∀ other ∈ openPredecessors stories view, other ∈ done := by
  simp [remaining, List.length_eq_zero_iff, List.filter_eq_nil_iff, Std.TreeSet.mem_toList]

theorem remaining_listed (done : List String) (view : StoryView) (node : String)
    (waits : node ∈ openPredecessors stories view) (pending : node ∉ done) :
    remaining stories done view = remaining stories (done ++ [node]) view + 1 := by
  have distinct : (openPredecessors stories view).toList.Nodup :=
    Std.TreeSet.distinct_toList.imp fun apart same =>
      apart (Std.LawfulEqOrd.compare_eq_iff_eq.mpr same)
  have member : node ∈ (openPredecessors stories view).toList.filter (· ∉ done) := by
    simp [Std.TreeSet.mem_toList, waits, pending]
  have fewer : (openPredecessors stories view).toList.filter (· ∉ done ++ [node]) =
      ((openPredecessors stories view).toList.filter (· ∉ done)).erase node := by
    rw [(distinct.filter _).erase_eq_filter, List.filter_filter]
    refine List.filter_congr fun other _ => ?_
    by_cases same : other = node <;> by_cases earlier : other ∈ done <;> simp [same, earlier]
  rw [remaining, remaining, fewer, List.length_erase_of_mem member]
  have positive := List.length_pos_of_mem member
  omega

theorem remaining_other (done : List String) (view : StoryView) (node : String)
    (apart : node ∉ openPredecessors stories view) :
    remaining stories (done ++ [node]) view = remaining stories done view := by
  rw [remaining, remaining]
  congr 1
  refine List.filter_congr fun other member => ?_
  have different : other ≠ node := by
    rintro rfl
    exact apart (Std.TreeSet.mem_toList.mp member)
  simp [different]

/-- The keys of the candidates that wait for nothing outside the listed ones. -/
def Ready (done : List String) (key : ReadyKey) : Prop :=
  ∃ view, candidates[key.id]? = some view ∧ key = readyKey (.new stories) view.story ∧
    Available (Task candidates) (Waits stories candidates) done key.id

/-- What the loop has made of the candidates once it has listed some. -/
structure Drained (done : List String) (state : QueueState) : Prop where
  counted : ∀ id : String, state.counts[id]? = (candidates[id]?).map (remaining stories done)
  frontier : ∀ key, key ∈ state.frontier ↔ Ready stories candidates done key
  execution : state.execution = done.filterMap (candidates[·]?)
  closed : ∀ id ∈ done, Task candidates id ∧
    ∀ other, Waits stories candidates id other → other ∈ done

/-- As `Drained`, with one more listed and some of its successors told. -/
structure Settling (done : List String) (node : String) (told : List String)
    (state : QueueState) : Prop where
  counted : ∀ id : String, state.counts[id]? = (candidates[id]?).map fun view =>
    if id ∈ told then remaining stories (done ++ [node]) view else remaining stories done view
  frontier : ∀ key, key ∈ state.frontier ↔ Ready stories candidates done key ∧ key.id ≠ node ∨
    key.id ∈ told ∧ Ready stories candidates (done ++ [node]) key
  execution : state.execution = (done ++ [node]).filterMap (candidates[·]?)

theorem available_iff (done : List String) (id : String) (view : StoryView)
    (found : candidates[id]? = some view) :
    Available (Task candidates) (Waits stories candidates) done id ↔
      id ∉ done ∧ remaining stories done view = 0 := by
  rw [remaining_zero]
  constructor
  · intro available
    exact ⟨available.pending, fun other waits => available.settled other ⟨view, found, waits⟩⟩
  · rintro ⟨pending, settled⟩
    refine ⟨⟨view, found⟩, pending, ?_⟩
    rintro other ⟨same, listed, waits⟩
    rw [found, Option.some.injEq] at listed
    exact settled other (listed ▸ waits)

variable (keyed : ∀ (id : String) (view : StoryView), candidates[id]? = some view →
  view.story.id = id)

include keyed

theorem admit_some (state : QueueState) (id : String) (view : StoryView)
    (found : candidates[id]? = some view) : enterFrontier stories candidates state id =
      some { state with frontier := state.frontier.insert (readyKey
        (.new stories) view.story) } := by
  rw [enterFrontier, found, readyKey, keyed id view found]
  rfl

theorem ready_id (done : List String) (id : String) (view : StoryView)
    (found : candidates[id]? = some view) :
    Ready stories candidates done (readyKey (.new stories) view.story) ↔
      Available (Task candidates) (Waits stories candidates) done id := by
  have same : (readyKey (.new stories) view.story).id = id := keyed id view found
  rw [Ready, same]
  constructor
  · rintro ⟨-, -, -, available⟩
    exact available
  · exact fun available => ⟨view, found, rfl, available⟩

theorem settle_told (done told : List String) (node successor : String) (state : QueueState)
    (settling : Settling stories candidates done node told state) (pending : node ∉ done)
    (follows : successor ∈ (successors stories candidates).getD node ∅)
    (untold : successor ∉ told) (fresh : successor ∉ done ++ [node]) :
    ∃ after, settle stories candidates state successor = some after ∧
      Settling stories candidates done node (told ++ [successor]) after := by
  obtain ⟨view, found, waits⟩ := (mem_successors stories candidates node successor).mp follows
  have count : state.counts[successor]? =
      some (remaining stories (done ++ [node]) view + 1) := by
    rw [settling.counted, found, Option.map_some, if_neg untold,
      remaining_listed stories done view node waits pending]
  have counted (id : String) :
      (state.counts.insert successor (remaining stories (done ++ [node]) view))[id]? =
        (candidates[id]?).map fun view => if id ∈ told ++ [successor] then
          remaining stories (done ++ [node]) view else remaining stories done view := by
    rw [Std.TreeMap.getElem?_insert, settling.counted]
    by_cases same : successor = id
    · subst same
      simp [found]
    · simp [same, Ne.symm same]
  have here := ready_id stories candidates keyed (done ++ [node]) successor view found
  have available := available_iff stories candidates (done ++ [node]) successor view found
  have named : (readyKey (.new stories) view.story).id = successor := keyed successor view found
  unfold settle
  rw [count]
  simp only
  split
  · next zero =>
      rw [admit_some stories candidates keyed _ successor view found]
      refine ⟨_, rfl, counted, ?_, settling.execution⟩
      intro key
      simp only [Std.TreeSet.mem_insert, Std.LawfulEqOrd.compare_eq_iff_eq, settling.frontier,
        List.mem_append, List.mem_singleton]
      constructor
      · rintro (rfl | old | ⟨member, ready⟩)
        · exact Or.inr ⟨Or.inr named, here.mpr (available.mpr ⟨fresh, zero⟩)⟩
        · exact Or.inl old
        · exact Or.inr ⟨Or.inl member, ready⟩
      · rintro (old | ⟨member | same, ready⟩)
        · exact Or.inr (Or.inl old)
        · exact Or.inr (Or.inr ⟨member, ready⟩)
        · obtain ⟨own, listed, shape, -⟩ := ready
          rw [same, found, Option.some.injEq] at listed
          exact Or.inl (by rw [shape, listed])
  · next positive =>
      refine ⟨_, rfl, counted, ?_, settling.execution⟩
      intro key
      simp only [settling.frontier, List.mem_append, List.mem_singleton]
      refine or_congr_right (and_congr_left fun ready => ?_)
      refine (or_iff_left ?_).symm
      intro same
      obtain ⟨-, -, -, still⟩ := ready
      rw [same] at still
      exact positive (available.mp still).2

omit keyed in
theorem erase_settling (done : List String) (key : ReadyKey) (view : StoryView)
    (state : QueueState) (drained : Drained stories candidates done state)
    (found : candidates[key.id]? = some view)
    (shape : key = readyKey (.new stories) view.story) :
    Settling stories candidates done key.id [] { state with
      frontier := state.frontier.erase key
      execution := state.execution ++ [view] } where
  counted := fun id => by simpa using drained.counted id
  frontier := by
    intro other
    simp only [Std.TreeSet.mem_erase, Ne, Std.LawfulEqOrd.compare_eq_iff_eq, drained.frontier,
      List.not_mem_nil, false_and, or_false]
    rw [and_comm]
    refine and_congr_right fun ready => not_congr ?_
    constructor
    · rintro rfl
      rfl
    · intro same
      obtain ⟨own, listed, spelled, -⟩ := ready
      rw [same, found, Option.some.injEq] at listed
      rw [shape, spelled, listed]
  execution := by simp [drained.execution, found]

omit keyed in
theorem Settling.drained (done : List String) (node : String) (state : QueueState)
    (before : ∀ id ∈ done, Task candidates id ∧
      ∀ other, Waits stories candidates id other → other ∈ done)
    (available : Available (Task candidates) (Waits stories candidates) done node)
    (settling : Settling stories candidates done node
      ((successors stories candidates).getD node ∅).toList state) :
    Drained stories candidates (done ++ [node]) state where
  counted := by
    intro id
    rw [settling.counted]
    refine Option.map_congr fun view found => ?_
    split
    · rfl
    · next untold =>
        rw [remaining_other]
        intro waits
        exact untold (Std.TreeSet.mem_toList.mpr ((mem_successors stories candidates node id).mpr
          ⟨view, found, waits⟩))
  frontier := by
    intro key
    rw [settling.frontier]
    constructor
    · rintro (⟨⟨view, found, shape, ready⟩, apart⟩ | ⟨-, ready⟩)
      · refine ⟨view, found, shape, ready.task, by simp [ready.pending, apart], ?_⟩
        exact fun other waits => List.mem_append_left _ (ready.settled other waits)
      · exact ready
    · intro ready
      by_cases told : key.id ∈ ((successors stories candidates).getD node ∅).toList
      · exact Or.inr ⟨told, ready⟩
      · obtain ⟨view, found, shape, still⟩ := ready
        have pending := still.pending
        rw [List.mem_append, List.mem_singleton, not_or] at pending
        refine Or.inl ⟨⟨view, found, shape, still.task, pending.1, ?_⟩, pending.2⟩
        intro other waits
        refine (List.mem_append.mp (still.settled other waits)).resolve_right fun last => ?_
        rw [List.mem_singleton] at last
        subst last
        exact told (Std.TreeSet.mem_toList.mpr
          ((mem_successors stories candidates other key.id).mpr waits))
  execution := settling.execution
  closed := by
    intro id member
    rcases List.mem_append.mp member with earlier | last
    · exact ⟨(before id earlier).1, fun other waits =>
        List.mem_append_left _ ((before id earlier).2 other waits)⟩
    · rw [List.mem_singleton.mp last]
      exact ⟨available.task, fun other waits =>
        List.mem_append_left _ (available.settled other waits)⟩

theorem take_total (done : List String) (key : ReadyKey) (state : QueueState)
    (drained : Drained stories candidates done state) (ready : Ready stories candidates done key) :
    ∃ after, take stories candidates state key = some after ∧
      Drained stories candidates (done ++ [key.id]) after := by
  obtain ⟨view, found, shape, available⟩ := ready
  have initial :=
    erase_settling stories candidates done key view state drained found shape
  obtain ⟨after, ran, settled⟩ := Outcome.foldlM_total (settle stories candidates)
    (Settling stories candidates done key.id)
    ((successors stories candidates).getD key.id ∅).toList (by
      intro told successor rest before split settling
      have follows : successor ∈ (successors stories candidates).getD key.id ∅ :=
        Std.TreeSet.mem_toList.mp (by simp [split])
      have waits := (mem_successors stories candidates key.id successor).mp follows
      have distinct : (told ++ successor :: rest).Nodup := by
        rw [← split]
        exact Std.TreeSet.distinct_toList.imp fun apart same =>
          apart (Std.LawfulEqOrd.compare_eq_iff_eq.mpr same)
      refine settle_told stories candidates keyed done told key.id successor before settling
        available.pending follows ?_ ?_
      · intro again
        exact (List.nodup_append.mp distinct).2.2 successor again successor List.mem_cons_self rfl
      · rw [List.mem_append, List.mem_singleton, not_or]
        constructor
        · exact fun earlier => available.pending ((drained.closed successor earlier).2 _ waits)
        · rintro rfl
          exact available.pending (available.settled _ waits)) _ initial
  refine ⟨after, ?_, settled.drained stories candidates done key.id after drained.closed
    available⟩
  rw [take, found]
  exact ran

theorem start_total :
    ∃ state, start stories candidates = some state ∧ Drained stories candidates [] state := by
  let counts := predecessorCounts stories candidates
  obtain ⟨state, ran, same, blank, frontier⟩ := Outcome.foldlM_total
    (fun (state : QueueState) (entry : String × Nat) =>
      enterFrontier stories candidates state entry.1)
    (fun seen state => state.counts = counts ∧ state.execution = [] ∧
      ∀ key, key ∈ state.frontier ↔ ∃ entry ∈ seen, ∃ view,
        candidates[entry.1]? = some view ∧ key = readyKey (.new stories) view.story)
    (counts.toList.filter (·.2 == 0)) (by
      intro seen entry rest before split holds
      have member : entry ∈ counts.toList.filter (·.2 == 0) := by simp [split]
      have counted := Std.TreeMap.mem_toList_iff_getElem?_eq_some.mp (List.mem_filter.mp member).1
      simp only [counts, predecessorCounts, Std.TreeMap.getElem?_map, Option.map_eq_some_iff]
        at counted
      obtain ⟨view, found, -⟩ := counted
      refine ⟨_, admit_some stories candidates keyed before entry.1 view found, holds.1, holds.2.1,
        fun key => ?_⟩
      simp only [Std.TreeSet.mem_insert, Std.LawfulEqOrd.compare_eq_iff_eq, holds.2.2,
        List.mem_append, List.mem_singleton]
      constructor
      · rintro (rfl | ⟨earlier, inside, others⟩)
        · exact ⟨entry, Or.inr rfl, view, found, rfl⟩
        · exact ⟨earlier, Or.inl inside, others⟩
      · rintro ⟨earlier, inside | rfl, own, listed, shape⟩
        · exact Or.inr ⟨earlier, inside, own, listed, shape⟩
        · rw [found, Option.some.injEq] at listed
          exact Or.inl (by rw [shape, listed])) ⟨counts, ∅, []⟩ ⟨rfl, rfl, by simp⟩
  have size (view : StoryView) : (openPredecessors stories view).size =
    remaining stories [] view := by
    rw [remaining, List.filter_eq_self.mpr (by simp), Std.TreeSet.length_toList]
  have counted (id : String) : counts[id]? = (candidates[id]?).map (remaining stories []) := by
    simp only [counts, predecessorCounts, Std.TreeMap.getElem?_map, size]
  refine ⟨state, ran, fun id => by rw [same, counted], fun key => ?_, by simp [blank], by simp⟩
  rw [frontier]
  constructor
  · rintro ⟨entry, member, view, found, rfl⟩
    obtain ⟨inside, zero⟩ := List.mem_filter.mp member
    have held := Std.TreeMap.mem_toList_iff_getElem?_eq_some.mp inside
    rw [counted, found, Option.map_some, Option.some.injEq] at held
    rw [ready_id stories candidates keyed [] entry.1 view found,
      available_iff stories candidates [] entry.1 view found, held]
    exact ⟨by simp, by simpa using zero⟩
  · rintro ⟨view, found, shape, ready⟩
    have zero := ((available_iff stories candidates [] key.id view found).mp ready).2
    refine ⟨(key.id, 0), List.mem_filter.mpr ⟨?_, rfl⟩, view, found, shape⟩
    rw [Std.TreeMap.mem_toList_iff_getElem?_eq_some, counted, found, Option.map_some, zero]

/-- Whether one candidate comes no later than another in the order ready work is offered in. -/
def NoLater (id other : String) : Prop :=
  ∀ left right, candidates[id]? = some left → candidates[other]? = some right →
    (readyOrder (.new stories) left.story right.story).isLE = true

theorem drain_greedy (fuel : Nat) (done : List String) (state : QueueState)
    (drained : Drained stories candidates done state)
    (fuelled : (candidates.keys.filter (· ∉ done)).length < fuel) :
    ∃ order, drain stories candidates fuel state = some ((done ++ order).filterMap
      (candidates[·]?)) ∧
      Greedy (Task candidates) (Waits stories candidates)
        (NoLater stories candidates) done order := by
  induction fuel generalizing done state with
  | zero => cases Nat.not_lt_zero _ fuelled
  | succ fuel ih =>
      unfold drain
      split
      · next empty =>
          refine ⟨[], by rw [List.append_nil, drained.execution], .stop done ?_⟩
          intro id available
          obtain ⟨view, found⟩ := available.task
          have member := (drained.frontier _).mpr
            ((ready_id stories candidates keyed done id view found).mpr available)
          rw [Std.TreeSet.min?_eq_none_iff, Std.TreeSet.isEmpty_iff_forall_not_mem] at empty
          exact empty _ member
      · next key first =>
          obtain ⟨member, least⟩ := Std.TreeSet.min?_eq_some_iff_mem_and_forall.mp first
          have ready := (drained.frontier key).mp member
          obtain ⟨after, taken, next⟩ :=
            take_total stories candidates keyed done key state drained ready
          obtain ⟨view, found, shape, available⟩ := ready
          have fewer : (candidates.keys.filter (· ∉ done ++ [key.id])).length < fuel := by
            have listed : key.id ∈ candidates.keys.filter (· ∉ done) := by
              rw [List.mem_filter, Std.TreeMap.mem_keys]
              exact ⟨Std.TreeMap.mem_iff_isSome_getElem?.mpr (by simp [found]),
                by simpa using available.pending⟩
            have erased : candidates.keys.filter (· ∉ done ++ [key.id]) =
                (candidates.keys.filter (· ∉ done)).erase key.id := by
              rw [(Std.TreeMap.nodup_keys.filter _).erase_eq_filter, List.filter_filter]
              refine List.filter_congr fun other _ => ?_
              by_cases same : other = key.id <;> by_cases earlier : other ∈ done <;>
                simp [same, earlier]
            rw [erased, List.length_erase_of_mem listed]
            have positive := List.length_pos_of_mem listed
            omega
          obtain ⟨order, ran, greedy⟩ := ih (done ++ [key.id]) after next fewer
          refine ⟨key.id :: order, ?_, .take done order key.id available ?_ greedy⟩
          · rw [taken, Option.bind_some, ran, List.append_assoc]
            rfl
          · intro other waiting left right leftFound rightFound
            rw [found, Option.some.injEq] at leftFound
            have inside := (drained.frontier _).mpr
              ((ready_id stories candidates keyed done other right rightFound).mpr waiting)
            rw [readyOrder_key, ← leftFound, ← shape]
            exact least _ inside

omit keyed in
theorem views_ids (order : List String)
    (keyed : ∀ (id : String) (view : StoryView), candidates[id]? = some view → view.story.id = id)
    (tasks : ∀ id ∈ order, Task candidates id) :
    (order.filterMap (candidates[·]?)).map (·.story.id) = order := by
  induction order with
  | nil => rfl
  | cons id rest ih =>
      obtain ⟨⟨view, found⟩, others⟩ := List.forall_mem_cons.mp tasks
      rw [List.filterMap_cons_some found, List.map_cons, ih others, keyed id view found]

end Loop

section Candidates

variable (views : List StoryView) (active : Option StateDef) (phase : Option String)
  (epicDescendants : Option (Std.TreeSet String)) (excludedLabels : List String)

theorem candidates_some (id : String) (view : StoryView)
    (found : (candidates views active phase epicDescendants excludedLabels)[id]? = some view) :
    view ∈ views ∧ admitted active phase epicDescendants excludedLabels view = true ∧
      view.story.id = id := by
  obtain ⟨own, member, same⟩ := List.mem_map.mp (ofList_mem _ id view found)
  cases same
  obtain ⟨inside, passes⟩ := List.mem_filter.mp member
  exact ⟨inside, passes, rfl⟩

theorem candidates_task (id : String) :
    Task (candidates views active phase epicDescendants excludedLabels) id ↔
      ∃ view ∈ views, admitted active phase epicDescendants excludedLabels view = true ∧
        view.story.id = id := by
  constructor
  · rintro ⟨view, found⟩
    obtain ⟨inside, passes, named⟩ := candidates_some views active phase epicDescendants
      excludedLabels id view found
    exact ⟨view, inside, passes, named⟩
  · rintro ⟨view, inside, passes, rfl⟩
    have member : view.story.id ∈ candidates views active phase epicDescendants excludedLabels := by
      rw [candidates, Std.TreeMap.mem_ofList, List.contains_iff_mem, List.map_map]
      exact List.mem_map_of_mem (List.mem_filter.mpr ⟨inside, passes⟩)
    exact ⟨_, Std.TreeMap.getElem?_eq_some_getElem member⟩

end Candidates

def closing (stories : StoryIndex) (closed : List String) (id : String) : Option StorySnapshot :=
  (stories.story id).map fun story =>
    if id ∈ closed then { story with superstate := .closed } else story

theorem closing_claimable (stories : StoryIndex) (closed : List String) (view : StoryView)
    (active : Option StateDef) (claimable : isClaimable view.story (fun _ => none) active = true)
    (settled : ∀ other ∈ openPredecessors stories view, other ∈ closed) :
    isClaimable view.story (closing stories closed) active = true := by
  have unblocked : ((relatedIds view.story "blocked-by").any fun other =>
      (closing stories closed other).any (·.superstate == .open)) = false := by
    rw [List.any_eq_false]
    intro other member
    rw [Bool.not_eq_true, closing, Option.any_map]
    cases found : stories.story other with
    | none => rfl
    | some blocker =>
        by_cases done : other ∈ closed
        · simp [done]
        · simp only [Option.any_some, done, if_false, beq_eq_false_iff_ne]
          intro still
          apply done
          apply settled
          obtain ⟨relation, listed, rfl⟩ := List.mem_map.mp member
          obtain ⟨inside, named⟩ := List.mem_filter.mp listed
          rw [mem_openPredecessors, ← eq_of_beq named]
          exact ⟨inside, blocker, found, still⟩
  unfold isClaimable isReady isBlocked at claimable ⊢
  simpa [unblocked] using claimable

section Listed

variable (views : List StoryView) (stories : StoryIndex) (active : Option StateDef)
  (phase : Option String) (epicDescendants : Option (Std.TreeSet String))
  (excludedLabels : List String)

theorem executionQueue_order :
    let candidates := candidates views active phase epicDescendants excludedLabels
    ∃ order, executionQueue views stories active phase epicDescendants excludedLabels =
      some (order.filterMap (candidates[·]?)) ∧
        Greedy (Task candidates) (Waits stories candidates)
          (NoLater stories candidates) [] order := by
  intro candidates
  have keyed (id : String) (view : StoryView) (found : candidates[id]? = some view) :
      view.story.id = id :=
    (candidates_some views active phase epicDescendants excludedLabels id view found).2.2
  obtain ⟨state, started, drained⟩ := start_total stories candidates keyed
  obtain ⟨order, ran, greedy⟩ := drain_greedy stories candidates keyed
    (candidates.size + 1) [] state
    drained (by simp [List.filter_eq_self.mpr, Std.TreeMap.length_keys])
  refine ⟨order, ?_, greedy⟩
  rw [executionQueue, started]
  exact ran

theorem executionQueue_members (queue : List StoryView)
    (listed : executionQueue views stories active phase epicDescendants excludedLabels = some queue)
    (view : StoryView) (member : view ∈ queue) :
    view ∈ views ∧ admitted active phase epicDescendants excludedLabels view = true := by
  obtain ⟨order, ran, -⟩ :=
    executionQueue_order views stories active phase epicDescendants excludedLabels
  obtain rfl := Option.some.inj (listed.symm.trans ran)
  obtain ⟨id, -, found⟩ := List.mem_filterMap.mp member
  obtain ⟨inside, passes, -⟩ :=
    candidates_some views active phase epicDescendants excludedLabels id view found
  exact ⟨inside, passes⟩

end Listed

end ExecutionQueue

open ExecutionQueue in
/-- The queue is the greedy schedule of the candidates over their open dependencies, and no count
ever underflows on the way. -/
theorem execution_queue_greedy (views : List StoryView) (stories : StoryIndex)
    (active : Option StateDef) (phase : Option String)
    (epicDescendants : Option (Std.TreeSet String)) (excludedLabels : List String) :
    ∃ queue, executionQueue views stories active phase epicDescendants excludedLabels = some queue ∧
      (∀ view ∈ queue, view ∈ views ∧
        admitted active phase epicDescendants excludedLabels view = true) ∧
      (queue.map (·.story.id)).Nodup ∧
      let candidates := candidates views active phase epicDescendants excludedLabels
      (∀ id, id ∈ queue.map (·.story.id) ↔
        (∃ view ∈ views, admitted active phase epicDescendants excludedLabels view = true ∧
          view.story.id = id) ∧ ¬ Stuck (Task candidates) (Waits stories candidates) id) ∧
      ∀ earlier view later, queue = earlier ++ view :: later →
        (∀ other ∈ openPredecessors stories view, other ∈ earlier.map (·.story.id)) ∧
          isClaimable view.story (closing stories (earlier.map (·.story.id))) active = true ∧
            ∀ other id, candidates[id]? = some other → id ∉ earlier.map (·.story.id) →
              (∀ blocker ∈ openPredecessors stories other, blocker ∈ earlier.map (·.story.id)) →
                (readyOrder (.new stories) view.story other.story).isLE = true := by
  let candidates := candidates views active phase epicDescendants excludedLabels
  have keyed (id : String) (view : StoryView) (found : candidates[id]? = some view) :
      view.story.id = id :=
    (candidates_some views active phase epicDescendants excludedLabels id view found).2.2
  obtain ⟨order, ran, greedy⟩ :=
    executionQueue_order views stories active phase epicDescendants excludedLabels
  have tasks := fun id member => ((greedy.apart _ _ _ _ _).2 id member).1
  have ids := views_ids candidates order keyed tasks
  have found (view : StoryView) (member : view ∈ order.filterMap (candidates[·]?)) :
      candidates[view.story.id]? = some view := by
    obtain ⟨id, -, listed⟩ := List.mem_filterMap.mp member
    rwa [keyed id view listed]
  refine ⟨order.filterMap (candidates[·]?), ran, ?_, ?_, ?_, ?_⟩
  · exact executionQueue_members views stories active phase epicDescendants excludedLabels _ ran
  · rw [ids]
    exact (greedy.apart _ _ _ _ _).1
  · intro id
    rw [ids, greedy.listed_iff _ _ _ _ (tasks_finite candidates), candidates_task]
  · intro earlier view later split
    have own := found view (by simp [split])
    have spelled : order = earlier.map (·.story.id) ++ view.story.id :: later.map (·.story.id) := by
      rw [← ids, split, List.map_append, List.map_cons]
    obtain ⟨available, least⟩ := greedy.chosen _ _ _ _ _ _ _ _ spelled
    rw [List.nil_append] at available least
    have settled := (remaining_zero stories _ view).mp
      ((available_iff stories candidates _ _ view own).mp available).2
    obtain ⟨-, passes, -⟩ := candidates_some views active phase epicDescendants excludedLabels
      view.story.id view own
    simp only [admitted, Bool.and_eq_true] at passes
    refine ⟨settled, closing_claimable stories _ view active passes.1.1.1.1 settled, ?_⟩
    intro other id listed pending waiting
    exact least id ((available_iff stories candidates _ id other listed).mpr
      ⟨pending, (remaining_zero stories _ other).mpr waiting⟩) view other own listed

end Storyhook.Service
