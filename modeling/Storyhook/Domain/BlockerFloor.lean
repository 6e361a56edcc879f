import Mathlib.Order.Bounds.Basic
import Storyhook.Domain.Epics
import Storyhook.Library.Worklist

namespace Storyhook.Domain

open Storyhook.Library
open Storyhook.Library.Worklist

def Priority.rank : Priority → Nat
  | .critical => 0
  | .high => 1
  | .medium => 2
  | .low => 3
  | .none => 4

instance : LinearOrder Priority :=
  LinearOrder.lift' Priority.rank (by intro left right; cases left <;> cases right <;> decide)

/-- A by-id view of a project's stories, each under its own id. -/
structure StoryIndex where
  stories : StoryMap
  keyed : ∀ (id : String) story, stories[id]? = some story → story.id = id

namespace StoryIndex

def story (index : StoryIndex) (id : String) : Option StorySnapshot := index.stories[id]?

def empty : StoryIndex := ⟨∅, by simp⟩

def insert (index : StoryIndex) (story : StorySnapshot) : StoryIndex where
  stories := index.stories.insert story.id story
  keyed := by
    intro id found present
    rw [Std.TreeMap.getElem?_insert] at present
    split at present
    · next same =>
        rw [← Option.some.inj present]
        exact Std.LawfulEqOrd.eq_of_compare same
    · exact index.keyed id found present

/-- Every story, in id order. -/
def all (index : StoryIndex) : List StorySnapshot := index.stories.toList.map (·.2)

end StoryIndex

def isOpen (story : StorySnapshot) : Bool := story.superstate == .open

/-- Whether a story lends its own level to the stories it waits on. -/
def isSource (story : StorySnapshot) : Bool :=
  isOpen story && !story.draft && !story.relationships.any (·.relation == "obviated-by")

def openRelated (story : StorySnapshot) (relation : String) (index : StoryIndex) :
    List StorySnapshot :=
  ((relatedIds story relation).filterMap index.story).filter isOpen

/-- The more urgent of a story's own level and the one relayed to it; level `none` claims no
urgency. -/
def lentLevel (story : StorySnapshot) (relayed : Option Priority) : Option Priority :=
  ((if isSource story then [story.priority] else []) ++ relayed.toList).min?.filter
    fun level => decide (level ≠ .none)

/-- What a visited story hands on: its level to its blockers, and, where it is an epic, the level
it received to its children. -/
def relays (index : StoryIndex) (story : StorySnapshot) (relayed : Option Priority) :
    List (StorySnapshot × Priority) :=
  match lentLevel story relayed with
  | none => []
  | some level =>
      (openRelated story "blocked-by" index).map (·, level) ++
        match relayed with
        | none => []
        | some relayed =>
            if isEpic story then (openRelated story "parent-of" index).map (·, relayed) else []

structure BlockerFloors where
  floors : Std.TreeMap String Priority

namespace BlockerFloors

def start (index : StoryIndex) : Spread StorySnapshot String Priority where
  received := ∅
  pending := index.all.filter isSource

def settle (index : StoryIndex) : Spread StorySnapshot String Priority :=
  drain StorySnapshot.id (relays index) ((start index).pending.length + 4 * index.stories.size)
    (start index)

def compute (index : StoryIndex) : BlockerFloors where
  floors := (settle index).received.filterMap fun id floor =>
    (index.story id).bind fun story => if floor < story.priority then some floor else none

/-- The floor raising a story, if one does. -/
def floor (floors : BlockerFloors) (story : StorySnapshot) : Option Priority :=
  (floors.floors[story.id]?).filter fun floor => decide (floor < story.priority)

/-- The level a story sorts at. -/
def effective (floors : BlockerFloors) (story : StorySnapshot) : Priority :=
  (floors.floor story).getD story.priority

end BlockerFloors

/-- A path a level travels: out of the source to a blocker, then on to blockers and, from an epic
on the way, to its children. -/
inductive Reaches (index : StoryIndex) (source : StorySnapshot) : StorySnapshot → Prop where
  | first (target : StorySnapshot) (edge : target ∈ openRelated source "blocked-by" index) :
      Reaches index source target
  | blocker (via target : StorySnapshot) (before : Reaches index source via)
      (edge : target ∈ openRelated via "blocked-by" index) : Reaches index source target
  | child (via target : StorySnapshot) (before : Reaches index source via)
      (epic : isEpic via = true) (edge : target ∈ openRelated via "parent-of" index) :
      Reaches index source target

/-- The own levels of the sources a story is reached from. -/
def lentLevels (index : StoryIndex) (story : StorySnapshot) : Set Priority :=
  { level | level ≠ .none ∧ ∃ source ∈ index.all,
      isSource source = true ∧ source.priority = level ∧ Reaches index source story }

section Index

variable (index : StoryIndex)

theorem story_id (id : String) (story : StorySnapshot) (present : index.story id = some story) :
    story.id = id := index.keyed id story present

theorem mem_all (story : StorySnapshot) :
    story ∈ index.all ↔ index.story story.id = some story := by
  unfold StoryIndex.all
  rw [List.mem_map]
  constructor
  · rintro ⟨⟨id, found⟩, member, rfl⟩
    have present := Std.TreeMap.mem_toList_iff_getElem?_eq_some.mp member
    rwa [story_id index id found present]
  · intro present
    exact ⟨(story.id, story), Std.TreeMap.mem_toList_iff_getElem?_eq_some.mpr present, rfl⟩

theorem all_apart (left : StorySnapshot) (first : left ∈ index.all) (right : StorySnapshot)
    (second : right ∈ index.all) (same : left.id = right.id) : left = right := by
  rw [mem_all, same] at first
  rw [mem_all, first] at second
  exact Option.some.inj second

theorem openRelated_all (story target : StorySnapshot) (relation : String)
    (edge : target ∈ openRelated story relation index) : target ∈ index.all := by
  obtain ⟨id, -, present⟩ := List.mem_filterMap.mp (List.mem_filter.mp edge).1
  rw [mem_all, story_id index id target present]
  exact present

theorem reaches_all (source target : StorySnapshot) (reached : Reaches index source target) :
    target ∈ index.all := by
  cases reached with
  | first _ edge => exact openRelated_all index _ _ _ edge
  | blocker via _ before edge => exact openRelated_all index _ _ _ edge
  | child via _ before epic edge => exact openRelated_all index _ _ _ edge

end Index

section Levels

theorem lt_none (level : Priority) (claims : level ≠ .none) : level < .none := by
  cases level <;> first | exact absurd rfl claims | decide

theorem lentLevel_some (story : StorySnapshot) (relayed : Option Priority) (level : Priority)
    (lent : lentLevel story relayed = some level) :
    level ≠ .none ∧ (isSource story = true ∧ story.priority = level ∨ relayed = some level) := by
  obtain ⟨least, claims⟩ := Option.filter_eq_some_iff.mp lent
  have member := (List.min?_eq_some_iff.mp least).1
  refine ⟨by simpa using claims, ?_⟩
  rcases List.mem_append.mp member with own | received
  · split at own
    · next source => exact Or.inl ⟨source, (List.mem_singleton.mp own).symm⟩
    · cases own
  · exact Or.inr (Option.mem_toList.mp received)

theorem lentLevel_below (story : StorySnapshot) (relayed : Option Priority) (bound : Priority)
    (claims : bound ≠ .none)
    (among : isSource story = true ∧ story.priority = bound ∨ relayed = some bound) :
    ∃ level, lentLevel story relayed = some level ∧ level ≤ bound := by
  have member : bound ∈ (if isSource story then [story.priority] else []) ++ relayed.toList := by
    rcases among with ⟨source, rfl⟩ | rfl
    · simp [source]
    · simp
  cases least : ((if isSource story then [story.priority] else []) ++ relayed.toList).min? with
  | none => simp [List.min?_eq_none_iff.mp least] at member
  | some level =>
      have below := (List.min?_eq_some_iff.mp least).2 bound member
      refine ⟨level, ?_, below⟩
      rw [lentLevel, least, Option.filter_some, if_pos]
      simpa using ne_of_lt (below.trans_lt (lt_none bound claims))

end Levels

section Floors

variable (index : StoryIndex)

theorem mem_relays (story : StorySnapshot) (relayed : Option Priority)
    (target : StorySnapshot) (sent : Priority) :
    (target, sent) ∈ relays index story relayed ↔
      (lentLevel story relayed = some sent ∧ target ∈ openRelated story "blocked-by" index) ∨
      (lentLevel story relayed ≠ none ∧ relayed = some sent ∧ isEpic story = true ∧
        target ∈ openRelated story "parent-of" index) := by
  have paired (targets : List StorySnapshot) (level : Priority) :
      (target, sent) ∈ targets.map (·, level) ↔ target ∈ targets ∧ level = sent := by
    simp
  unfold relays
  cases lent : lentLevel story relayed with
  | none => simp
  | some level =>
      simp only [List.mem_append, paired, Option.some.injEq, ne_eq, reduceCtorEq,
        not_false_eq_true, true_and]
      refine or_congr and_comm ?_
      cases relayed with
      | none => simp
      | some held =>
          by_cases epic : isEpic story = true
          · simp only [epic, if_true, paired, Option.some.injEq, true_and]
            exact and_comm
          · simp [epic]

def Lent (id : String) (level : Priority) : Prop :=
  ∃ target, target.id = id ∧ level ∈ lentLevels index target

theorem relays_lent (story : StorySnapshot) (member : story ∈ index.all)
    (relayed : Option Priority)
    (received : ∀ held, relayed = some held → Lent index story.id held) :
    ∀ message ∈ relays index story relayed,
      message.1 ∈ index.all ∧ Lent index message.1.id message.2 := by
  rintro ⟨target, sent⟩ message
  have reached (held : Priority) (known : relayed = some held)
      (travel : ∀ source, Reaches index source story → Reaches index source target) :
      Lent index target.id held := by
    obtain ⟨via, sameId, claims, source, among, lends, level, path⟩ := received held known
    rw [all_apart index via (reaches_all index source via path) story member sameId] at path
    exact ⟨target, rfl, claims, source, among, lends, level, travel source path⟩
  rcases (mem_relays index story relayed target sent).mp message with
    ⟨lent, edge⟩ | ⟨-, known, epic, edge⟩
  · refine ⟨openRelated_all index _ _ _ edge, ?_⟩
    obtain ⟨claims, ⟨source, own⟩ | known⟩ := lentLevel_some story relayed sent lent
    · exact ⟨target, rfl, claims, story, member, source, own, .first target edge⟩
    · exact reached sent known fun _ path => .blocker story target path edge
  · exact ⟨openRelated_all index _ _ _ edge,
      reached sent known fun _ path => .child story target path epic edge⟩

def urgencyGap : Option Priority → Nat
  | none => 4
  | some level => level.rank

theorem urgencyGap_falls (level : Priority) (claims : level ≠ .none) :
    Falls urgencyGap level := by
  intro current lower
  cases current with
  | none => exact lt_none level claims
  | some held => exact of_decide_eq_true lower

theorem start_honest : Honest index.all (Lent index) (BlockerFloors.start index) where
  known := fun _ member => (List.mem_filter.mp member).1
  claimed := by
    intro slot held known
    simp [BlockerFloors.start] at known

theorem start_progress :
    Progress StorySnapshot.id (relays index) index.all (BlockerFloors.start index) where
  known := fun _ member => (List.mem_filter.mp member).1
  served := by
    intro story member
    by_cases source : isSource story = true
    · exact Or.inl (List.mem_filter.mpr ⟨member, source⟩)
    · refine Or.inr ?_
      intro message sending
      simp [BlockerFloors.start, relays, lentLevel, source] at sending

theorem settle_honest : Honest index.all (Lent index) (BlockerFloors.settle index) :=
  drain_honest StorySnapshot.id (relays index) index.all (Lent index) (relays_lent index) _ _
    (start_honest index)

theorem settle_empties : (BlockerFloors.settle index).pending = [] := by
  refine drain_empties StorySnapshot.id (relays index) index.all (Lent index)
    (relays_lent index) urgencyGap
    ?_ _ _ (start_honest index) ?_
  · rintro slot sent ⟨-, -, claims, -⟩
    exact urgencyGap_falls sent claims
  · have size : index.all.length = index.stories.size := by
      simp [StoryIndex.all, Std.TreeMap.length_toList]
    have gaps : (index.all.map StorySnapshot.id).map (fun slot =>
        urgencyGap (BlockerFloors.start index).received[slot]?) =
          List.replicate index.stories.size 4 := by
      simp [BlockerFloors.start, urgencyGap, Function.comp_def, size]
    simp only [potential, gaps, List.sum_replicate_nat]
    omega

theorem settle_served (story : StorySnapshot) (member : story ∈ index.all) :
    Served StorySnapshot.id (relays index) (BlockerFloors.settle index) story :=
  drain_served StorySnapshot.id (relays index) index.all (all_apart index)
    (fun story _ relayed message sending => by
      rcases (mem_relays index story relayed message.1 message.2).mp sending with
        ⟨-, edge⟩ | ⟨-, -, -, edge⟩
      · exact openRelated_all index _ _ _ edge
      · exact openRelated_all index _ _ _ edge)
    _ _ (start_progress index) (settle_empties index) story member

theorem settle_reached (source target : StorySnapshot) (member : source ∈ index.all)
    (lends : isSource source = true) (claims : source.priority ≠ .none)
    (path : Reaches index source target) :
    ∃ held, (BlockerFloors.settle index).received[target.id]? = some held ∧
      held ≤ source.priority := by
  induction path with
  | first target edge =>
      obtain ⟨level, lent, low⟩ := lentLevel_below source
        (BlockerFloors.settle index).received[source.id]? source.priority claims
        (Or.inl ⟨lends, rfl⟩)
      obtain ⟨held, there, lower⟩ := settle_served index source member (target, level)
        ((mem_relays index source _ target level).mpr (Or.inl ⟨lent, edge⟩))
      exact ⟨held, there, lower.trans low⟩
  | blocker via target before edge ih =>
      obtain ⟨received, known, below⟩ := ih
      obtain ⟨level, lent, low⟩ := lentLevel_below via _ received
        (ne_of_lt (below.trans_lt (lt_none _ claims))) (Or.inr known)
      obtain ⟨held, there, lower⟩ := settle_served index via (reaches_all index _ _ before)
        (target, level) ((mem_relays index via _ target level).mpr (Or.inl ⟨lent, edge⟩))
      exact ⟨held, there, lower.trans (low.trans below)⟩
  | child via target before epic edge ih =>
      obtain ⟨received, known, below⟩ := ih
      obtain ⟨level, lent, -⟩ := lentLevel_below via _ received
        (ne_of_lt (below.trans_lt (lt_none _ claims))) (Or.inr known)
      obtain ⟨held, there, lower⟩ := settle_served index via (reaches_all index _ _ before)
        (target, received) ((mem_relays index via _ target received).mpr
          (Or.inr ⟨by simp [lent], known, epic, edge⟩))
      exact ⟨held, there, lower.trans below⟩

theorem settle_least (story : StorySnapshot) (member : story ∈ index.all) (level : Priority) :
    (BlockerFloors.settle index).received[story.id]? = some level ↔
      IsLeast (lentLevels index story) level := by
  have sound (held : Priority)
      (known : (BlockerFloors.settle index).received[story.id]? = some held) :
      held ∈ lentLevels index story := by
    obtain ⟨target, sameId, claims, source, among, lends, own, path⟩ :=
      (settle_honest index).claimed story.id held known
    rw [all_apart index target (reaches_all index source target path) story member sameId] at path
    exact ⟨claims, source, among, lends, own, path⟩
  have complete (lent : Priority) (among : lent ∈ lentLevels index story) :
      ∃ held, (BlockerFloors.settle index).received[story.id]? = some held ∧ held ≤ lent := by
    obtain ⟨claims, source, known, lends, rfl, path⟩ := among
    exact settle_reached index source story known lends claims path
  constructor
  · intro known
    refine ⟨sound level known, ?_⟩
    intro lent among
    obtain ⟨held, there, low⟩ := complete lent among
    rw [known] at there
    rwa [Option.some.inj there]
  · rintro ⟨among, lower⟩
    obtain ⟨held, there, low⟩ := complete level among
    rwa [le_antisymm low (lower (sound held there))] at there

theorem floor_some (story : StorySnapshot) (member : story ∈ index.all) (level : Priority) :
    (BlockerFloors.compute index).floor story = some level ↔
      (BlockerFloors.settle index).received[story.id]? = some level ∧ level < story.priority := by
  rw [mem_all] at member
  unfold BlockerFloors.floor BlockerFloors.compute
  simp only [Std.TreeMap.getElem?_filterMap', Option.filter_eq_some_iff, decide_eq_true_eq,
    Option.bind_eq_some_iff, member, Option.bind_some, Option.ite_none_right_eq_some,
    Option.some.injEq]
  constructor
  · rintro ⟨⟨held, known, -, rfl⟩, lower⟩
    exact ⟨known, lower⟩
  · rintro ⟨known, lower⟩
    exact ⟨⟨level, known, lower, rfl⟩, lower⟩

/-- The worklist ends, with every story's floor the most urgent level lent to it. -/
theorem floors_exact :
    (BlockerFloors.settle index).pending = [] ∧
    (∀ story ∈ index.all, ∀ level,
      (BlockerFloors.compute index).floor story = some level ↔
        IsLeast (lentLevels index story) level ∧ level < story.priority) ∧
    ∀ story, (BlockerFloors.compute index).effective story ≤ story.priority := by
  refine ⟨settle_empties index, ?_, ?_⟩
  · intro story member level
    rw [floor_some index story member, settle_least index story member]
  · intro story
    unfold BlockerFloors.effective
    cases raised : (BlockerFloors.compute index).floor story with
    | none => exact le_refl _
    | some level =>
        have lower := (Option.filter_eq_some_iff.mp raised).2
        exact le_of_lt (of_decide_eq_true lower)

end Floors

def epicChild : StorySnapshot :=
  { (default : StorySnapshot) with id := "SH-3", priority := .medium }

def waitingOnEpic : StoryIndex :=
  StoryIndex.empty
    |>.insert { (default : StorySnapshot) with
      id := "SH-1", priority := .critical, relationships := [⟨"blocked-by", "SH-2"⟩] }
    |>.insert { (default : StorySnapshot) with
      id := "SH-2", priority := .low, storyType := some "epic",
      relationships := [⟨"parent-of", "SH-3"⟩, ⟨"blocks", "SH-1"⟩] }
    |>.insert epicChild

theorem epic_child_takes_floor :
    IsLeast (lentLevels waitingOnEpic epicChild) .critical ∧
      Priority.critical < epicChild.priority :=
  ((floors_exact waitingOnEpic).2.1 epicChild ((mem_all _ _).mpr (by decide)) .critical).mp
    (by decide +kernel)

end Storyhook.Domain
