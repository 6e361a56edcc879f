import Storyhook.Decompose.Reading
import Storyhook.Library.Runs

/-! Whether the order of the waves of a spec is that of their tasks. -/

namespace Storyhook.Decompose

open Storyhook.Library Storyhook.Service

def BlockedBy (stories : List ImportStory) (index blocker : Nat) : Prop :=
  ∃ relationship ∈ references stories index,
    relationship.relation = "blocked-by" ∧ relationship.refIndex = some blocker

def WaveTask (spec : List Line) (wave index : Nat) : Prop :=
  ∃ before indent text after, spec = before ++ .task indent text :: after ∧
    waveOf before = some wave ∧ storyCount before = index

/-- The heading, other than those of waves, that a line after these stands under. -/
def headingOf (before : List Line) : Option Nat :=
  nearest Line.isStoryHeading (fun _ => false) before

def Together (spec : List Line) (low high lower upper : Nat) : Prop :=
  ∃ before indent text after before' indent' text' after',
    spec = before ++ .task indent text :: after ∧
    spec = before' ++ .task indent' text' :: after' ∧
    waveOf before = some low ∧ waveOf before' = some high ∧
    headingOf before = headingOf before' ∧
    storyCount before = lower ∧ storyCount before' = upper

/-- A task of a later wave waits, by some chain, for each of an earlier one under its heading, and
nothing waits for itself. -/
structure WavesOrdered (spec : List Line) (stories : List ImportStory) : Prop where
  chained : ∀ low high lower upper, low < high → Together spec low high lower upper →
    Relation.TransGen (BlockedBy stories) upper lower
  acyclic : ∀ index, ¬Relation.TransGen (BlockedBy stories) index index

/-- No wave without an unchecked task is numbered between two waves that have some under one
heading. -/
def NoGap (spec : List Line) : Prop :=
  ∀ low gap high lower upper, low < gap → gap < high → Together spec low high lower upper →
    .wave gap ∈ spec → ∃ index, WaveTask spec gap index

/-! ### What the loop records of the waves -/

/-- The waves with a heading are recorded, each with its unchecked tasks. -/
structure Records (before : List Line) (parse : Parse) : Prop where
  listed : ∀ wave, wave ∈ parse.waveTaskIndices ↔ .wave wave ∈ before
  tasks : ∀ wave index, index ∈ parse.waveTaskIndices.getD wave [] ↔ WaveTask before wave index

theorem waveTask_concat (before : List Line) (line : Line) (wave index : Nat) :
    WaveTask (before ++ [line]) wave index ↔
      WaveTask before wave index ∨ (∃ indent text, line = .task indent text) ∧
        waveOf before = some wave ∧ storyCount before = index := by
  constructor
  · rintro ⟨front, indent, text, after, split, inside, count⟩
    rcases (Runs.concat_split before front after line _).mp split with
      ⟨earlier, -, rfl⟩ | ⟨-, rfl, rfl⟩
    · exact Or.inl ⟨front, indent, text, earlier, rfl, inside, count⟩
    · exact Or.inr ⟨⟨indent, text, rfl⟩, inside, count⟩
  · rintro (⟨front, indent, text, after, rfl, inside, count⟩ | ⟨⟨indent, text, rfl⟩, inside, count⟩)
    · exact ⟨front, indent, text, after ++ [line], by simp, inside, count⟩
    · exact ⟨before, indent, text, [], rfl, inside, count⟩

theorem wave_of_waveOf (before : List Line) (wave : Nat) (inside : waveOf before = some wave) :
    .wave wave ∈ before := by
  induction before using List.reverseRecOn with
  | nil => cases inside
  | append_singleton before line further =>
      rw [waveOf_concat] at inside
      rw [List.mem_append, List.mem_singleton]
      cases line with
      | heading level text => cases inside
      | wave number =>
          cases inside
          exact Or.inr rfl
      | task | checked | body | blank => exact Or.inl (further inside)

theorem Records.quiet (before : List Line) (parse next : Parse) (line : Line)
    (records : Records before parse) (kept : next.waveTaskIndices = parse.waveTaskIndices)
    (waveless : ∀ number, line ≠ .wave number)
    (taskless : ∀ indent text, line ≠ .task indent text) :
    Records (before ++ [line]) next := by
  refine ⟨fun wave => ?_, fun wave index => ?_⟩
  · rw [kept, records.listed, List.mem_append, List.mem_singleton]
    exact (or_iff_left (waveless wave).symm).symm
  · rw [kept, records.tasks, waveTask_concat]
    refine (or_iff_left ?_).symm
    rintro ⟨⟨indent, text, same⟩, -⟩
    exact taskless indent text same

theorem Records.onWave (before : List Line) (parse : Parse) (number : Nat)
    (records : Records before parse) :
    Records (before ++ [.wave number]) (parse.step (.wave number)) := by
  refine ⟨fun wave => ?_, fun wave index => ?_⟩
  · show wave ∈ parse.waveTaskIndices.insertIfNew number [] ↔ _
    rw [Std.TreeMap.mem_insertIfNew, records.listed, Std.LawfulEqOrd.compare_eq_iff_eq,
      List.mem_append, List.mem_singleton, or_comm, Line.wave.injEq, eq_comm]
  · show index ∈ (parse.waveTaskIndices.insertIfNew number []).getD wave [] ↔ _
    have same : (parse.waveTaskIndices.insertIfNew number []).getD wave [] =
        parse.waveTaskIndices.getD wave [] := by
      rw [Std.TreeMap.getD_insertIfNew]
      split
      · next fresh =>
          rw [Std.LawfulEqOrd.compare_eq_iff_eq] at fresh
          exact (Std.TreeMap.getD_eq_fallback (fresh.1 ▸ fresh.2)).symm
      · rfl
    rw [same, records.tasks, waveTask_concat]
    simp

theorem Records.onTask (before : List Line) (parse : Parse) (indent : Nat) (text : List Char)
    (reads : Reads before parse) (records : Records before parse) :
    Records (before ++ [.task indent text]) (parse.task indent text) := by
  have adds (wave index : Nat) : WaveTask (before ++ [.task indent text]) wave index ↔
      WaveTask before wave index ∨ parse.currentWave = some wave ∧
        parse.stories.length = index := by
    rw [waveTask_concat, ← reads.wave, ← reads.stories]
    exact or_congr_right (and_iff_right ⟨indent, text, rfl⟩)
  cases current : parse.currentWave with
  | none =>
      have kept : (parse.task indent text).waveTaskIndices = parse.waveTaskIndices := by
        rw [Parse.task, current]
      refine ⟨fun wave => ?_, fun wave index => ?_⟩
      · rw [kept, records.listed]
        simp
      · rw [kept, records.tasks, adds, current]
        simp
  | some now =>
      have kept : (parse.task indent text).waveTaskIndices = parse.waveTaskIndices.insert now
          (parse.waveTaskIndices.getD now [] ++ [parse.stories.length]) := by
        rw [Parse.task, current]
      have known : .wave now ∈ before := wave_of_waveOf before now (reads.wave ▸ current)
      refine ⟨fun wave => ?_, fun wave index => ?_⟩
      · rw [kept, Std.TreeMap.mem_insert, records.listed, Std.LawfulEqOrd.compare_eq_iff_eq]
        constructor
        · rintro (rfl | earlier)
          · exact List.mem_append_left _ known
          · exact List.mem_append_left _ earlier
        · intro member
          simpa using Or.inr member
      · rw [kept, Std.TreeMap.getD_insert, adds, current]
        simp only [Std.LawfulEqOrd.compare_eq_iff_eq]
        split
        · next here =>
            subst here
            rw [List.mem_append, records.tasks, List.mem_singleton]
            simp [eq_comm]
        · next other => simp [records.tasks, other]

theorem Records.step (before : List Line) (parse : Parse) (line : Line) (filled : line.Filled)
    (reads : Reads before parse) (records : Records before parse) :
    Records (before ++ [line]) (parse.step line) := by
  cases line with
  | wave number => exact records.onWave before parse number
  | task indent text =>
      rw [step_task parse indent text filled]
      exact records.onTask before parse indent text reads
  | heading level text =>
      rw [step_heading parse level text filled.1]
      refine records.quiet before parse _ _ rfl ?_ ?_ <;> simp
  | body text =>
      rw [Parse.step]
      split <;> refine records.quiet before parse _ _ rfl ?_ ?_ <;> simp
  | checked => refine records.quiet before parse _ _ rfl ?_ ?_ <;> simp
  | blank => refine records.quiet before parse _ _ rfl ?_ ?_ <;> simp

theorem records_parseLines (spec : List Line) (filled : ∀ line ∈ spec, line.Filled) :
    Records spec (parseLines spec) := by
  induction spec using List.reverseRecOn with
  | nil =>
      refine ⟨fun wave => ?_, fun wave index => ?_⟩
      · simp [parseLines, Parse.start]
      · have none : ¬WaveTask [] wave index := by
          rintro ⟨before, _, _, _, split, -⟩
          simp at split
        simp [parseLines, Parse.start, none]
  | append_singleton before line further =>
      have sooner := fun other member => filled other (List.mem_append_left [line] member)
      rw [parseLines_concat]
      exact (further sooner).step before _ line (filled line (by simp))
        (reads_parseLines before sooner)

/-! ### What the orders between the waves are -/

theorem split_unique (before before' after after' : List Line) (line line' : Line)
    (split : before ++ line :: after = before' ++ line' :: after')
    (makes : line.storyText.isSome = true) (makes' : line'.storyText.isSome = true)
    (same : storyCount before = storyCount before') : before = before' := by
  have longer (front back rest : List Line) (first : Line) (mid : List Line)
      (one : first.storyText.isSome = true) (cut : first :: back = mid ++ rest)
      (count : storyCount front = storyCount (front ++ mid)) : mid = [] := by
    cases mid with
    | nil => rfl
    | cons other mid =>
        obtain ⟨rfl, -⟩ := List.cons_eq_cons.mp cut
        rw [storyCount_append, storyCount_cons] at count
        cases text : first.storyText with
        | none =>
            rw [text] at one
            cases one
        | some text =>
            rw [text, Option.toList_some, List.length_singleton] at count
            omega
  rcases List.append_eq_append_iff.mp split with ⟨mid, rfl, cut⟩ | ⟨mid, rfl, cut⟩
  · rw [longer before after _ line mid makes cut same, List.append_nil]
  · rw [longer before' after' _ line' mid makes' cut same.symm, List.append_nil]

theorem waveTask_apart (spec : List Line) (wave other index : Nat)
    (one : WaveTask spec wave index) (two : WaveTask spec other index) : wave = other := by
  obtain ⟨before, indent, text, after, rfl, inside, count⟩ := one
  obtain ⟨before', indent', text', after', split, inside', count'⟩ := two
  obtain rfl := split_unique before before' after after' _ _ split rfl rfl
    (count.trans count'.symm)
  exact Option.some.inj (inside.symm.trans inside')

theorem waveTask_lt (spec : List Line) (wave index : Nat) (task : WaveTask spec wave index) :
    index < storyCount spec := by
  obtain ⟨before, indent, text, after, rfl, -, rfl⟩ := task
  rw [storyCount_append, storyCount_cons]
  exact Nat.lt_add_of_pos_right (Nat.lt_of_lt_of_le Nat.zero_lt_one (Nat.le_add_right 1 _))

theorem stories_children (spec : List Line) (filled : ∀ line ∈ spec, line.Filled) :
    ∀ story ∈ (parseLines spec).stories, ∀ relationship ∈ story.relationships.getD [],
      relationship.relation = "child-of" := by
  have children (text : List Char) (parent : Option Nat) :
      ∀ relationship ∈ (newStory text parent).relationships.getD [],
        relationship.relation = "child-of" := by
    cases parent with
    | none => exact fun _ member => nomatch member
    | some parent =>
        intro relationship member
        rw [List.mem_singleton.mp member]
        rfl
  induction spec using List.reverseRecOn with
  | nil => exact fun _ member => nomatch member
  | append_singleton before line further =>
      rw [parseLines_concat, step_stories _ line (filled line (by simp))]
      intro story member
      rcases List.mem_append.mp member with earlier | new
      · exact further (fun other inside => filled other (List.mem_append_left _ inside)) story
          earlier
      · cases line with
        | heading level text =>
            rw [List.mem_singleton.mp new]
            exact children text _
        | task indent text =>
            rw [List.mem_singleton.mp new, phased_relationships]
            exact children text _
        | wave | checked | body | blank => cases new

theorem mem_waveEdges (waves : Std.TreeMap Nat (List Nat)) (index blocker : Nat) :
    (index, blocker) ∈ waveEdges waves ↔ Ladder.RestsOn waves.keys
      (fun wave one => one ∈ waves.getD wave []) index blocker := by
  simp only [waveEdges, List.mem_flatMap, List.mem_map, Prod.mk.injEq, Ladder.RestsOn, Prod.exists]
  constructor
  · rintro ⟨below, above, rung, current, upper, previous, lower, rfl, rfl⟩
    exact ⟨below, above, rung, upper, lower⟩
  · rintro ⟨below, above, rung, upper, lower⟩
    exact ⟨below, above, rung, index, upper, blocker, lower, rfl, rfl⟩

theorem blockedBy_iff (spec : List Line) (filled : ∀ line ∈ spec, line.Filled)
    (index blocker : Nat) :
    BlockedBy (finish (parseLines spec)) index blocker ↔
      Ladder.RestsOn (parseLines spec).waveTaskIndices.keys (WaveTask spec) index blocker := by
  have records := records_parseLines spec filled
  have tasks : (fun wave one => one ∈ (parseLines spec).waveTaskIndices.getD wave []) =
      WaveTask spec := by
    funext wave one
    exact propext (records.tasks wave one)
  rw [← tasks, ← mem_waveEdges]
  by_cases inside : index < (parseLines spec).stories.length
  · rw [BlockedBy, finish_references _ _ inside]
    constructor
    · rintro ⟨relationship, member, relation, points⟩
      rcases List.mem_append.mp member with child | added
      · rw [references, List.getElem?_eq_getElem inside] at child
        have parent := stories_children spec filled _ (List.getElem_mem inside) relationship child
        rw [relation] at parent
        exact absurd parent (by decide)
      · obtain ⟨edge, kept, rfl⟩ := List.mem_map.mp added
        obtain ⟨listed, same⟩ := List.mem_filter.mp kept
        cases points
        rw [← eq_of_beq same]
        exact listed
    · intro edge
      refine ⟨blockedBy blocker, List.mem_append_right _ (List.mem_map.mpr ?_), rfl, rfl⟩
      exact ⟨(index, blocker), List.mem_filter.mpr ⟨edge, beq_self_eq_true index⟩, rfl⟩
  · rw [BlockedBy, finish_beyond _ _ (Nat.le_of_not_lt inside)]
    constructor
    · rintro ⟨relationship, member, -⟩
      cases member
    · intro edge
      obtain ⟨below, above, -, upper, -⟩ := (mem_waveEdges _ index blocker).mp edge
      have bound := waveTask_lt spec above index ((records.tasks above index).mp upper)
      rw [← (reads_parseLines spec filled).stories] at bound
      exact absurd bound inside

theorem keys_ordered (waves : Std.TreeMap Nat (List Nat)) : waves.keys.Pairwise (· < ·) :=
  (Std.TreeMap.ordered_keys).imp fun order => Nat.compare_eq_lt.mp order

theorem Together.tasks (spec : List Line) (low high lower upper : Nat)
    (together : Together spec low high lower upper) :
    WaveTask spec low lower ∧ WaveTask spec high upper := by
  obtain ⟨before, indent, text, after, before', indent', text', after', split, split', inside,
    inside', -, count, count'⟩ := together
  exact ⟨⟨before, indent, text, after, split, inside, count⟩,
    ⟨before', indent', text', after', split', inside', count'⟩⟩

theorem wave_of_task (spec : List Line) (wave index : Nat) (task : WaveTask spec wave index) :
    .wave wave ∈ spec := by
  obtain ⟨before, indent, text, after, rfl, inside, -⟩ := task
  exact List.mem_append_left _ (wave_of_waveOf before wave inside)

/-- The order of the waves is kept just where no wave without open tasks is numbered between two
that have some under one heading. -/
theorem waves_ordered_iff (content : String) :
    WavesOrdered (readLines content) (decomposeSpec content) ↔ NoGap (readLines content) := by
  have filled := readLines_filled content
  have records := records_parseLines (readLines content) filled
  have ordered := keys_ordered (parseLines (readLines content)).waveTaskIndices
  have apart := waveTask_apart (readLines content)
  have waits : BlockedBy (decomposeSpec content) = Ladder.RestsOn
      (parseLines (readLines content)).waveTaskIndices.keys (WaveTask (readLines content)) := by
    funext index blocker
    exact propext (blockedBy_iff _ filled index blocker)
  have listed (wave : Nat) : wave ∈ (parseLines (readLines content)).waveTaskIndices.keys ↔
      .wave wave ∈ readLines content := by
    rw [Std.TreeMap.mem_keys, records.listed]
  constructor
  · intro keeps low gap high lower upper under higher together recorded
    by_contra none
    obtain ⟨lowerTask, upperTask⟩ := together.tasks
    have chain := keeps.chained low high lower upper (Nat.lt_trans under higher) together
    rw [waits] at chain
    obtain ⟨other, task, above⟩ := Ladder.above_bare _ _ ordered apart gap
      ((listed gap).mpr recorded) (fun one task => none ⟨one, task⟩) high upper lower upperTask
      higher chain
    cases apart low other lower lowerTask task
    omega
  · intro full
    refine ⟨fun low high lower upper rises together => ?_, fun index => ?_⟩
    · obtain ⟨lowerTask, upperTask⟩ := together.tasks
      rw [waits]
      exact Ladder.restsOn_of_filled _ _ ordered low high lower upper
        ((listed low).mpr (wave_of_task _ low lower lowerTask))
        ((listed high).mpr (wave_of_task _ high upper upperTask)) rises lowerTask upperTask
        fun gap member under higher =>
          full low gap high lower upper under higher together ((listed gap).mp member)
    · rw [waits]
      exact Ladder.restsOn_acyclic _ _ ordered apart index

/-- A wave whose tasks are all checked parts the waves around it. -/
theorem waves_parted :
    ¬WavesOrdered
      (readLines "### Wave 1\n- [ ] first\n### Wave 2\n- [x] second\n### Wave 3\n- [ ] third")
      (decomposeSpec
        "### Wave 1\n- [ ] first\n### Wave 2\n- [x] second\n### Wave 3\n- [ ] third") := by
  intro keeps
  have lines : readLines
      "### Wave 1\n- [ ] first\n### Wave 2\n- [x] second\n### Wave 3\n- [ ] third" =
      [.wave 1, .task 0 "first".toList, .wave 2, .checked, .wave 3, .task 0 "third".toList] := by
    decide +kernel
  have free : (references (decomposeSpec
      "### Wave 1\n- [ ] first\n### Wave 2\n- [x] second\n### Wave 3\n- [ ] third") 1).isEmpty =
        true := by
    decide +kernel
  have together : Together (readLines
      "### Wave 1\n- [ ] first\n### Wave 2\n- [x] second\n### Wave 3\n- [ ] third") 1 3 0 1 := by
    rw [lines]
    exact ⟨[.wave 1], 0, "first".toList, _, [.wave 1, .task 0 "first".toList, .wave 2, .checked,
      .wave 3], 0, "third".toList, [], rfl, rfl, rfl, rfl, rfl, rfl, rfl⟩
  have chain := keeps.chained 1 3 0 1 (by decide) together
  obtain ⟨next, ⟨relationship, member, -⟩, -⟩ := (Relation.TransGen.head'_iff).mp chain
  rw [List.isEmpty_iff.mp free] at member
  cases member

end Storyhook.Decompose
