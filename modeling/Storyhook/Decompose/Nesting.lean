import Storyhook.Decompose.Reading

/-! Whether the nesting of the stories is that of the lines of the spec. -/

namespace Storyhook.Decompose

open Storyhook.Library Storyhook.Service

def childRefs (stories : List ImportStory) (index : Nat) : List Nat :=
  (references stories index).filterMap fun relationship =>
    if relationship.relation = "child-of" then relationship.refIndex else none

/-- The story of the nearest task above that is indented less, no heading of any kind between,
or else that of the nearest heading. -/
def taskAbove (indent : Nat) (before : List Line) : Option Nat :=
  (nearest (Line.isShallower indent) Line.isAnyHeading before).or
    (nearest Line.isStoryHeading (fun _ => false) before)

/-- The story of the nearest heading one level up, no higher one between. -/
def headingAbove (level : Nat) (before : List Line) : Option Nat :=
  if level = 1 then none
  else nearest (Line.isHeading (level - 1)) (Line.isHigher (level - 1)) before

/-- The stories are those of the lines, nested as the lines are. -/
structure NestingRead (spec : List Line) (stories : List ImportStory) : Prop where
  emitted : stories.map (·.title) =
    (spec.filterMap Line.storyText).map fun text => String.ofList (title text)
  titled : ∀ story ∈ stories, story.title ≠ ""
  task : ∀ before indent text after, spec = before ++ .task indent text :: after →
    childRefs stories (storyCount before) = (taskAbove indent before).toList
  heading : ∀ before level text after, spec = before ++ .heading level text :: after →
    childRefs stories (storyCount before) = (headingAbove level before).toList
  single : ∀ index, (childRefs stories index).length ≤ 1
  earlier : ∀ index, ∀ parent ∈ childRefs stories index, parent < index

/-- A wave heading stands between the line and the nearest task above it that is indented less,
and no other heading does. -/
def WaveBetween (indent : Nat) (before : List Line) : Prop :=
  ∃ earlier other text between, before = earlier ++ .task other text :: between ∧ other < indent ∧
    (∀ line ∈ between, line.isShallower indent = false ∧ line.isStoryHeading = false) ∧
    ∃ number, .wave number ∈ between

def taskFound (indent : Nat) (before : List Line) : Option Nat :=
  (nearest (Line.isShallower indent) Line.isStoryHeading before).or
    (nearest Line.isStoryHeading (fun _ => false) before)

/-- The story a line nests its own under, as the loop finds it. -/
def found (before : List Line) : Line → Option Nat
  | .heading level _ => headingAbove level before
  | .task indent _ => taskFound indent before
  | _ => none

/-! ### What the loop finds -/

theorem taskFound_eq (before : List Line) (indent : Nat) (between : ¬WaveBetween indent before) :
    taskFound indent before = taskAbove indent before := by
  rw [taskFound, taskAbove]
  congr 1
  cases near : nearest (Line.isShallower indent) Line.isStoryHeading before with
  | some index =>
      obtain ⟨earlier, line, passed, rfl, hit, clear, rfl⟩ :=
        (nearest_eq_some _ _ _ _).mp near
      refine ((nearest_eq_some _ _ _ _).mpr
        ⟨earlier, line, passed, rfl, hit, fun other member => ?_, rfl⟩).symm
      refine ⟨(clear other member).1, ?_⟩
      cases other with
      | heading level text => cases (clear _ member).2
      | wave number =>
          cases line with
          | task depth text =>
              exact absurd ⟨earlier, depth, text, passed, rfl, of_decide_eq_true hit, clear,
                number, member⟩ between
          | heading | wave | checked | body | blank => cases hit
      | task | checked | body | blank => rfl
  | none =>
      symm
      by_contra other
      obtain ⟨index, further⟩ := Option.ne_none_iff_exists'.mp other
      obtain ⟨earlier, line, passed, rfl, hit, clear, rfl⟩ :=
        (nearest_eq_some _ _ _ _).mp further
      have stops : ∀ line : Line, line.isAnyHeading = false → line.isStoryHeading = false := by
        intro line plain
        cases line <;> first | rfl | cases plain
      have reached := (nearest_eq_some (Line.isShallower indent) Line.isStoryHeading _ _).mpr
        ⟨earlier, line, passed, rfl, hit, fun other member =>
          ⟨(clear other member).1, stops other (clear other member).2⟩, rfl⟩
      rw [near] at reached
      cases reached

theorem taskFound_ne (before : List Line) (indent : Nat) (between : WaveBetween indent before) :
    taskFound indent before ≠ taskAbove indent before := by
  obtain ⟨earlier, depth, text, passed, rfl, shallow, clear, number, inside⟩ := between
  have reached : nearest (Line.isShallower indent) Line.isStoryHeading
      (earlier ++ .task depth text :: passed) = some (storyCount earlier) :=
    (nearest_eq_some _ _ _ _).mpr ⟨earlier, _, passed, rfl, decide_eq_true shallow, clear, rfl⟩
  have hidden : nearest (Line.isShallower indent) Line.isAnyHeading
      (earlier ++ .task depth text :: passed) = none := by
    rw [List.append_cons, nearest_pass _ _ _ passed fun line member => (clear line member).1,
      List.any_eq_true.mpr ⟨_, inside, rfl⟩]
    rfl
  have heading : nearest Line.isStoryHeading (fun _ => false)
      (earlier ++ .task depth text :: passed) =
        nearest Line.isStoryHeading (fun _ => false) earlier := by
    rw [nearest_pass _ _ earlier]
    · simp
    · intro line member
      rcases List.mem_cons.mp member with rfl | later
      · rfl
      · exact (clear line later).2
  rw [taskFound, taskAbove, reached, hidden, heading, Option.some_or, Option.none_or]
  intro same
  exact Nat.lt_irrefl _ (nearest_lt _ _ earlier _ isStoryHeading_story same.symm)

theorem found_lt (before : List Line) (line : Line) (index : Nat)
    (here : found before line = some index) : index < storyCount before := by
  cases line with
  | heading level text =>
      rw [found, headingAbove, Option.ite_none_left_eq_some] at here
      exact nearest_lt _ _ before index (isHeading_story _) here.2
  | task indent text =>
      rw [found, taskFound, Option.or_eq_some_iff] at here
      rcases here with task | ⟨-, heading⟩
      · exact nearest_lt _ _ before index (isShallower_story _) task
      · exact nearest_lt _ _ before index isStoryHeading_story heading
  | wave | checked | body | blank => cases here

theorem made_nested (before : List Line) (line : Line) (filled : line.Filled) (parse : Parse)
    (reads : Reads before parse) (makes : line.storyText.isSome = true) :
    ∃ story, made parse line = [story] ∧
      story.relationships = (found before line).map fun index => [childOf index] := by
  cases line with
  | heading level text =>
      refine ⟨_, rfl, ?_⟩
      show (headingParent parse level).map _ = _
      rw [headingParent, found, headingAbove]
      split
      · rfl
      · next lower =>
          rw [reads.level (level - 1) (by have := filled.2; omega)]
  | task indent text =>
      refine ⟨_, rfl, ?_⟩
      rw [phased_relationships]
      show (taskParent parse indent).map _ = _
      rw [taskParent, found, taskFound, ← reads.task indent, ← reads.heading]
      cases (parse.enclosing indent).head? <;> rfl
  | wave | checked | body | blank => cases makes

theorem blockers_no_child (edges : List (Nat × Nat)) :
    ((edges.map fun edge => blockedBy edge.2).filterMap fun relationship =>
      if relationship.relation = "child-of" then relationship.refIndex else none) = [] := by
  induction edges with
  | nil => rfl
  | cons edge edges further =>
      rw [List.map_cons, List.filterMap_cons]
      exact further

theorem childRefs_of_line (spec before after : List Line) (line : Line)
    (filled : ∀ other ∈ spec, other.Filled) (split : spec = before ++ line :: after)
    (makes : line.storyText.isSome = true) :
    childRefs (finish (parseLines spec)) (storyCount before) = (found before line).toList := by
  subst split
  have reads := reads_parseLines before fun other member =>
    filled other (List.mem_append_left _ member)
  obtain ⟨story, one, related⟩ := made_nested before line (filled line (by simp)) _ reads makes
  have here := story_of_line before after line story filled one
  have inside := (List.getElem?_eq_some_iff.mp here).1
  rw [childRefs, finish_references _ _ inside, List.filterMap_append, blockers_no_child,
    List.append_nil, references, here, Option.bind_some, related]
  cases found before line <;> rfl

theorem line_of_story (spec : List Line) (index : Nat) (inside : index < storyCount spec) :
    ∃ before line after, spec = before ++ line :: after ∧ line.storyText.isSome = true ∧
      storyCount before = index := by
  induction spec using List.reverseRecOn with
  | nil => cases inside
  | append_singleton before line further =>
      by_cases sooner : index < storyCount before
      · obtain ⟨front, one, back, rfl, makes, count⟩ := further sooner
        exact ⟨front, one, back ++ [line], by simp, makes, count⟩
      · rw [storyCount_append, storyCount_cons] at inside
        cases text : line.storyText with
        | none =>
            rw [text] at inside
            exact absurd inside sooner
        | some text =>
            rw [text] at inside
            exact ⟨before, line, [], rfl, by rw [text]; rfl, by
              change index < storyCount before + (1 + 0) at inside
              omega⟩

theorem childRefs_found (spec : List Line) (index : Nat) (filled : ∀ line ∈ spec, line.Filled) :
    ∃ parent : Option Nat, childRefs (finish (parseLines spec)) index = parent.toList ∧
      ∀ found ∈ parent, found < index := by
  by_cases inside : index < storyCount spec
  · obtain ⟨before, line, after, split, makes, rfl⟩ := line_of_story spec index inside
    exact ⟨found before line, childRefs_of_line spec before after line filled split makes,
      fun parent here => found_lt before line parent here⟩
  · have beyond : (parseLines spec).stories.length ≤ index := by
      rw [(reads_parseLines spec filled).stories]
      exact Nat.le_of_not_lt inside
    refine ⟨none, ?_, fun _ here => (nomatch here)⟩
    rw [childRefs, finish_beyond _ _ beyond]
    rfl

/-- The nesting is as written just where every text has more than markers to it and no wave
heading stands between a task and the one it would be nested under. -/
theorem nesting_read_iff (content : String) :
    NestingRead (readLines content) (decomposeSpec content) ↔
      (∀ text ∈ (readLines content).filterMap Line.storyText, ¬MarkersOnly text) ∧
      ∀ before indent text after, readLines content = before ++ .task indent text :: after →
        ¬WaveBetween indent before := by
  have filled := readLines_filled content
  have titles : (decomposeSpec content).map (·.title) =
      ((readLines content).filterMap Line.storyText).map fun text => String.ofList (title text) :=
    (finish_titles _).trans (stories_titles _ filled)
  have untitled (text : List Char) : String.ofList (title text) = "" ↔ MarkersOnly text := by
    rw [← title_nil, ← String.ofList_nil, String.ofList_inj]
  constructor
  · intro read
    constructor
    · intro text member only
      have inside : String.ofList (title text) ∈ (decomposeSpec content).map (·.title) :=
        titles ▸ List.mem_map_of_mem member
      obtain ⟨story, emitted, same⟩ := List.mem_map.mp inside
      exact read.titled story emitted (same.trans ((untitled text).mpr only))
    · intro before indent text after split between
      have code := childRefs_of_line _ before after _ filled split rfl
      have lists := code.symm.trans (read.task before indent text after split)
      refine taskFound_ne before indent between ?_
      rw [← Option.head?_toList (o := taskFound indent before),
        ← Option.head?_toList (o := taskAbove indent before)]
      exact congrArg List.head? lists
  · rintro ⟨named, apart⟩
    refine ⟨titles, ?_, ?_, ?_, ?_, ?_⟩
    · intro story emitted blank
      have inside : story.title ∈ ((readLines content).filterMap Line.storyText).map
          fun text => String.ofList (title text) := titles ▸ List.mem_map_of_mem emitted
      obtain ⟨text, member, same⟩ := List.mem_map.mp inside
      exact named text member ((untitled text).mp (same.trans blank))
    · intro before indent text after split
      rw [← taskFound_eq before indent (apart before indent text after split)]
      exact childRefs_of_line _ before after _ filled split rfl
    · intro before level text after split
      exact childRefs_of_line _ before after _ filled split rfl
    · intro index
      obtain ⟨parent, only, -⟩ := childRefs_found _ index filled
      rw [decomposeSpec, only]
      cases parent with
      | none => exact Nat.zero_le 1
      | some _ => exact Nat.le_refl 1
    · intro index parent member
      obtain ⟨above, only, before⟩ := childRefs_found _ index filled
      rw [decomposeSpec, only, Option.mem_toList] at member
      exact before parent member

/-- A text of markers alone leaves no title, and a task after a wave heading may be nested under
one before it. -/
theorem nesting_misread :
    ¬NestingRead (readLines "- [ ] [HIGH]") (decomposeSpec "- [ ] [HIGH]") ∧
      ¬NestingRead (readLines "# A\n- [ ] first\n### Wave 1\n  - [ ] second")
        (decomposeSpec "# A\n- [ ] first\n### Wave 1\n  - [ ] second") := by
  constructor
  · intro read
    have titles : (decomposeSpec "- [ ] [HIGH]").map (·.title) = [""] := by decide +kernel
    obtain ⟨story, emitted, blank⟩ := List.mem_map.mp (titles ▸ List.mem_singleton_self "")
    exact read.titled story emitted blank
  · intro read
    have lines : readLines "# A\n- [ ] first\n### Wave 1\n  - [ ] second" =
        [.heading 1 "A".toList, .task 0 "first".toList, .wave 1] ++
          .task 2 "second".toList :: [] := by decide +kernel
    have nested : childRefs (decomposeSpec "# A\n- [ ] first\n### Wave 1\n  - [ ] second") 2 =
        [1] := by decide +kernel
    have above := (read.task _ 2 _ [] lines).symm.trans nested
    exact absurd above (by decide +kernel)

end Storyhook.Decompose
