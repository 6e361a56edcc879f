import Mathlib.Data.List.Induction
import Storyhook.Decompose.Markdown

/-! What the lines above one say of it, and that the loop over the lines keeps track of it. -/

namespace Storyhook.Decompose

open Storyhook.Library Storyhook.Service

/-- The text a line makes a story of. -/
def Line.storyText : Line → Option (List Char)
  | .heading _ text => some text
  | .task _ text => some text
  | _ => none

def Line.isStoryHeading : Line → Bool
  | .heading _ _ => true
  | _ => false

def Line.isAnyHeading : Line → Bool
  | .heading _ _ => true
  | .wave _ => true
  | _ => false

def Line.isHeading (level : Nat) : Line → Bool
  | .heading other _ => other == level
  | _ => false

def Line.isHigher (level : Nat) : Line → Bool
  | .heading other _ => other < level
  | _ => false

def Line.isShallower (indent : Nat) : Line → Bool
  | .task other _ => other < indent
  | _ => false

def storyCount (spec : List Line) : Nat := (spec.filterMap Line.storyText).length

def scanBack (wanted stop : Line → Bool) : List Line → Option Nat
  | [] => none
  | line :: above =>
      if wanted line then some (storyCount above.reverse)
      else if stop line then none
      else scanBack wanted stop above

/-- The story of the nearest wanted line, unless a line to stop at stands after it. -/
def nearest (wanted stop : Line → Bool) (before : List Line) : Option Nat :=
  scanBack wanted stop before.reverse

def waveOf (before : List Line) : Option Nat :=
  before.foldl (fun wave line => match line with
    | .heading _ _ => none
    | .wave number => some number
    | _ => wave) none

def Line.Filled : Line → Prop
  | .heading level text => text ≠ [] ∧ 1 ≤ level
  | .task _ text => text ≠ []
  | _ => True

def made (parse : Parse) : Line → List ImportStory
  | .heading level text => [newStory text (headingParent parse level)]
  | .task indent text => [phased parse.currentWave (newStory text (taskParent parse indent))]
  | _ => []

/-! ### Lines -/

theorem readLine_filled (line : List Char) : (readLine line).Filled := by
  have filled (mark rest : List Char) (found : mark.isPrefixOf? (Text.trim line) = some rest)
      (ends : mark.getLast? = some ' ') : Text.trim rest ≠ [] :=
    Text.trim_rest_filled line mark rest ((Text.isPrefixOf?_eq_some mark _ rest).mp found)
      ⟨' ', ends, rfl⟩
  unfold readLine
  dsimp only
  split
  · next rest found =>
      split
      · trivial
      · exact ⟨filled _ rest found rfl, by decide⟩
  · split
    · next rest found => exact ⟨filled _ rest found rfl, by decide⟩
    · split
      · next rest found => exact ⟨filled _ rest found rfl, by decide⟩
      · split
        · next rest found => exact filled _ rest found rfl
        · split
          · trivial
          · split <;> trivial

theorem readLines_filled (content : String) : ∀ line ∈ readLines content, line.Filled := by
  intro line member
  obtain ⟨text, -, rfl⟩ := List.mem_map.mp member
  exact readLine_filled text

theorem storyCount_append (before after : List Line) :
    storyCount (before ++ after) = storyCount before + storyCount after := by
  rw [storyCount, List.filterMap_append, List.length_append]
  rfl

theorem storyCount_cons (line : Line) (after : List Line) :
    storyCount (line :: after) = (line.storyText.toList).length + storyCount after := by
  rw [← List.singleton_append, storyCount_append]
  cases line <;> rfl

/-! ### The nearest line -/

theorem nearest_concat (wanted stop : Line → Bool) (before : List Line) (line : Line) :
    nearest wanted stop (before ++ [line]) =
      if wanted line then some (storyCount before)
      else if stop line then none
      else nearest wanted stop before := by
  rw [nearest, List.reverse_append, List.reverse_singleton, List.singleton_append, scanBack,
    List.reverse_reverse]
  rfl

theorem nearest_pass (wanted stop : Line → Bool) (before between : List Line)
    (passed : ∀ line ∈ between, wanted line = false) :
    nearest wanted stop (before ++ between) =
      if between.any stop then none else nearest wanted stop before := by
  induction between using List.reverseRecOn with
  | nil => simp
  | append_singleton between line further =>
      rw [← List.append_assoc, nearest_concat, passed line (by simp),
        further fun other member => passed other (List.mem_append_left _ member), List.any_append]
      by_cases halts : stop line = true
      · simp [halts]
      · simp [halts]

theorem nearest_eq_some (wanted stop : Line → Bool) (before : List Line) (index : Nat) :
    nearest wanted stop before = some index ↔ ∃ earlier line between,
      before = earlier ++ line :: between ∧ wanted line = true ∧
        (∀ other ∈ between, wanted other = false ∧ stop other = false) ∧
        index = storyCount earlier := by
  constructor
  · intro found
    induction before using List.reverseRecOn with
    | nil => cases found
    | append_singleton before line further =>
        rw [nearest_concat] at found
        split at found
        · next here =>
            cases found
            exact ⟨before, line, [], rfl, here, fun _ member => (nomatch member), rfl⟩
        · next other =>
            split at found
            · cases found
            · next passes =>
                obtain ⟨earlier, first, between, rfl, hit, clear, same⟩ := further found
                refine ⟨earlier, first, between ++ [line], by simp, hit, ?_, same⟩
                intro one member
                rcases List.mem_append.mp member with inside | last
                · exact clear one inside
                · rw [List.mem_singleton.mp last]
                  exact ⟨Bool.eq_false_iff.mpr other, Bool.eq_false_iff.mpr passes⟩
  · rintro ⟨earlier, line, between, rfl, hit, clear, rfl⟩
    have quiet : between.any stop = false :=
      List.any_eq_false.mpr fun other member => by simp [(clear other member).2]
    rw [List.append_cons, nearest_pass wanted stop _ between fun other member =>
      (clear other member).1, quiet, nearest_concat, hit]
    rfl

theorem nearest_lt (wanted stop : Line → Bool) (before : List Line) (index : Nat)
    (stories : ∀ line, wanted line = true → line.storyText.isSome = true)
    (found : nearest wanted stop before = some index) : index < storyCount before := by
  obtain ⟨earlier, line, between, rfl, hit, -, rfl⟩ :=
    (nearest_eq_some wanted stop before index).mp found
  have one := stories line hit
  rw [storyCount_append, storyCount_cons]
  cases text : line.storyText with
  | none =>
      rw [text] at one
      cases one
  | some text =>
      rw [Option.toList_some, List.length_singleton]
      omega

theorem isShallower_story (indent : Nat) (line : Line) (task : line.isShallower indent = true) :
    line.storyText.isSome = true := by
  cases line <;> first | rfl | cases task

theorem isStoryHeading_story (line : Line) (heading : line.isStoryHeading = true) :
    line.storyText.isSome = true := by
  cases line <;> first | rfl | cases heading

theorem isHeading_story (level : Nat) (line : Line) (heading : line.isHeading level = true) :
    line.storyText.isSome = true := by
  cases line <;> first | rfl | cases heading

theorem waveOf_concat (before : List Line) (line : Line) :
    waveOf (before ++ [line]) = match line with
      | .heading _ _ => none
      | .wave number => some number
      | _ => waveOf before := by
  rw [waveOf, List.foldl_append]
  rfl

/-! ### The loop over the lines -/

theorem parseLines_concat (before : List Line) (line : Line) :
    parseLines (before ++ [line]) = (parseLines before).step line := by
  rw [parseLines, List.foldl_append]
  rfl

theorem step_heading (parse : Parse) (level : Nat) (text : List Char) (filled : text ≠ []) :
    parse.step (.heading level text) = parse.heading level text := by
  rw [Parse.step, if_neg (by simpa using filled)]

theorem step_task (parse : Parse) (indent : Nat) (text : List Char) (filled : text ≠ []) :
    parse.step (.task indent text) = parse.task indent text := by
  rw [Parse.step, if_neg (by simpa using filled)]

theorem step_stories (parse : Parse) (line : Line) (filled : line.Filled) :
    (parse.step line).stories = parse.stories ++ made parse line := by
  cases line with
  | heading level text =>
      rw [step_heading parse level text filled.1]
      rfl
  | task indent text =>
      rw [step_task parse indent text filled]
      rfl
  | body text =>
      show (parse.step (.body text)).stories = parse.stories ++ []
      rw [List.append_nil, Parse.step]
      split <;> rfl
  | wave number => exact (List.append_nil _).symm
  | checked => exact (List.append_nil _).symm
  | blank => exact (List.append_nil _).symm

theorem dropWhile_dropWhile {α : Type} (narrow wide : α → Bool) (list : List α)
    (within : ∀ one, narrow one = true → wide one = true) :
    (list.dropWhile narrow).dropWhile wide = list.dropWhile wide := by
  induction list with
  | nil => rfl
  | cons one rest further =>
      by_cases drops : narrow one = true
      · rw [List.dropWhile_cons_of_pos drops, List.dropWhile_cons_of_pos
          (within one drops), further]
      · rw [List.dropWhile_cons_of_neg drops]

/-- The stacks hold, for whatever line comes next, what the lines before it say. -/
structure Reads (before : List Line) (parse : Parse) : Prop where
  stories : parse.stories.length = storyCount before
  wave : parse.currentWave = waveOf before
  heading : parse.headingStack.head?.map (·.2) =
    nearest Line.isStoryHeading (fun _ => false) before
  level : ∀ level, 1 ≤ level → (parse.headingStack.find? (·.1 == level)).map (·.2) =
    nearest (Line.isHeading level) (Line.isHigher level) before
  task : ∀ indent, (parse.enclosing indent).head?.map (·.2) =
    nearest (Line.isShallower indent) Line.isStoryHeading before

theorem Reads.start : Reads [] Parse.start := ⟨rfl, rfl, rfl, fun _ _ => rfl, fun _ => rfl⟩

theorem Reads.quiet (before : List Line) (parse next : Parse) (line : Line)
    (reads : Reads before parse) (stories : next.stories = parse.stories)
    (headings : next.headingStack = parse.headingStack)
    (boxes : next.checkboxStack = parse.checkboxStack) (textless : line.storyText = none)
    (wave : next.currentWave = waveOf (before ++ [line])) : Reads (before ++ [line]) next := by
  have passed : line.isStoryHeading = false ∧ (∀ level, line.isHeading level = false) ∧
      (∀ level, line.isHigher level = false) ∧ ∀ indent, line.isShallower indent = false := by
    cases line with
    | heading | task => cases textless
    | wave | checked | body | blank => exact ⟨rfl, fun _ => rfl, fun _ => rfl, fun _ => rfl⟩
  obtain ⟨story, level, higher, shallower⟩ := passed
  refine ⟨?_, wave, ?_, fun depth real => ?_, fun indent => ?_⟩
  · rw [stories, reads.stories, storyCount_append, storyCount_cons, textless]
    rfl
  · rw [headings, reads.heading, nearest_concat, story]
    rfl
  · rw [headings, reads.level depth real, nearest_concat, level, higher]
    rfl
  · rw [Parse.enclosing, boxes, nearest_concat, shallower, story]
    exact reads.task indent

theorem find_kept (stack : List (Nat × Nat)) (level depth : Nat) (real : 1 ≤ depth) :
    (if level = 1 then [] else stack.filter (·.1 < level)).find? (·.1 == depth) =
      if depth < level then stack.find? (·.1 == depth) else none := by
  split
  · next top =>
      rw [if_neg (by omega)]
      rfl
  · rw [List.find?_filter]
    split
    · next kept =>
        congr 1
        funext entry
        by_cases same : entry.1 = depth
        · simp [same, kept]
        · simp [same]
    · next dropped =>
        rw [List.find?_eq_none]
        intro entry _
        simp only [decide_eq_true_eq, beq_iff_eq]
        omega

theorem Reads.onHeading (before : List Line) (parse : Parse) (level : Nat) (text : List Char)
    (reads : Reads before parse) :
    Reads (before ++ [.heading level text]) (parse.heading level text) := by
  refine ⟨?_, ?_, ?_, fun depth real => ?_, fun indent => ?_⟩
  · simp [Parse.heading, reads.stories, storyCount, Line.storyText]
  · rw [waveOf_concat]
    rfl
  · rw [nearest_concat, ← reads.stories]
    rfl
  · rw [nearest_concat, ← reads.stories, ← reads.level depth real]
    show (((level, parse.stories.length) :: _ : List (Nat × Nat)).find? (·.1 == depth)).map (·.2) =
      if (level == depth) = true then _ else if decide (level < depth) = true then none else _
    rw [List.find?_cons, find_kept parse.headingStack level depth real]
    rcases Nat.lt_trichotomy level depth with under | rfl | higher
    · have other : (level == depth) = false := beq_eq_false_iff_ne.mpr (Nat.ne_of_lt under)
      simp [other, under, Nat.not_lt_of_lt under]
    · simp
    · have other : (level == depth) = false := beq_eq_false_iff_ne.mpr (Nat.ne_of_gt higher)
      simp [other, higher, Nat.not_lt_of_lt higher]
  · rw [nearest_concat]
    rfl

theorem Reads.onTask (before : List Line) (parse : Parse) (indent : Nat) (text : List Char)
    (reads : Reads before parse) :
    Reads (before ++ [.task indent text]) (parse.task indent text) := by
  refine ⟨?_, ?_, ?_, fun depth real => ?_, fun depth => ?_⟩
  · simp [Parse.task, reads.stories, storyCount, Line.storyText]
  · rw [waveOf_concat]
    exact reads.wave
  · rw [nearest_concat]
    exact reads.heading
  · rw [nearest_concat]
    exact reads.level depth real
  · rw [nearest_concat, ← reads.stories, ← reads.task depth]
    show (((indent, parse.stories.length) :: parse.enclosing indent).dropWhile
      (depth ≤ ·.1)).head?.map (·.2) = if decide (indent < depth) = true then _ else _
    by_cases shallow : indent < depth
    · rw [List.dropWhile_cons_of_neg (by simpa using shallow), if_pos (decide_eq_true shallow)]
      rfl
    · rw [List.dropWhile_cons_of_pos (by simpa using shallow), if_neg (by simpa using shallow),
        Parse.enclosing, dropWhile_dropWhile]
      · rfl
      · intro box deep
        rw [decide_eq_true_eq] at deep ⊢
        omega

theorem Reads.step (before : List Line) (parse : Parse) (line : Line) (filled : line.Filled)
    (reads : Reads before parse) : Reads (before ++ [line]) (parse.step line) := by
  cases line with
  | heading level text =>
      rw [step_heading parse level text filled.1]
      exact reads.onHeading before parse level text
  | task indent text =>
      rw [step_task parse indent text filled]
      exact reads.onTask before parse indent text
  | wave number =>
      have wave : some number = waveOf (before ++ [.wave number]) := by
        rw [waveOf_concat]
      exact reads.quiet before parse _ (.wave number) rfl rfl rfl rfl wave
  | body text =>
      have wave : parse.currentWave = waveOf (before ++ [.body text]) := by
        rw [waveOf_concat]
        exact reads.wave
      rw [Parse.step]
      split
      · exact reads.quiet before parse _ (.body text) rfl rfl rfl rfl wave
      · exact reads.quiet before parse _ (.body text) rfl rfl rfl rfl wave
  | checked =>
      have wave : parse.currentWave = waveOf (before ++ [.checked]) := by
        rw [waveOf_concat]
        exact reads.wave
      exact reads.quiet before parse _ .checked rfl rfl rfl rfl wave
  | blank =>
      have wave : parse.currentWave = waveOf (before ++ [.blank]) := by
        rw [waveOf_concat]
        exact reads.wave
      exact reads.quiet before parse _ .blank rfl rfl rfl rfl wave

theorem reads_parseLines (spec : List Line) (filled : ∀ line ∈ spec, line.Filled) :
    Reads spec (parseLines spec) := by
  induction spec using List.reverseRecOn with
  | nil => exact Reads.start
  | append_singleton before line further =>
      rw [parseLines_concat]
      exact (further fun other member => filled other (List.mem_append_left _ member)).step
        before _ line (filled line (by simp))

/-! ### The stories -/

theorem newStory_title (text : List Char) (parent : Option Nat) :
    (newStory text parent).title = String.ofList (title text) := rfl

theorem phased_title (wave : Option Nat) (story : ImportStory) :
    (phased wave story).title = story.title := by
  cases wave <;> rfl

theorem phased_relationships (wave : Option Nat) (story : ImportStory) :
    (phased wave story).relationships = story.relationships := by
  cases wave <;> rfl

theorem stories_prefix (before after : List Line) (filled : ∀ line ∈ after, line.Filled) :
    (parseLines before).stories <+: (parseLines (before ++ after)).stories := by
  induction after using List.reverseRecOn with
  | nil => exact (List.append_nil before).symm ▸ List.prefix_refl _
  | append_singleton after line further =>
      have kept := further fun other member => filled other (List.mem_append_left _ member)
      rw [← List.append_assoc, parseLines_concat, step_stories _ line (filled line (by simp))]
      exact kept.trans (List.prefix_append _ _)

theorem story_of_line (before after : List Line) (line : Line) (story : ImportStory)
    (filled : ∀ other ∈ before ++ line :: after, other.Filled)
    (one : made (parseLines before) line = [story]) :
    (parseLines (before ++ line :: after)).stories[storyCount before]? = some story := by
  have reads := reads_parseLines before fun other member =>
    filled other (List.mem_append_left _ member)
  have here : (parseLines (before ++ [line])).stories[storyCount before]? = some story := by
    rw [parseLines_concat, step_stories _ line (filled line (by simp)), one, ← reads.stories,
      List.getElem?_concat_length]
  have kept := stories_prefix (before ++ [line]) after fun other member =>
    filled other (by simp [member])
  rw [← List.append_cons] at kept
  obtain ⟨rest, split⟩ := kept
  rw [← split]
  exact List.getElem?_append_left (List.getElem?_eq_some_iff.mp here).1 ▸ here

theorem stories_titles (spec : List Line) (filled : ∀ line ∈ spec, line.Filled) :
    (parseLines spec).stories.map (·.title) =
      (spec.filterMap Line.storyText).map fun text => String.ofList (title text) := by
  induction spec using List.reverseRecOn with
  | nil => rfl
  | append_singleton before line further =>
      rw [parseLines_concat, step_stories _ line (filled line (by simp)), List.map_append,
        further fun other member => filled other (List.mem_append_left _ member),
        List.filterMap_append, List.map_append]
      cases line with
      | task indent text => simp [made, Line.storyText, phased_title, newStory_title]
      | heading | wave | checked | body | blank => rfl

/-! ### What is added after the loop -/

def references (stories : List ImportStory) (index : Nat) : List ImportRelationship :=
  (stories[index]?.bind (·.relationships)).getD []

theorem modify_keeps {α β : Type} (list : List α) (index : Nat) (change : α → α) (field : α → β)
    (keeps : ∀ one, field (change one) = field one) :
    (list.modify index change).map field = list.map field := by
  refine List.ext_getElem? fun place => ?_
  rw [List.getElem?_map, List.getElem?_map, List.getElem?_modify]
  cases list[place]? with
  | none => rfl
  | some one =>
      by_cases here : index = place
      · simp [here, keeps]
      · simp [here]

theorem addBlocker_titles (edges : List (Nat × Nat)) (stories : List ImportStory) :
    (edges.foldl addBlocker stories).map (·.title) = stories.map (·.title) := by
  induction edges generalizing stories with
  | nil => rfl
  | cons edge edges further =>
      rw [List.foldl_cons, further]
      exact modify_keeps stories edge.1 _ _ fun _ => rfl

theorem addBlocker_references (edges : List (Nat × Nat)) (stories : List ImportStory)
    (index : Nat) (inside : index < stories.length) :
    references (edges.foldl addBlocker stories) index = references stories index ++
      (edges.filter (·.1 == index)).map fun edge => blockedBy edge.2 := by
  induction edges generalizing stories with
  | nil => exact (List.append_nil _).symm
  | cons edge edges further =>
      have still : index < (addBlocker stories edge).length := by
        rwa [addBlocker, List.length_modify]
      rw [List.foldl_cons, further _ still]
      by_cases here : edge.1 = index
      · have one : references (addBlocker stories edge) index =
            references stories index ++ [blockedBy edge.2] := by
          rw [references, addBlocker, here, List.getElem?_modify_eq, references,
            List.getElem?_eq_getElem inside]
          rfl
        rw [one, List.filter_cons_of_pos (by simpa using here), List.map_cons, List.append_assoc]
        rfl
      · have same : references (addBlocker stories edge) index = references stories index := by
          rw [references, addBlocker, List.getElem?_modify_ne _ _ here]
          rfl
        rw [same, List.filter_cons_of_neg (by simpa using here)]

theorem describe_keeps {β : Type} (entries : List (Nat × List (List Char)))
    (stories : List ImportStory) (field : ImportStory → β)
    (keeps : ∀ story text, field { story with description := text } = field story) :
    (entries.foldl describe stories).map field = stories.map field := by
  induction entries generalizing stories with
  | nil => rfl
  | cons entry entries further =>
      rw [List.foldl_cons, further, describe]
      split
      · rfl
      · exact modify_keeps stories entry.1 _ field fun story => keeps story _

theorem references_eq (stories : List ImportStory) (index : Nat) :
    references stories index = ((stories.map (·.relationships))[index]?.join).getD [] := by
  rw [references, List.getElem?_map]
  cases stories[index]? <;> rfl

theorem finish_titles (parse : Parse) :
    (finish parse).map (·.title) = parse.stories.map (·.title) := by
  rw [finish, describe_keeps _ _ _ (fun _ _ => rfl), addBlocker_titles]

theorem finish_references (parse : Parse) (index : Nat) (inside : index < parse.stories.length) :
    references (finish parse) index = references parse.stories index ++
      ((waveEdges parse.waveTaskIndices).filter (·.1 == index)).map
        fun edge => blockedBy edge.2 := by
  rw [finish, references_eq, describe_keeps _ _ _ (fun _ _ => rfl), ← references_eq,
    addBlocker_references _ _ _ inside]

theorem finish_beyond (parse : Parse) (index : Nat) (beyond : parse.stories.length ≤ index) :
    references (finish parse) index = [] := by
  have long := congrArg List.length (finish_titles parse)
  rw [List.length_map, List.length_map] at long
  rw [references, List.getElem?_eq_none (by omega)]
  rfl

end Storyhook.Decompose
