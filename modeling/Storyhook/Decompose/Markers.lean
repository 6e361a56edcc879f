import Storyhook.Library.Text

/-! The markers of a heading or task, and what they leave of its text. -/

namespace Storyhook.Decompose

open Storyhook.Library

def extractComplexity (text : List Char) : List Char × Option String :=
  match Text.splitOnceStr "[complexity:".toList text with
  | none => (text, none)
  | some (before, rest) =>
      match Text.splitOnce ']' rest with
      | none => (text, none)
      | some (value, after) =>
          (Text.trim (before ++ after), some (String.ofList (Text.trim value)))

def priorityMarkers : List (List Char × String) := [
  ("[CRITICAL]".toList, "critical"), ("[HIGH]".toList, "high"), ("[MEDIUM]".toList, "medium"),
  ("[LOW]".toList, "low"), ("[NONE]".toList, "none")]

def toAsciiUppercase (text : List Char) : List Char := text.map Char.toUpper

/-- What taking out a marker leaves, in whatever case it is written. -/
def cutPriority (text : List Char) (entry : List Char × String) :
    Option (List Char × Option String) :=
  (Text.splitOnceStr entry.1 (toAsciiUppercase text)).map fun parts =>
    (Text.trim (text.take parts.1.length ++ text.drop (parts.1.length + entry.1.length)),
      some entry.2)

def extractPriority (text : List Char) : List Char × Option String :=
  (priorityMarkers.findSome? (cutPriority text)).getD (text, none)

def splitWhitespace (text : List Char) : List (List Char) :=
  (text.splitOnP Text.isWhitespace).filter (!·.isEmpty)

def isLabel (token : List Char) : Bool :=
  match token with
  | '#' :: first :: rest =>
      first.isAlpha && (first :: rest).all fun c => c.isAlphanum || c == '-'
  | _ => false

def extractLabels (text : List Char) : List Char × List String :=
  let tokens := splitWhitespace text
  ([' '].intercalate (tokens.filter (!isLabel ·)),
    (tokens.filter isLabel).map fun token => String.ofList token.tail)

def title (text : List Char) : List Char :=
  (extractLabels (extractPriority (extractComplexity text).1).1).1

/-! ### What a marker leaves -/

/-- The text without its first complexity marker, if it has one. -/
inductive WithoutComplexity (text : List Char) : List Char → Prop
  | marked (before value after : List Char)
      (first : Text.FirstAt "[complexity:".toList text before (value ++ ']' :: after))
      (closed : ']' ∉ value) : WithoutComplexity text (Text.trim (before ++ after))
  | plain (none : ∀ before value after,
      text ≠ before ++ "[complexity:".toList ++ value ++ ']' :: after) : WithoutComplexity text text

/-- The text without the first priority marker of the gravest kind that it has, if it has one. -/
inductive WithoutPriority (text : List Char) : List Char → Prop
  | marked (earlier later : List (List Char × String)) (marker : List Char) (value : String)
      (listed : priorityMarkers = earlier ++ (marker, value) :: later)
      (none : ∀ entry ∈ earlier, ¬entry.1 <:+: toAsciiUppercase text)
      (before spelled after : List Char) (split : text = before ++ spelled ++ after)
      (first : Text.FirstAt marker (toAsciiUppercase text) (toAsciiUppercase before)
        (toAsciiUppercase after))
      (named : toAsciiUppercase spelled = marker) :
      WithoutPriority text (Text.trim (before ++ after))
  | plain (none : ∀ entry ∈ priorityMarkers, ¬entry.1 <:+: toAsciiUppercase text) :
      WithoutPriority text text

/-- A text that is a complexity marker, a priority marker and labels, as far as it has each. -/
def MarkersOnly (text : List Char) : Prop :=
  ∃ middle rest, WithoutComplexity text middle ∧ WithoutPriority middle rest ∧
    ∀ token ∈ splitWhitespace rest, isLabel token = true

theorem mem_after_first (marker text before after : List Char) (c : Char)
    (first : Text.FirstAt marker text before after) (other value rest : List Char)
    (split : text = other ++ marker ++ value ++ c :: rest) : c ∈ after := by
  have later : text = other ++ marker ++ (value ++ c :: rest) := by
    rw [split]
    simp
  have further := first.2 other _ later
  have total : text.length = text.length := rfl
  nth_rewrite 1 [first.1] at total
  rw [later] at total
  simp only [List.length_append] at total
  have within : value ++ c :: rest <:+ after :=
    List.suffix_of_suffix_length_le (later ▸ List.suffix_append _ _)
      (first.1 ▸ List.suffix_append _ _) (by simp only [List.length_append]; omega)
  exact within.subset (by simp)

theorem extractComplexity_iff (text rest : List Char) :
    (extractComplexity text).1 = rest ↔ WithoutComplexity text rest := by
  rw [extractComplexity]
  cases found : Text.splitOnceStr "[complexity:".toList text with
  | none =>
      have absent := (Text.splitOnceStr_eq_none _ text).mp found
      constructor
      · rintro rfl
        refine .plain fun before value after split => absent ⟨before, value ++ ']' :: after, ?_⟩
        simp [split]
      · intro without
        cases without with
        | marked before value after first =>
            exact absurd ⟨before, value ++ ']' :: after, first.1.symm⟩ absent
        | plain => rfl
  | some parts =>
      have first := (Text.splitOnceStr_eq_some _ text parts.1 parts.2).mp found
      dsimp only
      cases closing : Text.splitOnce ']' parts.2 with
      | none =>
          have absent := (Text.splitOnce_eq_none ']' parts.2).mp closing
          have plain : ∀ before value after,
              text ≠ before ++ "[complexity:".toList ++ value ++ ']' :: after :=
            fun before value after split =>
              absent (mem_after_first _ text parts.1 parts.2 ']' first before value after split)
          constructor
          · rintro rfl
            exact .plain plain
          · intro without
            cases without with
            | marked before value after other =>
                exact absurd (by simp [other.1]) (plain before value after)
            | plain => rfl
      | some inner =>
          obtain ⟨split, closed⟩ := (Text.splitOnce_eq_some ']' parts.2 inner.1 inner.2).mp closing
          rw [split] at first
          constructor
          · rintro rfl
            exact .marked parts.1 inner.1 inner.2 first closed
          · intro without
            cases without with
            | marked before value after other unclosed =>
                have same := (Text.splitOnceStr_eq_some _ text before _).mpr other
                cases found.symm.trans same
                cases closing.symm.trans
                  ((Text.splitOnce_eq_some ']' _ value after).mpr ⟨rfl, unclosed⟩)
                rfl
            | plain none => exact absurd (by simp [first.1]) (none parts.1 inner.1 inner.2)

theorem cutPriority_eq_none (text : List Char) (entry : List Char × String) :
    cutPriority text entry = none ↔ ¬entry.1 <:+: toAsciiUppercase text := by
  rw [cutPriority, Option.map_eq_none_iff, Text.splitOnceStr_eq_none]

theorem cutPriority_split (entry : List Char × String) (before spelled after : List Char)
    (first : Text.FirstAt entry.1 (toAsciiUppercase (before ++ spelled ++ after))
      (toAsciiUppercase before) (toAsciiUppercase after))
    (named : toAsciiUppercase spelled = entry.1) :
    cutPriority (before ++ spelled ++ after) entry =
      some (Text.trim (before ++ after), some entry.2) := by
  have long : entry.1.length = spelled.length := by
    rw [← named, toAsciiUppercase, List.length_map]
  rw [cutPriority, (Text.splitOnceStr_eq_some _ _ _ _).mpr first, Option.map_some, long]
  simp [toAsciiUppercase, ← List.drop_drop]

theorem cutPriority_eq_some (text rest : List Char) (value : Option String)
    (entry : List Char × String) (cut : cutPriority text entry = some (rest, value)) :
    ∃ before spelled after, text = before ++ spelled ++ after ∧
      Text.FirstAt entry.1 (toAsciiUppercase text) (toAsciiUppercase before)
        (toAsciiUppercase after) ∧
      toAsciiUppercase spelled = entry.1 ∧ rest = Text.trim (before ++ after) := by
  obtain ⟨parts, found, -⟩ := Option.map_eq_some_iff.mp cut
  have first := (Text.splitOnceStr_eq_some _ _ parts.1 parts.2).mp found
  obtain ⟨front, after, rfl, fronts, afters⟩ := List.map_eq_append_iff.mp first.1
  obtain ⟨before, spelled, rfl, befores, named⟩ := List.map_eq_append_iff.mp fronts
  rw [← befores, ← afters] at first
  refine ⟨before, spelled, after, rfl, first, named, ?_⟩
  rw [cutPriority_split entry before spelled after first named] at cut
  cases cut
  rfl

theorem extractPriority_iff (text rest : List Char) :
    (extractPriority text).1 = rest ↔ WithoutPriority text rest := by
  rw [extractPriority]
  cases found : priorityMarkers.findSome? (cutPriority text) with
  | none =>
      have absent : ∀ entry ∈ priorityMarkers, ¬entry.1 <:+: toAsciiUppercase text :=
        fun entry member =>
          (cutPriority_eq_none text entry).mp (List.findSome?_eq_none_iff.mp found entry member)
      constructor
      · rintro rfl
        exact .plain absent
      · intro without
        cases without with
        | marked earlier later marker value listed _ before spelled after _ first =>
            have inside : (marker, value) ∈ priorityMarkers := listed ▸ List.mem_append_right _
              List.mem_cons_self
            exact absurd ⟨_, _, first.1.symm⟩ (absent _ inside)
        | plain => rfl
  | some result =>
      obtain ⟨earlier, entry, later, listed, cut, none⟩ := List.findSome?_eq_some_iff.mp found
      constructor
      · rintro rfl
        obtain ⟨before, spelled, after, split, first, named, left⟩ :=
          cutPriority_eq_some text _ _ entry cut
        rw [Option.getD_some, left]
        exact .marked earlier later entry.1 entry.2 listed
          (fun other member => (cutPriority_eq_none text other).mp (none other member))
          before spelled after split first named
      · intro without
        cases without with
        | marked sooner others marker value again absent before spelled after split first named =>
            subst split
            have passed : sooner.findSome? (cutPriority (before ++ spelled ++ after)) = .none :=
              List.findSome?_eq_none_iff.mpr fun other member =>
                (cutPriority_eq_none _ other).mpr (absent other member)
            rw [again, List.findSome?_append, passed, Option.none_or, List.findSome?_cons,
              cutPriority_split (marker, value) before spelled after first named] at found
            cases found
            rfl
        | plain absent =>
            have inside : entry ∈ priorityMarkers := listed ▸ List.mem_append_right _
              List.mem_cons_self
            rw [(cutPriority_eq_none text entry).mpr (absent entry inside)] at cut
            cases cut

theorem extractLabels_nil (text : List Char) :
    (extractLabels text).1 = [] ↔ ∀ token ∈ splitWhitespace text, isLabel token = true := by
  have filled : ∀ token ∈ splitWhitespace text, token ≠ [] := by
    intro token member
    have kept := (List.mem_filter.mp member).2
    rintro rfl
    cases kept
  rw [extractLabels]
  generalize splitWhitespace text = tokens at filled
  dsimp only
  constructor
  · intro blank token member
    by_contra other
    have kept : token ∈ tokens.filter (!isLabel ·) := List.mem_filter.mpr ⟨member, by simp [other]⟩
    cases shape : tokens.filter (!isLabel ·) with
    | nil =>
        rw [shape] at kept
        cases kept
    | cons first rest =>
        rw [shape] at blank
        have start : first ∈ tokens := (List.mem_filter.mp (shape ▸ List.mem_cons_self)).1
        cases rest with
        | nil => exact filled first start (by simpa using blank)
        | cons second others =>
            rw [List.intercalate_cons_cons] at blank
            exact filled first start (List.append_eq_nil_iff.mp
              (List.append_eq_nil_iff.mp blank).1).1
  · intro labels
    have none : tokens.filter (!isLabel ·) = [] := by
      simpa using labels
    rw [none]
    rfl

theorem title_nil (text : List Char) : title text = [] ↔ MarkersOnly text := by
  rw [title, extractLabels_nil]
  constructor
  · intro labels
    exact ⟨_, _, (extractComplexity_iff text _).mp rfl, (extractPriority_iff _ _).mp rfl, labels⟩
  · rintro ⟨middle, rest, complexity, priority, labels⟩
    rwa [(extractComplexity_iff text middle).mpr complexity,
      (extractPriority_iff middle rest).mpr priority]

end Storyhook.Decompose
