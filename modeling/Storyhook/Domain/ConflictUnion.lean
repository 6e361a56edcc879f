import Storyhook.Domain.ConflictSmoothing

namespace Storyhook.Domain.ConflictSmoothing

open Library.Lines Library.Outcome Library.Text

/-- A marker-free line, or a diff3 hunk whose base section is empty. -/
inductive Block where
  | context (line : Line)
  | hunk (opening base separator ending : Line) (first second : List Line)

def Block.lines : Block → List Line
  | .context line => [line]
  | .hunk opening base separator ending first second =>
      opening :: first ++ base :: separator :: second ++ [ending]

def Block.kept : Block → List Line
  | .context line => [line]
  | .hunk _ _ _ _ first second => first ++ second

def Block.isHunk : Block → Bool
  | .context _ => false
  | .hunk .. => true

def MarkerFree (lines : List Line) : Prop := ∀ line ∈ lines, lineMarker line = none

def Block.WellFormed : Block → Prop
  | .context line => lineMarker line = none
  | .hunk opening base separator ending first second =>
      lineMarker opening = some .begin ∧ MarkerFree first ∧ lineMarker base = some .base ∧
        lineMarker separator = some .separator ∧ MarkerFree second ∧
        lineMarker ending = some .end

/-- The lines that can still follow in each section, with those of them that are kept and the
number of hunks they end. -/
inductive Accepts : Section → List Line → List Line → Nat → Prop where
  | done : Accepts .outside [] [] 0
  | context (line : Line) (rest kept : List Line) (hunks : Nat)
      (free : lineMarker line = none) (follows : Accepts .outside rest kept hunks) :
      Accepts .outside (line :: rest) (line :: kept) hunks
  | opening (line : Line) (rest kept : List Line) (hunks : Nat)
      (marked : lineMarker line = some .begin) (follows : Accepts .first rest kept hunks) :
      Accepts .outside (line :: rest) kept hunks
  | first (line : Line) (rest kept : List Line) (hunks : Nat)
      (free : lineMarker line = none) (follows : Accepts .first rest kept hunks) :
      Accepts .first (line :: rest) (line :: kept) hunks
  | base (line : Line) (rest kept : List Line) (hunks : Nat)
      (marked : lineMarker line = some .base) (follows : Accepts .base rest kept hunks) :
      Accepts .first (line :: rest) kept hunks
  | separator (line : Line) (rest kept : List Line) (hunks : Nat)
      (marked : lineMarker line = some .separator) (follows : Accepts .second rest kept hunks) :
      Accepts .base (line :: rest) kept hunks
  | second (line : Line) (rest kept : List Line) (hunks : Nat)
      (free : lineMarker line = none) (follows : Accepts .second rest kept hunks) :
      Accepts .second (line :: rest) (line :: kept) hunks
  | ending (line : Line) (rest kept : List Line) (hunks : Nat)
      (marked : lineMarker line = some .end) (follows : Accepts .outside rest kept hunks) :
      Accepts .second (line :: rest) kept (hunks + 1)

theorem parseLine_ok (number : Nat) (line : Line) (before after : Parser)
    (stepped : parseLine number line before = .ok after) :
    (before.place = .outside ∧ lineMarker line = some .begin ∧
        after = { before with place := .first }) ∨
      (before.place = .first ∧ lineMarker line = some .base ∧
        after = { before with place := .base }) ∨
      (before.place = .base ∧ lineMarker line = some .separator ∧
        after = { before with place := .second }) ∨
      (before.place = .second ∧ lineMarker line = some .end ∧
        after = { before with place := .outside, hunks := before.hunks + 1 }) ∨
      (before.place = .base ∧ lineMarker line = none ∧
        after = { before with modifies := true }) ∨
      (before.place ≠ .base ∧ lineMarker line = none ∧
        after = { before with united := before.united ++ line }) := by
  unfold parseLine at stepped
  cases place : before.place <;> cases found : lineMarker line with
  | none => simp_all
  | some kind => cases kind <;> simp_all [malformed]

theorem parseLines_modifies (lines : List Line) (number : Nat) (before after : Parser)
    (parsed : parseLines number before lines = .ok after) (insertion : after.modifies = false) :
    before.modifies = false := by
  induction lines generalizing number before with
  | nil =>
      cases parsed
      exact insertion
  | cons line rest ih =>
      simp only [parseLines, bind_eq_ok] at parsed
      obtain ⟨middle, stepped, parsed⟩ := parsed
      have earlier := ih (number + 1) middle parsed
      rcases parseLine_ok number line before middle stepped with
        ⟨-, -, rfl⟩ | ⟨-, -, rfl⟩ | ⟨-, -, rfl⟩ | ⟨-, -, rfl⟩ | ⟨-, -, rfl⟩ | ⟨-, -, rfl⟩ <;>
        simp_all

theorem parseLines_accepts (lines : List Line) (number : Nat) (before after : Parser)
    (parsed : parseLines number before lines = .ok after) (closed : after.place = .outside)
    (insertion : after.modifies = false) :
    ∃ kept hunks, Accepts before.place lines kept hunks ∧
      after.united = before.united ++ kept.flatten ∧ after.hunks = before.hunks + hunks := by
  induction lines generalizing number before with
  | nil =>
      cases parsed
      exact ⟨[], 0, closed ▸ .done, by simp, rfl⟩
  | cons line rest ih =>
      simp only [parseLines, bind_eq_ok] at parsed
      obtain ⟨middle, stepped, parsed⟩ := parsed
      have unmodified := parseLines_modifies rest (number + 1) middle after parsed insertion
      obtain ⟨kept, hunks, follows, united, counted⟩ := ih (number + 1) middle parsed
      rcases parseLine_ok number line before middle stepped with
        ⟨place, found, rfl⟩ | ⟨place, found, rfl⟩ | ⟨place, found, rfl⟩ | ⟨place, found, rfl⟩ |
        ⟨-, -, rfl⟩ | ⟨place, found, rfl⟩
      · exact ⟨kept, hunks, place ▸ .opening line rest kept hunks found follows, united, counted⟩
      · exact ⟨kept, hunks, place ▸ .base line rest kept hunks found follows, united, counted⟩
      · exact ⟨kept, hunks, place ▸ .separator line rest kept hunks found follows, united, counted⟩
      · refine ⟨kept, hunks + 1, place ▸ .ending line rest kept hunks found follows, united, ?_⟩
        show after.hunks = before.hunks + (hunks + 1)
        rw [counted]
        show before.hunks + 1 + hunks = before.hunks + (hunks + 1)
        omega
      · cases unmodified
      · refine ⟨line :: kept, hunks, ?_, by simp [united], counted⟩
        cases within : before.place with
        | outside => exact .context line rest kept hunks found (within ▸ follows)
        | first => exact .first line rest kept hunks found (within ▸ follows)
        | base => exact absurd within place
        | second => exact .second line rest kept hunks found (within ▸ follows)

theorem parseLines_cons (number : Nat) (line : Line) (rest : List Line)
    (before middle : Parser) (stepped : parseLine number line before = .ok middle) :
    parseLines number before (line :: rest) = parseLines (number + 1) middle rest := by
  rw [parseLines, stepped]
  rfl

theorem parseLine_free (number : Nat) (line : Line) (before : Parser)
    (place : before.place ≠ .base) (free : lineMarker line = none) :
    parseLine number line before = .ok { before with united := before.united ++ line } := by
  unfold parseLine
  cases within : before.place <;> simp_all

theorem accepts_parseLines (place : Section) (lines kept : List Line) (hunks : Nat)
    (accepted : Accepts place lines kept hunks) (number : Nat) (before : Parser)
    (within : before.place = place) :
    parseLines number before lines = .ok
      { before with
        place := .outside
        united := before.united ++ kept.flatten
        hunks := before.hunks + hunks } := by
  induction accepted generalizing number before with
  | done => simp [parseLines, ← within]
  | context line rest kept hunks free follows ih =>
      have stepped := parseLine_free number line before (by simp [within]) free
      rw [parseLines_cons number line rest before _ stepped]
      simpa using ih (number + 1) { before with united := before.united ++ line } within
  | opening line rest kept hunks marked follows ih =>
      have stepped : parseLine number line before = .ok { before with place := .first } := by
        simp [parseLine, within, marked]
      rw [parseLines_cons number line rest before _ stepped]
      exact ih (number + 1) { before with place := .first } rfl
  | first line rest kept hunks free follows ih =>
      have stepped := parseLine_free number line before (by simp [within]) free
      rw [parseLines_cons number line rest before _ stepped]
      simpa using ih (number + 1) { before with united := before.united ++ line } within
  | base line rest kept hunks marked follows ih =>
      have stepped : parseLine number line before = .ok { before with place := .base } := by
        simp [parseLine, within, marked]
      rw [parseLines_cons number line rest before _ stepped]
      exact ih (number + 1) { before with place := .base } rfl
  | separator line rest kept hunks marked follows ih =>
      have stepped : parseLine number line before = .ok { before with place := .second } := by
        simp [parseLine, within, marked]
      rw [parseLines_cons number line rest before _ stepped]
      exact ih (number + 1) { before with place := .second } rfl
  | second line rest kept hunks free follows ih =>
      have stepped := parseLine_free number line before (by simp [within]) free
      rw [parseLines_cons number line rest before _ stepped]
      simpa using ih (number + 1) { before with united := before.united ++ line } within
  | ending line rest kept hunks marked follows ih =>
      have stepped : parseLine number line before =
          .ok { before with place := .outside, hunks := before.hunks + 1 } := by
        simp [parseLine, within, marked]
      have counted : before.hunks + (hunks + 1) = before.hunks + 1 + hunks := by omega
      rw [parseLines_cons number line rest before _ stepped, counted]
      exact ih (number + 1) { before with place := .outside, hunks := before.hunks + 1 } rfl

/-- What the lines accepted in a section are made of, up to the end of the hunk they are in and
the blocks after it. -/
def Splits (blocks : List Block) : Section → List Line → List Line → Nat → Prop
  | .outside, lines, kept, hunks =>
      lines = blocks.flatMap Block.lines ∧ kept = blocks.flatMap Block.kept ∧
        hunks = (blocks.filter Block.isHunk).length
  | .first, lines, kept, hunks =>
      ∃ first base separator second ending, MarkerFree first ∧ lineMarker base = some .base ∧
        lineMarker separator = some .separator ∧ MarkerFree second ∧
        lineMarker ending = some .end ∧
        lines = first ++ base :: separator :: second ++ ending :: blocks.flatMap Block.lines ∧
        kept = first ++ second ++ blocks.flatMap Block.kept ∧
        hunks = (blocks.filter Block.isHunk).length + 1
  | .base, lines, kept, hunks =>
      ∃ separator second ending, lineMarker separator = some .separator ∧ MarkerFree second ∧
        lineMarker ending = some .end ∧
        lines = separator :: second ++ ending :: blocks.flatMap Block.lines ∧
        kept = second ++ blocks.flatMap Block.kept ∧
        hunks = (blocks.filter Block.isHunk).length + 1
  | .second, lines, kept, hunks =>
      ∃ second ending, MarkerFree second ∧ lineMarker ending = some .end ∧
        lines = second ++ ending :: blocks.flatMap Block.lines ∧
        kept = second ++ blocks.flatMap Block.kept ∧
        hunks = (blocks.filter Block.isHunk).length + 1

theorem markerFree_cons (line : Line) (rest : List Line) :
    MarkerFree (line :: rest) ↔ lineMarker line = none ∧ MarkerFree rest := by
  simp [MarkerFree]

theorem accepts_splits (place : Section) (lines kept : List Line) (hunks : Nat)
    (accepted : Accepts place lines kept hunks) :
    ∃ blocks : List Block, (∀ block ∈ blocks, block.WellFormed) ∧
      Splits blocks place lines kept hunks := by
  induction accepted with
  | done => exact ⟨[], by simp, rfl, rfl, rfl⟩
  | context line rest kept hunks free follows ih =>
      obtain ⟨blocks, formed, rfl, rfl, rfl⟩ := ih
      refine ⟨.context line :: blocks, ?_, rfl, rfl, rfl⟩
      simpa [Block.WellFormed, free] using formed
  | opening line rest kept hunks marked follows ih =>
      obtain ⟨blocks, formed, first, base, separator, second, ending, firstFree, isBase,
        isSeparator, secondFree, isEnd, rfl, rfl, rfl⟩ := ih
      refine ⟨.hunk line base separator ending first second :: blocks, ?_, ?_, ?_, ?_⟩
      · simpa [Block.WellFormed, marked, firstFree, isBase, isSeparator, secondFree, isEnd]
          using formed
      · simp [Block.lines]
      · simp [Block.kept]
      · rfl
  | first line rest kept hunks free follows ih =>
      obtain ⟨blocks, formed, first, base, separator, second, ending, firstFree, isBase,
        isSeparator, secondFree, isEnd, rfl, rfl, rfl⟩ := ih
      exact ⟨blocks, formed, line :: first, base, separator, second, ending,
        (markerFree_cons line first).mpr ⟨free, firstFree⟩, isBase, isSeparator, secondFree,
        isEnd, rfl, rfl, rfl⟩
  | base line rest kept hunks marked follows ih =>
      obtain ⟨blocks, formed, separator, second, ending, isSeparator, secondFree, isEnd, rfl,
        rfl, rfl⟩ := ih
      exact ⟨blocks, formed, [], line, separator, second, ending, by simp [MarkerFree], marked,
        isSeparator, secondFree, isEnd, rfl, rfl, rfl⟩
  | separator line rest kept hunks marked follows ih =>
      obtain ⟨blocks, formed, second, ending, secondFree, isEnd, rfl, rfl, rfl⟩ := ih
      exact ⟨blocks, formed, line, second, ending, marked, secondFree, isEnd, rfl, rfl, rfl⟩
  | second line rest kept hunks free follows ih =>
      obtain ⟨blocks, formed, second, ending, secondFree, isEnd, rfl, rfl, rfl⟩ := ih
      exact ⟨blocks, formed, line :: second, ending,
        (markerFree_cons line second).mpr ⟨free, secondFree⟩, isEnd, rfl, rfl, rfl⟩
  | ending line rest kept hunks marked follows ih =>
      obtain ⟨blocks, formed, rfl, rfl, rfl⟩ := ih
      exact ⟨blocks, formed, [], line, by simp [MarkerFree], marked, rfl, rfl, rfl⟩

theorem accepts_first (first rest kept : List Line) (hunks : Nat) (free : MarkerFree first)
    (follows : Accepts .first rest kept hunks) :
    Accepts .first (first ++ rest) (first ++ kept) hunks := by
  induction first with
  | nil => exact follows
  | cons line others ih =>
      obtain ⟨head, tail⟩ := (markerFree_cons line others).mp free
      exact .first line _ _ hunks head (ih tail)

theorem accepts_second (second rest kept : List Line) (hunks : Nat) (free : MarkerFree second)
    (follows : Accepts .second rest kept hunks) :
    Accepts .second (second ++ rest) (second ++ kept) hunks := by
  induction second with
  | nil => exact follows
  | cons line others ih =>
      obtain ⟨head, tail⟩ := (markerFree_cons line others).mp free
      exact .second line _ _ hunks head (ih tail)

theorem splits_accepts (blocks : List Block) (formed : ∀ block ∈ blocks, block.WellFormed) :
    Accepts .outside (blocks.flatMap Block.lines) (blocks.flatMap Block.kept)
      (blocks.filter Block.isHunk).length := by
  induction blocks with
  | nil => exact .done
  | cons block rest ih =>
      have follows := ih fun other member => formed other (List.mem_cons_of_mem _ member)
      have shape := formed block List.mem_cons_self
      cases block with
      | context line => exact .context line _ _ _ shape follows
      | hunk opening base separator ending first second =>
          obtain ⟨isBegin, firstFree, isBase, isSeparator, secondFree, isEnd⟩ := shape
          have closed := accepts_second second _ _ _ secondFree
            (.ending ending _ _ _ isEnd follows)
          have whole := accepts_first first _ _ _ firstFree
            (.base base _ _ _ isBase (.separator separator _ _ _ isSeparator closed))
          have counted : (List.filter Block.isHunk
              (.hunk opening base separator ending first second :: rest)).length =
                (rest.filter Block.isHunk).length + 1 := rfl
          simpa [Block.lines, Block.kept, counted] using
            Accepts.opening opening _ _ _ isBegin whole

theorem unionInsertions_parsed (conflicted united : Text) :
    unionInsertions conflicted = .ok united ↔
      ∃ parser, parseLines 1 .start (splitInclusive conflicted) = .ok parser ∧
        parser.place = .outside ∧ parser.hunks ≠ 0 ∧ parser.modifies = false ∧
        parser.united = united := by
  simp only [unionInsertions, bind_eq_ok]
  constructor
  · rintro ⟨parser, parsed, finished⟩
    split at finished
    · cases finished
    · next closed =>
        split at finished
        · cases finished
        · next some =>
            split at finished
            · cases finished
            · next insertion =>
                cases finished
                exact ⟨parser, parsed, not_not.mp closed, some, by simpa using insertion, rfl⟩
  · rintro ⟨parser, parsed, closed, some, insertion, rfl⟩
    exact ⟨parser, parsed, by simp [closed, some, insertion, pure, Except.pure]⟩

theorem unionInsertions_blocks (conflicted united : Text) :
    unionInsertions conflicted = .ok united ↔
      ∃ blocks : List Block, (∀ block ∈ blocks, block.WellFormed) ∧
        (∃ block ∈ blocks, block.isHunk) ∧
        splitInclusive conflicted = blocks.flatMap Block.lines ∧
        united = (blocks.flatMap Block.kept).flatten := by
  rw [unionInsertions_parsed]
  constructor
  · rintro ⟨parser, parsed, closed, some, insertion, rfl⟩
    obtain ⟨kept, hunks, accepted, united, counted⟩ :=
      parseLines_accepts _ 1 .start parser parsed closed insertion
    obtain ⟨blocks, formed, lines, rfl, rfl⟩ := accepts_splits _ _ _ _ accepted
    refine ⟨blocks, formed, ?_, lines, by simpa [Parser.start] using united⟩
    rw [counted] at some
    have present : 0 < (blocks.filter Block.isHunk).length := by
      simp only [Parser.start] at some
      omega
    obtain ⟨block, member⟩ := List.exists_mem_of_length_pos present
    exact ⟨block, (List.mem_filter.mp member).1, (List.mem_filter.mp member).2⟩
  · rintro ⟨blocks, formed, ⟨block, member, isHunk⟩, lines, rfl⟩
    have parsed := accepts_parseLines .outside _ _ _ (splits_accepts blocks formed) 1 .start rfl
    have present : 0 < (blocks.filter Block.isHunk).length :=
      List.length_pos_of_mem (List.mem_filter.mpr ⟨member, isHunk⟩)
    rw [lines]
    refine ⟨_, parsed, rfl, ?_, rfl, by simp [Parser.start]⟩
    simp only [Parser.start]
    omega

/-- A text of marker-free lines and at least one diff3 hunk that only inserts. -/
def InsertionOnly (text : Text) : Prop :=
  ∃ blocks : List Block, (∀ block ∈ blocks, block.WellFormed) ∧
    (∃ block ∈ blocks, block.isHunk) ∧ splitInclusive text = blocks.flatMap Block.lines

def withoutMarkers (text : Text) : Text :=
  ((splitInclusive text).filter fun line => (lineMarker line).isNone).flatten

theorem markerFree_filter (lines : List Line) (free : MarkerFree lines) :
    lines.filter (fun line => (lineMarker line).isNone) = lines := by
  rw [List.filter_eq_self]
  intro line member
  rw [free line member]
  rfl

theorem block_kept (block : Block) (formed : block.WellFormed) :
    block.lines.filter (fun line => (lineMarker line).isNone) = block.kept := by
  cases block with
  | context line =>
      have free : lineMarker line = none := formed
      exact markerFree_filter [line] (by simp [MarkerFree, free])
  | hunk opening base separator ending first second =>
      obtain ⟨isBegin, firstFree, isBase, isSeparator, secondFree, isEnd⟩ := formed
      simp [Block.lines, Block.kept, List.filter_append, isBegin, isBase,
        isSeparator, isEnd, markerFree_filter first firstFree,
        markerFree_filter second secondFree]

theorem blocks_kept (blocks : List Block) (formed : ∀ block ∈ blocks, block.WellFormed) :
    (blocks.flatMap Block.lines).filter (fun line => (lineMarker line).isNone) =
      blocks.flatMap Block.kept := by
  rw [List.filter_flatMap]
  exact List.flatMap_congr fun block member => block_kept block (formed block member)

theorem unionInsertions_ok (conflicted united : Text) :
    unionInsertions conflicted = .ok united ↔
      InsertionOnly conflicted ∧ united = withoutMarkers conflicted := by
  rw [unionInsertions_blocks]
  constructor
  · rintro ⟨blocks, formed, hunk, lines, rfl⟩
    refine ⟨⟨blocks, formed, hunk, lines⟩, ?_⟩
    rw [withoutMarkers, lines, blocks_kept blocks formed]
  · rintro ⟨⟨blocks, formed, hunk, lines⟩, rfl⟩
    refine ⟨blocks, formed, hunk, lines, ?_⟩
    rw [withoutMarkers, lines, blocks_kept blocks formed]

end Storyhook.Domain.ConflictSmoothing
