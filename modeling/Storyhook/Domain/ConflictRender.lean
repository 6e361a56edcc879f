import Storyhook.Domain.ConflictUnion

namespace Storyhook.Domain.ConflictSmoothing

open Library.Lines Library.Outcome Library.Text

/-- A marker line as a merge writes it: an optional label, in the file's own line ending. -/
def markerLine (kind : Marker) (label : Option Text) (carriage : Bool) : Line :=
  List.replicate 7 kind.character ++ (label.elim [] fun text => ' ' :: text) ++
    if carriage then ['\r', '\n'] else ['\n']

/-- A stretch of a conflicted file: lines both sides share, or a hunk both sides insert. -/
inductive Piece where
  | context (lines : List Line)
  | hunk (label : Marker → Option Text) (carriage : Bool) (first second : List Line)

def Piece.rendered : Piece → List Line
  | .context lines => lines
  | .hunk label carriage first second =>
      markerLine .begin (label .begin) carriage :: first ++
        markerLine .base (label .base) carriage ::
        markerLine .separator (label .separator) carriage :: second ++
        [markerLine .end (label .end) carriage]

def Piece.content : Piece → List Line
  | .context lines => lines
  | .hunk _ _ first second => first ++ second

def Piece.isHunk : Piece → Bool
  | .context _ => false
  | .hunk .. => true

/-- No label spans lines. -/
def Piece.Labelled : Piece → Prop
  | .context _ => True
  | .hunk label _ _ _ => ∀ kind, ∀ text ∈ label kind, '\n' ∉ text

/-- A line of the side, or its unterminated last line with the ending a merge completes it
with. -/
def SideLine (side : Text) (line : Line) : Prop :=
  ∃ source ∈ splitInclusive side, line = source ∨
    '\n' ∉ source ∧ (line = source ++ ['\n'] ∨ line = source ++ ['\r', '\n'])

def Accepted (side : Text) : Prop := ∃ what bytes, checkText what bytes = .ok side

def renderPieces (pieces : List Piece) (tail : Text) : Text :=
  (pieces.flatMap Piece.rendered).flatten ++ tail

def unitePieces (pieces : List Piece) (tail : Text) : Text :=
  (pieces.flatMap Piece.content).flatten ++ tail

theorem lineMarker_unterminated (source : Line) (unterminated : '\n' ∉ source) :
    lineMarker source = marker source := by
  rw [lineMarker, stripSuffix_eq_self]
  exact fun ends => unterminated (ends.subset List.mem_cons_self)

theorem sideLine_markerFree (side : Text) (line : Line) (accepted : Accepted side)
    (sourced : SideLine side line) : lineMarker line = none := by
  obtain ⟨what, bytes, checked⟩ := accepted
  obtain ⟨source, member, rfl | ⟨unterminated, rfl | rfl⟩⟩ := sourced
  · exact checkText_ok what bytes side checked line member
  · have free := checkText_ok what bytes side checked source member
    rw [lineMarker_unterminated source unterminated] at free
    rwa [lineMarker, stripSuffix_append]
  · have free := checkText_ok what bytes side checked source member
    rw [lineMarker_unterminated source unterminated] at free
    have ending : source ++ ['\r', '\n'] = (source ++ ['\r']) ++ ['\n'] := by simp
    rw [lineMarker, ending, stripSuffix_append]
    by_contra isMarker
    obtain ⟨kind, found⟩ := Option.ne_none_iff_exists'.mp isMarker
    rw [marker_carriage_return source kind found] at free
    cases free

theorem markerLine_marks (kind : Marker) (label : Option Text) (carriage : Bool) :
    lineMarker (markerLine kind label carriage) = some kind := by
  have marked : Marked kind
      (List.replicate 7 kind.character ++ label.elim [] fun text => ' ' :: text) := by
    cases label with
    | none => exact ⟨[], rfl, Or.inl rfl⟩
    | some text => exact ⟨' ' :: text, rfl, Or.inr ⟨text, rfl⟩⟩
  cases carriage with
  | false =>
      rw [lineMarker, markerLine, if_neg (by simp), stripSuffix_append, marker_eq_some]
      exact marked_stripped kind _ marked
  | true =>
      have ending (body : Text) : body ++ ['\r', '\n'] = (body ++ ['\r']) ++ ['\n'] := by simp
      rw [lineMarker, markerLine, if_pos rfl, ending, stripSuffix_append, marker_eq_some,
        stripSuffix_append]
      exact marked

theorem markerLine_complete (kind : Marker) (label : Option Text) (carriage : Bool)
    (oneLine : ∀ text ∈ label, '\n' ∉ text) : Complete (markerLine kind label carriage) := by
  have character : '\n' ≠ kind.character := by cases kind <;> decide
  refine ⟨List.replicate 7 kind.character ++ (label.elim [] fun text => ' ' :: text) ++
    (if carriage then ['\r'] else []), ?_, ?_⟩
  · cases carriage <;> simp [markerLine]
  · cases label with
    | none => cases carriage <;> simp [character]
    | some text =>
        have clear := oneLine text rfl
        cases carriage <;> simp [character, clear]

def Piece.blocks : Piece → List Block
  | .context lines => lines.map .context
  | .hunk label carriage first second =>
      [.hunk (markerLine .begin (label .begin) carriage) (markerLine .base (label .base) carriage)
        (markerLine .separator (label .separator) carriage)
        (markerLine .end (label .end) carriage) first second]

theorem flatMap_context (lines : List Line) :
    (lines.map Block.context).flatMap Block.lines = lines ∧
      (lines.map Block.context).flatMap Block.kept = lines := by
  induction lines with
  | nil => exact ⟨rfl, rfl⟩
  | cons line rest ih => simp_all [Block.lines, Block.kept]

theorem piece_blocks (piece : Piece) :
    piece.blocks.flatMap Block.lines = piece.rendered ∧
      piece.blocks.flatMap Block.kept = piece.content := by
  cases piece with
  | context lines => exact flatMap_context lines
  | hunk label carriage first second =>
      simp [Piece.blocks, Piece.rendered, Piece.content, Block.lines, Block.kept]

theorem piece_formed (piece : Piece) (free : MarkerFree piece.content) :
    ∀ block ∈ piece.blocks, block.WellFormed := by
  cases piece with
  | context lines =>
      intro block member
      obtain ⟨line, source, rfl⟩ := List.mem_map.mp member
      exact free line source
  | hunk label carriage first second =>
      intro block member
      rw [List.mem_singleton.mp member]
      exact ⟨markerLine_marks _ _ _, fun line source => free line (List.mem_append_left _ source),
        markerLine_marks _ _ _, markerLine_marks _ _ _,
        fun line source => free line (List.mem_append_right _ source), markerLine_marks _ _ _⟩

theorem piece_complete (piece : Piece) (labelled : piece.Labelled)
    (complete : ∀ line ∈ piece.content, Complete line) :
    ∀ line ∈ piece.rendered, Complete line := by
  cases piece with
  | context lines => exact complete
  | hunk label carriage first second =>
      intro line member
      have marks (kind : Marker) : Complete (markerLine kind (label kind) carriage) :=
        markerLine_complete kind (label kind) carriage (labelled kind)
      simp only [Piece.rendered, List.mem_cons, List.mem_append, List.cons_append,
        List.not_mem_nil, or_false] at member
      rcases member with rfl | (fromFirst | rfl | rfl | fromSecond) | rfl
      · exact marks .begin
      · exact complete line (List.mem_append_left _ fromFirst)
      · exact marks .base
      · exact marks .separator
      · exact complete line (List.mem_append_right _ fromSecond)
      · exact marks .end

theorem piece_hunk (piece : Piece) (isHunk : piece.isHunk) :
    ∃ block ∈ piece.blocks, block.isHunk := by
  cases piece with
  | context lines => cases isHunk
  | hunk label carriage first second => exact ⟨_, List.mem_singleton_self _, rfl⟩

theorem readBack_eq (pieces : List Piece) (tail : Text) :
    (pieces.flatMap Piece.blocks ++ (splitInclusive tail).map Block.context).flatMap Block.lines =
        pieces.flatMap Piece.rendered ++ splitInclusive tail ∧
      (pieces.flatMap Piece.blocks ++ (splitInclusive tail).map Block.context).flatMap Block.kept =
        pieces.flatMap Piece.content ++ splitInclusive tail := by
  have contexts := flatMap_context (splitInclusive tail)
  constructor
  · rw [List.flatMap_append, contexts.1, List.flatMap_assoc]
    exact congrArg (· ++ _) (List.flatMap_congr fun piece _ => (piece_blocks piece).1)
  · rw [List.flatMap_append, contexts.2, List.flatMap_assoc]
    exact congrArg (· ++ _) (List.flatMap_congr fun piece _ => (piece_blocks piece).2)

theorem union_render (sides : List Text) (pieces : List Piece) (tail : Text)
    (accepted : ∀ side ∈ sides, Accepted side)
    (hunk : ∃ piece ∈ pieces, piece.isHunk) (labelled : ∀ piece ∈ pieces, piece.Labelled)
    (sourced : ∀ piece ∈ pieces, ∀ line ∈ piece.content,
      Complete line ∧ ∃ side ∈ sides, SideLine side line)
    (unterminated : '\n' ∉ tail)
    (tailSourced : tail = [] ∨ ∃ side ∈ sides, SideLine side tail) :
    unionInsertions (renderPieces pieces tail) = .ok (unitePieces pieces tail) ∧
      ∀ line ∈ splitInclusive (unitePieces pieces tail),
        line ∈ pieces.flatMap Piece.content ∨ line = tail := by
  have free (piece : Piece) (member : piece ∈ pieces) : MarkerFree piece.content := by
    intro line source
    obtain ⟨-, side, known, origin⟩ := sourced piece member line source
    exact sideLine_markerFree side line (accepted side known) origin
  have rest := splitInclusive_unterminated tail unterminated
  have rendered : splitInclusive (renderPieces pieces tail) =
      pieces.flatMap Piece.rendered ++ splitInclusive tail := by
    apply splitInclusive_flatten
    intro line member
    obtain ⟨piece, source, written⟩ := List.mem_flatMap.mp member
    exact piece_complete piece (labelled piece source)
      (fun other kept => (sourced piece source other kept).1) line written
  have united : splitInclusive (unitePieces pieces tail) =
      pieces.flatMap Piece.content ++ splitInclusive tail := by
    apply splitInclusive_flatten
    intro line member
    obtain ⟨piece, source, kept⟩ := List.mem_flatMap.mp member
    exact (sourced piece source line kept).1
  constructor
  · rw [unionInsertions_blocks]
    refine ⟨pieces.flatMap Piece.blocks ++ (splitInclusive tail).map .context, ?_, ?_, ?_, ?_⟩
    · intro block member
      rcases List.mem_append.mp member with within | last
      · obtain ⟨piece, source, read⟩ := List.mem_flatMap.mp within
        exact piece_formed piece (free piece source) block read
      · obtain ⟨line, source, rfl⟩ := List.mem_map.mp last
        rw [rest] at source
        split at source
        · cases source
        · next present =>
            obtain ⟨side, known, ends⟩ := tailSourced.resolve_left present
            rw [List.mem_singleton.mp source]
            exact sideLine_markerFree side tail (accepted side known) ends
    · obtain ⟨piece, member, isHunk⟩ := hunk
      obtain ⟨block, read, hunkBlock⟩ := piece_hunk piece isHunk
      exact ⟨block, List.mem_append_left _ (List.mem_flatMap.mpr ⟨piece, member, read⟩), hunkBlock⟩
    · rw [rendered, (readBack_eq pieces tail).1]
    · rw [(readBack_eq pieces tail).2, List.flatten_append, flatten_splitInclusive]
      rfl
  · intro line member
    rw [united, rest] at member
    rcases List.mem_append.mp member with kept | last
    · exact Or.inl kept
    · split at last
      · cases last
      · exact Or.inr (List.mem_singleton.mp last)

/-- The union of insertion-only hunks: what it accepts, what it keeps of it, and that it reads
back every rendered conflict between accepted sides. -/
theorem union_insertions_exact :
    (∀ conflicted united : Text, unionInsertions conflicted = .ok united ↔
      InsertionOnly conflicted ∧ united = withoutMarkers conflicted) ∧
    ∀ (sides : List Text) (pieces : List Piece) (tail : Text),
      (∀ side ∈ sides, Accepted side) → (∃ piece ∈ pieces, piece.isHunk) →
      (∀ piece ∈ pieces, piece.Labelled) →
      (∀ piece ∈ pieces, ∀ line ∈ piece.content,
        Complete line ∧ ∃ side ∈ sides, SideLine side line) →
      '\n' ∉ tail → (tail = [] ∨ ∃ side ∈ sides, SideLine side tail) →
      unionInsertions (renderPieces pieces tail) = .ok (unitePieces pieces tail) ∧
        ∀ line ∈ splitInclusive (unitePieces pieces tail),
          line ∈ pieces.flatMap Piece.content ∨ line = tail :=
  ⟨unionInsertions_ok, union_render⟩

theorem checkText_string (what text : String) (small : text.toByteArray.size ≤ maxBlobBytes)
    (textual : text.toByteArray.data.toList.contains 0 = false)
    (free : ∀ line ∈ lines text.toList, marker line = none) :
    checkText what text.toByteArray = .ok text.toList := by
  have decoded : String.fromUTF8? text.toByteArray = some text := dif_pos text.isValidUTF8
  have clean : (lines text.toList).find? (fun line => (marker line).isSome) = none := by
    rw [List.find?_eq_none]
    intro line member
    simp [free line member]
  rw [checkText, if_neg (by omega), textual, if_neg (by decide), decoded]
  simp only [clean]

/-- One side inserts a line one `=` too long to be a marker, the other a line before its
unterminated last line. -/
theorem near_marker_side_united :
    unionInsertions
      "shared\n<<<<<<< ours\n========\n||||||| ours\n======= ours\nright\n>>>>>>> ours\nend".toList =
        .ok "shared\n========\nright\nend".toList := by
  let left : Text := "shared\n========\n".toList
  let right : Text := "shared\nright\nend".toList
  let pieces : List Piece := [.context ["shared\n".toList],
    .hunk (fun _ => some "ours".toList) false ["========\n".toList] ["right\n".toList]]
  have leftAccepted : Accepted left :=
    ⟨"ours", _, checkText_string "ours" "shared\n========\n" (by decide) (by decide) (by decide)⟩
  have rightAccepted : Accepted right :=
    ⟨"theirs", _, checkText_string "theirs" "shared\nright\nend" (by decide) (by decide)
      (by decide)⟩
  have accepted : ∀ side ∈ [left, right], Accepted side := by simp [leftAccepted, rightAccepted]
  have labelled : ∀ piece ∈ pieces, piece.Labelled := by
    intro piece member
    rcases List.mem_cons.mp member with rfl | member
    · trivial
    · rw [List.mem_singleton.mp member]
      rintro kind text ⟨⟩
      decide
  have shared : Complete "shared\n".toList := ⟨"shared".toList, rfl, by decide⟩
  have fromLeft : Complete "========\n".toList := ⟨"========".toList, rfl, by decide⟩
  have fromRight : Complete "right\n".toList := ⟨"right".toList, rfl, by decide⟩
  have sourced : ∀ piece ∈ pieces, ∀ line ∈ piece.content,
      Complete line ∧ ∃ side ∈ [left, right], SideLine side line := by
    intro piece member
    rcases List.mem_cons.mp member with rfl | member
    · intro line source
      rw [List.mem_singleton.mp source]
      exact ⟨shared, left, by simp, "shared\n".toList, by decide, Or.inl rfl⟩
    · rw [List.mem_singleton.mp member]
      intro line source
      rcases List.mem_cons.mp source with rfl | source
      · exact ⟨fromLeft, left, by simp, "========\n".toList, by decide, Or.inl rfl⟩
      · rw [List.mem_singleton.mp source]
        exact ⟨fromRight, right, by simp, "right\n".toList, by decide, Or.inl rfl⟩
  exact (union_insertions_exact.2 [left, right] pieces "end".toList accepted
    ⟨_, List.mem_cons_of_mem _ List.mem_cons_self, rfl⟩ labelled sourced (by decide)
    (Or.inr ⟨right, by simp, "end".toList, by decide, Or.inl rfl⟩)).1

end Storyhook.Domain.ConflictSmoothing
