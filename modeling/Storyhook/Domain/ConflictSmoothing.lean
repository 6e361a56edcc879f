import Mathlib.Data.List.TakeWhile
import Storyhook.Library.Lines
import Storyhook.Library.Outcome
import Storyhook.Library.Text

/-! Uniting the insertion-only diff3 hunks of a conflicted file. -/

namespace Storyhook.Domain.ConflictSmoothing

open Library.Lines Library.Outcome Library.Text

abbrev Text := List Char

def maxBlobBytes : Nat := 1048576

inductive Marker where
  | «begin» | base | separator | «end»
  deriving DecidableEq, Repr

def Marker.character : Marker → Char
  | .begin => '<'
  | .base => '|'
  | .separator => '='
  | .end => '>'

def Marker.name : Marker → String
  | .begin => "Begin"
  | .base => "Base"
  | .separator => "Separator"
  | .end => "End"

def markerKind (first : Char) : Option Marker :=
  if first = '<' then some .begin
  else if first = '|' then some .base
  else if first = '=' then some .separator
  else if first = '>' then some .end
  else none

/-- The marker a line is, if any: exactly seven of one marker character, then the end of the
line or a space. A carriage return that ends the line is ignored. -/
def marker (line : Text) : Option Marker := do
  let line := stripSuffix ['\r'] line
  let first ← line.head?
  let kind ← markerKind first
  let run := (line.takeWhile fun character => character == first).length
  let rest := line.drop run
  if run = 7 ∧ (rest = [] ∨ rest.head? = some ' ') then
    some kind
  else
    none

def withoutEnding (line : Line) : Text :=
  match ['\n'].isSuffixOf? line with
  | none => line
  | some body => stripSuffix ['\r'] body

def lines (text : Text) : List Text := (splitInclusive text).map withoutEnding

/-- Why one side of a conflicted path is refused; `what` names the side. -/
inductive TextRefusal where
  | overLimit (what : String) (size : Nat)
  | holdsNul (what : String)
  | notUtf8 (what : String)
  | holdsMarker (what : String) (line : Text)
  deriving DecidableEq, Repr

def checkText (what : String) (bytes : ByteArray) : Except TextRefusal Text :=
  if maxBlobBytes < bytes.size then
    .error (.overLimit what bytes.size)
  else if bytes.data.toList.contains 0 then
    .error (.holdsNul what)
  else
    match String.fromUTF8? bytes with
    | none => .error (.notUtf8 what)
    | some text =>
        match (lines text.toList).find? fun line => (marker line).isSome with
        | some line => .error (.holdsMarker what line)
        | none => .ok text.toList

inductive HunkRefusal where
  | modifies
  | malformed (why : String)
  deriving DecidableEq, Repr

def HunkRefusal.message : HunkRefusal → String
  | .modifies => "a hunk changes lines both sides share"
  | .malformed why => "its conflict markers are not diff3 hunks: " ++ why

def malformed {α : Type} (number : Nat) (why : String) : Except HunkRefusal α :=
  .error (.malformed ("line " ++ toString number ++ ": " ++ why))

/-- Where the parser is: outside a hunk, or in one of its sections. -/
inductive Section where
  | outside | first | base | second
  deriving DecidableEq, Repr

structure Parser where
  place : Section
  united : Text
  hunks : Nat
  modifies : Bool
  deriving DecidableEq, Repr

def Parser.start : Parser := ⟨.outside, [], 0, false⟩

def lineMarker (line : Line) : Option Marker := marker (stripSuffix ['\n'] line)

def parseLine (number : Nat) (line : Line) (parser : Parser) : Except HunkRefusal Parser :=
  match parser.place, lineMarker line with
  | .outside, some .begin => .ok { parser with place := .first }
  | .first, some .base => .ok { parser with place := .base }
  | .first, some .separator => malformed number "a hunk has no ||||||| base section"
  | .base, some .separator => .ok { parser with place := .second }
  | .second, some .end => .ok { parser with place := .outside, hunks := parser.hunks + 1 }
  | _, some found => malformed number (found.name ++ " marker out of order")
  | .base, none => .ok { parser with modifies := true }
  | _, none => .ok { parser with united := parser.united ++ line }

def parseLines (number : Nat) (parser : Parser) : List Line → Except HunkRefusal Parser
  | [] => .ok parser
  | line :: rest => do
      let parser ← parseLine number line parser
      parseLines (number + 1) parser rest

def unionInsertions (conflicted : Text) : Except HunkRefusal Text := do
  let parser ← parseLines 1 .start (splitInclusive conflicted)
  if parser.place ≠ .outside then
    malformed (splitInclusive conflicted).length "the last hunk never ends"
  else if parser.hunks = 0 then
    .error (.malformed "the file holds no conflict hunk")
  else if parser.modifies then
    .error .modifies
  else
    return parser.united

/-- Seven of the marker's character, then nothing or a space and a label. -/
def Marked (kind : Marker) (body : Text) : Prop :=
  ∃ rest, body = List.replicate 7 kind.character ++ rest ∧
    (rest = [] ∨ ∃ label, rest = ' ' :: label)

theorem markerKind_eq_some (first : Char) (kind : Marker) :
    markerKind first = some kind ↔ first = kind.character := by
  unfold markerKind
  constructor
  · intro found
    split at found
    · cases found; assumption
    · split at found
      · cases found; assumption
      · split at found
        · cases found; assumption
        · split at found
          · cases found; assumption
          · cases found
  · rintro rfl
    cases kind <;> decide

theorem takeWhile_marked (kind : Marker) (rest : Text)
    (ends : rest = [] ∨ ∃ label, rest = ' ' :: label) :
    (List.replicate 7 kind.character ++ rest).takeWhile
      (fun character => character == kind.character) = List.replicate 7 kind.character := by
  rw [List.takeWhile_append_of_pos (by simp)]
  rcases ends with rfl | ⟨label, rfl⟩
  · simp
  · have space : (' ' == kind.character) = false := by cases kind <;> decide
    simp [space]

theorem marker_eq_some (line : Text) (kind : Marker) :
    marker line = some kind ↔ Marked kind (stripSuffix ['\r'] line) := by
  simp only [marker, Marked, Option.bind_eq_bind]
  generalize stripSuffix ['\r'] line = body
  constructor
  · intro found
    cases body with
    | nil => cases found
    | cons first tail =>
        simp only [List.head?_cons, Option.bind_some, Option.bind_eq_some_iff] at found
        obtain ⟨other, known, found⟩ := found
        split at found
        · next shape =>
            cases found
            have same := (markerKind_eq_some first kind).mp known
            subst same
            obtain ⟨seven, ends⟩ := shape
            have run := List.takeWhile_prefix
              (p := fun character => character == kind.character) (l := kind.character :: tail)
            have taken := List.prefix_iff_eq_take.mp run
            have equal : List.takeWhile (fun character => character == kind.character)
                (kind.character :: tail) = List.replicate 7 kind.character := by
              refine List.eq_replicate_iff.mpr ⟨seven, ?_⟩
              intro character member
              simpa using List.mem_takeWhile_imp member
            refine ⟨(kind.character :: tail).drop 7, ?_, ?_⟩
            · rw [← equal, taken, seven, List.take_append_drop]
            · rw [seven] at ends
              exact ends.imp_right List.head?_eq_some_iff.mp
        · cases found
  · rintro ⟨rest, rfl, ends⟩
    have run := takeWhile_marked kind rest ends
    have first : (List.replicate 7 kind.character ++ rest).head? = some kind.character := rfl
    simp only [first, Option.bind_some, (markerKind_eq_some _ kind).mpr rfl, run,
      List.length_replicate]
    have drop : (List.replicate 7 kind.character ++ rest).drop 7 = rest := rfl
    rw [drop, if_pos ⟨trivial, ends.imp_right List.head?_eq_some_iff.mpr⟩]

theorem marked_stripped (kind : Marker) (body : Text) (marked : Marked kind body) :
    Marked kind (stripSuffix ['\r'] body) := by
  obtain ⟨rest, rfl, rfl | ⟨label, rfl⟩⟩ := marked
  · have kept : ¬ ['\r'] <:+ List.replicate 7 kind.character := by
      intro ends
      have member := List.eq_of_mem_replicate (ends.subset List.mem_cons_self)
      cases kind <;> exact absurd member (by decide)
    rw [List.append_nil, stripSuffix_eq_self _ _ kept]
    exact ⟨[], by simp, Or.inl rfl⟩
  · rw [stripSuffix_last_piece ' ' _ label ['\r'] (by decide)]
    exact ⟨' ' :: stripSuffix ['\r'] label, rfl, Or.inr ⟨_, rfl⟩⟩

theorem marker_withoutEnding (line : Line) (kind : Marker)
    (found : lineMarker line = some kind) : marker (withoutEnding line) = some kind := by
  rw [lineMarker, marker_eq_some] at found
  rw [marker_eq_some, withoutEnding]
  cases ended : ['\n'].isSuffixOf? line with
  | none =>
      have whole : stripSuffix ['\n'] line = line := by rw [stripSuffix, ended]; rfl
      rwa [whole] at found
  | some body =>
      have cut : stripSuffix ['\n'] line = body := by rw [stripSuffix, ended]; rfl
      rw [cut] at found
      exact marked_stripped kind _ found

theorem marker_carriage_return (line : Line) (kind : Marker)
    (found : marker (line ++ ['\r']) = some kind) : marker line = some kind := by
  rw [marker_eq_some, stripSuffix_append] at found
  exact (marker_eq_some line kind).mpr (marked_stripped kind line found)

theorem checkText_ok (what : String) (bytes : ByteArray) (text : Text)
    (accepted : checkText what bytes = .ok text) :
    ∀ line ∈ splitInclusive text, lineMarker line = none := by
  simp only [checkText] at accepted
  split at accepted
  · cases accepted
  · split at accepted
    · cases accepted
    · split at accepted
      · cases accepted
      · split at accepted
        · cases accepted
        · next clean =>
            cases accepted
            intro line member
            by_contra isMarker
            obtain ⟨kind, found⟩ := Option.ne_none_iff_exists'.mp isMarker
            have refused := List.find?_eq_none.mp clean _ (List.mem_map_of_mem member)
            simp [marker_withoutEnding line kind found] at refused

end Storyhook.Domain.ConflictSmoothing
