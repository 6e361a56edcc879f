import Mathlib.Data.List.Forall2
import Mathlib.Data.List.Infix
import Storyhook.Library.Text

/-! Patterns of single characters and runs of any characters, as a query language matches them. -/

namespace Storyhook.Library.Pattern

inductive Piece where
  | run
  | one (test : Char → Bool)

def accepts : List Piece → List Char → Bool
  | [], text => text.isEmpty
  | .run :: pieces, text => text.tails.any (accepts pieces)
  | .one _ :: _, [] => false
  | .one test :: pieces, character :: text => test character && accepts pieces text

def likePiece (character : Char) : Piece :=
  if character = '%' then .run
  else if character = '_' then .one fun _ => true
  else .one fun other => other.toLower == character.toLower

def like (pattern : String) (text : List Char) : Bool := accepts (pattern.toList.map likePiece) text

/-- The position of a character's first occurrence counted from one, or zero. -/
def instr (text : List Char) (character : Char) : Nat :=
  if character ∈ text then text.idxOf character + 1 else 0

def substr (text : List Char) (start length : Nat) : List Char :=
    (text.drop (start - 1)).take length

theorem accepts_run (pieces : List Piece) (text : List Char) :
    accepts (.run :: pieces) text ↔ ∃ suffix, suffix <:+ text ∧ accepts pieces suffix := by
  simp only [accepts, List.any_eq_true, List.mem_tails]

theorem accepts_rest (text : List Char) : accepts [.run] text :=
  (accepts_run [] text).mpr ⟨[], List.nil_suffix, rfl⟩

theorem accepts_anywhere (test : Char → Bool) (text : List Char) :
    accepts [.run, .one test, .run] text ↔ ∃ character ∈ text, test character := by
  rw [accepts_run]
  constructor
  · rintro ⟨suffix, inside, accepted⟩
    cases suffix with
    | nil => cases accepted
    | cons character rest =>
        rw [accepts, Bool.and_eq_true] at accepted
        exact ⟨character, inside.subset List.mem_cons_self, accepted.1⟩
  · rintro ⟨character, member, passes⟩
    obtain ⟨before, after, rfl⟩ := List.append_of_mem member
    refine ⟨character :: after, List.suffix_append before _, ?_⟩
    rw [accepts, passes, accepts_rest]
    rfl

theorem accepts_tests (tests : List (Char → Bool)) (pieces : List Piece) (text : List Char) :
    accepts (tests.map .one ++ pieces) text ↔
      ∃ start rest, text = start ++ rest ∧ List.Forall₂ (fun test character => test character) tests
        start ∧ accepts pieces rest := by
  induction tests generalizing text with
  | nil =>
      constructor
      · intro accepted
        exact ⟨[], text, rfl, List.Forall₂.nil, accepted⟩
      · rintro ⟨start, rest, rfl, passed, accepted⟩
        cases passed
        exact accepted
  | cons test tests ih =>
      cases text with
      | nil =>
          constructor
          · intro accepted
            cases accepted
          · rintro ⟨start, rest, empty, passed, -⟩
            cases passed
            cases empty
      | cons character text =>
          rw [List.map_cons, List.cons_append, accepts, Bool.and_eq_true, ih]
          constructor
          · rintro ⟨passes, start, rest, rfl, passed, accepted⟩
            exact ⟨character :: start, rest, rfl, List.Forall₂.cons passes passed, accepted⟩
          · rintro ⟨start, rest, split, passed, accepted⟩
            cases passed with
            | cons passes passed =>
                cases split
                exact ⟨passes, _, rest, rfl, passed, accepted⟩

theorem instr_append (before after : List Char) (character : Char) (absent : character ∉ before) :
    instr (before ++ character :: after) character = before.length + 1 := by
  rw [instr, if_pos (List.mem_append_right before List.mem_cons_self),
    List.idxOf_append_of_notMem absent, List.idxOf_cons_self, Nat.add_zero]

theorem forall₂_likePiece (pattern start : List Char) :
    List.Forall₂ (fun test character => (test character : Bool) = true)
        (pattern.map fun letter (other : Char) => other.toLower == letter.toLower) start ↔
      start.map Char.toLower = pattern.map Char.toLower := by
  induction pattern generalizing start with
  | nil => simp [List.forall₂_nil_left_iff]
  | cons letter pattern ih =>
      cases start with
      | nil => simp
      | cons character start => simp [ih]

end Storyhook.Library.Pattern
