import Mathlib.Algebra.Group.Nat.Defs
import Storyhook.Domain.Story
import Storyhook.Library.Text

namespace Storyhook.Store

open Storyhook.Domain (AppError)
open Library.Text

/-- A story's number within its project. -/
abbrev StoryNo := Nat

def i64Max : Nat := 2 ^ 63 - 1

def decimal (digits : List Char) : Option Nat :=
  if !digits.isEmpty && digits.all Char.isDigit then some (Nat.ofDigitChars 10 digits 0) else none

def parseI64 : List Char → Option Int
  | '-' :: digits => (decimal digits).bind fun number =>
      if number ≤ i64Max + 1 then some (-(number : Int)) else none
  | '+' :: digits => (decimal digits).bind fun number =>
      if number ≤ i64Max then some (number : Int) else none
  | digits => (decimal digits).bind fun number =>
      if number ≤ i64Max then some (number : Int) else none

inductive NotANumber where
  | nonNumeric | malformed
  deriving DecidableEq, Repr

def NotANumber.text : NotANumber → String
  | .nonNumeric => "non-numeric story"
  | .malformed => "malformed story"

def storyNumber (text : List Char) : Except NotANumber StoryNo :=
  match parseI64 text with
  | none => .error .nonNumeric
  | some number =>
      if number < 1 ∨ number.repr.toList ≠ text then .error .malformed else .ok number.toNat

def toId (idPrefix : String) (no : StoryNo) : String := idPrefix ++ "-" ++ Nat.repr no

def parseId (idPrefix : String) (id : String) : Except AppError StoryNo :=
  match (idPrefix.toList.isPrefixOf? id.toList).bind fun rest => ['-'].isPrefixOf? rest with
  | none =>
      .error (.validation ("story id `" ++ id ++ "` does not belong to a project with prefix `" ++
        idPrefix ++ "`"))
  | some rest =>
      (storyNumber rest).mapError fun why =>
        .validation ("story id `" ++ id ++ "` has a " ++ why.text ++ " number")

def Numbered (no : Nat) : Prop := 1 ≤ no ∧ no ≤ i64Max

theorem decimal_toDigits (number : Nat) : decimal (Nat.toDigits 10 number) = some number := by
  have digits : (Nat.toDigits 10 number).all Char.isDigit = true := by
    rw [List.all_eq_true]
    exact fun character member => Nat.isDigit_of_mem_toDigits (by decide) (by decide) member
  have some : (Nat.toDigits 10 number).isEmpty = false := by
    simp [Nat.toDigits_ne_nil]
  simp [decimal, digits, some]

theorem parseI64_toDigits (number : Nat) (fits : number ≤ i64Max) :
    parseI64 (Nat.toDigits 10 number) = some (number : Int) := by
  have digits (character : Char) (member : character ∈ Nat.toDigits 10 number) :
      character.isDigit = true := Nat.isDigit_of_mem_toDigits (by decide) (by decide) member
  have value := decimal_toDigits number
  generalize Nat.toDigits 10 number = text at digits value
  unfold parseI64
  split
  · exact absurd (digits '-' List.mem_cons_self) (by decide)
  · exact absurd (digits '+' List.mem_cons_self) (by decide)
  · simp [value, fits]

theorem parseI64_bounded (text : List Char) (number : Int)
    (parsed : parseI64 text = some number) : number ≤ i64Max := by
  unfold parseI64 at parsed
  split at parsed <;> obtain ⟨value, -, bounded⟩ := Option.bind_eq_some_iff.mp parsed
  all_goals
    split at bounded
    · have same := Option.some.inj bounded
      omega
    · cases bounded

theorem storyNumber_ok (text : List Char) (no : StoryNo) :
    storyNumber text = .ok no ↔ text = (Nat.repr no).toList ∧ Numbered no := by
  constructor
  · intro accepted
    unfold storyNumber at accepted
    split at accepted
    · cases accepted
    · next number parsed =>
        split at accepted
        · cases accepted
        · next canonical =>
            obtain ⟨positive, same⟩ := not_or.mp canonical
            obtain ⟨value, rfl⟩ := Int.eq_ofNat_of_zero_le (show 0 ≤ number by omega)
            have bounded := parseI64_bounded text _ parsed
            have chosen : value = no := by simpa using accepted
            subst chosen
            refine ⟨(Decidable.not_not.mp same).symm, ?_⟩
            constructor <;> omega
  · rintro ⟨rfl, positive, fits⟩
    unfold storyNumber
    rw [Nat.toList_repr, parseI64_toDigits no fits]
    have same : (Int.repr (no : Int)).toList = Nat.toDigits 10 no := Nat.toList_repr
    have canonical : ¬ ((no : Int) < 1 ∨ (Int.repr (no : Int)).toList ≠ Nat.toDigits 10 no) := by
      rw [not_or]
      exact ⟨by omega, not_not.mpr same⟩
    exact if_neg canonical

theorem parseId_ok (idPrefix id : String) (no : StoryNo) :
    parseId idPrefix id = .ok no ↔ id = toId idPrefix no ∧ Numbered no := by
  unfold parseId
  have spelled : id = toId idPrefix no ↔
      id.toList = idPrefix.toList ++ ('-' :: (Nat.repr no).toList) := by
    rw [← String.toList_inj]
    simp [toId]
  constructor
  · intro accepted
    split at accepted
    · cases accepted
    · next rest found =>
        obtain ⟨tail, front, dash⟩ := Option.bind_eq_some_iff.mp found
        rw [isPrefixOf?_eq_some] at front dash
        cases numbered : storyNumber rest with
        | error why => simp [numbered, Except.mapError] at accepted
        | ok number =>
            have chosen : number = no := by simpa [numbered, Except.mapError] using accepted
            subst chosen
            obtain ⟨text, legal⟩ := (storyNumber_ok rest number).mp numbered
            refine ⟨spelled.mpr ?_, legal⟩
            rw [front, dash, text]
            rfl
  · rintro ⟨same, legal⟩
    have found : (idPrefix.toList.isPrefixOf? id.toList).bind
        (fun rest => ['-'].isPrefixOf? rest) = some (Nat.repr no).toList := by
      rw [Option.bind_eq_some_iff]
      exact ⟨'-' :: (Nat.repr no).toList, (isPrefixOf?_eq_some _ _ _).mpr (spelled.mp same),
        (isPrefixOf?_eq_some _ _ _).mpr rfl⟩
    rw [found]
    simp only
    rw [(storyNumber_ok _ no).mpr ⟨rfl, legal⟩]
    rfl

theorem toId_injective (idPrefix : String) (left right : StoryNo)
    (same : toId idPrefix left = toId idPrefix right) : left = right := by
  have digits : (Nat.repr left).toList = (Nat.repr right).toList := by
    have spelled := congrArg String.toList same
    simpa [toId] using spelled
  rw [Nat.toList_repr, Nat.toList_repr] at digits
  have values := congrArg (fun text => Nat.ofDigitChars 10 text 0) digits
  simpa using values

end Storyhook.Store
