import Mathlib.Data.List.Basic
import Mathlib.Tactic.Common

/-! The lines of a text, each with the newline that ends it. -/

namespace Storyhook.Library.Lines

abbrev Line := List Char

/-- Cuts a text after every newline. -/
def splitInclusive : List Char → List Line
  | [] => []
  | head :: tail =>
      if head = '\n' then
        [head] :: splitInclusive tail
      else
        match splitInclusive tail with
        | [] => [[head]]
        | line :: rest => (head :: line) :: rest

/-- A line whose one newline is its last character. -/
def Complete (line : Line) : Prop := ∃ body, line = body ++ ['\n'] ∧ '\n' ∉ body

theorem flatten_splitInclusive (text : List Char) : (splitInclusive text).flatten = text := by
  induction text with
  | nil => rfl
  | cons head tail ih =>
      unfold splitInclusive
      split
      · rw [List.flatten_cons, ih]
        rfl
      · split
        · next none => rw [none] at ih; simp [← ih]
        · next line rest some =>
            rw [some] at ih
            rw [← ih]
            simp

theorem splitInclusive_complete (line : Line) (rest : List Char) (complete : Complete line) :
    splitInclusive (line ++ rest) = line :: splitInclusive rest := by
  obtain ⟨body, rfl, absent⟩ := complete
  induction body with
  | nil => simp [splitInclusive]
  | cons head tail ih =>
      simp only [List.mem_cons, not_or] at absent
      simp only [List.cons_append, splitInclusive, if_neg (Ne.symm absent.1), ih absent.2]

theorem splitInclusive_unterminated (text : List Char) (absent : '\n' ∉ text) :
    splitInclusive text = if text = [] then [] else [text] := by
  induction text with
  | nil => rfl
  | cons head tail ih =>
      simp only [List.mem_cons, not_or] at absent
      rw [splitInclusive, if_neg (Ne.symm absent.1), ih absent.2]
      by_cases blank : tail = []
      · simp [blank]
      · simp [blank]

theorem splitInclusive_flatten (lines : List Line) (rest : List Char)
    (complete : ∀ line ∈ lines, Complete line) :
    splitInclusive (lines.flatten ++ rest) = lines ++ splitInclusive rest := by
  induction lines with
  | nil => rfl
  | cons line others ih =>
      rw [List.flatten_cons, List.append_assoc,
        splitInclusive_complete line _ (complete line List.mem_cons_self),
        ih fun other member => complete other (List.mem_cons_of_mem _ member)]
      rfl

theorem splitInclusive_newline (front back : List Char) : splitInclusive (front ++ '\n' :: back) =
    splitInclusive (front ++ ['\n']) ++ splitInclusive back := by
  induction front with
  | nil => rfl
  | cons head tail further =>
      rw [List.cons_append, List.cons_append, splitInclusive, splitInclusive, further]
      split
      · rfl
      · cases found : splitInclusive (tail ++ ['\n']) with
        | nil =>
            have whole := flatten_splitInclusive (tail ++ ['\n'])
            rw [found] at whole
            exact absurd whole.symm (by simp)
        | cons line rest => rfl

theorem splitInclusive_ended (text : List Char) (number : Nat) (line : Line)
    (found : (splitInclusive text)[number]? = some line) :
    (splitInclusive (text ++ ['\n']))[number]? = some line ∨
      (splitInclusive (text ++ ['\n']))[number]? = some (line ++ ['\n']) ∧
        line.getLast? ≠ some '\n' := by
  induction text generalizing number line with
  | nil => cases found
  | cons head tail further =>
      rw [List.cons_append]
      unfold splitInclusive at found ⊢
      split at found
      · next ends =>
          rw [if_pos ends]
          cases number with
          | zero => exact .inl found
          | succ number => exact further number line found
      · next inside =>
          rw [if_neg inside]
          cases split : splitInclusive tail with
          | nil =>
              have blank := flatten_splitInclusive tail
              rw [split] at blank found
              obtain rfl : tail = [] := blank.symm
              cases number with
              | zero =>
                  cases found
                  refine .inr ⟨rfl, ?_⟩
                  simpa using inside
              | succ number => cases found
          | cons first rest =>
              rw [split] at found further
              cases longer : splitInclusive (tail ++ ['\n']) with
              | nil =>
                  have whole := flatten_splitInclusive (tail ++ ['\n'])
                  rw [longer] at whole
                  exact absurd whole.symm (by simp)
              | cons next others =>
                  rw [longer] at further
                  cases number with
                  | zero =>
                      cases found
                      refine (further 0 first rfl).imp (fun same => ?_) fun ended => ⟨?_, ?_⟩
                      · cases same
                        rfl
                      · cases ended.1
                        rfl
                      · have unended := ended.2
                        rw [List.getLast?_cons]
                        cases last : first.getLast? with
                        | none => simpa using inside
                        | some final => simpa [last] using unended
                  | succ number => exact further (number + 1) line found

end Storyhook.Library.Lines
