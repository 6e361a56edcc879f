import Storyhook.Domain.StoryRefClaims

/-! The lines of a message that more lines are added to. -/

namespace Storyhook.Domain.StoryRefs

open Library Library.Text Library.Utf8 Library.AsciiScan CommentSnippet
open ConflictSmoothing (lines withoutEnding)

section Return

def Returned (line longer : Text) : Prop := longer = line ∨ longer = line ++ ['\r']

variable (joins : Text → Prop) (idPrefix line : Text)

theorem idAt_return (place : Nat × Nat) (id : Text) :
    IdAt idPrefix (line ++ ['\r']) place id ↔ IdAt idPrefix line place id := by
  constructor
  · rintro ⟨front, digits, back, names, same, begins, ends⟩
    obtain ⟨init, digit, rfl⟩ := (List.eq_nil_or_concat' digits).resolve_left names.some
    have numeric : digit.isDigit = true := names.numeric digit (by simp)
    have split := names.split
    rcases List.eq_nil_or_concat' back with rfl | ⟨rest, last, rfl⟩
    · have whole : front ++ (idPrefix ++ '-' :: (init ++ [digit])) ++ [] =
          (front ++ idPrefix ++ '-' :: init) ++ [digit] := by simp
      rw [whole] at split
      rw [← List.head_eq_of_cons_eq (List.append_inj' split rfl).2] at numeric
      exact absurd numeric (by decide)
    · rw [← List.append_assoc] at split
      refine ⟨front, _, rest, ⟨(List.append_inj' split rfl).1, names.some, names.numeric,
        names.starts,
        names.stops⟩, same, begins, ?_⟩
      cases rest with
      | nil => rfl
      | cons first others => exact ends
  · rintro ⟨front, digits, back, names, same, begins, ends⟩
    refine ⟨front, digits, back ++ ['\r'], ⟨?_, names.some, names.numeric, names.starts,
      names.stops⟩,
      same, begins, ?_⟩
    · rw [names.split, List.append_assoc, List.append_assoc, List.append_assoc]
    · cases back with
      | nil => rfl
      | cons first others => exact ends

theorem slice_return (start stop : Nat) (within : stop ≤ size line) (middle : Text) :
    slice (line ++ ['\r']) start stop = some middle ↔ slice line start stop = some middle := by
  rw [slice_eq_some, slice_eq_some]
  constructor
  · rintro ⟨front, back, split, starts, stops⟩
    obtain ⟨rest, shorter⟩ := split_order (front ++ middle) back line ['\r'] split.symm
      (by rw [stops]; exact within)
    exact ⟨front, rest, shorter, starts, stops⟩
  · rintro ⟨front, back, split, starts, stops⟩
    exact ⟨front, back ++ ['\r'], by rw [split, List.append_assoc], starts, stops⟩

theorem idAt_within (place : Nat × Nat) (id : Text) (named : IdAt idPrefix line place id) :
    place.1 ≤ size line ∧ place.2 ≤ size line := by
  have ordered := slice_ordered line _ _ id named.slice
  obtain ⟨front, back, split, -, stops⟩ := (slice_eq_some _ _ _ _).mp named.slice
  have within : place.2 ≤ size line := by
    rw [split, size_append, ← stops]
    exact Nat.le_add_right _ _
  exact ⟨ordered.trans within, within⟩

theorem links_return : Links joins idPrefix (line ++ ['\r']) = Links joins idPrefix line := by
  funext one next
  refine propext ?_
  unfold Links
  simp only [idAt_return]
  refine and_congr_right fun _ => and_congr_right fun ⟨id, named⟩ => ?_
  simp only [slice_return line one.2 next.1 (idAt_within idPrefix line next id named).1]

theorem trim_return (text : Text) : trim (text ++ ['\r']) = trim text := by
  by_cases blank : ∀ c ∈ text, isWhitespace c = true
  · have gone : text.dropWhile isWhitespace = [] := List.dropWhile_eq_nil_iff.mpr blank
    have longer : (text ++ ['\r']).dropWhile isWhitespace = [] := by
      refine List.dropWhile_eq_nil_iff.mpr fun c member => ?_
      rcases List.mem_append.mp member with inside | last
      · exact blank c inside
      · rw [List.mem_singleton.mp last]
        rfl
    rw [trim, trim, gone, longer]
  · have kept : (text ++ ['\r']).dropWhile isWhitespace =
      text.dropWhile isWhitespace ++ ['\r'] := by
      rw [List.dropWhile_append, if_neg]
      rw [List.isEmpty_iff, List.dropWhile_eq_nil_iff]
      exact blank
    rw [trim, trim, kept, List.reverse_append, List.reverse_singleton, List.singleton_append,
      List.dropWhile_cons_of_pos (by decide)]

theorem heralded_return (start stop : Nat) (within : stop ≤ size line)
    (heralded : Heralded (line ++ ['\r']) start stop) : Heralded line start stop := by
  obtain ⟨front, run, rest, earlier, word, mark, blanks, hash, split, starts, stops, ends,
    spaced, claims,
    uncancelled, whole⟩ := heralded
  obtain ⟨back, shorter⟩ := split_order (front ++ run) rest line ['\r'] split.symm
    (by rw [stops]; exact within)
  obtain rfl : rest = back ++ ['\r'] := by
    rw [shorter, List.append_assoc] at split
    exact (List.append_cancel_left split).symm
  exact ⟨front, run, back, earlier, word, mark, blanks, hash, shorter, starts, stops, ends,
    spaced, claims,
    uncancelled, trim_return back ▸ whole⟩

theorem claimsAt_return (place : Nat × Nat) (id : Text) (named : IdAt idPrefix line place id)
    (claims : ClaimsAt joins idPrefix (line ++ ['\r']) place) :
    ClaimsAt joins idPrefix line place := by
  obtain ⟨first, last, run, heralded⟩ := claims
  rw [links_return] at run
  refine ⟨first, last, run, heralded_return line _ _ ?_ heralded⟩
  rcases Relation.ReflTransGen.cases_tail run.before with rfl | ⟨_, _, links⟩
  · exact (idAt_within idPrefix line _ id named).2
  · obtain ⟨name, titled⟩ := links.2.1
    exact (idAt_within idPrefix line _ name titled).2

end Return

section Lines

variable (message longer : Text)

theorem withoutEnding_ended (line : Text) :
    withoutEnding (line ++ ['\n']) = stripSuffix ['\r'] line := by
  rw [withoutEnding, (isSuffixOf?_eq_some _ _ line).mpr rfl]

theorem withoutEnding_unended (line : Text) (unended : line.getLast? ≠ some '\n') :
    withoutEnding line = line := by
  unfold withoutEnding
  split
  · rfl
  · next body found =>
      rw [(isSuffixOf?_eq_some _ _ _).mp found, List.getLast?_concat] at unended
      exact absurd rfl unended

theorem lines_ended (number : Nat) (line : Text) (found : (lines message)[number]? = some line) :
    ∃ shorter, (lines (message ++ ['\n']))[number]? = some shorter ∧ Returned shorter line := by
  rw [lines, List.getElem?_map, Option.map_eq_some_iff] at found
  obtain ⟨raw, found, rfl⟩ := found
  rcases Lines.splitInclusive_ended message number raw found with same | ⟨ended, unended⟩
  · exact ⟨_, by rw [lines, List.getElem?_map, same]; rfl, .inl rfl⟩
  · refine ⟨stripSuffix ['\r'] raw, ?_, ?_⟩
    · rw [lines, List.getElem?_map, ended, Option.map_some, withoutEnding_ended]
    · rw [withoutEnding_unended raw unended, Returned, stripSuffix]
      cases cut : ['\r'].isSuffixOf? raw with
      | none => exact .inl rfl
      | some rest => exact .inr ((isSuffixOf?_eq_some _ _ _).mp cut)

theorem lines_lengthened (lengthens : Lengthens message longer) (number : Nat) (line : Text)
    (found : (lines message)[number]? = some line) :
    ∃ shorter, (lines longer)[number]? = some shorter ∧ Returned shorter line := by
  have before (front added : Text) (number : Nat) (line : Text)
      (found : (lines (front ++ ['\n']))[number]? = some line) :
      (lines (front ++ '\n' :: added))[number]? = some line := by
    have long := (List.getElem?_eq_some_iff.mp found).1
    rw [lines, Lines.splitInclusive_newline, List.map_append, List.getElem?_append_left]
    · exact found
    · exact long
  obtain ⟨added, rfl | ⟨ended, rfl⟩⟩ := lengthens
  · obtain ⟨shorter, there, returned⟩ := lines_ended message number line found
    exact ⟨shorter, before message added number shorter there, returned⟩
  · obtain ⟨front, rfl⟩ := List.getLast?_eq_some_iff.mp ended
    refine ⟨line, ?_, .inl rfl⟩
    rw [List.append_assoc]
    exact before front added number line found

theorem revert_lengthened (lengthens : Lengthens message longer)
    (reverts : revertSubjectPrefix <+: longer) : revertSubjectPrefix <+: message := by
  have flat : '\n' ∉ revertSubjectPrefix := by decide
  have before (front added : Text) (starts : revertSubjectPrefix <+: front ++ '\n' :: added) :
      revertSubjectPrefix <+: front := by
    have whole : front ++ ['\n'] <+: front ++ '\n' :: added := ⟨added, by simp⟩
    rcases List.prefix_or_prefix_of_prefix starts whole with shorter | within
    · rcases List.prefix_concat_iff.mp shorter with same | shorter
      · exact absurd (same ▸ List.mem_append_right _ (List.mem_singleton_self _)) flat
      · exact shorter
    · exact absurd (within.subset (List.mem_append_right _ (List.mem_singleton_self _))) flat
  obtain ⟨added, rfl | ⟨ended, rfl⟩⟩ := lengthens
  · exact before message added reverts
  · obtain ⟨front, rfl⟩ := List.getLast?_eq_some_iff.mp ended
    rw [List.append_assoc] at reverts
    exact (before front added reverts).trans (List.prefix_append _ _)

end Lines

end Storyhook.Domain.StoryRefs
