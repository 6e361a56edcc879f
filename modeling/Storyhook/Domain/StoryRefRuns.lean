import Storyhook.Domain.StoryRefPlaces

/-! The runs that the ids of a line make. -/

namespace Storyhook.Domain.StoryRefs

open Library Library.Text Library.Utf8 Library.AsciiScan CommentSnippet

section Gaps

theorem JoinsLoosely.lacks (gap : Text) (joins : JoinsLoosely gap) (character : Char)
    (solid : isFiller character = false) (foreign : character.toLower ∉ "and".toList) :
    character ∉ gap := by
  intro member
  have kept : character ∈ gap.filter fun character => !isFiller character :=
    List.mem_filter.mpr ⟨member, by rw [solid]; rfl⟩
  rw [JoinsLoosely, joinsARun, Bool.or_eq_true, List.isEmpty_iff, decide_eq_true_eq] at joins
  rcases joins with none | word
  · rw [none] at kept
    cases kept
  · exact foreign (word ▸ List.mem_map_of_mem kept)

theorem alphanumeric_unfilled (character : Char) (alphanumeric : character.isAlphanum = true) :
    isFiller character = false := by
  have solid := alphanumeric_solid character alphanumeric
  rw [isAlphanum_iff] at alphanumeric
  rw [isFiller, decide_eq_false solid.2.2.2.2.2, decide_eq_false solid.2.2.2.2.1, Bool.or_false,
    Bool.or_false, ← Bool.not_eq_true]
  simp only [isWhitespace, Bool.or_eq_true, Bool.and_eq_true, decide_eq_true_eq, beq_iff_eq]
  omega

theorem and_solid (character : Char) (letter : character.toLower ∈ "and".toList) :
    isFiller character = false := by
  refine alphanumeric_unfilled character ?_
  rcases toLower_cases character with same | ⟨above, below, -⟩
  · rw [same] at letter
    have letters : "and".toList.all Char.isAlphanum = true := by decide
    exact List.all_eq_true.mp letters character letter
  · rw [isAlphanum_iff]
    omega

theorem Joins.loosely (gap : Text) (joins : Joins gap) : JoinsLoosely gap := by
  obtain ⟨before, word, after, rfl, filler, spelled⟩ := joins
  have gone (text : Text) (inside : ∀ c ∈ text, isFiller c = true) :
      (text.filter fun character => !isFiller character) = [] := by
    rw [List.filter_eq_nil_iff]
    intro c member
    simp [inside c member]
  rw [JoinsLoosely, joinsARun, List.filter_append, List.filter_append,
    gone before fun c member => filler c (List.mem_append_left _ member),
    gone after fun c member => filler c (List.mem_append_right _ member), List.nil_append,
    List.append_nil]
  rcases spelled with rfl | spelled
  · rfl
  · have whole : (word.filter fun character => !isFiller character) = word := by
      refine List.filter_eq_self.mpr fun c member => ?_
      rw [and_solid c (spelled ▸ List.mem_map_of_mem member)]
      rfl
    simp only [whole, spelled, decide_true, Bool.or_true]

theorem JoinsLoosely.undashed (gap : Text) (joins : JoinsLoosely gap) : '-' ∉ gap :=
  joins.lacks gap '-' (by decide) (by decide)

end Gaps

section Links

variable (joins : Text → Prop) (idPrefix line : Text)

theorem IdAt.slice (place : Nat × Nat) (id : Text) (named : IdAt idPrefix line place id) :
    slice line place.1 place.2 = some id := by
  obtain ⟨front, digits, back, names, rfl, -⟩ := named
  exact (slice_eq_some _ _ _ _).mpr ⟨front, back, names.split, names.starts, names.stops⟩

theorem IdAt.dashed (place : Nat × Nat) (id : Text) (named : IdAt idPrefix line place id) :
    '-' ∈ id := by
  obtain ⟨front, digits, back, names, rfl, -⟩ := named
  simp

theorem IdAt.gap (one next : Nat × Nat) (id other : Text) (here : IdAt idPrefix line one id)
    (there : IdAt idPrefix line next other) (ordered : one.2 ≤ next.1) :
    ∃ gap, Utf8.slice line one.2 next.1 = some gap := by
  obtain ⟨front, back, split, -, stops⟩ := (slice_eq_some _ _ _ _).mp (here.slice)
  obtain ⟨before, after, same, starts, -⟩ := (slice_eq_some _ _ _ _).mp (there.slice)
  obtain ⟨-, gap, -, cut, -⟩ := slice_between line one.2 next.1
    ((isCharBoundary_iff line _).mpr ⟨front ++ id, back, split, stops⟩)
    ((isCharBoundary_iff line _).mpr ⟨before, other ++ after,
      by rw [same, List.append_assoc], starts⟩)
    ordered
  exact ⟨gap, cut⟩

theorem slice_ordered (start stop : Nat) (middle : Text)
    (cut : slice line start stop = some middle) :
    start ≤ stop := by
  obtain ⟨front, back, -, rfl, rfl⟩ := (slice_eq_some _ _ _ _).mp cut
  rw [size_append]
  exact Nat.le_add_right _ _

theorem slice_within (start stop inner outer : Nat) (middle part : Text)
    (cut : slice line start stop = some middle) (inside : slice line inner outer = some part)
    (starts : start ≤ inner) (stops : outer ≤ stop) : part <:+: middle := by
  obtain ⟨front, back, split, rfl, rfl⟩ := (slice_eq_some _ _ _ _).mp cut
  obtain ⟨before, after, same, rfl, rfl⟩ := (slice_eq_some _ _ _ _).mp inside
  obtain ⟨lead, rfl⟩ := split_order front (middle ++ back) before (part ++ after)
    (by rw [← List.append_assoc, ← split, same, List.append_assoc]) starts
  obtain ⟨trail, whole⟩ := split_order (front ++ lead ++ part) after (front ++ middle) back
    (by rw [← same, split]) stops
  rw [List.append_assoc, List.append_assoc] at whole
  exact ⟨lead, trail, by rw [List.append_assoc, List.append_cancel_left whole]⟩

theorem Links.adjacent (project : ProjectPrefix idPrefix) (undashed : ∀ gap, joins gap → '-' ∉ gap)
    (one next : Nat × Nat) (links : Links joins idPrefix line one next) :
    Grouping.Adjacent (idsInLine idPrefix line) one next := by
  obtain ⟨here, there, gap, cut, joined⟩ := links
  obtain ⟨sorted, proper⟩ := idsFrom_sorted (bytes idPrefix) (bytes line) (size line) 0
  have first := (mem_idsInLine idPrefix line project one).mpr here
  have second := (mem_idsInLine idPrefix line project next).mpr there
  have ordered := slice_ordered line one.2 next.1 gap cut
  have early := (proper one first).2
  have late := (proper next second).2
  obtain ⟨front, back, split⟩ := List.append_of_mem first
  rw [← idsInLine, split, List.pairwise_append, List.pairwise_cons] at sorted
  obtain ⟨-, ⟨after, sorted⟩, before⟩ := sorted
  rw [split, List.mem_append, List.mem_cons] at second
  rcases second with earlier | rfl | later
  · have overlap := before next earlier one List.mem_cons_self
    omega
  · omega
  · cases back with
    | nil => cases later
    | cons between rest =>
        rcases List.mem_cons.mp later with rfl | beyond
        · exact ⟨front, rest, split⟩
        · obtain ⟨id, named⟩ := (mem_idsInLine idPrefix line project between).mp
            (by rw [split]; simp)
          have within := slice_within line one.2 next.1 between.1 between.2 gap id cut named.slice
            (after between List.mem_cons_self) ((List.pairwise_cons.mp sorted).1 next beyond)
          exact absurd (within.subset (named.dashed)) (undashed gap joined)

theorem joinedOn_decides (project : ProjectPrefix idPrefix) :
    Grouping.Decides (joinedOn line) (Links JoinsLoosely idPrefix line)
      (idsInLine idPrefix line) := by
  obtain ⟨sorted, proper⟩ := idsFrom_sorted (bytes idPrefix) (bytes line) (size line) 0
  refine ⟨?_, Links.adjacent JoinsLoosely idPrefix line project JoinsLoosely.undashed, ?_⟩
  · refine sorted.imp_of_mem fun one _ ordered same => ?_
    have within := (proper _ one).2
    rw [← same] at ordered
    omega
  · rintro one next ⟨front, back, split⟩
    have here := (mem_idsInLine idPrefix line project one).mp (by rw [split]; simp)
    have there := (mem_idsInLine idPrefix line project next).mp (by rw [split]; simp)
    obtain ⟨id, named⟩ := here
    obtain ⟨other, named'⟩ := there
    rw [← idsInLine, split, List.pairwise_append, List.pairwise_cons] at sorted
    obtain ⟨gap, cut⟩ := named.gap idPrefix line one next id other named'
      (sorted.2.1.1 next List.mem_cons_self)
    refine ⟨joinsARun gap, by rw [joinedOn, cut]; rfl, fun joined => ?_, ?_⟩
    · exact ⟨⟨id, named⟩, ⟨other, named'⟩, gap, cut, joined⟩
    · rintro ⟨-, -, same, again, joined⟩
      rw [cut, Option.some.injEq] at again
      exact again ▸ joined

end Links

end Storyhook.Domain.StoryRefs
