import Storyhook.Domain.StoryRefScan

/-! When the scan of a commit message follows the grammar of its references. -/

namespace Storyhook.Domain.StoryRefs

open Library Library.Text Library.Utf8 Library.AsciiScan CommentSnippet
open ConflictSmoothing (lines)

theorem validate_project (raw idPrefix : Text) (passed : validate raw = .ok idPrefix) :
    ProjectPrefix idPrefix := by
  unfold validate at passed
  split at passed
  · cases passed
  next first rest _ =>
  split at passed
  · cases passed
  next letter =>
  split at passed
  · cases passed
  split at passed
  · cases passed
  next clean =>
  cases passed
  refine ⟨first, rest, rfl, by simpa using letter, fun c member => ?_⟩
  simpa using List.find?_eq_none.mp clean c member

section Runs

variable (idPrefix line : Text)

theorem links_loosely : Links Joins idPrefix line ≤ Links JoinsLoosely idPrefix line :=
  fun _ _ ⟨here, there, gap, cut, joined⟩ => ⟨here, there, gap, cut, joined.loosely⟩

theorem unbroken_run (first place last : Nat × Nat)
    (run : Grouping.InRun (Links JoinsLoosely idPrefix line) first last place)
    (unbroken : ∀ one next, Relation.ReflTransGen (Links JoinsLoosely idPrefix line) first one →
      Links JoinsLoosely idPrefix line one next → Links Joins idPrefix line one next) :
    Grouping.InRun (Links Joins idPrefix line) first last place := by
  have onward (one other : Nat × Nat)
      (before : Relation.ReflTransGen (Links JoinsLoosely idPrefix line) first one)
      (reached : Relation.ReflTransGen (Links JoinsLoosely idPrefix line) one other) :
      Relation.ReflTransGen (Links Joins idPrefix line) one other := by
    induction reached with
    | refl => exact .refl
    | tail sooner links further => exact further.tail (unbroken _ _ (before.trans sooner) links)
  exact ⟨onward first place .refl run.after, onward place last run.after run.before,
    fun earlier links => run.starts earlier (links_loosely idPrefix line _ _ links),
    fun later links => run.stops later (links_loosely idPrefix line _ _ links)⟩

end Runs

section Message

variable (idPrefix message longer : Text)

theorem claimedBy_appears (joins : Text → Prop) (id : Text)
    (claimed : ClaimedBy joins idPrefix message id) : ∃ spot, Appears idPrefix message id spot := by
  obtain ⟨number, line, place, live, named, -⟩ := claimed
  exact ⟨(number, place.1), line, place.2, live.1, named⟩

theorem claimedBy_loosely (project : ProjectPrefix idPrefix) (id : Text) :
    ClaimedBy JoinsLoosely idPrefix message id ↔
      ClaimedBy Joins idPrefix message id ∨ ClaimedOverGap idPrefix message id := by
  constructor
  · rintro ⟨number, line, place, live, named, first, last, run, heralded⟩
    by_cases broken : ∃ one next gap,
        Relation.ReflTransGen (Links JoinsLoosely idPrefix line) first one ∧
        Links JoinsLoosely idPrefix line one next ∧ slice line one.2 next.1 = some gap ∧ ¬Joins gap
    · obtain ⟨one, next, gap, reached, links, cut, apart⟩ := broken
      exact .inr ⟨number, line, place, first, last, one, next, gap, live, named, run,
        heralded, reached,
        links, cut, apart⟩
    · refine .inl ⟨number, line, place, live, named, first, last, ?_, heralded⟩
      refine unbroken_run idPrefix line first place last run fun one next reached links => ?_
      have whole := links
      obtain ⟨here, there, gap, cut, -⟩ := whole
      refine ⟨here, there, gap, cut, ?_⟩
      by_contra apart
      exact broken ⟨one, next, gap, reached, links, cut, apart⟩
  · rintro (⟨number, line, place, live, named, claims⟩ | crossed)
    · exact ⟨number, line, place, live, named, claims.loosely idPrefix line project place id named⟩
    · obtain ⟨number, line, place, first, last, -, -, -, live, named, run, heralded, -⟩ := crossed
      exact ⟨number, line, place, live, named, first, last, run, heralded⟩

theorem appears_lengthened (lengthens : Lengthens message longer) (id : Text) (spot : Nat × Nat)
    (appears : Appears idPrefix message id spot) : Appears idPrefix longer id spot := by
  obtain ⟨line, stop, there, named⟩ := appears
  obtain ⟨shorter, found, rfl | rfl⟩ := lines_lengthened message longer lengthens _ line there
  · exact ⟨_, stop, found, named⟩
  · exact ⟨shorter, stop, found, (idAt_return idPrefix shorter _ id).mp named⟩

theorem claimedBy_lengthened (joins : Text → Prop)
    (lengthens : Lengthens message longer) (id : Text)
    (claimed : ClaimedBy joins idPrefix message id) : ClaimedBy joins idPrefix longer id := by
  obtain ⟨number, line, place, ⟨there, unreverted⟩, named, claims⟩ := claimed
  have alive : ¬(revertSubjectPrefix <+: longer ∧ number = 0) := fun reverts =>
    unreverted ⟨revert_lengthened message longer lengthens reverts.1, reverts.2⟩
  obtain ⟨shorter, found, rfl | rfl⟩ := lines_lengthened message longer lengthens _ line there
  · exact ⟨number, _, place, ⟨found, alive⟩, named, claims⟩
  · have title := (idAt_return idPrefix shorter place id).mp named
    exact ⟨number, shorter, place, ⟨found, alive⟩, title,
      claimsAt_return joins idPrefix shorter place id title claims⟩

theorem scan_lengthened (project : ProjectPrefix idPrefix) (lengthens : Lengthens message longer)
    (references : List StoryReference)
    (scanned : scanStoryRefs idPrefix message = some references) :
    ∃ more, scanStoryRefs idPrefix longer = some more ∧ ∀ reference ∈ references,
      ∃ later ∈ more, later.id = reference.id ∧ reference.intent ≤ later.intent := by
  obtain ⟨found, made, proper⟩ := scan_proper idPrefix project message
  cases scanned.symm.trans made
  obtain ⟨more, onward, further⟩ := scan_proper idPrefix project longer
  refine ⟨more, onward, fun reference member => ?_⟩
  obtain ⟨spot, appears⟩ := (proper.named _).mp (List.mem_map_of_mem member)
  obtain ⟨later, inside, same⟩ := List.mem_map.mp ((further.named reference.id).mpr
    ⟨spot, appears_lengthened idPrefix message longer lengthens _ spot appears⟩)
  refine ⟨later, inside, same, ?_⟩
  cases intent : reference.intent with
  | mention => exact Nat.zero_le _
  | claim =>
      have claimed := (proper.intents reference member).mp intent
      rw [(further.intents later inside).mpr
        (same ▸ claimedBy_lengthened idPrefix message longer _ lengthens _ claimed)]

/-- The scan follows the grammar just when every id it claims over a gap whose `and` is not one word
is claimed without that gap as well. -/
theorem follows_grammar_iff (project : ProjectPrefix idPrefix) : FollowsGrammar idPrefix message ↔
    ∀ id, ClaimedOverGap idPrefix message id → ClaimedBy Joins idPrefix message id := by
  obtain ⟨references, made, proper⟩ := scan_proper idPrefix project message
  constructor
  · rintro ⟨⟨found, scanned, exactly⟩, -⟩ id crossed
    cases made.symm.trans scanned
    have loose := (claimedBy_loosely idPrefix message project id).mpr (.inr crossed)
    obtain ⟨reference, member, rfl⟩ := List.mem_map.mp ((proper.named id).mpr
      (claimedBy_appears idPrefix message _ id loose))
    exact (exactly.intents reference member).mp ((proper.intents reference member).mpr loose)
  · intro covered
    refine ⟨⟨references, made, proper.once, proper.named, proper.ordered,
      fun reference member => ?_⟩,
      fun references scanned longer lengthens =>
        scan_lengthened idPrefix message longer project lengthens references scanned⟩
    rw [proper.intents reference member, claimedBy_loosely idPrefix message project]
    exact or_iff_left_of_imp (covered reference.id)

theorem follows_grammar_and : ProjectPrefix "SH".toList ∧
    FollowsGrammar "SH".toList "Closes SH-1 and SH-2".toList := by
  have project : ProjectPrefix "SH".toList := validate_project "sh".toList _ (by rfl)
  refine ⟨project, (follows_grammar_iff _ _ project).mpr ?_⟩
  rintro id ⟨number, line, -, -, -, one, next, gap, ⟨there, -⟩, -, -, -, -, links, cut, apart⟩
  have single : lines "Closes SH-1 and SH-2".toList = ["Closes SH-1 and SH-2".toList] := by decide
  have ids : idsInLine "SH".toList "Closes SH-1 and SH-2".toList = [(7, 11), (16, 20)] := by
    decide +kernel
  have between : slice "Closes SH-1 and SH-2".toList 11 16 = some " and ".toList := by decide +kernel
  rw [single] at there
  obtain rfl : "Closes SH-1 and SH-2".toList = line :=
    (List.mem_singleton.mp (List.mem_of_getElem? there)).symm
  have ordered := slice_ordered _ _ _ gap cut
  have first := (mem_idsInLine _ _ project one).mpr links.1
  have second := (mem_idsInLine _ _ project next).mpr links.2.1
  rw [ids, List.mem_pair] at first second
  rcases first with rfl | rfl
  · rcases second with rfl | rfl
    · exact absurd ordered (by decide)
    · cases between.symm.trans cut
      have filler : ([' '] ++ [' ']).all isFiller = true := by decide
      exact absurd ⟨[' '], "and".toList, [' '], rfl, List.all_eq_true.mp filler, .inr rfl⟩ apart
  · rcases second with rfl | rfl <;> exact absurd ordered (by decide)

end Message

theorem Joins.spelled (gap : Text) (joins : Joins gap) : gap.dropWhile isFiller = [] ∨
    toAsciiLowercase ((gap.dropWhile isFiller).take 3) = "and".toList := by
  obtain ⟨before, word, after, rfl, filler, blank | spelled⟩ := joins
  · subst blank
    refine .inl (List.dropWhile_eq_nil_iff.mpr fun c member => filler c ?_)
    simpa using member
  · right
    have long : word.length = 3 := by
      rw [← List.length_map (f := Char.toLower)]
      exact congrArg List.length spelled
    obtain ⟨first, rest, rfl⟩ := List.exists_cons_of_ne_nil
      (show word ≠ [] by rintro rfl; cases long)
    have solid : isFiller first = false :=
      and_solid first (spelled ▸ List.mem_map_of_mem List.mem_cons_self)
    rw [List.append_assoc, List.dropWhile_append_of_pos
      fun c member => filler c (List.mem_append_left _ member), List.cons_append,
      List.dropWhile_cons_of_neg (by simp [solid]), ← List.cons_append, List.take_left' long]
    exact spelled

/-- A mention is taken for a claim over letters that happen to spell `and`. -/
theorem grammar_unfollowed :
    ¬∀ idPrefix message, ProjectPrefix idPrefix → FollowsGrammar idPrefix message := by
  intro always
  have project : ProjectPrefix "SH".toList := validate_project "sh".toList _ (by rfl)
  obtain ⟨references, scanned, proper⟩ :=
    (always "SH".toList "Closes SH-1 a n d SH-2".toList project).scanned
  have made : scanStoryRefs "SH".toList "Closes SH-1 a n d SH-2".toList =
      some [⟨"SH-1".toList, .claim⟩, ⟨"SH-2".toList, .claim⟩] := by decide +kernel
  cases scanned.symm.trans made
  obtain ⟨number, line, place, ⟨there, -⟩, named, first, last, run, heralded⟩ :=
    (proper.intents ⟨"SH-2".toList, .claim⟩ (by simp)).mp rfl
  have single : lines "Closes SH-1 a n d SH-2".toList = ["Closes SH-1 a n d SH-2".toList] := by decide
  have ids : idsInLine "SH".toList "Closes SH-1 a n d SH-2".toList = [(7, 11), (18, 22)] := by
    decide +kernel
  have between : slice "Closes SH-1 a n d SH-2".toList 11 18 = some " a n d ".toList := by
    decide +kernel
  rw [single] at there
  obtain rfl : "Closes SH-1 a n d SH-2".toList = line :=
    (List.mem_singleton.mp (List.mem_of_getElem? there)).symm
  have unlinked (one next : Nat × Nat) :
      ¬Links Joins "SH".toList "Closes SH-1 a n d SH-2".toList one next := by
    rintro ⟨here, there, gap, cut, joined⟩
    have ordered := slice_ordered _ _ _ gap cut
    have first := (mem_idsInLine _ _ project one).mpr here
    have second := (mem_idsInLine _ _ project next).mpr there
    rw [ids, List.mem_pair] at first second
    rcases first with rfl | rfl
    · rcases second with rfl | rfl
      · exact absurd ordered (by decide)
      · cases between.symm.trans cut
        rcases joined.spelled with none | spelled
        · exact absurd none (by decide)
        · exact absurd spelled (by decide)
    · rcases second with rfl | rfl <;> exact absurd ordered (by decide)
  obtain rfl : first = place :=
    (Relation.ReflTransGen.cases_head run.after).resolve_right fun ⟨_, links, _⟩ =>
      unlinked _ _ links
  obtain rfl : first = last :=
    (Relation.ReflTransGen.cases_head run.before).resolve_right fun ⟨_, links, _⟩ =>
      unlinked _ _ links
  have inside := (mem_idsInLine _ _ project first).mpr ⟨_, named⟩
  rw [ids, List.mem_pair] at inside
  rcases inside with rfl | rfl
  · exact absurd named.slice (by decide +kernel)
  · obtain ⟨intent, told, claims⟩ := intentForRun_heralded "Closes SH-1 a n d ".toList "SH-2".toList []
    have mention : intentForRun "Closes SH-1 a n d SH-2".toList 18 22 = some .mention := by
      decide +kernel
    cases told.symm.trans mention
    exact nomatch claims.mpr heralded

end Storyhook.Domain.StoryRefs
