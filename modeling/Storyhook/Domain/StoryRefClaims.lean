import Storyhook.Domain.StoryRefRuns

/-! The runs that a claim word stands before, by the grammar and for the scan. -/

namespace Storyhook.Domain.StoryRefs

open Library Library.Text Library.Utf8 Library.AsciiScan CommentSnippet

theorem claimWord_apart (word : Text) (claims : claimWord word = true) :
    (∀ c ∈ word, c.isDigit = false) ∧ ¬toAsciiLowercase word <:+ "and".toList := by
  obtain ⟨entry, found, -⟩ := (Option.any_eq_true _ _).mp claims
  have member := List.mem_of_find?_eq_some found
  have spelled : entry.1.toList = toAsciiLowercase word := by simpa using List.find?_some found
  have table : refWords.all (fun entry => !entry.1.toList.any Char.isDigit &&
      !entry.1.toList.isSuffixOf "and".toList) = true := by decide
  have row := List.all_eq_true.mp table entry member
  rw [spelled, Bool.and_eq_true, Bool.not_eq_true', Bool.not_eq_true', List.any_eq_false] at row
  constructor
  · intro c inside
    by_contra digit
    have numeric : c.isDigit = true := by simpa using digit
    obtain ⟨above, below⟩ := Char.isDigit_iff_toNat.mp numeric
    have bounds : 48 ≤ c.toNat ∧ c.toNat ≤ 57 := ⟨above, below⟩
    have kept : c.toLower = c := (toLower_cases c).resolve_right (by omega)
    have lowered : c ∈ toAsciiLowercase word := kept ▸ List.mem_map_of_mem inside
    exact row.1 c lowered numeric
  · intro ends
    rw [List.isSuffixOf_iff_suffix.mpr ends] at row
    cases row.2

theorem tail_of_gap (stem gap body tail : Text) (kind : Char → Bool)
    (same : stem ++ gap = body ++ tail)
    (inside : ∀ c ∈ tail, kind c = true) (stop : stem.getLast?.any kind = false) :
    ∃ rest, gap = rest ++ tail ∧ stem ++ rest = body := by
  rcases List.append_eq_append_iff.mp same with ⟨rest, rfl, split⟩ | ⟨more, rfl, rfl⟩
  · exact ⟨rest, split, rfl⟩
  · rcases List.eq_nil_or_concat' more with rfl | ⟨init, last, rfl⟩
    · exact ⟨[], rfl, by simp⟩
    · rw [← List.append_assoc, List.getLast?_concat, Option.any_some, inside last (by simp)] at stop
      cases stop

theorem Heralded.unpreceded (idPrefix line : Text) (one next : Nat × Nat) (stop : Nat)
    (heralded : Heralded line next.1 stop) : ¬Links JoinsLoosely idPrefix line one next := by
  rintro ⟨⟨id, before, digits, back, names, -, -, -⟩, -, gap, cut, joined⟩
  obtain ⟨front, run, rest, earlier, word, mark, blanks, hash, split, starts, -, ends, -,
    claims, -, -⟩ :=
    heralded
  obtain ⟨stem, after, same, stops, reach⟩ := (slice_eq_some _ _ _ _).mp cut
  have stems : stem = before ++ (idPrefix ++ '-' :: digits) := by
    have here := (splitAt_eq_some line one.2 stem (gap ++ after)).mpr
      ⟨by rw [same, List.append_assoc], stops⟩
    rw [(splitAt_eq_some line one.2 _ back).mpr ⟨names.split, names.stops⟩] at here
    exact (Prod.mk.inj (Option.some.inj here)).1.symm
  have fronts : stem ++ gap = front := by
    have here := (splitAt_eq_some line next.1 (stem ++ gap) after).mpr ⟨same, reach⟩
    rw [(splitAt_eq_some line next.1 front (run ++ rest)).mpr
      ⟨by rw [split, List.append_assoc], starts⟩] at here
    exact (Prod.mk.inj (Option.some.inj here)).1.symm
  obtain ⟨init, digit, rfl⟩ := (List.eq_nil_or_concat' digits).resolve_left names.some
  have numeric : digit.isDigit = true := names.numeric digit (by simp)
  have last : stem.getLast? = some digit := by
    have whole : before ++ (idPrefix ++ '-' :: (init ++ [digit])) =
        (before ++ idPrefix ++ '-' :: init) ++ [digit] := by simp
    rw [stems, whole, List.getLast?_concat]
  have solid := alphanumeric_solid digit (by rw [Char.isAlphanum, numeric, Bool.or_true])
  rw [ends.split] at fronts
  have hashed (c : Char) (member : c ∈ hash) : decide (c = '#') = true := by
    rcases ends.hashed with rfl | rfl
    · cases member
    · exact decide_eq_true (List.mem_singleton.mp member)
  have marked (c : Char) (member : c ∈ mark) : decide (c = ':') = true := by
    rcases ends.marked with rfl | rfl
    · cases member
    · exact decide_eq_true (List.mem_singleton.mp member)
  obtain ⟨unhashed, rfl, unhash⟩ := tail_of_gap stem gap _ hash (· = '#') fronts hashed
    (by rw [last]; exact decide_eq_false solid.2.2.1)
  obtain ⟨unspaced, rfl, unspace⟩ :=
    tail_of_gap stem unhashed _ blanks isBlankChar unhash ends.blank
    (by rw [last]; exact solid.1)
  obtain ⟨between, rfl, unmark⟩ := tail_of_gap stem unspaced _ mark (· = ':') unspace marked
    (by rw [last]; exact decide_eq_false solid.2.1)
  have pound := joined.lacks _ '#' (by decide) (by decide)
  have sign := joined.lacks _ ':' (by decide) (by decide)
  obtain rfl : hash = [] := ends.hashed.resolve_right fun some => pound (by simp [some])
  obtain rfl : mark = [] := ends.marked.resolve_right fun some => sign (by simp [some])
  rw [List.append_nil, List.append_nil] at joined
  obtain ⟨rest, rfl, -⟩ := tail_of_gap stem between earlier word (fun c => !c.isDigit) unmark
    (fun c member => by rw [(claimWord_apart word claims).1 c member]; rfl)
    (by rw [last, Option.any_some, numeric]; rfl)
  have stripped : (rest ++ word ++ blanks).filter (fun c => !isFiller c) =
      rest.filter (fun c => !isFiller c) ++ word := by
    have gone : blanks.filter (fun c => !isFiller c) = [] := by
      refine List.filter_eq_nil_iff.mpr fun c member => ?_
      rcases (isBlankChar_iff c).mp (ends.blank c member) with rfl | rfl
      · decide
      · decide
    have kept : word.filter (fun c => !isFiller c) = word := by
      refine List.filter_eq_self.mpr fun c member => ?_
      rw [alphanumeric_unfilled c (ends.alphanumeric c member)]
      rfl
    rw [List.filter_append, List.filter_append, gone, List.append_nil, kept]
  rw [JoinsLoosely, joinsARun, stripped, Bool.or_eq_true, List.isEmpty_iff,
    decide_eq_true_eq] at joined
  rcases joined with none | spelled
  · exact claimWord_filled word claims (List.append_eq_nil_iff.mp none).2
  · refine (claimWord_apart word claims).2 ⟨toAsciiLowercase (rest.filter fun c => !isFiller c), ?_⟩
    rw [← spelled]
    exact List.map_append.symm

theorem loose_run (idPrefix line : Text) (project : ProjectPrefix idPrefix) (place : Nat × Nat)
    (id : Text) (named : IdAt idPrefix line place id) :
    ∃ first last, Grouping.InRun (Links JoinsLoosely idPrefix line) first last place := by
  obtain ⟨groups, -, flat, each⟩ := Grouping.group_whole _ _ _
    (joinedOn_decides idPrefix line project)
  have member := (mem_idsInLine idPrefix line project place).mpr ⟨id, named⟩
  rw [← flat] at member
  obtain ⟨run, inside, member⟩ := List.mem_flatten.mp member
  obtain ⟨first, last, whole⟩ := each run inside
  exact ⟨first, last, whole.inRun _ _ _ _ place member⟩

theorem loose_right_unique (idPrefix line : Text) (project : ProjectPrefix idPrefix) :
    Relator.RightUnique (Links JoinsLoosely idPrefix line) := by
  have decides := joinedOn_decides idPrefix line project
  intro one next other here there
  exact Grouping.Adjacent.right_unique _ decides.nodup (decides.near one next here)
    (decides.near one other there)

theorem loose_left_unique (idPrefix line : Text) (project : ProjectPrefix idPrefix) :
    Relator.LeftUnique (Links JoinsLoosely idPrefix line) := by
  have decides := joinedOn_decides idPrefix line project
  intro one next other here there
  exact Grouping.Adjacent.left_unique _ decides.nodup (decides.near one other here)
    (decides.near next other there)

theorem links_ordered (joins : Text → Prop) (idPrefix line : Text) (one other : Nat × Nat)
    (reached : Relation.ReflTransGen (Links joins idPrefix line) one other) : one.1 ≤ other.1 := by
  induction reached with
  | refl => exact le_rfl
  | tail _ links further =>
      obtain ⟨⟨id, named⟩, -, gap, cut, -⟩ := links
      have first := slice_ordered line _ _ id named.slice
      have second := slice_ordered line _ _ gap cut
      omega

theorem unfollowed (joins : Text → Prop) (idPrefix line front rest : Text) (last later : Nat × Nat)
    (split : line = front ++ rest) (stops : size front = last.2)
    (whole : trim rest = [] ∨ trim rest = ['.'] ∨ trim rest = [';']) :
    ¬Links joins idPrefix line last later := by
  rintro ⟨-, ⟨id, named⟩, gap, cut, -⟩
  have tail : slice line last.2 (size line) = some rest :=
    (slice_eq_some _ _ _ _).mpr ⟨front, [], by rw [split, List.append_nil], stops, by rw [split]⟩
  obtain ⟨before, after, same, -, reach⟩ := (slice_eq_some _ _ _ _).mp named.slice
  have within : later.2 ≤ size line := by
    rw [same, size_append, ← reach]
    exact Nat.le_add_right _ _
  have dash : '-' ∈ rest := (slice_within line _ _ _ _ rest id tail named.slice
    (slice_ordered line _ _ gap cut) within).subset named.dashed
  obtain ⟨lead, trail, shape, space⟩ := trim_split rest
  have white : ∀ c ∈ lead ++ trail, c ≠ '-' := by
    rintro c member rfl
    exact absurd (space '-' member) (by decide)
  rw [shape, List.mem_append, List.mem_append] at dash
  rcases dash with (early | inner) | late
  · exact white '-' (List.mem_append_left _ early) rfl
  · rcases whole with same | same | same
    · rw [same] at inner
      cases inner
    · rw [same] at inner
      exact absurd inner (by decide)
    · rw [same] at inner
      exact absurd inner (by decide)
  · exact white '-' (List.mem_append_right _ late) rfl

theorem ClaimsAt.loosely (idPrefix line : Text) (project : ProjectPrefix idPrefix)
    (place : Nat × Nat)
    (id : Text) (named : IdAt idPrefix line place id)
    (claims : ClaimsAt Joins idPrefix line place) :
    ClaimsAt JoinsLoosely idPrefix line place := by
  obtain ⟨first, last, run, heralded⟩ := claims
  have looser : Links Joins idPrefix line ≤ Links JoinsLoosely idPrefix line :=
    fun one next ⟨here, there, gap, cut, joined⟩ => ⟨here, there, gap, cut, joined.loosely⟩
  have after := Relation.ReflTransGen.mono looser _ _ run.after
  have before := Relation.ReflTransGen.mono looser _ _ run.before
  have starts (earlier : Nat × Nat) : ¬Links JoinsLoosely idPrefix line earlier first :=
    heralded.unpreceded idPrefix line earlier first last.2
  obtain ⟨front, ids, rest, earlier, word, mark, blanks, hash, split, opens, closes, ends,
    spaced, claim,
    uncancelled, whole⟩ := heralded
  rcases ends.marked with rfl | rfl
  · obtain ⟨other, final, loose⟩ := loose_run idPrefix line project place id named
    obtain ⟨name, titled⟩ : ∃ name, IdAt idPrefix line final name := by
      rcases Relation.ReflTransGen.cases_tail loose.before with rfl | ⟨_, _, links⟩
      · exact ⟨id, named⟩
      · exact links.2.1
    obtain ⟨before, back, same, starting, reach⟩ := (slice_eq_some _ _ _ _).mp titled.slice
    have ahead := (links_ordered _ _ _ _ _ after).trans (links_ordered _ _ _ _ _ loose.before)
    obtain ⟨run, longer⟩ := split_order front (ids ++ rest) (before ++ name) back
      (by rw [← same, split, List.append_assoc])
      (by rw [opens, size_append, starting]; exact Nat.le_trans ahead (Nat.le_add_right _ _))
    exact ⟨first, final, ⟨after, loose.before, starts, loose.stops⟩, front, run, back,
      earlier, word, [],
      blanks, hash, by rw [same, longer], opens, by rw [← longer, reach], ends, spaced, claim,
      uncancelled, fun none => nomatch none⟩
  · refine ⟨first, last, ⟨after, before, starts, fun later => ?_⟩, front, ids, rest,
      earlier, word, [':'],
      blanks, hash, split, opens, closes, ends, spaced, claim, uncancelled, whole⟩
    exact unfollowed JoinsLoosely idPrefix line
      (front ++ ids) rest last later split closes (whole rfl)

end Storyhook.Domain.StoryRefs
