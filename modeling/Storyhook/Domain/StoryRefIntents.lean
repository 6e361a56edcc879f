import Storyhook.Domain.StoryRefGrammar

/-! What the scan makes of the words before a run of ids. -/

namespace Storyhook.Domain.StoryRefs

open Library Library.Text Library.Utf8 Library.AsciiScan CommentSnippet

/-- The end of a text as the scan reads it: every part is as long as it can be. -/
structure Reads (front earlier word mark blanks hash : Text) : Prop
    extends EndsIn front earlier word mark blanks hash where
  unhashed : hash = [] → (earlier ++ word ++ mark ++ blanks).getLast?.any (· = '#') = false
  unblank : (earlier ++ word ++ mark).getLast?.any isBlankChar = false
  unmarked : mark = [] → (earlier ++ word).getLast?.any (· = ':') = false

theorem strip_one (text : Text) (last : Char) : ∃ body tail, text = body ++ tail ∧
    (tail = [] ∧ body.getLast?.any (· = last) = false ∨ tail = [last]) := by
  by_cases ends : text.getLast? = some last
  · obtain ⟨body, rfl⟩ := List.getLast?_eq_some_iff.mp ends
    exact ⟨body, [last], rfl, .inr rfl⟩
  · refine ⟨text, [], (List.append_nil text).symm, .inl ⟨rfl, ?_⟩⟩
    cases found : text.getLast? with
    | none => rfl
    | some other => simpa [found] using ends

theorem strip_while (text : Text) (kind : Char → Bool) : ∃ body tail, text = body ++ tail ∧
    (∀ c ∈ tail, kind c = true) ∧ body.getLast?.any kind = false := by
  refine ⟨text.rdropWhile kind, text.rtakeWhile kind, List.rdropWhile_append_rtakeWhile.symm,
    fun c member => List.mem_rtakeWhile_imp member, ?_⟩
  rcases List.eq_nil_or_concat' (text.rdropWhile kind) with none | ⟨init, last, split⟩
  · rw [none]
    rfl
  · have stop := List.rdropWhile_last_not kind text (by simp [split])
    simp only [split, List.getLast_concat] at stop
    simpa [split] using stop

theorem strip_one_unique (body tail stem mark : Text) (last : Char)
    (same : body ++ tail = stem ++ mark)
    (one : tail = [] ∧ body.getLast?.any (· = last) = false ∨ tail = [last])
    (other : mark = [] ∧ stem.getLast?.any (· = last) = false ∨ mark = [last]) :
    body = stem ∧ tail = mark := by
  rcases one with ⟨rfl, unended⟩ | rfl
  · rcases other with ⟨rfl, -⟩ | rfl
    · exact ⟨by simpa using same, rfl⟩
    · rw [List.append_nil] at same
      rw [same, List.getLast?_concat] at unended
      simp at unended
  · rcases other with ⟨rfl, unended⟩ | rfl
    · rw [List.append_nil] at same
      rw [← same, List.getLast?_concat] at unended
      simp at unended
    · exact ⟨(List.append_inj' same rfl).1, rfl⟩

theorem strip_while_unique (body tail stem rest : Text) (kind : Char → Bool)
    (same : body ++ tail = stem ++ rest) (inside : ∀ c ∈ tail, kind c = true)
    (stop : body.getLast?.any kind = false) (within : ∀ c ∈ rest, kind c = true)
    (ends : stem.getLast?.any kind = false) : body = stem ∧ tail = rest := by
  have bodies : body = stem := by
    rw [← rdropWhile_exact body tail inside stop, same, rdropWhile_exact stem rest within ends]
  subst bodies
  exact ⟨rfl, List.append_cancel_left same⟩

theorem reads_exist (front : Text) :
    ∃ earlier word mark blanks hash, Reads front earlier word mark blanks hash := by
  obtain ⟨unhashed, hash, rfl, hashed⟩ := strip_one front '#'
  obtain ⟨body, blanks, rfl, blank, unblank⟩ := strip_while unhashed isBlankChar
  obtain ⟨stem, mark, rfl, marked⟩ := strip_one body ':'
  obtain ⟨earlier, word, rfl, alphanumeric, begins⟩ := strip_while stem Char.isAlphanum
  refine ⟨earlier, word, mark, blanks, hash, ⟨rfl, alphanumeric, begins, marked.imp_left
    (·.1), blank,
    hashed.imp_left (·.1)⟩, ?_, unblank, ?_⟩
  · rintro rfl
    exact (hashed.resolve_right nofun).2
  · rintro rfl
    exact (marked.resolve_right nofun).2

theorem Reads.unique (front earlier word mark blanks hash before token sign spaces pound : Text)
    (one : Reads front earlier word mark blanks hash)
    (other : Reads front before token sign spaces pound) :
    earlier = before ∧ word = token ∧ mark = sign ∧ blanks = spaces ∧ hash = pound := by
  have hashed := strip_one_unique _ hash _ pound '#' (one.split.symm.trans other.split)
    (one.hashed.imp_left fun none => ⟨none, one.unhashed none⟩)
    (other.hashed.imp_left fun none => ⟨none, other.unhashed none⟩)
  have blank := strip_while_unique _ blanks _ spaces isBlankChar hashed.1 one.blank one.unblank other.blank
    other.unblank
  have marked := strip_one_unique _ mark _ sign ':' blank.1
    (one.marked.imp_left fun none => ⟨none, one.unmarked none⟩)
    (other.marked.imp_left fun none => ⟨none, other.unmarked none⟩)
  have worded := strip_while_unique earlier word before token Char.isAlphanum marked.1 one.alphanumeric
    one.begins other.alphanumeric other.begins
  exact ⟨worded.1, worded.2, marked.2, blank.2, hashed.2⟩

theorem size_eq_zero (text : Text) : size text = 0 ↔ text = [] := by
  cases text with
  | nil => simp [size, bytes]
  | cons first rest =>
      have positive := first.utf8Size_pos
      rw [size_cons]
      simp
      omega

theorem precedingWord_reads (front back earlier word mark blanks hash : Text)
    (reads : Reads front earlier word mark blanks hash) :
    precedingWord (front ++ back) (size front) = some (if blanks = [] ∨ word = [] then none
      else some (word, size earlier, if mark = [] then .whitespace else .colon)) := by
  obtain ⟨⟨split, alphanumeric, begins, marked, blank, hashed⟩, unhashed, unblank,
    unmarked⟩ := reads
  have line : front ++ back = earlier ++ word ++ mark ++ blanks ++ (hash ++ back) := by
    rw [split, List.append_assoc]
  have hashEnd : (if precededBy isHash (bytes (front ++ back)) (size front) then size front - 1
      else size front) = size (earlier ++ word ++ mark ++ blanks) := by
    rw [precededBy_eq hash_agrees, split]
    rcases hashed with rfl | rfl
    · rw [List.append_nil, unhashed rfl]
      rfl
    · rw [List.getLast?_concat, size_append]
      rfl
  have blankStart : skipBack isBlank (bytes (front ++ back))
    (size (earlier ++ word ++ mark ++ blanks)) =
      size (earlier ++ word ++ mark) :=
    skipBack_exact blank_agrees _ _ blanks _ line blank unblank
  have colon : precededBy isColon (bytes (front ++ back)) (size (earlier ++ word ++ mark)) =
      decide (mark ≠ []) := by
    rw [line, List.append_assoc (earlier ++ word ++ mark), precededBy_eq colon_agrees]
    rcases marked with rfl | rfl
    · rw [List.append_nil, unmarked rfl]
      rfl
    · rw [List.getLast?_concat]
      rfl
  have wordEnd : (if precededBy isColon (bytes (front ++ back))
    (size (earlier ++ word ++ mark)) then
      size (earlier ++ word ++ mark) - 1 else size (earlier ++ word ++ mark)) =
        size (earlier ++ word) := by
    rw [colon]
    rcases marked with rfl | rfl
    · rw [List.append_nil]
      rfl
    · rw [size_append (earlier ++ word)]
      rfl
  have wordStart : skipBack isAsciiAlphanumeric (bytes (front ++ back)) (size (earlier ++ word)) =
      size earlier :=
    skipBack_exact alphanumeric_agrees _ earlier word (mark ++ blanks ++ (hash ++ back))
      (by rw [line]; simp) alphanumeric begins
  have cut : slice (front ++ back) (size earlier) (size (earlier ++ word)) = some word :=
    (slice_eq_some _ _ _ _).mpr ⟨earlier, mark ++ blanks ++ (hash ++ back),
      by rw [line]; simp, rfl, rfl⟩
  unfold precedingWord
  simp only [hashEnd, blankStart, wordEnd, wordStart, cut]
  have same : size (earlier ++ word ++ mark) = size (earlier ++ word ++ mark ++ blanks) ↔
      blanks = [] := by
    rw [size_append (earlier ++ word ++ mark), ← size_eq_zero]
    omega
  have filled : size earlier < size (earlier ++ word) ↔ word ≠ [] := by
    rw [size_append, ne_eq, ← size_eq_zero]
    omega
  simp only [same, filled, colon]
  by_cases bare : blanks = []
  · simp [bare]
  · by_cases wordless : word = []
    · simp [bare, wordless]
    · rcases marked with rfl | rfl
      · simp [bare, wordless]
      · simp [bare, wordless]

theorem last_not (body tail : Text) (kind : Char → Bool) (filled : tail ≠ [])
    (outside : ∀ c ∈ tail, kind c = false) : (body ++ tail).getLast?.any kind = false := by
  obtain ⟨init, last, rfl⟩ := (List.eq_nil_or_concat' tail).resolve_left filled
  rw [← List.append_assoc, List.getLast?_concat, Option.any_some]
  exact outside last (by simp)

theorem isBlankChar_iff (character : Char) :
    isBlankChar character = true ↔ character = ' ' ∨ character = '\t' := by
  simp [isBlankChar]

theorem alphanumeric_solid (character : Char) (alphanumeric : character.isAlphanum = true) :
    isBlankChar character = false ∧ character ≠ ':' ∧ character ≠ '#' ∧ character ≠ '-' ∧
      character ≠ '&' ∧ character ≠ ',' := by
  rw [isAlphanum_iff] at alphanumeric
  have apart (other : Char) (outside : ¬(48 ≤ other.toNat ∧ other.toNat ≤ 57 ∨ 65 ≤ other.toNat ∧
      other.toNat ≤ 90 ∨ 97 ≤ other.toNat ∧ other.toNat ≤ 122)) : character ≠ other :=
    fun same => outside (same ▸ alphanumeric)
  refine ⟨?_, apart ':' (by decide), apart '#' (by decide), apart '-' (by decide),
    apart '&' (by decide), apart ',' (by decide)⟩
  rw [← Bool.not_eq_true, isBlankChar_iff]
  rintro (rfl | rfl)
  · exact apart ' ' (by decide) rfl
  · exact apart '\t' (by decide) rfl

theorem EndsIn.reads (front earlier word mark blanks hash : Text)
    (ends : EndsIn front earlier word mark blanks hash) (worded : word ≠ [])
    (spaced : blanks ≠ []) :
    Reads front earlier word mark blanks hash := by
  refine ⟨ends, fun _ => ?_, ?_, ?_⟩
  · refine last_not _ blanks _ spaced fun c member => ?_
    rcases (isBlankChar_iff c).mp (ends.blank c member) with rfl | rfl
    · rfl
    · rfl
  · rcases ends.marked with rfl | rfl
    · rw [List.append_nil]
      exact last_not _ word _ worded fun c member => (alphanumeric_solid c
        (ends.alphanumeric c member)).1
    · exact last_not _ [':'] _ (List.cons_ne_nil _ _) fun c member =>
        List.mem_singleton.mp member ▸ rfl
  · intro _
    exact last_not _ word _ worded fun c member =>
      decide_eq_false (alphanumeric_solid c (ends.alphanumeric c member)).2.1

theorem wordBefore_cancels (line earlier back : Text) (split : line = earlier ++ back) :
    ∃ word, wordBefore line (size earlier) = some word ∧ (negates word = true ↔
      Cancels earlier) := by
  obtain ⟨body, blanks, rfl, blank, unblank⟩ := strip_while earlier isBlankChar
  obtain ⟨front, word, rfl, letters, begins⟩ := strip_while body isWordChar
  have stop : skipBack isBlank (bytes line) (size (front ++ word ++ blanks)) = size
    (front ++ word) :=
    skipBack_exact blank_agrees line _ blanks back split blank unblank
  have start : skipBack isWordByte (bytes line) (size (front ++ word)) = size front :=
    skipBack_exact word_agrees line front word (blanks ++ back) (by rw [split]; simp) letters begins
  refine ⟨word, ?_, ?_⟩
  · simp only [wordBefore, stop, start]
    exact (slice_eq_some _ _ _ _).mpr ⟨front, blanks ++ back, by rw [split]; simp, rfl, rfl⟩
  · constructor
    · intro negative
      refine ⟨front, word, blanks, rfl, blank, ?_, letters, begins, negative⟩
      rintro rfl
      exact absurd negative (by decide)
    · rintro ⟨before, token, spaces, same, spaced, filled, inside, ends, negative⟩
      have solid (c : Char) (member : c ∈ token) : isBlankChar c = false := by
        have told := inside c member
        rw [isWordChar, Bool.or_eq_true, decide_eq_true_eq] at told
        rcases told with alphanumeric | rfl
        · exact (alphanumeric_solid c alphanumeric).1
        · rfl
      have bodies := strip_while_unique _ blanks _ spaces isBlankChar same blank unblank spaced
        (last_not _ token _ filled solid)
      rw [(strip_while_unique front word before token isWordChar bodies.1 letters begins inside ends).2]
      exact negative

theorem claimWord_filled (word : Text) (claims : claimWord word = true) : word ≠ [] := by
  rintro rfl
  exact absurd claims (by decide)

theorem intentForRun_heralded (front run rest : Text) :
    ∃ intent, intentForRun (front ++ run ++ rest) (size front) (size (front ++ run)) = some intent ∧
      (intent = .claim ↔ Heralded (front ++ run ++ rest) (size front) (size (front ++ run))) := by
  obtain ⟨earlier, word, mark, blanks, hash, reads⟩ := reads_exist front
  have heralded : Heralded (front ++ run ++ rest) (size front) (size (front ++ run)) ↔
      blanks ≠ [] ∧ claimWord word = true ∧ ¬Cancels earlier ∧
        (mark = [':'] → trim rest = [] ∨ trim rest = ['.'] ∨ trim rest = [';']) := by
    constructor
    · rintro ⟨before, ids, after, prior, token, sign, spaces, pound, split, starts, stops,
        ends, spaced,
        claims, uncancelled, whole⟩
      have fronts := (splitAt_eq_some (front ++ run ++ rest) (size front) before (ids ++ after)).mpr
        ⟨by rw [split, List.append_assoc], starts⟩
      rw [(splitAt_eq_some _ _ front (run ++ rest)).mpr ⟨List.append_assoc .., rfl⟩] at fronts
      obtain ⟨rfl, same⟩ := Prod.mk.inj (Option.some.inj fronts)
      have tails := (splitAt_eq_some (front ++ run ++ rest) (size (front ++ run))
        (front ++ ids) after).mpr
        ⟨split, stops⟩
      rw [(splitAt_eq_some _ _ (front ++ run) rest).mpr ⟨rfl, rfl⟩] at tails
      obtain rfl := (Prod.mk.inj (Option.some.inj tails)).2
      obtain ⟨rfl, rfl, rfl, rfl, rfl⟩ := Reads.unique front _ _ _ _ _ _ _ _ _ _ reads
        (ends.reads _ _ _ _ _ _ (claimWord_filled token claims) spaced)
      exact ⟨spaced, claims, uncancelled, whole⟩
    · rintro ⟨spaced, claims, uncancelled, whole⟩
      exact ⟨front, run, rest, earlier, word, mark, blanks, hash, rfl, rfl, rfl,
        reads.toEndsIn, spaced,
        claims, uncancelled, whole⟩
  rw [heralded, intentForRun, List.append_assoc, precedingWord_reads front _ _ _ _ _ _ reads,
    Option.bind_eq_bind, Option.bind_some]
  by_cases bare : blanks = [] ∨ word = []
  · rw [if_pos bare]
    refine ⟨.mention, rfl, iff_of_false nofun ?_⟩
    rintro ⟨spaced, claims, -⟩
    exact bare.elim spaced (claimWord_filled word claims)
  · rw [if_neg bare]
    dsimp only
    obtain ⟨previous, before, negative⟩ := wordBefore_cancels (front ++ (run ++ rest)) earlier
      (word ++ mark ++ blanks ++ hash ++ (run ++ rest)) (by rw [reads.split]; simp)
    have after : splitAt (front ++ (run ++ rest)) (size (front ++ run)) =
      some (front ++ run, rest) :=
      (splitAt_eq_some _ _ _ _).mpr ⟨(List.append_assoc ..).symm, rfl⟩
    have filled : blanks ≠ [] := fun none => bare (Or.inl none)
    rw [before, after, Option.bind_eq_bind, Option.bind_some]
    by_cases claims : claimWord word = true
    · by_cases cancelled : negates previous = true
      · refine ⟨.mention, by simp [claims, cancelled], iff_of_false nofun ?_⟩
        exact fun held => held.2.2.1 (negative.mp cancelled)
      · have uncancelled : ¬Cancels earlier := fun cancels => cancelled (negative.mpr cancels)
        rcases reads.marked with rfl | rfl
        · refine ⟨.claim, by simp [claims, cancelled], iff_of_true rfl ?_⟩
          exact ⟨filled, claims, uncancelled, fun none => nomatch none⟩
        · by_cases whole : trim rest = [] ∨ trim rest = ['.'] ∨ trim rest = [';']
          · refine ⟨.claim, by simp [claims, cancelled, whole], iff_of_true rfl ?_⟩
            exact ⟨filled, claims, uncancelled, fun _ => whole⟩
          · refine ⟨.mention, by simp [claims, cancelled, whole], iff_of_false nofun ?_⟩
            exact fun held => whole (held.2.2.2 rfl)
    · exact ⟨.mention, by simp [claims], iff_of_false nofun fun held => claims held.2.1⟩

end Storyhook.Domain.StoryRefs
