import Storyhook.Library.Pattern
import Storyhook.Store.EventTable

namespace Storyhook.Store.LinkBackfill

open Storyhook.Domain
open Library Library.Text Library.Pattern
open EventTable (ProjectId gitLinkSha)

structure CommentRow where
  project : ProjectId
  storyNo : StoryNo
  text : String
  deriving DecidableEq, Repr

def notHex : List Piece :=
  [.run, .one fun character => !(('0' ≤ character && character ≤ '9') ||
    ('a' ≤ character && character ≤ 'f') || ('A' ≤ character && character ≤ 'F')), .run]

def backfillSha (text : String) : Option String :=
  if like "[git] %:%" text.toList ∧ 7 < instr text.toList ':' then
    let sha := substr text.toList 7 (instr text.toList ':' - 7)
    if accepts notHex sha then none else some (String.ofList sha)
  else none

/-- The rows of the link table after the backfill; a row that is there already stays single. -/
def backfill (comments : List CommentRow) : List (ProjectId × StoryNo × String) :=
  comments.foldl (fun links comment =>
    match backfillSha comment.text with
    | none => links
    | some sha =>
        if links.contains (comment.project, comment.storyNo, sha) then links
        else links ++ [(comment.project, comment.storyNo, sha)]) []

theorem mem_backfill (comments : List CommentRow) (project : ProjectId) (story : StoryNo)
    (sha : String) : (project, story, sha) ∈ backfill comments ↔
      ∃ comment ∈ comments, comment.project = project ∧ comment.storyNo = story ∧
        backfillSha comment.text = some sha := by
  induction comments using List.reverseRecOn with
  | nil => simp [backfill]
  | append_singleton comments last ih =>
      rw [backfill, List.foldl_append, List.foldl_cons, List.foldl_nil, ← backfill]
      have listed : (∃ comment ∈ comments ++ [last], comment.project = project ∧
          comment.storyNo = story ∧ backfillSha comment.text = some sha) ↔
          (project, story, sha) ∈ backfill comments ∨
            (last.project = project ∧ last.storyNo = story ∧ backfillSha last.text = some sha) := by
        rw [ih]
        simp only [List.mem_append, List.mem_singleton, or_and_right, exists_or, exists_eq_left]
      rw [listed]
      cases selected : backfillSha last.text with
      | none => simp
      | some found =>
          dsimp only
          split
          · next present =>
              rw [List.contains_iff_mem] at present
              constructor
              · exact Or.inl
              · rintro (there | ⟨rfl, rfl, same⟩)
                · exact there
                · cases same
                  exact present
          · simp [List.mem_append, eq_comm]

def hashBeforeColon (rest : List Char) : Option String :=
  (splitOnce ':' rest).bind fun parts =>
    if !parts.1.isEmpty && parts.1.all isAsciiHexdigit then some (String.ofList parts.1) else none

def opening : List Char := "[git] ".toList

theorem gitLinkSha_eq (text : String) :
    gitLinkSha text =
      if text.toList.take 6 = opening then hashBeforeColon (text.toList.drop 6) else none := by
  unfold gitLinkSha parseGitLinkComment
  split
  · next opens =>
      have stripped : "[git] ".toList.isPrefixOf? text.toList = some (text.toList.drop 6) := by
        refine (isPrefixOf?_eq_some _ _ _).mpr ?_
        rw [← List.take_append_drop 6 text.toList, opens]
        rfl
      rw [stripped]
      cases parts : splitOnce ':' (text.toList.drop 6) with
      | none => simp [hashBeforeColon, parts]
      | some pair =>
          simp only [hashBeforeColon, parts, Option.bind_eq_bind, Option.bind_some]
          split <;> rfl
  · next apart =>
      have absent : "[git] ".toList.isPrefixOf? text.toList = none := by
        rw [Option.eq_none_iff_forall_ne_some]
        intro rest found
        rw [(isPrefixOf?_eq_some _ _ _).mp found] at apart
        exact apart rfl
      rw [absent]
      rfl

theorem toLower_colon (character : Char) : character.toLower = ':' ↔ character = ':' := by
  constructor
  · intro lowered
    unfold Char.toLower at lowered
    split at lowered
    · next upper =>
        have value := congrArg (fun found => found.val.toNat) lowered
        have above : 65 ≤ character.val.toNat := UInt32.le_iff_toNat_le.mp upper.1
        have below : character.val.toNat ≤ 90 := UInt32.le_iff_toNat_le.mp upper.2
        have sum : (character.val + ('a'.val - 'A'.val)).toNat = character.val.toNat + 32 := by
          rw [UInt32.toNat_add]
          exact Nat.mod_eq_of_lt (by show character.val.toNat + 32 < _; omega)
        dsimp only at value
        rw [sum] at value
        have colon : (':' : Char).val.toNat = 58 := rfl
        omega
    · exact lowered
  · rintro rfl
    rfl

theorem like_opening (text : List Char) :
    like "[git] %:%" text ↔
      (text.take 6).map Char.toLower = opening ∧ ':' ∈ text.drop 6 := by
  have shape : "[git] %:%".toList.map likePiece =
      (opening.map fun letter (other : Char) => other.toLower == letter.toLower).map .one ++
        [.run, .one fun other => other.toLower == ':'.toLower, .run] := rfl
  rw [like, shape, accepts_tests]
  simp only [forall₂_likePiece, accepts_anywhere, beq_iff_eq]
  constructor
  · rintro ⟨start, rest, rfl, passed, found⟩
    have length : start.length = 6 := by
      simpa [opening] using congrArg List.length passed
    obtain ⟨character, member, colon⟩ := found
    rw [List.take_left' length, List.drop_left' length]
    exact ⟨passed, (toLower_colon character).mp colon ▸ member⟩
  · rintro ⟨opens, member⟩
    refine ⟨text.take 6, text.drop 6, (List.take_append_drop 6 text).symm, opens, ':', member, rfl⟩

theorem no_colon_opens (start : List Char) (opens : start.map Char.toLower = opening) :
    ':' ∉ start := by
  intro member
  have lowered : ':' ∈ start.map Char.toLower := List.mem_map_of_mem member
  rw [opens] at lowered
  exact absurd lowered (by decide)

theorem accepts_notHex (sha : List Char) : accepts notHex sha = !sha.all isAsciiHexdigit := by
  have test : notHex = [.run, .one fun character => !isAsciiHexdigit character, .run] := rfl
  rw [Bool.eq_iff_iff, test, accepts_anywhere]
  simp

theorem backfillSha_eq (text : String) :
    backfillSha text =
      if (text.toList.take 6).map Char.toLower = opening then
        hashBeforeColon (text.toList.drop 6)
      else none := by
  unfold backfillSha
  simp only [like_opening]
  by_cases opens : (text.toList.take 6).map Char.toLower = opening
  · rw [if_pos opens]
    cases parts : splitOnce ':' (text.toList.drop 6) with
    | none =>
        have absent := (splitOnce_eq_none ':' _).mp parts
        rw [if_neg fun selected => absent selected.1.2, hashBeforeColon, parts]
        rfl
    | some pair =>
        obtain ⟨sha, subject⟩ := pair
        obtain ⟨shape, clear⟩ := (splitOnce_eq_some ':' _ sha subject).mp parts
        have whole : text.toList = text.toList.take 6 ++ sha ++ ':' :: subject := by
          rw [List.append_assoc, ← shape, List.take_append_drop]
        have length : (text.toList.take 6).length = 6 := by
          simpa [opening] using congrArg List.length opens
        have position : instr text.toList ':' = sha.length + 7 := by
          rw [whole, instr_append]
          · rw [List.length_append, length]
            omega
          · rw [List.mem_append, not_or]
            exact ⟨no_colon_opens _ opens, clear⟩
        have selected : substr text.toList 7 (sha.length + 7 - 7) = sha := by
          rw [substr, Nat.add_sub_cancel, shape, List.take_left]
        have found : ':' ∈ text.toList.drop 6 :=
          shape ▸ List.mem_append_right sha List.mem_cons_self
        simp only [position, selected, accepts_notHex, hashBeforeColon, parts, Option.bind_some,
          opens, found, true_and]
        rcases sha with _ | ⟨first, rest⟩
        · rfl
        · cases hex : (first :: rest).all isAsciiHexdigit with
          | true => simp
          | false => simp
  · rw [if_neg opens, if_neg fun selected => opens selected.1.1]

/-- Whether a text opens with a link's marker, in some case of its letters. -/
def opensInAnyCase (text : String) : Prop := (text.toList.take 6).map Char.toLower = opening

/-- Hexadecimal digits, at least one, up to a colon. -/
def HashThenColon (rest : List Char) : Prop :=
  ∃ sha subject, rest = sha ++ ':' :: subject ∧ sha ≠ [] ∧ sha.all isAsciiHexdigit

theorem hashBeforeColon_eq_none (rest : List Char) :
    hashBeforeColon rest = none ↔ ¬ HashThenColon rest := by
  constructor
  · rintro missing ⟨sha, subject, rfl, some, hex⟩
    have clear : ':' ∉ sha := fun member => absurd (List.all_eq_true.mp hex ':' member) (by decide)
    have parts := (splitOnce_eq_some ':' _ sha subject).mpr ⟨rfl, clear⟩
    rw [hashBeforeColon, parts, Option.bind_some, if_pos (by simp [some, hex])] at missing
    cases missing
  · intro absent
    refine Option.eq_none_iff_forall_ne_some.mpr fun found named => ?_
    obtain ⟨⟨sha, subject⟩, parts, selected⟩ := Option.bind_eq_some_iff.mp named
    split at selected
    · next accepted =>
        rw [Bool.and_eq_true] at accepted
        exact absent ⟨sha, subject, ((splitOnce_eq_some ':' rest sha subject).mp parts).1,
          by simpa using accepted.1, accepted.2⟩
    · cases selected

/-- The backfill and the parser name the same hash, unless the marker stands in another case before
a hash. -/
theorem backfill_agrees (project : ProjectId) (story : StoryNo) (text : String) :
    (∀ sha, (project, story, sha) ∈ backfill [⟨project, story, text⟩] ↔
      gitLinkSha text = some sha) ↔
    ¬ (opensInAnyCase text ∧ text.toList.take 6 ≠ opening ∧ HashThenColon
      (text.toList.drop 6)) := by
  simp only [mem_backfill, List.mem_singleton, exists_eq_left, true_and]
  rw [gitLinkSha_eq, backfillSha_eq, opensInAnyCase]
  constructor
  · rintro agree ⟨opens, other, hash⟩
    rw [if_pos opens, if_neg other] at agree
    refine (hashBeforeColon_eq_none _).mp ?_ hash
    exact Option.eq_none_iff_forall_ne_some.mpr fun sha found =>
      absurd ((agree sha).mp found) (by simp)
  · intro condition sha
    by_cases exact : text.toList.take 6 = opening
    · rw [if_pos exact, exact, if_pos (by decide)]
    · rw [if_neg exact]
      split
      · next opens =>
          rw [(hashBeforeColon_eq_none _).mpr fun hash => condition ⟨opens, exact, hash⟩]
      · rfl

/-- A comment a person opened in capitals. -/
theorem backfill_reads_capitals :
    ¬ ∀ sha, (1, 1, sha) ∈ backfill [⟨1, 1, "[GIT] abc1234: reworked"⟩] ↔
      gitLinkSha "[GIT] abc1234: reworked" = some sha := by
  intro agree
  have stored : (1, 1, "abc1234") ∈ backfill [⟨1, 1, "[GIT] abc1234: reworked"⟩] := by
    decide +kernel
  have parsed : gitLinkSha "[GIT] abc1234: reworked" = none := by decide +kernel
  have named := (agree "abc1234").mp stored
  rw [parsed] at named
  cases named

end Storyhook.Store.LinkBackfill
