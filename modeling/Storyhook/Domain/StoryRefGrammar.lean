import Storyhook.Domain.StoryRefs

/-! The grammar of the references in a commit message. -/

namespace Storyhook.Domain.StoryRefs

open Library Library.Text Library.Utf8 Library.AsciiScan CommentSnippet

/-- A project's prefix: letters and digits, the first of them a letter. -/
def ProjectPrefix (idPrefix : Text) : Prop :=
  ∃ first rest, idPrefix = first :: rest ∧ first.isAlpha = true ∧ ∀ c ∈ rest, c.isAlphanum = true

/-- An id with all its digits, at the start of a line or after what is not alphanumeric. -/
def IdAt (idPrefix line : Text) (place : Nat × Nat) (id : Text) : Prop :=
  ∃ front digits back, Names idPrefix line place.1 place.2 front digits back ∧
    id = idPrefix ++ '-' :: digits ∧ front.getLast?.any Char.isAlphanum = false ∧
    back.head?.any Char.isDigit = false

def Links (joins : Text → Prop) (idPrefix line : Text) (one next : Nat × Nat) : Prop :=
  (∃ id, IdAt idPrefix line one id) ∧ (∃ id, IdAt idPrefix line next id) ∧
    ∃ gap, slice line one.2 next.1 = some gap ∧ joins gap

/-- Whitespace, commas and ampersands, with at most one `and` among them. -/
def Joins (gap : Text) : Prop :=
  ∃ before word after, gap = before ++ word ++ after ∧ (∀ c ∈ before ++ after, isFiller c = true) ∧
    (word = [] ∨ toAsciiLowercase word = "and".toList)

def JoinsLoosely (gap : Text) : Prop := joinsARun gap = true

def isBlankChar (character : Char) : Bool := character = ' ' || character = '\t'

def isWordChar (character : Char) : Bool := character.isAlphanum || character = '\''

def Cancels (earlier : Text) : Prop :=
  ∃ front word blanks, earlier = front ++ word ++ blanks ∧ (∀ c ∈ blanks, isBlankChar c = true) ∧
    word ≠ [] ∧ (∀ c ∈ word, isWordChar c = true) ∧ front.getLast?.any isWordChar = false ∧
    negates word = true

/-- A text that ends in a word, then perhaps a colon, then blanks, then perhaps a `#`. -/
structure EndsIn (front earlier word mark blanks hash : Text) : Prop where
  split : front = earlier ++ word ++ mark ++ blanks ++ hash
  alphanumeric : ∀ c ∈ word, c.isAlphanum = true
  begins : earlier.getLast?.any Char.isAlphanum = false
  marked : mark = [] ∨ mark = [':']
  blank : ∀ c ∈ blanks, isBlankChar c = true
  hashed : hash = [] ∨ hash = ['#']

/-- A claim word that nothing cancels stands directly before a run of ids. -/
def Heralded (line : Text) (runStart runEnd : Nat) : Prop :=
  ∃ front run rest earlier word mark blanks hash,
    line = front ++ run ++ rest ∧ size front = runStart ∧ size (front ++ run) = runEnd ∧
    EndsIn front earlier word mark blanks hash ∧ blanks ≠ [] ∧ claimWord word = true ∧
    ¬Cancels earlier ∧ (mark = [':'] → trim rest = [] ∨ trim rest = ['.'] ∨ trim rest = [';'])

def ClaimsAt (joins : Text → Prop) (idPrefix line : Text) (place : Nat × Nat) : Prop :=
  ∃ first last, Grouping.InRun (Links joins idPrefix line) first last place ∧
    Heralded line first.1 last.2

/-- A line on which ids may be claimed: any but the subject of a revert. -/
def LiveLine (message : Text) (number : Nat) (line : Text) : Prop :=
  (ConflictSmoothing.lines message)[number]? = some line ∧
    ¬(revertSubjectPrefix <+: message ∧ number = 0)

def ClaimedBy (joins : Text → Prop) (idPrefix message id : Text) : Prop :=
  ∃ number line place, LiveLine message number line ∧ IdAt idPrefix line place id ∧
    ClaimsAt joins idPrefix line place

def Appears (idPrefix message id : Text) (spot : Nat × Nat) : Prop :=
  ∃ line stop, (ConflictSmoothing.lines message)[spot.1]? = some line ∧
    IdAt idPrefix line (spot.2, stop) id

/-- The references of a message, as a grammar has them. -/
structure Proper (joins : Text → Prop) (idPrefix message : Text)
    (references : List StoryReference) :
    Prop where
  once : (references.map (·.id)).Nodup
  named : ∀ id, id ∈ references.map (·.id) ↔ ∃ spot, Appears idPrefix message id spot
  ordered : references.Pairwise fun earlier later => ∀ spot,
    Appears idPrefix message later.id spot →
    ∃ sooner, Appears idPrefix message earlier.id sooner ∧ Prod.Lex (· < ·) (· < ·) sooner spot
  intents : ∀ reference ∈ references,
    reference.intent = .claim ↔ ClaimedBy joins idPrefix message reference.id

def Lengthens (message longer : Text) : Prop :=
  ∃ added, longer = message ++ '\n' :: added ∨
    message.getLast? = some '\n' ∧ longer = message ++ added

/-- The scan of a message finds what the grammar has, and no less once lines are added. -/
structure FollowsGrammar (idPrefix message : Text) : Prop where
  scanned : ∃ references, scanStoryRefs idPrefix message = some references ∧
    Proper Joins idPrefix message references
  kept : ∀ references, scanStoryRefs idPrefix message = some references →
    ∀ longer, Lengthens message longer → ∃ more, scanStoryRefs idPrefix longer = some more ∧
      ∀ reference ∈ references, ∃ later ∈ more,
        later.id = reference.id ∧ reference.intent ≤ later.intent

/-- A run that claims an id has a gap whose `and` is not one word. -/
def ClaimedOverGap (idPrefix message id : Text) : Prop :=
  ∃ number line place first last one next gap,
    LiveLine message number line ∧ IdAt idPrefix line place id ∧
    Grouping.InRun (Links JoinsLoosely idPrefix line) first last place ∧
      Heralded line first.1 last.2 ∧
    Relation.ReflTransGen (Links JoinsLoosely idPrefix line) first one ∧
    Links JoinsLoosely idPrefix line one next ∧
    slice line one.2 next.1 = some gap ∧ ¬Joins gap

section Kinds

theorem isAlphanum_iff (character : Char) : character.isAlphanum = true ↔
    48 ≤ character.toNat ∧ character.toNat ≤ 57 ∨ 65 ≤ character.toNat ∧ character.toNat ≤ 90 ∨
      97 ≤ character.toNat ∧ character.toNat ≤ 122 := by
  have spelled : character.isAlphanum = (character.isAlpha || character.isDigit) := rfl
  rw [spelled, Bool.or_eq_true, isAlpha_iff, Char.isDigit_iff_toNat, or_comm]
  exact Iff.rfl

theorem isAsciiAlphanumeric_iff (byte : UInt8) : isAsciiAlphanumeric byte = true ↔
    48 ≤ byte.toNat ∧ byte.toNat ≤ 57 ∨ 65 ≤ byte.toNat ∧ byte.toNat ≤ 90 ∨
      97 ≤ byte.toNat ∧ byte.toNat ≤ 122 := by
  simp only [isAsciiAlphanumeric, isAsciiDigit, Bool.or_eq_true, Bool.and_eq_true,
    decide_eq_true_eq,
    UInt8.le_iff_toNat_le]
  have numbers : UInt8.toNat 48 = 48 ∧ UInt8.toNat 57 = 57 ∧ UInt8.toNat 65 = 65 ∧
      UInt8.toNat 90 = 90 ∧ UInt8.toNat 97 = 97 ∧ UInt8.toNat 122 = 122 := by decide
  omega

theorem alphanumeric_agrees : ByteWise isAsciiAlphanumeric Char.isAlphanum := by
  refine agrees_ascii _ _ (fun byte told => ?_) (fun character told => ?_)
    fun byte character same => ?_
  · rw [isAsciiAlphanumeric_iff] at told
    omega
  · rw [isAlphanum_iff] at told
    omega
  · rw [Bool.eq_iff_iff, isAsciiAlphanumeric_iff, isAlphanum_iff, same]

theorem hash_agrees : ByteWise isHash (· = '#') := single_agrees '#' (by decide)

theorem colon_agrees : ByteWise isColon (· = ':') := single_agrees ':' (by decide)

theorem blank_agrees : ByteWise isBlank isBlankChar :=
  ByteWise.or _ _ _ _ (single_agrees ' ' (by decide)) (single_agrees '\t' (by decide))

theorem word_agrees : ByteWise isWordByte isWordChar :=
  ByteWise.or _ _ _ _ alphanumeric_agrees (single_agrees '\'' (by decide))

end Kinds

end Storyhook.Domain.StoryRefs
