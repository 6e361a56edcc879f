import Mathlib.Logic.Relation
import Storyhook.Domain.CommentSnippet
import Storyhook.Domain.ConflictSmoothing
import Storyhook.Library.AsciiScan
import Storyhook.Library.Grouping
import Storyhook.Library.Strongest

/-! The stories that a commit message names, and which of them it claims. -/

namespace Storyhook.Domain.StoryRefs

open Library Library.Text Library.Utf8 Library.AsciiScan CommentSnippet

inductive ReferenceIntent where
  | mention
  | claim
  deriving DecidableEq, Repr

namespace ReferenceIntent

def rank : ReferenceIntent → Nat
  | mention => 0
  | claim => 1

theorem rank_injective : Function.Injective rank := by
  intro one other same
  cases one <;> cases other <;> first | rfl | cases same

instance : LinearOrder ReferenceIntent := LinearOrder.lift' rank rank_injective

end ReferenceIntent

structure StoryReference where
  id : Text
  intent : ReferenceIntent
  deriving DecidableEq, Repr

/-- Every word that may precede an id, and whether it claims the story. -/
def refWords : List (String × Bool) :=
  [("close", true), ("closes", true), ("closed", true), ("fix", true), ("fixes", true),
    ("fixed", true), ("resolve", true), ("resolves", true), ("resolved", true),
    ("implement", true), ("implements", true), ("implemented", true), ("implementing", true),
    ("complete", true), ("completes", true), ("completed", true), ("start", true),
    ("starts", true), ("started", true), ("starting", true), ("wip", true), ("refs", false),
    ("ref", false), ("references", false), ("see", false), ("related", false), ("part", false),
    ("mentions", false), ("cc", false), ("re", false), ("tracks", false), ("blocks", false),
    ("story", false)]

def negations : List String := ["not", "no", "never", "without", "unless"]

def revertSubjectPrefix : Text := "Revert \"".toList

def claimWord (word : Text) : Bool :=
  (refWords.find? fun entry => entry.1.toList = toAsciiLowercase word).any (·.2)

def negates (word : Text) : Bool :=
  negations.any (fun negation => negation.toList = toAsciiLowercase word) ||
    "n't".toList.isSuffixOf (toAsciiLowercase word)

def isFiller (character : Char) : Bool :=
  isWhitespace character || character = ',' || character = '&'

def joinsARun (gap : Text) : Bool :=
  let stripped := gap.filter fun character => !isFiller character
  stripped.isEmpty || toAsciiLowercase stripped = "and".toList

inductive Separator where
  | whitespace
  | colon
  deriving DecidableEq, Repr

def isHash (byte : UInt8) : Bool := byte == 35

def isColon (byte : UInt8) : Bool := byte == 58

def isBlank (byte : UInt8) : Bool := byte == 32 || byte == 9

def isWordByte (byte : UInt8) : Bool := isAsciiAlphanumeric byte || byte == 39

/-- The word before an id, where it starts and what separates it from the id; the outer `none` is
a slice that splits a character. -/
def precedingWord (line : Text) (idStart : Nat) : Option (Option (Text × Nat × Separator)) :=
  let raw := bytes line
  let whitespaceEnd := if precededBy isHash raw idStart then idStart - 1 else idStart
  let whitespaceStart := skipBack isBlank raw whitespaceEnd
  if whitespaceStart = whitespaceEnd then some none
  else
    let colon := precededBy isColon raw whitespaceStart
    let wordEnd := if colon then whitespaceStart - 1 else whitespaceStart
    let wordStart := skipBack isAsciiAlphanumeric raw wordEnd
    if wordStart < wordEnd then
      (slice line wordStart wordEnd).map fun word =>
        some (word, wordStart, if colon then .colon else .whitespace)
    else some none

def wordBefore (line : Text) (wordStart : Nat) : Option Text :=
  let stop := skipBack isBlank (bytes line) wordStart
  slice line (skipBack isWordByte (bytes line) stop) stop

def intentForRun (line : Text) (runStart runEnd : Nat) : Option ReferenceIntent := do
  match ← precedingWord line runStart with
  | none => return .mention
  | some (word, wordStart, separator) =>
      if !claimWord word then return .mention
      else if negates (← wordBefore line wordStart) then return .mention
      else
        match separator with
        | .whitespace => return .claim
        | .colon =>
            let (_, after) ← splitAt line runEnd
            let rest := trim after
            return if rest = [] ∨ rest = ['.'] ∨ rest = [';'] then .claim else .mention

/-- Whether two ids that follow each other on a line are of one run. -/
def joinedOn (line : Text) (one next : Nat × Nat) : Option Bool :=
  (slice line one.2 next.1).map joinsARun

abbrev References := Strongest Text ReferenceIntent

def scanRun (line : Text) (exempt : Bool) (references : References) (run : List (Nat × Nat)) :
    Option References :=
  match run.head?, run.getLast? with
  | some first, some last => do
      let intent ← if exempt then some .mention else intentForRun line first.1 last.2
      run.foldlM (fun references place =>
        (slice line place.1 place.2).map fun id => references.record (id, intent)) references
  | _, _ => some references

def scanLine (idPrefix : Text) (exempt : Bool) (references : References) (line : Text) :
    Option References := do
  let runs ← Grouping.group (joinedOn line) (idsInLine idPrefix line)
  runs.foldlM (scanRun line exempt) references

/-- Every story a message names, unless a slice splits a character. -/
def scanStoryRefs (idPrefix message : Text) : Option (List StoryReference) := do
  let revertedSubject := revertSubjectPrefix.isPrefixOf message
  let references ← (ConflictSmoothing.lines message).zipIdx.foldlM (fun references entry =>
    scanLine idPrefix (revertedSubject && entry.2 = 0) references entry.1) Strongest.empty
  references.order.mapM fun id => (references.most id).map fun intent => ⟨id, intent⟩

end Storyhook.Domain.StoryRefs
