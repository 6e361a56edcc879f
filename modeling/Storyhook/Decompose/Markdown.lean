import Storyhook.Daemon.Parse
import Storyhook.Decompose.Markers
import Storyhook.Domain.ConflictSmoothing
import Storyhook.Library.Ladder
import Storyhook.Library.Utf8
import Storyhook.Service.Transfer

/-! The stories that a markdown spec is cut into. -/

namespace Storyhook.Decompose

open Storyhook.Library Storyhook.Service
open Domain.ConflictSmoothing (lines)

def parseWaveHeading (title : List Char) : Option Nat :=
  match "wave ".toList.isPrefixOf? (Text.toAsciiLowercase title) with
  | none => none
  | some rest =>
      let number := rest.takeWhile Char.isDigit
      if number.isEmpty then none else Daemon.u64FromStr 10 number

/-- What a line of a spec is. -/
inductive Line where
  | heading (level : Nat) (text : List Char)
  | wave (number : Nat)
  | task (indent : Nat) (text : List Char)
  | checked
  | body (text : List Char)
  | blank
  deriving DecidableEq

def indentation (line : List Char) : Nat :=
  Utf8.size line - Utf8.size (line.dropWhile Text.isWhitespace)

def readLine (line : List Char) : Line :=
  let trimmed := Text.trim line
  match "### ".toList.isPrefixOf? trimmed with
  | some rest =>
      match parseWaveHeading (Text.trim rest) with
      | some number => .wave number
      | none => .heading 3 (Text.trim rest)
  | none =>
      match "## ".toList.isPrefixOf? trimmed with
      | some rest => .heading 2 (Text.trim rest)
      | none =>
          match "# ".toList.isPrefixOf? trimmed with
          | some rest => .heading 1 (Text.trim rest)
          | none =>
              match "- [ ] ".toList.isPrefixOf? trimmed with
              | some rest => .task (indentation line) (Text.trim rest)
              | none =>
                  if "- [x] ".toList.isPrefixOf trimmed || "- [X] ".toList.isPrefixOf trimmed then
                    .checked
                  else if trimmed.isEmpty then .blank
                  else .body trimmed

/-- What has been read of a spec. Stacks have their top in front. -/
structure Parse where
  stories : List ImportStory
  headingStack : List (Nat × Nat)
  checkboxStack : List (Nat × Nat)
  descriptions : Std.TreeMap Nat (List (List Char))
  lastStoryIndex : Option Nat
  currentWave : Option Nat
  waveTaskIndices : Std.TreeMap Nat (List Nat)

def Parse.start : Parse := ⟨[], [], [], ∅, none, none, ∅⟩

def childOf (index : Nat) : ImportRelationship := ⟨"child-of", some index, none⟩

def blockedBy (index : Nat) : ImportRelationship := ⟨"blocked-by", some index, none⟩

def newStory (text : List Char) (parent : Option Nat) : ImportStory :=
  let complexity := extractComplexity text
  let priority := extractPriority complexity.1
  let labels := extractLabels priority.1
  { title := String.ofList labels.1
    complexity := complexity.2
    priority := priority.2
    labels := if labels.2.isEmpty then none else some labels.2
    relationships := parent.map fun index => [childOf index]
    description := none
    state := none
    storyType := none }

def phased (wave : Option Nat) (story : ImportStory) : ImportStory :=
  match wave with
  | none => story
  | some number =>
      let phaseLabel := "phase:" ++ Nat.repr number
      let labels := story.labels.getD []
      { story with labels := some (if labels.contains phaseLabel then labels
                                   else labels ++ [phaseLabel]) }

def headingParent (parse : Parse) (level : Nat) : Option Nat :=
  if level = 1 then none
  else (parse.headingStack.find? (·.1 == level - 1)).map (·.2)

def Parse.heading (parse : Parse) (level : Nat) (text : List Char) : Parse :=
  let index := parse.stories.length
  { parse with
    stories := parse.stories ++ [newStory text (headingParent parse level)]
    lastStoryIndex := some index
    currentWave := none
    headingStack := (level, index) ::
      if level = 1 then [] else parse.headingStack.filter (·.1 < level)
    checkboxStack := [] }

def Parse.enclosing (parse : Parse) (indent : Nat) : List (Nat × Nat) :=
  parse.checkboxStack.dropWhile (indent ≤ ·.1)

def taskParent (parse : Parse) (indent : Nat) : Option Nat :=
  match (parse.enclosing indent).head? with
  | some box => some box.2
  | none => parse.headingStack.head?.map (·.2)

def Parse.task (parse : Parse) (indent : Nat) (text : List Char) : Parse :=
  let index := parse.stories.length
  { parse with
    stories := parse.stories ++
      [phased parse.currentWave (newStory text (taskParent parse indent))]
    lastStoryIndex := some index
    checkboxStack := (indent, index) :: parse.enclosing indent
    waveTaskIndices := match parse.currentWave with
      | none => parse.waveTaskIndices
      | some wave =>
          parse.waveTaskIndices.insert wave (parse.waveTaskIndices.getD wave [] ++ [index]) }

def Parse.step (parse : Parse) : Line → Parse
  | .heading level text =>
      if text.isEmpty then
        if level = 3 then parse else { parse with currentWave := none }
      else parse.heading level text
  | .wave number =>
      { parse with
        currentWave := some number
        waveTaskIndices := parse.waveTaskIndices.insertIfNew number [] }
  | .task indent text => if text.isEmpty then parse else parse.task indent text
  | .checked => parse
  | .body text =>
      match parse.lastStoryIndex with
      | none => parse
      | some index =>
          { parse with
            descriptions :=
              parse.descriptions.insert index (parse.descriptions.getD index [] ++ [text]) }
  | .blank => parse

/-- The blocked task and the blocker of every order between one wave and the next recorded one. -/
def waveEdges (waves : Std.TreeMap Nat (List Nat)) : List (Nat × Nat) :=
  (Ladder.rungs waves.keys).flatMap fun window =>
    (waves.getD window.2 []).flatMap fun current =>
      (waves.getD window.1 []).map fun previous => (current, previous)

def addBlocker (stories : List ImportStory) (edge : Nat × Nat) : List ImportStory :=
  stories.modify edge.1 fun story =>
    { story with relationships := some (story.relationships.getD [] ++ [blockedBy edge.2]) }

def describe (stories : List ImportStory) (entry : Nat × List (List Char)) : List ImportStory :=
  let description := ['\n'].intercalate entry.2
  if (Text.trim description).isEmpty then stories
  else stories.modify entry.1 fun story =>
    { story with description := some (String.ofList description) }

def readLines (content : String) : List Line := (lines content.toList).map readLine

def parseLines (spec : List Line) : Parse := spec.foldl Parse.step Parse.start

def finish (parse : Parse) : List ImportStory :=
  parse.descriptions.toList.foldl describe
    ((waveEdges parse.waveTaskIndices).foldl addBlocker parse.stories)

def decomposeSpec (content : String) : List ImportStory := finish (parseLines (readLines content))

end Storyhook.Decompose
