import Storyhook.Domain.ConflictSmoothing

/-! The trial merger, and how a conflict it reports reads for smoothing. -/

namespace Storyhook.Service

open Storyhook.Domain.ConflictSmoothing
open Library

structure StageEntry where
  mode : String
  oid : String
  stage : Nat
  path : String
  deriving DecidableEq, Repr

structure ConflictRecord where
  kind : String
  paths : List String
  deriving DecidableEq, Repr

structure ConflictShape where
  tree : String
  stages : List StageEntry
  records : List ConflictRecord
  deriving DecidableEq, Repr

def ConflictShape.paths (shape : ConflictShape) : List String :=
  shape.stages.foldl (fun paths entry =>
    if paths.contains entry.path then paths else paths ++ [entry.path]) []

inductive TrialMerge where
  | clean (tree : String)
  | conflict (paths : List String) (shape : ConflictShape)
  deriving DecidableEq, Repr

/-- The merger's answers, with what it and the clock become; an error is the text it prints. -/
structure TrialMerger (σ : Type) where
  resolve : String → σ → Except String (Option String) × σ
  merge : String → String → σ → Except String TrialMerge × σ
  commit : String → String → String → σ → Except String String × σ
  blobs : σ → Bool × σ
  blob : String → σ → Except String ByteArray × σ
  file : String → String → σ → Except String (Option ByteArray) × σ
  now : σ → Nat × σ

inductive PathRule where
  | exact (path : String)
  | under (directory : String)
  deriving DecidableEq, Repr

structure SmoothPolicy where
  rules : List PathRule
  deriving DecidableEq, Repr

namespace SmoothPolicy

def isEmpty (policy : SmoothPolicy) : Bool := policy.rules.isEmpty

def admits (policy : SmoothPolicy) (path : String) : Bool :=
  policy.rules.any fun rule => match rule with
    | .exact exact => path == exact
    | .under directory =>
        path.utf8ByteSize > directory.utf8ByteSize && directory.toList.isPrefixOf path.toList

def entries (policy : SmoothPolicy) : List String :=
  policy.rules.map fun rule => match rule with
    | .exact path | .under path => path

end SmoothPolicy

def maxSmoothedPaths : Nat := 20

def deniedNames : List String := ["claude.md", "agents.md", "gemini.md", "skill.md",
  ".storyhook.toml", ".gitattributes", ".gitmodules", ".envrc"]

def deniedDirs : List String := [".claude", ".codex", ".cursor", ".github", ".githooks", ".husky",
  ".cargo"]

/-- Whether a path can never be smoothed, whatever the allowlist says. -/
def pathRefusal (path : String) : Bool :=
  let folded := (Text.toAsciiLowercase path.toList).splitOn '/'
  path.isEmpty || path.toList.any (fun c => !(0x20 ≤ c.toNat && c.toNat ≤ 0x7E)) ||
    path.toList.contains (Char.ofNat 0x60) ||
    deniedNames.any (fun denied => folded.getLast? == some denied.toList) ||
    deniedDirs.any fun denied => folded.contains denied.toList

structure SmoothedFile where
  path : String
  base : String
  ours : String
  theirs : String
  resolved : List Char
  deriving DecidableEq, Repr

inductive Classification where
  | unionSmoothable (files : List SmoothedFile)
  | agentCandidate
  | notSmoothable
  deriving DecidableEq, Repr

def admittedRecords : List String := ["Auto-merging", "CONFLICT (contents)"]

section Reading

variable {σ : Type} (merger : TrialMerger σ)

/-- Reads the sides of a path; whether each is text that no marker disturbs. -/
def readSides : List StageEntry → σ → Bool × σ
  | [], state => (true, state)
  | entry :: rest, state =>
      match merger.blob entry.oid state with
      | (.error _, state) => (false, state)
      | (.ok bytes, state) =>
          match checkText entry.path bytes with
          | .error _ => (false, state)
          | .ok _ => readSides rest state

/-- One path: nothing when it can never be smoothed, else what its hunks say. -/
def classifyPath (shape : ConflictShape) (path : String) (state : σ) :
    Option (Except HunkRefusal SmoothedFile) × σ :=
  let entries := shape.stages.filter (·.path == path)
  let stage (number : Nat) := entries.find? (·.stage == number)
  if pathRefusal path then (none, state)
  else match stage 1, stage 2, stage 3 with
    | some base, some ours, some theirs =>
        if entries.length ≠ 3 || entries.any (·.mode != "100644") then (none, state)
        else match readSides merger [base, ours, theirs] state with
          | (false, state) => (none, state)
          | (true, state) =>
              match merger.file shape.tree path state with
              | (.ok (some conflicted), state) =>
                  if 3 * maxBlobBytes < conflicted.size || conflicted.data.toList.contains 0 then
                    (none, state)
                  else match String.fromUTF8? conflicted with
                    | none => (none, state)
                    | some text => (some ((unionInsertions text.toList).map fun resolved =>
                        ⟨path, base.oid, ours.oid, theirs.oid, resolved⟩), state)
              | (_, state) => (none, state)
    | _, _, _ => (none, state)

def classifyPaths (shape : ConflictShape) : List String → List SmoothedFile → Bool → σ →
    Classification × σ
  | [], files, modifies, state =>
      (if modifies then .agentCandidate else .unionSmoothable files, state)
  | path :: rest, files, modifies, state =>
      match classifyPath merger shape path state with
      | (some (.ok file), state) => classifyPaths shape rest (files ++ [file]) modifies state
      | (some (.error .modifies), state) => classifyPaths shape rest files true state
      | (some (.error (.malformed _)), state) => (.notSmoothable, state)
      | (none, state) => (.notSmoothable, state)

def classify (shape : ConflictShape) (state : σ) : Classification × σ :=
  if shape.records.any (fun record => !admittedRecords.contains record.kind) ||
      shape.paths.isEmpty || maxSmoothedPaths < shape.paths.length then
    (.notSmoothable, state)
  else classifyPaths merger shape shape.paths [] false state

end Reading

def admitsAll (policy : SmoothPolicy) (files : List SmoothedFile) : Bool :=
  !files.isEmpty && files.all fun file => policy.admits file.path

end Storyhook.Service
