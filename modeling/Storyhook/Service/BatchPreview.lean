import Storyhook.Service.BatchSmoothing

/-! The batch that the verifier would form at a dequeue. -/

namespace Storyhook.Service

open Storyhook.Domain.ConflictSmoothing

def maxRecordedPaths : Nat := 20

inductive ExclusionReason where
  | conflictWithBase
  | conflictWithMember
  | held
  | blocked
  | landingPending
  | unsubmitted
  | cap
  | trialFailed
  deriving DecidableEq, Repr

def ExclusionReason.asStr : ExclusionReason → String
  | .conflictWithBase => "conflict-with-base"
  | .conflictWithMember => "conflict-with-member"
  | .held => "held"
  | .blocked => "blocked"
  | .landingPending => "landing-pending"
  | .unsubmitted => "unsubmitted"
  | .cap => "cap"
  | .trialFailed => "trial-failed"

/-- Whether a story may be tried, decided before any merge. -/
inductive Standing where
  | commit (commit : String)
  | branch (branch : String)
  | ineligible (reason : ExclusionReason) (detail : String)
  deriving DecidableEq, Repr

structure PreviewCandidate where
  storyId : String
  standing : Standing
  deriving DecidableEq, Repr

inductive PreviewOutcome where
  | batch
  | headConflict
  | unavailable
  deriving DecidableEq, Repr

structure PreviewMember where
  storyId : String
  commit : String
  smoothed : List String
  deriving DecidableEq, Repr

inductive SmoothingClass where
  | unionSmoothable
  | agentCandidate
  deriving DecidableEq, Repr

structure SmoothingMark where
  markClass : SmoothingClass
  allowlisted : Bool
  deriving DecidableEq, Repr

inductive SmoothingMode where
  | measure
  | admits
  deriving DecidableEq, Repr

structure PreviewExclusion where
  storyId : String
  reason : ExclusionReason
  detail : Option String
  paths : List String
  smoothing : Option SmoothingMark
  deriving DecidableEq, Repr

structure BatchPreview where
  computedAt : String
  head : String
  baseBranch : Option String
  baseCommit : Option String
  headTree : Option String
  cap : Nat
  liveLanes : Option Nat
  queueDepth : Nat
  outcome : PreviewOutcome
  detail : Option String
  headConflict : List String
  members : List PreviewMember
  excluded : List PreviewExclusion
  smooth : List String
  smoothingUnavailable : Option String
  deriving DecidableEq, Repr

structure PreviewRequest where
  computedAt : String
  head : PreviewCandidate
  rest : List PreviewCandidate
  baseBranch : Option String
  cap : Nat
  liveLanes : Option Nat
  queueDepth : Nat
  deadline : Nat
  smoothing : SmoothingMode
  deriving DecidableEq, Repr

def BatchPreview.empty (request : PreviewRequest) : BatchPreview where
  computedAt := request.computedAt
  head := request.head.storyId
  baseBranch := request.baseBranch
  baseCommit := none
  headTree := none
  cap := max request.cap 1
  liveLanes := request.liveLanes
  queueDepth := request.queueDepth
  outcome := .batch
  detail := none
  headConflict := []
  members := []
  excluded := []
  smooth := []
  smoothingUnavailable := none

def BatchPreview.unavailable (request : PreviewRequest) (detail : String) : BatchPreview :=
  { BatchPreview.empty request with outcome := .unavailable, detail := some detail }

def exclusion (candidate : PreviewCandidate) (reason : ExclusionReason) (detail : String) :
    PreviewExclusion :=
  ⟨candidate.storyId, reason, some detail, [], none⟩

def recorded (paths : List String) : List String := paths.take maxRecordedPaths

def conflict (candidate : PreviewCandidate) (reason : ExclusionReason) (paths : List String) :
    PreviewExclusion where
  storyId := candidate.storyId
  reason := reason
  detail := if maxRecordedPaths < paths.length then
      some (Nat.repr paths.length ++ " conflicted paths; the first " ++ Nat.repr maxRecordedPaths ++
        " are listed")
    else none
  paths := recorded paths
  smoothing := none

structure Sweep where
  members : List PreviewMember
  excluded : List PreviewExclusion
  batch : String
  memberConflicts : List (Nat × String)
  deriving DecidableEq, Repr

def Sweep.exclude (sweep : Sweep) (entry : PreviewExclusion) : Sweep :=
  { sweep with excluded := sweep.excluded ++ [entry] }

def Sweep.join (sweep : Sweep) (candidate : PreviewCandidate) (commit merged : String) : Sweep :=
  { sweep with
    members := sweep.members ++ [⟨candidate.storyId, commit, []⟩]
    batch := merged }

/-- Excludes a story that conflicts with a member, with the place of its exclusion. -/
def Sweep.conflicts (sweep : Sweep) (entry : PreviewExclusion) (commit : String) : Sweep :=
  { sweep.exclude entry with
    memberConflicts := sweep.memberConflicts ++ [(sweep.excluded.length, commit)] }

section Select

variable {σ : Type} (merger : TrialMerger σ)

/-- The commit a story would be tried at, or why it cannot be tried. -/
def standingCommit (candidate : PreviewCandidate) (state : σ) :
    Except PreviewExclusion String × σ :=
  match candidate.standing with
  | .commit commit => (.ok commit, state)
  | .ineligible reason detail => (.error (exclusion candidate reason detail), state)
  | .branch branch =>
      match merger.resolve ("refs/heads/" ++ branch) state with
      | (.ok (some commit), state) => (.ok commit, state)
      | (.ok none, state) => (.error (exclusion candidate .unsubmitted
          ("its leased branch " ++ branch ++ " names no commit")), state)
      | (.error error, state) => (.error (exclusion candidate .trialFailed
          ("resolving its branch " ++ branch ++ ": " ++ error)), state)

def mark (shape : ConflictShape) (policy : SmoothPolicy) (deadline : Nat) (state : σ) :
    Option SmoothingMark × σ :=
  match merger.now state with
  | (instant, state) =>
      if deadline ≤ instant then (none, state)
      else match merger.blobs state with
        | (false, state) => (none, state)
        | (true, state) =>
            match classify merger shape state with
            | (.unionSmoothable files, state) =>
                (some ⟨.unionSmoothable, admitsAll policy files⟩, state)
            | (.agentCandidate, state) =>
                (some ⟨.agentCandidate, shape.paths.all policy.admits⟩, state)
            | (.notSmoothable, state) => (none, state)

def markUnder (shape : ConflictShape) (policy : Option SmoothPolicy) (deadline : Nat) (state : σ) :
    Option SmoothingMark × σ :=
  match policy with
  | none => (none, state)
  | some policy => mark merger shape policy deadline state

def tryAlone (base : String) (policy : Option SmoothPolicy) (deadline : Nat)
    (candidate : PreviewCandidate) (commit : String) (paths : List String) (shape : ConflictShape)
    (sweep : Sweep) (state : σ) : Sweep × σ :=
  match merger.merge base commit state with
  | (.ok (.clean _), state) =>
      match markUnder merger shape policy deadline state with
      | (smoothing, state) =>
          (sweep.conflicts { conflict candidate .conflictWithMember paths with
            smoothing := smoothing } commit, state)
  | (.ok (.conflict basePaths _), state) =>
      (sweep.exclude (conflict candidate .conflictWithBase basePaths), state)
  | (.error error, state) => (sweep.exclude (exclusion candidate .trialFailed
      ("trial merge onto the base failed: " ++ error)), state)

def tryCandidate (base : String) (policy : Option SmoothPolicy) (cap deadline : Nat)
    (candidate : PreviewCandidate) (sweep : Sweep) (state : σ) : Sweep × σ :=
  match standingCommit merger candidate state with
  | (.error entry, state) => (sweep.exclude entry, state)
  | (.ok commit, state) =>
      match merger.now state with
      | (instant, state) =>
          if deadline ≤ instant then
            (sweep.exclude (exclusion candidate .trialFailed
              "the preview deadline passed before this trial merge"), state)
          else match merger.merge sweep.batch commit state with
            | (.ok (.clean tree), state) =>
                if sweep.members.length < cap then
                  match merger.commit sweep.batch commit tree state with
                  | (.ok merged, state) => (sweep.join candidate commit merged, state)
                  | (.error error, state) => (sweep.exclude (exclusion candidate .trialFailed
                      ("recording its merge onto the batch failed: " ++ error)), state)
                else (sweep.exclude (exclusion candidate .cap
                  ("merges cleanly onto the batch, which is full at " ++ Nat.repr cap)), state)
            | (.ok (.conflict paths shape), state) =>
                tryAlone merger base policy deadline candidate commit paths shape sweep state
            | (.error error, state) => (sweep.exclude (exclusion candidate .trialFailed
                ("trial merge onto the batch failed: " ++ error)), state)

def sweepQueue (base : String) (policy : Option SmoothPolicy) (cap deadline : Nat) :
    List PreviewCandidate → Sweep → σ → Sweep × σ
  | [], sweep, state => (sweep, state)
  | candidate :: rest, sweep, state =>
      match tryCandidate merger base policy cap deadline candidate sweep state with
      | (sweep, state) => sweepQueue base policy cap deadline rest sweep state

/-- Admits the first story that conflicts with a member and could be smoothed, as the last. -/
def admitSmoothable (batch : String) (policy : SmoothPolicy) (deadline : Nat) :
    List (Nat × String) → Sweep → σ → Sweep × σ
  | [], sweep, state => (sweep, state)
  | (index, commit) :: later, sweep, state =>
      match merger.now state with
      | (instant, state) =>
          if deadline ≤ instant then (sweep, state)
          else match merger.merge batch commit state with
            | (.ok (.conflict _ shape), state) =>
                match merger.blobs state with
                | (false, state) => (sweep, state)
                | (true, state) =>
                    match classify merger shape state with
                    | (.unionSmoothable files, state) =>
                        if admitsAll policy files then
                          ({ sweep with
                            excluded := sweep.excluded.eraseIdx index
                            members := sweep.members ++ (sweep.excluded[index]?.map fun entry =>
                              ⟨entry.storyId, commit, files.map (·.path)⟩).toList }, state)
                        else admitSmoothable batch policy deadline later sweep state
                    | (_, state) => admitSmoothable batch policy deadline later sweep state
            | (_, state) => admitSmoothable batch policy deadline later sweep state

/-- The allowlist of the base; what `.storyhook.toml` says is read by `policyFromPointer`. -/
def smoothingPolicy (policyFromPointer : Option ByteArray → Except String SmoothPolicy)
    (base : String) (state : σ) : Except String SmoothPolicy × σ :=
  match merger.blobs state with
  | (false, state) => (.error "this trial merger reads no blobs", state)
  | (true, state) =>
      match merger.file base ".storyhook.toml" state with
      | (.error error, state) =>
          (.error ("reading the base's .storyhook.toml failed: " ++ error), state)
      | (.ok raw, state) => (policyFromPointer raw, state)

/-- What the head's own merge gives: the commit it names and the batch of it alone. -/
structure HeadMerge where
  base : String
  commit : String
  tree : String
  batch : String
  deriving DecidableEq, Repr

/-- Merges the head onto the base, or says why no batch forms. -/
def mergeHead (request : PreviewRequest) (state : σ) : Except BatchPreview HeadMerge × σ :=
  match request.baseBranch with
  | none => (.error (.unavailable request "no submission in this attempt named the base branch"),
      state)
  | some branch =>
      match merger.resolve ("refs/remotes/origin/" ++ branch) state with
      | (.ok none, state) =>
          (.error (.unavailable request ("origin/" ++ branch ++ " names no commit")), state)
      | (.error error, state) =>
          (.error (.unavailable request ("resolving origin/" ++ branch ++ ": " ++ error)), state)
      | (.ok (some base), state) =>
          match standingCommit merger request.head state with
          | (.error entry, state) => (.error (.unavailable request ("the head " ++
              request.head.storyId ++ " cannot be tried (" ++ entry.reason.asStr ++ "): " ++
                entry.detail.getD "")), state)
          | (.ok commit, state) =>
              let failed (error : String) : BatchPreview :=
                { BatchPreview.unavailable request
                    ("trial merge of the head failed: " ++ error) with
                  baseCommit := some base }
              match merger.merge base commit state with
              | (.error error, state) => (.error (failed error), state)
              | (.ok (.conflict paths _), state) =>
                  (.error { BatchPreview.empty request with
                    baseCommit := some base
                    outcome := .headConflict
                    headConflict := recorded paths
                    members := [⟨request.head.storyId, commit, []⟩] }, state)
              | (.ok (.clean tree), state) =>
                  match merger.commit base commit tree state with
                  | (.error error, state) => (.error (failed error), state)
                  | (.ok batch, state) => (.ok ⟨base, commit, tree, batch⟩, state)

/-- The queue swept in order, and then at most one story admitted by smoothing. -/
def fillBatch (policy : Option SmoothPolicy) (request : PreviewRequest) (found : HeadMerge)
    (state : σ) : Sweep × σ :=
  let cap := max request.cap 1
  match sweepQueue merger found.base policy cap request.deadline request.rest
      ⟨[⟨request.head.storyId, found.commit, []⟩], [], found.batch, []⟩ state with
  | (sweep, state) =>
      match policy.filter (!·.isEmpty) with
      | none => (sweep, state)
      | some policy =>
          if request.smoothing = .admits ∧ sweep.members.length < cap then
            admitSmoothable merger sweep.batch policy request.deadline sweep.memberConflicts sweep
              state
          else (sweep, state)

def select (policyFromPointer : Option ByteArray → Except String SmoothPolicy)
    (request : PreviewRequest) (state : σ) : BatchPreview × σ :=
  match mergeHead merger request state with
  | (.error preview, state) => (preview, state)
  | (.ok found, state) =>
      match smoothingPolicy merger policyFromPointer found.base state with
      | (read, state) =>
          match fillBatch merger read.toOption request found state with
          | (sweep, state) =>
              ({ BatchPreview.empty request with
                baseCommit := some found.base
                headTree := some found.tree
                members := sweep.members
                excluded := sweep.excluded
                smooth := (read.toOption.map SmoothPolicy.entries).getD []
                smoothingUnavailable := match read with
                  | .ok _ => none
                  | .error why => some why }, state)

end Select

end Storyhook.Service
