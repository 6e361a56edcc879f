import Mathlib.Data.List.Nodup
import Storyhook.Domain.FoldStory
import Storyhook.Store.GateEvidence
import Storyhook.Library.Outcome

namespace Storyhook.Store

open Library Library.Outcome

def pinned (oid : String) : Bool :=
  (oid.length == 40 || oid.length == 64) && oid.toList.all Domain.isAsciiHexdigit

inductive BatchPhase where
  | assembled | submitted | gating | landing | landed | released | abandoned
  deriving DecidableEq, Repr

namespace BatchPhase

def isLive : BatchPhase → Bool
  | .assembled | .submitted | .gating | .landing => true
  | _ => false

def isAbandonable (phase : BatchPhase) : Bool := phase.isLive && phase != .landing

def mayBecome (current next : BatchPhase) : Bool :=
  if current = next then true
  else match current, next with
    | .assembled, .submitted | .submitted, .gating | .gating, .landing => true
    | .landing, .landed | .landing, .released => true
    | current, .released | current, .abandoned => current.isAbandonable
    | _, _ => false

def asStr : BatchPhase → String
  | .assembled => "assembled"
  | .submitted => "submitted"
  | .gating => "gating"
  | .landing => "landing"
  | .landed => "landed"
  | .released => "released"
  | .abandoned => "abandoned"

end BatchPhase

structure ResolvedFile where
  path : String
  base : String
  ours : String
  theirs : String
  resolved : String
  deriving DecidableEq, Repr

structure BatchResolution where
  strategy : String
  conflictedWith : List String
  autoMergeTree : String
  files : List ResolvedFile
  deriving DecidableEq, Repr

def BatchResolution.refusal (resolution : BatchResolution) : Option String :=
  if resolution.strategy.isEmpty then some "a resolution names its strategy"
  else if resolution.files.isEmpty then some "a resolution resolves at least one path"
  else if ¬ (resolution.files.map (·.path)).Nodup ∨ "" ∈ resolution.files.map (·.path) then
    some "a resolution resolves each path once"
  else if !pinned resolution.autoMergeTree || resolution.files.any (fun file =>
      [file.base, file.ours, file.theirs, file.resolved].any fun oid => !pinned oid) then
    some "a resolution's trees and blobs are full object ids"
  else none

structure BatchMember where
  story : StoryNo
  storyId : String
  generation : Int
  headCommit : String
  pullRequest : String
  position : Nat
  branch : Option String
  mergeCommit : Option String
  mergeTree : Option String
  resolution : Option BatchResolution
  deriving DecidableEq, Repr

structure BatchPullRequest where
  url : String
  number : Nat
  deriving DecidableEq, Repr

structure BatchGate where
  verdict : String
  tree : Option String
  detail : String
  seconds : Nat
  deriving DecidableEq, Repr

structure BisectionOf where
  parent : String
  prefixLen : Nat
  deriving DecidableEq, Repr

structure VerificationBatch where
  id : String
  project : Int
  head : String
  baseCommit : String
  branch : String
  tip : String
  pullRequest : Option BatchPullRequest
  phase : BatchPhase
  members : List BatchMember
  withdrawn : List StoryNo
  gate : Option BatchGate
  detail : Option String
  bisects : Option BisectionOf
  /-- How many leading members each probe of its bisection merged. -/
  probedPrefixes : List Nat
  retired : Bool
  revision : Int
  updatedAt : String
  deriving DecidableEq, Repr

namespace VerificationBatch

variable (batch : VerificationBatch)

def invalid (why : String) : StoreError :=
  .validation ("verification batch " ++ batch.id ++ ": " ++ why)

def resolutionRefusal : Option String :=
  match batch.members.getLast? with
  | none => none
  | some last =>
      if batch.members.dropLast.any (·.resolution.isSome) then
        some "only the last member's merge carries a resolution"
      else match last.resolution with
        | none => none
        | some resolution =>
            if batch.bisects.isSome then some "a bisection probe carries no resolution"
            else if last.mergeCommit.isNone || last.mergeTree.isNone then
              some "a resolved member records its merge commit and tree"
            else resolution.refusal

def bisectsRefusal : Option String :=
  batch.bisects.bind fun bisects =>
    if bisects.prefixLen < 2 ∨ bisects.prefixLen ≠ batch.members.length then
      some "a bisection probe has exactly its prefix of two or more members"
    else if bisects.parent = batch.id then some "a bisection probe is not its own parent"
    else none

def withdrawnOnce : Bool :=
  decide batch.withdrawn.Nodup &&
    batch.withdrawn.all fun story => batch.members.any fun member => member.story == story

def validate : Except StoreError Unit := do
  refuse (batch.members.length < 2) (batch.invalid "a batch has two or more members")
  refuse (batch.members.head?.map (·.storyId) ≠ some batch.head)
    (batch.invalid "the head is the first member")
  refuse (batch.members.zipIdx.any fun entry => entry.1.position != entry.2)
    (batch.invalid "member positions run 0, 1, 2... in queue order")
  refuse (¬ (batch.members.map (·.story)).Nodup) (batch.invalid "a story is a member once")
  refuse (batch.branch ≠ "storyhook/verify-batch/" ++ batch.id)
    (batch.invalid "the branch is named for the batch id")
  refuse (!batch.withdrawnOnce) (batch.invalid "a withdrawn story is a member, withdrawn once")
  refuse (!pinned batch.baseCommit || !pinned batch.tip || batch.members.any fun member =>
    !pinned member.headCommit) (batch.invalid "base, tip and member heads are full object ids")
  refuse (batch.revision < 0) (batch.invalid "the revision is never negative")
  refuse (batch.members.any fun member => member.mergeCommit.any (fun oid => !pinned oid) ||
    member.mergeTree.any fun oid => !pinned oid)
    (batch.invalid "member merge commits and trees are full object ids")
  refuse ((batch.members.getLast?.bind (·.mergeCommit)).any (· != batch.tip))
    (batch.invalid "the last member's merge commit is the tip")
  batch.resolutionRefusal.forM fun why => .error (batch.invalid why)
  batch.bisectsRefusal.forM fun why => .error (batch.invalid why)
  refuse (batch.probedPrefixes.any fun prefixLen =>
    prefixLen == 0 || prefixLen ≥ batch.members.length)
    (batch.invalid "a bisection probes prefixes shorter than the batch")

def advance (phase : BatchPhase) (now : String) : Except StoreError VerificationBatch :=
  if batch.phase.mayBecome phase then
    .ok { batch with phase := phase, revision := batch.revision + 1, updatedAt := now }
  else
    .error (.validation ("verification batch " ++ batch.id ++ " cannot move from " ++
      batch.phase.asStr ++ " to " ++ phase.asStr))

theorem advance_ok (phase : BatchPhase) (now : String) (next : VerificationBatch)
    (ran : batch.advance phase now = .ok next) :
    next = { batch with phase := phase, revision := batch.revision + 1, updatedAt := now } ∧
      batch.phase.mayBecome phase = true := by
  unfold advance at ran
  split at ran
  · next allowed => exact ⟨(Except.ok.inj ran).symm, allowed⟩
  · cases ran

/-- A record whose members are apart, and whose withdrawn stories are some of them. -/
structure Sound : Prop where
  apart : (batch.members.map (·.story)).Nodup
  once : batch.withdrawn.Nodup
  members : ∀ story ∈ batch.withdrawn, story ∈ batch.members.map (·.story)
  several : 2 ≤ batch.members.length

theorem validate_sound (ran : batch.validate = .ok ()) : batch.Sound := by
  simp only [validate, bind_eq_ok, refuse_ok, decide_eq_false_iff_not, not_not, Nat.not_lt,
    Bool.not_eq_false', withdrawnOnce, Bool.and_eq_true, decide_eq_true_eq, List.all_eq_true,
    List.any_eq_true, beq_iff_eq] at ran
  obtain ⟨_, several, _, _, _, _, _, apart, _, _, _, ⟨once, members⟩, _⟩ := ran
  refine ⟨apart, once, fun story withdrawn => ?_, several⟩
  obtain ⟨member, inside, same⟩ := members story withdrawn
  exact List.mem_map.mpr ⟨member, inside, same⟩

end VerificationBatch

end Storyhook.Store
