import Storyhook.Library.Outcome
import Storyhook.Library.Text

/-! Git remote URLs and the identity keys they reduce to. -/

namespace Storyhook.Domain.Remote

open Library.Outcome Library.Text

abbrev Text := List Char

inductive NormalizeError where
  | empty
  | relativeLocalPath (raw : Text)
  | unclassifiable (raw : Text)
  deriving DecidableEq, Repr

def NormalizeError.message : NormalizeError → String
  | .empty => "a remote url cannot be empty"
  | .relativeLocalPath raw =>
      "`" ++ String.ofList raw ++ "` is a relative path, so it names a different repository " ++
        "depending on where it is read from; register an absolute path or a url"
  | .unclassifiable raw =>
      "`" ++ String.ofList raw ++ "` is not a git remote url this storyhook understands"

structure RemoteUrl where
  raw : Text
  key : Text
  deriving DecidableEq, Repr

/-- Two remotes are equal when their keys are, however they were spelled. -/
instance : BEq RemoteUrl := ⟨fun left right => left.key == right.key⟩

def networkSchemes : List Text :=
  ["https".toList, "http".toList, "ssh".toList, "git".toList]

def localPrefix : Text := "local:/".toList

def stripTrailingEmptyPort (host : Text) : Text := stripSuffix [':'] host

/-- Collapses repeated slashes and strips leading and trailing ones. -/
def normalizePathSegments (path : Text) : Text :=
  ['/'].intercalate ((path.splitOn '/').filter fun segment => !segment.isEmpty)

def hostOf (authority : Text) : Text :=
  match rsplitOnce '@' authority with
  | some (_, host) => host
  | none => authority

def networkKey (authority path raw : Text) : Except NormalizeError Text :=
  let host := hostOf authority
  if host.isEmpty then
    .error (.unclassifiable raw)
  else
    let host := stripTrailingEmptyPort (toAsciiLowercase host)
    if host.isEmpty then
      .error (.unclassifiable raw)
    else
      let path := stripSuffix ".git".toList (toAsciiLowercase (normalizePathSegments path))
      if path.isEmpty then
        .error (.unclassifiable raw)
      else
        .ok (host ++ '/' :: path)

/-- Resolves `.` and `..` lexically; the accumulator holds the segments in reverse. -/
def resolveSegments (raw : Text) : List Text → List Text → Except NormalizeError (List Text)
  | resolved, [] => .ok resolved.reverse
  | resolved, segment :: rest =>
      if segment = [] ∨ segment = ['.'] then
        resolveSegments raw resolved rest
      else if segment = ['.', '.'] then
        match resolved with
        | [] => .error (.unclassifiable raw)
        | _ :: outer => resolveSegments raw outer rest
      else
        resolveSegments raw (segment :: resolved) rest

def localKey (path raw : Text) : Except NormalizeError Text := do
  let resolved ← resolveSegments raw [] (path.splitOn '/')
  if resolved.isEmpty then
    .error (.unclassifiable raw)
  else
    .ok (localPrefix ++ ['/'].intercalate resolved)

/-- Cuts the text just past the `]` of a bracketed host that opens the authority. -/
def bracketedHostEnd (raw : Text) : Except NormalizeError (Option (Text × Text)) :=
  match splitOnce '[' raw with
  | none => .ok none
  | some (userinfo, bracketed) =>
      if userinfo.isEmpty ||
          (userinfo.getLast? == some '@' && !userinfo.contains '/' &&
            !userinfo.contains ':') then
        match splitOnce ']' bracketed with
        | some (address, rest) => .ok (some (userinfo ++ '[' :: address ++ [']'], rest))
        | none => .error (.unclassifiable raw)
      else
        .ok none

def scpLikeSplit (raw : Text) : Except NormalizeError (Option (Text × Text)) := do
  let (host, rest) := (← bracketedHostEnd raw).getD ([], raw)
  match splitOnce ':' rest with
  | none => .ok none
  | some (before, path) =>
      let authority := host ++ before
      if authority.contains '/' then
        .ok none
      else
        .ok (some (authority, path))

/-- The classes of remote `classify` tells apart, each with the parts its key is built of. -/
inductive RemoteClass where
  | network (authority path : Text)
  | filesystem (path : Text)
  deriving DecidableEq, Repr

def remoteClass (raw : Text) : Except NormalizeError RemoteClass := do
  match splitOnceStr "://".toList raw with
  | some (scheme, rest) =>
      let scheme := toAsciiLowercase scheme
      if scheme = "file".toList then
        match ['/'].isPrefixOf? rest with
        | some path => return .filesystem ('/' :: path)
        | none => .error (.unclassifiable raw)
      else if !networkSchemes.contains scheme then
        .error (.unclassifiable raw)
      else
        match splitOnce '/' rest with
        | some (authority, path) => return .network authority path
        | none => .error (.unclassifiable raw)
  | none =>
      match ← scpLikeSplit raw with
      | some (authority, path) => return .network authority path
      | none =>
          if ['/'].isPrefixOf raw then
            return .filesystem raw
          else if "./".toList.isPrefixOf raw || "../".toList.isPrefixOf raw ||
              ['~'].isPrefixOf raw || raw.contains '/' then
            .error (.relativeLocalPath raw)
          else
            .error (.unclassifiable raw)

def classify (raw : Text) : Except NormalizeError Text := do
  match ← remoteClass raw with
  | .network authority path => networkKey authority path raw
  | .filesystem path => localKey path raw

def normalize (raw : Text) : Except NormalizeError RemoteUrl := do
  let trimmed := trim raw
  if trimmed.isEmpty then
    .error .empty
  else
    let key ← classify trimmed
    return ⟨raw, key⟩

def RemoteUrl.networkParts (url : RemoteUrl) : Option (Text × Text) :=
  if localPrefix.isPrefixOf url.key then
    none
  else
    splitOnce '/' url.key

def RemoteUrl.pathOn (url : RemoteUrl) (host : Text) : Option Text := do
  let (keyHost, path) ← url.networkParts
  if toAsciiLowercase keyHost = toAsciiLowercase host then
    some path
  else
    none

theorem normalize_ok (raw : Text) (url : RemoteUrl) :
    normalize raw = .ok url ↔
      trim raw ≠ [] ∧ url.raw = raw ∧
        ∃ found, remoteClass (trim raw) = .ok found ∧
          match found with
          | .network authority path => networkKey authority path (trim raw) = .ok url.key
          | .filesystem path => localKey path (trim raw) = .ok url.key := by
  unfold normalize
  by_cases blank : trim raw = []
  · simp [blank]
  · obtain ⟨urlRaw, key⟩ := url
    simp only [List.isEmpty_iff, if_neg blank, bind_eq_ok, pure_eq_ok, classify,
      RemoteUrl.mk.injEq]
    constructor
    · rintro ⟨found, ⟨shape, classified, keyed⟩, rfl, rfl⟩
      refine ⟨blank, rfl, shape, classified, ?_⟩
      cases shape <;> exact keyed
    · rintro ⟨-, rfl, shape, classified, keyed⟩
      refine ⟨key, ⟨shape, classified, ?_⟩, rfl, rfl⟩
      cases shape <;> exact keyed

def keyHost (authority : Text) : Text :=
  stripTrailingEmptyPort (toAsciiLowercase (hostOf authority))

def keyPath (path : Text) : Text :=
  stripSuffix ".git".toList (toAsciiLowercase (normalizePathSegments path))

theorem networkKey_eq (authority path raw : Text) :
    networkKey authority path raw =
      if keyHost authority = [] ∨ keyPath path = [] then
        .error (.unclassifiable raw)
      else
        .ok (keyHost authority ++ '/' :: keyPath path) := by
  simp only [networkKey, List.isEmpty_iff]
  by_cases blank : hostOf authority = []
  · have noHost : keyHost authority = [] := by rw [keyHost, blank]; decide
    rw [if_pos blank, if_pos (Or.inl noHost)]
  · rw [if_neg blank, ← keyHost, ← keyPath]
    by_cases noHost : keyHost authority = []
    · rw [if_pos noHost, if_pos (Or.inl noHost)]
    · by_cases noPath : keyPath path = []
      · rw [if_neg noHost, if_pos noPath, if_pos (Or.inr noPath)]
      · rw [if_neg noHost, if_neg noPath, if_neg (by simp [noHost, noPath])]

theorem networkKey_ok (authority path raw key : Text) :
    networkKey authority path raw = .ok key ↔
      keyHost authority ≠ [] ∧ keyPath path ≠ [] ∧
        key = keyHost authority ++ '/' :: keyPath path := by
  rw [networkKey_eq]
  split
  · next refused => simp; tauto
  · next accepted => simp [not_or.mp accepted, eq_comm]

theorem localKey_tagged (path raw key : Text) (keyed : localKey path raw = .ok key) :
    localPrefix <+: key := by
  simp only [localKey, bind_eq_ok] at keyed
  obtain ⟨resolved, -, keyed⟩ := keyed
  split at keyed
  · simp at keyed
  · simp only [Except.ok.injEq] at keyed
    exact ⟨_, keyed⟩

theorem scpLikeSplit_authority (raw authority path : Text)
    (found : scpLikeSplit raw = .ok (some (authority, path))) : '/' ∉ authority := by
  simp only [scpLikeSplit, bind_eq_ok] at found
  obtain ⟨cut, -, found⟩ := found
  split at found
  · simp at found
  · split at found
    · simp at found
    · next slashFree =>
        simp only [Except.ok.injEq, Option.some.injEq, Prod.mk.injEq] at found
        obtain ⟨rfl, rfl⟩ := found
        simpa using slashFree

theorem remoteClass_authority (raw authority path : Text)
    (found : remoteClass raw = .ok (.network authority path)) : '/' ∉ authority := by
  unfold remoteClass at found
  split at found
  · next scheme rest _ =>
      simp only at found
      split at found
      · split at found <;> simp [pure, Except.pure] at found
      · split at found
        · simp at found
        · split at found
          · next before after cut =>
              simp only [pure_eq_ok, RemoteClass.network.injEq] at found
              obtain ⟨rfl, rfl⟩ := found
              exact ((splitOnce_eq_some '/' rest before after).mp cut).2
          · simp at found
  · rw [bind_eq_ok] at found
    obtain ⟨cut, split, found⟩ := found
    cases cut with
    | some parts =>
        simp only [pure_eq_ok, RemoteClass.network.injEq] at found
        obtain ⟨rfl, rfl⟩ := found
        exact scpLikeSplit_authority raw parts.1 parts.2 split
    | none =>
        simp only at found
        split at found
        · simp [pure, Except.pure] at found
        · split at found <;> simp at found

end Storyhook.Domain.Remote
