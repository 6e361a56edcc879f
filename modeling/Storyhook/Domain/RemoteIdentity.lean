import Storyhook.Domain.Remote

namespace Storyhook.Domain.Remote

open Library.Outcome Library.Text

def RemoteClass.isFilesystem : RemoteClass → Bool
  | .network .. => false
  | .filesystem _ => true

/-- A network remote whose host is `local` with two trailing colons: one is stripped as an
empty port, and the other completes the class tag. -/
def RemoteClass.keepsLocalTag : RemoteClass → Bool
  | .network authority _ => toAsciiLowercase (hostOf authority) = "local::".toList
  | .filesystem _ => false

/-- The key tells the remote's class, and the two questions asked of it agree. -/
structure ClassTagged (found : RemoteClass) (url : RemoteUrl) : Prop where
  tag : localPrefix <+: url.key ↔ found.isFilesystem
  parts : url.networkParts = none ↔ found.isFilesystem
  paths : (∀ host, url.pathOn host = none) ↔ found.isFilesystem

theorem hostOf_subset (authority : Text) : hostOf authority ⊆ authority := by
  unfold hostOf
  split
  · next found =>
      rw [((rsplitOnce_eq_some '@' authority _ _).mp found).1]
      intro character member
      simp [member]
  · exact List.Subset.refl _

theorem stripSuffix_subset (back text : Text) : stripSuffix back text ⊆ text := by
  by_cases ends : back <:+ text
  · obtain ⟨rest, rfl⟩ := ends
    rw [stripSuffix_append]
    exact List.subset_append_left _ _
  · rw [stripSuffix_eq_self back text ends]
    exact List.Subset.refl _

theorem keyHost_slash (authority : Text) (slashFree : '/' ∉ authority) :
    '/' ∉ keyHost authority := by
  intro member
  have lowered := stripSuffix_subset [':'] _ member
  rw [mem_toAsciiLowercase '/' _ (by decide) (by decide)] at lowered
  exact slashFree (hostOf_subset authority lowered)

theorem localPrefix_key (host repository : Text) (slashFree : '/' ∉ host) :
    localPrefix <+: host ++ '/' :: repository ↔ host = "local:".toList := by
  constructor
  · rintro ⟨rest, shape⟩
    have tagged : splitOnce '/' (host ++ '/' :: repository) = some ("local:".toList, rest) :=
      (splitOnce_eq_some _ _ _ _).mpr ⟨shape.symm, by decide⟩
    have plain : splitOnce '/' (host ++ '/' :: repository) = some (host, repository) :=
      (splitOnce_eq_some _ _ _ _).mpr ⟨rfl, slashFree⟩
    rw [plain] at tagged
    exact congrArg Prod.fst (Option.some.inj tagged)
  · rintro rfl
    exact ⟨repository, rfl⟩

theorem strip_port_eq_tag (host : Text) :
    stripTrailingEmptyPort host = "local:".toList ↔ host = "local::".toList := by
  unfold stripTrailingEmptyPort
  constructor
  · intro stripped
    by_cases ends : [':'] <:+ host
    · obtain ⟨rest, rfl⟩ := ends
      rw [stripSuffix_append] at stripped
      rw [stripped]
      rfl
    · rw [stripSuffix_eq_self [':'] host ends] at stripped
      exact absurd ⟨"local".toList, stripped.symm⟩ ends
  · rintro rfl
    exact stripSuffix_append [':'] "local:".toList

theorem networkParts_tagged (url : RemoteUrl) (tagged : localPrefix <+: url.key) :
    url.networkParts = none :=
  if_pos (List.isPrefixOf_iff_prefix.mpr tagged)

theorem networkParts_untagged (url : RemoteUrl) (host repository : Text)
    (slashFree : '/' ∉ host) (shape : url.key = host ++ '/' :: repository)
    (untagged : ¬ localPrefix <+: url.key) : url.networkParts = some (host, repository) := by
  rw [RemoteUrl.networkParts, if_neg (fun tagged => untagged
    (List.isPrefixOf_iff_prefix.mp tagged)),
    shape]
  exact (splitOnce_eq_some '/' _ host repository).mpr ⟨rfl, slashFree⟩

theorem pathOn_none (url : RemoteUrl) :
    (∀ host, url.pathOn host = none) ↔ url.networkParts = none := by
  unfold RemoteUrl.pathOn
  cases parts : url.networkParts with
  | none => simp
  | some found =>
      simp only [Option.bind_eq_bind, Option.bind_some, reduceCtorEq, iff_false, not_forall]
      exact ⟨found.1, by simp⟩

theorem classTagged_iff (raw : Text) (url : RemoteUrl) (found : RemoteClass)
    (accepted : normalize raw = .ok url) (classified : remoteClass (trim raw) = .ok found) :
    ClassTagged found url ↔ found.keepsLocalTag = false := by
  obtain ⟨-, -, other, same, keyed⟩ := (normalize_ok raw url).mp accepted
  rw [classified, Except.ok.injEq] at same
  subst same
  cases found with
  | filesystem path =>
      have tagged := localKey_tagged path (trim raw) url.key keyed
      have parts := networkParts_tagged url tagged
      exact iff_of_true
        ⟨by simp [tagged, RemoteClass.isFilesystem], by simp [parts, RemoteClass.isFilesystem],
          by rw [pathOn_none]; simp [parts, RemoteClass.isFilesystem]⟩ rfl
  | network authority path =>
      obtain ⟨-, -, shape⟩ := (networkKey_ok authority path (trim raw) url.key).mp keyed
      have slashFree := keyHost_slash authority (remoteClass_authority _ authority path classified)
      have tag : localPrefix <+: url.key ↔
          (RemoteClass.network authority path).keepsLocalTag = true := by
        rw [shape, localPrefix_key _ _ slashFree, keyHost, strip_port_eq_tag]
        exact decide_eq_true_iff.symm
      constructor
      · intro sound
        have untagged : ¬ localPrefix <+: url.key := by
          rw [sound.tag]
          simp [RemoteClass.isFilesystem]
        rw [tag] at untagged
        simpa using untagged
      · intro untagged
        have notTagged : ¬ localPrefix <+: url.key := by
          rw [tag, untagged]
          simp
        have parts := networkParts_untagged url _ _ slashFree shape notTagged
        exact ⟨by simp [notTagged, RemoteClass.isFilesystem],
          by simp [parts, RemoteClass.isFilesystem],
          by rw [pathOn_none]; simp [parts, RemoteClass.isFilesystem]⟩

/-- Two accepted remotes keep their classes apart exactly when neither names the host
`local::`. -/
theorem remote_classes_apart_iff (first second : Text) (firstUrl secondUrl : RemoteUrl)
    (firstClass secondClass : RemoteClass)
    (firstAccepted : normalize first = .ok firstUrl)
    (firstClassified : remoteClass (trim first) = .ok firstClass)
    (secondAccepted : normalize second = .ok secondUrl)
    (secondClassified : remoteClass (trim second) = .ok secondClass) :
    (ClassTagged firstClass firstUrl ∧ ClassTagged secondClass secondUrl ∧
        (firstClass.isFilesystem ≠ secondClass.isFilesystem → (firstUrl == secondUrl) = false)) ↔
      firstClass.keepsLocalTag = false ∧ secondClass.keepsLocalTag = false := by
  rw [← classTagged_iff first firstUrl firstClass firstAccepted firstClassified,
    ← classTagged_iff second secondUrl secondClass secondAccepted secondClassified]
  constructor
  · rintro ⟨firstTagged, secondTagged, -⟩
    exact ⟨firstTagged, secondTagged⟩
  · rintro ⟨firstTagged, secondTagged⟩
    refine ⟨firstTagged, secondTagged, ?_⟩
    intro differ
    by_contra equal
    have sameKey : firstUrl.key = secondUrl.key := by
      rw [Bool.not_eq_false] at equal
      exact eq_of_beq equal
    apply differ
    rw [Bool.eq_iff_iff, ← firstTagged.tag, ← secondTagged.tag, sameKey]

theorem local_host_shares_filesystem_key :
    ∃ network filesystem : RemoteUrl,
      normalize "https://local::/srv/x".toList = .ok network ∧
      remoteClass "https://local::/srv/x".toList =
        .ok (.network "local::".toList "srv/x".toList) ∧
      normalize "/srv/x".toList = .ok filesystem ∧
      remoteClass "/srv/x".toList = .ok (.filesystem "/srv/x".toList) ∧
      (network == filesystem) = true ∧ network.networkParts = none :=
  ⟨⟨"https://local::/srv/x".toList, "local:/srv/x".toList⟩,
    ⟨"/srv/x".toList, "local:/srv/x".toList⟩, rfl, rfl, rfl, rfl, rfl, rfl⟩

theorem network_and_filesystem_apart :
    ∃ network filesystem : RemoteUrl,
      normalize "git@github.com:acme/widgets.git".toList = .ok network ∧
      normalize "file:///acme/widgets".toList = .ok filesystem ∧
      (network == filesystem) = false := by
  let network : RemoteUrl :=
    ⟨"git@github.com:acme/widgets.git".toList, "github.com/acme/widgets".toList⟩
  let filesystem : RemoteUrl := ⟨"file:///acme/widgets".toList, "local:/acme/widgets".toList⟩
  have first : normalize network.raw = .ok network := rfl
  have second : normalize filesystem.raw = .ok filesystem := rfl
  have apart := (remote_classes_apart_iff network.raw filesystem.raw network filesystem
    (.network "git@github.com".toList "acme/widgets.git".toList)
    (.filesystem "/acme/widgets".toList) first rfl second rfl).mpr ⟨rfl, rfl⟩
  exact ⟨network, filesystem, first, second, apart.2.2 (by decide)⟩

end Storyhook.Domain.Remote
