import Storyhook.Domain.RemoteIdentity

namespace Storyhook.Domain.Remote

open Library.Outcome Library.Text

/-- The segments a path keeps once repeated, leading and trailing slashes are dropped. -/
def segments (path : Text) : List Text :=
  (path.splitOn '/').filter fun segment => !segment.isEmpty

/-- Two spellings of one repository path: they differ in slashes only, or one carries a
`.git` that its last piece does not already end in. -/
inductive SameRepository : Text → Text → Prop where
  | slashes (left right : Text) (same : segments left = segments right) :
      SameRepository left right
  | suffixed (path : Text) (front : List Text) (last : Text)
      (pieces : path.splitOn '/' = front ++ [last]) (named : last ≠ [])
      (bare : ¬ ".git".toList <:+ toAsciiLowercase last) :
      SameRepository path (path ++ ".git".toList)
  | unsuffixed (path : Text) (front : List Text) (last : Text)
      (pieces : path.splitOn '/' = front ++ [last]) (named : last ≠ [])
      (bare : ¬ ".git".toList <:+ toAsciiLowercase last) :
      SameRepository (path ++ ".git".toList) path

/-- A path that ends in `.git` already, and one more `.git`. -/
def Resuffixed (path other : Text) : Prop :=
  ".git".toList <:+ toAsciiLowercase path ∧ other = path ++ ".git".toList

theorem segment_clear (path segment : Text) (member : segment ∈ segments path) :
    segment ≠ [] ∧ '/' ∉ segment := by
  obtain ⟨piece, named⟩ := List.mem_filter.mp member
  exact ⟨by simpa using named, not_mem_of_mem_splitOn '/' path segment piece⟩

theorem keyPath_segments (path : Text) (front : List Text) (last : Text)
    (pieces : segments path = front ++ [last]) :
    keyPath path = ['/'].intercalate
      (front.map toAsciiLowercase ++ [stripSuffix ".git".toList (toAsciiLowercase last)]) := by
  have joined : normalizePathSegments path = ['/'].intercalate (front ++ [last]) := by
    rw [← pieces]
    rfl
  rw [keyPath, joined, toAsciiLowercase_intercalate '/' (by decide), List.map_append,
    List.map_singleton, stripSuffix_intercalate '/' ".git".toList (by decide)]

theorem segments_suffixed (path : Text) (front : List Text) (last : Text)
    (pieces : path.splitOn '/' = front ++ [last]) (named : last ≠ []) :
    segments path = front.filter (fun segment => !segment.isEmpty) ++ [last] ∧
      segments (path ++ ".git".toList) =
        front.filter (fun segment => !segment.isEmpty) ++ [last ++ ".git".toList] := by
  have lengthened := splitOn_append '/' path ".git".toList last front pieces (by decide)
  constructor
  · simp [segments, pieces, named]
  · rw [segments, lengthened, List.filter_append]
    simp [named]

theorem keyPath_suffixed (path : Text) (front : List Text) (last : Text)
    (pieces : path.splitOn '/' = front ++ [last]) (named : last ≠ [])
    (bare : ¬ ".git".toList <:+ toAsciiLowercase last) :
    keyPath (path ++ ".git".toList) = keyPath path := by
  obtain ⟨plain, suffixed⟩ := segments_suffixed path front last pieces named
  have lowered : toAsciiLowercase (last ++ ".git".toList) =
      toAsciiLowercase last ++ ".git".toList := by
    simp only [toAsciiLowercase, List.map_append]
    rfl
  rw [keyPath_segments _ _ _ suffixed, keyPath_segments _ _ _ plain, lowered,
    stripSuffix_append, stripSuffix_eq_self _ _ bare]

theorem toAsciiLowercase_append (front back : Text) :
    toAsciiLowercase (front ++ back) = toAsciiLowercase front ++ toAsciiLowercase back :=
  List.map_append

theorem suffixed_piece (path : Text) (ends : ".git".toList <:+ toAsciiLowercase path) :
    ∃ front last, path.splitOn '/' = front ++ [last] ∧ last ≠ [] ∧
      ".git".toList <:+ toAsciiLowercase last := by
  obtain ⟨kept, shape⟩ := ends
  obtain ⟨earlier, back, rfl, -, lowered⟩ := List.map_eq_append_iff.mp shape.symm
  have clear : '/' ∉ back := by
    rw [← mem_toAsciiLowercase '/' back (by decide) (by decide)]
    rw [toAsciiLowercase, lowered]
    decide
  have some : earlier.splitOn '/' ≠ [] := List.splitOn_ne_nil '/' earlier
  obtain ⟨front, last, pieces⟩ := List.eq_nil_or_concat' _ |>.resolve_left some
  refine ⟨front, last ++ back, splitOn_append '/' earlier back last front pieces clear, ?_, ?_⟩
  · intro blank
    rw [(List.append_eq_nil_iff.mp blank).2] at lowered
    cases lowered
  · rw [toAsciiLowercase_append]
    exact ⟨toAsciiLowercase last, by rw [← lowered]; rfl⟩

theorem keyPath_resuffixed (path : Text) (ends : ".git".toList <:+ toAsciiLowercase path) :
    keyPath (path ++ ".git".toList) = keyPath path ++ ".git".toList := by
  obtain ⟨front, last, pieces, named, suffixed⟩ := suffixed_piece path ends
  obtain ⟨plain, longer⟩ := segments_suffixed path front last pieces named
  obtain ⟨kept, shape⟩ := suffixed
  rw [keyPath_segments _ _ _ longer, keyPath_segments _ _ _ plain, toAsciiLowercase_append,
    show toAsciiLowercase ".git".toList = ".git".toList from rfl, stripSuffix_append, ← shape,
    stripSuffix_append, intercalate_concat, intercalate_concat, List.append_assoc]

theorem keyPath_stripped (path : Text) :
    toAsciiLowercase (['/'].intercalate (segments path)) =
      keyPath path ++ if ".git".toList <:+ toAsciiLowercase (['/'].intercalate (segments path))
        then ".git".toList else [] := by
  have shape : keyPath path =
    stripSuffix ".git".toList (toAsciiLowercase (['/'].intercalate (segments path))) := rfl
  split_ifs with ends
  · obtain ⟨kept, joined⟩ := ends
    rw [shape, ← joined, stripSuffix_append]
  · rw [shape, stripSuffix_eq_self _ _ ends, List.append_nil]

theorem keyPath_same (left right : Text) (same : SameRepository left right) :
    keyPath left = keyPath right := by
  cases same with
  | slashes _ _ same =>
      have joined : normalizePathSegments left = normalizePathSegments right :=
        congrArg (['/'].intercalate) same
      rw [keyPath, keyPath, joined]
  | suffixed _ front last pieces named bare =>
      exact (keyPath_suffixed left front last pieces named bare).symm
  | unsuffixed _ front last pieces named bare =>
      exact keyPath_suffixed right front last pieces named bare

theorem keyPath_canonical (path : Text) (present : keyPath path ≠ [])
    (named : ∀ last ∈ (segments path).getLast?, toAsciiLowercase last ≠ ".git".toList) :
    ∃ pieces : List Text, pieces ≠ [] ∧ (∀ piece ∈ pieces, piece ≠ [] ∧ '/' ∉ piece) ∧
      keyPath path = ['/'].intercalate pieces := by
  have clear := segment_clear path
  cases pieces : segments path using List.reverseRecOn with
  | nil =>
      have blank : keyPath path = [] := by
        have joined : normalizePathSegments path = [] := congrArg (['/'].intercalate) pieces
        rw [keyPath, joined]
        rfl
      exact absurd blank present
  | append_singleton front last =>
      rw [pieces] at clear named
      refine ⟨_, ?_, ?_, keyPath_segments path front last pieces⟩
      · simp
      · intro piece member
        rcases List.mem_append.mp member with earlier | final
        · obtain ⟨segment, source, rfl⟩ := List.mem_map.mp earlier
          have whole := clear segment (List.mem_append_left _ source)
          refine ⟨by simpa [toAsciiLowercase] using whole.1, ?_⟩
          rw [mem_toAsciiLowercase '/' _ (by decide) (by decide)]
          exact whole.2
        · rw [List.mem_singleton.mp final]
          have whole := clear last (by simp)
          have notSuffix := named last (by simp)
          constructor
          · intro stripped
            by_cases ends : ".git".toList <:+ toAsciiLowercase last
            · obtain ⟨rest, shape⟩ := ends
              rw [← shape, stripSuffix_append] at stripped
              rw [stripped] at shape
              exact notSuffix shape.symm
            · rw [stripSuffix_eq_self _ _ ends] at stripped
              exact whole.1 (by simpa [toAsciiLowercase] using stripped)
          · intro member
            have lowered := stripSuffix_subset _ _ member
            rw [mem_toAsciiLowercase '/' _ (by decide) (by decide)] at lowered
            exact whole.2 lowered

theorem hostOf_suffix (authority : Text) : hostOf authority <:+ authority := by
  unfold hostOf
  split
  · next before host found =>
      rw [((rsplitOnce_eq_some '@' authority before host).mp found).1]
      exact ⟨before ++ ['@'], by simp⟩
  · exact List.suffix_refl _

theorem hostOf_userinfo (authority : Text) : '@' ∉ hostOf authority := by
  unfold hostOf
  split
  · next before host found =>
      exact ((rsplitOnce_eq_some '@' authority before host).mp found).2
  · next found => exact (rsplitOnce_eq_none '@' authority).mp found

theorem keyHost_userinfo (authority : Text) : '@' ∉ keyHost authority := by
  intro member
  have lowered := stripSuffix_subset [':'] _ member
  rw [mem_toAsciiLowercase '@' _ (by decide) (by decide)] at lowered
  exact hostOf_userinfo authority lowered

theorem keyHost_lowercase (authority : Text) :
    toAsciiLowercase (keyHost authority) = keyHost authority := by
  have lowered (character : Char) (member : character ∈ keyHost authority) :
      character.toLower = character := by
    have source := stripSuffix_subset [':'] _ member
    obtain ⟨original, -, rfl⟩ := List.mem_map.mp source
    exact toLower_toLower original
  exact (List.map_congr_left lowered).trans (List.map_id _)

theorem keyHost_colon (authority : Text) (single : ¬ [':', ':'] <:+ authority) :
    ¬ [':'] <:+ keyHost authority := by
  rintro ⟨rest, kept⟩
  unfold keyHost stripTrailingEmptyPort at kept
  by_cases ends : [':'] <:+ toAsciiLowercase (hostOf authority)
  · obtain ⟨host, shape⟩ := ends
    rw [← shape, stripSuffix_append] at kept
    rw [← kept, List.append_assoc] at shape
    obtain ⟨front, colons, source, -, lowered⟩ := List.map_eq_append_iff.mp shape.symm
    have doubled : colons = [':', ':'] := by
      have colon (character : Char) (found : character.toLower = ':') : character = ':' :=
        (toLower_eq_iff character ':' (by decide) (by decide)).mp found
      obtain ⟨first, tail, rfl, firstColon, tailColon⟩ := List.map_eq_cons_iff.mp lowered
      obtain ⟨second, others, rfl, secondColon, done⟩ := List.map_eq_cons_iff.mp tailColon
      rw [colon first firstColon, colon second secondColon, List.map_eq_nil_iff.mp done]
    exact single ((doubled ▸ ⟨front, source.symm⟩ : [':', ':'] <:+ hostOf authority).trans
      (hostOf_suffix authority))
  · rw [stripSuffix_eq_self [':'] _ ends] at kept
    exact ends ⟨rest, kept⟩

theorem normalize_network (raw authority path : Text) (url : RemoteUrl)
    (accepted : normalize raw = .ok url)
    (classified : remoteClass (trim raw) = .ok (.network authority path)) :
    trim raw ≠ [] ∧ keyHost authority ≠ [] ∧ keyPath path ≠ [] ∧
      url.key = keyHost authority ++ '/' :: keyPath path := by
  obtain ⟨present, -, found, same, keyed⟩ := (normalize_ok raw url).mp accepted
  rw [classified, Except.ok.injEq] at same
  subst same
  exact ⟨present, (networkKey_ok authority path (trim raw) url.key).mp keyed⟩

theorem normalize_spelling (raw other authority path otherPath : Text) (url : RemoteUrl)
    (accepted : normalize raw = .ok url)
    (classified : remoteClass (trim raw) = .ok (.network authority path))
    (otherClassified : remoteClass (trim other) = .ok (.network authority otherPath))
    (same : SameRepository path otherPath) :
    ∃ otherUrl, normalize other = .ok otherUrl ∧ (otherUrl == url) = true := by
  obtain ⟨-, named, present, shape⟩ := normalize_network raw authority path url accepted classified
  rw [keyPath_same path otherPath same] at present shape
  have nonempty : trim other ≠ [] := by
    intro blank
    have refused : remoteClass [] = .error (.unclassifiable []) := rfl
    rw [blank, refused] at otherClassified
    cases otherClassified
  refine ⟨⟨other, url.key⟩, (normalize_ok other _).mpr ⟨nonempty, rfl, _, otherClassified, ?_⟩, ?_⟩
  · exact (networkKey_ok authority otherPath (trim other) url.key).mpr ⟨named, present, shape⟩
  · exact BEq.rfl (a := url.key)

theorem normalize_resuffixed (raw other authority path otherPath : Text) (url otherUrl : RemoteUrl)
    (accepted : normalize raw = .ok url) (otherAccepted : normalize other = .ok otherUrl)
    (classified : remoteClass (trim raw) = .ok (.network authority path))
    (otherClassified : remoteClass (trim other) = .ok (.network authority otherPath))
    (twice : Resuffixed path otherPath) : (otherUrl == url) = false := by
  obtain ⟨ends, rfl⟩ := twice
  obtain ⟨-, -, -, shape⟩ := normalize_network raw authority path url accepted classified
  obtain ⟨-, -, -, longer⟩ :=
    normalize_network other authority _ otherUrl otherAccepted otherClassified
  have apart : otherUrl.key ≠ url.key := by
    intro same
    rw [shape, longer, keyPath_resuffixed path ends] at same
    have lengths := congrArg List.length same
    simp at lengths
  show (otherUrl.key == url.key) = false
  exact beq_eq_false_iff_ne.mpr apart

/-- A network key is a lowered host and a repository path. The host keeps no trailing colon
unless its authority ends in two; the path is made of non-empty segments unless the last is
`.git` itself; neither slashes nor one final `.git` change the key, and a second one does. -/
theorem network_key_canonical (raw authority path : Text) (url : RemoteUrl)
    (accepted : normalize raw = .ok url)
    (classified : remoteClass (trim raw) = .ok (.network authority path)) :
    ∃ host repository : Text,
      url.key = host ++ '/' :: repository ∧
      host ≠ [] ∧ toAsciiLowercase host = host ∧ '@' ∉ host ∧ '/' ∉ host ∧
      (¬ [':', ':'] <:+ authority → ¬ [':'] <:+ host) ∧
      ((∀ last ∈ (segments path).getLast?, toAsciiLowercase last ≠ ".git".toList) →
        ∃ pieces : List Text, pieces ≠ [] ∧ (∀ piece ∈ pieces, piece ≠ [] ∧ '/' ∉ piece) ∧
          repository = ['/'].intercalate pieces) ∧
      (∀ other otherPath : Text,
        remoteClass (trim other) = .ok (.network authority otherPath) →
        SameRepository path otherPath →
        ∃ otherUrl, normalize other = .ok otherUrl ∧ (otherUrl == url) = true) ∧
      (toAsciiLowercase (['/'].intercalate (segments path)) =
        repository ++ if ".git".toList <:+ toAsciiLowercase (['/'].intercalate (segments path))
          then ".git".toList else []) ∧
      ∀ (other otherPath : Text) (otherUrl : RemoteUrl),
        remoteClass (trim other) = .ok (.network authority otherPath) →
        Resuffixed path otherPath → normalize other = .ok otherUrl → (otherUrl == url) = false := by
  obtain ⟨-, named, present, shape⟩ := normalize_network raw authority path url accepted classified
  refine ⟨keyHost authority, keyPath path, shape, named, keyHost_lowercase authority,
    keyHost_userinfo authority,
    keyHost_slash authority (remoteClass_authority _ authority path classified),
    keyHost_colon authority, keyPath_canonical path present, ?_, keyPath_stripped path, ?_⟩
  · intro other otherPath otherClassified same
    exact normalize_spelling raw other authority path otherPath url accepted classified
      otherClassified same
  · intro other otherPath otherUrl otherClassified twice otherAccepted
    exact normalize_resuffixed raw other authority path otherPath url otherUrl accepted
      otherAccepted classified otherClassified twice

theorem repository_named_git_stays_distinct :
    ∃ once twice : RemoteUrl,
      normalize "https://h/a/repo.git".toList = .ok once ∧
      normalize "https://h/a/repo.git.git".toList = .ok twice ∧
      (once == twice) = false :=
  ⟨⟨"https://h/a/repo.git".toList, "h/a/repo".toList⟩,
    ⟨"https://h/a/repo.git.git".toList, "h/a/repo.git".toList⟩, rfl, rfl, rfl⟩

theorem slashes_and_suffix_share_key :
    ∃ url otherUrl twice : RemoteUrl,
      normalize "https://Me@GitHub.com:/acme//Widgets.git/".toList = .ok url ∧
      normalize "https://Me@GitHub.com:/acme/Widgets.git".toList = .ok otherUrl ∧
      (otherUrl == url) = true ∧
      normalize "https://Me@GitHub.com:/acme/Widgets.git.git".toList = .ok twice ∧
      (twice == otherUrl) = false := by
  have accepted : normalize "https://Me@GitHub.com:/acme//Widgets.git/".toList = .ok
      ⟨"https://Me@GitHub.com:/acme//Widgets.git/".toList, "github.com/acme/widgets".toList⟩ := rfl
  have plain : normalize "https://Me@GitHub.com:/acme/Widgets.git".toList = .ok
      ⟨"https://Me@GitHub.com:/acme/Widgets.git".toList, "github.com/acme/widgets".toList⟩ := rfl
  have doubled : normalize "https://Me@GitHub.com:/acme/Widgets.git.git".toList = .ok
      ⟨"https://Me@GitHub.com:/acme/Widgets.git.git".toList,
        "github.com/acme/widgets.git".toList⟩ := rfl
  obtain ⟨_, _, _, _, _, _, _, _, _, spelled, -, -⟩ := network_key_canonical _
    "Me@GitHub.com:".toList "acme//Widgets.git/".toList _ accepted rfl
  obtain ⟨otherUrl, otherAccepted, equal⟩ := spelled
    "https://Me@GitHub.com:/acme/Widgets.git".toList "acme/Widgets.git".toList rfl
    (.slashes _ _ rfl)
  obtain ⟨_, _, _, _, _, _, _, _, _, -, -, apart⟩ := network_key_canonical _
    "Me@GitHub.com:".toList "acme/Widgets.git".toList _ plain rfl
  rw [plain, Except.ok.injEq] at otherAccepted
  subst otherAccepted
  exact ⟨_, _, _, accepted, plain, equal, doubled, apart _ "acme/Widgets.git.git".toList _ rfl
    ⟨⟨"acme/widgets".toList, rfl⟩, rfl⟩ doubled⟩

end Storyhook.Domain.Remote
