import Storyhook.Domain.BlockerAdmission

namespace Storyhook.Domain

open Library.Text

def verificationGreenPrefix : String := "CENTRAL VERIFICATION GREEN —"
def verificationSkippedPrefix : String := "CENTRAL VERIFICATION SKIPPED —"
def verificationAlreadyLandedPrefix : String := "CENTRAL VERIFICATION ALREADY LANDED —"
def verificationOverriddenPrefix : String := "CENTRAL VERIFICATION OVERRIDDEN —"

def isGreen (text : String) : Bool := verificationGreenPrefix.toList.isPrefixOf text.toList

def carriesVerdict (text : String) : Bool :=
  isGreen text || verificationSkippedPrefix.toList.isPrefixOf text.toList ||
    verificationAlreadyLandedPrefix.toList.isPrefixOf text.toList ||
    verificationOverriddenPrefix.toList.isPrefixOf text.toList

def entryAt : StoryEvent → Option String
  | .storyStateChanged atTime state => if state = verifyingStateSlug then some atTime else none
  | _ => none

/-- The place in a history of its last move into `verifying`, and the time of it. -/
def latestEntry (events : List StoryEvent) : Option (Nat × String) :=
  events.zipIdx.reverse.findSome? fun (event, index) => (entryAt event).map (index, ·)

/-- The comments not retracted so far, each with its place, and the place of the next event. -/
def liveStep (acc : Nat × List (Nat × StoryComment)) (event : StoryEvent) :
    Nat × List (Nat × StoryComment) :=
  (acc.1 + 1, match event with
    | .storyCommentAdded atTime text =>
        if (parseGitLinkComment text).isSome then acc.2 else acc.2 ++ [(acc.1, ⟨atTime, text⟩)]
    | .storyCommentRetracted _ commentAt text =>
        removeLast (fun entry => entry.2.atTime = commentAt && entry.2.text = text) acc.2
    | _ => acc.2)

def liveComments (events : List StoryEvent) : List (Nat × StoryComment) :=
  (events.foldl liveStep (0, [])).2

/-- A GREEN that still stands comes after the last move into `verifying`. -/
def GreenSinceEntry (events : List StoryEvent) : Prop :=
  ∃ entry ∈ latestEntry events, ∃ live ∈ liveComments events,
    entry.1 < live.1 ∧ isGreen live.2.text = true

/-- The history has a move into `verifying`, and every GREEN that still stands before the last one
is dated before it too. -/
def Timely (events : List StoryEvent) : Prop :=
  ∃ entry ∈ latestEntry events, ∀ live ∈ liveComments events, isGreen live.2.text = true →
    live.1 < entry.1 → live.2.atTime < entry.2

instance (events : List StoryEvent) : Decidable (GreenSinceEntry events) :=
  inferInstanceAs (Decidable (∃ entry ∈ latestEntry events, ∃ live ∈ liveComments events,
    entry.1 < live.1 ∧ isGreen live.2.text = true))

instance (events : List StoryEvent) : Decidable (Timely events) :=
  inferInstanceAs (Decidable (∃ entry ∈ latestEntry events, ∀ live ∈ liveComments events,
    isGreen live.2.text = true → live.1 < entry.1 → live.2.atTime < entry.2))

theorem removeLast_map {α β : Type} (change : α → β) (matching : β → Bool) (entries : List α) :
    removeLast matching (entries.map change) =
      (removeLast (matching ∘ change) entries).map change := by
  rw [removeLast, removeLast, ← List.map_reverse, List.eraseP_map, List.map_reverse]

theorem mem_removeLast {α : Type} (matching : α → Bool) (entries : List α) (entry : α)
    (member : entry ∈ removeLast matching entries) : entry ∈ entries := by
  rw [removeLast, List.mem_reverse] at member
  exact List.mem_reverse.mp (List.mem_of_mem_eraseP member)

theorem live_append (events : List StoryEvent) (event : StoryEvent) :
    (events ++ [event]).foldl liveStep (0, []) = liveStep (events.foldl liveStep (0, [])) event :=
  List.foldl_concat ..

theorem live_next (events : List StoryEvent) :
    (events.foldl liveStep (0, [])).1 = events.length := by
  induction events using List.reverseRecOn with
  | nil => rfl
  | append_singleton events event same =>
      rw [live_append, List.length_append, ← same]
      rfl

theorem replay_comments (states : StateCatalog) (events : List StoryEvent) :
    (replay states events).comments = (liveComments events).map (·.2) := by
  induction events using List.reverseRecOn with
  | nil => rfl
  | append_singleton events event same =>
      rw [replay_append, liveComments, live_append]
      cases event with
      | storyCommentAdded atTime text =>
          simp only [foldStep, foldArm, foldComment, liveStep]
          cases parseGitLinkComment text with
          | none =>
              simp only [Option.isSome_none, Bool.false_eq_true, if_false, List.map_append, same]
              rfl
          | some link =>
              simp only [Option.isSome_some, if_true]
              exact same
      | storyCommentRetracted atTime commentAt text =>
          simp only [foldStep, foldArm, liveStep, same]
          exact removeLast_map _ _ _
      | storyStateChanged atTime state =>
          simp only [foldStep, foldArm, foldStateChange, liveStep]
          split <;> exact same
      | storyCreatedAsDraft atTime =>
          simp only [foldStep, foldArm, liveStep]
          split <;> exact same
      | _ => exact same

theorem live_placed (events : List StoryEvent) (live : Nat × StoryComment)
    (member : live ∈ liveComments events) :
    events[live.1]? = some (.storyCommentAdded live.2.atTime live.2.text) := by
  induction events using List.reverseRecOn with
  | nil => cases member
  | append_singleton events event placed =>
      have earlier (old : live ∈ liveComments events) :
          (events ++ [event])[live.1]? = some (.storyCommentAdded live.2.atTime live.2.text) := by
        have there := placed old
        rw [List.getElem?_append_left (List.getElem?_eq_some_iff.mp there).1, there]
      rw [liveComments, live_append] at member
      cases event with
      | storyCommentAdded atTime text =>
          simp only [liveStep] at member
          split at member
          · exact earlier member
          · rcases List.mem_append.mp member with old | new
            · exact earlier old
            · obtain rfl := List.mem_singleton.mp new
              rw [live_next, List.getElem?_concat_length]
      | storyCommentRetracted atTime commentAt text =>
          exact earlier (mem_removeLast _ _ _ member)
      | _ => exact earlier member

theorem latestEntry_placed (events : List StoryEvent) (entry : Nat × String)
    (latest : latestEntry events = some entry) :
    events[entry.1]? = some (.storyStateChanged entry.2 verifyingStateSlug) := by
  obtain ⟨⟨event, index⟩, member, found⟩ := List.exists_of_findSome?_eq_some latest
  obtain ⟨atTime, enters, rfl⟩ := Option.map_eq_some_iff.mp found
  have placed := List.mem_zipIdx_iff_getElem?.mp (List.mem_reverse.mp member)
  cases event with
  | storyStateChanged time state =>
      rw [entryAt] at enters
      split at enters
      · next verifying =>
          cases enters
          rw [← verifying]
          exact placed
      · cases enters
  | _ => cases enters

theorem latestEntry_time (events : List StoryEvent) :
    (latestEntry events).map (·.2) = events.reverse.findSome? entryAt := by
  induction events using List.reverseRecOn with
  | nil => rfl
  | append_singleton events event same =>
      rw [latestEntry, List.zipIdx_append, List.reverse_append, List.reverse_append]
      simp only [List.zipIdx_singleton, List.reverse_singleton, List.singleton_append,
        List.findSome?_cons]
      cases entryAt event with
      | some atTime => rfl
      | none => exact same

/-- Where the clock went on between each GREEN and the next move into `verifying`, a GREEN that is
dated since the last move stands after it. -/
theorem Timely.since (events : List StoryEvent) (timely : Timely events) (live : Nat × StoryComment)
    (member : live ∈ liveComments events) (green : isGreen live.2.text = true)
    (dated : ∀ atTime ∈ events.reverse.findSome? entryAt, atTime ≤ live.2.atTime) :
    GreenSinceEntry events := by
  obtain ⟨entry, latest, before⟩ := timely
  refine ⟨entry, latest, live, member, ?_, green⟩
  have placed := live_placed events live member
  have entered := latestEntry_placed events entry latest
  have time : entry.2 ≤ live.2.atTime := dated entry.2 (by
    rw [← latestEntry_time, Option.mem_def.mp latest]
    rfl)
  rcases Nat.lt_trichotomy live.1 entry.1 with early | same | late
  · exact absurd (before live member green early) (String.not_lt.mpr time)
  · rw [same, entered] at placed
    cases placed
  · exact late

end Storyhook.Domain
