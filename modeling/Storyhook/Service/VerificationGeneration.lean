import Storyhook.Domain.Certification
import Storyhook.Store.Tables

/-! What the log of a story says of its latest stay in `verifying`. -/

namespace Storyhook.Service

open Storyhook.Domain Storyhook.Store

def verificationCleanupCompletePrefix : String := "CENTRAL VERIFICATION CLEANUP COMPLETE —"
def verificationCleanupRequiredPrefix : String := "CENTRAL VERIFICATION CLEANUP REQUIRED —"

inductive ReapMarker where
  | required
  | complete
  deriving DecidableEq, Repr

structure VerificationGeneration (Lease : Type) where
  lease : Option Lease
  landed : Bool
  overridden : Bool
  reapMarker : Option ReapMarker
  deriving DecidableEq, Repr

inductive Evidence where
  | landed
  | overridden
  | reap (marker : ReapMarker)
  deriving DecidableEq, Repr

def evidence (text : String) : Option Evidence :=
  if isGreen text || verificationSkippedPrefix.toList.isPrefixOf text.toList ||
      verificationAlreadyLandedPrefix.toList.isPrefixOf text.toList then some .landed
  else if verificationOverriddenPrefix.toList.isPrefixOf text.toList then some .overridden
  else if verificationCleanupCompletePrefix.toList.isPrefixOf text.toList then
    some (.reap .complete)
  else if verificationCleanupRequiredPrefix.toList.isPrefixOf text.toList then
    some (.reap .required)
  else none

def retracted (events : List StoryEvent) (comment : StoryComment) : Bool :=
  events.any fun event => match event with
    | .storyCommentRetracted _ commentAt text =>
        commentAt == comment.atTime && text == comment.text
    | _ => false

/-- The locals of the loop over a generation's comments. -/
structure GenerationScan where
  landed : Bool
  overridden : Bool
  reapMarker : Option ReapMarker

def GenerationScan.mark (scan : GenerationScan) : Evidence → GenerationScan
  | .landed => { scan with landed := true }
  | .overridden => { scan with overridden := true }
  | .reap marker =>
      if marker = .complete || scan.reapMarker.isNone then { scan with reapMarker := some marker }
      else scan

def scanEvent (after : List StoryEvent) (scan : GenerationScan) : StoryEvent → GenerationScan
  | .storyCommentAdded atTime text =>
      if retracted after ⟨atTime, text⟩ then scan else (evidence text).elim scan scan.mark
  | _ => scan

def knownEvent (event : StoredEvent) : Option StoryEvent :=
  match event.payload with
  | .known decoded => some decoded
  | .unknown _ => none

def entersVerifying (event : StoredEvent) : Bool :=
  (knownEvent event).any fun decoded => (entryAt decoded).isSome

/-- The place of the last event that moves a story into `verifying`. -/
def verifyingIndex (events : List StoredEvent) : Option Nat :=
  (events.reverse.findIdx? entersVerifying).map (events.length - 1 - ·)

/-- The lease an event records; what the record holds is outside the events' payloads here. -/
def recordedLease {Lease : Type} (leaseOf : StoredEvent → Lease) (event : StoredEvent) :
    Option Lease :=
  match knownEvent event with
  | some (.storyCleanupLeaseRecorded _) => some (leaseOf event)
  | _ => none

def latestGeneration {Lease : Type} (leaseOf : StoredEvent → Lease) (events : List StoredEvent) :
    Option (VerificationGeneration Lease) :=
  (verifyingIndex events).map fun index =>
    let after := (events.drop (index + 1)).filterMap knownEvent
    let scan := after.foldl (scanEvent after) ⟨false, false, none⟩
    { lease := (events[index + 1]?).bind (recordedLease leaseOf)
      landed := scan.landed
      overridden := scan.overridden
      reapMarker := scan.reapMarker }

/-- Replaces the last comment with a marker by another, or leaves it where it says the same. -/
def markedCommentEvents (comments : List StoryComment) (marker body now : String) :
    List StoryEvent :=
  let existing := comments.reverse.find? fun comment => marker.toList.isPrefixOf comment.text.toList
  if existing.any (·.text == body) then []
  else (existing.map fun comment =>
    .storyCommentRetracted now comment.atTime comment.text).toList ++ [.storyCommentAdded now body]

def standingSince (events : List StoryEvent) (place : Nat) : List StoryComment :=
  ((liveComments events).filter fun live => place < live.1).map (·.2)

def laterEvents (events : List StoredEvent) (index : Nat) : List StoryEvent :=
  (events.drop (index + 1)).filterMap knownEvent

/-- The comments of a log that stand and were added after one of its places. -/
def standingAfter (events : List StoredEvent) (index : Nat) : List StoryComment :=
  standingSince (events.filterMap knownEvent) ((events.take index).filterMap knownEvent).length

def Stands (kind : Evidence) (comments : List StoryComment) : Prop :=
  ∃ comment ∈ comments, evidence comment.text = some kind

instance (kind : Evidence) (comments : List StoryComment) : Decidable (Stands kind comments) :=
  inferInstanceAs (Decidable (∃ comment ∈ comments, evidence comment.text = some kind))

def markerOf (complete required : Prop) [Decidable complete] [Decidable required] :
    Option ReapMarker :=
  if complete then some .complete else if required then some .required else none

/-- The event at a place is the last that moves the story into `verifying`. -/
def LatestVerifying (events : List StoredEvent) (index : Nat) : Prop :=
  (∃ event ∈ events[index]?, entersVerifying event = true) ∧
    ∀ later ∈ events.drop (index + 1), entersVerifying later = false

/-- The reader says what the comments that stand since the last move into `verifying` say, and has
the lease that the next event records. -/
def GenerationAgrees {Lease : Type} (leaseOf : StoredEvent → Lease) (events : List StoredEvent) :
    Prop :=
  ∀ index, LatestVerifying events index → ∃ generation,
    latestGeneration leaseOf events = some generation ∧
      (generation.landed = true ↔ Stands .landed (standingAfter events index)) ∧
      (generation.overridden = true ↔ Stands .overridden (standingAfter events index)) ∧
      generation.reapMarker = markerOf (Stands (.reap .complete) (standingAfter events index))
        (Stands (.reap .required) (standingAfter events index)) ∧
      generation.lease = (events[index + 1]?).bind (recordedLease leaseOf)

/-- Not every comment of a kind that stands equals one retracted since. -/
def Unrestored (kind : Evidence) (events : List StoredEvent) (index : Nat) : Prop :=
  Stands kind (standingAfter events index) → ∃ comment ∈ standingAfter events index,
    evidence comment.text = some kind ∧ retracted (laterEvents events index) comment = false

instance (kind : Evidence) (events : List StoredEvent) (index : Nat) :
    Decidable (Unrestored kind events index) :=
  inferInstanceAs (Decidable (_ → _))

/-- Of each kind that the comments since the last move into `verifying` show, one stands that was
not restored in the second of its retraction. -/
def EvidenceUnrestored (events : List StoredEvent) : Prop :=
  ∀ index, LatestVerifying events index →
    Unrestored .landed events index ∧ Unrestored .overridden events index ∧
      Unrestored (.reap .complete) events index ∧
      (Stands (.reap .complete) (standingAfter events index) ∨
        Unrestored (.reap .required) events index)

def unretracted (after : List StoryEvent) : List StoryComment :=
  after.filterMap fun event => match event with
    | .storyCommentAdded atTime text =>
        if retracted after ⟨atTime, text⟩ then none else some ⟨atTime, text⟩
    | _ => none

theorem mem_unretracted (after : List StoryEvent) (comment : StoryComment) :
    comment ∈ unretracted after ↔
      StoryEvent.storyCommentAdded comment.atTime comment.text ∈ after ∧
        retracted after comment = false := by
  rw [unretracted, List.mem_filterMap]
  constructor
  · rintro ⟨event, member, counted⟩
    cases event with
    | storyCommentAdded atTime text =>
        simp only at counted
        split at counted
        · cases counted
        · next kept =>
            cases counted
            exact ⟨member, by simpa using kept⟩
    | _ => cases counted
  · rintro ⟨member, kept⟩
    exact ⟨_, member, by simp [kept]⟩

/-! ### The loop -/

def GenerationScan.tell (scan : GenerationScan) (comment : StoryComment) : GenerationScan :=
  (evidence comment.text).elim scan scan.mark

theorem foldl_scanEvent (after events : List StoryEvent) (scan : GenerationScan) :
    events.foldl (scanEvent after) scan =
      (events.filterMap fun event => match event with
        | .storyCommentAdded atTime text =>
            if retracted after ⟨atTime, text⟩ then none else some ⟨atTime, text⟩
        | _ => none).foldl GenerationScan.tell scan := by
  induction events generalizing scan with
  | nil => rfl
  | cons event events same =>
      rw [List.foldl_cons, same, List.filterMap_cons]
      cases event with
      | storyCommentAdded atTime text =>
          simp only [scanEvent]
          cases retracted after ⟨atTime, text⟩ with
          | true => rfl
          | false => rfl
      | _ => rfl

theorem stands_cons (kind : Evidence) (comment : StoryComment) (comments : List StoryComment) :
    Stands kind (comment :: comments) ↔
      evidence comment.text = some kind ∨ Stands kind comments := by
  simp only [Stands, List.mem_cons, exists_eq_or_imp]

theorem tell_flag (flag : GenerationScan → Bool) (kind : Evidence)
    (marks : ∀ scan told, flag (scan.mark told) = (flag scan || decide (told = kind)))
    (comments : List StoryComment) (scan : GenerationScan) :
    flag (comments.foldl GenerationScan.tell scan) = true ↔
      flag scan = true ∨ Stands kind comments := by
  induction comments generalizing scan with
  | nil => simp [Stands]
  | cons comment comments same =>
      rw [List.foldl_cons, same, stands_cons, ← or_assoc, GenerationScan.tell]
      refine or_congr ?_ Iff.rfl
      cases evidence comment.text with
      | none => simp
      | some told => simp [marks]

theorem mark_landed (scan : GenerationScan) (told : Evidence) :
    (scan.mark told).landed = (scan.landed || decide (told = .landed)) := by
  cases told with
  | landed | overridden => simp [GenerationScan.mark]
  | reap marker =>
      simp only [GenerationScan.mark]
      split <;> simp

theorem mark_overridden (scan : GenerationScan) (told : Evidence) :
    (scan.mark told).overridden = (scan.overridden || decide (told = .overridden)) := by
  cases told with
  | landed | overridden => simp [GenerationScan.mark]
  | reap marker =>
      simp only [GenerationScan.mark]
      split <;> simp

theorem markerOf_congr {complete required complete' required' : Prop} [Decidable complete]
    [Decidable required] [Decidable complete'] [Decidable required'] (same : complete ↔ complete')
    (rest : ¬complete → (required ↔ required')) :
    markerOf complete required = markerOf complete' required' := by
  by_cases done : complete
  · rw [markerOf, markerOf, if_pos done, if_pos (same.mp done)]
  · rw [markerOf, markerOf, if_neg done, if_neg (done ∘ same.mpr)]
    exact ite_congr (propext (rest done)) (fun _ => rfl) fun _ => rfl

theorem tell_reapMarker (comments : List StoryComment) (scan : GenerationScan) :
    (comments.foldl GenerationScan.tell scan).reapMarker =
      markerOf (scan.reapMarker = some .complete ∨ Stands (.reap .complete) comments)
        (scan.reapMarker = some .required ∨ Stands (.reap .required) comments) := by
  induction comments generalizing scan with
  | nil =>
      rcases scan with ⟨landed, overridden, _ | _ | _⟩ <;> simp [Stands, markerOf]
  | cons comment comments same =>
      rw [List.foldl_cons, same, GenerationScan.tell]
      rcases told : evidence comment.text with _ | _ | _ | marker
      · exact markerOf_congr (by simp [stands_cons, told]) fun _ => by simp [stands_cons, told]
      · exact markerOf_congr (by simp [stands_cons, told, GenerationScan.mark]) fun _ => by
          simp [stands_cons, told, GenerationScan.mark]
      · exact markerOf_congr (by simp [stands_cons, told, GenerationScan.mark]) fun _ => by
          simp [stands_cons, told, GenerationScan.mark]
      · rcases scan with ⟨landed, overridden, _ | _ | _⟩ <;> cases marker <;>
          refine markerOf_congr ?_ ?_ <;> simp [stands_cons, told, GenerationScan.mark]

/-! ### The comments that stand -/

theorem mem_removeLast_of_not {α : Type} (matching : α → Bool) (entries : List α) (entry : α)
    (member : entry ∈ entries) (other : matching entry = false) :
    entry ∈ removeLast matching entries := by
  rw [removeLast, List.mem_reverse]
  exact (List.mem_eraseP_of_neg (by simp [other])).mpr (List.mem_reverse.mpr member)

theorem retracted_append (events later : List StoryEvent) (comment : StoryComment) :
    retracted (events ++ later) comment = (retracted events comment || retracted later comment) :=
  List.any_append

theorem unretracted_live (before after : List StoryEvent) (comment : StoryComment)
    (plain : parseGitLinkComment comment.text = none)
    (added : StoryEvent.storyCommentAdded comment.atTime comment.text ∈ after)
    (kept : retracted after comment = false) :
    ∃ live ∈ liveComments (before ++ after), before.length ≤ live.1 ∧ live.2 = comment := by
  induction after using List.reverseRecOn with
  | nil => cases added
  | append_singleton after event live =>
      obtain ⟨keptBefore, keptHere⟩ := Bool.or_eq_false_iff.mp (retracted_append _ _ _ ▸ kept)
      rw [liveComments, ← List.append_assoc, live_append]
      rcases List.mem_append.mp added with old | new
      · obtain ⟨entry, member, since, rfl⟩ := live old keptBefore
        refine ⟨entry, ?_, since, rfl⟩
        cases event with
        | storyCommentAdded atTime text =>
            simp only [liveStep]
            split
            · exact member
            · exact List.mem_append_left _ member
        | storyCommentRetracted atTime commentAt text =>
            refine mem_removeLast_of_not _ _ _ member ?_
            simp only [retracted, List.any_cons, List.any_nil, Bool.or_false, Bool.and_eq_false_iff,
              beq_eq_false_iff_ne] at keptHere
            simp only [Bool.and_eq_false_iff, decide_eq_false_iff_not]
            exact keptHere.imp (· ∘ Eq.symm) (· ∘ Eq.symm)
        | _ => exact member
      · obtain rfl := List.mem_singleton.mp new
        refine ⟨((before ++ after).length, comment), ?_, ?_, rfl⟩
        · simp only [liveStep, plain, Option.isSome_none, Bool.false_eq_true, if_false, live_next]
          exact List.mem_append_right _ (List.mem_singleton.mpr rfl)
        · simp

theorem standingSince_added (before after : List StoryEvent) (event : StoryEvent)
    (comment : StoryComment)
    (member : comment ∈ standingSince (before ++ event :: after) before.length) :
    StoryEvent.storyCommentAdded comment.atTime comment.text ∈ after := by
  obtain ⟨live, kept, rfl⟩ := List.mem_map.mp member
  obtain ⟨stands, later⟩ := List.mem_filter.mp kept
  have placed := live_placed _ live stands
  have after := of_decide_eq_true later
  obtain ⟨gap, reached⟩ := Nat.exists_eq_add_of_lt after
  rw [reached, List.getElem?_append_right (by omega)] at placed
  rw [show before.length + gap + 1 - before.length = gap + 1 by omega,
    List.getElem?_cons_succ] at placed
  exact List.mem_of_getElem? placed

theorem evidence_plain (text : String) (kind : Evidence) (told : evidence text = some kind) :
    parseGitLinkComment text = none := by
  rw [parseGitLinkComment]
  rcases spelled : text.toList with _ | ⟨first, rest⟩
  · rfl
  · by_cases bracket : first = '['
    · rw [evidence, isGreen, spelled, bracket] at told
      cases told
    · have other : "[git] ".toList.isPrefixOf? (first :: rest) = none := by
        rw [show "[git] ".toList = '[' :: "git] ".toList by decide, List.isPrefixOf?,
          if_neg (by simpa using Ne.symm bracket)]
      rw [other]
      rfl

/-! ### The last move into `verifying` -/

theorem verifyingIndex_iff (events : List StoredEvent) (index : Nat) :
    verifyingIndex events = some index ↔ LatestVerifying events index := by
  constructor
  · intro latest
    obtain ⟨place, found, rfl⟩ := Option.map_eq_some_iff.mp latest
    obtain ⟨bound, enters, before⟩ := List.findIdx?_eq_some_iff_getElem.mp found
    rw [List.length_reverse] at bound
    rw [List.getElem_reverse] at enters
    refine ⟨⟨_, List.getElem?_eq_getElem _, enters⟩, fun later member => ?_⟩
    obtain ⟨offset, reached, rfl⟩ := List.mem_iff_getElem.mp member
    rw [List.length_drop] at reached
    have other := before (place - 1 - offset) (by omega)
    rw [List.getElem_reverse, Bool.not_eq_true] at other
    rw [List.getElem_drop, ← other]
    congr 2
    omega
  · rintro ⟨⟨event, placed, enters⟩, quiet⟩
    obtain ⟨bound, rfl⟩ := List.getElem?_eq_some_iff.mp placed
    refine Option.map_eq_some_iff.mpr ⟨events.length - 1 - index, ?_, by omega⟩
    refine List.findIdx?_eq_some_iff_getElem.mpr ⟨by rw [List.length_reverse]; omega, ?_, ?_⟩
    · rw [List.getElem_reverse, ← enters]
      congr 2
      omega
    · intro place early
      rw [List.getElem_reverse, Bool.not_eq_true]
      refine quiet _ (List.mem_drop_iff_getElem.mpr
        ⟨events.length - 1 - place - (index + 1), by omega, ?_⟩)
      congr 1
      omega

theorem known_split (events : List StoredEvent) (index : Nat)
    (latest : LatestVerifying events index) : ∃ entry,
    events.filterMap knownEvent =
      (events.take index).filterMap knownEvent ++ entry :: laterEvents events index := by
  obtain ⟨event, placed, enters⟩ := latest.1
  obtain ⟨entry, known, -⟩ := (Option.any_eq_true _ _).mp enters
  refine ⟨entry, ?_⟩
  obtain ⟨bound, rfl⟩ := List.getElem?_eq_some_iff.mp placed
  rw [laterEvents, ← List.filterMap_cons_some known, ← List.filterMap_append,
    List.getElem_cons_drop, List.take_append_drop]

theorem stands_unretracted (events : List StoredEvent) (index : Nat)
    (latest : LatestVerifying events index) (kind : Evidence) :
    Stands kind (unretracted (laterEvents events index)) ↔
      ∃ comment ∈ standingAfter events index, evidence comment.text = some kind ∧
        retracted (laterEvents events index) comment = false := by
  obtain ⟨entry, split⟩ := known_split events index latest
  constructor
  · rintro ⟨comment, counted, told⟩
    obtain ⟨added, kept⟩ := (mem_unretracted _ _).mp counted
    obtain ⟨live, stands, since, rfl⟩ := unretracted_live
      ((events.take index).filterMap knownEvent ++ [entry]) (laterEvents events index) comment
      (evidence_plain _ _ told) added kept
    rw [List.append_assoc, List.singleton_append, ← split] at stands
    rw [List.length_append, List.length_singleton] at since
    exact ⟨live.2, List.mem_map_of_mem (List.mem_filter.mpr ⟨stands, decide_eq_true since⟩), told,
      kept⟩
  · rintro ⟨comment, stands, told, kept⟩
    rw [standingAfter, split] at stands
    exact ⟨comment, (mem_unretracted _ _).mpr ⟨standingSince_added _ _ _ _ stands, kept⟩, told⟩

theorem unrestored_iff (events : List StoredEvent) (index : Nat)
    (latest : LatestVerifying events index) (kind : Evidence) :
    (Stands kind (unretracted (laterEvents events index)) ↔
      Stands kind (standingAfter events index)) ↔ Unrestored kind events index := by
  rw [stands_unretracted events index latest kind]
  constructor
  · exact fun agrees => agrees.mpr
  · exact fun told => ⟨fun ⟨comment, stands, shown, _⟩ => ⟨comment, stands, shown⟩, told⟩

theorem markerOf_agrees {complete required complete' required' : Prop} [Decidable complete]
    [Decidable required] [Decidable complete'] [Decidable required']
    (completes : complete → complete') :
    markerOf complete required = markerOf complete' required' ↔
      (complete ↔ complete') ∧ (complete' ∨ (required ↔ required')) := by
  simp only [markerOf]
  by_cases first : complete <;> by_cases second : complete' <;> by_cases third : required <;>
    by_cases fourth : required' <;> simp_all

/-- The reader agrees with the fold unless what shows something equals a retracted comment. -/
theorem latestGeneration_agrees_iff {Lease : Type} (leaseOf : StoredEvent → Lease)
    (events : List StoredEvent) : GenerationAgrees leaseOf events ↔ EvidenceUnrestored events := by
  refine forall_congr' fun index => forall_congr' fun latest => ?_
  simp only [latestGeneration, (verifyingIndex_iff events index).mpr latest, Option.map_some,
    Option.some.injEq, exists_eq_left', and_true, foldl_scanEvent]
  rw [tell_flag _ _ mark_landed, tell_flag _ _ mark_overridden, tell_reapMarker]
  simp only [Bool.false_eq_true, false_or, reduceCtorEq]
  rw [← unrestored_iff events index latest, ← unrestored_iff events index latest,
    ← unrestored_iff events index latest, ← unrestored_iff events index latest, markerOf_agrees]
  · rfl
  · exact fun counted => ((stands_unretracted events index latest _).mp counted).imp
      fun _ counted => ⟨counted.1, counted.2.1⟩

/-- Within one second a marked comment is added, replaced by another and restored. -/
def restoredLog : List StoredEvent :=
  let first := verificationGreenPrefix ++ " a"
  let second := verificationGreenPrefix ++ " b"
  let now := "2026-01-01T00:00:01Z"
  (.storyStateChanged "2026-01-01T00:00:00Z" verifyingStateSlug ::
    (markedCommentEvents [] verificationGreenPrefix first now ++
      markedCommentEvents [⟨now, first⟩] verificationGreenPrefix second now ++
      markedCommentEvents [⟨now, second⟩] verificationGreenPrefix first now)).zipIdx.map
    fun (event, index) => ⟨index + 1, index + 1, .known event⟩

theorem latestGeneration_misses_restored :
    ¬GenerationAgrees (fun _ : StoredEvent => ()) restoredLog := by
  intro agrees
  obtain ⟨generation, latest, landed, -⟩ := agrees 0 ⟨by decide, by decide⟩
  have unlanded : latestGeneration (fun _ : StoredEvent => ()) restoredLog =
      some ⟨none, false, false, none⟩ := by decide
  cases latest.symm.trans unlanded
  exact Bool.false_ne_true (landed.mpr (by decide))

end Storyhook.Service
