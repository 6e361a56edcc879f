import Storyhook.Domain.FoldStory

/-! The ids that a story's attachments are numbered with. -/

namespace Storyhook.Domain

def addedAttachment : StoryEvent → Option UInt32
  | .storyAttachmentAdded _ id .. => some id
  | _ => none

/-- The ids a history hands out, those of removed attachments among them. -/
def handedOut (events : List StoryEvent) : List UInt32 := events.filterMap addedAttachment

def unboundedNext (ids : List UInt32) : Nat := ids.foldl (fun next id => max next (id.toNat + 1)) 1

def lastAttachmentId : UInt32 := 4294967295

/-- What the counter of a folded story promises. -/
structure FreshNext (events : List StoryEvent) (folded : StorySnapshot) : Prop where
  above : ∀ id ∈ handedOut events, id < folded.nextAttachmentId
  exact : folded.nextAttachmentId.toNat = unboundedNext (handedOut events)
  fresh : folded.nextAttachmentId ∉ handedOut events

section Counter

variable (states : StateCatalog) (events : List StoryEvent)

def nextAfter (next id : UInt32) : UInt32 := max next (id + 1)

theorem foldStep_nextAttachmentId (acc : FoldState) (event : StoryEvent) :
    (foldStep states acc event).nextAttachmentId =
      (addedAttachment event).elim acc.nextAttachmentId (nextAfter acc.nextAttachmentId) := by
  cases event with
  | storyCommentAdded atTime text =>
      simp only [foldStep, foldArm, foldComment, addedAttachment, Option.elim_none]
      split <;> rfl
  | storyStateChanged atTime slug =>
      simp only [foldStep, foldArm, foldStateChange, addedAttachment, Option.elim_none]
      split <;> rfl
  | storyCreatedAsDraft atTime =>
      simp only [foldStep, foldArm, addedAttachment, Option.elim_none]
      split <;> rfl
  | _ => rfl

theorem replay_nextAttachmentId :
    (replay states events).nextAttachmentId = (handedOut events).foldl nextAfter 1 := by
  have onward (acc : FoldState) : (events.foldl (foldStep states) acc).nextAttachmentId =
      (handedOut events).foldl nextAfter acc.nextAttachmentId := by
    induction events generalizing acc with
    | nil => rfl
    | cons event rest further =>
        rw [List.foldl_cons, further, foldStep_nextAttachmentId]
        simp only [handedOut, List.filterMap_cons]
        cases addedAttachment event <;> rfl
  exact onward .initial

theorem nextAfter_toNat (next id : UInt32) (within : id ≠ lastAttachmentId) :
    (nextAfter next id).toNat = max next.toNat (id.toNat + 1) := by
  have below : id.toNat < 4294967295 := by
    have bound := id.toNat_lt
    have apart : id.toNat ≠ 4294967295 := fun same => within (UInt32.toNat_inj.mp same)
    omega
  have added : (id + 1).toNat = id.toNat + 1 := by
    rw [UInt32.toNat_add, UInt32.toNat_one, Nat.mod_eq_of_lt (by omega)]
  change (if next ≤ id + 1 then id + 1 else next).toNat = _
  split
  · next below =>
      have ordered := UInt32.le_iff_toNat_le.mp below
      omega
  · next above =>
      have ordered := mt UInt32.le_iff_toNat_le.mpr above
      omega

theorem counter_toNat (ids : List UInt32) (next : UInt32) (within : lastAttachmentId ∉ ids) :
    (ids.foldl nextAfter next).toNat =
      ids.foldl (fun next id => max next (id.toNat + 1)) next.toNat := by
  induction ids generalizing next with
  | nil => rfl
  | cons id rest further =>
      obtain ⟨fits, others⟩ := not_or.mp (mt List.mem_cons.mpr within)
      rw [List.foldl_cons, List.foldl_cons, further _ others,
        nextAfter_toNat next id (Ne.symm fits)]

theorem unbounded_above (ids : List UInt32) (next : Nat) :
    next ≤ ids.foldl (fun next id => max next (id.toNat + 1)) next ∧
      ∀ id ∈ ids, id.toNat < ids.foldl (fun next id => max next (id.toNat + 1)) next := by
  induction ids generalizing next with
  | nil => exact ⟨Nat.le_refl _, fun _ member => absurd member List.not_mem_nil⟩
  | cons id rest further =>
      obtain ⟨grown, above⟩ := further (max next (id.toNat + 1))
      rw [List.foldl_cons]
      refine ⟨Nat.le_trans (Nat.le_max_left _ _) grown, List.forall_mem_cons.mpr ⟨?_, above⟩⟩
      exact Nat.lt_of_lt_of_le (Nat.lt_succ_self _) (Nat.le_trans (Nat.le_max_right _ _) grown)

end Counter

theorem nextAttachmentId_fresh (id : String) (events : List StoryEvent) (states : StateCatalog)
    (folded : StorySnapshot) (ran : foldStory id events states = .ok folded) :
    FreshNext events folded ↔ lastAttachmentId ∉ handedOut events := by
  obtain ⟨_, _, _, _, _, -, -, -, -, rfl⟩ := (finishFold_ok _ _ _ _).mp ran
  have counted := replay_nextAttachmentId states events
  constructor
  · intro fresh last
    have above := UInt32.lt_iff_toNat_lt.mp (fresh.above _ last)
    have bound := (replay states events).nextAttachmentId.toNat_lt
    exact absurd above (Nat.not_lt.mpr (Nat.le_of_lt_succ bound))
  · intro within
    have exact : (replay states events).nextAttachmentId.toNat = unboundedNext
      (handedOut events) := by
      rw [counted, counter_toNat _ _ within]
      rfl
    have above : ∀ id ∈ handedOut events, id < (replay states events).nextAttachmentId := by
      intro id given
      rw [UInt32.lt_iff_toNat_lt, exact]
      exact (unbounded_above (handedOut events) 1).2 id given
    exact ⟨above, exact, fun given => absurd (above _ given) (UInt32.lt_irrefl _)⟩

def withAttachments (ids : List UInt32) : List StoryEvent :=
  .storyCreated "2026-01-05T10:00:00Z" "first" "todo" ::
    ids.map (.storyAttachmentAdded "2026-01-05T10:00:01Z" · "shot.png" .png 3 "ab")

def onlyTodo : StateCatalog := stateMap [⟨"todo", .open, none, none⟩]

theorem nextAttachmentId_fresh_unordered : ∃ folded,
    foldStory "SH-1" (withAttachments [7, 2]) onlyTodo = .ok folded ∧
      FreshNext (withAttachments [7, 2]) folded := by
  obtain ⟨folded, ran⟩ : ∃ folded, foldStory "SH-1" (withAttachments [7, 2]) onlyTodo = .ok folded :=
    ⟨_, rfl⟩
  exact ⟨folded, ran, (nextAttachmentId_fresh _ _ _ _ ran).mpr (by decide)⟩

/-- After the last id there is, the counter is back at the first. -/
theorem last_id_wraps : ¬ ∀ id events states folded, foldStory id events states = .ok folded →
    FreshNext events folded := by
  intro fresh
  have wrapped := (fresh "SH-1" (withAttachments [lastAttachmentId]) onlyTodo _ rfl).above
    lastAttachmentId (by decide)
  exact absurd wrapped (by decide)

end Storyhook.Domain
