import Mathlib.Logic.Relation
import Storyhook.Domain.BlockerFloor
import Storyhook.Domain.EpicProjection

/-! Which stories wait for a person, over any graph of blockers. -/

namespace Storyhook.Domain

open Storyhook.Library
open Relation

section Spec

variable (index : StoryIndex)

def OpenStory (id : String) : Prop :=
  ∃ story, index.story id = some story ∧ story.superstate = .open

def Flagged (id : String) : Prop :=
  ∃ story, index.story id = some story ∧ story.superstate = .open ∧
    (story.state = "blocked" ∨ story.awaiting.isSome = true ∨ story.draft = true ∨
      ∃ relation ∈ story.relationships, relation.relation = "obviated-by")

def WaitsOn (id other : String) : Prop :=
  (∃ story, index.story id = some story ∧ story.superstate = .open ∧
    StoryRelation.mk "blocked-by" other ∈ story.relationships) ∧ OpenStory index other

/-- An open story from which a walk through open stories reaches a flagged one or a cycle. -/
def NeedsPerson (id : String) : Prop :=
  OpenStory index id ∧ ∃ other, ReflTransGen (WaitsOn index) id other ∧
    (Flagged index other ∨ TransGen (WaitsOn index) other other)

variable (id other : String)

theorem WaitsOn.source (waits : WaitsOn index id other) : OpenStory index id := by
  obtain ⟨⟨story, found, isOpen, -⟩, -⟩ := waits
  exact ⟨story, found, isOpen⟩

theorem NeedsPerson.back (waits : WaitsOn index id other) (needs : NeedsPerson index other) :
    NeedsPerson index id := by
  obtain ⟨-, last, path, why⟩ := needs
  exact ⟨waits.source, last, path.head waits, why⟩

theorem NeedsPerson.cases (needs : NeedsPerson index id) :
    Flagged index id ∨ ∃ other, WaitsOn index id other ∧ NeedsPerson index other := by
  obtain ⟨-, last, path, why⟩ := needs
  rcases ReflTransGen.cases_head path with rfl | ⟨next, waits, onward⟩
  · rcases why with flagged | cycle
    · exact .inl flagged
    · obtain ⟨next, waits, around⟩ := TransGen.head'_iff.mp cycle
      exact .inr ⟨next, waits, waits.2, id, around, .inr cycle⟩
  · exact .inr ⟨next, waits, waits.2, last, onward, why⟩

end Spec

section Walk

variable (index : StoryIndex)

def MemoRight (memo : Std.TreeMap String Bool) : Prop :=
  ∀ (id : String) (known : Bool), memo[id]? = some known →
    (known = true ↔ NeedsPerson index id)

def blockFacts (id : String) : Option BlockFacts := (index.story id).map .of

variable (memo : Std.TreeMap String Bool)

theorem MemoRight.insert (right : MemoRight index memo) (id : String) (answer : Bool)
    (exact : answer = true ↔ NeedsPerson index id) : MemoRight index (memo.insert id answer) := by
  intro other known recorded
  rw [Std.TreeMap.getElem?_insert] at recorded
  split at recorded
  · next same =>
      cases recorded
      rwa [← Std.LawfulEqOrd.eq_of_compare same]
  · exact right other known recorded

theorem anyBlocker_right
    (walk : BlockFacts → Std.TreeMap String Bool → Bool × Std.TreeMap String Bool)
    (ids : List String)
    (each : ∀ id ∈ ids, ∀ story, index.story id = some story → ∀ memo, MemoRight index memo →
      ((walk (.of story) memo).1 = true ↔ NeedsPerson index id) ∧
        MemoRight index (walk (.of story) memo).2)
    (right : MemoRight index memo) :
    ((anyBlocker (m := Id) (blockFacts index) walk ids memo).1 = true ↔
      ∃ id ∈ ids, NeedsPerson index id) ∧
        MemoRight index (anyBlocker (m := Id) (blockFacts index) walk ids memo).2 := by
  induction ids generalizing memo with
  | nil => exact ⟨by simp [anyBlocker, pure], right⟩
  | cons id rest further =>
      obtain ⟨own, others⟩ := List.forall_mem_cons.mp each
      rw [anyBlocker_cons, blockFacts]
      cases found : index.story id with
      | none =>
          obtain ⟨answer, kept⟩ := further memo others right
          refine ⟨answer.trans ?_, kept⟩
          rw [List.exists_mem_cons_iff, or_iff_right]
          rintro ⟨⟨story, there, -⟩, -⟩
          rw [found] at there
          cases there
      | some story =>
          obtain ⟨answer, kept⟩ := own story found memo right
          simp only [Option.map_some, List.exists_mem_cons_iff]
          cases needs : (walk (.of story) memo).1 with
          | true => exact ⟨iff_of_true rfl (.inl (answer.mp needs)), kept⟩
          | false =>
              rw [if_neg Bool.false_ne_true]
              obtain ⟨later, keptLater⟩ := further _ others kept
              refine ⟨later.trans (or_iff_right fun needed => ?_).symm, keptLater⟩
              rw [answer.mpr needed] at needs
              cases needs

theorem flags_iff (id : String) (story : StorySnapshot) (found : index.story id = some story)
    (isOpen : story.superstate = .open) : ((BlockFacts.of story).state == displayPromotionState ||
      (BlockFacts.of story).awaiting || (BlockFacts.of story).obviated ||
        (BlockFacts.of story).draft) = true ↔ Flagged index id := by
  simp only [Flagged, found, Option.some.injEq, exists_eq_left', isOpen, true_and, BlockFacts.of,
    BlockFacts.withEffective, displayPromotionState, Bool.or_eq_true, beq_iff_eq, List.any_eq_true]
  grind

theorem waitsOn_iff (id other : String) (story : StorySnapshot)
    (found : index.story id = some story) (isOpen : story.superstate = .open) :
    WaitsOn index id other ↔ other ∈ (BlockFacts.of story).blockers ∧ OpenStory index other := by
  simp only [WaitsOn, found, Option.some.injEq, exists_eq_left', isOpen, true_and, BlockFacts.of,
    BlockFacts.withEffective, relatedIds, List.mem_map, List.mem_filter, beq_iff_eq]
  refine and_congr_left fun _ => ⟨fun recorded => ⟨_, ⟨recorded, rfl⟩, rfl⟩, ?_⟩
  rintro ⟨relation, ⟨recorded, named⟩, rfl⟩
  rwa [← named]

theorem walk_right (keys : List String)
    (covered : ∀ id story, index.story id = some story → id ∈ keys) (fuel : Nat)
    (visiting : List String) (id : String) (story : StorySnapshot)
    (room : Room keys fuel visiting) (found : index.story id = some story)
    (stack : story.superstate = .open → ∀ above ∈ visiting, TransGen (WaitsOn index) above id)
    (right : MemoRight index memo) :
    ((walkNeedsIntervention (m := Id) (blockFacts index) fuel visiting (.of story) memo).1 = true ↔
      NeedsPerson index id) ∧ MemoRight index
        (walkNeedsIntervention (m := Id) (blockFacts index) fuel visiting (.of story) memo).2 := by
  induction fuel generalizing visiting id story memo with
  | zero => exact (Room.positive keys visiting room).elim
  | succ fuel further =>
      have named : (BlockFacts.of story).id = id := index.keyed id story found
      unfold walkNeedsIntervention
      rw [named]
      split
      · next known recorded => exact ⟨right id known recorded, right⟩
      · split
        · next shut =>
            refine ⟨iff_of_false Bool.false_ne_true ?_, right⟩
            rintro ⟨⟨same, there, isOpen⟩, -⟩
            rw [found] at there
            cases there
            simp [BlockFacts.of, BlockFacts.withEffective, isOpen] at shut
        · next notShut =>
            have isOpen : story.superstate = .open := by
              simpa [BlockFacts.of, BlockFacts.withEffective] using notShut
            have isOpenStory : OpenStory index id := ⟨story, found, isOpen⟩
            have flags := flags_iff index id story found isOpen
            split
            · next flagged =>
                have needs : NeedsPerson index id :=
                  ⟨isOpenStory, id, .refl, .inl (flags.mp flagged)⟩
                exact ⟨iff_of_true rfl needs, right.insert index memo id true
                  (iff_of_true rfl needs)⟩
            · next unflagged =>
                split
                · next again =>
                    -- a story found under itself closes the cycle that its stack spells
                    exact ⟨iff_of_true rfl ⟨isOpenStory, id, .refl, .inr (stack isOpen id again)⟩,
                      right⟩
                · next outside =>
                    have entered := Room.enter keys fuel visiting id room (covered id story found)
                      outside
                    have answered := anyBlocker_right index memo
                      (walkNeedsIntervention (m := Id) (blockFacts index) fuel (id :: visiting))
                      (BlockFacts.of story).blockers ?_ right
                    · obtain ⟨answer, kept⟩ := answered
                      have exact : (∃ other ∈ (BlockFacts.of story).blockers,
                          NeedsPerson index other) ↔ NeedsPerson index id := by
                        constructor
                        · rintro ⟨other, member, needs⟩
                          exact needs.back index id other ((waitsOn_iff index id other story found
                            isOpen).mpr ⟨member, needs.1⟩)
                        · intro needs
                          rcases needs.cases with flagged | ⟨other, waits, needed⟩
                          · exact absurd (flags.mpr flagged) unflagged
                          · exact ⟨other, ((waitsOn_iff index id other story found
                              isOpen).mp waits).1, needed⟩
                      exact ⟨answer.trans exact, kept.insert index _ id _ (answer.trans exact)⟩
                    · intro other member next there state before
                      refine further state (id :: visiting) other next entered there ?_ before
                      intro nextOpen above inside
                      have waits := (waitsOn_iff index id other story found isOpen).mpr
                        ⟨member, next, there, nextOpen⟩
                      rcases List.mem_cons.mp inside with rfl | earlier
                      · exact .single waits
                      · exact (stack isOpen above earlier).tail waits

end Walk

theorem needsPerson_unready (index : StoryIndex) (id : String) (story : StorySnapshot)
    (found : index.story id = some story) (needs : NeedsPerson index id) :
    isReady story index.story = false := by
  rw [Bool.eq_false_iff]
  intro ready
  simp only [isReady, isBlocked, Bool.and_eq_true, Bool.not_eq_true', beq_iff_eq,
    Bool.and_eq_false_imp, Bool.or_eq_false_iff, List.any_eq_false] at ready
  obtain ⟨⟨⟨isOpen, published⟩, unblocked⟩, unobviated⟩ := ready
  obtain ⟨⟨unheld, unawaited⟩, free⟩ := unblocked isOpen
  rcases needs.cases with ⟨same, there, -, why⟩ | ⟨other, waits, -⟩
  · cases found.symm.trans there
    rcases why with held | awaited | draft | ⟨relation, member, obviated⟩
    · simp [held] at unheld
    · simp [awaited] at unawaited
    · simp [draft] at published
    · exact unobviated relation member obviated
  · obtain ⟨member, next, there, nextOpen⟩ :=
      (waitsOn_iff index id other story found isOpen).mp waits
    have shut := free other member
    simp [there, nextOpen] at shut

theorem needsIntervention_exact (index : StoryIndex) (id : String) (story : StorySnapshot)
    (found : index.story id = some story) :
    (needsIntervention story index.stories = true ↔ NeedsPerson index id) ∧
      (needsIntervention story index.stories = true → isReady story index.story = false) := by
  have room := Room.start (index.stories.toList.map (·.1))
  rw [List.length_map, Std.TreeMap.length_toList] at room
  have covered (other : String) (there : StorySnapshot) (known : index.story other = some there) :
      other ∈ index.stories.toList.map (·.1) :=
    List.mem_map.mpr ⟨(other, there), Std.TreeMap.mem_toList_iff_getElem?_eq_some.mpr known, rfl⟩
  have right : MemoRight index ∅ := fun other known recorded => by simp at recorded
  obtain ⟨exact, -⟩ := walk_right index ∅ _ covered _ [] id story room found
    (fun _ _ member => absurd member List.not_mem_nil) right
  exact ⟨exact, fun needs => needsPerson_unready index id story found (exact.mp needs)⟩

def waiting (id : String) (blockers : List String) : StorySnapshot :=
  { (default : StorySnapshot) with
    id := id, relationships := blockers.map (⟨"blocked-by", ·⟩) }

def waitingOnRing : StoryIndex :=
  StoryIndex.empty
    |>.insert (waiting "SH-1" ["SH-9", "SH-2"])
    |>.insert (waiting "SH-2" ["SH-3"])
    |>.insert (waiting "SH-3" ["SH-2"])

theorem ring_needs_person : NeedsPerson waitingOnRing "SH-1" ∧
    isReady (waiting "SH-1" ["SH-9", "SH-2"]) waitingOnRing.story = false := by
  obtain ⟨exact, unready⟩ := needsIntervention_exact waitingOnRing "SH-1" _ rfl
  have needs : needsIntervention (waiting "SH-1" ["SH-9", "SH-2"]) waitingOnRing.stories = true := by
    decide +kernel
  exact ⟨exact.mp needs, unready needs⟩

end Storyhook.Domain
