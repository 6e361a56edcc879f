import Storyhook.Service.History
import Storyhook.Service.TransferEnds

namespace Storyhook.Service

open Storyhook.Domain Storyhook.Store
open Library Library.Outcome

theorem append_present (ctx : Ctx) (db after : Database) (story : StoryNo) (expected : ExpectedSeq)
    (event : StoryEvent) (snapshot : StorySnapshot) (kept : Kept db)
    (stateless : (replay (stateMap db.states) [event]).state = none)
    (written : appendAndFold ctx db story expected [event] = .ok (after, snapshot)) :
    ∃ row : StoryRow, db.stories[story]? = some row := by
  rw [← Option.ne_none_iff_exists']
  intro absent
  have folded := (appendAndFold_ok ctx db after story expected [event] snapshot written).folded
  rw [history, kept.logged story absent] at folded
  obtain ⟨state, _, _, _, _, found, -⟩ := (finishFold_ok _ _ _ _).mp folded
  have none : (replay (stateMap db.states) [event]).state = some state := found
  rw [stateless] at none
  cases none

theorem bothEnds_single (a b : StoryNo) (pair : String × String) :
    bothEnds a b [pair] = {⟨a, pair.1, b⟩} ∪ {⟨b, pair.2, a⟩} := by
  ext ⟨own, name, other⟩
  simp [bothEnds, claimed, or_comm]

/-- What undoing one relation event wrote, on both ends. -/
inductive RestoreStep (story : StoryNo) (db after : Database) : StoryEvent → Prop where
  | added (atTime otherId relation inverse : String) (other : StoryNo)
      (parsed : parseId db.idPrefix otherId = .ok other)
      (inverted : inverseRelation relation = some inverse)
      (gains : Gains db after (bothEnds story other [(relation, inverse)])) :
      RestoreStep story db after (.storyRelationshipAdded atTime otherId relation)
  | removed (atTime otherId relation inverse : String) (other : StoryNo)
      (inverted : inverseRelation relation = some inverse)
      (loses : Loses db after (bothEnds story other [(relation, inverse)])) :
      RestoreStep story db after (.storyRelationshipRemoved atTime otherId relation)

section RestoreRelation

variable (ctx : Ctx) (story : StoryNo) (row : StoryRow) (db after : Database)
  (atTime otherId relation : String) (kept : Kept db) (stored : db.stories[story]? = some row)

include kept stored

theorem restoreAdded_ok
    (ran : restoreRelation ctx story db (.storyRelationshipAdded atTime otherId relation) =
      .ok after) :
    ∃ other inverse, parseId db.idPrefix otherId = .ok other ∧
      inverseRelation relation = some inverse ∧
        Gains db after (bothEnds story other [(relation, inverse)]) := by
  simp only [restoreRelation, bind_eq_ok, pure_eq_ok, demand_ok, Prod.exists] at ran
  obtain ⟨other, parsed, inverse, inverted, near, first, nearRan, far, second, farRan, rfl⟩ := ran
  refine ⟨other, inverse, parsed, inverted, ?_⟩
  have spelled := ((parseId_ok _ _ _).mp parsed).1
  have gainsNear := append_gains ctx db near story row _ _ first kept stored nearRan (by simp
    [removedRelation])
  rw [spelled, added_one] at gainsNear
  obtain ⟨later, found⟩ := append_present ctx near far other _ _ second gainsNear.kept rfl farRan
  have gainsFar := append_gains ctx near far other later _ _ second gainsNear.kept found farRan
    (by simp [removedRelation])
  rw [← gainsNear.idPrefix, added_one] at gainsFar
  rw [bothEnds_single]
  exact Gains.trans _ _ _ _ _ gainsNear gainsFar

theorem restoreRemoved_ok
    (ran : restoreRelation ctx story db (.storyRelationshipRemoved atTime otherId relation) =
      .ok after) :
    ∃ other inverse, parseId db.idPrefix otherId = .ok other ∧
      inverseRelation relation = some inverse ∧
        Loses db after (bothEnds story other [(relation, inverse)]) := by
  simp only [restoreRelation, bind_eq_ok, pure_eq_ok, demand_ok, Prod.exists] at ran
  obtain ⟨other, parsed, inverse, inverted, near, first, nearRan, far, second, farRan, rfl⟩ := ran
  refine ⟨other, inverse, parsed, inverted, ?_⟩
  have spelled := ((parseId_ok _ _ _).mp parsed).1
  have losesNear := append_loses ctx db near story row _ _ first kept stored nearRan (by simp
    [addedRelation])
  rw [spelled, removed_one] at losesNear
  obtain ⟨later, found⟩ := append_present ctx near far other _ _ second losesNear.kept rfl farRan
  have losesFar := append_loses ctx near far other later _ _ second losesNear.kept found farRan
    (by simp [addedRelation])
  rw [← losesNear.idPrefix, removed_one] at losesFar
  rw [bothEnds_single]
  exact Loses.trans _ _ _ _ _ losesNear losesFar

end RestoreRelation

theorem restoreRelation_ok (ctx : Ctx) (story : StoryNo) (row : StoryRow) (db after : Database)
    (event : StoryEvent) (kept : Kept db) (stored : db.stories[story]? = some row)
    (relational : isRelation event = true)
    (ran : restoreRelation ctx story db event = .ok after) : RestoreStep story db after event := by
  cases event with
  | storyRelationshipAdded atTime otherId relation =>
      obtain ⟨other, inverse, parsed, inverted, gains⟩ :=
        restoreAdded_ok ctx story row db after atTime otherId relation kept stored ran
      exact .added atTime otherId relation inverse other parsed inverted gains
  | storyRelationshipRemoved atTime otherId relation =>
      obtain ⟨other, inverse, -, inverted, loses⟩ :=
        restoreRemoved_ok ctx story row db after atTime otherId relation kept stored ran
      exact .removed atTime otherId relation inverse other inverted loses
  | _ => cases relational

theorem RestoreStep.steady (story : StoryNo) (db after : Database) (event : StoryEvent)
    (step : RestoreStep story db after event) : Steady db after := by
  cases step with
  | added _ _ _ _ _ _ _ gains => exact gains.toSteady
  | removed _ _ _ _ _ _ loses => exact loses.toSteady

theorem RestoreStep.agreed (story : StoryNo) (db after : Database) (event : StoryEvent)
    (step : RestoreStep story db after event) (agreed : Agreed db) : Agreed after := by
  cases step with
  | added _ _ relation inverse other _ inverted gains =>
      have closed := bothEnds_reciprocal story other [(relation, inverse)] (by simpa using inverted)
      exact (gains.turns db after _).agreed db after _ agreed closed
  | removed _ _ relation inverse other inverted loses =>
      have closed := bothEnds_reciprocal story other [(relation, inverse)] (by simpa using inverted)
      exact (loses.turns db after _ agreed.kept
        (Reciprocal.mirrored mirror _ closed)).agreed db after
        ∅ agreed (Reciprocal.empty mirror)

theorem plain_stories (events : List StoryEvent) :
    Plain (events.filter fun event => !isRelation event) := by
  intro event member
  have plain := (List.mem_filter.mp member).2
  cases event <;> first | exact ⟨rfl, rfl⟩ | cases plain

theorem appendSome_plain (ctx : Ctx) (db after : Database) (story : StoryNo) (row : StoryRow)
    (expected : ExpectedSeq) (events : List StoryEvent) (kept : Kept db)
    (stored : db.stories[story]? = some row) (plain : Plain events)
    (written : appendSome ctx db story expected events = .ok after) : Gains db after ∅ := by
  have gains := appendSome_gains ctx db after story row expected events kept stored written
    fun event member => (plain event member).2
  rwa [added_plain _ _ _ plain] at gains

theorem settleRestored_turns (ctx : Ctx) (db after : Database) (story : StoryNo) (id : String)
    (cleanup : List StoryEvent) (kept : Kept db)
    (ran : settleRestored ctx db story id = .ok (after, cleanup)) : Turns db after ∅ := by
  simp only [settleRestored, bind_eq_ok, demand_ok] at ran
  obtain ⟨row, -, settled⟩ := ran
  split at settled
  · exact (retractClosedBlockerEdges_ok ctx db after story cleanup kept settled).turns db after _ kept
      (Reciprocal.mirrored mirror _ (blockerEdges_reciprocal story))
  · cases settled
    exact Turns.none db kept

theorem restore_ok (ctx : Ctx) (db after : Database) (id : String)
    (target appended : List StoryEvent)
    (kept : Kept db) (Inv : Database → Prop)
    (plainly : ∀ before next, Kept before → Turns before next ∅ → Inv before → Inv next)
    (stepwise : ∀ story before next event, RestoreStep story before next event →
      Steady db before → Inv before → Inv next)
    (initial : Inv db) (ran : restore ctx db id target = .ok (after, appended)) : Inv after := by
  unfold restore at ran
  split at ran
  · cases ran
  · simp only [bind_eq_ok, Prod.exists] at ran
    obtain ⟨story, row, found, current, -, goal, -, compensation, -, writing⟩ := ran
    obtain ⟨-, stored⟩ := resolveStory_ok db id story row found
    split at writing
    · cases writing
      exact initial
    · simp only [bind_eq_ok, pure_eq_ok, Prod.exists, Prod.mk.injEq] at writing
      obtain ⟨moved, plain, related, relating, last, cleanup, settling, rfl, -⟩ := writing
      have first := appendSome_plain ctx db moved story row _ _ kept stored (plain_stories _) plain
      have loop := foldlM_ok _ (fun _ state => Steady db state ∧ Inv state) _ (by
          intro done event rest before next split carried stepped
          have member : event ∈ compensation.filter isRelation := by simp [split]
          obtain ⟨present, listed⟩ := carried.1.stored db before story row stored
          have step := restoreRelation_ok ctx story present before next event carried.1.kept listed
            (List.mem_filter.mp member).2 stepped
          exact ⟨Steady.trans _ _ _ carried.1 (step.steady story before next event),
            stepwise story before next event step carried.1 carried.2⟩)
        moved related
        ⟨first.toSteady, plainly db moved kept (first.turns db moved ∅) initial⟩ relating
      exact plainly related last loop.1.kept
        (settleRestored_turns ctx related last story id cleanup loop.1.kept settling) loop.2

theorem restore_agreed (ctx : Ctx) (db after : Database) (id : String)
    (target appended : List StoryEvent) (agreed : Agreed db)
    (ran : restore ctx db id target = .ok (after, appended)) : Agreed after := by
  apply restore_ok ctx db after id target appended agreed.kept Agreed _ _ agreed ran
  · intro before next _ turns carried
    exact turns.agreed before next ∅ carried (Reciprocal.empty mirror)
  · intro story before next event step _ carried
    exact step.agreed story before next event carried

end Storyhook.Service
