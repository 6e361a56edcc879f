import Storyhook.Service.HistoryEnds
import Storyhook.Service.Rows

/-! What imports, restores and deletions append, batch by batch. -/

namespace Storyhook.Service

open Storyhook.Domain Storyhook.Store
open Library Library.Outcome

section Quiet

variable (ctx : Ctx) (allowed : Allowance) (db after : Database) (sound : Sound allowed db)

include sound

theorem Sound.present (story : StoryNo) (expected : ExpectedSeq) (events : List StoryEvent)
    (snapshot : StorySnapshot) (still : ∀ event ∈ events, Still event)
    (written : appendAndFold ctx db story expected events = .ok (after, snapshot)) :
    ∃ row : StoryRow, db.stories[story]? = some row := by
  rw [← Option.ne_none_iff_exists']
  intro absent
  have folded := (appendAndFold_ok ctx db after story expected events snapshot written).folded
  have begun : history db story = [] := by
    rw [history, sound.logged story absent]
    rfl
  rw [begun, List.nil_append] at folded
  obtain ⟨state, _, _, _, moved, -⟩ := (foldStory_undeleted _ events _ sound.conforming
    (Undeleted.still events still) snapshot).mp folded
  rw [lastMove, filterMap_still events still] at moved
  cases moved

theorem appendQuietly_steps (story : StoryNo) (expected : ExpectedSeq) (event : StoryEvent)
    (snapshot : StorySnapshot) (quiet : Quiet event)
    (written : appendAndFold ctx db story expected [event] = .ok (after, snapshot)) :
    Steps allowed db after := by
  obtain ⟨row, stored⟩ := sound.present ctx allowed db after story expected [event] snapshot
    (by simpa using quiet.still) written
  refine Relation.ReflTransGen.single
    (append_step ctx allowed db after story row expected _ snapshot
    stored (.quiet allowed _ ?_) written)
  simpa using quiet

theorem foldlM_sound {ι : Type} (act : Database → ι → Except AppError Database)
    (items : List ι) (turns : ∀ item ∈ items, ∀ before next, Sound allowed before →
      act before item = .ok next → Steps allowed before next)
    (ran : items.foldlM act db = .ok after) : Steps allowed db after := by
  refine (foldlM_ok act (fun _ state => Steps allowed db state) items ?_ db after
    Relation.ReflTransGen.refl ran)
  intro done item rest before next split steps stepped
  exact steps.trans (turns item (by simp [split]) before next (steps.sound allowed db before sound)
    stepped)

end Quiet

section Import

variable (ctx : Ctx) (allowed : Allowance) (loud : allowed ≠ .quiet) (db after : Database)
  (sound : Sound allowed db)

include sound

theorem appendRelation_steps (storyId otherId relation : String)
    (ran : appendRelation ctx db storyId otherId relation = .ok after) :
    Steps allowed db after := by
  unfold appendRelation at ran
  split at ran
  · cases ran
  · next story parsed =>
      obtain ⟨⟨last, snapshot⟩, written, rfl⟩ := (map_eq_ok _ _ _).mp ran
      exact appendQuietly_steps ctx allowed db last sound story _ _ snapshot ⟨rfl, rfl, rfl⟩ written

theorem linkEdge_steps (a b : String) (edge : String × String)
    (ran : linkEdge ctx a b db edge = .ok after) : Steps allowed db after := by
  simp only [linkEdge, bind_eq_ok] at ran
  obtain ⟨near, first, second⟩ := ran
  have steps := appendRelation_steps ctx allowed db near sound a b edge.1 first
  split at second
  · exact steps.trans (appendRelation_steps ctx allowed near after
      (steps.sound allowed db near sound) b a edge.2 second)
  · cases second
    exact steps

theorem linkBatch_steps (stories : List ImportStory) (createdIds lines : List String)
    (ran : linkBatch ctx db stories createdIds = .ok (after, lines)) : Steps allowed db after := by
  refine foldlM_ok _ (fun _ state => Steps allowed db state.1) _ ?_ (db, []) (after, lines)
    Relation.ReflTransGen.refl ran
  rintro done entry rest before next - steps linked
  refine foldlM_ok _ (fun _ state => Steps allowed db state.1) _ ?_ before next steps linked
  rintro done relationship rest before next - steps related
  simp only [linkRelationship, bind_eq_ok] at related
  obtain ⟨other, -, related⟩ := related
  split at related
  · cases related
    exact steps
  · simp only [bind_eq_ok, pure_eq_ok] at related
    obtain ⟨edges, -, last, written, rfl⟩ := related
    exact steps.trans (foldlM_sound allowed before.1 last (steps.sound allowed db before.1 sound) _
      edges (fun edge _ state later kept => linkEdge_steps ctx allowed state later kept _ _ edge)
      written)

include loud

theorem importBatch_steps (stories : List ImportStory) (report : List String × List String)
    (ran : importBatch ctx db stories = .ok (after, report)) : Steps allowed db after := by
  unfold importBatch at ran
  split at ran
  · cases ran
    exact Relation.ReflTransGen.refl
  · simp only [bind_eq_ok, pure_eq_ok, Prod.exists, Prod.mk.injEq] at ran
    obtain ⟨-, -, defaultType, -, created, createdIds, creating, linked, lines, linking,
      rfl, -⟩ := ran
    have first := foldlM_ok _ (fun _ (state : Database × List String) =>
      Steps allowed db state.1) _ (by
      rintro done story rest before next - steps imported
      simp only [importStory, bind_eq_ok, pure_eq_ok, Prod.exists] at imported
      obtain ⟨events, opened, last, snapshot, written, rfl⟩ := imported
      simp only [importEvents, bind_eq_ok, pure_eq_ok] at opened
      obtain ⟨state, -, complexity, -, priority, -, rfl⟩ := opened
      exact steps.tail (appendNew_step ctx allowed loud before.1 last _ _ snapshot
        (creationBatch_opening _ _ _ _ _ _ _ _ _) written)) (db, []) (created, createdIds)
      Relation.ReflTransGen.refl creating
    exact Relation.ReflTransGen.trans first (linkBatch_steps ctx allowed created linked
      (Steps.sound allowed db created sound first) stories createdIds lines linking)

end Import

theorem whereDiffer_still (differ : Bool) (event : StoryEvent) (still : Still event) :
    ∀ written ∈ whereDiffer differ event, Still written := by
  intro written member
  unfold whereDiffer at member
  split at member
  · cases List.mem_singleton.mp member
    exact still
  · cases member

theorem compensateScalars_still (ctx : Ctx) (before after : StorySnapshot)
    (typed : List StoryEvent) (typing : compensateType ctx.now before after = .ok typed) :
    ∀ event ∈ whereDiffer (before.title != after.title) (.storyTitleSet ctx.now after.title) ++
        whereDiffer (before.description != after.description)
          (.storyDescriptionSet ctx.now (after.description.getD "")) ++
        compensatePriority ctx.now before after ++ compensateComplexity ctx.now before after ++
        whereDiffer (before.labels != after.labels)
          (.storyLabelsSet ctx.now (normalizeLabels ctx after.labels)) ++
        compensateAwaiting ctx.now before after ++ typed, Still event := by
  intro event member
  simp only [List.mem_append] at member
  rcases member with (((((title | text) | priority) | complexity) | labels) | awaiting) | kind
  · exact whereDiffer_still _ _ ⟨rfl, rfl⟩ event title
  · exact whereDiffer_still _ _ ⟨rfl, rfl⟩ event text
  · refine whereDiffer_still _ _ ?_ event priority
    split <;> exact ⟨rfl, rfl⟩
  · refine whereDiffer_still _ _ ?_ event complexity
    split <;> exact ⟨rfl, rfl⟩
  · exact whereDiffer_still _ _ ⟨rfl, rfl⟩ event labels
  · refine whereDiffer_still _ _ ?_ event awaiting
    split <;> exact ⟨rfl, rfl⟩
  · unfold compensateType at typing
    split at typing
    · split at typing <;> cases typing
      cases List.mem_singleton.mp kind
      exact ⟨rfl, rfl⟩
    · cases typing
      cases kind

theorem compensateState_restates (now : String) (before after : StorySnapshot) :
    ∃ leading middle, (compensateState now before after).filter (fun event => !isRelation event) =
      leading ++ middle ∧ (∀ event ∈ leading, Still event) ∧ Restates middle := by
  unfold compensateState
  split
  · split
    · refine ⟨[], _, ?_, by simp, .closes now before.state
        (whereDiffer before.awaiting.isSome (.storyAwaitingCleared now))
        (whereDiffer_still _ _ ⟨rfl, rfl⟩)⟩
      unfold whereDiffer
      split <;> rfl
    · exact ⟨[], _, rfl, by simp, .moves now before.state⟩
  · split
    · exact ⟨[.storyStateCleared now], [], rfl, by simpa using ⟨rfl, rfl⟩, .stays⟩
    · unfold whereDiffer
      split
      · exact ⟨[], _, rfl, by simp, .moves now after.state⟩
      · exact ⟨[], _, rfl, by simp, .stays⟩

theorem compensateComments_still (now : String) (before after : StorySnapshot) :
    ∀ event ∈ compensateComments now before after, Still event := by
  intro event member
  rcases List.mem_append.mp member with retracted | restored
  · obtain ⟨comment, -, rfl⟩ := List.mem_map.mp retracted
    exact ⟨rfl, rfl⟩
  · obtain ⟨comment, -, rfl⟩ := List.mem_map.mp restored
    exact ⟨rfl, rfl⟩

theorem compensateRelations_relational (now : String) (before after : StorySnapshot) :
    (compensateRelations now before after).filter (fun event => !isRelation event) = [] := by
  rw [List.filter_eq_nil_iff]
  intro event member
  rcases List.mem_append.mp member with removed | added
  · obtain ⟨relation, -, rfl⟩ := List.mem_map.mp removed
    simp [isRelation]
  · obtain ⟨relation, -, rfl⟩ := List.mem_map.mp added
    simp [isRelation]

theorem compensation_batch (ctx : Ctx) (states : StateCatalog) (row : StoryRow)
    (before after : StorySnapshot) (compensation : List StoryEvent)
    (ran : compensate ctx before after = .ok compensation) :
    Batch states row .loose (compensation.filter fun event => !isRelation event) := by
  simp only [compensate, bind_eq_ok, pure_eq_ok] at ran
  obtain ⟨typed, typing, rfl⟩ := ran
  have scalars := compensateScalars_still ctx before after typed typing
  obtain ⟨leading, middle, split, still, restates⟩ :=
    compensateState_restates ctx.now before after
  rw [List.filter_append, compensateRelations_relational, List.append_nil, List.filter_append,
    List.filter_append, split, ← List.append_assoc]
  refine .compensation _ middle _ ?_ restates ?_
  · intro event member
    rcases List.mem_append.mp member with scalar | leads
    · exact scalars event (List.mem_filter.mp scalar).1
    · exact still event leads
  · intro event member
    exact compensateComments_still ctx.now before after event (List.mem_filter.mp member).1

section Restore

variable (ctx : Ctx) (db after : Database) (sound : Sound .loose db)

include sound

theorem restoreRelation_steps (story : StoryNo) (event : StoryEvent)
    (ran : restoreRelation ctx story db event = .ok after) : Steps .loose db after := by
  unfold restoreRelation at ran
  split at ran
  · simp only [bind_eq_ok, pure_eq_ok, Prod.exists] at ran
    obtain ⟨other, -, inverse, -, near, first, nearRan, far, second, farRan, rfl⟩ := ran
    have steps := appendQuietly_steps ctx .loose db near sound story _ _ first
      ⟨rfl, rfl, rfl⟩ nearRan
    exact steps.trans (appendQuietly_steps ctx .loose near far
      (steps.sound .loose db near sound) other
      _ _ second ⟨rfl, rfl, rfl⟩ farRan)
  · simp only [bind_eq_ok, pure_eq_ok, Prod.exists] at ran
    obtain ⟨other, -, inverse, -, near, first, nearRan, far, second, farRan, rfl⟩ := ran
    have steps := appendQuietly_steps ctx .loose db near sound story _ _ first
      ⟨rfl, rfl, rfl⟩ nearRan
    exact steps.trans (appendQuietly_steps ctx .loose near far
      (steps.sound .loose db near sound) other
      _ _ second ⟨rfl, rfl, rfl⟩ farRan)
  · cases ran
    exact Relation.ReflTransGen.refl

theorem restore_steps (id : String) (target appended : List StoryEvent)
    (ran : restore ctx db id target = .ok (after, appended)) : Steps .loose db after := by
  unfold restore at ran
  split at ran
  · cases ran
  · simp only [bind_eq_ok, Prod.exists] at ran
    obtain ⟨story, row, found, current, -, goal, -, compensation, compensated, writing⟩ := ran
    obtain ⟨-, stored⟩ := resolveStory_ok db id story row found
    split at writing
    · cases writing
      exact Relation.ReflTransGen.refl
    · simp only [bind_eq_ok, pure_eq_ok, Prod.exists, Prod.mk.injEq] at writing
      obtain ⟨moved, plain, related, relating, last, cleanup, settling, rfl, -⟩ := writing
      have first := appendSome_steps ctx .loose db moved story row _ _ stored
        (compensation_batch ctx _ row _ goal compensation compensated) plain
      have kept := Steps.sound .loose db moved sound first
      have second := foldlM_sound .loose moved related kept _ _
        (fun event _ before next sound stepped =>
          restoreRelation_steps ctx before next sound story event stepped) relating
      refine (first.trans second).trans ?_
      simp only [settleRestored, bind_eq_ok, demand_ok] at settling
      obtain ⟨standing, -, settled⟩ := settling
      split at settled
      · exact retractClosedBlockerEdges_steps ctx .loose related last story cleanup settled
      · cases settled
        exact Relation.ReflTransGen.refl

end Restore

end Storyhook.Service
