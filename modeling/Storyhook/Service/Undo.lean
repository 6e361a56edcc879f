import Storyhook.Service.UndoWrites

/-! An undo brings the history of a story to fold to what it was to go back to. -/

namespace Storyhook.Service

open Storyhook.Domain Storyhook.Store
open Library Library.Outcome

/-! ### What the history of the story folds to -/

theorem unrelated_silent (event : StoryEvent) (plain : isRelation event = false) :
    addedRelation event = none ∧ removedRelation event = none := by
  cases event with
  | storyRelationshipAdded | storyRelationshipRemoved => cases plain
  | _ => exact ⟨rfl, rfl⟩

theorem Takes.relate (own now : String) (shown goal : StorySnapshot) (taken : List StoryEvent)
    (takes : Takes own (edgesGone now shown goal) taken) :
    ∀ event ∈ taken, isRelation event = true ∧ addedRelation event = none := by
  intro event member
  rcases takes.only event member with gone | ⟨_, _, rfl⟩
  · obtain ⟨_, -, rfl⟩ := List.mem_map.mp gone
    exact ⟨rfl, rfl⟩
  · exact ⟨rfl, rfl⟩

theorem Takes.removed (own now : String) (shown goal : StorySnapshot) (taken : List StoryEvent)
    (takes : Takes own (edgesGone now shown goal) taken) (relation : StoryRelation)
    (apart : relation.otherId ≠ own) :
    relation ∈ taken.filterMap removedRelation ↔ relation ∈ relationsApart shown goal := by
  rw [List.mem_filterMap]
  constructor
  · rintro ⟨event, member, removed⟩
    rcases takes.only event member with gone | ⟨_, _, rfl⟩
    · obtain ⟨other, listed, rfl⟩ := List.mem_map.mp gone
      cases removed
      exact listed
    · cases removed
      exact absurd rfl apart
  · intro listed
    exact ⟨_, takes.all _ (List.mem_map.mpr ⟨relation, listed, rfl⟩), rfl⟩

theorem undoEvents_relationships (ctx : Ctx) (states : StateCatalog) (earlier : List StoryEvent)
    (own : String) (shown goal : StorySnapshot) (typed taken : List StoryEvent)
    (typedAs : compensateType ctx.now shown goal = .ok typed)
    (takes : Takes own (edgesGone ctx.now shown goal) taken)
    (others : taken ≠ [] → NamesOthers own goal)
    (told : ∀ relation, relation ∈ shown.relationships ↔
      relation ∈ (replay states earlier).relationships) (relation : StoryRelation) :
    relation ∈ (replay states (earlier ++ undoEvents ctx shown goal typed taken)).relationships ↔
      relation ∈ goal.relationships := by
  have plain : ∀ event ∈ fieldEvents ctx shown goal typed ++ compensateState ctx.now shown goal ++
      compensateComments ctx.now shown goal, isRelation event = false := by
    rw [List.forall_mem_append, List.forall_mem_append]
    exact ⟨⟨fieldEvents_plain ctx shown goal typed typedAs, compensateState_plain shown goal _⟩,
      compensateComments_plain shown goal _⟩
  rw [undoEvents, ← List.append_assoc, ← List.append_assoc]
  generalize fieldEvents ctx shown goal typed ++ compensateState ctx.now shown goal ++
    compensateComments ctx.now shown goal = fields at plain
  have silent : fields.filterMap addedRelation = [] := by
    rw [List.filterMap_eq_nil_iff]
    exact fun event member => (unrelated_silent event (plain event member)).1
  have back : (edgesBack ctx.now shown goal).filterMap addedRelation =
      relationsApart goal shown := by
    rw [edgesBack, List.filterMap_map]
    exact List.filterMap_some
  rw [replay_adds, back, replay_removes, replay_adds, silent, ← told, mem_relationsApart]
  · have none : relation ∉ ([] : List StoryRelation) := List.not_mem_nil
    constructor
    · rintro (⟨held | added, stays⟩ | ⟨reached, -⟩)
      · by_contra left
        refine stays (List.mem_filterMap.mpr ⟨_, takes.all _ (List.mem_map.mpr ⟨relation, ?_, rfl⟩),
          rfl⟩)
        exact (mem_relationsApart _ _ _).mpr ⟨held, left⟩
      · exact absurd added none
      · exact reached
    · intro reached
      by_cases held : relation ∈ shown.relationships
      · refine .inl ⟨.inl held, fun gone => ?_⟩
        have named := others (by
          rintro rfl
          exact absurd gone List.not_mem_nil) relation reached
        exact ((mem_relationsApart _ _ _).mp
          ((takes.removed own ctx.now shown goal taken relation named).mp gone)).2 reached
      · exact .inr ⟨reached, held⟩
  · exact fun event member => (unrelated_silent event (plain event member)).2
  · exact fun event member => (takes.relate own ctx.now shown goal taken event member).2
  · intro event member
    obtain ⟨_, -, rfl⟩ := List.mem_map.mp member
    rfl

theorem relations_become (states : StateCatalog) (events : List StoryEvent)
    (related : ∀ event ∈ events, isRelation event = true) (acc : FoldState) :
    ∃ relationships, Becomes states events acc { acc with relationships := relationships } := by
  induction events generalizing acc with
  | nil => exact ⟨acc.relationships, Becomes.nil states acc⟩
  | cons event rest further =>
      obtain ⟨own, others⟩ := List.forall_mem_cons.mp related
      have first : ∃ relationships, Becomes states [event] acc
          { acc with relationships := relationships } := by
        cases event with
        | storyRelationshipAdded => exact ⟨_, becomes_one states _ acc⟩
        | storyRelationshipRemoved => exact ⟨_, becomes_one states _ acc⟩
        | _ => cases own
      obtain ⟨relationships, begun⟩ := first
      obtain ⟨final, done⟩ := further others { acc with relationships := relationships }
      exact ⟨final, begun.append states [event] rest acc _ _ done⟩

/-- Two folds that differ in nothing but the lifecycle of the story and its edges. -/
structure Unmoved (acc next : FoldState) : Prop where
  title : next.title = acc.title
  description : next.description = acc.description
  priority : next.priority = acc.priority
  priorityAssessed : next.priorityAssessed = acc.priorityAssessed
  complexity : next.complexity = acc.complexity
  complexityAssessed : next.complexityAssessed = acc.complexityAssessed
  labels : next.labels = acc.labels
  storyType : next.storyType = acc.storyType
  comments : next.comments = acc.comments

theorem foldStateChange_unmoved (states : StateCatalog) (slug : String) (acc : FoldState) :
    Unmoved acc (foldStateChange states slug acc) := by
  rw [foldStateChange]
  split <;> exact ⟨rfl, rfl, rfl, rfl, rfl, rfl, rfl, rfl, rfl⟩

theorem stateUndone_unmoved (states : StateCatalog) (now : String) (shown goal : StorySnapshot)
    (acc : FoldState) : Unmoved acc (stateUndone states now shown goal acc) := by
  have moved := foldStateChange_unmoved states shown.state acc
  rw [stateUndone]
  split
  · split
    · exact ⟨moved.title, moved.description, moved.priority, moved.priorityAssessed,
        moved.complexity, moved.complexityAssessed, moved.labels, moved.storyType, moved.comments⟩
    · exact moved
  · split
    · exact ⟨rfl, rfl, rfl, rfl, rfl, rfl, rfl, rfl, rfl⟩
    · split
      · exact ⟨rfl, rfl, rfl, rfl, rfl, rfl, rfl, rfl, rfl⟩
      · exact foldStateChange_unmoved states goal.state acc

/-- The replay of a history once an undo was written to it, but for when it was last written. -/
def undone (ctx : Ctx) (states : StateCatalog) (shown goal : StorySnapshot) (acc : FoldState) :
    FoldState :=
  let placed := stateUndone states ctx.now shown goal (fieldsUndone ctx shown goal acc)
  { placed with comments := commentsUndone ctx.now shown goal placed }

section Undone

variable (ctx : Ctx) (states : StateCatalog) (shown goal : StorySnapshot) (acc : FoldState)

theorem Unblocks.relate (own : String) (events : List StoryEvent) (unblocks : Unblocks own events) :
    ∀ event ∈ events, isRelation event = true := by
  intro event member
  obtain ⟨_, _, _, rfl, -⟩ := unblocks event member
  rfl

theorem goal_plainly (id : String) (target : List StoryEvent)
    (aim : foldStory id target states = .ok goal) :
    (goal.priorityAssessed = false → goal.priority = .none) ∧
      (goal.complexityAssessed = false → goal.complexity = .medium) ∧
        ∀ comment ∈ goal.comments, parseGitLinkComment comment.text = none := by
  obtain ⟨_, _, _, _, _, -, -, -, -, rfl⟩ := (finishFold_ok _ _ _ _).mp aim
  have plain := replay_plainly states target
  exact ⟨plain.priority, plain.complexity, plain.comments⟩

theorem undoEvents_become (id : String) (target typed taken retracted : List StoryEvent)
    (told : Tells acc shown) (aim : foldStory id target states = .ok goal)
    (typedAs : compensateType ctx.now shown goal = .ok typed)
    (takes : Takes id (edgesGone ctx.now shown goal) taken) (unblocks : Unblocks id retracted) :
    ∃ relationships, Becomes states (undoEvents ctx shown goal typed taken ++ retracted) acc
      { undone ctx states shown goal acc with relationships := relationships } := by
  obtain ⟨unassessed, unrated, unlinked⟩ := goal_plainly states goal id target aim
  have fields := fieldEvents_becomes ctx states shown goal acc typed told unassessed unrated typedAs
  have placed := fields.append states _ _ acc _ _
    (stateEvents_becomes states ctx.now shown goal (fieldsUndone ctx shown goal acc))
  have said := placed.append states _ _ acc _ _
    (comments_become states ctx.now shown goal _ unlinked)
  have moves : ∀ event ∈ taken ++ edgesBack ctx.now shown goal ++ retracted,
      isRelation event = true := by
    rw [List.forall_mem_append, List.forall_mem_append]
    refine ⟨⟨fun event member => (takes.relate id ctx.now shown goal taken event member).1, ?_⟩,
      unblocks.relate id retracted⟩
    intro event member
    obtain ⟨_, -, rfl⟩ := List.mem_map.mp member
    rfl
  obtain ⟨relationships, related⟩ := relations_become states _ moves
    (undone ctx states shown goal acc)
  refine ⟨relationships, ?_⟩
  rw [undoEvents, List.append_assoc]
  exact said.append states _ _ acc _ _ related

theorem finishFold_tells (id : String) (folded : StorySnapshot)
    (ran : finishFold id states acc = .ok folded) : Tells acc folded := by
  obtain ⟨_, _, _, _, _, -, titled, -, -, rfl⟩ := (finishFold_ok _ _ _ _).mp ran
  exact ⟨titled, rfl, rfl, rfl, rfl, rfl, rfl, rfl, rfl, rfl⟩

theorem Tells.title_eq (next : FoldState) (folded : StorySnapshot) (title : String)
    (told : Tells next folded) (titled : next.title = some title) : folded.title = title :=
  Option.some_injective _ (told.title.symm.trans titled)

theorem describedAs_getD :
    (describedAs shown goal).getD "" = goal.description.getD "" := by
  rw [describedAs]
  split
  · next same => rw [same]
  · rfl

theorem labelledAs_normal (lowers : Lowers ctx.toLowercase) :
    normalizeLabels ctx (labelledAs ctx shown goal) = normalizeLabels ctx goal.labels := by
  rw [labelledAs]
  split
  · next same => rw [same]
  · exact normalizeLabels_again ctx lowers goal.labels

end Undone

theorem undone_stood (ctx : Ctx) (defs : List StateDef) (id : String) (acc final : FoldState)
    (shown current goal later : StorySnapshot) (aimed : Goal defs goal)
    (before : finishFold id (stateMap defs) acc = .ok current)
    (state : final.state = (undone ctx (stateMap defs) shown goal acc).state)
    (deleted : final.legacyDeletionActive =
      (undone ctx (stateMap defs) shown goal acc).legacyDeletionActive)
    (closed : final.closedAt = (undone ctx (stateMap defs) shown goal acc).closedAt)
    (awaiting : final.awaiting = (undone ctx (stateMap defs) shown goal acc).awaiting)
    (folded : finishFold id (stateMap defs) final = .ok later) :
    Stood goal later ↔
      StateReached (stateMap defs) acc.legacyDeletionActive shown current goal := by
  have told := (finishFold_kept id _ acc current before).1.symm
  let fields := fieldsUndone ctx shown goal acc
  have lands (slug : String) (closes : Bool) (moved : MovedTo (stateMap defs) slug closes fields
      (stateUndone (stateMap defs) ctx.now shown goal fields)) :
      MovedTo (stateMap defs) slug closes fields final :=
    ⟨state.trans moved.state, deleted.trans moved.deleted,
      (congrArg Option.isSome closed).trans moved.closed⟩
  by_cases computed : (shown.stateComputed && !hasChildren goal) = true
  · obtain ⟨moved, waits⟩ := stateUndone_computed defs ctx.now fields shown goal computed
    exact stood_computed id defs fields shown current goal later final computed rfl told
      (lands _ _ moved) (awaiting.trans waits) folded
  · by_cases keeps : keepsState shown goal = true
    · obtain ⟨_, placed⟩ :=
        stateUndone_kept (stateMap defs) ctx.now shown goal fields computed keeps
      change final.state = (stateUndone (stateMap defs) ctx.now shown goal fields).state at state
      change final.legacyDeletionActive =
        (stateUndone (stateMap defs) ctx.now shown goal fields).legacyDeletionActive at deleted
      change final.closedAt =
        (stateUndone (stateMap defs) ctx.now shown goal fields).closedAt at closed
      change final.awaiting =
        (stateUndone (stateMap defs) ctx.now shown goal fields).awaiting at awaiting
      rw [placed] at state deleted closed awaiting
      obtain ⟨slug, _, _, _, _, stood, -⟩ := (finishFold_ok _ _ _ _).mp before
      have rests := finishFold_stands id _ acc current slug before stood
      have rested := finishFold_stands id _ final later slug folded (state.trans stood)
      rw [deleted] at rested
      have both := rested.symm.trans rests
      rw [Except.ok.injEq, Prod.mk.injEq] at both
      obtain ⟨closedAt, waiting⟩ := finishFold_kept id _ final later folded
      exact stood_kept defs fields shown current goal later computed keeps
        (waiting.trans awaiting) both.1 both.2 ((closedAt.trans closed).trans told)
    · have placed := stateUndone_moved (stateMap defs) ctx.now shown goal fields computed keeps
      have moved := foldStateChange_moves (stateMap defs) goal.state fields
      rw [← placed] at moved
      refine stood_moved id defs fields shown current goal later final aimed computed keeps rfl told
        (lands _ _ moved) (awaiting.trans ?_) folded
      change (stateUndone (stateMap defs) ctx.now shown goal fields).awaiting = fields.awaiting
      rw [placed, foldStateChange_awaiting]

theorem Undo.reaches_iff (ctx : Ctx) (db after : Database) (id : String)
    (target : List StoryEvent) (story : StoryNo) (current goal later : StorySnapshot)
    (typed taken retracted : List StoryEvent) (lowers : Lowers ctx.toLowercase)
    (undo : Undo ctx db after id target story current goal later typed taken retracted) :
    Reaches ctx goal later ↔
      StateReached (stateMap db.states)
          (replay (stateMap db.states) (history db story)).legacyDeletionActive
          (effectiveSnapshot db current) current goal ∧
        SharedAlike current goal := by
  have before := undo.before
  have typedAs := undo.typedAs
  have takes := undo.takes
  have own := undo.own
  have closes := undo.closed
  have folded := undo.folded
  have reached := undo.aim
  obtain ⟨state, superstate, computed, kept⟩ := effective_kept db current
  generalize effectiveSnapshot db current = shown at typedAs takes own closes kept ⊢
  have told : Tells (replay (stateMap db.states) (history db story)) shown := by
    have tells := finishFold_tells (stateMap db.states) _ id current before
    subst kept
    exact ⟨tells.title, tells.description, tells.priority, tells.priorityAssessed, tells.complexity,
      tells.complexityAssessed, tells.labels, tells.awaiting, tells.storyType, tells.comments⟩
  have relations : ∀ relation, relation ∈ shown.relationships ↔
      relation ∈ (replay (stateMap db.states) (history db story)).relationships := by
    intro relation
    rw [← foldStory_relationships id _ _ current before, kept]
  rw [undo.states, own] at folded
  obtain ⟨edges, updatedAt, become⟩ := undoEvents_become ctx (stateMap db.states) shown goal _ id
    target typed taken retracted told reached typedAs takes undo.unblocks
  have ended : finishFold id (stateMap db.states)
      { undone ctx (stateMap db.states) shown goal
          (replay (stateMap db.states) (history db story)) with
        relationships := edges, updatedAt := updatedAt } = .ok later := by
    rw [foldStory, replay, List.append_assoc, List.foldl_append, ← replay, become] at folded
    exact folded
  have tells := finishFold_tells (stateMap db.states) _ id later ended
  have unmoved := stateUndone_unmoved (stateMap db.states) ctx.now shown goal
    (fieldsUndone ctx shown goal (replay (stateMap db.states) (history db story)))
  have stood := undone_stood ctx db.states id _ _ shown current goal later
    (goal_of_fold id db.states goal target reached) before (by rfl) (by rfl) (by rfl) (by rfl) ended
  have texts := commentsUndone_texts ctx.now shown goal
    (stateUndone (stateMap db.states) ctx.now shown goal
      (fieldsUndone ctx shown goal (replay (stateMap db.states) (history db story))))
    (unmoved.comments.trans told.comments)
  have said : commentsUndone ctx.now shown goal (stateUndone (stateMap db.states) ctx.now shown goal
      (fieldsUndone ctx shown goal (replay (stateMap db.states) (history db story)))) =
        later.comments := tells.comments
  have shared : SharedAlike shown goal ↔ SharedAlike current goal := by
    rw [SharedAlike, SharedAlike, kept]
  rw [said, shared] at texts
  have remains (relation : StoryRelation) : relation ∈ later.relationships ↔
      relation ∈ goal.relationships ∧ relation ∉ retracted.filterMap removedRelation := by
    rw [foldStory_relationships id _ _ later folded, replay_removes,
      undoEvents_relationships ctx _ _ id shown goal typed taken typedAs takes
        (fun some => undo.others (List.append_ne_nil_of_left_ne_nil some _)) relations]
    intro event member
    obtain ⟨_, _, _, rfl, -⟩ := undo.unblocks event member
    rfl
  constructor
  · intro reaches
    exact ⟨stood.mp ⟨reaches.awaiting, reaches.state, reaches.superstate, reaches.closed⟩,
      texts.mp reaches.comments⟩
  · rintro ⟨stateReached, alike⟩
    obtain ⟨awaiting, stateSame, superSame, closedSame⟩ := stood.mpr stateReached
    refine ⟨?_, ?_, ?_, ?_, ?_, ?_, ?_, awaiting, ?_, stateSame, superSame, closedSame,
      texts.mpr alike, fun relation member => ((remains relation).mp member).1, ?_⟩
    · exact tells.title_eq _ later goal.title unmoved.title
    · rw [← tells.description]
      exact (congrArg (Option.getD · "") unmoved.description).trans (describedAs_getD shown goal)
    · exact tells.priority.symm.trans unmoved.priority
    · exact tells.priorityAssessed.symm.trans unmoved.priorityAssessed
    · exact tells.complexity.symm.trans unmoved.complexity
    · exact tells.complexityAssessed.symm.trans unmoved.complexityAssessed
    · rw [← tells.labels]
      exact (congrArg (normalizeLabels ctx) unmoved.labels).trans
        (labelledAs_normal ctx shown goal lowers)
    · exact tells.storyType.symm.trans unmoved.storyType
    · intro relation member lost
      have gone : relation ∈ retracted.filterMap removedRelation := by
        by_contra kept
        exact lost ((remains relation).mpr ⟨member, kept⟩)
      obtain ⟨event, written, named⟩ := List.mem_filterMap.mp gone
      obtain ⟨now, otherId, name, rfl, unblocks⟩ := undo.unblocks event written
      cases named
      have others := undo.others
        (List.append_ne_nil_of_right_ne_nil _ (List.ne_nil_of_mem written))
      refine ⟨unblocks.resolve_right (others _ member), ?_⟩
      obtain ⟨middle, earlier, closed⟩ := closes (List.ne_nil_of_mem written)
      obtain ⟨closedAt, -⟩ := finishFold_kept id _ _ later folded
      obtain ⟨closedBefore, -⟩ := finishFold_kept id _ _ middle earlier
      rw [closedAt, replay_closedAt, ← closedBefore, closed]
      intro event member
      obtain ⟨_, _, _, rfl, -⟩ := undo.unblocks event member
      rfl

/-- Whether an undo brought its story to what the other history folds to. -/
def Restored (ctx : Ctx) (db after : Database) (id : String) (target : List StoryEvent) : Prop :=
  ∀ story row goal, resolveStory db id = .ok (story, row) →
    foldStory id target (stateMap db.states) = .ok goal →
      ∃ later, foldStory id (history after story) (stateMap after.states) = .ok later ∧
        Reaches ctx goal later

/-- Whether the state of the other history can be gone back to, and the comments it shares with the
story's own are as many in both. -/
def Restorable (db : Database) (id : String) (target : List StoryEvent) : Prop :=
  ∀ story row current goal, resolveStory db id = .ok (story, row) →
    foldStory id (history db story) (stateMap db.states) = .ok current →
      foldStory id target (stateMap db.states) = .ok goal →
        StateReached (stateMap db.states)
            (replay (stateMap db.states) (history db story)).legacyDeletionActive
            (effectiveSnapshot db current) current goal ∧
          SharedAlike current goal

/-- An undo brings its story to what the other history folds to just where that can be gone back
to. -/
theorem restore_reaches_iff (ctx : Ctx) (db after : Database) (id : String)
    (target appended : List StoryEvent) (lowers : Lowers ctx.toLowercase)
    (ran : restore ctx db id target = .ok (after, appended)) :
    Restored ctx db after id target ↔ Restorable db id target := by
  obtain ⟨story, current, goal, later, typed, taken, retracted, undo⟩ :=
    restore_undo ctx db after id target appended ran
  obtain ⟨row, found⟩ := undo.resolved
  have reaches := undo.reaches_iff ctx db after id target story current goal later typed taken
    retracted lowers
  constructor
  · intro restored story' row' current' goal' found' before' aim'
    cases found.symm.trans found'
    cases undo.before.symm.trans before'
    cases undo.aim.symm.trans aim'
    obtain ⟨later', folded, reached⟩ := restored story row goal found undo.aim
    cases undo.folded.symm.trans folded
    exact reaches.mp reached
  · intro restorable story' row' goal' found' aim'
    cases found.symm.trans found'
    cases undo.aim.symm.trans aim'
    exact ⟨later, undo.folded, reaches.mpr (restorable story row current goal found undo.before
      undo.aim)⟩

/-- The undo that makes a story a parent again. -/
theorem restore_reaches_parent : ∃ db parted after outcome appended,
    (familyOperations (some "epic")).foldlM (perform (plainCtx "t1"))
        (emptyProject "SH" defaultStates defaultTypes true) = .ok db ∧
      relate (plainCtx "t2") db "SH-1" "parent-of" "SH-2" true = .ok (parted, outcome) ∧
      restore (plainCtx "t3") parted "SH-1" (history db 1) = .ok (after, appended) ∧
        (Restored (plainCtx "t3") parted after "SH-1" (history db 1) ↔
          Restorable parted "SH-1" (history db 1)) := by
  obtain ⟨db, ran, checked⟩ := any_ok _
    (fun db => (relate (plainCtx "t2") db "SH-1" "parent-of" "SH-2" true).toOption.any
      fun written => (restore (plainCtx "t3") written.1 "SH-1" (history db 1)).toOption.any
        fun _ => true)
    (by decide +kernel : ((familyOperations (some "epic")).foldlM (perform (plainCtx "t1"))
      (emptyProject "SH" defaultStates defaultTypes true)).toOption.any _ = true)
  obtain ⟨⟨parted, outcome⟩, removed, checked⟩ := any_ok _ _ checked
  obtain ⟨⟨after, appended⟩, restored, -⟩ := any_ok _ _ checked
  exact ⟨db, parted, after, outcome, appended, ran, removed, restored,
    restore_reaches_iff (plainCtx "t3") parted after "SH-1" (history db 1) appended
      ⟨fun _ => rfl, fun _ whole => whole, fun _ same => same⟩ restored⟩

/-- An undo of a story without children brings it back to the goal just where the goal's state can
be gone back to, and both have the comments that they share equally often. -/
theorem leaf_undone_iff (ctx : Ctx) (db after : Database) (id : String)
    (target appended : List StoryEvent) (story : StoryNo) (row : StoryRow)
    (current goal : StorySnapshot) (lowers : Lowers ctx.toLowercase)
    (found : resolveStory db id = .ok (story, row))
    (before : foldStory id (history db story) (stateMap db.states) = .ok current)
    (aim : foldStory id target (stateMap db.states) = .ok goal)
    (leaf : hasChildren current = false ∧ hasChildren goal = false)
    (ran : restore ctx db id target = .ok (after, appended)) :
    (∃ later, foldStory id (history after story) (stateMap after.states) = .ok later ∧
        Reaches ctx goal later) ↔
      LeafReached (stateMap db.states)
          (replay (stateMap db.states) (history db story)).legacyDeletionActive
          (effectiveSnapshot db current) current goal ∧
        SharedAlike current goal := by
  obtain ⟨story', current', goal', later, typed, taken, retracted, undo⟩ :=
    restore_undo ctx db after id target appended ran
  obtain ⟨row', found'⟩ := undo.resolved
  cases found'.symm.trans found
  cases undo.before.symm.trans before
  cases undo.aim.symm.trans aim
  have reaches := undo.reaches_iff ctx db after id target story current goal later typed taken
    retracted lowers
  rw [stateReached_leaf _ _ _ current goal leaf.2] at reaches
  rw [← reaches]
  constructor
  · rintro ⟨later', folded, reached⟩
    cases undo.folded.symm.trans folded
    exact reached
  · intro reached
    exact ⟨later, undo.folded, reached⟩

def runStory (now : String) (commands : List StoryCommand) : Except AppError Database :=
  commands.foldlM (fun db command => command.run (plainCtx now) db)
    (emptyProject "SH" defaultStates defaultTypes true)

def commentedStory (texts : List String) : List StoryCommand :=
  .create (titledStory "story" []) :: texts.map (.comment "SH-1")

/-- The undo of a story's last comment. -/
def uncomment (db : Database) (story : StoryNo) : Except AppError (Database × List StoryEvent) :=
  restore (plainCtx "t2") db "SH-1" (history db story).dropLast

theorem leaf_undone_comment : ∃ db after story row current goal appended later,
    runStory "t1" (commentedStory ["first", "second"]) = .ok db ∧
      resolveStory db "SH-1" = .ok (story, row) ∧
      foldStory "SH-1" (history db story) (stateMap db.states) = .ok current ∧
      foldStory "SH-1" (history db story).dropLast (stateMap db.states) = .ok goal ∧
      uncomment db story = .ok (after, appended) ∧ goal.comments.length = 1 ∧
      foldStory "SH-1" (history after story) (stateMap after.states) = .ok later ∧
      Reaches (plainCtx "t2") goal later := by
  obtain ⟨db, ran, checked⟩ := any_ok _
    (fun db => (resolveStory db "SH-1").toOption.any fun found =>
      (foldStory "SH-1" (history db found.1) (stateMap db.states)).toOption.any fun current =>
        (foldStory "SH-1" (history db found.1).dropLast (stateMap db.states)).toOption.any
          fun goal => (uncomment db found.1).toOption.any fun _ =>
            !(effectiveSnapshot db current).stateComputed &&
              (effectiveSnapshot db current).state == goal.state &&
              decide (RestsAlike current goal) && decide (SharedAlike current goal) &&
              !hasChildren current && !hasChildren goal && goal.comments.length == 1)
    (by decide +kernel : (runStory "t1" (commentedStory ["first", "second"])).toOption.any _ = true)
  obtain ⟨⟨story, row⟩, found, checked⟩ := any_ok _ _ checked
  obtain ⟨current, before, checked⟩ := any_ok _ _ checked
  obtain ⟨goal, aim, checked⟩ := any_ok _ _ checked
  obtain ⟨⟨after, appended⟩, restored, checked⟩ := any_ok _ _ checked
  simp only [Bool.and_eq_true, Bool.not_eq_true', beq_iff_eq, decide_eq_true_eq] at checked
  obtain ⟨⟨⟨⟨⟨⟨uncomputed, same⟩, rests⟩, alike⟩, childless⟩, leaf⟩, single⟩ := checked
  have reached : LeafReached (stateMap db.states)
      (replay (stateMap db.states) (history db story)).legacyDeletionActive
      (effectiveSnapshot db current) current goal := by
    rw [LeafReached, if_neg (by rw [uncomputed]; exact Bool.false_ne_true), if_pos same]
    exact rests
  obtain ⟨later, folded, done⟩ := (leaf_undone_iff (plainCtx "t2") db after "SH-1" _ appended story
    row current goal ⟨fun _ => rfl, fun _ whole => whole, fun _ same => same⟩ found before aim
    ⟨childless, leaf⟩ restored).mpr ⟨reached, alike⟩
  exact ⟨db, after, story, row, current, goal, appended, later, ran, found, before, aim, restored,
    single, folded, done⟩

/-- Of two comments of one text, written within one second, the undo of the last takes back none. -/
theorem undo_keeps_double_comment : ¬ ∀ (db after : Database) (id : String)
    (target appended : List StoryEvent) (story : StoryNo) (row : StoryRow)
    (current goal : StorySnapshot), resolveStory db id = .ok (story, row) →
      foldStory id (history db story) (stateMap db.states) = .ok current →
      foldStory id target (stateMap db.states) = .ok goal →
      hasChildren current = false ∧ hasChildren goal = false →
      restore (plainCtx "t2") db id target = .ok (after, appended) → commit after = .ok after →
        ∃ later, foldStory id (history after story) (stateMap after.states) = .ok later ∧
          Reaches (plainCtx "t2") goal later := by
  intro undone
  obtain ⟨db, -, checked⟩ := any_ok _
    (fun db => (resolveStory db "SH-1").toOption.any fun found =>
      (foldStory "SH-1" (history db found.1) (stateMap db.states)).toOption.any fun current =>
        (foldStory "SH-1" (history db found.1).dropLast (stateMap db.states)).toOption.any
          fun goal => (uncomment db found.1).toOption.any fun written =>
            (commit written.1).toOption.any fun _ => (foldStory "SH-1" (history written.1 found.1)
              (stateMap written.1.states)).toOption.any fun later =>
                !hasChildren current && !hasChildren goal &&
                  later.comments.length != goal.comments.length)
    (by decide +kernel : (runStory "t1" (commentedStory ["again", "again"])).toOption.any _ = true)
  obtain ⟨⟨story, row⟩, found, checked⟩ := any_ok _ _ checked
  obtain ⟨current, before, checked⟩ := any_ok _ _ checked
  obtain ⟨goal, aim, checked⟩ := any_ok _ _ checked
  obtain ⟨⟨after, appended⟩, restored, checked⟩ := any_ok _ _ checked
  obtain ⟨written, committed, checked⟩ := any_ok _ _ checked
  obtain ⟨later, folded, checked⟩ := any_ok _ _ checked
  rw [commit_ok _ _ committed] at committed
  simp only [Bool.and_eq_true, Bool.not_eq_true', bne_iff_ne] at checked
  obtain ⟨⟨childless, leaf⟩, differ⟩ := checked
  obtain ⟨later', folded', reached⟩ := undone db after "SH-1" _ appended story row current goal
    found before aim ⟨childless, leaf⟩ restored committed
  cases folded.symm.trans folded'
  have counts := reached.comments.length_eq
  rw [List.length_map, List.length_map] at counts
  exact differ counts

end Storyhook.Service
