import Mathlib.Data.List.Sort
import Storyhook.Domain.EpicProjection
import Storyhook.Domain.FoldStory

namespace Storyhook.Domain

open Storyhook.Library

def blockView (story : StorySnapshot) : StorySnapshot :=
  { story with
    title := "", updatedAt := "", comments := [], referencedByCommits := []
    priority := .none, priorityAssessed := false
    complexity := .medium, complexityAssessed := false
    labels := [], description := none, attachments := [], nextAttachmentId := 0 }

section Fold

variable (states : StateCatalog)

def FoldState.blockView (acc : FoldState) : FoldState :=
  { acc with
    title := none, updatedAt := none, comments := [], referencedByCommits := []
    priority := .none, priorityAssessed := false
    complexity := .medium, complexityAssessed := false
    labels := [], description := none, attachments := [], nextAttachmentId := 0 }

theorem inert_step (acc : FoldState) (event : StoryEvent)
    (inert : mayChangeEffectiveBlock event = false) :
    (foldStep states acc event).blockView = acc.blockView := by
  cases event with
  | storyCommentAdded atTime text =>
      simp only [foldStep, foldArm, foldComment]
      split <;> rfl
  | storyCommentRetracted atTime commentAt text => rfl
  | storyCleanupLeaseRecorded atTime => rfl
  | storyComplexitySet atTime level => rfl
  | storyComplexityCleared atTime => rfl
  | storyPrioritySet atTime level => rfl
  | storyPriorityCleared atTime => rfl
  | storyLabelsSet atTime labels => rfl
  | storyTitleSet atTime title => rfl
  | storyDescriptionSet atTime description => rfl
  | storyCommitLinked atTime sha subject => rfl
  | storyPrLinked atTime => rfl
  | storyPrUnlinked atTime => rfl
  | storyPrMerged atTime => rfl
  | storyPrClosed atTime => rfl
  | storyAttachmentAdded atTime id name mediaType byteLen sha256 => rfl
  | storyAttachmentRemoved atTime id => rfl
  | _ => simp [mayChangeEffectiveBlock, eventKind, blockInertEventKinds] at inert

def Titled (acc : FoldState) : Prop := acc.createdAt.isSome → acc.title.isSome

theorem foldStep_titled (acc : FoldState) (event : StoryEvent) (titled : Titled acc) :
    Titled (foldStep states acc event) := by
  cases event with
  | storyCreated atTime title state => exact fun _ => rfl
  | storyTitleSet atTime title => exact fun _ => rfl
  | storyCommentAdded atTime text =>
      simp only [foldStep, foldArm, foldComment]
      split <;> exact titled
  | storyStateChanged atTime state =>
      simp only [foldStep, foldArm, foldStateChange]
      split <;> exact titled
  | storyCreatedAsDraft atTime =>
      simp only [foldStep, foldArm]
      split <;> exact titled
  | _ => exact titled

theorem replay_titled (events : List StoryEvent) : Titled (replay states events) := by
  unfold replay
  induction events using List.reverseRecOn with
  | nil => exact fun impossible => by cases impossible
  | append_singleton events event ih =>
      rw [List.foldl_concat]
      exact foldStep_titled states _ event ih

theorem folded_some (id : String) (acc : FoldState) (view : StorySnapshot) :
    (finishFold id states acc).toOption.map blockView = some view ↔
      ∃ folded, finishFold id states acc = .ok folded ∧ blockView folded = view := by
  cases finishFold id states acc with
  | error failure => simp [Except.toOption]
  | ok folded => simp [Except.toOption]

theorem finishFold_view (id : String) (left right : FoldState) (titled : Titled right)
    (same : left.blockView = right.blockView) (view : StorySnapshot)
    (folds : (finishFold id states left).toOption.map blockView = some view) :
    (finishFold id states right).toOption.map blockView = some view := by
  rw [folded_some] at folds ⊢
  obtain ⟨folded, ok, rfl⟩ := folds
  obtain ⟨state, title, createdAt, resting, superstate, named, -, created, rests, rfl⟩ :=
    (finishFold_ok id states left folded).mp ok
  have created' : right.createdAt = some createdAt :=
    (congrArg FoldState.createdAt same).symm.trans created
  obtain ⟨title', called⟩ := Option.isSome_iff_exists.mp (titled (by simp [created']))
  have named' : right.state = some state := (congrArg FoldState.state same).symm.trans named
  have deleted : left.legacyDeletionActive = right.legacyDeletionActive := by
    have erased := congrArg FoldState.legacyDeletionActive same
    exact erased
  rw [deleted] at rests
  refine ⟨right.snapshot id title' createdAt resting superstate,
    (finishFold_ok id states right _).mpr
      ⟨state, title', createdAt, resting, superstate, named', called, created', rests, rfl⟩, ?_⟩
  have erased (acc : FoldState) (title : String) :
      blockView (acc.snapshot id title createdAt resting superstate) =
        blockView (acc.blockView.snapshot id "" createdAt resting superstate) := rfl
  rw [erased right title', erased left title, same]

theorem inert_fold (id : String) (events : List StoryEvent) (event : StoryEvent)
    (inert : mayChangeEffectiveBlock event = false) :
    (foldStory id (events ++ [event]) states).toOption.map blockView =
      (foldStory id events states).toOption.map blockView := by
  have same : (replay states (events ++ [event])).blockView = (replay states events).blockView := by
    unfold replay
    rw [List.foldl_concat]
    exact inert_step states _ event inert
  refine Option.ext fun view => ⟨?_, ?_⟩
  · exact finishFold_view states id _ _ (replay_titled states _) same view
  · exact finishFold_view states id _ _ (replay_titled states _) same.symm view

end Fold

section View

variable (stories : String → Option StorySnapshot) (fuel : Nat) (states : List StateDef)

def viewed (id : String) : Option StorySnapshot := (stories id).map blockView

theorem resolveEffective_view : resolveEffective (viewed stories) = resolveEffective stories := by
  funext id
  unfold resolveEffective viewed
  cases stories id with
  | none => rfl
  | some story => rfl

theorem blockedForEpic_view (child : StorySnapshot) (state : String) :
    blockedForEpic (viewed stories) fuel (blockView child) state =
      blockedForEpic stories fuel child state := by
  unfold blockedForEpic
  rw [resolveEffective_view]
  rfl

def viewChild (child : StorySnapshot × String × SuperState) :
    StorySnapshot × String × SuperState := (blockView child.1, child.2)

theorem allBlocked_view (children : List (StorySnapshot × String × SuperState)) :
    allBlocked (viewed stories) fuel (children.map viewChild) =
      allBlocked stories fuel children := by
  induction children with
  | nil => rfl
  | cons child rest ih =>
      obtain ⟨child, state, superstate⟩ := child
      simp only [List.map_cons, viewChild, allBlocked, blockedForEpic_view, ← ih]

theorem closedChildrenState_view (children : List (StorySnapshot × String × SuperState)) :
    closedChildrenState (children.map viewChild) = closedChildrenState children := by
  cases children with
  | nil => rfl
  | cons child rest =>
      rw [List.map_cons]
      simp only [closedChildrenState, List.all_cons, List.all_map, Function.comp_def]
      rfl

theorem childState_view (story : StorySnapshot)
    (children : List (StorySnapshot × String × SuperState)) :
    childState (viewed stories) fuel states (blockView story) (children.map viewChild) =
      childState stories fuel states story children := by
  have kept (test : SuperState → Bool) :
      (children.map viewChild).filter (fun child => test child.2.2) =
        (children.filter fun child => test child.2.2).map viewChild := by
    rw [List.filter_map]
    rfl
  have unfinished := kept (· == .open)
  have blocked := allBlocked_view stories fuel
    (children.filter fun child => child.2.2 == .open)
  unfold childState allIncompleteBlocked
  simp only [unfinished, blocked, closedChildrenState_view, List.isEmpty_map, List.all_map,
    List.any_map, Function.comp_def]
  rfl

theorem effectiveChildren_view {β : Type} (ids : List String)
    (next after : List (StorySnapshot × String × SuperState) → Query String Effective β)
    (same : ∀ children, after (children.map viewChild) = next children) :
    (effectiveChildren (viewed stories) ids >>= after) =
      effectiveChildren stories ids >>= next := by
  induction ids generalizing next after with
  | nil => exact same []
  | cons id rest ih =>
      unfold effectiveChildren viewed
      cases stories id with
      | none => exact ih next after same
      | some child =>
          simp only [Option.map_some, Query.bind_assoc]
          refine congrArg (Query.request id >>= ·) (funext fun answer => ?_)
          cases answer with
          | none => exact ih next after same
          | some effective =>
              simp only [Query.bind_assoc]
              exact ih _ _ fun children => same ((child, effective) :: children)

theorem computedEpicBody_view (story : StorySnapshot) :
    computedEpicBody (viewed stories) fuel states (blockView story) =
      computedEpicBody stories fuel states story := by
  have body := effectiveChildren_view stories (relatedIds story "parent-of")
    (fun children => childState stories fuel states story children >>= fun state =>
      pure (state, stateSuperstate states state))
    (fun children => childState (viewed stories) fuel states (blockView story) children >>=
      fun state => pure (state, stateSuperstate states state))
    (fun children => by rw [childState_view])
  unfold computedEpicBody
  split
  · next plain => exact (if_pos plain).symm
  · next epic =>
      refine Eq.trans ?_ (if_neg epic).symm
      dsimp only
      split
      · next childless => exact (if_pos childless).symm
      · next parent => exact body.trans (if_neg parent).symm

theorem epicTask_view : epicTask (viewed stories) fuel states = epicTask stories fuel states := by
  funext id
  unfold epicTask
  cases present : stories id with
  | none => simp [viewed, present]
  | some story =>
      simp only [viewed, present, Option.map_some, computedEpicBody_view]
      rfl

end View

def SameBlockViews (stories others : StoryMap) : Prop :=
  viewed (stories[·]?) = viewed (others[·]?)

section SameBlockViews

variable (stories others : StoryMap) (states : List StateDef)
variable (same : SameBlockViews stories others)

include same

theorem sameBlockViews_keys : stories.keys = others.keys := by
  have antisymmetric : Std.Antisymm fun left right : String => compare left right = .lt :=
    ⟨fun left right less more => by
      rw [Std.OrientedOrd.eq_swap, more] at less
      cases less⟩
  have irreflexive : Std.Irrefl fun left right : String => compare left right = .lt :=
    ⟨fun key less => by
      rw [Std.ReflOrd.compare_self] at less
      cases less⟩
  refine List.Pairwise.eq_of_mem_iff Std.TreeMap.ordered_keys Std.TreeMap.ordered_keys ?_
  intro id
  have alike := congrFun same id
  rw [Std.TreeMap.mem_keys, Std.TreeMap.mem_keys, Std.TreeMap.mem_iff_isSome_getElem?,
    Std.TreeMap.mem_iff_isSome_getElem?, ← Option.isSome_map (f := blockView),
    ← Option.isSome_map (f := blockView) (x := others[id]?)]
  exact iff_of_eq (congrArg (fun found => found.isSome = true) alike)

theorem sameBlockViews_size : stories.size = others.size := by
  rw [← Std.TreeMap.length_keys, ← Std.TreeMap.length_keys, sameBlockViews_keys stories others same]

theorem sameBlockViews_tasks : epicTasks stories states = epicTasks others states := by
  unfold epicTasks
  rw [← epicTask_view, ← epicTask_view (others[·]?), same, sameBlockViews_size stories others same]

theorem sameBlockViews_projected :
    SameBlockViews (applyComputedEpicStates stories states)
      (applyComputedEpicStates others states) := by
  have memo : computedEpicStates stories.keys stories states =
      computedEpicStates others.keys others states := by
    unfold computedEpicStates
    rw [sameBlockViews_keys stories others same, sameBlockViews_size stories others same,
      sameBlockViews_tasks stories others states same]
  funext id
  have alike := congrFun same id
  have projects (memo : Std.TreeMap String Effective) (story : StorySnapshot) :
      blockView (projectEpic memo id story) = projectEpic memo id (blockView story) := by
    unfold projectEpic
    cases memo[id]? with
    | none => rfl
    | some effective =>
        simp only
        split
        · next plain => exact (if_pos plain).symm
        · next epic => exact (if_neg epic).symm
  unfold viewed at alike ⊢
  simp only [applyComputedEpicStates, projectInOrder, Std.TreeMap.getElem?_map, Option.map_map,
    Function.comp_def, projects, memo]
  have mapped := congrArg
    (Option.map (projectEpic (computedEpicStates others.keys others states).memo id)) alike
  simpa only [Option.map_map, Function.comp_def] using mapped

end SameBlockViews

/-- The event logs of a project's stories. -/
abbrev Histories := Std.TreeMap String (List StoryEvent)

def appendEvents (histories : Histories) (id : String) (written : List StoryEvent) : Histories :=
  histories.insert id ((histories[id]?).getD [] ++ written)

def foldProject (histories : Histories) (states : List StateDef) : StoryMap :=
  histories.filterMap fun id events => (foldStory id events (stateMap states)).toOption

/-- Whether a story is blocked, on the map with its epics projected. -/
def projectBlocked (histories : Histories) (states : List StateDef) (id : String) : Option Bool :=
  let projected := applyComputedEpicStates (foldProject histories states) states
  (projected[id]?).map fun story => isBlocked story (projected[·]?)

theorem isBlocked_view (story : StorySnapshot) (stories : String → Option StorySnapshot) :
    isBlocked story stories = isBlocked (blockView story) (viewed stories) := by
  have others : (relatedIds story "blocked-by").any
        (fun other => (stories other).any (·.superstate == .open)) =
      (relatedIds (blockView story) "blocked-by").any
        fun other => (viewed stories other).any (·.superstate == .open) := by
    refine congrArg (List.any (relatedIds story "blocked-by")) (funext fun other => ?_)
    unfold viewed
    cases stories other with
    | none => rfl
    | some found => rfl
  unfold isBlocked
  rw [others]
  rfl

theorem sameBlockViews_blocked (stories others : StoryMap) (same : SameBlockViews stories others)
    (id : String) :
    (stories[id]?).map (fun story => isBlocked story (stories[·]?)) =
      (others[id]?).map fun story => isBlocked story (others[·]?) := by
  have alike := congrArg (Option.map fun story => isBlocked story (viewed (stories[·]?)))
    (congrFun same id)
  unfold viewed at alike
  simp only [Option.map_map, Function.comp_def] at alike
  simp only [isBlocked_view _ (stories[·]?), isBlocked_view _ (others[·]?)]
  rw [← show viewed (stories[·]?) = viewed (others[·]?) from same]
  exact alike

theorem inert_folds (id : String) (events written : List StoryEvent) (states : StateCatalog)
    (inert : ∀ event ∈ written, eventKind event ∈ blockInertEventKinds) :
    (foldStory id (events ++ written) states).toOption.map blockView =
      (foldStory id events states).toOption.map blockView := by
  induction written using List.reverseRecOn with
  | nil => rw [List.append_nil]
  | append_singleton earlier event ih =>
      rw [List.forall_mem_append, List.forall_mem_singleton] at inert
      rw [← List.append_assoc, inert_fold states id (events ++ earlier) event, ih inert.1]
      simpa [mayChangeEffectiveBlock] using inert.2

theorem foldProject_lookup (histories : Histories) (states : List StateDef) (id : String) :
    (foldProject histories states)[id]? =
      (histories[id]?).bind fun events => (foldStory id events (stateMap states)).toOption := by
  simp [foldProject]

theorem appendEvents_view (histories : Histories) (states : List StateDef) (id : String)
    (written : List StoryEvent)
    (inert : ∀ event ∈ written, eventKind event ∈ blockInertEventKinds) :
    SameBlockViews (foldProject (appendEvents histories id written) states)
      (foldProject histories states) := by
  funext other
  unfold viewed
  simp only [foldProject_lookup, appendEvents, Std.TreeMap.getElem?_insert,
    Std.LawfulEqOrd.compare_eq_iff_eq]
  split
  · next same =>
      subst same
      rw [Option.bind_some, inert_folds id _ written _ inert]
      cases histories[id]? with
      | none => rfl
      | some events => rfl
  · rfl

/-- Appending block-inert events to a history blocks and unblocks no story of the project. -/
theorem inert_write_keeps_blocks (histories : Histories) (states : List StateDef) (id : String)
    (written : List StoryEvent)
    (inert : ∀ event ∈ written, eventKind event ∈ blockInertEventKinds) (other : String) :
    projectBlocked (appendEvents histories id written) states other =
      projectBlocked histories states other :=
  sameBlockViews_blocked _ _
    (sameBlockViews_projected _ _ states (appendEvents_view histories states id written inert))
    other

def waitingPair : Histories := .ofList [
  ("SH-1", [StoryEvent.storyCreated "t1" "wait" "todo",
    .storyRelationshipAdded "t2" "SH-2" "blocked-by"]),
  ("SH-2", [StoryEvent.storyCreated "t1" "work" "todo",
    .storyRelationshipAdded "t2" "SH-1" "blocks"])]

theorem retitled_blocker_still_blocks :
    projectBlocked (appendEvents waitingPair "SH-2" [.storyTitleSet "t3" "finish"]) plainStates
      "SH-1" = some true :=
  (inert_write_keeps_blocks waitingPair plainStates "SH-2" [.storyTitleSet "t3" "finish"]
    (by decide) "SH-1").trans (by decide +kernel)

end Storyhook.Domain
