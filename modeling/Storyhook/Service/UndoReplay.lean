import Mathlib.Algebra.Order.Group.Multiset
import Mathlib.Data.List.DropRight
import Storyhook.Service.RelationRemoval

/-! What the events of an undo make of the fold of a story. -/

namespace Storyhook.Service

open Storyhook.Domain Storyhook.Store
open Library Library.Outcome

/-- A story stands where an undo was to bring it: blocking edges may be gone from a closed one. -/
structure Reaches (ctx : Ctx) (goal later : StorySnapshot) : Prop where
  title : later.title = goal.title
  description : later.description.getD "" = goal.description.getD ""
  priority : later.priority = goal.priority
  priorityAssessed : later.priorityAssessed = goal.priorityAssessed
  complexity : later.complexity = goal.complexity
  complexityAssessed : later.complexityAssessed = goal.complexityAssessed
  labels : normalizeLabels ctx later.labels = normalizeLabels ctx goal.labels
  awaiting : later.awaiting = goal.awaiting
  storyType : later.storyType = goal.storyType
  state : later.state = goal.state
  superstate : later.superstate = goal.superstate
  closed : later.closedAt.isSome = goal.closedAt.isSome
  comments : (later.comments.map (·.text)).Perm (goal.comments.map (·.text))
  fewer : ∀ relation ∈ later.relationships, relation ∈ goal.relationships
  lost : ∀ relation ∈ goal.relationships, relation ∉ later.relationships →
    relation.relation = "blocks" ∧ later.closedAt.isSome = true

/-- Where a story rests that names the slug: a deletion in force takes it to a closed state. -/
def restingSlug (states : StateCatalog) (deleted : Bool) (slug : String) : String :=
  if deleted then ((restingStateForClosure states).map (·.slug)).getD slug else slug

/-- What an undo makes of a state that the story shows and does not have: it writes that one. -/
structure ComputedReached (states : StateCatalog) (deleted : Bool)
    (shown current goal : StorySnapshot) : Prop where
  awaiting : shown.superstate = .closed → shown.awaiting.isSome = true → goal.awaiting = none
  opened : namesOpenState states shown.state = true →
    goal.state = historicalSlug shown.state states ∧ goal.superstate = .open ∧ goal.closedAt = none
  shut : namesOpenState states shown.state = false →
    goal.state = restingSlug states deleted (historicalSlug shown.state states) ∧
      goal.superstate = .closed ∧
        goal.closedAt.isSome = (shown.superstate == .closed || current.closedAt.isSome)

/-- Whether an undo writes no state: it is the same, or the story's children give it again. -/
def keepsState (shown goal : StorySnapshot) : Bool :=
  shown.state == goal.state || !shown.stateComputed && goal.stateComputed && hasChildren goal

def RestsAlike (current goal : StorySnapshot) : Prop :=
  current.state = goal.state ∧ current.superstate = goal.superstate ∧
    current.closedAt.isSome = goal.closedAt.isSome

instance (current goal : StorySnapshot) : Decidable (RestsAlike current goal) :=
  inferInstanceAs (Decidable (_ ∧ _ ∧ _))

/-- What a move to the goal's state comes to rest as: a closing mark is dropped, never made. -/
def MoveReached (states : StateCatalog) (deleted : Bool) (current goal : StorySnapshot) : Prop :=
  if namesOpenState states goal.state then goal.superstate = .open ∧ goal.closedAt = none
  else restingSlug states deleted goal.state = goal.state ∧
    current.closedAt.isSome = goal.closedAt.isSome

def StateReached (states : StateCatalog) (deleted : Bool) (shown current goal : StorySnapshot) :
    Prop :=
  if shown.stateComputed && !hasChildren goal then
    ComputedReached states deleted shown current goal
  else if keepsState shown goal then RestsAlike current goal
  else MoveReached states deleted current goal

/-- Where the goal has no children, its state is kept just where it is the one that is shown. -/
def LeafReached (states : StateCatalog) (deleted : Bool) (shown current goal : StorySnapshot) :
    Prop :=
  if shown.stateComputed then ComputedReached states deleted shown current goal
  else if shown.state = goal.state then RestsAlike current goal
  else MoveReached states deleted current goal

theorem stateReached_leaf (states : StateCatalog) (deleted : Bool)
    (shown current goal : StorySnapshot) (leaf : hasChildren goal = false) :
    StateReached states deleted shown current goal ↔
      LeafReached states deleted shown current goal := by
  rw [StateReached, LeafReached, keepsState, leaf, Bool.not_false, Bool.and_true, Bool.and_false,
    Bool.or_false]
  simp only [beq_iff_eq]

/-- Whether the comments that two folds share are as many, of every text, in both. -/
def SharedAlike (current goal : StorySnapshot) : Prop :=
  ((current.comments.filter (goal.comments.contains ·)).map (·.text)).Perm
    ((goal.comments.filter (current.comments.contains ·)).map (·.text))

instance (current goal : StorySnapshot) : Decidable (SharedAlike current goal) :=
  inferInstanceAs (Decidable (List.Perm _ _))

/-! ### Labels -/

theorem trim_trim (text : List Char) : Text.trim (Text.trim text) = Text.trim text := by
  have last : (Text.trim text).reverse.dropWhile Text.isWhitespace = (Text.trim text).reverse := by
    rw [Text.trim, List.reverse_reverse, List.dropWhile_idempotent]
  have first : (Text.trim text).dropWhile Text.isWhitespace = Text.trim text := by
    cases shape : Text.trim text with
    | nil => rfl
    | cons head rest =>
        obtain ⟨more, split⟩ : Text.trim text <+: text.dropWhile Text.isWhitespace :=
          List.rdropWhile_prefix Text.isWhitespace _
        have solid := List.head?_dropWhile_not Text.isWhitespace text
        rw [← split, shape] at solid
        exact List.dropWhile_cons_of_neg (by simpa using solid)
  conv_lhs => rw [Text.trim, first, last, List.reverse_reverse]

/-- What is known of a lowercase mapping of texts. -/
structure Lowers (lower : List Char → List Char) : Prop where
  again : ∀ text, lower (lower text) = lower text
  whole : ∀ text, ',' ∉ text → ',' ∉ lower text
  trimmed : ∀ text, Text.trim text = text → Text.trim (lower text) = lower text

theorem normalizeLabels_again (ctx : Ctx) (lowers : Lowers ctx.toLowercase) (raw : List String) :
    normalizeLabels ctx (normalizeLabels ctx raw) = normalizeLabels ctx raw := by
  have normal (label : String) (member : label ∈ normalizeLabels ctx raw) :
      label.isEmpty = false ∧ ((label.toList.splitOn ',').map fun piece =>
        String.ofList (ctx.toLowercase (Text.trim piece))) = [label] := by
    rw [normalizeLabels, Std.TreeSet.mem_toList, Std.TreeSet.mem_ofList, List.contains_iff_mem,
      List.mem_filter, Bool.not_eq_true'] at member
    obtain ⟨pieces, filled⟩ := member
    obtain ⟨value, -, listed⟩ := List.mem_flatMap.mp pieces
    obtain ⟨piece, cut, rfl⟩ := List.mem_map.mp listed
    refine ⟨filled, ?_⟩
    have clear : ',' ∉ Text.trim piece := by
      obtain ⟨lead, trail, split, -⟩ := Text.trim_split piece
      intro inside
      refine Text.not_mem_of_mem_splitOn ',' value.toList piece cut ?_
      rw [split]
      exact List.mem_append_left _ (List.mem_append_right _ inside)
    have alone : (ctx.toLowercase (Text.trim piece)).splitOn ',' =
        [ctx.toLowercase (Text.trim piece)] := by
      rw [List.splitOn_eq_splitOnP]
      refine List.splitOnP_eq_singleton fun c inside => beq_false_of_ne ?_
      rintro rfl
      exact lowers.whole _ clear inside
    rw [String.toList_ofList, alone, List.map_singleton, lowers.trimmed _ (trim_trim piece),
      lowers.again]
  have same : (normalizeLabels ctx raw).flatMap (fun value => (value.toList.splitOn ',').map
      fun piece => String.ofList (ctx.toLowercase (Text.trim piece))) =
        normalizeLabels ctx raw := by
    rw [List.flatMap_congr fun label member => (normal label member).2, List.flatMap_singleton']
  have filled : (normalizeLabels ctx raw).filter (fun piece => !piece.isEmpty) =
      normalizeLabels ctx raw := by
    refine List.filter_eq_self.mpr fun label member => ?_
    rw [(normal label member).1]
    rfl
  conv_lhs => rw [normalizeLabels, same, filled]
  rw [normalizeLabels, ← Std.TreeSet.equiv_iff_toList_eq, Std.TreeSet.equiv_iff_forall_mem_iff]
  intro label
  rw [Std.TreeSet.mem_ofList, List.contains_iff_mem, Std.TreeSet.mem_toList]

/-! ### Histories -/

/-- What every replay has: no level without an assessment, and no comment that links a commit. -/
structure Plainly (acc : FoldState) : Prop where
  priority : acc.priorityAssessed = false → acc.priority = .none
  complexity : acc.complexityAssessed = false → acc.complexity = .medium
  comments : ∀ comment ∈ acc.comments, parseGitLinkComment comment.text = none

section Replay

variable (states : StateCatalog)

theorem mem_removeLast {α : Type} (matching : α → Bool) (entries : List α) (entry : α)
    (member : entry ∈ removeLast matching entries) : entry ∈ entries := by
  rw [removeLast, List.mem_reverse] at member
  exact List.mem_reverse.mp (List.mem_of_mem_eraseP member)

theorem foldStep_plainly (acc : FoldState) (event : StoryEvent) (plain : Plainly acc) :
    Plainly (foldStep states acc event) := by
  cases event with
  | storyPrioritySet atTime level => exact ⟨nofun, plain.complexity, plain.comments⟩
  | storyPriorityCleared atTime => exact ⟨fun _ => rfl, plain.complexity, plain.comments⟩
  | storyComplexitySet atTime level => exact ⟨plain.priority, nofun, plain.comments⟩
  | storyComplexityCleared atTime => exact ⟨plain.priority, fun _ => rfl, plain.comments⟩
  | storyCommentRetracted atTime commentAt text =>
      exact ⟨plain.priority, plain.complexity, fun comment member =>
        plain.comments comment (mem_removeLast _ _ comment member)⟩
  | storyCommentAdded atTime text =>
      simp only [foldStep, foldArm, foldComment]
      split
      · exact ⟨plain.priority, plain.complexity, plain.comments⟩
      · next unlinked =>
          refine ⟨plain.priority, plain.complexity, fun comment member => ?_⟩
          rcases List.mem_append.mp member with old | new
          · exact plain.comments comment old
          · rw [List.mem_singleton.mp new]
            exact unlinked
  | storyStateChanged atTime state =>
      simp only [foldStep, foldArm, foldStateChange]
      split <;> exact ⟨plain.priority, plain.complexity, plain.comments⟩
  | storyCreatedAsDraft atTime =>
      simp only [foldStep, foldArm]
      split <;> exact ⟨plain.priority, plain.complexity, plain.comments⟩
  | _ => exact ⟨plain.priority, plain.complexity, plain.comments⟩

theorem replay_plainly (events : List StoryEvent) : Plainly (replay states events) := by
  induction events using List.reverseRecOn with
  | nil => exact ⟨fun _ => rfl, fun _ => rfl, fun _ member => absurd member List.not_mem_nil⟩
  | append_singleton earlier event ih =>
      rw [replay, List.foldl_concat]
      exact foldStep_plainly states _ event ih

theorem foldStep_updatedAt (acc : FoldState) (updatedAt : Option String) (event : StoryEvent) :
    foldStep states { acc with updatedAt := updatedAt } event = foldStep states acc event := by
  cases event with
  | storyCommentAdded atTime text =>
      simp only [foldStep, foldArm, foldComment]
      split <;> rfl
  | storyStateChanged atTime state =>
      simp only [foldStep, foldArm, foldStateChange]
      split <;> rfl
  | storyCreatedAsDraft atTime =>
      simp only [foldStep, foldArm]
      split <;> rfl
  | _ => rfl

/-- The events take one fold to the other, but for when it was last written. -/
def Becomes (events : List StoryEvent) (acc next : FoldState) : Prop :=
  ∃ updatedAt, events.foldl (foldStep states) acc = { next with updatedAt := updatedAt }

theorem Becomes.nil (acc : FoldState) : Becomes states [] acc acc := ⟨acc.updatedAt, rfl⟩

theorem Becomes.append (front back : List StoryEvent) (acc middle next : FoldState)
    (first : Becomes states front acc middle) (second : Becomes states back middle next) :
    Becomes states (front ++ back) acc next := by
  obtain ⟨early, begun⟩ := first
  obtain ⟨late, done⟩ := second
  rw [Becomes, List.foldl_append, begun]
  cases back with
  | nil =>
      refine ⟨early, ?_⟩
      rw [List.foldl_nil] at done ⊢
      rw [done]
  | cons event rest =>
      refine ⟨late, ?_⟩
      rw [List.foldl_cons] at done ⊢
      rw [foldStep_updatedAt, done]

theorem becomes_one (event : StoryEvent) (acc : FoldState) :
    Becomes states [event] acc (foldArm states acc event) := ⟨some (eventAt event), rfl⟩

theorem becomes_whereDiffer (differ : Bool) (event : StoryEvent) (acc next : FoldState)
    (written : differ = true → foldArm states acc event = next)
    (same : differ = false → acc = next) :
    Becomes states (whereDiffer differ event) acc next := by
  cases differ with
  | false =>
      rw [← same rfl]
      exact Becomes.nil states acc
  | true =>
      rw [← written rfl]
      exact becomes_one states event acc

end Replay

/-- A fold in the middle of its replay, and the story as it is shown. -/
structure Tells (acc : FoldState) (shown : StorySnapshot) : Prop where
  title : acc.title = some shown.title
  description : acc.description = shown.description
  priority : acc.priority = shown.priority
  priorityAssessed : acc.priorityAssessed = shown.priorityAssessed
  complexity : acc.complexity = shown.complexity
  complexityAssessed : acc.complexityAssessed = shown.complexityAssessed
  labels : acc.labels = shown.labels
  awaiting : acc.awaiting = shown.awaiting
  storyType : acc.storyType = shown.storyType
  comments : acc.comments = shown.comments

section Fields

variable (ctx : Ctx) (states : StateCatalog) (now : String) (shown goal : StorySnapshot)
  (acc : FoldState)

theorem title_becomes (told : acc.title = some shown.title) :
    Becomes states (whereDiffer (shown.title != goal.title) (.storyTitleSet now goal.title)) acc
      { acc with title := some goal.title } := by
  refine becomes_whereDiffer states _ _ acc _ (fun _ => rfl) fun same => ?_
  rw [← bne_eq_false_iff_eq.mp same, ← told]

def describedAs (shown goal : StorySnapshot) : Option String :=
  if shown.description = goal.description then shown.description
  else some (goal.description.getD "")

theorem description_becomes (told : acc.description = shown.description) :
    Becomes states (whereDiffer (shown.description != goal.description)
      (.storyDescriptionSet now (goal.description.getD ""))) acc
        { acc with description := describedAs shown goal } := by
  refine becomes_whereDiffer states _ _ acc _ (fun differ => ?_) fun same => ?_
  · rw [describedAs, if_neg (bne_iff_ne.mp differ)]
    rfl
  · rw [describedAs, if_pos (bne_eq_false_iff_eq.mp same), ← told]

theorem priority_becomes (told : acc.priority = shown.priority)
    (assessed : acc.priorityAssessed = shown.priorityAssessed)
    (plain : goal.priorityAssessed = false → goal.priority = .none) :
    Becomes states (compensatePriority now shown goal) acc
      { acc with priority := goal.priority, priorityAssessed := goal.priorityAssessed } := by
  refine becomes_whereDiffer states _ _ acc _ (fun _ => ?_) fun same => ?_
  · cases level : goal.priorityAssessed with
    | false =>
        rw [plain level]
        rfl
    | true => rfl
  · rw [Bool.or_eq_false_iff, bne_eq_false_iff_eq, bne_eq_false_iff_eq] at same
    rw [← same.1, ← same.2, ← told, ← assessed]

theorem complexity_becomes (told : acc.complexity = shown.complexity)
    (assessed : acc.complexityAssessed = shown.complexityAssessed)
    (plain : goal.complexityAssessed = false → goal.complexity = .medium) :
    Becomes states (compensateComplexity now shown goal) acc
      { acc with complexity := goal.complexity, complexityAssessed :=
        goal.complexityAssessed } := by
  refine becomes_whereDiffer states _ _ acc _ (fun _ => ?_) fun same => ?_
  · cases level : goal.complexityAssessed with
    | false =>
        rw [plain level]
        rfl
    | true => rfl
  · rw [Bool.or_eq_false_iff, bne_eq_false_iff_eq, bne_eq_false_iff_eq] at same
    rw [← same.1, ← same.2, ← told, ← assessed]

def labelledAs (shown goal : StorySnapshot) : List String :=
  if shown.labels = goal.labels then shown.labels else normalizeLabels ctx goal.labels

theorem labels_becomes (told : acc.labels = shown.labels) :
    Becomes states (whereDiffer (shown.labels != goal.labels)
      (.storyLabelsSet now (normalizeLabels ctx goal.labels))) acc
        { acc with labels := labelledAs ctx shown goal } := by
  refine becomes_whereDiffer states _ _ acc _ (fun differ => ?_) fun same => ?_
  · rw [labelledAs, if_neg (bne_iff_ne.mp differ)]
    rfl
  · rw [labelledAs, if_pos (bne_eq_false_iff_eq.mp same), ← told]

theorem awaiting_becomes (told : acc.awaiting = shown.awaiting) :
    Becomes states (compensateAwaiting now shown goal) acc
      { acc with awaiting := goal.awaiting } := by
  refine becomes_whereDiffer states _ _ acc _ (fun _ => ?_) fun same => ?_
  · cases goal.awaiting <;> rfl
  · rw [← bne_eq_false_iff_eq.mp same, ← told]

theorem type_becomes (typed : List StoryEvent) (told : acc.storyType = shown.storyType)
    (ran : compensateType now shown goal = .ok typed) :
    Becomes states typed acc { acc with storyType := goal.storyType } := by
  rw [compensateType] at ran
  split at ran
  · split at ran
    · next storyType same =>
        cases ran
        rw [same]
        exact becomes_one states _ acc
    · cases ran
  · next same =>
      cases ran
      rw [bne_iff_ne, ne_eq, not_not] at same
      rw [← same, ← told]
      exact Becomes.nil states acc

def fieldEvents (typed : List StoryEvent) : List StoryEvent :=
  whereDiffer (shown.title != goal.title) (.storyTitleSet ctx.now goal.title) ++
    whereDiffer (shown.description != goal.description)
      (.storyDescriptionSet ctx.now (goal.description.getD "")) ++
    compensatePriority ctx.now shown goal ++
    compensateComplexity ctx.now shown goal ++
    whereDiffer (shown.labels != goal.labels)
      (.storyLabelsSet ctx.now (normalizeLabels ctx goal.labels)) ++
    compensateAwaiting ctx.now shown goal ++
    typed

def fieldsUndone : FoldState :=
  { acc with
    title := some goal.title
    description := describedAs shown goal
    priority := goal.priority
    priorityAssessed := goal.priorityAssessed
    complexity := goal.complexity
    complexityAssessed := goal.complexityAssessed
    labels := labelledAs ctx shown goal
    awaiting := goal.awaiting
    storyType := goal.storyType }

theorem fieldEvents_becomes (typed : List StoryEvent) (told : Tells acc shown)
    (unassessed : goal.priorityAssessed = false → goal.priority = .none)
    (unrated : goal.complexityAssessed = false → goal.complexity = .medium)
    (ran : compensateType ctx.now shown goal = .ok typed) :
    Becomes states (fieldEvents ctx shown goal typed) acc (fieldsUndone ctx shown goal acc) := by
  have titled := title_becomes states ctx.now shown goal acc told.title
  have described := titled.append states _ _ acc _ _
    (description_becomes states ctx.now shown goal _ told.description)
  have ranked := described.append states _ _ acc _ _
    (priority_becomes states ctx.now shown goal _ told.priority told.priorityAssessed unassessed)
  have rated := ranked.append states _ _ acc _ _
    (complexity_becomes states ctx.now shown goal _ told.complexity told.complexityAssessed unrated)
  have labelled := rated.append states _ _ acc _ _
    (labels_becomes ctx states ctx.now shown goal _ told.labels)
  have awaited := labelled.append states _ _ acc _ _
    (awaiting_becomes states ctx.now shown goal _ told.awaiting)
  exact awaited.append states _ _ acc _ _
    (type_becomes states ctx.now shown goal _ typed told.storyType ran)

def stateUndone : FoldState :=
  if shown.stateComputed && !hasChildren goal then
    let moved := foldStateChange states shown.state acc
    if shown.superstate = .closed then
      foldClosedAndArchived states now shown.state
        { moved with awaiting := if shown.awaiting.isSome then none else moved.awaiting }
    else moved
  else if !shown.stateComputed && goal.stateComputed && hasChildren goal then
    { acc with stateComputed := true }
  else if shown.state = goal.state then acc
  else foldStateChange states goal.state acc

theorem stateUndone_kept (uncomputed : ¬ (shown.stateComputed && !hasChildren goal) = true)
    (keeps : keepsState shown goal = true) :
    ∃ computed, stateUndone states now shown goal acc = { acc with stateComputed := computed } := by
  rw [stateUndone, if_neg uncomputed]
  split
  · exact ⟨true, rfl⟩
  · next uncleared =>
      rw [keepsState, Bool.or_eq_true] at keeps
      rw [if_pos (beq_iff_eq.mp (keeps.resolve_right uncleared))]
      exact ⟨acc.stateComputed, rfl⟩

theorem stateUndone_moved (uncomputed : ¬ (shown.stateComputed && !hasChildren goal) = true)
    (moves : ¬ keepsState shown goal = true) :
    stateUndone states now shown goal acc = foldStateChange states goal.state acc := by
  rw [keepsState, Bool.or_eq_true, not_or, beq_iff_eq] at moves
  rw [stateUndone, if_neg uncomputed, if_neg moves.2, if_neg moves.1]

theorem stateEvents_becomes :
    Becomes states (compensateState now shown goal) acc
      (stateUndone states now shown goal acc) := by
  rw [compensateState, stateUndone]
  by_cases settles : (shown.stateComputed && !hasChildren goal) = true
  · rw [if_pos settles, if_pos settles]
    have moved := becomes_one states (.storyStateChanged now shown.state) acc
    cases superstate : shown.superstate with
    | «open» =>
        rw [if_neg (by decide), if_neg (by decide)]
        exact moved
    | closed =>
        rw [if_pos (by decide), if_pos rfl]
        refine moved.append states _ _ acc _ _ (Becomes.append states _ _ _ _ _ ?_
          (becomes_one states (.storyClosedAndArchived now shown.state) _))
        refine becomes_whereDiffer states _ _ _ _ (fun held => ?_) fun free => ?_
        · rw [held]
          rfl
        · rw [free]
          rfl
  · rw [if_neg settles, if_neg settles]
    split
    · exact becomes_one states (.storyStateCleared now) acc
    · refine becomes_whereDiffer states _ _ acc _ (fun differ => ?_) fun same => ?_
      · rw [if_neg (bne_iff_ne.mp differ)]
        rfl
      · rw [if_pos (bne_eq_false_iff_eq.mp same)]

def commentsApart (one other : StorySnapshot) : List StoryComment :=
  one.comments.filter fun comment => !other.comments.contains comment

def retractComment (entries : List StoryComment) (comment : StoryComment) : List StoryComment :=
  removeLast (fun entry => entry.atTime = comment.atTime && entry.text = comment.text) entries

def commentsUndone : List StoryComment :=
  (commentsApart shown goal).foldl retractComment acc.comments ++
    (commentsApart goal shown).map fun comment => ⟨now, comment.text⟩

theorem retractions_become (gone : List StoryComment) :
    Becomes states (gone.map fun comment =>
      .storyCommentRetracted now comment.atTime comment.text) acc
        { acc with comments := gone.foldl retractComment acc.comments } := by
  induction gone generalizing acc with
  | nil => exact Becomes.nil states acc
  | cons comment rest further =>
      exact (becomes_one states (.storyCommentRetracted now comment.atTime comment.text) acc).append
        states _ _ acc _ _ (further _)

theorem additions_become (back : List StoryComment)
    (unlinked : ∀ comment ∈ back, parseGitLinkComment comment.text = none) :
    Becomes states (back.map fun comment => .storyCommentAdded now comment.text) acc
      { acc with comments := acc.comments ++ back.map fun comment => ⟨now, comment.text⟩ } := by
  induction back generalizing acc with
  | nil =>
      rw [List.map_nil, List.map_nil, List.append_nil]
      exact Becomes.nil states acc
  | cons comment rest further =>
      have added := becomes_one states (.storyCommentAdded now comment.text) acc
      rw [foldArm, foldComment, unlinked comment List.mem_cons_self] at added
      have later := added.append states _ _ acc _ _
        (further _ fun other member => unlinked other (List.mem_cons_of_mem _ member))
      rw [List.append_assoc] at later
      exact later

theorem comments_become (plain : ∀ comment ∈ goal.comments, parseGitLinkComment comment.text = none) :
    Becomes states (compensateComments now shown goal) acc
      { acc with comments := commentsUndone now shown goal acc } :=
  (retractions_become states now acc (commentsApart shown goal)).append states _ _ acc _ _
    (additions_become states now _ (commentsApart goal shown) fun comment member =>
      plain comment (List.mem_filter.mp member).1)

theorem coe_retractComment (entries : List StoryComment) (comment : StoryComment) :
    (retractComment entries comment : Multiset StoryComment) =
      (entries : Multiset StoryComment).erase comment := by
  rw [Multiset.coe_erase, Multiset.coe_eq_coe, retractComment, removeLast]
  have matched : (fun entry : StoryComment =>
      (entry.atTime = comment.atTime && entry.text = comment.text : Bool)) = (· == comment) := by
    funext entry
    rw [Bool.eq_iff_iff]
    obtain ⟨atTime, text⟩ := entry
    obtain ⟨commentAt, other⟩ := comment
    simp
  rw [matched, ← List.erase_eq_eraseP']
  exact (List.reverse_perm _).trans ((List.reverse_perm entries).erase comment)

theorem coe_retractComments (entries gone : List StoryComment) :
    ((gone.foldl retractComment entries : List StoryComment) : Multiset StoryComment) =
      (entries : Multiset StoryComment) - (gone : Multiset StoryComment) := by
  induction gone generalizing entries with
  | nil => exact (tsub_zero (entries : Multiset StoryComment)).symm
  | cons comment rest further =>
      rw [List.foldl_cons, further, coe_retractComment, ← Multiset.cons_coe, Multiset.sub_cons]

theorem commentsUndone_texts (told : acc.comments = shown.comments) :
    ((commentsUndone now shown goal acc).map (·.text)).Perm (goal.comments.map (·.text)) ↔
      SharedAlike shown goal := by
  have kept : ((commentsApart shown goal).foldl retractComment acc.comments).Perm
      (shown.comments.filter (goal.comments.contains ·)) := by
    rw [← Multiset.coe_eq_coe, coe_retractComments, told]
    refine tsub_eq_of_eq_add ?_
    rw [Multiset.coe_add, Multiset.coe_eq_coe]
    exact (List.filter_append_perm _ shown.comments).symm
  have parts : (goal.comments.map (·.text)).Perm
      ((goal.comments.filter (shown.comments.contains ·)).map (·.text) ++
        (commentsApart goal shown).map (·.text)) := by
    rw [← List.map_append]
    exact ((List.filter_append_perm _ goal.comments).map _).symm
  have added : ((commentsApart goal shown).map fun comment =>
      StoryComment.mk now comment.text).map (·.text) = (commentsApart goal shown).map (·.text) :=
    List.map_map
  rw [commentsUndone, List.map_append, added, parts.congr_right,
    ((kept.map (·.text)).append_right _).congr_left, List.perm_append_right_iff, SharedAlike]

end Fields

/-! ### Where an undone story rests -/

section Rests

variable (id : String) (states : StateCatalog)

theorem finishFold_stands (acc : FoldState) (folded : StorySnapshot) (slug : String)
    (ran : finishFold id states acc = .ok folded) (stood : acc.state = some slug) :
    restingState id states acc.legacyDeletionActive slug = .ok
      (folded.state, folded.superstate) := by
  obtain ⟨state, _, _, resting, superstate, stands, -, -, rests, rfl⟩ :=
    (finishFold_ok _ _ _ _).mp ran
  rw [stood, Option.some.injEq] at stands
  rw [stands, rests]
  rfl

theorem finishFold_kept (acc : FoldState) (folded : StorySnapshot)
    (ran : finishFold id states acc = .ok folded) :
    folded.closedAt = acc.closedAt ∧ folded.awaiting = acc.awaiting := by
  obtain ⟨_, _, _, _, _, -, -, -, -, rfl⟩ := (finishFold_ok _ _ _ _).mp ran
  exact ⟨rfl, rfl⟩

variable (slug resting : String) (superstate : SuperState)

theorem rests_opened (opened : namesOpenState states slug = true)
    (rests : restingState id states false (historicalSlug slug states) = .ok (resting, superstate)) :
    resting = historicalSlug slug states ∧ superstate = .open := by
  obtain ⟨found, known, superState⟩ := (Option.any_eq_true _ _).mp opened
  rw [restingState, if_neg Bool.false_ne_true, known] at rests
  cases rests
  exact ⟨rfl, of_decide_eq_true superState⟩

theorem rests_shut (deleted : Bool) (shut : namesOpenState states slug = false)
    (rests : restingState id states deleted (historicalSlug slug states) =
      .ok (resting, superstate)) :
    resting = restingSlug states deleted (historicalSlug slug states) ∧ superstate = .closed := by
  unfold restingState at rests
  cases deleted with
  | true =>
      rw [if_pos rfl] at rests
      rw [restingSlug, if_pos rfl]
      split at rests <;>
        · next closing =>
            cases rests
            rw [closing]
            exact ⟨rfl, rfl⟩
  | false =>
      rw [if_neg Bool.false_ne_true] at rests
      split at rests
      · next found known =>
          cases rests
          rw [namesOpenState, known, Option.any_some, decide_eq_false_iff_not] at shut
          refine ⟨rfl, ?_⟩
          cases superState : found.superState with
          | «open» => exact absurd superState shut
          | closed => rfl
      · cases rests

theorem historicalSlug_rested (defs : List StateDef) (deleted : Bool)
    (rests : restingState id (stateMap defs) deleted slug = .ok (resting, superstate)) :
    historicalSlug resting (stateMap defs) = resting := by
  by_contra moved
  have renamed : resting = "closed" ∧ (stateMap defs)["closed"]? = none ∧
      ((stateMap defs)[droppedStateSlug]?).map StateDef.superState = some .closed := by
    by_contra other
    exact moved (if_neg other)
  obtain ⟨rfl, missing, dropped⟩ := renamed
  obtain ⟨state, known, superState⟩ := Option.map_eq_some_iff.mp dropped
  have closing : restingStateForClosure (stateMap defs) = some state := by
    change (((stateMap defs)[droppedStateSlug]?).filter fun found =>
      found.superState = .closed).or _ = _
    rw [known, Option.filter_some, if_pos (decide_eq_true superState), Option.some_or]
  cases deleted with
  | true =>
      rw [restingState, if_pos rfl, closing, Except.ok.injEq, Prod.mk.injEq] at rests
      have named := (stateMap_some defs _ state known).2
      exact absurd (named.symm.trans rests.1) (by decide)
  | false =>
      rw [restingState, if_neg Bool.false_ne_true] at rests
      split at rests
      · next found present =>
          cases rests
          rw [missing] at present
          cases present
      · cases rests

end Rests

/-- A fold that was moved to a state, and closed there when it was to be. -/
structure MovedTo (states : StateCatalog) (slug : String) (closes : Bool) (acc next : FoldState) :
    Prop where
  state : next.state = some (historicalSlug slug states)
  deleted : next.legacyDeletionActive = (acc.legacyDeletionActive && !namesOpenState states slug)
  closed : next.closedAt.isSome =
    (!namesOpenState states slug && (closes || acc.closedAt.isSome))

section Moves

variable (states : StateCatalog) (now slug : String) (acc : FoldState)

theorem foldStateChange_moves :
    MovedTo states slug false acc (foldStateChange states slug acc) := by
  rw [foldStateChange]
  split
  · next opened => exact ⟨rfl, by simp [opened], by simp [opened]⟩
  · next shut =>
      rw [Bool.not_eq_true] at shut
      exact ⟨rfl, by simp [shut], by simp [shut]⟩

theorem foldClosedAndArchived_moves (awaiting : Option String) :
    MovedTo states slug true acc (foldClosedAndArchived states now slug
      { foldStateChange states slug acc with awaiting := awaiting }) := by
  have moved := foldStateChange_moves states slug acc
  refine ⟨rfl, moved.deleted, ?_⟩
  rw [foldClosedAndArchived]
  split
  · next opened => exact moved.closed.trans (by simp [opened])
  · next shut =>
      rw [Bool.not_eq_true] at shut
      simp [shut]

theorem foldStateChange_awaiting : (foldStateChange states slug acc).awaiting = acc.awaiting := by
  rw [foldStateChange]
  split <;> rfl

theorem MovedTo.stands (id : String) (closes : Bool) (next : FoldState) (later : StorySnapshot)
    (moved : MovedTo states slug closes acc next)
    (folded : finishFold id states next = .ok later) :
    if namesOpenState states slug then
      later.state = historicalSlug slug states ∧ later.superstate = .open
    else later.state = restingSlug states acc.legacyDeletionActive (historicalSlug slug states) ∧
      later.superstate = .closed := by
  have rests := finishFold_stands id states next later _ folded moved.state
  rw [moved.deleted] at rests
  cases opened : namesOpenState states slug with
  | true =>
      rw [opened, Bool.not_true, Bool.and_false] at rests
      exact rests_opened id states slug later.state later.superstate opened rests
  | false =>
      rw [opened, Bool.not_false, Bool.and_true] at rests
      exact rests_shut id states slug later.state later.superstate acc.legacyDeletionActive opened
        rests

end Moves

/-! ### The state of an undone story -/

section Reached

variable (id : String) (defs : List StateDef) (now : String) (acc : FoldState)
  (shown current goal later : StorySnapshot)

theorem stateUndone_computed (computed : (shown.stateComputed && !hasChildren goal) = true) :
    MovedTo (stateMap defs) shown.state (shown.superstate == .closed) acc
        (stateUndone (stateMap defs) now shown goal acc) ∧
      (stateUndone (stateMap defs) now shown goal acc).awaiting =
        if shown.superstate = .closed ∧ shown.awaiting.isSome =
          true then none else acc.awaiting := by
  rw [stateUndone, if_pos computed]
  cases superstate : shown.superstate with
  | «open» =>
      rw [if_neg (by decide), if_neg (by simp)]
      exact ⟨foldStateChange_moves _ shown.state acc, foldStateChange_awaiting _ shown.state acc⟩
  | closed =>
      rw [if_pos rfl]
      refine ⟨foldClosedAndArchived_moves _ now shown.state acc _, ?_⟩
      rw [foldClosedAndArchived, foldStateChange_awaiting]
      cases shown.awaiting <;> rfl

/-- Where the state of the goal comes from: a fold of its own. -/
structure Goal : Prop where
  spelled : historicalSlug goal.state (stateMap defs) = goal.state
  opened : goal.superstate = .open → namesOpenState (stateMap defs) goal.state = true

theorem goal_of_fold (target : List StoryEvent)
    (folded : foldStory id target (stateMap defs) = .ok goal) : Goal defs goal := by
  obtain ⟨slug, _, _, resting, superstate, -, -, -, rests, rfl⟩ := (finishFold_ok _ _ _ _).mp folded
  have spelled := historicalSlug_rested id slug resting superstate defs _ rests
  refine ⟨spelled, fun opened => ?_⟩
  change superstate = .open at opened
  subst opened
  obtain ⟨-, rfl, named⟩ := (restingState_open _ _ _ _ _).mp rests
  change namesOpenState (stateMap defs) resting = true
  obtain ⟨found, known, superState⟩ := Option.map_eq_some_iff.mp named
  rw [namesOpenState, spelled, known, Option.any_some, decide_eq_true superState]

structure Stood : Prop where
  awaiting : later.awaiting = goal.awaiting
  state : later.state = goal.state
  superstate : later.superstate = goal.superstate
  closed : later.closedAt.isSome = goal.closedAt.isSome

theorem stood_computed (next : FoldState)
    (computed : (shown.stateComputed && !hasChildren goal) = true)
    (awaits : acc.awaiting = goal.awaiting)
    (told : acc.closedAt = current.closedAt)
    (moved : MovedTo (stateMap defs) shown.state (shown.superstate == .closed) acc next)
    (waits : next.awaiting =
      if shown.superstate = .closed ∧ shown.awaiting.isSome = true then none else acc.awaiting)
    (folded : finishFold id (stateMap defs) next = .ok later) :
    Stood goal later ↔
      StateReached (stateMap defs) acc.legacyDeletionActive shown current goal := by
  obtain ⟨closedAt, awaiting⟩ := finishFold_kept id _ next later folded
  have stands := moved.stands _ _ _ id _ next later folded
  have closes := moved.closed
  rw [← closedAt, told] at closes
  rw [← awaiting, awaits] at waits
  rw [StateReached, if_pos computed]
  cases opened : namesOpenState (stateMap defs) shown.state with
  | true =>
      rw [opened] at stands closes
      simp only [if_true] at stands
      simp only [Bool.not_true, Bool.false_and] at closes
      constructor
      · intro stood
        refine ⟨fun shut held => ?_, fun _ => ⟨?_, ?_, ?_⟩, fun shut => ?_⟩
        · rw [← stood.awaiting, waits, if_pos ⟨shut, held⟩]
        · rw [← stood.state, stands.1]
        · rw [← stood.superstate, stands.2]
        · rw [← Option.not_isSome_iff_eq_none, ← stood.closed, closes]
          exact Bool.false_ne_true
        · rw [opened] at shut
          cases shut
      · intro reached
        obtain ⟨state, superstate, unclosed⟩ := reached.opened opened
        refine ⟨?_, stands.1.trans state.symm, stands.2.trans superstate.symm, ?_⟩
        · rw [waits]
          split
          · next both => exact (reached.awaiting both.1 both.2).symm
          · rfl
        · rw [closes, unclosed]
          rfl
  | false =>
      rw [opened] at stands closes
      rw [if_neg Bool.false_ne_true] at stands
      rw [Bool.not_false, Bool.true_and] at closes
      constructor
      · intro stood
        refine ⟨fun shut held => ?_, fun named => ?_, fun _ => ⟨?_, ?_, ?_⟩⟩
        · rw [← stood.awaiting, waits, if_pos ⟨shut, held⟩]
        · rw [opened] at named
          cases named
        · rw [← stood.state, stands.1]
        · rw [← stood.superstate, stands.2]
        · rw [← stood.closed, closes]
      · intro reached
        obtain ⟨state, superstate, closed⟩ := reached.shut opened
        refine ⟨?_, stands.1.trans state.symm, stands.2.trans superstate.symm,
          closes.trans closed.symm⟩
        rw [waits]
        split
        · next both => exact (reached.awaiting both.1 both.2).symm
        · rfl

theorem stood_moved (next : FoldState) (aimed : Goal defs goal)
    (uncomputed : ¬ (shown.stateComputed && !hasChildren goal) = true)
    (moves : ¬ keepsState shown goal = true)
    (awaits : acc.awaiting = goal.awaiting) (told : acc.closedAt = current.closedAt)
    (moved : MovedTo (stateMap defs) goal.state false acc next)
    (waits : next.awaiting = acc.awaiting)
    (folded : finishFold id (stateMap defs) next = .ok later) :
    Stood goal later ↔
      StateReached (stateMap defs) acc.legacyDeletionActive shown current goal := by
  obtain ⟨closedAt, awaiting⟩ := finishFold_kept id _ next later folded
  have stands := moved.stands _ _ _ id _ next later folded
  have closes := moved.closed
  rw [← closedAt, told, Bool.false_or] at closes
  rw [← awaiting, awaits] at waits
  rw [aimed.spelled] at stands
  rw [StateReached, if_neg uncomputed, if_neg moves, MoveReached]
  cases opened : namesOpenState (stateMap defs) goal.state with
  | true =>
      rw [opened] at stands closes
      rw [if_pos rfl] at stands
      rw [Bool.not_true, Bool.false_and] at closes
      rw [if_pos rfl]
      constructor
      · intro stood
        refine ⟨stood.superstate.symm.trans stands.2, ?_⟩
        rw [← Option.not_isSome_iff_eq_none, ← stood.closed, closes]
        exact Bool.false_ne_true
      · rintro ⟨superstate, unclosed⟩
        refine ⟨waits, stands.1, stands.2.trans superstate.symm, ?_⟩
        rw [closes, unclosed]
        rfl
  | false =>
      rw [opened] at stands closes
      rw [if_neg Bool.false_ne_true] at stands
      rw [Bool.not_false, Bool.true_and] at closes
      rw [if_neg Bool.false_ne_true]
      have shut : goal.superstate = .closed := by
        cases superstate : goal.superstate with
        | «open» =>
            rw [aimed.opened superstate] at opened
            cases opened
        | closed => rfl
      constructor
      · intro stood
        exact ⟨stands.1.symm.trans stood.state, closes.symm.trans stood.closed⟩
      · rintro ⟨rests, closed⟩
        exact ⟨waits, stands.1.trans rests, stands.2.trans shut.symm, closes.trans closed⟩

theorem stood_kept (uncomputed : ¬ (shown.stateComputed && !hasChildren goal) = true)
    (keeps : keepsState shown goal = true)
    (awaiting : later.awaiting = goal.awaiting) (state : later.state = current.state)
    (superstate : later.superstate = current.superstate)
    (closed : later.closedAt = current.closedAt) :
    Stood goal later ↔
      StateReached (stateMap defs) acc.legacyDeletionActive shown current goal := by
  rw [StateReached, if_neg uncomputed, if_pos keeps]
  constructor
  · intro stood
    exact ⟨state.symm.trans stood.state, superstate.symm.trans stood.superstate,
      (congrArg Option.isSome closed).symm.trans stood.closed⟩
  · rintro ⟨toState, toSuperstate, toClosed⟩
    exact ⟨awaiting, state.trans toState, superstate.trans toSuperstate,
      (congrArg Option.isSome closed).trans toClosed⟩

end Reached

end Storyhook.Service
