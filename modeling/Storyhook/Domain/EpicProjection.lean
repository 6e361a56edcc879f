import Storyhook.Domain.Epics

namespace Storyhook.Domain

open Storyhook.Library
open Storyhook.Library.Equations

section Walk

variable (answers : String → Option Effective)

theorem anyBlocker_cons (resolve : String → Option BlockFacts)
    (walk : BlockFacts → Std.TreeMap String Bool → Bool × Std.TreeMap String Bool)
    (id : String) (rest : List String) (memo : Std.TreeMap String Bool) :
    anyBlocker (m := Id) resolve walk (id :: rest) memo =
      match resolve id with
      | none => anyBlocker (m := Id) resolve walk rest memo
      | some blocker =>
          if (walk blocker memo).1 then (true, (walk blocker memo).2)
          else anyBlocker (m := Id) resolve walk rest (walk blocker memo).2 := by
  conv => lhs; unfold anyBlocker
  cases resolve id <;> simp <;> rfl

theorem eval_anyBlocker (resolve : String → Query String Effective (Option BlockFacts))
    (walk : BlockFacts → Std.TreeMap String Bool →
      Query String Effective (Bool × Std.TreeMap String Bool))
    (plain : BlockFacts → Std.TreeMap String Bool → Bool × Std.TreeMap String Bool)
    (same : ∀ facts memo, (walk facts memo).eval answers = plain facts memo)
    (ids : List String) (memo : Std.TreeMap String Bool) :
    (anyBlocker resolve walk ids memo).eval answers =
      anyBlocker (m := Id) (fun id => (resolve id).eval answers) plain ids memo := by
  induction ids generalizing memo with
  | nil => rfl
  | cons id rest ih =>
      conv => lhs; unfold anyBlocker
      rw [anyBlocker_cons, Query.eval_bind]
      cases (resolve id).eval answers with
      | none => exact ih memo
      | some blocker =>
          simp only [Query.eval_bind, same]
          split
          · rfl
          · exact ih _

theorem eval_walk (resolve : String → Query String Effective (Option BlockFacts)) (fuel : Nat)
    (visiting : List String) (facts : BlockFacts) (memo : Std.TreeMap String Bool) :
    (walkNeedsIntervention resolve fuel visiting facts memo).eval answers =
      walkNeedsIntervention (m := Id) (fun id => (resolve id).eval answers)
        fuel visiting facts memo := by
  induction fuel generalizing visiting facts memo with
  | zero => rfl
  | succ fuel ih =>
      unfold walkNeedsIntervention
      split
      · rfl
      · split
        · rfl
        · split
          · rfl
          · split
            · rfl
            · rw [Query.eval_bind, eval_anyBlocker answers resolve _ _
                (fun other state => ih (facts.id :: visiting) other state)]
              rfl

end Walk

def commonState : List String → String
  | [] => completionStateSlug
  | first :: rest => if rest.all (· == first) then first else completionStateSlug

/-- What the children of an epic make of its state, on a map whose epics are projected; `stored`
is for a catalog without an open state. -/
def childRule (projected : StoryMap) (states : List StateDef) (stored : String)
    (children : List StorySnapshot) : String :=
  if !children.isEmpty && children.all (·.superstate == .closed) then
    commonState (children.map (·.state))
  else
    let unfinished := children.filter (·.superstate == .open)
    if !unfinished.isEmpty &&
        unfinished.all fun child => !child.draft && needsIntervention child projected then
      "blocked"
    else if unfinished.any fun child => underWay states child.state then "in-progress"
    else ((defaultOpenState states).map (·.slug)).getD stored

def existingChildren (stories : StoryMap) (story : StorySnapshot) : List StorySnapshot :=
  (relatedIds story "parent-of").filterMap (stories[·]?)

section Rollup

variable (stories : String → Option StorySnapshot) (answers : String → Option Effective)

theorem eval_effectiveChildren (ids : List String) :
    (effectiveChildren stories ids).eval answers =
      ids.filterMap fun id => (stories id).bind fun child =>
        (answers id).map fun effective => (child, effective) := by
  induction ids with
  | nil => rfl
  | cons id rest ih =>
      unfold effectiveChildren
      cases found : stories id with
      | none => simp [found, ih]
      | some child =>
          rw [Query.eval_bind, Query.eval_request]
          cases known : answers id with
          | none => simp [found, known, ih]
          | some effective => simp [found, known, ih]

theorem eval_resolveEffective (id : String) :
    (resolveEffective stories id).eval answers =
      (stories id).bind fun snapshot =>
        (answers id).map fun effective => .withEffective snapshot effective.1 effective.2 := by
  unfold resolveEffective
  cases found : stories id with
  | none => rfl
  | some snapshot =>
      simp only [Query.eval_bind, Query.eval_request]
      cases known : answers id with
      | none => rfl
      | some effective => rfl

variable (fuel : Nat) (resolve : String → Option BlockFacts)
variable (agree : ∀ id, (resolveEffective stories id).eval answers = resolve id)

def needsPerson (facts : BlockFacts) : Bool :=
  (walkNeedsIntervention (m := Id) resolve fuel [] facts ∅).1

include agree

theorem eval_blockedForEpic (child : StorySnapshot) (state : String) :
    (blockedForEpic stories fuel child state).eval answers =
      (!child.draft && needsPerson fuel resolve (.withEffective child state .open)) := by
  unfold blockedForEpic
  split
  · next drafted => simp [drafted]
  · next published =>
      simp only [Query.eval_bind, eval_walk, Query.eval_pure,
        Bool.eq_false_of_not_eq_true published,
        Bool.not_false, Bool.true_and, needsPerson, funext agree]

theorem eval_allBlocked (children : List (StorySnapshot × String × SuperState)) :
    (allBlocked stories fuel children).eval answers =
      children.all fun child =>
        !child.1.draft && needsPerson fuel resolve (.withEffective child.1 child.2.1 .open) := by
  induction children with
  | nil => rfl
  | cons first rest ih =>
      obtain ⟨child, state, superstate⟩ := first
      unfold allBlocked
      rw [Query.eval_bind, eval_blockedForEpic stories answers fuel resolve agree, List.all_cons]
      split
      · next held => rw [held, ih, Bool.true_and]
      · next free => simp [free]

end Rollup

section Rule

def childFacts (child : StorySnapshot × String × SuperState) : BlockFacts :=
  .withEffective child.1 child.2.1 child.2.2

variable (children : List (StorySnapshot × String × SuperState)) (projected : List StorySnapshot)
variable (same : children.map childFacts = projected.map .of)

include same

theorem childFacts_all (test : BlockFacts → Bool) :
    children.all (fun child => test (childFacts child)) =
      projected.all fun child => test (.of child) := by
  have mapped := congrArg (List.all · test) same
  simpa only [List.all_map, Function.comp_def] using mapped

theorem childFacts_any (test : BlockFacts → Bool) :
    children.any (fun child => test (childFacts child)) =
      projected.any fun child => test (.of child) := by
  have mapped := congrArg (List.any · test) same
  simpa only [List.any_map, Function.comp_def] using mapped

theorem childFacts_filter (test : BlockFacts → Bool) :
    (children.filter fun child => test (childFacts child)).map childFacts =
      (projected.filter fun child => test (.of child)).map .of := by
  have mapped := congrArg (List.filter test) same
  simpa only [List.filter_map, Function.comp_def] using mapped

theorem childFacts_isEmpty : children.isEmpty = projected.isEmpty := by
  have mapped := congrArg List.isEmpty same
  simpa only [List.isEmpty_map] using mapped

theorem closedChildrenState_common :
    closedChildrenState children = commonState (projected.map (·.state)) := by
  cases children <;> cases projected
  · rfl
  · simp at same
  · simp at same
  · next first rest head tail =>
      rw [List.map_cons, List.map_cons, List.cons.injEq] at same
      obtain ⟨one, others⟩ := same
      have state : first.2.1 = head.state := congrArg BlockFacts.state one
      have all : (rest.all fun child => child.2.1 == head.state) =
          tail.all fun child => child.state == head.state :=
        childFacts_all rest tail others (fun facts => facts.state == head.state)
      unfold closedChildrenState commonState
      simp only [List.map_cons, List.all_cons, List.all_map, Function.comp_def, state,
        beq_self_eq_true, Bool.true_and, all]
      by_cases common : head.state = completionStateSlug
      · simp [common]
      · simp [common]

omit same in
theorem eval_allIncompleteBlocked (same : children.map childFacts = projected.map .of)
    (stories : String → Option StorySnapshot) (answers : String → Option Effective) (map : StoryMap)
    (agree : ∀ id, (resolveEffective stories id).eval answers = (map[id]?).map .of) :
    (allIncompleteBlocked stories (map.size + 1)
      (children.filter fun child => child.2.2 == .open)).eval answers =
    (!(projected.filter fun child => child.superstate == .open).isEmpty &&
      (projected.filter fun child => child.superstate == .open).all
        fun child => !child.draft && needsIntervention child map) := by
  have unfinished : (children.filter fun child => child.2.2 == .open).map childFacts =
      (projected.filter fun child => child.superstate == .open).map .of :=
    childFacts_filter children projected same (fun facts => facts.superstate == .open)
  have each : ((children.filter fun child => child.2.2 == .open).all fun child =>
        !child.1.draft && needsPerson (map.size + 1) (fun id => (map[id]?).map .of)
          (.withEffective child.1 child.2.1 .open)) =
      (children.filter fun child => child.2.2 == .open).all fun child =>
        !(childFacts child).draft && needsPerson (map.size + 1) (fun id => (map[id]?).map .of)
          (childFacts child) := by
    rw [Bool.eq_iff_iff, List.all_eq_true, List.all_eq_true]
    refine forall₂_congr fun child member => ?_
    have isOpen : child.2.2 = .open := by simpa using (List.mem_filter.mp member).2
    unfold childFacts
    rw [isOpen]
    exact Iff.rfl
  unfold allIncompleteBlocked
  rw [childFacts_isEmpty _ _ unfinished]
  split
  · next empty => simp [empty]
  · next some =>
      rw [eval_allBlocked stories answers (map.size + 1) _ agree, each,
        childFacts_all _ _ unfinished (fun facts => !facts.draft &&
          needsPerson (map.size + 1) (fun id => (map[id]?).map .of) facts)]
      simp only [some, Bool.not_false, Bool.true_and]
      rfl

theorem eval_childState (stories : String → Option StorySnapshot)
    (answers : String → Option Effective) (map : StoryMap)
    (agree : ∀ id, (resolveEffective stories id).eval answers = (map[id]?).map .of)
    (states : List StateDef) (story : StorySnapshot) :
    (childState stories (map.size + 1) states story children).eval answers =
      childRule map states story.state projected := by
  have closed : (children.all fun child => child.2.2 == .closed) =
      projected.all fun child => child.superstate == .closed :=
    childFacts_all children projected same (fun facts => facts.superstate == .closed)
  have unfinished : (children.filter fun child => child.2.2 == .open).map childFacts =
      (projected.filter fun child => child.superstate == .open).map .of :=
    childFacts_filter children projected same (fun facts => facts.superstate == .open)
  unfold childState childRule
  simp only [closed, childFacts_isEmpty children projected same]
  split
  · exact closedChildrenState_common children projected same
  · have held := eval_allIncompleteBlocked children projected same stories answers map agree
    have moving : (children.filter fun child => child.2.2 == .open).any
          (fun child => underWay states child.2.1) =
        (projected.filter fun child => child.superstate == .open).any
          fun child => underWay states child.state :=
      childFacts_any _ _ unfinished (fun facts => underWay states facts.state)
    simp only [Query.eval_bind, held, moving]
    split
    · rfl
    · split
      · rfl
      · rfl

end Rule

/-- Every effective state follows from those of other stories, none of them waiting for itself. -/
def Grounded (stories : StoryMap) (states : List StateDef) : Prop :=
  ∀ id ∈ stories.keys, Settled (epicTasks stories states) id

section Projection

variable (stories : StoryMap) (states : List StateDef)

theorem epicTasks_complete : MemoSolve.Complete (epicTasks stories states) stories.keys := by
  intro id task found
  obtain ⟨story, present, -⟩ := Option.map_eq_some_iff.mp found
  exact Std.TreeMap.mem_keys.mpr (Std.TreeMap.mem_iff_isSome_getElem?.mpr (by simp [present]))

theorem epicTasks_room : Room stories.keys (stories.size + 1) [] := by
  have room := Room.start stories.keys
  rwa [Std.TreeMap.length_keys] at room

theorem grounded_iff_guard_silent :
    Grounded stories states ↔
      (computedEpicStates stories.keys stories states).guarded = false :=
  (MemoSolve.guard_silent_iff (epicTasks stories states) stories.keys (stories.size + 1)
    (epicTasks_complete stories states) (epicTasks_room stories) stories.keys).symm

theorem grounded_settled (grounded : Grounded stories states) (id : String) :
    Settled (epicTasks stories states) id := by
  cases found : epicTasks stories states id with
  | none => exact Or.inl found
  | some task => exact grounded id (epicTasks_complete stories states id task found)

theorem computed_eq_solution (grounded : Grounded stories states) (order : List String)
    (covered : ∀ id ∈ stories.keys, id ∈ order) (id : String) :
    (computedEpicStates order stories states).memo[id]? =
      solution (epicTasks stories states) id :=
  MemoSolve.memo_eq_solution (epicTasks stories states) stories.keys stories.size
    (epicTasks_complete stories states) (epicTasks_room stories) order covered
    (fun key _ => grounded_settled stories states grounded key) id

theorem epicTasks_some (id : String) (story : StorySnapshot)
    (present : stories[id]? = some story) :
    epicTasks stories states id = some ⟨(story.state, story.superstate),
      computedEpicBody (stories[·]?) (stories.size + 1) states story⟩ := by
  simp [epicTasks, epicTask, present]

theorem solution_body (grounded : Grounded stories states) (id : String) (story : StorySnapshot)
    (present : stories[id]? = some story) :
    solution (epicTasks stories states) id =
      some ((computedEpicBody (stories[·]?) (stories.size + 1) states story).eval
        (solution (epicTasks stories states))) :=
  solution_equation (epicTasks stories states) id _ (epicTasks_some stories states id story present)
    (grounded_settled stories states grounded id)

theorem body_plain (stories : String → Option StorySnapshot) (fuel : Nat)
    (story : StorySnapshot) (answers : String → Option Effective) (plain : isEpic story = false) :
    (computedEpicBody stories fuel states story).eval answers =
      (story.state, story.superstate) := by
  simp [computedEpicBody, plain]

theorem projectEpic_plain (memo : Std.TreeMap String Effective) (id : String)
    (story : StorySnapshot) (plain : isEpic story = false) : projectEpic memo id story = story := by
  unfold projectEpic
  split
  · rfl
  · simp [plain]

theorem projectEpic_facts (memo : Std.TreeMap String Effective) (id : String)
    (story : StorySnapshot) (effective : Effective) (known : memo[id]? = some effective)
    (own : isEpic story = false → effective = (story.state, story.superstate)) :
    BlockFacts.of (projectEpic memo id story) =
      .withEffective story effective.1 effective.2 := by
  cases epic : isEpic story with
  | false => rw [projectEpic_plain memo id story epic, own epic]; rfl
  | true =>
      unfold projectEpic
      rw [known]
      simp only [epic, Bool.not_true, Bool.false_eq_true, if_false]
      rfl

theorem size_projected (order : List String) :
    (projectInOrder order stories states).size = stories.size := by
  simp [projectInOrder, Std.TreeMap.size_map]

variable (grounded : Grounded stories states) (order : List String)
variable (covered : ∀ id ∈ stories.keys, id ∈ order)

include grounded covered

theorem projected_story (id : String) (story : StorySnapshot)
    (present : stories[id]? = some story) :
    ∃ projected : StorySnapshot, (projectInOrder order stories states)[id]? = some projected ∧
      (isEpic story = false → projected = story) ∧
      BlockFacts.of projected = .withEffective story
        ((computedEpicBody (stories[·]?) (stories.size + 1) states story).eval
          (solution (epicTasks stories states))).1
        ((computedEpicBody (stories[·]?) (stories.size + 1) states story).eval
          (solution (epicTasks stories states))).2 := by
  have known := (computed_eq_solution stories states grounded order covered id).trans
    (solution_body stories states grounded id story present)
  refine ⟨_, ?_, projectEpic_plain _ id story, projectEpic_facts _ id story _ known ?_⟩
  · simp [projectInOrder, Std.TreeMap.getElem?_map, present]
  · exact body_plain states _ _ story _

theorem projected_facts (id : String) :
    (resolveEffective (stories[·]?) id).eval (solution (epicTasks stories states)) =
      ((projectInOrder order stories states)[id]?).map .of := by
  rw [eval_resolveEffective]
  cases present : stories[id]? with
  | none => simp [projectInOrder, Std.TreeMap.getElem?_map, present]
  | some story =>
      obtain ⟨projected, shown, -, facts⟩ :=
        projected_story stories states grounded order covered id story present
      rw [shown, Option.map_some, facts, solution_body stories states grounded id story present]
      rfl

theorem projected_children (ids : List String) :
    (((effectiveChildren (stories[·]?) ids).eval (solution (epicTasks stories states))).map
        childFacts) =
      (ids.filterMap ((projectInOrder order stories states)[·]?)).map .of := by
  rw [eval_effectiveChildren, List.map_filterMap, List.map_filterMap]
  refine List.filterMap_congr fun id _ => ?_
  rw [← projected_facts stories states grounded order covered id, eval_resolveEffective,
    Option.map_bind]
  refine Option.bind_congr fun story _ => ?_
  simp only [Function.comp_apply, Option.map_map]
  rfl

theorem projected_epic (id : String) (epic : StorySnapshot)
    (present : stories[id]? = some epic) (typed : isEpic epic = true)
    (parent : relatedIds epic "parent-of" ≠ []) :
    ∃ projected : StorySnapshot, (projectInOrder order stories states)[id]? = some projected ∧
      projected.state = childRule (projectInOrder order stories states) states epic.state
        (existingChildren (projectInOrder order stories states) epic) ∧
      projected.superstate = stateSuperstate states projected.state := by
  obtain ⟨projected, shown, -, facts⟩ :=
    projected_story stories states grounded order covered id epic present
  have rule := eval_childState _ _
    (projected_children stories states grounded order covered (relatedIds epic "parent-of"))
    (stories[·]?) (solution (epicTasks stories states)) (projectInOrder order stories states)
    (projected_facts stories states grounded order covered) states epic
  rw [size_projected] at rule
  have body : (computedEpicBody (stories[·]?) (stories.size + 1) states epic).eval
      (solution (epicTasks stories states)) =
      (childRule (projectInOrder order stories states) states epic.state
        (existingChildren (projectInOrder order stories states) epic),
       stateSuperstate states (childRule (projectInOrder order stories states) states epic.state
        (existingChildren (projectInOrder order stories states) epic))) := by
    simp only [computedEpicBody, typed, Bool.not_true, Bool.false_eq_true, if_false,
      List.isEmpty_iff, parent, Query.eval_bind, Query.eval_pure, rule]
    rfl
  rw [body] at facts
  have state : projected.state = _ := congrArg BlockFacts.state facts
  have superstate : projected.superstate = _ := congrArg BlockFacts.superstate facts
  refine ⟨projected, shown, state, ?_⟩
  rw [superstate, state]
  rfl

end Projection

/-- On a grounded map every epic with a child carries what the child rule makes of the projected
map, whatever order the epics are visited in. -/
theorem grounded_projection_meets_rule (stories : StoryMap) (states : List StateDef)
    (grounded : Grounded stories states) :
    (∀ (id : String) story, stories[id]? = some story → isEpic story = false →
      (applyComputedEpicStates stories states)[id]? = some story) ∧
    (∀ (id : String) epic, stories[id]? = some epic → isEpic epic = true →
      existingChildren stories epic ≠ [] →
      ∃ projected : StorySnapshot, (applyComputedEpicStates stories states)[id]? = some projected ∧
        projected.state = childRule (applyComputedEpicStates stories states) states epic.state
          (existingChildren (applyComputedEpicStates stories states) epic) ∧
        projected.superstate = stateSuperstate states projected.state) ∧
    ∀ order, (∀ id ∈ stories.keys, id ∈ order) → ∀ id : String,
      (projectInOrder order stories states)[id]? =
        (applyComputedEpicStates stories states)[id]? := by
  have covered : ∀ id ∈ stories.keys, id ∈ stories.keys := fun _ member => member
  refine ⟨?_, ?_, ?_⟩
  · intro id story present plain
    obtain ⟨projected, shown, same, -⟩ :=
      projected_story stories states grounded stories.keys covered id story present
    rw [applyComputedEpicStates, shown, same plain]
  · intro id epic present typed children
    refine projected_epic stories states grounded stories.keys covered id epic present typed ?_
    intro childless
    exact children (by simp [existingChildren, childless])
  · intro order all id
    simp only [applyComputedEpicStates, projectInOrder, Std.TreeMap.getElem?_map]
    refine Option.map_congr fun story _ => ?_
    unfold projectEpic
    rw [computed_eq_solution stories states grounded order all,
      computed_eq_solution stories states grounded stories.keys covered]

def AcyclicHierarchy (stories : StoryMap) : Prop :=
  ∃ rank : String → Nat, ∀ entry ∈ stories.toList,
    ∀ child ∈ relatedIds entry.2 "parent-of", rank child < rank entry.1

def openStory (id state : String) (storyType : Option String)
    (relationships : List StoryRelation) : String × StorySnapshot :=
  (id, { (default : StorySnapshot) with
    id := id, state := state, superstate := .open, storyType := storyType,
    relationships := relationships })

def plainStates : List StateDef :=
  [⟨"todo", .open, none, none⟩, ⟨"blocked", .open, none, none⟩, ⟨"done", .closed, none, none⟩]

/-- An epic whose child waits on it is not grounded, and yet carries what the rule makes of it. -/
example :
    let stories : StoryMap := .ofList [
      openStory "SH-1" "todo" (some "epic") [⟨"parent-of", "SH-2"⟩],
      openStory "SH-2" "todo" none [⟨"blocked-by", "SH-1"⟩]]
    (computedEpicStates stories.keys stories plainStates).guarded = true ∧
      ((applyComputedEpicStates stories plainStates)["SH-1"]?).map (·.state) = some "todo" := by
  decide

def crossedEpics : StoryMap := .ofList [
  openStory "SH-1" "blocked" (some "epic") [⟨"parent-of", "SH-3"⟩, ⟨"parent-of", "SH-4"⟩],
  openStory "SH-2" "todo" (some "epic") [⟨"parent-of", "SH-5"⟩],
  openStory "SH-3" "todo" none [⟨"blocked-by", "SH-2"⟩],
  openStory "SH-4" "todo" none [],
  openStory "SH-5" "todo" none [⟨"blocked-by", "SH-1"⟩]]

theorem crossed_epics_break_rule :
    AcyclicHierarchy crossedEpics ∧
    ∃ epic projected, crossedEpics["SH-2"]? = some epic ∧ isEpic epic = true ∧
      existingChildren crossedEpics epic ≠ [] ∧
      (applyComputedEpicStates crossedEpics plainStates)["SH-2"]? = some projected ∧
      projected.state = "blocked" ∧
      childRule (applyComputedEpicStates crossedEpics plainStates) plainStates epic.state
        (existingChildren (applyComputedEpicStates crossedEpics plainStates) epic) = "todo" ∧
      ((projectInOrder crossedEpics.keys.reverse crossedEpics plainStates)["SH-2"]?).map
        (·.state) = some "todo" := by
  refine ⟨⟨fun id => if id = "SH-1" ∨ id = "SH-2" then 1 else 0, by decide⟩,
    _, _, rfl, ?_, ?_, rfl, ?_, ?_, ?_⟩ <;> decide

def chainedEpics : StoryMap := .ofList [
  openStory "SH-1" "todo" (some "epic") [⟨"parent-of", "SH-3"⟩],
  openStory "SH-2" "todo" (some "epic") [⟨"parent-of", "SH-4"⟩],
  openStory "SH-3" "todo" none [⟨"blocked-by", "SH-2"⟩],
  openStory "SH-4" "blocked" none []]

theorem chained_epics_meet_rule :
    Grounded chainedEpics plainStates ∧
    ∀ order, (∀ id ∈ chainedEpics.keys, id ∈ order) → ∀ id : String,
      (projectInOrder order chainedEpics plainStates)[id]? =
        (applyComputedEpicStates chainedEpics plainStates)[id]? := by
  have grounded : Grounded chainedEpics plainStates :=
    (grounded_iff_guard_silent chainedEpics plainStates).mpr (by decide)
  exact ⟨grounded, (grounded_projection_meets_rule chainedEpics plainStates grounded).2.2⟩

end Storyhook.Domain
