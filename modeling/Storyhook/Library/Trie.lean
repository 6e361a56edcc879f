import Mathlib.Algebra.BigOperators.Group.Finset.Basic

/-! Trees whose nodes are found by the keys on the way to them. -/

namespace Storyhook.Library

inductive Trie (κ α : Type) where
  | node (key : κ) (entry : α) (children : List (Trie κ α))

namespace Trie

variable {κ α β : Type}

def key : Trie κ α → κ
  | .node key _ _ => key

def entry : Trie κ α → α
  | .node _ entry _ => entry

def children : Trie κ α → List (Trie κ α)
  | .node _ _ children => children

@[elab_as_elim]
theorem children_induction {motive : Trie κ α → Prop}
    (step : ∀ key entry children, (∀ child ∈ children, motive child) →
      motive (.node key entry children)) (tree : Trie κ α) : motive tree :=
  Trie.rec (motive_2 := fun children => ∀ child ∈ children, motive child) step
    (fun _ none => absurd none List.not_mem_nil)
    (fun _ _ first others => List.forall_mem_cons.mpr ⟨first, others⟩) tree

section Collapse

variable (combine : α → List β → β)

mutual

def collapse : Trie κ α → β
  | .node _ entry children => combine entry (collapseAll children)

def collapseAll : List (Trie κ α) → List β
  | [] => []
  | child :: rest => collapse child :: collapseAll rest

end

theorem collapseAll_eq_map (trees : List (Trie κ α)) :
    collapseAll combine trees = trees.map (collapse combine) := by
  induction trees with
  | nil => rfl
  | cons tree rest further => rw [collapseAll, further, List.map_cons]

theorem collapse_node (key : κ) (entry : α) (children : List (Trie κ α)) :
    collapse combine (.node key entry children) = combine entry
      (children.map (collapse combine)) := by
  rw [collapse, collapseAll_eq_map]

end Collapse

mutual

/-- The nodes without children, with the keys on the way to them. -/
def leaves : Trie κ α → List (List κ × α)
  | .node key entry [] => [([key], entry)]
  | .node key _ (child :: rest) =>
      (leaves child ++ leavesOf rest).map fun leaf => (key :: leaf.1, leaf.2)

def leavesOf : List (Trie κ α) → List (List κ × α)
  | [] => []
  | tree :: rest => leaves tree ++ leavesOf rest

end

theorem leaves_parent (key : κ) (entry : α) (children : List (Trie κ α)) (some : children ≠ []) :
    leaves (.node key entry children) =
      (leavesOf children).map fun leaf => (key :: leaf.1, leaf.2) := by
  obtain ⟨child, rest, rfl⟩ := List.exists_cons_of_ne_nil some
  rw [leaves, leavesOf]

theorem mem_leavesOf (trees : List (Trie κ α)) (leaf : List κ × α) :
    leaf ∈ leavesOf trees ↔ ∃ tree ∈ trees, leaf ∈ leaves tree := by
  induction trees with
  | nil => simp [leavesOf]
  | cons tree rest further => rw [leavesOf, List.mem_append, further, List.exists_mem_cons_iff]

theorem leaves_key (tree : Trie κ α) (leaf : List κ × α) (member : leaf ∈ leaves tree) :
    ∃ rest, leaf.1 = tree.key :: rest := by
  obtain ⟨key, entry, children⟩ := tree
  cases children with
  | nil =>
      rw [leaves, List.mem_singleton] at member
      exact ⟨[], by rw [member]; rfl⟩
  | cons child rest =>
      rw [leaves] at member
      obtain ⟨below, -, rfl⟩ := List.mem_map.mp member
      exact ⟨below.1, rfl⟩

theorem collapse_leaves {M : Type} [AddCommMonoid M] (combine : α → List β → β) (Rel : β → M → Prop)
    (weight : List κ → M)
    (sums : ∀ entry values weights, values ≠ [] → List.Forall₂ Rel values weights →
      Rel (combine entry values) weights.sum)
    (front : List κ) (tree : Trie κ α)
    (single : ∀ leaf ∈ leaves tree, Rel (combine leaf.2 []) (weight (front ++ leaf.1))) :
    Rel (collapse combine tree) ((leaves tree).map fun leaf => weight (front ++ leaf.1)).sum := by
  induction tree using children_induction generalizing front with
  | step key entry children further =>
      rw [collapse_node]
      by_cases childless : children = []
      · subst childless
        have own := single ([key], entry) (by rw [leaves]; exact List.mem_singleton_self _)
        rw [leaves, List.map_singleton, List.sum_singleton]
        exact own
      · rw [leaves_parent key entry children childless] at single ⊢
        have each : ∀ child ∈ children, Rel (collapse combine child)
            ((leaves child).map fun leaf => weight ((front ++ [key]) ++ leaf.1)).sum := by
          intro child member
          refine further child member (front ++ [key]) fun leaf inside => ?_
          have given := single (key :: leaf.1, leaf.2)
            (List.mem_map.mpr ⟨leaf, (mem_leavesOf _ _).mpr ⟨child, member, inside⟩, rfl⟩)
          rwa [List.append_assoc]
        have total : (((leavesOf children).map fun leaf => (key :: leaf.1, leaf.2)).map
              fun leaf => weight (front ++ leaf.1)).sum =
            (children.map fun child =>
              ((leaves child).map fun leaf => weight ((front ++ [key]) ++ leaf.1)).sum).sum := by
          clear further single each childless
          induction children with
          | nil => rfl
          | cons child rest summed =>
              rw [leavesOf, List.map_append, List.map_append, List.sum_append, summed,
                List.map_cons,
                List.sum_cons, List.map_map]
              simp only [Function.comp_def, List.append_assoc, List.singleton_append]
        rw [total]
        refine sums entry _ _ (by simpa using childless) ?_
        rw [List.forall₂_map_left_iff, List.forall₂_map_right_iff, List.forall₂_same]
        exact each

inductive Distinct : List (Trie κ α) → Prop where
  | intro (trees : List (Trie κ α)) (apart : (trees.map key).Nodup)
      (beneath : ∀ tree ∈ trees, Distinct tree.children) : Distinct trees

theorem Distinct.apart (trees : List (Trie κ α)) (distinct : Distinct trees) :
    (trees.map key).Nodup := by
  cases distinct
  assumption

theorem Distinct.beneath (trees : List (Trie κ α)) (distinct : Distinct trees) :
    ∀ tree ∈ trees, Distinct tree.children := by
  cases distinct
  assumption

theorem Distinct.nil : Distinct ([] : List (Trie κ α)) :=
  .intro [] List.nodup_nil fun _ none => absurd none List.not_mem_nil

theorem leavesOf_nodup (trees : List (Trie κ α)) (apart : (trees.map key).Nodup)
    (each : ∀ tree ∈ trees, ((leaves tree).map (·.1)).Nodup) :
    ((leavesOf trees).map (·.1)).Nodup := by
  induction trees with
  | nil => exact List.nodup_nil
  | cons tree rest further =>
      rw [List.map_cons, List.nodup_cons] at apart
      rw [List.forall_mem_cons] at each
      rw [leavesOf, List.map_append]
      refine List.Nodup.append each.1 (further apart.2 each.2) ?_
      intro path here there
      obtain ⟨leaf, own, rfl⟩ := List.mem_map.mp here
      obtain ⟨other, others, same⟩ := List.mem_map.mp there
      obtain ⟨elsewhere, inside, others⟩ := (mem_leavesOf _ _).mp others
      obtain ⟨_, first⟩ := leaves_key tree leaf own
      obtain ⟨_, second⟩ := leaves_key elsewhere other others
      rw [same, first, List.cons.injEq] at second
      exact apart.1 (second.1 ▸ List.mem_map_of_mem inside)

theorem leaves_nodup (tree : Trie κ α) (distinct : Distinct tree.children) :
    ((leaves tree).map (·.1)).Nodup := by
  induction tree using children_induction with
  | step key entry children further =>
      by_cases childless : children = []
      · subst childless
        rw [leaves]
        exact List.nodup_singleton _
      · have inner := leavesOf_nodup children (distinct.apart children) fun child member =>
          further child member (distinct.beneath children child member)
        have spelled : ((·.1) ∘ fun leaf : List κ × α => (key :: leaf.1, leaf.2)) =
            List.cons key ∘ (·.1) := rfl
        rw [leaves_parent key entry children childless, List.map_map, spelled, ← List.map_map]
        exact inner.map fun _ _ same => List.tail_eq_of_cons_eq same

section Find

variable [DecidableEq κ]

def find (key : κ) (trees : List (Trie κ α)) : Option (Trie κ α) :=
  trees.find? fun tree => tree.key = key

def descend : List κ → Trie κ α → Option (Trie κ α)
  | [], tree => some tree
  | key :: rest, tree => (find key tree.children).bind (descend rest)

def nodeAt (trees : List (Trie κ α)) : List κ → Option (Trie κ α)
  | [] => none
  | key :: rest => (find key trees).bind (descend rest)

def entryAt (trees : List (Trie κ α)) (path : List κ) : Option α := (nodeAt trees path).map entry

def alter (fresh : α) (key : κ) (edit : Trie κ α → Trie κ α) : List (Trie κ α) → List (Trie κ α)
  | [] => [edit (.node key fresh [])]
  | tree :: rest => if tree.key = key then edit tree :: rest else tree :: alter fresh key edit rest

def amend (fresh : α) (edit : α → α) : List κ → Trie κ α → Trie κ α
  | [], .node key entry children => .node key (edit entry) children
  | next :: rest, .node key entry children =>
      .node key entry (alter fresh next (amend fresh edit rest) children)

/-- Edits the entry at a path, making every node on the way that is not there. -/
def modify (fresh : α) (edit : α → α) : List κ → List (Trie κ α) → List (Trie κ α)
  | [], trees => trees
  | key :: rest, trees => alter fresh key (amend fresh edit rest) trees

variable (fresh : α) (edit : α → α)

theorem amend_key (path : List κ) (tree : Trie κ α) :
    (amend fresh edit path tree).key = tree.key := by
  obtain ⟨key, entry, children⟩ := tree
  cases path <;> rfl

theorem find_cons (key : κ) (tree : Trie κ α) (rest : List (Trie κ α)) :
    find key (tree :: rest) = if tree.key = key then some tree else find key rest := by
  by_cases here : tree.key = key
  · rw [if_pos here]
    exact List.find?_cons_of_pos (decide_eq_true here)
  · rw [if_neg here]
    exact List.find?_cons_of_neg (by simpa using here)

theorem find_alter (key other : κ) (change : Trie κ α → Trie κ α)
    (keeps : ∀ tree, (change tree).key = tree.key) (trees : List (Trie κ α)) :
    find other (alter fresh key change trees) =
      if other = key then some (change ((find key trees).getD (.node key fresh [])))
      else find other trees := by
  have own (tree : Trie κ α) (same : tree.key = key) : ((change tree).key = other) ↔
    other = key := by
    rw [keeps, same, eq_comm]
  induction trees with
  | nil =>
      simp only [alter, find_cons, own (.node key fresh []) rfl]
      rfl
  | cons tree rest further =>
      unfold alter
      by_cases here : tree.key = key
      · rw [if_pos here, find_cons, find_cons, find_cons, if_pos here]
        simp only [own tree here]
        by_cases same : other = key
        · rw [if_pos same, if_pos same]
          rfl
        · rw [if_neg same, if_neg same, if_neg fun hit => same (hit.symm.trans here)]
      · rw [if_neg here, find_cons, find_cons, find_cons, if_neg here, further]
        by_cases hit : tree.key = other
        · rw [if_pos hit, if_pos hit, if_neg fun same => here (hit.trans same)]
        · rw [if_neg hit, if_neg hit]

theorem descend_fresh (key : κ) (path : List κ) :
    (descend path (.node key fresh [])).map entry = if path = [] then some fresh else none := by
  cases path <;> rfl

theorem descend_amend (path other : List κ) (tree : Trie κ α) :
    (descend other (amend fresh edit path tree)).map entry =
      if other = path then some (edit (((descend other tree).map entry).getD fresh))
      else if other <+: path then some (((descend other tree).map entry).getD fresh)
      else (descend other tree).map entry := by
  induction path generalizing tree other with
  | nil =>
      obtain ⟨key, entry, children⟩ := tree
      cases other with
      | nil => rfl
      | cons next more =>
          rw [if_neg (List.cons_ne_nil _ _), if_neg (fun nested => by simp at nested)]
          rfl
  | cons step rest further =>
      obtain ⟨key, entry, below⟩ := tree
      cases other with
      | nil =>
          rw [if_neg (List.cons_ne_nil _ _).symm, if_pos List.nil_prefix]
          rfl
      | cons next more =>
          simp only [amend, descend, children, find_alter fresh step next _
            (amend_key fresh edit rest),
            List.cons_prefix_cons, List.cons.injEq]
          by_cases same : next = step
          · subst same
            simp only [if_true, Option.bind_some, true_and, further]
            cases find next below with
            | some child => rfl
            | none =>
                simp only [Option.getD_none, Option.bind_none, Option.map_none, descend_fresh]
                by_cases blank : more = []
                · simp [blank]
                · simp only [if_neg blank, Option.getD_none]
          · simp only [same, false_and, if_false]

theorem entryAt_modify (path other : List κ) (trees : List (Trie κ α)) (filled : path ≠ [])
    (asked : other ≠ []) :
    entryAt (modify fresh edit path trees) other =
      if other = path then some (edit ((entryAt trees other).getD fresh))
      else if other <+: path then some ((entryAt trees other).getD fresh)
      else entryAt trees other := by
  obtain ⟨step, rest, rfl⟩ := List.exists_cons_of_ne_nil filled
  obtain ⟨next, more, rfl⟩ := List.exists_cons_of_ne_nil asked
  -- The trees are the children of a node that no path names.
  exact descend_amend fresh edit (step :: rest) (next :: more) (.node step fresh trees)

theorem find_some (key : κ) (trees : List (Trie κ α)) (tree : Trie κ α)
    (found : find key trees = some tree) : tree ∈ trees ∧ tree.key = key :=
  ⟨List.mem_of_find?_eq_some found, by simpa using List.find?_some found⟩

theorem find_of_mem (trees : List (Trie κ α)) (apart : (trees.map key).Nodup) (tree : Trie κ α)
    (member : tree ∈ trees) : find tree.key trees = some tree := by
  induction trees with
  | nil => cases member
  | cons first rest further =>
      rw [List.map_cons, List.nodup_cons] at apart
      rw [find_cons]
      rcases List.mem_cons.mp member with rfl | later
      · rw [if_pos rfl]
      · rw [if_neg fun same : first.key = tree.key => apart.1 (same ▸ List.mem_map_of_mem later)]
        exact further apart.2 later

theorem mem_alter (key : κ) (change : Trie κ α → Trie κ α) (trees : List (Trie κ α))
    (tree : Trie κ α) (member : tree ∈ alter fresh key change trees) :
    tree ∈ trees ∨ ∃ old, (old ∈ trees ∨ old = .node key fresh []) ∧ tree = change old := by
  induction trees with
  | nil => exact Or.inr ⟨_, Or.inr rfl, List.mem_singleton.mp member⟩
  | cons first rest further =>
      unfold alter at member
      split at member
      · rcases List.mem_cons.mp member with rfl | later
        · exact Or.inr ⟨first, Or.inl List.mem_cons_self, rfl⟩
        · exact Or.inl (List.mem_cons_of_mem first later)
      · rcases List.mem_cons.mp member with rfl | later
        · exact Or.inl List.mem_cons_self
        · rcases further later with old | ⟨old, origin, same⟩
          · exact Or.inl (List.mem_cons_of_mem first old)
          · exact Or.inr ⟨old, origin.imp_left (List.mem_cons_of_mem first), same⟩

theorem alter_apart (key : κ) (change : Trie κ α → Trie κ α)
    (keeps : ∀ tree, (change tree).key = tree.key) (trees : List (Trie κ α))
    (apart : (trees.map Trie.key).Nodup) : ((alter fresh key change trees).map Trie.key).Nodup := by
  induction trees with
  | nil => exact List.nodup_singleton _
  | cons first rest further =>
      rw [List.map_cons, List.nodup_cons] at apart
      unfold alter
      split
      · rw [List.map_cons, List.nodup_cons, keeps]
        exact apart
      · next other =>
          rw [List.map_cons, List.nodup_cons]
          refine ⟨fun member => ?_, further apart.2⟩
          obtain ⟨tree, inside, same⟩ := List.mem_map.mp member
          rcases mem_alter fresh key change rest tree inside with old | ⟨old, old' | rfl, rfl⟩
          · exact apart.1 (same ▸ List.mem_map_of_mem old)
          · rw [keeps] at same
            exact apart.1 (same ▸ List.mem_map_of_mem old')
          · rw [keeps] at same
            exact other same.symm

theorem modify_distinct (path : List κ) (trees : List (Trie κ α)) (distinct : Distinct trees) :
    Distinct (modify fresh edit path trees) := by
  induction path generalizing trees with
  | nil => exact distinct
  | cons step rest further =>
      refine .intro _ (alter_apart fresh step _ (amend_key fresh edit rest) trees distinct.apart) ?_
      intro tree member
      have kept (old : Trie κ α) (before : Distinct old.children) :
          Distinct (amend fresh edit rest old).children := by
        obtain ⟨key, entry, children⟩ := old
        cases rest with
        | nil => exact before
        | cons next more => exact further children before
      rcases mem_alter fresh step _ trees tree member with old | ⟨old, old' | rfl, rfl⟩
      · exact distinct.beneath trees tree old
      · exact kept old (distinct.beneath trees old old')
      · exact kept _ Distinct.nil

theorem descend_append (front back : List κ) (tree : Trie κ α) :
    descend (front ++ back) tree = (descend front tree).bind (descend back) := by
  induction front generalizing tree with
  | nil => rfl
  | cons next more further =>
      simp only [List.cons_append, descend, Option.bind_assoc]
      exact congrArg _ (funext further)

theorem nodeAt_append (trees : List (Trie κ α)) (front back : List κ) (filled : front ≠ []) :
    nodeAt trees (front ++ back) = (nodeAt trees front).bind (descend back) := by
  obtain ⟨step, rest, rfl⟩ := List.exists_cons_of_ne_nil filled
  simp only [List.cons_append, nodeAt, Option.bind_assoc, descend_append]

theorem descend_distinct (path : List κ) (tree below : Trie κ α) (distinct : Distinct tree.children)
    (found : descend path tree = some below) : Distinct below.children := by
  induction path generalizing tree with
  | nil =>
      cases found
      exact distinct
  | cons next more further =>
      obtain ⟨child, hit, rest⟩ := Option.bind_eq_some_iff.mp found
      exact further child (distinct.beneath _ child (find_some _ _ _ hit).1) rest

theorem nodeAt_distinct (trees : List (Trie κ α)) (distinct : Distinct trees) (path : List κ)
    (tree : Trie κ α) (found : nodeAt trees path = some tree) : Distinct tree.children := by
  cases path with
  | nil => cases found
  | cons step rest =>
      obtain ⟨top, hit, reached⟩ := Option.bind_eq_some_iff.mp found
      exact descend_distinct rest top tree (distinct.beneath _ top (find_some _ _ _ hit).1) reached

theorem nodeAt_child (trees : List (Trie κ α)) (distinct : Distinct trees) (path : List κ)
    (tree child : Trie κ α) (found : nodeAt trees path = some tree)
    (member : child ∈ tree.children) :
    nodeAt trees (path ++ [child.key]) = some child := by
  have filled : path ≠ [] := by
    rintro rfl
    cases found
  have hit := find_of_mem tree.children
    (nodeAt_distinct trees distinct path tree found).apart child member
  rw [nodeAt_append trees path _ filled, found, Option.bind_some, descend, hit]
  rfl

theorem mem_leaves (tree : Trie κ α) (distinct : Distinct tree.children) (leaf : List κ × α) :
    leaf ∈ leaves tree ↔ ∃ rest key, leaf.1 = tree.key :: rest ∧
      descend rest tree = some (.node key leaf.2 []) := by
  induction tree using children_induction generalizing leaf with
  | step key entry children further =>
      by_cases childless : children = []
      · subst childless
        rw [leaves, List.mem_singleton]
        constructor
        · rintro rfl
          exact ⟨[], key, rfl, rfl⟩
        · rintro ⟨rest, other, spelled, found⟩
          cases rest with
          | nil =>
              cases leaf
              simp only [descend, Option.some.injEq, Trie.node.injEq] at found spelled
              simp only [spelled, found.2.1]
              rfl
          | cons next more => cases found
      · rw [leaves_parent key entry children childless, List.mem_map]
        constructor
        · rintro ⟨below, member, rfl⟩
          obtain ⟨child, inside, member⟩ := (mem_leavesOf _ _).mp member
          obtain ⟨rest, other, spelled, found⟩ :=
            (further child inside (distinct.beneath _ child inside) below).mp member
          refine ⟨child.key :: rest, other, by rw [spelled]; rfl, ?_⟩
          have hit : find child.key children = some child :=
            find_of_mem children (distinct.apart children) child inside
          show (find child.key children).bind (descend rest) = _
          rw [hit]
          exact found
        · rintro ⟨rest, other, spelled, found⟩
          cases rest with
          | nil =>
              rw [descend, Option.some.injEq, Trie.node.injEq] at found
              exact absurd found.2.2 childless
          | cons next more =>
              obtain ⟨child, hit, below⟩ := Option.bind_eq_some_iff.mp found
              obtain ⟨inside, rfl⟩ := find_some next children child hit
              refine ⟨(child.key :: more, leaf.2), ?_, ?_⟩
              · exact (mem_leavesOf _ _).mpr ⟨child, inside,
                  (further child inside (distinct.beneath _ child inside) _).mpr
                    ⟨more, other, rfl, below⟩⟩
              · exact Prod.ext spelled.symm rfl

theorem sum_leaves {M : Type} [AddCommMonoid M] (weight : List κ → M) (trees : List (Trie κ α))
    (distinct : Distinct trees) (paths : Finset (List κ))
    (listed : ∀ path, path ∈ paths ↔ ∃ key entry, nodeAt trees path = some (.node key entry []))
    (front : List κ) (tree : Trie κ α) (found : nodeAt trees (front ++ [tree.key]) = some tree) :
    ((leaves tree).map fun leaf => weight (front ++ leaf.1)).sum =
      ∑ path ∈ paths with (front ++ [tree.key]) <+: path, weight path := by
  have filled : front ++ [tree.key] ≠ [] := by simp
  have below := nodeAt_distinct trees distinct _ tree found
  have nodup : ((leaves tree).map fun leaf => front ++ leaf.1).Nodup := by
    have own := (leaves_nodup tree below).map (f := (front ++ ·)) fun _ _ => List.append_cancel_left
    rwa [List.map_map] at own
  have members : (((leaves tree).map fun leaf => front ++ leaf.1).toFinset) =
      {path ∈ paths | (front ++ [tree.key]) <+: path} := by
    ext path
    rw [List.mem_toFinset, Finset.mem_filter, listed, List.mem_map]
    constructor
    · rintro ⟨leaf, member, rfl⟩
      obtain ⟨rest, key, spelled, reached⟩ := (mem_leaves tree below leaf).mp member
      have whole : front ++ leaf.1 = (front ++ [tree.key]) ++ rest := by
        rw [spelled, List.append_assoc]
        rfl
      rw [whole, nodeAt_append trees _ rest filled, found]
      exact ⟨⟨key, leaf.2, reached⟩, List.prefix_append _ _⟩
    · rintro ⟨⟨key, entry, reached⟩, rest, rfl⟩
      rw [nodeAt_append trees _ rest filled, found] at reached
      refine ⟨(tree.key :: rest, entry), (mem_leaves tree below _).mpr
        ⟨rest, key, rfl, reached⟩, ?_⟩
      rw [List.append_assoc]
      rfl
  rw [← members, List.sum_toFinset weight nodup, List.map_map]
  rfl

theorem nodeAt_key (trees : List (Trie κ α)) (front : List κ) (last : κ) (tree : Trie κ α)
    (found : nodeAt trees (front ++ [last]) = some tree) : tree.key = last := by
  have beside (above : List (Trie κ α)) (hit : (find last above).bind (descend []) = some tree) :
      tree.key = last := by
    obtain ⟨own, there, same⟩ := Option.bind_eq_some_iff.mp hit
    cases same
    exact (find_some last above tree there).2
  cases front with
  | nil => exact beside trees found
  | cons step rest =>
      rw [nodeAt_append trees (step :: rest) [last] (List.cons_ne_nil _ _)] at found
      obtain ⟨parent, -, below⟩ := Option.bind_eq_some_iff.mp found
      exact beside parent.children below

theorem sum_leavesOf {M : Type} [AddCommMonoid M] (weight : List κ → M) (trees : List (Trie κ α))
    (distinct : Distinct trees) (paths : Finset (List κ))
    (listed : ∀ path, path ∈ paths ↔ ∃ key entry, nodeAt trees path = some (.node key entry [])) :
    (trees.map fun tree => ((leaves tree).map fun leaf => weight leaf.1).sum).sum =
      ∑ path ∈ paths, weight path := by
  have nodup := leavesOf_nodup trees (distinct.apart trees) fun tree member =>
    leaves_nodup tree (distinct.beneath trees tree member)
  have members : ((leavesOf trees).map (·.1)).toFinset = paths := by
    ext path
    rw [List.mem_toFinset, listed, List.mem_map]
    constructor
    · rintro ⟨leaf, member, rfl⟩
      obtain ⟨tree, inside, member⟩ := (mem_leavesOf _ _).mp member
      obtain ⟨rest, key, spelled, reached⟩ :=
        (mem_leaves tree (distinct.beneath trees tree inside) leaf).mp member
      refine ⟨key, leaf.2, ?_⟩
      rw [spelled, nodeAt, find_of_mem trees (distinct.apart trees) tree inside]
      exact reached
    · rintro ⟨key, entry, reached⟩
      cases path with
      | nil => cases reached
      | cons step rest =>
          obtain ⟨tree, hit, below⟩ := Option.bind_eq_some_iff.mp reached
          obtain ⟨inside, rfl⟩ := find_some step trees tree hit
          refine ⟨(tree.key :: rest, entry), (mem_leavesOf _ _).mpr ⟨tree, inside, ?_⟩, rfl⟩
          exact (mem_leaves tree (distinct.beneath trees tree inside) _).mpr ⟨rest, key, rfl, below⟩
  have split : ((leavesOf trees).map fun leaf => weight leaf.1).sum =
      (trees.map fun tree => ((leaves tree).map fun leaf => weight leaf.1).sum).sum := by
    clear members nodup listed distinct
    induction trees with
    | nil => rfl
    | cons tree rest further =>
        rw [leavesOf, List.map_append, List.sum_append, further, List.map_cons, List.sum_cons]
  rw [← split, ← members, List.sum_toFinset weight nodup, List.map_map]
  rfl

end Find

end Trie

end Storyhook.Library
