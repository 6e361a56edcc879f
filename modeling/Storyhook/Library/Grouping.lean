import Mathlib.Data.List.Chain
import Mathlib.Data.List.Nodup

/-! Cutting a list wherever an entry does not go together with the next one. -/

namespace Storyhook.Library.Grouping

variable {α : Type}

def groupFrom (joined : α → α → Option Bool) (run : List α) (last : α) :
    List α → Option (List (List α))
  | [] => some [run]
  | next :: rest =>
      (joined last next).bind fun together =>
        if together then groupFrom joined (run ++ [next]) next rest
        else (groupFrom joined [next] next rest).map (run :: ·)

def group (joined : α → α → Option Bool) : List α → Option (List (List α))
  | [] => some []
  | first :: rest => groupFrom joined [first] first rest

def Adjacent (list : List α) (first second : α) : Prop :=
  ∃ front back, list = front ++ first :: second :: back

/-- An entry of the longest run of linked entries from one to another. -/
structure InRun (Links : α → α → Prop) (first last entry : α) : Prop where
  after : Relation.ReflTransGen Links first entry
  before : Relation.ReflTransGen Links entry last
  starts : ∀ earlier, ¬Links earlier first
  stops : ∀ later, ¬Links last later

section Unique

variable {Links : α → α → Prop}

theorem InRun.last_unique (follows : Relator.RightUnique Links) (first last other final entry : α)
    (here : InRun Links first last entry) (there : InRun Links other final entry) :
    last = final := by
  rcases Relation.ReflTransGen.total_of_right_unique follows here.before there.before with on | on
  · exact (Relation.ReflTransGen.cases_head on).resolve_right
      fun ⟨later, linked, _⟩ => here.stops later linked
  · exact ((Relation.ReflTransGen.cases_head on).resolve_right
      fun ⟨later, linked, _⟩ => there.stops later linked).symm

theorem InRun.first_unique (precedes : Relator.LeftUnique Links) (first last other final entry : α)
    (here : InRun Links first last entry) (there : InRun Links other final entry) :
    first = other := by
  have backwards : Relator.RightUnique (Function.swap Links) := fun _ _ _ one two =>
    precedes one two
  rcases Relation.ReflTransGen.total_of_right_unique backwards
    (Relation.reflTransGen_swap.mpr here.after)
      (Relation.reflTransGen_swap.mpr there.after) with on | on
  · exact (Relation.ReflTransGen.cases_head on).resolve_right
      fun ⟨earlier, linked, _⟩ => here.starts earlier linked
  · exact ((Relation.ReflTransGen.cases_head on).resolve_right
      fun ⟨earlier, linked, _⟩ => there.starts earlier linked).symm

end Unique

section Adjacent

variable (list : List α)

theorem Adjacent.after (first second : α) (before after : List α)
    (split : list = before ++ first :: after) (nodup : list.Nodup)
    (adjacent : Adjacent list first second) : ∃ rest, after = second :: rest := by
  obtain ⟨front, back, same⟩ := adjacent
  have apart := List.nodup_middle.mp (split ▸ nodup)
  rw [List.nodup_cons, List.mem_append, not_or] at apart
  obtain ⟨-, -, rfl⟩ := (List.append_cons_inj_of_notMem apart.1.1 apart.1.2).mp
    (split.symm.trans same)
  exact ⟨back, rfl⟩

theorem Adjacent.before (first second : α) (before after : List α)
    (split : list = before ++ second :: after) (nodup : list.Nodup)
    (adjacent : Adjacent list first second) : ∃ init, before = init ++ [first] := by
  obtain ⟨front, back, same⟩ := adjacent
  have apart := List.nodup_middle.mp (split ▸ nodup)
  rw [List.nodup_cons, List.mem_append, not_or] at apart
  rw [← List.singleton_append, ← List.append_assoc] at same
  obtain ⟨rfl, -, -⟩ := (List.append_cons_inj_of_notMem apart.1.1 apart.1.2).mp
    (split.symm.trans same)
  exact ⟨front, rfl⟩

theorem Adjacent.right_unique (nodup : list.Nodup) : Relator.RightUnique (Adjacent list) := by
  intro first second other here there
  obtain ⟨front, back, split⟩ := here
  obtain ⟨rest, same⟩ := there.after list first other front _ split nodup
  exact (List.cons.inj same).1

theorem Adjacent.left_unique (nodup : list.Nodup) : Relator.LeftUnique (Adjacent list) := by
  intro first second other here there
  obtain ⟨front, back, split⟩ := here
  rw [← List.singleton_append, ← List.append_assoc] at split
  obtain ⟨init, same⟩ := there.before list second other _ back split nodup
  exact List.head_eq_of_cons_eq (List.append_inj' same rfl).2

end Adjacent

/-- A run that nothing before or after it is linked to. -/
structure Whole (Links : α → α → Prop) (run : List α) (first last : α) : Prop where
  chain : run.IsChain Links
  head : run.head? = some first
  final : run.getLast? = some last
  starts : ∀ earlier, ¬Links earlier first
  stops : ∀ later, ¬Links last later

theorem Whole.inRun (Links : α → α → Prop) (run : List α) (first last : α)
    (whole : Whole Links run first last) (entry : α) (member : entry ∈ run) :
    InRun Links first last entry := by
  obtain ⟨front, back, rfl⟩ := List.append_of_mem member
  refine ⟨?_, ?_, whole.starts, whole.stops⟩
  · have chain : (front ++ [entry]).IsChain Links :=
      whole.chain.prefix ⟨back, by rw [List.append_assoc]; rfl⟩
    have head : (front ++ [entry]).head? = some first := by
      have given := whole.head
      cases front <;> exact given
    have reached := List.relationReflTransGen_of_exists_isChain _ chain (by simp)
    rwa [List.getLast_concat, (List.head_eq_iff_head?_eq_some _).mpr head] at reached
  · have chain : (entry :: back).IsChain Links := whole.chain.suffix ⟨front, rfl⟩
    have final : (entry :: back).getLast? = some last := by
      have given := whole.final
      rwa [List.getLast?_append_of_ne_nil _ (List.cons_ne_nil _ _)] at given
    have reached := List.relationReflTransGen_of_exists_isChain _ chain (List.cons_ne_nil _ _)
    rwa [(List.getLast_eq_iff_getLast?_eq_some _).mpr final] at reached

section Group

variable (joined : α → α → Option Bool) (Links : α → α → Prop) (list : List α)

/-- Neighbours are cut apart just where they are not linked. -/
structure Decides : Prop where
  nodup : list.Nodup
  near : ∀ first second, Links first second → Adjacent list first second
  told : ∀ first second, Adjacent list first second →
    ∃ together, joined first second = some together ∧ (together = true ↔ Links first second)

theorem groupFrom_whole (decides : Decides joined Links list) (done run rest : List α)
    (first last : α) (split : list = done ++ run ++ rest) (chain : run.IsChain Links)
    (head : run.head? = some first) (final : run.getLast? = some last)
    (starts : ∀ earlier, ¬Links earlier first) :
    ∃ groups, groupFrom joined run last rest = some groups ∧ groups.flatten = run ++ rest ∧
      ∀ group ∈ groups, ∃ first last, Whole Links group first last := by
  induction rest generalizing done run first last with
  | nil =>
      obtain ⟨init, rfl⟩ := List.getLast?_eq_some_iff.mp final
      refine ⟨_, rfl, by simp, fun group member => ?_⟩
      obtain rfl := List.mem_singleton.mp member
      refine ⟨first, last, chain, head, final, starts, fun later linked => ?_⟩
      have place : list = (done ++ init) ++ last :: [] := by simpa using split
      obtain ⟨rest, none⟩ := (decides.near last later linked).after list _ _ _ _ place decides.nodup
      cases none
  | cons next rest further =>
      obtain ⟨init, rfl⟩ := List.getLast?_eq_some_iff.mp final
      have place : list = (done ++ init) ++ last :: next :: rest := by simpa using split
      have beside : Adjacent list last next := ⟨done ++ init, rest, place⟩
      obtain ⟨together, asked, linked⟩ := decides.told last next beside
      rw [groupFrom, asked, Option.bind_some]
      cases together with
      | true =>
          obtain ⟨groups, made, flat, each⟩ := further done (init ++ [last] ++ [next]) first next
            (by simpa using split)
            (List.isChain_append.mpr ⟨chain, List.isChain_singleton next, by simpa using linked⟩)
            (by rw [List.head?_append, head]; rfl) List.getLast?_concat starts
          exact ⟨groups, made, by rw [flat, List.append_assoc]; rfl, each⟩
      | false =>
          have cut : ¬Links last next := fun joins => Bool.false_ne_true (linked.mpr joins)
          have fresh (earlier : α) : ¬Links earlier next := by
            intro joins
            have same := Adjacent.left_unique list decides.nodup
              (decides.near earlier next joins) beside
            exact cut (same ▸ joins)
          have ended (later : α) : ¬Links last later := by
            intro joins
            have same := Adjacent.right_unique list decides.nodup
              (decides.near last later joins) beside
            exact cut (same ▸ joins)
          obtain ⟨groups, made, flat, each⟩ := further (done ++ (init ++ [last])) [next] next next
            (by simpa using split) (List.isChain_singleton next) rfl rfl fresh
          rw [if_neg Bool.false_ne_true, made]
          refine ⟨_, rfl, by rw [List.flatten_cons, flat]; rfl, ?_⟩
          rw [List.forall_mem_cons]
          exact ⟨⟨first, last, chain, head, final, starts, ended⟩, each⟩

theorem group_whole (decides : Decides joined Links list) :
    ∃ groups, group joined list = some groups ∧ groups.flatten = list ∧
      ∀ group ∈ groups, ∃ first last, Whole Links group first last := by
  cases list with
  | nil => exact ⟨[], rfl, rfl, fun _ none => nomatch none⟩
  | cons first rest =>
      refine groupFrom_whole joined Links _ decides [] [first] rest first first rfl
        (List.isChain_singleton first) rfl rfl fun earlier linked => ?_
      obtain ⟨init, none⟩ := (decides.near earlier first linked).before _ _ _ [] rest rfl decides.nodup
      exact List.append_ne_nil_of_right_ne_nil init (List.cons_ne_nil _ _) none.symm

end Group

end Storyhook.Library.Grouping
