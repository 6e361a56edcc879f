import Mathlib.Data.List.Nodup
import Mathlib.Logic.Relation
import Storyhook.Library.Fuel

/-! A depth-first walk, told by its entries: each node once, with the nodes under way above it.
The latest entry stands first. -/

namespace Storyhook.Library.DepthFirst

open Relation

variable {ν : Type}

structure Entry (ν : Type) where
  node : ν
  above : List ν
  deriving DecidableEq

def nodes (entries : List (Entry ν)) : List ν := entries.map (·.node)

/-- What the walk has added to its entries under some nodes under way. -/
def Grown (above : List ν) (before after : List (Entry ν)) : Prop :=
  ∃ new, after = new ++ before ∧ ∀ entry ∈ new, above <:+ entry.above

theorem Grown.refl (above : List ν) (entries : List (Entry ν)) : Grown above entries entries :=
  ⟨[], rfl, fun _ member => absurd member List.not_mem_nil⟩

theorem Grown.trans (above : List ν) (first middle last : List (Entry ν))
    (one : Grown above first middle) (two : Grown above middle last) :
    Grown above first last := by
  obtain ⟨early, rfl, under⟩ := one
  obtain ⟨late, rfl, under'⟩ := two
  refine ⟨late ++ early, (List.append_assoc _ _ _).symm, fun entry member => ?_⟩
  rcases List.mem_append.mp member with inLate | inEarly
  · exact under' entry inLate
  · exact under entry inEarly

theorem Grown.mem (above : List ν) (before after : List (Entry ν))
    (grown : Grown above before after)
    (entry : Entry ν) (member : entry ∈ before) : entry ∈ after := by
  obtain ⟨new, rfl, -⟩ := grown
  exact List.mem_append_right _ member

theorem suffix_unique (entries : List (Entry ν)) (distinct : (nodes entries).Nodup)
    (one two : Entry ν) (before behind : List (Entry ν)) (first : one :: before <:+ entries)
    (second : two :: behind <:+ entries) (same : one.node = two.node) :
    one = two ∧ before = behind := by
  induction entries with
  | nil => cases List.suffix_nil.mp first
  | cons entry rest further =>
      obtain ⟨fresh, distinct⟩ := List.nodup_cons.mp distinct
      have outside (other : Entry ν) (tail : List (Entry ν)) (inside : other :: tail <:+ rest)
          (equal : other.node = entry.node) : False :=
        fresh (List.mem_map.mpr ⟨other, inside.subset List.mem_cons_self, equal⟩)
      rcases List.suffix_cons_iff.mp first with here | deeper
      · cases here
        rcases List.suffix_cons_iff.mp second with here | deeper
        · cases here
          exact ⟨rfl, rfl⟩
        · exact (outside two behind deeper same.symm).elim
      · rcases List.suffix_cons_iff.mp second with here | deeper'
        · cases here
          exact (outside one before deeper same).elim
        · exact further distinct deeper deeper'

variable (next : ν → List ν)

def Arc (node other : ν) : Prop := other ∈ next node

def OnCycle (node : ν) : Prop := TransGen (Arc next) node node

/-- Whether an arc leads from an entry's node back to one that is under way. -/
def Looped (entry : Entry ν) : Prop :=
  ∃ child ∈ next entry.node, child ∈ entry.node :: entry.above

def FreeArc (entries : List (Entry ν)) (child node : ν) : Prop :=
  Arc next node child ∧ ∀ entry ∈ entries, entry.node = child → ¬ Looped next entry

structure Search (above : List ν) (entries : List (Entry ν)) : Prop where
  distinct : (nodes entries).Nodup
  nested : ∀ entry earlier, entry :: earlier <:+ entries → ∀ node back,
    node :: back <:+ entry.above → Entry.mk node back ∈ earlier
  arcs : ∀ entry ∈ entries, ∀ node back, entry.above = node :: back → entry.node ∈ next node
  current : ∀ node back, node :: back <:+ above → Entry.mk node back ∈ entries
  left : ∀ entry earlier, entry :: earlier <:+ entries → entry.node ∉ above →
    ∀ child ∈ next entry.node, child ∈ nodes earlier ∨ child = entry.node ∨
      ∃ later ∈ entries, later.node = child ∧ entry.node ∈ later.above
  settled : ∀ entry ∈ entries, entry.node ∉ above → ¬ Looped next entry →
    Acc (FreeArc next entries) entry.node

theorem Search.start : Search next [] [] where
  distinct := List.nodup_nil
  nested := fun _ _ inside => absurd (List.suffix_nil.mp inside) (List.cons_ne_nil _ _)
  arcs := fun _ member => absurd member List.not_mem_nil
  current := fun _ _ inside => absurd (List.suffix_nil.mp inside) (List.cons_ne_nil _ _)
  left := fun _ _ inside => absurd (List.suffix_nil.mp inside) (List.cons_ne_nil _ _)
  settled := fun _ member => absurd member List.not_mem_nil

theorem FreeArc.mono (before after : List (Entry ν)) (within : before ⊆ after) (node : ν)
    (settled : Acc (FreeArc next before) node) : Acc (FreeArc next after) node :=
  Subrelation.accessible (fun free => ⟨free.1, fun entry member => free.2 entry (within member)⟩)
    settled

section Moves

variable (above : List ν) (entries : List (Entry ν)) (node : ν)

theorem Search.push (search : Search next above entries) (fresh : node ∉ nodes entries)
    (follows : ∀ last back, above = last :: back → node ∈ next last) :
    Search next (node :: above) (⟨node, above⟩ :: entries) where
  distinct := List.nodup_cons.mpr ⟨fresh, search.distinct⟩
  nested := by
    intro entry earlier inside other back under
    rcases List.suffix_cons_iff.mp inside with here | deeper
    · cases here
      exact search.current other back under
    · exact search.nested entry earlier deeper other back under
  arcs := List.forall_mem_cons.mpr ⟨follows, search.arcs⟩
  current := by
    intro other back under
    rcases List.suffix_cons_iff.mp under with here | deeper
    · cases here
      exact List.mem_cons_self
    · exact List.mem_cons_of_mem _ (search.current other back deeper)
  left := by
    intro entry earlier inside gone child arc
    obtain ⟨apart, outside⟩ := not_or.mp (mt List.mem_cons.mpr gone)
    rcases List.suffix_cons_iff.mp inside with here | deeper
    · cases here
      exact absurd rfl apart
    · refine (search.left entry earlier deeper outside child arc).imp_right (Or.imp_right ?_)
      exact fun ⟨later, member, same⟩ => ⟨later, List.mem_cons_of_mem _ member, same⟩
  settled := by
    intro entry member gone plain
    obtain ⟨apart, outside⟩ := not_or.mp (mt List.mem_cons.mpr gone)
    rcases List.mem_cons.mp member with rfl | inside
    · exact absurd rfl apart
    · exact FreeArc.mono next entries _ (List.subset_cons_self _ _) _
        (search.settled entry inside outside plain)

variable (after : List (Entry ν))

theorem Search.pop (search : Search next (node :: above) after)
    (grown : Grown (node :: above) (⟨node, above⟩ :: entries) after)
    (entered : ∀ child ∈ next node, child ∈ nodes after) : Search next above after := by
  obtain ⟨new, rfl, under⟩ := grown
  have own : (⟨node, above⟩ : Entry ν) :: entries <:+ new ++ ⟨node, above⟩ :: entries :=
    List.suffix_append _ _
  refine ⟨search.distinct, search.nested, search.arcs, ?_, ?_, ?_⟩
  · intro other back inside
    exact search.current other back (inside.trans (List.suffix_cons _ _))
  · intro entry earlier inside gone child arc
    by_cases same : entry.node = node
    · obtain ⟨rfl, rfl⟩ := suffix_unique _ search.distinct entry ⟨node, above⟩ earlier entries
        inside own same
      obtain ⟨other, member, rfl⟩ := List.mem_map.mp (entered child arc)
      rcases List.mem_append.mp member with late | rest
      · exact .inr (.inr ⟨other, member, rfl, (under other late).subset List.mem_cons_self⟩)
      · rcases List.mem_cons.mp rest with rfl | early
        · exact .inr (.inl rfl)
        · exact .inl (List.mem_map_of_mem early)
    · exact search.left entry earlier inside (by simp [same, gone]) child arc
  · intro entry member gone plain
    by_cases same : entry.node = node
    · obtain ⟨front, back, split⟩ := List.append_of_mem member
      obtain ⟨rfl, -⟩ := suffix_unique _ search.distinct entry ⟨node, above⟩ back entries
        ⟨front, split.symm⟩ own same
      constructor
      intro child free
      obtain ⟨other, inside, rfl⟩ := List.mem_map.mp (entered child free.1)
      refine search.settled other inside ?_ (free.2 other inside rfl)
      exact fun back => plain ⟨other.node, free.1, back⟩
    · exact search.settled entry member (by simp [same, gone]) plain

end Moves

def Marked (entries : List (Entry ν)) (node : ν) : Prop :=
  ∃ entry ∈ entries, node ∈ entry.node :: entry.above ∧ Looped next entry

/-- No node on a cycle is entered below one that is on none, or once all of its children on cycles
have been left. -/
structure Untangled (entries : List (Entry ν)) : Prop where
  below : ∀ entry ∈ entries, OnCycle next entry.node → ∀ node ∈ entry.above, OnCycle next node
  onward : ∀ entry earlier, entry :: earlier <:+ entries → OnCycle next entry.node →
    ∃ child ∈ next entry.node, OnCycle next child ∧
      (child ∈ nodes earlier → child ∈ entry.above)

section Whole

variable (entries : List (Entry ν)) (search : Search next [] entries)

include search

theorem entry_unique (one two : Entry ν) (first : one ∈ entries) (second : two ∈ entries)
    (same : one.node = two.node) : one = two :=
  List.inj_on_of_nodup_map search.distinct first second same

theorem above_entry (entry : Entry ν) (member : entry ∈ entries) (node : ν) (back : List ν)
    (under : node :: back <:+ entry.above) : Entry.mk node back ∈ entries := by
  obtain ⟨front, earlier, split⟩ := List.append_of_mem member
  have inside : entry :: earlier <:+ entries := ⟨front, split.symm⟩
  exact inside.subset (List.mem_cons_of_mem _ (search.nested entry earlier inside node back under))

theorem above_path (above : List ν) (node : ν) (member : Entry.mk node above ∈ entries)
    (other : ν) (under : other ∈ above) : TransGen (Arc next) other node := by
  induction above generalizing node with
  | nil => cases under
  | cons first rest further =>
      have arc := search.arcs _ member first rest rfl
      rcases List.mem_cons.mp under with rfl | deeper
      · exact .single arc
      · exact (further first (above_entry next entries search _ member first rest List.suffix_rfl)
          deeper).tail arc

theorem looped_onCycle (entry : Entry ν) (member : entry ∈ entries) (looped : Looped next entry) :
    ∃ child ∈ next entry.node, child ∈ entry.node :: entry.above ∧ OnCycle next child ∧
      OnCycle next entry.node := by
  obtain ⟨child, arc, back⟩ := looped
  refine ⟨child, arc, back, ?_⟩
  rcases List.mem_cons.mp back with rfl | under
  · exact ⟨.single arc, .single arc⟩
  · have path := above_path next entries search entry.above entry.node member child under
    exact ⟨path.tail arc, .head arc path⟩

theorem marked_above (entry : Entry ν) (member : entry ∈ entries)
    (marked : Marked next entries entry.node) (node : ν) (under : node ∈ entry.above) :
    Marked next entries node := by
  obtain ⟨last, inside, onWay, looped⟩ := marked
  refine ⟨last, inside, ?_, looped⟩
  rcases List.mem_cons.mp onWay with same | between
  · rw [← entry_unique next entries search entry last member inside same]
    exact List.mem_cons_of_mem _ under
  · obtain ⟨front, back, split⟩ := List.append_of_mem between
    have placed := above_entry next entries search last inside entry.node back
      (split ▸ List.suffix_append _ _)
    have same := entry_unique next entries search entry ⟨entry.node, back⟩ member placed rfl
    rw [same] at under
    rw [split]
    simp [show node ∈ back from under]

theorem stepping_stone (entry : Entry ν) (member : entry ∈ entries) (node : ν)
    (under : node ∈ entry.above) : ∃ stone back, Entry.mk stone (node :: back) ∈ entries ∧
      stone ∈ entry.node :: entry.above := by
  obtain ⟨front, back, split⟩ := List.append_of_mem under
  rcases List.eq_nil_or_concat front with rfl | ⟨init, stone, rfl⟩
  · refine ⟨entry.node, back, ?_, List.mem_cons_self⟩
    rw [← List.nil_append (node :: back), ← split]
    exact member
  · refine ⟨stone, back, ?_, List.mem_cons_of_mem _ (by simp [split])⟩
    exact above_entry next entries search entry member stone (node :: back)
      ⟨init, by simp [split]⟩

theorem untangled_of_exact (exact : ∀ node, Marked next entries node ↔ OnCycle next node) :
    Untangled next entries where
  below := by
    intro entry member cyclic node under
    exact (exact node).mp
      (marked_above next entries search entry member ((exact entry.node).mpr cyclic) node under)
  onward := by
    intro entry earlier inside cyclic
    have member := inside.subset List.mem_cons_self
    have fresh : entry.node ∉ nodes earlier :=
      (List.nodup_cons.mp ((inside.map Entry.node).sublist.nodup search.distinct)).1
    obtain ⟨last, placed, onWay, looped⟩ := (exact entry.node).mpr cyclic
    rcases List.mem_cons.mp onWay with same | under
    · obtain rfl := entry_unique next entries search entry last member placed same
      obtain ⟨child, arc, back, around, -⟩ := looped_onCycle next entries search entry member looped
      refine ⟨child, arc, around, fun left => ?_⟩
      rcases List.mem_cons.mp back with rfl | above
      · exact absurd left fresh
      · exact above
    · obtain ⟨stone, back, stands, between⟩ :=
        stepping_stone next entries search last placed entry.node under
      refine ⟨stone, search.arcs _ stands _ _ rfl, (exact stone).mp ⟨last, placed, between, looped⟩,
        fun left => ?_⟩
      obtain ⟨other, early, same⟩ := List.mem_map.mp left
      have within : earlier <:+ entries := (List.suffix_cons _ _).trans inside
      obtain rfl := entry_unique next entries search other ⟨stone, entry.node :: back⟩
        (within.subset early) stands same
      obtain ⟨front, rest, split⟩ := List.append_of_mem early
      have deeper : Entry.mk stone (entry.node :: back) :: rest <:+ earlier := ⟨front, split.symm⟩
      have above := search.nested _ rest (deeper.trans within) entry.node back List.suffix_rfl
      exact absurd (List.mem_map_of_mem (f := Entry.node)
        (deeper.subset (List.mem_cons_of_mem _ above))) fresh

theorem marked_of_onward (entered : ∀ node, next node ≠ [] → node ∈ nodes entries)
    (onward : ∀ entry earlier, entry :: earlier <:+ entries → OnCycle next entry.node →
      ∃ child ∈ next entry.node, OnCycle next child ∧ (child ∈ nodes earlier → child ∈ entry.above))
    (node : ν) (cyclic : OnCycle next node) : Marked next entries node := by
  obtain ⟨other, arc, -⟩ := TransGen.head'_iff.mp cyclic
  obtain ⟨entry, member, rfl⟩ := List.mem_map.mp (entered node (List.ne_nil_of_mem arc))
  obtain ⟨front, earlier, split⟩ := List.append_of_mem member
  have inside : entry :: earlier <:+ entries := ⟨front, split.symm⟩
  clear arc split front
  -- on the entries made after this one
  generalize size : entries.length - earlier.length = count
  induction count using Nat.strongRecOn generalizing entry earlier with
  | ind count further =>
      obtain ⟨child, arc, around, back⟩ := onward entry earlier inside cyclic
      by_cases looped : Looped next entry
      · exact ⟨entry, member, List.mem_cons_self, looped⟩
      · rcases search.left entry earlier inside List.not_mem_nil child arc with
          early | rfl | ⟨later, placed, rfl, under⟩
        · exact absurd ⟨child, arc, List.mem_cons_of_mem _ (back early)⟩ looped
        · exact absurd ⟨entry.node, arc, List.mem_cons_self⟩ looped
        · obtain ⟨front, rest, split⟩ := List.append_of_mem placed
          have outer : later :: rest <:+ entries := ⟨front, split.symm⟩
          obtain ⟨init, tail, above⟩ := List.append_of_mem under
          have before := search.nested later rest outer entry.node tail
            (above ▸ List.suffix_append _ _)
          have same := entry_unique next entries search entry ⟨entry.node, tail⟩ member
            (outer.subset (List.mem_cons_of_mem _ before)) rfl
          rw [← same] at before
          obtain ⟨lead, end_, parts⟩ := List.append_of_mem before
          obtain ⟨-, rfl⟩ := suffix_unique entries search.distinct entry entry earlier end_ inside
            ((show entry :: end_ <:+ rest from ⟨lead, parts.symm⟩).trans
              ((List.suffix_cons _ _).trans outer)) rfl
          have longer : earlier.length < rest.length := by
            simp only [parts, List.length_append, List.length_cons]
            omega
          have bounded := outer.length_le
          rw [List.length_cons] at bounded
          have marked := further (entries.length - rest.length) (by omega) later placed around
            rest outer rfl
          exact marked_above next entries search later placed marked entry.node under

theorem exact_of_untangled (entered : ∀ node, next node ≠ [] → node ∈ nodes entries)
    (untangled : Untangled next entries) (node : ν) :
    Marked next entries node ↔ OnCycle next node := by
  constructor
  · rintro ⟨entry, member, onWay, looped⟩
    obtain ⟨-, -, -, -, cyclic⟩ := looped_onCycle next entries search entry member looped
    rcases List.mem_cons.mp onWay with rfl | under
    · exact cyclic
    · exact untangled.below entry member cyclic node under
  · exact marked_of_onward next entries search entered untangled.onward node

theorem marks_exact (entered : ∀ node, next node ≠ [] → node ∈ nodes entries) :
    (∀ node, Marked next entries node ↔ OnCycle next node) ↔ Untangled next entries :=
  ⟨untangled_of_exact next entries search, exact_of_untangled next entries search entered⟩

theorem cycle_marked (entered : ∀ node, next node ≠ [] → node ∈ nodes entries) (node : ν)
    (plain : ¬ Marked next entries node) :
    ¬ TransGen (fun child other => Arc next other child ∧
      ¬ Marked next entries child) node node := by
  intro cycle
  obtain ⟨_, -, arc⟩ := TransGen.tail'_iff.mp cycle
  obtain ⟨entry, member, rfl⟩ := List.mem_map.mp (entered node (List.ne_nil_of_mem arc.1))
  have settled := search.settled entry member List.not_mem_nil fun looped =>
    plain ⟨entry, member, List.mem_cons_self, looped⟩
  have narrower := TransGen.mono
    (fun child other free => (show FreeArc next entries child other from
    ⟨free.1, fun inner inside same looped =>
      free.2 (same ▸ ⟨inner, inside, List.mem_cons_self, looped⟩)⟩)) entry.node entry.node cycle
  have steady := settled.transGen
  clear settled
  generalize entry.node = last at steady narrower
  induction steady with
  | intro other _ further => exact further other narrower narrower

end Whole

variable [DecidableEq ν]

/-- Enters a node, and from it every child that has not been entered. -/
def enter : Nat → List ν → List (Entry ν) → ν → List (Entry ν)
  | 0, _, entries, _ => entries
  | fuel + 1, above, entries, node =>
      if node ∈ nodes entries then entries
      else (next node).foldl (enter fuel (node :: above)) (⟨node, above⟩ :: entries)

def walk (fuel : Nat) (roots : List ν) : List (Entry ν) := roots.foldl (enter next fuel []) []

section Runs

variable (keys : List ν) (above : List ν) (entries : List (Entry ν))

omit [DecidableEq ν] in
theorem fold_search (step : List (Entry ν) → ν → List (Entry ν)) (children : List ν)
    (each : ∀ child ∈ children, ∀ entries, Search next above entries →
      Search next above (step entries child) ∧ Grown above entries (step entries child) ∧
        child ∈ nodes (step entries child))
    (search : Search next above entries) :
    Search next above (children.foldl step entries) ∧
      Grown above entries (children.foldl step entries) ∧
      ∀ child ∈ children, child ∈ nodes (children.foldl step entries) := by
  induction children generalizing entries with
  | nil => exact ⟨search, Grown.refl above entries, fun _ member => absurd member List.not_mem_nil⟩
  | cons child rest further =>
      obtain ⟨own, others⟩ := List.forall_mem_cons.mp each
      obtain ⟨kept, grown, entered⟩ := own entries search
      obtain ⟨last, further, all⟩ := further _ others kept
      refine ⟨last, grown.trans _ _ _ _ further, List.forall_mem_cons.mpr ⟨?_, all⟩⟩
      obtain ⟨entry, member, rfl⟩ := List.mem_map.mp entered
      exact List.mem_map_of_mem (Grown.mem above _ _ further entry member)

theorem enter_search (closed : ∀ node, ∀ child ∈ next node, child ∈ keys) (fuel : Nat)
    (node : ν) (room : Room keys fuel above) (known : node ∈ keys)
    (search : Search next above entries)
    (follows : ∀ last back, above = last :: back → node ∈ next last) :
    Search next above (enter next fuel above entries node) ∧
      Grown above entries (enter next fuel above entries node) ∧
      node ∈ nodes (enter next fuel above entries node) := by
  induction fuel generalizing above entries node with
  | zero => exact (Room.positive keys above room).elim
  | succ fuel further =>
      rw [enter]
      split
      · next again => exact ⟨search, Grown.refl above entries, again⟩
      · next fresh =>
          have outside : node ∉ above := by
            intro inside
            obtain ⟨front, back, split⟩ := List.append_of_mem inside
            exact fresh (List.mem_map_of_mem
              (search.current node back (split ▸ List.suffix_append _ _)))
          have entered := Room.enter keys fuel above node room known outside
          have pushed := search.push next above entries node fresh follows
          obtain ⟨last, grown, all⟩ := fold_search next (node :: above) _
            (enter next fuel (node :: above)) (next node) (fun child arc before kept =>
              further (node :: above) before child entered (closed node child arc) kept
                fun last back same => by cases same; exact arc) pushed
          have popped := last.pop next above entries node _ grown all
          obtain ⟨new, same, under⟩ := grown
          refine ⟨popped, ⟨new ++ [⟨node, above⟩], by simp [same], ?_⟩, ?_⟩
          · intro entry member
            rcases List.mem_append.mp member with late | own
            · exact (List.suffix_cons _ _).trans (under entry late)
            · obtain rfl := List.mem_singleton.mp own
              exact List.suffix_rfl
          · rw [same]
            simp [nodes]

theorem walk_search (closed : ∀ node, ∀ child ∈ next node, child ∈ keys) (fuel : Nat)
    (room : Room keys fuel []) (roots : List ν) (known : ∀ root ∈ roots, root ∈ keys) :
    Search next [] (walk next fuel roots) ∧ ∀ root ∈ roots, root ∈ nodes
      (walk next fuel roots) := by
  obtain ⟨search, -, entered⟩ := fold_search next [] [] (enter next fuel []) roots
    (fun root member before kept => enter_search next keys [] before closed fuel root room
      (known root member) kept fun _ _ none => absurd none (List.cons_ne_nil _ _).symm)
    (Search.start next)
  exact ⟨search, entered⟩

theorem enter_known (closed : ∀ node, ∀ child ∈ next node, child ∈ keys) (fuel : Nat)
    (node : ν) (known : node ∈ keys) (before : ∀ other ∈ nodes entries, other ∈ keys) :
    ∀ other ∈ nodes (enter next fuel above entries node), other ∈ keys := by
  induction fuel generalizing above entries node with
  | zero => exact before
  | succ fuel further =>
      rw [enter]
      split
      · exact before
      · refine List.foldlRecOn (motive := fun entries : List (Entry ν) =>
          ∀ other ∈ nodes entries, other ∈ keys) _ _ ?_ fun entries before child arc => ?_
        · exact List.forall_mem_cons.mpr ⟨known, before⟩
        · exact further (node :: above) entries child (closed node child arc) before

theorem walk_known (closed : ∀ node, ∀ child ∈ next node, child ∈ keys) (fuel : Nat)
    (roots : List ν) (known : ∀ root ∈ roots, root ∈ keys) :
    ∀ other ∈ nodes (walk next fuel roots), other ∈ keys :=
  List.foldlRecOn (motive := fun entries : List (Entry ν) => ∀ other ∈ nodes entries, other ∈ keys)
    _ _ (fun _ none => absurd none List.not_mem_nil) fun entries before root member =>
      enter_known next keys [] entries closed fuel root (known root member) before

end Runs

end Storyhook.Library.DepthFirst
