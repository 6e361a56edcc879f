import Mathlib.Data.List.Induction
import Storyhook.Library.LongestChain

/-! The search for the longest chains, with a memo and a set of the nodes under way. -/

namespace Storyhook.Library.LongestChain

open DepthFirst

variable {ν : Type}

section Search

variable [Ord ν] (next : ν → List ν)

def longer (best path : List ν) : List ν := if path.length > best.length then path else best

def longest : Nat → Std.TreeSet ν → Std.TreeMap ν (List ν) → ν →
    List ν × Std.TreeMap ν (List ν)
  | 0, _, memo, node => ([node], memo)
  | fuel + 1, visiting, memo, node =>
      match memo[node]? with
      | some cached => (cached, memo)
      | none =>
          if visiting.contains node then ([node], memo)
          else
            let searched := (next node).foldl (fun found other =>
              let answer := longest fuel (visiting.insert node) found.2 other
              (longer found.1 answer.1, answer.2)) ([], memo)
            (node :: searched.1, searched.2.insert node (node :: searched.1))

def survey (fuel : Nat) (nodes : List ν) : Std.TreeMap ν (List ν) :=
  nodes.foldl (fun memo node =>
    let answer := longest next fuel ∅ memo node
    answer.2.insert node answer.1) ∅

end Search

def lastLonger (kept : Option (List ν)) (path : List ν) : Option (List ν) :=
  match kept with
  | none => some path
  | some best => if best.length > path.length then some best else some path

def lastLongest (paths : List (List ν)) : Option (List ν) := paths.foldl lastLonger none

theorem lastLongest_split (paths : List (List ν)) (some : paths ≠ []) :
    ∃ before path after, lastLongest paths = .some path ∧ paths = before ++ path :: after ∧
      (∀ other ∈ before, other.length ≤ path.length) ∧
      ∀ other ∈ after, other.length < path.length := by
  induction paths using List.reverseRecOn with
  | nil => exact absurd rfl some
  | append_singleton earlier last further =>
      rw [lastLongest, List.foldl_append, List.foldl_cons, List.foldl_nil, ← lastLongest]
      cases earlier with
      | nil => exact ⟨[], last, [], rfl, rfl, by simp, by simp⟩
      | cons first rest =>
          obtain ⟨before, path, after, found, split, upTo, below⟩ := further (List.cons_ne_nil _ _)
          rw [found, lastLonger]
          split
          · next still =>
              refine ⟨before, path, after ++ [last], rfl, by simp [split], upTo, ?_⟩
              intro other member
              rcases List.mem_append.mp member with early | own
              · exact below other early
              · exact List.mem_singleton.mp own ▸ still
          · next grown =>
              refine ⟨first :: rest, last, [], rfl, rfl, ?_, by simp⟩
              intro other member
              rw [split] at member
              rcases List.mem_append.mp member with early | own
              · exact (upTo other early).trans (Nat.le_of_not_lt grown)
              · rcases List.mem_cons.mp own with rfl | late
                · exact Nat.le_of_not_lt grown
                · exact (below other late).le.trans (Nat.le_of_not_lt grown)


section Sift

variable [Ord ν] (next : ν → List ν) (back : ν → ν → Prop) (node : ν)

def Offers (child : ν) (path : List ν) : Prop :=
  back node child ∧ path = [child] ∨
    ¬ back node child ∧ ∃ rest, path = child :: rest ∧ Best next back child rest

/-- The best of the chains through the children passed so far. -/
structure Sifted (passed : List ν) (best : List ν) : Prop where
  kept : best = [] ∧ passed = [] ∨
    ∃ child ∈ passed, ∃ rest, best = child :: rest ∧ Cut next back node best
  first : ∀ child ∈ passed, ∀ rest, Cut next back node (child :: rest) →
    Preferred best (child :: rest)

theorem Offers.best (child : ν) (path : List ν) (arc : child ∈ next node)
    (offers : Offers next back node child path) : ∃ own, path = child :: own ∧
      Cut next back node (child :: own) ∧
      ∀ rest, Cut next back node (child :: rest) → Preferred (child :: own) (child :: rest) := by
  rcases offers with ⟨turns, rfl⟩ | ⟨ahead, own, rfl, best⟩
  · refine ⟨[], rfl, .turn node child arc turns, fun rest cut => ?_⟩
    cases cut with
    | turn => exact .inl rfl
    | on _ _ _ _ ahead => exact absurd turns ahead
  · refine ⟨own, rfl, .on node child own arc ahead best.cut, fun rest cut => ?_⟩
    refine Preferred.cons child own rest (best.first rest ?_)
    cases cut with
    | turn _ _ _ turns => exact absurd turns ahead
    | on _ _ _ _ _ further => exact further

theorem Sifted.start : Sifted next back node [] [] where
  kept := .inl ⟨rfl, rfl⟩
  first := fun _ member => absurd member List.not_mem_nil

theorem Sifted.longer (passed : List ν) (best : List ν) (child : ν) (path : List ν)
    (before : Sifted next back node passed best) (arc : child ∈ next node)
    (later : ∀ other ∈ passed, Earlier other child)
    (offers : Offers next back node child path) :
    Sifted next back node (passed ++ [child]) (longer best path) := by
  obtain ⟨own, rfl, cut, first⟩ := offers.best next back node child path arc
  unfold LongestChain.longer
  split
  · next grown =>
      refine ⟨.inr ⟨child, by simp, own, rfl, cut⟩, fun other member rest onward => ?_⟩
      rcases List.mem_append.mp member with early | same
      · exact .inr (.inl (((before.first other early rest onward).length_le).trans_lt grown))
      · obtain rfl := List.mem_singleton.mp same
        exact first rest onward
  · next still =>
      have upTo : (child :: own).length ≤ best.length := Nat.le_of_not_lt still
      rcases before.kept with ⟨rfl, -⟩ | ⟨head, inside, rest, rfl, kept⟩
      · simp at upTo
      · refine ⟨.inr ⟨head, List.mem_append_left _ inside, rest, rfl, kept⟩, ?_⟩
        intro other member onward along
        rcases List.mem_append.mp member with early | same
        · exact before.first other early onward along
        · obtain rfl := List.mem_singleton.mp same
          rcases Nat.lt_or_eq_of_le ((first onward along).length_le.trans upTo) with shorter | equal
          · exact .inr (.inl shorter)
          · exact .inr (.inr ⟨equal, .rel (later head inside)⟩)

theorem Sifted.best (best : List ν) (sifted : Sifted next back node (next node) best) :
    Best next back node best where
  cut := by
    rcases sifted.kept with ⟨rfl, -⟩ | ⟨_, _, _, _, cut⟩
    · exact .stop node
    · exact cut
  first := by
    intro other cut
    cases cut with
    | stop =>
        rcases sifted.kept with ⟨rfl, -⟩ | ⟨_, _, _, rfl, _⟩
        · exact .inl rfl
        · exact .inr (.inl (Nat.succ_pos _))
    | turn _ child arc turns => exact sifted.first child arc [] (.turn node child arc turns)
    | on _ child rest arc ahead further =>
        exact sifted.first child arc rest (.on node child rest arc ahead further)

end Sift

theorem Grown.suffix (above : List ν) (before after : List (Entry ν))
    (grown : Grown above before after) :
    before <:+ after := by
  obtain ⟨new, rfl, -⟩ := grown
  exact List.suffix_append _ _

def Answered [Ord ν] (next : ν → List ν) (back : ν → ν → Prop) (above : List ν) (node : ν)
    (path : List ν) : Prop :=
  node ∈ above ∧ path = [node] ∨
    node ∉ above ∧ ∃ rest, path = node :: rest ∧ Best next back node rest

/-- How the memo and the set follow a depth-first walk. -/
structure Tracks [Ord ν] (next : ν → List ν) (back : ν → ν → Prop) (above : List ν)
    (entries : List (Entry ν)) (visiting : Std.TreeSet ν) (memo : Std.TreeMap ν (List ν)) :
    Prop where
  underWay : ∀ node, node ∈ visiting ↔ node ∈ above
  recorded : ∀ node, node ∈ memo ↔ node ∈ nodes entries ∧ node ∉ above
  solved : ∀ node path, memo[node]? = some path →
    (∃ rest, path = node :: rest ∧ Best next back node rest) ∧ Acc (Ahead next back) node

section Walk

variable [Ord ν] [Std.TransOrd ν] [Std.LawfulEqOrd ν] (next : ν → List ν)
  (back : ν → ν → Prop) (above : List ν) (entries : List (Entry ν)) (visiting : Std.TreeSet ν)
  (memo : Std.TreeMap ν (List ν)) (node : ν)

theorem Tracks.push (tracks : Tracks next back above entries visiting memo)
    (absent : node ∉ memo) :
    Tracks next back (node :: above) (⟨node, above⟩ :: entries) (visiting.insert node) memo where
  underWay := by
    intro other
    rw [Std.TreeSet.mem_insert, Std.LawfulEqOrd.compare_eq_iff_eq, List.mem_cons, tracks.underWay,
      eq_comm]
  recorded := by
    intro other
    simp only [nodes, List.map_cons, List.mem_cons, not_or]
    by_cases same : other = node
    · subst same
      simp [absent]
    · rw [tracks.recorded]
      simp [same, nodes]
  solved := tracks.solved

theorem Tracks.pop (path : List ν) (tracks : Tracks next back (node :: above) entries
      (visiting.insert node) memo) (outside : ∀ other, other ∈ visiting ↔ other ∈ above)
    (fresh : node ∉ above) (entered : node ∈ nodes entries)
    (best : ∃ rest, path = node :: rest ∧ Best next back node rest)
    (settled : Acc (Ahead next back) node) :
    Tracks next back above entries visiting (memo.insert node path) where
  underWay := outside
  recorded := by
    intro other
    rw [Std.TreeMap.mem_insert, Std.LawfulEqOrd.compare_eq_iff_eq, tracks.recorded, List.mem_cons,
      not_or]
    by_cases same : other = node
    · subst same
      simp [fresh, entered]
    · simp [same, Ne.symm same]
  solved := by
    intro other found cached
    rw [Std.TreeMap.getElem?_insert] at cached
    split at cached
    · next same =>
        obtain rfl := Std.LawfulEqOrd.eq_of_compare same
        cases cached
        exact ⟨best, settled⟩
    · exact tracks.solved other found cached

variable (keys : List ν) (whole : List (Entry ν))

omit [Std.TransOrd ν] [Std.LawfulEqOrd ν] in
theorem fold_tracks (call : Std.TreeMap ν (List ν) → ν → List ν × Std.TreeMap ν (List ν))
    (step : List (Entry ν) → ν → List (Entry ν)) (children passed best : List ν)
    (walks : ∀ child ∈ children, ∀ entries, Search next (node :: above) entries →
      Search next (node :: above) (step entries child) ∧
        Grown (node :: above) entries (step entries child) ∧ child ∈ nodes (step entries child))
    (each : ∀ child ∈ children, ∀ entries memo, Search next (node :: above) entries →
      Tracks next back (node :: above) entries visiting memo → step entries child <:+ whole →
        Tracks next back (node :: above) (step entries child) visiting (call memo child).2 ∧
          Answered next back (node :: above) child (call memo child).1)
    (search : Search next (node :: above) entries)
    (tracks : Tracks next back (node :: above) entries visiting memo)
    (within : children.foldl step entries <:+ whole) (split : next node = passed ++ children)
    (ordered : (next node).Pairwise Earlier)
    (turns : ∀ child, back node child ↔ child ∈ node :: above)
    (sifted : Sifted next back node passed best) :
    let found := children.foldl (fun found other =>
      (longer found.1 (call found.2 other).1, (call found.2 other).2)) (best, memo)
    Tracks next back (node :: above) (children.foldl step entries) visiting found.2 ∧
      Sifted next back node (next node) found.1 := by
  induction children generalizing entries memo passed best with
  | nil =>
      rw [List.append_nil] at split
      exact ⟨tracks, split ▸ sifted⟩
  | cons child rest further =>
      obtain ⟨own, others⟩ := List.forall_mem_cons.mp walks
      obtain ⟨kept, -, -⟩ := own entries search
      obtain ⟨-, grown, -⟩ := fold_search next (node :: above) _ step rest others kept
      obtain ⟨tracked, answered⟩ := each child List.mem_cons_self entries memo search tracks
        ((Grown.suffix _ _ _ grown).trans within)
      have arc : child ∈ next node := split ▸ List.mem_append_right _ List.mem_cons_self
      have later : ∀ other ∈ passed, Earlier other child := fun other member =>
        (List.pairwise_append.mp (split ▸ ordered)).2.2 other member child List.mem_cons_self
      have offers : Offers next back node child (call memo child).1 := by
        rw [Offers, turns]
        exact answered
      exact further (step entries child) (call memo child).2 (passed ++ [child])
        (longer best (call memo child).1) others
        (fun other member => each other (List.mem_cons_of_mem _ member)) kept tracked within
        (by simp [split]) (sifted.longer next back node passed best child _ arc later offers)

theorem longest_tracks (closed : ∀ node, ∀ child ∈ next node, child ∈ keys)
    (ordered : ∀ node, (next node).Pairwise Earlier)
    (exact : ∀ entry ∈ whole, ∀ other,
      back entry.node other ↔ other ∈ entry.node :: entry.above)
    (fuel : Nat) (room : Room keys fuel above) (known : node ∈ keys)
    (search : Search next above entries)
    (follows : ∀ last rest, above = last :: rest → node ∈ next last)
    (tracks : Tracks next back above entries visiting memo) [DecidableEq ν]
    (within : enter next fuel above entries node <:+ whole) :
    Tracks next back above (enter next fuel above entries node) visiting
        (longest next fuel visiting memo node).2 ∧
      Answered next back above node (longest next fuel visiting memo node).1 := by
  induction fuel generalizing above entries visiting memo node with
  | zero => exact (Room.positive keys above room).elim
  | succ fuel further =>
      rw [enter] at within ⊢
      rw [longest]
      cases cached : memo[node]? with
      | some path =>
          dsimp only
          have recorded := (tracks.recorded node).mp
            (Std.TreeMap.mem_iff_isSome_getElem?.mpr (by rw [cached]; rfl))
          rw [if_pos recorded.1]
          exact ⟨tracks, .inr ⟨recorded.2, (tracks.solved node path cached).1⟩⟩
      | none =>
          dsimp only
          have absent : node ∉ memo := by
            rw [Std.TreeMap.mem_iff_isSome_getElem?, cached]
            exact Bool.false_ne_true
          by_cases again : node ∈ visiting
          · have inside : node ∈ above := (tracks.underWay node).mp again
            obtain ⟨front, rest, split⟩ := List.append_of_mem inside
            have there : visiting.contains node = true := again
            have seen : node ∈ nodes entries := List.mem_map_of_mem (f := Entry.node)
              (search.current node rest (split ▸ List.suffix_append _ _))
            rw [if_pos there, if_pos seen]
            exact ⟨tracks, .inl ⟨inside, rfl⟩⟩
          · have fresh : node ∉ above := mt (tracks.underWay node).mpr again
            have unseen : node ∉ nodes entries := fun seen =>
              absent ((tracks.recorded node).mpr ⟨seen, fresh⟩)
            have gone : ¬ visiting.contains node = true := again
            rw [if_neg unseen] at within ⊢
            rw [if_neg gone]
            have entered := Room.enter keys fuel above node room known fresh
            have pushed := search.push next above entries node unseen follows
            have walks (child : ν) (arc : child ∈ next node) (before : List (Entry ν))
                (kept : Search next (node :: above) before) :=
              enter_search next keys (node :: above) before closed fuel child entered
                (closed node child arc) kept fun _ _ same => by cases same; exact arc
            obtain ⟨-, grown, all⟩ := fold_search next (node :: above) _
              (enter next fuel (node :: above)) (next node) walks pushed
            have placed : Entry.mk node above ∈ whole :=
              within.subset (grown.mem _ _ _ _ List.mem_cons_self)
            obtain ⟨tracked, sifted⟩ := fold_tracks next back above (⟨node, above⟩ :: entries)
              (visiting.insert node) memo node whole
              (longest next fuel (visiting.insert node)) (enter next fuel (node :: above))
              (next node) [] [] walks
              (fun child arc before memo kept tracks within => further (node :: above) before
                (visiting.insert node) memo child entered (closed node child arc) kept
                (fun _ _ same => by cases same; exact arc) tracks within)
              pushed (tracks.push next back above entries visiting memo node absent) within rfl
              (ordered node) (exact _ placed) (Sifted.start next back node)
            have best := sifted.best next back node _
            have settled : Acc (Ahead next back) node := by
              constructor
              intro child ahead
              have outer : child ∉ node :: above := mt (exact _ placed child).mpr ahead.2
              have member := (tracked.recorded child).mpr ⟨all child ahead.1, outer⟩
              obtain ⟨path, cached⟩ := Option.isSome_iff_exists.mp
                (Std.TreeMap.mem_iff_isSome_getElem?.mp member)
              exact (tracked.solved child path cached).2
            refine ⟨tracked.pop next back above _ visiting _ node _ tracks.underWay fresh ?_
              ⟨_, rfl, best⟩ settled, .inr ⟨fresh, _, rfl, best⟩⟩
            exact List.mem_map_of_mem (f := Entry.node) (grown.mem _ _ _ _ List.mem_cons_self)

theorem survey_tracks (closed : ∀ node, ∀ child ∈ next node, child ∈ keys)
    (ordered : ∀ node, (next node).Pairwise Earlier)
    (exact : ∀ entry ∈ whole, ∀ other,
      back entry.node other ↔ other ∈ entry.node :: entry.above)
    (fuel : Nat) (room : Room keys fuel []) (roots : List ν) (known : ∀ root ∈ roots, root ∈ keys)
    [DecidableEq ν] (within : walk next fuel roots <:+ whole) :
    Tracks next back [] (walk next fuel roots) ∅ (survey next fuel roots) := by
  induction roots using List.reverseRecOn with
  | nil =>
      exact ⟨by simp, by simp [survey, walk, nodes], by simp [survey]⟩
  | append_singleton earlier root further =>
      have before := fun other member => known other (List.mem_append_left _ member)
      have own : root ∈ keys := known root (List.mem_append_right _ List.mem_cons_self)
      obtain ⟨search, -⟩ := walk_search next keys closed fuel room earlier before
      have follows (last : ν) (rest : List ν) (none : [] = last :: rest) : root ∈ next last :=
        absurd none (List.cons_ne_nil _ _).symm
      obtain ⟨-, grown, entered⟩ :=
        enter_search next keys [] _ closed fuel root room own search follows
      rw [walk, List.foldl_append, List.foldl_cons, List.foldl_nil, ← walk] at within ⊢
      rw [survey, List.foldl_append, List.foldl_cons, List.foldl_nil, ← survey]
      obtain ⟨tracked, answered⟩ := longest_tracks next back [] (walk next fuel earlier) ∅
        (survey next fuel earlier) root keys whole closed ordered exact fuel room own search follows
        (further before ((Grown.suffix _ _ _ grown).trans within)) within
      obtain ⟨fresh, best⟩ := answered.resolve_left fun inside => List.not_mem_nil inside.1
      obtain ⟨path, cached⟩ := Option.isSome_iff_exists.mp
        (Std.TreeMap.mem_iff_isSome_getElem?.mp ((tracked.recorded root).mpr ⟨entered, fresh⟩))
      refine ⟨tracked.underWay, fun other => ?_, fun other found cached => ?_⟩
      · rw [Std.TreeMap.mem_insert, Std.LawfulEqOrd.compare_eq_iff_eq, tracked.recorded]
        exact or_iff_right_of_imp fun same => same ▸ ⟨entered, fresh⟩
      · rw [Std.TreeMap.getElem?_insert] at cached
        split at cached
        · next same =>
            obtain rfl := Std.LawfulEqOrd.eq_of_compare same
            cases cached
            exact ⟨best, (tracked.solved _ path ‹_›).2⟩
        · exact tracked.solved other found cached

end Walk

section Outcome

variable [Ord ν] [Std.TransOrd ν] [Std.LawfulEqOrd ν] [DecidableEq ν] (next : ν → List ν)
  (roots : List ν) (fuel : Nat) (room : Room roots fuel [])
  (closed : ∀ node, ∀ child ∈ next node, child ∈ roots)
  (ordered : ∀ node, (next node).Pairwise Earlier)

include room closed ordered

theorem survey_whole : Tracks next (BackArc (walk next fuel roots)) [] (walk next fuel roots) ∅
    (survey next fuel roots) := by
  obtain ⟨search, -⟩ := walk_search next roots closed fuel room roots fun _ => id
  refine survey_tracks next _ roots _ closed ordered (fun entry member other => ?_) fuel room roots
    (fun _ => id) List.suffix_rfl
  constructor
  · rintro ⟨same, inside, equal, back⟩
    obtain rfl := entry_unique next _ search same entry inside member equal
    exact back
  · exact fun back => ⟨entry, member, rfl, back⟩

theorem survey_solved (node : ν) (member : node ∈ roots) :
    (∃ rest, (survey next fuel roots)[node]? = some (node :: rest) ∧
      Best next (BackArc (walk next fuel roots)) node rest) ∧
    Acc (Ahead next (BackArc (walk next fuel roots))) node := by
  have tracks := survey_whole next roots fuel room closed ordered
  obtain ⟨-, entered⟩ := walk_search next roots closed fuel room roots fun _ => id
  obtain ⟨path, cached⟩ := Option.isSome_iff_exists.mp (Std.TreeMap.mem_iff_isSome_getElem?.mp
    ((tracks.recorded node).mpr ⟨entered node member, List.not_mem_nil⟩))
  obtain ⟨⟨rest, rfl, best⟩, settled⟩ := tracks.solved node path cached
  exact ⟨⟨rest, cached, best⟩, settled⟩

theorem ahead_acyclic (node : ν) :
    ¬ Relation.TransGen (Ahead next (BackArc (walk next fuel roots))) node node := by
  intro cycle
  obtain ⟨other, arc, -⟩ := Relation.TransGen.head'_iff.mp cycle
  have settled := (survey_solved next roots fuel room closed ordered node
    (closed other node arc.1)).2.transGen
  clear arc
  induction settled with
  | intro node _ further => exact further node cycle cycle

theorem lastLongest_foremost (filled : roots ≠ []) :
    ∃ node rest, lastLongest ((survey next fuel roots).toList.map (·.2)) = some (node :: rest) ∧
      Foremost next (BackArc (walk next fuel roots)) roots node rest := by
  have tracks := survey_whole next roots fuel room closed ordered
  have solved := survey_solved next roots fuel room closed ordered
  obtain ⟨first, inside⟩ := List.exists_mem_of_ne_nil _ filled
  obtain ⟨⟨start, cached, -⟩, -⟩ := solved first inside
  have some : (survey next fuel roots).toList.map (·.2) ≠ [] := by
    refine List.ne_nil_of_mem (List.mem_map_of_mem (f := (·.2)) (a := (first, first :: start)) ?_)
    exact Std.TreeMap.mem_toList_iff_getElem?_eq_some.mpr cached
  obtain ⟨before, path, after, found, parts, upTo, below⟩ := lastLongest_split _ some
  obtain ⟨early, others, listed, rfl, split⟩ := List.map_eq_append_iff.mp parts
  obtain ⟨⟨node, path⟩, late, rfl, rfl, rfl⟩ := List.map_eq_cons_iff.mp split
  have here : (survey next fuel roots)[node]? = .some path :=
    Std.TreeMap.mem_toList_iff_getElem?_eq_some.mp (by rw [listed]; simp)
  obtain ⟨⟨rest, rfl, best⟩, -⟩ := tracks.solved node path here
  have sorted : (early ++ (node, node :: rest) :: late).Pairwise fun one other =>
      Earlier one.1 other.1 := listed ▸ Std.TreeMap.ordered_keys_toList
  have ranked (other : ν) (member : other ∈ roots) (onward : List ν)
      (cut : Cut next (BackArc (walk next fuel roots)) other onward) :
      onward.length ≤ rest.length ∧
        (onward.length = rest.length → other = node ∨ Earlier other node) := by
    obtain ⟨⟨own, cached, first⟩, -⟩ := solved other member
    have shorter := (first.first onward cut).length_le
    have placed : (other, other :: own) ∈ early ++ (node, node :: rest) :: late :=
      listed ▸ Std.TreeMap.mem_toList_iff_getElem?_eq_some.mpr cached
    rcases List.mem_append.mp placed with one | two
    · have bounded := upTo _ (List.mem_map_of_mem (f := (·.2)) one)
      simp only [List.length_cons] at bounded
      exact ⟨by omega, fun _ => .inr ((List.pairwise_append.mp sorted).2.2 _ one _
        List.mem_cons_self)⟩
    · rcases List.mem_cons.mp two with same | three
      · cases same
        exact ⟨shorter, fun _ => .inl rfl⟩
      · have bounded := below _ (List.mem_map_of_mem (f := (·.2)) three)
        simp only [List.length_cons] at bounded
        exact ⟨by omega, by omega⟩
  refine ⟨node, rest, found, ?_, best, fun other member onward cut =>
    (ranked other member onward cut).1, fun other member onward cut =>
    (ranked other member onward cut).2⟩
  exact walk_known next roots closed fuel roots (fun _ => id) node ((tracks.recorded node).mp
    (Std.TreeMap.mem_iff_isSome_getElem?.mpr (by rw [here]; rfl))).1

end Outcome

end Storyhook.Library.LongestChain
