import Mathlib.Algebra.GroupWithZero.Nat
import Mathlib.Algebra.BigOperators.Pi
import Mathlib.Algebra.Order.BigOperators.Group.Finset
import Mathlib.Algebra.Order.Monoid.Prod
import Storyhook.Service.GateRecovery

/-! The counts of a gate's checklist beside those that its journal gives. -/

namespace Storyhook.Service.Gate

open Library

/-- The records since the last one that opens a run. -/
def records (wire : Wire) (journal : List Char) : List JournalLine :=
  (linesSinceRun wire journal).filterMap (recordOf wire)

def touched : JournalLine → Option (List String)
  | .item path status _ _ _ =>
      if (ItemStatus.parse status).isSome then some (segments path) else none
  | .case path _ => some (segments path)
  | _ => none

section Tally

variable (said : List JournalLine) (path : List String)

def touchedPaths : List (List String) := said.filterMap touched

def leafPaths : Finset (List String) :=
  (touchedPaths said).toFinset.filter fun path =>
    ∀ other ∈ touchedPaths said, path <+: other → other = path

def isCase (outcome : String) : JournalLine → Bool
  | .case own result => segments own = path && result = outcome
  | _ => false

def casesOf (outcome : String) : Nat := said.countP (isCase path outcome)

def casesSeen : Nat := casesOf said path "pass" + casesOf said path "fail"

def itemFor : JournalLine → Option (ItemStatus × Option UInt64)
  | .item own status _ _ total =>
      if segments own = path then (ItemStatus.parse status).map fun status => (status, total)
      else none
  | _ => none

def declared : Option Nat :=
  ((said.filterMap (itemFor path)).filterMap fun item => item.2.map UInt64.toNat).getLast?

def lastStatus : ItemStatus := (((said.filterMap (itemFor path)).map (·.1)).getLast?).getD .pending

/-- How many passed of how many: tests where there are any, otherwise one unit. -/
def leafCount : Nat × Nat :=
  if casesSeen said path = 0 ∧ declared said path = none then
    (if (lastStatus said path).countsAsPassing then 1 else 0, 1)
  else (casesOf said path "pass", (declared said path).getD (casesSeen said path))

def countsUnder (address : List String) : Nat × Nat :=
  ∑ path ∈ leafPaths said with address <+: path, leafCount said path

/-- Totals that fit their type, and no more passes than were declared. -/
structure WithinRange : Prop where
  total : (countsUnder said []).2 < 2 ^ 32
  planned : ∀ path ∈ leafPaths said, ∀ total ∈ declared said path,
    casesOf said path "pass" ≤ total

end Tally

def Shows (share : Share) (counts : Nat × Nat) : Prop :=
  share.1.toNat = counts.1 ∧ share.2.1.toNat = counts.2 ∧ counts.1 ≤ counts.2

/-- Every row and the header show the sums over their leaves. -/
structure CountsExact (wire : Wire) (journal : List Char) : Prop where
  rows : ∀ address item, Trie.nodeAt (fold wire journal).items address = some item →
    Shows (contribution item) (countsUnder (records wire journal) address)
  overall : Shows (fold wire journal).overall (countsUnder (records wire journal) [])

section Mirrors

/-- A row holds what was recorded of it, as far as its counters reach. -/
structure RowTells (said : List JournalLine) (path : List String) (row : ItemRow) : Prop where
  passed : row.counts.passed = UInt32.ofNat (casesOf said path "pass")
  failed : row.counts.failed = UInt32.ofNat (casesOf said path "fail")
  explicitTotal : row.counts.explicitTotal = (declared said path).map UInt32.ofNat
  status : row.status = lastStatus said path

structure Mirrors (said : List JournalLine) (items : List ProgressItem) : Prop where
  distinct : Trie.Distinct items
  present : ∀ path ≠ [], (Trie.entryAt items path).isSome = true ↔
    ∃ other ∈ touchedPaths said, path <+: other
  row : ∀ path ≠ [], RowTells said path ((Trie.entryAt items path).getD ItemRow.new)

theorem Mirrors.empty : Mirrors [] [] where
  distinct := Trie.Distinct.nil
  present := by
    intro path filled
    obtain ⟨step, rest, rfl⟩ := List.exists_cons_of_ne_nil filled
    exact iff_of_false Bool.false_ne_true fun ⟨_, member, _⟩ => nomatch member
  row := by
    intro path filled
    obtain ⟨step, rest, rfl⟩ := List.exists_cons_of_ne_nil filled
    exact ⟨rfl, rfl, rfl, rfl⟩

variable (said : List JournalLine) (path : List String) (line : JournalLine)

theorem casesOf_append (outcome : String) : casesOf (said ++ [line]) path outcome =
    casesOf said path outcome + if isCase path outcome line then 1 else 0 := by
  rw [casesOf, List.countP_append, List.countP_singleton]
  rfl

theorem declared_append : declared (said ++ [line]) path =
    ((itemFor path line).bind fun item => item.2.map UInt64.toNat).or (declared said path) := by
  rw [declared, List.filterMap_append, List.filterMap_append, List.getLast?_append]
  cases found : itemFor path line with
  | none => simp [found, declared]
  | some item =>
      obtain ⟨status, total⟩ := item
      cases total <;> simp [found, declared]

theorem lastStatus_append : lastStatus (said ++ [line]) path =
    ((itemFor path line).map (·.1)).getD (lastStatus said path) := by
  rw [lastStatus, List.filterMap_append, List.map_append, List.getLast?_append]
  cases found : itemFor path line <;> simp [found, lastStatus]

theorem RowTells.kept (row : ItemRow) (tells : RowTells said path row)
    (uncounted : ∀ outcome, isCase path outcome line = false) (unsaid : itemFor path line = none) :
    RowTells (said ++ [line]) path row where
  passed := by
    rw [casesOf_append, uncounted]
    exact tells.passed
  failed := by
    rw [casesOf_append, uncounted]
    exact tells.failed
  explicitTotal := by
    rw [declared_append, unsaid]
    exact tells.explicitTotal
  status := by
    rw [lastStatus_append, unsaid]
    exact tells.status

theorem RowTells.reported (row : ItemRow) (tells : RowTells said path row) (order : Nat)
    (status : ItemStatus) (atTime : Option String) (seconds total : Option UInt64)
    (uncounted : ∀ outcome, isCase path outcome line = false)
    (about : itemFor path line = some (status, total)) :
    RowTells (said ++ [line]) path (row.report order status atTime seconds total) where
  passed := by
    rw [casesOf_append, uncounted]
    exact tells.passed
  failed := by
    rw [casesOf_append, uncounted]
    exact tells.failed
  explicitTotal := by
    rw [declared_append, about]
    show (total.map UInt64.toUInt32).or row.counts.explicitTotal = _
    cases total with
    | none => exact tells.explicitTotal
    | some value => rfl
  status := by
    rw [lastStatus_append, about]
    rfl

theorem RowTells.tallied (row : ItemRow) (tells : RowTells said path row) (outcome : String)
    (counted : ∀ result, isCase path result line = decide (outcome = result))
    (unsaid : itemFor path line = none) :
    RowTells (said ++ [line]) path (row.tally outcome) where
  passed := by
    rw [casesOf_append, counted]
    by_cases same : outcome = "pass"
    · subst same
      rw [if_pos (by decide), UInt32.ofNat_add, ← tells.passed]
      rfl
    · rw [if_neg (by simpa using same), Nat.add_zero, ← tells.passed]
      unfold ItemRow.tally Counts.record
      split <;> first | rfl | exact absurd rfl same
  failed := by
    rw [casesOf_append, counted]
    by_cases same : outcome = "fail"
    · subst same
      rw [if_pos (by decide), UInt32.ofNat_add, ← tells.failed]
      rfl
    · rw [if_neg (by simpa using same), Nat.add_zero, ← tells.failed]
      unfold ItemRow.tally Counts.record
      split <;> first | rfl | exact absurd rfl same
  explicitTotal := by
    rw [declared_append, unsaid, Option.bind_none, Option.none_or, ← tells.explicitTotal]
    unfold ItemRow.tally Counts.record
    split <;> rfl
  status := by
    rw [lastStatus_append, unsaid]
    exact tells.status

theorem Mirrors.edited (items : List ProgressItem) (mirrors : Mirrors said items) (own : String)
    (edit : ItemRow → ItemRow) (about : touched line = some (segments own))
    (tells : RowTells said (segments own) ((Trie.entryAt items (segments own)).getD ItemRow.new) →
      RowTells (said ++ [line]) (segments own)
        (edit ((Trie.entryAt items (segments own)).getD ItemRow.new)))
    (apart : ∀ path ≠ segments own,
      (∀ outcome, isCase path outcome line = false) ∧ itemFor path line = none) :
    Mirrors (said ++ [line]) (itemMut own edit items) where
  distinct := Trie.modify_distinct _ _ _ items mirrors.distinct
  present := by
    intro path filled
    have paths : touchedPaths (said ++ [line]) = touchedPaths said ++ [segments own] := by
      rw [touchedPaths, List.filterMap_append, List.filterMap_cons_some about]
      rfl
    rw [itemMut, Trie.entryAt_modify _ _ _ _ items (segments_ne_nil own) filled, paths]
    simp only [List.mem_append, List.mem_singleton, or_and_right, exists_or, exists_eq_left]
    by_cases here : path <+: segments own
    · refine iff_of_true ?_ (.inr here)
      by_cases same : path = segments own
      · rw [if_pos same]
        rfl
      · rw [if_neg same, if_pos here]
        rfl
    · rw [if_neg fun same : path = segments own => here (same ▸ List.prefix_rfl),
        if_neg here, or_iff_left here]
      exact mirrors.present path filled
  row := by
    intro path filled
    rw [itemMut, Trie.entryAt_modify _ _ _ _ items (segments_ne_nil own) filled]
    by_cases same : path = segments own
    · subst same
      rw [if_pos rfl]
      exact tells (mirrors.row _ filled)
    · have kept := (mirrors.row path filled).kept said path line _ (apart path same).1
        (apart path same).2
      rw [if_neg same]
      split
      · exact kept
      · exact kept

theorem Mirrors.unsaid (items : List ProgressItem) (mirrors : Mirrors said items)
    (untouched : touched line = none)
    (apart : ∀ path, (∀ outcome, isCase path outcome line = false) ∧ itemFor path line = none) :
    Mirrors (said ++ [line]) items where
  distinct := mirrors.distinct
  present := by
    intro path filled
    have paths : touchedPaths (said ++ [line]) = touchedPaths said := by
      rw [touchedPaths, List.filterMap_append, List.filterMap_cons_none untouched]
      exact List.append_nil _
    rw [paths]
    exact mirrors.present path filled
  row := fun path filled =>
    (mirrors.row path filled).kept said path line _ (apart path).1 (apart path).2

theorem Mirrors.applied (wire : Wire) (order : Nat) (progress : GateProgress)
    (mirrors : Mirrors said progress.items) (unopened : isRun line = false) :
    Mirrors (said ++ [line]) (applyLine wire order progress line).items := by
  have silent (untouched : touched line = none) (uncounted : ∀ path outcome,
      isCase path outcome line = false) (unnamed : ∀ path, itemFor path line = none) :=
    mirrors.unsaid said line _ untouched fun path => ⟨uncounted path, unnamed path⟩
  cases line with
  | run generation atTime attemptId => cases unopened
  | item own status atTime seconds total =>
      simp only [applyLine]
      cases known : ItemStatus.parse status with
      | none =>
          have kept := silent (by simp [touched, known]) (fun _ _ => rfl)
            (fun path => by simp [itemFor, known])
          dsimp only
          split
          · exact kept
          · exact kept
      | some found =>
          refine mirrors.edited said _ progress.items own _ (by simp [touched, known]) (fun tells =>
            tells.reported said _ _ _ order found atTime seconds total (fun _ => rfl)
              (by simp [itemFor, known])) fun path other => ⟨fun _ => rfl, ?_⟩
          rw [itemFor, if_neg (Ne.symm other)]
  | case own outcome =>
      refine mirrors.edited said _ progress.items own _ rfl (fun tells =>
        tells.tallied said _ _ _ outcome (fun result => by simp [isCase]) rfl) fun path other =>
          ⟨fun result => ?_, rfl⟩
      simp [isCase, Ne.symm other]
  | output fields =>
      have kept := silent rfl (fun _ _ => rfl) (fun _ => rfl)
      simp only [applyLine]
      split <;> exact kept
  | activity path label status atTime =>
      have kept := silent rfl (fun _ _ => rfl) (fun _ => rfl)
      simp only [applyLine]
      split <;> exact kept
  | watchdog fields =>
      have kept := silent rfl (fun _ _ => rfl) (fun _ => rfl)
      simp only [applyLine]
      split <;> exact kept
  | unknown => exact silent rfl (fun _ _ => rfl) (fun _ => rfl)

theorem fold_mirrors (wire : Wire) (journal : List Char) :
    Mirrors (records wire journal) (fold wire journal).items := by
  have since (entries : List (List Char × Nat)) :
      Mirrors (((entries.map (·.1)).rtakeWhile fun rawLine => !opensRun wire rawLine).filterMap
        (recordOf wire)) (entries.foldl (foldLine wire) .empty).items := by
    induction entries using List.reverseRecOn with
    | nil => exact Mirrors.empty
    | append_singleton earlier entry further =>
        obtain ⟨rawLine, order⟩ := entry
        rw [List.map_append, List.map_singleton, List.rtakeWhile_concat, List.foldl_concat]
        cases read : recordOf wire rawLine with
        | none =>
            rw [foldLine_none wire _ rawLine order read, if_pos (by simp [opensRun, read]),
              List.filterMap_append, List.filterMap_cons_none read, List.filterMap_nil,
              List.append_nil]
            exact further
        | some line =>
            rw [foldLine_record wire _ rawLine order line read]
            cases opens : isRun line with
            | true =>
                rw [if_neg (by simp [opensRun, read, opens])]
                cases line with
                | run generation atTime attemptId => exact Mirrors.empty
                | _ => cases opens
            | false =>
                rw [if_pos (by simp [opensRun, read, opens]), List.filterMap_append,
                  List.filterMap_cons_some read]
                exact further.applied _ line wire order _ opens
  have lines : (numbered journal).map (·.1) = Lines.splitInclusive journal :=
    List.zipIdx_map_fst 0 (Lines.splitInclusive journal)
  have whole := since (numbered journal)
  rwa [lines] at whole

end Mirrors

section Leaves

variable (said : List JournalLine)

theorem touchedPaths_ne_nil (path : List String) (member : path ∈ touchedPaths said) :
    path ≠ [] := by
  obtain ⟨line, -, about⟩ := List.mem_filterMap.mp member
  cases line with
  | item own status atTime seconds total =>
      obtain ⟨-, same⟩ := Option.ite_none_right_eq_some.mp about
      cases same
      exact segments_ne_nil own
  | case own outcome =>
      cases about
      exact segments_ne_nil own
  | _ => cases about

theorem Mirrors.leaf (items : List ProgressItem) (mirrors : Mirrors said items)
    (path : List String) : path ∈ leafPaths said ↔
      ∃ key entry, Trie.nodeAt items path = some (.node key entry []) := by
  rw [leafPaths, Finset.mem_filter, List.mem_toFinset]
  constructor
  · rintro ⟨member, last⟩
    have there := (mirrors.present path (touchedPaths_ne_nil said path member)).mpr
      ⟨path, member, List.prefix_rfl⟩
    rw [Trie.entryAt, Option.isSome_map] at there
    obtain ⟨⟨key, entry, children⟩, found⟩ := Option.isSome_iff_exists.mp there
    cases children with
    | nil => exact ⟨key, entry, found⟩
    | cons child rest =>
        have below := Trie.nodeAt_child items mirrors.distinct path _ child found List.mem_cons_self
        obtain ⟨other, inside, longer⟩ := (mirrors.present (path ++ [child.key]) (by simp)).mp
          (by rw [Trie.entryAt, below]; rfl)
        have same := last other inside ((List.prefix_append _ _).trans longer)
        have long := longer.length_le
        rw [same, List.length_append] at long
        exact absurd long (Nat.not_succ_le_self path.length)
  · rintro ⟨key, entry, found⟩
    have filled : path ≠ [] := by
      rintro rfl
      cases found
    have alone (other : List String) (member : other ∈ touchedPaths said)
        (longer : path <+: other) : other = path := by
      obtain ⟨rest, rfl⟩ := longer
      have there := (mirrors.present _ (touchedPaths_ne_nil said _ member)).mpr
        ⟨_, member, List.prefix_rfl⟩
      rw [Trie.entryAt, Trie.nodeAt_append items path rest filled, found] at there
      cases rest with
      | nil => exact List.append_nil path
      | cons step more => cases there
    obtain ⟨other, member, longer⟩ := (mirrors.present path filled).mp
      (by rw [Trie.entryAt, found]; rfl)
    exact ⟨alone other member longer ▸ member, alone⟩

/-- A share is what counters of its width make of these counts. -/
def Carries (share : Share) (counts : Nat × Nat) : Prop :=
  share.1 = UInt32.ofNat counts.1 ∧ share.2.1 = UInt32.ofNat counts.2

theorem leafShare_carries (path : List String) (row : ItemRow) (tells : RowTells said path row)
    (fits : declared said path = none → casesSeen said path < 2 ^ 32) :
    Carries (leafShare row) (leafCount said path) := by
  have seen : row.counts.seen = UInt32.ofNat (casesSeen said path) := by
    rw [Counts.seen, tells.passed, tells.failed, casesSeen, UInt32.ofNat_add]
  have own : derivedStatus row [] = lastStatus said path := by
    rw [← tells.status, derivedStatus, if_pos (by simp)]
  have counted : 0 < row.counts.seen ∨ row.counts.explicitTotal.isSome ↔
      ¬(casesSeen said path = 0 ∧ declared said path = none) := by
    rw [tells.explicitTotal, Option.isSome_map, seen]
    cases given : declared said path with
    | some total => simp
    | none =>
        rw [UInt32.lt_iff_toNat_lt, UInt32.toNat_ofNat_of_lt' (fits given)]
        simp [Nat.pos_iff_ne_zero]
  unfold leafShare leafCount
  simp only [counted, own]
  by_cases unit : casesSeen said path = 0 ∧ declared said path = none
  · rw [if_neg (not_not.mpr unit), if_pos unit]
    split <;> exact ⟨rfl, rfl⟩
  · rw [if_pos unit, if_neg unit]
    refine ⟨tells.passed, ?_⟩
    show row.counts.explicitTotal.getD row.counts.seen = _
    rw [tells.explicitTotal, seen]
    cases declared said path <;> rfl

theorem addShares_carries (shares : List Share) (counts : List (Nat × Nat))
    (each : List.Forall₂ Carries shares counts) : Carries (addShares shares) counts.sum := by
  have onward (start : Share) (before : Nat × Nat) (held : Carries start before) : Carries
      (shares.foldl (fun sum share =>
        (sum.1 + share.1, sum.2.1 + share.2.1, sum.2.2 || share.2.2)) start)
      (before + counts.sum) := by
    induction each generalizing start before with
    | nil => exact held
    | cons here _ further =>
        rw [List.sum_cons, ← add_assoc]
        refine further _ _ ⟨?_, ?_⟩
        · exact (congrArg₂ _ held.1 here.1).trans (UInt32.ofNat_add _ _).symm
        · exact (congrArg₂ _ held.2 here.2).trans (UInt32.ofNat_add _ _).symm
  have whole := onward (0, 0, false) 0 ⟨rfl, rfl⟩
  rwa [zero_add] at whole

theorem leafCount_le (path : List String) (leaf : path ∈ leafPaths said) :
    leafCount said path ≤ countsUnder said [] := by
  have single := Finset.single_le_sum (f := leafCount said) (fun _ _ => zero_le) leaf
  rwa [countsUnder, Finset.filter_true_of_mem fun _ _ => List.nil_prefix]

theorem countsUnder_le (address : List String) :
    countsUnder said address ≤ countsUnder said [] := by
  rw [countsUnder, countsUnder, Finset.filter_true_of_mem fun _ _ => List.nil_prefix (l := _)]
  exact Finset.sum_le_sum_of_subset (Finset.filter_subset _ _)

theorem casesSeen_fits (total : (countsUnder said []).2 < 2 ^ 32) (path : List String)
    (leaf : path ∈ leafPaths said) (undeclared : declared said path = none) :
    casesSeen said path < 2 ^ 32 := by
  have bounded := (leafCount_le said path leaf).2
  unfold leafCount at bounded
  by_cases blank : casesSeen said path = 0
  · rw [blank]
    decide
  · rw [if_neg fun both => blank both.1, undeclared] at bounded
    exact bounded.trans_lt total

theorem Mirrors.carried (items : List ProgressItem) (mirrors : Mirrors said items)
    (total : (countsUnder said []).2 < 2 ^ 32) (address : List String) (item : ProgressItem)
    (found : Trie.nodeAt items address = some item) :
    Carries (contribution item) (countsUnder said address) := by
  have filled : address ≠ [] := by
    rintro rfl
    cases found
  obtain ⟨front, last, rfl⟩ := (List.eq_nil_or_concat' address).resolve_left filled
  obtain rfl := Trie.nodeAt_key items front last item found
  rw [countsUnder, ← Trie.sum_leaves (leafCount said) items mirrors.distinct (leafPaths said)
    (mirrors.leaf said items) front item found]
  refine Trie.collapse_leaves _ Carries (leafCount said)
    (fun row shares counts some each => ?_) front
    item fun leaf member => ?_
  · rw [if_neg (by simpa using some)]
    exact addShares_carries shares counts each
  · obtain ⟨rest, key, spelled, reached⟩ := (Trie.mem_leaves item
      (Trie.nodeAt_distinct items mirrors.distinct _ item found) leaf).mp member
    have there : Trie.nodeAt items (front ++ leaf.1) = some (.node key leaf.2 []) := by
      rw [spelled, ← List.singleton_append, ← List.append_assoc,
        Trie.nodeAt_append items _ rest (by simp), found]
      exact reached
    have counted := (mirrors.leaf said items _).mpr ⟨key, leaf.2, there⟩
    have tells := mirrors.row (front ++ leaf.1) (by simp [spelled])
    rw [Trie.entryAt, there] at tells
    exact leafShare_carries said _ leaf.2 tells (casesSeen_fits said total _ counted)

theorem Mirrors.overall (items : List ProgressItem) (mirrors : Mirrors said items)
    (total : (countsUnder said []).2 < 2 ^ 32) :
    Carries (addShares (items.map contribution)) (countsUnder said []) := by
  have tops : countsUnder said [] = (items.map fun item => countsUnder said [item.key]).sum := by
    rw [countsUnder, Finset.filter_true_of_mem fun _ _ => List.nil_prefix,
      ← Trie.sum_leavesOf (leafCount said) items mirrors.distinct (leafPaths said)
        (mirrors.leaf said items)]
    refine congrArg List.sum (List.map_congr_left fun item member => ?_)
    refine Trie.sum_leaves (leafCount said) items mirrors.distinct _ (mirrors.leaf said items) []
      item ?_
    rw [List.nil_append, Trie.nodeAt, Trie.find_of_mem items mirrors.distinct.apart item member]
    rfl
  rw [tops]
  refine addShares_carries _ _ ?_
  rw [List.forall₂_map_left_iff, List.forall₂_map_right_iff, List.forall₂_same]
  intro item member
  refine mirrors.carried said items total [item.key] item ?_
  rw [Trie.nodeAt, Trie.find_of_mem items mirrors.distinct.apart item member]
  rfl

theorem WithinRange.shows (within : WithinRange said) (address : List String) (share : Share)
    (carries : Carries share (countsUnder said address)) :
    Shows share (countsUnder said address) := by
  have each (path : List String) (leaf : path ∈ leafPaths said) :
      (leafCount said path).1 ≤ (leafCount said path).2 := by
    have planned := within.planned path leaf
    unfold leafCount
    split
    · dsimp only
      split <;> decide
    · cases given : declared said path with
      | some total => exact planned total given
      | none => exact Nat.le_add_right _ _
  have most : (countsUnder said address).2 < 2 ^ 32 :=
    (countsUnder_le said address).2.trans_lt within.total
  have least : (countsUnder said address).1 ≤ (countsUnder said address).2 := by
    rw [countsUnder, Prod.fst_sum, Prod.snd_sum]
    exact Finset.sum_le_sum fun path member => each path (Finset.mem_filter.mp member).1
  refine ⟨?_, ?_, least⟩
  · rw [carries.1]
    exact UInt32.toNat_ofNat_of_lt' (least.trans_lt most)
  · rw [carries.2]
    exact UInt32.toNat_ofNat_of_lt' most

/-- The counts are the sums over the leaves exactly when the total fits its type and no leaf has
more passes than were declared. -/
theorem counts_exact_iff (wire : Wire) (journal : List Char) :
    CountsExact wire journal ↔ WithinRange (records wire journal) := by
  have mirrors := fold_mirrors wire journal
  constructor
  · intro exactly
    refine ⟨?_, fun path leaf total given => ?_⟩
    · rw [← exactly.overall.2.1]
      exact UInt32.toNat_lt _
    · obtain ⟨key, entry, found⟩ := (mirrors.leaf _ _ path).mp leaf
      have alone : (leafPaths (records wire journal)).filter (path <+: ·) = {path} := by
        ext other
        rw [Finset.mem_filter, Finset.mem_singleton]
        constructor
        · rintro ⟨member, longer⟩
          exact (Finset.mem_filter.mp leaf).2 other
            (List.mem_toFinset.mp (Finset.mem_filter.mp member).1) longer
        · rintro rfl
          exact ⟨leaf, List.prefix_rfl⟩
      have shown := (exactly.rows path _ found).2.2
      rw [countsUnder, alone, Finset.sum_singleton, leafCount, given, if_neg fun both =>
        nomatch both.2]
        at shown
      exact shown
  · intro within
    exact ⟨fun address item found => within.shows _ address _
      (mirrors.carried _ _ within.total address item found),
      within.shows _ [] _ (mirrors.overall _ _ within.total)⟩

end Leaves

def overdeclared : List (String × JournalLine) :=
  [("\x7b\"kind\":\"item\",\"path\":\"rust-suite\",\"status\":\"running\",\"total\":4294967296\x7d",
      .item "rust-suite" "running" none none (some 4294967296)),
    ("\x7b\"kind\":\"case\",\"path\":\"rust-suite\",\"outcome\":\"pass\"\x7d",
      .case "rust-suite" "pass")]

/-- One test is shown as passed, of none. -/
theorem counts_inexact : ¬∀ wire journal, CountsExact wire journal := by
  intro always
  have shown := (always (tableWire overdeclared) (tableText overdeclared)).overall
  have counts : ((fold (tableWire overdeclared) (tableText overdeclared)).overall.1,
      (fold (tableWire overdeclared) (tableText overdeclared)).overall.2.1) = (1, 0) := by
    decide +kernel
  have least := shown.2.2
  rw [← shown.1, ← shown.2.1, (Prod.mk.inj counts).1, (Prod.mk.inj counts).2] at least
  exact absurd least (by decide)

end Storyhook.Service.Gate
