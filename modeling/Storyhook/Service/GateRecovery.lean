import Storyhook.Library.Replay
import Storyhook.Service.GateProgress

/-! What a journal has to say for a retry to count as one that reached the gate. -/

namespace Storyhook.Service.Gate

open Library

def isRun : JournalLine → Bool
  | .run .. => true
  | _ => false

def opensRun (wire : Wire) (rawLine : List Char) : Bool := (recordOf wire rawLine).any isRun

def damages (wire : Wire) (rawLine : List Char) : Bool :=
  rawLine.getLast? = some '\n' && !(Text.trim rawLine).isEmpty && (recordOf wire rawLine).isNone

/-- The word that an item record has for one of the two rows of the gate's lifecycle. -/
def reportOf (wire : Wire) (rawLine : List Char) : Option (String × String) :=
  match recordOf wire rawLine with
  | some (.item path status _ _ _) =>
      if path = "merge preflight" ∨ path = "release gate" then some (path, status) else none
  | _ => none

def linesSinceRun (wire : Wire) (journal : List Char) : List (List Char) :=
  (Lines.splitInclusive journal).rtakeWhile fun rawLine => !opensRun wire rawLine

def reports (wire : Wire) (journal : List Char) : List (String × String) :=
  (linesSinceRun wire journal).filterMap (reportOf wire)

/-- An undamaged journal of this run, whose preflight passed before its gate was reached. -/
structure ProvesRecovery (wire : Wire) (journal : List Char) : Prop where
  whole : ∀ rawLine ∈ linesSinceRun wire journal, damages wire rawLine = false
  known : ∀ report ∈ reports wire journal, (ItemStatus.parse report.2).isSome = true
  staged : ∃ before between after status,
    reports wire journal =
      before ++ ("merge preflight", "passed") :: (between ++ ("release gate", status) :: after) ∧
    status ∈ ["running", "passed", "failed", "reused"] ∧
    (∀ report ∈ between ++ after, report.1 ≠ "merge preflight") ∧
    ∀ report ∈ after, report.1 ≠ "release gate"

/-- Records that say nothing of the gate's lifecycle. -/
def Inert (wire : Wire) (rawLine : List Char) : Prop :=
  ∃ line, recordOf wire rawLine = some line ∧
    match line with
    | .run .. => False
    | .item path _ _ _ _ => '/' ∈ path.toList
    | _ => True

section Segments

theorem segments_ne_nil (path : String) : segments path ≠ [] := by
  rw [segments, ne_eq, List.map_eq_nil_iff]
  exact List.splitOn_ne_nil _ _

theorem segments_single (path label : String) (flat : '/' ∉ label.toList) :
    segments path = [label] ↔ path = label := by
  constructor
  · intro single
    obtain ⟨piece, split, named⟩ := List.map_eq_singleton_iff.mp single
    have joined : ['/'].intercalate (path.toList.splitOn '/') = path.toList :=
      List.intercalate_splitOn '/'
    rw [split, List.intercalate_singleton] at joined
    rw [← named, joined, String.ofList_toList]
  · rintro rfl
    rw [segments, List.splitOn_eq_singleton flat, List.map_singleton, String.ofList_toList]

end Segments

section Fold

variable (wire : Wire)

theorem foldLine_record (progress : GateProgress) (rawLine : List Char) (order : Nat)
    (line : JournalLine) (read : recordOf wire rawLine = some line) :
    foldLine wire progress (rawLine, order) = applyLine wire order progress line := by
  unfold recordOf at read
  split at read
  · cases read
  · next filled =>
      rw [foldLine, if_neg filled]
      dsimp only
      rw [read]

theorem foldLine_none (progress : GateProgress) (rawLine : List Char) (order : Nat)
    (unread : recordOf wire rawLine = none) :
    foldLine wire progress (rawLine, order) =
      { progress with
        recoveryEvidenceInvalid := progress.recoveryEvidenceInvalid || damages wire rawLine } := by
  unfold foldLine damages
  rw [unread]
  unfold recordOf at unread
  split at unread
  · next blank =>
      rw [if_pos blank]
      simp [blank]
  · next filled =>
      rw [if_neg filled]
      dsimp only
      rw [unread]
      by_cases ended : rawLine.getLast? = some '\n'
      · simp [ended, filled]
      · simp [ended]

def revokes (rawLine : List Char) : Bool :=
  damages wire rawLine ||
    (reportOf wire rawLine).any fun report => (ItemStatus.parse report.2).isNone

theorem foldLine_invalid (progress : GateProgress) (entry : List Char × Nat) :
    (foldLine wire progress entry).recoveryEvidenceInvalid =
      (!opensRun wire entry.1 && (progress.recoveryEvidenceInvalid || revokes wire entry.1)) := by
  obtain ⟨rawLine, order⟩ := entry
  cases read : recordOf wire rawLine with
  | none =>
      rw [foldLine_none wire progress rawLine order read]
      simp [opensRun, revokes, reportOf, read]
  | some line =>
      rw [foldLine_record wire progress rawLine order line read]
      simp only [opensRun, revokes, damages, reportOf, read, Option.any_some, Option.isNone_some,
        Bool.and_false, Bool.false_or]
      cases line with
      | run generation atTime attemptId => rfl
      | item path status atTime seconds total =>
          simp only [applyLine, isRun]
          cases known : ItemStatus.parse status with
          | none =>
              dsimp only
              split <;> simp [known]
          | some found =>
              dsimp only
              split <;> simp [known]
      | output fields =>
          simp only [applyLine, isRun]
          split <;> simp
      | activity path label status atTime =>
          simp only [applyLine, isRun]
          split <;> simp
      | watchdog fields =>
          simp only [applyLine, isRun]
          split <;> simp
      | case path outcome => simp [applyLine, isRun]
      | unknown => simp [applyLine, isRun]

def statusFor (label : String) (rawLine : List Char) : Option ItemStatus :=
  (reportOf wire rawLine).bind fun report =>
    if report.1 = label then ItemStatus.parse report.2 else none

def standing (label : String) (items : List ProgressItem) : Option (ItemStatus × Nat) :=
  (Trie.entryAt items [label]).bind fun row =>
    if row.explicit then some (row.status, row.statusOrder) else none

theorem standing_itemMut (label path : String) (flat : '/' ∉ label.toList)
    (edit : ItemRow → ItemRow) (items : List ProgressItem) :
    standing label (itemMut path edit items) =
      if path = label then
        let row := edit ((Trie.entryAt items [label]).getD ItemRow.new)
        if row.explicit then some (row.status, row.statusOrder) else none
      else standing label items := by
  rw [standing, itemMut, Trie.entryAt_modify _ _ _ _ items (segments_ne_nil path)
    (List.cons_ne_nil _ _)]
  by_cases same : path = label
  · rw [if_pos ((segments_single path label flat).mpr same).symm, if_pos same]
    rfl
  · rw [if_neg fun hit => same ((segments_single path label flat).mp hit.symm), if_neg same]
    split
    · rw [standing]
      cases Trie.entryAt items [label] <;> rfl
    · rfl

def writesStanding (label : String) (entry : List Char × Nat) :
    Option (Option (ItemStatus × Nat)) :=
  if opensRun wire entry.1 then some none
  else (statusFor wire label entry.1).map fun status => some (status, entry.2)

theorem foldLine_standing (label : String)
    (which : label = "merge preflight" ∨ label = "release gate") (progress : GateProgress)
    (entry : List Char × Nat) :
    standing label (foldLine wire progress entry).items =
      (writesStanding wire label entry).getD (standing label progress.items) := by
  obtain ⟨rawLine, order⟩ := entry
  have flat : '/' ∉ label.toList := by
    rcases which with rfl | rfl <;> decide
  cases read : recordOf wire rawLine with
  | none =>
      rw [foldLine_none wire progress rawLine order read]
      simp [writesStanding, opensRun, statusFor, reportOf, read]
  | some line =>
      rw [foldLine_record wire progress rawLine order line read]
      simp only [writesStanding, opensRun, statusFor, reportOf, read, Option.any_some]
      cases line with
      | run generation atTime attemptId => rfl
      | item path status atTime seconds total =>
          simp only [applyLine, isRun]
          cases known : ItemStatus.parse status with
          | none =>
              dsimp only
              by_cases here : path = "merge preflight" ∨ path = "release gate"
              · simp [here, known]
              · simp [here]
          | some found =>
              dsimp only
              rw [standing_itemMut label path flat]
              by_cases same : path = label
              · subst same
                simp [which, known, ItemRow.report]
              · rw [if_neg same]
                by_cases here : path = "merge preflight" ∨ path = "release gate"
                · simp [here, same]
                · simp [here]
      | case path outcome =>
          simp only [applyLine, isRun]
          rw [standing_itemMut label path flat]
          by_cases same : path = label
          · rw [if_pos same, standing]
            cases Trie.entryAt progress.items [label] <;> rfl
          · rw [if_neg same]
            rfl
      | output fields =>
          simp only [applyLine, isRun]
          split <;> rfl
      | activity path label status atTime =>
          simp only [applyLine, isRun]
          split <;> rfl
      | watchdog fields =>
          simp only [applyLine, isRun]
          split <;> rfl
      | unknown => rfl

end Fold

section Reports

variable (wire : Wire) (journal : List Char)

def sinceRun : List (List Char × Nat) :=
  (numbered journal).rtakeWhile fun entry => !opensRun wire entry.1

theorem sinceRun_lines : (sinceRun wire journal).map (·.1) = linesSinceRun wire journal := by
  have lines : (numbered journal).map (·.1) = Lines.splitInclusive journal :=
    List.zipIdx_map_fst 0 (Lines.splitInclusive journal)
  rw [linesSinceRun, ← lines, sinceRun, List.rtakeWhile, List.rtakeWhile, ← List.map_reverse,
    List.takeWhile_map, List.map_reverse]
  rfl

def numberedReports : List ((String × String) × Nat) :=
  (sinceRun wire journal).filterMap fun entry => (reportOf wire entry.1).map fun report =>
    (report, entry.2)

theorem numberedReports_reports :
    (numberedReports wire journal).map (·.1) = reports wire journal := by
  rw [reports, ← sinceRun_lines, List.filterMap_map, numberedReports, List.map_filterMap]
  refine List.filterMap_congr fun entry _ => ?_
  cases found : reportOf wire entry.1 <;> simp [found]

theorem numberedReports_ordered :
    (numberedReports wire journal).Pairwise fun one other => one.2 < other.2 := by
  have all : (numbered journal).Pairwise fun one other => one.2 < other.2 := by
    rw [← List.pairwise_map (f := Prod.snd), numbered, List.zipIdx_map_snd]
    exact List.pairwise_lt_range'
  have since : (sinceRun wire journal).Pairwise fun one other => one.2 < other.2 :=
    all.sublist (List.rtakeWhile_suffix _ _).sublist
  refine since.filterMap _ fun one other ordered first here second there => ?_
  obtain ⟨report, -, rfl⟩ := Option.map_eq_some_iff.mp here
  obtain ⟨later, -, rfl⟩ := Option.map_eq_some_iff.mp there
  exact ordered

theorem fold_invalid : (fold wire journal).recoveryEvidenceInvalid = false ↔
    (∀ rawLine ∈ linesSinceRun wire journal, damages wire rawLine = false) ∧
      ∀ report ∈ reports wire journal, (ItemStatus.parse report.2).isSome = true := by
  rw [fold, Replay.foldl_latch (foldLine wire) GateProgress.recoveryEvidenceInvalid
    (fun entry => opensRun wire entry.1) (fun entry => revokes wire entry.1)
    (foldLine_invalid wire) .empty rfl, ← sinceRun, List.any_eq_false, reports, ← sinceRun_lines]
  simp only [List.mem_filterMap, List.mem_map, revokes, Bool.or_eq_true, not_or, Bool.not_eq_true,
    Option.any_eq_false]
  constructor
  · intro clean
    refine ⟨?_, ?_⟩
    · rintro _ ⟨entry, member, rfl⟩
      exact (clean entry member).1
    rintro report ⟨_, ⟨entry, member, rfl⟩, reported⟩
    simpa using (clean entry member).2 report reported
  · rintro ⟨whole, known⟩ entry member
    refine ⟨whole _ ⟨entry, member, rfl⟩, fun report reported => ?_⟩
    simpa using known report ⟨_, ⟨entry, member, rfl⟩, reported⟩

/-- The status a numbered report gives a row. -/
def placed (label : String) (report : (String × String) × Nat) : Option (ItemStatus × Nat) :=
  if report.1.1 = label then (ItemStatus.parse report.1.2).map fun status => (status, report.2)
  else none

theorem fold_standing (label : String) (which : label = "merge preflight" ∨ label = "release gate") :
    standing label (fold wire journal).items =
      ((numberedReports wire journal).filterMap (placed label)).getLast? := by
  have since (entries : List (List Char × Nat)) :
      ((entries.filterMap (writesStanding wire label)).getLast?).getD none =
        (((entries.rtakeWhile fun entry => !opensRun wire entry.1).filterMap fun entry =>
          (statusFor wire label entry.1).map fun status => (status, entry.2)).getLast?) := by
    induction entries using List.reverseRecOn with
    | nil => rfl
    | append_singleton earlier entry further =>
        rw [List.filterMap_append, List.rtakeWhile_concat]
        by_cases opens : opensRun wire entry.1 = true
        · simp [writesStanding, opens]
        · simp only [Bool.not_eq_true] at opens
          simp only [opens, Bool.not_false, if_true, List.filterMap_append]
          cases reported : statusFor wire label entry.1 with
          | none => simpa [writesStanding, opens, reported] using further
          | some status => simp [writesStanding, opens, reported]
  rw [fold, Replay.foldl_lastWrite (foldLine wire) (fun progress => standing label progress.items)
    (writesStanding wire label) (foldLine_standing wire label which) .empty]
  have blank : standing label GateProgress.empty.items = none := rfl
  rw [blank, since, ← sinceRun, numberedReports, List.filterMap_filterMap]
  congr 1
  refine List.filterMap_congr fun entry _ => ?_
  rw [statusFor]
  cases reportOf wire entry.1 with
  | none => rfl
  | some report =>
      by_cases same : report.1 = label
      · simp [placed, same]
      · simp [placed, same]

end Reports

theorem reached_standing (progress : GateProgress) : progress.reachedVerificationGate = true ↔
    progress.recoveryEvidenceInvalid = false ∧ ∃ first status second,
      standing "merge preflight" progress.items = some (.passed, first) ∧
      standing "release gate" progress.items = some (status, second) ∧ first < second ∧
      status ∈ [ItemStatus.running, .passed, .failed, .reused] := by
  have top (label : String) : standing label progress.items =
      (Trie.find label progress.items).bind fun item =>
        if item.entry.explicit then some (item.entry.status, item.entry.statusOrder) else none := by
    rw [standing, Trie.entryAt, Trie.nodeAt]
    cases Trie.find label progress.items <;> rfl
  rw [GateProgress.reachedVerificationGate, top, top]
  cases progress.recoveryEvidenceInvalid with
  | true => simp
  | false =>
      rw [if_neg Bool.false_ne_true]
      cases Trie.find "merge preflight" progress.items with
      | none => simp
      | some preflight =>
          cases Trie.find "release gate" progress.items with
          | none => simp
          | some gate =>
              simp only [Bool.and_eq_true, Bool.or_eq_true, beq_iff_eq, decide_eq_true_eq,
                Option.bind_some, Option.ite_none_right_eq_some, Option.some.injEq, Prod.mk.injEq,
                List.mem_cons, List.not_mem_nil, or_false, true_and]
              constructor
              · rintro ⟨⟨⟨⟨marked, passed⟩, named⟩, later⟩, reached⟩
                exact ⟨_, _, _, ⟨marked, passed, rfl⟩, ⟨named, rfl, rfl⟩, later, by
                  simpa only [or_assoc] using reached⟩
              · rintro ⟨_, _, _, ⟨marked, passed, rfl⟩, ⟨named, rfl, rfl⟩, later, reached⟩
                exact ⟨⟨⟨⟨marked, passed⟩, named⟩, later⟩, by simpa only [or_assoc] using reached⟩

theorem parse_passed (word : String) : ItemStatus.parse word = some .passed ↔ word = "passed" := by
  constructor
  · intro parsed
    unfold ItemStatus.parse at parsed
    split at parsed <;> first | rfl | cases parsed
  · rintro rfl
    rfl

theorem parse_reached (word : String) :
    (∃ status ∈ [ItemStatus.running, .passed, .failed, .reused],
      ItemStatus.parse word = some status) ↔ word ∈ ["running", "passed", "failed", "reused"] := by
  constructor
  · rintro ⟨status, reached, parsed⟩
    unfold ItemStatus.parse at parsed
    split at parsed <;> first | decide | cases parsed <;> exact absurd reached (by decide)
  · intro listed
    simp only [List.mem_cons, List.not_mem_nil, or_false] at listed
    rcases listed with rfl | rfl | rfl | rfl
    · exact ⟨.running, by decide, rfl⟩
    · exact ⟨.passed, by decide, rfl⟩
    · exact ⟨.failed, by decide, rfl⟩
    · exact ⟨.reused, by decide, rfl⟩

section Staged

variable (found : List ((String × String) × Nat))

theorem placed_last (known : ∀ report ∈ found, (ItemStatus.parse report.1.2).isSome = true)
    (label : String) (status : ItemStatus) (order : Nat) :
    (found.filterMap (placed label)).getLast? = some (status, order) ↔
      ∃ before word after, found = before ++ ((label, word), order) :: after ∧
        ItemStatus.parse word = some status ∧ ∀ report ∈ after, report.1.1 ≠ label := by
  rw [Replay.lastWrite_eq_some]
  constructor
  · rintro ⟨before, ⟨⟨path, word⟩, number⟩, after, split, here, later⟩
    unfold placed at here
    split at here
    · next same =>
        obtain ⟨parsed, spelled, numbered⟩ := Option.map_eq_some_iff.mp here
        cases numbered
        obtain rfl : path = label := same
        refine ⟨before, word, after, split, spelled, fun report member same => ?_⟩
        have none := later report member
        have spelled := known report (by simp [split, member])
        rw [placed, if_pos same, Option.map_eq_none_iff] at none
        rw [none] at spelled
        cases spelled
    · cases here
  · rintro ⟨before, word, after, split, spelled, later⟩
    refine ⟨before, _, after, split, ?_, fun report member => ?_⟩
    · rw [placed, if_pos rfl, spelled]
      rfl
    · rw [placed, if_neg (later report member)]

theorem ordered_split {α : Type} (entries before after earlier later : List (α × Nat))
    (first second : α × Nat) (ordered : entries.Pairwise fun one other => one.2 < other.2)
    (here : entries = before ++ first :: after) (there : entries = earlier ++ second :: later)
    (sooner : first.2 < second.2) :
    ∃ between, earlier = before ++ first :: between ∧ after = between ++ second :: later := by
  rcases List.append_eq_append_iff.mp (here.symm.trans there) with
    ⟨middle, rfl, rest⟩ | ⟨middle, rfl, rest⟩
  · cases middle with
    | nil =>
        cases rest
        exact absurd sooner (Nat.lt_irrefl _)
    | cons head between =>
        obtain ⟨rfl, rfl⟩ := List.cons_eq_cons.mp rest
        exact ⟨between, rfl, rfl⟩
  · cases middle with
    | nil =>
        cases rest
        exact absurd sooner (Nat.lt_irrefl _)
    | cons head between =>
        obtain ⟨rfl, rfl⟩ := List.cons_eq_cons.mp rest
        rw [there, List.pairwise_append] at ordered
        have turned := (List.pairwise_cons.mp ordered.2.1).1 first (by simp)
        exact absurd turned (Nat.lt_asymm sooner)

theorem staged_iff (known : ∀ report ∈ found, (ItemStatus.parse report.1.2).isSome = true)
    (ordered : found.Pairwise fun one other => one.2 < other.2) :
    (∃ first status second,
      (found.filterMap (placed "merge preflight")).getLast? = some (.passed, first) ∧
      (found.filterMap (placed "release gate")).getLast? = some (status, second) ∧
      first < second ∧ status ∈ [ItemStatus.running, .passed, .failed, .reused]) ↔
    ∃ before between after status,
      found.map (·.1) =
        before ++ ("merge preflight", "passed") :: (between ++ ("release gate", status) :: after) ∧
      status ∈ ["running", "passed", "failed", "reused"] ∧
      (∀ report ∈ between ++ after, report.1 ≠ "merge preflight") ∧
      ∀ report ∈ after, report.1 ≠ "release gate" := by
  simp only [placed_last found known, parse_passed]
  constructor
  · rintro ⟨first, status, second, ⟨before, _, after, here, rfl, only⟩,
      ⟨earlier, word, later, there, spelled, last⟩, sooner, reached⟩
    obtain ⟨between, -, rfl⟩ :=
      ordered_split found before after earlier later _ _ ordered here there
      sooner
    refine ⟨before.map (·.1), between.map (·.1), later.map (·.1), word, ?_,
      (parse_reached word).mp ⟨status, reached, spelled⟩, ?_, ?_⟩
    · rw [here]
      simp
    · simp only [List.mem_append, List.mem_map]
      rintro _ (⟨report, member, rfl⟩ | ⟨report, member, rfl⟩)
      · exact only report (by simp [member])
      · exact only report (by simp [member])
    · simp only [List.mem_map]
      rintro _ ⟨report, member, rfl⟩
      exact last report member
  · rintro ⟨before, between, after, word, split, reached, only, last⟩
    obtain ⟨front, rest, rfl, rfl, staged⟩ := List.map_eq_append_iff.mp split
    obtain ⟨⟨_, first⟩, others, rfl, rfl, behind⟩ := List.map_eq_cons_iff.mp staged
    obtain ⟨middle, back, rfl, rfl, gated⟩ := List.map_eq_append_iff.mp behind
    obtain ⟨⟨_, second⟩, final, rfl, rfl, rfl⟩ := List.map_eq_cons_iff.mp gated
    obtain ⟨status, listed, spelled⟩ := (parse_reached word).mpr reached
    refine ⟨first, status, second, ⟨front, "passed", _, rfl, rfl, fun report member => ?_⟩,
      ⟨front ++ (("merge preflight", "passed"), first) :: middle, word, final, by simp, spelled,
        fun report member => last _ (List.mem_map_of_mem member)⟩, ?_, listed⟩
    · rcases List.mem_append.mp member with inside | inside
      · exact only _ (List.mem_append_left _ (List.mem_map_of_mem inside))
      · rcases List.mem_cons.mp inside with rfl | inside
        · exact (by decide : "release gate" ≠ "merge preflight")
        · exact only _ (List.mem_append_right _ (List.mem_map_of_mem inside))
    · have pairs := (List.pairwise_append.mp ordered).2.1
      exact (List.pairwise_cons.mp pairs).1 ((("release gate"), word), second) (by simp)

end Staged

theorem reached_iff (wire : Wire) (journal : List Char) :
    (fold wire journal).reachedVerificationGate = true ↔ ProvesRecovery wire journal := by
  have spelled : (∀ report ∈ reports wire journal, (ItemStatus.parse report.2).isSome = true) ↔
      ∀ report ∈ numberedReports wire journal, (ItemStatus.parse report.1.2).isSome = true := by
    rw [← numberedReports_reports, List.forall_mem_map]
  have staged (known : ∀ report ∈ reports wire journal,
    (ItemStatus.parse report.2).isSome = true) :=
    staged_iff (numberedReports wire journal) (spelled.mp known)
      (numberedReports_ordered wire journal)
  simp only [numberedReports_reports] at staged
  rw [reached_standing, fold_invalid, fold_standing wire journal _ (.inl rfl),
    fold_standing wire journal _ (.inr rfl)]
  constructor
  · rintro ⟨⟨whole, known⟩, stands⟩
    exact ⟨whole, known, (staged known).mp stands⟩
  · rintro ⟨whole, known, stands⟩
    exact ⟨⟨whole, known⟩, (staged known).mpr stands⟩

section Inert

variable (wire : Wire)

theorem Inert.silent (rawLine : List Char) (inert : Inert wire rawLine) :
    opensRun wire rawLine = false ∧ damages wire rawLine = false ∧
      reportOf wire rawLine = none := by
  obtain ⟨line, read, tells⟩ := inert
  have undamaged : damages wire rawLine = false := by simp [damages, read]
  cases line with
  | run generation atTime attemptId => exact tells.elim
  | item path status atTime seconds total =>
      refine ⟨by simp [opensRun, read, isRun], undamaged, ?_⟩
      have nested (label : String) (flat : '/' ∉ label.toList) : path ≠ label := by
        rintro rfl
        exact flat tells
      have apart : ¬ (path = "merge preflight" ∨ path = "release gate") := by
        rintro (here | here)
        · exact nested _ (by decide) here
        · exact nested _ (by decide) here
      simp [reportOf, read, apart]
  | _ => exact ⟨by simp [opensRun, read, isRun], undamaged, by simp [reportOf, read]⟩

theorem ProvesRecovery.inserted (front : List (List Char)) (rawLine rest : List Char)
    (lines : ∀ line ∈ front, Lines.Complete line) (complete : Lines.Complete rawLine)
    (inert : Inert wire rawLine) :
    ProvesRecovery wire (front.flatten ++ rawLine ++ rest) ↔
      ProvesRecovery wire (front.flatten ++ rest) := by
  obtain ⟨unopened, undamaged, unreported⟩ := inert.silent wire rawLine
  have longer : Lines.splitInclusive (front.flatten ++ rawLine ++ rest) =
      front ++ rawLine :: Lines.splitInclusive rest := by
    rw [List.append_assoc, Lines.splitInclusive_flatten front _ lines,
      Lines.splitInclusive_complete rawLine rest complete]
  have shorter : Lines.splitInclusive (front.flatten ++ rest) =
      front ++ Lines.splitInclusive rest := Lines.splitInclusive_flatten front rest lines
  have since (back : List (List Char)) :
      (front ++ rawLine :: back).rtakeWhile (fun line => !opensRun wire line) =
        (front ++ back).rtakeWhile (fun line => !opensRun wire line) ∨
      ∃ kept, (front ++ back).rtakeWhile (fun line => !opensRun wire line) = kept ++ back ∧
        (front ++ rawLine :: back).rtakeWhile (fun line => !opensRun wire line) =
          kept ++ rawLine :: back := by
    induction back using List.reverseRecOn with
    | nil =>
        refine .inr ⟨front.rtakeWhile fun line => !opensRun wire line, ?_, ?_⟩
        · rw [List.append_nil, List.append_nil]
        · rw [List.rtakeWhile_concat, if_pos (by rw [unopened]; rfl)]
    | append_singleton back last further =>
        have split : front ++ rawLine :: (back ++ [last]) =
          (front ++ rawLine :: back) ++ [last] := by
          simp
        rw [split, ← List.append_assoc front back, List.rtakeWhile_concat, List.rtakeWhile_concat]
        by_cases opens : (!opensRun wire last) = true
        · rw [if_pos opens, if_pos opens]
          rcases further with same | ⟨kept, before, after⟩
          · exact .inl (by rw [same])
          · exact .inr ⟨kept, by rw [before, List.append_assoc], by rw [after]; simp⟩
        · rw [if_neg opens, if_neg opens]
          exact .inl rfl
  have lists : (∀ line ∈ linesSinceRun wire (front.flatten ++ rawLine ++ rest),
        damages wire line = false) ↔
      (∀ line ∈ linesSinceRun wire (front.flatten ++ rest), damages wire line = false) := by
    rw [linesSinceRun, linesSinceRun, longer, shorter]
    rcases since (Lines.splitInclusive rest) with same | ⟨kept, before, after⟩
    · rw [same]
    · rw [before, after]
      simp only [List.forall_mem_append, List.forall_mem_cons, undamaged, true_and]
  have same : reports wire (front.flatten ++ rawLine ++ rest) =
      reports wire (front.flatten ++ rest) := by
    rw [reports, reports, linesSinceRun, linesSinceRun, longer, shorter]
    rcases since (Lines.splitInclusive rest) with same | ⟨kept, before, after⟩
    · rw [same]
    · rw [before, after, List.filterMap_append, List.filterMap_append,
        List.filterMap_cons_none unreported]
  constructor
  · rintro ⟨whole, known, staged⟩
    rw [same] at known staged
    exact ⟨lists.mp whole, known, staged⟩
  · rintro ⟨whole, known, staged⟩
    rw [← same] at known staged
    exact ⟨lists.mpr whole, known, staged⟩

end Inert

/-- A retry counts as one that reached the gate just if an undamaged journal of this run says so;
lines that say nothing of it change nothing. -/
theorem recovery_proved_iff (wire : Wire) :
    (∀ journal, (fold wire journal).reachedVerificationGate = true ↔ ProvesRecovery wire journal) ∧
      ∀ (front : List (List Char)) (rawLine rest : List Char),
        (∀ line ∈ front, Lines.Complete line) → Lines.Complete rawLine → Inert wire rawLine →
          (fold wire (front.flatten ++ rawLine ++ rest)).reachedVerificationGate =
            (fold wire (front.flatten ++ rest)).reachedVerificationGate := by
  refine ⟨reached_iff wire, fun front rawLine rest lines complete inert => ?_⟩
  rw [Bool.eq_iff_iff, reached_iff, reached_iff]
  exact ProvesRecovery.inserted wire front rawLine rest lines complete inert

/-- A gate that passes its preflight, starts and has one test pass. -/
def startedGate : List (String × JournalLine) :=
  [("\x7b\"kind\":\"item\",\"path\":\"merge preflight\",\"status\":\"passed\"\x7d",
      .item "merge preflight" "passed" none none none),
    ("\x7b\"kind\":\"case\",\"path\":\"release gate/plugin\",\"outcome\":\"pass\"\x7d",
      .case "release gate/plugin" "pass"),
    ("\x7b\"kind\":\"item\",\"path\":\"release gate\",\"status\":\"running\"\x7d",
      .item "release gate" "running" none none none)]

theorem recovery_proved_started :
    ∃ preflight test gate : List Char,
      startedGate.map (fun line => line.1.toList ++ ['\n']) = [preflight, test, gate] ∧
      (fold (tableWire startedGate) ([preflight].flatten ++ test ++ gate)).reachedVerificationGate =
        (fold (tableWire startedGate) ([preflight].flatten ++ gate)).reachedVerificationGate ∧
      ProvesRecovery (tableWire startedGate) ([preflight].flatten ++ gate) := by
  refine ⟨_, _, _, rfl, (recovery_proved_iff (tableWire startedGate)).2 _ _ _ ?_ ?_ ?_,
    ((recovery_proved_iff (tableWire startedGate)).1 _).mp ?_⟩
  · rintro line member
    obtain rfl := List.mem_singleton.mp member
    exact ⟨_, rfl, by decide +kernel⟩
  · exact ⟨_, rfl, by decide +kernel⟩
  · exact ⟨.case "release gate/plugin" "pass", by rfl, trivial⟩
  · rfl

end Storyhook.Service.Gate
