import Storyhook.Library.Json
import Storyhook.Library.Lines
import Storyhook.Library.Text
import Storyhook.Library.Trie

/-! The journal that a gate keeps of its progress, and the checklist it is folded to. -/

namespace Storyhook.Service.Gate

open Library

inductive ItemStatus where
  | pending
  | running
  | passed
  | failed
  | skipped
  | reused
  deriving DecidableEq, Repr

namespace ItemStatus

def parse : String → Option ItemStatus
  | "pending" => some .pending
  | "running" => some .running
  | "passed" => some .passed
  | "failed" => some .failed
  | "skipped" => some .skipped
  | "reused" => some .reused
  | _ => none

def isTerminal : ItemStatus → Bool
  | .passed | .failed | .skipped | .reused => true
  | .pending | .running => false

def countsAsPassing : ItemStatus → Bool
  | .passed | .skipped | .reused => true
  | .pending | .running | .failed => false

end ItemStatus

/-- The tally of a row that receives cases. Its additions wrap, as a release build's do. -/
structure Counts where
  passed : UInt32
  failed : UInt32
  explicitTotal : Option UInt32

def Counts.record (counts : Counts) (outcome : String) : Counts :=
  match outcome with
  | "pass" => { counts with passed := counts.passed + 1 }
  | "fail" => { counts with failed := counts.failed + 1 }
  | _ => counts

def Counts.seen (counts : Counts) : UInt32 := counts.passed + counts.failed

/-- A checklist row, but for its label and what is nested under it. -/
structure ItemRow where
  status : ItemStatus
  explicit : Bool
  counts : Counts
  seconds : Option UInt64
  statusStartedAt : Option String
  statusOrder : Nat

def ItemRow.new : ItemRow where
  status := .pending
  explicit := false
  counts := ⟨0, 0, none⟩
  seconds := none
  statusStartedAt := none
  statusOrder := 0

abbrev ProgressItem := Trie String ItemRow

/-- A row's own status when it was ever set, otherwise the one its children give it. -/
def derivedStatus (row : ItemRow) (statuses : List ItemStatus) : ItemStatus :=
  if row.explicit || statuses.isEmpty then row.status
  else if statuses.contains .failed then .failed
  else if statuses.contains .running then .running
  else if statuses.all (· == .pending) then .pending
  else if statuses.all ItemStatus.isTerminal then .passed
  else .running

def effectiveStatus : ProgressItem → ItemStatus := Trie.collapse derivedStatus

/-- How many passed, of how many, and whether the second number is an estimate. -/
abbrev Share := UInt32 × UInt32 × Bool

def addShares (shares : List Share) : Share :=
  shares.foldl (fun sum share => (sum.1 + share.1, sum.2.1 + share.2.1, sum.2.2 || share.2.2))
    (0, 0, false)

def leafShare (row : ItemRow) : Share :=
  if 0 < row.counts.seen ∨ row.counts.explicitTotal.isSome then
    (row.counts.passed, row.counts.explicitTotal.getD row.counts.seen,
      row.counts.explicitTotal.isNone && !(derivedStatus row []).isTerminal)
  else if (derivedStatus row []).countsAsPassing then (1, 1, false)
  else (0, 1, false)

def contribution : ProgressItem → Share :=
  Trie.collapse fun row shares => if shares.isEmpty then leafShare row else addShares shares

structure OutputReference where
  attemptId : String
  path : String
  dev : UInt64
  ino : UInt64
  atTime : String

structure WatchdogStop where
  lock : String
  idle : UInt64
  ceiling : UInt64

structure GateRun where
  generation : Int
  startedAt : String
  attemptId : Option String

/-- One line of the journal, as its parser reads it. -/
inductive JournalLine where
  | run (generation : Int) (atTime : String) (attemptId : Option String)
  | output (fields : JsonValue.Fields)
  | item (path status : String) (atTime : Option String) (seconds total : Option UInt64)
  | case (path outcome : String)
  | activity (path label status : String) (atTime : Option String)
  | watchdog (fields : JsonValue.Fields)
  | unknown

/-- The parsers that are derived for the lines and for the records two kinds of them carry. -/
structure Wire where
  journalLine : List Char → Option JournalLine
  outputReference : JsonValue.Fields → Except String OutputReference
  watchdogStop : JsonValue.Fields → Option WatchdogStop

/-- The parsers of a gate that writes the lines of a table and nothing else. -/
def tableWire (table : List (String × JournalLine)) : Wire where
  journalLine line := (table.find? fun known => known.1.toList = line).map (·.2)
  outputReference _ := .error "missing field"
  watchdogStop _ := none

def tableText (table : List (String × JournalLine)) : List Char :=
  table.flatMap fun line => line.1.toList ++ ['\n']

/-- Work within a checklist row that is no row of its own. -/
structure ProgressActivity where
  path : String
  label : String
  status : ItemStatus
  statusStartedAt : Option String
  statusOrder : Nat

structure GateProgress where
  items : List ProgressItem
  activities : List ProgressActivity
  run : Option GateRun
  output : Option OutputReference
  outputError : Option String
  watchdog : Option WatchdogStop
  recoveryEvidenceInvalid : Bool

def GateProgress.empty : GateProgress where
  items := []
  activities := []
  run := none
  output := none
  outputError := none
  watchdog := none
  recoveryEvidenceInvalid := false

def segments (path : String) : List String := (path.toList.splitOn '/').map String.ofList

/-- Edits the row at a path, making it and every row above it that is not there. -/
def itemMut (path : String) (edit : ItemRow → ItemRow) (items : List ProgressItem) :
    List ProgressItem :=
  Trie.modify ItemRow.new edit (segments path) items

def startedAt (status : ItemStatus) (atTime : Option String) : Option String :=
  if status = .running then atTime else none

def ItemRow.report (order : Nat) (status : ItemStatus) (atTime : Option String)
    (seconds total : Option UInt64) (row : ItemRow) : ItemRow :=
  { row with
    explicit := true
    status := status
    statusOrder := order
    statusStartedAt := startedAt status atTime
    seconds := seconds.or row.seconds
    counts := { row.counts with
      explicitTotal := (total.map UInt64.toUInt32).or row.counts.explicitTotal } }

def ItemRow.tally (outcome : String) (row : ItemRow) : ItemRow :=
  { row with counts := row.counts.record outcome }

def setActivity (activity : ProgressActivity) : List ProgressActivity → List ProgressActivity
  | [] => [activity]
  | first :: rest =>
      if first.path = activity.path then activity :: rest else first :: setActivity activity rest

def applyLine (wire : Wire) (order : Nat) (progress : GateProgress) : JournalLine → GateProgress
  | .run generation atTime attemptId =>
      { GateProgress.empty with run := some ⟨generation, atTime, attemptId⟩ }
  | .output fields =>
      match wire.outputReference fields with
      | .ok reference => { progress with output := some reference, outputError := none }
      | .error failure =>
          { progress with
            output := none
            outputError := some ("invalid output reference: " ++ failure) }
  | .item path status atTime seconds total =>
      match ItemStatus.parse status with
      | none =>
          if path = "merge preflight" ∨ path = "release gate" then
            { progress with recoveryEvidenceInvalid := true }
          else progress
      | some status =>
          { progress with
            items := itemMut path (ItemRow.report order status atTime seconds total)
              progress.items }
  | .case path outcome =>
      { progress with items := itemMut path (ItemRow.tally outcome) progress.items }
  | .activity path label status atTime =>
      match ItemStatus.parse status with
      | none => progress
      | some status =>
          { progress with
            activities := setActivity ⟨path, label, status, startedAt status atTime, order⟩
              progress.activities }
  | .watchdog fields =>
      match wire.watchdogStop fields with
      | some stop => { progress with watchdog := some stop }
      | none => progress
  | .unknown => progress

def recordOf (wire : Wire) (rawLine : List Char) : Option JournalLine :=
  if (Text.trim rawLine).isEmpty then none else wire.journalLine (Text.trim rawLine)

def foldLine (wire : Wire) (progress : GateProgress) (entry : List Char × Nat) : GateProgress :=
  if (Text.trim entry.1).isEmpty then progress
  else
    match wire.journalLine (Text.trim entry.1) with
    | none =>
        if entry.1.getLast? = some '\n' then { progress with recoveryEvidenceInvalid := true }
        else progress
    | some line => applyLine wire entry.2 progress line

def numbered (journal : List Char) : List (List Char × Nat) := (Lines.splitInclusive journal).zipIdx

def fold (wire : Wire) (journal : List Char) : GateProgress :=
  (numbered journal).foldl (foldLine wire) .empty

namespace GateProgress

def overall (progress : GateProgress) : Share := addShares (progress.items.map contribution)

/-- Whether an explicit preflight that passed stands before the gate of this run. -/
def reachedVerificationGate (progress : GateProgress) : Bool :=
  if progress.recoveryEvidenceInvalid then false
  else
    match Trie.find "merge preflight" progress.items, Trie.find "release gate" progress.items with
    | some preflight, some gate =>
        preflight.entry.explicit && preflight.entry.status == .passed && gate.entry.explicit &&
          decide (preflight.entry.statusOrder < gate.entry.statusOrder) &&
          (gate.entry.status == .running || gate.entry.status == .passed ||
            gate.entry.status == .failed || gate.entry.status == .reused)
    | _, _ => false

end GateProgress

structure CurrentStep where
  label : String
  startedAt : String
  tests : Option (UInt32 × UInt32)

def laterStep (best : Option (Nat × CurrentStep)) (label : String) (status : ItemStatus)
    (statusStartedAt : Option String) (order : Nat) (tests : Option (UInt32 × UInt32)) :
    Option (Nat × CurrentStep) :=
  match statusStartedAt with
  | some startedAt =>
      if status = .running ∧ best.all (fun found => found.1 < order) then
        some (order, ⟨label, startedAt, tests⟩)
      else best
  | none => best

/-- The tests of a row that has a plan: no more are done than planned. -/
def ItemRow.tests (row : ItemRow) : Option (UInt32 × UInt32) :=
  row.counts.explicitTotal.map fun total => (min row.counts.seen total, total)

mutual

def visit (best : Option (Nat × CurrentStep)) : ProgressItem → Option (Nat × CurrentStep)
  | .node label row children =>
      visitAll (if row.explicit then
        laterStep best label row.status row.statusStartedAt row.statusOrder row.tests
        else best) children

def visitAll (best : Option (Nat × CurrentStep)) : List ProgressItem → Option (Nat × CurrentStep)
  | [] => best
  | item :: rest => visitAll (visit best item) rest

end

def GateProgress.currentStep (progress : GateProgress) : Option CurrentStep :=
  (progress.activities.foldl (fun best activity => laterStep best activity.label activity.status
    activity.statusStartedAt activity.statusOrder none) (visitAll none progress.items)).map (·.2)

section CurrentStep

def WithinPlan (best : Option (Nat × CurrentStep)) : Prop :=
  ∀ found ∈ best, ∀ done planned, found.2.tests = some (done, planned) → done ≤ planned

theorem laterStep_withinPlan (best : Option (Nat × CurrentStep)) (label : String)
    (status : ItemStatus) (statusStartedAt : Option String) (order : Nat)
    (tests : Option (UInt32 × UInt32)) (within : WithinPlan best)
    (planned : ∀ done planned, tests = some (done, planned) → done ≤ planned) :
    WithinPlan (laterStep best label status statusStartedAt order tests) := by
  unfold laterStep
  split
  · split
    · rintro found same
      cases same
      exact planned
    · exact within
  · exact within

theorem tests_withinPlan (row : ItemRow) (done planned : UInt32)
    (counted : row.tests = some (done, planned)) : done ≤ planned := by
  obtain ⟨total, -, same⟩ := Option.map_eq_some_iff.mp counted
  cases same
  show (if row.counts.seen ≤ planned then row.counts.seen else planned) ≤ planned
  split
  · assumption
  · exact UInt32.le_refl planned

theorem visit_withinPlan (item : ProgressItem) (best : Option (Nat × CurrentStep))
    (within : WithinPlan best) : WithinPlan (visit best item) := by
  induction item using Trie.children_induction generalizing best with
  | step label row children further =>
      have own : WithinPlan (if row.explicit then
          laterStep best label row.status row.statusStartedAt row.statusOrder row.tests else best) := by
        split
        · exact laterStep_withinPlan best _ _ _ _ _ within (tests_withinPlan row)
        · exact within
      rw [visit]
      generalize (if row.explicit then
        laterStep best label row.status row.statusStartedAt row.statusOrder row.tests else best) =
          first at own ⊢
      induction children generalizing first with
      | nil => exact own
      | cons child rest later =>
          rw [visitAll]
          exact later (fun other member => further other (List.mem_cons_of_mem child member)) _
            (further child List.mem_cons_self first own)

theorem currentStep_withinPlan (progress : GateProgress) (step : CurrentStep)
    (done planned : UInt32)
    (current : progress.currentStep = some step) (counted : step.tests = some (done, planned)) :
    done ≤ planned := by
  obtain ⟨found, best, rfl⟩ := Option.map_eq_some_iff.mp current
  have items : WithinPlan (visitAll none progress.items) := by
    have all (items : List ProgressItem) (best : Option (Nat × CurrentStep))
        (within : WithinPlan best) : WithinPlan (visitAll best items) := by
      induction items generalizing best with
      | nil => exact within
      | cons item rest further => exact further _ (visit_withinPlan item best within)
    exact all _ none fun _ none => nomatch none
  have whole : WithinPlan (progress.activities.foldl (fun best activity => laterStep best
      activity.label activity.status activity.statusStartedAt activity.statusOrder none)
      (visitAll none progress.items)) := by
    refine List.foldlRecOn progress.activities _ items fun best within activity _ => ?_
    exact laterStep_withinPlan best _ _ _ _ none within fun _ _ none => nomatch none
  exact whole found best done planned counted

end CurrentStep

end Storyhook.Service.Gate
