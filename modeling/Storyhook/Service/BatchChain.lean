import Mathlib.Data.List.Nodup
import Mathlib.Data.List.Perm.Basic
import Storyhook.Service.BatchPreview

/-! What a selected batch is, told by the merger's answers at each story's turn. -/

namespace Storyhook.Service

open Storyhook.Domain.ConflictSmoothing

/-- What was asked at a story's turn, with the merger's answers. -/
structure Trial where
  candidate : PreviewCandidate
  batch : String
  full : Bool
  commit : Option String
  onto : Option (Except String TrialMerge)
  recorded : Option (Except String String)
  alone : Option (Except String TrialMerge)

namespace Trial

/-- The commit that joined, with the one that records the batch with it. -/
def merged (trial : Trial) : Option (String × String) :=
  match trial.commit, trial.onto, trial.recorded with
  | some commit, some (.ok (.clean _)), some (.ok recorded) => some (commit, recorded)
  | _, _, _ => none

def member (trial : Trial) : Option PreviewMember :=
  trial.merged.map fun joined => ⟨trial.candidate.storyId, joined.1, []⟩

def batchAfter (trial : Trial) : String := (trial.merged.map (·.2)).getD trial.batch

/-- The story conflicts with the batch at its turn and merges cleanly onto the base. -/
def ConflictsWithMember (trial : Trial) : Prop :=
  (∃ paths shape, trial.onto = some (.ok (.conflict paths shape))) ∧
    ∃ tree, trial.alone = some (.ok (.clean tree))

def Declared (trial : Trial) : Prop :=
  ∃ detail, trial.candidate.standing = .ineligible .conflictWithMember detail

end Trial

section Turns

variable {σ : Type} (merger : TrialMerger σ) (base : String) (policy : Option SmoothPolicy)
  (cap deadline : Nat)

/-- A story's turn, with the questions put and no consequence drawn. -/
def ask (candidate : PreviewCandidate) (batch : String) (full : Bool) (state : σ) : Trial × σ :=
  match standingCommit merger candidate state with
  | (.error _, state) => (⟨candidate, batch, full, none, none, none, none⟩, state)
  | (.ok commit, state) =>
      match merger.now state with
      | (instant, state) =>
          if deadline ≤ instant then
            (⟨candidate, batch, full, some commit, none, none, none⟩, state)
          else match merger.merge batch commit state with
            | (.error error, state) =>
                (⟨candidate, batch, full, some commit, some (.error error), none, none⟩, state)
            | (.ok (.clean tree), state) =>
                if full then
                  (⟨candidate, batch, full, some commit, some (.ok (.clean tree)), none, none⟩,
                    state)
                else match merger.commit batch commit tree state with
                  | (recorded, state) => (⟨candidate, batch, full, some commit,
                      some (.ok (.clean tree)), some recorded, none⟩, state)
            | (.ok (.conflict paths shape), state) =>
                match merger.merge base commit state with
                | (alone, state) =>
                    let trial : Trial := ⟨candidate, batch, full, some commit,
                      some (.ok (.conflict paths shape)), none, some alone⟩
                    match alone with
                    | .ok (.clean _) => (trial, (markUnder merger shape policy deadline state).2)
                    | _ => (trial, state)

/-- The turns of a queue, each onto the batch that the one before left. -/
def askQueue : List PreviewCandidate → String → Nat → σ → List Trial × σ
  | [], _, _, state => ([], state)
  | candidate :: rest, batch, count, state =>
      match ask merger base policy deadline candidate batch (cap ≤ count) state with
      | (trial, state) =>
          match askQueue rest trial.batchAfter (count + trial.member.toList.length) state with
          | (trials, state) => (trial :: trials, state)

inductive Concludes (sweep : Sweep) (trial : Trial) : Sweep → Prop
  | joined (commit merged : String) (found : trial.merged = some (commit, merged))
      (room : trial.full = false) (plain : ¬ trial.ConflictsWithMember)
      (undeclared : ¬ trial.Declared) :
      Concludes sweep trial (sweep.join trial.candidate commit merged)
  | conflicted (commit : String) (entry : PreviewExclusion) (found : trial.merged = none)
      (conflicts : trial.ConflictsWithMember) (tried : trial.commit = some commit)
      (about : entry.storyId = trial.candidate.storyId)
      (reason : entry.reason = .conflictWithMember) :
      Concludes sweep trial (sweep.conflicts entry commit)
  | excluded (entry : PreviewExclusion) (found : trial.merged = none)
      (plain : ¬ trial.ConflictsWithMember) (about : entry.storyId = trial.candidate.storyId)
      (reason : entry.reason = .conflictWithMember ↔ trial.Declared) :
      Concludes sweep trial (sweep.exclude entry)

/-- The turn is that of the story, onto the batch that the sweep has. -/
structure Turned (cap : Nat) (sweep : Sweep) (candidate : PreviewCandidate) (trial : Trial) :
    Prop where
  candidate : trial.candidate = candidate
  batch : trial.batch = sweep.batch
  full : trial.full = decide (cap ≤ sweep.members.length)

theorem standingCommit_error (candidate : PreviewCandidate) (state after : σ)
    (entry : PreviewExclusion)
    (barred : standingCommit merger candidate state = (.error entry, after)) :
    entry.storyId = candidate.storyId ∧ (entry.reason = .conflictWithMember ↔
      ∃ detail, candidate.standing = .ineligible .conflictWithMember detail) := by
  unfold standingCommit at barred
  cases standing : candidate.standing with
  | commit commit =>
      rw [standing] at barred
      cases barred
  | ineligible reason detail =>
      rw [standing] at barred
      cases barred
      simp [exclusion]
  | branch branch =>
      simp only [standing] at barred
      split at barred
      · cases barred
      · cases barred
        simp [exclusion]
      · cases barred
        simp [exclusion]

theorem standingCommit_ok (candidate : PreviewCandidate) (state after : σ) (commit : String)
    (stands : standingCommit merger candidate state = (.ok commit, after)) :
    ¬ ∃ detail, candidate.standing = .ineligible .conflictWithMember detail := by
  rintro ⟨detail, standing⟩
  rw [standingCommit, standing] at stands
  cases stands

theorem tryCandidate_concludes (candidate : PreviewCandidate) (sweep : Sweep) (state : σ) :
    let asked := ask merger base policy deadline candidate sweep.batch
      (cap ≤ sweep.members.length) state
    let tried := tryCandidate merger base policy cap deadline candidate sweep state
    Turned cap sweep candidate asked.1 ∧ tried.2 = asked.2 ∧ Concludes sweep asked.1 tried.1 := by
  rcases standing : standingCommit merger candidate state with ⟨entry | commit, ready⟩
  · obtain ⟨about, declared⟩ := standingCommit_error merger candidate state ready entry standing
    simp only [ask, tryCandidate, standing]
    exact ⟨⟨rfl, rfl, rfl⟩, trivial, .excluded entry rfl nofun about declared⟩
  · have undeclared (reason : ExclusionReason) (other : reason ≠ .conflictWithMember) :
        reason = .conflictWithMember ↔
          ∃ detail, candidate.standing = .ineligible .conflictWithMember detail :=
      iff_of_false other (standingCommit_ok merger candidate state ready commit standing)
    rcases clock : merger.now ready with ⟨instant, timed⟩
    by_cases late : deadline ≤ instant
    · simp only [ask, tryCandidate, standing, clock, if_pos late]
      exact ⟨⟨rfl, rfl, rfl⟩, trivial, .excluded _ rfl nofun rfl (undeclared _ nofun)⟩
    · rcases onto : merger.merge sweep.batch commit timed with
        ⟨error | ⟨tree⟩ | ⟨paths, shape⟩, merging⟩
      · simp only [ask, tryCandidate, standing, clock, if_neg late, onto]
        exact ⟨⟨rfl, rfl, rfl⟩, trivial, .excluded _ rfl nofun rfl (undeclared _ nofun)⟩
      · by_cases room : sweep.members.length < cap
        · have free : decide (cap ≤ sweep.members.length) = false := decide_eq_false (by omega)
          rcases recording : merger.commit sweep.batch commit tree merging with
            ⟨error | joined, last⟩
          · simp only [ask, tryCandidate, standing, clock, if_neg late, onto, free, if_pos room,
              recording, Bool.false_eq_true, if_false]
            exact ⟨⟨rfl, rfl, free.symm⟩, trivial, .excluded _ rfl nofun rfl (undeclared _ nofun)⟩
          · simp only [ask, tryCandidate, standing, clock, if_neg late, onto, free, if_pos room,
              recording, Bool.false_eq_true, if_false]
            exact ⟨⟨rfl, rfl, free.symm⟩, trivial, .joined commit joined rfl rfl nofun
              (standingCommit_ok merger candidate state ready commit standing)⟩
        · have full : decide (cap ≤ sweep.members.length) = true := decide_eq_true (by omega)
          simp only [ask, tryCandidate, standing, clock, if_neg late, onto, full, if_neg room,
            if_true]
          exact ⟨⟨rfl, rfl, full.symm⟩, trivial, .excluded _ rfl nofun rfl (undeclared _ nofun)⟩
      · rcases alone : merger.merge base commit merging with
          ⟨error | ⟨tree⟩ | ⟨basePaths, baseShape⟩, last⟩
        · simp only [ask, tryCandidate, tryAlone, standing, clock, if_neg late, onto, alone]
          exact ⟨⟨rfl, rfl, rfl⟩, trivial, .excluded _ rfl nofun rfl (undeclared _ nofun)⟩
        · simp only [ask, tryCandidate, tryAlone, standing, clock, if_neg late, onto, alone]
          exact ⟨⟨rfl, rfl, rfl⟩, trivial,
            .conflicted commit _ rfl ⟨⟨_, _, rfl⟩, _, rfl⟩ rfl rfl rfl⟩
        · simp only [ask, tryCandidate, tryAlone, standing, clock, if_neg late, onto, alone]
          exact ⟨⟨rfl, rfl, rfl⟩, trivial, .excluded _ rfl nofun rfl (undeclared _ nofun)⟩

/-- The turns of a whole queue, each settled before the next. -/
inductive Settled (cap : Nat) : Sweep → List PreviewCandidate → List Trial → Sweep → Prop
  | nil (sweep : Sweep) : Settled cap sweep [] [] sweep
  | cons (sweep middle after : Sweep) (candidate : PreviewCandidate) (rest : List PreviewCandidate)
      (trial : Trial) (trials : List Trial) (turned : Turned cap sweep candidate trial)
      (first : Concludes sweep trial middle) (later : Settled cap middle rest trials after) :
      Settled cap sweep (candidate :: rest) (trial :: trials) after

theorem Concludes.next (sweep after : Sweep) (trial : Trial)
    (settles : Concludes sweep trial after) :
    after.members = sweep.members ++ trial.member.toList ∧
      after.batch = (trial.merged.map (·.2)).getD sweep.batch := by
  cases settles with
  | joined commit merged found room plain undeclared =>
      simp only [Sweep.join, Trial.member, found, Option.map_some, Option.toList_some,
        Option.getD_some, and_self]
  | conflicted commit entry found conflicts tried about reason =>
      simp [Sweep.conflicts, Sweep.exclude, Trial.member, found]
  | excluded entry found plain about reason =>
      simp [Sweep.exclude, Trial.member, found]

theorem sweepQueue_settled (rest : List PreviewCandidate) (sweep : Sweep) (state : σ) :
    let asked := askQueue merger base policy cap deadline rest sweep.batch sweep.members.length
      state
    let swept := sweepQueue merger base policy cap deadline rest sweep state
    swept.2 = asked.2 ∧ Settled cap sweep rest asked.1 swept.1 := by
  induction rest generalizing sweep state with
  | nil => exact ⟨rfl, .nil sweep⟩
  | cons candidate rest further =>
      obtain ⟨turned, same, settles⟩ :=
        tryCandidate_concludes merger base policy cap deadline candidate sweep state
      rw [askQueue, sweepQueue]
      generalize ask merger base policy deadline candidate sweep.batch
        (cap ≤ sweep.members.length) state = asked at *
      generalize tryCandidate merger base policy cap deadline candidate sweep state = tried at *
      obtain ⟨trial, ready⟩ := asked
      obtain ⟨middle, after⟩ := tried
      obtain rfl : after = ready := same
      obtain ⟨members, batch⟩ := settles.next
      have last := further middle after
      rw [members, List.length_append, batch, ← turned.batch] at last
      exact ⟨last.1, .cons sweep middle _ candidate rest trial _ turned settles last.2⟩

end Turns

section Consequences

variable {cap : Nat} {sweep after : Sweep} {rest : List PreviewCandidate} {trials : List Trial}

theorem Settled.candidates (settled : Settled cap sweep rest trials after) :
    trials.map (·.candidate) = rest := by
  induction settled with
  | nil => rfl
  | cons _ _ _ candidate _ trial _ turned _ _ same => rw [List.map_cons, turned.candidate, same]

theorem Settled.members (settled : Settled cap sweep rest trials after) :
    after.members = sweep.members ++ trials.filterMap Trial.member := by
  induction settled with
  | nil => simp
  | cons _ _ _ _ _ trial _ _ settles _ same =>
      rw [same, settles.next.1, List.append_assoc]
      cases found : trial.member with
      | none => rw [List.filterMap_cons_none found]; rfl
      | some member => rw [List.filterMap_cons_some found]; rfl

theorem Settled.linked (settled : Settled cap sweep rest trials after) (before later : List Trial)
    (trial : Trial) (split : trials = before ++ trial :: later) :
    trial.batch = (((before.filterMap Trial.merged).getLast?).map (·.2)).getD sweep.batch := by
  induction settled generalizing before with
  | nil => simp at split
  | cons _ _ _ _ _ first _ turned settles _ further =>
      rcases before with _ | ⟨head, before⟩
      · cases split
        exact turned.batch
      · cases split
        rw [further before rfl, settles.next.2]
        cases found : first.merged with
        | none => rw [List.filterMap_cons_none found]; rfl
        | some joined =>
            rw [List.filterMap_cons_some found, List.getLast?_cons]
            cases (before.filterMap Trial.merged).getLast? <;> rfl

theorem Settled.room (settled : Settled cap sweep rest trials after)
    (fits : sweep.members.length ≤ cap) : after.members.length ≤ cap := by
  induction settled with
  | nil => exact fits
  | cons _ _ _ _ _ trial _ turned settles _ further =>
      refine further ?_
      cases settles with
      | joined commit merged found room plain undeclared =>
          have space := turned.full
          rw [room, eq_comm, decide_eq_false_iff_not] at space
          simp only [Sweep.join, List.length_append, List.length_singleton]
          omega
      | conflicted | excluded => exact fits

theorem Settled.excluded (settled : Settled cap sweep rest trials after) :
    ∃ entries, after.excluded = sweep.excluded ++ entries ∧ entries.map (·.storyId) =
      (trials.filter (·.member.isNone)).map (·.candidate.storyId) := by
  induction settled with
  | nil => exact ⟨[], by simp⟩
  | cons _ _ _ _ _ trial _ turned settles _ further =>
      obtain ⟨entries, filed, ids⟩ := further
      cases settles with
      | joined commit merged found room plain undeclared =>
          refine ⟨entries, filed, ?_⟩
          rw [ids, List.filter_cons_of_neg (by simp [Trial.member, found])]
      | conflicted commit entry found conflicts tried about reason =>
          refine ⟨entry :: entries, by simp [filed, Sweep.conflicts, Sweep.exclude], ?_⟩
          rw [List.filter_cons_of_pos (by simp [Trial.member, found]), List.map_cons, List.map_cons,
            ids, about]
      | excluded entry found plain about reason =>
          refine ⟨entry :: entries, by simp [filed, Sweep.exclude], ?_⟩
          rw [List.filter_cons_of_pos (by simp [Trial.member, found]), List.map_cons, List.map_cons,
            ids, about]

theorem Settled.told (settled : Settled cap sweep rest trials after) (id : String) :
    (∃ entry ∈ after.excluded, entry.storyId = id ∧ entry.reason = .conflictWithMember) ↔
      (∃ entry ∈ sweep.excluded, entry.storyId = id ∧ entry.reason = .conflictWithMember) ∨
        ∃ trial ∈ trials, trial.candidate.storyId = id ∧
          (trial.ConflictsWithMember ∨ trial.Declared) := by
  induction settled with
  | nil => simp
  | cons _ _ _ _ _ trial _ turned settles _ further =>
      rw [further]
      simp only [List.mem_cons, exists_eq_or_imp]
      cases settles with
      | joined commit merged found room plain undeclared =>
          simp [Sweep.join, plain, undeclared]
      | conflicted commit entry found conflicts tried about reason =>
          simp only [Sweep.conflicts, Sweep.exclude, List.mem_append, List.mem_singleton,
            or_and_right, exists_or, exists_eq_left, about, reason, conflicts, and_true, true_or]
          rw [or_assoc]
      | excluded entry found plain about reason =>
          simp only [Sweep.exclude, List.mem_append, List.mem_singleton, or_and_right, exists_or,
            exists_eq_left, about, reason, plain, false_or]
          rw [or_assoc]

/-- The exclusion of a story by a conflict, at the place noted for it. -/
structure Noted (trials : List Trial) (excluded : List PreviewExclusion) (place : Nat × String)
    (entry : PreviewExclusion) : Prop where
  filed : excluded[place.1]? = some entry
  reason : entry.reason = .conflictWithMember
  trial : ∃ trial ∈ trials, trial.candidate.storyId = entry.storyId ∧
    trial.commit = some place.2 ∧ trial.ConflictsWithMember

theorem Settled.noted (settled : Settled cap sweep rest trials after) :
    ∀ place ∈ after.memberConflicts, place ∈ sweep.memberConflicts ∨
      ∃ entry, Noted trials after.excluded place entry := by
  induction settled with
  | nil => exact fun place member => Or.inl member
  | cons _ middle last _ _ trial trials turned settles later further =>
      intro place member
      rcases further place member with earlier | ⟨entry, noted⟩
      · cases settles with
        | joined commit merged found room plain undeclared => exact Or.inl earlier
        | conflicted commit entry found conflicts tried about reason =>
            rcases List.mem_append.mp earlier with old | new
            · exact Or.inl old
            · obtain rfl := List.mem_singleton.mp new
              obtain ⟨entries, filed, -⟩ := later.excluded
              refine Or.inr ⟨entry, ?_, reason, trial, List.mem_cons_self, about.symm, tried,
                conflicts⟩
              rw [filed]
              simp [Sweep.conflicts, Sweep.exclude]
        | excluded entry found plain about reason => exact Or.inl earlier
      · obtain ⟨told, inside, about, tried, conflicts⟩ := noted.trial
        exact Or.inr ⟨entry, noted.filed, noted.reason, told, List.mem_cons_of_mem _ inside, about,
          tried, conflicts⟩

end Consequences

section Admit

variable {σ : Type} (merger : TrialMerger σ)

/-- A sweep with the story of a noted exclusion taken in as its last member. -/
def Sweep.enlist (sweep : Sweep) (place : Nat × String) (paths : List String) : Sweep :=
  { sweep with
    excluded := sweep.excluded.eraseIdx place.1
    members := sweep.members ++ (sweep.excluded[place.1]?.map fun entry =>
      ⟨entry.storyId, place.2, paths⟩).toList }

theorem admitSmoothable_admits (batch : String) (policy : SmoothPolicy) (deadline : Nat)
    (conflicts : List (Nat × String)) (sweep : Sweep) (state : σ) :
    let filled := (admitSmoothable merger batch policy deadline conflicts sweep state).1
    filled = sweep ∨ ∃ place ∈ conflicts, ∃ paths ≠ [], filled = sweep.enlist place paths := by
  induction conflicts generalizing state with
  | nil => exact Or.inl rfl
  | cons place conflicts further =>
      have onward (state : σ) :
          let filled := (admitSmoothable merger batch policy deadline conflicts sweep state).1
          filled = sweep ∨
            ∃ other ∈ place :: conflicts, ∃ paths ≠ [], filled = sweep.enlist other paths :=
        (further state).imp_right fun ⟨other, member, found⟩ =>
          ⟨other, List.mem_cons_of_mem place member, found⟩
      unfold admitSmoothable
      split
      · split
        · exact Or.inl rfl
        · split
          · split
            · exact Or.inl rfl
            · split
              · next files _ _ =>
                  split
                  · next admitted =>
                      refine Or.inr ⟨place, List.mem_cons_self, files.map (·.path), ?_, rfl⟩
                      rintro none
                      rw [List.map_eq_nil_iff.mp none] at admitted
                      cases admitted
                  · exact onward _
              · exact onward _
          · exact onward _

/-- The turns of a request's queue, once its head is merged. -/
def turns (policyFromPointer : Option ByteArray → Except String SmoothPolicy)
    (request : PreviewRequest) (found : HeadMerge) (state : σ) : List Trial :=
  let (read, state) := smoothingPolicy merger policyFromPointer found.base state
  (askQueue merger found.base read.toOption (max request.cap 1) request.deadline request.rest
    found.batch 1 state).1

def headMember (request : PreviewRequest) (found : HeadMerge) : PreviewMember :=
  ⟨request.head.storyId, found.commit, []⟩

theorem fillBatch_fills (policy : Option SmoothPolicy) (request : PreviewRequest)
    (found : HeadMerge) (state : σ) :
    let swept := (sweepQueue merger found.base policy (max request.cap 1) request.deadline
      request.rest ⟨[headMember request found], [], found.batch, []⟩ state).1
    let filled := (fillBatch merger policy request found state).1
    filled = swept ∨ swept.members.length < max request.cap 1 ∧
      ∃ place ∈ swept.memberConflicts, ∃ paths ≠ [], filled = swept.enlist place paths := by
  simp only [fillBatch, headMember]
  generalize sweepQueue merger found.base policy (max request.cap 1) request.deadline request.rest
    ⟨[⟨request.head.storyId, found.commit, []⟩], [], found.batch, []⟩ state = outcome
  obtain ⟨swept, state⟩ := outcome
  simp only
  split
  · exact Or.inl rfl
  · split
    · next policy _ admits =>
        exact (admitSmoothable_admits merger swept.batch policy request.deadline
          swept.memberConflicts swept state).imp_right fun admitted => ⟨admits.2, admitted⟩
    · exact Or.inl rfl

theorem select_fills (policyFromPointer : Option ByteArray → Except String SmoothPolicy)
    (request : PreviewRequest) (found : HeadMerge) (start ready : σ)
    (headed : mergeHead merger request start = (.ok found, ready)) :
    ∃ swept filled : Sweep, Settled (max request.cap 1)
        ⟨[headMember request found], [], found.batch, []⟩ request.rest
        (turns merger policyFromPointer request found ready) swept ∧
      (select merger policyFromPointer request start).1.members = filled.members ∧
      (select merger policyFromPointer request start).1.excluded = filled.excluded ∧
      (filled = swept ∨ swept.members.length < max request.cap 1 ∧
        ∃ place ∈ swept.memberConflicts, ∃ paths ≠ [], filled = swept.enlist place paths) := by
  simp only [select, headed, turns]
  generalize smoothingPolicy merger policyFromPointer found.base ready = policyRead
  obtain ⟨read, state⟩ := policyRead
  exact ⟨_, _, (sweepQueue_settled merger found.base read.toOption (max request.cap 1)
    request.deadline request.rest ⟨[headMember request found], [], found.batch, []⟩ state).2,
    rfl, rfl, fillBatch_fills merger read.toOption request found state⟩

end Admit

/-- A selected batch, told by the turns of the queue. -/
structure MergeChain (request : PreviewRequest) (found : HeadMerge) (trials : List Trial)
    (preview : BatchPreview) : Prop where
  considered : trials.map (·.candidate) = request.rest
  once : (preview.members.map (·.storyId) ++ preview.excluded.map (·.storyId)).Perm
    ((request.head :: request.rest).map (·.storyId))
  head : preview.members.head? = some (headMember request found)
  plain : preview.members.filter (·.smoothed.isEmpty) =
    headMember request found :: trials.filterMap Trial.member
  linked : ∀ before later trial, trials = before ++ trial :: later →
    trial.batch = (((before.filterMap Trial.merged).getLast?).map (·.2)).getD found.batch
  smoothed : ∀ member ∈ preview.members, member.smoothed ≠ [] →
    preview.members.getLast? = some member ∧ ∃ trial ∈ trials,
      trial.candidate.storyId = member.storyId ∧ trial.commit = some member.commit ∧
        trial.ConflictsWithMember
  single : (preview.members.filter (!·.smoothed.isEmpty)).length ≤ 1
  cap : preview.members.length ≤ max request.cap 1
  conflicts : ∀ trial ∈ trials, (trial.ConflictsWithMember ∨ trial.Declared) ↔
    (∃ entry ∈ preview.excluded, entry.storyId = trial.candidate.storyId ∧
      entry.reason = .conflictWithMember) ∨
    ∃ member ∈ preview.members, member.storyId = trial.candidate.storyId ∧ member.smoothed ≠ []

section Chain

variable {request : PreviewRequest} {found : HeadMerge} {trials : List Trial} {swept : Sweep}

theorem member_storyId (trials : List Trial) : (trials.filterMap Trial.member).map (·.storyId) =
    (trials.filter fun trial => !trial.member.isNone).map (·.candidate.storyId) := by
  induction trials with
  | nil => rfl
  | cons trial trials same =>
      cases found : trial.member with
      | none => rw [List.filterMap_cons_none found, List.filter_cons_of_neg (by simp [found]), same]
      | some member =>
          rw [List.filterMap_cons_some found, List.filter_cons_of_pos (by simp [found]),
            List.map_cons, List.map_cons, same]
          obtain ⟨_, -, rfl⟩ := Option.map_eq_some_iff.mp found
          rfl

theorem member_plain (trials : List Trial) (member : PreviewMember)
    (inside : member ∈ trials.filterMap Trial.member) : member.smoothed = [] := by
  obtain ⟨trial, -, made⟩ := List.mem_filterMap.mp inside
  obtain ⟨_, -, rfl⟩ := Option.map_eq_some_iff.mp made
  rfl

variable (settled : Settled (max request.cap 1) ⟨[headMember request found], [], found.batch, []⟩
  request.rest trials swept)

include settled

theorem Settled.once : (swept.members.map (·.storyId) ++ swept.excluded.map (·.storyId)).Perm
    ((request.head :: request.rest).map (·.storyId)) := by
  obtain ⟨entries, filed, ids⟩ := settled.excluded
  rw [settled.members, filed, ← settled.candidates]
  simp only [List.map_cons, List.nil_append, List.cons_append, ids,
    member_storyId, List.map_map]
  refine List.Perm.cons _ ?_
  rw [← List.map_append]
  exact (List.perm_append_comm.trans
    (List.filter_append_perm (fun trial : Trial => trial.member.isNone) trials)).map _

omit settled in
theorem same_trial (candidates : trials.map (·.candidate) = request.rest)
    (distinct : ((request.head :: request.rest).map (·.storyId)).Nodup) (one two : Trial)
    (first : one ∈ trials) (second : two ∈ trials)
    (same : one.candidate.storyId = two.candidate.storyId) : one = two := by
  have apart : (trials.map fun trial => trial.candidate.storyId).Nodup := by
    rw [← candidates, List.map_cons, List.nodup_cons, List.map_map] at distinct
    exact distinct.2
  exact List.inj_on_of_nodup_map apart first second same

theorem Settled.conflicts (distinct : ((request.head :: request.rest).map (·.storyId)).Nodup)
    (trial : Trial) (member : trial ∈ trials) : (trial.ConflictsWithMember ∨ trial.Declared) ↔
      ∃ entry ∈ swept.excluded, entry.storyId = trial.candidate.storyId ∧
        entry.reason = .conflictWithMember := by
  rw [settled.told]
  simp only [List.not_mem_nil, false_and, exists_false, false_or]
  constructor
  · exact fun told => ⟨trial, member, rfl, told⟩
  · rintro ⟨other, inside, same, told⟩
    rwa [same_trial settled.candidates distinct trial other member inside same.symm]

theorem Settled.plain : swept.members = headMember request found :: trials.filterMap Trial.member ∧
    ∀ member ∈ swept.members, member.smoothed = [] := by
  have members : swept.members = headMember request found :: trials.filterMap Trial.member :=
    settled.members
  refine ⟨members, fun member inside => ?_⟩
  rw [members] at inside
  rcases List.mem_cons.mp inside with rfl | later
  · rfl
  · exact member_plain trials member later

theorem Settled.chain_swept (distinct : ((request.head :: request.rest).map (·.storyId)).Nodup)
    (preview : BatchPreview) (members : preview.members = swept.members)
    (excluded : preview.excluded = swept.excluded) : MergeChain request found trials preview := by
  obtain ⟨shape, plain⟩ := settled.plain
  refine ⟨settled.candidates, ?_, ?_, ?_, settled.linked, ?_, ?_, ?_, ?_⟩
  · rw [members, excluded]
    exact settled.once
  · rw [members, shape]
    rfl
  · rw [members, List.filter_eq_self.mpr fun member inside => by simp [plain member inside], shape]
  · intro member inside smoothed
    exact absurd (plain member (members ▸ inside)) smoothed
  · rw [members, List.filter_eq_nil_iff.mpr fun member inside => by simp [plain member inside]]
    exact Nat.zero_le _
  · rw [members]
    exact settled.room (Nat.le_max_right _ _)
  · intro trial member
    rw [settled.conflicts distinct trial member, members, excluded]
    refine (or_iff_left ?_).symm
    rintro ⟨other, inside, -, smoothed⟩
    exact smoothed (plain other inside)

theorem Settled.chain_admitted (distinct : ((request.head :: request.rest).map (·.storyId)).Nodup)
    (preview : BatchPreview) (room : swept.members.length < max request.cap 1)
    (place : Nat × String) (noted : place ∈ swept.memberConflicts) (paths : List String)
    (filled : paths ≠ []) (members : preview.members = (swept.enlist place paths).members)
    (excluded : preview.excluded = (swept.enlist place paths).excluded) :
    MergeChain request found trials preview := by
  obtain ⟨shape, plain⟩ := settled.plain
  obtain none | ⟨entry, filed, reason, trial, inside, about, tried, conflicts⟩ :=
    settled.noted place noted
  · cases none
  have taken : preview.members = swept.members ++ [⟨entry.storyId, place.2, paths⟩] := by
    rw [members, Sweep.enlist, filed]
    rfl
  have left : swept.excluded.Perm (entry :: preview.excluded) := by
    obtain ⟨bound, rfl⟩ := List.getElem?_eq_some_iff.mp filed
    rw [excluded]
    exact (List.getElem_cons_eraseIdx_perm bound).symm
  have unsmoothed : swept.members.filter (·.smoothed.isEmpty) = swept.members :=
    List.filter_eq_self.mpr fun member inside => by simp [plain member inside]
  have unsmooth : swept.members.filter (!·.smoothed.isEmpty) = [] :=
    List.filter_eq_nil_iff.mpr fun member inside => by simp [plain member inside]
  have own (member : PreviewMember) (listed : member ∈ preview.members)
      (smoothed : member.smoothed ≠ []) : member = ⟨entry.storyId, place.2, paths⟩ := by
    rw [taken] at listed
    rcases List.mem_append.mp listed with early | last
    · exact absurd (plain member early) smoothed
    · exact List.mem_singleton.mp last
  refine ⟨settled.candidates, ?_, ?_, ?_, settled.linked, ?_, ?_, ?_, ?_⟩
  · refine List.Perm.trans ?_ settled.once
    rw [taken, List.map_append, List.append_assoc]
    exact ((left.map (·.storyId)).symm).append_left _
  · rw [taken, shape]
    rfl
  · rw [taken, List.filter_append, unsmoothed, shape]
    simp [filled]
  · intro member listed smoothed
    rw [own member listed smoothed, taken]
    exact ⟨List.getLast?_concat, trial, inside, about, tried, conflicts⟩
  · rw [taken, List.filter_append, unsmooth]
    simp [filled]
  · rw [taken, List.length_append]
    exact room
  · intro other member
    rw [settled.conflicts distinct other member]
    constructor
    · rintro ⟨told, listed, same, why⟩
      rcases List.mem_cons.mp (left.subset listed) with rfl | stays
      · exact Or.inr ⟨_, taken ▸ List.mem_append_right _ (List.mem_singleton.mpr rfl), same, filled⟩
      · exact Or.inl ⟨told, stays, same, why⟩
    · rintro (⟨told, stays, same, why⟩ | ⟨joined, listed, same, smoothed⟩)
      · exact ⟨told, left.symm.subset (List.mem_cons_of_mem _ stays), same, why⟩
      · rw [own joined listed smoothed] at same
        exact ⟨entry, left.symm.subset List.mem_cons_self, same, reason⟩

end Chain

/-- Whatever the merger answers, a selected batch is a chain of merges. -/
theorem select_chain {σ : Type} (merger : TrialMerger σ)
    (policyFromPointer : Option ByteArray → Except String SmoothPolicy) (request : PreviewRequest)
    (found : HeadMerge) (start ready : σ)
    (distinct : ((request.head :: request.rest).map (·.storyId)).Nodup)
    (headed : mergeHead merger request start = (.ok found, ready)) :
    MergeChain request found (turns merger policyFromPointer request found ready)
      (select merger policyFromPointer request start).1 := by
  obtain ⟨swept, filled, settled, members, excluded,
    same | ⟨room, place, noted, paths, some, same⟩⟩ :=
    select_fills merger policyFromPointer request found start ready headed
  · rw [same] at members excluded
    exact settled.chain_swept distinct _ members excluded
  · rw [same] at members excluded
    exact settled.chain_admitted distinct _ room place noted paths some members excluded

def changelogConflict : ConflictShape where
  tree := "conflicted"
  stages := [⟨"100644", "base", 1, "CHANGELOG.md"⟩, ⟨"100644", "ours", 2, "CHANGELOG.md"⟩,
    ⟨"100644", "theirs", 3, "CHANGELOG.md"⟩]
  records := []

/-- A merger that merges two stories cleanly onto the base and onto no batch, and a third nowhere. -/
def changelogMerger : TrialMerger Unit where
  resolve _ state := (.ok (some "base"), state)
  merge onto commit state := (.ok (
    if commit = "fifth" ∨ (commit = "third" ∨ commit = "fourth") ∧ onto ≠ "base" then
      .conflict ["CHANGELOG.md"] changelogConflict
    else .clean "tree"), state)
  commit onto commit _ state := (.ok (onto ++ "+" ++ commit), state)
  blobs state := (true, state)
  blob _ state := (.ok "entry\n".toUTF8, state)
  file _ _ state :=
    (.ok (some "<<<<<<< ours\na\n||||||| base\n=======\nb\n>>>>>>> theirs\n".toUTF8), state)
  now state := (0, state)

def fiveStories : PreviewRequest where
  computedAt := "2026-01-01T00:00:00Z"
  head := ⟨"SH-1", .commit "first"⟩
  rest := [⟨"SH-2", .commit "second"⟩, ⟨"SH-3", .commit "third"⟩, ⟨"SH-4", .commit "fourth"⟩,
    ⟨"SH-5", .commit "fifth"⟩]
  baseBranch := some "main"
  cap := 4
  liveLanes := none
  queueDepth := 5
  deadline := 1
  smoothing := .admits

def changelogPolicy (_ : Option ByteArray) : Except String SmoothPolicy :=
  .ok ⟨[.exact "CHANGELOG.md"]⟩

theorem select_chain_smoothed :
    let preview := (select changelogMerger changelogPolicy fiveStories ()).1
    MergeChain fiveStories ⟨"base", "first", "tree", "base+first"⟩
        (turns changelogMerger changelogPolicy fiveStories ⟨"base", "first", "tree", "base+first"⟩
          ()) preview ∧
      preview.members.map (fun member => (member.storyId, member.smoothed)) =
        [("SH-1", []), ("SH-2", []), ("SH-3", ["CHANGELOG.md"])] ∧
      preview.excluded.map (fun entry => (entry.storyId, entry.reason)) =
        [("SH-4", .conflictWithMember), ("SH-5", .conflictWithBase)] :=
  ⟨select_chain changelogMerger changelogPolicy fiveStories ⟨"base", "first", "tree", "base+first"⟩
    () () (by decide) rfl, by decide +kernel⟩

def cleanMerger (recorded : Except String String) : TrialMerger Unit where
  resolve _ state := (.ok (some "base"), state)
  merge _ _ state := (.ok (.clean "tree"), state)
  commit _ _ _ state := (recorded, state)
  blobs state := (false, state)
  blob _ state := (.error "no blob", state)
  file _ _ state := (.ok none, state)
  now state := (0, state)

def twoStories (second : Standing) : PreviewRequest where
  computedAt := "2026-01-01T00:00:00Z"
  head := ⟨"SH-1", .commit "first"⟩
  rest := [⟨"SH-2", second⟩]
  baseBranch := some "main"
  cap := 2
  liveLanes := none
  queueDepth := 2
  deadline := 1
  smoothing := .admits

def HeadMerges {σ : Type} (merger : TrialMerger σ) (request : PreviewRequest) (start : σ) : Prop :=
  ∃ branch base found commit stood tree merged, request.baseBranch = some branch ∧
    merger.resolve ("refs/remotes/origin/" ++ branch) start = (.ok (some base), found) ∧
    standingCommit merger request.head found = (.ok commit, stood) ∧
    merger.merge base commit stood = (.ok (.clean tree), merged)

/-- No batch forms where the head's merge cannot be recorded, and a story may be handed in as one
that conflicts with a member. -/
theorem select_exceptions :
    (¬ ∀ (merger : TrialMerger Unit) (request : PreviewRequest),
      ((request.head :: request.rest).map (·.storyId)).Nodup → HeadMerges merger request () →
        let preview := (select merger (fun _ => .ok ⟨[]⟩) request ()).1
        ∀ candidate ∈ request.rest, (preview.members.map (·.storyId) ++
          preview.excluded.map (·.storyId)).count candidate.storyId = 1) ∧
    ¬ ∀ (merger : TrialMerger Unit) (request : PreviewRequest),
      ((request.head :: request.rest).map (·.storyId)).Nodup → HeadMerges merger request () →
        ∀ entry ∈ (select merger (fun _ => .ok ⟨[]⟩) request ()).1.excluded,
          entry.reason = .conflictWithMember → ∃ onto commit paths shape,
            merger.merge onto commit () = (.ok (.conflict paths shape), ()) := by
  constructor
  · intro once
    have unrecorded := once (cleanMerger (.error "no commit")) (twoStories (.commit "second"))
      (by decide) ⟨_, _, _, _, _, _, _, rfl, rfl, rfl, rfl⟩ ⟨"SH-2", .commit "second"⟩
      List.mem_cons_self
    exact absurd unrecorded (by decide)
  · intro conflicted
    obtain ⟨onto, commit, paths, shape, conflicts⟩ := conflicted (cleanMerger (.ok "batch"))
      (twoStories (.ineligible .conflictWithMember "declared")) (by decide)
      ⟨_, _, _, _, _, _, _, rfl, rfl, rfl, rfl⟩
      (exclusion ⟨"SH-2", .ineligible .conflictWithMember "declared"⟩ .conflictWithMember
        "declared")
      (by decide) rfl
    cases conflicts

end Storyhook.Service
