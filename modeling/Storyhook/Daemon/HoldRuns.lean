import Storyhook.Daemon.ReconcileHold

/-! When a hold lets go of the queue, told from its passes. -/

namespace Storyhook.Daemon

open Storyhook.Service

/-- What a pass sees of the story: its place in the change feed, and when. -/
def HoldPass.sight? (pass : HoldPass) : Option (Int × Int) :=
  pass.story.map fun story => (story.headSeq, pass.now)

def sights (passes : List HoldPass) : List (Int × Int) := passes.filterMap HoldPass.sight?

/-- The probes that the passes take, one each time the last is long enough ago. -/
def probesTaken (every : Nat) : Int → List HoldPass → List WindowProbe
  | _, [] => []
  | last, pass :: rest =>
      if pass.now < last ∨ (every : Int) ≤ pass.now - last then
        pass.probe :: probesTaken every pass.now rest
      else probesTaken every last rest

/-- The story has not moved in the change feed since this instant: the start, if it never has, or
when it was first seen where it is. -/
def QuietSince (start : Int) (seen : List (Int × Int)) (moved : Int) : Prop :=
  ∃ earlier later head, seen = earlier ++ later ∧ (∀ sight ∈ later, sight.1 = head) ∧
    (earlier = [] ∧ moved = start ∨
      ∃ last first rest, earlier.getLast? = some last ∧ last.1 ≠ head ∧
        later = first :: rest ∧ moved = first.2)

def GoneTwice (probes : List WindowProbe) (detail : String) : Prop :=
  ∃ earlier first, probes = earlier ++ [.gone first, .gone detail]

/-- The instant of the last activity that counts: of the story, or of the pane as far as the last
probe tells and its stamp is not to come. -/
def ActiveAt (moved : Int) (probes : List WindowProbe) (now active : Int) : Prop :=
  match probes.getLast? with
  | some (.alive (some stamp)) =>
      active = if 0 ≤ stamp ∧ stamp * nanosPerSecond ≤ now then max (stamp * nanosPerSecond) moved
        else moved
  | _ => active = moved

def Silent (ceiling : Nat) (now active : Int) : Prop :=
  ∃ seconds, secondsSince now active = some seconds ∧ ceiling < seconds

def streak (probes : List WindowProbe) : Nat :=
  (probes.reverse.takeWhile fun probe => probe matches .gone _).length

def probedAt (every : Nat) : Int → List HoldPass → Int
  | last, [] => last
  | last, pass :: rest =>
      probedAt every (if pass.now < last ∨ (every : Int) ≤ pass.now - last then pass.now else last)
        rest

/-- What the watch of a hold has kept of its passes. -/
structure Watched (every : Nat) (start : Int) (passes : List HoldPass)
    (watch : AgentWatch) : Prop where
  quiet : QuietSince start (sights passes) watch.movedAt
  head : watch.headSeq = (sights passes).getLast?.map (·.1)
  streak : watch.goneStreak = min (streak (probesTaken every start passes)) (2 ^ 32 - 1)
  window : watch.window = (probesTaken every start passes).getLast?
  probed : watch.lastProbeAt = probedAt every start passes

theorem probesTaken_concat (every : Nat) (last : Int) (passes : List HoldPass) (pass : HoldPass) :
    probesTaken every last (passes ++ [pass]) = probesTaken every last passes ++
      if pass.now < probedAt every last passes ∨
        (every : Int) ≤ pass.now - probedAt every last passes then [pass.probe] else [] := by
  induction passes generalizing last with
  | nil =>
      rw [List.nil_append, probesTaken, probedAt, probesTaken]
      split_ifs <;> rfl
  | cons first rest further =>
      rw [List.cons_append, probesTaken, probesTaken, probedAt]
      by_cases due : first.now < last ∨ (every : Int) ≤ first.now - last
      · simp only [if_pos due]
        rw [further, List.cons_append]
      · simp only [if_neg due]
        exact further last

theorem probedAt_concat (every : Nat) (last : Int) (passes : List HoldPass) (pass : HoldPass) :
    probedAt every last (passes ++ [pass]) = if pass.now < probedAt every last passes ∨
      (every : Int) ≤ pass.now - probedAt every last passes then pass.now
      else probedAt every last passes := by
  induction passes generalizing last with
  | nil => rfl
  | cons first rest further => exact further _

theorem streak_concat (probes : List WindowProbe) (probe : WindowProbe) :
    streak (probes ++ [probe]) = if probe matches .gone _ then streak probes + 1 else 0 := by
  rw [streak, List.reverse_concat, List.takeWhile_cons]
  split_ifs <;> rfl

theorem sights_concat (passes : List HoldPass) (pass : HoldPass) (story : HeldStory)
    (held : pass.story = some story) :
    sights (passes ++ [pass]) = sights passes ++ [(story.headSeq, pass.now)] := by
  rw [sights, sights, List.filterMap_append]
  simp [HoldPass.sight?, held]

theorem QuietSince.concat (start : Int) (seen : List (Int × Int)) (moved head now : Int)
    (quiet : QuietSince start seen moved) :
    QuietSince start (seen ++ [(head, now)])
      (if (seen.getLast?.map (·.1)).any (· != head) then now else moved) := by
  cases seen using List.reverseRecOn with
  | nil =>
      obtain ⟨earlier, later, before, split, -, since⟩ := quiet
      obtain ⟨rfl, rfl⟩ := List.append_eq_nil_iff.mp split.symm
      refine ⟨[], [(head, now)], head, rfl, by simp, Or.inl ⟨rfl, ?_⟩⟩
      rcases since with ⟨-, same⟩ | ⟨last, first, rest, none, -⟩
      · exact same
      · cases none
  | append_singleton others last =>
      by_cases same : last.1 = head
      · obtain ⟨earlier, later, before, split, alike, since⟩ := quiet
        have filled : later ≠ [] := by
          rintro rfl
          rcases since with ⟨rfl, -⟩ | ⟨_, _, _, _, _, none, -⟩
          · simp at split
          · cases none
        have member : last ∈ later := by
          have ends := congrArg List.getLast? split
          rw [List.getLast?_concat, List.getLast?_append_of_ne_nil _ filled] at ends
          exact List.mem_of_getLast? ends.symm
        have there := alike last member
        refine ⟨earlier, later ++ [(head, now)], before, by rw [split, List.append_assoc], ?_, ?_⟩
        · intro sight inside
          rcases List.mem_append.mp inside with old | new
          · exact alike sight old
          · rw [List.mem_singleton.mp new, ← there, same]
        · simp only [List.getLast?_concat, Option.map_some, Option.any_some, same,
            bne_self_eq_false,
            Bool.false_eq_true, if_false]
          rcases since with whole | ⟨end_, first, rest, ended, moves, starts, since⟩
          · exact Or.inl whole
          · exact Or.inr ⟨end_, first, rest ++ [(head, now)], ended, moves,
              by rw [starts, List.cons_append], since⟩
      · refine ⟨others ++ [last], [(head, now)], head, rfl, by simp, Or.inr
          ⟨last, (head, now), [], List.getLast?_concat, same, rfl, ?_⟩⟩
        simp [same]

def StartsAt (start : Int) (earlier later : List (Int × Int)) (head moved : Int) : Prop :=
  (∀ sight ∈ later, sight.1 = head) ∧
    (earlier = [] ∧ moved = start ∨
      ∃ last first rest, earlier.getLast? = some last ∧ last.1 ≠ head ∧
        later = first :: rest ∧ moved = first.2)

theorem StartsAt.unique (start : Int) (earlier mid later : List (Int × Int))
    (head other moved since : Int) (shorter : StartsAt start earlier (mid ++ later) head moved)
    (longer : StartsAt start (earlier ++ mid) later other since) : moved = since := by
  cases mid using List.reverseRecOn with
  | nil =>
      rw [List.nil_append] at shorter
      rw [List.append_nil] at longer
      rcases shorter.2 with ⟨rfl, same⟩ | ⟨last, first, rest, ended, -, starts, same⟩
      · rcases longer.2 with ⟨-, alike⟩ | ⟨_, _, _, none, -⟩
        · exact same.trans alike.symm
        · cases none
      · rcases longer.2 with ⟨rfl, -⟩ | ⟨_, another, _, _, -, begins, alike⟩
        · cases ended
        · rw [starts] at begins
          cases begins
          exact same.trans alike.symm
  | append_singleton front turn =>
      have turned : turn.1 = head := shorter.1 turn (by simp)
      rcases longer.2 with ⟨none, -⟩ | ⟨last, first, rest, ended, moves, starts, -⟩
      · simp at none
      · rw [← List.append_assoc, List.getLast?_concat] at ended
        cases ended
        have there : first.1 = head := shorter.1 first (by simp [starts])
        have here : first.1 = other := longer.1 first (by simp [starts])
        exact absurd (turned.trans (there.symm.trans here)) moves

theorem QuietSince.unique (start : Int) (seen : List (Int × Int)) (one other : Int)
    (first : QuietSince start seen one) (second : QuietSince start seen other) : one = other := by
  obtain ⟨earlier, later, head, split, starts⟩ := first
  obtain ⟨before, after, place, parts, begins⟩ := second
  rcases List.append_eq_append_iff.mp (split.symm.trans parts) with ⟨mid, rfl,
    rfl⟩ | ⟨mid, rfl, rfl⟩
  · exact StartsAt.unique start earlier mid after head place one other starts begins
  · exact (StartsAt.unique start before mid later place head other one begins starts).symm

theorem ActiveAt.unique (moved : Int) (probes : List WindowProbe) (now one other : Int)
    (first : ActiveAt moved probes now one) (second : ActiveAt moved probes now other) :
    one = other := by
  rw [ActiveAt] at first second
  split at first
  · next stamp probed =>
      rw [probed] at second
      exact first.trans second.symm
  · next other =>
      split at second
      · next stamp probed => exact absurd probed (other stamp)
      · exact first.trans second.symm

theorem Watched.new (every : Nat) (start : Int) :
    Watched every start [] (AgentWatch.new start) where
  quiet := ⟨[], [], 0, rfl, by simp, Or.inl ⟨rfl, rfl⟩⟩
  head := rfl
  streak := rfl
  window := rfl
  probed := rfl

/-- The story may yet come back: it is permitted, not blocked, and with its agent or on its way. -/
def Reconciling (story : HeldStory) : Prop :=
  story.blocked = none ∧ (story.state = returnedState ∨ story.state = verifyingState)

/-- Nothing but the story and its agent can end the wait at this pass. -/
structure Undisturbed (reserved : Option Int) (pass : HoldPass) (story : HeldStory) : Prop where
  going : pass.stopping = false
  viewed : pass.fails ≠ some .view
  held : pass.story = some story
  permitted : story.permitted = true
  asked : newer reserved pass.generation = true → pass.fails ≠ some .current
  alone : pass.resubmission reserved = none

theorem storyRelease_none (story : HeldStory) : storyRelease story = none ↔ Reconciling story := by
  rw [storyRelease, Reconciling]
  cases story.blocked with
  | some reason => simp
  | none =>
      simp only [true_and]
      split_ifs with left
      · simp [left]
      · simp only [true_iff]
        by_cases returned : story.state = returnedState
        · exact Or.inl returned
        · exact Or.inr (not_not.mp fun other => left ⟨returned, other⟩)

theorem storyRelease_eq_some (story : HeldStory) (release : HoldRelease) :
    storyRelease story = some release ↔ story.blocked.map .storyBlocked = some release ∨
      story.blocked = none ∧ ¬ Reconciling story ∧ release = .storyLeft story.state := by
  rw [← storyRelease_none, storyRelease]
  cases story.blocked with
  | some reason => simp
  | none =>
      simp only [Option.map_none, reduceCtorEq, false_or, true_and, ite_eq_right_iff, imp_false,
        not_not, Option.ite_none_right_eq_some, Option.some.injEq]
      exact and_congr_right fun _ => eq_comm

section Passes

variable (reserved : Option Int) (every ceiling : Nat) (watch : AgentWatch) (pass : HoldPass)

def AgentWatch.seeing (story : HeldStory) : AgentWatch := watch.observeStory story.headSeq pass.now

theorem holdPass_undisturbed (story : HeldStory) (calm : Undisturbed reserved pass story) :
    holdPass reserved every ceiling watch pass =
      match storyRelease story with
      | some release => .error (.answered (.released release))
      | none =>
          match agentRelease ((watch.seeing pass story).observation pass.now) ceiling with
          | some release => .error (.answered (.released release))
          | none =>
              if (watch.seeing pass story).probeDue pass.now every then
                if pass.fails = some .lease then .error (.failed .lease)
                else .ok ((watch.seeing pass story).recordProbe pass.probe pass.now)
              else .ok (watch.seeing pass story) := by
  have kept : pass.story.filter (·.permitted) = some story := by
    rw [calm.held, Option.filter_some, if_pos calm.permitted]
  rw [holdPass, if_neg (by simp [calm.going]), if_neg calm.viewed, kept]
  simp only [calm.alone]
  rw [if_neg fun both => calm.asked both.1 both.2]
  rfl

theorem undisturbed_of_holdPass
    (calls : holdPass reserved every ceiling watch pass ≠ .error (.answered .ended))
    (stays : ∀ generation, holdPass reserved every ceiling watch pass ≠
      .error (.answered (.resubmitted generation)))
    (reads : ∀ read, holdPass reserved every ceiling watch pass ≠ .error (.failed read)) :
    ∃ story, Undisturbed reserved pass story := by
  rw [holdPass] at calls stays reads
  by_cases stopping : pass.stopping = true
  · rw [if_pos stopping] at calls
    exact absurd rfl calls
  · rw [if_neg stopping] at calls stays reads
    by_cases viewed : pass.fails = some .view
    · rw [if_pos viewed] at reads
      exact absurd rfl (reads .view)
    · rw [if_neg viewed] at calls stays reads
      cases held : pass.story.filter (·.permitted) with
      | none =>
          rw [held] at calls
          exact absurd rfl calls
      | some story =>
          rw [held] at stays reads
          obtain ⟨here, permitted⟩ := Option.filter_eq_some_iff.mp held
          simp only at stays reads
          by_cases asked : newer reserved pass.generation = true ∧ pass.fails = some .current
          · rw [if_pos asked] at reads
            exact absurd rfl (reads .current)
          · rw [if_neg asked] at stays
            cases resubmits : pass.resubmission reserved with
            | some generation =>
                rw [resubmits] at stays
                exact absurd rfl (stays generation)
            | none =>
                exact ⟨story, Bool.eq_false_iff.mpr stopping, viewed, here, permitted,
                  fun newer failed => asked ⟨newer, failed⟩, resubmits⟩

theorem holdPass_released (story : HeldStory) (calm : Undisturbed reserved pass story)
    (release : HoldRelease) :
    holdPass reserved every ceiling watch pass = .error (.answered (.released release)) ↔
      storyRelease story = some release ∨ Reconciling story ∧
        agentRelease ((watch.seeing pass story).observation pass.now) ceiling = some release := by
  rw [holdPass_undisturbed reserved every ceiling watch pass story calm, ← storyRelease_none]
  cases storyRelease story with
  | some left => simp
  | none =>
      cases agentRelease ((watch.seeing pass story).observation pass.now) ceiling with
      | some left => simp
      | none =>
          simp only
          split_ifs <;> simp

def Leased (lastProbeAt : Int) (every : Nat) (pass : HoldPass) : Prop :=
  pass.now < lastProbeAt ∨ (every : Int) ≤ pass.now - lastProbeAt → pass.fails ≠ some .lease

theorem holdPass_waits (story : HeldStory) (calm : Undisturbed reserved pass story) :
    (∃ after, holdPass reserved every ceiling watch pass = .ok after) ↔ Reconciling story ∧
      Leased watch.lastProbeAt every pass ∧
      agentRelease ((watch.seeing pass story).observation pass.now) ceiling = none := by
  rw [holdPass_undisturbed reserved every ceiling watch pass story calm, ← storyRelease_none]
  cases storyRelease story with
  | some left => simp
  | none =>
      cases agentRelease ((watch.seeing pass story).observation pass.now) ceiling with
      | some left => simp
      | none =>
          have due : (watch.seeing pass story).probeDue pass.now every = true ↔
              pass.now < watch.lastProbeAt ∨ (every : Int) ≤ pass.now - watch.lastProbeAt :=
            decide_eq_true_iff
          rw [Leased, ← due]
          simp only
          split_ifs with probing lost
          · simp [probing, lost]
          · simp [lost]
          · simp [probing]

end Passes

theorem secondsSince_iff (now since : Int) (ceiling : Nat) :
    (secondsSince now since).any (ceiling < ·) = true ↔ Silent ceiling now since := by
  rw [Silent]
  cases secondsSince now since with
  | none => simp
  | some seconds => simp

theorem silent_max (ceiling : Nat) (now one other : Int) :
    Silent ceiling now (max one other) ↔ Silent ceiling now one ∧ Silent ceiling now other := by
  simp only [Silent, secondsSince, nanosPerSecond, Option.ite_none_right_eq_some,
    Option.some.injEq]
  constructor
  · rintro ⟨seconds, ⟨past, rfl⟩, long⟩
    exact ⟨⟨_, ⟨by omega, rfl⟩, by omega⟩, ⟨_, ⟨by omega, rfl⟩, by omega⟩⟩
  · rintro ⟨⟨first, ⟨firstPast, rfl⟩, firstLong⟩, ⟨second, ⟨secondPast, rfl⟩, secondLong⟩⟩
    exact ⟨_, ⟨by omega, rfl⟩, by omega⟩

theorem silent_stamp (now : Int) (stamp : Nat)
    (past : (stamp : Int) * nanosPerSecond ≤ now) :
    (secondsSince now 0).bind (fun seconds =>
      if stamp ≤ seconds then some (seconds - stamp) else none) =
        secondsSince now (stamp * nanosPerSecond) := by
  have epoch : 0 ≤ now := by
    simp only [nanosPerSecond] at past
    omega
  have counted : stamp ≤ (now - 0).toNat / nanosPerSecond := by
    simp only [nanosPerSecond] at past ⊢
    omega
  rw [secondsSince, if_pos epoch, Option.bind_some, if_pos counted, secondsSince, if_pos past]
  refine congrArg some ?_
  simp only [nanosPerSecond] at past ⊢
  omega

theorem silent_iff (watch : AgentWatch) (now : Int) (ceiling : Nat) :
    silentOnBothChannels true (secondsSince now watch.movedAt) (watch.outputSilentSecs now) ceiling
      = true ↔ Silent ceiling now (watch.lastActivity now) := by
  have story : silentOnBothChannels true (secondsSince now watch.movedAt) none ceiling = true ↔
      Silent ceiling now watch.movedAt := by
    rw [← secondsSince_iff]
    simp [silentOnBothChannels]
  rw [AgentWatch.outputSilentSecs, AgentWatch.lastActivity, AgentWatch.lastOutput]
  split
  · next stamp probed =>
      by_cases credited : 0 ≤ stamp ∧ stamp * nanosPerSecond ≤ now
      · obtain ⟨stamp, rfl⟩ := Int.eq_ofNat_of_zero_le credited.1
        rw [if_pos credited]
        simp only [Int.natCast_nonneg, true_and, Int.toNat_natCast]
        rw [silent_stamp now stamp credited.2, Int.natCast_mul, silent_max,
          ← secondsSince_iff, ← secondsSince_iff, and_comm]
        have past : secondsSince now (stamp * nanosPerSecond) =
            some ((now - stamp * nanosPerSecond).toNat / nanosPerSecond) := if_pos credited.2
        rw [past]
        simp [silentOnBothChannels]
      · have unread : ((secondsSince now 0).bind fun seconds =>
            if 0 ≤ stamp ∧ stamp.toNat ≤ seconds then some (seconds - stamp.toNat) else none) =
              none := by
          rw [Option.bind_eq_none_iff]
          intro seconds since
          rw [secondsSince, Option.ite_none_right_eq_some] at since
          obtain ⟨epoch, counted⟩ := since
          cases counted
          refine if_neg fun fits => credited ⟨fits.1, ?_⟩
          simp only [nanosPerSecond] at fits ⊢
          omega
        rw [if_neg credited, unread]
        exact story
  · exact story

theorem silent_since (now since : Int) (output : Option Nat) (ceiling : Nat)
    (silent : silentOnBothChannels true (secondsSince now since) output ceiling = true) :
    ∃ seconds, secondsSince now since = some seconds := by
  cases counted : secondsSince now since with
  | some seconds => exact ⟨seconds, rfl⟩
  | none =>
      rw [counted] at silent
      cases silent

theorem streak_gone (probes : List WindowProbe) :
    goneConfirmations ≤ min (streak probes) (2 ^ 32 - 1) ↔ ∃ detail, GoneTwice probes detail := by
  have capped : goneConfirmations ≤ min (streak probes) (2 ^ 32 - 1) ↔ 2 ≤ streak probes := by
    rw [goneConfirmations, Nat.le_min]
    exact and_iff_left (by decide)
  rw [capped]
  constructor
  · intro long
    obtain ⟨front, last, rfl⟩ := (List.eq_nil_or_concat' probes).resolve_left
      (by rintro rfl; simp [streak] at long)
    rw [streak_concat] at long
    obtain ⟨earlier, first, rfl⟩ := (List.eq_nil_or_concat' front).resolve_left
      (by rintro rfl; split_ifs at long <;> simp [streak] at long)
    rw [streak_concat] at long
    cases last with
    | gone detail =>
        cases first with
        | gone before => exact ⟨detail, earlier, before, List.append_assoc _ _ _⟩
        | alive stamp => simp at long
        | unanswered before => simp at long
    | alive stamp => simp at long
    | unanswered detail => simp at long
  · rintro ⟨detail, earlier, first, rfl⟩
    have split : earlier ++ [.gone first, .gone detail] =
        earlier ++ [.gone first] ++ [WindowProbe.gone detail] := by simp
    rw [split, streak_concat, streak_concat]
    simp

section Observed

variable (every ceiling : Nat) (start : Int) (passes : List HoldPass) (watch : AgentWatch)
  (kept : Watched every start passes watch) (pass : HoldPass) (story : HeldStory)
  (held : pass.story = some story)

include kept

theorem seeing_gone (detail : String) :
    ((watch.seeing pass story).observation pass.now).gone = some detail ↔
      GoneTwice (probesTaken every start passes) detail := by
  show (if goneConfirmations ≤ watch.goneStreak then watch.window.bind WindowProbe.detail else none) =
    some detail ↔ _
  rw [kept.streak, kept.window, Option.ite_none_right_eq_some, streak_gone]
  constructor
  · rintro ⟨⟨last, earlier, first, split⟩, found⟩
    rw [split, List.getLast?_append_of_ne_nil _ (by simp)] at found
    cases found
    exact ⟨earlier, first, split⟩
  · rintro ⟨earlier, first, split⟩
    refine ⟨⟨detail, earlier, first, split⟩, ?_⟩
    rw [split, List.getLast?_append_of_ne_nil _ (by simp)]
    rfl

theorem seeing_active : ActiveAt (watch.seeing pass story).movedAt (probesTaken every start passes)
    pass.now ((watch.seeing pass story).lastActivity pass.now) := by
  have window : (watch.seeing pass story).window = (probesTaken every start passes).getLast? :=
    kept.window
  rw [ActiveAt, ← window, AgentWatch.lastActivity, AgentWatch.lastOutput]
  generalize (watch.seeing pass story).window = seen
  split
  · next stamp =>
      dsimp only
      by_cases credited : 0 ≤ stamp ∧ stamp * nanosPerSecond ≤ pass.now
      · rw [if_pos credited, if_pos credited]
        simp only [Int.natCast_mul, Int.toNat_of_nonneg credited.1]
      · rw [if_neg credited, if_neg credited]
  · next other =>
      split
      · next stamp lastly =>
          split at lastly
          · next stamp => exact absurd rfl (other stamp)
          · cases lastly
      · rfl

include held

theorem seeing_quiet :
    QuietSince start (sights (passes ++ [pass])) (watch.seeing pass story).movedAt := by
  rw [sights_concat passes pass story held]
  have quiet := kept.quiet.concat start _ _ story.headSeq pass.now
  rw [← kept.head] at quiet
  exact quiet

theorem Watched.step (reserved : Option Int) (after : AgentWatch)
    (calm : Undisturbed reserved pass story)
    (waits : holdPass reserved every ceiling watch pass = .ok after) :
    Watched every start (passes ++ [pass]) after := by
  rw [holdPass_undisturbed reserved every ceiling watch pass story calm] at waits
  split at waits
  · cases waits
  · split at waits
    · cases waits
    · have due : (watch.seeing pass story).probeDue pass.now every = true ↔
          pass.now < probedAt every start passes ∨
            (every : Int) ≤ pass.now - probedAt every start passes := by
        rw [← kept.probed]
        exact decide_eq_true_iff
      have quiet := seeing_quiet every start passes watch kept pass story held
      have head : (watch.seeing pass story).headSeq =
          (sights (passes ++ [pass])).getLast?.map (·.1) := by
        rw [sights_concat passes pass story held, List.getLast?_concat]
        rfl
      split_ifs at waits with probing lost
      · cases waits
        refine ⟨quiet, head, ?_, ?_, ?_⟩
        · rw [probesTaken_concat, if_pos (due.mp probing), streak_concat]
          generalize pass.probe = probe
          cases probe with
          | gone detail =>
              show min (watch.goneStreak + 1) (2 ^ 32 - 1) =
                min (Daemon.streak (probesTaken every start passes) + 1) (2 ^ 32 - 1)
              rw [kept.streak]
              omega
          | alive stamp => rfl
          | unanswered detail => rfl
        · rw [probesTaken_concat, if_pos (due.mp probing), List.getLast?_concat]
          rfl
        · rw [probedAt_concat, if_pos (due.mp probing)]
          rfl
      · cases waits
        have resting := fun now => probing (due.mpr now)
        refine ⟨quiet, head, ?_, ?_, ?_⟩
        · rw [probesTaken_concat, if_neg resting, List.append_nil]
          exact kept.streak
        · rw [probesTaken_concat, if_neg resting, List.append_nil]
          exact kept.window
        · rw [probedAt_concat, if_neg resting]
          exact kept.probed

end Observed

theorem wait_next (reserved : Option Int) (every ceiling : Nat) (start : Int)
    (before : List HoldPass) (watch : AgentWatch) (pass : HoldPass)
    (waited : waitForReconciled reserved every ceiling start before = .ok watch) :
    waitForReconciled reserved every ceiling start (before ++ [pass]) =
      holdPass reserved every ceiling watch pass := by
  rw [waitForReconciled] at waited
  rw [waitForReconciled, List.foldlM_append, waited]
  exact bind_pure (holdPass reserved every ceiling watch pass)

theorem wait_watched (reserved : Option Int) (every ceiling : Nat) (start : Int)
    (passes : List HoldPass) (watch : AgentWatch)
    (waited : waitForReconciled reserved every ceiling start passes = .ok watch) :
    Watched every start passes watch := by
  induction passes using List.reverseRecOn generalizing watch with
  | nil =>
      cases waited
      exact Watched.new every start
  | append_singleton before pass further =>
      cases ran : waitForReconciled reserved every ceiling start before with
      | error result =>
          rw [waitForReconciled] at ran
          rw [waitForReconciled, List.foldlM_append, ran] at waited
          cases waited
      | ok middle =>
          rw [wait_next reserved every ceiling start before middle pass ran] at waited
          obtain ⟨story, calm⟩ := undisturbed_of_holdPass reserved every ceiling middle pass
            (by simp [waited]) (by simp [waited]) (by simp [waited])
          exact (further middle ran).step every ceiling start before middle pass story calm.held
            reserved watch calm waited

theorem agentRelease_eq_some (observation : AgentObservation) (ceiling : Nat)
    (release : HoldRelease) : agentRelease observation ceiling = some release ↔
      (∃ detail, observation.gone = some detail ∧ release = .agentGone detail) ∨
        observation.gone = none ∧ silentOnBothChannels true observation.storeSilentSecs
            observation.outputSilentSecs ceiling = true ∧
          release = .agentSilent (observation.storeSilentSecs.getD 0) observation.probeDetail := by
  rw [agentRelease]
  cases observation.gone with
  | some detail =>
      constructor
      · intro released
        exact Or.inl ⟨detail, rfl, (Option.some.inj released).symm⟩
      · rintro (⟨other, found, rfl⟩ | ⟨none, -⟩)
        · rw [Option.some.inj found]
        · cases none
  | none =>
      simp only [Option.ite_none_right_eq_some, Option.some.injEq, reduceCtorEq, false_and,
        exists_false, false_or, true_and]
      exact and_congr_right fun _ => eq_comm

section Calm

variable (reserved : Option Int) (every ceiling : Nat) (start : Int) (before : List HoldPass)
  (watch : AgentWatch) (kept : Watched every start before watch) (pass : HoldPass)
  (story : HeldStory) (calm : Undisturbed reserved pass story)

include kept calm

theorem agentRelease_told (release : HoldRelease) :
    agentRelease ((watch.seeing pass story).observation pass.now) ceiling = some release ↔
      (∃ detail, GoneTwice (probesTaken every start before) detail ∧
        release = .agentGone detail) ∨
      (¬ ∃ detail, GoneTwice (probesTaken every start before) detail) ∧ ∃ moved active seconds,
        QuietSince start (sights (before ++ [pass])) moved ∧
        ActiveAt moved (probesTaken every start before) pass.now active ∧
        Silent ceiling pass.now active ∧ secondsSince pass.now moved = some seconds ∧
        release = .agentSilent seconds
          ((probesTaken every start before).getLast?.bind WindowProbe.detail) := by
  have gone := seeing_gone every start before watch kept pass story
  have quiet := seeing_quiet every start before watch kept pass story calm.held
  have active := seeing_active every start before watch kept pass story
  have none_iff : ((watch.seeing pass story).observation pass.now).gone = none ↔
      ¬ ∃ detail, GoneTwice (probesTaken every start before) detail := by
    rw [Option.eq_none_iff_forall_ne_some, not_exists]
    exact forall_congr' fun detail => not_congr (gone detail)
  have detail : ((watch.seeing pass story).observation pass.now).probeDetail =
      (probesTaken every start before).getLast?.bind WindowProbe.detail := by
    rw [← kept.window]
    rfl
  have rule := silent_iff (watch.seeing pass story) pass.now ceiling
  rw [agentRelease_eq_some, none_iff, detail]
  simp only [gone]
  refine or_congr_right (and_congr_right fun _ => ?_)
  constructor
  · rintro ⟨silent, rfl⟩
    have told := rule.mp silent
    obtain ⟨seconds, since⟩ := silent_since _ _ _ _ silent
    refine ⟨_, _, seconds, quiet, active, told, since, ?_⟩
    show HoldRelease.agentSilent ((secondsSince pass.now _).getD 0) _ = _
    rw [since, Option.getD_some]
  · rintro ⟨moved, instant, seconds, since, at_, silent, counted, rfl⟩
    cases since.unique start _ _ _ quiet
    cases at_.unique _ _ _ _ _ active
    refine ⟨rule.mpr silent, ?_⟩
    show _ = HoldRelease.agentSilent ((secondsSince pass.now _).getD 0) _
    rw [counted, Option.getD_some]

theorem agentRelease_none_told :
    agentRelease ((watch.seeing pass story).observation pass.now) ceiling = none ↔
      (¬ ∃ detail, GoneTwice (probesTaken every start before) detail) ∧ ∃ moved active,
        QuietSince start (sights (before ++ [pass])) moved ∧
        ActiveAt moved (probesTaken every start before) pass.now active ∧
        ¬ Silent ceiling pass.now active := by
  have told := agentRelease_told reserved every ceiling start before watch kept pass story calm
  have quiet := seeing_quiet every start before watch kept pass story calm.held
  have active := seeing_active every start before watch kept pass story
  rw [Option.eq_none_iff_forall_ne_some]
  constructor
  · intro waits
    have alive : ¬ ∃ detail, GoneTwice (probesTaken every start before) detail := by
      rintro ⟨detail, gone⟩
      exact waits _ ((told _).mpr (Or.inl ⟨detail, gone, rfl⟩))
    refine ⟨alive, _, _, quiet, active, fun silent => ?_⟩
    have rule := (silent_iff (watch.seeing pass story) pass.now ceiling).mpr silent
    obtain ⟨seconds, since⟩ := silent_since _ _ _ _ rule
    exact waits _ ((told _).mpr
      (Or.inr ⟨alive, _, _, seconds, quiet, active, silent, since, rfl⟩))
  · rintro ⟨alive, moved, instant, since, at_, loud⟩ release released
    rcases (told release).mp released with ⟨detail, gone, -⟩ | ⟨-, _, _, _, other, then_, silent, -⟩
    · exact alive ⟨detail, gone⟩
    · cases since.unique start _ _ _ other
      cases at_.unique _ _ _ _ _ then_
      exact loud silent

end Calm

/-- What a pass of a hold that has waited so far comes to: it lets the queue go exactly when the
story is blocked or has left, when the last two probes both found its agent gone, or when neither
story nor pane has shown any activity for longer than the ceiling, the first of these that holds;
and it waits on exactly when none does and a probe that is due can be made. -/
theorem hold_released_iff (reserved : Option Int) (every ceiling : Nat) (start : Int)
    (before : List HoldPass) (watch : AgentWatch) (pass : HoldPass)
    (waited : waitForReconciled reserved every ceiling start before = .ok watch) :
    let probes := probesTaken every start before
    let next := waitForReconciled reserved every ceiling start (before ++ [pass])
    let Gone := ∃ detail, GoneTwice probes detail
    (∀ release, next = .error (.answered (.released release)) ↔
      ∃ story, Undisturbed reserved pass story ∧
        (story.blocked.map .storyBlocked = some release ∨
          story.blocked = none ∧ ¬ Reconciling story ∧ release = .storyLeft story.state ∨
          Reconciling story ∧ (∃ detail, GoneTwice probes detail ∧ release = .agentGone detail) ∨
          Reconciling story ∧ ¬ Gone ∧ ∃ moved active seconds,
            QuietSince start (sights (before ++ [pass])) moved ∧
            ActiveAt moved probes pass.now active ∧ Silent ceiling pass.now active ∧
            secondsSince pass.now moved = some seconds ∧
            release = .agentSilent seconds (probes.getLast?.bind WindowProbe.detail))) ∧
      ((∃ after, next = .ok after) ↔
        ∃ story, Undisturbed reserved pass story ∧ Reconciling story ∧
          Leased (probedAt every start before) every pass ∧ ¬ Gone ∧
          ∃ moved active, QuietSince start (sights (before ++ [pass])) moved ∧
            ActiveAt moved probes pass.now active ∧ ¬ Silent ceiling pass.now active) := by
  have kept := wait_watched reserved every ceiling start before watch waited
  rw [wait_next reserved every ceiling start before watch pass waited]
  constructor
  · intro release
    constructor
    · intro released
      obtain ⟨story, calm⟩ := undisturbed_of_holdPass reserved every ceiling watch pass
        (by simp [released]) (by simp [released]) (by simp [released])
      refine ⟨story, calm, ?_⟩
      rw [holdPass_released reserved every ceiling watch pass story calm, storyRelease_eq_some,
        agentRelease_told reserved every ceiling start before watch kept pass story calm] at released
      rwa [or_assoc, and_or_left] at released
    · rintro ⟨story, calm, ends⟩
      rw [holdPass_released reserved every ceiling watch pass story calm, storyRelease_eq_some,
        agentRelease_told reserved every ceiling start before watch kept pass story calm]
      rwa [or_assoc, and_or_left]
  · constructor
    · rintro ⟨after, waits⟩
      obtain ⟨story, calm⟩ := undisturbed_of_holdPass reserved every ceiling watch pass
        (by simp [waits]) (by simp [waits]) (by simp [waits])
      refine ⟨story, calm, ?_⟩
      rw [← agentRelease_none_told reserved every ceiling start before watch kept pass story calm,
        ← kept.probed]
      exact (holdPass_waits reserved every ceiling watch pass story calm).mp ⟨after, waits⟩
    · rintro ⟨story, calm, still⟩
      rw [← agentRelease_none_told reserved every ceiling start before watch kept pass story calm,
        ← kept.probed] at still
      exact (holdPass_waits reserved every ceiling watch pass story calm).mpr still

/-- A story in progress whose agent is probed every five seconds, and has gone. -/
def lostPass (now : Int) : HoldPass where
  stopping := false
  fails := none
  generation := some 4
  story := some ⟨true, none, returnedState, 9⟩
  current := none
  now := now * nanosPerSecond
  probe := .gone "no such window"

theorem hold_released_iff_lost :
    waitForReconciled (some 4) (5 * nanosPerSecond) 60 0 [lostPass 3, lostPass 5, lostPass 11,
      lostPass 12] = .error (.answered (.released (.agentGone "no such window"))) :=
  ((hold_released_iff (some 4) (5 * nanosPerSecond) 60 0 [lostPass 3, lostPass 5, lostPass 11]
      ⟨11 * nanosPerSecond, some 9, 0, 2, some (.gone "no such window")⟩ (lostPass 12)
      (by decide +kernel)).1 _).mpr
    ⟨⟨true, none, returnedState, 9⟩, ⟨rfl, by decide, rfl, rfl, by decide, by decide⟩,
      Or.inr (Or.inr (Or.inl
      ⟨⟨rfl, Or.inl rfl⟩, "no such window", ⟨[], "no such window", by decide +kernel⟩, rfl⟩))⟩

end Storyhook.Daemon
