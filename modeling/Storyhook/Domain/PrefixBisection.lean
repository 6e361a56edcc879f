import Mathlib.Algebra.Group.Nat.Defs
import Storyhook.Library.Halving
import Storyhook.Library.Runs

namespace Storyhook.Domain

open Library.Halving Library.Runs

/-- The state of one search over a red batch. -/
structure PrefixBisection where
  members : Nat
  green : Nat
  red : Nat
  deriving DecidableEq, Repr

namespace PrefixBisection

inductive ProbeVerdict where
  | green | red
  deriving DecidableEq, Repr

inductive Step where
  | probe (prefixLen : Nat)
  | culprit (position certified : Nat)
  deriving DecidableEq, Repr

/-- Subtraction of machine words, undefined where it would underflow. -/
def checkedSub (left right : Nat) : Option Nat :=
  if right ≤ left then some (left - right) else none

/-- Addition of machine words of the given width, undefined where it would overflow. -/
def checkedAdd (bits left right : Nat) : Option Nat :=
  if left + right < 2 ^ bits then some (left + right) else none

def new (members : Nat) : Except String PrefixBisection :=
  if members < 2 then
    .error ("a bisection needs a red batch of two or more members, not " ++ toString members)
  else
    .ok ⟨members, 0, members⟩

def isOpen (search : PrefixBisection) (prefixLen : Nat) : Bool :=
  search.green < prefixLen && prefixLen < search.red

/-- Takes a receipt for a green tree; answers whether it narrowed the search. -/
def certified (search : PrefixBisection) (prefixLen : Nat) : Bool × PrefixBisection :=
  if isOpen search prefixLen then
    (true, { search with green := prefixLen })
  else
    (false, search)

def next (bits : Nat) (search : PrefixBisection) : Option Step := do
  let width ← checkedSub search.red search.green
  if width ≤ 1 then
    return .culprit search.red search.green
  else
    let middle ← checkedAdd bits search.green (width / 2)
    return .probe middle

def record (search : PrefixBisection) (prefixLen : Nat) (verdict : ProbeVerdict) :
    Except String PrefixBisection :=
  if isOpen search prefixLen then
    match verdict with
    | .green => .ok { search with green := prefixLen }
    | .red => .ok { search with red := prefixLen }
  else
    .error ("prefix " ++ toString prefixLen ++ " is not between the green prefix " ++
      toString search.green ++ " and the red prefix " ++ toString search.red)

def leadingZeros (bits word : Nat) : Nat := bits - Nat.size word

def maxProbes (bits members : Nat) : Option Nat :=
  if members < 2 then
    some 0
  else
    checkedSub bits (leadingZeros bits (members - 1))

theorem maxProbes_eq_clog (bits members : Nat) (bounded : members < 2 ^ bits) :
    maxProbes bits members = some (Nat.clog 2 members) := by
  unfold maxProbes
  split
  · next small => rw [Nat.clog_of_right_le_one (by omega)]
  · next large =>
      have fits : Nat.size (members - 1) ≤ bits := by
        rw [Nat.size_le]
        omega
      have difference : bits - (bits - Nat.size (members - 1)) = Nat.size (members - 1) := by
        omega
      rw [checkedSub, leadingZeros, if_pos (Nat.sub_le _ _), difference,
        size_pred_eq_clog members (by omega)]

/-- A search under way: the probe asked for and not yet recorded, every probe asked for so
far, and the prefixes found green or red. -/
structure Session where
  search : PrefixBisection
  asked : Option Nat
  probes : List Nat
  greens : List Nat
  reds : List Nat
  deriving DecidableEq, Repr

/-- What the caller may do: gate the probe the search asks for, record that gate's verdict,
and hand in receipts for green prefixes at any moment in between. -/
inductive Move (bits : Nat) (verdict : Nat → ProbeVerdict) : Session → Session → Prop where
  | ask (session : Session) (prefixLen : Nat)
      (idle : session.asked = none)
      (asks : next bits session.search = some (.probe prefixLen)) :
      Move bits verdict session
        { session with asked := some prefixLen, probes := session.probes ++ [prefixLen] }
  | receipt (session : Session) (prefixLen : Nat)
      (green : verdict prefixLen = .green) :
      Move bits verdict session
        { session with
          search := (certified session.search prefixLen).2
          greens := prefixLen :: session.greens }
  | recorded (session : Session) (prefixLen : Nat) (search : PrefixBisection)
      (pending : session.asked = some prefixLen)
      (accepted : record session.search prefixLen (verdict prefixLen) = .ok search) :
      Move bits verdict session
        { session with
          search := search
          asked := none
          greens := if verdict prefixLen = .green then prefixLen :: session.greens
            else session.greens
          reds := if verdict prefixLen = .red then prefixLen :: session.reds
            else session.reds }
  | refused (session : Session) (prefixLen : Nat) (message : String)
      (pending : session.asked = some prefixLen)
      (rejected : record session.search prefixLen (verdict prefixLen) = .error message) :
      Move bits verdict session { session with asked := none }

def Session.start (search : PrefixBisection) : Session := ⟨search, none, [], [], []⟩

/-- The widest interval the search can be left with once the pending probe is answered. -/
def Session.remaining (session : Session) : Nat :=
  match session.asked with
  | none => session.search.red - session.search.green
  | some prefixLen =>
      max (prefixLen - session.search.green)
        (session.search.red - max prefixLen session.search.green)

/-- What holds of a session at every moment of a search over `members`. -/
structure Inv (members : Nat) (verdict : Nat → ProbeVerdict) (session : Session) : Prop where
  ordered : session.search.green < session.search.red
  withinBatch : session.search.red ≤ members
  greenFound : session.search.green = 0 ∨ session.search.green ∈ session.greens
  redFound : session.search.red = members ∨ session.search.red ∈ session.reds
  greensGreen : ∀ prefixLen ∈ session.greens, verdict prefixLen = .green
  redsRed : ∀ prefixLen ∈ session.reds, verdict prefixLen = .red
  pendingBelow : ∀ prefixLen ∈ session.asked, prefixLen < session.search.red
  answered : ∀ prefixLen ∈ session.probes, session.asked = some prefixLen ∨
    prefixLen ≤ session.search.green ∨ session.search.red ≤ prefixLen
  distinct : session.probes.Nodup
  budget : Nat.clog 2 session.remaining + session.probes.length ≤ Nat.clog 2 members

theorem isOpen_iff (search : PrefixBisection) (prefixLen : Nat) :
    isOpen search prefixLen ↔ search.green < prefixLen ∧ prefixLen < search.red := by
  simp [isOpen]

theorem new_ok (members : Nat) (search : PrefixBisection) :
    new members = .ok search ↔ 2 ≤ members ∧ search = ⟨members, 0, members⟩ := by
  unfold new
  split
  · next small => simp; omega
  · next large => simp [eq_comm]; omega

/-- Between two prefixes known green and red the search never overflows: it names the
culprit when they are adjacent and otherwise the prefix halfway between. -/
theorem next_eq (bits : Nat) (search : PrefixBisection) (ordered : search.green < search.red)
    (bounded : search.red < 2 ^ bits) :
    next bits search = some (if search.red = search.green + 1 then
        .culprit search.red search.green
      else
        .probe (search.green + (search.red - search.green) / 2)) := by
  have width : checkedSub search.red search.green = some (search.red - search.green) :=
    if_pos (by omega)
  have middle : checkedAdd bits search.green ((search.red - search.green) / 2) =
      some (search.green + (search.red - search.green) / 2) := if_pos (by omega)
  simp only [next, width, middle, Option.bind_eq_bind, Option.bind_some, Option.pure_def]
  by_cases adjacent : search.red = search.green + 1
  · rw [if_pos adjacent, if_pos (by omega)]
  · rw [if_neg adjacent, if_neg (by omega)]

theorem next_probe (bits : Nat) (search : PrefixBisection) (prefixLen : Nat)
    (ordered : search.green < search.red) (bounded : search.red < 2 ^ bits)
    (asks : next bits search = some (.probe prefixLen)) :
    2 ≤ search.red - search.green ∧
      prefixLen = search.green + (search.red - search.green) / 2 := by
  rw [next_eq bits search ordered bounded] at asks
  split at asks
  · simp at asks
  · simp only [Option.some.injEq, Step.probe.injEq] at asks
    omega

theorem record_ok (search : PrefixBisection) (prefixLen : Nat) (verdict : ProbeVerdict)
    (accepted : PrefixBisection) :
    record search prefixLen verdict = .ok accepted ↔
      isOpen search prefixLen ∧
        accepted = match verdict with
          | .green => { search with green := prefixLen }
          | .red => { search with red := prefixLen } := by
  unfold record
  by_cases opened : isOpen search prefixLen
  · cases verdict <;> simp [opened, eq_comm]
  · simp [opened]

theorem inv_start (members : Nat) (verdict : Nat → ProbeVerdict) (large : 2 ≤ members) :
    Inv members verdict (.start ⟨members, 0, members⟩) where
  ordered := by simp [Session.start]; omega
  withinBatch := le_rfl
  greenFound := Or.inl rfl
  redFound := Or.inl rfl
  greensGreen := by simp [Session.start]
  redsRed := by simp [Session.start]
  pendingBelow := by simp [Session.start]
  answered := by simp [Session.start]
  distinct := List.nodup_nil
  budget := by simp [Session.start, Session.remaining]

theorem inv_ask (bits members : Nat) (verdict : Nat → ProbeVerdict) (session : Session)
    (prefixLen : Nat) (bounded : members < 2 ^ bits) (inv : Inv members verdict session)
    (idle : session.asked = none)
    (asks : next bits session.search = some (.probe prefixLen)) :
    Inv members verdict
      { session with asked := some prefixLen, probes := session.probes ++ [prefixLen] } := by
  obtain ⟨wide, middle⟩ := next_probe bits session.search prefixLen inv.ordered
    (lt_of_le_of_lt inv.withinBatch bounded) asks
  have ordered := inv.ordered
  have earlierSettled (probe : Nat) (earlier : probe ∈ session.probes) :
      probe ≤ session.search.green ∨ session.search.red ≤ probe := by
    have settled := inv.answered probe earlier
    simpa only [idle, reduceCtorEq, false_or] using settled
  refine { inv with pendingBelow := ?_, answered := ?_, distinct := ?_, budget := ?_ }
  · intro probe pending
    cases pending
    show prefixLen < session.search.red
    omega
  · intro probe member
    rcases List.mem_append.mp member with earlier | last
    · exact Or.inr (earlierSettled probe earlier)
    · exact Or.inl (congrArg some (List.mem_singleton.mp last).symm)
  · refine List.nodup_append.mpr ⟨inv.distinct, by simp, ?_⟩
    intro probe earlier other last
    have settled := earlierSettled probe earlier
    have probed := List.mem_singleton.mp last
    omega
  · have budget := inv.budget
    have halves : max (prefixLen - session.search.green)
        (session.search.red - max prefixLen session.search.green) =
          max ((session.search.red - session.search.green) / 2)
            (session.search.red - session.search.green -
              (session.search.red - session.search.green) / 2) := by omega
    have halved := clog_half (session.search.red - session.search.green) wide
    simp only [Session.remaining, idle] at budget
    simp only [Session.remaining, halves, List.length_append, List.length_singleton]
    omega

theorem inv_receipt (members : Nat) (verdict : Nat → ProbeVerdict) (session : Session)
    (prefixLen : Nat) (inv : Inv members verdict session)
    (green : verdict prefixLen = .green) :
    Inv members verdict
      { session with
        search := (certified session.search prefixLen).2
        greens := prefixLen :: session.greens } := by
  have greensGreen : ∀ other ∈ prefixLen :: session.greens, verdict other = .green := by
    intro other member
    rcases List.mem_cons.mp member with rfl | earlier
    · exact green
    · exact inv.greensGreen other earlier
  by_cases opened : isOpen session.search prefixLen
  · obtain ⟨above, below⟩ := (isOpen_iff session.search prefixLen).mp opened
    simp only [certified, opened, if_true]
    refine { inv with
      ordered := below, greenFound := ?_, greensGreen := greensGreen, answered := ?_, budget := ?_ }
    · exact Or.inr List.mem_cons_self
    · intro probe member
      refine (inv.answered probe member).imp_right (Or.imp_left ?_)
      intro settled
      exact le_of_lt (lt_of_le_of_lt settled above)
    · refine le_trans (Nat.add_le_add_right (Nat.clog_mono_right 2 ?_) _) inv.budget
      simp only [Session.remaining]
      cases session.asked with
      | none => exact Nat.sub_le_sub_left (le_of_lt above) _
      | some pending => dsimp only; omega
  · simp only [certified, opened]
    exact { inv with
      greenFound := inv.greenFound.imp_right (List.mem_cons_of_mem _)
      greensGreen := greensGreen }

theorem inv_recorded (members : Nat) (verdict : Nat → ProbeVerdict) (session : Session)
    (prefixLen : Nat) (search : PrefixBisection) (inv : Inv members verdict session)
    (pending : session.asked = some prefixLen)
    (accepted : record session.search prefixLen (verdict prefixLen) = .ok search) :
    Inv members verdict
      { session with
        search := search
        asked := none
        greens := if verdict prefixLen = .green then prefixLen :: session.greens
          else session.greens
        reds := if verdict prefixLen = .red then prefixLen :: session.reds
          else session.reds } := by
  obtain ⟨opened, narrowed⟩ := (record_ok session.search prefixLen _ search).mp accepted
  obtain ⟨above, below⟩ := (isOpen_iff session.search prefixLen).mp opened
  have budget := inv.budget
  simp only [Session.remaining, pending] at budget
  have settled (probe : Nat) (member : probe ∈ session.probes) :
      probe = prefixLen ∨ probe ≤ session.search.green ∨ session.search.red ≤ probe := by
    simpa only [pending, Option.some.injEq, eq_comm (a := prefixLen)] using
      inv.answered probe member
  cases found : verdict prefixLen with
  | green =>
      simp only [found] at narrowed
      subst narrowed
      simp only [if_true, reduceCtorEq, if_false]
      refine { inv with
        ordered := below, greenFound := Or.inr List.mem_cons_self, greensGreen := ?_,
        pendingBelow := by simp, answered := ?_, budget := ?_ }
      · intro other member
        rcases List.mem_cons.mp member with rfl | earlier
        · exact found
        · exact inv.greensGreen other earlier
      · intro probe member
        have position := settled probe member
        right
        show probe ≤ prefixLen ∨ session.search.red ≤ probe
        omega
      · refine le_trans (Nat.add_le_add_right (Nat.clog_mono_right 2 ?_) _) budget
        simp only [Session.remaining]
        omega
  | red =>
      simp only [found] at narrowed
      subst narrowed
      simp only [if_true, reduceCtorEq, if_false]
      refine { inv with
        ordered := above, withinBatch := ?_, redFound := Or.inr List.mem_cons_self,
        redsRed := ?_, pendingBelow := by simp, answered := ?_, budget := ?_ }
      · exact le_trans (le_of_lt below) inv.withinBatch
      · intro other member
        rcases List.mem_cons.mp member with rfl | earlier
        · exact found
        · exact inv.redsRed other earlier
      · intro probe member
        have position := settled probe member
        right
        show probe ≤ session.search.green ∨ prefixLen ≤ probe
        omega
      · refine le_trans (Nat.add_le_add_right (Nat.clog_mono_right 2 ?_) _) budget
        simp only [Session.remaining]
        omega

theorem inv_refused (members : Nat) (verdict : Nat → ProbeVerdict) (session : Session)
    (prefixLen : Nat) (message : String) (inv : Inv members verdict session)
    (pending : session.asked = some prefixLen)
    (rejected : record session.search prefixLen (verdict prefixLen) = .error message) :
    Inv members verdict { session with asked := none } := by
  have closed : ¬ isOpen session.search prefixLen := by
    intro opened
    cases found : verdict prefixLen <;> simp [record, opened, found] at rejected
  have below := inv.pendingBelow prefixLen pending
  have overtaken : prefixLen ≤ session.search.green := by
    by_contra above
    exact closed ((isOpen_iff session.search prefixLen).mpr ⟨by omega, below⟩)
  have budget := inv.budget
  simp only [Session.remaining, pending] at budget
  refine { inv with pendingBelow := by simp, answered := ?_, budget := ?_ }
  · intro probe member
    rcases inv.answered probe member with asked | position
    · rw [pending, Option.some.injEq] at asked
      exact Or.inr (Or.inl (asked ▸ overtaken))
    · exact Or.inr position
  · refine le_trans (Nat.add_le_add_right (Nat.clog_mono_right 2 ?_) _) budget
    simp only [Session.remaining]
    omega

theorem inv_move (bits members : Nat) (verdict : Nat → ProbeVerdict) (before after : Session)
    (bounded : members < 2 ^ bits) (inv : Inv members verdict before)
    (move : Move bits verdict before after) : Inv members verdict after := by
  cases move with
  | ask prefixLen idle asks =>
      exact inv_ask bits members verdict before prefixLen bounded inv idle asks
  | receipt prefixLen green => exact inv_receipt members verdict before prefixLen inv green
  | recorded prefixLen search pending accepted =>
      exact inv_recorded members verdict before prefixLen search inv pending accepted
  | refused prefixLen message pending rejected =>
      exact inv_refused members verdict before prefixLen message inv pending rejected

theorem inv_reachable (bits members : Nat) (verdict : Nat → ProbeVerdict) (session : Session)
    (large : 2 ≤ members) (bounded : members < 2 ^ bits)
    (reached : Reachable (Move bits verdict) (.start ⟨members, 0, members⟩) session) :
    Inv members verdict session :=
  reachable_invariant (Move bits verdict) (Inv members verdict) _ session
    (inv_start members verdict large)
    (fun before after inv move => inv_move bits members verdict before after bounded inv move)
    reached

/-- Whatever the gates answer and whenever receipts arrive, the search asks for at most
`ceil(log2 members)` probes, each new and still open; an idle session that has none left to
ask for names a real change from green to red. -/
theorem search_finds_transition (bits members : Nat) (verdict : Nat → ProbeVerdict)
    (search : PrefixBisection) (session : Session) (bounded : members < 2 ^ bits)
    (created : new members = .ok search) (wholeRed : verdict members = .red)
    (reached : Reachable (Move bits verdict) (.start search) session) :
    maxProbes bits members = some (Nat.clog 2 members) ∧
      session.probes.length ≤ Nat.clog 2 members ∧ session.probes.Nodup ∧
      ((∃ prefixLen, next bits session.search = some (.probe prefixLen) ∧
          isOpen session.search prefixLen ∧
          (session.asked = none →
            prefixLen ∉ session.probes ∧ session.probes.length < Nat.clog 2 members)) ∨
        (∃ position certified, next bits session.search = some (.culprit position certified) ∧
          certified + 1 = position ∧
          verdict position = .red ∧ (position = members ∨ position ∈ session.reds) ∧
          (certified = 0 ∨ verdict certified = .green ∧ certified ∈ session.greens))) := by
  obtain ⟨large, rfl⟩ := (new_ok members search).mp created
  have inv := inv_reachable bits members verdict session large bounded reached
  have ordered := inv.ordered
  have inBounds : session.search.red < 2 ^ bits := lt_of_le_of_lt inv.withinBatch bounded
  have asksFor := next_eq bits session.search ordered inBounds
  refine ⟨maxProbes_eq_clog bits members bounded, ?_, inv.distinct, ?_⟩
  · have budget := inv.budget
    omega
  by_cases adjacent : session.search.red = session.search.green + 1
  · rw [if_pos adjacent] at asksFor
    refine Or.inr ⟨session.search.red, session.search.green, asksFor, adjacent.symm, ?_,
      inv.redFound, ?_⟩
    · rcases inv.redFound with whole | found
      · rw [whole, wholeRed]
      · exact inv.redsRed _ found
    · exact inv.greenFound.imp_right fun found => ⟨inv.greensGreen _ found, found⟩
  · rw [if_neg adjacent] at asksFor
    refine Or.inl ⟨_, asksFor, (isOpen_iff _ _).mpr (by omega), ?_⟩
    intro idle
    constructor
    · intro earlier
      have settled := inv.answered _ earlier
      simp only [idle, reduceCtorEq, false_or] at settled
      omega
    · have budget := inv.budget
      simp only [Session.remaining, idle] at budget
      have halvings : 0 < Nat.clog 2 (session.search.red - session.search.green) :=
        Nat.clog_pos (by omega) (by omega)
      omega

/-- Of three members the second turns the batch red. A receipt for the first arrives while
its probe is being gated, so that probe's own verdict is refused. -/
theorem search_finds_second_of_three :
    ∃ session : Session, session.probes = [1, 2] ∧
      next 64 session.search = some (.culprit 2 1) ∧
      session.probes.length ≤ Nat.clog 2 3 := by
  let verdict : Nat → ProbeVerdict := fun prefixLen => if prefixLen ≤ 1 then .green else .red
  have firstAsked : Move 64 verdict (.start ⟨3, 0, 3⟩) ⟨⟨3, 0, 3⟩, some 1, [1], [], []⟩ :=
    .ask _ 1 rfl rfl
  have certified : Move 64 verdict ⟨⟨3, 0, 3⟩, some 1, [1], [], []⟩
      ⟨⟨3, 1, 3⟩, some 1, [1], [1], []⟩ := .receipt _ 1 rfl
  have overtaken : Move 64 verdict ⟨⟨3, 1, 3⟩, some 1, [1], [1], []⟩
      ⟨⟨3, 1, 3⟩, none, [1], [1], []⟩ := .refused _ 1 _ rfl rfl
  have secondAsked : Move 64 verdict ⟨⟨3, 1, 3⟩, none, [1], [1], []⟩
      ⟨⟨3, 1, 3⟩, some 2, [1, 2], [1], []⟩ := .ask _ 2 rfl rfl
  have answered : Move 64 verdict ⟨⟨3, 1, 3⟩, some 2, [1, 2], [1], []⟩
      ⟨⟨3, 1, 2⟩, none, [1, 2], [1], [2]⟩ := .recorded _ 2 _ rfl rfl
  have reached := ((((Relation.ReflTransGen.single firstAsked).tail certified).tail
    overtaken).tail secondAsked).tail answered
  exact ⟨_, rfl, rfl, (search_finds_transition 64 3 verdict _ _ (by decide) rfl rfl reached).2.1⟩

end PrefixBisection

end Storyhook.Domain
