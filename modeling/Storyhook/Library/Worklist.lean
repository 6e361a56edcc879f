import Mathlib.Algebra.GroupWithZero.Nat
import Mathlib.Data.List.Basic
import Mathlib.Order.Lattice
import Mathlib.Algebra.Order.BigOperators.Group.List
import Mathlib.Algebra.Order.Group.Nat
import Mathlib.Tactic.Common

/-! Levels spreading over a graph by a worklist: a node passes on what it has received, and is
visited again whenever it receives something lower. -/

namespace Storyhook.Library.Worklist

variable {ν κ level : Type} [Ord κ] [LinearOrder level]

structure Spread (ν κ level : Type) [Ord κ] where
  received : Std.TreeMap κ level
  pending : List ν

def receive (key : ν → κ) (spread : Spread ν κ level) (node : ν) (sent : level) :
    Spread ν κ level :=
  if (spread.received[key node]?).all (sent < ·) then
    { received := spread.received.insert (key node) sent, pending := spread.pending ++ [node] }
  else spread

def deliver (key : ν → κ) (messages : List (ν × level)) (spread : Spread ν κ level) :
    Spread ν κ level :=
  messages.foldl (fun spread message => receive key spread message.1 message.2) spread

/-- One visit: the first pending node sends what it makes of its level. -/
def next (key : ν → κ) (messages : ν → Option level → List (ν × level))
    (spread : Spread ν κ level) : Option (Spread ν κ level) :=
  match spread.pending with
  | [] => none
  | node :: rest =>
      some (deliver key (messages node spread.received[key node]?) { spread with pending := rest })

def drain (key : ν → κ) (messages : ν → Option level → List (ν × level)) :
    Nat → Spread ν κ level → Spread ν κ level
  | 0, spread => spread
  | fuel + 1, spread =>
      match next key messages spread with
      | none => spread
      | some after => drain key messages fuel after

def Below (after before : Spread ν κ level) : Prop :=
  ∀ (slot : κ) (old : level), before.received[slot]? = some old →
    ∃ new, after.received[slot]? = some new ∧ new ≤ old

theorem below_refl (spread : Spread ν κ level) : Below spread spread :=
  fun _ old known => ⟨old, known, le_refl old⟩

theorem below_trans (last middle first : Spread ν κ level) (later : Below last middle)
    (earlier : Below middle first) : Below last first := by
  intro key old known
  obtain ⟨mid, there, low⟩ := earlier key old known
  obtain ⟨new, final, lower⟩ := later key mid there
  exact ⟨new, final, lower.trans low⟩

section Pending

variable (key : ν → κ)

theorem receive_pending (spread : Spread ν κ level) (node other : ν) (sent : level)
    (member : other ∈ spread.pending) : other ∈ (receive key spread node sent).pending := by
  unfold receive
  split
  · exact List.mem_append_left _ member
  · exact member

theorem receive_pushed (spread : Spread ν κ level) (node other : ν) (sent : level)
    (member : other ∈ (receive key spread node sent).pending) :
    other ∈ spread.pending ∨ other = node := by
  unfold receive at member
  split at member
  · simpa using member
  · exact Or.inl member

theorem deliver_pending (messages : List (ν × level)) (spread : Spread ν κ level) (node : ν)
    (member : node ∈ spread.pending) : node ∈ (deliver key messages spread).pending := by
  induction messages generalizing spread with
  | nil => exact member
  | cons message rest ih => exact ih _ (receive_pending key spread message.1 node message.2 member)

theorem deliver_pushed (messages : List (ν × level)) (spread : Spread ν κ level) (node : ν)
    (member : node ∈ (deliver key messages spread).pending) :
    node ∈ spread.pending ∨ ∃ sent, (node, sent) ∈ messages := by
  induction messages generalizing spread with
  | nil => exact Or.inl member
  | cons message rest ih =>
      rcases ih _ member with before | ⟨sent, later⟩
      · rcases receive_pushed key spread message.1 node message.2 before with earlier | rfl
        · exact Or.inl earlier
        · exact Or.inr ⟨message.2, List.mem_cons_self⟩
      · exact Or.inr ⟨sent, List.mem_cons_of_mem _ later⟩

end Pending

section Receive

variable [DecidableEq κ] [Std.TransOrd κ] [Std.LawfulEqOrd κ] (key : ν → κ)

theorem receive_lookup (spread : Spread ν κ level) (node : ν) (sent : level) (other : κ) :
    (receive key spread node sent).received[other]? =
      if (spread.received[key node]?).all (sent < ·) ∧ key node = other then some sent
      else spread.received[other]? := by
  unfold receive
  by_cases lower : (spread.received[key node]?).all (sent < ·)
  · simp only [lower, if_true, Std.TreeMap.getElem?_insert, Std.LawfulEqOrd.compare_eq_iff_eq,
      true_and]
  · simp [lower]

theorem receive_below (spread : Spread ν κ level) (node : ν) (sent : level) :
    Below (receive key spread node sent) spread := by
  intro other old known
  rw [receive_lookup]
  split
  · next changed =>
      obtain ⟨lower, rfl⟩ := changed
      rw [known] at lower
      exact ⟨sent, rfl, le_of_lt (by simpa using lower)⟩
  · exact ⟨old, known, le_refl old⟩

theorem receive_delivered (spread : Spread ν κ level) (node : ν) (sent : level) :
    ∃ held, (receive key spread node sent).received[key node]? = some held ∧ held ≤ sent := by
  rw [receive_lookup]
  split
  · exact ⟨sent, rfl, le_refl sent⟩
  · next kept =>
      cases known : spread.received[key node]? with
      | none => simp [known] at kept
      | some held =>
          refine ⟨held, rfl, ?_⟩
          simpa [known] using kept

theorem receive_changed (spread : Spread ν κ level) (node : ν) (sent : level) (other : κ)
    (changed : (receive key spread node sent).received[other]? ≠ spread.received[other]?) :
    ∃ found ∈ (receive key spread node sent).pending, key found = other := by
  rw [receive_lookup] at changed
  split at changed
  · next lowered =>
      refine ⟨node, ?_, lowered.2⟩
      unfold receive
      rw [if_pos lowered.1]
      simp
  · exact absurd rfl changed

theorem deliver_below (messages : List (ν × level)) (spread : Spread ν κ level) :
    Below (deliver key messages spread) spread := by
  induction messages generalizing spread with
  | nil => exact below_refl spread
  | cons message rest ih =>
      exact below_trans _ _ _ (ih _) (receive_below key spread message.1 message.2)

theorem deliver_delivered (messages : List (ν × level)) (spread : Spread ν κ level)
    (node : ν) (sent : level) (member : (node, sent) ∈ messages) :
    ∃ held, (deliver key messages spread).received[key node]? = some held ∧ held ≤ sent := by
  induction messages generalizing spread with
  | nil => cases member
  | cons message rest ih =>
      rcases List.mem_cons.mp member with rfl | later
      · obtain ⟨held, there, low⟩ := receive_delivered key spread node sent
        obtain ⟨new, final, lower⟩ := deliver_below key rest _ (key node) held there
        exact ⟨new, final, lower.trans low⟩
      · exact ih _ later

theorem deliver_changed (messages : List (ν × level)) (spread : Spread ν κ level) (other : κ)
    (changed : (deliver key messages spread).received[other]? ≠ spread.received[other]?) :
    ∃ node ∈ (deliver key messages spread).pending, key node = other := by
  induction messages generalizing spread with
  | nil => exact absurd rfl changed
  | cons message rest ih =>
      by_cases first : (receive key spread message.1 message.2).received[other]? =
          spread.received[other]?
      · exact ih _ (by rwa [first])
      · obtain ⟨node, member, same⟩ := receive_changed key spread message.1 message.2 other first
        exact ⟨node, deliver_pending key rest _ node member, same⟩

theorem deliver_source (messages : List (ν × level)) (spread : Spread ν κ level) (other : κ)
    (held : level) (known : (deliver key messages spread).received[other]? = some held) :
    spread.received[other]? = some held ∨ ∃ node, (node, held) ∈ messages ∧ key node = other := by
  induction messages generalizing spread with
  | nil => exact Or.inl known
  | cons message rest ih =>
      rcases ih _ known with before | ⟨node, later, same⟩
      · rw [receive_lookup] at before
        split at before
        · next lowered =>
            refine Or.inr ⟨message.1, ?_, lowered.2⟩
            rw [← Option.some.inj before]
            exact List.mem_cons_self
        · exact Or.inl before
      · exact Or.inr ⟨node, List.mem_cons_of_mem _ later, same⟩

end Receive

section Potential

variable [DecidableEq κ] [Std.TransOrd κ] [Std.LawfulEqOrd κ] (key : ν → κ)
variable (gap : Option level → Nat) (keys : List κ)

/-- What the nodes under the keys can still receive, and the visits that wait. -/
def potential (spread : Spread ν κ level) : Nat :=
  (keys.map fun slot => gap spread.received[slot]?).sum + spread.pending.length

def Falls (sent : level) : Prop :=
  ∀ current : Option level, current.all (sent < ·) = true → gap (some sent) < gap current

theorem receive_potential (spread : Spread ν κ level) (node : ν) (sent : level)
    (falls : Falls gap sent) (member : key node ∈ keys) :
    potential gap keys (receive key spread node sent) ≤ potential gap keys spread := by
  by_cases lower : (spread.received[key node]?).all (sent < ·) = true
  · have fell : (keys.map fun slot => gap (receive key spread node sent).received[slot]?).sum <
        (keys.map fun slot => gap spread.received[slot]?).sum := by
      refine List.sum_lt_sum _ _ ?_ ⟨key node, member, ?_⟩
      · intro slot _
        rw [receive_lookup]
        split
        · next changed =>
            have same := falls _ lower
            rw [changed.2] at same
            exact same.le
        · exact le_refl _
      · rw [receive_lookup, if_pos ⟨lower, rfl⟩]
        exact falls _ lower
    have pushed : (receive key spread node sent).pending.length = spread.pending.length + 1 := by
      simp [receive, lower]
    unfold potential
    omega
  · unfold receive
    rw [if_neg lower]

theorem deliver_potential (messages : List (ν × level)) (spread : Spread ν κ level)
    (sendable : ∀ message ∈ messages, Falls gap message.2 ∧ key message.1 ∈ keys) :
    potential gap keys (deliver key messages spread) ≤ potential gap keys spread := by
  induction messages generalizing spread with
  | nil => exact le_refl _
  | cons message rest ih =>
      obtain ⟨first, others⟩ := List.forall_mem_cons.mp sendable
      exact (ih _ others).trans
        (receive_potential key gap keys spread message.1 message.2 first.1 first.2)

end Potential

section Run

variable (key : ν → κ) (messages : ν → Option level → List (ν × level))

theorem next_cases (spread after : Spread ν κ level)
    (stepped : next key messages spread = some after) :
    ∃ node rest, spread.pending = node :: rest ∧
      after = deliver key (messages node spread.received[key node]?)
        { spread with pending := rest } := by
  unfold next at stepped
  split at stepped
  · cases stepped
  · next node rest waiting => exact ⟨node, rest, waiting, (Option.some.inj stepped).symm⟩

theorem drain_invariant (Inv : Spread ν κ level → Prop)
    (preserved : ∀ before after, Inv before → next key messages before = some after → Inv after)
    (fuel : Nat) (spread : Spread ν κ level) (initial : Inv spread) :
    Inv (drain key messages fuel spread) := by
  induction fuel generalizing spread with
  | zero => exact initial
  | succ fuel ih =>
      unfold drain
      split
      · exact initial
      · next after stepped => exact ih after (preserved spread after initial stepped)

def Served (spread : Spread ν κ level) (node : ν) : Prop :=
  ∀ message ∈ messages node spread.received[key node]?,
    ∃ held, spread.received[key message.1]? = some held ∧ held ≤ message.2

/-- Only known nodes wait, and a node that does not has been served. -/
structure Progress (nodes : List ν) (spread : Spread ν κ level) : Prop where
  known : ∀ node ∈ spread.pending, node ∈ nodes
  served : ∀ node ∈ nodes, node ∈ spread.pending ∨ Served key messages spread node

theorem served_kept (before after : Spread ν κ level) (node : ν) (below : Below after before)
    (same : after.received[key node]? = before.received[key node]?)
    (served : Served key messages before node) : Served key messages after node := by
  intro message member
  rw [same] at member
  obtain ⟨held, there, low⟩ := served message member
  obtain ⟨new, final, lower⟩ := below _ held there
  exact ⟨new, final, lower.trans low⟩

variable [DecidableEq κ] [Std.TransOrd κ] [Std.LawfulEqOrd κ]

variable (nodes : List ν)
variable (apart : ∀ left ∈ nodes, ∀ right ∈ nodes, key left = key right → left = right)
variable (inside : ∀ node ∈ nodes, ∀ relayed, ∀ message ∈ messages node relayed,
  message.1 ∈ nodes)

include apart inside in
theorem next_progress (before after : Spread ν κ level)
    (progress : Progress key messages nodes before)
    (stepped : next key messages before = some after) :
    Progress key messages nodes after := by
  obtain ⟨first, rest, waiting, rfl⟩ := next_cases key messages before after stepped
  have firstKnown : first ∈ nodes := progress.known first (by simp [waiting])
  let popped : Spread ν κ level := { before with pending := rest }
  let sent := messages first before.received[key first]?
  have known : ∀ node ∈ (deliver key sent popped).pending, node ∈ nodes := by
    intro node member
    rcases deliver_pushed key sent popped node member with earlier | ⟨level, message⟩
    · exact progress.known node (by rw [waiting]; exact List.mem_cons_of_mem _ earlier)
    · exact inside first firstKnown _ _ message
  refine ⟨known, ?_⟩
  intro node member
  by_cases same : (deliver key sent popped).received[key node]? = before.received[key node]?
  · rcases progress.served node member with pending | served
    · rw [waiting] at pending
      rcases List.mem_cons.mp pending with rfl | later
      · refine Or.inr ?_
        intro message sending
        rw [same] at sending
        exact deliver_delivered key sent popped message.1 message.2 sending
      · exact Or.inl (deliver_pending key sent popped node later)
    · exact Or.inr (served_kept key messages before _ node
        (deliver_below key sent popped) same served)
  · obtain ⟨found, pending, samekey⟩ := deliver_changed key sent popped (key node) same
    rw [apart found (known found pending) node member samekey] at pending
    exact Or.inl pending

include apart inside in
theorem drain_served (fuel : Nat) (start : Spread ν κ level)
    (initial : Progress key messages nodes start)
    (empty : (drain key messages fuel start).pending = []) (node : ν) (member : node ∈ nodes) :
    Served key messages (drain key messages fuel start) node := by
  have progress := drain_invariant key messages (Progress key messages nodes)
    (next_progress key messages nodes apart inside) fuel start initial
  rcases progress.served node member with pending | served
  · rw [empty] at pending
    cases pending
  · exact served

end Run

section Claims

variable (key : ν → κ) (messages : ν → Option level → List (ν × level))
variable (nodes : List ν) (Claim : κ → level → Prop)

/-- Only known nodes wait, and what is received is as claimed. -/
structure Honest (spread : Spread ν κ level) : Prop where
  known : ∀ node ∈ spread.pending, node ∈ nodes
  claimed : ∀ slot held, spread.received[slot]? = some held → Claim slot held

variable [DecidableEq κ] [Std.TransOrd κ] [Std.LawfulEqOrd κ]
variable (carried : ∀ node ∈ nodes, ∀ relayed,
  (∀ held, relayed = some held → Claim (key node) held) →
  ∀ message ∈ messages node relayed, message.1 ∈ nodes ∧ Claim (key message.1) message.2)

include carried

omit [LinearOrder level] [DecidableEq κ] [Std.TransOrd κ] [Std.LawfulEqOrd κ] in
theorem sent_carried (spread : Spread ν κ level) (honest : Honest nodes Claim spread)
    (node : ν) (rest : List ν) (waiting : spread.pending = node :: rest) :
    ∀ message ∈ messages node spread.received[key node]?,
      message.1 ∈ nodes ∧ Claim (key message.1) message.2 :=
  carried node (honest.known node (by simp [waiting])) _ fun held known =>
    honest.claimed (key node) held known

theorem next_honest (before after : Spread ν κ level) (honest : Honest nodes Claim before)
    (stepped : next key messages before = some after) : Honest nodes Claim after := by
  obtain ⟨node, rest, waiting, rfl⟩ := next_cases key messages before after stepped
  have sent := sent_carried key messages nodes Claim carried before honest node rest waiting
  constructor
  · intro other member
    rcases deliver_pushed key _ _ other member with earlier | ⟨level, message⟩
    · exact honest.known other (by rw [waiting]; exact List.mem_cons_of_mem _ earlier)
    · exact (sent _ message).1
  · intro slot held known
    rcases deliver_source key _ _ slot held known with earlier | ⟨target, message, rfl⟩
    · exact honest.claimed slot held earlier
    · exact (sent _ message).2

theorem drain_honest (fuel : Nat) (start : Spread ν κ level)
    (initial : Honest nodes Claim start) :
    Honest nodes Claim (drain key messages fuel start) :=
  drain_invariant key messages (Honest nodes Claim)
    (next_honest key messages nodes Claim carried) fuel start initial

theorem drain_empties (gap : Option level → Nat)
    (falls : ∀ slot sent, Claim slot sent → Falls gap sent)
    (fuel : Nat) (spread : Spread ν κ level) (honest : Honest nodes Claim spread)
    (enough : potential gap (nodes.map key) spread ≤ fuel) :
    (drain key messages fuel spread).pending = [] := by
  induction fuel generalizing spread with
  | zero =>
      unfold potential at enough
      exact List.length_eq_zero_iff.mp (by simp only [drain]; omega)
  | succ fuel ih =>
      unfold drain
      split
      · next idle =>
          unfold next at idle
          split at idle
          · assumption
          · cases idle
      · next after stepped =>
          refine ih after (next_honest key messages nodes Claim carried spread after honest
            stepped) ?_
          obtain ⟨node, rest, waiting, rfl⟩ := next_cases key messages spread after stepped
          have sent := sent_carried key messages nodes Claim carried spread honest node rest waiting
          refine (deliver_potential key gap (nodes.map key) _ _ ?_).trans ?_
          · intro message member
            exact ⟨falls _ _ (sent message member).2, List.mem_map_of_mem (sent message member).1⟩
          · unfold potential at enough ⊢
            rw [waiting, List.length_cons] at enough
            simp only
            omega

end Claims

section Images

variable {μ : Type} (change : ν → μ) (key : ν → κ) (slot : μ → κ)
  (keeps : ∀ node, slot (change node) = key node)

def Spread.image (spread : Spread ν κ level) : Spread μ κ level :=
  ⟨spread.received, spread.pending.map change⟩

include keeps

theorem receive_image (spread : Spread ν κ level) (node : ν) (sent : level) :
    receive slot (spread.image change) (change node) sent =
      (receive key spread node sent).image change := by
  unfold receive
  rw [keeps, show (spread.image change).received = spread.received from rfl]
  split
  · simp [Spread.image]
  · rfl

theorem deliver_image (messages : List (ν × level)) (spread : Spread ν κ level) :
    deliver slot (messages.map fun message => (change message.1, message.2))
      (spread.image change) = (deliver key messages spread).image change := by
  unfold deliver
  induction messages generalizing spread with
  | nil => rfl
  | cons message rest ih =>
      rw [List.map_cons, List.foldl_cons, List.foldl_cons,
        receive_image change key slot keeps, ih]

variable (messages : ν → Option level → List (ν × level))
  (images : μ → Option level → List (μ × level))
  (sends : ∀ node got, images (change node) got =
    (messages node got).map fun message => (change message.1, message.2))

include sends

theorem next_image (spread : Spread ν κ level) : next slot images (spread.image change) =
    (next key messages spread).map (Spread.image change) := by
  unfold next
  cases waiting : spread.pending with
  | nil => simp [Spread.image, waiting]
  | cons node rest =>
      rw [show (spread.image change).pending = change node :: rest.map change by
        rw [Spread.image, waiting, List.map_cons]]
      simp only [keeps, sends, Option.map_some]
      rw [← deliver_image change key slot keeps]
      rfl

theorem drain_image (fuel : Nat) (spread : Spread ν κ level) :
    drain slot images fuel (spread.image change) =
      (drain key messages fuel spread).image change := by
  induction fuel generalizing spread with
  | zero => rfl
  | succ fuel ih =>
      unfold drain
      rw [next_image change key slot keeps messages images sends]
      cases next key messages spread with
      | none => rfl
      | some after => exact ih after

end Images

end Storyhook.Library.Worklist
