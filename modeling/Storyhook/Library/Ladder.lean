import Mathlib.Logic.Relation
import Mathlib.Order.Lattice
import Mathlib.Tactic.Common

/-! Ordered rungs, where everything on one rests on everything on the rung below. -/

namespace Storyhook.Library.Ladder

variable {κ ι : Type}

def rungs (keys : List κ) : List (κ × κ) := keys.zip keys.tail

theorem rungs_cons (first second : κ) (keys : List κ) :
    rungs (first :: second :: keys) = (first, second) :: rungs (second :: keys) := rfl

variable [LinearOrder κ]

theorem rungs_adjacent (keys : List κ) (ordered : keys.Pairwise (· < ·)) (below above : κ)
    (member : (below, above) ∈ rungs keys) : below ∈ keys ∧ above ∈ keys ∧ below < above ∧
      ∀ key ∈ keys, key ≤ below ∨ above ≤ key := by
  induction keys with
  | nil => cases member
  | cons first keys further =>
      cases keys with
      | nil => cases member
      | cons second keys =>
          obtain ⟨least, later⟩ := List.pairwise_cons.mp ordered
          rw [rungs_cons] at member
          rcases List.mem_cons.mp member with same | deeper
          · cases same
            refine ⟨List.mem_cons_self, List.mem_cons_of_mem _ List.mem_cons_self,
              least above List.mem_cons_self, ?_⟩
            intro key inside
            rcases List.mem_cons.mp inside with rfl | rest
            · exact Or.inl (le_refl key)
            · rcases List.mem_cons.mp rest with same | beyond
              · exact Or.inr (le_of_eq same.symm)
              · exact Or.inr (le_of_lt ((List.pairwise_cons.mp later).1 key beyond))
          · obtain ⟨low, high, rises, apart⟩ := further later deeper
            refine ⟨List.mem_cons_of_mem _ low, List.mem_cons_of_mem _ high, rises, ?_⟩
            intro key inside
            rcases List.mem_cons.mp inside with rfl | rest
            · exact Or.inl (le_of_lt (least below low))
            · exact apart key rest

theorem exists_rung (keys : List κ) (ordered : keys.Pairwise (· < ·)) (low key : κ)
    (lowMember : low ∈ keys) (member : key ∈ keys) (rises : low < key) :
    ∃ below, (below, key) ∈ rungs keys := by
  induction keys generalizing low with
  | nil => cases member
  | cons first keys further =>
      obtain ⟨least, later⟩ := List.pairwise_cons.mp ordered
      cases keys with
      | nil =>
          rw [List.mem_singleton.mp lowMember, List.mem_singleton.mp member] at rises
          exact absurd rises (lt_irrefl _)
      | cons second keys =>
          rw [rungs_cons]
          rcases List.mem_cons.mp member with rfl | deeper
          · rcases List.mem_cons.mp lowMember with rfl | inside
            · exact absurd rises (lt_irrefl _)
            · exact absurd rises (lt_asymm (least low inside))
          · rcases List.mem_cons.mp deeper with rfl | beyond
            · exact ⟨first, List.mem_cons_self⟩
            · obtain ⟨below, found⟩ := further later second List.mem_cons_self deeper
                ((List.pairwise_cons.mp later).1 key beyond)
              exact ⟨below, List.mem_cons_of_mem _ found⟩

def RestsOn (keys : List κ) (on : κ → ι → Prop) (upper lower : ι) : Prop :=
  ∃ below above, (below, above) ∈ rungs keys ∧ on above upper ∧ on below lower

variable (keys : List κ) (on : κ → ι → Prop)

theorem restsOn_of_filled (ordered : keys.Pairwise (· < ·)) (low high : κ) (lower upper : ι)
    (lowMember : low ∈ keys) (highMember : high ∈ keys) (rises : low < high)
    (lowerOn : on low lower) (upperOn : on high upper)
    (filled : ∀ key ∈ keys, low < key → key < high → ∃ one, on key one) :
    Relation.TransGen (RestsOn keys on) upper lower := by
  obtain ⟨below, rung⟩ := exists_rung keys ordered low high lowMember highMember rises
  obtain ⟨belowMember, -, step, apart⟩ := rungs_adjacent keys ordered below high rung
  rcases lt_trichotomy low below with under | rfl | higher
  · obtain ⟨middle, middleOn⟩ := filled below belowMember under step
    have down : Relation.TransGen (RestsOn keys on) middle lower := by
      have shorter : (keys.filter (· < below)).length < (keys.filter (· < high)).length := by
        have within : keys.filter (· < below) = (keys.filter (· < high)).filter (· < below) := by
          rw [List.filter_filter]
          refine List.filter_congr fun key _ => ?_
          rw [← Bool.decide_and]
          exact decide_eq_decide.mpr ⟨fun beneath => ⟨beneath, lt_trans beneath step⟩, And.left⟩
        rw [within, List.length_filter_lt_length_iff_exists]
        exact ⟨below, List.mem_filter.mpr ⟨belowMember, decide_eq_true step⟩, by simp⟩
      exact restsOn_of_filled ordered low below lower middle lowMember belowMember under lowerOn
        middleOn fun key inside above beneath => filled key inside above (lt_trans beneath step)
    exact Relation.TransGen.head ⟨below, high, rung, upperOn, middleOn⟩ down
  · exact Relation.TransGen.single ⟨low, high, rung, upperOn, lowerOn⟩
  · rcases apart low lowMember with beneath | above
    · exact absurd higher (not_lt_of_ge beneath)
    · exact absurd rises (not_lt_of_ge above)
termination_by (keys.filter (· < high)).length

theorem lower_of_restsOn (ordered : keys.Pairwise (· < ·))
    (apart : ∀ key other one, on key one → on other one → key = other) (upper lower : ι)
    (rests : Relation.TransGen (RestsOn keys on) upper lower) :
    ∃ low high, on low lower ∧ on high upper ∧ low < high := by
  induction rests with
  | single step =>
      obtain ⟨below, above, rung, upperOn, lowerOn⟩ := step
      exact ⟨below, above, lowerOn, upperOn, (rungs_adjacent keys ordered _ _ rung).2.2.1⟩
  | tail _ step further =>
      obtain ⟨below, above, rung, middleOn, lowerOn⟩ := step
      obtain ⟨low, high, middleLow, upperOn, rises⟩ := further
      cases apart low above _ middleLow middleOn
      exact ⟨below, high, lowerOn, upperOn,
        lt_trans (rungs_adjacent keys ordered _ _ rung).2.2.1 rises⟩

theorem restsOn_acyclic (ordered : keys.Pairwise (· < ·))
    (apart : ∀ key other one, on key one → on other one → key = other) (one : ι) :
    ¬Relation.TransGen (RestsOn keys on) one one := by
  intro cycle
  obtain ⟨low, high, lowOn, highOn, rises⟩ := lower_of_restsOn keys on ordered apart one one cycle
  cases apart low high one lowOn highOn
  exact lt_irrefl low rises

theorem above_bare (ordered : keys.Pairwise (· < ·))
    (apart : ∀ key other one, on key one → on other one → key = other) (bare : κ)
    (bareMember : bare ∈ keys) (empty : ∀ one, ¬on bare one) (high : κ) (upper lower : ι)
    (upperOn : on high upper) (higher : bare < high)
    (rests : Relation.TransGen (RestsOn keys on) upper lower) :
    ∃ low, on low lower ∧ bare < low := by
  have step (source target : ι) (start : κ) (startOn : on start source) (above : bare < start)
      (down : RestsOn keys on source target) :
      ∃ low, on low target ∧ bare < low := by
    obtain ⟨below, top, rung, topOn, belowOn⟩ := down
    cases apart start top source startOn topOn
    refine ⟨below, belowOn, ?_⟩
    rcases (rungs_adjacent keys ordered _ _ rung).2.2.2 bare bareMember with beneath | past
    · refine lt_of_le_of_ne beneath fun same => ?_
      exact empty target (same ▸ belowOn)
    · exact absurd above (not_lt_of_ge past)
  induction rests with
  | single down => exact step _ _ high upperOn higher down
  | tail _ down further =>
      obtain ⟨low, middleOn, above⟩ := further
      exact step _ _ low middleOn above down

end Storyhook.Library.Ladder
