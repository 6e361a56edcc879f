import Storyhook.Domain.Epics
import Storyhook.Domain.States
import Storyhook.Library.Insertion

/-! The repair of a catalog that came from elsewhere. -/

namespace Storyhook.Domain

open Library Library.Outcome

def addition (required : RequiredState) : StateDef where
  slug := required.slug
  superState := required.superState
  role := none
  description := none

/-- Where a missing OPEN state goes: before the next required one there is, or after the last. -/
def openPlace (repaired : List StateDef) (later : List RequiredState) : Nat :=
  ((later.filter (·.superState == .open)).findSome? fun next =>
    repaired.findIdx? (·.slug == next.slug)).getD
      (((rposition (·.superState == .open) repaired).map (· + 1)).getD 0)

def insertRequired (repaired : List StateDef) (required : RequiredState)
    (later : List RequiredState) : List StateDef :=
  match required.superState with
  | .open => repaired.insertIdx (openPlace repaired later) (addition required)
  | .closed => repaired ++ [addition required]

/-- Adds the required states a catalog lacks; one it has under the wrong superstate is refused. -/
def addRequired (repaired : List StateDef) : List RequiredState → Except AppError (List StateDef)
  | [] => .ok repaired
  | required :: later =>
      match repaired.find? (·.slug == required.slug) with
      | some found => do
          refuse (found.superState != required.superState) (.validation ("state `" ++
            required.slug ++ "` must be " ++ required.superState.asStr ++
            ", but this project defines it as " ++ found.superState.asStr ++
            "; storyhook will add a missing state but will not reclassify the stories in an " ++
            "existing one"))
          addRequired repaired later
      | none => addRequired (insertRequired repaired required later) later

def withRequiredStates (states : List StateDef) : Except AppError (List StateDef) := do
  let normalized ← normalizeCatalog states
  addRequired normalized requiredStates

section Insert

variable (repaired : List StateDef) (required : RequiredState) (later : List RequiredState)

theorem openPlace_within : openPlace repaired later ≤ repaired.length := by
  rw [openPlace]
  cases next : (later.filter (·.superState == .open)).findSome? fun next =>
      repaired.findIdx? (·.slug == next.slug) with
  | some place =>
      obtain ⟨-, wanted, -, -, located, -⟩ := List.findSome?_eq_some_iff.mp next
      obtain ⟨front, hit, back, rfl, rfl, -⟩ := findIdx_split _ _ place located
      simp
  | none =>
      cases last : rposition (·.superState == .open) repaired with
      | none => exact Nat.zero_le _
      | some place =>
          obtain ⟨front, hit, back, rfl, rfl, -⟩ := rposition_split _ _ place last
          simp

theorem insertRequired_place : ∃ place ≤ repaired.length,
    insertRequired repaired required later = repaired.insertIdx place (addition required) := by
  rw [insertRequired]
  cases required.superState with
  | «open» => exact ⟨_, openPlace_within repaired later, rfl⟩
  | closed => exact ⟨_, Nat.le_refl _, List.insertIdx_length_self.symm⟩

theorem insertRequired_sublist : repaired.Sublist (insertRequired repaired required later) := by
  obtain ⟨place, -, same⟩ := insertRequired_place repaired required later
  rw [same]
  exact List.sublist_insertIdx _ _ _

theorem insertRequired_find (absent : repaired.find? (·.slug == required.slug) = none) :
    (insertRequired repaired required later).find? (·.slug == required.slug) =
      some (addition required) := by
  obtain ⟨place, within, same⟩ := insertRequired_place repaired required later
  rw [same]
  exact find_insertIdx_absent _ _ _ _ absent (beq_self_eq_true _) within

theorem insertRequired_find_other (slug : String) (apart : required.slug ≠ slug) :
    (insertRequired repaired required later).find? (·.slug == slug) =
      repaired.find? (·.slug == slug) := by
  obtain ⟨place, -, same⟩ := insertRequired_place repaired required later
  rw [same]
  exact find_insertIdx_miss _ _ _ _ (beq_false_of_ne apart)

end Insert

section Add

variable (repaired result : List StateDef) (required : List RequiredState)

theorem addRequired_cons (first : RequiredState) (later : List RequiredState) :
    addRequired repaired (first :: later) = .ok result ↔
      (∃ found, repaired.find? (·.slug == first.slug) = some found ∧
        found.superState = first.superState ∧ addRequired repaired later = .ok result) ∨
      repaired.find? (·.slug == first.slug) = none ∧
        addRequired (insertRequired repaired first later) later = .ok result := by
  rw [addRequired]
  cases repaired.find? (·.slug == first.slug) with
  | none => simp
  | some found => simp [bind_eq_ok, refuse_ok]

theorem addRequired_sublist (ran : addRequired repaired required = .ok result) :
    repaired.Sublist result := by
  induction required generalizing repaired with
  | nil =>
      cases ran
      exact List.Sublist.refl _
  | cons first later further =>
      rcases (addRequired_cons _ _ _ _).mp ran with ⟨found, -, -, ran⟩ | ⟨-, ran⟩
      · exact further repaired ran
      · exact (insertRequired_sublist repaired first later).trans (further _ ran)

theorem addRequired_mem (ran : addRequired repaired required = .ok result) (state : StateDef)
    (member : state ∈ result) : state ∈ repaired ∨ ∃ one ∈ required, state = addition one := by
  induction required generalizing repaired with
  | nil =>
      cases ran
      exact .inl member
  | cons first later further =>
      rcases (addRequired_cons _ _ _ _).mp ran with ⟨found, -, -, ran⟩ | ⟨-, ran⟩
      · exact (further repaired ran).imp_right fun ⟨one, listed, same⟩ =>
          ⟨one, List.mem_cons_of_mem _ listed, same⟩
      · rcases further _ ran with inside | ⟨one, listed, same⟩
        · obtain ⟨place, within, same⟩ := insertRequired_place repaired first later
          rw [same, List.mem_insertIdx within] at inside
          exact inside.symm.imp_right fun same => ⟨first, List.mem_cons_self, same⟩
        · exact .inr ⟨one, List.mem_cons_of_mem _ listed, same⟩

theorem addRequired_keeps (ran : addRequired repaired required = .ok result) (slug : String)
    (found : StateDef) (there : repaired.find? (·.slug == slug) = some found) :
    result.find? (·.slug == slug) = some found := by
  induction required generalizing repaired with
  | nil =>
      cases ran
      exact there
  | cons first later further =>
      rcases (addRequired_cons _ _ _ _).mp ran with ⟨_, -, -, ran⟩ | ⟨absent, ran⟩
      · exact further repaired ran there
      · refine further _ ran ((insertRequired_find_other repaired first later slug ?_).trans there)
        rintro rfl
        rw [absent] at there
        cases there

theorem addRequired_has (ran : addRequired repaired required = .ok result) :
    ∀ one ∈ required, ∃ found, result.find? (·.slug == one.slug) = some found ∧
      found.superState = one.superState := by
  induction required generalizing repaired with
  | nil => exact fun _ member => absurd member List.not_mem_nil
  | cons first later further =>
      rcases (addRequired_cons _ _ _ _).mp ran with ⟨found, there, same, ran⟩ | ⟨absent, ran⟩
      · refine List.forall_mem_cons.mpr ⟨⟨found, ?_, same⟩, further repaired ran⟩
        exact addRequired_keeps repaired result later ran first.slug found there
      · refine List.forall_mem_cons.mpr ⟨⟨addition first, ?_, rfl⟩, further _ ran⟩
        exact addRequired_keeps _ result later ran first.slug _
          (insertRequired_find repaired first later absent)

theorem addRequired_settled (settled : ∀ one ∈ required, ∃ found,
    repaired.find? (·.slug == one.slug) = some found ∧ found.superState = one.superState) :
    addRequired repaired required = .ok repaired := by
  induction required with
  | nil => rfl
  | cons first later further =>
      obtain ⟨⟨found, there, same⟩, others⟩ := List.forall_mem_cons.mp settled
      exact (addRequired_cons _ _ _ _).mpr (.inl ⟨found, there, same, further others⟩)

theorem missingRequired_none (settled : ∀ one ∈ required, ∃ found,
    repaired.find? (·.slug == one.slug) = some found ∧ found.superState = one.superState) :
    missingRequired repaired required = .ok [] := by
  induction required with
  | nil => rfl
  | cons first later further =>
      obtain ⟨⟨found, there, same⟩, others⟩ := List.forall_mem_cons.mp settled
      rw [missingRequired, there]
      simp only [same, bne_self_eq_false, bind_eq_ok, refuse_ok]
      exact ⟨(), trivial, further others⟩

end Add

section First

variable (repaired result : List StateDef) (first : StateDef)

theorem defaultOpen_append (back : List StateDef) (opens : defaultOpenState repaired = some first) :
    defaultOpenState (repaired ++ back) = some first := by
  rw [defaultOpenState, List.find?_append, ← defaultOpenState, opens]
  rfl

theorem addRequired_closed_first (required : List RequiredState)
    (closed : ∀ one ∈ required, one.superState = .closed)
    (opens : defaultOpenState repaired = some first)
    (ran : addRequired repaired required = .ok result) : defaultOpenState result = some first := by
  induction required generalizing repaired with
  | nil =>
      cases ran
      exact opens
  | cons one later further =>
      obtain ⟨shut, others⟩ := List.forall_mem_cons.mp closed
      rcases (addRequired_cons _ _ _ _).mp ran with ⟨_, -, -, ran⟩ | ⟨-, ran⟩
      · exact further repaired others opens ran
      · rw [insertRequired, shut] at ran
        exact further _ others (defaultOpen_append repaired first _ opens) ran

variable (required : RequiredState) (opens closeds : List RequiredState)

theorem insertRequired_first (isOpen : required.superState = .open)
    (allOpen : ∀ one ∈ opens, one.superState = .open)
    (allClosed : ∀ one ∈ closeds, one.superState = .closed)
    (found : defaultOpenState repaired = some first)
    (settled : ∀ one ∈ opens, ∀ state, repaired.find? (·.slug == one.slug) = some state →
      state.superState = .open) :
    (defaultOpenState (insertRequired repaired required (opens ++ closeds)) = some first ∧
      ∀ next ∈ opens.head?, next.slug ≠ first.slug) ∨
    defaultOpenState (insertRequired repaired required (opens ++ closeds)) =
        some (addition required) ∧
      ∃ earlier next after, opens = earlier ++ next :: after ∧ next.slug = first.slug ∧
        ∀ one ∈ earlier, repaired.find? (·.slug == one.slug) = none := by
  have kept : (opens ++ closeds).filter (·.superState == .open) = opens := by
    rw [List.filter_append, List.filter_eq_self.mpr, List.filter_eq_nil_iff.mpr, List.append_nil]
    · exact fun one member => by simp [allClosed one member]
    · exact fun one member => by simp [allOpen one member]
  have present (one : RequiredState) (absent : repaired.find? (·.slug == one.slug) = none) :
      one.slug ≠ first.slug := fun same =>
    List.find?_eq_none.mp absent first (List.mem_of_find?_eq_some found) (beq_iff_eq.mpr same.symm)
  simp only [insertRequired, isOpen, openPlace, kept]
  cases next : opens.findSome? fun next => repaired.findIdx? (·.slug == next.slug) with
  | some place =>
      obtain ⟨earlier, wanted, after, listed, located, skipped⟩ :=
        List.findSome?_eq_some_iff.mp next
      obtain ⟨front, hit, back, split, rfl, named, unnamed⟩ := findIdx_split _ _ place located
      have skips (one : RequiredState) (member : one ∈ earlier) :
          repaired.find? (·.slug == one.slug) = none :=
        List.find?_eq_none.mpr fun state inside =>
          (List.findIdx?_eq_none_iff.mp (skipped one member) state inside).symm ▸ Bool.false_ne_true
      have hitOpen : hit.superState = .open := by
        refine settled wanted (listed ▸ List.mem_append_cons_self) hit ?_
        rw [split, List.find?_append, List.find?_eq_none.mpr fun state inside =>
          (unnamed state inside).symm ▸ Bool.false_ne_true]
        simp [named]
      rw [Option.getD_some]
      cases ahead : front.find? (·.superState == .open) with
      | none =>
          right
          have isFirst : hit = first := by
            rw [defaultOpenState, split, List.find?_append, ahead] at found
            simpa [hitOpen] using found
          refine ⟨?_, earlier, wanted, after, listed, ?_, skips⟩
          · rw [split, insertIdx_between, defaultOpenState, List.find?_append, ahead]
            simp [addition, isOpen]
          · rw [← isFirst, beq_iff_eq.mp named]
      | some other =>
          left
          have isFirst : other = first := by
            rw [defaultOpenState, split, List.find?_append, ahead] at found
            exact Option.some.inj found
          have unlike : wanted.slug ≠ first.slug := by
            intro same
            have missed := unnamed other (List.mem_of_find?_eq_some ahead)
            rw [isFirst, same, beq_self_eq_true] at missed
            cases missed
          constructor
          · rw [split, insertIdx_between]
            exact defaultOpen_append front first _ (ahead.trans (congrArg some isFirst))
          · intro one heads
            rw [listed] at heads
            cases earlier with
            | nil =>
                cases heads
                exact unlike
            | cons head rest =>
                cases heads
                exact present _ (skips _ List.mem_cons_self)
  | none =>
      left
      have skipped := List.findSome?_eq_none_iff.mp next
      constructor
      · have passes := List.find?_some found
        obtain ⟨place, last⟩ := Option.isSome_iff_exists.mp (rposition_isSome
          (fun state : StateDef => state.superState == .open) repaired first
          (List.mem_of_find?_eq_some found) passes)
        obtain ⟨front, hit, back, split, rfl, opened⟩ := rposition_split _ _ place last
        rw [last]
        have apart : repaired = (front ++ [hit]) ++ back := by rw [split, List.append_assoc]; rfl
        have ahead : defaultOpenState (front ++ [hit]) = some first := by
          rw [apart, defaultOpenState, List.find?_append] at found
          cases earlier : (front ++ [hit]).find? (·.superState == .open) with
          | some other =>
              rw [earlier] at found
              exact earlier.trans found
          | none => exact absurd opened (List.find?_eq_none.mp earlier hit (by simp))
        have place : front.length + 1 = (front ++ [hit]).length := by simp
        rw [Option.map_some, Option.getD_some, Option.getD_none, apart, place, insertIdx_between]
        exact defaultOpen_append _ first _ ahead
      · intro one heads
        refine present one (List.find?_eq_none.mpr fun state inside => ?_)
        exact (List.findIdx?_eq_none_iff.mp (skipped one (List.mem_of_mem_head? heads)) state
          inside).symm ▸ Bool.false_ne_true

theorem addRequired_first (allOpen : ∀ one ∈ opens, one.superState = .open)
    (allClosed : ∀ one ∈ closeds, one.superState = .closed)
    (distinct : (opens.map RequiredState.slug).Nodup)
    (found : defaultOpenState repaired = some first)
    (ran : addRequired repaired (opens ++ closeds) = .ok result) :
    defaultOpenState result = some first ↔ ∀ before one next after,
      opens = before ++ one :: next :: after → next.slug = first.slug →
        repaired.find? (·.slug == one.slug) ≠ none := by
  induction opens generalizing repaired first with
  | nil =>
      have stays := addRequired_closed_first repaired result first closeds allClosed found ran
      simp [stays]
  | cons required opens further =>
      obtain ⟨isOpen, allOpen⟩ := List.forall_mem_cons.mp allOpen
      obtain ⟨fresh, distinct⟩ := List.nodup_cons.mp distinct
      rcases (addRequired_cons _ _ _ _).mp ran with ⟨state, there, same, ran⟩ | ⟨absent, ran⟩
      · rw [further repaired first allOpen distinct found ran]
        constructor
        · intro behind before one next after listed named
          cases before with
          | nil =>
              cases listed
              rw [there]
              exact Option.some_ne_none _
          | cons head rest =>
              cases listed
              exact behind rest one next after rfl named
        · intro behind before one next after listed
          exact behind (required :: before) one next after (congrArg (required :: ·) listed)
      · have apart (one : RequiredState) (member : one ∈ opens) : required.slug ≠ one.slug :=
          fun same => fresh (same ▸ List.mem_map_of_mem member)
        have settled (one : RequiredState) (member : one ∈ opens) (state : StateDef)
            (there : repaired.find? (·.slug == one.slug) = some state) :
            state.superState = .open := by
          obtain ⟨other, held, same⟩ := addRequired_has _ result _ ran one
            (List.mem_append_left _ member)
          have still := addRequired_keeps _ result _ ran one.slug state
            ((insertRequired_find_other _ _ _ _ (apart one member)).trans there)
          cases held.symm.trans still
          rw [same, allOpen one member]
        rcases insertRequired_first repaired first required opens closeds isOpen allOpen allClosed
          found settled with ⟨stays, unlike⟩ | ⟨moves, earlier, next, after, rfl, named, skipped⟩
        · rw [further _ first allOpen distinct stays ran]
          constructor
          · intro behind before one next after listed named
            cases before with
            | nil =>
                cases listed
                exact absurd named (unlike next rfl)
            | cons head rest =>
                cases listed
                have inside := behind rest one next after rfl named
                rwa [insertRequired_find_other _ _ _ _ (apart one (by simp))] at inside
          · intro behind before one next after listed named
            rw [insertRequired_find_other _ _ _ _ (apart one (by simp [listed]))]
            exact behind (required :: before) one next after (congrArg (required :: ·) listed) named
        · have lost : defaultOpenState result = some (addition required) := by
            refine (further _ (addition required) allOpen distinct moves ran).mpr ?_
            intro before one next after listed same
            exact absurd same.symm (apart next (by rw [listed]; simp))
          constructor
          · intro stays
            cases lost.symm.trans stays
            exact absurd named.symm (apart next (by simp))
          · intro behind
            obtain ⟨front, one, last⟩ : ∃ front one, required :: earlier = front ++ [one] :=
              ⟨_, _, (List.dropLast_append_getLast (List.cons_ne_nil _ _)).symm⟩
            refine absurd ?_ (behind front one next after ?_ named)
            · have member : one ∈ required :: earlier := by rw [last]; simp
              rcases List.mem_cons.mp member with rfl | inside
              · exact absent
              · exact skipped one inside
            · rw [← List.cons_append, last, List.append_assoc]
              rfl

end First

def isLegacyClosed (state : StateDef) : Bool :=
  state.slug == "closed" && state.superState == .closed

def renamed (state : StateDef) : StateDef :=
  if isLegacyClosed state then { state with slug := droppedStateSlug } else state

section Normalize

variable (states normalized : List StateDef)

theorem renamed_superState (state : StateDef) : (renamed state).superState = state.superState := by
  rw [renamed]
  split <;> rfl

theorem renamed_self (state : StateDef) (current : isLegacyClosed state = false) :
    renamed state = state := by
  rw [renamed, current]
  rfl

theorem isLegacyClosed_iff (state : StateDef) :
    isLegacyClosed state = true ↔ state.slug = "closed" ∧ state.superState = .closed := by
  rw [isLegacyClosed, Bool.and_eq_true, beq_iff_eq, beq_iff_eq]

theorem normalizeCatalog_split (ran : normalizeCatalog states = .ok normalized) :
    ((∀ state ∈ states, isLegacyClosed state = false) ∧ normalized = states) ∨
      ∃ front hit back, states = front ++ hit :: back ∧ isLegacyClosed hit = true ∧
        (∀ state ∈ front, isLegacyClosed state = false) ∧
        normalized = front ++ renamed hit :: back := by
  simp only [normalizeCatalog, bind_eq_ok, refuse_ok, pure_eq_ok] at ran
  obtain ⟨-, -, rfl⟩ := ran
  cases legacy : states.findIdx? fun state => state.slug == "closed" && state.superState == .closed with
  | none => exact .inl ⟨List.findIdx?_eq_none_iff.mp legacy, rfl⟩
  | some index =>
      obtain ⟨front, hit, back, rfl, rfl, named, current⟩ := findIdx_split _ _ index legacy
      have legacyHit : isLegacyClosed hit = true := named
      refine .inr ⟨front, hit, back, rfl, legacyHit, current, ?_⟩
      rw [renamed, if_pos legacyHit]
      exact modify_between front back hit _

theorem normalizeCatalog_clean (current : ∀ state ∈ states, isLegacyClosed state = false)
    (shut : ∀ state, states.find? (·.slug == droppedStateSlug) = some state →
      state.superState = .closed) : normalizeCatalog states = .ok states := by
  have legacy : states.findIdx? (fun state => state.slug == "closed" && state.superState == .closed) =
      none := List.findIdx?_eq_none_iff.mpr current
  have quiet : (states.find? (·.slug == droppedStateSlug)).any
    (·.superState != .closed) = false := by
    rw [Option.any_eq_false_iff_get]
    intro there
    have same := shut _ (Option.some_get there).symm
    simp [same]
  simp only [normalizeCatalog, bind_eq_ok, refuse_ok, pure_eq_ok, legacy, quiet]
  exact ⟨(), rfl, trivial⟩

theorem normalizeCatalog_refused (legacy dropped : StateDef) (old : legacy ∈ states)
    (named : isLegacyClosed legacy = true) (new : dropped ∈ states)
    (taken : dropped.slug = droppedStateSlug) : normalizeCatalog states ≠ .ok normalized := by
  intro ran
  simp only [normalizeCatalog, bind_eq_ok, refuse_ok, pure_eq_ok, Bool.or_eq_false_iff,
    Bool.and_eq_false_iff] at ran
  obtain ⟨-, ⟨-, absent | absent⟩, -⟩ := ran
  · rw [Option.isSome_eq_false_iff, Option.isNone_iff_eq_none, List.findIdx?_eq_none_iff] at absent
    exact absurd named (Bool.eq_false_iff.mp (absent legacy old))
  · rw [Option.isSome_eq_false_iff, Option.isNone_iff_eq_none, List.find?_eq_none] at absent
    exact absent dropped new (beq_iff_eq.mpr taken)

theorem normalizeCatalog_find (ran : normalizeCatalog states = .ok normalized)
    (test : StateDef → Bool) (blind : ∀ state, isLegacyClosed state = true →
      test state = false ∧ test (renamed state) = false) :
    normalized.find? test = states.find? test := by
  rcases normalizeCatalog_split states normalized ran with ⟨-, rfl⟩ |
    ⟨front, hit, back, rfl, named, -, rfl⟩
  · rfl
  · obtain ⟨before, after⟩ := blind hit named
    rw [List.find?_append, List.find?_append, List.find?_cons, List.find?_cons, before, after]

theorem normalizeCatalog_map (ran : normalizeCatalog states = .ok normalized)
    (once : states.countP isLegacyClosed ≤ 1) : normalized = states.map renamed := by
  have still (part : List StateDef) (current : ∀ state ∈ part, isLegacyClosed state = false) :
      part.map renamed = part :=
    (List.map_congr_left fun state member => renamed_self state (current state member)).trans
      (List.map_id' part)
  rcases normalizeCatalog_split states normalized ran with ⟨current, rfl⟩ |
    ⟨front, hit, back, rfl, named, current, rfl⟩
  · exact (still normalized current).symm
  · have only : back.countP isLegacyClosed = 0 := by
      rw [List.countP_append, List.countP_cons_of_pos named] at once
      omega
    rw [List.map_append, List.map_cons, still front current, still back fun state member =>
      Bool.eq_false_iff.mpr (List.countP_eq_zero.mp only state member)]

end Normalize

/-- What the repair of a catalog promises of its result. -/
structure Repaired (states result : List StateDef) : Prop where
  floor : validateRequiredStates result = .ok ()
  again : withRequiredStates result = .ok result
  kept : (states.map renamed).Sublist result
  opens : defaultOpenState states ≠ none → defaultOpenState result = defaultOpenState states

def openFloor : List RequiredState := requiredStates.filter (·.superState == .open)

/-- Where the first OPEN state is a required one, the required one before it is there too. -/
def FloorBehind (states : List StateDef) : Prop :=
  ∀ first, defaultOpenState states = some first → ∀ before one next after,
    openFloor = before ++ one :: next :: after → next.slug = first.slug →
      ∃ state ∈ states, state.slug = one.slug

section Repair

variable (states normalized result : List StateDef)

theorem requiredStates_parts : requiredStates =
    openFloor ++ requiredStates.filter (·.superState == .closed) := by decide

theorem openFloor_open (one : RequiredState) (member : one ∈ openFloor) :
    one.superState = .open ∧ one.slug ≠ "closed" ∧ one.slug ≠ droppedStateSlug := by
  revert one
  decide

theorem required_unlike_closed (one : RequiredState) (member : one ∈ requiredStates) :
    isLegacyClosed (addition one) = false := by
  revert one
  decide

theorem normalized_first (ran : normalizeCatalog states = .ok normalized) :
    defaultOpenState normalized = defaultOpenState states := by
  refine normalizeCatalog_find states normalized ran _ fun state named => ?_
  have shut := ((isLegacyClosed_iff state).mp named).2
  rw [renamed_superState, shut]
  exact ⟨rfl, rfl⟩

theorem normalized_floor (ran : normalizeCatalog states = .ok normalized) (one : RequiredState)
    (member : one ∈ openFloor) : normalized.find? (·.slug == one.slug) ≠ none ↔
      ∃ state ∈ states, state.slug = one.slug := by
  obtain ⟨-, old, new⟩ := openFloor_open one member
  rw [normalizeCatalog_find states normalized ran _ fun state named => ?_, ne_eq,
    List.find?_eq_none]
  · simp
  · rw [renamed, if_pos named, ((isLegacyClosed_iff state).mp named).1]
    exact ⟨beq_false_of_ne old.symm, beq_false_of_ne new.symm⟩

theorem floorBehind_iff (named : normalizeCatalog states = .ok normalized)
    (ran : addRequired normalized requiredStates = .ok result) : FloorBehind states ↔
      (defaultOpenState states ≠ none → defaultOpenState result = defaultOpenState states) := by
  rw [requiredStates_parts] at ran
  have exact (first : StateDef) (found : defaultOpenState states = some first) :=
    addRequired_first normalized result first openFloor _
      (fun one member => (openFloor_open one member).1)
      (fun one member => beq_iff_eq.mp (List.mem_filter.mp member).2) (by decide)
      ((normalized_first states normalized named).trans found) ran
  have floor (before after : List RequiredState) (one next : RequiredState)
      (listed : openFloor = before ++ one :: next :: after) :=
    normalized_floor states normalized named one (by rw [listed]; simp)
  constructor
  · intro behind there
    obtain ⟨first, found⟩ := Option.ne_none_iff_exists'.mp there
    rw [found, exact first found]
    intro before one next after listed same
    exact (floor before after one next listed).mpr
      (behind first found before one next after listed same)
  · intro stays first found before one next after listed same
    have still := stays (by rw [found]; exact Option.some_ne_none _)
    rw [found] at still
    exact (floor before after one next listed).mp
      ((exact first found).mp still before one next after listed same)

theorem repaired_settled (named : normalizeCatalog states = .ok normalized)
    (ran : addRequired normalized requiredStates = .ok result)
    (once : states.countP isLegacyClosed ≤ 1) :
    validateRequiredStates result = .ok () ∧ withRequiredStates result = .ok result := by
  have has := addRequired_has normalized result requiredStates ran
  have current : ∀ state ∈ result, isLegacyClosed state = false := by
    intro state member
    rcases addRequired_mem normalized result requiredStates ran state member with inside |
      ⟨one, listed, rfl⟩
    · rw [normalizeCatalog_map states normalized named once] at inside
      obtain ⟨old, -, rfl⟩ := List.mem_map.mp inside
      rw [renamed]
      split
      · rfl
      · next current => exact Bool.eq_false_iff.mpr current
    · exact required_unlike_closed one listed
  have clean : normalizeCatalog result = .ok result := by
    refine normalizeCatalog_clean result current fun state there => ?_
    obtain ⟨found, held, same⟩ := has ⟨droppedStateSlug, .closed⟩ (by decide)
    cases there.symm.trans held
    exact same
  constructor
  · simp only [validateRequiredStates, missingRequired_none result requiredStates has, bind_eq_ok]
    exact ⟨[], rfl, by rw [clean]; rfl⟩
  · simp only [withRequiredStates, bind_eq_ok]
    exact ⟨result, clean, addRequired_settled result requiredStates has⟩

theorem second_legacy_refused (named : normalizeCatalog states = .ok normalized)
    (ran : addRequired normalized requiredStates = .ok result)
    (twice : ¬ states.countP isLegacyClosed ≤ 1) : validateRequiredStates result ≠ .ok () := by
  intro valid
  simp only [validateRequiredStates, bind_eq_ok] at valid
  obtain ⟨missing, -, rest⟩ := valid
  split at rest
  · obtain ⟨again, cleared, -⟩ := (map_eq_ok _ _ _).mp rest
    have inside := (addRequired_sublist normalized result requiredStates ran).subset
    rcases normalizeCatalog_split states normalized named with ⟨current, -⟩ |
      ⟨front, hit, back, rfl, legacy, current, rfl⟩
    · rw [List.countP_eq_zero.mpr fun state member =>
        Bool.eq_false_iff.mp (current state member)] at twice
      exact twice (Nat.zero_le 1)
    · have further : 0 < back.countP isLegacyClosed := by
        rw [List.countP_append, List.countP_cons_of_pos legacy, List.countP_eq_zero.mpr
          fun state member => Bool.eq_false_iff.mp (current state member)] at twice
        omega
      obtain ⟨other, member, old⟩ := List.countP_pos_iff.mp further
      refine normalizeCatalog_refused result again other (renamed hit) (inside (by simp [member]))
        old (inside (by simp)) ?_ cleared
      rw [renamed, if_pos legacy]
  · cases rest

theorem withRequiredStates_repairs (ran : withRequiredStates states = .ok result) :
    Repaired states result ↔ states.countP isLegacyClosed ≤ 1 ∧ FloorBehind states := by
  obtain ⟨normalized, named, ran⟩ := (bind_eq_ok _ _ _).mp ran
  rw [floorBehind_iff states normalized result named ran]
  constructor
  · intro repaired
    refine ⟨?_, repaired.opens⟩
    by_contra twice
    exact second_legacy_refused states normalized result named ran twice repaired.floor
  · rintro ⟨once, opens⟩
    obtain ⟨floor, again⟩ := repaired_settled states normalized result named ran once
    refine ⟨floor, again, ?_, opens⟩
    rw [← normalizeCatalog_map states normalized named once]
    exact addRequired_sublist normalized result requiredStates ran

end Repair

def plainState (slug : String) (superState : SuperState) : StateDef :=
    ⟨slug, superState, none, none⟩

theorem withRequiredStates_repairs_board :
    Repaired [plainState "todo" .open, plainState "done" .closed, plainState "closed" .closed]
      [plainState "todo" .open, plainState "in-progress" .open, plainState "verifying" .open,
        plainState "blocked" .open, plainState "done" .closed, plainState "dropped" .closed] := by
  refine (withRequiredStates_repairs _ _ (by decide)).mpr ⟨by decide, ?_⟩
  intro first found before one next after listed same
  cases found
  have apart : ∀ later ∈ openFloor.tail, later.slug ≠ "todo" := by decide
  refine absurd same (apart next ?_)
  rw [listed]
  cases before <;> simp

/-- A catalog that starts with `in-progress` gets `todo` put before it. -/
theorem first_state_displaced : ¬ ∀ states result, withRequiredStates states = .ok result →
    Repaired states result := by
  intro repairs
  have repaired := repairs [plainState "in-progress" .open, plainState "done" .closed]
    [plainState "todo" .open, plainState "in-progress" .open, plainState "verifying" .open,
      plainState "blocked" .open, plainState "done" .closed, plainState "dropped" .closed]
    (by decide)
  exact absurd (repaired.opens (by decide)) (by decide)

end Storyhook.Domain
