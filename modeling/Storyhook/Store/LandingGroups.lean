import Storyhook.Store.Landing

namespace Storyhook.Store

open Library Library.Outcome

def rowsOfBatch (id : String) (intents : List LandingIntent) : List LandingIntent :=
  intents.filter fun row => row.batch.any fun batch => batch.id == id

theorem rowsOfBatch_mem (id : String) (intents : List LandingIntent) (row : LandingIntent) :
    row ∈ rowsOfBatch id intents ↔ row ∈ intents ∧ ∃ batch, row.batch = some batch ∧
      batch.id = id := by
  simp only [rowsOfBatch, List.mem_filter, Option.any_eq_true, beq_iff_eq]

def LandingStore.rowsOf {ω : Type} (store : LandingStore ω) (record : VerificationBatch) :
    List LandingIntent :=
  rowsOfBatch record.id store.intents

/-- Groups with batches of their own, each of the rows of its batch. -/
structure Grouped (intents : List LandingIntent) (groups : List BatchLandingIntent) : Prop where
  apart : (groups.map (·.batch.id)).Nodup
  rows : ∀ group ∈ groups, group.rows = rowsOfBatch group.batch.id intents ∧ group.rows ≠ []
  covered : ∀ row ∈ intents, ∀ batch, row.batch = some batch →
    ∃ group ∈ groups, group.batch.id = batch.id

theorem addRow_ids (row : LandingIntent) (batch : BatchLanding) (groups : List BatchLandingIntent) :
    (addRow row batch groups).map (·.batch.id) =
      if batch.id ∈ groups.map (·.batch.id) then groups.map (·.batch.id)
      else groups.map (·.batch.id) ++ [batch.id] := by
  induction groups with
  | nil => rfl
  | cons known rest further =>
      unfold addRow
      split
      · next same => simp only [List.map_cons, same, List.mem_cons, true_or, if_true]
      · next apart =>
          rw [List.map_cons, further, List.map_cons]
          simp only [List.mem_cons, Ne.symm apart, false_or]
          split <;> rfl

theorem addRow_cases (row : LandingIntent) (batch : BatchLanding)
    (groups : List BatchLandingIntent) (apart : (groups.map (·.batch.id)).Nodup)
    (group : BatchLandingIntent) (member : group ∈ addRow row batch groups) :
    (group ∈ groups ∧ group.batch.id ≠ batch.id) ∨
      (∃ known ∈ groups, known.batch.id = batch.id ∧
        group = { known with rows := known.rows ++ [row] }) ∨
      (batch.id ∉ groups.map (·.batch.id) ∧ group = ⟨batch, row.certification, [row]⟩) := by
  induction groups with
  | nil => exact Or.inr (Or.inr ⟨List.not_mem_nil, List.mem_singleton.mp member⟩)
  | cons known rest further =>
      rw [List.map_cons, List.nodup_cons] at apart
      unfold addRow at member
      split at member
      · next same =>
          rcases List.mem_cons.mp member with rfl | other
          · exact Or.inr (Or.inl ⟨known, List.mem_cons_self, same, rfl⟩)
          · refine Or.inl ⟨List.mem_cons_of_mem _ other, fun clash => apart.1 ?_⟩
            exact List.mem_map.mpr ⟨group, other, clash.trans same.symm⟩
      · next differs =>
          rcases List.mem_cons.mp member with rfl | other
          · exact Or.inl ⟨List.mem_cons_self, differs⟩
          · rcases further apart.2 other with ⟨inside, unlike⟩ | ⟨old, inside, same,
              rfl⟩ | ⟨absent, rfl⟩
            · exact Or.inl ⟨List.mem_cons_of_mem _ inside, unlike⟩
            · exact Or.inr (Or.inl ⟨old, List.mem_cons_of_mem _ inside, same, rfl⟩)
            · refine Or.inr (Or.inr ⟨?_, rfl⟩)
              rw [List.map_cons, List.mem_cons, not_or]
              exact ⟨Ne.symm differs, absent⟩

theorem rowsOfBatch_append (id : String) (done : List LandingIntent) (row : LandingIntent) :
    rowsOfBatch id (done ++ [row]) = rowsOfBatch id done ++
      if row.batch.any (fun batch => batch.id == id) then [row] else [] := by
  rw [rowsOfBatch, List.filter_append, List.filter_singleton, cond_eq_ite]
  rfl

theorem addRow_grouped (done : List LandingIntent) (row : LandingIntent) (batch : BatchLanding)
    (groups : List BatchLandingIntent) (of : row.batch = some batch)
    (grouped : Grouped done groups) : Grouped (done ++ [row]) (addRow row batch groups) where
  apart := by
    rw [addRow_ids]
    split
    · exact grouped.apart
    · next fresh =>
        exact List.Nodup.append grouped.apart (List.nodup_singleton _)
          (List.disjoint_singleton.mpr fresh)
  rows := by
    intro group member
    rw [rowsOfBatch_append]
    rcases addRow_cases row batch groups grouped.apart group member with
      ⟨inside, unlike⟩ | ⟨known, inside, same, rfl⟩ | ⟨fresh, rfl⟩
    · have other : row.batch.any (fun bound => bound.id == group.batch.id) = false := by
        rw [of, Option.any_some]
        exact beq_eq_false_iff_ne.mpr (Ne.symm unlike)
      rw [if_neg (by rw [other]; exact Bool.false_ne_true), List.append_nil]
      exact grouped.rows group inside
    · have here : row.batch.any (fun bound => bound.id == known.batch.id) = true := by
        rw [of, Option.any_some]
        exact beq_iff_eq.mpr same.symm
      rw [if_pos here, ← (grouped.rows known inside).1]
      exact ⟨rfl, List.concat_ne_nil row known.rows⟩
    · have here : row.batch.any (fun bound => bound.id == batch.id) = true := by
        rw [of, Option.any_some]
        exact beq_self_eq_true batch.id
      have none : rowsOfBatch batch.id done = [] := by
        rw [List.eq_nil_iff_forall_not_mem]
        intro other found
        obtain ⟨inside, bound, bindsTo, same⟩ := (rowsOfBatch_mem _ _ _).mp found
        obtain ⟨group, there, equal⟩ := grouped.covered other inside bound bindsTo
        exact fresh (List.mem_map.mpr ⟨group, there, equal.trans same⟩)
      rw [if_pos here, none]
      exact ⟨rfl, List.cons_ne_nil _ _⟩
  covered := by
    intro other member bound bindsTo
    have ids := addRow_ids row batch groups
    have found : bound.id ∈ (addRow row batch groups).map (·.batch.id) := by
      rw [ids]
      rcases List.mem_append.mp member with earlier | here
      · obtain ⟨group, inside, same⟩ := grouped.covered other earlier bound bindsTo
        have known : bound.id ∈ groups.map (·.batch.id) := List.mem_map.mpr ⟨group, inside, same⟩
        split
        · exact known
        · exact List.mem_append_left _ known
      · rw [List.mem_singleton.mp here] at bindsTo
        obtain rfl := Option.some.inj (of.symm.trans bindsTo)
        split
        · next known => exact known
        · exact List.mem_append_right _ (List.mem_singleton_self _)
    obtain ⟨group, inside, same⟩ := List.mem_map.mp found
    exact ⟨group, inside, same⟩

theorem collect_grouped (intents : List LandingIntent) : Grouped intents (collect intents) := by
  induction intents using List.reverseRecOn with
  | nil =>
      refine ⟨List.nodup_nil, fun group member => ?_, fun row member => ?_⟩
      · cases member
      · cases member
  | append_singleton done row further =>
      cases of : row.batch with
      | some batch =>
          have grown : collect (done ++ [row]) = addRow row batch (collect done) := by
            simp [collect, of]
          rw [grown]
          exact addRow_grouped done row batch _ of further
      | none =>
          have same : collect (done ++ [row]) = collect done := by simp [collect, of]
          rw [same]
          refine ⟨further.apart, fun group member => ?_, fun other member bound bindsTo => ?_⟩
          · rw [rowsOfBatch_append, of]
            simpa using further.rows group member
          · rcases List.mem_append.mp member with earlier | here
            · exact further.covered other earlier bound bindsTo
            · rw [List.mem_singleton.mp here, of] at bindsTo
              cases bindsTo

end Storyhook.Store
