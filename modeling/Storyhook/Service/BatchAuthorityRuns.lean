import Storyhook.Service.BatchAuthority

namespace Storyhook.Service

open Storyhook.Store
open Library Library.Outcome

variable {ω : Type}

abbrev keyOf (row : LandingIntent) : Int × StoryNo := (row.project, row.story)

structure Evolves (store after : LandingStore ω) : Prop where
  keys : (after.intents.map keyOf).Nodup
  intents : after.intents ⊆ store.intents ∨ store.intents ⊆ after.intents
  ids : after.batches.map (·.id) = store.batches.map (·.id)
  members : ∀ record ∈ after.batches, ∃ old ∈ store.batches,
    old.id = record.id ∧ old.members = record.members
  sound : ∀ record ∈ after.batches, record.Sound
  recoverable : Recoverable after

section Records

variable (store : LandingStore ω)

/-- A record rewritten: the one row of its id, and no other. -/
structure Rewritten (after : LandingStore ω) (next : VerificationBatch) : Prop where
  intents : after.intents = store.intents
  sound : next.Sound
  old : ∃ old ∈ store.batches, old.id = next.id
  batches : ∀ record ∈ after.batches,
    record = next ∨ record ∈ store.batches ∧ record.id ≠ next.id
  ids : after.batches.map (·.id) = store.batches.map (·.id)

theorem updateVerificationBatch_ok (ids : (store.batches.map (·.id)).Nodup)
    (next : VerificationBatch) (expected : Int) (after : LandingStore ω)
    (ran : updateVerificationBatch store next expected = .ok (true, after)) :
    Rewritten store after next := by
  simp only [updateVerificationBatch, bind_eq_ok, refuse_ok] at ran
  obtain ⟨_, valid, _, _, ran⟩ := ran
  split at ran
  · next found =>
      obtain ⟨_, rfl⟩ := Prod.mk.inj (Except.ok.inj ran)
      obtain ⟨current, there, hit⟩ := List.any_eq_true.mp found
      have same : current.id = next.id := by
        simp only [isCurrent, Bool.and_eq_true, beq_iff_eq] at hit
        exact hit.1.1.1
      refine ⟨rfl, next.validate_sound valid, ⟨current, there, same⟩, ?_, ?_⟩
      · intro record member
        obtain ⟨row, inside, rfl⟩ := List.mem_map.mp member
        split
        · exact Or.inl rfl
        · next miss =>
            refine Or.inr ⟨inside, fun clash => miss ?_⟩
            rwa [List.inj_on_of_nodup_map ids inside there (clash.trans same.symm)]
      · rw [List.map_map]
        refine List.map_congr_left fun row inside => ?_
        simp only [Function.comp_apply]
        split
        · next hit =>
            simp only [isCurrent, Bool.and_eq_true, beq_iff_eq] at hit
            exact hit.1.1.1.symm
        · rfl
  · cases (Prod.mk.inj (Except.ok.inj ran)).1

theorem findBatch_some (project : Int) (id : String) (record : VerificationBatch)
    (found : findBatch store project id = some record) :
    record ∈ store.batches ∧ record.id = id := by
  have matching := List.find?_some found
  rw [Bool.and_eq_true, beq_iff_eq, beq_iff_eq] at matching
  exact ⟨List.mem_of_find?_eq_some found, matching.2⟩

end Records

section Rows

variable (store after : LandingStore ω)

def Spares (batch : BatchLanding) : Prop :=
  ∀ row ∈ store.intents, row.batch ≠ some batch → row ∈ after.intents

theorem Spares.rows (batch : BatchLanding) (spares : Spares store after batch)
    (record : VerificationBatch) (apart : record.id ≠ batch.id) (some : store.rowsOf record ≠ []) :
    after.rowsOf record ≠ [] := by
  obtain ⟨row, member⟩ := List.exists_mem_of_ne_nil _ some
  obtain ⟨inside, bound, bindsTo, same⟩ := (rowsOfBatch_mem _ _ _).mp member
  refine List.ne_nil_of_mem ((rowsOfBatch_mem _ _ _).mpr ⟨spares row inside ?_, bound,
    bindsTo, same⟩)
  intro equal
  exact apart (same.symm.trans (congrArg (·.id) (Option.some.inj (bindsTo.symm.trans equal))))

theorem rowsOf_superset (record : VerificationBatch) (within : store.intents ⊆ after.intents)
    (some : store.rowsOf record ≠ []) : after.rowsOf record ≠ [] := by
  obtain ⟨row, member⟩ := List.exists_mem_of_ne_nil _ some
  obtain ⟨inside, bound⟩ := (rowsOfBatch_mem _ _ _).mp member
  exact List.ne_nil_of_mem ((rowsOfBatch_mem _ _ _).mpr ⟨within inside, bound⟩)

theorem insertRow_perm (row : LandingIntent) (rows : List LandingIntent) :
    (insertRow row rows).Perm (row :: rows) := by
  induction rows with
  | nil => exact List.Perm.refl _
  | cons other rest further =>
      unfold insertRow
      split
      · exact List.Perm.refl _
      · exact (further.cons other).trans (List.Perm.swap row other rest)

theorem insertLandingIntent_ok (intent : LandingIntent) (keys : (store.intents.map keyOf).Nodup)
    (ran : insertLandingIntent store intent = .ok after) :
    after.batches = store.batches ∧ after.rest = store.rest ∧
      (∀ row, row ∈ after.intents ↔ row = intent ∨ row ∈ store.intents) ∧
      (after.intents.map keyOf).Nodup := by
  simp only [insertLandingIntent, bind_eq_ok, refuse_ok, pure_eq_ok, List.any_eq_false,
    Bool.or_eq_true, Bool.and_eq_true, beq_iff_eq, not_or, not_and] at ran
  obtain ⟨_, fresh, rfl⟩ := ran
  have perm := insertRow_perm intent store.intents
  refine ⟨rfl, rfl, fun row => ?_, ?_⟩
  · exact (perm.mem_iff).trans List.mem_cons
  · refine ((perm.map keyOf).nodup_iff).mpr (List.nodup_cons.mpr ⟨?_, keys⟩)
    intro taken
    obtain ⟨row, member, same⟩ := List.mem_map.mp taken
    obtain ⟨project, story⟩ := Prod.mk.inj same
    exact (fresh row member).2 project story

end Rows

section Steps

variable (services : Submissions ω) (store : LandingStore ω) (after : LandingStore ω)
  (committed : Committed services store) (recoverable : Recoverable store)

include committed recoverable

theorem evolves_refl : Evolves store store where
  keys := committed.keys
  intents := Or.inl (List.Subset.refl _)
  ids := rfl
  members := fun record listed => ⟨record, listed, rfl, rfl⟩
  sound := committed.sound
  recoverable := recoverable

theorem evolves_removed (batch : BatchLanding) (rest : ω)
    (removed : after.intents.Sublist store.intents) (spares : Spares store after batch)
    (batches : after.batches = store.batches)
    (settled : ∀ record ∈ store.batches, record.id = batch.id → record.phase = .landing →
      after.rowsOf record ≠ []) : Evolves store { after with rest := rest } where
  keys := committed.keys.sublist (removed.map _)
  intents := Or.inl removed.subset
  ids := congrArg _ batches
  members := fun record listed => ⟨record, batches ▸ listed, rfl, rfl⟩
  sound := fun record listed => committed.sound record (batches ▸ listed)
  recoverable := by
    intro record listed landing
    rw [show ({ after with rest := rest } : LandingStore ω).batches = store.batches from batches]
      at listed
    by_cases here : record.id = batch.id
    · exact settled record listed here landing
    · exact spares.rows store after batch record here (recoverable record listed landing)

theorem evolves_rewritten (middle : LandingStore ω) (batch : BatchLanding)
    (old next : VerificationBatch) (rest : ω) (rewritten : Rewritten middle after next)
    (removed : middle.intents.Sublist store.intents) (spares : Spares store middle batch)
    (batches : middle.batches = store.batches) (listed : old ∈ store.batches)
    (id : next.id = old.id) (same : old.id = batch.id) (members : next.members = old.members)
    (settled : next.phase = .landing → middle.rowsOf next ≠ []) :
    Evolves store { after with rest := rest } where
  keys := by
    rw [show ({ after with rest := rest } : LandingStore ω).intents = middle.intents from
      rewritten.intents]
    exact committed.keys.sublist (removed.map _)
  intents := by
    rw [show ({ after with rest := rest } : LandingStore ω).intents = middle.intents from
      rewritten.intents]
    exact Or.inl removed.subset
  ids := rewritten.ids.trans (congrArg _ batches)
  members := by
    intro record there
    rcases rewritten.batches record there with rfl | ⟨inside, _⟩
    · exact ⟨old, listed, id.symm, members.symm⟩
    · exact ⟨record, batches ▸ inside, rfl, rfl⟩
  sound := by
    intro record there
    rcases rewritten.batches record there with rfl | ⟨inside, _⟩
    · exact rewritten.sound
    · exact committed.sound record (batches ▸ inside)
  recoverable := by
    intro record there landing
    rw [LandingStore.rowsOf, show ({ after with rest := rest } : LandingStore ω).intents =
      middle.intents from rewritten.intents]
    rcases rewritten.batches record there with rfl | ⟨inside, apart⟩
    · exact settled landing
    · rw [batches] at inside
      refine spares.rows store middle batch record ?_ (recoverable record inside landing)
      rwa [← same, ← id]

end Steps

section Removals

variable (services : Submissions ω) (store : LandingStore ω)

/-- What is left once some rows of one batch are gone. -/
structure Removed (store after : LandingStore ω) (batch : BatchLanding) : Prop where
  intents : after.intents.Sublist store.intents
  batches : after.batches = store.batches
  spares : Spares store after batch

theorem removed_refl (batch : BatchLanding) : Removed store store batch :=
  ⟨List.Sublist.refl _, rfl, fun _ member _ => member⟩

theorem Removed.intent (after : LandingStore ω) (batch : BatchLanding) (row : LandingIntent)
    (rest : ω) (of : row.batch = some batch) (removed : Removed store after batch) :
    Removed store { removeLandingIntent after row with rest := rest } batch where
  intents := List.filter_sublist.trans removed.intents
  batches := removed.batches
  spares := by
    intro other member apart
    refine List.mem_filter.mpr ⟨removed.spares other member apart, decide_eq_true ?_⟩
    intro same
    exact apart (same ▸ of)

theorem completeRows (record : VerificationBatch) (detail : String)
    (members : List VerificationCandidate) (batch : BatchLanding) (rows : List LandingIntent)
    (of : ∀ row ∈ rows, row.batch = some batch) (final : LandingStore ω × List String)
    (ran : rows.foldlM (completeRow services record detail members) (store, []) = .ok final) :
    Removed store final.1 batch ∧ (final.2 = [] → final.1 = store) := by
  refine foldlM_ok (completeRow services record detail members)
    (fun _ state => Removed store state.1 batch ∧ (state.2 = [] → state.1 = store))
    rows ?_ (store, []) final ⟨removed_refl store batch, fun _ => rfl⟩ ran
  intro done row later before next split holds stepped
  have here : row.batch = some batch :=
    of row (split ▸ List.mem_append_right _ List.mem_cons_self)
  unfold completeRow at stepped
  split at stepped
  · rw [← Except.ok.inj stepped]
    exact holds
  · simp only [bind_eq_ok] at stepped
    obtain ⟨may, _, stepped⟩ := stepped
    cases may with
    | false =>
        rw [← Except.ok.inj stepped]
        exact holds
    | true =>
        simp only [Bool.not_true, Bool.false_eq_true, if_false, bind_eq_ok, pure_eq_ok] at stepped
        obtain ⟨_, _, rest, _, rfl⟩ := stepped
        refine ⟨holds.1.intent store before.1 batch row rest here, fun none => ?_⟩
        exact absurd none (List.concat_ne_nil row.storyId before.2)

theorem releaseRows (batch : BatchLanding) (rows : List LandingIntent)
    (of : ∀ row ∈ rows, row.batch = some batch) (final : LandingStore ω)
    (ran : rows.foldlM (fun state row => (releaseIntent state row).map (·.2)) store = .ok final) :
    Removed store final batch := by
  refine foldlM_ok (fun state row => (releaseIntent state row).map (·.2))
    (fun _ state => Removed store state batch) rows ?_ store final (removed_refl store batch) ran
  intro done row later before next split holds stepped
  have here : row.batch = some batch :=
    of row (split ▸ List.mem_append_right _ List.mem_cons_self)
  simp only [map_eq_ok, releaseIntent, bind_eq_ok, pure_eq_ok] at stepped
  obtain ⟨_, ⟨_, _, rfl⟩, rfl⟩ := stepped
  exact holds.intent store before batch row before.rest here

end Removals

section Operations

variable (services : Submissions ω) (store : LandingStore ω)
  (committed : Committed services store) (recoverable : Recoverable store)

include committed recoverable

theorem completeMembers_evolves (project : Int) (batch : BatchLanding) (detail now : String)
    (members : List VerificationCandidate) (outcome : List String × LandingStore ω) (rest : ω)
    (ran : completeMembers services store project batch detail now members = .ok outcome) :
    Evolves store { outcome.2 with rest := rest } := by
  unfold completeMembers at ran
  split at ran
  · rw [← (pure_eq_ok _ _).mp ran]
    exact evolves_removed services store store committed recoverable batch rest
      (List.Sublist.refl _) (removed_refl store batch).spares rfl
      fun record listed _ => recoverable record listed
  · next record found =>
      obtain ⟨listed, id⟩ := findBatch_some store project batch.id record found
      rw [bind_eq_ok] at ran
      obtain ⟨final, rows, ran⟩ := ran
      obtain ⟨removed, unchanged⟩ := completeRows services store record detail members batch _
        (fun row member => of_decide_eq_true (List.mem_filter.mp member).2) final rows
      split at ran
      · simp only [bind_eq_ok, refuse_ok, pure_eq_ok] at ran
        obtain ⟨advanced, moved, ⟨written, landed⟩, update, _, done, rfl⟩ := ran
        obtain ⟨rfl, _⟩ := record.advance_ok .landed now advanced moved
        have ids : (final.1.batches.map (·.id)).Nodup := removed.batches ▸ committed.ids
        rw [Bool.not_eq_false'] at done
        subst done
        have rewritten := updateVerificationBatch_ok final.1 ids _ _ landed update
        exact evolves_rewritten services store landed committed recoverable final.1 batch
          record _ rest rewritten removed.intents removed.spares removed.batches listed rfl id rfl
          fun landing => by cases landing
      · next idle =>
          rw [← (pure_eq_ok _ _).mp ran]
          refine evolves_removed services store final.1 committed recoverable batch rest
            removed.intents removed.spares removed.batches fun other inside same landing => ?_
          have one : other = record :=
            List.inj_on_of_nodup_map committed.ids inside listed (same.trans id.symm)
          rw [one] at landing ⊢
          have none : final.2 = [] := by
            by_contra some
            exact idle ⟨some, landing⟩
          rw [unchanged none]
          exact recoverable record listed landing

theorem completeBatch_evolves (ctxProject : Int) (intent : BatchLandingIntent)
    (detail now : String) (members : List VerificationCandidate)
    (outcome : List String × LandingStore ω)
    (ran : completeBatchLanding services store ctxProject intent detail now members = .ok outcome) :
    Evolves store outcome.2 := by
  simp only [completeBatchLanding, bind_eq_ok, pure_eq_ok] at ran
  obtain ⟨first, _, _, _, changed, settled, rest, _, rfl⟩ := ran
  exact completeMembers_evolves services store committed recoverable first.project intent.batch
    detail now members changed rest settled

theorem releaseBatch_evolves (ctxProject : Int) (intent : BatchLandingIntent) (detail now : String)
    (outcome : VerificationBatch × LandingStore ω)
    (ran : releaseUnattemptedBatchLanding store ctxProject intent detail now = .ok outcome) :
    Evolves store outcome.2 := by
  simp only [releaseUnattemptedBatchLanding, bind_eq_ok, demand_ok, refuse_ok, pure_eq_ok] at ran
  obtain ⟨record, found, released, rows, advanced, moved, ⟨written, after⟩, update, _, done, rfl⟩ :=
    ran
  obtain ⟨listed, id⟩ := findBatch_some store ctxProject intent.batch.id record found
  have removed := releaseRows store intent.batch _
    (fun row member => of_decide_eq_true (List.mem_filter.mp member).2) released rows
  obtain ⟨rfl, _⟩ := record.advance_ok .released now advanced moved
  have ids : (released.batches.map (·.id)).Nodup := removed.batches ▸ committed.ids
  rw [Bool.not_eq_false'] at done
  subst done
  have rewritten := updateVerificationBatch_ok released ids _ _ after update
  exact evolves_rewritten services store after committed recoverable released intent.batch
    record _ after.rest rewritten removed.intents removed.spares removed.batches listed rfl id rfl
    fun landing => by cases landing

/-- Another intent of the batch is left, where an intent of a landing batch goes. -/
def AnotherLeft (intent : LandingIntent) : Prop :=
  ∀ record ∈ store.batches, record.phase = .landing → intent ∈ store.rowsOf record →
    ∃ other ∈ store.rowsOf record, other ≠ intent

omit committed recoverable in
theorem rows_left (intent : LandingIntent) (record : VerificationBatch)
    (some : store.rowsOf record ≠ []) (left : intent ∈ store.rowsOf record →
      ∃ other ∈ store.rowsOf record, other ≠ intent) :
    (removeLandingIntent store intent).rowsOf record ≠ [] := by
  have stays : ∀ other ∈ store.rowsOf record, other ≠ intent →
      other ∈ (removeLandingIntent store intent).rowsOf record := by
    intro other member differs
    obtain ⟨inside, bound⟩ := (rowsOfBatch_mem _ _ _).mp member
    exact (rowsOfBatch_mem _ _ _).mpr
      ⟨List.mem_filter.mpr ⟨inside, decide_eq_true differs⟩, bound⟩
  by_cases going : intent ∈ store.rowsOf record
  · obtain ⟨other, member, differs⟩ := left going
    exact List.ne_nil_of_mem (stays other member differs)
  · obtain ⟨row, member⟩ := List.exists_mem_of_ne_nil _ some
    exact List.ne_nil_of_mem (stays row member fun same => going (same ▸ member))

theorem release_evolves (intent : LandingIntent) (rest : ω)
    (left : AnotherLeft store intent) :
    Evolves store { removeLandingIntent store intent with rest := rest } where
  keys := committed.keys.sublist (List.filter_sublist.map _)
  intents := Or.inl List.filter_sublist.subset
  ids := rfl
  members := fun record listed => ⟨record, listed, rfl, rfl⟩
  sound := committed.sound
  recoverable := fun record listed landing =>
    rows_left store intent record (recoverable record listed landing) (left record listed landing)

theorem supersede_evolves (intent : LandingIntent) (now : String) (rest : ω)
    (left : AnotherLeft store intent) (outcome : String × LandingStore ω)
    (ran : supersedeForReset store intent now = .ok outcome) :
    Evolves store { outcome.2 with rest := rest } := by
  simp only [supersedeForReset, bind_eq_ok] at ran
  obtain ⟨_, _, ran⟩ := ran
  split at ran
  · rw [← (pure_eq_ok _ _).mp ran]
    exact release_evolves services store committed recoverable intent rest left
  · next record found =>
      simp only [landingBatch, Option.bind_eq_bind, Option.bind_eq_some_iff,
        Option.ite_none_right_eq_some, Option.some.injEq] at found
      obtain ⟨binding, _, same, located, landing, rfl⟩ := found
      obtain ⟨listed, _⟩ := findBatch_some store intent.project binding.id same located
      simp only [bind_eq_ok, pure_eq_ok, withdrawMember, refuse_ok] at ran
      obtain ⟨_, ⟨⟨written, noted⟩, update, _, done, rfl⟩, rfl⟩ := ran
      rw [Bool.not_eq_false'] at done
      subst done
      have rewritten := updateVerificationBatch_ok store committed.ids _ _ noted update
      have rows : (removeLandingIntent noted intent).intents =
          (removeLandingIntent store intent).intents := by
        rw [removeLandingIntent, removeLandingIntent, rewritten.intents]
      constructor
      · show ((removeLandingIntent noted intent).intents.map keyOf).Nodup
        rw [rows]
        exact committed.keys.sublist (List.filter_sublist.map _)
      · show (removeLandingIntent noted intent).intents ⊆ _ ∨ _ ⊆
          (removeLandingIntent noted intent).intents
        rw [rows]
        exact Or.inl List.filter_sublist.subset
      · exact rewritten.ids
      · intro other there
        rcases rewritten.batches other there with rfl | ⟨inside, _⟩
        · exact ⟨same, listed, rfl, rfl⟩
        · exact ⟨other, inside, rfl, rfl⟩
      · intro other there
        rcases rewritten.batches other there with rfl | ⟨inside, _⟩
        · exact rewritten.sound
        · exact committed.sound other inside
      · intro other there lands
        show rowsOfBatch other.id (removeLandingIntent noted intent).intents ≠ []
        rw [rows]
        rcases rewritten.batches other there with rfl | ⟨inside, _⟩
        · exact rows_left store intent same (recoverable same listed landing)
            (left same listed landing)
        · exact rows_left store intent other (recoverable other inside lands)
            (left other inside lands)

omit committed recoverable in
theorem memberRow_ok (record : VerificationBatch) (certification : VerifiedSubmission)
    (batch : BatchLanding) (idPrefix now id : String) (candidate : VerificationCandidate)
    (member : BatchMember) (row : LandingIntent)
    (ran : memberRow services store record certification batch idPrefix now id candidate member =
      .ok row) : row.batch = some batch := by
  unfold memberRow at ran
  split at ran
  · cases ran
  · simp only [bind_eq_ok] at ran
    obtain ⟨answer, _, ran⟩ := ran
    split at ran
    · cases ran
    · cases ran
    · split at ran
      · cases ran
      · split at ran
        · cases ran
        · rw [← Except.ok.inj ran]

omit recoverable in
theorem admitIntents (rows : List LandingIntent) (admitted : LandingStore ω)
    (ran : rows.foldlM (admitIntent services) store = .ok admitted) :
    admitted.batches = store.batches ∧ (admitted.intents.map keyOf).Nodup ∧
      store.intents ⊆ admitted.intents ∧ rows ⊆ admitted.intents := by
  refine foldlM_ok (admitIntent services)
    (fun done state => state.batches = store.batches ∧ (state.intents.map keyOf).Nodup ∧
      store.intents ⊆ state.intents ∧ done ⊆ state.intents)
    rows ?_ store admitted ⟨rfl, committed.keys, List.Subset.refl _, List.nil_subset _⟩ ran
  intro done row later before after _ holds stepped
  obtain ⟨batches, keys, kept, here⟩ := holds
  simp only [admitIntent, bind_eq_ok] at stepped
  obtain ⟨_, _, inserted⟩ := stepped
  obtain ⟨same, _, members, apart⟩ := insertLandingIntent_ok before after row keys inserted
  refine ⟨same.trans batches, apart, fun other member => ?_, fun other member => ?_⟩
  · exact (members other).mpr (Or.inr (kept member))
  · rcases List.mem_append.mp member with earlier | last
    · exact (members other).mpr (Or.inr (here earlier))
    · exact (members other).mpr (Or.inl (List.mem_singleton.mp last))

theorem admitBatch_evolves (record : VerificationBatch) (members : List VerificationCandidate)
    (certification : VerifiedSubmission) (gate : BatchGate) (batch : BatchLanding) (now : String)
    (ids : Nat → String) (listed : record ∈ store.batches) (same : batch.id = record.id)
    (many : members.length = record.members.length)
    (outcome : BatchLandingAdmission × LandingStore ω)
    (ran : admitBatch services store record members certification gate batch now ids =
      .ok outcome) : Evolves store outcome.2 := by
  simp only [admitBatch, bind_eq_ok] at ran
  obtain ⟨idPrefix, _, ran⟩ := ran
  split at ran
  · rw [← (pure_eq_ok _ _).mp ran]
    exact evolves_refl services store committed recoverable
  · cases ran
  · next rows gathered =>
      simp only [bind_eq_ok, refuse_ok, pure_eq_ok] at ran
      obtain ⟨admitted, inserted, advanced, moved, ⟨written, after⟩, update, _, done, rfl⟩ := ran
      obtain ⟨batches, keys, kept, here⟩ :=
        admitIntents services store committed rows admitted inserted
      obtain ⟨rfl, _⟩ := record.advance_ok .landing now advanced moved
      have apart : (admitted.batches.map (·.id)).Nodup := batches ▸ committed.ids
      rw [Bool.not_eq_false'] at done
      subst done
      have rewritten := updateVerificationBatch_ok admitted apart _ _ after update
      have filled : rows ≠ [] := by
        have count := mapM_length _ _ rows gathered
        rw [List.length_zipIdx, List.length_zip, many, Nat.min_self] at count
        have several := (committed.sound record listed).several
        rintro rfl
        rw [List.length_nil] at count
        omega
      constructor
      · rw [rewritten.intents]
        exact keys
      · rw [rewritten.intents]
        exact Or.inr kept
      · exact rewritten.ids.trans (congrArg _ batches)
      · intro other there
        rcases rewritten.batches other there with rfl | ⟨inside, _⟩
        · exact ⟨record, listed, rfl, rfl⟩
        · exact ⟨other, batches ▸ inside, rfl, rfl⟩
      · intro other there
        rcases rewritten.batches other there with rfl | ⟨inside, _⟩
        · exact rewritten.sound
        · exact committed.sound other (batches ▸ inside)
      · intro other there landing
        rw [LandingStore.rowsOf, rewritten.intents]
        rcases rewritten.batches other there with rfl | ⟨inside, _⟩
        · obtain ⟨row, member⟩ := List.exists_mem_of_ne_nil _ filled
          obtain ⟨entry, _, made⟩ := mapM_ok _ _ rows gathered row member
          refine List.ne_nil_of_mem ((rowsOfBatch_mem _ _ _).mpr ⟨here member, batch, ?_, same⟩)
          exact memberRow_ok services store record certification batch idPrefix now _ _ _ row made
        · rw [batches] at inside
          exact rowsOf_superset store admitted other kept (recoverable other inside landing)

theorem beginBatch_evolves (ctxProject : Int) (record : VerificationBatch)
    (members : List VerificationCandidate) (certification : VerifiedSubmission) (gate : BatchGate)
    (now landing : String) (ids : Nat → String) (outcome : BatchLandingAdmission × LandingStore ω)
    (ran : beginBatchLanding services store ctxProject record members certification gate now
      landing ids = .ok outcome) : Evolves store outcome.2 := by
  simp only [beginBatchLanding, bind_eq_ok] at ran
  obtain ⟨_, _, _, _, ran⟩ := ran
  have refused : ∀ detail, (.refused detail, store) = outcome → Evolves store outcome.2 := by
    rintro detail rfl
    exact evolves_refl services store committed recoverable
  split at ran
  · exact refused _ ((pure_eq_ok _ _).mp ran)
  · split at ran
    · exact refused _ ((pure_eq_ok _ _).mp ran)
    · split at ran
      · exact refused _ ((pure_eq_ok _ _).mp ran)
      · next named =>
          split at ran
          · exact refused _ ((pure_eq_ok _ _).mp ran)
          · next current found =>
              split at ran
              · exact refused _ ((pure_eq_ok _ _).mp ran)
              · next steady =>
                  rw [not_or, not_not] at steady
                  obtain ⟨listed, _⟩ := findBatch_some store record.project record.id current found
                  rw [steady.1] at listed
                  have many := congrArg List.length (not_not.mp named)
                  rw [List.length_map, List.length_map] at many
                  exact admitBatch_evolves services store committed recoverable record members
                    certification gate _ now ids listed rfl many outcome ran

end Operations

/-- The last intent of a batch that is landing does not go by itself. -/
def LeavesOne (store : LandingStore ω) : LandingOp ω → Prop
  | .release intent | .supersede intent _ _ => AnotherLeft store intent
  | _ => True

theorem run_evolves (services : Submissions ω) (store : LandingStore ω)
    (committed : Committed services store) (recoverable : Recoverable store) (op : LandingOp ω)
    (leaves : LeavesOne store op) (after : LandingStore ω)
    (ran : op.run services store = .ok after) :
    Evolves store after := by
  cases op with
  | beginBatch ctxProject record members certification gate now landing ids =>
      obtain ⟨outcome, made, rfl⟩ := (map_eq_ok _ _ _).mp ran
      exact beginBatch_evolves services store committed recoverable ctxProject record members
        certification gate now landing ids outcome made
  | completeBatch ctxProject intent detail now members =>
      obtain ⟨outcome, made, rfl⟩ := (map_eq_ok _ _ _).mp ran
      exact completeBatch_evolves services store committed recoverable ctxProject intent detail now
        members outcome made
  | releaseBatch ctxProject intent detail now =>
      obtain ⟨outcome, made, rfl⟩ := (map_eq_ok _ _ _).mp ran
      exact releaseBatch_evolves services store committed recoverable ctxProject intent detail now
        outcome made
  | release intent =>
      obtain ⟨outcome, made, rfl⟩ := (map_eq_ok _ _ _).mp ran
      simp only [releaseIntent, bind_eq_ok, pure_eq_ok] at made
      obtain ⟨_, _, rfl⟩ := made
      exact release_evolves services store committed recoverable intent store.rest leaves
  | supersede intent now rest =>
      obtain ⟨outcome, made, rfl⟩ := (map_eq_ok _ _ _).mp ran
      exact supersede_evolves services store committed recoverable intent now rest leaves outcome made

section Runs

variable (services : Submissions ω)

theorem perform_kept (store : LandingStore ω) (committed : Committed services store)
    (recoverable : Recoverable store) (op : LandingOp ω) (leaves : LeavesOne store op) :
    Committed services (op.perform services store) ∧ Evolves store (op.perform services store) := by
  unfold LandingOp.perform
  cases ran : op.commit services store with
  | error failure => exact ⟨committed, evolves_refl services store committed recoverable⟩
  | ok after =>
      simp only [LandingOp.commit, bind_eq_ok, pure_eq_ok] at ran
      obtain ⟨left, run, _, accepted, rfl⟩ := ran
      have evolves := run_evolves services store committed recoverable op leaves left run
      refine ⟨⟨accepted, evolves.keys, ?_, evolves.sound⟩, evolves⟩
      show (left.batches.map (·.id)).Nodup
      rw [evolves.ids]
      exact committed.ids

theorem row_stays (store after : LandingStore ω) (before : Committed services store)
    (committed : Committed services after) (evolves : Evolves store after)
    (record next : VerificationBatch) (listed : record ∈ store.batches)
    (following : next ∈ after.batches) (same : next.id = record.id)
    (landing : next.phase = .landing)
    (row : LandingIntent) (member : row ∈ store.rowsOf record) (kept : row.story ∉ next.withdrawn) :
    row ∈ after.intents := by
  obtain ⟨inside, _⟩ := (rowsOfBatch_mem _ _ _).mp member
  rcases evolves.intents with fewer | more
  · have valid := before.rows services store record listed (List.ne_nil_of_mem member)
    obtain ⟨old, there, sameId, sameMembers⟩ := evolves.members next following
    have one : old = record :=
      List.inj_on_of_nodup_map before.ids there listed (sameId.trans same)
    have held : row.story ∈ next.members.map (·.story) := by
      rw [← sameMembers, one]
      exact valid.member row member
    have present := committed.exact services after next following landing
      (evolves.recoverable next following landing) row.story held kept
    obtain ⟨twin, pending, story⟩ := List.mem_map.mp present
    obtain ⟨still, bound⟩ := (rowsOfBatch_mem _ _ _).mp pending
    have twinIn : twin ∈ store.rowsOf record :=
      (rowsOfBatch_mem _ _ _).mpr ⟨fewer still, same ▸ bound⟩
    obtain ⟨_, _, bindings⟩ := valid.bound
    have key : keyOf twin = keyOf row :=
      Prod.ext ((bindings twin twinIn).2.2.trans (bindings row member).2.2.symm) story
    rw [← List.inj_on_of_nodup_map before.keys (fewer still) inside key]
    exact still
  · exact more inside

/-- In every run, from a state as the commits leave it, no step takes the last row alone. -/
def LeavesEach (start : LandingStore ω) (ops : List (LandingOp ω)) : Prop :=
  ∀ before op later, ops = before ++ op :: later → LeavesOne (runLanding services start before) op

/-- The intents of every batch match its record in every committed state of a run. -/
structure BatchAuthority (start : LandingStore ω) (ops : List (LandingOp ω)) : Prop where
  states : ∀ before later, ops = before ++ later →
    ∀ record ∈ (runLanding services start before).batches,
      Authority (runLanding services start before) record
  together : ∀ before op later record next row, ops = before ++ op :: later →
    record ∈ (runLanding services start before).batches → record.phase = .landing →
    next ∈ (runLanding services start (before ++ [op])).batches → next.id = record.id →
    next.phase = .landing → row ∈ (runLanding services start before).rowsOf record →
    row.story ∉ next.withdrawn → row ∈ (runLanding services start (before ++ [op])).intents

theorem runLanding_kept (start : LandingStore ω) (ops : List (LandingOp ω))
    (committed : Committed services start) (recoverable : Recoverable start)
    (leaves : LeavesEach services start ops) :
    Committed services (runLanding services start ops) ∧
      Recoverable (runLanding services start ops) := by
  induction ops using List.reverseRecOn with
  | nil => exact ⟨committed, recoverable⟩
  | append_singleton done op further =>
      obtain ⟨valid, found⟩ := further fun before other later split =>
        leaves before other (later ++ [op]) (by rw [split, List.append_assoc]; rfl)
      have step := perform_kept services _ valid found op (leaves done op [] rfl)
      rw [runLanding, List.foldl_append]
      exact ⟨step.1, step.2.recoverable⟩

theorem LeavesEach.before (start : LandingStore ω) (before later : List (LandingOp ω))
    (leaves : LeavesEach services start (before ++ later)) : LeavesEach services start before :=
  fun earlier op rest split =>
    leaves earlier op (rest ++ later) (by rw [split, List.append_assoc]; rfl)

/-- A batch's intents match its record as long as the last of them does not go alone. -/
theorem batch_authority (start : LandingStore ω) (ops : List (LandingOp ω))
    (committed : Committed services start) (recoverable : Recoverable start)
    (leaves : LeavesEach services start ops) : BatchAuthority services start ops where
  states := by
    rintro before later rfl record listed
    obtain ⟨valid, found⟩ := runLanding_kept services start before committed recoverable
      (LeavesEach.before services start before later leaves)
    exact valid.authority services _ found record listed
  together := by
    rintro before op later record next row rfl listed _ following same landing member kept
    obtain ⟨valid, found⟩ := runLanding_kept services start before committed recoverable
      (LeavesEach.before services start before _ leaves)
    have step := perform_kept services _ valid found op (leaves before op later rfl)
    rw [runLanding, List.foldl_append] at following ⊢
    exact row_stays services _ _ valid step.1 step.2 record next listed following same landing row
      member kept

end Runs

def twoSubmissions : Submissions Unit where
  integrationValid _ _ := .ok ()
  submissionCurrent _ _ := .ok ()
  prefixOf _ _ := .ok "SH"
  admissible _ candidate := .ok (
    if candidate.storyId = "SH-1" then .ready 10 "https://github.com/acme/widgets/pull/1"
    else .ready 11 "https://github.com/acme/widgets/pull/2")
  humanPermits _ _ := .ok true
  isHumanOnly _ _ := .ok false
  completeStory _ _ _ _ := .ok ()
  deriveBlockEdges _ := .ok ()

def sixes : String := "6666666666666666666666666666666666666666"

def gatedBatch : VerificationBatch where
  id := "0123456789ab"
  project := 1
  head := "SH-1"
  baseCommit := "0000000000000000000000000000000000000000"
  branch := "storyhook/verify-batch/0123456789ab"
  tip := sixes
  pullRequest := some ⟨"https://github.com/acme/widgets/pull/9", 9⟩
  phase := .gating
  members := [
    ⟨1, "SH-1", 10, sixes, "https://github.com/acme/widgets/pull/1", 0, none, none, none, none⟩,
    ⟨2, "SH-2", 11, sixes, "https://github.com/acme/widgets/pull/2", 1, none, none, none, none⟩]
  withdrawn := []
  gate := none
  detail := none
  bisects := none
  probedPrefixes := []
  retired := false
  revision := 2
  updatedAt := "2026-09-29T00:00:00Z"

def gatedStore : LandingStore Unit := ⟨[], [gatedBatch], ()⟩

def twoCandidates : List VerificationCandidate :=
  [⟨1, "SH-1", "widgets", "/work/widgets"⟩, ⟨1, "SH-2", "widgets", "/work/widgets"⟩]

def certificate : VerifiedSubmission := ⟨sixes, sixes, "make test"⟩

def landingRow (story : StoryNo) (storyId : String) (generation : Int) (pullRequest id : String) :
    LandingIntent :=
  ⟨id, 1, story, storyId, "widgets", generation, pullRequest, "/work/widgets",
    .certified certificate, "2026-09-29T00:01:00Z",
    some ⟨"0123456789ab", "landing", "https://github.com/acme/widgets/pull/9"⟩⟩

def firstRow : LandingIntent :=
  landingRow 1 "SH-1" 10 "https://github.com/acme/widgets/pull/1" "0"

def secondRow : LandingIntent :=
  landingRow 2 "SH-2" 11 "https://github.com/acme/widgets/pull/2" "1"

def beginTwo : LandingOp Unit :=
  .beginBatch 1 gatedBatch twoCandidates certificate ⟨"certified", some sixes, "passed", 60⟩
    "2026-09-29T00:01:00Z" "landing" Nat.repr

theorem gatedStore_committed : Committed twoSubmissions gatedStore where
  accepted := rfl
  keys := by decide
  ids := by decide
  sound := by
    intro record listed
    rw [List.mem_singleton.mp listed]
    exact gatedBatch.validate_sound (by decide +kernel)

theorem gatedStore_recoverable : Recoverable gatedStore := by
  intro record listed landing
  rw [List.mem_singleton.mp listed] at landing
  cases landing

def resetTime : String := "2026-09-29T00:02:00Z"

def bothReset : List (LandingOp Unit) :=
  [beginTwo, .supersede firstRow resetTime (), .supersede secondRow resetTime ()]

/-- Two resets in turn leave a batch landing with no intent to recover it from. -/
theorem withdrawn_batch_stranded :
    Committed twoSubmissions gatedStore ∧ Recoverable gatedStore ∧
      ¬ BatchAuthority twoSubmissions gatedStore bothReset := by
  refine ⟨gatedStore_committed, gatedStore_recoverable, fun authority => ?_⟩
  have stranded : ∃ record ∈ (runLanding twoSubmissions gatedStore bothReset).batches,
      record.phase = .landing ∧
        (runLanding twoSubmissions gatedStore bothReset).rowsOf record = [] := by
    decide +kernel
  obtain ⟨record, listed, landing, none⟩ := stranded
  have found := authority.states bothReset [] (List.append_nil _).symm record listed
  exact (found.landing landing).1 none

theorem oneReset_leaves : LeavesEach twoSubmissions gatedStore
    [beginTwo, .supersede firstRow resetTime ()] := by
  intro before op later split
  match before, split with
  | [], split =>
      obtain ⟨rfl, _⟩ := List.cons.inj split
      exact True.intro
  | [_], split =>
      obtain ⟨rfl, rest⟩ := List.cons.inj split
      obtain ⟨rfl, _⟩ := List.cons.inj rest
      change AnotherLeft _ firstRow
      unfold AnotherLeft
      decide +kernel
  | _ :: _ :: _, split => simp at split

/-- After one of two resets the other member still has its intent. -/
theorem batch_authority_oneReset : BatchAuthority twoSubmissions gatedStore
    [beginTwo, .supersede firstRow resetTime ()] :=
  batch_authority twoSubmissions gatedStore _ gatedStore_committed gatedStore_recoverable
    oneReset_leaves

end Storyhook.Service
