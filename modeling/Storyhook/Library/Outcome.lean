import Mathlib.Tactic.Common

namespace Storyhook.Library.Outcome

variable {ε α β σ ι : Type}

theorem bind_eq_ok (first : Except ε α) (next : α → Except ε β) (result : β) :
    first >>= next = .ok result ↔ ∃ value, first = .ok value ∧ next value = .ok result := by
  cases first with
  | error failure => simp [bind, Except.bind]
  | ok value => simp [bind, Except.bind]

theorem pure_eq_ok (value result : α) :
    (pure value : Except ε α) = .ok result ↔ value = result := by
  simp [pure, Except.pure]

theorem map_eq_ok (change : α → β) (outcome : Except ε α) (result : β) :
    outcome.map change = .ok result ↔ ∃ value, outcome = .ok value ∧ change value = result := by
  cases outcome <;> simp [Except.map]

theorem toOption_some (outcome : Except ε α) (value : α) :
    outcome.toOption = some value ↔ outcome = .ok value := by
  cases outcome <;> simp [Except.toOption]

def refuse (condition : Bool) (failure : ε) : Except ε Unit :=
  if condition then .error failure else .ok ()

theorem refuse_ok (condition : Bool) (failure : ε) (done : Unit) :
    refuse condition failure = .ok done ↔ condition = false := by
  cases condition <;> simp [refuse]

def demand (value : Option α) (failure : ε) : Except ε α :=
  match value with
  | some found => .ok found
  | none => .error failure

theorem demand_ok (value : Option α) (failure : ε) (found : α) :
    demand value failure = .ok found ↔ value = some found := by
  cases value <;> simp [demand]

theorem any_ok (outcome : Except ε α) (check : α → Bool)
    (passed : outcome.toOption.any check = true) :
    ∃ value, outcome = .ok value ∧ check value = true := by
  cases outcome with
  | error failure => cases passed
  | ok value => exact ⟨value, rfl, passed⟩

theorem forM_ok (check : ι → Except ε PUnit) (items : List ι)
    (ran : items.forM check = .ok ()) : ∀ item ∈ items, check item = .ok () := by
  induction items with
  | nil => exact fun item none => by cases none
  | cons item rest further =>
      rw [List.forM_eq_forM, List.forM_cons, bind_eq_ok] at ran
      obtain ⟨done, first, others⟩ := ran
      exact List.forall_mem_cons.mpr ⟨first, further others⟩

theorem forM_of_ok (check : ι → Except ε PUnit) (items : List ι)
    (passes : ∀ item ∈ items, check item = .ok ()) : items.forM check = .ok () := by
  induction items with
  | nil => rfl
  | cons item rest further =>
      obtain ⟨first, others⟩ := List.forall_mem_cons.mp passes
      rw [List.forM_eq_forM, List.forM_cons, bind_eq_ok]
      exact ⟨(), first, further others⟩

theorem mapM_ok (check : α → Except ε β) (items : List α) (results : List β)
    (ran : items.mapM check = .ok results) :
    ∀ result ∈ results, ∃ item ∈ items, check item = .ok result := by
  induction items generalizing results with
  | nil =>
      rw [List.mapM_nil, pure_eq_ok] at ran
      subst ran
      simp
  | cons item rest ih =>
      simp only [List.mapM_cons, bind_eq_ok, pure_eq_ok] at ran
      obtain ⟨first, checked, others, later, rfl⟩ := ran
      rw [List.forall_mem_cons]
      refine ⟨⟨item, List.mem_cons_self, checked⟩, ?_⟩
      intro result member
      obtain ⟨source, inside, found⟩ := ih others later result member
      exact ⟨source, List.mem_cons_of_mem _ inside, found⟩

theorem mapM_map_results {γ : Type} (make : α → Except ε β) (change : β → γ) (items : List α) :
    items.mapM (fun item => (make item).map change) = (items.mapM make).map (List.map change) := by
  induction items with
  | nil => rfl
  | cons item rest ih =>
      rw [List.mapM_cons, List.mapM_cons, ih]
      cases make item with
      | error failure => rfl
      | ok value => cases rest.mapM make <;> rfl

theorem mapM_keeps {γ : Type} (make : α → Except ε β) (name : α → γ) (shown : β → γ)
    (keeps : ∀ item result, make item = .ok result → shown result = name item) (items : List α)
    (results : List β) (ran : items.mapM make = .ok results) :
    results.map shown = items.map name := by
  induction items generalizing results with
  | nil =>
      rw [List.mapM_nil, pure_eq_ok] at ran
      subst ran
      rfl
  | cons item rest ih =>
      simp only [List.mapM_cons, bind_eq_ok, pure_eq_ok] at ran
      obtain ⟨first, made, others, later, rfl⟩ := ran
      rw [List.map_cons, List.map_cons, keeps item first made, ih others later]

theorem mapM_length (check : α → Except ε β) (items : List α) (results : List β)
    (ran : items.mapM check = .ok results) : results.length = items.length := by
  induction items generalizing results with
  | nil =>
      rw [List.mapM_nil, pure_eq_ok] at ran
      rw [← ran]
      rfl
  | cons item rest further =>
      simp only [List.mapM_cons, bind_eq_ok, pure_eq_ok] at ran
      obtain ⟨first, _, others, later, rfl⟩ := ran
      rw [List.length_cons, List.length_cons, further others later]

theorem foldlM_ok (step : σ → ι → Except ε σ) (Inv : List ι → σ → Prop) (items : List ι)
    (preserved : ∀ done item rest before after, items = done ++ item :: rest →
      Inv done before → step before item = .ok after → Inv (done ++ [item]) after)
    (start finish : σ) (initial : Inv [] start) (ran : items.foldlM step start = .ok finish) :
    Inv items finish := by
  suffices carried : ∀ rest done before, items = done ++ rest → Inv done before →
      rest.foldlM step before = .ok finish → Inv items finish from
    carried items [] start rfl initial ran
  intro rest
  induction rest with
  | nil =>
      intro done before split holds ended
      rw [List.foldlM_nil, pure_eq_ok] at ended
      rwa [split, List.append_nil, ← ended]
  | cons item rest ih =>
      intro done before split holds ended
      rw [List.foldlM_cons, bind_eq_ok] at ended
      obtain ⟨middle, stepped, later⟩ := ended
      apply ih (done ++ [item]) middle (by simp [split]) _ later
      exact preserved done item rest before middle split holds stepped

theorem foldlM_total (step : σ → ι → Option σ) (Inv : List ι → σ → Prop) (items : List ι)
    (steps : ∀ done item rest before, items = done ++ item :: rest → Inv done before →
      ∃ after, step before item = some after ∧ Inv (done ++ [item]) after)
    (start : σ) (initial : Inv [] start) :
    ∃ finish, items.foldlM step start = some finish ∧ Inv items finish := by
  suffices carried : ∀ rest done before, items = done ++ rest → Inv done before →
      ∃ finish, rest.foldlM step before = some finish ∧ Inv items finish from
    carried items [] start rfl initial
  intro rest
  induction rest with
  | nil =>
      intro done before split holds
      rw [List.append_nil] at split
      exact ⟨before, rfl, split ▸ holds⟩
  | cons item rest ih =>
      intro done before split holds
      obtain ⟨middle, stepped, kept⟩ := steps done item rest before split holds
      obtain ⟨finish, ran, ends⟩ := ih (done ++ [item]) middle (by simp [split]) kept
      refine ⟨finish, ?_, ends⟩
      rw [List.foldlM_cons, stepped]
      exact ran

end Storyhook.Library.Outcome
