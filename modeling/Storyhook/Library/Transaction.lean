import Storyhook.Library.Outcome

/-! Statements that may fail after they have changed the state, and transactions that take such
changes back. -/

namespace Storyhook.Library

variable {σ ε α β ι : Type}

/-- A statement answers or fails; either way the state is what it left behind. -/
def Statement (σ ε α : Type) : Type := σ → Except ε α × σ

namespace Statement

instance : Monad (Statement σ ε) where
  pure value := fun state => (.ok value, state)
  bind first next := fun state => match first state with
    | (.ok value, middle) => next value middle
    | (.error failure, middle) => (.error failure, middle)

instance : LawfulMonad (Statement σ ε) := LawfulMonad.mk' _
  (by
    intro answer body
    funext state
    show (match body state with
      | (.ok value, middle) => (.ok value, middle)
      | (.error failure, middle) => (.error failure, middle)) = body state
    rcases body state with ⟨failure | value, middle⟩ <;> rfl)
  (fun _ _ => rfl)
  (by
    intro first second third body next last
    funext state
    show (match (match body state with
        | (.ok value, middle) => next value middle
        | (.error failure, middle) => (.error failure, middle)) with
      | (.ok value, middle) => last value middle
      | (.error failure, middle) => (.error failure, middle)) =
      (match body state with
      | (.ok value, middle) => (next value >>= last) middle
      | (.error failure, middle) => (.error failure, middle))
    rcases body state with ⟨failure | value, middle⟩ <;> rfl)

def read : Statement σ ε σ := fun state => (.ok state, state)

def write (after : σ) : Statement σ ε Unit := fun _ => (.ok (), after)

def fail (failure : ε) : Statement σ ε α := fun state => (.error failure, state)

def ofExcept (outcome : Except ε α) : Statement σ ε α := fun state => (outcome, state)

theorem bind_ok (first : Statement σ ε α) (next : α → Statement σ ε β) (start finish : σ)
    (answer : β) : (first >>= next) start = (.ok answer, finish) ↔
      ∃ value middle, first start = (.ok value, middle) ∧ next value middle =
        (.ok answer, finish) := by
  show (match first start with
    | (.ok value, middle) => next value middle
    | (.error failure, middle) => (.error failure, middle)) = (.ok answer, finish) ↔ _
  rcases first start with ⟨failure | value, middle⟩ <;> simp

theorem bind_error (first : Statement σ ε α) (next : α → Statement σ ε β) (start finish : σ)
    (failure : ε) : (first >>= next) start = (.error failure, finish) ↔
      first start = (.error failure, finish) ∨
        ∃ value middle, first start = (.ok value, middle) ∧
          next value middle = (.error failure, finish) := by
  show (match first start with
    | (.ok value, middle) => next value middle
    | (.error failure, middle) => (.error failure, middle)) = (.error failure, finish) ↔ _
  rcases first start with ⟨early | value, middle⟩ <;> simp

theorem pure_ok (value answer : α) (start finish : σ) :
    (pure value : Statement σ ε α) start = (.ok answer, finish) ↔ value = answer ∧ start = finish := by
  show ((Except.ok value : Except ε α), start) = (.ok answer, finish) ↔ _
  simp

theorem map_ok (function : α → β) (body : Statement σ ε α) (start finish : σ) (answer : β) :
    (function <$> body) start = (.ok answer, finish) ↔
      ∃ value, body start = (.ok value, finish) ∧ function value = answer := by
  rw [map_eq_pure_bind, bind_ok]
  simp only [pure_ok]
  constructor
  · rintro ⟨value, middle, ran, same, rfl⟩
    exact ⟨value, ran, same⟩
  · rintro ⟨value, ran, same⟩
    exact ⟨value, finish, ran, same, rfl⟩

theorem read_ok (answer start finish : σ) :
    (read : Statement σ ε σ) start = (.ok answer, finish) ↔ start = answer ∧ start = finish := by
  show ((Except.ok start : Except ε σ), start) = (.ok answer, finish) ↔ _
  simp

theorem read_bind (next : σ → Statement σ ε β) (start : σ) :
    (read >>= next) start = next start start := rfl

theorem write_ok (after start finish : σ) (answer : Unit) :
    (write after : Statement σ ε Unit) start = (.ok answer, finish) ↔ after = finish := by
  show ((Except.ok () : Except ε Unit), after) = (.ok answer, finish) ↔ _
  simp

theorem fail_ok (failure : ε) (start finish : σ) (answer : α) :
    (fail failure : Statement σ ε α) start ≠ (.ok answer, finish) := by
  show ((Except.error failure : Except ε α), start) ≠ (.ok answer, finish)
  simp

theorem ofExcept_ok (outcome : Except ε α) (start finish : σ) (answer : α) :
    (ofExcept outcome : Statement σ ε α) start = (.ok answer, finish) ↔
      outcome = .ok answer ∧ start = finish := by
  show (outcome, start) = (.ok answer, finish) ↔ _
  rw [Prod.mk.injEq]

theorem mapM_keeps (statement : ι → Statement σ ε β) (Inv : List β → σ → Prop) (items : List ι)
    (preserved : ∀ item ∈ items, ∀ answers before answer after, Inv answers before →
      statement item before = (.ok answer, after) → Inv (answers ++ [answer]) after)
    (earlier answers : List β) (start finish : σ) (initial : Inv earlier start)
    (ran : items.mapM statement start = (.ok answers, finish)) :
    Inv (earlier ++ answers) finish := by
  induction items generalizing earlier answers start with
  | nil =>
      rw [List.mapM_nil, pure_ok] at ran
      obtain ⟨rfl, rfl⟩ := ran
      rwa [List.append_nil]
  | cons item rest ih =>
      rw [List.mapM_cons] at ran
      simp only [bind_ok, pure_ok] at ran
      obtain ⟨answer, middle, first, later, last, others, rfl, rfl⟩ := ran
      rw [List.append_cons]
      refine ih (fun item member => preserved item (List.mem_cons_of_mem _ member)) _ later middle
        ?_ others
      exact preserved item List.mem_cons_self earlier start answer middle initial first

theorem mapM_visits (statement : ι → Statement σ ε β) (Leads : σ → σ → Prop)
    (refl : ∀ state, Leads state state)
    (trans : ∀ first second third, Leads first second → Leads second third → Leads first third)
    (leads : ∀ item before answer after, statement item before = (.ok answer, after) →
      Leads before after)
    (items : List ι) (answers : List β) (start finish : σ)
    (ran : items.mapM statement start = (.ok answers, finish)) :
    Leads start finish ∧ ∀ item ∈ items, ∃ before answer after, Leads start before ∧
      statement item before = (.ok answer, after) ∧ Leads after finish := by
  induction items generalizing answers start with
  | nil =>
      rw [List.mapM_nil, pure_ok] at ran
      obtain ⟨rfl, rfl⟩ := ran
      exact ⟨refl start, fun _ member => absurd member List.not_mem_nil⟩
  | cons item rest ih =>
      rw [List.mapM_cons] at ran
      simp only [bind_ok, pure_ok] at ran
      obtain ⟨answer, middle, first, later, last, others, rfl, rfl⟩ := ran
      have stepped := leads item start answer middle first
      obtain ⟨reached, visited⟩ := ih later middle others
      refine ⟨trans _ _ _ stepped reached, fun other member => ?_⟩
      rcases List.mem_cons.mp member with rfl | inside
      · exact ⟨start, answer, middle, refl start, first, reached⟩
      · obtain ⟨before, result, after, earlier, met, after_finish⟩ := visited other inside
        exact ⟨before, result, after, trans _ _ _ stepped earlier, met, after_finish⟩

end Statement

/-- A transaction: what its statements wrote stays just if none of them failed. -/
def transact (body : Statement σ ε α) (start : σ) : Except ε α × σ :=
  match body start with
  | (.ok answer, finish) => (.ok answer, finish)
  | (.error failure, _) => (.error failure, start)

theorem transact_ok (body : Statement σ ε α) (start finish : σ) (answer : α) :
    transact body start = (.ok answer, finish) ↔ body start = (.ok answer, finish) := by
  unfold transact
  rcases body start with ⟨failure | value, middle⟩ <;> simp

theorem transact_error (body : Statement σ ε α) (start finish : σ) (failure : ε)
    (failed : transact body start = (.error failure, finish)) : finish = start := by
  unfold transact at failed
  split at failed <;> cases failed
  rfl

end Storyhook.Library
