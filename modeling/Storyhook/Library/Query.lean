import Mathlib.Data.List.Basic
import Mathlib.Tactic.Common

/-! Computations that ask for answers under keys, apart from how the answers come about. -/

namespace Storyhook.Library

inductive Query (κ α β : Type) where
  | answer (result : β)
  | ask (key : κ) (next : Option α → Query κ α β)

namespace Query

variable {κ α β γ σ : Type}

def bind : Query κ α β → (β → Query κ α γ) → Query κ α γ
  | .answer result, next => next result
  | .ask key continuation, next => .ask key fun found => bind (continuation found) next

instance : Monad (Query κ α) where
  pure := .answer
  bind := bind

def request (key : κ) : Query κ α (Option α) := .ask key .answer

def eval (answers : κ → Option α) : Query κ α β → β
  | .answer result => result
  | .ask key next => eval answers (next (answers key))

/-- The keys asked for on a table of answers. -/
def asked (answers : κ → Option α) : Query κ α β → List κ
  | .answer _ => []
  | .ask key next => key :: asked answers (next (answers key))

/-- The result when a handler with a state of its own answers each request in turn. -/
def run (handler : κ → σ → Option α × σ) : Query κ α β → σ → β × σ
  | .answer result, state => (result, state)
  | .ask key next, state =>
      run handler (next (handler key state).1) (handler key state).2

def Yields (property : β → Prop) : Query κ α β → Prop
  | .answer result => property result
  | .ask _ next => ∀ found, Yields property (next found)

theorem bind_assoc {δ : Type} (first : Query κ α β) (second : β → Query κ α γ)
    (third : γ → Query κ α δ) :
    (first >>= second) >>= third = first >>= fun result => second result >>= third := by
  induction first with
  | answer result => rfl
  | ask key continuation ih => exact congrArg (Query.ask key) (funext ih)

@[simp] theorem eval_pure (answers : κ → Option α) (result : β) :
    eval answers (pure result) = result := rfl

@[simp] theorem eval_bind (answers : κ → Option α) (first : Query κ α β)
    (next : β → Query κ α γ) :
    eval answers (first >>= next) = eval answers (next (eval answers first)) := by
  induction first with
  | answer result => rfl
  | ask key continuation ih => exact ih (answers key)

@[simp] theorem eval_request (answers : κ → Option α) (key : κ) :
    eval answers (request key) = answers key := rfl

theorem eval_congr (query : Query κ α β) (answers others : κ → Option α)
    (agree : ∀ key ∈ query.asked answers, others key = answers key) :
    query.eval others = query.eval answers ∧ query.asked others = query.asked answers := by
  induction query with
  | answer result => exact ⟨rfl, rfl⟩
  | ask key next ih =>
      have same := agree key List.mem_cons_self
      have later := ih (answers key) fun other member => agree other (List.mem_cons_of_mem _ member)
      simp only [eval, asked, same]
      exact ⟨later.1, congrArg (key :: ·) later.2⟩

theorem run_eval (handler : κ → σ → Option α × σ) (answers : κ → Option α) (Inv : σ → Prop)
    (query : Query κ α β) (state : σ) (initial : Inv state)
    (answering : ∀ key ∈ query.asked answers, ∀ before, Inv before →
      (handler key before).1 = answers key ∧ Inv (handler key before).2) :
    (query.run handler state).1 = query.eval answers ∧ Inv (query.run handler state).2 := by
  induction query generalizing state with
  | answer result => exact ⟨rfl, initial⟩
  | ask key next ih =>
      obtain ⟨same, kept⟩ := answering key List.mem_cons_self state initial
      simp only [run, eval, same]
      exact ih (answers key) _ kept
        fun other member => answering other (List.mem_cons_of_mem _ member)

theorem run_relation (handler : κ → σ → Option α × σ) (Rel : σ → σ → Prop)
    (reflexive : ∀ state, Rel state state)
    (transitive : ∀ first second third, Rel first second → Rel second third → Rel first third)
    (related : ∀ key state, Rel state (handler key state).2)
    (query : Query κ α β) (state : σ) : Rel state (query.run handler state).2 := by
  induction query generalizing state with
  | answer result => exact reflexive state
  | ask key next ih => exact transitive _ _ _ (related key state) (ih _ _)

theorem yields_bind (property : γ → Prop) (first : Query κ α β) (next : β → Query κ α γ)
    (all : ∀ result, (next result).Yields property) : (first >>= next).Yields property := by
  induction first with
  | answer result => exact all result
  | ask key continuation ih => exact fun found => ih found

theorem run_yields (property : β → Prop) (handler : κ → σ → Option α × σ) (query : Query κ α β)
    (state : σ) (yields : query.Yields property) : property (query.run handler state).1 := by
  induction query generalizing state with
  | answer result => exact yields
  | ask key next ih => exact ih _ _ (yields _)

/-- As `run_eval`, for a handler known to answer like the table only where its final state is
clear of some incident that never clears again. -/
theorem run_eval_clear (handler : κ → σ → Option α × σ) (answers : κ → Option α)
    (Inv Clear : σ → Prop) (Good : κ → Prop)
    (earlier : ∀ key state, Clear (handler key state).2 → Clear state)
    (answering : ∀ key before, Inv before → Clear (handler key before).2 →
      (handler key before).1 = answers key ∧ Inv (handler key before).2 ∧ Good key)
    (query : Query κ α β) (state : σ) (initial : Inv state)
    (clear : Clear (query.run handler state).2) :
    (query.run handler state).1 = query.eval answers ∧ Inv (query.run handler state).2 ∧
      ∀ key ∈ query.asked answers, Good key := by
  induction query generalizing state with
  | answer result => exact ⟨rfl, initial, by simp [asked]⟩
  | ask key next ih =>
      have before := run_relation handler (fun first last => Clear last → Clear first)
        (fun _ => id) (fun _ _ _ first second => first ∘ second) earlier
        (next (handler key state).1) (handler key state).2 clear
      obtain ⟨same, kept, good⟩ := answering key state initial before
      have later := ih (handler key state).1 (handler key state).2 kept clear
      rw [same] at later
      simp only [run, eval, asked, same]
      refine ⟨later.1, later.2.1, ?_⟩
      intro other member
      rcases List.mem_cons.mp member with rfl | follows
      · exact good
      · exact later.2.2 other follows

theorem eval_unique (query : Query κ α β) (answers others : κ → Option α)
    (First Second : κ → Option α → Prop)
    (unique : ∀ key left right, First key left → Second key right → left = right)
    (first : ∀ key ∈ query.asked answers, First key (answers key))
    (second : ∀ key ∈ query.asked others, Second key (others key)) :
    query.eval answers = query.eval others := by
  induction query with
  | answer result => rfl
  | ask key next ih =>
      have same := unique key _ _ (first key List.mem_cons_self) (second key List.mem_cons_self)
      simp only [eval, same]
      refine ih (others key) ?_ ?_
      · intro other member
        refine first other (List.mem_cons_of_mem _ ?_)
        rwa [same]
      · exact fun other member => second other (List.mem_cons_of_mem _ member)

end Query

end Storyhook.Library
