import Storyhook.Library.Equations
import Storyhook.Library.Fuel

/-! Memoized recursion over keys whose values are computed from each other's. A set of the keys
under way guards it: a key asked for while its own value is being computed gets a provisional
answer, which no memo records but which values under way may be computed from. -/

namespace Storyhook.Library.MemoSolve

open Equations

variable {κ α : Type} [Ord κ] [DecidableEq κ]

/-- The memo, and whether the guard has ever answered. -/
structure Pass (κ α : Type) [Ord κ] where
  memo : Std.TreeMap κ α
  guarded : Bool

def Pass.start : Pass κ α := ⟨∅, false⟩

def solve (tasks : κ → Option (Task κ α)) : Nat → List κ → κ → Pass κ α → Option α × Pass κ α
  | 0, _, _, pass => (none, pass)
  | fuel + 1, visiting, key, pass =>
      match pass.memo[key]? with
      | some known => (some known, pass)
      | none =>
          match tasks key with
          | none => (none, pass)
          | some task =>
              if key ∈ visiting then
                (some task.provisional, { pass with guarded := true })
              else
                let (value, after) := task.body.run (solve tasks fuel (key :: visiting)) pass
                (some value, { after with memo := after.memo.insert key value })

def solveAll (tasks : κ → Option (Task κ α)) (fuel : Nat) (order : List κ) (pass : Pass κ α) :
    Pass κ α :=
  order.foldl (fun pass key => (solve tasks fuel [] key pass).2) pass

/-- The list has every key with a task. -/
def Complete (tasks : κ → Option (Task κ α)) (keys : List κ) : Prop :=
  ∀ key task, tasks key = some task → key ∈ keys

theorem solve_guarded (tasks : κ → Option (Task κ α)) (fuel : Nat) (visiting : List κ)
    (key : κ) (pass : Pass κ α) :
    pass.guarded = true → (solve tasks fuel visiting key pass).2.guarded = true := by
  induction fuel generalizing visiting key pass with
  | zero => exact id
  | succ fuel ih =>
      unfold solve
      split
      · exact id
      · split
        · exact id
        · next task _ =>
            split
            · exact fun _ => rfl
            · exact Query.run_relation (solve tasks fuel (key :: visiting))
                (fun before after => before.guarded = true → after.guarded = true)
                (fun _ => id) (fun _ _ _ first second => second ∘ first)
                (fun other state => ih (key :: visiting) other state) task.body pass

variable [Std.TransOrd κ]

theorem solve_keeps (tasks : κ → Option (Task κ α)) (fuel : Nat) (visiting : List κ)
    (key other : κ) (pass : Pass κ α) (known : other ∈ pass.memo) :
    other ∈ (solve tasks fuel visiting key pass).2.memo := by
  induction fuel generalizing visiting key pass with
  | zero => exact known
  | succ fuel ih =>
      unfold solve
      split
      · exact known
      · split
        · exact known
        · next task _ =>
            split
            · exact known
            · have kept := Query.run_relation (solve tasks fuel (key :: visiting))
                (fun before after => other ∈ before.memo → other ∈ after.memo)
                (fun _ => id) (fun _ _ _ first second => second ∘ first)
                (fun asked state => ih (key :: visiting) asked state) task.body pass known
              exact Std.TreeMap.mem_insert.mpr (Or.inr kept)

theorem solve_memoizes (tasks : κ → Option (Task κ α)) (fuel : Nat) (visiting : List κ)
    (key : κ) (pass : Pass κ α) (task : Task κ α) (found : tasks key = some task)
    (outside : key ∉ visiting) :
    key ∈ (solve tasks (fuel + 1) visiting key pass).2.memo := by
  unfold solve
  split
  · next known =>
      exact Std.TreeMap.mem_iff_isSome_getElem?.mpr (by simp [known])
  · rw [found]
    simp only [if_neg outside]
    exact Std.TreeMap.mem_insert_self

def Pass.Holds (pass : Pass κ α) (property : α → Prop) : Prop :=
  ∀ (key : κ) (value : α), pass.memo[key]? = some value → property value

theorem solve_yields [Std.LawfulEqOrd κ] (tasks : κ → Option (Task κ α)) (property : α → Prop)
    (bodies : ∀ key task, tasks key = some task → task.body.Yields property) (fuel : Nat)
    (visiting : List κ) (key : κ) (pass : Pass κ α) :
    pass.Holds property → (solve tasks fuel visiting key pass).2.Holds property := by
  induction fuel generalizing visiting key pass with
  | zero => exact id
  | succ fuel ih =>
      unfold solve
      split
      · exact id
      · split
        · exact id
        · next task found =>
            split
            · exact id
            · intro before other value known
              have later := Query.run_relation (solve tasks fuel (key :: visiting))
                (fun first last => first.Holds property → last.Holds property)
                (fun _ => id) (fun _ _ _ one two => two ∘ one)
                (fun asked state => ih (key :: visiting) asked state) task.body pass before
              rw [Std.TreeMap.getElem?_insert] at known
              split at known
              · cases known
                exact Query.run_yields property _ task.body pass (bodies key task found)
              · exact later other value known

def AllSolved (tasks : κ → Option (Task κ α)) (pass : Pass κ α) : Prop :=
  ∀ key value, pass.memo[key]? = some value → Solved tasks key value

omit [Std.TransOrd κ] in
theorem solve_missing (tasks : κ → Option (Task κ α)) (keys : List κ) (fuel : Nat)
    (visiting : List κ) (key : κ) (pass : Pass κ α) (room : Room keys fuel visiting)
    (inv : AllSolved tasks pass) (missing : tasks key = none) :
    solve tasks fuel visiting key pass = (none, pass) := by
  cases fuel with
  | zero => exact (Room.positive keys visiting room).elim
  | succ fuel =>
      unfold solve
      split
      · next value known =>
          obtain ⟨height, solved⟩ := inv key value known
          exact absurd missing (solvedIn_task tasks height key value solved)
      · rw [missing]

variable [Std.LawfulEqOrd κ]

omit [DecidableEq κ] in
theorem allSolved_insert (tasks : κ → Option (Task κ α)) (pass : Pass κ α) (key : κ) (value : α)
    (inv : AllSolved tasks pass) (solved : Solved tasks key value) :
    AllSolved tasks { pass with memo := pass.memo.insert key value } := by
  intro other found known
  rw [Std.TreeMap.getElem?_insert] at known
  split at known
  · next same =>
      rw [← Std.LawfulEqOrd.eq_of_compare same, ← Option.some.inj known]
      exact solved
  · exact inv other found known

theorem solve_solved (tasks : κ → Option (Task κ α)) (keys : List κ) (fuel : Nat)
    (visiting : List κ) (key : κ) (pass : Pass κ α) (complete : Complete tasks keys)
    (room : Room keys fuel visiting)
    (inv : AllSolved tasks pass)
    (clear : (solve tasks fuel visiting key pass).2.guarded = false) :
    (solve tasks fuel visiting key pass).1 = solution tasks key ∧
      AllSolved tasks (solve tasks fuel visiting key pass).2 ∧ Settled tasks key := by
  induction fuel generalizing visiting key pass with
  | zero => exact (Room.positive keys visiting room).elim
  | succ fuel ih =>
      unfold solve at clear ⊢
      split at clear
      · next value known =>
          have solved := inv key value known
          exact ⟨((solution_eq_some tasks key value).mpr solved).symm, inv, Or.inr ⟨value, solved⟩⟩
      · cases found : tasks key with
          | none => exact ⟨(solution_missing tasks key found).symm, inv, Or.inl found⟩
          | some task =>
              simp only [found] at clear ⊢
              split at clear
              · cases clear
              · next outside =>
                  have entered := Room.enter keys fuel visiting key room
                    (complete key task found) outside
                  obtain ⟨same, kept, settled⟩ := Query.run_eval_clear
                    (solve tasks fuel (key :: visiting)) (solution tasks) (AllSolved tasks)
                    (fun state => state.guarded = false) (Settled tasks)
                    (fun other state calm => by
                      by_contra raised
                      have stays := solve_guarded tasks fuel (key :: visiting) other state
                        (by simpa using raised)
                      rw [stays] at calm
                      cases calm)
                    (fun other state before calm =>
                      ih (key :: visiting) other state entered before calm)
                    task.body pass inv clear
                  have solved := solved_of_settled tasks key task found settled
                  rw [if_neg outside, same, (solution_eq_some tasks key _).mpr solved]
                  exact ⟨rfl, allSolved_insert tasks _ key _ kept solved, Or.inr ⟨_, solved⟩⟩

/-- A solved key is found from any memo of solved keys, and without the guard, as long as no key
under way has a value at its height. -/
theorem solve_of_solved (tasks : κ → Option (Task κ α)) (keys : List κ) (height fuel : Nat)
    (visiting : List κ) (key : κ) (value : α) (pass : Pass κ α)
    (complete : Complete tasks keys)
    (room : Room keys fuel visiting) (inv : AllSolved tasks pass)
    (solved : SolvedIn tasks height key value)
    (above : ∀ other ∈ visiting, ∀ found, ¬ SolvedIn tasks height other found) :
    (solve tasks fuel visiting key pass).1 = some value ∧
      AllSolved tasks (solve tasks fuel visiting key pass).2 ∧
      (solve tasks fuel visiting key pass).2.guarded = pass.guarded := by
  induction height generalizing fuel visiting key value pass with
  | zero => exact solved.elim
  | succ height ih =>
      have lower (other : κ) (found : α) (early : SolvedIn tasks height other found) :=
        solvedIn_mono tasks height (height + 1) (Nat.le_succ height) other found early
      by_cases early : ∃ found, SolvedIn tasks height key found
      · obtain ⟨found, early⟩ := early
        rw [solvedIn_unique tasks (height + 1) height key value found solved early]
        exact ih fuel visiting key found pass room inv early
          fun other member result before => above other member result (lower other result before)
      · cases fuel with
        | zero => exact (Room.positive keys visiting room).elim
        | succ fuel =>
            obtain ⟨task, answers, found, rfl, answered⟩ :=
              (solvedIn_succ tasks height key value).mp solved
            unfold solve
            split
            · next known recorded =>
                have same := solved_unique tasks key known _ (inv key known recorded)
                  ⟨height + 1, solved⟩
                rw [same]
                exact ⟨rfl, inv, rfl⟩
            · have outside : key ∉ visiting := fun member => above key member _ solved
              have entered := Room.enter keys fuel visiting key room
                (complete key task found) outside
              obtain ⟨same, kept, calm⟩ := Query.run_eval (solve tasks fuel (key :: visiting))
                answers (fun state => AllSolved tasks state ∧ state.guarded = pass.guarded)
                task.body pass ⟨inv, rfl⟩ (by
                  intro other member state ⟨before, calm⟩
                  have known := answered other member
                  cases asked : answers other with
                  | none =>
                      rw [asked] at known
                      rw [solve_missing tasks keys fuel (key :: visiting) other state entered
                        before known]
                      exact ⟨rfl, before, calm⟩
                  | some result =>
                      rw [asked] at known
                      obtain ⟨same, kept, quiet⟩ := ih fuel (key :: visiting) other result state
                        entered before known (by
                          intro waiting member outcome solvedEarly
                          rcases List.mem_cons.mp member with rfl | outer
                          · exact early ⟨outcome, solvedEarly⟩
                          · exact above waiting outer outcome (lower waiting outcome solvedEarly))
                      exact ⟨same, kept, quiet.trans calm⟩)
              simp only [found, if_neg outside, same]
              exact ⟨trivial, allSolved_insert tasks _ key _ kept ⟨height + 1, solved⟩, calm⟩

section Passes

variable (tasks : κ → Option (Task κ α)) (keys : List κ) (fuel : Nat)

omit [Std.TransOrd κ] [Std.LawfulEqOrd κ] in
theorem solveAll_guarded (order : List κ) (pass : Pass κ α)
    (clear : (solveAll tasks fuel order pass).guarded = false) : pass.guarded = false := by
  induction order generalizing pass with
  | nil => exact clear
  | cons key rest ih =>
      have later := ih _ clear
      by_contra raised
      have stays := solve_guarded tasks fuel [] key pass (by simpa using raised)
      rw [stays] at later
      cases later

omit [Std.LawfulEqOrd κ] in
theorem solveAll_keeps (order : List κ) (pass : Pass κ α) (key : κ) (known : key ∈ pass.memo) :
    key ∈ (solveAll tasks fuel order pass).memo := by
  induction order generalizing pass with
  | nil => exact known
  | cons first rest ih => exact ih _ (solve_keeps tasks fuel [] first key pass known)

omit [Std.LawfulEqOrd κ] in
theorem solveAll_memoizes (order : List κ) (pass : Pass κ α) (key : κ) (task : Task κ α)
    (found : tasks key = some task) (member : key ∈ order) :
    key ∈ (solveAll tasks (fuel + 1) order pass).memo := by
  induction order generalizing pass with
  | nil => cases member
  | cons first rest ih =>
      rcases List.mem_cons.mp member with rfl | later
      · exact solveAll_keeps tasks (fuel + 1) rest _ key
          (solve_memoizes tasks fuel [] key pass task found List.not_mem_nil)
      · exact ih _ later

theorem solveAll_yields (property : α → Prop)
    (bodies : ∀ key task, tasks key = some task → task.body.Yields property) (order : List κ)
    (pass : Pass κ α) (before : pass.Holds property) :
    (solveAll tasks fuel order pass).Holds property := by
  induction order generalizing pass with
  | nil => exact before
  | cons first rest ih => exact ih _ (solve_yields tasks property bodies fuel [] first pass before)

theorem solveAll_solved (complete : Complete tasks keys) (room : Room keys fuel [])
    (order : List κ) (pass : Pass κ α) (inv : AllSolved tasks pass)
    (clear : (solveAll tasks fuel order pass).guarded = false) :
    AllSolved tasks (solveAll tasks fuel order pass) ∧ ∀ key ∈ order, Settled tasks key := by
  induction order generalizing pass with
  | nil => exact ⟨inv, by simp⟩
  | cons key rest ih =>
      have first := solveAll_guarded tasks fuel rest _ clear
      obtain ⟨-, kept, settled⟩ := solve_solved tasks keys fuel [] key pass complete room inv first
      obtain ⟨all, others⟩ := ih _ kept clear
      exact ⟨all, List.forall_mem_cons.mpr ⟨settled, others⟩⟩

theorem solveAll_of_settled (complete : Complete tasks keys) (room : Room keys fuel [])
    (order : List κ) (pass : Pass κ α) (inv : AllSolved tasks pass)
    (settled : ∀ key ∈ order, Settled tasks key) :
    AllSolved tasks (solveAll tasks fuel order pass) ∧
      (solveAll tasks fuel order pass).guarded = pass.guarded := by
  induction order generalizing pass with
  | nil => exact ⟨inv, rfl⟩
  | cons key rest ih =>
      obtain ⟨first, others⟩ := List.forall_mem_cons.mp settled
      have step : AllSolved tasks (solve tasks fuel [] key pass).2 ∧
          (solve tasks fuel [] key pass).2.guarded = pass.guarded := by
        rcases first with missing | ⟨value, height, solved⟩
        · rw [solve_missing tasks keys fuel [] key pass room inv missing]
          exact ⟨inv, rfl⟩
        · exact (solve_of_solved tasks keys height fuel [] key value pass complete room inv solved
            (by simp)).2
      obtain ⟨all, calm⟩ := ih _ step.1 others
      exact ⟨all, calm.trans step.2⟩

omit [Std.LawfulEqOrd κ] [DecidableEq κ] in
theorem allSolved_start : AllSolved tasks (Pass.start : Pass κ α) := by
  intro key value known
  simp [Pass.start] at known

theorem guard_silent_iff (complete : Complete tasks keys) (room : Room keys fuel [])
    (order : List κ) :
    (solveAll tasks fuel order .start).guarded = false ↔ ∀ key ∈ order, Settled tasks key := by
  constructor
  · exact fun clear => (solveAll_solved tasks keys fuel complete room order .start
      (allSolved_start tasks) clear).2
  · exact fun settled => (solveAll_of_settled tasks keys fuel complete room order .start
      (allSolved_start tasks) settled).2

theorem memo_eq_solution (complete : Complete tasks keys) (room : Room keys (fuel + 1) [])
    (order : List κ) (covered : ∀ key ∈ keys, key ∈ order)
    (settled : ∀ key ∈ order, Settled tasks key) (key : κ) :
    (solveAll tasks (fuel + 1) order .start).memo[key]? = solution tasks key := by
  obtain ⟨all, -⟩ := solveAll_of_settled tasks keys (fuel + 1) complete room order .start
    (allSolved_start tasks) settled
  cases known : (solveAll tasks (fuel + 1) order .start).memo[key]? with
  | some value => exact ((solution_eq_some tasks key value).mpr (all key value known)).symm
  | none =>
      cases found : tasks key with
      | none => exact (solution_missing tasks key found).symm
      | some task =>
          have member := solveAll_memoizes tasks fuel order .start key task found
            (covered key (complete key task found))
          rw [Std.TreeMap.mem_iff_isSome_getElem?, known] at member
          cases member

end Passes

end Storyhook.Library.MemoSolve
