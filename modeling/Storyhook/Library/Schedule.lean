import Mathlib.Data.Set.Finite.Basic
import Mathlib.Logic.Relation
import Mathlib.Order.WellFounded
import Mathlib.Data.Fintype.Order
import Mathlib.Tactic.Common

/-! Greedy schedules: tasks taken one after another, each the first of those that wait for nothing
more. -/

namespace Storyhook.Library.Schedule

variable {ν : Type} (task : ν → Prop) (waits : ν → ν → Prop)

/-- A task not taken yet that waits only for what has been. -/
structure Available (done : List ν) (node : ν) : Prop where
  task : task node
  pending : node ∉ done
  settled : ∀ other, waits node other → other ∈ done

/-- Taking the first available task, in the given order, until none is. -/
inductive Greedy (first : ν → ν → Prop) : List ν → List ν → Prop where
  | stop (done : List ν) (idle : ∀ node, ¬ Available task waits done node) : Greedy first done []
  | take (done rest : List ν) (node : ν) (available : Available task waits done node)
      (least : ∀ other, Available task waits done other → first node other)
      (later : Greedy first (done ++ [node]) rest) : Greedy first done (node :: rest)

def Edge (left right : ν) : Prop := task left ∧ waits left right

/-- Whether a chain of waiting leads to something that is no task, or around a cycle. -/
def Stuck (node : ν) : Prop :=
  ∃ other, Relation.ReflTransGen (Edge task waits) node other ∧
    (¬ task other ∨ Relation.TransGen (Edge task waits) other other)

theorem clear_of_settled (node : ν) (is : task node)
    (clear : ∀ other, waits node other → ¬ Stuck task waits other) : ¬ Stuck task waits node := by
  rintro ⟨last, path, bad⟩
  rcases Relation.ReflTransGen.cases_head path with rfl | ⟨next, edge, rest⟩
  · rcases bad with no | cycle
    · exact no is
    · obtain ⟨next, edge, rest⟩ := Relation.TransGen.head'_iff.mp cycle
      exact clear next edge.2 ⟨_, rest, Or.inr cycle⟩
  · exact clear next edge.2 ⟨last, rest, bad⟩

section Runs

variable (first : ν → ν → Prop) (done order : List ν) (greedy : Greedy task waits first done order)

include greedy

theorem Greedy.apart : order.Nodup ∧ ∀ node ∈ order, task node ∧ node ∉ done := by
  induction greedy with
  | stop => simp
  | take done rest node available _ _ ih =>
      obtain ⟨distinct, fresh⟩ := ih
      refine ⟨List.nodup_cons.mpr ⟨fun again => ?_, distinct⟩, ?_⟩
      · exact (fresh node again).2 (by simp)
      · intro other member
        rcases List.mem_cons.mp member with rfl | later
        · exact ⟨available.task, available.pending⟩
        · exact ⟨(fresh other later).1, fun earlier => (fresh other later).2 (by simp [earlier])⟩

theorem Greedy.chosen (earlier later : List ν) (node : ν)
    (split : order = earlier ++ node :: later) :
    Available task waits (done ++ earlier) node ∧
      ∀ other, Available task waits (done ++ earlier) other → first node other := by
  induction greedy generalizing earlier with
  | stop => simp at split
  | take done rest node available least _ ih =>
      cases earlier with
      | nil =>
          cases split
          rw [List.append_nil]
          exact ⟨available, least⟩
      | cons head tail =>
          cases split
          have settled := ih tail rfl
          rwa [List.append_assoc] at settled

theorem Greedy.idle : ∀ node, ¬ Available task waits (done ++ order) node := by
  induction greedy with
  | stop done idle => rwa [List.append_nil]
  | take done rest node _ _ _ ih => rwa [List.append_assoc] at ih

theorem Greedy.clear (before : ∀ node ∈ done, ¬ Stuck task waits node) :
    ∀ node ∈ order, ¬ Stuck task waits node := by
  induction greedy with
  | stop => simp
  | take done rest node available _ _ ih =>
      have own : ¬ Stuck task waits node := clear_of_settled task waits node available.task
        fun other waiting => before other (available.settled other waiting)
      have carried := ih (by
        intro other member
        rcases List.mem_append.mp member with earlier | last
        · exact before other earlier
        · rwa [List.mem_singleton.mp last])
      intro other member
      rcases List.mem_cons.mp member with rfl | later
      · exact own
      · exact carried other later

end Runs

theorem Greedy.listed_iff (first : ν → ν → Prop) (order : List ν)
    (finite : {node | task node}.Finite) (greedy : Greedy task waits first [] order) (node : ν) :
    node ∈ order ↔ task node ∧ ¬ Stuck task waits node := by
  constructor
  · intro listed
    exact ⟨((greedy.apart task waits first [] order).2 node listed).1,
      greedy.clear task waits first [] order (by simp) node listed⟩
  · rintro ⟨is, clear⟩
    have idle := greedy.idle task waits first [] order
    rw [List.nil_append] at idle
    let Below := {other // Relation.ReflTransGen (Edge task waits) node other}
    have tasks (other : Below) : task other.1 := by
      by_contra no
      exact clear ⟨other.1, other.2, Or.inl no⟩
    have : Finite Below := by
      have few : Set.Finite {other | Relation.ReflTransGen (Edge task waits) node other} :=
        finite.subset fun other path => tasks ⟨other, path⟩
      exact few
    let After (left right : Below) : Prop := Relation.TransGen (Edge task waits) right.1 left.1
    have : Std.Irrefl After := ⟨fun other cycle => clear ⟨other.1, other.2, Or.inr cycle⟩⟩
    have : IsTrans Below After := ⟨fun _ _ _ left right => right.trans left⟩
    have founded : WellFounded After := Finite.wellFounded_of_trans_of_irrefl After
    have all (other : Below) : other.1 ∈ order := by
      induction other using founded.induction with
      | _ other ih =>
          by_contra missing
          refine idle other.1 ⟨tasks other, missing, fun next waiting => ?_⟩
          have edge : Edge task waits other.1 next := ⟨tasks other, waiting⟩
          exact ih ⟨next, other.2.tail edge⟩ (.single edge)
    exact all ⟨node, .refl⟩

theorem Greedy.unique (first : ν → ν → Prop) (apart : ∀ left right, task left → task right →
    first left right → first right left → left = right) (done order other : List ν)
    (greedy : Greedy task waits first done order) (again : Greedy task waits first done other) :
    order = other := by
  induction greedy generalizing other with
  | stop done idle =>
      cases again with
      | stop => rfl
      | take _ rest node available => cases idle node available
  | take done rest node available least _ ih =>
      cases again with
      | stop _ idle => cases idle node available
      | take _ others second ready lowest later =>
          obtain rfl := apart node second available.task ready.task (least second ready)
            (lowest node available)
          rw [ih others later]

end Storyhook.Library.Schedule
