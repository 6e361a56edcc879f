import Mathlib.Data.List.Lex
import Storyhook.Library.DepthFirst

/-! Chains that are cut where they turn back, and which of them is preferred. -/

namespace Storyhook.Library.LongestChain

open DepthFirst
open Relation

variable {ν : Type}

/-- Whether an arc leads back to the node itself or to one that was under way when a walk entered
it. -/
def BackArc (entries : List (Entry ν)) (node other : ν) : Prop :=
  ∃ entry ∈ entries, entry.node = node ∧ other ∈ node :: entry.above

/-- A chain that ends at the latest with its first arc back. -/
inductive Cut (next : ν → List ν) (back : ν → ν → Prop) : ν → List ν → Prop
  | stop (node : ν) : Cut next back node []
  | turn (node other : ν) (arc : other ∈ next node) (turns : back node other) :
      Cut next back node [other]
  | on (node other : ν) (rest : List ν) (arc : other ∈ next node) (ahead : ¬ back node other)
      (further : Cut next back other rest) : Cut next back node (other :: rest)

def Ahead (next : ν → List ν) (back : ν → ν → Prop) (other node : ν) : Prop :=
  other ∈ next node ∧ ¬ back node other

section Chains

variable (next : ν → List ν) (back : ν → ν → Prop)

theorem Cut.isChain (node : ν) (rest : List ν) (cut : Cut next back node rest) :
    (node :: rest).IsChain fun one other => other ∈ next one := by
  induction cut with
  | stop => exact .singleton _
  | turn node other arc => exact .cons_cons arc (.singleton _)
  | on node other rest arc _ _ further => exact .cons_cons arc further

theorem Cut.of_isChain (node : ν) (rest : List ν)
    (chain : (node :: rest).IsChain fun one other => other ∈ next one ∧ ¬ back one other) :
    Cut next back node rest := by
  induction rest generalizing node with
  | nil => exact .stop node
  | cons other rest further =>
      obtain ⟨⟨arc, ahead⟩, onward⟩ := List.isChain_cons_cons.mp chain
      exact .on node other rest arc ahead (further other onward)

theorem Cut.onward (node : ν) (rest : List ν) (cut : Cut next back node rest) :
    ∀ other ∈ (node :: rest).dropLast, ReflTransGen (Ahead next back) other node := by
  induction cut with
  | stop => simp
  | turn node other =>
      intro last member
      simp only [List.dropLast_cons_cons, List.dropLast_singleton, List.mem_singleton] at member
      exact member ▸ .refl
  | on node other rest arc ahead _ further =>
      intro last member
      rw [List.dropLast_cons_cons] at member
      rcases List.mem_cons.mp member with rfl | later
      · exact .refl
      · exact (further last later).tail ⟨arc, ahead⟩

theorem Cut.nodup (acyclic : ∀ node, ¬ TransGen (Ahead next back) node node) (node : ν)
    (rest : List ν) (cut : Cut next back node rest) : (node :: rest).dropLast.Nodup := by
  induction cut with
  | stop => simp
  | turn => simp
  | on node other rest arc ahead further distinct =>
      rw [List.dropLast_cons_cons]
      refine List.nodup_cons.mpr ⟨fun again => acyclic node ?_, distinct⟩
      exact .tail' (further.onward next back other rest node again) ⟨arc, ahead⟩

end Chains

section Order

variable [Ord ν]

def Earlier (one other : ν) : Prop := compare one other = .lt

/-- Of two lists the longer one, and of two as long the one with the earlier nodes. -/
def Preferred (best other : List ν) : Prop :=
  other = best ∨ other.length < best.length ∨
    other.length = best.length ∧ List.Lex Earlier best other

theorem Preferred.cons (node : ν) (best other : List ν) (preferred : Preferred best other) :
    Preferred (node :: best) (node :: other) := by
  rcases preferred with rfl | shorter | ⟨same, later⟩
  · exact .inl rfl
  · exact .inr (.inl (Nat.succ_lt_succ shorter))
  · exact .inr (.inr ⟨congrArg Nat.succ same, .cons later⟩)

theorem Preferred.length_le (best other : List ν) (preferred : Preferred best other) :
    other.length ≤ best.length := by
  rcases preferred with rfl | shorter | ⟨same, -⟩ <;> omega

variable (next : ν → List ν) (back : ν → ν → Prop)

/-- The cut chain from a node that is preferred to all others from there. -/
structure Best (node : ν) (rest : List ν) : Prop where
  cut : Cut next back node rest
  first : ∀ other, Cut next back node other → Preferred rest other

/-- The cut chain that is preferred to all others: of those as long, the one from the last node. -/
structure Foremost (nodes : List ν) (node : ν) (rest : List ν) : Prop where
  known : node ∈ nodes
  best : Best next back node rest
  longest : ∀ other ∈ nodes, ∀ onward, Cut next back other onward → onward.length ≤ rest.length
  last : ∀ other ∈ nodes, ∀ onward, Cut next back other onward → onward.length = rest.length →
    other = node ∨ Earlier other node

variable [Std.TransOrd ν]

instance : Std.Asymm (Earlier (ν := ν)) where
  asymm one other before after := by
    rw [Earlier, Std.OrientedOrd.eq_swap, before] at after
    cases after

theorem Best.unique (node : ν) (one other : List ν) (first : Best next back node one)
    (second : Best next back node other) : one = other := by
  rcases first.first other second.cut with same | shorter | ⟨same, before⟩
  · exact same.symm
  · exact absurd (second.first one first.cut).length_le (Nat.not_le_of_lt shorter)
  · rcases second.first one first.cut with same | shorter | ⟨-, after⟩
    · exact same
    · omega
    · exact absurd after (Std.Asymm.asymm _ _ before)

theorem Foremost.unique (nodes : List ν) (node other : ν) (rest onward : List ν)
    (first : Foremost next back nodes node rest) (second : Foremost next back nodes other onward) :
    node = other ∧ rest = onward := by
  have same : onward.length = rest.length :=
    (first.longest other second.known onward second.best.cut).antisymm
      (second.longest node first.known rest first.best.cut)
  have single : node = other := by
    rcases first.last other second.known onward second.best.cut same with equal | before
    · exact equal.symm
    · rcases second.last node first.known rest first.best.cut same.symm with equal | after
      · exact equal
      · exact absurd after (Std.Asymm.asymm _ _ before)
  subst single
  exact ⟨rfl, first.best.unique next back node rest onward second.best⟩

end Order

end Storyhook.Library.LongestChain
