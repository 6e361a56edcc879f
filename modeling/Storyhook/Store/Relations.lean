import Storyhook.Domain.Relation
import Storyhook.Library.Outcome
import Storyhook.Store.Ids

namespace Storyhook.Store

open Storyhook.Domain

structure Claim where
  relation : String
  otherNo : StoryNo
  deriving DecidableEq, Repr

instance : Ord Claim := ⟨compareLex (compareOn Claim.relation) (compareOn Claim.otherNo)⟩

instance : Std.TransOrd Claim :=
  inferInstanceAs (Std.TransCmp
    (compareLex (compareOn Claim.relation) (compareOn Claim.otherNo)))

instance : Std.LawfulEqOrd Claim where
  eq_of_compare {left right} equal := by
    have both := compareLex_eq_eq.mp equal
    have relation := Std.LawfulEqOrd.eq_of_compare (α := String) both.1
    have other := Std.LawfulEqOrd.eq_of_compare (α := Nat) both.2
    cases left
    cases right
    simp_all

/-- A row of the relations table. -/
structure RelationEdge where
  storyNo : StoryNo
  relation : String
  otherNo : StoryNo
  deriving DecidableEq, Repr

instance : Ord RelationEdge :=
  ⟨compareLex (compareOn RelationEdge.storyNo)
    (compareLex (compareOn RelationEdge.relation) (compareOn RelationEdge.otherNo))⟩

instance : Std.TransOrd RelationEdge :=
  inferInstanceAs (Std.TransCmp
    (compareLex (compareOn RelationEdge.storyNo)
      (compareLex (compareOn RelationEdge.relation) (compareOn RelationEdge.otherNo))))

instance : Std.LawfulEqOrd RelationEdge where
  eq_of_compare {left right} equal := by
    have both := compareLex_eq_eq.mp equal
    have rest := compareLex_eq_eq.mp both.2
    have story := Std.LawfulEqOrd.eq_of_compare (α := Nat) both.1
    have relation := Std.LawfulEqOrd.eq_of_compare (α := String) rest.1
    have other := Std.LawfulEqOrd.eq_of_compare (α := Nat) rest.2
    cases left
    cases right
    simp_all

/-- The relations table. Its triggers keep both directions of every edge, and a check refuses a
story related to itself. -/
structure RelationTable where
  rows : Std.TreeSet RelationEdge
  mirrored : ∀ edge ∈ rows, ∃ inverse, inverseRelation edge.relation = some inverse ∧
    RelationEdge.mk edge.otherNo inverse edge.storyNo ∈ rows
  apart : ∀ edge ∈ rows, edge.storyNo ≠ edge.otherNo

namespace RelationTable

def empty : RelationTable := ⟨∅, by simp, by simp⟩

theorem mem_pair (rows : Std.TreeSet RelationEdge) (first second edge : RelationEdge) :
    edge ∈ (rows.insert first).insert second ↔ edge = second ∨ edge = first ∨ edge ∈ rows := by
  simp only [Std.TreeSet.mem_insert, Std.LawfulEqOrd.compare_eq_iff_eq]
  exact or_congr eq_comm (or_congr eq_comm Iff.rfl)

theorem mem_unpair (rows : Std.TreeSet RelationEdge) (first second edge : RelationEdge) :
    edge ∈ (rows.erase first).erase second ↔ edge ≠ second ∧ edge ≠ first ∧ edge ∈ rows := by
  simp only [Std.TreeSet.mem_erase, ne_eq, Std.LawfulEqOrd.compare_eq_iff_eq]
  exact and_congr (not_congr eq_comm) (and_congr (not_congr eq_comm) Iff.rfl)

def insert (table : RelationTable) (edge : RelationEdge) : Except AppError RelationTable :=
  match inverted : inverseRelation edge.relation with
  | none => .error (.storage "FOREIGN KEY constraint failed")
  | some inverse =>
      if loop : edge.storyNo = edge.otherNo then
        .error (.storage "CHECK constraint failed: story_no <> other_no")
      else if edge ∈ table.rows ∨ ⟨edge.otherNo, inverse, edge.storyNo⟩ ∈ table.rows then
        .error (.storage "UNIQUE constraint failed: story_relations")
      else .ok {
        rows := (table.rows.insert edge).insert ⟨edge.otherNo, inverse, edge.storyNo⟩
        mirrored := by
          intro row member
          rcases (mem_pair _ _ _ _).mp member with rfl | rfl | older
          · exact ⟨edge.relation, inverseRelation_involutive _ _ inverted,
              (mem_pair _ _ _ _).mpr (Or.inr (Or.inl rfl))⟩
          · exact ⟨inverse, inverted, (mem_pair _ _ _ _).mpr (Or.inl rfl)⟩
          · obtain ⟨back, known, mirror⟩ := table.mirrored row older
            exact ⟨back, known, (mem_pair _ _ _ _).mpr (Or.inr (Or.inr mirror))⟩
        apart := by
          intro row member
          rcases (mem_pair _ _ _ _).mp member with rfl | rfl | older
          · exact Ne.symm loop
          · exact loop
          · exact table.apart row older }

def delete (table : RelationTable) (edge : RelationEdge) : RelationTable :=
  match inverted : inverseRelation edge.relation with
  | none => table
  | some inverse => {
      rows := (table.rows.erase edge).erase ⟨edge.otherNo, inverse, edge.storyNo⟩
      mirrored := by
        intro row member
        obtain ⟨notMirror, notEdge, older⟩ := (mem_unpair _ _ _ _).mp member
        obtain ⟨back, known, mirror⟩ := table.mirrored row older
        refine ⟨back, known, (mem_unpair _ _ _ _).mpr ⟨?_, ?_, mirror⟩⟩
        · intro same
          simp only [RelationEdge.mk.injEq] at same
          obtain ⟨other, name, story⟩ := same
          rw [name] at known
          have original := inverseRelation_involutive _ _ known
          rw [inverseRelation_involutive _ _ inverted, Option.some.injEq] at original
          apply notEdge
          cases row
          cases edge
          simp_all
        · intro same
          have other : row.otherNo = edge.storyNo := congrArg RelationEdge.storyNo same
          have name : back = edge.relation := congrArg RelationEdge.relation same
          have story : row.storyNo = edge.otherNo := congrArg RelationEdge.otherNo same
          have original := inverseRelation_involutive _ _ known
          rw [name, inverted, Option.some.injEq] at original
          apply notMirror
          cases row
          simp_all
      apart := fun row member => table.apart row ((mem_unpair _ _ _ _).mp member).2.2 }

theorem mem_mirror (table : RelationTable) (story other : StoryNo) (relation inverse : String)
    (inverted : inverseRelation relation = some inverse) :
    RelationEdge.mk story relation other ∈ table.rows ↔
      RelationEdge.mk other inverse story ∈ table.rows := by
  constructor
  · intro member
    obtain ⟨back, known, mirror⟩ := table.mirrored _ member
    rw [inverted, Option.some.injEq] at known
    rwa [← known] at mirror
  · intro member
    obtain ⟨back, known, mirror⟩ := table.mirrored _ member
    rw [inverseRelation_involutive _ _ inverted, Option.some.injEq] at known
    rwa [← known] at mirror

theorem insert_ok (table after : RelationTable) (edge : RelationEdge)
    (inserted : table.insert edge = .ok after) :
    ∃ inverse, inverseRelation edge.relation = some inverse ∧ edge.storyNo ≠ edge.otherNo ∧
      ∀ row, row ∈ after.rows ↔
        row = ⟨edge.otherNo, inverse, edge.storyNo⟩ ∨ row = edge ∨ row ∈ table.rows := by
  unfold insert at inserted
  split at inserted
  · cases inserted
  · next inverse inverted =>
      split at inserted
      · cases inserted
      · next apart =>
          split at inserted
          · cases inserted
          · cases inserted
            exact ⟨inverse, inverted, apart, fun row => mem_pair _ _ _ _⟩

theorem insert_own (table after : RelationTable) (story : StoryNo) (claim other : Claim)
    (inserted : table.insert ⟨story, claim.relation, claim.otherNo⟩ = .ok after) :
    RelationEdge.mk story other.relation other.otherNo ∈ after.rows ↔
      other = claim ∨ RelationEdge.mk story other.relation other.otherNo ∈ table.rows := by
  obtain ⟨inverse, -, apart, rows⟩ := insert_ok table after _ inserted
  rw [rows]
  constructor
  · rintro (mirror | same | older)
    · exact absurd (congrArg RelationEdge.storyNo mirror) apart
    · left
      cases other
      cases claim
      simp_all
    · exact Or.inr older
  · rintro (rfl | older)
    · exact Or.inr (Or.inl rfl)
    · exact Or.inr (Or.inr older)

theorem insert_elsewhere (table after : RelationTable) (story : StoryNo) (claim : Claim)
    (inserted : table.insert ⟨story, claim.relation, claim.otherNo⟩ = .ok after)
    (row : RelationEdge) (notOwn : row.storyNo ≠ story) (notOther : row.otherNo ≠ story) :
    row ∈ after.rows ↔ row ∈ table.rows := by
  obtain ⟨inverse, -, -, rows⟩ := insert_ok table after _ inserted
  rw [rows]
  constructor
  · rintro (rfl | rfl | older)
    · exact absurd rfl notOther
    · exact absurd rfl notOwn
    · exact older
  · exact fun older => Or.inr (Or.inr older)

theorem delete_own (table : RelationTable) (story : StoryNo) (claim other : Claim) :
    RelationEdge.mk story other.relation other.otherNo ∈
        (table.delete ⟨story, claim.relation, claim.otherNo⟩).rows ↔
      other ≠ claim ∧ RelationEdge.mk story other.relation other.otherNo ∈ table.rows := by
  unfold delete
  split
  · next unknown =>
      constructor
      · intro member
        refine ⟨?_, member⟩
        rintro rfl
        obtain ⟨back, known, -⟩ := table.mirrored _ member
        rw [unknown] at known
        cases known
      · exact fun kept => kept.2
  · next inverse inverted =>
      rw [mem_unpair]
      constructor
      · rintro ⟨-, different, older⟩
        refine ⟨?_, older⟩
        rintro rfl
        exact different rfl
      · rintro ⟨different, older⟩
        refine ⟨?_, ?_, older⟩
        · intro mirror
          have own := congrArg RelationEdge.otherNo mirror
          exact table.apart _ older own.symm
        · intro same
          apply different
          cases other
          cases claim
          simp_all

theorem delete_elsewhere (table : RelationTable) (story : StoryNo) (claim : Claim)
    (row : RelationEdge) (notOwn : row.storyNo ≠ story) (notOther : row.otherNo ≠ story) :
    row ∈ (table.delete ⟨story, claim.relation, claim.otherNo⟩).rows ↔ row ∈ table.rows := by
  unfold delete
  split
  · exact Iff.rfl
  · rw [mem_unpair]
    constructor
    · exact fun kept => kept.2.2
    · intro older
      refine ⟨?_, ?_, older⟩
      · rintro rfl
        exact notOther rfl
      · rintro rfl
        exact notOwn rfl

def relationsFrom (table : RelationTable) (story : StoryNo) : List Claim :=
  (table.rows.toList.filter (·.storyNo == story)).map fun row => ⟨row.relation, row.otherNo⟩

def relationsTo (table : RelationTable) (story : StoryNo) : List RelationEdge :=
  table.rows.toList.filter (·.otherNo == story)

theorem mem_relationsFrom (table : RelationTable) (story : StoryNo) (claim : Claim) :
    claim ∈ table.relationsFrom story ↔
      RelationEdge.mk story claim.relation claim.otherNo ∈ table.rows := by
  unfold relationsFrom
  simp only [List.mem_map, List.mem_filter, Std.TreeSet.mem_toList, beq_iff_eq]
  constructor
  · rintro ⟨row, ⟨member, rfl⟩, rfl⟩
    exact member
  · exact fun member => ⟨_, ⟨member, rfl⟩, rfl⟩

def deleteClaims (table : RelationTable) (story : StoryNo) (claims : List Claim) : RelationTable :=
  claims.foldl (fun table claim => table.delete ⟨story, claim.relation, claim.otherNo⟩) table

def insertClaims (table : RelationTable) (story : StoryNo) (claims : List Claim) :
    Except AppError RelationTable :=
  claims.foldlM (fun table claim => table.insert ⟨story, claim.relation, claim.otherNo⟩) table

theorem deleteClaims_own (table : RelationTable) (story : StoryNo) (claims : List Claim)
    (other : Claim) :
    RelationEdge.mk story other.relation other.otherNo ∈ (table.deleteClaims story claims).rows ↔
      other ∉ claims ∧ RelationEdge.mk story other.relation other.otherNo ∈ table.rows := by
  unfold deleteClaims
  induction claims generalizing table with
  | nil => simp
  | cons claim rest ih =>
      rw [List.foldl_cons, ih, delete_own, List.mem_cons, not_or, ← and_assoc,
        @and_comm _ (other ≠ claim)]

theorem deleteClaims_elsewhere (table : RelationTable) (story : StoryNo) (claims : List Claim)
    (row : RelationEdge) (notOwn : row.storyNo ≠ story) (notOther : row.otherNo ≠ story) :
    row ∈ (table.deleteClaims story claims).rows ↔ row ∈ table.rows := by
  unfold deleteClaims
  induction claims generalizing table with
  | nil => exact Iff.rfl
  | cons claim rest ih =>
      rw [List.foldl_cons, ih, delete_elsewhere table story claim row notOwn notOther]

theorem insertClaims_own (table after : RelationTable) (story : StoryNo) (claims : List Claim)
    (inserted : table.insertClaims story claims = .ok after) (other : Claim) :
    RelationEdge.mk story other.relation other.otherNo ∈ after.rows ↔
      other ∈ claims ∨ RelationEdge.mk story other.relation other.otherNo ∈ table.rows := by
  unfold insertClaims at inserted
  induction claims generalizing table with
  | nil =>
      rw [List.foldlM_nil] at inserted
      cases inserted
      simp
  | cons claim rest ih =>
      rw [List.foldlM_cons] at inserted
      obtain ⟨middle, first, later⟩ := (Library.Outcome.bind_eq_ok _ _ _).mp inserted
      rw [ih middle later, insert_own table middle story claim other first, List.mem_cons,
        or_left_comm, or_assoc]

theorem insertClaims_elsewhere (table after : RelationTable) (story : StoryNo)
    (claims : List Claim) (inserted : table.insertClaims story claims = .ok after)
    (row : RelationEdge) (notOwn : row.storyNo ≠ story) (notOther : row.otherNo ≠ story) :
    row ∈ after.rows ↔ row ∈ table.rows := by
  unfold insertClaims at inserted
  induction claims generalizing table with
  | nil =>
      rw [List.foldlM_nil] at inserted
      cases inserted
      exact Iff.rfl
  | cons claim rest ih =>
      rw [List.foldlM_cons] at inserted
      obtain ⟨middle, first, later⟩ := (Library.Outcome.bind_eq_ok _ _ _).mp inserted
      rw [ih middle later, insert_elsewhere table middle story claim first row notOwn notOther]

def purge (table : RelationTable) (story : StoryNo) : RelationTable where
  rows := table.rows.filter fun row => row.storyNo != story && row.otherNo != story
  mirrored := by
    intro row member
    rw [Std.TreeSet.mem_filter] at member
    obtain ⟨inside, kept⟩ := member
    obtain ⟨inverse, inverted, mirror⟩ := table.mirrored row inside
    refine ⟨inverse, inverted, Std.TreeSet.mem_filter.mpr ⟨mirror, ?_⟩⟩
    simpa [and_comm] using kept
  apart := fun row member => table.apart row (Std.TreeSet.mem_filter.mp member).1

theorem mem_purge (table : RelationTable) (story : StoryNo) (row : RelationEdge) :
    row ∈ (table.purge story).rows ↔
      row ∈ table.rows ∧ row.storyNo ≠ story ∧ row.otherNo ≠ story := by
  simp [purge, Std.TreeSet.mem_filter, and_left_comm]

end RelationTable

end Storyhook.Store
