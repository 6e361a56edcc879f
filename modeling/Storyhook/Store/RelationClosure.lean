import Storyhook.Library.Reciprocal
import Storyhook.Store.Tables

namespace Storyhook.Store

open Storyhook.Domain
open Library Library.Outcome

/-- The far end's name for an edge. -/
def mirror (edge : RelationEdge) : Option RelationEdge :=
  (inverseRelation edge.relation).map fun inverse => ⟨edge.otherNo, inverse, edge.storyNo⟩

/-- The edges the read model's snapshots claim. -/
def ledger (db : Database) : Set RelationEdge :=
  {edge | StoredClaim db edge.storyNo ⟨edge.relation, edge.otherNo⟩}

theorem mirror_involutive (edge back : RelationEdge) (mirrored : mirror edge = some back) :
    mirror back = some edge := by
  obtain ⟨inverse, inverted, rfl⟩ := Option.map_eq_some_iff.mp mirrored
  rw [mirror, inverseRelation_involutive _ _ inverted]
  rfl

/-- Whether the relations table holds the edges the snapshots claim, and their mirror images, and no
other. -/
def RelationsClosed (db : Database) : Prop :=
  ∀ edge : RelationEdge, edge ∈ db.relations.rows ↔ edge ∈ Reciprocal.closure mirror (ledger db)

theorem mirror_edge (story other : StoryNo) (relation inverse : String)
    (inverted : inverseRelation relation = some inverse) :
    mirror ⟨story, relation, other⟩ = some ⟨other, inverse, story⟩ := by
  rw [mirror, inverted]
  rfl

theorem mem_closure_ledger (db : Database) (story other : StoryNo) (relation inverse : String)
    (inverted : inverseRelation relation = some inverse) :
    RelationEdge.mk story relation other ∈ Reciprocal.closure mirror (ledger db) ↔
      StoredClaim db story ⟨relation, other⟩ ∨ StoredClaim db other ⟨inverse, story⟩ := by
  have back := mirror_edge other story inverse relation (inverseRelation_involutive _ _ inverted)
  refine or_congr Iff.rfl ?_
  constructor
  · rintro ⟨origin, inside, mirrored⟩
    have same := mirror_involutive origin _ mirrored
    rw [mirror_edge story other relation inverse inverted, Option.some.injEq] at same
    rwa [← same] at inside
  · exact fun claim => ⟨_, claim, back⟩

section Put

variable (db after : Database) (story : StoryNo) (snapshot : StorySnapshot) (head : Nat)
  (put : Put db after story snapshot head) (whole : RelationsClosed db)

include put whole

theorem Put.closed_own (other : StoryNo) (relation inverse : String)
    (inverted : inverseRelation relation = some inverse) :
    RelationEdge.mk story relation other ∈ after.relations.rows ↔
      RelationEdge.mk story relation other ∈ Reciprocal.closure mirror (ledger after) := by
  rw [put.own relation inverse other inverted, mem_closure_ledger after story other relation inverse
    inverted, Put.stored_own db after story snapshot head put]
  refine or_congr_right ⟨And.right, fun claim => ⟨?_, claim⟩⟩
  by_cases same : story = other
  · subst same
    have listed := (Put.stored_own db after story snapshot head put _).mp claim
    exact absurd rfl (after.relations.apart _ (put.claimed _ listed))
  · rw [whole, mem_closure_ledger db story other relation inverse inverted]
    exact Or.inr ((Put.stored_elsewhere db after story snapshot head put other same _).mp claim)

theorem Put.unknown (edge : RelationEdge) (unknown : inverseRelation edge.relation = none) :
    edge ∉ Reciprocal.closure mirror (ledger after) := by
  rintro (claim | ⟨origin, -, mirrored⟩)
  · have row : edge ∈ after.relations.rows ∨ edge ∈ db.relations.rows := by
      by_cases own : story = edge.storyNo
      · subst own
        exact Or.inl (put.claimed _ ((Put.stored_own db after _ snapshot head put _).mp claim))
      · exact Or.inr ((whole edge).mpr
          (Or.inl ((Put.stored_elsewhere db after story snapshot head put _ own _).mp claim)))
    rcases row with held | held
    · obtain ⟨inverse, inverted, -⟩ := after.relations.mirrored edge held
      rw [unknown] at inverted
      cases inverted
    · obtain ⟨inverse, inverted, -⟩ := db.relations.mirrored edge held
      rw [unknown] at inverted
      cases inverted
  · have back := mirror_involutive origin edge mirrored
    rw [mirror, unknown] at back
    cases back

theorem Put.closed : RelationsClosed after := by
  rintro ⟨near, relation, far⟩
  cases inverted : inverseRelation relation with
  | none =>
      refine iff_of_false ?_ (Put.unknown db after story snapshot head put whole _ inverted)
      intro held
      obtain ⟨inverse, known, -⟩ := after.relations.mirrored _ held
      rw [inverted] at known
      cases known
  | some inverse =>
      have own := Put.closed_own db after story snapshot head put whole
      by_cases ours : near = story
      · subst ours
        exact own far relation inverse inverted
      · by_cases toward : far = story
        · subst toward
          rw [after.relations.mem_mirror near far relation inverse inverted,
            own near inverse relation (inverseRelation_involutive _ _ inverted),
            Reciprocal.mem_closure_mirror mirror mirror_involutive _ _ _
              (mirror_edge near far relation inverse inverted)]
        · rw [put.elsewhere _ ours toward, whole,
            mem_closure_ledger db near far relation inverse inverted,
            mem_closure_ledger after near far relation inverse inverted,
            Put.stored_elsewhere db after story snapshot head put near (Ne.symm ours),
            Put.stored_elsewhere db after story snapshot head put far (Ne.symm toward)]

end Put

/-- Writes snapshots one after another, each with the head it was folded at. -/
def putStories (db : Database) (puts : List (StorySnapshot × Nat)) : Except AppError Database :=
  puts.foldlM (fun db put => putStory db put.1 put.2) db

/-- A project's tables before any story has been written to the read model. -/
def withoutStories (project : Database) : Database :=
  { project with stories := ∅, relations := .empty }

theorem withoutStories_closed (project : Database) : RelationsClosed (withoutStories project) := by
  intro edge
  refine iff_of_false Std.TreeSet.not_mem_emptyc ?_
  rintro (⟨row, stored, -⟩ | ⟨origin, ⟨row, stored, -⟩, -⟩) <;> cases stored

theorem putStories_closed (project after : Database) (puts : List (StorySnapshot × Nat))
    (ran : putStories (withoutStories project) puts = .ok after) :
    RelationsClosed after ∧ after.idPrefix = project.idPrefix := by
  refine foldlM_ok _ (fun _ db => RelationsClosed db ∧ db.idPrefix =
    project.idPrefix) puts ?_ _ after
    ⟨withoutStories_closed project, rfl⟩ ran
  intro done put rest before next _ holds written
  obtain ⟨story, -, change⟩ := putStory_put before next put.1 put.2 written
  exact ⟨change.closed before next story put.1 put.2 holds.1, change.idPrefix.trans holds.2⟩

theorem ledger_congr (left right : Database) (idPrefix : left.idPrefix = right.idPrefix)
    (same : ∀ no : StoryNo,
      (left.stories[no]?).map (·.snapshot) = (right.stories[no]?).map (·.snapshot)) :
    ledger left = ledger right := by
  ext edge
  have snapshots := same edge.storyNo
  simp only [ledger, StoredClaim, Set.mem_ofPred_eq, idPrefix]
  cases atLeft : left.stories[edge.storyNo]? <;> cases atRight : right.stories[edge.storyNo]? <;>
    simp_all

/-- Whatever the writes and their order, the table is the symmetric closure of what the stored
snapshots claim; so two orders that leave the same snapshots leave the same table. -/
theorem relation_table_order_free (project left right : Database)
    (first second : List (StorySnapshot × Nat))
    (ranFirst : putStories (withoutStories project) first = .ok left)
    (ranSecond : putStories (withoutStories project) second = .ok right) :
    (∀ edge : RelationEdge,
      edge ∈ left.relations.rows ↔ edge ∈ Reciprocal.closure mirror (ledger left)) ∧
      ((∀ no : StoryNo,
          (left.stories[no]?).map (·.snapshot) = (right.stories[no]?).map (·.snapshot)) →
        ∀ edge : RelationEdge, edge ∈ left.relations.rows ↔ edge ∈ right.relations.rows) := by
  obtain ⟨closedLeft, prefixLeft⟩ := putStories_closed project left first ranFirst
  obtain ⟨closedRight, prefixRight⟩ := putStories_closed project right second ranSecond
  refine ⟨closedLeft, fun same edge => ?_⟩
  rw [closedLeft, closedRight, ledger_congr left right (prefixLeft.trans prefixRight.symm) same]

def relatedSnapshot (id : String) (relationships : List StoryRelation) : StorySnapshot :=
  { (default : StorySnapshot) with
    id := id
    priority := .low
    storyType := some "normal"
    relationships := relationships }

def blankProject : Database where
  idPrefix := "SH"
  states := []
  types := []
  automationsEnabled := true
  nextStoryNo := 1
  nextGlobalSeq := 1
  events := ∅
  stories := ∅
  relations := .empty

theorem half_edge_order_free : ∃ left right,
    putStories (withoutStories blankProject) [(relatedSnapshot "SH-1" [⟨"blocks", "SH-2"⟩], 1),
        (relatedSnapshot "SH-2" [], 1)] = .ok left ∧
      putStories (withoutStories blankProject) [(relatedSnapshot "SH-2" [], 1),
        (relatedSnapshot "SH-1" [⟨"blocks", "SH-2"⟩], 1)] = .ok right ∧
      ⟨2, "blocked-by", 1⟩ ∈ left.relations.rows ∧
      (∀ edge : RelationEdge,
        edge ∈ left.relations.rows ↔ edge ∈ Reciprocal.closure mirror (ledger left)) ∧
        ((∀ no : StoryNo,
            (left.stories[no]?).map (·.snapshot) = (right.stories[no]?).map (·.snapshot)) →
          ∀ edge : RelationEdge, edge ∈ left.relations.rows ↔ edge ∈ right.relations.rows) := by
  obtain ⟨left, ranFirst, held⟩ := any_ok
    (putStories (withoutStories blankProject) [(relatedSnapshot "SH-1" [⟨"blocks", "SH-2"⟩], 1),
      (relatedSnapshot "SH-2" [], 1)])
    (fun db => db.relations.rows.contains ⟨2, "blocked-by", 1⟩) (by decide +kernel)
  obtain ⟨right, ranSecond, -⟩ := any_ok
    (putStories (withoutStories blankProject) [(relatedSnapshot "SH-2" [], 1),
      (relatedSnapshot "SH-1" [⟨"blocks", "SH-2"⟩], 1)]) (fun _ => true) (by decide +kernel)
  exact ⟨left, right, ranFirst, ranSecond, held,
    relation_table_order_free blankProject left right _ _ ranFirst ranSecond⟩

end Storyhook.Store
