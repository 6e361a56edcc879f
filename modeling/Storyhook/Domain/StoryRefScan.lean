import Storyhook.Domain.StoryRefLines

/-! What the scan of a commit message finds. -/

namespace Storyhook.Domain.StoryRefs

open Library Library.Text Library.Utf8 Library.AsciiScan CommentSnippet
open ConflictSmoothing (lines)

/-- An id that the scan records: where it stands, how it is spelled and what its run intends. -/
abbrev Entry (π : Type) := π × Text × ReferenceIntent

def recorded {π : Type} (entries : List (Entry π)) (references : References) : References :=
  (entries.map (·.2)).foldl Strongest.record references

theorem recorded_append {π : Type} (front back : List (Entry π)) (references : References) :
    recorded (front ++ back) references = recorded back (recorded front references) := by
  rw [recorded, List.map_append, List.foldl_append]
  rfl

section Line

variable (idPrefix line : Text)

theorem places_recorded (intent : ReferenceIntent) (places : List (Nat × Nat))
    (named : ∀ place ∈ places, ∃ id, IdAt idPrefix line place id) (references : References) :
    ∃ entries : List (Entry (Nat × Nat)),
      places.foldlM (fun references place => (slice line place.1 place.2).map fun id =>
        references.record (id, intent)) references = some (recorded entries references) ∧
      entries.map (·.1) = places ∧
      ∀ entry ∈ entries, IdAt idPrefix line entry.1 entry.2.1 ∧ entry.2.2 = intent := by
  induction places generalizing references with
  | nil => exact ⟨[], rfl, rfl, fun _ none => nomatch none⟩
  | cons place rest further =>
      obtain ⟨id, first⟩ := named place List.mem_cons_self
      obtain ⟨entries, made, same, each⟩ := further
        (fun other member => named other (List.mem_cons_of_mem _ member))
          (references.record (id, intent))
      refine ⟨(place, id, intent) :: entries, ?_, by rw [List.map_cons, same], ?_⟩
      · rw [List.foldlM_cons, first.slice]
        exact made
      · rw [List.forall_mem_cons]
        exact ⟨⟨first, rfl⟩, each⟩

theorem run_recorded (project : ProjectPrefix idPrefix) (exempt : Bool) (run : List (Nat × Nat))
    (first last : Nat × Nat) (whole : Grouping.Whole (Links JoinsLoosely idPrefix line) run first last)
    (named : ∀ place ∈ run, ∃ id, IdAt idPrefix line place id) (references : References) :
    ∃ entries : List (Entry (Nat × Nat)),
      scanRun line exempt references run = some (recorded entries references) ∧
      entries.map (·.1) = run ∧ ∀ entry ∈ entries, IdAt idPrefix line entry.1 entry.2.1 ∧
        (entry.2.2 = .claim ↔ exempt = false ∧ ClaimsAt JoinsLoosely idPrefix line entry.1) := by
  have inRun := whole.inRun _ _ _ _
  obtain ⟨intent, intended, claims⟩ : ∃ intent,
      (if exempt then some .mention else intentForRun line first.1 last.2) = some intent ∧
        (intent = .claim ↔ exempt = false ∧ Heralded line first.1 last.2) := by
    cases exempt with
    | true => exact ⟨.mention, rfl, iff_of_false nofun fun held => nomatch held.1⟩
    | false =>
        obtain ⟨id, opens⟩ := named first (List.mem_of_head? whole.head)
        obtain ⟨other, closes⟩ := named last (List.mem_of_getLast? whole.final)
        obtain ⟨front, back, split, starts, -⟩ := (slice_eq_some _ _ _ _).mp opens.slice
        obtain ⟨before, after, same, begins, stops⟩ := (slice_eq_some _ _ _ _).mp closes.slice
        have ahead := links_ordered _ _ _ _ _ (inRun last (List.mem_of_getLast? whole.final)).after
        obtain ⟨between, longer⟩ := split_order front (id ++ back) (before ++ other) after
          (by rw [← same, split, List.append_assoc])
          (by rw [starts, size_append, begins]; exact Nat.le_trans ahead (Nat.le_add_right _ _))
        obtain ⟨intent, told, claims⟩ := intentForRun_heralded front between after
        rw [← longer, ← same, starts, stops] at told claims
        exact ⟨intent, told, claims.trans (by simp)⟩
  obtain ⟨entries, made, same, each⟩ := places_recorded idPrefix line intent run named references
  refine ⟨entries, ?_, same, fun entry member => ⟨(each entry member).1, ?_⟩⟩
  · unfold scanRun
    rw [whole.head, whole.final]
    cases exempt with
    | true =>
        cases intended
        exact made
    | false =>
        have own : intentForRun line first.1 last.2 = some intent := intended
        dsimp only
        rw [if_neg Bool.false_ne_true, own]
        exact made
  · have here := inRun entry.1 (same ▸ List.mem_map_of_mem member)
    rw [(each entry member).2, claims]
    refine and_congr_right fun _ => ⟨fun heralded => ⟨first, last, here, heralded⟩, ?_⟩
    rintro ⟨other, final, there, heralded⟩
    rw [here.first_unique (loose_left_unique idPrefix line project) _ _ _ _ _ there,
      here.last_unique (loose_right_unique idPrefix line project) _ _ _ _ _ there]
    exact heralded

theorem line_recorded (project : ProjectPrefix idPrefix) (exempt : Bool) (references : References) :
    ∃ entries : List (Entry (Nat × Nat)),
      scanLine idPrefix exempt references line = some (recorded entries references) ∧
      entries.map (·.1) = idsInLine idPrefix line ∧
      ∀ entry ∈ entries, IdAt idPrefix line entry.1 entry.2.1 ∧
        (entry.2.2 = .claim ↔ exempt = false ∧ ClaimsAt JoinsLoosely idPrefix line entry.1) := by
  obtain ⟨runs, cut, flat, each⟩ := Grouping.group_whole _ _ _
    (joinedOn_decides idPrefix line project)
  have named (place : Nat × Nat) (member : place ∈ runs.flatten) :
      ∃ id, IdAt idPrefix line place id :=
    (mem_idsInLine idPrefix line project place).mp (flat ▸ member)
  rw [scanLine, cut, ← flat]
  show ∃ entries : List (Entry (Nat × Nat)),
    runs.foldlM (scanRun line exempt) references = some (recorded entries references) ∧ _
  clear cut flat
  induction runs generalizing references with
  | nil => exact ⟨[], rfl, rfl, fun _ none => nomatch none⟩
  | cons run rest further =>
      rw [List.forall_mem_cons] at each
      obtain ⟨⟨first, last, whole⟩, others⟩ := each
      obtain ⟨here, made, same, told⟩ :=
        run_recorded idPrefix line project exempt run first last whole
        (fun place member => named place (List.mem_flatten.mpr ⟨run, List.mem_cons_self, member⟩))
        references
      obtain ⟨later, onward, follows, rest⟩ := further (recorded here references) others
        fun place member => named place
          (by rw [List.flatten_cons]; exact List.mem_append_right _ member)
      refine ⟨here ++ later, ?_, ?_, ?_⟩
      · rw [List.foldlM_cons, made, recorded_append]
        exact onward
      · rw [List.map_append, same, follows, List.flatten_cons]
      · exact List.forall_mem_append.mpr ⟨told, rest⟩

end Line

section Message

variable (idPrefix : Text)

/-- The ids of numbered lines in the order in which they stand. -/
structure Collects (reverted : Bool) (numbered : List (Text × Nat))
    (entries : List (Entry (Nat × Nat))) :
    Prop where
  sorted : (entries.map (·.1)).Pairwise (Prod.Lex (· < ·) (· < ·))
  found : ∀ entry ∈ entries, ∃ line place, (line, entry.1.1) ∈ numbered ∧ entry.1.2 = place.1 ∧
    IdAt idPrefix line place entry.2.1 ∧ (entry.2.2 = .claim ↔
      ¬(reverted = true ∧ entry.1.1 = 0) ∧ ClaimsAt JoinsLoosely idPrefix line place)
  complete : ∀ line number, (line, number) ∈ numbered → ∀ place id, IdAt idPrefix line place id →
    ∃ entry ∈ entries, entry.1 = (number, place.1) ∧ entry.2.1 = id ∧ (entry.2.2 = .claim ↔
      ¬(reverted = true ∧ number = 0) ∧ ClaimsAt JoinsLoosely idPrefix line place)

theorem numbered_recorded (project : ProjectPrefix idPrefix) (reverted : Bool)
    (numbered : List (Text × Nat)) (increasing : (numbered.map (·.2)).Pairwise (· < ·))
    (references : References) : ∃ entries : List (Entry (Nat × Nat)),
      numbered.foldlM (fun references entry =>
        scanLine idPrefix (reverted && entry.2 = 0) references entry.1) references =
          some (recorded entries references) ∧
      Collects idPrefix reverted numbered entries := by
  induction numbered generalizing references with
  | nil =>
      exact ⟨[], rfl, List.Pairwise.nil, (fun _ none => nomatch none), fun _ _ none => nomatch none⟩
  | cons first rest further =>
      obtain ⟨line, number⟩ := first
      rw [List.map_cons, List.pairwise_cons] at increasing
      obtain ⟨here, made, places, told⟩ := line_recorded idPrefix line project
        (reverted && number = 0) references
      obtain ⟨later, onward, collects⟩ := further increasing.2 (recorded here references)
      have exempt : ((reverted && decide (number = 0)) = false) ↔
        ¬(reverted = true ∧ number = 0) := by
        rw [← Bool.not_eq_true, Bool.and_eq_true, decide_eq_true_eq]
      simp only [exempt] at told
      obtain ⟨sorted, proper⟩ := idsFrom_sorted (bytes idPrefix) (bytes line) (size line) 0
      rw [← idsInLine, ← places] at sorted proper
      refine ⟨here.map (fun entry => ((number, entry.1.1), entry.2)) ++ later, ?_, ?_, ?_, ?_⟩
      · have same : recorded (here.map fun entry => ((number, entry.1.1), entry.2)) references =
            recorded here references := by
          rw [recorded, List.map_map]
          rfl
        rw [List.foldlM_cons, made, recorded_append, same]
        exact onward
      · rw [List.map_append, List.map_map]
        refine List.pairwise_append.mpr ⟨?_, collects.sorted, ?_⟩
        · rw [List.pairwise_map] at sorted ⊢
          refine sorted.imp_of_mem fun one _ ordered => Prod.Lex.right _ ?_
          have within := (proper _ (List.mem_map_of_mem one)).2
          exact Nat.lt_of_lt_of_le within ordered
        · intro one front other back
          obtain ⟨entry, -, rfl⟩ := List.mem_map.mp front
          obtain ⟨final, inside, rfl⟩ := List.mem_map.mp back
          obtain ⟨below, -, member, -⟩ := collects.found final inside
          exact Prod.Lex.left _ _ (increasing.1 _ (List.mem_map_of_mem member))
      · intro entry member
        rcases List.mem_append.mp member with front | back
        · obtain ⟨own, inside, rfl⟩ := List.mem_map.mp front
          exact ⟨line, own.1, List.mem_cons_self, rfl, told own inside⟩
        · obtain ⟨below, place, inside, rest⟩ := collects.found entry back
          exact ⟨below, place, List.mem_cons_of_mem _ inside, rest⟩
      · intro other count member place id named
        rcases List.mem_cons.mp member with same | inside
        · cases same
          have listed := (mem_idsInLine idPrefix line project place).mpr ⟨id, named⟩
          rw [← places] at listed
          obtain ⟨entry, inside, rfl⟩ := List.mem_map.mp listed
          obtain ⟨titled, claims⟩ := told entry inside
          refine ⟨_, List.mem_append_left _ (List.mem_map_of_mem inside), rfl, ?_, claims⟩
          exact Option.some.inj (titled.slice.symm.trans named.slice)
        · obtain ⟨entry, inside, rest⟩ := collects.complete other count inside place id named
          exact ⟨entry, List.mem_append_right _ inside, rest⟩

theorem references_read (most : Text → Option ReferenceIntent) (order : List Text)
    (known : ∀ id ∈ order, ∃ intent, most id = some intent) : ∃ references : List StoryReference,
      order.mapM (fun id => (most id).map fun intent => (⟨id, intent⟩ : StoryReference)) =
        some references ∧
      references.map (·.id) = order ∧ ∀ reference ∈ references,
        most reference.id = some reference.intent := by
  induction order with
  | nil => exact ⟨[], rfl, rfl, fun _ none => nomatch none⟩
  | cons id rest further =>
      obtain ⟨intent, first⟩ := known id List.mem_cons_self
      obtain ⟨references, made, same, each⟩ := further fun other member =>
        known other (List.mem_cons_of_mem _ member)
      refine ⟨⟨id, intent⟩ :: references, ?_, by rw [List.map_cons, same], ?_⟩
      · rw [List.mapM_cons, first, made]
        rfl
      · rw [List.forall_mem_cons]
        exact ⟨first, each⟩

theorem scan_proper (project : ProjectPrefix idPrefix) (message : Text) :
    ∃ references, scanStoryRefs idPrefix message = some references ∧
      Proper JoinsLoosely idPrefix message references := by
  obtain ⟨entries, made, collects⟩ := numbered_recorded idPrefix project
    (revertSubjectPrefix.isPrefixOf message) (lines message).zipIdx
    (by rw [List.zipIdx_map_snd]; exact List.pairwise_lt_range') Strongest.empty
  have records : Strongest.Records (entries.map (·.2)) (recorded entries Strongest.empty) :=
    Strongest.records_foldl _
  obtain ⟨references, read, order, most⟩ := references_read
    (recorded entries Strongest.empty).most _ records.known
  have numbered (line : Text) (number : Nat) :
      (line, number) ∈ (lines message).zipIdx ↔ (lines message)[number]? = some line :=
    List.mk_mem_zipIdx_iff_getElem?
  have appears (id : Text) (value : ReferenceIntent) (entry : Entry (Nat × Nat))
      (member : entry ∈ entries) (same : entry.2 = (id, value)) :
      Appears idPrefix message id entry.1 := by
    obtain ⟨line, place, inside, starts, named, -⟩ := collects.found entry member
    obtain ⟨spot, rest⟩ := entry
    cases same
    refine ⟨line, place.2, (numbered line _).mp inside, ?_⟩
    rw [starts]
    exact named
  have live (line : Text) (number : Nat) : LiveLine message number line ↔
      (lines message)[number]? = some line ∧
        ¬(revertSubjectPrefix.isPrefixOf message = true ∧ number = 0) := by
    rw [List.isPrefixOf_iff_prefix]
    rfl
  refine ⟨references, ?_, ⟨order ▸ records.nodup, fun id => ?_, ?_, fun reference member => ?_⟩⟩
  · unfold scanStoryRefs
    dsimp only
    rw [made]
    exact read
  · rw [order, records.listed]
    constructor
    · rintro ⟨value, member⟩
      obtain ⟨entry, inside, same⟩ := List.mem_map.mp member
      exact ⟨entry.1, appears id value entry inside same⟩
    · rintro ⟨spot, line, stop, there, named⟩
      obtain ⟨entry, inside, -, same, -⟩ :=
        collects.complete line spot.1 ((numbered line _).mpr there) _ id named
      exact ⟨entry.2.2, List.mem_map.mpr ⟨entry, inside, Prod.ext same rfl⟩⟩
  · have before := records.ordered
    rw [← order, List.pairwise_map] at before
    refine before.imp fun {earlier later} first spot appearing => ?_
    obtain ⟨line, stop, there, named⟩ := appearing
    obtain ⟨entry, inside, starts, same, -⟩ :=
      collects.complete line spot.1 ((numbered line _).mpr there) _ later.id named
    obtain ⟨front, back, split⟩ := List.append_of_mem inside
    obtain ⟨value, sooner⟩ := first (front.map (·.2)) entry.2.2 (back.map (·.2)) (by
      rw [split, List.map_append, List.map_cons, ← same])
    obtain ⟨other, ahead, spelled⟩ := List.mem_map.mp sooner
    refine ⟨other.1, appears _ value other
      (by rw [split]; exact List.mem_append_left _ ahead) spelled, ?_⟩
    have sorted := collects.sorted
    rw [split, List.map_append, List.pairwise_append] at sorted
    have ordered := sorted.2.2 other.1 (List.mem_map_of_mem ahead) entry.1
      (List.mem_map_of_mem List.mem_cons_self)
    rwa [starts] at ordered
  · obtain ⟨told, greatest⟩ := records.strong _ _ (most reference member)
    constructor
    · intro claims
      obtain ⟨entry, inside, same⟩ := List.mem_map.mp told
      obtain ⟨line, place, there, -, named, claimed⟩ := collects.found entry inside
      rw [same] at named claimed
      obtain ⟨unreverted, run⟩ := claimed.mp claims
      exact ⟨_, line, place, (live line _).mpr ⟨(numbered line _).mp there, unreverted⟩, named, run⟩
    · rintro ⟨number, line, place, alive, named, run⟩
      obtain ⟨there, unreverted⟩ := (live line number).mp alive
      obtain ⟨entry, inside, -, same, claimed⟩ :=
        collects.complete line number ((numbered line _).mpr there) place _ named
      have strong := greatest .claim (List.mem_map.mpr ⟨entry, inside,
        Prod.ext same (claimed.mpr ⟨unreverted, run⟩)⟩)
      cases own : reference.intent with
      | claim => rfl
      | mention =>
          rw [own] at strong
          exact absurd strong (by decide)

end Message

end Storyhook.Domain.StoryRefs
