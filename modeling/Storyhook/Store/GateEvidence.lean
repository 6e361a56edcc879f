import Storyhook.Store.Ids

namespace Storyhook.Store

open Library.Text

inductive StoreError where
  | validation (text : String)
  | corrupt (text : String)
  | constraint (text : String)
  | invariant (text : String)
  | notFound (text : String)
  deriving DecidableEq, Repr

def validatePrefix (raw : String) : Except String String :=
  let canonical := raw.toList.map Char.toUpper
  let refused (because : String) : Except String String :=
    .error ("invalid story-id prefix `" ++ raw ++ "`: " ++ because ++ ". A prefix is 1–10 " ++
      "characters, starts with a letter and holds only letters and digits — it becomes the first " ++
      "half of every story id this project ever mints, as in `SH-1`.")
  match canonical with
  | [] => refused "it is empty"
  | first :: rest =>
      if !first.isAlpha then refused "it does not start with a letter"
      else if canonical.length > 10 then refused "it is too long"
      else match rest.find? fun character => !character.isAlphanum with
        | some bad => refused ("`" ++ bad.toString ++ "` is neither a letter nor a digit")
        | none => .ok (String.ofList canonical)

def recordedNumber (id : String) : Option StoryNo :=
  match rsplitOnce '-' id.toList with
  | none => none
  | some (front, _) =>
      match validatePrefix (String.ofList front) with
      | .error _ => none
      | .ok canonical =>
          if canonical = String.ofList front then (parseId (String.ofList front) id).toOption
          else none

structure GateSubmission where
  project : Int
  storyId : String
  generation : Option Int
  submittedAt : Option String
  deriving DecidableEq, Repr

namespace GateSubmission

def storyNumber (submission : GateSubmission) : Option StoryNo := recordedNumber submission.storyId

def matchesStory (submission : GateSubmission) (project : Int) (storyId : String) : Bool :=
  submission.project == project &&
    submission.storyNumber.any fun number => some number == recordedNumber storyId

/-- Without a generation the queue-entry times have to agree. -/
def sameGeneration (submission other : GateSubmission) : Bool :=
  submission.matchesStory other.project other.storyId &&
    submission.generation == other.generation &&
    (submission.generation.isSome || submission.submittedAt == other.submittedAt)

theorem sameGeneration_iff (submission other : GateSubmission) :
    submission.sameGeneration other = true ↔
      submission.project = other.project ∧
      (∃ number, submission.storyNumber = some number ∧ other.storyNumber = some number) ∧
      submission.generation = other.generation ∧
      (submission.generation = none → submission.submittedAt = other.submittedAt) := by
  simp only [sameGeneration, matchesStory, Bool.and_eq_true, Bool.or_eq_true, beq_iff_eq,
    Option.any_eq_true, and_assoc]
  constructor
  · rintro ⟨project, ⟨number, mine, theirs⟩, generation, queued⟩
    refine ⟨project, ⟨number, mine, theirs.symm⟩, generation, fun unnumbered => ?_⟩
    rcases queued with numbered | same
    · rw [unnumbered] at numbered
      cases numbered
    · exact same
  · rintro ⟨project, ⟨number, mine, theirs⟩, generation, queued⟩
    refine ⟨project, ⟨number, mine, theirs.symm⟩, generation, ?_⟩
    cases numbered : submission.generation with
    | none => exact Or.inr (queued numbered)
    | some seq => exact Or.inl rfl

theorem sameGeneration_symm (submission other : GateSubmission)
    (same : submission.sameGeneration other = true) : other.sameGeneration submission = true := by
  rw [sameGeneration_iff] at same ⊢
  obtain ⟨project, ⟨number, mine, theirs⟩, generation, queued⟩ := same
  exact ⟨project.symm, ⟨number, theirs, mine⟩, generation.symm,
    fun unnumbered => (queued (generation.trans unnumbered)).symm⟩

theorem sameGeneration_trans (submission middle other : GateSubmission)
    (left : submission.sameGeneration middle = true) (right : middle.sameGeneration other = true) :
    submission.sameGeneration other = true := by
  rw [sameGeneration_iff] at left right ⊢
  obtain ⟨project, ⟨number, mine, shared⟩, generation, queued⟩ := left
  obtain ⟨project', ⟨number', shared', theirs⟩, generation', queued'⟩ := right
  obtain rfl := Option.some.inj (shared.symm.trans shared')
  exact ⟨project.trans project', ⟨number, mine, theirs⟩, generation.trans generation',
    fun unnumbered => (queued unnumbered).trans (queued' (generation.symm.trans unnumbered))⟩

theorem sameGeneration_congr (left right other : GateSubmission)
    (same : left.sameGeneration right = true) :
    other.sameGeneration left = other.sameGeneration right := by
  rw [Bool.eq_iff_iff]
  constructor
  · exact fun matching => sameGeneration_trans other left right matching same
  · exact fun matching =>
      sameGeneration_trans other right left matching (sameGeneration_symm left right same)

end GateSubmission

/-- What a gate ran on, with whatever is kept as text. -/
structure GateInputs where
  head : Option String
  base : Option String
  tree : Option String
  contract : Option String
  toolchain : Option String
  resources : Option String
  cache : Option String
  deriving DecidableEq, Repr

end Storyhook.Store
