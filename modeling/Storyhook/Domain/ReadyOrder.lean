import Storyhook.Domain.BlockerFloor
import Storyhook.Domain.States
import Storyhook.Store.Ids

namespace Storyhook.Domain

def labelHumanOnly : String := "human-only"

def isHumanOnly (story : StorySnapshot) : Bool := story.labels.any (· == labelHumanOnly)

/-- Whether a story is ready, outside the verification handoff, and not claimed yet. -/
def isClaimable (story : StorySnapshot) (allStories : String → Option StorySnapshot)
    (active : Option StateDef) : Bool :=
  if isEpic story || story.state == verifyingStateSlug || !isReady story allStories then false
  else active.all fun state => story.state != state.slug

structure ReadyRanking where
  index : StoryIndex
  floors : BlockerFloors

namespace ReadyRanking

def new (index : StoryIndex) : ReadyRanking := ⟨index, .compute index⟩

def effective (ranking : ReadyRanking) (story : StorySnapshot) : Priority :=
  ranking.floors.effective story

/-- The most urgent of the epics a story is a child of, or its own level where there is none. -/
def parentEpicPriority (ranking : ReadyRanking) (story : StorySnapshot) : Priority :=
  ((((relatedIds story "child-of").filterMap ranking.index.story).filter isEpic).map
    ranking.effective).min?.getD (ranking.effective story)

end ReadyRanking

def u64Max : Nat := 2 ^ 64 - 1

def parseU64 : List Char → Option Nat
  | '+' :: digits => (Store.decimal digits).filter (· ≤ u64Max)
  | digits => (Store.decimal digits).filter (· ≤ u64Max)

/-- The number half of a story id, or the largest number for an id without one. -/
def storyNumber (id : String) : Nat :=
  ((id.toList.splitOn '-')[1]?.bind parseU64).getD u64Max

structure ReadyKey where
  effective : Priority
  parentEpic : Priority
  number : Nat
  id : String
  deriving DecidableEq

instance : Ord ReadyKey :=
  ⟨compareLex (compareOn ReadyKey.effective) (compareLex (compareOn ReadyKey.parentEpic)
    (compareLex (compareOn ReadyKey.number) (compareOn ReadyKey.id)))⟩

instance : Std.TransOrd ReadyKey :=
  inferInstanceAs (Std.TransCmp (compareLex (compareOn ReadyKey.effective)
    (compareLex (compareOn ReadyKey.parentEpic)
      (compareLex (compareOn ReadyKey.number) (compareOn ReadyKey.id)))))

instance : Std.LawfulEqOrd ReadyKey where
  eq_of_compare {left right} equal := by
    obtain ⟨effective, others⟩ := compareLex_eq_eq.mp equal
    obtain ⟨parent, names⟩ := compareLex_eq_eq.mp others
    obtain ⟨number, id⟩ := compareLex_eq_eq.mp names
    have sameEffective := (compare_eq_iff_eq (α := Priority)).mp effective
    have sameParent := (compare_eq_iff_eq (α := Priority)).mp parent
    have sameNumber := (compare_eq_iff_eq (α := Nat)).mp number
    have sameId := Std.LawfulEqOrd.eq_of_compare (α := String) id
    cases left
    cases right
    simp_all

def readyOrder (ranking : ReadyRanking) (a b : StorySnapshot) : Ordering :=
  (compare (ranking.effective a) (ranking.effective b)).then
    ((compare (ranking.parentEpicPriority a) (ranking.parentEpicPriority b)).then
      ((compare (storyNumber a.id) (storyNumber b.id)).then (compare a.id b.id)))

def readyKey (ranking : ReadyRanking) (story : StorySnapshot) : ReadyKey where
  effective := ranking.effective story
  parentEpic := ranking.parentEpicPriority story
  number := storyNumber story.id
  id := story.id

theorem readyOrder_key (ranking : ReadyRanking) (a b : StorySnapshot) :
    readyOrder ranking a b = compare (readyKey ranking a) (readyKey ranking b) := rfl

end Storyhook.Domain
