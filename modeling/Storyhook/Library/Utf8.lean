import Mathlib.Data.List.Basic
import Mathlib.Tactic.Common

/-! The bytes of a text, and the places among them where a character starts. -/

namespace Storyhook.Library.Utf8

def bytes (text : List Char) : List UInt8 := text.flatMap String.utf8EncodeChar

def size (text : List Char) : Nat := (bytes text).length

/-- The text before and from a place, unless the place lies within a character. -/
def splitAt : List Char → Nat → Option (List Char × List Char)
  | text, 0 => some ([], text)
  | [], _ + 1 => none
  | first :: rest, place + 1 =>
      if first.utf8Size ≤ place + 1 then
        (splitAt rest (place + 1 - first.utf8Size)).map fun parts => (first :: parts.1, parts.2)
      else none

def isCharBoundary (text : List Char) (place : Nat) : Bool := (splitAt text place).isSome

/-- The text between two places, unless they are out of order or one lies within a character. -/
def slice (text : List Char) (start stop : Nat) : Option (List Char) :=
  (splitAt text stop).bind fun parts => (splitAt parts.1 start).map (·.2)

def floorBoundary (text : List Char) : Nat → Nat
  | 0 => 0
  | place + 1 =>
      if isCharBoundary text (place + 1) then place + 1 else floorBoundary text place

def ceilFrom (text : List Char) : Nat → Nat → Nat
  | 0, place => place
  | room + 1, place => if isCharBoundary text place then place else ceilFrom text room (place + 1)

def ceilBoundary (text : List Char) (place : Nat) : Nat :=
  ceilFrom text (size text - place) place

theorem bytes_cons (first : Char) (rest : List Char) :
    bytes (first :: rest) = String.utf8EncodeChar first ++ bytes rest := rfl

theorem bytes_append (front back : List Char) : bytes (front ++ back) = bytes front ++ bytes back :=
  List.flatMap_append

theorem size_cons (first : Char) (rest : List Char) :
    size (first :: rest) = first.utf8Size + size rest := by
  rw [size, bytes_cons, List.length_append, String.length_utf8EncodeChar, size]

theorem size_append (front back : List Char) : size (front ++ back) = size front + size back := by
  rw [size, bytes_append, List.length_append, size, size]

theorem splitAt_eq_some (text : List Char) (place : Nat) (front back : List Char) :
    splitAt text place = some (front, back) ↔ text = front ++ back ∧ size front = place := by
  induction text, place using splitAt.induct generalizing front with
  | case1 text =>
      simp only [splitAt, Option.some.injEq, Prod.mk.injEq]
      constructor
      · rintro ⟨rfl, rfl⟩
        exact ⟨rfl, rfl⟩
      · rintro ⟨rfl, none⟩
        cases front with
        | nil => exact ⟨rfl, rfl⟩
        | cons first rest =>
            have positive := first.utf8Size_pos
            rw [size_cons] at none
            omega
  | case2 place =>
      refine iff_of_false (by simp [splitAt]) ?_
      rintro ⟨parts, filled⟩
      rw [(List.append_eq_nil_iff.mp parts.symm).1] at filled
      cases filled
  | case3 first rest place fits further =>
      rw [splitAt, if_pos fits, Option.map_eq_some_iff]
      constructor
      · rintro ⟨⟨before, after⟩, found, same⟩
        cases same
        obtain ⟨rfl, sized⟩ := (further before).mp found
        refine ⟨rfl, ?_⟩
        show size (first :: before) = place + 1
        rw [size_cons]
        omega
      · rintro ⟨parts, sized⟩
        cases front with
        | nil => cases sized
        | cons head tail =>
            obtain ⟨rfl, rest⟩ := List.cons_eq_cons.mp parts
            rw [size_cons] at sized
            exact ⟨(tail, back), (further tail).mpr ⟨rest, by omega⟩, rfl⟩
  | case4 first rest place cut =>
      refine iff_of_false (by simp [splitAt, cut]) ?_
      rintro ⟨parts, sized⟩
      cases front with
      | nil => cases sized
      | cons head tail =>
          obtain ⟨rfl, -⟩ := List.cons_eq_cons.mp parts
          rw [size_cons] at sized
          omega

theorem isCharBoundary_iff (text : List Char) (place : Nat) : isCharBoundary text place = true ↔
    ∃ front back, text = front ++ back ∧ size front = place := by
  simp only [isCharBoundary, Option.isSome_iff_exists, Prod.exists, splitAt_eq_some]

theorem isCharBoundary_size (text : List Char) : isCharBoundary text (size text) = true :=
  (isCharBoundary_iff text _).mpr ⟨text, [], (List.append_nil text).symm, rfl⟩

theorem slice_eq_some (text : List Char) (start stop : Nat) (middle : List Char) :
    slice text start stop = some middle ↔
      ∃ front back, text = front ++ middle ++ back ∧ size front = start ∧
        size (front ++ middle) = stop := by
  simp only [slice, Option.bind_eq_some_iff, Option.map_eq_some_iff, Prod.exists, splitAt_eq_some]
  constructor
  · rintro ⟨whole, back, ⟨rfl, stops⟩, front, _, ⟨rfl, starts⟩, rfl⟩
    exact ⟨front, back, rfl, starts, stops⟩
  · rintro ⟨front, back, rfl, starts, stops⟩
    exact ⟨front ++ middle, back, ⟨rfl, stops⟩, front, middle, ⟨rfl, starts⟩, rfl⟩

theorem split_order (front back before after : List Char) (same : front ++ back = before ++ after)
    (shorter : size front ≤ size before) : ∃ between, before = front ++ between := by
  rcases List.append_eq_append_iff.mp same with ⟨between, split, -⟩ | ⟨between, rfl, -⟩
  · exact ⟨between, split⟩
  · rw [size_append] at shorter
    cases between with
    | nil => exact ⟨[], by simp⟩
    | cons first rest =>
        have positive := first.utf8Size_pos
        rw [size_cons] at shorter
        omega

theorem slice_between (text : List Char) (start stop : Nat)
    (starts : isCharBoundary text start = true) (stops : isCharBoundary text stop = true)
    (ordered : start ≤ stop) : ∃ front middle back, slice text start stop = some middle ∧
      text = front ++ middle ++ back ∧ size front = start ∧ size (front ++ middle) = stop := by
  obtain ⟨front, after, first, rfl⟩ := (isCharBoundary_iff text start).mp starts
  obtain ⟨before, back, rfl, rfl⟩ := (isCharBoundary_iff text stop).mp stops
  obtain ⟨middle, rfl⟩ := split_order front after before back first.symm ordered
  exact ⟨front, middle, back, (slice_eq_some _ _ _ _).mpr ⟨front, back, rfl, rfl, rfl⟩,
    rfl, rfl, rfl⟩

theorem floorBoundary_spec (text : List Char) (place : Nat) :
    isCharBoundary text (floorBoundary text place) = true ∧ floorBoundary text place ≤ place ∧
      ∀ boundary ≤ place, isCharBoundary text boundary = true →
        boundary ≤ floorBoundary text place := by
  induction place with
  | zero => exact ⟨by cases text <;> rfl, Nat.le_refl 0, fun _ below _ => below⟩
  | succ place further =>
      rw [floorBoundary]
      split
      · next here => exact ⟨here, Nat.le_refl _, fun _ below _ => below⟩
      · next within =>
          refine ⟨further.1, Nat.le_succ_of_le further.2.1, fun boundary below marked => ?_⟩
          rcases Nat.lt_or_eq_of_le below with lower | rfl
          · exact further.2.2 boundary (Nat.le_of_lt_succ lower) marked
          · exact absurd marked within

theorem ceilFrom_spec (text : List Char) (room place : Nat) (reach : place + room = size text) :
    isCharBoundary text (ceilFrom text room place) = true ∧ place ≤ ceilFrom text room place ∧
      ∀ boundary, place ≤ boundary → isCharBoundary text boundary = true →
        ceilFrom text room place ≤ boundary := by
  induction room generalizing place with
  | zero =>
      rw [Nat.add_zero] at reach
      exact ⟨reach ▸ isCharBoundary_size text, Nat.le_refl _, fun _ above _ => above⟩
  | succ room further =>
      rw [ceilFrom]
      split
      · next here => exact ⟨here, Nat.le_refl _, fun _ above _ => above⟩
      · next within =>
          obtain ⟨marked, above, least⟩ := further (place + 1) (by omega)
          refine ⟨marked, Nat.le_of_succ_le above, fun boundary higher there => ?_⟩
          rcases Nat.lt_or_eq_of_le higher with further | rfl
          · exact least boundary further there
          · exact absurd there within

theorem ceilBoundary_spec (text : List Char) (place : Nat) (inside : place ≤ size text) :
    isCharBoundary text (ceilBoundary text place) = true ∧ place ≤ ceilBoundary text place ∧
      ∀ boundary, place ≤ boundary → isCharBoundary text boundary = true →
        ceilBoundary text place ≤ boundary :=
  ceilFrom_spec text _ place (by omega)

theorem head_eq (one other : Char) (front back : List UInt8)
    (same : String.utf8EncodeChar one ++ front = String.utf8EncodeChar other ++ back) :
    one = other := by
  have decoded := congrArg (fun list : List UInt8 => list.toByteArray.utf8DecodeChar? 0) same
  simp only [List.toByteArray_append, ByteArray.utf8DecodeChar?_utf8EncodeChar_append] at decoded
  exact Option.some.inj decoded

theorem prefix_of_bytes (front text : List Char) (starts : bytes front <+: bytes text) :
    front <+: text := by
  induction front generalizing text with
  | nil => exact List.nil_prefix
  | cons first rest further =>
      obtain ⟨tail, split⟩ := starts
      cases text with
      | nil =>
          have filled := congrArg List.length split
          have positive := first.utf8Size_pos
          rw [bytes_cons, List.append_assoc, List.length_append,
            String.length_utf8EncodeChar] at filled
          simp only [bytes, List.flatMap_nil, List.length_nil] at filled
          omega
      | cons head after =>
          rw [bytes_cons, bytes_cons, List.append_assoc] at split
          obtain rfl := head_eq first head _ _ split
          exact List.cons_prefix_cons.mpr ⟨rfl, further after ⟨tail, List.append_cancel_left split⟩⟩

theorem boundary_of_first (text : List Char) (place : Nat) (byte : UInt8)
    (found : (bytes text)[place]? = some byte) (starts : byte.IsUTF8FirstByte) :
    ∃ front back, text = front ++ back ∧ size front = place := by
  induction text generalizing place with
  | nil => cases found
  | cons first rest further =>
      rw [bytes_cons] at found
      by_cases here : place < (String.utf8EncodeChar first).length
      · rw [List.getElem?_append_left here, List.getElem?_eq_getElem here,
          Option.some.injEq] at found
        subst found
        have zero := UInt8.isUTF8FirstByte_getElem_utf8EncodeChar.mp starts
        exact ⟨[], first :: rest, rfl, zero.symm⟩
      · rw [List.getElem?_append_right (Nat.le_of_not_lt here)] at found
        obtain ⟨front, back, rfl, sized⟩ := further _ found
        rw [String.length_utf8EncodeChar] at here sized
        refine ⟨first :: front, back, rfl, ?_⟩
        rw [size_cons]
        omega

end Storyhook.Library.Utf8
