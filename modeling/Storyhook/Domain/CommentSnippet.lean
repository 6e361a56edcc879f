import Mathlib.Data.List.TakeWhile
import Storyhook.Library.Text
import Storyhook.Library.Utf8

/-! The ids that a comment's line names, and the snippet of the line that shows one. -/

namespace Storyhook.Domain.CommentSnippet

open Library.Text Library.Utf8

abbrev Text := List Char

def isAsciiDigit (byte : UInt8) : Bool := 48 ≤ byte && byte ≤ 57

def isAsciiAlphanumeric (byte : UInt8) : Bool :=
  isAsciiDigit byte || (65 ≤ byte && byte ≤ 90) || (97 ≤ byte && byte ≤ 122)

def idAt (needle text : List UInt8) (place : Nat) : Option Nat :=
  if 0 < place ∧ (text[place - 1]?).any isAsciiAlphanumeric then none
  else if (text.drop place).take needle.length ≠ needle then none
  else
    let dash := place + needle.length
    if text[dash]? ≠ some 45 then none
    else
      let digits := (text.drop (dash + 1)).takeWhile isAsciiDigit
      if digits = [] then none else some (dash + 1 + digits.length)

def idsFrom (needle line : List UInt8) : Nat → Nat → List (Nat × Nat)
  | 0, _ => []
  | fuel + 1, place =>
      if place + needle.length < line.length then
        match idAt needle line place with
        | none => idsFrom needle line fuel (place + 1)
        | some stop => (place, stop) :: idsFrom needle line fuel stop
      else []

def idsInLine (idPrefix line : Text) : List (Nat × Nat) :=
  idsFrom (bytes idPrefix) (bytes line) (size line) 0

def snippetBytes : Nat := 120

def snippetEllipsis : Text := ['…']

def snippetLeadIn : Nat := 24

/-- The part of a trimmed line that a snippet shows. -/
def window (trimmed : Text) (idStart idEnd : Nat) : Nat × Nat :=
  let inner := snippetBytes - 2 * size snippetEllipsis
  let lead := min snippetLeadIn (inner - (idEnd - idStart))
  let start := ceilBoundary trimmed (min (idStart - lead) (size trimmed - min inner (size trimmed)))
  let stop := floorBoundary trimmed (min (start + inner) (size trimmed))
  if stop < idEnd then (ceilBoundary trimmed (idEnd - inner), idEnd) else (start, stop)

def elide (trimmed : Text) (start stop : Nat) : Option (Text) :=
  (slice trimmed start stop).map fun shown =>
    (if 0 < start then snippetEllipsis else []) ++ shown ++
      if stop < size trimmed then snippetEllipsis else []

/-- The snippet, unless an offset falls below zero or a slice splits a character. -/
def snippetFor (line : Text) (idStart idEnd : Nat) : Option (Text) :=
  let trimmed := trim line
  if size trimmed ≤ snippetBytes then some trimmed
  else
    let shift := size line - size (line.dropWhile isWhitespace)
    if shift ≤ idStart ∧ idStart ≤ idEnd then
      let shown := window trimmed (idStart - shift) (idEnd - shift)
      elide trimmed shown.1 shown.2
    else none

def refuse (raw because : Text) : Except Text Text :=
  .error ("invalid story-id prefix `".toList ++ raw ++ "`: ".toList ++ because ++
    (". A prefix is 1–10 characters, starts with a letter and holds only letters and digits — it " ++
      "becomes the first half of every story id this project ever mints, as in `SH-1`.").toList)

def validate (raw : Text) : Except Text Text :=
  match raw.map Char.toUpper with
  | [] => refuse raw "it is empty".toList
  | first :: rest =>
      if first.isAlpha = false then refuse raw "it does not start with a letter".toList
      else if (first :: rest).length > 10 then refuse raw "it is too long".toList
      else
        match rest.find? fun character => !character.isAlphanum with
        | some bad => refuse raw ('`' :: bad :: "` is neither a letter nor a digit".toList)
        | none => .ok (first :: rest)

theorem isAlpha_iff (character : Char) : character.isAlpha = true ↔
    65 ≤ character.toNat ∧ character.toNat ≤ 90 ∨ 97 ≤ character.toNat ∧ character.toNat ≤ 122 := by
  have spelled : character.isAlpha =
      (decide ('A'.val ≤ character.val ∧ character.val ≤ 'Z'.val) ||
        decide ('a'.val ≤ character.val) && decide (character.val ≤ 'z'.val)) := rfl
  have letters : 'A'.val.toNat = 65 ∧ 'Z'.val.toNat = 90 ∧ 'a'.val.toNat = 97 ∧
      'z'.val.toNat = 122 := by decide
  simp only [spelled, Bool.or_eq_true, Bool.and_eq_true, decide_eq_true_eq, UInt32.le_iff_toNat_le,
    Char.toNat, letters]

theorem validate_opens (raw idPrefix : Text) (passed : validate raw = .ok idPrefix) :
    idPrefix.head?.all (fun first => !isWhitespace first) = true := by
  unfold validate at passed
  split at passed
  · cases passed
  next first rest _ =>
  split at passed
  · cases passed
  next letter =>
  split at passed
  · cases passed
  split at passed
  · cases passed
  · cases passed
    have alpha := (isAlpha_iff first).mp (by simpa using letter)
    simp only [Char.toNat] at alpha
    simp only [List.head?_cons, Option.all_some, Bool.not_eq_true', ← Bool.not_eq_true,
      isWhitespace,
      Bool.or_eq_true, Bool.and_eq_true, decide_eq_true_eq, beq_iff_eq, Char.toNat]
    omega

section Ids

theorem isDigit_encode (digit : Char) (isDigit : digit.isDigit = true) :
    String.utf8EncodeChar digit = [digit.val.toUInt8] ∧ isAsciiDigit digit.val.toUInt8 = true := by
  obtain ⟨above, below⟩ := Char.isDigit_iff_toNat.mp isDigit
  have bounds : 48 ≤ digit.val.toNat ∧ digit.val.toNat ≤ 57 := ⟨above, below⟩
  refine ⟨String.utf8EncodeChar_eq_singleton (Char.utf8Size_eq_one_iff.mpr ?_), ?_⟩
  · rw [UInt32.le_iff_toNat_le]
    exact Nat.le_trans bounds.2 (by decide)
  · have same : digit.val.toUInt8.toNat = digit.val.toNat := by
      rw [UInt32.toNat_toUInt8]
      omega
    simp only [isAsciiDigit, Bool.and_eq_true, decide_eq_true_eq, UInt8.le_iff_toNat_le, same]
    exact bounds

theorem digit_of_byte (byte : UInt8) (isDigit : isAsciiDigit byte = true) :
    ∃ digit : Char, digit.isDigit = true ∧ String.utf8EncodeChar digit = [byte] := by
  simp only [isAsciiDigit, Bool.and_eq_true, decide_eq_true_eq, UInt8.le_iff_toNat_le] at isDigit
  have bounds : 48 ≤ byte.toNat ∧ byte.toNat ≤ 57 := isDigit
  let digit : Char := ⟨byte.toUInt32, Or.inl (by rw [UInt8.toNat_toUInt32]; omega)⟩
  have code : digit.val.toNat = byte.toNat := UInt8.toNat_toUInt32 byte
  have numeric : digit.isDigit = true := Char.isDigit_iff_toNat.mpr (by
    show 48 ≤ digit.val.toNat ∧ digit.val.toNat ≤ 57
    rw [code]
    exact bounds)
  refine ⟨digit, numeric, ?_⟩
  rw [(isDigit_encode digit numeric).1]
  exact congrArg (fun byte => [byte]) (UInt8.toUInt8_toUInt32 byte)

theorem takeWhile_digits (text : Text) :
    (bytes text).takeWhile isAsciiDigit = bytes (text.takeWhile Char.isDigit) := by
  induction text with
  | nil => rfl
  | cons first rest further =>
      rw [bytes_cons, List.takeWhile_cons]
      by_cases isDigit : first.isDigit = true
      · obtain ⟨single, digit⟩ := isDigit_encode first isDigit
        rw [if_pos isDigit, bytes_cons, single, List.singleton_append, List.singleton_append,
          List.takeWhile_cons, if_pos digit, further]
      · rw [if_neg isDigit]
        cases encoded : String.utf8EncodeChar first with
        | nil => exact absurd encoded String.utf8EncodeChar_ne_nil
        | cons byte more =>
            rw [List.cons_append, List.takeWhile_cons, if_neg]
            · rfl
            · intro digit
              obtain ⟨other, otherDigit, single⟩ := digit_of_byte byte digit
              have same := head_eq first other (bytes rest) (more ++ bytes rest) (by
                rw [encoded, single]
                rfl)
              exact isDigit (same ▸ otherDigit)

/-- The parts of a line around an id: a prefix, a dash and digits. -/
structure Names (idPrefix line : Text) (idStart idEnd : Nat) (front digits back : Text) : Prop where
  split : line = front ++ (idPrefix ++ '-' :: digits) ++ back
  some : digits ≠ []
  numeric : ∀ digit ∈ digits, digit.isDigit = true
  starts : size front = idStart
  stops : size (front ++ (idPrefix ++ '-' :: digits)) = idEnd

theorem idAt_bytes (needle line : List UInt8) (place stop : Nat)
    (found : idAt needle line place = some stop) : ∃ tail,
      line.drop place = needle ++ 45 :: tail ∧ tail.takeWhile isAsciiDigit ≠ [] ∧
        stop = place + needle.length + 1 + (tail.takeWhile isAsciiDigit).length := by
  unfold idAt at found
  split at found
  · cases found
  split at found
  · cases found
  next matched =>
  dsimp only at found
  split at found
  · cases found
  next dashed =>
  split at found
  · cases found
  next some =>
  rw [not_ne_iff] at matched dashed
  obtain ⟨inside, dash⟩ := List.getElem?_eq_some_iff.mp dashed
  refine ⟨line.drop (place + needle.length + 1), ?_, some, (Option.some.inj found).symm⟩
  calc line.drop place
      = (line.drop place).take needle.length ++ (line.drop place).drop needle.length :=
        (List.take_append_drop _ _).symm
    _ = needle ++ line.drop (place + needle.length) := by rw [matched, List.drop_drop]
    _ = needle ++ 45 :: line.drop (place + needle.length + 1) := by
        rw [List.drop_eq_getElem_cons inside, dash]

theorem idAt_names (idPrefix line : Text) (place stop : Nat)
    (found : idAt (bytes idPrefix) (bytes line) place = some stop) :
    ∃ front digits back, Names idPrefix line place stop front digits back := by
  obtain ⟨tail, cut, some, rfl⟩ := idAt_bytes _ _ place stop found
  have needle : bytes (idPrefix ++ ['-']) = bytes idPrefix ++ [45] := bytes_append _ _
  obtain ⟨first, rest, head⟩ := List.exists_cons_of_ne_nil
    (show idPrefix ++ ['-'] ≠ [] by simp)
  have filled : 0 < (String.utf8EncodeChar first).length := by
    rw [String.length_utf8EncodeChar]
    exact first.utf8Size_pos
  have start : (bytes line)[place]? = .some (String.utf8EncodeChar first)[0] := by
    have here : (bytes line)[place]? = ((bytes line).drop place)[0]? := by
      rw [List.getElem?_drop, Nat.add_zero]
    rw [here, cut, ← List.singleton_append, ← List.append_assoc, ← needle, head, bytes_cons,
      List.append_assoc, List.getElem?_append_left filled, List.getElem?_eq_getElem filled]
  obtain ⟨front, after, rfl, rfl⟩ := boundary_of_first line place _ start
    UInt8.isUTF8FirstByte_getElem_zero_utf8EncodeChar
  rw [bytes_append, List.drop_left' (show (bytes front).length = size front from rfl),
    ← List.singleton_append, ← List.append_assoc,
    ← needle] at cut
  obtain ⟨later, rfl⟩ := prefix_of_bytes (idPrefix ++ ['-']) after ⟨tail, cut.symm⟩
  rw [bytes_append] at cut
  obtain rfl := List.append_cancel_left cut
  rw [takeWhile_digits] at some ⊢
  refine ⟨front, later.takeWhile Char.isDigit, later.dropWhile Char.isDigit, ?_, ?_, ?_, rfl, ?_⟩
  · simp
  · exact fun none => some (by rw [none]; rfl)
  · exact fun digit member => List.mem_takeWhile_imp member
  · have dash : size ('-' :: later.takeWhile Char.isDigit) =
        1 + size (later.takeWhile Char.isDigit) := size_cons _ _
    rw [size_append, size_append, dash]
    show _ = size front + size idPrefix + 1 + size (later.takeWhile Char.isDigit)
    omega

theorem idsFrom_names (idPrefix line : Text) (fuel place idStart idEnd : Nat)
    (found : (idStart, idEnd) ∈ idsFrom (bytes idPrefix) (bytes line) fuel place) :
    ∃ front digits back, Names idPrefix line idStart idEnd front digits back := by
  induction fuel generalizing place with
  | zero => cases found
  | succ fuel further =>
      rw [idsFrom] at found
      split at found
      · split at found
        · exact further _ found
        · next stop matched =>
            rcases List.mem_cons.mp found with same | later
            · cases same
              exact idAt_names idPrefix line idStart idEnd matched
            · exact further _ later
      · cases found

end Ids

section Trim

theorem dropWhile_stops (drops : Char → Bool) (front : Text) (first : Char) (rest : Text)
    (kept : drops first = false) :
    (front ++ first :: rest).dropWhile drops = front.dropWhile drops ++ first :: rest := by
  induction front with
  | nil => rw [List.nil_append, List.dropWhile_cons, if_neg (by simp [kept])]; rfl
  | cons head tail further =>
      rw [List.cons_append, List.dropWhile_cons, List.dropWhile_cons, further]
      split <;> rfl

theorem digit_not_whitespace (digit : Char) (numeric : digit.isDigit = true) :
    isWhitespace digit = false := by
  obtain ⟨above, below⟩ := Char.isDigit_iff_toNat.mp numeric
  have bounds : 48 ≤ digit.toNat ∧ digit.toNat ≤ 57 := ⟨above, below⟩
  rw [← Bool.not_eq_true]
  simp only [isWhitespace, Bool.or_eq_true, Bool.and_eq_true, decide_eq_true_eq, beq_iff_eq]
  omega

theorem trim_names (idPrefix line front digits back : Text) (idStart idEnd : Nat)
    (opens : idPrefix.head?.all (fun first => !isWhitespace first) = true)
    (names : Names idPrefix line idStart idEnd front digits back) :
    line.dropWhile isWhitespace =
        front.dropWhile isWhitespace ++ (idPrefix ++ '-' :: digits) ++ back ∧
      trim line = front.dropWhile isWhitespace ++ (idPrefix ++ '-' :: digits) ++
        (back.reverse.dropWhile isWhitespace).reverse := by
  obtain ⟨first, rest, shape, opening⟩ : ∃ first rest, idPrefix ++ '-' :: digits = first :: rest ∧
      isWhitespace first = false := by
    cases idPrefix with
    | nil => exact ⟨'-', digits, rfl, by decide⟩
    | cons first rest => exact ⟨first, rest ++ '-' :: digits, rfl, by simpa using opens⟩
  have before : line.dropWhile isWhitespace =
      front.dropWhile isWhitespace ++ (idPrefix ++ '-' :: digits) ++ back := by
    rw [names.split, shape, List.append_assoc, List.cons_append,
      dropWhile_stops isWhitespace front first (rest ++ back) opening]
    simp
  refine ⟨before, ?_⟩
  obtain ⟨init, last, rfl⟩ : ∃ init last, digits = init ++ [last] :=
    (List.eq_nil_or_concat' digits).resolve_left names.some
  have closing : isWhitespace last = false :=
    digit_not_whitespace last (names.numeric last (by simp))
  rw [trim, before]
  have turned : (front.dropWhile isWhitespace ++ (idPrefix ++ '-' ::
    (init ++ [last])) ++ back).reverse
      = back.reverse ++ last ::
        (front.dropWhile isWhitespace ++ (idPrefix ++ '-' :: init)).reverse := by simp
  rw [turned, dropWhile_stops isWhitespace back.reverse last _ closing]
  simp

end Trim

section Snippet

variable (front name back : Text)

theorem window_spec (short : size name ≤ 114) (long : 120 < size (front ++ name ++ back)) :
    let shown := window (front ++ name ++ back) (size front) (size (front ++ name))
    isCharBoundary (front ++ name ++ back) shown.1 = true ∧
      isCharBoundary (front ++ name ++ back) shown.2 = true ∧
      shown.1 ≤ size front ∧ size (front ++ name) ≤ shown.2 ∧ shown.2 ≤ shown.1 + 114 := by
  have starts : isCharBoundary (front ++ name ++ back) (size front) = true :=
    (isCharBoundary_iff _ _).mpr ⟨front, name ++ back, List.append_assoc _ _ _, rfl⟩
  have stops : isCharBoundary (front ++ name ++ back) (size (front ++ name)) = true :=
    (isCharBoundary_iff _ _).mpr ⟨front ++ name, back, rfl, rfl⟩
  have whole : size (front ++ name ++ back) = size front + size name + size back := by
    rw [size_append, size_append]
  have part : size (front ++ name) = size front + size name := size_append _ _
  have inner : snippetBytes - 2 * size snippetEllipsis = 114 := by decide
  have leadIn : snippetLeadIn = 24 := rfl
  generalize front ++ name ++ back = trimmed at *
  simp only [window, inner, leadIn]
  generalize near : min (size front - min 24 (114 - (size (front ++ name) - size front)))
    (size trimmed - min 114 (size trimmed)) = least
  obtain ⟨first, above, first_le⟩ := ceilBoundary_spec trimmed least (by omega)
  have low := first_le (size front) (by omega) starts
  generalize far : min (ceilBoundary trimmed least + 114) (size trimmed) = most
  obtain ⟨last, below, last_le⟩ := floorBoundary_spec trimmed most
  have high := last_le (size (front ++ name)) (by omega) stops
  rw [if_neg (by omega)]
  exact ⟨first, last, low, high, by omega⟩

theorem elide_spec (trimmed : Text) (shown : Nat × Nat) (split : trimmed = front ++ name ++ back)
    (starts : isCharBoundary trimmed shown.1 = true)
    (stops : isCharBoundary trimmed shown.2 = true) (first : shown.1 ≤ size front)
    (last : size (front ++ name) ≤ shown.2) (room : shown.2 ≤ shown.1 + 114) :
    ∃ snippet, elide trimmed shown.1 shown.2 = some snippet ∧ size snippet ≤ snippetBytes ∧
      name <:+: snippet := by
  have part : size (front ++ name) = size front + size name := size_append _ _
  obtain ⟨before, middle, after, sliced, parts, low, high⟩ :=
    slice_between trimmed shown.1 shown.2 starts stops (by omega)
  refine ⟨_, by rw [elide, sliced]; rfl, ?_, ?_⟩
  · have mark : size snippetEllipsis = 3 := by decide
    have none : size [] = 0 := rfl
    rw [size_append] at high
    rw [size_append, size_append]
    have left : size (if 0 < shown.1 then snippetEllipsis else []) ≤ 3 := by
      split <;> simp [mark, none]
    have right : size (if shown.2 < size trimmed then snippetEllipsis else []) ≤ 3 := by
      split <;> simp [mark, none]
    show _ ≤ 120
    omega
  · obtain ⟨lead, rfl⟩ := split_order before (middle ++ after) front (name ++ back)
      (by simp only [← List.append_assoc, ← parts, ← split]) (by omega)
    obtain ⟨trail, longer⟩ := split_order (before ++ lead ++ name) back (before ++ middle) after
      (by rw [← parts, ← split]) (by omega)
    have shows : middle = lead ++ name ++ trail := by
      refine (List.append_right_inj before).mp ?_
      rw [longer]
      simp
    rw [shows]
    exact (List.infix_append lead name trail).trans (List.infix_append _ _ _)

/-- An id that a line names is whole in its snippet, which stays within the cap. -/
theorem snippetFor_whole (idPrefix line : Text)
    (opens : idPrefix.head?.all (fun first => !isWhitespace first) = true) (idStart idEnd : Nat)
    (found : (idStart, idEnd) ∈ idsInLine idPrefix line) (short : idEnd - idStart ≤ 114) :
    ∃ name snippet, slice line idStart idEnd = some name ∧
      snippetFor line idStart idEnd = some snippet ∧ size snippet ≤ snippetBytes ∧
      name <:+: snippet := by
  obtain ⟨front, digits, back, names⟩ := idsFrom_names idPrefix line _ _ _ _ found
  obtain ⟨opened, trimmed⟩ := trim_names idPrefix line front digits back idStart idEnd opens names
  refine ⟨idPrefix ++ '-' :: digits, ?_⟩
  obtain ⟨split, -, -, rfl, rfl⟩ := names
  generalize idPrefix ++ '-' :: digits = name at *
  have sliced : slice line (size front) (size (front ++ name)) = some name :=
    (slice_eq_some _ _ _ _).mpr ⟨front, back, split, rfl, rfl⟩
  rw [snippetFor, trimmed]
  dsimp only
  split
  · next fits => exact ⟨_, sliced, rfl, fits, _, _, rfl⟩
  · next cut =>
      have kept : size front =
          size (front.takeWhile isWhitespace) + size (front.dropWhile isWhitespace) := by
        rw [← size_append, List.takeWhile_append_dropWhile]
      have shift : size line - size (line.dropWhile isWhitespace) =
          size (front.takeWhile isWhitespace) := by
        rw [opened, split]
        simp only [size_append]
        omega
      have part : size (front ++ name) = size front + size name := size_append _ _
      have start : size front - size (front.takeWhile isWhitespace) =
          size (front.dropWhile isWhitespace) := by omega
      have stop : size (front ++ name) - size (front.takeWhile isWhitespace) =
          size (front.dropWhile isWhitespace ++ name) := by
        rw [size_append (front.dropWhile isWhitespace)]
        omega
      rw [shift, if_pos ⟨by omega, by omega⟩, start, stop]
      obtain ⟨starts, stops, first, last, room⟩ := window_spec (front.dropWhile isWhitespace) name
        (back.reverse.dropWhile isWhitespace).reverse (by omega) (Nat.lt_of_not_le cut)
      obtain ⟨snippet, elided, capped, inside⟩ :=
        elide_spec _ name _ _ _ rfl starts stops first last
        room
      exact ⟨snippet, sliced, elided, capped, inside⟩

/-- A line that is cut on both sides of the id, within letters of two bytes. -/
def longLine : Text := ' ' :: List.replicate 50 'é' ++ " SH-12 ".toList ++ List.replicate 70 'ß'

theorem snippetFor_longLine : ∃ name snippet, slice longLine 102 107 = some name ∧
    snippetFor longLine 102 107 = some snippet ∧ size snippet ≤ snippetBytes ∧
      name <:+: snippet :=
  snippetFor_whole ['S', 'H'] longLine (validate_opens ['s', 'h'] ['S', 'H'] (by decide)) 102 107
    (by decide +kernel) (by decide)

end Snippet

end Storyhook.Domain.CommentSnippet
