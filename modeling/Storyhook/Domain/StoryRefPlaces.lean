import Storyhook.Domain.StoryRefIntents

/-! Where the ids of a line stand, and which of them make a run. -/

namespace Storyhook.Domain.StoryRefs

open Library Library.Text Library.Utf8 Library.AsciiScan CommentSnippet

section Ids

variable (idPrefix line : Text)

theorem preceded_iff (raw : List UInt8) (place : Nat) :
    (0 < place ∧ (raw[place - 1]?).any isAsciiAlphanumeric = true) ↔
      precededBy isAsciiAlphanumeric raw place = true := by
  rw [precededBy, Bool.and_eq_true, decide_eq_true_eq]

theorem takeWhile_digits_back (digits back : Text)
    (numeric : ∀ digit ∈ digits, digit.isDigit = true)
    (ends : back.head?.any Char.isDigit = false) :
    (digits ++ back).takeWhile Char.isDigit = digits := by
  rw [List.takeWhile_append_of_pos numeric]
  cases back with
  | nil => rw [List.takeWhile_nil, List.append_nil]
  | cons first rest =>
      rw [List.takeWhile_cons_of_neg (by simpa using ends), List.append_nil]

theorem names_bytes (place stop : Nat) (front digits back : Text)
    (names : Names idPrefix line place stop front digits back) :
    (bytes line).drop place = bytes idPrefix ++ 45 :: bytes (digits ++ back) := by
  have dash : bytes ('-' :: (digits ++ back)) = 45 :: bytes (digits ++ back) := rfl
  have shape : line = front ++ (idPrefix ++ '-' :: (digits ++ back)) := by
    rw [names.split]
    simp
  rw [shape, bytes_append, ← names.starts,
    List.drop_left' (show (bytes front).length = size front from rfl), bytes_append, dash]

theorem idAt_unpreceded (needle raw : List UInt8) (place stop : Nat)
    (found : idAt needle raw place = some stop) :
    ¬(0 < place ∧ (raw[place - 1]?).any isAsciiAlphanumeric = true) := by
  intro preceded
  rw [idAt, if_pos preceded] at found
  cases found

theorem idAt_begins (place stop : Nat) (front digits back : Text)
    (names : Names idPrefix line place stop front digits back)
    (found : idAt (bytes idPrefix) (bytes line) place = some stop) :
    front.getLast?.any Char.isAlphanum = false := by
  have bare := idAt_unpreceded _ _ place stop found
  rw [preceded_iff, names.split, List.append_assoc, ← names.starts,
    precededBy_eq alphanumeric_agrees] at bare
  simpa using bare

theorem idAt_ends (place stop : Nat) (front digits back : Text)
    (names : Names idPrefix line place stop front digits back)
    (found : idAt (bytes idPrefix) (bytes line) place = some stop) :
    back.head?.any Char.isDigit = false := by
  obtain ⟨tail, cut, -, stops⟩ := idAt_bytes _ _ place stop found
  rw [names_bytes idPrefix line place stop front digits back names] at cut
  obtain rfl := (List.cons.inj (List.append_cancel_left cut)).2
  have sized : size (front ++ (idPrefix ++ '-' :: digits)) = size front + size idPrefix + 1 +
      size digits := by
    rw [size_append, size_append, size_cons]
    show _ = _ + 1 + _
    rw [show '-'.utf8Size = 1 from rfl]
    omega
  rw [takeWhile_digits, List.takeWhile_append_of_pos names.numeric, ← names.stops, sized,
    ← names.starts] at stops
  have none : size (back.takeWhile Char.isDigit) = 0 := by
    have whole : size (digits ++ back.takeWhile Char.isDigit) =
        size digits + size (back.takeWhile Char.isDigit) := size_append _ _
    have given : (bytes (digits ++ back.takeWhile Char.isDigit)).length =
      size (digits ++ back.takeWhile Char.isDigit) := rfl
    have needle : (bytes idPrefix).length = size idPrefix := rfl
    omega
  rw [size_eq_zero] at none
  cases back with
  | nil => rfl
  | cons first rest => simpa using none

theorem idAt_iff (place stop : Nat) :
    idAt (bytes idPrefix) (bytes line) place = some stop ↔ ∃ id, IdAt idPrefix line
      (place, stop) id := by
  constructor
  · intro found
    obtain ⟨front, digits, back, names⟩ := idAt_names idPrefix line place stop found
    exact ⟨_, front, digits, back, names, rfl, idAt_begins _ _ _ _ _ _ _ names found,
      idAt_ends _ _ _ _ _ _ _ names found⟩
  · rintro ⟨id, front, digits, back, names, -, begins, ends⟩
    have cut := names_bytes idPrefix line place stop front digits back names
    have bare : ¬(0 < place ∧ ((bytes line)[place - 1]?).any isAsciiAlphanumeric = true) := by
      have starts : size front = place := names.starts
      rw [preceded_iff, names.split, List.append_assoc, ← starts, precededBy_eq alphanumeric_agrees,
        begins]
      exact Bool.false_ne_true
    have dash : (bytes line)[place + (bytes idPrefix).length]? = some 45 := by
      rw [← List.getElem?_drop, cut, List.getElem?_append_right le_rfl, Nat.sub_self]
      rfl
    have rest : (bytes line).drop (place + (bytes idPrefix).length + 1) = bytes
      (digits ++ back) := by
      rw [Nat.add_assoc, ← List.drop_drop, cut, ← List.drop_drop, List.drop_left' rfl]
      rfl
    have numbers := takeWhile_digits_back digits back names.numeric ends
    have filled : bytes digits ≠ [] := by
      intro none
      refine names.some ((size_eq_zero digits).mp ?_)
      rw [size, none]
      rfl
    have stops : place + (bytes idPrefix).length + 1 + (bytes digits).length = stop := by
      have sized := names.stops
      rw [size_append, size_append, size_cons, names.starts] at sized
      have single : '-'.utf8Size = 1 := rfl
      have needle : (bytes idPrefix).length = size idPrefix := rfl
      have count : (bytes digits).length = size digits := rfl
      dsimp only at sized
      omega
    have matched : ((bytes line).drop place).take (bytes idPrefix).length = bytes idPrefix := by
      rw [cut, List.take_left' rfl]
    unfold idAt
    rw [if_neg bare, if_neg (not_not.mpr matched)]
    dsimp only
    rw [if_neg (not_not.mpr dash), rest, takeWhile_digits, numbers, if_neg filled, stops]

theorem prefix_bytes (project : ProjectPrefix idPrefix) : ∃ first rest,
    bytes idPrefix = first :: rest ∧ isAsciiDigit first = false ∧
      ∀ byte ∈ bytes idPrefix, isAsciiAlphanumeric byte = true := by
  obtain ⟨first, rest, rfl, letter, others⟩ := project
  have alphanumeric : first.isAlphanum = true := by rw [Char.isAlphanum, letter, Bool.true_or]
  have code : first.toNat < 128 ∧ ¬(48 ≤ first.toNat ∧ first.toNat ≤ 57) := by
    rw [isAlpha_iff] at letter
    omega
  refine ⟨first.val.toUInt8, bytes rest, ?_, ?_, fun byte member => ?_⟩
  · rw [bytes_cons, encode_ascii first code.1]
    rfl
  · have same : first.val.toUInt8.toNat = first.toNat := by
      rw [UInt32.toNat_toUInt8]
      exact Nat.mod_eq_of_lt (Nat.lt_of_lt_of_le code.1 (by decide))
    rw [← Bool.not_eq_true]
    simp only [isAsciiDigit, Bool.and_eq_true, decide_eq_true_eq, UInt8.le_iff_toNat_le, same]
    exact code.2
  · obtain ⟨c, inside, own⟩ := List.mem_flatMap.mp member
    rw [alphanumeric_agrees c byte own]
    rcases List.mem_cons.mp inside with rfl | later
    · exact alphanumeric
    · exact others c later

theorem idAt_apart (project : ProjectPrefix idPrefix) (raw : List UInt8)
    (one stop other ending : Nat)
    (here : idAt (bytes idPrefix) raw one = some stop)
    (there : idAt (bytes idPrefix) raw other = some ending) (later : one < other) :
    stop ≤ other := by
  obtain ⟨first, rest, needle, letter, letters⟩ := prefix_bytes idPrefix project
  obtain ⟨tail, cut, numbered, rfl⟩ := idAt_bytes _ _ one stop here
  obtain ⟨more, follows, -, -⟩ := idAt_bytes _ _ other ending there
  by_contra within
  have bare := idAt_unpreceded _ _ other ending there
  obtain ⟨before, rfl⟩ := Nat.exists_eq_add_of_lt later
  have byte : raw[one + before + 1 - 1]? = (bytes idPrefix ++ 45 :: tail)[before]? := by
    rw [Nat.add_sub_cancel, ← List.getElem?_drop, cut]
  rw [byte] at bare
  rcases Nat.lt_trichotomy before (bytes idPrefix).length with inside | same | past
  · refine bare ⟨Nat.succ_pos _, ?_⟩
    rw [List.getElem?_append_left inside, List.getElem?_eq_getElem inside, Option.any_some]
    exact letters _ (List.getElem_mem inside)
  · have next : raw.drop (one + before + 1) = tail := by
      rw [Nat.add_assoc, ← List.drop_drop, cut, same, ← List.drop_drop, List.drop_left' rfl]
      rfl
    rw [follows, needle] at next
    rw [← next, List.cons_append, List.takeWhile_cons_of_neg (by simp [letter])] at numbered
    exact numbered rfl
  · refine bare ⟨Nat.succ_pos _, ?_⟩
    obtain ⟨place, rfl⟩ := Nat.exists_eq_add_of_lt past
    have early : place < (tail.takeWhile isAsciiDigit).length := by omega
    have digit : tail[place]? = some (tail.takeWhile isAsciiDigit)[place] := by
      have whole : tail[place]? =
        (tail.takeWhile isAsciiDigit ++ tail.dropWhile isAsciiDigit)[place]? := by
        rw [List.takeWhile_append_dropWhile]
      rw [whole, List.getElem?_append_left early, List.getElem?_eq_getElem early]
    rw [List.getElem?_append_right (by omega), Nat.add_assoc, Nat.add_sub_cancel_left,
      List.getElem?_cons_succ, digit, Option.any_some, isAsciiAlphanumeric,
      List.mem_takeWhile_imp (List.getElem_mem early)]
    rfl

theorem idsFrom_sorted (needle raw : List UInt8) (fuel place : Nat) :
    (idsFrom needle raw fuel place).Pairwise (fun one next => one.2 ≤ next.1) ∧
      ∀ found ∈ idsFrom needle raw fuel place, place ≤ found.1 ∧ found.1 < found.2 := by
  induction fuel generalizing place with
  | zero => exact ⟨List.Pairwise.nil, fun _ none => nomatch none⟩
  | succ fuel further =>
      unfold idsFrom
      split
      · split
        · obtain ⟨sorted, after⟩ := further (place + 1)
          exact ⟨sorted, fun found member => ⟨Nat.le_of_succ_le (after found member).1,
            (after found member).2⟩⟩
        · next stop matched =>
            obtain ⟨tail, -, -, past⟩ := idAt_bytes needle raw place stop matched
            obtain ⟨sorted, after⟩ := further stop
            refine ⟨List.pairwise_cons.mpr ⟨fun found member => (after found member).1, sorted⟩, ?_⟩
            rw [List.forall_mem_cons]
            refine ⟨⟨le_rfl, by show place < stop; omega⟩, fun found member => ?_⟩
            have further := after found member
            exact ⟨by omega, further.2⟩
      · exact ⟨List.Pairwise.nil, fun _ none => nomatch none⟩

theorem idsFrom_complete (needle raw : List UInt8)
    (apart : ∀ one stop other ending, idAt needle raw one = some stop →
      idAt needle raw other = some ending → one < other → stop ≤ other)
    (fuel place start stop : Nat) (fuelled : raw.length ≤ place + fuel) (ahead : place ≤ start)
    (matched : idAt needle raw start = some stop) :
    (start, stop) ∈ idsFrom needle raw fuel place := by
  have inside : start + needle.length < raw.length := by
    obtain ⟨tail, cut, -, -⟩ := idAt_bytes needle raw start stop matched
    have long := congrArg List.length cut
    rw [List.length_drop, List.length_append, List.length_cons] at long
    omega
  induction fuel generalizing place with
  | zero => omega
  | succ fuel further =>
      rw [idsFrom, if_pos (by omega)]
      rcases Nat.eq_or_lt_of_le ahead with rfl | later
      · rw [matched]
        exact List.mem_cons_self
      · split
        · exact further (place + 1) (by omega) later
        · next ending found =>
            obtain ⟨tail, -, -, past⟩ := idAt_bytes needle raw place ending found
            exact List.mem_cons_of_mem _
              (further ending (by omega) (apart place ending start stop found matched later))

theorem idsFrom_sound (needle raw : List UInt8) (fuel start : Nat) (place : Nat × Nat)
    (found : place ∈ idsFrom needle raw fuel start) : idAt needle raw place.1 = some place.2 := by
  induction fuel generalizing start with
  | zero => cases found
  | succ fuel further =>
      rw [idsFrom] at found
      split at found
      · split at found
        · exact further _ found
        · next stop here =>
            rcases List.mem_cons.mp found with rfl | later
            · exact here
            · exact further _ later
      · cases found

theorem mem_idsInLine (project : ProjectPrefix idPrefix) (place : Nat × Nat) :
    place ∈ idsInLine idPrefix line ↔ ∃ id, IdAt idPrefix line place id := by
  constructor
  · intro member
    exact (idAt_iff idPrefix line _ _).mp (idsFrom_sound _ _ _ _ place member)
  · intro named
    exact idsFrom_complete _ _ (idAt_apart idPrefix project (bytes line)) (size line) 0 _ _
      (by rw [Nat.zero_add]; rfl) (Nat.zero_le _) ((idAt_iff idPrefix line _ _).mpr named)

end Ids

end Storyhook.Domain.StoryRefs
