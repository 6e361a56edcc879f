import Mathlib.Data.List.DropRight
import Storyhook.Library.Utf8

/-! Scanning the bytes of a text backwards for ASCII characters. -/

namespace Storyhook.Library.AsciiScan

open Utf8

def precededBy (wanted : UInt8 → Bool) (raw : List UInt8) (place : Nat) : Bool :=
  0 < place && (raw[place - 1]?).any wanted

def skipBack (skipped : UInt8 → Bool) (raw : List UInt8) : Nat → Nat
  | 0 => 0
  | place + 1 => if precededBy skipped raw
      (place + 1) then skipBack skipped raw place else place + 1

def ByteWise (onBytes : UInt8 → Bool) (onChars : Char → Bool) : Prop :=
  ∀ character, ∀ byte ∈ String.utf8EncodeChar character, onBytes byte = onChars character

theorem encode_ascii (character : Char) (small : character.toNat < 128) :
    String.utf8EncodeChar character = [character.val.toUInt8] := by
  refine String.utf8EncodeChar_eq_singleton (Char.utf8Size_eq_one_iff.mpr ?_)
  rw [UInt32.le_iff_toNat_le]
  exact Nat.le_of_lt_succ small

theorem ascii_of_mem (character : Char) (byte : UInt8)
    (member : byte ∈ String.utf8EncodeChar character) (small : byte.toNat < 128) :
    character.toNat = byte.toNat ∧ String.utf8EncodeChar character = [byte] := by
  let other : Char := ⟨byte.toUInt32, Or.inl (by rw [UInt8.toNat_toUInt32]; omega)⟩
  have code : other.toNat = byte.toNat := UInt8.toNat_toUInt32 byte
  have single : String.utf8EncodeChar other = [byte] := by
    rw [encode_ascii other (code ▸ small)]
    exact congrArg (fun byte => [byte]) (UInt8.toUInt8_toUInt32 byte)
  have starts : byte.IsUTF8FirstByte := by
    have first := UInt8.isUTF8FirstByte_getElem_zero_utf8EncodeChar (c := other)
    simp only [single] at first
    exact first
  obtain ⟨place, inside, found⟩ := List.getElem_of_mem member
  obtain rfl := UInt8.isUTF8FirstByte_getElem_utf8EncodeChar.mp (found ▸ starts)
  have same : character = other := by
    refine head_eq character other [] ((String.utf8EncodeChar character).drop 1) ?_
    rw [single, List.append_nil, List.singleton_append, ← found, List.getElem_cons_drop,
      List.drop_zero]
  exact ⟨same ▸ code, same ▸ single⟩

theorem agrees_ascii (onBytes : UInt8 → Bool) (onChars : Char → Bool)
    (small : ∀ byte, onBytes byte = true → byte.toNat < 128)
    (narrow : ∀ character, onChars character = true → character.toNat < 128)
    (same : ∀ (byte : UInt8) (character : Char), character.toNat = byte.toNat →
      onBytes byte = onChars character) : ByteWise onBytes onChars := by
  intro character byte member
  by_cases ascii : byte.toNat < 128
  · exact same byte character (ascii_of_mem character byte member ascii).1
  · have wide : onChars character = false := by
      by_contra told
      have low := narrow character (by simpa using told)
      rw [encode_ascii character low, List.mem_singleton] at member
      rw [member, UInt32.toNat_toUInt8] at ascii
      exact ascii (Nat.lt_of_le_of_lt (Nat.mod_le _ _) low)
    rw [wide, ← Bool.not_eq_true]
    exact fun told => ascii (small byte told)

theorem single_agrees (wanted : Char) (small : wanted.toNat < 128) :
    ByteWise (· == wanted.val.toUInt8) (· = wanted) := by
  have code : wanted.val.toUInt8.toNat = wanted.toNat := by
    rw [UInt32.toNat_toUInt8]
    exact Nat.mod_eq_of_lt (Nat.lt_of_lt_of_le small (by decide))
  refine agrees_ascii _ _ (fun byte told => ?_) (fun character told => ?_)
    fun byte character same => ?_
  · rw [eq_of_beq told, code]
    exact small
  · rw [of_decide_eq_true told]
    exact small
  · rw [Bool.eq_iff_iff, beq_iff_eq, decide_eq_true_eq, ← UInt8.toNat_inj, code, ← same]
    constructor
    · exact fun eq => Char.ext (UInt32.toNat_inj.mp eq)
    · exact fun eq => eq ▸ rfl

theorem ByteWise.or (onBytes otherBytes : UInt8 → Bool) (onChars otherChars : Char → Bool)
    (one : ByteWise onBytes onChars) (other : ByteWise otherBytes otherChars) :
    ByteWise (fun byte => onBytes byte || otherBytes byte) fun c => onChars c || otherChars c := by
  intro character byte member
  show (onBytes byte || otherBytes byte) = _
  rw [one character byte member, other character byte member]

section Back

variable {onBytes : UInt8 → Bool} {onChars : Char → Bool}

theorem precededBy_eq (agrees : ByteWise onBytes onChars) (front back : List Char) :
    precededBy onBytes (bytes (front ++ back)) (size front) = front.getLast?.any onChars := by
  rcases List.eq_nil_or_concat' front with rfl | ⟨init, last, rfl⟩
  · rfl
  · have filled : 0 < (String.utf8EncodeChar last).length := by
      rw [String.length_utf8EncodeChar]
      exact last.utf8Size_pos
    have sized : size (init ++ [last]) = size init + (String.utf8EncodeChar last).length := by
      rw [size_append, size_cons, String.length_utf8EncodeChar]
      rfl
    have place : size init + (String.utf8EncodeChar last).length - 1 =
        (bytes init).length + ((String.utf8EncodeChar last).length - 1) := by
      rw [size]
      omega
    have final : (bytes (init ++ [last] ++ back))[size (init ++ [last]) - 1]? =
        some ((String.utf8EncodeChar last)[(String.utf8EncodeChar last).length - 1]) := by
      rw [sized, place, List.append_assoc, bytes_append, List.getElem?_append_right
        (Nat.le_add_right _ _),
        Nat.add_sub_cancel_left, List.singleton_append, bytes_cons,
        List.getElem?_append_left (by omega), List.getElem?_eq_getElem (by omega)]
    rw [precededBy, final, sized, List.getLast?_concat, Option.any_some, Option.any_some,
      agrees last _ (List.getElem_mem _), decide_eq_true (by omega), Bool.true_and]

theorem skipBack_within (agrees : ByteWise onBytes onChars) (front : List Char) (last : Char)
    (back : List Char)
    (skipped : onChars last = true) (more : Nat) (within : more ≤ last.utf8Size) :
    skipBack onBytes (bytes (front ++ last :: back)) (size front + more) =
      skipBack onBytes (bytes (front ++ last :: back)) (size front) := by
  induction more with
  | zero => rfl
  | succ more further =>
      have inside : more < (String.utf8EncodeChar last).length := by
        rw [String.length_utf8EncodeChar]
        exact within
      have here : (bytes (front ++ last :: back))[size front + more]? =
          some (String.utf8EncodeChar last)[more] := by
        rw [bytes_append, size, List.getElem?_append_right (Nat.le_add_right _ _),
          Nat.add_sub_cancel_left, bytes_cons, List.getElem?_append_left inside,
          List.getElem?_eq_getElem inside]
      rw [← Nat.add_assoc, skipBack, if_pos]
      · exact further (Nat.le_of_succ_le within)
      · rw [precededBy, Nat.add_sub_cancel, here, Option.any_some, agrees last _
          (List.getElem_mem _),
          skipped]
        simp

theorem skipBack_eq (agrees : ByteWise onBytes onChars) (front back : List Char) :
    skipBack onBytes (bytes (front ++ back)) (size front) = size (front.rdropWhile onChars) := by
  induction front using List.reverseRecOn generalizing back with
  | nil => rfl
  | append_singleton init last further =>
      rw [List.rdropWhile_concat]
      by_cases kind : onChars last = true
      · rw [if_pos kind, List.append_assoc, List.singleton_append, ← further (last :: back),
          ← skipBack_within agrees init last back kind last.utf8Size le_rfl, size_append, size_cons]
        rfl
      · rw [if_neg kind]
        have stop := precededBy_eq agrees (init ++ [last]) back
        rw [List.getLast?_concat, Option.any_some, Bool.eq_false_iff.mpr kind] at stop
        cases reach : size (init ++ [last]) with
        | zero => rfl
        | succ place =>
            rw [reach] at stop
            rw [skipBack, if_neg (by rw [stop]; exact Bool.false_ne_true)]

theorem rdropWhile_exact (body tail : List Char) (inside : ∀ c ∈ tail, onChars c = true)
    (stop : body.getLast?.any onChars = false) : (body ++ tail).rdropWhile onChars = body := by
  induction tail using List.reverseRecOn with
  | nil =>
      rw [List.append_nil]
      rcases List.eq_nil_or_concat' body with rfl | ⟨init, last, rfl⟩
      · rfl
      · rw [List.getLast?_concat, Option.any_some] at stop
        rw [List.rdropWhile_concat_neg _ _ _ (by simp [stop])]
  | append_singleton init last further =>
      rw [← List.append_assoc, List.rdropWhile_concat_pos _ _ _ (inside last (by simp))]
      exact further fun c member => inside c (List.mem_append_left _ member)

theorem skipBack_exact (agrees : ByteWise onBytes onChars) (line body tail back : List Char)
    (split : line = body ++ tail ++ back) (inside : ∀ c ∈ tail, onChars c = true)
    (stop : body.getLast?.any onChars = false) :
    skipBack onBytes (bytes line) (size (body ++ tail)) = size body := by
  rw [split, skipBack_eq agrees, rdropWhile_exact body tail inside stop]

end Back

end Storyhook.Library.AsciiScan
