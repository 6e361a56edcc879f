import Mathlib.Tactic.IntervalCases
import Storyhook.Daemon.ChangeFeed
import Storyhook.Daemon.Framing
import Storyhook.Library.AsciiScan
import Storyhook.Library.Lines

/-! What a subscriber reads of the change feed, however its bytes arrive. -/

namespace Storyhook.Daemon

open Storyhook.Library Storyhook.Domain

theorem fromUtf8_bytes (text : List Char) : fromUtf8 (Utf8.bytes text) = some text := by
  have same : (⟨(Utf8.bytes text).toArray⟩ : ByteArray) = (String.ofList text).toByteArray := by
    rw [String.toByteArray_ofList, List.utf8Encode, ByteArray.ext_iff, List.data_toByteArray]
    rfl
  rw [fromUtf8, same, String.fromUTF8?, dif_pos (String.isValidUTF8 _)]
  exact congrArg some String.toList_ofList

def Ascii (text : List Char) : Prop := ∀ c ∈ text, c.toNat < 128

theorem bytes_ascii (text : List Char) (ascii : Ascii text) :
    Utf8.bytes text = text.map fun c => UInt8.ofNat c.toNat := by
  induction text with
  | nil => rfl
  | cons first rest further =>
      rw [Utf8.bytes_cons, AsciiScan.encode_ascii first (ascii first List.mem_cons_self),
        further fun c member => ascii c (List.mem_cons_of_mem _ member)]
      rfl

theorem bytes_front (text : List Char) (ascii : Ascii text) (front back : List UInt8)
    (split : Utf8.bytes text = front ++ back) :
    ∃ before after, text = before ++ after ∧ front = Utf8.bytes before ∧
      back = Utf8.bytes after := by
  rw [bytes_ascii text ascii] at split
  obtain ⟨before, after, rfl, rfl, rfl⟩ := List.map_eq_append_iff.mp split
  refine ⟨before, after, rfl, ?_, ?_⟩
  · rw [bytes_ascii _ fun c member => ascii c (List.mem_append_left _ member)]
  · rw [bytes_ascii _ fun c member => ascii c (List.mem_append_right _ member)]

theorem digitValue_digitChar (digit : Nat) (small : digit < 16) :
    digitValue digit.digitChar = some digit := by
  interval_cases digit <;> rfl

theorem digitsValue_append (radix : Nat) (front back : List Char) :
    digitsValue radix (front ++ back) =
      (digitsValue radix front).bind fun value => back.foldlM (fun value c =>
        (digitValue c).bind fun digit =>
          if digit < radix then some (value * radix + digit) else none) value :=
  List.foldlM_append

theorem digitsValue_toDigits (size : Nat) : digitsValue 16 (Nat.toDigits 16 size) = some size := by
  induction size using Nat.strongRecOn with
  | ind size further =>
      rw [Nat.toDigits_eq_if (by decide)]
      split_ifs with small
      · simp [digitsValue, digitValue_digitChar size small, small]
      · have last : size % 16 < 16 := Nat.mod_lt _ (by decide)
        rw [digitsValue_append, further (size / 16) (Nat.div_lt_self (by omega) (by decide))]
        simp [digitValue_digitChar _ last, last]
        omega

theorem toDigits_graphic (size : Nat) (c : Char) (member : c ∈ Nat.toDigits 16 size) :
    isAsciiHexdigit c = true :=
  digitsValue_sixteen _ size (digitsValue_toDigits size) c member

theorem u64FromStr_toDigits (size : Nat) (fits : size < 2 ^ 64) :
    u64FromStr 16 (Nat.toDigits 16 size) = some size := by
  have unsigned : ∀ rest, Nat.toDigits 16 size ≠ '+' :: rest := by
    intro rest signed
    have graphic := toDigits_graphic size '+' (signed ▸ List.mem_cons_self)
    exact absurd graphic (by decide)
  have filled : (Nat.toDigits 16 size).isEmpty = false := by simp [Nat.toDigits_ne_nil]
  unfold u64FromStr
  split
  · next rest signed => exact absurd signed (unsigned rest)
  · simp only [filled, Bool.false_eq_true, if_false, digitsValue_toDigits]
    exact Option.filter_eq_some_iff.mpr ⟨rfl, decide_eq_true fits⟩

theorem toDigits_code (size : Nat) (c : Char) (member : c ∈ Nat.toDigits 16 size) :
    48 ≤ c.toNat ∧ c.toNat ≤ 102 :=
  isAsciiHexdigit_toNat c (toDigits_graphic size c member)

theorem trimEnd_spaced (core trail : List Char) (space : ∀ c ∈ trail, Text.isWhitespace c = true)
    (solid : ∀ c ∈ core, Text.isWhitespace c = false) : trimEnd (core ++ trail) = core := by
  rw [trimEnd, List.reverse_append, Text.dropWhile_padded _ _ (by simpa using space),
    List.reverse_reverse]
  intro c first
  exact solid c (List.mem_reverse.mp (List.mem_of_mem_head? first))

theorem trimEnd_sizeLine (size : Nat) : trimEnd (sizeLine size) = Nat.toDigits 16 size := by
  refine trimEnd_spaced _ _ (List.all_eq_true.mp (by decide)) fun c member => ?_
  have code := toDigits_code size c member
  exact not_whitespace_of_graphic c (by omega) (by omega)

theorem sizeLine_ascii (size : Nat) : Ascii (sizeLine size) := by
  intro c member
  rcases List.mem_append.mp member with digit | ending
  · have code := toDigits_code size c digit
    omega
  · rcases List.mem_pair.mp ending with rfl | rfl <;> decide

theorem sizeLine_newline (size : Nat) : ∃ body, sizeLine size = body ++ ['\n'] ∧ '\n' ∉ body := by
  refine ⟨Nat.toDigits 16 size ++ ['\r'], by simp [sizeLine], fun member => ?_⟩
  rcases List.mem_append.mp member with digit | ending
  · have code := toDigits_code size _ digit
    exact absurd code (by decide)
  · exact absurd ending (by decide)

/-- What is still to arrive of the texts written, once a connection has read so far. -/
inductive Due : Connection → List (List Char) → List UInt8 → Prop
  | line (seen rest text : List Char) (texts : List (List Char))
      (split : sizeLine (Utf8.size text) = seen ++ rest) (more : rest ≠ []) :
      Due ⟨seen, .size⟩ (text :: texts)
        (Utf8.bytes rest ++ (Utf8.bytes text ++ chunkEnd ++ written texts))
  | body (buf rest : List UInt8) (text : List Char) (texts : List (List Char))
      (split : Utf8.bytes text ++ chunkEnd = buf ++ rest) (more : rest ≠ []) :
      Due ⟨[], .body (Utf8.size text + 2) buf⟩ (text :: texts) (rest ++ written texts)
  | idle : Due .fresh [] []

theorem Due.fresh (texts : List (List Char)) : Due .fresh texts (written texts) := by
  cases texts with
  | nil => exact .idle
  | cons text texts =>
      have due := Due.line [] (sizeLine (Utf8.size text)) text texts rfl (by simp [sizeLine])
      rwa [← List.append_assoc, ← List.append_assoc] at due

/-- The first of the texts, if there is one, has not arrived whole when this much is lost. -/
def Torn (texts : List (List Char)) (lost : List UInt8) : Prop :=
  texts = [] ∨ (written texts.tail).length < lost.length

inductive Advanced (texts : List (List Char)) (lost : List UInt8)
    (arrivals : List (Arrival UInt8)) : Advance → Prop
  | frame (text : List Char) (others : List (List Char)) (conn : Connection)
      (rest : List (Arrival UInt8)) (first : texts = text :: others)
      (due : Due conn others (arrived rest ++ lost)) (shorter : rest.length < arrivals.length) :
      Advanced texts lost arrivals (.ok (some text), conn, rest)
  | waits (conn : Connection) (rest : List (Arrival UInt8))
      (due : Due conn texts (arrived rest ++ lost)) (shorter : rest.length < arrivals.length) :
      Advanced texts lost arrivals (.ok none, conn, rest)
  | fails (error : FeedError) (conn : Connection) (torn : Torn texts lost) :
      Advanced texts lost arrivals (.error error, conn, [])

theorem sizeLine_rest (size : Nat) (seen rest : List Char) (split : sizeLine size = seen ++ rest)
    (more : rest ≠ []) : Ascii rest ∧ ∃ front, Utf8.bytes rest = front ++ [10] ∧
      ∀ value ∈ front, feedNewline value = false := by
  have ascii : Ascii rest := fun c member =>
    sizeLine_ascii size c (split ▸ List.mem_append_right _ member)
  obtain ⟨body, ended, clear⟩ := sizeLine_newline size
  obtain ⟨front, last, rfl⟩ := List.eq_nil_or_concat' rest |>.resolve_left more
  rw [ended, ← List.append_assoc] at split
  obtain ⟨rfl, rfl⟩ := List.append_inj' split rfl |>.imp_right List.singleton_inj.mp
  have frontAscii : Ascii front := fun c member => ascii c (List.mem_append_left _ member)
  refine ⟨ascii, front.map fun c => UInt8.ofNat c.toNat, ?_, ?_⟩
  · rw [bytes_ascii _ ascii, List.map_append]
    rfl
  · intro value member
    obtain ⟨c, inside, rfl⟩ := List.mem_map.mp member
    have small := frontAscii c inside
    have other : c ≠ '\n' := fun same => clear (same ▸ List.mem_append_right _ inside)
    have code : c.toNat ≠ 10 := fun same => other (Char.toNat_inj.mp same)
    rw [feedNewline, beq_eq_false_iff_ne]
    intro same
    have equal := congrArg UInt8.toNat same
    rw [UInt8.toNat_ofNat'] at equal
    have ten : (10 : UInt8).toNat = 10 := rfl
    omega

theorem line_remains (size : Nat) (seen rest : List Char) (back got later : List UInt8)
    (split : sizeLine size = seen ++ rest) (more : rest ≠ [])
    (due : Utf8.bytes rest ++ back = got ++ later)
    (clear : ∀ value ∈ got, feedNewline value = false) :
    ∃ before after, rest = before ++ after ∧ got = Utf8.bytes before ∧ after ≠ [] ∧
      Utf8.bytes after ++ back = later := by
  obtain ⟨ascii, front, ended, -⟩ := sizeLine_rest size seen rest split more
  have short : got.length < (Utf8.bytes rest).length := by
    by_contra long
    rcases List.append_eq_append_iff.mp due with ⟨further, taken, -⟩ | ⟨further, taken, -⟩
    · have member : 10 ∈ got := by simp [taken, ended]
      exact absurd (clear 10 member) (by decide)
    · have none : further = [] := by
        have length := congrArg List.length taken
        rw [List.length_append] at length
        exact List.eq_nil_of_length_eq_zero (by omega)
      rw [none, List.append_nil] at taken
      have member : 10 ∈ got := by simp [← taken, ended]
      exact absurd (clear 10 member) (by decide)
  obtain ⟨further, whole, filled, kept⟩ := front_remains _ _ _ _ due short
  obtain ⟨before, after, rfl, rfl, rfl⟩ := bytes_front rest ascii got further whole
  refine ⟨before, after, rfl, rfl, ?_, kept⟩
  rintro rfl
  exact filled rfl

theorem line_complete (size : Nat) (seen rest : List Char) (back front later : List UInt8)
    (last : UInt8) (split : sizeLine size = seen ++ rest) (more : rest ≠ [])
    (due : Utf8.bytes rest ++ back = front ++ [last] ++ later)
    (stops : feedNewline last = true)
    (clear : ∀ value ∈ front, feedNewline value = false) :
    front ++ [last] = Utf8.bytes rest ∧ later = back := by
  obtain ⟨-, body, ended, without⟩ := sizeLine_rest size seen rest split more
  obtain rfl : last = 10 := beq_iff_eq.mp stops
  have same := congrArg (List.takeWhile fun value => !feedNewline value) due
  rw [ended, List.append_assoc, List.append_assoc, List.singleton_append, List.singleton_append,
    List.takeWhile_append_of_pos (fun value member => by simp [without value member]),
    List.takeWhile_append_of_pos (fun value member => by simp [clear value member]),
    List.takeWhile_cons_of_neg (by decide), List.takeWhile_cons_of_neg (by decide),
    List.append_nil, List.append_nil] at same
  subst same
  rw [ended] at due ⊢
  exact ⟨rfl, (List.append_cancel_left due).symm⟩

theorem Advanced.mono {texts : List (List Char)} {lost : List UInt8}
    {later : List (Arrival UInt8)} {advance : Advance}
    (advanced : Advanced texts lost later advance)
    (arrivals : List (Arrival UInt8)) (shorter : later.length ≤ arrivals.length) :
    Advanced texts lost arrivals advance := by
  cases advanced with
  | frame text others conn rest first due before =>
      exact .frame text others conn rest first due (Nat.lt_of_lt_of_le before shorter)
  | waits conn rest due before => exact .waits conn rest due (Nat.lt_of_lt_of_le before shorter)
  | fails error conn torn => exact .fails error conn torn

section Advances

variable (lossy : List UInt8 → List Char)
  (decodes : ∀ text, lossy (Utf8.bytes text) = text)

include decodes

theorem advanceIn_body (fuel : Nat) (buf rest lost : List UInt8) (text : List Char)
    (texts : List (List Char)) (arrivals : List (Arrival UInt8))
    (split : Utf8.bytes text ++ chunkEnd = buf ++ rest) (more : rest ≠ [])
    (due : rest ++ written texts = arrived arrivals ++ lost) :
    Advanced (text :: texts) lost arrivals
      (Connection.advanceIn lossy (fuel + 1) ⟨[], .body (Utf8.size text + 2) buf⟩ arrivals) := by
  have length : Utf8.size text + 2 = buf.length + rest.length := by
    have length := congrArg List.length split
    rw [List.length_append, List.length_append] at length
    exact length
  obtain ⟨got, ending, later, read, reads, whole, short⟩ :=
    readUpTo_reads (Utf8.size text + 2) buf arrivals (by omega)
  rw [reads.taken, List.append_assoc] at due
  simp only [Connection.advanceIn, read]
  have shorter := reads.shorter
  cases ending with
  | complete =>
      have filled := whole rfl
      obtain ⟨rfl, written⟩ := List.append_inj due (by omega)
      have taken : (buf ++ rest).take (Utf8.size text + 2 - 2) = Utf8.bytes text := by
        rw [← split]
        exact List.take_left
      have positive := List.length_pos_iff.mpr more
      dsimp only
      rw [taken, decodes]
      refine .frame text texts _ later rfl ?_ (by omega)
      rw [← written]
      exact Due.fresh texts
  | timedOut =>
      have filling := short (by simp)
      obtain ⟨back, rfl, further, kept⟩ := front_remains rest (written texts) got _ due (by omega)
      have waited := reads.waited rfl
      refine .waits _ later ?_ (by omega)
      rw [← kept]
      exact .body (buf ++ got) back text texts (by rw [split, List.append_assoc]) further
  | closed =>
      have filling := short (by simp)
      obtain ⟨back, rfl, further, kept⟩ := front_remains rest (written texts) got _ due (by omega)
      obtain rfl := reads.closed rfl
      have positive := List.length_pos_iff.mpr further
      refine .fails _ _ (Or.inr ?_)
      rw [arrived_nil, List.nil_append] at kept
      rw [List.tail_cons, ← kept, List.length_append]
      omega

theorem advance_due (conn : Connection) (texts : List (List Char)) (due lost : List UInt8)
    (arrivals : List (Arrival UInt8)) (awaits : Due conn texts due)
    (arrives : due = arrived arrivals ++ lost)
    (fits : ∀ text ∈ texts, Utf8.size text < 2 ^ 64) :
    Advanced texts lost arrivals (conn.advance lossy arrivals) := by
  rw [Connection.advance]
  cases awaits with
  | idle =>
      obtain ⟨none, rfl⟩ := List.append_eq_nil_iff.mp arrives.symm
      obtain ⟨got, ending, later, read, reads, kept⟩ := readUntil_reads feedNewline [] arrivals
      have taken := reads.taken
      rw [none] at taken
      obtain ⟨rfl, rest⟩ := List.append_eq_nil_iff.mp taken.symm
      rw [List.append_nil] at read
      have blank : fromUtf8 [] = some [] := fromUtf8_bytes []
      simp only [Connection.advanceIn, Connection.fresh, read, blank]
      cases ending with
      | complete =>
          obtain ⟨front, last, impossible, -⟩ := kept
          simp at impossible
      | timedOut =>
          have waited := reads.waited rfl
          refine .waits _ later ?_ (by simpa using waited)
          rw [rest]
          exact Due.idle
      | closed =>
          obtain rfl := reads.closed rfl
          exact .fails _ _ (Or.inl rfl)
  | body buf rest text texts split more =>
      exact advanceIn_body lossy decodes _ buf rest lost text texts arrivals split more arrives
  | line seen rest text texts split more =>
      obtain ⟨got, ending, later, read, reads, kept⟩ := readUntil_reads feedNewline [] arrivals
      rw [reads.taken, List.append_assoc got] at arrives
      have shorter := reads.shorter
      rw [List.nil_append] at read
      simp only [Connection.advanceIn, read]
      cases ending with
      | complete =>
          obtain ⟨front, last, rfl, stops, clear⟩ := kept
          obtain ⟨whole, remains⟩ :=
            line_complete _ seen rest _ front _ last split more arrives stops clear
          rw [whole, fromUtf8_bytes]
          have size := u64FromStr_toDigits _ (fits text List.mem_cons_self)
          have filled : (Nat.toDigits 16 (Utf8.size text)).isEmpty = false := by
            simp [Nat.toDigits_ne_nil]
          simp only [← split, trimEnd_sizeLine, filled, size, Bool.false_eq_true, if_false]
          obtain ⟨fuel, enough⟩ : ∃ fuel, arrivals.length = fuel + 1 := by
            refine ⟨arrivals.length - 1, ?_⟩
            simp only [List.length_append, List.length_singleton] at shorter
            omega
          rw [enough]
          refine (advanceIn_body lossy decodes fuel [] (Utf8.bytes text ++ chunkEnd) lost text texts
            later rfl (by simp [chunkEnd]) remains.symm).mono arrivals ?_
          omega
      | timedOut =>
          obtain ⟨before, after, rfl, rfl, further, remains⟩ :=
            line_remains _ seen rest _ got _ split more arrives kept
          have waited := reads.waited rfl
          simp only [fromUtf8_bytes]
          refine .waits _ later ?_ (by omega)
          rw [← remains]
          exact .line (seen ++ before) after text texts (by rw [split, List.append_assoc]) further
      | closed =>
          obtain ⟨before, after, rfl, rfl, further, remains⟩ :=
            line_remains _ seen rest _ got _ split more arrives kept
          obtain rfl := reads.closed rfl
          rw [arrived_nil, List.nil_append] at remains
          have torn : Torn (text :: texts) lost := by
            refine Or.inr ?_
            rw [List.tail_cons, ← remains]
            simp only [List.length_append, chunkEnd, List.length_cons]
            omega
          simp only [fromUtf8_bytes]
          split_ifs with none
          · exact .fails _ _ torn
          · have positive : 0 < (Utf8.bytes before).length := by
              rw [List.length_pos_iff]
              simpa using none
            refine .waits _ [] ?_ (Nat.lt_of_lt_of_le (Nat.lt_add_right _ positive) shorter)
            rw [arrived_nil, List.nil_append, ← remains]
            exact .line (seen ++ before) after text texts (by rw [split, List.append_assoc]) further

end Advances

end Storyhook.Daemon
