import Storyhook.Daemon.Body
import Storyhook.Domain.FoldStory
import Storyhook.Library.Outcome

/-! How the length of a body may be spelled, in its headers and in its chunk lines. -/

namespace Storyhook.Daemon

open Storyhook.Library Storyhook.Domain

def isOws (c : Char) : Bool := c == ' ' || c == '\t'

def Padded (core text : List Char) : Prop :=
  ∃ lead trail, text = lead ++ core ++ trail ∧ ∀ c ∈ lead ++ trail, isOws c = true

/-- The text is a number in decimal digits, with optional whitespace around them. -/
def Decimal (text : List Char) (value : Nat) : Prop :=
  ∃ digits, Padded digits text ∧ digits ≠ [] ∧ (∀ c ∈ digits, c.isDigit = true) ∧
    Nat.ofDigitChars 10 digits 0 = value

/-- The text is hexadecimal digits, with optional whitespace around them. -/
def Hexadecimal (text : List Char) : Prop :=
  ∃ digits, Padded digits text ∧ digits ≠ [] ∧ ∀ c ∈ digits, isAsciiHexdigit c = true

def NamesChunked (text : List Char) : Prop :=
  ∃ coding, Padded coding text ∧ Text.toAsciiLowercase coding = "chunked".toList

/-- The values of the headers with this name. -/
def valuesOf (name : String) (headers : List Header) : List (List Char) :=
  (headers.filter (·.is name)).map (·.value.toList)

def Unambiguous (headers : List Header) : Framing → Prop
  | .length bytes => valuesOf "Transfer-Encoding" headers = [] ∧
      valuesOf "Content-Length" headers ≠ [] ∧
      ∀ value ∈ valuesOf "Content-Length" headers, Decimal value bytes
  | .chunked => valuesOf "Content-Length" headers = [] ∧
      ∃ coding, valuesOf "Transfer-Encoding" headers = [coding] ∧ NamesChunked coding
  | .none => valuesOf "Content-Length" headers = [] ∧ valuesOf "Transfer-Encoding" headers = []

def PlainlyPadded (text : List Char) : Prop := Padded (Text.trim text) text

def PlainlySpelled (text : List Char) : Prop :=
  PlainlyPadded text ∧ (Text.trim text).head? ≠ some '+'

/-- What the headers are taken to say, however their values are spelled. -/
def Names (headers : List Header) : Framing → Prop
  | .length bytes => valuesOf "Transfer-Encoding" headers = [] ∧
      valuesOf "Content-Length" headers ≠ [] ∧
      ∀ value ∈ valuesOf "Content-Length" headers, u64FromStr 10 (Text.trim value) = some bytes
  | .chunked => valuesOf "Content-Length" headers = [] ∧
      ∃ coding, valuesOf "Transfer-Encoding" headers = [coding] ∧
        Text.toAsciiLowercase (Text.trim coding) = "chunked".toList
  | .none => valuesOf "Content-Length" headers = [] ∧ valuesOf "Transfer-Encoding" headers = []

/-- Headers are taken only in the one way there is to name a framing. -/
def FramingUnambiguous (headers : List Header) : Prop :=
  ∀ framing, framingFromHeaders headers = .ok framing → Unambiguous headers framing

/-- A chunk line is taken only with hexadecimal digits before its extension. -/
def ChunkSizeUnambiguous (line : List UInt8) : Prop :=
  ∀ size, chunkSize line = .ok size →
    ∃ text, fromUtf8 line = some text ∧ Hexadecimal (text.takeWhile (· != ';'))

/-- Headers that name a framing spell it plainly. -/
def PlainFraming (headers : List Header) : Prop :=
  ∀ framing, Names headers framing →
    (∀ value ∈ valuesOf "Content-Length" headers, PlainlySpelled value) ∧
      ∀ value ∈ valuesOf "Transfer-Encoding" headers, PlainlyPadded value

/-- A chunk line that has a size spells it plainly. -/
def PlainChunkSize (line : List UInt8) : Prop :=
  ∀ text ∈ fromUtf8 line, ∀ size ∈ u64FromStr 16 (Text.trim (text.takeWhile (· != ';'))),
    PlainlySpelled (text.takeWhile (· != ';'))

/-! ### The scan of the headers -/

/-- What a scan does to the length it has, over the values of `Content-Length`. -/
def Lengths (before after : Option Nat) (values : List (List Char)) : Prop :=
  (values = [] → after = before) ∧ (∀ bytes, before = some bytes → after = some bytes) ∧
    ∀ value ∈ values, ∃ bytes, u64FromStr 10 (Text.trim value) = some bytes ∧ after = some bytes

/-- What a scan does to whether the body is chunked, over the values of `Transfer-Encoding`. -/
def Codings (before after : Bool) (values : List (List Char)) : Prop :=
  (values = [] → after = before) ∧ (values ≠ [] → before = false ∧ after = true) ∧
    values.length ≤ 1 ∧
    ∀ value ∈ values, Text.toAsciiLowercase (Text.trim value) = "chunked".toList

theorem is_exclusive (header : Header) (length : header.is "Content-Length" = true) :
    header.is "Transfer-Encoding" = false := by
  rw [Header.is, beq_iff_eq] at length
  rw [Header.is, length]
  decide

theorem valuesOf_cons (name : String) (header : Header) (headers : List Header) :
    valuesOf name (header :: headers) =
      if header.is name then header.value.toList :: valuesOf name headers
      else valuesOf name headers := by
  rw [valuesOf, List.filter_cons]
  split <;> rfl

theorem lengths_cons (before after : Option Nat) (value : List Char) (values : List (List Char)) :
    Lengths before after (value :: values) ↔
      ∃ bytes, u64FromStr 10 (Text.trim value) = some bytes ∧
        (before = none ∨ before = some bytes) ∧ Lengths (some bytes) after values := by
  constructor
  · rintro ⟨-, kept, each⟩
    obtain ⟨bytes, read, rfl⟩ := each value List.mem_cons_self
    refine ⟨bytes, read, ?_, fun _ => rfl, fun _ same => same,
      fun other member => each other (List.mem_cons_of_mem _ member)⟩
    cases before with
    | none => exact Or.inl rfl
    | some existing => exact Or.inr (kept existing rfl).symm
  · rintro ⟨bytes, read, fits, -, kept, each⟩
    refine ⟨fun none => absurd none (List.cons_ne_nil _ _), ?_, ?_⟩
    · rintro existing rfl
      rcases fits with none | same
      · cases none
      · exact same ▸ kept bytes rfl
    · rintro other member
      rcases List.mem_cons.mp member with rfl | later
      · exact ⟨bytes, read, kept bytes rfl⟩
      · exact each other later

theorem codings_cons (before after : Bool) (value : List Char) (values : List (List Char)) :
    Codings before after (value :: values) ↔
      Text.toAsciiLowercase (Text.trim value) = "chunked".toList ∧ before = false ∧
        Codings true after values := by
  constructor
  · rintro ⟨-, once, alone, each⟩
    obtain rfl : values = [] := by
      rw [List.length_cons] at alone
      exact List.length_eq_zero_iff.mp (by omega)
    obtain ⟨before, after⟩ := once (List.cons_ne_nil _ _)
    exact ⟨each value List.mem_cons_self, before, fun _ => after, fun some => absurd rfl some,
      Nat.zero_le _, fun _ member => nomatch member⟩
  · rintro ⟨named, before, same, once, alone, each⟩
    obtain rfl : values = [] := by
      by_contra some
      cases (once some).1
    refine ⟨fun none => absurd none (List.cons_ne_nil _ _), fun _ => ⟨before, same rfl⟩,
      Nat.le_refl _, ?_⟩
    rintro other member
    rw [List.mem_singleton.mp member]
    exact named

theorem foldlM_header (headers : List Header) (start scan : FramingScan) :
    headers.foldlM FramingScan.header start = .ok scan ↔
      Lengths start.contentLength scan.contentLength (valuesOf "Content-Length" headers) ∧
        Codings start.chunked scan.chunked (valuesOf "Transfer-Encoding" headers) := by
  induction headers generalizing start with
  | nil =>
      simp only [List.foldlM_nil, valuesOf, List.filter_nil, List.map_nil, Lengths, Codings]
      constructor
      · rintro ⟨⟩
        simp
      · rintro ⟨⟨length, -⟩, chunked, -⟩
        obtain ⟨startLength, startChunked⟩ := start
        obtain ⟨scanLength, scanChunked⟩ := scan
        cases length trivial
        cases chunked trivial
        rfl
  | cons header headers further =>
      rw [List.foldlM_cons, valuesOf_cons, valuesOf_cons, FramingScan.header]
      by_cases length : header.is "Content-Length" = true
      · rw [if_pos length, if_pos length, is_exclusive header length, lengths_cons]
        simp only [Bool.false_eq_true, if_false]
        cases read : u64FromStr 10 (Text.trim header.value.toList) with
        | none => simp [Bind.bind, Except.bind]
        | some bytes =>
            cases existing : start.contentLength with
            | none => simp [Bind.bind, Except.bind, further]
            | some other =>
                by_cases same : other = bytes
                · simp [Bind.bind, Except.bind, further, existing, same]
                · simp [Bind.bind, Except.bind, same]
      · by_cases coding : header.is "Transfer-Encoding" = true
        · rw [if_neg length, if_neg length, if_pos coding, if_pos coding, codings_cons]
          generalize "chunked".toList = word
          by_cases named : Text.toAsciiLowercase (Text.trim header.value.toList) = word
          · cases already : start.chunked with
            | false => simp [Bind.bind, Except.bind, further, named]
            | true => simp [Bind.bind, Except.bind, named]
          · simp [Bind.bind, Except.bind, named]
        · rw [if_neg length, if_neg length, if_neg coding, if_neg coding]
          simp [Bind.bind, Except.bind, further]

theorem lengths_none (after : Option Nat) (values : List (List Char)) :
    Lengths none after values ↔ match after with
      | none => values = []
      | some bytes => values ≠ [] ∧
          ∀ value ∈ values, u64FromStr 10 (Text.trim value) = some bytes := by
  cases after with
  | none =>
      refine ⟨fun ⟨_, _, each⟩ => ?_, ?_⟩
      · refine List.eq_nil_iff_forall_not_mem.mpr fun value member => ?_
        obtain ⟨_, _, none⟩ := each value member
        cases none
      · rintro rfl
        exact ⟨fun _ => rfl, fun _ same => same, fun _ member => nomatch member⟩
  | some bytes =>
      constructor
      · rintro ⟨start, -, each⟩
        refine ⟨fun none => (nomatch start none), fun value member => ?_⟩
        obtain ⟨other, read, same⟩ := each value member
        rw [read, same]
      · rintro ⟨filled, each⟩
        refine ⟨fun none => absurd none filled, ?_,
          fun value member => ⟨bytes, each value member, rfl⟩⟩
        rintro _ ⟨⟩

theorem codings_false (after : Bool) (values : List (List Char)) :
    Codings false after values ↔ match after with
      | false => values = []
      | true => ∃ coding, values = [coding] ∧
          Text.toAsciiLowercase (Text.trim coding) = "chunked".toList := by
  rcases values with _ | ⟨value, values⟩
  · cases after <;> simp [Codings]
  · rw [codings_cons]
    cases after with
    | false =>
        simp only [reduceCtorEq, iff_false, not_and]
        rintro - - ⟨same, once, -⟩
        by_cases none : values = []
        · exact Bool.false_ne_true (same none)
        · exact Bool.false_ne_true (once none).2
    | true =>
        simp only [List.cons.injEq]
        constructor
        · rintro ⟨named, -, -, once, -⟩
          refine ⟨value, ⟨rfl, ?_⟩, named⟩
          by_contra filled
          cases (once filled).1
        · rintro ⟨coding, ⟨rfl, rfl⟩, named⟩
          refine ⟨named, trivial, ?_⟩
          simp [Codings]

theorem framingFromHeaders_iff (headers : List Header) (framing : Framing) :
    framingFromHeaders headers = .ok framing ↔ Names headers framing := by
  rw [framingFromHeaders, Outcome.bind_eq_ok]
  simp only [foldlM_header, lengths_none, codings_false]
  constructor
  · rintro ⟨⟨_ | bytes, _ | _⟩, ⟨lengths, codings⟩, accepted⟩ <;> cases accepted
    · exact ⟨lengths, codings⟩
    · exact ⟨lengths, codings⟩
    · exact ⟨codings, lengths⟩
  · intro names
    cases framing with
    | none => exact ⟨⟨none, false⟩, names, rfl⟩
    | length bytes => exact ⟨⟨some bytes, false⟩, ⟨names.2, names.1⟩, rfl⟩
    | chunked => exact ⟨⟨none, true⟩, names, rfl⟩

/-! ### Numbers -/

theorem isOws_isWhitespace (c : Char) (space : isOws c = true) : Text.isWhitespace c = true := by
  rw [isOws, Bool.or_eq_true, beq_iff_eq, beq_iff_eq] at space
  rcases space with rfl | rfl <;> rfl

theorem isDigit_toNat (c : Char) : c.isDigit = true ↔ 48 ≤ c.toNat ∧ c.toNat ≤ 57 := by
  rw [Char.isDigit, Bool.and_eq_true, decide_eq_true_eq, decide_eq_true_eq]
  exact Iff.rfl

theorem digitValue_ten (c : Char) (digit : Nat) :
    digitValue c = some digit ∧ digit < 10 ↔ c.isDigit = true ∧ c.toNat - '0'.toNat = digit := by
  rw [isDigit_toNat]
  have zero : ('0' ≤ c) = (48 ≤ c.toNat) := rfl
  have nine : (c ≤ '9') = (c.toNat ≤ 57) := rfl
  have small : ('a' ≤ c) = (97 ≤ c.toNat) := rfl
  have smallEnd : (c ≤ 'z') = (c.toNat ≤ 122) := rfl
  have capital : ('A' ≤ c) = (65 ≤ c.toNat) := rfl
  have capitalEnd : (c ≤ 'Z') = (c.toNat ≤ 90) := rfl
  simp only [digitValue, zero, nine, small, smallEnd, capital, capitalEnd]
  simp only [show '0'.toNat = 48 from rfl, show 'a'.toNat = 97 from rfl,
    show 'A'.toNat = 65 from rfl]
  split_ifs <;> simp <;> omega

theorem digitValue_sixteen (c : Char) (digit : Nat) (read : digitValue c = some digit)
    (small : digit < 16) : isAsciiHexdigit c = true := by
  rw [isAsciiHexdigit, Bool.or_eq_true, Bool.or_eq_true, isDigit_toNat, Bool.and_eq_true,
    Bool.and_eq_true]
  simp only [decide_eq_true_eq]
  unfold digitValue at read
  split_ifs at read with decimal lower upper
  · exact Or.inl (Or.inl ⟨decimal.1, decimal.2⟩)
  · refine Or.inl (Or.inr ⟨lower.1, ?_⟩)
    have code : c.toNat - 97 + 10 = digit := Option.some.inj read
    show c.toNat ≤ 102
    omega
  · refine Or.inr ⟨upper.1, ?_⟩
    have code : c.toNat - 65 + 10 = digit := Option.some.inj read
    show c.toNat ≤ 70
    omega

theorem digitsValue_ten (digits : List Char) (value : Nat) :
    digitsValue 10 digits = some value ↔
      (∀ c ∈ digits, c.isDigit = true) ∧ Nat.ofDigitChars 10 digits 0 = value := by
  rw [digitsValue]
  generalize 0 = start
  induction digits generalizing start with
  | nil => simp
  | cons c digits further =>
      simp only [List.foldlM_cons, Option.bind_eq_bind, Option.bind_assoc, Option.bind_eq_some_iff,
        Option.ite_none_right_eq_some, further, List.forall_mem_cons, Nat.ofDigitChars_cons]
      constructor
      · rintro ⟨digit, read, _, ⟨small, ⟨⟩⟩, rest, whole⟩
        obtain ⟨decimal, rfl⟩ := (digitValue_ten c digit).mp ⟨read, small⟩
        exact ⟨⟨decimal, rest⟩, by rw [Nat.mul_comm]; exact whole⟩
      · rintro ⟨⟨decimal, rest⟩, whole⟩
        obtain ⟨read, small⟩ := (digitValue_ten c _).mpr ⟨decimal, rfl⟩
        exact ⟨_, read, _, ⟨small, rfl⟩, rest, by rw [Nat.mul_comm]; exact whole⟩

theorem digitsValue_sixteen (digits : List Char) (value : Nat)
    (read : digitsValue 16 digits = some value) : ∀ c ∈ digits, isAsciiHexdigit c = true := by
  rw [digitsValue] at read
  generalize 0 = start at read
  induction digits generalizing start with
  | nil => exact fun _ member => nomatch member
  | cons c digits further =>
      simp only [List.foldlM_cons, Option.bind_eq_bind, Option.bind_assoc, Option.bind_eq_some_iff,
        Option.ite_none_right_eq_some] at read
      obtain ⟨digit, first, _, ⟨small, -⟩, rest⟩ := read
      exact List.forall_mem_cons.mpr ⟨digitValue_sixteen c digit first small, further _ rest⟩

theorem u64FromStr_unsigned (radix : Nat) (text : List Char) (value : Nat)
    (unsigned : text.head? ≠ some '+') (read : u64FromStr radix text = some value) :
    text ≠ [] ∧ digitsValue radix text = some value := by
  unfold u64FromStr at read
  split at read
  · exact absurd rfl unsigned
  · dsimp only at read
    split at read
    · cases read
    · next filled => exact ⟨by simpa using filled, (Option.filter_eq_some_iff.mp read).1⟩

theorem not_whitespace_of_graphic (c : Char) (above : 33 ≤ c.toNat) (below : c.toNat ≤ 126) :
    Text.isWhitespace c = false := by
  simp [Text.isWhitespace]
  omega

theorem isAsciiHexdigit_toNat (c : Char) (digit : isAsciiHexdigit c = true) :
    48 ≤ c.toNat ∧ c.toNat ≤ 102 := by
  rw [isAsciiHexdigit, Bool.or_eq_true, Bool.or_eq_true, isDigit_toNat, Bool.and_eq_true,
    Bool.and_eq_true, decide_eq_true_eq, decide_eq_true_eq, decide_eq_true_eq,
    decide_eq_true_eq] at digit
  have small : ('a' ≤ c) = (97 ≤ c.toNat) := rfl
  have smallEnd : (c ≤ 'f') = (c.toNat ≤ 102) := rfl
  have capital : ('A' ≤ c) = (65 ≤ c.toNat) := rfl
  have capitalEnd : (c ≤ 'F') = (c.toNat ≤ 70) := rfl
  rw [small, smallEnd, capital, capitalEnd] at digit
  omega

theorem Padded.trim_eq (core text : List Char) (padded : Padded core text) (filled : core ≠ [])
    (graphic : ∀ c ∈ core, 33 ≤ c.toNat ∧ c.toNat ≤ 126) : Text.trim text = core := by
  obtain ⟨lead, trail, rfl, space⟩ := padded
  exact Text.trim_padded lead core trail (fun c member => isOws_isWhitespace c (space c member))
    filled fun c member => not_whitespace_of_graphic c (graphic c member).1 (graphic c member).2

theorem Padded.plainlySpelled (digits text : List Char) (padded : Padded digits text)
    (filled : digits ≠ []) (range : ∀ c ∈ digits, 48 ≤ c.toNat ∧ c.toNat ≤ 102) :
    PlainlySpelled text := by
  have core := Padded.trim_eq digits text padded filled fun c member => by
    have within := range c member
    omega
  refine ⟨(core.symm ▸ padded : Padded (Text.trim text) text), fun signed => ?_⟩
  rw [core] at signed
  exact absurd (range _ (List.mem_of_mem_head? signed)).1 (by decide)

theorem decimal_iff (text : List Char) (value : Nat)
    (read : u64FromStr 10 (Text.trim text) = some value) :
    Decimal text value ↔ PlainlySpelled text := by
  constructor
  · rintro ⟨digits, padded, filled, decimal, -⟩
    refine padded.plainlySpelled digits text filled fun c member => ?_
    have range := (isDigit_toNat c).mp (decimal c member)
    exact ⟨range.1, Nat.le_trans range.2 (by decide)⟩
  · rintro ⟨padded, unsigned⟩
    obtain ⟨filled, digits⟩ := u64FromStr_unsigned 10 _ value unsigned read
    obtain ⟨decimal, whole⟩ := (digitsValue_ten _ value).mp digits
    exact ⟨_, padded, filled, decimal, whole⟩

theorem hexadecimal_iff (text : List Char) (value : Nat)
    (read : u64FromStr 16 (Text.trim text) = some value) :
    Hexadecimal text ↔ PlainlySpelled text := by
  constructor
  · rintro ⟨digits, padded, filled, hex⟩
    exact padded.plainlySpelled digits text filled fun c member =>
      isAsciiHexdigit_toNat c (hex c member)
  · rintro ⟨padded, unsigned⟩
    obtain ⟨filled, digits⟩ := u64FromStr_unsigned 16 _ value unsigned read
    exact ⟨_, padded, filled, digitsValue_sixteen _ value digits⟩

theorem namesChunked_iff (text : List Char)
    (named : Text.toAsciiLowercase (Text.trim text) = "chunked".toList) :
    NamesChunked text ↔ PlainlyPadded text := by
  constructor
  · rintro ⟨coding, padded, spelled⟩
    have core := Padded.trim_eq coding text padded (by rintro rfl; cases spelled) fun c member => by
      have lowered : c.toLower ∈ "chunked".toList := spelled ▸ List.mem_map_of_mem member
      have range : ∀ letter ∈ "chunked".toList, 97 ≤ letter.toNat ∧ letter.toNat ≤ 122 := by simp
      have letter := range _ lowered
      rcases Text.toLower_cases c with same | ⟨above, below, -⟩
      · rw [same] at letter
        omega
      · omega
    exact (core.symm ▸ padded : Padded (Text.trim text) text)
  · exact fun padded => ⟨_, padded, named⟩

/-- The length of a body is taken in any spelling but the plain one only where a sign or other
whitespace is around its digits. -/
theorem body_framing_unambiguous_iff (headers : List Header) (line : List UInt8) :
    (FramingUnambiguous headers ↔ PlainFraming headers) ∧
      (ChunkSizeUnambiguous line ↔ PlainChunkSize line) := by
  constructor
  · refine forall_congr' fun framing => ?_
    rw [framingFromHeaders_iff]
    refine imp_congr_right fun names => ?_
    cases framing with
    | none =>
        rw [Unambiguous, names.1, names.2]
        simp
    | length bytes =>
        rw [Unambiguous, names.1]
        simp only [List.not_mem_nil, false_implies, implies_true, and_true, true_and, names.2.1,
          ne_eq, not_false_eq_true]
        exact forall₂_congr fun value member => decimal_iff value bytes (names.2.2 value member)
    | chunked =>
        obtain ⟨none, coding, alone, named⟩ := names
        rw [Unambiguous, none, alone]
        simp only [List.not_mem_nil, false_implies, implies_true, true_and, List.cons.injEq,
          and_true, exists_eq_left', List.mem_singleton, forall_eq]
        exact namesChunked_iff coding named
  · unfold ChunkSizeUnambiguous PlainChunkSize chunkSize
    cases fromUtf8 line with
    | none => simp
    | some text =>
        simp only [Option.mem_def, Option.some.injEq, exists_eq_left', forall_eq']
        cases read : u64FromStr 16 (Text.trim (text.takeWhile (· != ';'))) with
        | none => simp
        | some size =>
            simp only [Except.ok.injEq, Option.some.injEq, forall_eq']
            exact hexadecimal_iff _ size read

/-- A sign before the length of a body or of a chunk is passed over. -/
theorem body_framing_signed :
    ¬FramingUnambiguous [⟨"Content-Length", "+5"⟩] ∧ ¬ChunkSizeUnambiguous "+5".toUTF8.toList := by
  constructor
  · intro unambiguous
    have taken := unambiguous (.length 5) (by decide +kernel)
    have decimal := taken.2.2 "+5".toList (by decide)
    exact ((decimal_iff _ 5 (by decide +kernel)).mp decimal).2 (by decide)
  · intro unambiguous
    obtain ⟨text, decoded, hex⟩ := unambiguous 5 (by decide +kernel)
    have spelled : fromUtf8 "+5".toUTF8.toList = some "+5".toList := by decide +kernel
    cases decoded.symm.trans spelled
    exact ((hexadecimal_iff _ 5 (by decide +kernel)).mp hex).2 (by decide)

end Storyhook.Daemon
