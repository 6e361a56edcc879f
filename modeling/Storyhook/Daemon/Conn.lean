import Storyhook.Daemon.BodyDecode

namespace Storyhook.Daemon

open Storyhook.Library

structure Limits where
  maxHeadBytes : Nat
  maxHeaders : Nat

def Limits.production : Limits := ⟨16 * 1024, 64⟩

inductive HeadOutcome where
  | complete (head : Head) (framing : Framing) (leftover : List UInt8)
  | closed
  | refuse (status : Nat)

def refusalStatus : ParseError → Nat
  | .tooManyHeaders => 431
  | .malformed | .invalidHeader => 400
  | .ambiguousFraming | .invalidContentLength => 400
  | .unsupportedTransferEncoding => 501

def isDeadlineError (failure : IoError) : Bool :=
  failure.kind == .wouldBlock || failure.kind == .timedOut

/-- What a parse of the buffer settles, unless it asks for more bytes. -/
def headOutcome (buf : List UInt8) : Except ParseError ParseOutcome → Option HeadOutcome
  | .ok .incomplete => none
  | .ok (.complete head framing consumed) => some (.complete head framing (buf.drop consumed))
  | .error failure => some (.refuse (refusalStatus failure))

def readSize : Nat := 4096

theorem Socket.read_shorter (socket next : Socket) (byte : UInt8) (got : List UInt8)
    (read : socket.read readSize = .ok (byte :: got, next)) :
    next.bytes.length < socket.bytes.length := by
  have whole := (socket.read_gave readSize (byte :: got) next read (List.cons_ne_nil _ _)).1
  have total := congrArg List.length whole
  rw [List.length_append, List.length_cons] at total
  omega

/-- The head read to one byte short, then that byte alone, then the rest. -/
def alignedSplit (stream : List UInt8) (length : Nat) : List (List UInt8) :=
  [stream.take (length - 1), (stream.drop (length - 1)).take 1, stream.drop length]

theorem alignedSplit_flatten (stream : List UInt8) (length : Nat) (positive : 0 < length) :
    (alignedSplit stream length).flatten = stream := by
  have parts := List.take_append_drop 1 (stream.drop (length - 1))
  rw [List.drop_drop, Nat.sub_add_cancel positive] at parts
  simp only [alignedSplit, List.flatten_cons, List.flatten_nil, List.append_nil, parts,
    List.take_append_drop]

def lateSplit (stream : List UInt8) (length : Nat) : List (List UInt8) :=
  [stream.take (length - 1), stream.drop (length - 1)]

section Head

variable (httparse : Httparse) (limits : Limits)

def readHeadLoop (buf : List UInt8) (socket : Socket) : HeadOutcome × Socket :=
  match _read : socket.read readSize with
  | .error failure => (if isDeadlineError failure then .refuse 408 else .closed, socket)
  | .ok ([], next) => (.closed, next)
  | .ok (byte :: got, next) =>
      let grown := buf ++ byte :: got
      if limits.maxHeadBytes < grown.length then (.refuse 431, next)
      else match headOutcome grown (parseHead httparse grown limits.maxHeaders) with
        | some outcome => (outcome, next)
        | none => readHeadLoop grown next
termination_by socket.bytes.length
decreasing_by exact Socket.read_shorter _ _ _ _ _read

def readHead (socket : Socket) : HeadOutcome × Socket := readHeadLoop httparse limits [] socket

/-- What became of one request: its refusal, or its head and what reading its body to the end
gave, with whether all of it was consumed and what is left to read. -/
inductive RequestReading where
  | refused (status : Nat)
  | closed
  | answered (head : Head) (framing : Framing) (data : List UInt8)
      (ended : Except IoError (Bool × List UInt8))

def readBody (rooms : Nat → Nat) : HeadOutcome × Socket → RequestReading
  | (.refuse status, _) => .refused status
  | (.closed, _) => .closed
  | (.complete head framing leftover, socket) =>
      let body := readToEnd rooms 0 (BodyState.fromFraming framing) (PeerReader.new socket leftover)
      .answered head framing body.1 (body.2.map fun (state, next) =>
        (state.fullyConsumed, next.bytes))

def readRequest (rooms : Nat → Nat) (socket : Socket) : RequestReading :=
  readBody rooms (readHead httparse limits socket)

/-- What the bytes of a request come to, read in one piece and with no bound on its size. -/
def requestOf (silence : Except IoError Unit) (stream : List UInt8) :
    Except ParseError ParseOutcome → RequestReading
  | .error failure => .refused (refusalStatus failure)
  | .ok .incomplete => .closed
  | .ok (.complete head framing consumed) =>
      let body := (BodyState.fromFraming framing).decode silence (stream.drop consumed)
      .answered head framing body.1 (body.2.map fun rest => (true, rest))

/-- The shortest front of the stream that its parser asks no more bytes after. -/
structure HeadEnds (stream : List UInt8) (length : Nat) : Prop where
  inside : length ≤ stream.length
  decided : parseHead httparse (stream.take length) limits.maxHeaders ≠ .ok .incomplete
  first : ∀ shorter < length,
    parseHead httparse (stream.take shorter) limits.maxHeaders = .ok .incomplete

/-- One request is read alike however its bytes arrive, and as it is declared. -/
structure ReadsAlike (stream : List UInt8) : Prop where
  same : ∀ silence first second firstRooms secondRooms, first.flatten = stream →
    second.flatten = stream → readRequest httparse limits firstRooms ⟨first, silence⟩ =
      readRequest httparse limits secondRooms ⟨second, silence⟩
  declared : ∀ head framing consumed data,
    parseHead httparse stream limits.maxHeaders = .ok (.complete head framing consumed) →
    consumed ≤ limits.maxHeadBytes → Declares framing (stream.drop consumed) data →
    ∀ silence segments rooms, segments.flatten = stream →
      readRequest httparse limits rooms ⟨segments, silence⟩ =
        .answered head framing data (.ok (true, []))
  admitted : ∀ head framing consumed,
    parseHead httparse stream limits.maxHeaders = .ok (.complete head framing consumed) →
    consumed ≤ limits.maxHeadBytes → ∀ silence segments, segments.flatten = stream →
      (readHead httparse limits ⟨segments, silence⟩).1 ≠ .refuse 431

/-- No read that ends the head can carry the buffer past its cap. -/
def ReadsFit (stream : List UInt8) (length : Nat) : Prop :=
  limits.maxHeadBytes < length ∨ stream.length ≤ limits.maxHeadBytes ∨
    length + readSize ≤ limits.maxHeadBytes + 1 ∨
    parseHead httparse stream limits.maxHeaders = .error .tooManyHeaders

theorem readHeadLoop_reads (buf : List UInt8) (socket : Socket) (some : socket.bytes ≠ []) :
    ∃ got next, socket.read readSize = .ok (got, next) ∧ got ≠ [] ∧
      got ++ next.bytes = socket.bytes ∧ got.length ≤ readSize ∧ next.silence = socket.silence ∧
      readHeadLoop httparse limits buf socket =
        if limits.maxHeadBytes < (buf ++ got).length then (.refuse 431, next)
        else ((headOutcome (buf ++ got) (parseHead httparse (buf ++ got) limits.maxHeaders)).map
          (·, next)).getD (readHeadLoop httparse limits (buf ++ got) next) := by
  cases read : socket.read readSize with
  | error failure =>
      exact absurd (socket.read_failed readSize (by decide) failure read).1 some
  | ok outcome =>
      obtain ⟨got, next⟩ := outcome
      cases got with
      | nil => exact absurd (socket.read_empty readSize (by decide) next read).1 some
      | cons byte got =>
          obtain ⟨whole, fits, silence⟩ :=
            socket.read_gave readSize (byte :: got) next read (List.cons_ne_nil _ _)
          refine ⟨byte :: got, next, rfl, List.cons_ne_nil _ _, whole, fits, silence, ?_⟩
          rw [readHeadLoop, read]
          simp only
          split
          · rfl
          · split
            · next outcome found => rw [found]; rfl
            · next found => rw [found]; rfl

variable (incremental : Incremental httparse) (stream : List UInt8) (length : Nat)
  (ends : HeadEnds httparse limits stream length)

section Ends

include incremental ends

theorem HeadEnds.settled (front : List UInt8) (rest : List UInt8) (whole : front ++ rest = stream)
    (reached : length ≤ front.length) :
    parseHead httparse front limits.maxHeaders = parseHead httparse stream limits.maxHeaders := by
  have start : front = stream.take length ++ front.drop length := by
    rw [← whole, List.take_append_of_le_length reached, List.take_append_drop]
  have decided : parseHead httparse front limits.maxHeaders ≠ .ok .incomplete := by
    rw [start, parseHead_settled httparse incremental limits.maxHeaders _ _ ends.decided]
    exact ends.decided
  rw [← whole, parseHead_settled httparse incremental limits.maxHeaders front rest decided]

theorem HeadEnds.settled_front : parseHead httparse (stream.take length) limits.maxHeaders =
    parseHead httparse stream limits.maxHeaders := by
  refine ends.settled httparse limits incremental stream length _ (stream.drop length)
    (List.take_append_drop _ _) ?_
  exact Nat.le_of_eq (by rw [List.length_take, Nat.min_eq_left ends.inside])

theorem HeadEnds.whole_decided :
    parseHead httparse stream limits.maxHeaders ≠ .ok .incomplete := by
  rw [← ends.settled_front httparse limits incremental stream length]
  exact ends.decided

omit incremental in
theorem HeadEnds.before (front rest : List UInt8) (whole : front ++ rest = stream)
    (early : front.length < length) :
    parseHead httparse front limits.maxHeaders = .ok .incomplete := by
  have same := ends.first front.length early
  rwa [← whole, List.take_left'] at same
  rfl

theorem HeadEnds.consumed (head : Head) (framing : Framing) (count : Nat)
    (complete : parseHead httparse stream limits.maxHeaders =
      .ok (.complete head framing count)) : count = length := by
  have same := ends.settled_front httparse limits incremental stream length
  rw [complete] at same
  obtain ⟨inside, _⟩ := parseHead_consumed httparse incremental limits.maxHeaders _ head framing
    count same
  obtain ⟨_, alone⟩ := parseHead_consumed httparse incremental limits.maxHeaders _ head framing
    count complete
  rw [List.length_take] at inside
  by_contra differs
  have early := ends.first count (by omega)
  rw [alone] at early
  cases early

theorem readBody_settles (rooms : Nat → Nat) (front : List UInt8) (socket : Socket)
    (whole : front ++ socket.bytes = stream) (reached : length ≤ front.length) :
    ∃ outcome, headOutcome front (parseHead httparse front limits.maxHeaders) = some outcome ∧
      readBody rooms (outcome, socket) = requestOf socket.silence stream
        (parseHead httparse stream limits.maxHeaders) := by
  rw [ends.settled httparse limits incremental stream length front socket.bytes whole reached]
  have decided := ends.whole_decided httparse limits incremental stream length
  cases verdict : parseHead httparse stream limits.maxHeaders with
  | error failure => exact ⟨_, rfl, rfl⟩
  | ok outcome =>
      cases outcome with
      | incomplete => exact absurd verdict decided
      | complete head framing consumed =>
          have short := ends.consumed httparse limits incremental stream length head framing
            consumed verdict
          refine ⟨_, rfl, ?_⟩
          have bytes : (PeerReader.new socket (front.drop consumed)).bytes =
              stream.drop consumed := by
            rw [← whole, List.drop_append_of_le_length (by omega)]
            rfl
          obtain ⟨data, rest⟩ := readToEnd_decodes rooms 0 (BodyState.fromFraming framing)
            (PeerReader.new socket (front.drop consumed))
          rw [bytes] at data rest
          simp only [readBody, requestOf, data, rest]
          rfl

/-- However the bytes arrive, the request is what they come to or is refused for the size of a
buffer that one read carried past the cap. -/
theorem readHeadLoop_either (rooms : Nat → Nat) (buf : List UInt8) (socket : Socket)
    (whole : buf ++ socket.bytes = stream) (early : buf.length < length) :
    (length ≤ limits.maxHeadBytes ∧
      readBody rooms (readHeadLoop httparse limits buf socket) =
        requestOf socket.silence stream (parseHead httparse stream limits.maxHeaders)) ∨
    (limits.maxHeadBytes < stream.length ∧ limits.maxHeadBytes + 1 < length + readSize ∧
      (readHeadLoop httparse limits buf socket).1 = .refuse 431) := by
  induction size : socket.bytes.length using Nat.strongRecOn generalizing buf socket with
  | _ size further =>
  subst size
  have inside := ends.inside
  have total := congrArg List.length whole
  rw [List.length_append] at total
  have some : socket.bytes ≠ [] := by
    intro none
    rw [none, List.length_nil] at total
    omega
  obtain ⟨got, next, _, present, rest, fits, silence, loop⟩ :=
    readHeadLoop_reads httparse limits buf socket some
  have positive := List.length_pos_iff.mpr present
  have grows := congrArg List.length rest
  rw [List.length_append] at grows
  have after : (buf ++ got) ++ next.bytes = stream := by rw [List.append_assoc, rest, whole]
  rw [loop]
  by_cases beyond : limits.maxHeadBytes < (buf ++ got).length
  · rw [if_pos beyond]
    rw [List.length_append] at beyond
    exact Or.inr ⟨by omega, by omega, rfl⟩
  · rw [if_neg beyond]
    by_cases reached : length ≤ (buf ++ got).length
    · obtain ⟨outcome, found, reads⟩ := readBody_settles httparse limits incremental stream length
        ends rooms (buf ++ got) next after reached
      rw [found, ← silence]
      exact Or.inl ⟨by omega, reads⟩
    · rw [ends.before httparse limits stream length (buf ++ got) next.bytes after (by omega),
        ← silence]
      exact further next.bytes.length (by omega) (buf ++ got) next after (by omega) rfl

end Ends

theorem readHeadLoop_front (ends : HeadEnds httparse limits stream length) (buf front : List UInt8)
    (later : List (List UInt8)) (silence : Except IoError Unit)
    (whole : buf ++ front ++ later.flatten = stream) (early : (buf ++ front).length < length)
    (small : (buf ++ front).length ≤ limits.maxHeadBytes) :
    readHeadLoop httparse limits buf ⟨front :: later, silence⟩ =
      readHeadLoop httparse limits (buf ++ front) ⟨later, silence⟩ := by
  induction size : front.length using Nat.strongRecOn generalizing buf front with
  | _ size further =>
  subst size
  cases front with
  | nil =>
      rw [List.append_nil] at whole early ⊢
      have held : later.flatten ≠ [] := by
        intro none
        have inside := ends.inside
        rw [none, List.append_nil] at whole
        rw [whole] at early
        omega
      obtain ⟨got, next, read, _, _, _, _, loop⟩ :=
        readHeadLoop_reads httparse limits buf ⟨[] :: later, silence⟩ held
      obtain ⟨got', next', read', _, _, _, _, loop'⟩ :=
        readHeadLoop_reads httparse limits buf ⟨later, silence⟩ held
      obtain ⟨rfl, rfl⟩ := Prod.mk.inj (Except.ok.inj (read.symm.trans read'))
      rw [loop, loop']
  | cons byte front =>
      have held : (⟨(byte :: front) :: later, silence⟩ : Socket).bytes ≠ [] := by
        simp [Socket.bytes]
      obtain ⟨got, next, read, _, _, _, _, loop⟩ := readHeadLoop_reads httparse limits buf _ held
      obtain ⟨rfl, rfl⟩ : (byte :: front).take readSize = got ∧
          (⟨(byte :: front).drop readSize :: later, silence⟩ : Socket) = next := by
        cases read
        exact ⟨rfl, rfl⟩
      have parts : buf ++ (byte :: front).take readSize ++ (byte :: front).drop readSize =
          buf ++ (byte :: front) := by
        rw [List.append_assoc, List.take_append_drop]
      have bound := congrArg List.length parts
      rw [List.length_append] at bound
      rw [loop, if_neg (by omega), ends.before httparse limits stream length _
        ((byte :: front).drop readSize ++ later.flatten)
        (by rw [← List.append_assoc, parts, whole]) (by omega)]
      have rest := further ((byte :: front).drop readSize).length
        (by rw [List.length_drop, List.length_cons]; unfold readSize; omega)
        (buf ++ (byte :: front).take readSize) ((byte :: front).drop readSize)
        (by rw [parts, whole]) (by rw [parts]; exact early) (by rw [parts]; exact small) rfl
      rw [parts] at rest
      exact rest

include incremental ends

theorem HeadEnds.positive : 0 < length := by
  refine Nat.pos_of_ne_zero fun none => ends.decided ?_
  rw [none, List.take_zero]
  exact parseHead_empty httparse incremental limits.maxHeaders

theorem readRequest_either (rooms : Nat → Nat) (segments : List (List UInt8))
    (silence : Except IoError Unit) (whole : segments.flatten = stream) :
    (length ≤ limits.maxHeadBytes ∧ readRequest httparse limits rooms ⟨segments, silence⟩ =
      requestOf silence stream (parseHead httparse stream limits.maxHeaders)) ∨
    (limits.maxHeadBytes < stream.length ∧ limits.maxHeadBytes + 1 < length + readSize ∧
      (readHead httparse limits ⟨segments, silence⟩).1 = .refuse 431) :=
  readHeadLoop_either httparse limits incremental stream length ends rooms []
    ⟨segments, silence⟩ whole (ends.positive httparse limits incremental stream length)

omit incremental ends in
theorem readRequest_refused (rooms : Nat → Nat) (socket : Socket) (status : Nat)
    (refused : (readHead httparse limits socket).1 = .refuse status) :
    readRequest httparse limits rooms socket = .refused status := by
  unfold readRequest
  cases outcome : readHead httparse limits socket with
  | mk first rest =>
      rw [outcome] at refused
      cases refused
      rfl

theorem readRequest_fits (fits : ReadsFit httparse limits stream length) (rooms : Nat → Nat)
    (segments : List (List UInt8)) (silence : Except IoError Unit)
    (whole : segments.flatten = stream) :
    readRequest httparse limits rooms ⟨segments, silence⟩ =
      if length ≤ limits.maxHeadBytes then
        requestOf silence stream (parseHead httparse stream limits.maxHeaders)
      else .refused 431 := by
  rcases readRequest_either httparse limits incremental stream length ends rooms segments silence
    whole with ⟨within, reads⟩ | ⟨long, near, refused⟩
  · rw [if_pos within, reads]
  · rw [readRequest_refused httparse limits rooms _ 431 refused]
    rcases fits with past | all | far | many
    · rw [if_neg (by omega)]
    · omega
    · omega
    · rw [many]
      split <;> rfl

theorem readsAlike_of_fit (fits : ReadsFit httparse limits stream length) :
    ReadsAlike httparse limits stream where
  same := by
    intro silence first second firstRooms secondRooms firstWhole secondWhole
    rw [readRequest_fits httparse limits incremental stream length ends fits _ _ _ firstWhole,
      readRequest_fits httparse limits incremental stream length ends fits _ _ _ secondWhole]
  declared := by
    intro head framing consumed data complete within declares silence segments rooms whole
    obtain rfl := ends.consumed httparse limits incremental stream length head framing consumed
      complete
    rw [readRequest_fits httparse limits incremental stream _ ends fits _ _ _ whole,
      if_pos within, complete]
    simp only [requestOf, decode_declared silence framing _ data declares]
    rfl
  admitted := by
    intro head framing consumed complete within silence segments whole refused
    obtain rfl := ends.consumed httparse limits incremental stream length head framing consumed
      complete
    have reads := readRequest_fits httparse limits incremental stream _ ends fits id segments
      silence whole
    rw [readRequest_refused httparse limits id _ 431 refused, if_pos within, complete] at reads
    cases reads

omit incremental in
theorem readHead_shortened (positive : 0 < length) (within : length ≤ limits.maxHeadBytes)
    (later : List (List UInt8)) (rest : later.flatten = stream.drop (length - 1))
    (silence : Except IoError Unit) :
    readHead httparse limits ⟨stream.take (length - 1) :: later, silence⟩ =
      readHeadLoop httparse limits (stream.take (length - 1)) ⟨later, silence⟩ := by
  have size : (stream.take (length - 1)).length ≤ length - 1 := List.length_take_le _ _
  refine readHeadLoop_front httparse limits stream length ends [] _ later silence ?_ ?_ ?_
  · rw [List.nil_append, rest, List.take_append_drop]
  · rw [List.nil_append]
    omega
  · rw [List.nil_append]
    omega

theorem readRequest_aligned (within : length ≤ limits.maxHeadBytes) (rooms : Nat → Nat)
    (silence : Except IoError Unit) :
    readRequest httparse limits rooms ⟨alignedSplit stream length, silence⟩ =
      requestOf silence stream (parseHead httparse stream limits.maxHeaders) := by
  have positive := ends.positive httparse limits incremental stream length
  have inside := ends.inside
  have split : stream.drop (length - 1) =
      (stream.drop (length - 1)).take 1 ++ stream.drop length := by
    have parts := List.take_append_drop 1 (stream.drop (length - 1))
    rw [List.drop_drop, Nat.sub_add_cancel positive] at parts
    exact parts.symm
  have single : ((stream.drop (length - 1)).take 1).length = 1 := by
    rw [List.length_take, List.length_drop]
    omega
  have front : (stream.take (length - 1)).length = length - 1 := by
    rw [List.length_take]
    omega
  unfold readRequest alignedSplit
  rw [readHead_shortened httparse limits stream length ends positive within _
    (by rw [List.flatten_cons, List.flatten_cons, List.flatten_nil, List.append_nil, ← split])]
  obtain ⟨byte, last⟩ := List.length_eq_one_iff.mp single
  rw [last] at split single ⊢
  obtain ⟨got, next, read, _, rest, _, silent, loop⟩ := readHeadLoop_reads httparse limits
    (stream.take (length - 1)) ⟨[[byte], stream.drop length], silence⟩ (by simp [Socket.bytes])
  obtain ⟨rfl, rfl⟩ : [byte] = got ∧ (⟨[[], stream.drop length], silence⟩ : Socket) = next := by
    cases read
    exact ⟨rfl, rfl⟩
  have grown : (stream.take (length - 1) ++ [byte]).length = length := by
    rw [List.length_append, front, single]
    omega
  have whole : stream.take (length - 1) ++ [byte] ++
      (⟨[[], stream.drop length], silence⟩ : Socket).bytes = stream := by
    rw [Socket.bytes, List.flatten_cons, List.nil_append, List.flatten_cons, List.flatten_nil,
      List.append_nil, List.append_assoc, ← split, List.take_append_drop]
  obtain ⟨outcome, found, reads⟩ := readBody_settles httparse limits incremental stream length ends
    rooms _ _ whole (Nat.le_of_eq grown.symm)
  rw [loop, if_neg (by omega), found]
  exact reads

theorem readHead_late (within : length ≤ limits.maxHeadBytes)
    (long : limits.maxHeadBytes < stream.length)
    (near : limits.maxHeadBytes + 1 < length + readSize) (silence : Except IoError Unit) :
    (readHead httparse limits ⟨lateSplit stream length, silence⟩).1 = .refuse 431 := by
  have positive := ends.positive httparse limits incremental stream length
  have tail : (stream.drop (length - 1)).length = stream.length - (length - 1) := List.length_drop
  have front : (stream.take (length - 1)).length = length - 1 := by
    rw [List.length_take]
    omega
  unfold lateSplit
  rw [readHead_shortened httparse limits stream length ends positive within _
    (by rw [List.flatten_cons, List.flatten_nil, List.append_nil])]
  obtain ⟨byte, more, shape⟩ := List.exists_cons_of_ne_nil
    (List.ne_nil_of_length_pos (by omega : 0 < (stream.drop (length - 1)).length))
  rw [shape] at tail ⊢
  obtain ⟨got, next, read, _, _, _, _, loop⟩ := readHeadLoop_reads httparse limits
    (stream.take (length - 1)) ⟨[byte :: more], silence⟩ (by simp [Socket.bytes])
  obtain rfl : (byte :: more).take readSize = got := by
    cases read
    rfl
  rw [loop, if_pos]
  rw [List.length_append, front, List.length_take, tail]
  omega

theorem readsFit_of_alike (alike : ReadsAlike httparse limits stream) :
    ReadsFit httparse limits stream length := by
  by_contra unfit
  simp only [ReadsFit, not_or] at unfit
  obtain ⟨within, long, near, few⟩ := unfit
  have positive := ends.positive httparse limits incremental stream length
  have late := readRequest_refused httparse limits id _ 431
    (readHead_late httparse limits incremental stream length ends (by omega) (by omega) (by omega)
      (.ok ()))
  have aligned := readRequest_aligned httparse limits incremental stream length ends (by omega) id
    (.ok ())
  have same := alike.same (.ok ()) (alignedSplit stream length) (lateSplit stream length) id id
    (alignedSplit_flatten stream length positive)
    (by simp [lateSplit])
  rw [aligned, late] at same
  cases verdict : parseHead httparse stream limits.maxHeaders with
  | error failure =>
      rw [verdict] at same few
      cases failure <;> first | exact few rfl | cases same
  | ok outcome =>
      rw [verdict] at same
      cases outcome <;> cases same

/-- A request is read alike under every split exactly when no read that ends its head can pass
the cap. -/
theorem readsAlike_iff :
    ReadsAlike httparse limits stream ↔ ReadsFit httparse limits stream length :=
  ⟨readsFit_of_alike httparse limits incremental stream length ends,
    readsAlike_of_fit httparse limits incremental stream length ends⟩

end Head

/-- The parser of heads, on the streams that begin with one given head. -/
def onlyHead (head : List UInt8) (request : RawRequest) : Httparse := fun buf _ =>
  .ok (if head <+: buf then some (head.length, request) else none)

theorem onlyHead_incremental (head : List UInt8) (request : RawRequest) (some : head ≠ []) :
    Incremental (onlyHead head request) where
  settled := by
    intro buf more _ decided
    have present : head <+: buf := by
      by_contra absent
      exact decided (by rw [onlyHead, if_neg absent])
    rw [onlyHead, onlyHead, if_pos (present.trans (List.prefix_append buf more)), if_pos present]
  empty := by
    intro _
    rw [onlyHead, if_neg]
    exact fun present => some (List.prefix_nil.mp present)
  consumed := by
    intro buf _ count found complete
    rw [onlyHead] at complete
    split at complete
    · next present =>
        cases complete
        refine ⟨present.length_le, ?_⟩
        have same := List.prefix_iff_eq_take.mp present
        rw [onlyHead, if_pos (same ▸ List.prefix_refl head)]
    · cases complete

theorem onlyHead_ends (head body : List UInt8) (request : RawRequest) (limits : Limits) :
    HeadEnds (onlyHead head request) limits (head ++ body) head.length where
  inside := by rw [List.length_append]; omega
  decided := by
    rw [Ne, parseHead_incomplete, List.take_left' rfl, onlyHead, if_pos (List.prefix_refl head)]
    exact nofun
  first := by
    intro shorter early
    rw [parseHead_incomplete, onlyHead, if_neg]
    intro present
    have fits := present.length_le
    rw [List.length_take] at fits
    omega

def ascii (text : String) : List UInt8 := text.toList.map fun c => UInt8.ofNat c.toNat

def longHead : List UInt8 :=
  ascii "POST /" ++ List.replicate 12288 97 ++
    ascii " HTTP/1.1\r\nContent-Length: 5000\r\n\r\n"

def longRequest : RawRequest where
  method := some "POST"
  path := some (String.ofList ('/' :: List.replicate 12288 'a'))
  version := some 1
  headers := [⟨ascii "Content-Length", ascii "5000"⟩]

def longBody : List UInt8 := List.replicate 5000 120

/-- A head within the cap is refused when the read that ends it brings part of the body. -/
theorem late_body_refused :
    Incremental (onlyHead longHead longRequest) ∧
      Declares (.length 5000) longBody longBody ∧
      ¬ ReadsAlike (onlyHead longHead longRequest) Limits.production (longHead ++ longBody) := by
  have incremental := onlyHead_incremental longHead longRequest (by decide)
  have ends := onlyHead_ends longHead longBody longRequest Limits.production
  have size : longHead.length = 12329 := by
    simp only [longHead, List.length_append, List.length_replicate]
    rfl
  have accepted : ∃ head, parseHead (onlyHead longHead longRequest) (longHead ++ longBody) 64 =
      .ok (.complete head (.length 5000) longHead.length) := by
    refine ⟨⟨.post, String.ofList ('/' :: List.replicate 12288 'a'), (1, 1),
      [⟨"Content-Length", "5000"⟩]⟩, ?_⟩
    have headers : longRequest.headers.mapM Header.fromBytes =
        some [⟨"Content-Length", "5000"⟩] := by decide +kernel
    have framing : framingFromHeaders [⟨"Content-Length", "5000"⟩] = .ok (.length 5000) := by
      decide +kernel
    rw [parseHead, onlyHead, if_pos (List.prefix_append longHead longBody)]
    simp only [acceptHead, longRequest] at headers ⊢
    simp only [headers, framing]
    rfl
  obtain ⟨head, complete⟩ := accepted
  have declares := Declares.length longBody
  rw [longBody, List.length_replicate, ← longBody] at declares
  refine ⟨incremental, declares, fun alike => ?_⟩
  have total : (longHead ++ longBody).length = 12329 + 5000 := by
    rw [List.length_append, size, longBody, List.length_replicate]
  refine alike.admitted head (.length 5000) longHead.length complete ?_ (.ok ())
    (lateSplit (longHead ++ longBody) longHead.length) (by simp [lateSplit]) ?_
  · rw [size]
    decide
  · refine readHead_late _ _ incremental _ _ ends ?_ ?_ ?_ (.ok ())
    · rw [size]
      decide
    · rw [total]
      decide
    · rw [size]
      decide

def postHead : List UInt8 := ascii "POST / HTTP/1.1\r\nContent-Length: 20000\r\n\r\n"

def postRequest : RawRequest where
  method := some "POST"
  path := some "/"
  version := some 1
  headers := [⟨ascii "Content-Length", ascii "20000"⟩]

def postBody : List UInt8 := List.replicate 20000 120

/-- A body longer than the cap of the head, which comes in two reads. -/
theorem readsAlike_posted :
    ReadsAlike (onlyHead postHead postRequest) Limits.production (postHead ++ postBody) ∧
      ∀ rooms, readRequest (onlyHead postHead postRequest) Limits.production rooms
        ⟨[postHead.take 10, postHead.drop 10 ++ postBody.take 5, postBody.drop 5], .ok ()⟩ =
          .answered ⟨.post, "/", (1, 1), [⟨"Content-Length", "20000"⟩]⟩ (.length 20000) postBody
            (.ok (true, [])) := by
  have alike : ReadsAlike (onlyHead postHead postRequest) Limits.production
      (postHead ++ postBody) := by
    refine (readsAlike_iff _ _ (onlyHead_incremental postHead postRequest (by decide)) _ _
      (onlyHead_ends postHead postBody postRequest Limits.production)).mpr
        (Or.inr (Or.inr (Or.inl ?_)))
    decide +kernel
  refine ⟨alike, fun rooms => ?_⟩
  refine alike.declared _ (.length 20000) postHead.length postBody ?_ (by decide +kernel) ?_ _ _
    rooms ?_
  · have headers : postRequest.headers.mapM Header.fromBytes =
        some [⟨"Content-Length", "20000"⟩] := by decide +kernel
    have framing : framingFromHeaders [⟨"Content-Length", "20000"⟩] = .ok (.length 20000) := by
      decide +kernel
    rw [parseHead, onlyHead, if_pos (List.prefix_append postHead postBody)]
    simp only [acceptHead, postRequest] at headers ⊢
    simp only [headers, framing]
    rfl
  · have declares := Declares.length postBody
    rw [postBody, List.length_replicate, ← postBody] at declares
    rw [List.drop_left' rfl]
    exact declares
  · rw [List.flatten_cons, List.flatten_cons, List.flatten_cons, List.flatten_nil, List.append_nil,
      List.append_assoc, List.take_append_drop, ← List.append_assoc, List.take_append_drop]

end Storyhook.Daemon
