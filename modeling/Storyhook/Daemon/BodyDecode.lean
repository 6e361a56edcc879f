import Storyhook.Daemon.Body

namespace Storyhook.Daemon

open Storyhook.Library

def endOf (silence : Except IoError Unit) (message : String) : IoError :=
  match silence with
  | .ok () => unexpectedEof message
  | .error failure => failure

def cutLine (silence : Except IoError Unit) : Nat → List UInt8 → List UInt8 →
    Except IoError (List UInt8 × List UInt8)
  | _, _, [] => .error (endOf silence "peer closed the connection mid-chunk")
  | room, line, byte :: rest =>
      if byte = newline then .ok (withoutReturn line, rest)
      else if room = 0 then .error (invalidData "chunk framing line too long")
      else cutLine silence (room - 1) (line ++ [byte]) rest

theorem cutLine_shorter (silence : Except IoError Unit) (room : Nat) (line bytes text rest : List UInt8)
    (cut : cutLine silence room line bytes = .ok (text, rest)) : rest.length < bytes.length := by
  induction bytes generalizing room line with
  | nil => cases cut
  | cons byte bytes further =>
      rw [cutLine] at cut
      split at cut
      · cases cut
        exact Nat.lt_succ_self _
      · split at cut
        · cases cut
        · exact Nat.lt_succ_of_lt (further (room - 1) _ cut)

def prepend {β : Type} (got : List UInt8) (rest : List UInt8 × β) : List UInt8 × β :=
  (got ++ rest.1, rest.2)

/-- The data of a chunked body and the bytes after it, from its bytes in one piece. -/
def decodeChunked (silence : Except IoError Unit) (state : ChunkState) (bytes : List UInt8) :
    List UInt8 × Except IoError (List UInt8) :=
  match state with
  | .size =>
      match _cut : cutLine silence maxChunkLine [] bytes with
      | .error failure => ([], .error failure)
      | .ok (line, rest) =>
          match chunkSize line with
          | .error failure => ([], .error failure)
          | .ok size => decodeChunked silence (if size = 0 then .trailers else .data size) rest
  | .data remaining =>
      if remaining = 0 then ([], .error (unexpectedEof "peer closed the connection mid-chunk"))
      else if _enough : remaining ≤ bytes.length then
        prepend (bytes.take remaining) (decodeChunked silence .dataCrlf (bytes.drop remaining))
      else (bytes, .error (endOf silence "peer closed the connection mid-chunk"))
  | .dataCrlf =>
      match _cut : cutLine silence 2 [] bytes with
      | .error failure => ([], .error failure)
      | .ok (line, rest) =>
          if line.isEmpty then decodeChunked silence .size rest
          else ([], .error (invalidData "malformed chunk terminator"))
  | .trailers =>
      match _cut : cutLine silence maxChunkLine [] bytes with
      | .error failure => ([], .error failure)
      | .ok (line, rest) =>
          if line.isEmpty then ([], .ok rest) else decodeChunked silence .trailers rest
  | .done => ([], .ok bytes)
termination_by bytes.length
decreasing_by
  · exact cutLine_shorter _ _ _ _ _ _ _cut
  · rw [List.length_drop]
    omega
  · exact cutLine_shorter _ _ _ _ _ _ _cut
  · exact cutLine_shorter _ _ _ _ _ _ _cut

/-- The data of a body and the bytes after it, from its bytes in one piece. -/
def BodyState.decode (silence : Except IoError Unit) (body : BodyState) (bytes : List UInt8) :
    List UInt8 × Except IoError (List UInt8) :=
  match body with
  | .none => ([], .ok bytes)
  | .length remaining =>
      if remaining ≤ bytes.length then (bytes.take remaining, .ok (bytes.drop remaining))
      else (bytes, .error (endOf silence
        "peer closed the connection before its declared request body arrived"))
  | .chunked state => decodeChunked silence state bytes

/-- A line read from a peer is the one at the front of the bytes it holds. -/
structure CutBy (room : Nat) (peer : PeerReader) (line : List UInt8) : Prop where
  same : (readLineLoop room peer line).map (fun (text, next) => (text, next.bytes)) =
    cutLine peer.stream.silence room line peer.bytes
  silence : ∀ text next, readLineLoop room peer line = .ok (text, next) →
    next.stream.silence = peer.stream.silence

theorem CutBy.failed (room : Nat) (peer : PeerReader) (line bytes : List UInt8) (failure : IoError)
    (whole : peer.bytes = bytes) (read : readLineLoop room peer line = .error failure)
    (cut : cutLine peer.stream.silence room line bytes = .error failure) : CutBy room peer line where
  same := by
    rw [read, whole, cut]
    rfl
  silence := by
    intro text next other
    rw [read] at other
    cases other

theorem CutBy.step (room : Nat) (peer : PeerReader) (line : List UInt8)
    (further : ∀ less, room = less + 1 → ∀ next grown, CutBy less next grown) :
    CutBy room peer line := by
  have outcome := PeerReader.read_of peer 1 Nat.one_pos
  cases found : peer.read 1 with
  | error failure =>
      rw [found] at outcome
      cases outcome with
      | failed _ none silent =>
          refine .failed room peer line [] failure none (by rw [readLineLoop, found]) ?_
          rw [cutLine, silent]
          rfl
  | ok taken =>
      rw [found] at outcome
      cases outcome with
      | closed next none closed =>
          refine .failed room peer line [] _ none (by rw [readLineLoop, found]) ?_
          rw [cutLine, closed]
          rfl
      | gave got next some took =>
          obtain ⟨byte, rfl⟩ : ∃ byte, got = [byte] :=
            List.length_eq_one_iff.mp
              (Nat.le_antisymm took.fits (List.length_pos_iff.mpr some))
          by_cases ends : byte = newline
          · have read : readLineLoop room peer line = .ok (withoutReturn line, next) := by
              rw [readLineLoop, found]
              exact if_pos ends
            refine ⟨?_, ?_⟩
            · rw [read, ← took.whole, List.singleton_append, cutLine, if_pos ends]
              rfl
            · intro text other same
              rw [read] at same
              cases same
              exact took.silence
          · cases room with
            | zero =>
                refine .failed 0 peer line (byte :: next.bytes)
                  (invalidData "chunk framing line too long") took.whole.symm ?_ ?_
                · rw [readLineLoop, found]
                  exact if_neg ends
                · rw [cutLine, if_neg ends, if_pos rfl]
            | succ less =>
                have later := further less rfl next (line ++ [byte])
                have read : readLineLoop (less + 1) peer line =
                    readLineLoop less next (line ++ [byte]) := by
                  rw [readLineLoop, found]
                  exact if_neg ends
                refine ⟨?_, ?_⟩
                · rw [read, later.same, ← took.whole, List.singleton_append, cutLine, if_neg ends,
                    if_neg (Nat.succ_ne_zero less), took.silence, Nat.add_sub_cancel]
                · intro text other same
                  rw [read] at same
                  exact (later.silence text other same).trans took.silence

theorem readLineLoop_cut (room : Nat) (peer : PeerReader) (line : List UInt8) :
    CutBy room peer line := by
  induction room generalizing peer line with
  | zero => exact .step 0 peer line fun less none => by cases none
  | succ room further =>
      refine .step (room + 1) peer line fun less same next grown => ?_
      cases same
      exact further next grown

theorem readLine_error (peer : PeerReader) (maxLen : Nat) (failure : IoError)
    (read : readLine peer maxLen = .error failure) :
    cutLine peer.stream.silence maxLen [] peer.bytes = .error failure := by
  rw [← (readLineLoop_cut maxLen peer []).same]
  exact congrArg (Except.map _) read

theorem readLine_ok (peer : PeerReader) (maxLen : Nat) (line : List UInt8) (next : PeerReader)
    (read : readLine peer maxLen = .ok (line, next)) :
    cutLine peer.stream.silence maxLen [] peer.bytes = .ok (line, next.bytes) ∧
      next.stream.silence = peer.stream.silence := by
  have cut := readLineLoop_cut maxLen peer []
  refine ⟨?_, cut.silence line next read⟩
  rw [← cut.same]
  exact congrArg (Except.map _) read

/-- What one read of a body did, by what decoding the bytes that were left gives. -/
inductive Advances {σ : Type} (whole : List UInt8 × Except IoError (List UInt8)) (peer : PeerReader)
    (decode : σ → List UInt8 → List UInt8 × Except IoError (List UInt8)) (ended : σ → Prop) :
    Except IoError (List UInt8 × σ × PeerReader) → Prop
  | failed (failure : IoError) (same : whole = ([], .error failure)) :
      Advances whole peer decode ended (.error failure)
  | finished (state : σ) (next : PeerReader) (same : whole = ([], .ok next.bytes))
      (ends : ended state) : Advances whole peer decode ended (.ok ([], state, next))
  | gave (got : List UInt8) (state : σ) (next : PeerReader) (some : got ≠ [])
      (same : whole = prepend got (decode state next.bytes))
      (shorter : next.bytes.length < peer.bytes.length)
      (silence : next.stream.silence = peer.stream.silence) :
      Advances whole peer decode ended (.ok (got, state, next))

theorem Advances.later {σ : Type} (whole : List UInt8 × Except IoError (List UInt8))
    (peer between : PeerReader)
    (decode : σ → List UInt8 → List UInt8 × Except IoError (List UInt8)) (ended : σ → Prop)
    (outcome : Except IoError (List UInt8 × σ × PeerReader))
    (shorter : between.bytes.length < peer.bytes.length)
    (silence : between.stream.silence = peer.stream.silence)
    (advances : Advances whole between decode ended outcome) :
    Advances whole peer decode ended outcome := by
  cases advances with
  | failed failure same => exact .failed failure same
  | finished state next same ends => exact .finished state next same ends
  | gave got state next some same less kept =>
      exact .gave got state next some same (Nat.lt_trans less shorter) (kept.trans silence)

theorem decodeChunked_data (silence : Except IoError Unit) (got rest : List UInt8) (remaining : Nat)
    (fits : got.length ≤ remaining) (some : 0 < remaining) :
    decodeChunked silence (.data remaining) (got ++ rest) =
      prepend got (decodeChunked silence
        (if remaining - got.length = 0 then .dataCrlf else .data (remaining - got.length)) rest) := by
  rw [decodeChunked, if_neg (Nat.ne_of_gt some)]
  by_cases all : remaining - got.length = 0
  · have all' : remaining = got.length := by omega
    rw [if_pos all, dif_pos (by rw [List.length_append]; omega), all', List.take_left',
      List.drop_left'] <;> rfl
  · rw [if_neg all, decodeChunked, if_neg all]
    by_cases enough : remaining - got.length ≤ rest.length
    · rw [dif_pos (by rw [List.length_append]; omega), dif_pos enough,
        List.take_append, List.drop_append, List.take_of_length_le fits,
        List.drop_eq_nil_of_le fits]
      simp only [prepend, List.append_assoc, List.nil_append]
    · rw [dif_neg (by rw [List.length_append]; omega), dif_neg enough]
      rfl

theorem readChunked_data (peer : PeerReader) (remaining room : Nat) (positive : 0 < room)
    (some : 0 < remaining) :
    Advances (decodeChunked peer.stream.silence (.data remaining) peer.bytes) peer
      (decodeChunked peer.stream.silence) (· = .done)
      (readChunked peer (.data remaining) room) := by
  have outcome := PeerReader.read_of peer (min room remaining) (Nat.lt_min.mpr ⟨positive, some⟩)
  rw [readChunked, if_neg (Nat.ne_of_gt positive)]
  cases found : peer.read (min room remaining) with
  | error failure =>
      rw [found] at outcome
      cases outcome with
      | failed _ none silent =>
          refine .failed failure ?_
          rw [decodeChunked, none, if_neg (Nat.ne_of_gt some), List.length_nil,
            dif_neg (Nat.not_le.mpr some), silent]
          rfl
  | ok taken =>
      rw [found] at outcome
      cases outcome with
      | closed next none closed =>
          refine .failed _ ?_
          rw [decodeChunked, none, if_neg (Nat.ne_of_gt some), List.length_nil,
            dif_neg (Nat.not_le.mpr some), closed]
          rfl
      | gave got next present took =>
          have fits : got.length ≤ remaining := Nat.le_trans took.fits (Nat.min_le_right room _)
          have shorter := took.shorter _ _ _ _ present
          obtain ⟨byte, more, rfl⟩ := List.exists_cons_of_ne_nil present
          refine .gave (byte :: more) _ next present ?_ shorter took.silence
          rw [← took.whole]
          exact decodeChunked_data peer.stream.silence (byte :: more) next.bytes remaining fits some

theorem readChunked_advances (peer : PeerReader) (state : ChunkState) (room : Nat)
    (positive : 0 < room) :
    Advances (decodeChunked peer.stream.silence state peer.bytes) peer
      (decodeChunked peer.stream.silence) (· = .done)
      (readChunked peer state room) := by
  induction size : peer.bytes.length using Nat.strongRecOn generalizing peer state with
  | _ size further =>
  subst size
  have later : ∀ maxLen line next again, readLine peer maxLen = .ok (line, next) →
      Advances (decodeChunked peer.stream.silence again next.bytes) peer
        (decodeChunked peer.stream.silence) (· = .done)
        (readChunked next again room) := by
    intro maxLen line next again read
    have shorter := readLine_shorter peer maxLen line next read
    have silence := (readLine_ok peer maxLen line next read).2
    have rest := further next.bytes.length shorter next again rfl
    rw [silence] at rest
    exact .later _ _ _ _ _ _ shorter silence rest
  cases state with
  | size =>
      rw [readChunked, decodeChunked]
      cases read : readLine peer maxChunkLine with
      | error failure =>
          rw [readLine_error peer maxChunkLine failure read]
          exact .failed failure rfl
      | ok found =>
          obtain ⟨line, next⟩ := found
          rw [(readLine_ok peer maxChunkLine line next read).1]
          cases sized : chunkSize line with
          | error failure =>
              simp only [sized]
              exact .failed failure rfl
          | ok size =>
              simp only [sized]
              exact later maxChunkLine line next _ read
  | data remaining =>
      by_cases none : remaining = 0
      · subst none
        rw [decodeChunked, if_pos rfl, readChunked, if_neg (Nat.ne_of_gt positive), Nat.min_zero,
          PeerReader.read, if_pos rfl]
        exact .failed _ rfl
      · exact readChunked_data peer remaining room positive (Nat.pos_of_ne_zero none)
  | dataCrlf =>
      rw [readChunked, decodeChunked]
      cases read : readLine peer 2 with
      | error failure =>
          rw [readLine_error peer 2 failure read]
          exact .failed failure rfl
      | ok found =>
          obtain ⟨line, next⟩ := found
          rw [(readLine_ok peer 2 line next read).1]
          by_cases blank : line.isEmpty = true
          · simp only [blank]
            exact later 2 line next .size read
          · simp only [blank]
            exact .failed _ rfl
  | trailers =>
      rw [readChunked, decodeChunked]
      cases read : readLine peer maxChunkLine with
      | error failure =>
          rw [readLine_error peer maxChunkLine failure read]
          exact .failed failure rfl
      | ok found =>
          obtain ⟨line, next⟩ := found
          rw [(readLine_ok peer maxChunkLine line next read).1]
          by_cases blank : line.isEmpty = true
          · simp only [blank]
            exact .finished ChunkState.done next rfl rfl
          · simp only [blank]
            exact later maxChunkLine line next .trailers read
  | done =>
      rw [readChunked, decodeChunked]
      exact .finished ChunkState.done peer rfl rfl

theorem readLength_advances (peer : PeerReader) (remaining room : Nat) (positive : 0 < room) :
    Advances (BodyState.decode peer.stream.silence (.length remaining) peer.bytes) peer
      (fun left => BodyState.decode peer.stream.silence (.length left)) (· = 0)
      (readLength peer remaining room) := by
  unfold readLength
  by_cases none : remaining = 0
  · subst none
    rw [if_pos (Or.inl rfl)]
    exact .finished 0 peer rfl rfl
  · rw [if_neg (by omega)]
    have outcome := PeerReader.read_of peer (min room remaining) (by omega)
    cases found : peer.read (min room remaining) with
    | error failure =>
        rw [found] at outcome
        cases outcome with
        | failed _ empty silent =>
            refine .failed failure ?_
            rw [BodyState.decode, empty, List.length_nil, if_neg (by omega), silent]
            rfl
    | ok taken =>
        rw [found] at outcome
        cases outcome with
        | closed next empty closed =>
            refine .failed _ ?_
            rw [BodyState.decode, empty, List.length_nil, if_neg (by omega), closed]
            rfl
        | gave got next present took =>
            have fits : got.length ≤ remaining := Nat.le_trans took.fits (Nat.min_le_right room _)
            have shorter := took.shorter _ _ _ _ present
            obtain ⟨byte, more, rfl⟩ := List.exists_cons_of_ne_nil present
            refine .gave (byte :: more) _ next present ?_ shorter took.silence
            simp only [BodyState.decode, ← took.whole, List.length_append]
            by_cases enough : remaining - (byte :: more).length ≤ next.bytes.length
            · rw [if_pos enough, if_pos (by omega), List.take_append, List.drop_append,
                List.take_of_length_le fits, List.drop_eq_nil_of_le fits]
              rfl
            · rw [if_neg enough, if_neg (by omega)]
              rfl

theorem Advances.wrap {σ τ : Type} (wrap : σ → τ) (whole : List UInt8 × Except IoError (List UInt8))
    (peer : PeerReader) (decode : τ → List UInt8 → List UInt8 × Except IoError (List UInt8))
    (ended : σ → Prop) (endedAs : τ → Prop) (ends : ∀ state, ended state → endedAs (wrap state))
    (outcome : Except IoError (List UInt8 × σ × PeerReader))
    (advances : Advances whole peer (fun state => decode (wrap state)) ended outcome) :
    Advances whole peer decode endedAs
      (outcome.map fun (got, state, next) => (got, wrap state, next)) := by
  cases advances with
  | failed failure same => exact .failed failure same
  | finished state next same finished => exact .finished (wrap state) next same (ends state finished)
  | gave got state next some same shorter silence =>
      exact .gave got (wrap state) next some same shorter silence

theorem BodyState.read_advances (body : BodyState) (peer : PeerReader) (room : Nat)
    (positive : 0 < room) :
    Advances (body.decode peer.stream.silence peer.bytes) peer
      (BodyState.decode peer.stream.silence) (·.fullyConsumed = true) (body.read peer room) := by
  cases body with
  | none => exact .finished BodyState.none peer rfl rfl
  | length remaining =>
      exact .wrap BodyState.length _ _ _ (· = 0) _ (fun left none => by rw [none]; rfl) _
        (readLength_advances peer remaining room positive)
  | chunked state =>
      exact .wrap BodyState.chunked _ _ _ (· = .done) _ (fun state done => by rw [done]; rfl) _
        (readChunked_advances peer state room positive)

theorem BodyState.read_shorter (body state : BodyState) (peer next : PeerReader) (room : Nat)
    (byte : UInt8) (got : List UInt8)
    (read : body.read peer (room + 1) = .ok (byte :: got, state, next)) :
    next.bytes.length < peer.bytes.length := by
  have advances := body.read_advances peer (room + 1) (Nat.succ_pos room)
  rw [read] at advances
  cases advances with
  | gave _ _ _ _ _ shorter _ => exact shorter

/-- Reads until one gives nothing, each into a buffer with room for a byte. -/
def readToEnd (rooms : Nat → Nat) (turn : Nat) (body : BodyState) (peer : PeerReader) :
    List UInt8 × Except IoError (BodyState × PeerReader) :=
  match _read : body.read peer (rooms turn + 1) with
  | .error failure => ([], .error failure)
  | .ok ([], state, next) => ([], .ok (state, next))
  | .ok (byte :: got, state, next) => prepend (byte :: got) (readToEnd rooms (turn + 1) state next)
termination_by peer.bytes.length
decreasing_by exact BodyState.read_shorter _ _ _ _ _ _ _ _read

theorem readToEnd_decodes (rooms : Nat → Nat) (turn : Nat) (body : BodyState) (peer : PeerReader) :
    (readToEnd rooms turn body peer).1 = (body.decode peer.stream.silence peer.bytes).1 ∧
      (readToEnd rooms turn body peer).2.map
          (fun (state, next) => (state.fullyConsumed, next.bytes)) =
        (body.decode peer.stream.silence peer.bytes).2.map (fun rest => (true, rest)) := by
  induction size : peer.bytes.length using Nat.strongRecOn generalizing turn body peer with
  | _ size further =>
  subst size
  have advances := body.read_advances peer (rooms turn + 1) (Nat.succ_pos _)
  rw [readToEnd]
  cases read : body.read peer (rooms turn + 1) with
  | error failure =>
      rw [read] at advances
      cases advances with
      | failed _ same =>
          rw [same]
          exact ⟨rfl, rfl⟩
  | ok outcome =>
      rw [read] at advances
      cases advances with
      | finished state next same ends =>
          rw [same]
          refine ⟨rfl, ?_⟩
          simp only [Except.map, ends]
      | gave got state next some same shorter silence =>
          obtain ⟨byte, more, rfl⟩ := List.exists_cons_of_ne_nil some
          obtain ⟨data, rest⟩ := further next.bytes.length shorter (turn + 1) state next rfl
          rw [silence] at data rest
          rw [same]
          refine ⟨?_, rest⟩
          simp only [prepend, data]

def crlf : List UInt8 := [carriageReturn, newline]

/-- What may stand on a framing line before its end. -/
structure FitsLine (text : List UInt8) : Prop where
  single : newline ∉ text
  short : text.length < maxChunkLine

/-- The trailer lines of a chunked body, and the blank line that ends it. -/
inductive TrailerLines : List UInt8 → Prop
  | blank : TrailerLines crlf
  | line (text rest : List UInt8) (fits : FitsLine text) (some : text ≠ [])
      (later : TrailerLines rest) : TrailerLines (text ++ crlf ++ rest)

/-- The bytes of a chunked body, and the data its chunks hold. -/
inductive ChunkedBody : List UInt8 → List UInt8 → Prop
  | last (text trailers : List UInt8) (fits : FitsLine text) (sized : chunkSize text = .ok 0)
      (later : TrailerLines trailers) : ChunkedBody (text ++ crlf ++ trailers) []
  | chunk (text data rest more : List UInt8) (fits : FitsLine text)
      (sized : chunkSize text = .ok data.length) (some : data ≠ []) (later : ChunkedBody rest more) :
      ChunkedBody (text ++ crlf ++ (data ++ (crlf ++ rest))) (data ++ more)

/-- The bytes of a body, as its framing declares it, and the data it carries. -/
inductive Declares : Framing → List UInt8 → List UInt8 → Prop
  | none : Declares .none [] []
  | length (data : List UInt8) : Declares (.length data.length) data data
  | chunked (bytes data : List UInt8) (body : ChunkedBody bytes data) : Declares .chunked bytes data

theorem cutLine_text (silence : Except IoError Unit) (room : Nat) (line text rest : List UInt8)
    (single : newline ∉ text) (short : text.length < room) :
    cutLine silence room line (text ++ crlf ++ rest) = .ok (line ++ text, rest) := by
  induction text generalizing room line with
  | nil =>
      have differs : carriageReturn ≠ newline := by decide
      have some : room ≠ 0 := Nat.ne_of_gt short
      simp only [crlf, List.nil_append, List.cons_append, cutLine, if_neg differs, if_neg some]
      simp [withoutReturn]
  | cons byte text further =>
      rw [List.mem_cons, not_or] at single
      obtain ⟨differs, single⟩ := single
      rw [List.length_cons] at short
      rw [List.cons_append, List.cons_append, cutLine, if_neg (Ne.symm differs), if_neg (by omega),
        further (room - 1) (line ++ [byte]) single (by omega), List.append_assoc,
        List.singleton_append]

theorem decodeChunked_trailers (silence : Except IoError Unit) (bytes : List UInt8)
    (lines : TrailerLines bytes) : decodeChunked silence .trailers bytes = ([], .ok []) := by
  induction lines with
  | blank =>
      have cut := cutLine_text silence maxChunkLine [] [] [] (by simp) (by decide)
      rw [List.nil_append, List.append_nil] at cut
      rw [decodeChunked, cut]
      rfl
  | line text rest fits some later further =>
      have cut := cutLine_text silence maxChunkLine [] text rest fits.single fits.short
      have held : text.isEmpty = false := by simpa using some
      rw [decodeChunked, cut]
      simp only [List.nil_append, held, further]
      rfl

theorem decodeChunked_body (silence : Except IoError Unit) (bytes data : List UInt8)
    (body : ChunkedBody bytes data) : decodeChunked silence .size bytes = (data, .ok []) := by
  induction body with
  | last text trailers fits sized later =>
      have cut := cutLine_text silence maxChunkLine [] text trailers fits.single fits.short
      rw [decodeChunked, cut]
      simp only [List.nil_append, sized, if_true]
      exact decodeChunked_trailers silence trailers later
  | chunk text data rest more fits sized some later further =>
      have cut := cutLine_text silence maxChunkLine [] text (data ++ (crlf ++ rest)) fits.single
        fits.short
      have positive := List.length_pos_iff.mpr some
      have ends := cutLine_text silence 2 [] [] rest (by simp) (by decide)
      rw [List.nil_append] at ends
      rw [decodeChunked, cut]
      simp only [List.nil_append, sized, if_neg (Nat.ne_of_gt positive)]
      rw [decodeChunked_data silence data (crlf ++ rest) data.length (Nat.le_refl _) positive,
        Nat.sub_self, if_pos rfl, decodeChunked, ends]
      simp only [List.nil_append, List.isEmpty_nil, if_true, further]
      rfl

theorem decode_declared (silence : Except IoError Unit) (framing : Framing)
    (bytes data : List UInt8) (declares : Declares framing bytes data) :
    (BodyState.fromFraming framing).decode silence bytes = (data, .ok []) := by
  cases declares with
  | none => rfl
  | length => simp [BodyState.fromFraming, BodyState.decode]
  | chunked _ _ body => exact decodeChunked_body silence bytes data body

end Storyhook.Daemon
