import Storyhook.Daemon.Parse
import Storyhook.Library.Segments

namespace Storyhook.Daemon

open Storyhook.Library

inductive ErrorKind where
  | timedOut
  | wouldBlock
  | unexpectedEof
  | invalidData
  | other
  deriving DecidableEq

structure IoError where
  kind : ErrorKind
  message : String
  deriving DecidableEq

def invalidData (message : String) : IoError := ⟨.invalidData, message⟩

def unexpectedEof (message : String) : IoError := ⟨.unexpectedEof, message⟩

/-- A socket: the segments its reads will find, and what a read after the last of them gives. -/
structure Socket where
  segments : List (List UInt8)
  silence : Except IoError Unit

def Socket.bytes (socket : Socket) : List UInt8 := socket.segments.flatten

def Socket.read (socket : Socket) (room : Nat) : Except IoError (List UInt8 × Socket) :=
  match Segments.take room socket.segments with
  | ([], later) => socket.silence.map fun _ => ([], { socket with segments := later })
  | (got, later) => .ok (got, { socket with segments := later })

/-- The source's `prefix`, with the position reached in it, and then the socket. -/
structure PeerReader where
  stream : Socket
  leftover : List UInt8
  position : Nat

def PeerReader.new (stream : Socket) (leftover : List UInt8) : PeerReader := ⟨stream, leftover, 0⟩

def PeerReader.bytes (peer : PeerReader) : List UInt8 :=
  peer.leftover.drop peer.position ++ peer.stream.bytes

def PeerReader.read (peer : PeerReader) (room : Nat) : Except IoError (List UInt8 × PeerReader) :=
  if room = 0 then .ok ([], peer)
  else if peer.position < peer.leftover.length then
    let n := min (peer.leftover.length - peer.position) room
    .ok ((peer.leftover.drop peer.position).take n, { peer with position := peer.position + n })
  else (peer.stream.read room).map fun (got, stream) => (got, { peer with stream := stream })

structure Took (peer : PeerReader) (room : Nat) (got : List UInt8) (next : PeerReader) : Prop where
  whole : got ++ next.bytes = peer.bytes
  fits : got.length ≤ room
  silence : next.stream.silence = peer.stream.silence

/-- What a read gives, by the bytes that are left alone. -/
inductive ReadOf (peer : PeerReader) (room : Nat) : Except IoError (List UInt8 × PeerReader) → Prop
  | gave (got : List UInt8) (next : PeerReader) (some : got ≠ []) (took : Took peer room got next) :
      ReadOf peer room (.ok (got, next))
  | closed (next : PeerReader) (none : peer.bytes = []) (closed : peer.stream.silence = .ok ()) :
      ReadOf peer room (.ok ([], next))
  | failed (failure : IoError) (none : peer.bytes = [])
      (silent : peer.stream.silence = .error failure) : ReadOf peer room (.error failure)

theorem Socket.read_gave (socket : Socket) (room : Nat) (got : List UInt8) (next : Socket)
    (read : socket.read room = .ok (got, next)) (some : got ≠ []) :
    got ++ next.bytes = socket.bytes ∧ got.length ≤ room ∧ next.silence = socket.silence := by
  have whole := Segments.take_append room socket.segments
  have fits := Segments.take_length room socket.segments
  unfold Socket.read at read
  split at read
  · cases silent : socket.silence <;> rw [silent] at read <;> cases read
    exact absurd rfl some
  · next first later _ taken =>
      cases read
      rw [taken] at whole fits
      exact ⟨whole, fits, rfl⟩

theorem Socket.read_empty (socket : Socket) (room : Nat) (positive : 0 < room) (next : Socket)
    (read : socket.read room = .ok ([], next)) :
    socket.bytes = [] ∧ socket.silence = .ok () := by
  unfold Socket.read at read
  split at read
  · next later taken =>
      refine ⟨Segments.take_nil room socket.segments positive (by rw [taken]), ?_⟩
      cases silent : socket.silence with
      | ok => rfl
      | error failure =>
          rw [silent] at read
          cases read
  · next later none _ => cases read; exact absurd rfl none

theorem Socket.read_failed (socket : Socket) (room : Nat) (positive : 0 < room) (failure : IoError)
    (read : socket.read room = .error failure) :
    socket.bytes = [] ∧ socket.silence = .error failure := by
  unfold Socket.read at read
  split at read
  · next later taken =>
      refine ⟨Segments.take_nil room socket.segments positive (by rw [taken]), ?_⟩
      cases silent : socket.silence with
      | ok =>
          rw [silent] at read
          cases read
      | error other =>
          rw [silent] at read
          cases read
          rfl
  · cases read

theorem PeerReader.read_of (peer : PeerReader) (room : Nat) (positive : 0 < room) :
    ReadOf peer room (peer.read room) := by
  unfold PeerReader.read
  rw [if_neg (Nat.ne_of_gt positive)]
  split
  · next before =>
      refine .gave _ _ (fun none => ?_) ⟨?_, ?_, rfl⟩
      · have empty := congrArg List.length none
        simp only [List.length_take, List.length_drop, List.length_nil] at empty
        omega
      · simp only [PeerReader.bytes, ← List.append_assoc, ← List.drop_drop, List.take_append_drop]
      · simp only [List.length_take]
        omega
  · next after =>
      have past : peer.leftover.drop peer.position = [] :=
        List.drop_eq_nil_of_le (Nat.not_lt.mp after)
      cases read : peer.stream.read room with
      | error failure =>
          obtain ⟨none, silent⟩ := Socket.read_failed peer.stream room positive failure read
          exact .failed failure (by rw [PeerReader.bytes, past, none]; rfl) silent
      | ok outcome =>
          obtain ⟨got, next⟩ := outcome
          by_cases empty : got = []
          · subst empty
            obtain ⟨none, closed⟩ := Socket.read_empty peer.stream room positive next read
            exact .closed _ (by rw [PeerReader.bytes, past, none]; rfl) closed
          · obtain ⟨whole, fits, silence⟩ := Socket.read_gave peer.stream room got next read empty
            refine .gave got _ empty ⟨?_, fits, silence⟩
            simp only [PeerReader.bytes, past, List.nil_append]
            exact whole

theorem Took.shorter (peer : PeerReader) (room : Nat) (got : List UInt8) (next : PeerReader)
    (took : Took peer room got next) (some : got ≠ []) :
    next.bytes.length < peer.bytes.length := by
  have total := congrArg List.length took.whole
  have positive := List.length_pos_iff.mpr some
  rw [List.length_append] at total
  omega

inductive ChunkState where
  | size
  | data (remaining : Nat)
  | dataCrlf
  | trailers
  | done
  deriving DecidableEq

inductive BodyState where
  | none
  | length (remaining : Nat)
  | chunked (state : ChunkState)
  deriving DecidableEq

def BodyState.fromFraming : Framing → BodyState
  | .none => .none
  | .length bytes => .length bytes
  | .chunked => .chunked .size

def BodyState.fullyConsumed : BodyState → Bool
  | .none => true
  | .length remaining => remaining == 0
  | .chunked state => state == .done

def newline : UInt8 := 10

def carriageReturn : UInt8 := 13

def maxChunkLine : Nat := 256

def withoutReturn (line : List UInt8) : List UInt8 :=
  if line.getLast? = some carriageReturn then line.dropLast else line

def readLineLoop : Nat → PeerReader → List UInt8 → Except IoError (List UInt8 × PeerReader)
  | room, peer, line =>
      match peer.read 1 with
      | .error failure => .error failure
      | .ok ([], _) => .error (unexpectedEof "peer closed the connection mid-chunk")
      | .ok (byte :: _, next) =>
          if byte = newline then .ok (withoutReturn line, next)
          else match room with
            | 0 => .error (invalidData "chunk framing line too long")
            | room + 1 => readLineLoop room next (line ++ [byte])

def readLine (peer : PeerReader) (maxLen : Nat) : Except IoError (List UInt8 × PeerReader) :=
  readLineLoop maxLen peer []

def chunkSize (line : List UInt8) : Except IoError Nat :=
  match fromUtf8 line with
  | none => .error (invalidData "malformed chunk size")
  | some text =>
      match u64FromStr 16 (Text.trim (text.takeWhile (· != ';'))) with
      | none => .error (invalidData "malformed chunk size")
      | some size => .ok size

theorem readLineLoop_ok (room : Nat) (peer : PeerReader) (line text : List UInt8)
    (next : PeerReader) (read : readLineLoop room peer line = .ok (text, next)) :
    next.bytes.length < peer.bytes.length := by
  induction room generalizing peer line with
  | zero =>
      unfold readLineLoop at read
      have outcome := PeerReader.read_of peer 1 Nat.one_pos
      split at read
      · cases read
      · cases read
      · next byte rest later found =>
          rw [found] at outcome
          cases outcome with
          | gave _ _ some took =>
              split at read
              · cases read
                exact took.shorter _ _ _ _ some
              · cases read
  | succ room further =>
      unfold readLineLoop at read
      have outcome := PeerReader.read_of peer 1 Nat.one_pos
      split at read
      · cases read
      · cases read
      · next byte rest later found =>
          rw [found] at outcome
          cases outcome with
          | gave _ _ some took =>
              have less := took.shorter _ _ _ _ some
              split at read
              · cases read
                exact less
              · exact Nat.lt_trans (further later _ read) less

theorem readLine_shorter (peer : PeerReader) (maxLen : Nat) (line : List UInt8) (next : PeerReader)
    (read : readLine peer maxLen = .ok (line, next)) : next.bytes.length < peer.bytes.length :=
  readLineLoop_ok maxLen peer [] line next read

def readLength (peer : PeerReader) (remaining room : Nat) :
    Except IoError (List UInt8 × Nat × PeerReader) :=
  if remaining = 0 ∨ room = 0 then .ok ([], remaining, peer)
  else match peer.read (min room remaining) with
    | .error failure => .error failure
    | .ok ([], _) => .error (unexpectedEof
        "peer closed the connection before its declared request body arrived")
    | .ok (got, next) => .ok (got, remaining - got.length, next)

def readChunked (peer : PeerReader) (state : ChunkState) (room : Nat) :
    Except IoError (List UInt8 × ChunkState × PeerReader) :=
  match state with
  | .size =>
      match _line : readLine peer maxChunkLine with
      | .error failure => .error failure
      | .ok (line, next) =>
          match chunkSize line with
          | .error failure => .error failure
          | .ok size => readChunked next (if size = 0 then .trailers else .data size) room
  | .data remaining =>
      if room = 0 then .ok ([], state, peer)
      else match peer.read (min room remaining) with
        | .error failure => .error failure
        | .ok ([], _) => .error (unexpectedEof "peer closed the connection mid-chunk")
        | .ok (got, next) =>
            let remaining := remaining - got.length
            .ok (got, if remaining = 0 then .dataCrlf else .data remaining, next)
  | .dataCrlf =>
      match _line : readLine peer 2 with
      | .error failure => .error failure
      | .ok (line, next) =>
          if line.isEmpty then readChunked next .size room
          else .error (invalidData "malformed chunk terminator")
  | .trailers =>
      match _line : readLine peer maxChunkLine with
      | .error failure => .error failure
      | .ok (line, next) =>
          if line.isEmpty then .ok ([], .done, next) else readChunked next .trailers room
  | .done => .ok ([], .done, peer)
termination_by peer.bytes.length
decreasing_by all_goals exact readLine_shorter _ _ _ _ _line

def BodyState.read (body : BodyState) (peer : PeerReader) (room : Nat) :
    Except IoError (List UInt8 × BodyState × PeerReader) :=
  match body with
  | .none => .ok ([], .none, peer)
  | .length remaining => (readLength peer remaining room).map fun (got, left, next) =>
      (got, .length left, next)
  | .chunked state => (readChunked peer state room).map fun (got, state, next) =>
      (got, .chunked state, next)

end Storyhook.Daemon
