import Storyhook.Daemon.Bus
import Storyhook.Daemon.Parse
import Storyhook.Domain.ConflictSmoothing
import Storyhook.Library.Arrivals
import Storyhook.Library.Utf8

/-! The change feed on its wire: written as chunks, and read however they arrive. -/

namespace Storyhook.Daemon

open Storyhook.Library

/-- The serializer of JSON, as far as the feed uses it: the object that names a slug, and the slug
that a document names. -/
structure SlugJson where
  render : String → List Char
  repoId : List Char → Option String

def sseMessage (name : String) (data : List Char) : List Char :=
  "event: ".toList ++ name.toList ++ "\ndata: ".toList ++ data ++ "\n\n".toList

def Change.toSse (json : SlugJson) : Change → List Char
  | .ping => sseMessage "ping" "\x7b\x7d".toList
  | .catalog => sseMessage "repos-changed" "\x7b\x7d".toList
  | .project slug => sseMessage "repo-changed" (json.render slug)
  | .resync => sseMessage "resync" "\x7b\x7d".toList
  | .reload => sseMessage "reload" "\x7b\x7d".toList

/-- The event and the data of a message, as far as it has been read. -/
abbrev SseFields := Option (List Char) × Option (List Char)

def SseFields.line (fields : SseFields) (line : List Char) : SseFields :=
  match "event: ".toList.isPrefixOf? line with
  | some event => (some event, fields.2)
  | none =>
      match "data: ".toList.isPrefixOf? line with
      | some data => (fields.1, some data)
      | none => fields

def Change.fromSse (json : SlugJson) (frame : List Char) : Option Change :=
  let fields := (Domain.ConflictSmoothing.lines frame).foldl SseFields.line (none, none)
  match fields.1.map String.ofList with
  | some "ping" => some .ping
  | some "repos-changed" => some .catalog
  | some "repo-changed" => (fields.2.bind json.repoId).map .project
  | some "resync" => some .resync
  | some "reload" => some .reload
  | _ => none

def chunkEnd : List UInt8 := [13, 10]

/-- The line that gives the size of a chunk, in lowercase hexadecimal. -/
def sizeLine (size : Nat) : List Char := Nat.toDigits 16 size ++ ['\r', '\n']

def writeSseFrame (payload : List Char) : List UInt8 :=
  Utf8.bytes (sizeLine (Utf8.size payload)) ++ Utf8.bytes payload ++ chunkEnd

/-- What comes first on every connection, before any change. -/
def connectedFrame : List Char := "retry: 3000\n: connected\n\n".toList

/-- What the wire carries of the messages sent on it. -/
def written (payloads : List (List Char)) : List UInt8 := payloads.flatMap writeSseFrame

inductive FeedState where
  | size
  | body (needed : Nat) (buf : List UInt8)
  deriving DecidableEq

structure Connection where
  line : List Char
  state : FeedState
  deriving DecidableEq

def Connection.fresh : Connection := ⟨[], .size⟩

def feedNewline (byte : UInt8) : Bool := byte == 10

inductive FeedError where
  | closed
  | closedMidChunk
  | notAChunkSize (line : List Char)
  | notUtf8
  deriving DecidableEq

def trimEnd (text : List Char) : List Char := (text.reverse.dropWhile Text.isWhitespace).reverse

abbrev Advance := Except FeedError (Option (List Char)) × Connection × List (Arrival UInt8)

/-- Goes once around the loop for each line read, until a frame is whole, a read times out or the
connection fails. -/
def Connection.advanceIn (lossy : List UInt8 → List Char) :
    Nat → Connection → List (Arrival UInt8) → Advance
  | 0, conn, arrivals => (.ok none, conn, arrivals)
  | fuel + 1, conn, arrivals =>
      match conn.state with
      | .size =>
          let (got, ending, rest) := readUntil feedNewline [] arrivals
          match fromUtf8 got, ending with
          -- The read drops what it cannot decode, and a wait is reported before that.
          | none, .timedOut => (.ok none, conn, rest)
          | none, _ => (.error .notUtf8, conn, rest)
          | some text, .timedOut => (.ok none, { conn with line := conn.line ++ text }, rest)
          | some text, .closed =>
              if got.isEmpty then (.error .closed, conn, rest)
              else (.ok none, { conn with line := conn.line ++ text }, rest)
          | some text, .complete =>
              let trimmed := trimEnd (conn.line ++ text)
              let conn := { conn with line := [] }
              if trimmed.isEmpty then conn.advanceIn lossy fuel rest
              else
                match u64FromStr 16 trimmed with
                | none => (.error (.notAChunkSize trimmed), conn, rest)
                | some size =>
                    Connection.advanceIn lossy fuel { conn with state := .body (size + 2) [] } rest
      | .body needed buf =>
          match readUpTo needed buf arrivals with
          | (buf, .complete, rest) =>
              (.ok (some (lossy (buf.take (needed - 2)))), { conn with state := .size }, rest)
          | (buf, .timedOut, rest) => (.ok none, { conn with state := .body needed buf }, rest)
          | (buf, .closed, rest) =>
              (.error .closedMidChunk, { conn with state := .body needed buf }, rest)

def Connection.advance (lossy : List UInt8 → List Char) (conn : Connection)
    (arrivals : List (Arrival UInt8)) : Advance :=
  conn.advanceIn lossy (arrivals.length + 1) arrivals

/-- Waits for the first frame of a connection, for as many reads as the budget lasts. -/
def Connection.openFeed (lossy : List UInt8 → List Char) :
    Nat → Connection → List (Arrival UInt8) → Option (Connection × List (Arrival UInt8))
  | 0, _, _ => none
  | budget + 1, conn, arrivals =>
      match conn.advance lossy arrivals with
      | (.ok (some _), conn, rest) => some (conn, rest)
      | (.ok none, conn, rest) => Connection.openFeed lossy budget conn rest
      | (.error _, _, _) => none

/-- The connection of a subscriber with what is still to arrive on it, if it has one. -/
abbrev Subscriber := Option (Connection × List (Arrival UInt8))

/-- What an attempt to connect meets: no daemon or no answer, or the reads that its budget lasts
and what then arrives. -/
abbrev Redial := Option (Nat × List (Arrival UInt8))

/-- What a turn of the loop meets: the budget spent, a silence past the watchdog, or a read; and
what a new connection would. -/
inductive Turn where
  | expired
  | stale (redial : Redial)
  | read (redial : Redial)

def reconnectAndResync (lossy : List UInt8 → List Char) (redial : Redial) :
    Subscriber × Option Change :=
  match redial.bind fun reads => Connection.openFeed lossy reads.1 .fresh reads.2 with
  | some connected => (some connected, some .resync)
  | none => (none, none)

/-- One turn of the loop of `poll`, and the change it answers with. -/
def Subscriber.turn (lossy : List UInt8 → List Char) (json : SlugJson) (subscriber : Subscriber) :
    Turn → Subscriber × Option Change
  | .expired => (subscriber, none)
  | .stale redial => reconnectAndResync lossy redial
  | .read redial =>
      match subscriber with
      | none => reconnectAndResync lossy redial
      | some (conn, arrivals) =>
          match conn.advance lossy arrivals with
          | (.ok (some text), conn, rest) =>
              match Change.fromSse json text with
              | some .ping => (some (conn, rest), none)
              | some .reload => reconnectAndResync lossy redial
              | some change => (some (conn, rest), some change)
              | none => (some (conn, rest), none)
          | (.ok none, conn, rest) => (some (conn, rest), none)
          | (.error _, _, _) => reconnectAndResync lossy redial

/-- The changes answered, turn after turn. -/
def Subscriber.poll (lossy : List UInt8 → List Char) (json : SlugJson) :
    Subscriber → List Turn → Subscriber × List Change
  | subscriber, [] => (subscriber, [])
  | subscriber, turn :: turns =>
      let (next, answer) := subscriber.turn lossy json turn
      let (last, answers) := Subscriber.poll lossy json next turns
      (last, answer.toList ++ answers)

end Storyhook.Daemon
