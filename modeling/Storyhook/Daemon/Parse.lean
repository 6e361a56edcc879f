import Mathlib.Algebra.Group.Nat.Defs
import Mathlib.Tactic.Common
import Storyhook.Library.Text

namespace Storyhook.Daemon

open Storyhook.Library

inductive Method where
  | get | head | post | put | patch | delete | options
  | other (token : String)
  deriving DecidableEq

def Method.parse : String → Method
  | "GET" => .get
  | "HEAD" => .head
  | "POST" => .post
  | "PUT" => .put
  | "PATCH" => .patch
  | "DELETE" => .delete
  | "OPTIONS" => .options
  | token => .other token

structure Header where
  field : String
  value : String
  deriving DecidableEq

def Header.is (header : Header) (name : String) : Bool :=
  Text.toAsciiLowercase header.field.toList == Text.toAsciiLowercase name.toList

def isValidFieldName (name : List Char) : Bool :=
  !name.isEmpty && name.all fun c => 0x21 ≤ c.toNat && c.toNat ≤ 0x7E && c != ':'

def isValidFieldValue (value : List Char) : Bool :=
  value.all fun c => c == '\t' || (0x20 ≤ c.toNat && c.toNat ≤ 0x7E)

def fromUtf8 (bytes : List UInt8) : Option (List Char) :=
  (String.fromUTF8? ⟨bytes.toArray⟩).map String.toList

/-- A header line as the parser of heads finds it. -/
structure RawHeader where
  name : List UInt8
  value : List UInt8
  deriving DecidableEq

def Header.fromBytes (raw : RawHeader) : Option Header := do
  let name ← fromUtf8 raw.name
  let value ← fromUtf8 raw.value
  if isValidFieldName name && isValidFieldValue value then
    some ⟨String.ofList name, String.ofList value⟩
  else none

structure Head where
  method : Method
  url : String
  httpVersion : Nat × Nat
  headers : List Header
  deriving DecidableEq

inductive Framing where
  | none
  | length (bytes : Nat)
  | chunked
  deriving DecidableEq

inductive ParseOutcome where
  | incomplete
  | complete (head : Head) (framing : Framing) (consumed : Nat)
  deriving DecidableEq

inductive ParseError where
  | tooManyHeaders
  | malformed
  | invalidHeader
  | ambiguousFraming
  | invalidContentLength
  | unsupportedTransferEncoding
  deriving DecidableEq

/-- A request line and its headers, as the parser of heads reports them. -/
structure RawRequest where
  method : Option String
  path : Option String
  version : Option Nat
  headers : List RawHeader
  deriving DecidableEq

inductive HttparseError where
  | tooManyHeaders
  | other
  deriving DecidableEq

/-- The parser of heads: what it makes of a buffer, with room for some number of headers. -/
abbrev Httparse := List UInt8 → Nat → Except HttparseError (Option (Nat × RawRequest))

/-- It goes by the bytes of the head alone, however many of them it is shown at once. -/
structure Incremental (httparse : Httparse) : Prop where
  settled : ∀ buf more maxHeaders, httparse buf maxHeaders ≠ .ok none →
    httparse (buf ++ more) maxHeaders = httparse buf maxHeaders
  empty : ∀ maxHeaders, httparse [] maxHeaders = .ok none
  consumed : ∀ buf maxHeaders count request, httparse buf maxHeaders = .ok (some (count, request)) →
    count ≤ buf.length ∧ httparse (buf.take count) maxHeaders = .ok (some (count, request))

def digitValue (c : Char) : Option Nat :=
  if '0' ≤ c ∧ c ≤ '9' then some (c.toNat - '0'.toNat)
  else if 'a' ≤ c ∧ c ≤ 'z' then some (c.toNat - 'a'.toNat + 10)
  else if 'A' ≤ c ∧ c ≤ 'Z' then some (c.toNat - 'A'.toNat + 10)
  else none

def digitsValue (radix : Nat) (digits : List Char) : Option Nat :=
  digits.foldlM (fun value c =>
    (digitValue c).bind fun digit => if digit < radix then some (value * radix + digit) else none) 0

def u64FromStr (radix : Nat) (text : List Char) : Option Nat :=
  let digits := match text with
    | '+' :: rest => rest
    | _ => text
  if digits.isEmpty then none
  else (digitsValue radix digits).filter (· < 2 ^ 64)

structure FramingScan where
  contentLength : Option Nat
  chunked : Bool

def FramingScan.header (scan : FramingScan) (header : Header) : Except ParseError FramingScan :=
  if header.is "Content-Length" then
    match u64FromStr 10 (Text.trim header.value.toList), scan.contentLength with
    | none, _ => .error .invalidContentLength
    | some length, none => .ok { scan with contentLength := some length }
    | some length, some existing =>
        if existing = length then .ok scan else .error .ambiguousFraming
  else if header.is "Transfer-Encoding" then
    if Text.toAsciiLowercase (Text.trim header.value.toList) != "chunked".toList then
      .error .unsupportedTransferEncoding
    else if scan.chunked then .error .ambiguousFraming
    else .ok { scan with chunked := true }
  else .ok scan

def framingFromHeaders (headers : List Header) : Except ParseError Framing := do
  let scan ← headers.foldlM FramingScan.header ⟨none, false⟩
  if scan.chunked && scan.contentLength.isSome then .error .ambiguousFraming
  else if scan.chunked then .ok .chunked
  else match scan.contentLength with
    | some length => .ok (.length length)
    | none => .ok .none

def acceptHead (consumed : Nat) (request : RawRequest) : Except ParseError ParseOutcome :=
  match request.method, request.path, request.version with
  | some method, some url, some minor =>
      match request.headers.mapM Header.fromBytes with
      | none => .error .invalidHeader
      | some headers =>
          match framingFromHeaders headers with
          | .error failure => .error failure
          | .ok framing =>
              .ok (.complete ⟨Method.parse method, url, (1, minor), headers⟩ framing consumed)
  | _, _, _ => .error .malformed

def parseHead (httparse : Httparse) (buf : List UInt8) (maxHeaders : Nat) :
    Except ParseError ParseOutcome :=
  match httparse buf maxHeaders with
  | .error .tooManyHeaders => .error .tooManyHeaders
  | .error .other => .error .malformed
  | .ok none => .ok .incomplete
  | .ok (some (consumed, request)) => acceptHead consumed request

theorem acceptHead_decides (consumed : Nat) (request : RawRequest) :
    acceptHead consumed request ≠ .ok .incomplete := by
  unfold acceptHead
  split
  · split
    · simp
    · split <;> simp
  · simp

theorem acceptHead_consumed (consumed count : Nat) (request : RawRequest) (head : Head)
    (framing : Framing) (accepted : acceptHead consumed request = .ok (.complete head framing count)) :
    count = consumed := by
  unfold acceptHead at accepted
  split at accepted
  · split at accepted
    · cases accepted
    · split at accepted
      · cases accepted
      · cases accepted
        rfl
  · cases accepted

theorem parseHead_incomplete (httparse : Httparse) (buf : List UInt8) (maxHeaders : Nat) :
    parseHead httparse buf maxHeaders = .ok .incomplete ↔ httparse buf maxHeaders = .ok none := by
  unfold parseHead
  split
  · next same => simp [same]
  · next same => simp [same]
  · next same => simp [same]
  · next consumed request same => simp [same, acceptHead_decides]

section Incremental

variable (httparse : Httparse) (incremental : Incremental httparse) (maxHeaders : Nat)

include incremental

theorem parseHead_settled (buf more : List UInt8)
    (decided : parseHead httparse buf maxHeaders ≠ .ok .incomplete) :
    parseHead httparse (buf ++ more) maxHeaders = parseHead httparse buf maxHeaders := by
  have settled := incremental.settled buf more maxHeaders fun incomplete =>
    decided ((parseHead_incomplete httparse buf maxHeaders).mpr incomplete)
  rw [parseHead, settled, parseHead]

theorem parseHead_empty : parseHead httparse [] maxHeaders = .ok .incomplete :=
  (parseHead_incomplete httparse [] maxHeaders).mpr (incremental.empty maxHeaders)

theorem parseHead_consumed (buf : List UInt8) (head : Head) (framing : Framing) (count : Nat)
    (complete : parseHead httparse buf maxHeaders = .ok (.complete head framing count)) :
    count ≤ buf.length ∧
      parseHead httparse (buf.take count) maxHeaders = .ok (.complete head framing count) := by
  unfold parseHead at complete
  split at complete
  · cases complete
  · cases complete
  · cases complete
  · next consumed request found =>
      obtain rfl := acceptHead_consumed consumed count request head framing complete
      obtain ⟨inside, alone⟩ := incremental.consumed buf maxHeaders count request found
      refine ⟨inside, ?_⟩
      rw [parseHead, alone]
      exact complete

end Incremental

end Storyhook.Daemon
