import PocketVm.Transport

/-!
# PKVM frames

`frame.rs`: a 24-byte header and a payload of at most 256 KiB. Readers and writers count the frames
of one direction; a frame out of sequence is an error. A `usize` is a `Nat` with its overflow
checks written out.
-/

namespace PocketVm.Protocol

open Wire Transport

def MAGIC : Bytes := [80, 75, 86, 77]
def HEADER_LEN : Nat := 24
def PROTOCOL_MAJOR : UInt16 := 1
def PROTOCOL_MINOR : UInt16 := 8
def MAX_CONTROL_PAYLOAD : Nat := 256 * 1024

inductive MessageKind where
  | hello | start | ready | exit | error | signal | resize | shutdown
  | buildHello | buildStart | manifestBegin | manifestChunk | manifestEnd | buildDone | buildError
  | accountDb
  | validateHello | validateStart | validateDone | validateError
  deriving DecidableEq

inductive FrameSection where
  | header | payload
  deriving DecidableEq

inductive ProtocolError where
  | io (failure : Failure)
  | unexpectedEof (frameSection : FrameSection) (expected received : Nat)
  | trailingData (remaining : Nat)
  | badMagic (actual : Bytes)
  | unsupportedVersion (actualMajor actualMinor expectedMajor expectedMinor : UInt16)
  | unknownKind (kind : UInt16)
  | unsupportedFlags (flags : UInt16)
  | payloadTooLarge (actual maximum : Nat)
  | sequenceMismatch (expected actual : UInt64)
  | sequenceExhausted
  | cborMalformed (diagnostic : String)
  | cborNonCanonical
  | messageLimitExceeded (field : String) (actual maximum : Nat)
  | invalidMessage (field reason : String)
  | invalidStateTransition (state direction : String) (kind : UInt16)
  | messageKindMismatch (expected actual : UInt16)
  deriving DecidableEq

namespace MessageKind

def toU16 : MessageKind → UInt16
  | hello => 1
  | start => 2
  | ready => 3
  | exit => 4
  | error => 5
  | signal => 6
  | resize => 7
  | shutdown => 8
  | buildHello => 32
  | buildStart => 33
  | manifestBegin => 34
  | manifestChunk => 35
  | manifestEnd => 36
  | buildDone => 37
  | buildError => 38
  | accountDb => 39
  | validateHello => 48
  | validateStart => 49
  | validateDone => 50
  | validateError => 51

def fromU16 (value : UInt16) : Except ProtocolError MessageKind :=
  match value.toNat with
  | 1 => .ok hello
  | 2 => .ok start
  | 3 => .ok ready
  | 4 => .ok exit
  | 5 => .ok error
  | 6 => .ok signal
  | 7 => .ok resize
  | 8 => .ok shutdown
  | 32 => .ok buildHello
  | 33 => .ok buildStart
  | 34 => .ok manifestBegin
  | 35 => .ok manifestChunk
  | 36 => .ok manifestEnd
  | 37 => .ok buildDone
  | 38 => .ok buildError
  | 39 => .ok accountDb
  | 48 => .ok validateHello
  | 49 => .ok validateStart
  | 50 => .ok validateDone
  | 51 => .ok validateError
  | _ => .error (.unknownKind value)

end MessageKind

def ensurePayloadCap (actual maximum : Nat) : Except ProtocolError Unit :=
  if actual > maximum then .error (.payloadTooLarge actual maximum) else .ok ()

def ensureSequence (actual expected : UInt64) : Except ProtocolError Unit :=
  if actual ≠ expected then .error (.sequenceMismatch expected actual) else .ok ()

def nextSequence (sequence : UInt64) : Except ProtocolError UInt64 :=
  if sequence.toNat + 1 < 2 ^ 64 then .ok (sequence + 1) else .error .sequenceExhausted

def frameLength (payloadLen : Nat) : Except ProtocolError Nat :=
  if HEADER_LEN + payloadLen < 2 ^ 64 then .ok (HEADER_LEN + payloadLen)
  else .error (.payloadTooLarge payloadLen MAX_CONTROL_PAYLOAD)

structure FrameHeader where
  kind : MessageKind
  flags : UInt16
  payloadLen : UInt32
  sequence : UInt64
  deriving DecidableEq

namespace FrameHeader

def new (kind : MessageKind) (payloadLen : Nat) (sequence : UInt64) :
    Except ProtocolError FrameHeader := do
  ensurePayloadCap payloadLen MAX_CONTROL_PAYLOAD
  if payloadLen < 2 ^ 32 then return ⟨kind, 0, UInt32.ofNat payloadLen, sequence⟩
  else throw (.payloadTooLarge payloadLen MAX_CONTROL_PAYLOAD)

def toBytes (h : FrameHeader) : Bytes :=
  MAGIC ++ beBytes 2 PROTOCOL_MAJOR.toNat ++ beBytes 2 PROTOCOL_MINOR.toNat ++
    beBytes 2 h.kind.toU16.toNat ++ beBytes 2 h.flags.toNat ++ beBytes 4 h.payloadLen.toNat ++
    beBytes 8 h.sequence.toNat

def field (bytes : Bytes) (start stop : Nat) :
    Nat := readBE ((bytes.drop start).take (stop - start))

def fromBytes (bytes : Bytes) : Except ProtocolError FrameHeader := do
  if bytes.length < HEADER_LEN then throw (.unexpectedEof .header HEADER_LEN bytes.length)
  if bytes.length > HEADER_LEN then throw (.trailingData (bytes.length - HEADER_LEN))
  if bytes.take 4 ≠ MAGIC then throw (.badMagic (bytes.take 4))
  let major := UInt16.ofNat (field bytes 4 6)
  let minor := UInt16.ofNat (field bytes 6 8)
  if major ≠ PROTOCOL_MAJOR ∨ minor ≠ PROTOCOL_MINOR then
    throw (.unsupportedVersion major minor PROTOCOL_MAJOR PROTOCOL_MINOR)
  let kind ← MessageKind.fromU16 (UInt16.ofNat (field bytes 8 10))
  let flags := UInt16.ofNat (field bytes 10 12)
  if flags ≠ 0 then throw (.unsupportedFlags flags)
  let payloadLen := UInt32.ofNat (field bytes 12 16)
  ensurePayloadCap payloadLen.toNat MAX_CONTROL_PAYLOAD
  let sequence := UInt64.ofNat (field bytes 16 24)
  return ⟨kind, flags, payloadLen, sequence⟩

end FrameHeader

structure RawFrame where
  header : FrameHeader
  payload : Bytes
  deriving DecidableEq

def encodeFrame (kind : MessageKind) (sequence : UInt64) (payload : Bytes) :
    Except ProtocolError Bytes := do
  let header ← FrameHeader.new kind payload.length sequence
  let _ ← frameLength payload.length
  return header.toBytes ++ payload

def decodeFrameExact (input : Bytes) (expectedSequence : UInt64) :
    Except ProtocolError RawFrame := do
  if input.length < HEADER_LEN then throw (.unexpectedEof .header HEADER_LEN input.length)
  let header ← FrameHeader.fromBytes (input.take HEADER_LEN)
  ensurePayloadCap header.payloadLen.toNat MAX_CONTROL_PAYLOAD
  ensureSequence header.sequence expectedSequence
  let expectedTotal ← frameLength header.payloadLen.toNat
  if input.length < expectedTotal then
    throw (.unexpectedEof .payload header.payloadLen.toNat (input.length - HEADER_LEN))
  if input.length > expectedTotal then throw (.trailingData (input.length - expectedTotal))
  return ⟨header, input.drop HEADER_LEN⟩

/-- The loop of `read_exact_classified`, with what has been received so far. -/
def readExactLoop (frameSection : FrameSection) (expected : Nat) (received : Bytes)
    (reader : Input) :
    Except ProtocolError Bytes × Input :=
  if _ : received.length < expected then
    match _h : reader.read (expected - received.length) with
    | (.ok [], reader') => (.error (.unexpectedEof frameSection expected received.length), reader')
    | (.ok (b :: chunk), reader') =>
      readExactLoop frameSection expected (received ++ b :: chunk) reader'
    | (.error .interrupted, reader') => readExactLoop frameSection expected received reader'
    | (.error e, reader') => (.error (.io e), reader')
  else (.ok received, reader)
termination_by (expected - received.length) + reader.cuts.length
decreasing_by
  · have hcuts := (Input.cuts_read _h).1
    simp only [List.length_append, List.length_cons]
    omega
  · have hcuts := (Input.cuts_read _h).2 rfl
    omega

def readExactClassified (reader : Input) (expected : Nat) (frameSection : FrameSection) :
    Except ProtocolError Bytes × Input :=
  readExactLoop frameSection expected [] reader

structure FrameReader where
  inner : Input
  expectedSequence : UInt64
  maximumPayload : Nat

namespace FrameReader

def new (inner : Input) : FrameReader := ⟨inner, 0, MAX_CONTROL_PAYLOAD⟩

def withLimits (inner : Input) (expectedSequence : UInt64) (maximumPayload : Nat) :
    Except ProtocolError FrameReader :=
  if maximumPayload > MAX_CONTROL_PAYLOAD then
    .error (.payloadTooLarge maximumPayload MAX_CONTROL_PAYLOAD)
  else .ok ⟨inner, expectedSequence, maximumPayload⟩

/-- What a header allows to be read after it: the header and the next sequence number. -/
def accept (r : FrameReader) (headerBytes : Bytes) :
    Except ProtocolError (FrameHeader × UInt64) := do
  let header ← FrameHeader.fromBytes headerBytes
  ensurePayloadCap header.payloadLen.toNat r.maximumPayload
  ensureSequence header.sequence r.expectedSequence
  let next ← nextSequence r.expectedSequence
  return (header, next)

def readFrame (r : FrameReader) : Except ProtocolError RawFrame × FrameReader :=
  match readExactClassified r.inner HEADER_LEN .header with
  | (.error e, inner) => (.error e, { r with inner })
  | (.ok headerBytes, inner) =>
    match r.accept headerBytes with
    | .error e => (.error e, { r with inner })
    | .ok (header, next) =>
      match readExactClassified inner header.payloadLen.toNat .payload with
      | (.error e, inner) => (.error e, { r with inner })
      | (.ok payload, inner) => (.ok ⟨header, payload⟩, { r with inner, expectedSequence := next })

/-- Up to `n` frames in a row: those that were returned, and the error that ended the reading. -/
def readFrames : Nat → FrameReader → List RawFrame × Option ProtocolError × FrameReader
  | 0, r => ([], none, r)
  | n + 1, r =>
    match r.readFrame with
    | (.error e, r) => ([], some e, r)
    | (.ok frame, r) =>
      let (frames, e, r) := readFrames n r
      (frame :: frames, e, r)

end FrameReader

structure FrameWriter where
  inner : Output
  nextSequence : UInt64
  maximumPayload : Nat

namespace FrameWriter

def withLimits (inner : Output) (nextSequence : UInt64) (maximumPayload : Nat) :
    Except ProtocolError FrameWriter :=
  if maximumPayload > MAX_CONTROL_PAYLOAD then
    .error (.payloadTooLarge maximumPayload MAX_CONTROL_PAYLOAD)
  else .ok ⟨inner, nextSequence, maximumPayload⟩

/-- What is checked before anything is written: the header and the next sequence number. -/
def prepare (w : FrameWriter) (kind : MessageKind) (payload : Bytes) :
    Except ProtocolError (FrameHeader × UInt64) := do
  ensurePayloadCap payload.length w.maximumPayload
  let next ← Protocol.nextSequence w.nextSequence
  let header ← FrameHeader.new kind payload.length w.nextSequence
  return (header, next)

def writeFrame (w : FrameWriter) (kind : MessageKind) (payload : Bytes) :
    Except ProtocolError UInt64 × FrameWriter :=
  match w.prepare kind payload with
  | .error e => (.error e, w)
  | .ok (header, next) =>
    match w.inner.writeAll header.toBytes with
    | (.error e, inner) => (.error (.io e), { w with inner })
    | (.ok (), inner) =>
      match inner.writeAll payload with
      | (.error e, inner) => (.error (.io e), { w with inner })
      | (.ok (), inner) => (.ok w.nextSequence, { w with inner, nextSequence := next })

/-- Messages in a row: the sequence numbers given out, and the error that ended the writing. -/
def writeFrames : List (MessageKind × Bytes) → FrameWriter →
    List UInt64 × Option ProtocolError × FrameWriter
  | [], w => ([], none, w)
  | (kind, payload) :: messages, w =>
    match w.writeFrame kind payload with
    | (.error e, w) => ([], some e, w)
    | (.ok sequence, w) =>
      let (sequences, e, w) := writeFrames messages w
      (sequence :: sequences, e, w)

end FrameWriter

end PocketVm.Protocol
