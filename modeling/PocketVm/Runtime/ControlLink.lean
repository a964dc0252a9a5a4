import PocketVm.Guest.Control
import PocketVm.Guest.EventLoop

/-!
# The control link of a run

The host's `ControlChannel` and the guest's control loop, each with its own workload session, and
the bytes between them. Either side may send whatever its own session accepts, at any time, and
reads come in any pieces. No message a live side receives is refused: not by its decoder, not by its
session, and not by the guest for having no workload yet. What the guest then does with a message is
`onMessage` of the event loop.
-/

namespace PocketVm.Runtime

open Wire Transport Protocol Guest Checked List

/-- What `encode_payload` hands to a frame writer. -/
structure Encoded where
  kind : MessageKind
  payload : Bytes
  within : payload.length ≤ MAX_CONTROL_PAYLOAD

section
variable {Message : Type} (decodeWorkloadMessage : RawFrame → Except ProtocolError Message)

/-- Whatever number its frame gets, the message can be read. -/
def Readable (m : MessageKind × Bytes) : Prop :=
  ∀ sequence, ∃ message, decodeWorkloadMessage (frameOf m.1 m.2 sequence) = .ok message

/-- A message to send: `decode_payload` reads back what `encode_payload` wrote. -/
structure Outgoing extends Encoded where
  readable : Readable decodeWorkloadMessage (kind, payload)

/-! ### The host -/

def READ_CHUNK : Nat := 8 * 1024

structure ControlChannel where
  session : WorkloadSession
  receivePending : Bytes
  deriving DecidableEq

namespace ControlChannel

def new : ControlChannel := ⟨.new, []⟩

/-- How long the pending bytes have to be for the next step of `read_frame`. -/
def expectedTotal (pending : Bytes) (expectedSequence : UInt64) : Except ProtocolError Nat :=
  if pending.length < HEADER_LEN then .ok HEADER_LEN
  else do
    let header ← FrameHeader.fromBytes (pending.take HEADER_LEN)
    ensureSequence header.sequence expectedSequence
    frameLength header.payloadLen.toNat

/-- A read that yields at most `count` bytes, or, once the frame is complete, what `receive` does
with it. -/
def advance (c : ControlChannel) (stream : Bytes) (count total : Nat) :
    Except ProtocolError (ControlChannel × Bytes) :=
  if c.receivePending.length = total then do
    let frame ← decodeFrameExact c.receivePending (c.session.nextSequence .guestToHost)
    let _ ← decodeWorkloadMessage frame
    let session ← c.session.accept .guestToHost frame.header.kind frame.header.sequence
    return (⟨session, []⟩, stream)
  else if c.receivePending.length > total then
    .error (.trailingData (c.receivePending.length - total))
  else
    let requested := min (total - c.receivePending.length) READ_CHUNK
    .ok ({ c with receivePending := c.receivePending ++ stream.take (min requested count) },
      stream.drop (min requested count))

def receive (c : ControlChannel) (stream : Bytes) (count : Nat) :
    Except ProtocolError (ControlChannel × Bytes) := do
  let total ← expectedTotal c.receivePending (c.session.nextSequence .guestToHost)
  c.advance decodeWorkloadMessage stream count total

def send (c : ControlChannel) (message : Encoded) (stream : Bytes) :
    Except ProtocolError (ControlChannel × Bytes) := do
  let sequence := c.session.nextSequence .hostToGuest
  let candidate ← c.session.accept .hostToGuest message.kind sequence
  let frames ← FrameWriter.withLimits ⟨stream, []⟩ sequence MAX_CONTROL_PAYLOAD
  let (result, frames) := frames.writeFrame message.kind message.payload
  let _ ← result
  return ({ c with session := candidate }, frames.inner.bytes)

end ControlChannel

/-! ### The guest -/

/-- `writer` is the number the frame writer gives the next frame. There is a decoder from START on,
and `workload` says whether `workload_pid` is set. -/
structure GuestControl where
  session : WorkloadSession
  writer : UInt64
  decoder : Option ControlFrameDecoder
  workload : Bool
  deriving DecidableEq

namespace GuestControl

def new : GuestControl := ⟨.new, 0, none, false⟩

def pending (g : GuestControl) : Bytes :=
  match g.decoder with
  | none => []
  | some decoder => decoder.pending

/-- The event that makes the loop send READY has set `workload_pid`. -/
def sendGuestMessage (g : GuestControl) (message : Encoded) (stream : Bytes) :
    Except ProtocolError (GuestControl × Bytes) := do
  let session ← g.session.accept .guestToHost message.kind g.writer
  let (result, frames) :=
    (FrameWriter.mk ⟨stream, []⟩ g.writer MAX_CONTROL_PAYLOAD).writeFrame message.kind message.payload
  let _ ← result
  return ({ g with session, writer := frames.nextSequence, workload := g.workload || message.kind = .ready },
    frames.inner.bytes)

/-- The read of START in `run_after_hello`. A stream without a whole frame blocks the reader. -/
def receiveStart (g : GuestControl) (stream : Bytes) : Except LoopError (GuestControl × Bytes) :=
  match g.decoder, (FrameReader.new ⟨stream, []⟩).readFrame with
  | some _, _ => .ok (g, stream)
  | none, (.error (.unexpectedEof _ _ _), _) => .ok (g, stream)
  | none, (.error e, _) => .error (.protocol e)
  | none, (.ok frame, reader) => do
    let session ←
      (g.session.accept .hostToGuest frame.header.kind frame.header.sequence).mapError .protocol
    let _ ← (decodeWorkloadMessage frame).mapError .protocol
    stop (frame.header.kind ≠ .start) (loopError "receive-start"
      ("expected START, received kind " ++ toString frame.header.kind.toU16.toNat))
    return ({ g with session, decoder := some (.new 1) }, reader.inner.bytes)

/-- Reads of at most the given sizes, until the stream would block. -/
def readControlAvailable (decoder : ControlFrameDecoder) (stream : Bytes) :
    List Nat → Except ProtocolError (List RawFrame × ControlFrameDecoder × Bytes)
  | [] => .ok ([], decoder, stream)
  | count :: counts => do
    let (frames, decoder) ← decoder.feed (stream.take (min count IO_CHUNK))
    let (more, rest) ← readControlAvailable decoder (stream.drop (min count IO_CHUNK)) counts
    return (frames ++ more, rest)

/-- What the loop asks of a frame before it does what the message says. -/
def acceptFrame (workload : Bool) (session : WorkloadSession) (frame : RawFrame) :
    Except LoopError WorkloadSession := do
  let _ ← (decodeWorkloadMessage frame).mapError .protocol
  let session ←
    (session.accept .hostToGuest frame.header.kind frame.header.sequence).mapError .protocol
  stop (workload = false) (loopError "control-loop" "runtime control message arrived before READY")
  return session

def acceptFrames (workload : Bool) (session : WorkloadSession) (frames : List RawFrame) :
    Except LoopError WorkloadSession :=
  frames.foldlM (acceptFrame decodeWorkloadMessage workload) session

/-- The control arm of `namespace_event_loop`. -/
def receiveControl (g : GuestControl) (stream : Bytes) (counts : List Nat) :
    Except LoopError (GuestControl × Bytes) :=
  match g.decoder with
  | none => .ok (g, stream)
  | some decoder => do
    let (frames, decoder, stream) ← (readControlAvailable decoder stream counts).mapError .protocol
    let session ← acceptFrames decodeWorkloadMessage g.workload g.session frames
    return ({ g with session, decoder := some decoder }, stream)

end GuestControl

/-! ### The link -/

/-- `toGuest` and `toHost` are written and not yet read. -/
structure Link where
  host : ControlChannel
  guest : GuestControl
  toGuest : Bytes
  toHost : Bytes
  deriving DecidableEq

inductive Action where
  | hostSends (message : Outgoing decodeWorkloadMessage)
  | hostReceives (count : Nat)
  | guestSends (message : Outgoing decodeWorkloadMessage)
  | guestReceivesStart
  | guestReceives (counts : List Nat)

/-- The side that failed. -/
inductive LinkError where
  | host (e : ProtocolError)
  | guest (e : LoopError)
  deriving DecidableEq

namespace Link

def new : Link := ⟨.new, .new, [], []⟩

variable {decodeWorkloadMessage}

def step (l : Link) : Action decodeWorkloadMessage → Except LinkError Link
  | .hostSends message => do
    let (host, toGuest) ← (l.host.send message.toEncoded l.toGuest).mapError .host
    return { l with host, toGuest }
  | .hostReceives count => do
    let (host, toHost) ← (l.host.receive decodeWorkloadMessage l.toHost count).mapError .host
    return { l with host, toHost }
  | .guestSends message => do
    let (guest, toHost) ←
      (l.guest.sendGuestMessage message.toEncoded l.toHost).mapError fun e => .guest (.protocol e)
    return { l with guest, toHost }
  | .guestReceivesStart => do
    let (guest, toGuest) ← (l.guest.receiveStart decodeWorkloadMessage l.toGuest).mapError .guest
    return { l with guest, toGuest }
  | .guestReceives counts => do
    let (guest, toGuest) ←
      (l.guest.receiveControl decodeWorkloadMessage l.toGuest counts).mapError .guest
    return { l with guest, toGuest }

/-- Any interleaving of sends and receipts. -/
def run (actions : List (Action decodeWorkloadMessage)) : Except LinkError Link :=
  actions.foldlM step new

end Link

end

/-! ### What each operation does -/

section
variable {stream stream' : Bytes} {message : Encoded}

theorem writeFrame_whole (stream : Bytes) (kind : MessageKind) {payload : Bytes} (sequence : UInt64)
    (hle : payload.length ≤ MAX_CONTROL_PAYLOAD) (hspace : sequenceSpace sequence ≠ 0) :
    ∃ cuts, (FrameWriter.mk ⟨stream, []⟩ sequence MAX_CONTROL_PAYLOAD).writeFrame kind payload =
      (.ok sequence,
      ⟨⟨stream ++ (frameOf kind payload sequence).toBytes, cuts⟩, sequence + 1,
        MAX_CONTROL_PAYLOAD⟩) := by
  obtain ⟨cuts, -, h⟩ := writeFrame_fair kind (w := ⟨⟨stream, []⟩, sequence, MAX_CONTROL_PAYLOAD⟩)
    (Nat.le_refl _) hle hspace (by simp [Fair])
  exact ⟨cuts, h⟩

theorem ControlChannel.send_ok {c c' : ControlChannel}
    (h : c.send message stream = .ok (c', stream')) :
    sequenceSpace c.session.nextHostSequence ≠ 0 ∧ ∃ state,
      c.session.state.next .hostToGuest message.kind = some state ∧
      c' = ⟨⟨state, c.session.nextHostSequence + 1, c.session.nextGuestSequence⟩,
        c.receivePending⟩ ∧
      stream' = stream ++ (frameOf message.kind message.payload c.session.nextHostSequence).toBytes := by
  unfold send at h
  simp only [bind_ok, pure_ok] at h
  obtain ⟨candidate, haccept, frames, hframes, _, -, h⟩ := h
  obtain ⟨-, hspace, state, hnext, rfl⟩ := WorkloadSession.accept_ok.mp haccept
  cases hframes
  obtain ⟨cuts, hwrite⟩ := writeFrame_whole stream message.kind
    (c.session.nextSequence .hostToGuest) message.within hspace
  rw [hwrite] at h
  cases h
  exact ⟨hspace, state, hnext, rfl, rfl⟩

theorem GuestControl.sendGuestMessage_ok {g g' : GuestControl}
    (h : g.sendGuestMessage message stream = .ok (g', stream')) :
    g.writer = g.session.nextGuestSequence ∧ sequenceSpace g.writer ≠ 0 ∧
    ∃ state, g.session.state.next .guestToHost message.kind = some state ∧
      g' = ⟨⟨state, g.session.nextHostSequence, g.writer + 1⟩, g.writer + 1, g.decoder,
        g.workload || message.kind = .ready⟩ ∧
      stream' = stream ++ (frameOf message.kind message.payload g.writer).toBytes := by
  unfold sendGuestMessage at h
  simp only [bind_ok, pure_ok] at h
  obtain ⟨session, haccept, _, -, h⟩ := h
  obtain ⟨hsequence, hspace, state, hnext, rfl⟩ := WorkloadSession.accept_ok.mp haccept
  obtain ⟨cuts, hwrite⟩ := writeFrame_whole stream message.kind g.writer message.within hspace
  rw [hwrite] at h
  cases h
  exact ⟨hsequence, hspace, state, hnext, rfl, rfl⟩

variable {Message : Type} {decode : RawFrame → Except ProtocolError Message}
  {sent : UInt64} {flight : List (MessageKind × Bytes)}

/-- `read_frame` never reads past the frame in front. -/
def Held (pending : Bytes) : List (MessageKind × Bytes) → Prop
  | [] => True
  | (_, payload) :: _ => pending.length ≤ HEADER_LEN + payload.length

namespace ControlChannel

variable {c : ControlChannel}

theorem expectedTotal_front {f : RawFrame} (hf : Sendable f) {pending unread tail : Bytes}
    (h : pending ++ unread = f.toBytes ++ tail) : expectedTotal pending f.header.sequence =
      .ok (if pending.length < HEADER_LEN then HEADER_LEN else f.toBytes.length) := by
  unfold expectedTotal
  by_cases hshort : pending.length < HEADER_LEN
  · rw [if_pos hshort, if_pos hshort]
  · rw [if_neg hshort, if_neg hshort, hf.header h (Nat.not_lt.mp hshort)]
    simp only [bind, Except.bind, ensureSequence_self]
    exact hf.frameLength

/-- A pass either reads some more of the frame in front, or has it whole and asks the session. -/
theorem receive_carries (count : Nat) (hread : ∀ m ∈ flight, Readable decode m)
    (hheld : Held c.receivePending flight)
    (h : Carries c.receivePending stream c.session.nextGuestSequence sent flight) :
    (∃ n, c.receive decode stream count =
        .ok ({ c with receivePending := c.receivePending ++ stream.take n }, stream.drop n) ∧
      Held (c.receivePending ++ stream.take n) flight) ∨
    ∃ kind payload later, flight = (kind, payload) :: later ∧
      c.receivePending = (frameOf kind payload c.session.nextGuestSequence).toBytes ∧
      c.receive decode stream count = (do
        let session ← c.session.accept .guestToHost kind c.session.nextGuestSequence
        return (⟨session, []⟩, stream)) := by
  cases flight with
  | nil =>
    obtain ⟨hpending, rfl⟩ := h.idle
    refine .inl ⟨0, ?_, trivial⟩
    have htotal : expectedTotal c.receivePending (c.session.nextSequence .guestToHost) =
      .ok HEADER_LEN := by
      rw [hpending]
      rfl
    unfold receive
    rw [htotal]
    show c.advance decode [] count HEADER_LEN = _
    unfold advance
    rw [hpending, if_neg (by decide), if_neg (by decide)]
    simp only [take_nil, drop_nil]
  | cons m later =>
    obtain ⟨kind, payload⟩ := m
    change c.receivePending.length ≤ HEADER_LEN + payload.length at hheld
    have htotal : expectedTotal c.receivePending (c.session.nextSequence .guestToHost) = _ :=
      expectedTotal_front h.sendable h.bytes
    rw [length_toBytes_frameOf] at htotal
    generalize hwant : (if c.receivePending.length < HEADER_LEN then HEADER_LEN
      else HEADER_LEN + payload.length) = want at htotal
    have hwant_le : c.receivePending.length ≤ want ∧ want ≤ HEADER_LEN + payload.length := by
      split at hwant <;> omega
    have hreceive : c.receive decode stream count =
        c.advance decode stream count want := by
      unfold receive
      rw [htotal]
      rfl
    rw [hreceive]
    unfold advance
    by_cases hwhole : c.receivePending.length = want
    · have hlen : c.receivePending.length = HEADER_LEN + payload.length := by
        split at hwant <;> omega
      have hrest : c.receivePending = (frameOf kind payload c.session.nextGuestSequence).toBytes :=
        (append_inj h.bytes (by rw [hlen, length_toBytes_frameOf])).1
      refine .inr ⟨kind, payload, later, rfl, hrest, ?_⟩
      have hdecode : decodeFrameExact c.receivePending (c.session.nextSequence .guestToHost) =
          .ok (frameOf kind payload c.session.nextGuestSequence) := by
        rw [hrest]
        exact h.sendable.decode
      obtain ⟨message, hmessage⟩ := hread _ (mem_cons_self ..) c.session.nextGuestSequence
      rw [if_pos hwhole, hdecode]
      simp only [bind, Except.bind, hmessage]
      rfl
    · refine .inl ⟨min (min (want - c.receivePending.length) READ_CHUNK) count, ?_, ?_⟩
      · rw [if_neg hwhole, if_neg (by omega)]
      · show (c.receivePending ++ _).length ≤ _
        rw [length_append, length_take]
        omega

end ControlChannel

namespace GuestControl

variable {g : GuestControl}

/-- Before START the stream holds whole frames only. -/
theorem receiveStart_carries (hread : ∀ m ∈ flight, Readable decode m)
    (hdecoder : g.decoder = none) (hfirst : g.session.nextHostSequence = 0)
    (h : Carries [] stream g.session.nextHostSequence sent flight) :
    flight = [] ∧ g.receiveStart decode stream = .ok (g, stream) ∨
    ∃ kind payload later, flight = (kind, payload) :: later ∧
      ∀ result, g.receiveStart decode stream = .ok result ↔ kind = .start ∧
        ∃ session, g.session.accept .hostToGuest kind 0 = .ok session ∧
          ({ g with session, decoder := some (.new 1) }, wire 1 later) = result := by
  have hbytes : stream = wire 0 flight := by
    rw [← hfirst]
    exact h.bytes
  unfold receiveStart
  rw [hdecoder]
  cases flight with
  | nil =>
    obtain ⟨frameSection, expected, received, reader, hcut⟩ := readFrame_cut .hello
      (r := FrameReader.new ⟨stream, []⟩) (Nat.le_refl _)
      (Nat.zero_le _) (show sequenceSpace 0 ≠ 0 by decide)
        (by simp [Fair, FrameReader.new]) (n := 0)
      (by rw [length_toBytes_frameOf]; decide)
        (show stream = (frameOf .hello [] 0).toBytes.take 0 from hbytes)
    rw [hcut]
    exact .inl ⟨rfl, rfl⟩
  | cons m later =>
    obtain ⟨kind, payload⟩ := m
    obtain ⟨cuts, -, hframe⟩ := readFrame_fair kind (r := FrameReader.new ⟨stream, []⟩)
      (Nat.le_refl _)
      (h.within _ (mem_cons_self ..)) (show sequenceSpace 0 ≠ 0 by decide)
        (by simp [Fair, FrameReader.new]) hbytes
    obtain ⟨message, hmessage⟩ := hread _ (mem_cons_self ..) 0
    rw [hframe]
    refine .inr ⟨kind, payload, later, rfl, fun result => ?_⟩
    simp only [bind_ok, mapError_ok, stop_ok, pure_ok, not_not]
    constructor
    · rintro ⟨session, haccept, _, -, _, hkind, hresult⟩
      exact ⟨hkind, session, haccept, hresult⟩
    · rintro ⟨hkind, session, haccept, hresult⟩
      exact ⟨session, haccept, message, hmessage, (), hkind, hresult⟩

theorem framesOf_append (first : UInt64) (taken later : List (MessageKind × Bytes)) :
    framesOf first (taken ++ later) = framesOf first taken ++
      framesOf (first + UInt64.ofNat taken.length) later := by
  induction taken generalizing first with
  | nil => rw [length_nil, show UInt64.ofNat 0 = 0 from rfl, UInt64.add_zero]; rfl
  | cons m taken ih =>
    rw [cons_append, framesOf, ih, add_ofNat_succ]
    rfl

theorem readControlAvailable_carries (counts : List Nat) {decoder : ControlFrameDecoder}
    (hunread : decoder.Partial)
    (h : Carries decoder.pending stream decoder.expectedSequence sent flight) :
    ∃ taken later decoder' stream', flight = taken ++ later ∧
      readControlAvailable decoder stream counts = .ok (framesOf decoder.expectedSequence taken,
        decoder', stream') ∧
      decoder'.expectedSequence = decoder.expectedSequence + UInt64.ofNat taken.length ∧
        decoder'.Partial ∧
      Carries decoder'.pending stream' decoder'.expectedSequence sent later := by
  induction counts generalizing decoder stream flight with
  | nil => exact ⟨[], flight, decoder, stream, rfl, rfl, (UInt64.add_zero _).symm, hunread, h⟩
  | cons count counts ih =>
    obtain ⟨taken, later, decoder₁, rfl, hfeed, hexpected, hunread, hlater⟩ :=
      ControlFrameDecoder.feed_carries hunread (Nat.min_le_right count MAX_READ_CHUNK) h
    obtain ⟨more, last, decoder₂, stream₂, rfl, hrest, hexpected₂, hunread₂, hlast⟩ :=
      ih hunread hlater
    refine ⟨taken ++ more, last, decoder₂, stream₂, (append_assoc ..).symm, ?_, ?_, hunread₂, hlast⟩
    · rw [framesOf_append, ← hexpected]
      change (decoder.feed (stream.take (min count MAX_READ_CHUNK)) >>= _) = _
      rw [hfeed]
      simp only [bind, Except.bind]
      rw [show IO_CHUNK = MAX_READ_CHUNK from rfl, hrest]
      rfl
    · rw [hexpected₂, hexpected, length_append, UInt64.ofNat_add, UInt64.add_assoc]

/-- How far the guest is shows in its session: until it is started it has no decoder, and while the
workload runs it has its process. -/
def Reached : WorkloadState → (started workload : Bool) → Prop
  | .awaitHello, started, _ | .awaitStart, started, _ => started = false
  | .awaitReady, started, _ => started = true
  | .running, started, workload => started = true ∧ workload = true
  | .shuttingDown, _, _ | .exited, _, _ | .failed, _, _ => True

section
variable {state state' : WorkloadState} {started workload : Bool} {kind : MessageKind}

theorem Reached.sends (h : Reached state started workload)
    (hnext : state.next .guestToHost kind = some state') :
    Reached state' started (workload || kind = .ready) := by
  cases state <;> cases kind <;> cases hnext <;> simp_all [Reached]

theorem Reached.start (h : Reached state false workload)
    (hnext : state.next .hostToGuest kind = some state') :
    kind = .start ∧ Reached state' true workload := by
  cases state <;> cases kind <;> cases hnext <;> simp_all [Reached]

theorem Reached.hears (h : Reached state true workload)
    (hnext : state.next .hostToGuest kind = some state') :
    workload = true ∧ Reached state' true workload := by
  cases state <;> cases kind <;> cases hnext <;> simp_all [Reached]

end

theorem acceptFrame_ok {workload : Bool} {session session' : WorkloadSession} {frame : RawFrame} :
    acceptFrame decode workload session frame = .ok session' ↔
      (∃ message, decode frame = .ok message) ∧
      session.accept .hostToGuest frame.header.kind frame.header.sequence = .ok session' ∧
      workload = true := by
  unfold acceptFrame
  simp only [bind_ok, mapError_ok, stop_ok, pure_ok, Bool.not_eq_false]
  constructor
  · rintro ⟨message, hmessage, session', haccept, _, hworkload, rfl⟩
    exact ⟨⟨message, hmessage⟩, haccept, hworkload⟩
  · rintro ⟨⟨message, hmessage⟩, haccept, hworkload⟩
    exact ⟨message, hmessage, session', haccept, (), hworkload, rfl⟩

/-- A live guest takes all the frames that are in flight to it, in whatever batches. -/
theorem acceptFrames_joint {session : WorkloadSession} {h : WorkloadState}
    {toHost : List MessageKind} {taken later : List (MessageKind × Bytes)} {workload : Bool}
    (hread : ∀ m ∈ taken, Readable decode m)
    (hreached : Reached session.state true workload) (hlive : session.state.isTerminal = false)
    (hspace : taken.length ≤ sequenceSpace session.nextHostSequence)
    (hjoint : WorkloadState.Joint h session.state toHost ((taken ++ later).map Prod.fst)) :
    ∃ session', acceptFrames decode workload session
        (framesOf session.nextHostSequence taken) = .ok session' ∧
      Reached session'.state true workload ∧
      WorkloadState.Joint h session'.state toHost (later.map Prod.fst) ∧
      session'.nextHostSequence = session.nextHostSequence + UInt64.ofNat taken.length ∧
      session'.nextGuestSequence = session.nextGuestSequence := by
  induction taken generalizing session with
  | nil => exact ⟨session, rfl, hreached, hjoint, (UInt64.add_zero _).symm, rfl⟩
  | cons m taken ih =>
    obtain ⟨kind, payload⟩ := m
    rw [length_cons] at hspace
    obtain ⟨state, hnext, hjoint⟩ := hjoint.guest_accepts hlive
    obtain ⟨hworkload, hreached⟩ := hreached.hears hnext
    have haccept : acceptFrame decode workload session
        (frameOf kind payload session.nextHostSequence) =
        .ok ⟨state, session.nextHostSequence + 1, session.nextGuestSequence⟩ :=
      acceptFrame_ok.mpr ⟨hread _ (mem_cons_self ..) _,
        WorkloadSession.accept_ok.mpr ⟨rfl, by dsimp only [frameOf]; omega, state, hnext, rfl⟩,
          hworkload⟩
    have hspace' : _ = sequenceSpace (session.nextHostSequence + 1) + 1 :=
      (nextSequence_eq (by omega)).2
    obtain ⟨session', hrest, hreached, hjoint, hsequence, hguest⟩ :=
      @ih ⟨state, session.nextHostSequence + 1, session.nextGuestSequence⟩
        (fun m hm => hread m (mem_cons_of_mem _ hm)) hreached
        (WorkloadState.next_live hnext) (by dsimp only; omega) hjoint
    refine ⟨session', bind_ok.mpr ⟨_, haccept, hrest⟩, hreached, hjoint, ?_, hguest⟩
    rw [hsequence, add_ofNat_succ]
    rfl

theorem acceptFrames_terminal {session session' : WorkloadSession} {frames : List RawFrame}
    {workload : Bool} (hterminal : session.state.isTerminal = true)
    (h : acceptFrames decode workload session frames = .ok session') :
    frames = [] ∧ session' = session := by
  cases frames with
  | nil => exact ⟨rfl, (Except.ok.inj h).symm⟩
  | cons frame frames =>
    obtain ⟨_, hframe, -⟩ := bind_ok.mp h
    obtain ⟨-, -, _, hnext, -⟩ := WorkloadSession.accept_ok.mp (acceptFrame_ok.mp hframe).2.1
    cases hnext.symm.trans (WorkloadState.next_terminal hterminal)

end GuestControl

end

/-! ### Every run -/

namespace Link

variable {Message : Type} {decode : RawFrame → Except ProtocolError Message}
  {l l' : Link} {toHost toGuest : List (MessageKind × Bytes)}

/-- The decoder counts as the guest's session does. -/
def Synced (g : GuestControl) : Prop :=
  match g.decoder with
  | none => g.session.nextHostSequence = 0
  | some decoder => decoder.expectedSequence = g.session.nextHostSequence ∧ decoder.Partial

/-- The two sides, with the messages in flight to each. -/
structure Inv (decode : RawFrame → Except ProtocolError Message) (l : Link)
    (toHost toGuest : List (MessageKind × Bytes)) : Prop where
  read : ∀ m ∈ toHost ++ toGuest, Readable decode m
  up : Carries l.host.receivePending l.toHost l.host.session.nextGuestSequence
    l.guest.session.nextGuestSequence toHost
  held : Held l.host.receivePending toHost
  writer : l.guest.writer = l.guest.session.nextGuestSequence
  down : Carries l.guest.pending l.toGuest l.guest.session.nextHostSequence
    l.host.session.nextHostSequence toGuest
  synced : Synced l.guest
  reached : GuestControl.Reached l.guest.session.state l.guest.decoder.isSome l.guest.workload
  joint : WorkloadState.Joint l.host.session.state l.guest.session.state
    (toHost.map Prod.fst) (toGuest.map Prod.fst)

theorem inv_new : Inv decode new [] [] :=
  ⟨by simp, .new 0, trivial, rfl, .new 0, rfl, rfl, .quiet⟩

theorem Inv.read_host (hinv : l.Inv decode toHost toGuest) :
    ∀ m ∈ toHost, Readable decode m :=
  fun m hm => hinv.read m (mem_append_left _ hm)

theorem Inv.read_guest (hinv : l.Inv decode toHost toGuest) :
    ∀ m ∈ toGuest, Readable decode m :=
  fun m hm => hinv.read m (mem_append_right _ hm)

theorem Inv.unstarted (hinv : l.Inv decode toHost toGuest) (hdecoder : l.guest.decoder = none) :
    l.guest.session.nextHostSequence = 0 ∧
    Carries [] l.toGuest l.guest.session.nextHostSequence l.host.session.nextHostSequence toGuest ∧
    GuestControl.Reached l.guest.session.state false l.guest.workload := by
  have hsynced := hinv.synced
  have hdown := hinv.down
  have hreached := hinv.reached
  unfold Synced at hsynced
  unfold GuestControl.pending at hdown
  rw [hdecoder] at hsynced hdown hreached
  exact ⟨hsynced, hdown, hreached⟩

theorem Inv.started (hinv : l.Inv decode toHost toGuest) {decoder : ControlFrameDecoder}
    (hdecoder : l.guest.decoder = some decoder) :
    (decoder.expectedSequence = l.guest.session.nextHostSequence ∧ decoder.Partial) ∧
    Carries decoder.pending l.toGuest l.guest.session.nextHostSequence
      l.host.session.nextHostSequence toGuest ∧
    GuestControl.Reached l.guest.session.state true l.guest.workload := by
  have hsynced := hinv.synced
  have hdown := hinv.down
  have hreached := hinv.reached
  unfold Synced at hsynced
  unfold GuestControl.pending at hdown
  rw [hdecoder] at hsynced hdown hreached
  exact ⟨hsynced, hdown, hreached⟩

theorem Held.concat {pending : Bytes} {flight : List (MessageKind × Bytes)}
    {m : MessageKind × Bytes}
    {stream : Bytes} {received sent : UInt64} (hheld : Held pending flight)
    (h : Carries pending stream received sent flight) : Held pending (flight ++ [m]) := by
  cases flight with
  | nil =>
    rw [h.idle.1]
    exact Nat.zero_le _
  | cons first later => exact hheld

variable {message : Outgoing decode} {action : Action decode}

theorem inv_hostSends (hinv : l.Inv decode toHost toGuest)
    (h : l.step (.hostSends message) = .ok l') :
    l'.Inv decode toHost (toGuest ++ [(message.kind, message.payload)]) := by
  obtain ⟨⟨host, stream⟩, hsend, hl'⟩ := bind_ok.mp h
  obtain ⟨hspace, state, hnext, rfl, rfl⟩ := ControlChannel.send_ok (mapError_ok.mp hsend)
  cases hl'
  refine ⟨?_, hinv.up, hinv.held, hinv.writer, hinv.down.send hspace message.within, hinv.synced,
    hinv.reached, ?_⟩
  · rw [← append_assoc, forall_mem_append, forall_mem_singleton]
    exact ⟨hinv.read, message.readable⟩
  · rw [map_append]
    exact hinv.joint.host_sends hnext

theorem inv_guestSends (hinv : l.Inv decode toHost toGuest)
    (h : l.step (.guestSends message) = .ok l') :
    l'.Inv decode (toHost ++ [(message.kind, message.payload)]) toGuest := by
  obtain ⟨⟨guest, stream⟩, hsend, hl'⟩ := bind_ok.mp h
  obtain ⟨hwriter, hspace, state, hnext, rfl, rfl⟩ :=
    GuestControl.sendGuestMessage_ok (mapError_ok.mp hsend)
  cases hl'
  rw [hwriter] at hspace
  refine ⟨?_, ?_, Held.concat hinv.held hinv.up, rfl, hinv.down, hinv.synced,
    hinv.reached.sends hnext, ?_⟩
  · rw [forall_mem_append, forall_mem_append, forall_mem_singleton]
    exact ⟨⟨hinv.read_host, message.readable⟩, hinv.read_guest⟩
  · have hup : Carries _ _ _ _ (toHost ++ [(message.kind, message.payload)]) :=
      hinv.up.send hspace message.within
    rwa [← hwriter] at hup
  · rw [map_append]
    exact hinv.joint.guest_sends hnext

theorem inv_hostReceives (hinv : l.Inv decode toHost toGuest) (count : Nat) :
    ∃ l' toHost', l.step (.hostReceives count : Action decode) = .ok l' ∧
      l'.Inv decode toHost' toGuest := by
  rcases ControlChannel.receive_carries count hinv.read_host hinv.held hinv.up with
    ⟨n, hreceive, hheld⟩ | ⟨kind, payload, later, rfl, hpending, hreceive⟩
  · refine ⟨_, toHost, bind_ok.mpr ⟨_, mapError_ok.mpr hreceive, rfl⟩, ?_⟩
    exact ⟨hinv.read, hinv.up.read n, hheld, hinv.writer, hinv.down, hinv.synced,
      hinv.reached, hinv.joint⟩
  · have hup := hinv.up
    obtain ⟨state, hnext, hjoint⟩ := hinv.joint.host_accepts
    have haccept : l.host.session.accept .guestToHost kind l.host.session.nextGuestSequence =
        .ok ⟨state, l.host.session.nextHostSequence, l.host.session.nextGuestSequence + 1⟩ :=
      WorkloadSession.accept_ok.mpr ⟨rfl, hup.space, state, hnext, rfl⟩
    rw [haccept] at hreceive
    refine ⟨_, later, bind_ok.mpr ⟨_, mapError_ok.mpr hreceive, rfl⟩, ?_⟩
    rw [hpending, ← append_nil (frameOf kind payload l.host.session.nextGuestSequence).toBytes] at hup
    refine ⟨fun m hm => hinv.read m (mem_cons_of_mem _ hm), hup.receive, ?_, hinv.writer, hinv.down,
      hinv.synced, hinv.reached, hjoint⟩
    cases later with
    | nil => trivial
    | cons m later => exact Nat.zero_le _

theorem inv_guestReceivesStart (hinv : l.Inv decode toHost toGuest)
    (hlive : l.guest.session.state.isTerminal = false) :
    ∃ l' toGuest', l.step (.guestReceivesStart : Action decode) = .ok l' ∧
      l'.Inv decode toHost toGuest' := by
  cases hdecoder : l.guest.decoder with
  | some decoder =>
    refine ⟨l, toGuest, bind_ok.mpr ⟨(l.guest, l.toGuest), mapError_ok.mpr ?_, rfl⟩, hinv⟩
    unfold GuestControl.receiveStart
    rw [hdecoder]
  | none =>
    obtain ⟨hfirst, hdown, hreached⟩ := hinv.unstarted hdecoder
    rcases GuestControl.receiveStart_carries hinv.read_guest hdecoder hfirst hdown with
      ⟨rfl, hreceive⟩ | ⟨kind, payload, later, rfl, hreceive⟩
    · exact ⟨l, [], bind_ok.mpr ⟨_, mapError_ok.mpr hreceive, rfl⟩, hinv⟩
    · obtain ⟨state, hnext, hjoint⟩ := hinv.joint.guest_accepts hlive
      obtain ⟨hkind, hreached⟩ := hreached.start hnext
      have haccept : l.guest.session.accept .hostToGuest kind 0 =
          .ok ⟨state, 1, l.guest.session.nextGuestSequence⟩ :=
        WorkloadSession.accept_ok.mpr ⟨hfirst.symm, by decide, state, hnext, rfl⟩
      refine ⟨_, later,
        bind_ok.mpr ⟨_, mapError_ok.mpr ((hreceive _).mpr ⟨hkind, _, haccept, rfl⟩), rfl⟩,
        ?_, hinv.up, hinv.held, hinv.writer, ?_, ⟨rfl, ?_⟩, hreached, hjoint⟩
      · rw [forall_mem_append]
        exact ⟨hinv.read_host, fun m hm => hinv.read_guest m (mem_cons_of_mem _ hm)⟩
      · refine ⟨rfl, fun m hm => hdown.within m (mem_cons_of_mem _ hm), ?_⟩
        have hcount := hdown.count
        rw [hfirst, length_cons] at hcount
        rw [← hcount, show (1 : UInt64).toNat = 1 from rfl, show (0 : UInt64).toNat = 0 from rfl]
        omega
      · show ([] : Bytes).length < HEADER_LEN + MAX_CONTROL_PAYLOAD
        decide

/-- What a read of the control stream comes to: a batch of frames for the session. -/
theorem receiveControl_carries (hinv : l.Inv decode toHost toGuest) (counts : List Nat) :
    l.guest.receiveControl decode l.toGuest counts = .ok (l.guest, l.toGuest) ∨
    ∃ decoder taken later decoder' stream', l.guest.decoder = some decoder ∧
      toGuest = taken ++ later ∧ l.guest.receiveControl decode l.toGuest counts = (do
        let session ← GuestControl.acceptFrames decode l.guest.workload l.guest.session
          (framesOf l.guest.session.nextHostSequence taken)
        return ({ l.guest with session, decoder := some decoder' }, stream')) ∧
      decoder'.expectedSequence = l.guest.session.nextHostSequence + UInt64.ofNat taken.length ∧
        decoder'.Partial ∧
      Carries decoder'.pending stream' decoder'.expectedSequence l.host.session.nextHostSequence later := by
  unfold GuestControl.receiveControl
  cases hdecoder : l.guest.decoder with
  | none => exact .inl rfl
  | some decoder =>
    obtain ⟨⟨hexpected, hunread⟩, hdown, -⟩ := hinv.started hdecoder
    rw [← hexpected] at hdown ⊢
    obtain ⟨taken, later, decoder', stream', hflight, hread, hrest⟩ :=
      GuestControl.readControlAvailable_carries counts hunread hdown
    refine .inr ⟨decoder, taken, later, decoder', stream', rfl, hflight, ?_, hrest⟩
    dsimp only
    rw [hread]
    rfl

/-- A live guest refuses nothing it receives, however the reads batch it. -/
theorem inv_guestReceives (hinv : l.Inv decode toHost toGuest)
    (hlive : l.guest.session.state.isTerminal = false) (counts : List Nat) :
    ∃ l' toGuest', l.step (.guestReceives counts : Action decode) = .ok l' ∧
      l'.Inv decode toHost toGuest' := by
  rcases receiveControl_carries hinv counts with hreceive |
    ⟨decoder, taken, later, decoder', stream', hdecoder, rfl, hreceive, hexpected, hunread, hlater⟩
  · exact ⟨l, toGuest, bind_ok.mpr ⟨_, mapError_ok.mpr hreceive, rfl⟩, hinv⟩
  · obtain ⟨-, -, hreached⟩ := hinv.started hdecoder
    have hspace : taken.length ≤ sequenceSpace l.guest.session.nextHostSequence := by
      have hcount := hinv.down.count
      have hlt := l.host.session.nextHostSequence.toNat_lt
      rw [length_append] at hcount
      unfold sequenceSpace
      omega
    obtain ⟨session, haccept, hreached, hjoint, hsequence, hguest⟩ :=
      GuestControl.acceptFrames_joint
      (fun m hm => hinv.read_guest m (mem_append_left _ hm)) hreached hlive hspace hinv.joint
    rw [haccept] at hreceive
    refine ⟨_, later, bind_ok.mpr ⟨_, mapError_ok.mpr hreceive, rfl⟩, ?_, ?_, hinv.held, ?_, ?_,
      ⟨?_, hunread⟩, hreached, hjoint⟩
    · rw [forall_mem_append]
      exact ⟨hinv.read_host, fun m hm => hinv.read_guest m (mem_append_right _ hm)⟩
    · rw [hguest]
      exact hinv.up
    · rw [hguest]
      exact hinv.writer
    · rw [hsequence, ← hexpected]
      exact hlater
    · rw [hsequence, ← hexpected]

/-- A guest that has ended the run can only read on as long as no frame is complete. -/
theorem inv_guest_ended (hinv : l.Inv decode toHost toGuest)
    (hterminal : l.guest.session.state.isTerminal = true)
    (h : l.step (.guestReceivesStart : Action decode) = .ok l' ∨
      ∃ counts, l.step (.guestReceives counts : Action decode) = .ok l') :
    l'.Inv decode toHost toGuest ∧ l'.guest.session = l.guest.session := by
  rcases h with h | ⟨counts, h⟩
  · obtain ⟨⟨guest, stream⟩, hreceive, hl'⟩ := bind_ok.mp h
    cases hl'
    rw [mapError_ok] at hreceive
    cases hdecoder : l.guest.decoder with
    | some decoder =>
      unfold GuestControl.receiveStart at hreceive
      rw [hdecoder] at hreceive
      cases hreceive
      exact ⟨hinv, rfl⟩
    | none =>
      obtain ⟨hfirst, hdown, -⟩ := hinv.unstarted hdecoder
      rcases GuestControl.receiveStart_carries hinv.read_guest hdecoder hfirst hdown with
        ⟨-, hsame⟩ | ⟨kind, payload, later, -, hsame⟩
      · rw [hsame] at hreceive
        cases hreceive
        exact ⟨hinv, rfl⟩
      · obtain ⟨-, _, haccept, -⟩ := (hsame _).mp hreceive
        obtain ⟨-, -, _, hnext, -⟩ := WorkloadSession.accept_ok.mp haccept
        cases hnext.symm.trans (WorkloadState.next_terminal hterminal)
  · obtain ⟨⟨guest, stream⟩, hreceive, hl'⟩ := bind_ok.mp h
    cases hl'
    rw [mapError_ok] at hreceive
    rcases receiveControl_carries hinv counts with hsame |
      ⟨decoder, taken, later, decoder', stream', hdecoder, rfl, hsame, hexpected, hunread, hlater⟩
    · rw [hsame] at hreceive
      cases hreceive
      exact ⟨hinv, rfl⟩
    · rw [hsame] at hreceive
      obtain ⟨session, haccept, hguest⟩ := bind_ok.mp hreceive
      cases hguest
      obtain ⟨hframes, rfl⟩ := GuestControl.acceptFrames_terminal hterminal haccept
      cases taken with
      | nil =>
        rw [length_nil, show UInt64.ofNat 0 = 0 from rfl, UInt64.add_zero] at hexpected
        rw [hexpected] at hlater
        obtain ⟨-, -, hreached⟩ := hinv.started hdecoder
        exact ⟨⟨hinv.read, hinv.up, hinv.held, hinv.writer, hlater, ⟨hexpected, hunread⟩, hreached,
          hinv.joint⟩, rfl⟩
      | cons m taken => cases hframes

theorem inv_step (hinv : l.Inv decode toHost toGuest) (h : l.step action = .ok l') :
    ∃ toHost' toGuest', l'.Inv decode toHost' toGuest' := by
  cases action with
  | hostSends message => exact ⟨_, _, inv_hostSends hinv h⟩
  | guestSends message => exact ⟨_, _, inv_guestSends hinv h⟩
  | hostReceives count =>
    obtain ⟨_, toHost', hstep, hnext⟩ := inv_hostReceives hinv count
    cases h.symm.trans hstep
    exact ⟨toHost', toGuest, hnext⟩
  | guestReceivesStart =>
    by_cases hlive : l.guest.session.state.isTerminal = true
    · exact ⟨_, _, (inv_guest_ended hinv hlive (.inl h)).1⟩
    · obtain ⟨_, toGuest', hstep, hnext⟩ := inv_guestReceivesStart hinv (Bool.not_eq_true _ ▸ hlive)
      cases h.symm.trans hstep
      exact ⟨toHost, toGuest', hnext⟩
  | guestReceives counts =>
    by_cases hlive : l.guest.session.state.isTerminal = true
    · exact ⟨_, _, (inv_guest_ended hinv hlive (.inr ⟨counts, h⟩)).1⟩
    · obtain ⟨_, toGuest', hstep, hnext⟩ :=
        inv_guestReceives hinv (Bool.not_eq_true _ ▸ hlive) counts
      cases h.symm.trans hstep
      exact ⟨toHost, toGuest', hnext⟩

theorem inv_run {actions : List (Action decode)}
    (hinv : l.Inv decode toHost toGuest) (h : actions.foldlM step l = .ok l') :
    ∃ toHost' toGuest', l'.Inv decode toHost' toGuest' := by
  induction actions generalizing l toHost toGuest with
  | nil =>
    cases h
    exact ⟨toHost, toGuest, hinv⟩
  | cons action actions ih =>
    obtain ⟨next, hstep, hrest⟩ := bind_ok.mp h
    obtain ⟨toHost', toGuest', hnext⟩ := inv_step hinv hstep
    exact ih hnext hrest

theorem host_kept (hinv : l.Inv decode toHost toGuest)
    (hterminal : l.host.session.state.isTerminal = true)
    (h : l.step action = .ok l') : l'.host.session = l.host.session := by
  cases action with
  | hostSends message =>
    obtain ⟨_, hsend, -⟩ := bind_ok.mp h
    obtain ⟨-, _, hnext, -⟩ := ControlChannel.send_ok (mapError_ok.mp hsend)
    cases hnext.symm.trans (WorkloadState.next_terminal hterminal)
  | hostReceives count =>
    obtain ⟨_, hreceive, hl'⟩ := bind_ok.mp h
    cases hl'
    rw [mapError_ok] at hreceive
    rcases ControlChannel.receive_carries count hinv.read_host hinv.held hinv.up with
      ⟨n, hread, -⟩ | ⟨kind, payload, later, rfl, -, -⟩
    · rw [hread] at hreceive
      cases hreceive
      rfl
    · obtain ⟨_, hnext, -⟩ := hinv.joint.host_accepts
      cases hnext.symm.trans (WorkloadState.next_terminal hterminal)
  | _ =>
    obtain ⟨_, -, hl'⟩ := bind_ok.mp h
    cases hl'
    rfl

theorem guest_kept (hinv : l.Inv decode toHost toGuest)
    (hterminal : l.guest.session.state.isTerminal = true)
    (h : l.step action = .ok l') : l'.guest.session = l.guest.session := by
  cases action with
  | guestSends message =>
    obtain ⟨_, hsend, -⟩ := bind_ok.mp h
    obtain ⟨-, -, _, hnext, -⟩ := GuestControl.sendGuestMessage_ok (mapError_ok.mp hsend)
    cases hnext.symm.trans (WorkloadState.next_terminal hterminal)
  | guestReceivesStart => exact (inv_guest_ended hinv hterminal (.inl h)).2
  | guestReceives counts => exact (inv_guest_ended hinv hterminal (.inr ⟨counts, h⟩)).2
  | _ =>
    obtain ⟨_, -, hl'⟩ := bind_ok.mp h
    cases hl'
    rfl

/-- Whatever has happened on the link, a side that has not ended can read: what is in front of it is
accepted, in whatever pieces it comes. The two sides count the frames of each direction alike, up to
those in flight. A session that has ended stays as it ended. -/
theorem receipts_accepted {actions : List (Action decode)} {l : Link}
    (h : run actions = .ok l) :
    (l.host.session.state.isTerminal = false →
      ∀ count, ∃ l', l.step (.hostReceives count : Action decode) = .ok l') ∧
    (l.guest.session.state.isTerminal = false →
      (∃ l', l.step (.guestReceivesStart : Action decode) = .ok l') ∧
      ∀ counts, ∃ l', l.step (.guestReceives counts : Action decode) = .ok l') ∧
    (∃ toHost toGuest : List (MessageKind × Bytes),
      (l.host.receivePending ++ l.toHost = wire l.host.session.nextGuestSequence toHost ∧
        l.host.session.nextGuestSequence.toNat + toHost.length =
          l.guest.session.nextGuestSequence.toNat ∧
        ∀ m later, toHost = m :: later → l.host.session.state.isTerminal = false →
          ∃ s, l.host.session.accept .guestToHost m.1 l.host.session.nextGuestSequence = .ok s) ∧
      (l.guest.pending ++ l.toGuest = wire l.guest.session.nextHostSequence toGuest ∧
        l.guest.session.nextHostSequence.toNat + toGuest.length =
          l.host.session.nextHostSequence.toNat ∧
        ∀ m later, toGuest = m :: later → l.guest.session.state.isTerminal = false →
          ∃ s, l.guest.session.accept .hostToGuest m.1 l.guest.session.nextHostSequence = .ok s)) ∧
    ∀ (action : Action decode) l', l.step action = .ok l' →
      (l.host.session.state.isTerminal = true → l'.host.session.state = l.host.session.state) ∧
      (l.guest.session.state.isTerminal = true →
        l'.guest.session.state = l.guest.session.state) := by
  obtain ⟨toHost, toGuest, hinv⟩ := inv_run inv_new h
  refine ⟨fun _ count => ?_, fun hlive => ⟨?_, fun counts => ?_⟩, ⟨toHost, toGuest, ?_, ?_⟩, ?_⟩
  · obtain ⟨l', _, hstep, -⟩ := inv_hostReceives hinv count
    exact ⟨l', hstep⟩
  · obtain ⟨l', _, hstep, -⟩ := inv_guestReceivesStart hinv hlive
    exact ⟨l', hstep⟩
  · obtain ⟨l', _, hstep, -⟩ := inv_guestReceives hinv hlive counts
    exact ⟨l', hstep⟩
  · refine ⟨hinv.up.bytes, hinv.up.count, ?_⟩
    rintro m later rfl -
    obtain ⟨state, hnext, -⟩ := hinv.joint.host_accepts
    exact ⟨_, WorkloadSession.accept_ok.mpr ⟨rfl, hinv.up.space, state, hnext, rfl⟩⟩
  · refine ⟨hinv.down.bytes, hinv.down.count, ?_⟩
    rintro m later rfl hlive
    obtain ⟨state, hnext, -⟩ := hinv.joint.guest_accepts hlive
    exact ⟨_, WorkloadSession.accept_ok.mpr ⟨rfl, hinv.down.space, state, hnext, rfl⟩⟩
  · intro action l' hstep
    exact ⟨fun hterminal => congrArg _ (host_kept hinv hterminal hstep),
      fun hterminal => congrArg _ (guest_kept hinv hterminal hstep)⟩

/-- A codec whose messages have no fields. -/
def decodeBare (frame : RawFrame) : Except ProtocolError MessageKind :=
  if frame.payload = [] then .ok frame.header.kind else .error .cborNonCanonical

def bare (kind : MessageKind) : Outgoing decodeBare :=
  ⟨⟨kind, [], Nat.zero_le _⟩, fun _ => ⟨kind, rfl⟩⟩

/-- HELLO, START and READY, each read in whatever pieces. -/
def opening : List (Action decodeBare) :=
  [.guestSends (bare .hello), .hostReceives 24, .hostReceives 1, .hostSends (bare .start),
    .guestReceivesStart, .guestSends (bare .ready), .hostReceives 24, .hostReceives 1]

/-- The guest has read SIGNAL, the host's SHUTDOWN and the guest's EXIT cross, and the host is still
to read half of EXIT. -/
def crossing : List (Action decodeBare) :=
  opening ++ [.hostSends (bare .signal), .guestReceives [10, 20], .guestSends (bare .exit),
    .hostReceives 12, .hostSends (bare .shutdown)]

def crossed : Link where
  host := ⟨⟨.shuttingDown, 3, 2⟩, (frameOf .exit [] 2).toBytes.take 12⟩
  guest := ⟨⟨.exited, 2, 3⟩, 3, some (.new 2), true⟩
  toGuest := wire 2 [(.shutdown, [])]
  toHost := (frameOf .exit [] 2).toBytes.drop 12

/-- The guest has read SIGNAL and a part of SHUTDOWN. -/
def stopping : List (Action decodeBare) :=
  opening ++ [.hostSends (bare .signal), .hostSends (bare .shutdown), .guestReceives [10, 20]]

def stopped : Link where
  host := ⟨⟨.shuttingDown, 3, 2⟩, []⟩
  guest := ⟨⟨.running, 2, 2⟩, 2, some ⟨(frameOf .shutdown [] 2).toBytes.take 6, 2⟩, true⟩
  toGuest := (frameOf .shutdown [] 2).toBytes.drop 6
  toHost := []

theorem receipts_accepted_crossing :
    (run crossing = .ok crossed ∧
      ∀ count, ∃ l', crossed.step (.hostReceives count : Action decodeBare) = .ok l') ∧
    run stopping = .ok stopped ∧
      ∀ counts, ∃ l', stopped.step (.guestReceives counts : Action decodeBare) = .ok l' := by
  have hcrossed : run crossing = .ok crossed := by decide +kernel
  have hstopped : run stopping = .ok stopped := by decide +kernel
  exact ⟨⟨hcrossed, (receipts_accepted hcrossed).1 rfl⟩, hstopped,
    ((receipts_accepted hstopped).2.1 rfl).2⟩

/-- The two sides agree. A run that has ended for the host has ended for the guest, in the same way
and with nothing left to read; and when neither side has anything left to read, or the guest has
ended, they are in the same state. -/
theorem sides_agree {actions : List (Action decode)} {l : Link} (h : run actions = .ok l) :
    (l.host.session.state.isTerminal = true → l.guest.session.state = l.host.session.state ∧
      l.host.session.nextGuestSequence = l.guest.session.nextGuestSequence) ∧
    (l.host.session.nextGuestSequence = l.guest.session.nextGuestSequence →
      l.guest.session.nextHostSequence = l.host.session.nextHostSequence ∨
        l.guest.session.state.isTerminal = true →
      l.host.session.state = l.guest.session.state) := by
  obtain ⟨toHost, toGuest, hinv⟩ := inv_run inv_new h
  have hup := hinv.up.count
  have hdown := hinv.down.count
  refine ⟨fun hterminal => ?_, fun hread hrest => ?_⟩
  · obtain ⟨hnone, hsame⟩ := hinv.joint.host_ended hterminal
    rw [List.map_eq_nil_iff.mp hnone] at hup
    exact ⟨hsame, UInt64.toNat_inj.mp hup⟩
  · rw [hread] at hup
    obtain rfl : toHost = [] := List.length_eq_zero_iff.mp (by omega)
    refine hinv.joint.all_read (hrest.imp_left fun heq => ?_)
    rw [heq] at hdown
    obtain rfl : toGuest = [] := List.length_eq_zero_iff.mp (by omega)
    rfl

theorem sides_agree_crossing :
    (∃ l, run (crossing ++ [.hostReceives 12, .hostReceives 1]) = .ok l ∧
      l.host.session.state = .exited ∧ l.guest.session.state = l.host.session.state) ∧
    ∃ l, run (stopping ++ [.guestReceives [24]]) = .ok l ∧
      l.host.session.state = .shuttingDown ∧ l.host.session.state = l.guest.session.state := by
  have hcrossed : run (crossing ++ [.hostReceives 12, .hostReceives 1]) =
      .ok ⟨⟨⟨.exited, 3, 3⟩, []⟩, crossed.guest, crossed.toGuest, []⟩ := by decide +kernel
  have hstopped : run (stopping ++ [.guestReceives [24]]) =
      .ok ⟨stopped.host, ⟨⟨.shuttingDown, 3, 2⟩, 2, some (.new 3), true⟩, [], []⟩ := by
        decide +kernel
  exact ⟨⟨_, hcrossed, rfl, ((sides_agree hcrossed).1 rfl).1⟩,
    _, hstopped, rfl, (sides_agree hstopped).2 rfl (.inl rfl)⟩

end Link

end PocketVm.Runtime
