import PocketVm.Protocol.FrameStream

/-!
# Frames on a stream, whatever their numbers

A stream is the bytes of the frames a writer can have sent, one after another. What a receiver that
holds a part of it can tell: whether the frame in front is complete, how long it is, and whether it
carries the number the receiver expects.
-/

namespace PocketVm.Protocol

open Wire Checked List

/-- A frame a writer can send. `write_frame` takes the number after its own first, so that no frame
carries the last one. -/
structure Sendable (f : RawFrame) : Prop where
  flags : f.header.flags = 0
  payloadLen : f.header.payloadLen.toNat = f.payload.length
  within : f.payload.length ≤ MAX_CONTROL_PAYLOAD
  space : sequenceSpace f.header.sequence ≠ 0

/-- Every frame carries the number after that of the one before it. -/
def Consecutive : UInt64 → List RawFrame → Prop
  | _, [] => True
  | first, f :: frames => f.header.sequence = first ∧ Consecutive (first + 1) frames

def decidableConsecutive : ∀ (first : UInt64) (frames : List RawFrame),
    Decidable (Consecutive first frames)
  | _, [] => .isTrue trivial
  | first, f :: frames =>
    have := decidableConsecutive (first + 1) frames
    inferInstanceAs (Decidable (f.header.sequence = first ∧ Consecutive (first + 1) frames))

instance instDecidableConsecutive {first : UInt64} {frames : List RawFrame} :
    Decidable (Consecutive first frames) :=
  decidableConsecutive first frames

def streamOf (frames : List RawFrame) : Bytes := frames.flatMap RawFrame.toBytes

variable {f : RawFrame} {frames later : List RawFrame} {first expected : UInt64}
  {pending unread tail : Bytes}

theorem streamOf_cons : streamOf (f :: frames) = f.toBytes ++ streamOf frames := rfl

theorem streamOf_append : streamOf (frames ++ later) = streamOf frames ++ streamOf later :=
  flatMap_append

theorem consecutive_append : Consecutive first (frames ++ later) ↔
    Consecutive first frames ∧ Consecutive (first + UInt64.ofNat frames.length) later := by
  induction frames generalizing first with
  | nil => simp [Consecutive]
  | cons f frames ih =>
    simp only [cons_append, Consecutive, length_cons, ih, add_ofNat_succ, and_assoc]

theorem length_toBytes (f : RawFrame) : f.toBytes.length = HEADER_LEN + f.payload.length := by
  rw [RawFrame.toBytes, length_append, FrameHeader.length_toBytes]

theorem streamOf_eq_nil (h : streamOf frames = []) : frames = [] := by
  cases frames with
  | nil => rfl
  | cons f frames =>
    have hlength := congrArg List.length h
    rw [streamOf_cons, length_append, length_toBytes, HEADER_LEN, length_nil] at hlength
    omega

theorem ensureSequence_of_ne {actual : UInt64} (h : actual ≠ expected) :
    ensureSequence actual expected = .error (.sequenceMismatch expected actual) := if_pos h

namespace Sendable

theorem valid (hf : Sendable f) : f.header.Valid := ⟨hf.flags, hf.payloadLen ▸ hf.within⟩

theorem eq_frameOf (hf : Sendable f) : f = frameOf f.header.kind f.payload f.header.sequence := by
  obtain ⟨⟨kind, flags, payloadLen, sequence⟩, payload⟩ := f
  obtain rfl : flags = 0 := hf.flags
  obtain rfl : payloadLen = UInt32.ofNat payload.length := by
    have hlen : payloadLen.toNat = payload.length := hf.payloadLen
    rw [← hlen, UInt32.ofNat_toNat]
  rfl

theorem frameOf {kind : MessageKind} {payload : Bytes} {sequence : UInt64}
    (hle : payload.length ≤ MAX_CONTROL_PAYLOAD)
    (hspace : sequenceSpace sequence ≠ 0) : Sendable (frameOf kind payload sequence) :=
  ⟨rfl, toNat_payloadLen hle, hle, hspace⟩

theorem frameLength (hf : Sendable f) :
    frameLength f.header.payloadLen.toNat = .ok f.toBytes.length := by
  rw [hf.payloadLen, frameLength_eq_ok hf.within, length_toBytes]

theorem header (hf : Sendable f) (h : pending ++ unread = f.toBytes ++ tail)
    (hlong : HEADER_LEN ≤ pending.length) :
    FrameHeader.fromBytes (pending.take HEADER_LEN) = .ok f.header := by
  rw [FrameHeader.fromBytes_eq_ok]
  refine ⟨hf.valid, ?_⟩
  have htake := congrArg (List.take HEADER_LEN) h
  rwa [take_append_of_le_length hlong, RawFrame.toBytes, append_assoc,
    ← f.header.length_toBytes, take_left] at htake

theorem decode (hf : Sendable f) : decodeFrameExact f.toBytes f.header.sequence = .ok f :=
  decodeFrameExact_eq_ok.mpr ⟨f.header.kind, f.payload, hf.eq_frameOf, by
    rw [encodeFrame_eq_ok hf.within, ← hf.eq_frameOf]⟩

theorem decode_of_ne (hf : Sendable f) (hne : f.header.sequence ≠ expected) :
    decodeFrameExact f.toBytes expected =
      .error (.sequenceMismatch expected f.header.sequence) := by
  have hlong : HEADER_LEN ≤ f.toBytes.length := by
    rw [length_toBytes]
    exact Nat.le_add_right ..
  have hheader := hf.header (show f.toBytes ++ [] = f.toBytes ++ [] from rfl) hlong
  unfold decodeFrameExact
  rw [if_neg (Nat.not_lt.mpr hlong), hheader]
  simp only [bind, Except.bind, pure, Except.pure]
  rw [ensurePayloadCap_eq_ok hf.valid.payloadLen]
  rw [ensureSequence_of_ne hne]

end Sendable

theorem cut_or_front (h : pending ++ unread = streamOf (f :: frames)) :
    pending.length < f.toBytes.length ∨
      ∃ rest, pending = f.toBytes ++ rest ∧ rest ++ unread = streamOf frames := by
  by_cases hcut : pending.length < f.toBytes.length
  · exact .inl hcut
  · obtain ⟨rest, rfl⟩ : f.toBytes <+: pending :=
      prefix_of_prefix_length_le ⟨_, rfl⟩ ⟨_, h⟩ (Nat.not_lt.mp hcut)
    rw [append_assoc] at h
    exact .inr ⟨rest, rfl, append_cancel_left h⟩

/-- The receiver holds less than the frame in front, and nothing if there is none. -/
def CutIn (pending : Bytes) (later : List RawFrame) : Prop :=
  match later with
  | [] => pending = []
  | f :: _ => pending.length < f.toBytes.length

theorem CutIn.length_lt (h : CutIn pending later) (hsent : ∀ f ∈ later, Sendable f) :
    pending.length < HEADER_LEN + MAX_CONTROL_PAYLOAD := by
  cases later with
  | nil =>
    rw [show pending = [] from h]
    decide
  | cons f later =>
    have hlt : pending.length < f.toBytes.length := h
    have := (hsent f (mem_cons_self ..)).within
    rw [length_toBytes] at hlt
    omega

end PocketVm.Protocol

/-! ### The guest's control decoder

`control.rs`: after START the guest takes control bytes as they come and gets the frames that are
complete. -/

namespace PocketVm.Guest

open Wire Protocol Checked List

def MAX_READ_CHUNK : Nat := 8192
def MAX_PENDING : Nat := HEADER_LEN + MAX_CONTROL_PAYLOAD + MAX_READ_CHUNK

structure ControlFrameDecoder where
  pending : Bytes
  expectedSequence : UInt64
  deriving DecidableEq

namespace ControlFrameDecoder

def new (expectedSequence : UInt64) : ControlFrameDecoder := ⟨[], expectedSequence⟩

/-- One pass of the loop of `feed`: the frame at the front, if all of it is there. -/
def next (d : ControlFrameDecoder) :
    Except ProtocolError (Option (RawFrame × ControlFrameDecoder)) :=
  if d.pending.length < HEADER_LEN then .ok none
  else do
    let header ← FrameHeader.fromBytes (d.pending.take HEADER_LEN)
    let total ← frameLength header.payloadLen.toNat
    if d.pending.length < total then return none
    else
      let frame ← decodeFrameExact (d.pending.take total) d.expectedSequence
      let expectedSequence ← nextSequence d.expectedSequence
      return some (frame, ⟨d.pending.drop total, expectedSequence⟩)

theorem next_shorter {d d' : ControlFrameDecoder} {frame : RawFrame}
    (h : d.next = .ok (some (frame, d'))) :
    d'.pending.length < d.pending.length := by
  unfold next at h
  split at h
  · cases h
  · rename_i hheader
    simp only [bind_ok] at h
    obtain ⟨header, -, total, htotal, h⟩ := h
    split at h
    · cases h
    · simp only [bind_ok, pure_ok, Option.some.injEq, Prod.mk.injEq] at h
      obtain ⟨_, -, _, -, -, rfl⟩ := h
      have hlong : HEADER_LEN ≤ total := by
        unfold frameLength at htotal
        split at htotal
        · rw [← Except.ok.inj htotal]
          exact Nat.le_add_right ..
        · cases htotal
      have : 0 < HEADER_LEN := by decide
      rw [length_drop]
      omega

/-- The loop of `feed`. -/
def drain (d : ControlFrameDecoder) : Except ProtocolError (List RawFrame × ControlFrameDecoder) :=
  match _h : d.next with
  | .error e => .error e
  | .ok none => .ok ([], d)
  | .ok (some (frame, d')) => do
    let (frames, last) ← drain d'
    return (frame :: frames, last)
termination_by d.pending.length
decreasing_by exact next_shorter _h

def feed (d : ControlFrameDecoder) (bytes : Bytes) :
    Except ProtocolError (List RawFrame × ControlFrameDecoder) :=
  if bytes.length > MAX_READ_CHUNK ∨ d.pending.length + bytes.length > MAX_PENDING then
    .error (.payloadTooLarge (d.pending.length + bytes.length) MAX_PENDING)
  else drain { d with pending := d.pending ++ bytes }

end ControlFrameDecoder

/-- Between a receiver that expects `received` and a sender that is about to send `sent`: the bytes
the receiver holds and those it has not read are the frames of the messages in flight. -/
structure Carries (pending stream : Bytes) (received sent : UInt64)
    (flight : List (MessageKind × Bytes)) : Prop where
  bytes : pending ++ stream = wire received flight
  within : ∀ m ∈ flight, m.2.length ≤ MAX_CONTROL_PAYLOAD
  count : received.toNat + flight.length = sent.toNat

namespace Carries

variable {pending stream : Bytes} {received sent : UInt64} {flight : List (MessageKind × Bytes)}
  {kind : MessageKind} {payload : Bytes}

theorem new (first : UInt64) : Carries [] [] first first [] := ⟨rfl, by simp, rfl⟩

theorem toNat_succ {n : UInt64} (hspace : sequenceSpace n ≠ 0) : (n + 1).toNat = n.toNat + 1 := by
  unfold sequenceSpace at hspace
  rw [UInt64.toNat_add, show (1 : UInt64).toNat = 1 from rfl]
  omega

theorem wire_concat (first : UInt64) (flight : List (MessageKind × Bytes)) :
    wire first (flight ++ [(kind, payload)]) =
    wire first flight ++ (frameOf kind payload (first + UInt64.ofNat flight.length)).toBytes := by
  induction flight generalizing first with
  | nil =>
    simp [wire, framesOf]
  | cons m flight ih =>
    rw [cons_append, wire_cons, ih, wire_cons, append_assoc, add_ofNat_succ]
    rfl

theorem send (h : Carries pending stream received sent flight) (hspace : sequenceSpace sent ≠ 0)
    (hle : payload.length ≤ MAX_CONTROL_PAYLOAD) :
    Carries pending (stream ++ (frameOf kind payload sent).toBytes) received (sent + 1)
      (flight ++ [(kind, payload)]) := by
  have hsent : received + UInt64.ofNat flight.length = sent := by
    apply UInt64.toNat.inj
    have hlt := sent.toNat_lt
    have hcount := h.count
    have hflight : (UInt64.ofNat flight.length).toNat = flight.length :=
      UInt64.toNat_ofNat_of_lt (by rw [UInt64.size]; omega)
    rw [UInt64.toNat_add, hflight, hcount, Nat.mod_eq_of_lt hlt]
  refine ⟨?_, ?_, ?_⟩
  · rw [← append_assoc, h.bytes, wire_concat, hsent]
  · intro m hm
    rcases mem_append.mp hm with hm | hm
    · exact h.within m hm
    · rw [mem_singleton.mp hm]
      exact hle
  · rw [length_append, toNat_succ hspace, ← h.count]
    rfl

theorem space (h : Carries pending stream received sent ((kind, payload) :: flight)) :
    sequenceSpace received ≠ 0 := by
  have hcount := h.count
  have hlt := sent.toNat_lt
  rw [length_cons] at hcount
  unfold sequenceSpace
  omega

theorem receive (h : Carries ((frameOf kind payload received).toBytes ++ pending) stream received sent
    ((kind, payload) :: flight)) : Carries pending stream (received + 1) sent flight := by
  refine ⟨?_, fun m hm => h.within m (mem_cons_of_mem _ hm), ?_⟩
  · have hbytes := h.bytes
    rw [append_assoc] at hbytes
    exact append_cancel_left hbytes
  · have hcount := h.count
    rw [length_cons] at hcount
    rw [toNat_succ h.space]
    omega

theorem read (h : Carries pending stream received sent flight) (n : Nat) :
    Carries (pending ++ stream.take n) (stream.drop n) received sent flight := by
  refine ⟨?_, h.within, h.count⟩
  rw [append_assoc, take_append_drop]
  exact h.bytes

theorem idle (h : Carries pending stream received sent []) : pending = [] ∧ stream = [] :=
  append_eq_nil_iff.mp h.bytes

theorem sendable (h : Carries pending stream received sent ((kind, payload) :: flight)) :
    Sendable (frameOf kind payload received) :=
  .frameOf (h.within _ (mem_cons_self ..)) h.space

end Carries

namespace ControlFrameDecoder

variable {d : ControlFrameDecoder} {stream : Bytes} {sent : UInt64}
  {flight : List (MessageKind × Bytes)}

/-- The decoder holds less than any whole frame it could be sent. -/
def Partial (d : ControlFrameDecoder) : Prop := d.pending.length < HEADER_LEN + MAX_CONTROL_PAYLOAD

section
variable {f : RawFrame} {unread tail rest : Bytes} (hf : Sendable f)
include hf

theorem next_cut (h : d.pending ++ unread = f.toBytes ++ tail)
    (hcut : d.pending.length < f.toBytes.length) :
    d.next = .ok none := by
  unfold next
  by_cases hshort : d.pending.length < HEADER_LEN
  · rw [if_pos hshort]
  · rw [if_neg hshort, hf.header h (Nat.not_lt.mp hshort)]
    simp only [bind, Except.bind, hf.frameLength, if_pos hcut]
    rfl

theorem next_front (h : d.pending = f.toBytes ++ rest) :
    d.next = if f.header.sequence = d.expectedSequence then .ok (some (f, ⟨rest, d.expectedSequence + 1⟩))
      else .error (.sequenceMismatch d.expectedSequence f.header.sequence) := by
  have hlong : f.toBytes.length ≤ d.pending.length := by
    rw [h, length_append]
    exact Nat.le_add_right ..
  have hheader : HEADER_LEN ≤ d.pending.length := by
    rw [length_toBytes] at hlong
    omega
  have hwhole : d.pending ++ [] = f.toBytes ++ rest := by rw [append_nil, h]
  unfold next
  rw [if_neg (Nat.not_lt.mpr hheader), hf.header hwhole hheader]
  simp only [bind, Except.bind, hf.frameLength]
  rw [if_neg (Nat.not_lt.mpr hlong), h, take_left, drop_left]
  by_cases hsequence : f.header.sequence = d.expectedSequence
  · rw [if_pos hsequence, ← hsequence, hf.decode, (nextSequence_eq hf.space).1]
    rfl
  · rw [if_neg hsequence, hf.decode_of_ne hsequence]

end

theorem next_carries (h : Carries d.pending stream d.expectedSequence sent flight) :
    d.next = .ok none ∧ d.Partial ∨
      ∃ kind payload later rest, flight = (kind, payload) :: later ∧
        d.next = .ok (some (frameOf kind payload d.expectedSequence,
          ⟨rest, d.expectedSequence + 1⟩)) ∧
        Carries rest stream (d.expectedSequence + 1) sent later := by
  cases flight with
  | nil =>
    have hempty : d.pending.length < HEADER_LEN := by
      rw [h.idle.1]
      decide
    exact .inl ⟨if_pos hempty, Nat.lt_of_lt_of_le hempty (Nat.le_add_right ..)⟩
  | cons m later =>
    obtain ⟨kind, payload⟩ := m
    have hle : payload.length ≤ MAX_CONTROL_PAYLOAD := h.within _ (mem_cons_self ..)
    rcases cut_or_front h.bytes with hcut | ⟨rest, hrest, -⟩
    · refine .inl ⟨next_cut h.sendable h.bytes hcut, ?_⟩
      rw [length_toBytes_frameOf] at hcut
      exact Nat.lt_of_lt_of_le hcut (Nat.add_le_add_left hle _)
    · refine .inr ⟨kind, payload, later, rest, rfl, ?_, Carries.receive (hrest ▸ h)⟩
      rw [next_front h.sendable hrest]
      exact if_pos rfl

theorem drain_carries (h : Carries d.pending stream d.expectedSequence sent flight) :
    ∃ taken later d', flight = taken ++ later ∧
      d.drain = .ok (framesOf d.expectedSequence taken, d') ∧
      d'.expectedSequence = d.expectedSequence + UInt64.ofNat taken.length ∧ d'.Partial ∧
      Carries d'.pending stream d'.expectedSequence sent later := by
  induction flight generalizing d with
  | nil =>
    rcases next_carries h with ⟨hnext, hunread⟩ | ⟨_, _, _, _, hflight, -⟩
    · refine ⟨[], [], d, rfl, ?_, (UInt64.add_zero _).symm, hunread, h⟩
      unfold drain
      rw [hnext]
      rfl
    · cases hflight
  | cons m flight ih =>
    rcases next_carries h with ⟨hnext, hunread⟩ |
      ⟨kind, payload, later, rest, hflight, hnext, hrest⟩
    · refine ⟨[], m :: flight, d, rfl, ?_, (UInt64.add_zero _).symm, hunread, h⟩
      unfold drain
      rw [hnext]
      rfl
    · obtain ⟨rfl, rfl⟩ := List.cons.inj hflight
      obtain ⟨taken, later, d', hflight, hdrain, hexpected, hunread, hlater⟩ :=
        ih (d := ⟨rest, _⟩) hrest
      refine ⟨(kind, payload) :: taken, later, d', by rw [hflight]; rfl, ?_, ?_, hunread, hlater⟩
      · unfold drain
        rw [hnext]
        dsimp only
        rw [hdrain]
        rfl
      · rw [hexpected, add_ofNat_succ]
        rfl

theorem feed_carries (hunread : d.Partial) {n : Nat} (hn : n ≤ MAX_READ_CHUNK)
    (h : Carries d.pending stream d.expectedSequence sent flight) :
    ∃ taken later d', flight = taken ++ later ∧
      d.feed (stream.take n) = .ok (framesOf d.expectedSequence taken, d') ∧
      d'.expectedSequence = d.expectedSequence + UInt64.ofNat taken.length ∧ d'.Partial ∧
      Carries d'.pending (stream.drop n) d'.expectedSequence sent later := by
  have hchunk : (stream.take n).length ≤ MAX_READ_CHUNK := (length_take_le n stream).trans hn
  have hfits : ¬((stream.take n).length > MAX_READ_CHUNK ∨
    d.pending.length + (stream.take n).length > MAX_PENDING) := by
    unfold Partial at hunread
    unfold MAX_PENDING
    omega
  have hread := h.read n
  obtain ⟨taken, later, d', hflight, hdrain, hrest⟩ :=
    drain_carries (d := ⟨d.pending ++ stream.take n, _⟩) hread
  refine ⟨taken, later, d', hflight, ?_, hrest⟩
  unfold feed
  rw [if_neg hfits]
  exact hdrain

end ControlFrameDecoder

end PocketVm.Guest
