import PocketVm.Protocol.Frame

/-!
# Frames over any transport

What a writer puts on a stream, a reader takes off it, however the stream is cut into calls:
the same kinds, payloads and consecutive sequence numbers, and not a byte more. A stream that ends
inside a frame yields the frames before it and then an end-of-file error.
-/

namespace PocketVm.Protocol

open Wire Transport List

/-! ### The read loop -/

variable {frameSection : FrameSection} {expected : Nat} {received : Bytes} {reader reader' : Input}

theorem readExactLoop_fair (frameSection : FrameSection) (expected : Nat) (received : Bytes)
    (hf : Fair reader.cuts) (hle : received.length ≤ expected) :
    ∃ cuts, Fair cuts ∧ readExactLoop frameSection expected received reader =
      if expected - received.length ≤ reader.bytes.length then
        (.ok (received ++ reader.bytes.take (expected - received.length)),
          ⟨reader.bytes.drop (expected - received.length), cuts⟩)
      else (.error (.unexpectedEof frameSection expected (received.length + reader.bytes.length)), ⟨[], cuts⟩) := by
  fun_induction readExactLoop frameSection expected received reader with
  | case1 received reader hlt reader' hr =>
    obtain ⟨hf', -, hend⟩ := Input.read_fair hf (Nat.sub_pos_of_lt hlt) hr
    obtain ⟨_, he, -⟩ | ⟨_, hchunk, hbytes, -⟩ := Input.read_bytes hr
    · cases he
    · cases hchunk
      have hnone := hend rfl
      refine ⟨reader'.cuts, hf', ?_⟩
      have hrest : reader'.bytes = [] := hbytes.symm.trans hnone
      rw [hnone, if_neg (by rw [length_nil]; omega)]
      exact congrArg (Prod.mk _) (by rw [← hrest])
  | case2 received reader hlt b chunk reader' hr ih =>
    obtain ⟨hf', -⟩ := Input.read_fair hf (Nat.sub_pos_of_lt hlt) hr
    obtain ⟨_, he, -⟩ | ⟨_, hchunk, hbytes, hwant⟩ := Input.read_bytes hr
    · cases he
    · cases hchunk
      have hsum : (received ++ b :: chunk).length =
        received.length + (b :: chunk).length := length_append
      obtain ⟨cuts, hc, h⟩ := ih hf' (by omega)
      refine ⟨cuts, hc, ?_⟩
      rw [h, hsum, hbytes, length_append]
      have hsplit : expected - received.length =
        (b :: chunk).length + (expected - (received.length + (b :: chunk).length)) := by
        omega
      by_cases henough : expected - (received.length + (b :: chunk).length) ≤ reader'.bytes.length
      · rw [if_pos henough, if_pos (by omega), hsplit, take_length_add_append,
          drop_length_add_append, append_assoc]
      · rw [if_neg henough, if_neg (by omega), Nat.add_assoc]
  | case3 received reader hlt reader' hr ih =>
    obtain ⟨hf', -⟩ := Input.read_fair hf (Nat.sub_pos_of_lt hlt) hr
    obtain ⟨_, -, hbytes⟩ | ⟨_, hchunk, -⟩ := Input.read_bytes hr
    · rw [← hbytes]
      exact ih hf' hle
    · cases hchunk
  | case4 received reader hlt e reader' hne hr =>
    exact absurd ((Input.read_fair hf (Nat.sub_pos_of_lt hlt) hr).2.1 e rfl) hne
  | case5 received reader hge =>
    have heq : expected - received.length = 0 := by omega
    exact ⟨reader.cuts, hf, by rw [heq, if_pos (Nat.zero_le _), take_zero, append_nil, drop_zero]⟩

variable {bytes : Bytes} {r : FrameReader} {n : Nat} {sequence : UInt64} {w : FrameWriter}
  {cuts : List Cut}

theorem readExactClassified_enough (frameSection : FrameSection) {rest : Bytes}
    (hf : Fair reader.cuts) (hb : reader.bytes = bytes ++ rest) : ∃ cuts, Fair cuts ∧
      readExactClassified reader bytes.length frameSection = (.ok bytes, ⟨rest, cuts⟩) := by
  obtain ⟨cuts, hc, h⟩ := readExactLoop_fair frameSection bytes.length [] hf (Nat.zero_le _)
  refine ⟨cuts, hc, ?_⟩
  rw [readExactClassified, h, hb]
  simp

theorem readExactClassified_short (frameSection : FrameSection) (hf : Fair reader.cuts)
    (hlt : reader.bytes.length < expected) :
    ∃ cuts, readExactClassified reader expected frameSection =
      (.error (.unexpectedEof frameSection expected reader.bytes.length), ⟨[], cuts⟩) := by
  obtain ⟨cuts, -, h⟩ := readExactLoop_fair frameSection expected [] hf (Nat.zero_le _)
  refine ⟨cuts, ?_⟩
  rw [readExactClassified, h, length_nil, if_neg (by omega), Nat.zero_add]

theorem readExactLoop_consumes (hle : received.length ≤ expected)
    (h : readExactLoop frameSection expected received reader = (.ok bytes, reader')) :
    reader'.bytes.length + (expected - received.length) = reader.bytes.length := by
  fun_induction readExactLoop frameSection expected received reader with
  | case1 => cases h
  | case2 received reader hlt b chunk next hr ih =>
    obtain ⟨_, he, -⟩ | ⟨_, hchunk, hbytes, hwant⟩ := Input.read_bytes hr
    · cases he
    · cases hchunk
      have hsum : (received ++ b :: chunk).length =
        received.length + (b :: chunk).length := length_append
      have := ih (by omega) h
      rw [hbytes, length_append]
      omega
  | case3 received reader hlt next hr ih =>
    obtain ⟨_, -, hbytes⟩ | ⟨_, hchunk, -⟩ := Input.read_bytes hr
    · rw [← hbytes]
      exact ih hle h
    · cases hchunk
  | case4 => cases h
  | case5 received reader hge =>
    cases h
    omega

theorem readFrame_consumes {r' : FrameReader} {frame : RawFrame}
    (h : r.readFrame = (.ok frame, r')) :
    r'.inner.bytes.length < r.inner.bytes.length := by
  unfold FrameReader.readFrame at h
  split at h
  · cases h
  · next headerBytes inner hheader =>
    have h₁ := readExactLoop_consumes (Nat.zero_le _) hheader
    split at h
    · cases h
    · split at h
      · cases h
      · next payload inner' hpayload =>
        have h₂ := readExactLoop_consumes (Nat.zero_le _) hpayload
        cases h
        have : HEADER_LEN = 24 := rfl
        simp only [length_nil] at h₁ h₂
        show inner'.bytes.length < _
        omega

/-! ### Headers -/

theorem MessageKind.fromU16_toU16 (kind : MessageKind) : fromU16 kind.toU16 = .ok kind := by
  cases kind <;> rfl

theorem MessageKind.toU16_of_fromU16 {value : UInt16} {kind : MessageKind}
    (h : fromU16 value = .ok kind) :
    kind.toU16 = value := by
  unfold fromU16 at h
  apply UInt16.toNat_inj.mp
  split at h <;> cases h <;> simp_all [toU16]

/-- The headers that are written: no flags, and a payload within the hard cap. -/
structure FrameHeader.Valid (h : FrameHeader) : Prop where
  flags : h.flags = 0
  payloadLen : h.payloadLen.toNat ≤ MAX_CONTROL_PAYLOAD

namespace FrameHeader

@[simp] theorem length_toBytes (h : FrameHeader) : h.toBytes.length = HEADER_LEN := by
  simp [toBytes, MAGIC, HEADER_LEN]

variable {u bytes : Bytes} {stop : Nat} {h : FrameHeader}

theorem field_skip {v : Bytes} {start : Nat} (h : u.length ≤ start) :
    field (u ++ v) start stop = field v (start - u.length) (stop - u.length) := by
  rw [field, field, drop_append, drop_eq_nil_of_le h, nil_append, Nat.sub_sub_sub_cancel_right h]

theorem field_here {v : Bytes} (h : u.length = stop) : field (u ++ v) 0 stop = readBE u := by
  rw [field, drop_zero, Nat.sub_zero, ← h, take_left]

theorem field_full (h : u.length = stop) : field u 0 stop = readBE u := by
  rw [← field_here h, append_nil]

theorem beBytes_field {start : Nat} (h : stop ≤ bytes.length) (hle : start ≤ stop) :
    beBytes (stop - start) (field bytes start stop) = (bytes.drop start).take (stop - start) := by
  have hlen : ((bytes.drop start).take (stop - start)).length = stop - start := by
    rw [length_take, length_drop]
    omega
  have := beBytes_readBE ((bytes.drop start).take (stop - start))
  rwa [hlen] at this

theorem field_lt (bytes : Bytes) (start stop : Nat) :
    field bytes start stop < 256 ^ (stop - start) := by
  have h := readBE_lt ((bytes.drop start).take (stop - start))
  refine h.trans_le (Nat.pow_le_pow_right (by decide) ?_)
  exact length_take_le ..

/-- What `from_bytes` asks of the bytes of header `h`. -/
structure Spelled (bytes : Bytes) (h : FrameHeader) : Prop where
  length : bytes.length = HEADER_LEN
  magic : bytes.take 4 = MAGIC
  major : UInt16.ofNat (field bytes 4 6) = PROTOCOL_MAJOR
  minor : UInt16.ofNat (field bytes 6 8) = PROTOCOL_MINOR
  kind : MessageKind.fromU16 (UInt16.ofNat (field bytes 8 10)) = .ok h.kind
  flags : UInt16.ofNat (field bytes 10 12) = h.flags
  payloadLen : UInt32.ofNat (field bytes 12 16) = h.payloadLen
  sequence : UInt64.ofNat (field bytes 16 24) = h.sequence
  valid : h.Valid

theorem fromBytes_eq_ok_iff : fromBytes bytes = .ok h ↔ Spelled bytes h := by
  unfold fromBytes ensurePayloadCap
  simp only [bind, Except.bind, pure, Except.pure, throw, throwThe, MonadExceptOf.throw]
  constructor
  · intro hb
    cases hk : MessageKind.fromU16 (UInt16.ofNat (field bytes 8 10)) <;>
      grind [Spelled, FrameHeader.Valid]
  · rintro ⟨hlen, hmagic, hmajor, hminor, hkind, hflags, hpayload, hseq, hzero, hle⟩
    rw [if_neg (by omega), if_neg (by omega), if_neg (not_not.mpr hmagic),
      if_neg (by rw [hmajor, hminor]; simp), hkind]
    dsimp only
    rw [hflags, hpayload, hseq, if_neg (not_not.mpr hzero), if_neg (Nat.not_lt.mpr hle)]

theorem spelled_toBytes (hv : h.Valid) : Spelled h.toBytes h := by
  have h16 : ∀ x : UInt16, readBE (beBytes 2 x.toNat) = x.toNat :=
    fun x => readBE_beBytes x.toNat_lt
  have h32 : ∀ x : UInt32, readBE (beBytes 4 x.toNat) = x.toNat :=
    fun x => readBE_beBytes x.toNat_lt
  have h64 : ∀ x : UInt64, readBE (beBytes 8 x.toNat) = x.toNat :=
    fun x => readBE_beBytes x.toNat_lt
  have hmagic : MAGIC.length = 4 := rfl
  refine ⟨length_toBytes h, ?_, ?_, ?_, ?_, ?_, ?_, ?_, hv⟩ <;>
    simp [toBytes, field_skip, field_here, field_full, hmagic, h16, h32, h64,
      MessageKind.fromU16_toU16]

theorem Spelled.eq_toBytes (hs : Spelled bytes h) : bytes = h.toBytes := by
  have hlen : bytes.length = 24 := hs.length
  have hsplit : ∀ start stop, start ≤ stop → stop ≤ 24 →
      bytes.drop start = beBytes (stop - start) (field bytes start stop) ++ bytes.drop stop := by
    intro start stop hle hstop
    rw [beBytes_field (by omega) hle]
    have := take_append_drop (stop - start) (bytes.drop start)
    rwa [drop_drop, show start + (stop - start) = stop by omega, eq_comm] at this
  have h16 : ∀ {start stop : Nat} {x : UInt16}, stop - start = 2 →
      UInt16.ofNat (field bytes start stop) = x → field bytes start stop = x.toNat := by
    rintro start stop _ hw rfl
    have hlt := field_lt bytes start stop
    rw [hw] at hlt
    exact (UInt16.toNat_ofNat_of_lt hlt).symm
  have hkind : field bytes 8 10 = h.kind.toU16.toNat :=
    h16 rfl (MessageKind.toU16_of_fromU16 hs.kind).symm
  have hpayload : field bytes 12 16 = h.payloadLen.toNat := by
    rw [← hs.payloadLen]
    exact (UInt32.toNat_ofNat_of_lt (field_lt bytes 12 16)).symm
  have hsequence : field bytes 16 24 = h.sequence.toNat := by
    rw [← hs.sequence]
    exact (UInt64.toNat_ofNat_of_lt (field_lt bytes 16 24)).symm
  have hend : bytes.drop 24 = [] := drop_eq_nil_of_le (Nat.le_of_eq hlen)
  calc bytes = bytes.take 4 ++ bytes.drop 4 := (take_append_drop 4 bytes).symm
    _ = h.toBytes := by
      rw [hs.magic, hsplit 4 6 (by decide) (by decide), hsplit 6 8 (by decide) (by decide),
        hsplit 8 10 (by decide) (by decide), hsplit 10 12 (by decide) (by decide),
        hsplit 12 16 (by decide) (by decide), hsplit 16 24 (by decide) (by decide), hend,
        h16 rfl hs.major, h16 rfl hs.minor, hkind, h16 rfl hs.flags, hpayload, hsequence]
      simp only [toBytes, append_assoc, append_nil]

theorem fromBytes_eq_ok : fromBytes bytes = .ok h ↔ h.Valid ∧ bytes = h.toBytes := by
  rw [fromBytes_eq_ok_iff]
  constructor
  · exact fun hs => ⟨hs.valid, hs.eq_toBytes⟩
  · rintro ⟨hv, rfl⟩
    exact spelled_toBytes hv

end FrameHeader

/-! ### Frames -/

theorem ensurePayloadCap_eq_ok {actual maximum : Nat} (h : actual ≤ maximum) :
    ensurePayloadCap actual maximum = .ok () := if_neg (Nat.not_lt.mpr h)

theorem ensureSequence_self (sequence : UInt64) : ensureSequence sequence sequence = .ok () :=
  if_neg (not_not.mpr rfl)

theorem frameLength_eq_ok (hle : n ≤ MAX_CONTROL_PAYLOAD) :
    frameLength n = .ok (HEADER_LEN + n) := by
  have : HEADER_LEN + MAX_CONTROL_PAYLOAD < 2 ^ 64 := by decide
  rw [frameLength, if_pos (by omega)]

def frameOf (kind : MessageKind) (payload : Bytes) (sequence : UInt64) : RawFrame :=
  ⟨⟨kind, 0, UInt32.ofNat payload.length, sequence⟩, payload⟩

def RawFrame.toBytes (f : RawFrame) : Bytes := f.header.toBytes ++ f.payload

theorem length_toBytes_frameOf {kind : MessageKind} {payload : Bytes} :
    (frameOf kind payload sequence).toBytes.length = HEADER_LEN + payload.length := by
  rw [RawFrame.toBytes, length_append]
  rfl

section
variable {kind : MessageKind} {payload : Bytes} {sequence : UInt64}
  (hle : payload.length ≤ MAX_CONTROL_PAYLOAD)
include hle

theorem toNat_payloadLen : (UInt32.ofNat payload.length).toNat = payload.length := by
  exact UInt32.toNat_ofNat_of_lt (Nat.lt_of_le_of_lt hle (by decide))

theorem valid_frameOf : (frameOf kind payload sequence).header.Valid :=
  ⟨rfl, by show (UInt32.ofNat payload.length).toNat ≤ _; rwa [toNat_payloadLen hle]⟩

theorem FrameHeader.new_eq_ok : FrameHeader.new kind payload.length sequence =
    .ok (frameOf kind payload sequence).header := by
  have : MAX_CONTROL_PAYLOAD < 2 ^ 32 := by decide
  unfold FrameHeader.new ensurePayloadCap
  rw [if_neg (by omega)]
  rw [if_pos (by omega)]
  rfl

theorem encodeFrame_eq_ok :
    encodeFrame kind sequence payload = .ok (frameOf kind payload sequence).toBytes := by
  unfold encodeFrame
  rw [FrameHeader.new_eq_ok hle, frameLength_eq_ok hle]
  rfl

end

theorem encodeFrame_cap {kind : MessageKind} {payload : Bytes}
    (h : encodeFrame kind sequence payload = .ok bytes) : payload.length ≤ MAX_CONTROL_PAYLOAD := by
  by_contra hgt
  have hcap : ensurePayloadCap payload.length MAX_CONTROL_PAYLOAD =
      .error (.payloadTooLarge payload.length MAX_CONTROL_PAYLOAD) := if_pos (Nat.lt_of_not_le hgt)
  unfold encodeFrame FrameHeader.new at h
  rw [hcap] at h
  cases h

/-- `decode_frame_exact` accepts what `encode_frame` produces, and nothing else. -/
theorem decodeFrameExact_eq_ok {input : Bytes} {frame : RawFrame} :
    decodeFrameExact input sequence = .ok frame ↔
      ∃ kind payload, frame = frameOf kind payload sequence ∧
        encodeFrame kind sequence payload = .ok input := by
  unfold decodeFrameExact
  simp only [bind, Except.bind, pure, Except.pure, throw, throwThe, MonadExceptOf.throw]
  constructor
  · intro h
    obtain ⟨header, hheader, hseq, hlen, rfl⟩ :
      ∃ header, FrameHeader.fromBytes (input.take HEADER_LEN) = .ok header ∧
        header.sequence = sequence ∧ input.length = HEADER_LEN + header.payloadLen.toNat ∧
        frame = ⟨header, input.drop HEADER_LEN⟩ := by
      unfold ensurePayloadCap ensureSequence frameLength at h
      cases hh : FrameHeader.fromBytes (input.take HEADER_LEN) <;> rw [hh] at h <;> grind
    obtain ⟨hv, hbytes⟩ := FrameHeader.fromBytes_eq_ok.mp hheader
    have hpayload : (input.drop HEADER_LEN).length = header.payloadLen.toNat := by
      rw [length_drop]
      omega
    have hframe : (⟨header, input.drop HEADER_LEN⟩ : RawFrame) =
        frameOf header.kind (input.drop HEADER_LEN) sequence := by
      rw [frameOf, hpayload, UInt32.ofNat_toNat, ← hseq, ← hv.flags]
    refine ⟨header.kind, input.drop HEADER_LEN, hframe, ?_⟩
    rw [encodeFrame_eq_ok (by rw [hpayload]; exact hv.payloadLen), ← hframe, RawFrame.toBytes,
      ← hbytes, take_append_drop]
  · rintro ⟨kind, payload, rfl, he⟩
    have hle := encodeFrame_cap he
    rw [encodeFrame_eq_ok hle] at he
    cases he
    have htake : (frameOf kind payload sequence).toBytes.take HEADER_LEN =
        (frameOf kind payload sequence).header.toBytes :=
      take_left' (FrameHeader.length_toBytes _)
    have hheader := FrameHeader.fromBytes_eq_ok.mpr ⟨@valid_frameOf kind payload sequence hle, rfl⟩
    have hpayload : (frameOf kind payload sequence).header.payloadLen.toNat = payload.length :=
      toNat_payloadLen hle
    rw [length_toBytes_frameOf, if_neg (by omega), htake, hheader]
    dsimp only
    rw [hpayload, ensurePayloadCap_eq_ok hle, show (frameOf kind payload sequence).header.sequence =
      sequence from rfl, ensureSequence_self, frameLength_eq_ok hle]
    dsimp only
    rw [if_neg (Nat.lt_irrefl _), if_neg (Nat.lt_irrefl _)]
    rfl

/-! ### Streams -/

def framesOf (first : UInt64) : List (MessageKind × Bytes) → List RawFrame
  | [] => []
  | (kind, payload) :: messages => frameOf kind payload first :: framesOf (first + 1) messages

def wire (first : UInt64) (messages : List (MessageKind × Bytes)) : Bytes :=
  (framesOf first messages).flatMap RawFrame.toBytes

def sequenceSpace (first : UInt64) : Nat := 2 ^ 64 - 1 - first.toNat

variable {first : UInt64} {limit : Nat} {kind : MessageKind} {payload : Bytes}
  {messages : List (MessageKind × Bytes)}

theorem wire_cons : wire first ((kind, payload) :: messages) =
    (frameOf kind payload first).toBytes ++ wire (first + 1) messages := rfl

theorem nextSequence_eq (h : sequenceSpace first ≠ 0) : nextSequence first = .ok (first + 1) ∧
    sequenceSpace first = sequenceSpace (first + 1) + 1 := by
  unfold sequenceSpace at h ⊢
  have hsucc : (first + 1).toNat = first.toNat + 1 := by
    rw [UInt64.toNat_add, show (1 : UInt64).toNat = 1 from rfl]
    omega
  rw [nextSequence, if_pos (by omega)]
  exact ⟨rfl, by omega⟩

theorem nextSequence_exhausted (h : sequenceSpace first = 0) :
    nextSequence first = .error .sequenceExhausted := by
  unfold sequenceSpace at h
  rw [nextSequence, if_neg (by have := first.toNat_lt; omega)]

theorem add_ofNat_succ (n : Nat) : first + 1 + UInt64.ofNat n = first + UInt64.ofNat (n + 1) := by
  rw [UInt64.ofNat_add, UInt64.add_assoc, UInt64.add_comm 1]
  rfl

section
variable (kind) (hlimit : w.maximumPayload ≤ MAX_CONTROL_PAYLOAD)
  (hle : payload.length ≤ w.maximumPayload) (hspace : sequenceSpace w.nextSequence ≠ 0)
include hlimit hle hspace

theorem prepare_eq_ok : w.prepare kind payload = .ok ((frameOf kind payload w.nextSequence).header,
    w.nextSequence + 1) := by
  unfold FrameWriter.prepare
  rw [ensurePayloadCap_eq_ok hle, (nextSequence_eq hspace).1,
    FrameHeader.new_eq_ok (hle.trans hlimit)]
  rfl

theorem writeFrame_fair (hf : Fair w.inner.cuts) : ∃ cuts, Fair cuts ∧
    w.writeFrame kind payload = (.ok w.nextSequence,
      ⟨⟨w.inner.bytes ++ (frameOf kind payload w.nextSequence).toBytes, cuts⟩, w.nextSequence + 1,
        w.maximumPayload⟩) := by
  obtain ⟨cuts₁, hf₁, h₁⟩ := Output.writeAll_fair hf
    (frameOf kind payload w.nextSequence).header.toBytes
  obtain ⟨cuts₂, hf₂, h₂⟩ := Output.writeAll_fair (w := ⟨_, cuts₁⟩) hf₁ payload
  refine ⟨cuts₂, hf₂, ?_⟩
  unfold FrameWriter.writeFrame
  rw [prepare_eq_ok kind hlimit hle hspace]
  dsimp only
  rw [h₁]
  dsimp only
  rw [h₂, append_assoc]
  rfl

theorem writeFrame_part {w' : FrameWriter} {result : Except ProtocolError UInt64}
    (h : w.writeFrame kind payload = (result, w')) :
    ∃ part, part <+: (frameOf kind payload w.nextSequence).toBytes ∧
      w'.inner.bytes = w.inner.bytes ++ part ∧
      ∀ sequence, result = .ok sequence → part = (frameOf kind payload w.nextSequence).toBytes := by
  unfold FrameWriter.writeFrame at h
  rw [prepare_eq_ok kind hlimit hle hspace] at h
  dsimp only at h
  cases h₁ : w.inner.writeAll (frameOf kind payload w.nextSequence).header.toBytes with
  | mk a inner =>
    obtain ⟨part, hpart, hbytes, hall⟩ := Output.writeAll_part h₁
    rw [h₁] at h
    cases a with
    | error e =>
      cases h
      exact ⟨part, hpart.trans (prefix_append ..), hbytes, fun _ hok => by cases hok⟩
    | ok u =>
      obtain rfl := hall rfl
      cases h₂ : inner.writeAll payload with
      | mk b inner' =>
        obtain ⟨part, hpart, hbytes', hall⟩ := Output.writeAll_part h₂
        dsimp only at h
        rw [h₂] at h
        refine ⟨(frameOf kind payload w.nextSequence).header.toBytes ++ part,
          (prefix_append_right_inj _).mpr hpart, ?_, ?_⟩
        · have hinner : w'.inner.bytes = inner'.bytes := by cases b <;> cases h <;> rfl
          rw [hinner, hbytes', hbytes, append_assoc]
        · rintro sequence rfl
          cases b with
          | error e => cases h
          | ok u =>
            rw [hall rfl]
            rfl

end

theorem writeFrames_fair (first : UInt64) (hlimit : limit ≤ MAX_CONTROL_PAYLOAD) {written : Bytes}
    (hf : Fair cuts) (hvalid : ∀ m ∈ messages, m.2.length ≤ limit) :
    ∃ cuts', Fair cuts' ∧ FrameWriter.writeFrames messages ⟨⟨written, cuts⟩, first, limit⟩ =
      ((framesOf first (messages.take (sequenceSpace first))).map fun f => f.header.sequence,
        if messages.length ≤ sequenceSpace first then none else some .sequenceExhausted,
        ⟨⟨written ++ wire first (messages.take (sequenceSpace first)), cuts'⟩,
          first + UInt64.ofNat (messages.take (sequenceSpace first)).length, limit⟩) := by
  induction messages generalizing first written cuts with
  | nil =>
    refine ⟨cuts, hf, ?_⟩
    simp [FrameWriter.writeFrames, framesOf, wire]
  | cons m messages ih =>
    obtain ⟨kind, payload⟩ := m
    have hle : payload.length ≤ limit := hvalid _ (mem_cons_self ..)
    by_cases hspace : sequenceSpace first = 0
    · refine ⟨cuts, hf, ?_⟩
      have hprep : (FrameWriter.mk ⟨written, cuts⟩ first limit).prepare kind payload =
        .error .sequenceExhausted := by
        unfold FrameWriter.prepare
        rw [ensurePayloadCap_eq_ok hle, nextSequence_exhausted hspace]
        rfl
      rw [hspace, FrameWriter.writeFrames, FrameWriter.writeFrame, hprep]
      simp [framesOf, wire]
    · obtain ⟨cuts₁, hf₁, h₁⟩ := writeFrame_fair kind (w :=
        ⟨⟨written, cuts⟩, first, limit⟩) hlimit hle hspace hf
      obtain ⟨cuts₂, hf₂, h₂⟩ := ih (first + 1) hf₁ fun m hm => hvalid m (mem_cons_of_mem _ hm)
      refine ⟨cuts₂, hf₂, ?_⟩
      rw [FrameWriter.writeFrames, h₁]
      dsimp only
      rw [h₂, (nextSequence_eq hspace).2]
      simp only [length_cons, append_assoc, add_ofNat_succ, Nat.add_le_add_iff_right]
      rfl

section
variable (kind) (hlimit : r.maximumPayload ≤ MAX_CONTROL_PAYLOAD)
  (hle : payload.length ≤ r.maximumPayload) (hspace : sequenceSpace r.expectedSequence ≠ 0)
include hlimit hle hspace

theorem accept_frameOf : r.accept (frameOf kind payload r.expectedSequence).header.toBytes =
      .ok ((frameOf kind payload r.expectedSequence).header, r.expectedSequence + 1) := by
  have hcap := hle.trans hlimit
  unfold FrameReader.accept
  rw [FrameHeader.fromBytes_eq_ok.mpr ⟨valid_frameOf hcap, rfl⟩]
  simp only [bind, Except.bind]
  rw [show (frameOf kind payload r.expectedSequence).header.payloadLen.toNat = payload.length from
    toNat_payloadLen hcap, ensurePayloadCap_eq_ok hle]
  rw [show (frameOf kind payload r.expectedSequence).header.sequence = r.expectedSequence from rfl,
    ensureSequence_self, (nextSequence_eq hspace).1]
  rfl

theorem readFrame_fair (hf : Fair r.inner.cuts) {rest : Bytes}
    (hb : r.inner.bytes = (frameOf kind payload r.expectedSequence).toBytes ++ rest) :
    ∃ cuts, Fair cuts ∧ r.readFrame = (.ok (frameOf kind payload r.expectedSequence),
      ⟨⟨rest, cuts⟩, r.expectedSequence + 1, r.maximumPayload⟩) := by
  rw [RawFrame.toBytes, append_assoc] at hb
  obtain ⟨cuts₁, hf₁, h₁⟩ := readExactClassified_enough .header hf hb
  have hpayload : (⟨(frameOf kind payload r.expectedSequence).payload ++ rest,
    cuts₁⟩ : Input).bytes =
    payload ++ rest := rfl
  obtain ⟨cuts₂, hf₂, h₂⟩ := readExactClassified_enough .payload hf₁ hpayload
  refine ⟨cuts₂, hf₂, ?_⟩
  unfold FrameReader.readFrame
  rw [FrameHeader.length_toBytes] at h₁
  rw [h₁]
  dsimp only
  rw [accept_frameOf kind hlimit hle hspace]
  dsimp only
  rw [show (frameOf kind payload r.expectedSequence).header.payloadLen.toNat =
    payload.length from toNat_payloadLen (hle.trans hlimit), h₂]
  rfl

theorem readFrame_cut (hf : Fair r.inner.cuts)
    (hn : n < (frameOf kind payload r.expectedSequence).toBytes.length)
    (hb : r.inner.bytes = (frameOf kind payload r.expectedSequence).toBytes.take n) :
    ∃ frameSection expected received r',
      r.readFrame = (.error (.unexpectedEof frameSection expected received), r') := by
  rw [length_toBytes_frameOf] at hn
  have hheader := (frameOf kind payload r.expectedSequence).header.length_toBytes
  by_cases hcut : n < HEADER_LEN
  · have hlen : r.inner.bytes.length = n := by
      rw [hb, length_take, length_toBytes_frameOf]
      omega
    obtain ⟨cuts, h⟩ := readExactClassified_short .header hf (hlen.trans_lt hcut)
    unfold FrameReader.readFrame
    rw [h]
    exact ⟨_, _, _, _, rfl⟩
  · have hsplit : r.inner.bytes = (frameOf kind payload r.expectedSequence).header.toBytes ++
        payload.take (n - HEADER_LEN) := by
      rw [hb, RawFrame.toBytes, take_append, take_of_length_le (by rw [hheader]; omega)]
      rfl
    obtain ⟨cuts₁, hf₁, h₁⟩ := readExactClassified_enough .header hf hsplit
    have hshort : (⟨payload.take (n - HEADER_LEN),
      cuts₁⟩ : Input).bytes.length < payload.length := by
      rw [length_take]
      omega
    obtain ⟨cuts₂, h₂⟩ := readExactClassified_short .payload hf₁ hshort
    unfold FrameReader.readFrame
    rw [hheader] at h₁
    rw [h₁]
    dsimp only
    rw [accept_frameOf kind hlimit hle hspace]
    dsimp only
    rw [show (frameOf kind payload r.expectedSequence).header.payloadLen.toNat = payload.length from
      toNat_payloadLen (hle.trans hlimit), h₂]
    exact ⟨_, _, _, _, rfl⟩

end

theorem readFrames_fair (first : UInt64) (hlimit : limit ≤ MAX_CONTROL_PAYLOAD) (hf : Fair cuts)
    (hvalid : ∀ m ∈ messages, m.2.length ≤ limit) (hspace : messages.length ≤ sequenceSpace first)
    (rest : Bytes) :
    ∃ cuts', FrameReader.readFrames messages.length ⟨⟨wire first messages ++ rest, cuts⟩,
      first, limit⟩ =
      (framesOf first messages, none, ⟨⟨rest, cuts'⟩,
        first + UInt64.ofNat messages.length, limit⟩) := by
  induction messages generalizing first cuts with
  | nil => exact ⟨cuts, by simp [FrameReader.readFrames, framesOf, wire]⟩
  | cons m messages ih =>
    obtain ⟨kind, payload⟩ := m
    have hpos : sequenceSpace first ≠ 0 := by rw [length_cons] at hspace; omega
    obtain ⟨cuts₁, hf₁, h₁⟩ := readFrame_fair kind
      (r := ⟨⟨wire first ((kind, payload) :: messages) ++ rest, cuts⟩, first, limit⟩) hlimit
      (hvalid _ (mem_cons_self ..)) hpos hf (by rw [wire_cons, append_assoc])
    have hnext := (nextSequence_eq hpos).2
    obtain ⟨cuts₂, h₂⟩ := ih (first + 1) hf₁ (fun m hm => hvalid m (mem_cons_of_mem _ hm))
      (by rw [length_cons] at hspace; omega)
    refine ⟨cuts₂, ?_⟩
    rw [length_cons, FrameReader.readFrames, h₁]
    dsimp only
    rw [h₂, add_ofNat_succ]
    rfl

/-- A stream that ends early yields the frames before the end and then an end-of-file error. -/
theorem readFrames_cut (first : UInt64) (hlimit : limit ≤ MAX_CONTROL_PAYLOAD) (hf : Fair cuts)
    (hvalid : ∀ m ∈ messages, m.2.length ≤ limit) (hspace : messages.length ≤ sequenceSpace first)
    (hn : n < (wire first messages).length) : ∃ i < messages.length,
    (wire first (messages.take i)).length ≤ n ∧
      n < (wire first (messages.take (i + 1))).length ∧ ∃ frameSection expected received r,
        FrameReader.readFrames messages.length ⟨⟨(wire first messages).take n, cuts⟩,
          first, limit⟩ =
          (framesOf first (messages.take i),
            some (.unexpectedEof frameSection expected received), r) := by
  induction messages generalizing first cuts n with
  | nil => exact absurd hn (Nat.not_lt_zero _)
  | cons m messages ih =>
    obtain ⟨kind, payload⟩ := m
    have hle : payload.length ≤ limit := hvalid _ (mem_cons_self ..)
    have hpos : sequenceSpace first ≠ 0 := by rw [length_cons] at hspace; omega
    have hnext := (nextSequence_eq hpos).2
    rw [wire_cons, length_append] at hn
    by_cases hcut : n < (frameOf kind payload first).toBytes.length
    · -- the cut is in the first frame
      obtain ⟨frameSection, expected, received, r', h⟩ := readFrame_cut kind
        (r := ⟨⟨(wire first ((kind, payload) :: messages)).take n, cuts⟩, first,
          limit⟩) hlimit hle hpos hf hcut
        (by rw [wire_cons, take_append_of_le_length hcut.le])
      refine ⟨0, Nat.succ_pos _, Nat.zero_le _, ?_, frameSection, expected, received, r', ?_⟩
      · rw [take_succ_cons, wire_cons, length_append]
        omega
      · rw [length_cons, FrameReader.readFrames, h]
        rfl
    · obtain ⟨k, rfl⟩ := Nat.exists_eq_add_of_le (Nat.le_of_not_lt hcut)
      obtain ⟨cuts₁, hf₁, h₁⟩ := readFrame_fair kind
        (r := ⟨⟨(wire first ((kind, payload) :: messages)).take ((frameOf kind payload first).toBytes.length + k),
          cuts⟩, first, limit⟩) hlimit hle hpos hf
        (by rw [wire_cons, take_length_add_append])
      obtain ⟨i, hi, hlo, hhi, frameSection, expected, received, r', h⟩ := ih (first + 1) hf₁
        (fun m hm => hvalid m (mem_cons_of_mem _ hm)) (by rw [length_cons] at hspace; omega)
          (n := k) (by omega)
      refine ⟨i + 1, Nat.succ_lt_succ hi, ?_, ?_, frameSection, expected, received, r', ?_⟩
      · rw [take_succ_cons, wire_cons, length_append]
        omega
      · rw [take_succ_cons, wire_cons, length_append]
        omega
      · rw [length_cons, FrameReader.readFrames, h₁]
        dsimp only
        rw [h]
        rfl

/-- Messages within the payload limit survive any cutting of the stream into calls. The writer takes
as many as there are sequence numbers left; the reader gets these back under the same numbers and
leaves what follows them; from a stream that ends early it gets the frames before the end and an
end-of-file error. One frame alone is decoded exactly when it is some frame's encoding. -/
theorem frames_survive_any_cutting (first : UInt64) (limit : Nat)
    (hlimit : limit ≤ MAX_CONTROL_PAYLOAD)
    (messages : List (MessageKind × Bytes)) (hvalid : ∀ m ∈ messages, m.2.length ≤ limit)
    (writeCuts readCuts : List Cut) (hwrite : Fair writeCuts) (hread : Fair readCuts) :
    let sent := messages.take (sequenceSpace first)
    (∃ cuts, FrameWriter.writeFrames messages ⟨⟨[], writeCuts⟩, first, limit⟩ =
      ((framesOf first sent).map fun f => f.header.sequence,
        if messages.length ≤ sequenceSpace first then none else some .sequenceExhausted,
        ⟨⟨wire first sent, cuts⟩, first + UInt64.ofNat sent.length, limit⟩)) ∧
    (∀ rest, ∃ cuts, FrameReader.readFrames sent.length ⟨⟨wire first sent ++ rest, readCuts⟩,
      first, limit⟩ = (framesOf first sent, none,
        ⟨⟨rest, cuts⟩, first + UInt64.ofNat sent.length, limit⟩)) ∧
    (∀ n < (wire first sent).length, ∃ i < sent.length, (wire first (sent.take i)).length ≤ n ∧
      n < (wire first (sent.take (i + 1))).length ∧ ∃ frameSection expected received r,
        FrameReader.readFrames sent.length ⟨⟨(wire first sent).take n, readCuts⟩, first, limit⟩ =
          (framesOf first (sent.take i), some (.unexpectedEof frameSection expected received), r)) ∧
    ∀ input sequence frame, decodeFrameExact input sequence = .ok frame ↔ ∃ kind payload,
      payload.length ≤ MAX_CONTROL_PAYLOAD ∧ frame = frameOf kind payload sequence ∧
        encodeFrame kind sequence payload = .ok input := by
  intro sent
  have hsent : ∀ m ∈ sent, m.2.length ≤ limit := fun m hm => hvalid m (mem_of_mem_take hm)
  have hspace : sent.length ≤ sequenceSpace first := length_take_le ..
  refine ⟨?_, readFrames_fair first hlimit hread hsent hspace, ?_, ?_⟩
  · obtain ⟨cuts, -, h⟩ := writeFrames_fair first hlimit hwrite hvalid
    exact ⟨cuts, h⟩
  · intro n hn
    exact readFrames_cut first hlimit hread hsent hspace hn
  · intro input sequence frame
    rw [decodeFrameExact_eq_ok]
    constructor
    · rintro ⟨kind, payload, hframe, henc⟩
      exact ⟨kind, payload, encodeFrame_cap henc, hframe, henc⟩
    · rintro ⟨kind, payload, -, hframe, henc⟩
      exact ⟨kind, payload, hframe, henc⟩

/-- Two messages, written three bytes at a time and read one byte at a time with interruptions. -/
theorem frames_survive_any_cutting_bytewise : ∃ cuts, FrameReader.readFrames 2
      ⟨⟨wire 7 [(.ready, []), (.signal, [15])] ++ [99],
        List.replicate 40 (.bytes 1) ++ [.interrupted]⟩, 7, 4⟩ =
      (framesOf 7 [(.ready, []), (.signal, [15])], none, ⟨⟨[99], cuts⟩, 9, 4⟩) := by
  have h := (frames_survive_any_cutting 7 4 (by decide) [(.ready, []), (.signal, [15])] (by decide)
    (List.replicate 9 (.bytes 3)) (List.replicate 40 (.bytes 1) ++ [.interrupted]) (by decide)
      (by decide)).2.1 [99]
  rwa [take_of_length_le (by decide)] at h

end PocketVm.Protocol
