import PocketVm.Runtime.ControlLink

/-!
# Sending over a stream that fails

`send` moves the session on only when the frame was written and flushed, and leaves on the stream
whatever was written before that. A host that sends again after a send that failed with bytes on the
stream puts a second frame behind a part of the first, or behind a whole frame of the same number. A
host that does not do this writes frames in sequence and nothing else.
-/

namespace PocketVm.Runtime

open Wire Transport Protocol List

namespace ControlChannel

/-- `send` over a stream that cuts and fails, and a flush that may find the deadline elapsed. -/
def trySend (c : ControlChannel) (message : Encoded) (stream : Bytes) (cuts : List Cut)
    (flushes : Bool) :
    Except ProtocolError Unit × ControlChannel × Bytes :=
  let sequence := c.session.nextSequence .hostToGuest
  match c.session.accept .hostToGuest message.kind sequence with
  | .error e => (.error e, c, stream)
  | .ok candidate =>
    match FrameWriter.withLimits ⟨stream, cuts⟩ sequence MAX_CONTROL_PAYLOAD with
    | .error e => (.error e, c, stream)
    | .ok frames =>
      match frames.writeFrame message.kind message.payload with
      | (.error e, frames) => (.error e, c, frames.inner.bytes)
      | (.ok _, frames) =>
        if flushes then (.ok (), { c with session := candidate }, frames.inner.bytes)
        else (.error (.io .other), c, frames.inner.bytes)

end ControlChannel

/-- What a host does on its side of the control stream, whatever the reason for it. -/
inductive HostAct where
  | sends (message : Encoded) (cuts : List Cut) (flushes : Bool)
  | hears (kind : MessageKind)

def HostAct.isSend : HostAct → Bool
  | sends _ _ _ => true
  | hears _ => false

structure HostSide where
  channel : ControlChannel
  written : Bytes

namespace HostSide

def new : HostSide := ⟨.new, []⟩

/-- A failed send is no reason to stop: `wait_interactive` drops the error of a RESIZE. -/
def step (s : HostSide) : HostAct → HostSide
  | .sends message cuts flushes => ⟨(s.channel.trySend message s.written cuts flushes).2.1,
      (s.channel.trySend message s.written cuts flushes).2.2⟩
  | .hears kind =>
    match s.channel.session.accept .guestToHost kind (s.channel.session.nextSequence .guestToHost) with
    | .error _ => s
    | .ok session => { s with channel := { s.channel with session } }

def run (acts : List HostAct) : HostSide := acts.foldl step new

/-- A send that fails and leaves bytes on the stream. -/
def LeavesBytes (s : HostSide) : HostAct → Prop
  | .sends message cuts flushes => (s.channel.trySend message s.written cuts flushes).1.isOk = false ∧
      (s.channel.trySend message s.written cuts flushes).2.2 ≠ s.written
  | .hears _ => False

instance decidableLeavesBytes (s : HostSide) : ∀ act, Decidable (s.LeavesBytes act)
  | .sends message cuts flushes =>
    inferInstanceAs (Decidable ((s.channel.trySend message s.written cuts flushes).1.isOk = false ∧
      (s.channel.trySend message s.written cuts flushes).2.2 ≠ s.written))
  | .hears _ => .isFalse id

/-- Nothing is sent after a send that failed and left bytes on the stream. -/
def Stops (s : HostSide) : List HostAct → Prop
  | [] => True
  | act :: acts => (s.LeavesBytes act → ∀ a ∈ acts, a.isSend = false) ∧ Stops (s.step act) acts

instance decidableStops (s : HostSide) : ∀ acts, Decidable (s.Stops acts)
  | [] => .isTrue trivial
  | act :: acts =>
    have := decidableStops (s.step act) acts
    inferInstanceAs (Decidable ((s.LeavesBytes act → ∀ a ∈ acts, a.isSend = false) ∧
      (s.step act).Stops acts))

/-- What is written is the start of a stream of whole frames, numbered from zero. -/
def WellFramed (written : Bytes) : Prop :=
  ∃ frames, (∀ f ∈ frames, Sendable f) ∧ Consecutive 0 frames ∧ written <+: streamOf frames

def Whole (s : HostSide) : Prop :=
  ∃ frames, (∀ f ∈ frames, Sendable f) ∧ Consecutive 0 frames ∧ s.written = streamOf frames ∧
    s.channel.session.nextHostSequence = UInt64.ofNat frames.length

variable {s : HostSide}

theorem Whole.wellFramed (h : s.Whole) : WellFramed s.written := by
  obtain ⟨frames, hsent, hconsecutive, hwritten, -⟩ := h
  exact ⟨frames, hsent, hconsecutive, hwritten ▸ prefix_rfl⟩

theorem whole_new : new.Whole := ⟨[], by simp, trivial, rfl, rfl⟩

/-- A send changes nothing, or puts a part of its frame on the stream and fails, or puts all of it
there and moves the session on. -/
theorem trySend_cases (c : ControlChannel) (message : Encoded) (stream : Bytes) (cuts : List Cut)
    (flushes : Bool) :
    ∃ result c' part, c.trySend message stream cuts flushes = (result, c', stream ++ part) ∧
      (part = [] ∧ c' = c ∨ sequenceSpace c.session.nextHostSequence ≠ 0 ∧
        (result.isOk = false ∧ c' = c ∧ part <+:
          (frameOf message.kind message.payload c.session.nextHostSequence).toBytes ∨
          part = (frameOf message.kind message.payload c.session.nextHostSequence).toBytes ∧
          c'.session.nextHostSequence = c.session.nextHostSequence + 1)) := by
  unfold ControlChannel.trySend
  dsimp only
  cases haccept : c.session.accept .hostToGuest message.kind
    (c.session.nextSequence .hostToGuest) with
  | error e => exact ⟨.error e, c, [], by rw [append_nil], .inl ⟨rfl, rfl⟩⟩
  | ok candidate =>
    obtain ⟨-, hspace, state, -, rfl⟩ := WorkloadSession.accept_ok.mp haccept
    have hlimits : FrameWriter.withLimits ⟨stream,
      cuts⟩ (c.session.nextSequence .hostToGuest) MAX_CONTROL_PAYLOAD =
        .ok ⟨⟨stream, cuts⟩, c.session.nextSequence .hostToGuest, MAX_CONTROL_PAYLOAD⟩ :=
      if_neg (Nat.lt_irrefl _)
    rw [hlimits]
    dsimp only
    cases hwrite : (FrameWriter.mk ⟨stream, cuts⟩ (c.session.nextSequence .hostToGuest) MAX_CONTROL_PAYLOAD).writeFrame
        message.kind message.payload with
    | mk result frames =>
      obtain ⟨part, hpart, hbytes, hall⟩ :=
        writeFrame_part _ (Nat.le_refl _) message.within hspace hwrite
      cases result with
      | error e =>
        exact ⟨.error e, c, part, by dsimp only; rw [hbytes], .inr ⟨hspace, .inl ⟨rfl, rfl, hpart⟩⟩⟩
      | ok sequence =>
        cases flushes with
        | false =>
          exact ⟨_, c, part, by dsimp only; rw [hbytes]; rfl, .inr ⟨hspace, .inl ⟨rfl, rfl, hpart⟩⟩⟩
        | true =>
          exact ⟨_, _, part, by dsimp only; rw [hbytes]; rfl, .inr ⟨hspace, .inr ⟨hall _ rfl, rfl⟩⟩⟩

variable {frames : List RawFrame} {acts : List HostAct}

theorem extend_frames (message : Encoded) (hsent : ∀ f ∈ frames, Sendable f)
    (hconsecutive : Consecutive 0 frames)
    (hspace : sequenceSpace (UInt64.ofNat frames.length) ≠ 0) :
    let last := frameOf message.kind message.payload (UInt64.ofNat frames.length)
    (∀ f ∈ frames ++ [last], Sendable f) ∧ Consecutive 0 (frames ++ [last]) ∧
      streamOf (frames ++ [last]) = streamOf frames ++ last.toBytes := by
  refine ⟨?_, consecutive_append.mpr ⟨hconsecutive, (UInt64.zero_add _).symm, trivial⟩, ?_⟩
  · intro f hf
    rcases mem_append.mp hf with hf | hf
    · exact hsent f hf
    · rw [mem_singleton.mp hf]
      exact .frameOf message.within hspace
  · rw [streamOf_append]
    simp [streamOf]

theorem step_hears (s : HostSide) (kind : MessageKind) :
    (s.step (.hears kind)).written = s.written ∧
    (s.step (.hears kind)).channel.session.nextHostSequence =
      s.channel.session.nextHostSequence := by
  rw [step]
  cases haccept : s.channel.session.accept .guestToHost kind
    (s.channel.session.nextSequence .guestToHost) with
  | error e => exact ⟨rfl, rfl⟩
  | ok session =>
    obtain ⟨-, -, state, -, rfl⟩ := WorkloadSession.accept_ok.mp haccept
    exact ⟨rfl, rfl⟩

theorem Whole.step (h : s.Whole) (act : HostAct) :
    (s.step act).Whole ∨ s.LeavesBytes act ∧ WellFramed (s.step act).written := by
  cases act with
  | hears kind =>
    obtain ⟨frames, hsent, hconsecutive, hwritten, hcount⟩ := h
    obtain ⟨hsame, hsequence⟩ := step_hears s kind
    exact .inl ⟨frames, hsent, hconsecutive, by rw [hsame, hwritten], by rw [hsequence, hcount]⟩
  | sends message cuts flushes =>
    have hwhole := h
    obtain ⟨frames, hsent, hconsecutive, hwritten, hcount⟩ := h
    obtain ⟨result, c', part, htry, hcases⟩ :=
      trySend_cases s.channel message s.written cuts flushes
    have hstep : s.step (.sends message cuts flushes) = ⟨c', s.written ++ part⟩ := by
      rw [HostSide.step, htry]
    rw [hstep]
    rcases hcases with ⟨rfl, rfl⟩ | ⟨hspace, ⟨hfailed, rfl, hpart⟩ | ⟨rfl, hnext⟩⟩
    · rw [append_nil]
      exact .inl hwhole
    · rw [hcount] at hspace hpart
      obtain ⟨hsent', hconsecutive', hstream⟩ := extend_frames message hsent hconsecutive hspace
      by_cases hempty : part = []
      · rw [hempty, append_nil]
        exact .inl hwhole
      · refine .inr ⟨⟨by rwa [htry], ?_⟩, _, hsent', hconsecutive', ?_⟩
        · rw [htry]
          simpa using hempty
        · show s.written ++ part <+: _
          rw [hwritten, hstream]
          exact (prefix_append_right_inj _).mpr hpart
    · rw [hcount] at hspace hnext ⊢
      obtain ⟨hsent', hconsecutive', hstream⟩ := extend_frames message hsent hconsecutive hspace
      refine .inl ⟨_, hsent', hconsecutive', ?_, ?_⟩
      · rw [hwritten, hstream]
      · rw [length_append, UInt64.ofNat_add]
        exact hnext

theorem foldl_hears (h : ∀ a ∈ acts, a.isSend = false) :
    (acts.foldl step s).written = s.written := by
  induction acts generalizing s with
  | nil => rfl
  | cons act acts ih =>
    have hfirst := h act (mem_cons_self ..)
    cases act with
    | sends message cuts flushes => cases hfirst
    | hears kind =>
      rw [foldl_cons, ih fun a ha => h a (mem_cons_of_mem _ ha)]
      exact (step_hears s kind).1

theorem Whole.foldl (h : s.Whole) (hstops : s.Stops acts) :
    WellFramed (acts.foldl HostSide.step s).written := by
  induction acts generalizing s with
  | nil => exact h.wellFramed
  | cons act acts ih =>
    rcases h.step act with hnext | ⟨hleaves, hframed⟩
    · exact ih hnext hstops.2
    · -- the bytes of the failed send are the last ones
      rwa [foldl_cons, foldl_hears (hstops.1 hleaves)]

theorem Stops.take (h : s.Stops acts) (n : Nat) : s.Stops (acts.take n) := by
  induction acts generalizing s n with
  | nil =>
    rw [take_nil]
    trivial
  | cons act acts ih =>
    cases n with
    | zero => trivial
    | succ n => exact ⟨fun hleaves a ha => h.1 hleaves a (mem_of_mem_take ha), ih h.2 n⟩

/-- A host that sends nothing more once a send has failed and left bytes on the stream has, at every
moment of its run, written a part of a stream of frames in sequence. -/
theorem written_wellFramed_of_stops {acts : List HostAct} (h : new.Stops acts) (n : Nat) :
    WellFramed (run (acts.take n)).written :=
  whole_new.foldl (h.take n)

theorem frame_eq_of_front {f g : RawFrame} {x y : Bytes} (hf : Sendable f) (hg : Sendable g)
    (h : f.toBytes ++ x = g.toBytes ++ y) : f.toBytes = g.toBytes := by
  have hlong : HEADER_LEN ≤ (f.toBytes ++ x).length := by
    rw [length_append, length_toBytes]
    omega
  have hheader := hf.header (show (f.toBytes ++ x) ++ [] = f.toBytes ++ x from append_nil _) hlong
  rw [hg.header (show (f.toBytes ++ x) ++ [] = g.toBytes ++ y by rw [append_nil, h]) hlong] at hheader
  have hpayload : f.payload.length = g.payload.length := by
    rw [← hf.payloadLen, ← hg.payloadLen, Except.ok.inj hheader]
  exact (append_inj h (by rw [length_toBytes, length_toBytes, hpayload])).1

/-- Behind whole frames stands the header of the next one, with the next number. -/
theorem next_header {done : List RawFrame} {first : UInt64} {rest : Bytes}
    (hdone : ∀ f ∈ done, Sendable f)
    (hframes : ∀ f ∈ frames, Sendable f) (hconsecutive : Consecutive first frames)
    (h : streamOf done ++ rest <+: streamOf frames) (hlong : HEADER_LEN ≤ rest.length) :
    ∃ header, FrameHeader.fromBytes (rest.take HEADER_LEN) = .ok header ∧
      header.sequence = first + UInt64.ofNat done.length := by
  have hrest : rest ≠ [] := ne_nil_of_length_pos (Nat.lt_of_lt_of_le (by decide) hlong)
  obtain ⟨unread, hstream⟩ := h
  induction done generalizing frames first with
  | nil =>
    cases frames with
    | nil => exact absurd (append_eq_nil_iff.mp hstream).1 hrest
    | cons f frames =>
      exact ⟨f.header, (hframes f (mem_cons_self ..)).header hstream hlong,
        hconsecutive.1.trans (UInt64.add_zero first).symm⟩
  | cons d done ih =>
    cases frames with
    | nil => exact absurd (append_eq_nil_iff.mp (append_eq_nil_iff.mp hstream).1).2 hrest
    | cons f frames =>
      simp only [streamOf_cons, append_assoc] at hstream
      have heq := frame_eq_of_front (hdone d (mem_cons_self ..))
        (hframes f (mem_cons_self ..)) hstream
      rw [heq] at hstream
      obtain ⟨header, hheader, hsequence⟩ := ih (fun g hg => hdone g (mem_cons_of_mem _ hg))
        (fun g hg => hframes g (mem_cons_of_mem _ hg)) hconsecutive.2
        (by rw [append_assoc, append_cancel_left hstream])
      exact ⟨header, hheader, by rw [hsequence, add_ofNat_succ]; rfl⟩

namespace Sample

def start : Encoded := ⟨.start, [1], by decide⟩
def resize : Encoded := ⟨.resize, [24, 80], by decide⟩

def opening : List HostAct := [.hears .hello, .sends start [] true, .hears .ready]

/-- A RESIZE that times out before its first byte, another one, and a SIGNAL that times out inside
its frame. -/
def interrupted : List HostAct :=
  opening ++ [.sends resize [.failed] true, .sends resize [.bytes 3] true,
    .sends ⟨.signal, [15], by decide⟩ [.bytes 9, .failed] true]

def torn : List HostAct := opening ++ [.sends resize [.bytes 10, .failed] true,
    .sends resize [] true]

/-- A RESIZE that is written and then finds its deadline elapsed, and the next one. -/
def repeated : List HostAct := opening ++ [.sends resize [] false, .sends resize [] true]

end Sample

theorem written_wellFramed_of_interrupted :
    new.Stops Sample.interrupted ∧ WellFramed (run (Sample.interrupted.take 6)).written :=
  ⟨by decide +kernel, written_wellFramed_of_stops (by decide +kernel) 6⟩

theorem resize_after_failed_resize : ¬WellFramed (run Sample.torn).written ∧
    ¬WellFramed (run Sample.repeated).written := by
  have hstart : Sendable (frameOf .start [1] 0) := .frameOf (by decide) (by decide)
  have hresize : Sendable (frameOf .resize [24, 80] 1) := .frameOf (by decide) (by decide)
  constructor
  · rintro ⟨frames, hframes, hconsecutive, h⟩
    -- behind START stand ten bytes of one header and the whole of another
    have hwritten : (run Sample.torn).written = streamOf [frameOf .start [1] 0] ++
        ((frameOf .resize [24, 80] 1).toBytes.take 10 ++ (frameOf .resize [24, 80] 1).toBytes) := by
          decide +kernel
    rw [hwritten] at h
    obtain ⟨header, hheader, -⟩ := next_header (by simpa using hstart) hframes hconsecutive h
      (by decide +kernel)
    have hrefused : (FrameHeader.fromBytes (((frameOf .resize [24, 80] 1).toBytes.take 10 ++
        (frameOf .resize [24, 80] 1).toBytes).take HEADER_LEN)).isOk = false := by decide +kernel
    rw [hheader] at hrefused
    cases hrefused
  · rintro ⟨frames, hframes, hconsecutive, h⟩
    have hwritten : (run Sample.repeated).written = streamOf [frameOf .start [1] 0,
      frameOf .resize [24, 80] 1] ++
        (frameOf .resize [24, 80] 1).toBytes := by decide +kernel
    rw [hwritten] at h
    obtain ⟨header, hheader, hsequence⟩ :=
      next_header (by simp [hstart, hresize]) hframes hconsecutive h (by decide +kernel)
    cases hheader
    revert hsequence
    decide

end HostSide

/-! ### Receiving across timeouts

Whatever the calls run into, the frames they return are the frames sent, and the frame a call was
interrupted in can still be returned. -/

/-- What one pass of the loop runs into once it has to wait for bytes: the deadline has passed, the
read fails, or it is interrupted, or it yields at most so many bytes. -/
inductive ReadOutcome where
  | expired
  | timedOut
  | failed
  | interrupted
  | bytes (n : Nat)
  deriving DecidableEq

namespace ReadOutcome

def serves : ReadOutcome → Bool
  | interrupted => true
  | bytes n => 0 < n
  | _ => false

def reads : ReadOutcome → Bool
  | bytes _ => true
  | _ => false

end ReadOutcome

/-- `classify_protocol` on the errors of a read. -/
inductive ReceiveError where
  | timeout
  | io
  | protocol (e : ProtocolError)
  deriving DecidableEq

namespace ControlChannel

def endOfStream (pending : Bytes) : ProtocolError :=
  if pending.length < HEADER_LEN then .unexpectedEof .header HEADER_LEN pending.length
  else match FrameHeader.fromBytes (pending.take HEADER_LEN) with
    | .error e => e
    | .ok header => .unexpectedEof .payload header.payloadLen.toNat (pending.length - HEADER_LEN)

/-- One call: its result, unless it is still waiting, the bytes it keeps and the bytes it leaves. -/
def readFrame (expectedSequence : UInt64) (pending stream : Bytes) (outcomes : List ReadOutcome) :
    Option (Except ReceiveError RawFrame) × Bytes × Bytes :=
  match expectedTotal pending expectedSequence with
  | .error e => (some (.error (.protocol e)), pending, stream)
  | .ok expected =>
    if pending.length = expected then
      (some ((decodeFrameExact pending expectedSequence).mapError .protocol), [], stream)
    else if pending.length > expected then
      (some (.error (.protocol (.trailingData (pending.length - expected)))), pending, stream)
    else
      match outcomes with
      | [] => (none, pending, stream)
      | .expired :: _ => (some (.error .timeout), pending, stream)
      | .timedOut :: _ => (some (.error .timeout), pending, stream)
      | .failed :: _ => (some (.error .io), pending, stream)
      | .interrupted :: outcomes => readFrame expectedSequence pending stream outcomes
      | .bytes n :: outcomes =>
        let requested := min (expected - pending.length) READ_CHUNK
        let count := min n requested
        if stream.take count = [] then
          (some (.error (.protocol (endOfStream pending))), pending, stream)
        else readFrame expectedSequence (pending ++ stream.take count) (stream.drop count) outcomes

/-- Calls in a row. The caller's session counts the frames it is given. -/
def readFrames (expectedSequence : UInt64) (pending stream : Bytes) :
    List (List ReadOutcome) → List (Option (Except ReceiveError RawFrame)) × Bytes × Bytes
  | [] => ([], pending, stream)
  | call :: calls =>
    let (result, pending, stream) := readFrame expectedSequence pending stream call
    let next := match result with
      | some (.ok _) => expectedSequence + 1
      | _ => expectedSequence
    let (results, rest) := readFrames next pending stream calls
    (result :: results, rest)

def returned (results : List (Option (Except ReceiveError RawFrame))) : List RawFrame :=
  results.filterMap fun result => result.bind Except.toOption

/-- A call that returned no frame and found nothing wrong with the bytes it has. -/
def Unfinished : Option (Except ReceiveError RawFrame) → Prop
  | none => True
  | some (.ok _) => False
  | some (.error .timeout) => True
  | some (.error .io) => True
  | some (.error (.protocol e)) =>
    ∃ frameSection expected received, e = .unexpectedEof frameSection expected received

/-- The bytes kept end in the frame in front, if there is one. -/
def Kept (pending : Bytes) : List RawFrame → Prop
  | [] => pending = []
  | f :: _ => pending.length ≤ f.toBytes.length

theorem kept_nil (frames : List RawFrame) : Kept [] frames := by
  cases frames with
  | nil => rfl
  | cons f frames => exact Nat.zero_le _

variable {f : RawFrame} {frames : List RawFrame} {expectedSequence : UInt64}
  {pending stream tail : Bytes}

section
variable (hf : Sendable f) (h : pending ++ stream = f.toBytes ++ tail)
include hf h

theorem endOfStream_front : ∃ frameSection expected received,
    endOfStream pending = .unexpectedEof frameSection expected received := by
  unfold endOfStream
  by_cases hshort : pending.length < HEADER_LEN
  · rw [if_pos hshort]
    exact ⟨_, _, _, rfl⟩
  · rw [if_neg hshort, hf.header h (Nat.not_lt.mp hshort)]
    exact ⟨_, _, _, rfl⟩

theorem expectedTotal_cut (hcut : pending.length < f.toBytes.length) : ∃ expected,
    expectedTotal pending f.header.sequence = .ok expected ∧ pending.length < expected ∧
      expected ≤ f.toBytes.length := by
  refine ⟨_, expectedTotal_front hf h, ?_⟩
  have hlong := length_toBytes f
  split <;> omega

theorem readFrame_whole (hlen : pending.length = f.toBytes.length) (outcomes : List ReadOutcome) :
    readFrame f.header.sequence pending stream outcomes = (some (.ok f), [], tail) := by
  obtain ⟨rfl, rfl⟩ := append_inj h hlen
  have htotal := expectedTotal_front hf h
  have hlong : ¬f.toBytes.length < HEADER_LEN := by
    rw [length_toBytes]
    omega
  rw [if_neg hlong] at htotal
  unfold readFrame
  rw [htotal]
  dsimp only
  rw [if_pos rfl, hf.decode]
  rfl

/-- A call returns the frame in front, or keeps what it has of it. The frame is returned if the call
is served as often as bytes are missing. -/
theorem readFrame_front (hle : pending.length ≤ f.toBytes.length) (outcomes : List ReadOutcome) :
    readFrame f.header.sequence pending stream outcomes = (some (.ok f), [], tail) ∨
    ∃ result pending' stream', readFrame f.header.sequence pending stream outcomes = (result,
      pending', stream') ∧
      Unfinished result ∧ pending' ++ stream' = f.toBytes ++ tail ∧
        pending'.length ≤ f.toBytes.length ∧
      ¬((∀ o ∈ outcomes, o.serves = true) ∧
        f.toBytes.length ≤ pending.length + outcomes.countP ReadOutcome.reads) := by
  induction outcomes generalizing pending stream with
  | nil =>
    rcases Nat.eq_or_lt_of_le hle with hlen | hcut
    · exact .inl (readFrame_whole hf h hlen [])
    · refine .inr ⟨none, pending, stream, ?_, trivial, h, hle, ?_⟩
      · obtain ⟨expected, htotal, hlt, -⟩ := expectedTotal_cut hf h hcut
        rw [readFrame, htotal]
        dsimp only
        rw [if_neg (by omega), if_neg (by omega)]
      · rintro ⟨-, henough⟩
        rw [countP_nil] at henough
        omega
  | cons o outcomes ih =>
    rcases Nat.eq_or_lt_of_le hle with hlen | hcut
    · exact .inl (readFrame_whole hf h hlen _)
    obtain ⟨expected, htotal, hlt, hbound⟩ := expectedTotal_cut hf h hcut
    have hserves : o.serves = false → ¬((∀ o' ∈ o :: outcomes, o'.serves = true) ∧
        f.toBytes.length ≤ pending.length + (o :: outcomes).countP ReadOutcome.reads) := by
      rintro hno ⟨hall, -⟩
      rw [hall o (mem_cons_self ..)] at hno
      cases hno
    rw [readFrame, htotal]
    dsimp only
    rw [if_neg (by omega), if_neg (by omega)]
    cases o with
    | expired => exact .inr ⟨_, _, _, rfl, trivial, h, hle, hserves rfl⟩
    | timedOut => exact .inr ⟨_, _, _, rfl, trivial, h, hle, hserves rfl⟩
    | failed => exact .inr ⟨_, _, _, rfl, trivial, h, hle, hserves rfl⟩
    | interrupted =>
      rcases ih h hle with hwhole | ⟨result, pending', stream', hread, hunfinished, hbytes,
        hkept, hshort⟩
      · exact .inl hwhole
      · refine .inr ⟨result, pending', stream', hread, hunfinished, hbytes, hkept, ?_⟩
        rintro ⟨hall, henough⟩
        refine hshort ⟨fun o' ho' => hall o' (mem_cons_of_mem _ ho'), ?_⟩
        rwa [countP_cons_of_neg (by decide)] at henough
    | bytes n =>
      dsimp only
      generalize hcount : min n (min (expected - pending.length) READ_CHUNK) = count
      by_cases hend : stream.take count = []
      · rw [if_pos hend]
        refine .inr ⟨_, _, _, rfl, endOfStream_front hf h, h, hle, hserves ?_⟩
        -- there are bytes left, so a read that yields none was not served
        have hstream : stream ≠ [] := by
          rintro rfl
          have := congrArg List.length h
          simp only [append_nil, length_append] at this
          omega
        have hzero : count = 0 := by simpa [take_eq_nil_iff, hstream] using hend
        have : 0 < READ_CHUNK := by decide
        have hn : n = 0 := by omega
        rw [hn]
        rfl
      · rw [if_neg hend]
        have hsplit : (pending ++ stream.take count) ++ stream.drop count = f.toBytes ++ tail := by
          rw [append_assoc, take_append_drop, h]
        have htaken : (stream.take count).length ≤ count := length_take_le ..
        have hpos : 0 < (stream.take count).length := length_pos_of_ne_nil hend
        rcases ih hsplit (by rw [length_append]; omega) with
          hwhole | ⟨result, pending', stream', hread, hunfinished, hbytes, hkept, hshort⟩
        · exact .inl hwhole
        · refine .inr ⟨result, pending', stream', hread, hunfinished, hbytes, hkept, ?_⟩
          rintro ⟨hall, henough⟩
          refine hshort ⟨fun o' ho' => hall o' (mem_cons_of_mem _ ho'), ?_⟩
          rw [countP_cons_of_pos rfl] at henough
          rw [length_append]
          omega

end

theorem readFrame_idle (expectedSequence : UInt64) (outcomes : List ReadOutcome) : ∃ result,
    readFrame expectedSequence [] [] outcomes = (result, [], []) ∧ Unfinished result := by
  have htotal : expectedTotal [] expectedSequence = .ok HEADER_LEN := rfl
  induction outcomes with
  | nil => exact ⟨none, rfl, trivial⟩
  | cons o outcomes ih =>
    rw [readFrame, htotal]
    cases o with
    | expired => exact ⟨_, rfl, trivial⟩
    | timedOut => exact ⟨_, rfl, trivial⟩
    | failed => exact ⟨_, rfl, trivial⟩
    | interrupted => exact ih
    | bytes n =>
      dsimp only
      rw [take_nil]
      exact ⟨_, rfl, _, _, _, rfl⟩

theorem returned_cons_ok {results : List (Option (Except ReceiveError RawFrame))} :
    returned (some (.ok f) :: results) = f :: returned results := rfl

theorem readFrames_unfinished {result : Option (Except ReceiveError RawFrame)}
    {pending' stream' : Bytes}
    {call : List ReadOutcome}
    (h : readFrame expectedSequence pending stream call = (result, pending', stream'))
    (hunfinished : Unfinished result) (calls : List (List ReadOutcome)) :
    readFrames expectedSequence pending stream (call :: calls) =
      (result :: (readFrames expectedSequence pending' stream' calls).1,
        (readFrames expectedSequence pending' stream' calls).2) ∧
    ∀ results, returned (result :: results) = returned results := by
  rw [readFrames, h]
  cases result with
  | none => exact ⟨rfl, fun _ => rfl⟩
  | some result =>
    cases result with
    | ok f => cases hunfinished
    | error e => exact ⟨rfl, fun _ => rfl⟩

/-- What calls returned of `frames`, and what they left. -/
def Returns (frames : List RawFrame)
    (outcome : List (Option (Except ReceiveError RawFrame)) × Bytes × Bytes) : Prop :=
  ∃ later, frames = returned outcome.1 ++ later ∧ outcome.2.1 ++ outcome.2.2 = streamOf later ∧
    Kept outcome.2.1 later ∧
    ∀ r ∈ outcome.1, (∃ f ∈ frames, r = some (.ok f)) ∨ Unfinished r

theorem readFrames_from (hsent : ∀ f ∈ frames, Sendable f)
    (hconsecutive : Consecutive expectedSequence frames)
    (hkept : Kept pending frames) (h : pending ++ stream = streamOf frames)
    (calls : List (List ReadOutcome)) :
    Returns frames (readFrames expectedSequence pending stream calls) := by
  induction calls generalizing expectedSequence pending stream frames with
  | nil => exact ⟨frames, rfl, h, hkept, by simp [readFrames]⟩
  | cons call calls ih =>
    -- a call that did not finish leaves the frames as they are
    have hsame : ∀ {result pending' stream'},
      readFrame expectedSequence pending stream call = (result, pending', stream') →
        Unfinished result → Kept pending' frames → pending' ++ stream' = streamOf frames →
        Returns frames (readFrames expectedSequence pending stream (call :: calls)) := by
      intro result pending' stream' hread hunfinished hkept' hbytes'
      obtain ⟨later, hframes, hbytes, hkept₂, hall⟩ := ih hsent hconsecutive hkept' hbytes'
      obtain ⟨hcalls, hnothing⟩ := readFrames_unfinished hread hunfinished calls
      rw [hcalls]
      refine ⟨later, by rwa [hnothing], hbytes, hkept₂, ?_⟩
      intro r hr
      rcases mem_cons.mp hr with rfl | hr
      · exact .inr hunfinished
      · exact hall r hr
    cases frames with
    | nil =>
      obtain ⟨rfl, rfl⟩ := append_eq_nil_iff.mp h
      obtain ⟨result, hread, hunfinished⟩ := readFrame_idle expectedSequence call
      exact hsame hread hunfinished rfl rfl
    | cons f frames =>
      obtain ⟨rfl, hconsecutive'⟩ := hconsecutive
      have hf := hsent f (mem_cons_self ..)
      rcases readFrame_front hf h hkept call with
        hwhole | ⟨result, pending', stream', hread, hunfinished, hbytes', hkept', -⟩
      · obtain ⟨later, hframes, hbytes, hkept₂, hall⟩ :=
          ih (fun g hg => hsent g (mem_cons_of_mem _ hg)) hconsecutive' (kept_nil frames) rfl
        rw [readFrames, hwhole]
        refine ⟨later, ?_, hbytes, hkept₂, ?_⟩
        · rw [returned_cons_ok, cons_append, ← hframes]
        · intro r hr
          rcases mem_cons.mp hr with rfl | hr
          · exact .inl ⟨f, mem_cons_self .., rfl⟩
          · rcases hall r hr with ⟨g, hg, rfl⟩ | hunfinished
            · exact .inl ⟨g, mem_cons_of_mem _ hg, rfl⟩
            · exact .inr hunfinished
      · exact hsame hread hunfinished hkept' hbytes'

/-- Whatever a row of calls runs into, they return the frames sent, in order and each once. What
they have read of the next frame and what they have not read is the rest of the stream, and a call
that is served as often as bytes of that frame are missing returns it. -/
theorem calls_return_sent_frames {first : UInt64} (hsent : ∀ f ∈ frames, Sendable f)
    (hconsecutive : Consecutive first frames) (calls : List (List ReadOutcome)) :
    ∃ results pending stream later, readFrames first [] (streamOf frames) calls = (results,
      pending, stream) ∧ frames = returned results ++ later ∧ pending ++ stream = streamOf later ∧
      (∀ r ∈ results, (∃ f ∈ frames, r = some (.ok f)) ∨ Unfinished r) ∧
      ∀ f rest outcomes, later = f :: rest → (∀ o ∈ outcomes, o.serves = true) →
        f.toBytes.length ≤ pending.length + outcomes.countP ReadOutcome.reads →
        readFrame (first + UInt64.ofNat (returned results).length) pending stream outcomes =
          (some (.ok f), [], streamOf rest) := by
  obtain ⟨later, hframes, hbytes, hkept, hall⟩ :
    Returns frames (readFrames first [] (streamOf frames) calls) :=
    readFrames_from hsent hconsecutive (kept_nil frames) rfl calls
  refine ⟨_, _, _, later, rfl, hframes, hbytes, hall, ?_⟩
  rintro f rest outcomes rfl hserved henough
  have hf : Sendable f := hsent f (hframes ▸ mem_append_right _ (mem_cons_self ..))
  rw [hframes, consecutive_append] at hconsecutive
  rw [← hconsecutive.2.1]
  rcases readFrame_front hf hbytes hkept outcomes with hwhole | ⟨_, _, _, -, -, -, -, hshort⟩
  · exact hwhole
  · exact absurd ⟨hserved, henough⟩ hshort

namespace Sample

def greetings : List RawFrame := [frameOf .hello [1, 2, 3] 0, frameOf .ready [] 1]

theorem greetings_sendable : ∀ f ∈ greetings, Sendable f := by
  intro f hf
  rcases mem_pair.mp hf with rfl | rfl
  · exact .frameOf (by decide) (by decide)
  · exact .frameOf (by decide) (by decide)

/-- Timeouts inside the header and inside the payload of the first frame. -/
def interruptedCalls : List (List ReadOutcome) :=
  [[.bytes 10, .timedOut], [.interrupted, .bytes 14, .bytes 1, .expired], [.bytes 100], [.bytes 24]]

end Sample

theorem interrupted_calls_return_sent_frames : ∃ later,
    Sample.greetings = returned (readFrames 0 [] (streamOf Sample.greetings) Sample.interruptedCalls).1 ++ later := by
  obtain ⟨results, _, _, later, hcalls, hframes, -⟩ :=
    calls_return_sent_frames Sample.greetings_sendable
      (show Consecutive 0 Sample.greetings by decide) Sample.interruptedCalls
  exact ⟨later, by rw [hcalls]; exact hframes⟩

end ControlChannel

end PocketVm.Runtime
