import PocketVm.Cbor
import PocketVm.Guest.Marker

/-!
# Events of the namespace supervisor

`internal.rs`: the supervisor reports to PID 1 over a pipe, in records of a tag, a length and a
payload. The decoder bounds what it holds before it takes the complete records out, and accepts
fewer statuses than the encoder writes. The records come back whatever the reads exactly when
neither shows.
-/

namespace PocketVm.Guest

open Wire Checked List

def INTERNAL_HEADER_LEN : Nat := 5
def MAX_INTERNAL_PAYLOAD : Nat := 4096

inductive InternalEvent where
  | ready (outerPid : Int32)
  | exit (code : Option UInt8) (signal : Option UInt16) (namespaceClean : Bool)
  | error (errno : Option Int32) (diagnostic : String)
  deriving DecidableEq

def internalEventError (diagnostic : String) : InitError := ⟨"internal-event", diagnostic⟩

def malformed : InitError := internalEventError "malformed namespace supervisor event"

def i32Bytes (n : Int32) : Bytes := beBytes 4 n.toUInt32.toNat

def readI32 (bytes : Bytes) : Int32 := (UInt32.ofNat (readBE bytes)).toInt32

namespace InternalEvent

def parts : InternalEvent → Except InitError (UInt8 × Bytes)
  | ready outerPid => .ok (1, i32Bytes outerPid)
  | exit (some code) none namespaceClean =>
    .ok (2, 0 :: (beBytes 2 code.toNat ++ [namespaceClean.toUInt8]))
  | exit none (some signal) namespaceClean =>
    .ok (2, 1 :: (beBytes 2 signal.toNat ++ [namespaceClean.toUInt8]))
  | exit _ _ _ => .error (internalEventError "exit event requires exactly one status")
  | error errno diagnostic => do
    stop ((utf8 diagnostic).length > MAX_INTERNAL_PAYLOAD - 5)
      (internalEventError "internal diagnostic exceeds hard cap")
    return (3, i32Bytes (errno.getD 0) ++ errno.isSome.toUInt8 :: utf8 diagnostic)

def encode (event : InternalEvent) : Except InitError Bytes := do
  let (tag, payload) ← event.parts
  stop (payload.length > MAX_INTERNAL_PAYLOAD)
    (internalEventError "internal payload exceeds hard cap")
  stop (payload.length ≥ 2 ^ 32) (internalEventError "internal payload length overflow")
  return tag :: (beBytes 4 payload.length ++ payload)

end InternalEvent

def decodeFlag (flag : UInt8) : Except InitError Bool :=
  if flag = 0 then .ok false else if flag = 1 then .ok true else .error malformed

def decodeReady : Bytes → Except InitError InternalEvent
  | [a, b, c, d] => .ok (.ready (readI32 [a, b, c, d]))
  | _ => .error malformed

def decodeExit : Bytes → Except InitError InternalEvent
  | [status, high, low, flag] => do
    let value := readBE [high, low]
    let clean ← decodeFlag flag
    if status = 0 ∧ value ≤ 255 then return .exit (some (UInt8.ofNat value)) none clean
    else if status = 1 ∧ 1 ≤ value ∧ value ≤ 64 then
      return .exit none (some (UInt16.ofNat value)) clean
    else .error malformed
  | _ => .error malformed

def decodeErrno (present : UInt8) (rawErrno : Int32) : Except InitError (Option Int32) :=
  if present = 0 ∧ rawErrno = 0 then .ok none
  else if present = 1 ∧ 0 < rawErrno then .ok (some rawErrno)
  else .error malformed

def decodeError : Bytes → Except InitError InternalEvent
  | a :: b :: c :: d :: present :: text => do
    let errno ← decodeErrno present (readI32 [a, b, c, d])
    let diagnostic ← require (String.fromUTF8? ⟨text.toArray⟩) malformed
    return .error errno diagnostic
  | _ => .error malformed

def decodeOne (tag : UInt8) (payload : Bytes) : Except InitError InternalEvent :=
  if tag = 1 then decodeReady payload
  else if tag = 2 then decodeExit payload
  else if tag = 3 then decodeError payload
  else .error malformed

structure InternalEventDecoder where
  pending : Bytes
  deriving DecidableEq

namespace InternalEventDecoder

def new : InternalEventDecoder := ⟨[]⟩

def next (d : InternalEventDecoder) :
    Except InitError (Option (InternalEvent × InternalEventDecoder)) :=
  if d.pending.length < INTERNAL_HEADER_LEN then .ok none
  else
    let length := readBE ((d.pending.drop 1).take 4)
    if length > MAX_INTERNAL_PAYLOAD then
      .error (internalEventError "declared internal payload exceeds hard cap")
    else if d.pending.length < INTERNAL_HEADER_LEN + length then .ok none
    else do
      let frame := d.pending.take (INTERNAL_HEADER_LEN + length)
      let event ← decodeOne (frame.headD 0) (frame.drop INTERNAL_HEADER_LEN)
      return some (event, ⟨d.pending.drop (INTERNAL_HEADER_LEN + length)⟩)

theorem next_shorter {d d' : InternalEventDecoder} {event : InternalEvent}
    (h : d.next = .ok (some (event, d'))) :
    d'.pending.length < d.pending.length := by
  unfold next at h
  split at h
  · cases h
  · rename_i hheader
    dsimp only at h
    split at h
    · cases h
    · split at h
      · cases h
      · simp only [bind_ok, pure_ok, Option.some.injEq, Prod.mk.injEq] at h
        obtain ⟨_, -, -, rfl⟩ := h
        have : 0 < INTERNAL_HEADER_LEN := by decide
        rw [length_drop]
        omega

/-- The loop of `feed`. -/
def drain (d : InternalEventDecoder) :
    Except InitError (List InternalEvent × InternalEventDecoder) :=
  match _h : d.next with
  | .error e => .error e
  | .ok none => .ok ([], d)
  | .ok (some (event, d')) => do
    let (events, last) ← drain d'
    return (event :: events, last)
termination_by d.pending.length
decreasing_by exact next_shorter _h

def feed (d : InternalEventDecoder) (bytes : Bytes) :
    Except InitError (List InternalEvent × InternalEventDecoder) :=
  if d.pending.length + bytes.length > INTERNAL_HEADER_LEN + MAX_INTERNAL_PAYLOAD then
    .error (internalEventError "pending internal event exceeds hard cap")
  else drain ⟨d.pending ++ bytes⟩

def feedAll (d : InternalEventDecoder) :
    List Bytes → Except InitError (List InternalEvent × InternalEventDecoder)
  | [] => .ok ([], d)
  | bytes :: reads => do
    let (events, d) ← d.feed bytes
    let (more, d) ← feedAll d reads
    return (events ++ more, d)

end InternalEventDecoder

/-! ### One record -/

namespace InternalEvent

/-- The statuses that `decode_one` takes for a signal and for an error number. -/
def Canonical : InternalEvent → Prop
  | ready _ => True
  | exit _ none _ => True
  | exit _ (some signal) _ => 1 ≤ signal.toNat ∧ signal.toNat ≤ 64
  | error none _ => True
  | error (some errno) _ => 0 < errno

instance decidableCanonical : ∀ event : InternalEvent, Decidable event.Canonical
  | ready _ => .isTrue trivial
  | exit _ none _ => .isTrue trivial
  | exit _ (some signal) _ => inferInstanceAs (Decidable (1 ≤ signal.toNat ∧ signal.toNat ≤ 64))
  | error none _ => .isTrue trivial
  | error (some errno) _ => inferInstanceAs (Decidable (0 < errno))

end InternalEvent

theorem readI32_i32Bytes (n : Int32) : readI32 (i32Bytes n) = n := by
  rw [readI32, i32Bytes, readBE_beBytes n.toUInt32.toNat_lt, UInt32.ofNat_toNat,
    Int32.toInt32_toUInt32]

theorem decodeFlag_toUInt8 (b : Bool) : decodeFlag b.toUInt8 = .ok b := by
  cases b <;> rfl

theorem decodeOne_ready (outerPid : Int32) :
    decodeOne 1 (i32Bytes outerPid) = .ok (.ready outerPid) := by
  have hread : decodeOne 1 (i32Bytes outerPid) = .ok (.ready (readI32 (i32Bytes outerPid))) := rfl
  rw [hread, readI32_i32Bytes]

theorem decodeOne_exit (status : UInt8) (value : Nat) (hvalue : value < 256 ^ 2) (clean : Bool) :
    decodeOne 2 (status :: (beBytes 2 value ++ [clean.toUInt8])) =
      if status = 0 ∧ value ≤ 255 then .ok (.exit (some (UInt8.ofNat value)) none clean)
      else if status = 1 ∧ 1 ≤ value ∧ value ≤
        64 then .ok (.exit none (some (UInt16.ofNat value)) clean)
      else .error malformed := by
  have hread : decodeOne 2 (status :: (beBytes 2 value ++ [clean.toUInt8])) = (do
      let clean ← decodeFlag clean.toUInt8
      if status = 0 ∧ readBE (beBytes 2 value) ≤ 255 then
        return .exit (some (UInt8.ofNat (readBE (beBytes 2 value)))) none clean
      else if status = 1 ∧ 1 ≤ readBE (beBytes 2 value) ∧ readBE (beBytes 2 value) ≤ 64 then
        return .exit none (some (UInt16.ofNat (readBE (beBytes 2 value)))) clean
      else .error malformed) := rfl
  rw [hread, decodeFlag_toUInt8, readBE_beBytes hvalue]
  rfl

theorem decodeOne_error (raw : Int32) (present : UInt8) (diagnostic : String) :
    decodeOne 3 (i32Bytes raw ++ present :: utf8 diagnostic) = (do
      let errno ← decodeErrno present raw
      return .error errno diagnostic) := by
  have hread : decodeOne 3 (i32Bytes raw ++ present :: utf8 diagnostic) = (do
      let errno ← decodeErrno present (readI32 (i32Bytes raw))
      let diagnostic ← require (String.fromUTF8? ⟨(utf8 diagnostic).toArray⟩) malformed
      return .error errno diagnostic) := rfl
  rw [hread, readI32_i32Bytes, show utf8 diagnostic = Cbor.Format.textBytes diagnostic from rfl,
    Cbor.Format.fromUTF8?_textBytes]
  rfl

/-- An encoded record is a tag, the length and a payload. Decoding gives the event back if its
statuses are canonical, and nothing else. -/
theorem InternalEvent.encode_ok {event : InternalEvent} {bytes : Bytes}
    (h : event.encode = .ok bytes) :
    ∃ tag payload, bytes = tag :: (beBytes 4 payload.length ++ payload) ∧
      payload.length ≤ MAX_INTERNAL_PAYLOAD ∧
      decodeOne tag payload = if event.Canonical then .ok event else .error malformed := by
  unfold encode at h
  simp only [bind_ok, stop_ok, pure_ok] at h
  obtain ⟨⟨tag, payload⟩, hparts, _, hcap, _, -, rfl⟩ := h
  refine ⟨tag, payload, rfl, Nat.not_lt.mp hcap, ?_⟩
  cases event with
  | ready outerPid =>
    cases hparts
    rw [decodeOne_ready]
    rfl
  | exit code signal clean =>
    cases code with
    | none =>
      cases signal with
      | none => cases hparts
      | some signal =>
        cases hparts
        rw [decodeOne_exit 1 _ signal.toNat_lt, UInt16.ofNat_toNat]
        simp only [true_and]
        rfl
    | some code =>
      cases signal with
      | none =>
        cases hparts
        have hcode := code.toNat_lt
        rw [decodeOne_exit 0 _ (by omega), if_pos ⟨rfl, by omega⟩, UInt8.ofNat_toNat]
        rfl
      | some signal => cases hparts
  | error errno diagnostic =>
    simp only [parts, bind_ok, pure_ok, Prod.mk.injEq] at hparts
    obtain ⟨_, -, rfl, rfl⟩ := hparts
    rw [decodeOne_error]
    cases errno with
    | none => rfl
    | some errno =>
      change (do
        let errno ← decodeErrno 1 errno
        return InternalEvent.error errno diagnostic) = if 0 < errno then _ else _
      rw [decodeErrno, if_neg (by simp)]
      by_cases hpos : 0 < errno
      · rw [if_pos ⟨rfl, hpos⟩, if_pos hpos]
        rfl
      · rw [if_neg (fun h => hpos h.2), if_neg hpos]
        rfl

/-! ### A stream of records -/

/-- Each event stands with the bytes of its record. -/
def Recorded (written : List (InternalEvent × Bytes)) : Prop := ∀ w ∈ written, w.1.encode = .ok w.2

def recordBytes (written : List (InternalEvent × Bytes)) : Bytes := written.flatMap Prod.snd

/-- The length of what follows the last record that is complete after `n` bytes. -/
def unfinished : List (InternalEvent × Bytes) → Nat → Nat
  | [], n => n
  | (_, bytes) :: later, n => if n < bytes.length then n else unfinished later (n - bytes.length)

/-- A decoder that holds `pending` bytes has not got the next record, and holds nothing if there is
none. -/
def ShortOf (pending : Nat) : List (InternalEvent × Bytes) → Prop
  | [] => pending = 0
  | (_, bytes) :: _ => pending < bytes.length

namespace InternalEventDecoder

variable {d d' : InternalEventDecoder} {event : InternalEvent} {bytes unread tail rest : Bytes}
  {written later : List (InternalEvent × Bytes)} {reads : List Bytes}

theorem unfinished_of_shortOf {n : Nat} (h : ShortOf n later) : unfinished later n = n := by
  cases later with
  | nil => rfl
  | cons w later => exact if_pos h

theorem recordBytes_append : recordBytes (written ++ later) = recordBytes written ++
    recordBytes later :=
  flatMap_append

theorem unfinished_append (written : List (InternalEvent × Bytes)) (n : Nat) :
    unfinished (written ++ later) ((recordBytes written).length + n) = unfinished later n := by
  induction written with
  | nil => rw [nil_append, recordBytes, flatMap_nil, length_nil, Nat.zero_add]
  | cons w written ih =>
    obtain ⟨event, bytes⟩ := w
    have hlen : (recordBytes ((event, bytes) :: written)).length =
      bytes.length + (recordBytes written).length := by
      simp [recordBytes]
    rw [cons_append, unfinished, if_neg (by omega), ← ih]
    congr 1
    omega

theorem length_field {pending : Bytes} {tag : UInt8} {n : Nat}
    (h : pending ++ unread = tag :: (beBytes 4 n ++ tail))
    (hn : n < 256 ^ 4) (hlong : INTERNAL_HEADER_LEN ≤ pending.length) :
    readBE ((pending.drop 1).take 4) = n := by
  obtain ⟨more, rfl⟩ : tag :: beBytes 4 n <+: pending := by
    refine prefix_of_prefix_length_le ⟨tail, rfl⟩ ⟨unread, h⟩ ?_
    exact hlong
  rw [cons_append, drop_one, tail_cons, take_left' (length_beBytes 4 n), readBE_beBytes hn]

section
variable (henc : event.encode = .ok bytes)
include henc

theorem next_cut (h : d.pending ++ unread = bytes ++ tail)
    (hcut : d.pending.length < bytes.length) :
    d.next = .ok none := by
  obtain ⟨tag, payload, rfl, hle, -⟩ := event.encode_ok henc
  have hlen : (tag :: (beBytes 4 payload.length ++ payload)).length =
    INTERNAL_HEADER_LEN + payload.length := by
    rw [length_cons, length_append, length_beBytes, INTERNAL_HEADER_LEN]
    omega
  rw [hlen] at hcut
  have hcap : payload.length < 256 ^ 4 := hle.trans_lt (by decide)
  unfold next
  by_cases hshort : d.pending.length < INTERNAL_HEADER_LEN
  · rw [if_pos hshort]
  · rw [if_neg hshort, length_field h hcap (Nat.not_lt.mp hshort)]
    rw [if_neg (Nat.not_lt.mpr hle), if_pos hcut]

theorem next_front (h : d.pending = bytes ++ rest) :
    d.next = if event.Canonical then .ok (some (event, ⟨rest⟩)) else .error malformed := by
  obtain ⟨tag, payload, rfl, hle, hdecode⟩ := event.encode_ok henc
  have hcap : payload.length < 256 ^ 4 := hle.trans_lt (by decide)
  have hheader : (tag :: beBytes 4 payload.length).length = INTERNAL_HEADER_LEN := by
    rw [length_cons, length_beBytes, INTERNAL_HEADER_LEN]
  have hlen : (tag :: (beBytes 4 payload.length ++ payload)).length =
    INTERNAL_HEADER_LEN + payload.length := by
    rw [← cons_append, length_append, hheader]
  have hlong : INTERNAL_HEADER_LEN + payload.length ≤ d.pending.length := by
    rw [h, length_append, hlen]
    exact Nat.le_add_right ..
  have hsplit : d.pending ++ [] = tag :: (beBytes 4 payload.length ++ (payload ++ rest)) := by
    rw [append_nil, h, cons_append, append_assoc]
  have hfield := length_field hsplit hcap (by omega)
  unfold next
  rw [if_neg (by omega), hfield]
  dsimp only
  rw [if_neg (Nat.not_lt.mpr hle), if_neg (Nat.not_lt.mpr hlong), h, ← hlen, take_left, drop_left,
    headD_cons, ← cons_append, ← hheader, drop_left, hdecode]
  split <;> rfl

end

theorem drain_records (hwritten : Recorded written)
    (h : d.pending ++ unread = recordBytes written) :
    ∃ taken later rest, written = taken ++ later ∧ d.pending = recordBytes taken ++ rest ∧
      ShortOf rest.length later ∧
      d.drain = if ∀ w ∈ taken, w.1.Canonical then .ok (taken.map Prod.fst, ⟨rest⟩) else .error malformed := by
  induction written generalizing d with
  | nil =>
    have hempty : d.pending = [] := (append_eq_nil_iff.mp h).1
    refine ⟨[], [], d.pending, rfl, rfl, by rw [hempty]; rfl, ?_⟩
    have hnext : d.next = .ok none := by
      rw [next, if_pos (by rw [hempty]; decide)]
    rw [drain, hnext]
    rfl
  | cons w written ih =>
    obtain ⟨event, bytes⟩ := w
    have henc : event.encode = .ok bytes := hwritten (event, bytes) (mem_cons_self ..)
    have hbytes : d.pending ++ unread = bytes ++ recordBytes written := h
    by_cases hcut : d.pending.length < bytes.length
    · refine ⟨[], (event, bytes) :: written, d.pending, rfl, rfl, hcut, ?_⟩
      rw [drain, next_cut henc hbytes hcut]
      rfl
    obtain ⟨rest, hrest⟩ : bytes <+: d.pending :=
      prefix_of_prefix_length_le ⟨_, rfl⟩ ⟨_, hbytes⟩ (Nat.not_lt.mp hcut)
    have hnext := next_front henc hrest.symm
    rw [← hrest, append_assoc] at hbytes
    obtain ⟨taken, later, rest', rfl, hpending, hshort, hdrain⟩ :=
      ih (d := ⟨rest⟩) (fun w hw => hwritten w (mem_cons_of_mem _ hw)) (append_cancel_left hbytes)
    refine ⟨(event, bytes) :: taken, later, rest', rfl, ?_, hshort, ?_⟩
    · rw [← hrest, show rest = recordBytes taken ++ rest' from hpending]
      simp [recordBytes]
    · by_cases hcanonical : event.Canonical
      · rw [if_pos hcanonical] at hnext
        rw [drain, hnext]
        dsimp only
        rw [hdrain]
        by_cases hall : ∀ w ∈ taken, w.1.Canonical
        · rw [if_pos hall, if_pos (by simpa [hcanonical] using hall)]
          rfl
        · rw [if_neg hall, if_neg (by simpa [hcanonical] using hall)]
          rfl
      · rw [if_neg hcanonical] at hnext
        rw [drain, hnext, if_neg fun hall => hcanonical (hall _ (mem_cons_self ..))]

/-- At each read, what is left of the last record and the read together are no longer than one
maximal record. -/
def Fits (written : List (InternalEvent × Bytes)) (reads : List Bytes) : Prop :=
  ∀ k read, reads[k]? = some read →
    unfinished written (reads.take k).flatten.length + read.length ≤
      INTERNAL_HEADER_LEN + MAX_INTERNAL_PAYLOAD

def FitsFrom (n : Nat) (written : List (InternalEvent × Bytes)) (reads : List Bytes) : Prop :=
  ∀ k read, reads[k]? = some read → unfinished written
    (n + (reads.take k).flatten.length) + read.length ≤
    INTERNAL_HEADER_LEN + MAX_INTERNAL_PAYLOAD

theorem fitsFrom_cons {n : Nat} {taken : List (InternalEvent × Bytes)}
    (hshort : ShortOf n (taken ++ later))
    (hlen : n + bytes.length = (recordBytes taken).length + rest.length) :
    FitsFrom n (taken ++ later) (bytes :: reads) ↔
      n + bytes.length ≤ INTERNAL_HEADER_LEN + MAX_INTERNAL_PAYLOAD ∧
        FitsFrom rest.length later reads := by
  have hlater : ∀ k, n + ((bytes :: reads).take (k + 1)).flatten.length =
      (recordBytes taken).length + (rest.length + (reads.take k).flatten.length) := by
    intro k
    rw [take_succ_cons, flatten_cons, length_append]
    omega
  constructor
  · intro h
    refine ⟨by simpa [unfinished_of_shortOf hshort] using h 0 bytes rfl, fun k read hk => ?_⟩
    have := h (k + 1) read hk
    rwa [hlater, unfinished_append] at this
  · rintro ⟨hfirst, h⟩ k read hk
    cases k with
    | zero =>
      cases hk
      simpa [unfinished_of_shortOf hshort] using hfirst
    | succ k =>
      rw [hlater, unfinished_append]
      exact h k read hk

theorem unfinished_le (written : List (InternalEvent × Bytes)) (n : Nat) :
    unfinished written n ≤ n := by
  induction written generalizing n with
  | nil => exact Nat.le_refl n
  | cons w written ih =>
    unfold unfinished
    split
    · exact Nat.le_refl n
    · exact (ih _).trans (Nat.sub_le ..)

/-- Reads of a part of the stream yield its complete records, unless a record is not canonical or
the decoder is overfilled. -/
theorem feedAll_cases (hwritten : Recorded written) (hshort : ShortOf d.pending.length written)
    (h : d.pending ++ reads.flatten ++ unread = recordBytes written) :
    (∃ taken later d', written = taken ++ later ∧
      d.pending ++ reads.flatten = recordBytes taken ++ d'.pending ∧
      ShortOf d'.pending.length later ∧ d.feedAll reads = .ok (taken.map Prod.fst, d') ∧
      (∀ w ∈ taken, w.1.Canonical) ∧ FitsFrom d.pending.length written reads) ∨
    ∃ e, d.feedAll reads = .error e ∧ ¬((∀ w ∈ written, w.1.Canonical) ∧
      FitsFrom d.pending.length written reads) := by
  induction reads generalizing d written with
  | nil => exact .inl ⟨[], written, d, rfl, by simp [recordBytes], hshort, rfl, nofun, nofun⟩
  | cons bytes reads ih =>
    rw [flatten_cons] at h ⊢
    have hstream : (d.pending ++ bytes) ++ (reads.flatten ++ unread) = recordBytes written := by
      rw [← h]
      simp only [append_assoc]
    obtain ⟨taken, later, rest, rfl, hpending, hrest, hdrain⟩ :=
      drain_records (d := ⟨d.pending ++ bytes⟩) hwritten hstream
    change d.pending ++ bytes = _ at hpending
    have hfits := @fitsFrom_cons bytes rest later reads _ taken hshort
      (by simpa only [length_append] using congrArg List.length hpending)
    by_cases hover : d.pending.length + bytes.length > INTERNAL_HEADER_LEN + MAX_INTERNAL_PAYLOAD
    · refine .inr ⟨_, by rw [feedAll, feed, if_pos hover]; rfl, fun hboth => ?_⟩
      exact absurd (hfits.mp hboth.2).1 (Nat.not_le.mpr hover)
    have hfeed : d.feed bytes = drain ⟨d.pending ++ bytes⟩ := if_neg hover
    by_cases hall : ∀ w ∈ taken, w.1.Canonical
    · rw [hdrain, if_pos hall] at hfeed
      rw [hpending, recordBytes_append, append_assoc] at hstream
      have hnext : rest ++ reads.flatten ++ unread = recordBytes later := by
        rw [append_assoc]
        exact append_cancel_left hstream
      rcases ih (d := ⟨rest⟩) (fun w hw => hwritten w (mem_append_right _ hw)) hrest hnext with
        ⟨more, last, d', rfl, hbytes, hlast, hmore, hcanonical, hfrom⟩ | ⟨e, hmore, hreason⟩
      · refine .inl ⟨taken ++ more, last, d', (append_assoc ..).symm, ?_, hlast, ?_, ?_,
          hfits.mpr ⟨Nat.not_lt.mp hover, hfrom⟩⟩
        · rw [recordBytes_append, append_assoc, ← hbytes, ← append_assoc, hpending, append_assoc]
        · rw [feedAll, hfeed, map_append]
          simp only [bind, Except.bind, hmore]
          rfl
        · exact fun w hw => (mem_append.mp hw).elim (hall w) (hcanonical w)
      · refine .inr ⟨e, by rw [feedAll, hfeed]; simp only [bind, Except.bind, hmore], fun hboth => hreason ⟨?_, ?_⟩⟩
        · exact fun w hw => hboth.1 w (mem_append_right _ hw)
        · exact (hfits.mp hboth.2).2
    · rw [hdrain, if_neg hall] at hfeed
      refine .inr ⟨_, by rw [feedAll, hfeed]; rfl, fun hboth => hall fun w hw => hboth.1 w (mem_append_left _ hw)⟩

theorem eq_nil_of_shortOf (h : ShortOf (recordBytes later).length later) : later = [] := by
  cases later with
  | nil => rfl
  | cons w later =>
    simp only [ShortOf, recordBytes, flatMap_cons, length_append] at h
    omega

theorem feedAll_from (hwritten : Recorded written) (hshort : ShortOf d.pending.length written)
    (h : d.pending ++ reads.flatten = recordBytes written) :
    d.feedAll reads = .ok (written.map Prod.fst, new) ↔
      (∀ w ∈ written, w.1.Canonical) ∧ FitsFrom d.pending.length written reads := by
  have hnone : d.pending ++ reads.flatten ++ [] = recordBytes written := (append_nil _).trans h
  rcases feedAll_cases hwritten hshort hnone with
    ⟨taken, later, ⟨pending⟩, rfl, hbytes, hlast, hfed, hcanonical, hfits⟩ | ⟨e, herror, hreason⟩
  · -- the bytes end where a record does, so no record is left
    rw [h, recordBytes_append] at hbytes
    obtain rfl : recordBytes later = pending := append_cancel_left hbytes
    obtain rfl := eq_nil_of_shortOf hlast
    rw [append_nil, hfed]
    exact iff_of_true rfl ⟨hcanonical, by simpa using hfits⟩
  · rw [herror]
    exact iff_of_false nofun hreason

/-- The events come back from a row of reads exactly if their statuses are canonical and no read
overfills the decoder. -/
theorem events_return_iff (hwritten : Recorded written) (h : reads.flatten = recordBytes written) :
    new.feedAll reads = .ok (written.map Prod.fst, new) ↔
      (∀ w ∈ written, w.1.Canonical) ∧ Fits written reads := by
  have hshort : ShortOf new.pending.length written := by
    cases written with
    | nil => rfl
    | cons w written =>
      obtain ⟨tag, payload, hbytes, -⟩ := w.1.encode_ok (hwritten w (mem_cons_self ..))
      show 0 < w.2.length
      rw [hbytes]
      exact Nat.succ_pos _
  rw [feedAll_from hwritten hshort h]
  simp only [Fits, FitsFrom, show new.pending.length = 0 from rfl, Nat.zero_add]

namespace Sample

def lifecycle : List (InternalEvent × Bytes) :=
  [(.ready 42, [1, 0, 0, 0, 4, 0, 0, 0, 42]),
    (.exit none (some 15) true, [2, 0, 0, 0, 4, 1, 0, 15, 1])]

def lifecycleReads : List Bytes := [(recordBytes lifecycle).take 3, (recordBytes lifecycle).drop 3]

theorem lifecycle_fits : Fits lifecycle lifecycleReads := by
  intro k read hk
  rcases k with _ | _ | k
  · cases hk
    decide +kernel
  · cases hk
    decide +kernel
  · cases hk

theorem utf8_replicate (n : Nat) : (utf8 (String.ofList (List.replicate n 'a'))).length = n := by
  rw [utf8_ofList_ascii (fun c hc => by rw [eq_of_mem_replicate hc]; decide), length_map,
    length_replicate]

def longDiagnostic : String := String.ofList (List.replicate 3000 'a')

theorem encode_diagnostic {diagnostic : String}
    (h : (utf8 diagnostic).length ≤ MAX_INTERNAL_PAYLOAD - 5) :
    ∃ bytes, (InternalEvent.error none diagnostic).encode = .ok bytes ∧
      bytes.length = 10 + (utf8 diagnostic).length := by
  have hcap : MAX_INTERNAL_PAYLOAD = 4096 := rfl
  have hlen : (i32Bytes 0 ++ false.toUInt8 :: utf8 diagnostic).length =
    5 + (utf8 diagnostic).length := by
    rw [length_append, i32Bytes, length_beBytes, length_cons]
    omega
  refine ⟨3 :: (beBytes 4 (i32Bytes 0 ++ false.toUInt8 :: utf8 diagnostic).length ++
    (i32Bytes 0 ++ false.toUInt8 :: utf8 diagnostic)), ?_, ?_⟩
  · rw [InternalEvent.encode, bind_ok]
    refine ⟨(3, i32Bytes 0 ++ false.toUInt8 :: utf8 diagnostic), ?_, ?_⟩
    · rw [InternalEvent.parts]
      simp only [bind_ok, stop_ok]
      exact ⟨(), by omega, rfl⟩
    · simp only [bind_ok, stop_ok]
      exact ⟨(), by omega, (), by omega, rfl⟩
  · rw [length_cons, length_append, length_beBytes]
    omega

end Sample

theorem lifecycle_events_return :
    new.feedAll Sample.lifecycleReads = .ok ([.ready 42, .exit none (some 15) true], new) :=
  (events_return_iff (by unfold Recorded; decide +kernel) (by decide +kernel)).mpr
    ⟨by decide +kernel, Sample.lifecycle_fits⟩

theorem encoded_events_refused :
    (∃ bytes, (InternalEvent.error none Sample.longDiagnostic).encode = .ok bytes ∧
      (bytes ++ bytes).length ≤ 8192 ∧ new.feedAll [bytes ++ bytes] = .error
        (internalEventError "pending internal event exceeds hard cap")) ∧
    (∃ bytes, (InternalEvent.exit none (some 65) true).encode = .ok bytes ∧
      new.feedAll [bytes] = .error malformed) ∧
    ∃ bytes, (InternalEvent.error (some 0) "").encode = .ok bytes ∧
      new.feedAll [bytes] = .error malformed := by
  refine ⟨?_, ⟨[2, 0, 0, 0, 4, 1, 0, 65, 1], by decide +kernel, by decide +kernel⟩,
    ⟨[3, 0, 0, 0, 5, 0, 0, 0, 0, 1], by decide +kernel, by decide +kernel⟩⟩
  have hutf8 : (utf8 Sample.longDiagnostic).length = 3000 := Sample.utf8_replicate 3000
  obtain ⟨bytes, henc, hlen⟩ := Sample.encode_diagnostic (show (utf8 Sample.longDiagnostic).length ≤
    _ by rw [hutf8]; decide)
  refine ⟨bytes, henc, by rw [length_append]; omega, ?_⟩
  have hfeed : new.feed (bytes ++ bytes) =
    .error (internalEventError "pending internal event exceeds hard cap") := by
    rw [feed, if_pos]
    rw [length_append, INTERNAL_HEADER_LEN, MAX_INTERNAL_PAYLOAD]
    omega
  rw [feedAll, hfeed]
  rfl

end InternalEventDecoder

end PocketVm.Guest
