import PocketVm.Wire

/-!
# Stream pumps

`pump.rs` and the `StreamPump` of `linux.rs`: PID 1 moves the workload's streams through bounded
buffers, with whatever the descriptors let it read and write at a time. An input pump counts down
the length the host announced, since the channel itself never ends.
-/

namespace PocketVm.Guest

open Wire Checked List

def MAX_PUMP_BUFFER : Nat := 64 * 1024

/-- A queue of bounded capacity: the bytes from `offset` on are still to be read. -/
structure PumpBuffer where
  bytes : Bytes
  offset : Nat
  capacity : Nat
  offset_le : offset ≤ bytes.length
  within : bytes.length ≤ capacity
  deriving DecidableEq

namespace PumpBuffer

def new (capacity : Nat) : PumpBuffer := ⟨[], 0, capacity, Nat.le_refl _, Nat.zero_le _⟩

def len (b : PumpBuffer) : Nat := b.bytes.length - b.offset

def isEmpty (b : PumpBuffer) : Bool := b.len = 0

def remainingCapacity (b : PumpBuffer) : Nat := b.capacity - b.len

def readable (b : PumpBuffer) : Bytes := b.bytes.drop b.offset

def compact (b : PumpBuffer) : PumpBuffer :=
  ⟨b.readable, 0, b.capacity, Nat.zero_le _, (drop_sublist ..).length_le.trans b.within⟩

/-- The bytes that have been read are dropped when the tail has no room for `count` more. -/
def compactFor (b : PumpBuffer) (count : Nat) : PumpBuffer :=
  if 0 < b.offset ∧ b.bytes.length + count > b.capacity then b.compact else b

theorem compactFor_room {b : PumpBuffer} {input : Bytes} {count : Nat}
    (h : count ≤ b.remainingCapacity) :
    ((b.compactFor count).bytes ++ input.take count).length ≤ (b.compactFor count).capacity := by
  have hwithin := b.within
  have htake : (input.take count).length ≤ count := length_take_le ..
  unfold remainingCapacity len at h
  rw [length_append]
  unfold compactFor
  split
  · have hlen : b.compact.bytes.length = b.bytes.length - b.offset := length_drop
    show _ ≤ b.capacity
    omega
  · omega

/-- `extend_from_slice`, where there is room. -/
def extend (b : PumpBuffer) (more : Bytes)
    (room : (b.bytes ++ more).length ≤ b.capacity) : PumpBuffer :=
  ⟨b.bytes ++ more, b.offset, b.capacity,
    b.offset_le.trans (sublist_append_left ..).length_le, room⟩

def push (b : PumpBuffer) (input : Bytes) : Nat × PumpBuffer :=
  let count := min input.length b.remainingCapacity
  if count = 0 then (0, b)
  else
    (count, (b.compactFor count).extend (input.take count) (compactFor_room (Nat.min_le_right ..)))

theorem offset_add_le (b : PumpBuffer) (count : Nat) :
    b.offset + min count b.len ≤ b.bytes.length := by
  have hoffset := b.offset_le
  unfold len
  omega

def consume (b : PumpBuffer) (count : Nat) : PumpBuffer :=
  if b.offset + min count b.len = b.bytes.length then .new b.capacity
  else ⟨b.bytes, b.offset + min count b.len, b.capacity, b.offset_add_le count, b.within⟩

variable {b : PumpBuffer}

theorem length_readable (b : PumpBuffer) : b.readable.length = b.len := length_drop

theorem isEmpty_iff : b.isEmpty = true ↔ b.readable = [] := by
  rw [← length_eq_zero_iff, length_readable]
  exact decide_eq_true_iff

theorem len_le_capacity (b : PumpBuffer) : b.len ≤ b.capacity := (Nat.sub_le ..).trans b.within

@[simp] theorem readable_compactFor (count : Nat) : (b.compactFor count).readable = b.readable := by
  unfold compactFor
  split <;> rfl

@[simp] theorem capacity_compactFor (count : Nat) : (b.compactFor count).capacity = b.capacity := by
  unfold compactFor
  split <;> rfl

theorem readable_extend {more : Bytes} (room : (b.bytes ++ more).length ≤ b.capacity) :
    (b.extend more room).readable = b.readable ++ more := drop_append_of_le_length b.offset_le

theorem push_eq (b : PumpBuffer) (input : Bytes) :
    (b.push input).1 = min input.length b.remainingCapacity ∧
    (b.push input).2.readable = b.readable ++ input.take (b.push input).1 ∧
      (b.push input).2.capacity = b.capacity := by
  unfold push
  dsimp only
  split
  · rename_i hzero
    exact ⟨hzero.symm, by simp, rfl⟩
  · exact ⟨rfl, (readable_extend _).trans (congrArg (· ++ _) (readable_compactFor _)),
      capacity_compactFor _⟩

theorem consume_eq (b : PumpBuffer) (count : Nat) :
    (b.consume count).readable = b.readable.drop count ∧
      (b.consume count).capacity = b.capacity := by
  have hoffset := b.offset_le
  unfold consume
  split
  · rename_i hall
    refine ⟨?_, rfl⟩
    have hend : b.bytes.length ≤ b.offset + count := by omega
    rw [readable, readable, drop_drop, drop_eq_nil_of_le hend]
    rfl
  · rename_i hall
    refine ⟨?_, rfl⟩
    unfold len at hall
    have hcount : min count b.len = count := by
      unfold len
      omega
    simp only [readable, drop_drop, hcount]

theorem readable_consume_len (b : PumpBuffer) : (b.consume b.len).readable = [] := by
  rw [(b.consume_eq _).1, ← length_readable, drop_length]

end PumpBuffer

def IO_CHUNK : Nat := 8192

/-- A failure of a pump: a contract error of the stage `stream-pump`, or an I/O error. -/
inductive PumpError where
  | contract (diagnostic : String)
  | io
  deriving DecidableEq

/-- `source` and `sink` say whether the pump still holds the descriptor. -/
structure StreamPump where
  name : String
  source : Bool
  sink : Bool
  buffer : PumpBuffer
  isOutput : Bool
  eioIsEof : Bool
  remainingInput : Option Nat
  deriving DecidableEq

namespace StreamPump

def new (name : String) (isOutput eioIsEof : Bool) : StreamPump :=
  ⟨name, true, true, .new MAX_PUMP_BUFFER, isOutput, eioIsEof, none⟩

def withInputLimit (p : StreamPump) (bytes : Nat) : StreamPump :=
  if bytes = 0 then { p with remainingInput := some bytes, source := false, sink := false }
  else { p with remainingInput := some bytes }

def wantsRead (p : StreamPump) : Bool :=
  p.source && decide (p.buffer.remainingCapacity > 0) && decide (p.remainingInput ≠ some 0)

def wantsWrite (p : StreamPump) : Bool := p.sink && !p.buffer.isEmpty

def closeSinkAfterEof (p : StreamPump) : StreamPump :=
  if p.source = false ∧ p.buffer.isEmpty then { p with sink := false } else p

def outputDrained (p : StreamPump) : Bool := !p.isOutput || (!p.source && p.buffer.isEmpty)

def closeInput (p : StreamPump) : StreamPump :=
  if p.isOutput then p
  else { p with source := false, buffer := p.buffer.consume p.buffer.len, sink := false }

def maximum (p : StreamPump) : Nat :=
  match p.remainingInput with
  | none => min p.buffer.remainingCapacity IO_CHUNK
  | some budget => min (min p.buffer.remainingCapacity IO_CHUNK) budget

end StreamPump

/-- What a read of the source comes to. A read that yields bytes yields at most `extra + 1` of them;
at the end of the source there are none to yield. -/
inductive ReadResult where
  | upTo (extra : Nat)
  | wouldBlock
  | interrupted
  | eio
  | failed
  deriving DecidableEq

inductive WriteResult where
  | upTo (extra : Nat)
  | zero
  | wouldBlock
  | interrupted
  | brokenPipe
  | failed
  deriving DecidableEq

/-- A pump between the bytes its source has still to give and those its sink has been given. -/
structure Piping where
  pump : StreamPump
  unread : Bytes
  delivered : Bytes
  deriving DecidableEq

namespace Piping

def closeSource (p : Piping) : Piping := { p with pump := { p.pump with source := false } }

/-- Why the loop of `read_available` ends before it reads. -/
def readEnds (p : Piping) : Option Piping :=
  if p.pump.remainingInput = some 0 then some p.closeSource
  else if p.pump.buffer.remainingCapacity = 0 then some p
  else if p.pump.source = false then some p
  else none

def accept (p : Piping) (chunk : Bytes) : Except PumpError (Piping × Bool) :=
  let (pushed, buffer) := p.pump.buffer.push chunk
  if pushed ≠ chunk.length then .error (.contract "bounded stream buffer accounting failed")
  else
    let p := { p with pump := { p.pump with buffer }, unread := p.unread.drop chunk.length }
    match p.pump.remainingInput with
    | none => .ok (p, true)
    | some budget =>
      let p := { p with pump := { p.pump with remainingInput := some (budget - chunk.length) } }
      if budget - chunk.length = 0 then .ok (p.closeSource, false) else .ok (p, true)

def endOfSource (p : Piping) : Except PumpError (Piping × Bool) :=
  match p.pump.remainingInput with
  | none => .ok (p.closeSource, false)
  | some budget =>
    if budget > 0 then
      .error (.contract (p.pump.name ++ " ended " ++ toString budget ++ " bytes before the announced length"))
    else .ok (p.closeSource, false)

def readTurn (p : Piping) : ReadResult → Except PumpError (Piping × Bool)
  | .upTo extra =>
    let chunk := p.unread.take (min (extra + 1) p.pump.maximum)
    if chunk = [] then p.endOfSource else p.accept chunk
  | .wouldBlock => .ok (p, false)
  | .interrupted => .ok (p, true)
  | .eio => if p.pump.eioIsEof then .ok (p.closeSource, false) else .error .io
  | .failed => .error .io

/-- The loop of `read_available`. Beyond the given results the source would block. -/
def readLoop (p : Piping) (results : List ReadResult) : Except PumpError Piping :=
  match p.readEnds with
  | some p => .ok p
  | none =>
    match results with
    | [] => .ok p
    | result :: results => do
      let (p, more) ← p.readTurn result
      if more then readLoop p results else return p

/-- What follows the loop of `read_available`. -/
def afterRead (p : Piping) : Piping :=
  let p := if p.pump.isOutput = false ∧ p.pump.sink = false then
      { p with pump := { p.pump with buffer := p.pump.buffer.consume p.pump.buffer.len } }
    else p
  { p with pump := p.pump.closeSinkAfterEof }

def readAvailable (p : Piping) (results : List ReadResult) : Except PumpError Piping := do
  let p ← p.readLoop results
  return p.afterRead

def writeTurn (p : Piping) : WriteResult → Except PumpError (Piping × Bool)
  | .upTo extra =>
    let count := min (extra + 1) p.pump.buffer.len
    .ok ({ p with pump := { p.pump with buffer := p.pump.buffer.consume count },
                  delivered := p.delivered ++ p.pump.buffer.readable.take count }, true)
  | .zero => .error (.contract (p.pump.name ++ " sink returned a zero-length write"))
  | .wouldBlock => .ok (p, false)
  | .interrupted => .ok (p, true)
  | .brokenPipe =>
    if p.pump.isOutput then .error .io
    else
      .ok ({ p with pump := { p.pump with sink := false, buffer := p.pump.buffer.consume p.pump.buffer.len } }, false)
  | .failed => .error .io

/-- The loop of `write_available`. Beyond the given results the sink would block. -/
def writeLoop (p : Piping) (results : List WriteResult) : Except PumpError Piping :=
  if p.pump.buffer.isEmpty then .ok p
  else if p.pump.sink = false then
    .error (.contract (p.pump.name ++ " sink closed with buffered bytes"))
  else
    match results with
    | [] => .ok p
    | result :: results => do
      let (p, more) ← p.writeTurn result
      if more then writeLoop p results else return p

def writeAvailable (p : Piping) (results : List WriteResult) : Except PumpError Piping := do
  let p ← p.writeLoop results
  return { p with pump := p.pump.closeSinkAfterEof }

end Piping

inductive PumpStep where
  | reads (results : List ReadResult)
  | writes (results : List WriteResult)
  | closesInput
  deriving DecidableEq

namespace Piping

def step (p : Piping) : PumpStep → Except PumpError Piping
  | .reads results => p.readAvailable results
  | .writes results => p.writeAvailable results
  | .closesInput => .ok { p with pump := p.pump.closeInput }

def run (p : Piping) (steps : List PumpStep) : Except PumpError Piping := steps.foldlM step p

def input (name : String) (announced : Nat) (source : Bytes) : Piping :=
  ⟨(StreamPump.new name false false).withInputLimit announced, source, []⟩

def output (name : String) (eioIsEof : Bool) (source : Bytes) :
    Piping := ⟨.new name true eioIsEof, source, []⟩

end Piping

end PocketVm.Guest
