import PocketVm.Guest.ControlStream
import PocketVm.Guest.InternalEvents
import PocketVm.Guest.Pump
import PocketVm.Protocol.Workload

/-!
# The event loop of PID 1

`namespace_event_loop` and the part of `namespace_supervisor` that it listens to. The supervisor
writes its events to a pipe; PID 1 polls that pipe, the host's control stream and the descriptors of
its pumps, and does what each of them has ready, until the workload has ended and its outputs are
written.
-/

namespace PocketVm.Guest

open Wire Protocol Checked

structure WorkloadStatus where
  code : Option UInt8
  signal : Option UInt16
  deriving DecidableEq

def RESERVED_SERIAL_LINES : Nat := 4

/-- The longest beginning of a text whose bytes are at most `limit`. -/
def takeWithin (limit : Nat) : List Char → List Char
  | [] => []
  | c :: chars => if c.utf8Size ≤ limit then c :: takeWithin (limit - c.utf8Size) chars else []

def boundedInternalDiagnostic (value : String) : String :=
  if (utf8 value).length ≤ 4000 then value else String.ofList (takeWithin 4000 value.toList)

/-- What `spawn_console_shell` comes to for one console: it runs, its child reports why it could not
be executed, or it cannot be set up at all. `read_exec_result` takes no report but an error. -/
inductive ConsoleStart where
  | started
  | reported (errno : Option Int32) (diagnostic : String)
  | failed (errno : Option Int32) (error : String)
  deriving DecidableEq

def consoleEvent (index : Nat) : ConsoleStart → Option InternalEvent
  | .started => none
  | .reported errno diagnostic => some (.error errno diagnostic)
  | .failed errno error => some (.error errno
      (boundedInternalDiagnostic ("console line " ++ toString (index + RESERVED_SERIAL_LINES) ++
        ": " ++ error)))

def consoleEvents (consoles : List ConsoleStart) : List InternalEvent :=
  (consoles.zipIdx.filterMap fun (console, index) => consoleEvent index console)

inductive HostMessage where
  | signal (signal : UInt16)
  | resize (rows columns : UInt16)
  | shutdown (graceMs : UInt32)
  | other (kind : MessageKind)
  deriving DecidableEq

inductive LoopError where
  | contract (e : InitError)
  | child (errno : Option Int32) (diagnostic : String)
  | protocol (e : ProtocolError)
  | pump (e : PumpError)
  | send
  | io (stage : String)
  | syscall (stage : String)
  deriving DecidableEq

structure PumpSet where
  terminal : Bool
  streams : List Piping
  deriving DecidableEq

namespace PumpSet

def closeInput (pumps : PumpSet) : PumpSet :=
  { pumps with streams := pumps.streams.map fun p => { p with pump := p.pump.closeInput } }

def outputsDrained (pumps : PumpSet) : Bool := pumps.streams.all fun p => p.pump.outputDrained

def step (pumps : PumpSet) (index : Nat) (s : PumpStep) : Except LoopError PumpSet :=
  match pumps.streams[index]? with
  | none => .ok pumps
  | some p => do
    let p ← (p.step s).mapError .pump
    return { pumps with streams := pumps.streams.set index p }

theorem step_ends (pumps : PumpSet) (index : Nat) (s : PumpStep) :
    Ends (fun e => ∃ e', e = .pump e') (fun pumps' => pumps'.terminal = pumps.terminal)
      (pumps.step index s) := by
  unfold step
  split
  · exact rfl
  · exact .bind (.mapError (.any (fun e => ⟨e, rfl⟩) fun _ => trivial)) fun _ _ => rfl

end PumpSet

inductive LastRead where
  | wouldBlock | eof | failed
  deriving DecidableEq

/-- A descriptor that `poll` reports, with what it then has to give. -/
inductive Ready where
  | control (reads : List Bytes) (last : LastRead)
  | namespaceEvents (reads : List Bytes) (last : LastRead)
  | pump (index : Nat) (s : PumpStep)
  deriving DecidableEq

/-- One pass of the loop, as the kernel answers it: the time, whether `poll` succeeds, what it
reports and with which of them as an invalid descriptor, and whether signals, the resize call and
the write of READY go through. -/
structure PollTurn where
  now : Nat
  polls : Bool
  ready : List (Ready × Bool)
  kills : Bool
  resizes : Bool
  sends : Bool
  deriving DecidableEq

def OUTPUT_DRAIN_TIMEOUT : Nat := 5000

/-- `heard` records the control bytes that were read. -/
structure LoopState where
  control : ControlFrameDecoder
  events : InternalEventDecoder
  workloadPid : Option Int32
  outcome : Option (WorkloadStatus × Bool)
  drainDeadline : Option Nat
  shutdownDeadline : Option Nat
  controlEof : Bool
  eventEof : Bool
  pumps : PumpSet
  session : WorkloadSession
  writer : UInt64
  heard : Bytes
  deriving DecidableEq

def loopError (stage diagnostic : String) : LoopError := .contract ⟨stage, diagnostic⟩

def drainTimeout : LoopError := loopError "stream-drain" "output streams did not drain within the fixed shutdown bound"
def forcedShutdown :
    LoopError := loopError "forced-shutdown" "nested PID namespace did not drain within SHUTDOWN grace_ms"
def invalidDescriptor : LoopError := loopError "runtime-poll" "poll reported an invalid descriptor"
def hostClosed : LoopError := loopError "control-loop" "host control stream closed before workload exit"
def supervisorClosed : LoopError :=
  loopError "namespace-events" "namespace supervisor closed its event stream without EXIT"
def partialFrame : LoopError := loopError "control-loop" "control stream ended with a partial frame"

namespace LoopState

def start (pumps : PumpSet) : LoopState :=
  ⟨.new 1, .new, none, none, none, none, false, false, pumps, ⟨.awaitReady, 1, 1⟩, 1, []⟩

section
variable (decodeWorkloadMessage : RawFrame → Except ProtocolError HostMessage)

def onMessage (turn : PollTurn) (s : LoopState) : HostMessage → Except LoopError LoopState
  | .signal _ => do
    stop (turn.kills = false) (.syscall "signal-forward")
    return s
  | .resize _ _ => do
    stop (s.pumps.terminal = false) (loopError "terminal-resize" "RESIZE is invalid for a nonterminal workload")
    stop (turn.resizes = false) (.syscall "terminal-resize")
    stop (turn.kills = false) (.syscall "signal-forward")
    return s
  | .shutdown graceMs => do
    stop (turn.kills = false) (.syscall "signal-forward")
    return { s with pumps := s.pumps.closeInput, shutdownDeadline := some (turn.now + graceMs.toNat) }
  | .other kind =>
    .error (loopError "control-loop" ("unsupported runtime message kind " ++ toString kind.toU16.toNat))

def onFrame (turn : PollTurn) (s : LoopState) (frame : RawFrame) : Except LoopError LoopState := do
  let message ← (decodeWorkloadMessage frame).mapError .protocol
  let session ← (s.session.accept .hostToGuest frame.header.kind frame.header.sequence).mapError .protocol
  let _ ← require s.workloadPid (loopError "control-loop" "runtime control message arrived before READY")
  onMessage turn { s with session } message

def readControl (d : ControlFrameDecoder) :
    List Bytes → Except ProtocolError (List RawFrame × ControlFrameDecoder)
  | [] => .ok ([], d)
  | bytes :: reads => do
    let (frames, d) ← d.feed bytes
    let (more, d) ← readControl d reads
    return (frames ++ more, d)

def onControl (turn : PollTurn) (s : LoopState) (reads : List Bytes) (last : LastRead) :
    Except LoopError LoopState := do
  let (frames, control) ← (readControl s.control reads).mapError .protocol
  stop (last = .failed) (.io "control-loop")
  frames.foldlM (onFrame decodeWorkloadMessage turn)
    { s with control, controlEof := s.controlEof || last = .eof, heard := s.heard ++ reads.flatten }

def sendReady (turn : PollTurn) (s : LoopState) : Except LoopError LoopState := do
  let session ← (s.session.accept .guestToHost .ready s.writer).mapError .protocol
  stop (turn.sends = false) .send
  return { s with session, writer := s.writer + 1 }

def onEvent (turn : PollTurn) (s : LoopState) : InternalEvent → Except LoopError LoopState
  | .ready outerPid => do
    stop (s.workloadPid ≠ none ∨ outerPid ≤ 0)
      (loopError "namespace-events" "duplicate or invalid READY event")
    sendReady turn { s with workloadPid := some outerPid }
  | .exit code signal namespaceClean => do
    stop (s.workloadPid = none ∨ s.outcome ≠ none)
      (loopError "namespace-events" "EXIT arrived before READY or more than once")
    return { s with outcome := some (⟨code, signal⟩, namespaceClean), pumps := s.pumps.closeInput,
                    drainDeadline := some (turn.now + OUTPUT_DRAIN_TIMEOUT) }
  | .error errno diagnostic => .error (.child errno diagnostic)

def onEvents (turn : PollTurn) (s : LoopState) (reads : List Bytes) (last : LastRead) :
    Except LoopError LoopState := do
  let (found, events) ← (s.events.feedAll reads).mapError .contract
  stop (last = .failed) (.io "namespace-events")
  stop (last = .eof ∧ events.pending ≠ [])
    (loopError "namespace-events" "namespace event stream ended with a partial record")
  found.foldlM (onEvent turn) { s with events, eventEof := s.eventEof || last = .eof }

def onTarget (turn : PollTurn) (s : LoopState) : Ready → Except LoopError LoopState
  | .control reads last => onControl decodeWorkloadMessage turn s reads last
  | .namespaceEvents reads last => onEvents turn s reads last
  | .pump index step => do
    let pumps ← s.pumps.step index step
    return { s with pumps }

def onReady (turn : PollTurn) (s : LoopState) (ready : Ready × Bool) :
    Except LoopError LoopState := do
  let s ← onTarget decodeWorkloadMessage turn s ready.1
  stop (ready.2 = true) invalidDescriptor
  return s

def elapsed (deadline : Option Nat) (now : Nat) : Bool := deadline.any (· ≤ now)

def pass (s : LoopState) (turn : PollTurn) : Except LoopError LoopState := do
  stop (elapsed s.drainDeadline turn.now = true) drainTimeout
  stop (s.outcome = none ∧ elapsed s.shutdownDeadline turn.now = true) forcedShutdown
  stop (turn.polls = false) (.syscall "runtime-poll")
  let s ← turn.ready.foldlM (onReady decodeWorkloadMessage turn) s
  stop (s.controlEof = true ∧ s.outcome = none) hostClosed
  stop (s.eventEof = true ∧ s.outcome = none) supervisorClosed
  return s

def finished (s : LoopState) : Bool := s.outcome.isSome && s.pumps.outputsDrained

def finish (s : LoopState) : Except LoopError (WorkloadStatus × Bool) := do
  stop (s.control.pending ≠ []) partialFrame
  require s.outcome (loopError "namespace-events" "missing workload outcome")

/-- The passes up to the one after which the loop is left. -/
def settle (s : LoopState) : List PollTurn → Except LoopError LoopState
  | [] => .ok s
  | turn :: turns =>
    if s.finished then .ok s
    else do
      let s ← s.pass decodeWorkloadMessage turn
      settle s turns

/-- The result of the loop, unless it goes on after the given passes. -/
def namespaceEventLoop (s : LoopState) (turns : List PollTurn) :
    Option (Except LoopError (WorkloadStatus × Bool)) :=
  match s.settle decodeWorkloadMessage turns with
  | .error e => some (.error e)
  | .ok s => if s.finished then some s.finish else none

end

end LoopState

/-! ### Runs of the event loop -/

/-- Errors that are no one's report: of the kernel, of the streams, of the clock, and of a host that
hangs up. -/
def LoopError.Fault : LoopError → Prop
  | .contract e => .contract e ∈ [drainTimeout, forcedShutdown, invalidDescriptor, hostClosed]
  | .child _ _ => False
  | .protocol _ => False
  | .pump _ => True
  | .send => True
  | .io _ => True
  | .syscall _ => True

def HostMessage.Runtime (terminal : Bool) : HostMessage → Prop
  | .signal _ => True
  | .resize _ _ => terminal = true
  | .shutdown _ => True
  | .other _ => False

/-- Frames of a host that keeps to its session. -/
def HostFrames (decodeWorkloadMessage : RawFrame → Except ProtocolError HostMessage)
    (terminal : Bool) :
    WorkloadState → List RawFrame → Prop
  | _, [] => True
  | state, f :: frames => (∃ message, decodeWorkloadMessage f = .ok message ∧ message.Runtime terminal) ∧
      ∃ state', state.next .hostToGuest f.header.kind = some state' ∧
        HostFrames decodeWorkloadMessage terminal state' frames

def polled (turns : List PollTurn) : List Ready := turns.flatMap fun turn => turn.ready.map Prod.fst

/-- The reads of the event pipe are the next pieces of what the supervisor wrote, and the pipe ends
behind all of it. -/
def Tells (written told : Bytes) : List Ready → Prop
  | [] => True
  | .control _ _ :: items => Tells written told items
  | .namespaceEvents reads last :: items => told ++ reads.flatten <+: written ∧
      (last = .eof → told ++ reads.flatten = written) ∧ Tells written (told ++ reads.flatten) items
  | .pump _ _ :: items => Tells written told items

/-- The reads of the control stream are the next pieces of what the host wrote, and the host has
written nothing before it is told READY, which `opening` bytes of events bring about. -/
def Hears (sent : Bytes) (opening : Nat) (told : Nat) (heard : Bytes) : List Ready → Prop
  | [] => True
  | .control reads _ :: items => heard ++ reads.flatten <+: sent ∧ (∀ bytes ∈ reads, bytes.length ≤ IO_CHUNK) ∧
      (reads.flatten ≠ [] → opening ≤ told) ∧ Hears sent opening told (heard ++ reads.flatten) items
  | .namespaceEvents reads _ :: items =>
    Hears sent opening (told + reads.flatten.length) heard items
  | .pump _ _ :: items => Hears sent opening told heard items

namespace LoopState

section
variable {decodeWorkloadMessage : RawFrame → Except ProtocolError HostMessage}
  {I : LoopState → List Ready → Prop} {E : LoopError → Prop} {s : LoopState}

/-- An item keeps `I`, with what is still to come, or ends the loop with an error in `E`. -/
structure Keeps (decodeWorkloadMessage : RawFrame → Except ProtocolError HostMessage)
    (I : LoopState → List Ready → Prop) (E : LoopError → Prop) : Prop where
  item : ∀ turn s item items, I s (item.1 :: items) →
    Ends E (I · items) (onReady decodeWorkloadMessage turn s item)
  fault : ∀ e, LoopError.Fault e → E e
  closed : ∀ s items, I s items → s.eventEof = true → s.outcome = none → E supervisorClosed

theorem fault_drainTimeout :
    drainTimeout.Fault := by simp [LoopError.Fault, drainTimeout, loopError]

theorem fault_forcedShutdown :
    forcedShutdown.Fault := by simp [LoopError.Fault, forcedShutdown, loopError]

theorem fault_invalidDescriptor :
    invalidDescriptor.Fault := by simp [LoopError.Fault, invalidDescriptor, loopError]

theorem fault_hostClosed : hostClosed.Fault := by simp [LoopError.Fault, hostClosed, loopError]

variable (h : Keeps decodeWorkloadMessage I E)
include h

theorem Keeps.pass (turn : PollTurn) {rest : List Ready}
    (hs : I s (turn.ready.map Prod.fst ++ rest)) :
    Ends E (I · rest) (s.pass decodeWorkloadMessage turn) := by
  have hitems : Ends E (I · rest) (turn.ready.foldlM (onReady decodeWorkloadMessage turn) s) :=
    .foldlM (fun ready s => I s (ready.map Prod.fst ++ rest)) (fun item ready s =>
      h.item turn s item _) hs
  refine .stop (fun _ => h.fault _ fault_drainTimeout) fun _ => ?_
  refine .stop (fun _ => h.fault _ fault_forcedShutdown) fun _ => ?_
  refine .stop (fun _ => h.fault _ trivial) fun _ => hitems.bind fun q hq => ?_
  exact .stop (fun _ => h.fault _ fault_hostClosed) fun _ =>
    .stop (fun hc => h.closed q rest hq hc.1 hc.2) fun _ => hq

theorem Keeps.settle (turns : List PollTurn) (hs : I s (polled turns)) :
    Ends E (fun s' => ∃ items, I s' items) (s.settle decodeWorkloadMessage turns) := by
  induction turns generalizing s with
  | nil => exact ⟨[], hs⟩
  | cons turn turns ih =>
    rw [LoopState.settle]
    split
    · exact ⟨_, hs⟩
    · exact (h.pass turn (show I s (turn.ready.map Prod.fst ++ polled turns) from hs)).bind fun _ =>
        ih

end

variable {decodeWorkloadMessage : RawFrame → Except ProtocolError HostMessage} {s s' : LoopState}
  {turn : PollTurn} {written : List (InternalEvent × Bytes)} {told : Bytes}

theorem outcome_onMessage {message : HostMessage} (h : onMessage turn s message = .ok s') :
    s'.outcome = s.outcome ∧ s'.events = s.events := by
  cases message <;> simp only [onMessage, bind_ok, stop_ok, pure_ok] at h <;> grind

variable {frames : List RawFrame} {errno : Option Int32} {diagnostic : String} {bytes : Bytes}
variable {rest : List (InternalEvent × Bytes)}

theorem outcome_onFrames (h : frames.foldlM (onFrame decodeWorkloadMessage turn) s = .ok s') :
    s'.outcome = s.outcome ∧ s'.events = s.events := by
  refine foldlM_ok (fun _ q => q.outcome = s.outcome ∧ q.events = s.events) h ⟨rfl, rfl⟩ ?_
  rintro - frame q q' ⟨houtcome, hevents⟩ hframe
  simp only [onFrame, bind_ok] at hframe
  obtain ⟨message, -, session, -, -, -, hmessage⟩ := hframe
  obtain ⟨houtcome', hevents'⟩ := outcome_onMessage hmessage
  exact ⟨houtcome'.trans houtcome, hevents'.trans hevents⟩

theorem outcome_onControl {reads : List Bytes} {last : LastRead}
    (h : onControl decodeWorkloadMessage turn s reads last = .ok s') :
    s'.outcome = s.outcome ∧ s'.events = s.events := by
  simp only [onControl, bind_ok] at h
  obtain ⟨_, -, -, -, hframes⟩ := h
  have hkept := outcome_onFrames hframes
  exact hkept

/-- Nothing of the supervisor's first record has been taken yet. -/
structure Untold (written : List (InternalEvent × Bytes)) (told : Bytes)
    (s : LoopState) : Prop where
  outcome : s.outcome = none
  pending : s.events.pending = told
  short : ShortOf told.length written

/-- An error of the supervisor is the end of the loop, whatever comes before it. -/
theorem Untold.onReady (hwritten : Recorded ((.error errno diagnostic, bytes) :: rest))
    (h : Untold ((.error errno diagnostic, bytes) :: rest) told s) {item : Ready × Bool}
    {items : List Ready}
    (htells : Tells (recordBytes ((.error errno diagnostic, bytes) :: rest)) told (item.1 :: items))
    (hstep : onReady decodeWorkloadMessage turn s item = .ok s') :
    ∃ told', Untold ((.error errno diagnostic, bytes) :: rest) told' s' ∧
      Tells (recordBytes ((.error errno diagnostic, bytes) :: rest)) told' items := by
  obtain ⟨item, nval⟩ := item
  simp only [LoopState.onReady, bind_ok, pure_ok] at hstep
  obtain ⟨q, hitem, -, -, rfl⟩ := hstep
  cases item with
  | control reads last =>
    obtain ⟨houtcome, hevents⟩ := outcome_onControl hitem
    exact ⟨told, ⟨houtcome.trans h.outcome, by rw [hevents, h.pending], h.short⟩, htells⟩
  | pump index step =>
    simp only [onTarget, bind_ok, pure_ok] at hitem
    obtain ⟨pumps, -, rfl⟩ := hitem
    exact ⟨told, ⟨h.outcome, h.pending, h.short⟩, htells⟩
  | namespaceEvents reads last =>
    obtain ⟨⟨unread, hpiece⟩, -, hitems⟩ := htells
    simp only [onTarget, onEvents, bind_ok, mapError_ok] at hitem
    obtain ⟨⟨found, events⟩, hfeed, -, -, -, -, hfound⟩ := hitem
    have hshort := h.short
    rw [← h.pending] at hpiece hshort
    rcases InternalEventDecoder.feedAll_cases hwritten hshort hpiece with
      ⟨taken, later, d', hsplit, hbytes, hlater, hok, -⟩ | ⟨e, herror, -⟩
    · obtain ⟨rfl, rfl⟩ := Prod.mk.inj (Except.ok.inj (hok.symm.trans hfeed))
      cases taken with
      | nil =>
        cases hfound
        have hpending : s.events.pending ++ reads.flatten = d'.pending := by
          rw [hbytes]
          rfl
        subst hsplit
        refine ⟨told ++ reads.flatten, ⟨h.outcome, ?_, ?_⟩, hitems⟩
        · rw [← h.pending, hpending]
        · rw [← h.pending, hpending]
          exact hlater
      | cons w taken =>
        -- the error is among the records that were found
        obtain ⟨rfl, -⟩ := List.cons.inj hsplit
        simp only [List.map_cons, List.foldlM_cons, bind_ok] at hfound
        obtain ⟨_, herror, -⟩ := hfound
        cases herror
    · cases herror.symm.trans hfeed

theorem Untold.keeps
    (hwritten : Recorded ((.error errno diagnostic, bytes) :: rest)) :
    Keeps decodeWorkloadMessage (fun s items => ∃ told,
      Untold ((.error errno diagnostic, bytes) :: rest) told s ∧
      Tells (recordBytes ((.error errno diagnostic, bytes) :: rest)) told items) fun _ => True where
  item := by
    rintro turn s item items ⟨told, h, htells⟩
    cases hstep : LoopState.onReady decodeWorkloadMessage turn s item with
    | error e => exact trivial
    | ok s' => exact h.onReady hwritten htells hstep
  fault := fun _ _ => trivial
  closed := fun _ _ _ _ _ => trivial

theorem settle_untold
    (hwritten : Recorded ((.error errno diagnostic, bytes) :: rest)) {pumps : PumpSet}
    {turns : List PollTurn}
    (htells : Tells (recordBytes ((.error errno diagnostic, bytes) :: rest)) [] (polled turns))
    (h : (start pumps).settle decodeWorkloadMessage turns = .ok s) : s.outcome = none := by
  have hstart : Untold ((.error errno diagnostic, bytes) :: rest) [] (start pumps) := by
    refine ⟨rfl, rfl, ?_⟩
    obtain ⟨tag, payload, hbytes, -⟩ := InternalEvent.encode_ok (hwritten _ (List.mem_cons_self ..))
    rw [show bytes = _ from hbytes]
    exact Nat.succ_pos _
  have hkeeps : Keeps decodeWorkloadMessage _ _ := Untold.keeps hwritten
  obtain ⟨items, told, huntold, -⟩ :=
    (hkeeps.settle turns (s := start pumps) ⟨[], hstart, htells⟩).ok h
  exact huntold.outcome

open ControlFrameDecoder in
theorem readControl_completed {returned : List RawFrame} {heard : Bytes} {d : ControlFrameDecoder}
    {reads : List Bytes} (hsent : ∀ f ∈ frames, Sendable f) (hconsecutive : Consecutive 1 frames)
    (hsize : ∀ bytes ∈ reads, bytes.length ≤ IO_CHUNK) (hdone : Completed 1 frames heard returned d)
    (h : heard ++ reads.flatten <+: streamOf frames) :
    ∃ taken d', readControl d reads = .ok (taken, d') ∧
      Completed 1 frames (heard ++ reads.flatten) (returned ++ taken) d' := by
  induction reads generalizing d heard returned with
  | nil => exact ⟨[], d, rfl, by simpa using hdone⟩
  | cons bytes reads ih =>
    obtain ⟨unread, hstream⟩ := h
    have hfirst : heard ++ bytes ++ (reads.flatten ++ unread) = streamOf (frames ++ []) := by
      rw [List.append_nil, ← hstream]
      simp
    have hparted : Parted 1 frames [] := ⟨hconsecutive, nofun⟩
    rcases feed_completed (by simpa using hsent) hparted (hsize bytes (List.mem_cons_self ..))
      (by rwa [List.append_nil]) hfirst with ⟨taken, d₁, hfeed, hnow⟩ | ⟨_, _, hbad, -⟩
    · rw [List.append_nil] at hnow
      obtain ⟨more, d', hrest, hcompleted⟩ :=
        ih (fun b hb => hsize b (List.mem_cons_of_mem _ hb)) hnow
        ⟨unread, by rw [← hstream]; simp⟩
      refine ⟨taken ++ more, d', ?_, by simpa using hcompleted⟩
      rw [readControl, hfeed]
      simp only [bind, Except.bind]
      rw [hrest]
      rfl
    · cases hbad

structure SameBut (s s' : LoopState) : Prop where
  control : s'.control = s.control
  events : s'.events = s.events
  workloadPid : s'.workloadPid = s.workloadPid
  outcome : s'.outcome = s.outcome
  eventEof : s'.eventEof = s.eventEof
  terminal : s'.pumps.terminal = s.pumps.terminal
  writer : s'.writer = s.writer
  heard : s'.heard = s.heard

theorem SameBut.refl (s : LoopState) : SameBut s s := ⟨rfl, rfl, rfl, rfl, rfl, rfl, rfl, rfl⟩

theorem SameBut.trans {s₁ s₂ s₃ : LoopState} (h : SameBut s₁ s₂) (h' : SameBut s₂ s₃) :
    SameBut s₁ s₃ :=
  ⟨h'.control.trans h.control, h'.events.trans h.events, h'.workloadPid.trans h.workloadPid,
    h'.outcome.trans h.outcome, h'.eventEof.trans h.eventEof, h'.terminal.trans h.terminal,
      h'.writer.trans h.writer, h'.heard.trans h.heard⟩

theorem onMessage_runtime (turn : PollTurn) {message : HostMessage}
    (h : message.Runtime s.pumps.terminal) :
    Ends LoopError.Fault (fun s' => SameBut s s' ∧ s'.session = s.session)
      (onMessage turn s message) := by
  cases message with
  | signal n => exact .stop (fun _ => trivial) fun _ => ⟨.refl s, rfl⟩
  | resize rows columns =>
    have hterminal : ¬s.pumps.terminal = false := by simp [show s.pumps.terminal = true from h]
    exact .stop (fun hfalse => absurd hfalse hterminal) fun _ => .stop (fun _ => trivial) fun _ =>
      .stop (fun _ => trivial) fun _ => ⟨.refl s, rfl⟩
  | shutdown graceMs =>
    exact .stop (fun _ => trivial) fun _ => ⟨⟨rfl, rfl, rfl, rfl, rfl, rfl, rfl, rfl⟩, rfl⟩
  | other kind => cases h

theorem onFrames_runtime (turn : PollTurn) {later : List RawFrame} {state : WorkloadState}
    {sequence : UInt64}
    {pid : Int32} (hsent : ∀ f ∈ frames, Sendable f) (hconsecutive : Consecutive sequence frames)
    (hframes : HostFrames decodeWorkloadMessage s.pumps.terminal state (frames ++ later))
    (hsession : s.session = ⟨state, sequence, 2⟩) (hpid : s.workloadPid = some pid) :
    Ends LoopError.Fault (fun s' => SameBut s s' ∧
      ∃ state', s'.session = ⟨state', sequence + UInt64.ofNat frames.length, 2⟩ ∧
        HostFrames decodeWorkloadMessage s.pumps.terminal state' later)
      (frames.foldlM (onFrame decodeWorkloadMessage turn) s) := by
  induction frames generalizing s state sequence with
  | nil => exact ⟨.refl s, state, by rw [hsession]; simp, hframes⟩
  | cons f frames ih =>
    obtain ⟨⟨message, hdecode, hruntime⟩, state', hnext, hframes'⟩ := hframes
    obtain ⟨hsequence, hconsecutive'⟩ := hconsecutive
    have haccept : s.session.accept .hostToGuest f.header.kind f.header.sequence = .ok ⟨state',
      sequence + 1, 2⟩ := by
      rw [WorkloadSession.accept_ok]
      refine ⟨by rw [hsession, hsequence]; rfl, (hsent f (List.mem_cons_self ..)).space, state', ?_, ?_⟩
      · rw [hsession]
        exact hnext
      · rw [hsession, hsequence]
        rfl
    have hframe : onFrame decodeWorkloadMessage turn s f =
      onMessage turn { s with session := ⟨state', sequence + 1, 2⟩ } message := by
      unfold onFrame
      rw [hdecode, haccept, hpid]
      rfl
    rw [List.foldlM_cons, hframe]
    refine (onMessage_runtime turn (s := { s with session := ⟨state', sequence + 1, 2⟩ }) hruntime).bind fun q hq => ?_
    obtain ⟨hsame, hsession'⟩ := hq
    have hsame : SameBut s q := ⟨hsame.control, hsame.events, hsame.workloadPid, hsame.outcome,
      hsame.eventEof, hsame.terminal, hsame.writer, hsame.heard⟩
    rw [← hsame.terminal] at hframes'
    refine (ih (fun g hg => hsent g (List.mem_cons_of_mem _ hg)) hconsecutive' hframes' hsession'
      (hsame.workloadPid.trans hpid)).mono fun s' hs' => ?_
    obtain ⟨hsame', state₂, hsession₂, hframes₂⟩ := hs'
    refine ⟨hsame.trans hsame', state₂, ?_, hsame.terminal ▸ hframes₂⟩
    rw [hsession₂, add_ofNat_succ]
    rfl

end LoopState

end PocketVm.Guest
