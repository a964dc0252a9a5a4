import PocketVm.Guest.EventLoop

/-!
# How the event loop ends

The runs of the loop over a supervisor whose workload was executed and a host that follows the
protocol, with the bytes of both in any pieces at any time. Apart from failures of the kernel and of
the streams, such a run ends in the workload's status, unless a console could not be started or the
loop is left while a control frame is cut.
-/

namespace PocketVm.Guest

open Wire Protocol Checked List

/-! ### A workload that is executed and ends -/

/-- What the supervisor writes and the host sends while the loop makes its passes: the supervisor's
records, and frames of a host that keeps to its session and is told READY before it sends the first. -/
structure Course (decodeWorkloadMessage : RawFrame → Except ProtocolError HostMessage)
    (consoles : List ConsoleStart) (pumps : PumpSet) (turns : List PollTurn) where
  pid : Int32
  status : WorkloadStatus
  consoleRecords : List (InternalEvent × Bytes)
  readyBytes : Bytes
  exitBytes : Bytes
  frames : List RawFrame
  pid_pos : 0 < pid
  canonical : (InternalEvent.exit status.code status.signal true).Canonical
  console_events : consoleRecords.map Prod.fst = consoleEvents consoles
  recorded : Recorded (consoleRecords ++ [(.ready pid, readyBytes),
    (.exit status.code status.signal true, exitBytes)])
  sendable : ∀ f ∈ frames, Sendable f
  consecutive : Consecutive 1 frames
  runtime : HostFrames decodeWorkloadMessage pumps.terminal .running frames
  tells : Tells (recordBytes (consoleRecords ++ [(.ready pid, readyBytes), (.exit status.code status.signal true, exitBytes)])) []
    (polled turns)
  hears : Hears (streamOf frames) ((recordBytes consoleRecords).length + readyBytes.length) 0 []
    (polled turns)

namespace Course

variable {decodeWorkloadMessage : RawFrame → Except ProtocolError HostMessage}
  {consoles : List ConsoleStart}
  {pumps : PumpSet} {turns : List PollTurn} (c : Course decodeWorkloadMessage consoles pumps turns)

def workloadRecords : List (InternalEvent × Bytes) :=
  [(.ready c.pid, c.readyBytes), (.exit c.status.code c.status.signal true, c.exitBytes)]

end Course

namespace LoopState

section
variable {decodeWorkloadMessage : RawFrame → Except ProtocolError HostMessage}
  {consoles : List ConsoleStart}
  {pumps : PumpSet} {turns : List PollTurn} {c : Course decodeWorkloadMessage consoles pumps turns}
  {rest : List (InternalEvent × Bytes)} {returned : List RawFrame} {told : Bytes} {s s' : LoopState}
  {turn : PollTurn}

/-- READY was sent, and the session is where the returned frames have brought it. -/
structure Following (c : Course decodeWorkloadMessage consoles pumps turns)
    (returned : List RawFrame) (s : LoopState) : Prop where
  workloadPid : s.workloadPid = some c.pid
  writer : s.writer = 2
  session : ∃ later state, c.frames = returned ++ later ∧
    s.session = ⟨state, 1 + UInt64.ofNat returned.length, 2⟩ ∧
    HostFrames decodeWorkloadMessage s.pumps.terminal state later

/-- The state of the loop by the records that it has not taken yet. -/
inductive Stage (c : Course decodeWorkloadMessage consoles pumps turns) :
    List (InternalEvent × Bytes) → List RawFrame → LoopState → Prop
  | opening {s : LoopState} (workloadPid : s.workloadPid = none) (outcome : s.outcome = none)
      (session : s.session = ⟨.awaitReady, 1, 1⟩) (writer : s.writer = 1)
      (runtime : HostFrames decodeWorkloadMessage s.pumps.terminal .running c.frames) :
      Stage c [(.ready c.pid, c.readyBytes), (.exit c.status.code c.status.signal true,
        c.exitBytes)] [] s
  | running {s : LoopState} {returned : List RawFrame} (following : Following c returned s)
    (outcome : s.outcome = none) :
      Stage c [(.exit c.status.code c.status.signal true, c.exitBytes)] returned s
  | ended {s : LoopState} {returned : List RawFrame} (following : Following c returned s)
      (outcome : s.outcome = some (c.status, true)) : Stage c [] returned s

structure KeepsStreams (s s' : LoopState) : Prop where
  control : s'.control = s.control
  events : s'.events = s.events
  eventEof : s'.eventEof = s.eventEof
  heard : s'.heard = s.heard

theorem KeepsStreams.refl (s : LoopState) : KeepsStreams s s := ⟨rfl, rfl, rfl, rfl⟩

theorem KeepsStreams.trans {s₁ s₂ s₃ : LoopState} (h : KeepsStreams s₁ s₂)
    (h' : KeepsStreams s₂ s₃) : KeepsStreams s₁ s₃ :=
  ⟨h'.control.trans h.control, h'.events.trans h.events, h'.eventEof.trans h.eventEof,
    h'.heard.trans h.heard⟩

theorem Stage.onEvent (turn : PollTurn) {w : InternalEvent × Bytes}
    (h : Stage c (w :: rest) returned s) :
    Ends LoopError.Fault (fun s' => Stage c rest returned s' ∧ KeepsStreams s s')
      (onEvent turn s w.1) := by
  cases h with
  | opening workloadPid outcome session writer runtime =>
    have haccept : s.session.accept .guestToHost .ready s.writer = .ok ⟨.running, 1, 2⟩ := by
      rw [session, writer]
      decide
    have hpositive : ¬(s.workloadPid ≠ none ∨ c.pid ≤ 0) := by
      rintro (h | h)
      · exact h workloadPid
      · exact absurd c.pid_pos (Int32.not_lt.mpr h)
    refine .stop (fun hnot => absurd hnot hpositive) fun _ =>
      .bind (.mapError (.of_ok haccept rfl)) ?_
    rintro _ rfl
    refine .stop (fun _ => trivial) fun _ =>
      ⟨.running ⟨rfl, ?_, c.frames, .running, rfl, rfl, runtime⟩ outcome, ⟨rfl, rfl, rfl, rfl⟩⟩
    rw [writer]
    rfl
  | running following outcome =>
    have hopen : ¬(s.workloadPid = none ∨ s.outcome ≠ none) := by
      simp [following.workloadPid, outcome]
    exact .stop (fun hnot => absurd hnot hopen) fun _ =>
      ⟨.ended ⟨following.workloadPid, following.writer, following.session⟩ rfl,
        ⟨rfl, rfl, rfl, rfl⟩⟩

theorem Stage.onFound (turn : PollTurn) (taken : List (InternalEvent × Bytes))
    (h : Stage c (taken ++ rest) returned s) :
    Ends LoopError.Fault (fun s' => Stage c rest returned s' ∧ KeepsStreams s s')
      ((taken.map Prod.fst).foldlM (LoopState.onEvent turn) s) := by
  rw [foldlM_map]
  refine .foldlM (fun taken q => Stage c (taken ++ rest) returned q ∧ KeepsStreams s q)
    (fun w taken q hq => ?_) ⟨h, .refl s⟩
  exact (Stage.onEvent turn hq.1).mono fun q' hq' => ⟨hq'.1, hq.2.trans hq'.2⟩

/-- A stage does not depend on the decoders, the descriptors and the deadlines. -/
theorem Stage.congr (h : Stage c rest returned s) (hpid : s'.workloadPid = s.workloadPid)
    (houtcome : s'.outcome = s.outcome)
    (hsession : s'.session = s.session) (hwriter : s'.writer = s.writer)
    (hterminal : s'.pumps.terminal = s.pumps.terminal) :
    Stage c rest returned s' := by
  have hfollow : ∀ {returned}, Following c returned s → Following c returned s' := by
    rintro returned ⟨hp, hw, later, state, hframes, hs, hruntime⟩
    exact ⟨hpid.trans hp, hwriter.trans hw, later, state, hframes, hsession.trans hs,
      hterminal ▸ hruntime⟩
  cases h with
  | opening workloadPid outcome session writer runtime =>
    exact .opening (hpid.trans workloadPid) (houtcome.trans outcome) (hsession.trans session)
      (hwriter.trans writer) (hterminal ▸ runtime)
  | running following outcome => exact .running (hfollow following) (houtcome.trans outcome)
  | ended following outcome => exact .ended (hfollow following) (houtcome.trans outcome)

theorem length_readyBytes : c.readyBytes.length = 9 := by
  have hready := c.recorded (.ready c.pid, c.readyBytes) (mem_append_right _ (mem_cons_self ..))
  simp only [InternalEvent.encode, bind_ok, stop_ok, pure_ok] at hready
  obtain ⟨_, hparts, -, -, -, -, hbytes⟩ := hready
  cases hparts
  rw [← hbytes]
  simp [i32Bytes]

theorem length_exitBytes : c.exitBytes.length = 9 := by
  have hexit := c.recorded (.exit c.status.code c.status.signal true, c.exitBytes)
    (mem_append_right _ (mem_cons_of_mem _ (mem_cons_self ..)))
  simp only [InternalEvent.encode, bind_ok, stop_ok, pure_ok] at hexit
  obtain ⟨_, hparts, -, -, -, -, hbytes⟩ := hexit
  cases hcode : c.status.code <;> cases hsignal :
    c.status.signal <;> rw [hcode, hsignal] at hparts <;> cases hparts <;>
    rw [← hbytes] <;> simp

theorem Recorded.workload : Recorded c.workloadRecords := fun w hw =>
    c.recorded w (mem_append_right _ hw)

theorem feedAll_workload {d : InternalEventDecoder} {reads : List Bytes} {unread : Bytes}
    {taken : List (InternalEvent × Bytes)}
    (hsplit : c.workloadRecords = taken ++ rest) (hshort : ShortOf d.pending.length rest)
    (h : d.pending ++ reads.flatten ++ unread = recordBytes rest) :
    ∃ more later d', rest = more ++ later ∧
      d.pending ++ reads.flatten = recordBytes more ++ d'.pending ∧
      ShortOf d'.pending.length later ∧ d.feedAll reads = .ok (more.map Prod.fst, d') := by
  have hmem : ∀ w ∈ rest, w ∈ c.workloadRecords := fun w hw => by
    rw [hsplit]
    exact mem_append_right _ hw
  have hlength : (recordBytes rest).length ≤ 18 := by
    have hall : (recordBytes c.workloadRecords).length = 18 := by
      simp [Course.workloadRecords, recordBytes, length_readyBytes, length_exitBytes]
    rw [hsplit, InternalEventDecoder.recordBytes_append, length_append] at hall
    omega
  rcases InternalEventDecoder.feedAll_cases (fun w hw =>
    Recorded.workload w (hmem w hw)) hshort h with
    ⟨more, later, d', hrest, hbytes, hlater, hfed, -⟩ | ⟨e, -, hno⟩
  · exact ⟨more, later, d', hrest, hbytes, hlater, hfed⟩
  · refine absurd ⟨fun w hw => ?_, fun k read hk => ?_⟩ hno
    · have hw' := hmem w hw
      simp only [Course.workloadRecords, mem_cons, not_mem_nil, or_false] at hw'
      rcases hw' with rfl | rfl
      · trivial
      · exact c.canonical
    · have hle := InternalEventDecoder.unfinished_le rest
        (d.pending.length + (reads.take k).flatten.length)
      have hread : (reads.take k).flatten.length + read.length ≤ reads.flatten.length := by
        have hall := congrArg (fun l => l.flatten.length) (take_append_drop (k + 1) reads)
        simp only [take_add_one, hk, Option.toList_some, flatten_append, flatten_singleton,
          length_append] at hall
        omega
      rw [← h, length_append, length_append] at hlength
      have : INTERNAL_HEADER_LEN + MAX_INTERNAL_PAYLOAD = 4101 := rfl
      omega

/-- The states of a run in which every console was started: `told` was read of the events. -/
structure Tracks (c : Course decodeWorkloadMessage consoles pumps turns)
    (rest : List (InternalEvent × Bytes))
    (returned : List RawFrame) (told : Bytes) (s : LoopState) : Prop where
  stage : Stage c rest returned s
  control : ControlFrameDecoder.Completed 1 c.frames s.heard returned s.control
  records : ∃ taken, c.workloadRecords = taken ++ rest ∧
    told = recordBytes taken ++ s.events.pending
  short : ShortOf s.events.pending.length rest
  eof : s.eventEof = true → rest = []
  quiet : told.length < c.readyBytes.length → s.heard = []

variable {last : LastRead} {reads : List Bytes}

theorem Tracks.onEvents (turn : PollTurn) (h : Tracks c rest returned told s)
    (hpiece : told ++ reads.flatten <+: recordBytes c.workloadRecords)
    (hend : last = .eof → told ++ reads.flatten = recordBytes c.workloadRecords) :
    Ends LoopError.Fault (fun s' => ∃ rest', Tracks c rest' returned (told ++ reads.flatten) s' ∧
      s'.heard = s.heard) (onEvents turn s reads last) := by
  obtain ⟨taken, hsplit, htold⟩ := h.records
  obtain ⟨unread, hpiece⟩ := hpiece
  have hstream : s.events.pending ++ reads.flatten ++ unread = recordBytes rest := by
    rw [hsplit, InternalEventDecoder.recordBytes_append, htold] at hpiece
    simpa using hpiece
  obtain ⟨more, later, d', rfl, hbytes, hshort, hfeed⟩ := feedAll_workload hsplit h.short hstream
  -- behind the end of the pipe there is no record left
  have hall : last = .eof → later = [] ∧ d'.pending = [] := by
    intro heof
    have hpending : d'.pending = recordBytes later := by
      have hnone : unread = [] := by
        have hlength := congrArg List.length (hpiece.trans (hend heof).symm)
        simpa using hlength
      rw [hnone, append_nil, hbytes, InternalEventDecoder.recordBytes_append] at hstream
      exact append_cancel_left hstream
    have hlater : later = [] := InternalEventDecoder.eq_nil_of_shortOf
      (by rw [← hpending]; exact hshort)
    exact ⟨hlater, by rw [hpending, hlater]; rfl⟩
  have hstage : Stage c (more ++ later) returned { s with events := d', eventEof := s.eventEof || last = .eof } :=
    h.stage.congr rfl rfl rfl rfl rfl
  refine .bind (.mapError (.of_ok hfeed rfl)) ?_
  rintro _ rfl
  refine .stop (fun _ => trivial) fun _ =>
    .stop (fun hcut => absurd (hall hcut.1).2 hcut.2) fun _ => ?_
  refine (hstage.onFound turn more).mono fun s' hs' => ?_
  obtain ⟨hstage', hkeeps⟩ := hs'
  refine ⟨later, ⟨hstage', ?_, ⟨taken ++ more, ?_, ?_⟩, ?_, ?_, ?_⟩, hkeeps.heard⟩
  · rw [hkeeps.heard, hkeeps.control]
    exact h.control
  · rw [hsplit, append_assoc]
  · rw [htold, append_assoc, hbytes, InternalEventDecoder.recordBytes_append,
      hkeeps.events, append_assoc]
  · rw [hkeeps.events]
    exact hshort
  · intro heof
    rw [hkeeps.eventEof] at heof
    rcases Bool.or_eq_true _ _ ▸ heof with heof | heof
    · exact (append_eq_nil_iff.mp (h.eof heof)).2
    · exact (hall (of_decide_eq_true heof)).1
  · intro hquiet
    rw [hkeeps.heard]
    rw [length_append] at hquiet
    exact h.quiet (by omega)

theorem Following.onFrames (turn : PollTurn) {taken later : List RawFrame}
    (h : Following c returned s)
    (hconsecutive : Consecutive 1 (returned ++ taken))
    (hframes : c.frames = returned ++ taken ++ later) :
    Ends LoopError.Fault (fun s' => Following c (returned ++ taken) s' ∧ SameBut s s')
      (taken.foldlM (onFrame decodeWorkloadMessage turn) s) := by
  obtain ⟨later', state, hframes', hsession, hruntime⟩ := h.session
  obtain rfl : later' = taken ++ later := by
    rw [hframes, append_assoc] at hframes'
    exact (append_cancel_left hframes').symm
  have hsendable : ∀ f ∈ taken, Sendable f := fun f hf => c.sendable f (by rw [hframes]; simp [hf])
  refine (onFrames_runtime turn hsendable (consecutive_append.mp hconsecutive).2 hruntime hsession
    h.workloadPid).mono fun s' hs' => ?_
  obtain ⟨hsame, state', hsession', hruntime'⟩ := hs'
  refine ⟨⟨hsame.workloadPid.trans h.workloadPid, hsame.writer.trans h.writer, later, state',
    hframes, ?_, ?_⟩, hsame⟩
  · rw [hsession', length_append, UInt64.ofNat_add, UInt64.add_assoc]
  · rw [hsame.terminal]
    exact hruntime'

theorem Tracks.onControl (turn : PollTurn) (h : Tracks c rest returned told s)
    (hpiece : s.heard ++ reads.flatten <+: streamOf c.frames)
    (hsize : ∀ bytes ∈ reads, bytes.length ≤ IO_CHUNK)
    (hopened : reads.flatten ≠ [] → c.readyBytes.length ≤ told.length) :
    Ends LoopError.Fault (fun s' => ∃ returned', Tracks c rest returned' told s' ∧
      s'.heard = s.heard ++ reads.flatten) (onControl decodeWorkloadMessage turn s reads last) := by
  obtain ⟨taken, d', hread, hcompleted⟩ :=
    readControl_completed c.sendable c.consecutive hsize h.control hpiece
  obtain ⟨later, hframes, -⟩ := hcompleted.cut
  have hquiet : told.length < c.readyBytes.length → s.heard ++ reads.flatten = [] := by
    intro hshort
    have hnone : reads.flatten = [] := by
      by_contra hsome
      exact absurd (hopened hsome) (Nat.not_le.mpr hshort)
    rw [h.quiet hshort, hnone]
    rfl
  have hfold : ∀ {q : LoopState}, Stage c rest returned q → Ends LoopError.Fault
      (fun s' => Stage c rest (returned ++ taken) s' ∧ SameBut q s')
      (taken.foldlM (onFrame decodeWorkloadMessage turn) q) := by
    intro q hstage
    cases hstage with
    | opening workloadPid outcome session writer runtime =>
      -- nothing was sent before READY
      have hshort : told.length < c.readyBytes.length := by
        obtain ⟨taken₀, hsplit, rfl⟩ := h.records
        obtain rfl : taken₀ = [] := append_left_eq_self.mp hsplit.symm
        exact h.short
      obtain rfl : taken = [] := by
        have hbytes := hcompleted.bytes
        rw [hquiet hshort] at hbytes
        exact streamOf_eq_nil (append_eq_nil_iff.mp hbytes.symm).1
      exact ⟨.opening workloadPid outcome session writer runtime, .refl _⟩
    | running following outcome =>
      exact (following.onFrames turn hcompleted.consecutive hframes).mono fun s' hs' =>
        ⟨.running hs'.1 (hs'.2.outcome.trans outcome), hs'.2⟩
    | ended following outcome =>
      exact (following.onFrames turn hcompleted.consecutive hframes).mono fun s' hs' =>
        ⟨.ended hs'.1 (hs'.2.outcome.trans outcome), hs'.2⟩
  refine .bind (.mapError (.of_ok hread rfl)) ?_
  rintro _ rfl
  refine .stop (fun _ => trivial) fun _ => Ends.mono (hfold (h.stage.congr rfl rfl rfl rfl rfl))
    fun s' hs' => ?_
  obtain ⟨hstage, hsame⟩ := hs'
  refine ⟨returned ++ taken, ⟨hstage, ?_, ?_, ?_, ?_, ?_⟩, hsame.heard⟩
  · rw [hsame.heard, hsame.control]
    exact hcompleted
  · rw [hsame.events]
    exact h.records
  · rw [hsame.events]
    exact h.short
  · rw [hsame.eventEof]
    exact h.eof
  · intro hshort
    rw [hsame.heard]
    exact hquiet hshort

theorem Tracks.keeps (c : Course decodeWorkloadMessage consoles pumps turns) :
    Keeps decodeWorkloadMessage (fun s items => ∃ rest returned told,
      Tracks c rest returned told s ∧ Tells (recordBytes c.workloadRecords) told items ∧
      Hears (streamOf c.frames) c.readyBytes.length told.length s.heard items) LoopError.Fault where
  item := by
    rintro turn s ⟨item, invalid⟩ items ⟨rest, returned, told, h, htells, hhears⟩
    refine Ends.bind ?_ fun q hq => .stop (fun _ => fault_invalidDescriptor) fun _ => hq
    cases item with
    | control reads last =>
      obtain ⟨hpiece, hsize, hopened, hitems⟩ := hhears
      refine (h.onControl turn hpiece hsize hopened).mono fun q hq => ?_
      obtain ⟨returned', htracks, hheard⟩ := hq
      exact ⟨rest, returned', told, htracks, htells, hheard ▸ hitems⟩
    | namespaceEvents reads last =>
      obtain ⟨hpiece, hend, hitems⟩ := htells
      refine (h.onEvents turn hpiece hend).mono fun q hq => ?_
      obtain ⟨rest', htracks, hheard⟩ := hq
      exact ⟨rest', returned, told ++ reads.flatten, htracks,
        hitems, by rw [hheard, length_append]; exact hhears⟩
    | pump index step =>
      refine .bind ((s.pumps.step_ends index step).imp (by rintro _ ⟨e, rfl⟩; trivial) fun _ => id)
        fun pumps' hpumps => ?_
      have hstage : Stage c rest returned { s with pumps := pumps' } :=
        h.stage.congr rfl rfl rfl rfl hpumps
      exact ⟨rest, returned, told, ⟨hstage, h.control, h.records, h.short, h.eof, h.quiet⟩,
        htells, hhears⟩
  fault := fun _ he => he
  closed := by
    rintro s items ⟨rest, returned, told, h, -, -⟩ heof hnone
    obtain rfl := h.eof heof
    cases h.stage with
    | ended following outcome =>
      rw [outcome] at hnone
      cases hnone

theorem consoleEvents_eq_nil : consoleEvents consoles = [] ↔ ∀ console ∈ consoles,
    console = .started := by
  unfold consoleEvents
  rw [filterMap_eq_nil_iff]
  constructor
  · intro h console hmem
    obtain ⟨i, hi, rfl⟩ := mem_iff_getElem.mp hmem
    have hnone := h (consoles[i], i) (mk_mem_zipIdx_iff_getElem?.mpr (getElem?_eq_getElem hi))
    cases hconsole : consoles[i] with
    | started => rfl
    | reported errno diagnostic =>
      simp [hconsole, consoleEvent] at hnone
    | failed errno error => simp [hconsole, consoleEvent] at hnone
  · rintro h ⟨console, index⟩ hmem
    obtain rfl := h console (fst_mem_of_mem_zipIdx hmem)
    rfl

theorem consoleEvents_error {w : InternalEvent} (h : w ∈ consoleEvents consoles) :
    ∃ errno diagnostic, w = .error errno diagnostic := by
  obtain ⟨⟨console, index⟩, -, hevent⟩ := mem_filterMap.mp h
  cases console with
  | started => cases hevent
  | reported errno diagnostic => exact ⟨_, _, (Option.some.inj hevent).symm⟩
  | failed errno error => exact ⟨_, _, (Option.some.inj hevent).symm⟩

theorem tracks_start (c : Course decodeWorkloadMessage consoles pumps turns) :
    Tracks c c.workloadRecords [] [] (start pumps) := by
  refine ⟨.opening rfl rfl rfl rfl c.runtime, ⟨trivial, rfl, rfl, c.frames, rfl, ?_⟩,
    ⟨[], rfl, rfl⟩, ?_, ?_, fun _ => rfl⟩
  · cases c.frames with
    | nil => rfl
    | cons f frames =>
      show 0 < f.toBytes.length
      rw [length_toBytes]
      exact Nat.lt_of_lt_of_le (by decide) (Nat.le_add_right HEADER_LEN _)
  · show 0 < c.readyBytes.length
    rw [length_readyBytes]
    decide
  · intro heof
    cases heof

theorem consoleRecords_eq_nil (c : Course decodeWorkloadMessage consoles pumps turns) :
    c.consoleRecords = [] ↔ ∀ console ∈ consoles, console = .started := by
  rw [← consoleEvents_eq_nil, ← c.console_events, map_eq_nil_iff]

/-- Such a run settles, if it settles, in states that track the records. -/
theorem settle_tracks (c : Course decodeWorkloadMessage consoles pumps turns)
    (hstarted : c.consoleRecords = []) :
    Ends LoopError.Fault (fun s => ∃ rest returned told, Tracks c rest returned told s)
      ((start pumps).settle decodeWorkloadMessage turns) := by
  have htells := c.tells
  have hhears := c.hears
  rw [hstarted] at htells hhears
  rw [show (recordBytes []).length + c.readyBytes.length =
    c.readyBytes.length from Nat.zero_add _] at hhears
  refine ((Tracks.keeps c).settle turns (s := start pumps) ⟨_, [], [], tracks_start c, htells,
    hhears⟩).mono fun s hs => ?_
  obtain ⟨-, rest, returned, told, htracks, -, -⟩ := hs
  exact ⟨rest, returned, told, htracks⟩

theorem settle_finished (c : Course decodeWorkloadMessage consoles pumps turns)
    (h : (start pumps).settle decodeWorkloadMessage turns = .ok s) (hfinished : s.finished = true) :
    c.consoleRecords = [] ∧ s.outcome = some (c.status, true) ∧
      ∃ returned, Following c returned s ∧
        ControlFrameDecoder.Completed 1 c.frames s.heard returned s.control := by
  have hsome : s.outcome ≠ none := by
    intro hnone
    rw [finished, hnone] at hfinished
    cases hfinished
  have hstarted : c.consoleRecords = [] := by
    cases hrecords : c.consoleRecords with
    | nil => rfl
    | cons w records =>
      obtain ⟨event, bytes⟩ := w
      have hevent : event ∈ consoleEvents consoles := by
        rw [← c.console_events, hrecords]
        exact mem_cons_self ..
      obtain ⟨errno, diagnostic, rfl⟩ := consoleEvents_error hevent
      have hrecorded := c.recorded
      have htells := c.tells
      rw [hrecords] at hrecorded htells
      exact absurd (settle_untold hrecorded htells h) hsome
  obtain ⟨rest, returned, told, htracks⟩ := (settle_tracks c hstarted).ok h
  have hcontrol := htracks.control
  cases htracks.stage with
  | opening workloadPid outcome session writer runtime => exact absurd outcome hsome
  | running following outcome => exact absurd outcome hsome
  | ended following outcome => exact ⟨hstarted, outcome, returned, following, hcontrol⟩

/-- The decoder holds nothing exactly when what was read ends with a frame. -/
theorem pending_eq_nil_iff {frames returned : List RawFrame} {heard : Bytes}
    {d : ControlFrameDecoder}
    (h : ControlFrameDecoder.Completed 1 frames heard returned d) : d.pending = [] ↔ ∃ k,
    heard = streamOf (frames.take k) := by
  obtain ⟨later, rfl, hcut⟩ := h.cut
  constructor
  · intro hnone
    refine ⟨returned.length, ?_⟩
    rw [h.bytes, hnone, append_nil, take_left]
  · rintro ⟨k, hk⟩
    rw [h.bytes] at hk
    by_cases hle : k ≤ returned.length
    · rw [take_append_of_le_length hle] at hk
      have hparts : streamOf returned = streamOf (returned.take k) ++
        streamOf (returned.drop k) := by
        rw [← streamOf_append, take_append_drop]
      rw [hparts, append_assoc] at hk
      exact (append_eq_nil_iff.mp (append_right_eq_self.mp hk)).2
    · -- what is pending would hold the next frame
      rw [take_append, take_of_length_le (by omega), streamOf_append] at hk
      have hpending := append_cancel_left hk
      cases later with
      | nil => exact hcut
      | cons f later =>
        obtain ⟨n, hn⟩ : ∃ n, k - returned.length = n + 1 := ⟨k - returned.length - 1, by omega⟩
        rw [hn, take_succ_cons, streamOf_cons] at hpending
        have hlt : d.pending.length < f.toBytes.length := hcut
        rw [hpending, length_append] at hlt
        omega

theorem namespaceEventLoop_settled (h : s.settle decodeWorkloadMessage turns = .ok s')
    (hfinished : s'.finished = true) :
    s.namespaceEventLoop decodeWorkloadMessage turns = some s'.finish := by
  unfold namespaceEventLoop
  rw [h]
  exact if_pos hfinished

theorem finish_eq_ok_iff {outcome : WorkloadStatus × Bool} (h : s.outcome = some outcome) :
    s.finish = .ok outcome ↔ s.control.pending = [] := by
  unfold finish
  simp only [bind_ok, stop_ok, require_ok, not_not]
  constructor
  · rintro ⟨-, hnone, -⟩
    exact hnone
  · intro hnone
    exact ⟨(), hnone, h⟩

/-- Once EXIT was reported and the outputs are written, the loop is left. It returns the status
exactly when the control bytes that it has read end with a frame: it takes a frame that is still on
its way for an error. -/
theorem exit_status_returned_iff_whole_frames
    (c : Course decodeWorkloadMessage consoles pumps turns)
    (hsettle : (start pumps).settle decodeWorkloadMessage turns = .ok s)
    (hfinished : s.finished = true) :
    (start pumps).namespaceEventLoop decodeWorkloadMessage turns = some (.ok (c.status, true)) ↔
      ∃ k, s.heard = streamOf (c.frames.take k) := by
  obtain ⟨-, houtcome, returned, -, hcompleted⟩ := settle_finished c hsettle hfinished
  rw [namespaceEventLoop_settled hsettle hfinished, Option.some_inj, finish_eq_ok_iff houtcome,
    pending_eq_nil_iff hcompleted]

/-- A run that no failure of the kernel, the streams or the clock cuts short reports READY and the
workload's status exactly when every console was started and the loop is not left inside a control
frame. -/
theorem status_reported_iff_consoles_started (c : Course decodeWorkloadMessage consoles pumps turns)
    {result : Except LoopError (WorkloadStatus × Bool)}
    (hloop : (start pumps).namespaceEventLoop decodeWorkloadMessage turns = some result)
    (hfault : ∀ e, result = .error e → ¬e.Fault) : (result = .ok (c.status, true) ∧
      ∃ s, (start pumps).settle decodeWorkloadMessage turns = .ok s ∧ s.workloadPid = some c.pid ∧
        s.writer = 2) ↔
      (∀ console ∈ consoles, console = .started) ∧
        ∀ s, (start pumps).settle decodeWorkloadMessage turns = .ok s → ∃ k,
          s.heard = streamOf (c.frames.take k) := by
  cases hsettle : (start pumps).settle decodeWorkloadMessage turns with
  | error e =>
    unfold namespaceEventLoop at hloop
    rw [hsettle] at hloop
    obtain rfl := Option.some.inj hloop
    constructor
    · rintro ⟨hok, -⟩
      cases hok
    · rintro ⟨hstarted, -⟩
      exact absurd ((settle_tracks c ((consoleRecords_eq_nil c).mpr hstarted)).error hsettle)
        (hfault e rfl)
  | ok s =>
    have hfinished : s.finished = true := by
      by_contra hunfinished
      unfold namespaceEventLoop at hloop
      rw [hsettle] at hloop
      simp [hunfinished] at hloop
    obtain ⟨hstarted, houtcome, returned, hfollowing, hcompleted⟩ :=
      settle_finished c hsettle hfinished
    rw [namespaceEventLoop_settled hsettle hfinished] at hloop
    obtain rfl := Option.some.inj hloop
    rw [finish_eq_ok_iff houtcome, pending_eq_nil_iff hcompleted]
    constructor
    · rintro ⟨hwhole, -⟩
      refine ⟨(consoleRecords_eq_nil c).mp hstarted, fun q hq => ?_⟩
      cases hq
      exact hwhole
    · rintro ⟨-, hwhole⟩
      exact ⟨hwhole s rfl, s, rfl, hfollowing.workloadPid, hfollowing.writer⟩

end

namespace Sample

def resize : RawFrame := frameOf .resize [0, 24, 0, 80] 1

def decodeResize (f : RawFrame) : Except ProtocolError HostMessage :=
  if f.header.kind = .resize then .ok (.resize 24 80) else .error (.unknownKind f.header.kind.toU16)

def terminalPumps : PumpSet := ⟨true, []⟩

def pollTurn (ready : List Ready) : PollTurn := ⟨0, true, ready.map fun item => (item, false),
    true, true, true⟩

def readyRecord : Bytes := [1, 0, 0, 0, 4, 0, 0, 0, 7]
def exitRecord : Bytes := [2, 0, 0, 0, 4, 0, 0, 3, 1]

def consoleRecord : Bytes :=
  [3, 0, 0, 0, 25, 0, 0, 0, 5, 1, 99, 111, 110, 115, 111, 108, 101, 32, 108, 105, 110, 101, 32, 52,
    58, 32, 111, 112, 101, 110]

/-- RESIZE comes in two pieces, and the workload exits behind it. -/
def wholeTurns : List PollTurn :=
  [pollTurn [.namespaceEvents [readyRecord] .wouldBlock],
    pollTurn [.control [resize.toBytes.take 10] .wouldBlock],
    pollTurn [.control [resize.toBytes.drop 10] .wouldBlock, .namespaceEvents [exitRecord] .eof]]

/-- The workload exits while RESIZE is on its way. -/
def cutTurns : List PollTurn :=
  [pollTurn [.namespaceEvents [readyRecord] .wouldBlock],
    pollTurn [.control [resize.toBytes.take 10] .wouldBlock],
    pollTurn [.namespaceEvents [exitRecord] .eof]]

theorem resize_sendable : ∀ f ∈ [resize], Sendable f := by
  intro f hf
  rw [mem_singleton.mp hf]
  exact .frameOf (by decide) (by decide)

theorem resize_runtime : HostFrames decodeResize terminalPumps.terminal .running [resize] :=
  ⟨⟨.resize 24 80, rfl, rfl⟩, .running, rfl, trivial⟩

def wholeCourse : Course decodeResize [.started] terminalPumps wholeTurns where
  pid := 7
  status := ⟨some 3, none⟩
  consoleRecords := []
  readyBytes := readyRecord
  exitBytes := exitRecord
  frames := [resize]
  pid_pos := by decide
  canonical := by decide
  console_events := rfl
  recorded := by unfold Recorded; decide +kernel
  sendable := resize_sendable
  consecutive := by decide +kernel
  runtime := resize_runtime
  tells := ⟨by decide +kernel, by decide +kernel, by decide +kernel, by decide +kernel, trivial⟩
  hears := ⟨by decide +kernel, by decide +kernel, by decide +kernel, by decide +kernel, by decide +kernel, by decide +kernel, trivial⟩

def cutCourse : Course decodeResize [.started] terminalPumps cutTurns where
  pid := 7
  status := ⟨some 3, none⟩
  consoleRecords := []
  readyBytes := readyRecord
  exitBytes := exitRecord
  frames := [resize]
  pid_pos := by decide
  canonical := by decide
  console_events := rfl
  recorded := by unfold Recorded; decide +kernel
  sendable := resize_sendable
  consecutive := by decide +kernel
  runtime := resize_runtime
  tells := ⟨by decide +kernel, by decide +kernel, by decide +kernel, by decide +kernel, trivial⟩
  hears := ⟨by decide +kernel, by decide +kernel, by decide +kernel, trivial⟩

/-- The only console cannot be set up, and the workload runs and exits. -/
def failedTurns : List PollTurn :=
  [pollTurn [.namespaceEvents [consoleRecord ++ readyRecord] .wouldBlock],
    pollTurn [.namespaceEvents [exitRecord] .eof]]

def failedCourse : Course decodeResize [.failed (some 5) "open"] terminalPumps failedTurns where
  pid := 7
  status := ⟨some 3, none⟩
  consoleRecords := [(.error (some 5) "console line 4: open", consoleRecord)]
  readyBytes := readyRecord
  exitBytes := exitRecord
  frames := []
  pid_pos := by decide
  canonical := by decide
  console_events := by decide +kernel
  recorded := by unfold Recorded; decide +kernel
  sendable := by simp
  consecutive := trivial
  runtime := trivial
  tells := ⟨by decide +kernel, by decide +kernel, by decide +kernel, by decide +kernel, trivial⟩
  hears := trivial

theorem settles {turns : List PollTurn} {p : LoopState → Bool}
    (h : ((start terminalPumps).settle decodeResize turns).toOption.any p = true) :
    ∃ s, (start terminalPumps).settle decodeResize turns = .ok s ∧ p s = true := by
  cases hsettle : (start terminalPumps).settle decodeResize turns with
  | error e =>
    rw [hsettle] at h
    cases h
  | ok s =>
    rw [hsettle] at h
    exact ⟨s, rfl, h⟩

end Sample

open LoopState.Sample in
theorem exit_status_returned_behind_resize :
    (start terminalPumps).namespaceEventLoop decodeResize wholeTurns =
      some (.ok (⟨some 3, none⟩, true)) := by
  obtain ⟨s, hsettle, hs⟩ : ∃ s, (start terminalPumps).settle decodeResize wholeTurns = .ok s ∧
      (s.finished && s.heard = resize.toBytes) = true := settles (by decide +kernel)
  obtain ⟨hfinished, hheard⟩ := Bool.and_eq_true _ _ ▸ hs
  exact (exit_status_returned_iff_whole_frames wholeCourse hsettle hfinished).mpr
    ⟨1, by rw [of_decide_eq_true hheard]; decide +kernel⟩

/-- RESIZE was cut when the workload exited with status 3. -/
theorem cut_resize_replaces_status : Sample.cutCourse.status = ⟨some 3, none⟩ ∧
      (∃ s, (start Sample.terminalPumps).settle Sample.decodeResize Sample.cutTurns = .ok s ∧
        (s.finished && s.outcome = some (⟨some 3, none⟩, true)) = true) ∧
      (start Sample.terminalPumps).namespaceEventLoop Sample.decodeResize Sample.cutTurns =
        some (.error partialFrame) :=
  ⟨rfl, Sample.settles (by decide +kernel), by decide +kernel⟩

open LoopState.Sample in
theorem status_reported_behind_started_console :
    some (.ok (⟨some 3, none⟩, true)) = (start terminalPumps).namespaceEventLoop decodeResize wholeTurns ∧
      ∃ s, (start terminalPumps).settle decodeResize wholeTurns = .ok s ∧ s.workloadPid = some 7 ∧
        s.writer = 2 := by
  have hloop : (start terminalPumps).namespaceEventLoop decodeResize wholeTurns =
    some (.ok (⟨some 3, none⟩, true)) := by
    decide +kernel
  obtain ⟨q, hsettle, hq⟩ : ∃ s, (start terminalPumps).settle decodeResize wholeTurns = .ok s ∧
      decide (s.heard = resize.toBytes) = true := settles (by decide +kernel)
  refine ⟨hloop.symm, ((status_reported_iff_consoles_started wholeCourse hloop (fun e he => by cases he)).mpr ⟨by simp, ?_⟩).2⟩
  intro s hs
  cases hsettle.symm.trans hs
  exact ⟨1, by rw [of_decide_eq_true hq]; decide +kernel⟩

/-- The workload exited with status 3, and the guest reports the console. -/
theorem console_failure_replaces_status : Sample.failedCourse.status = ⟨some 3, none⟩ ∧
      (start Sample.terminalPumps).namespaceEventLoop Sample.decodeResize Sample.failedTurns =
        some (.error (.child (some 5) "console line 4: open")) :=
  ⟨rfl, by decide +kernel⟩

end LoopState

end PocketVm.Guest
