import PocketVm.Conc.System
import PocketVm.Processes

/-!
# The guard

`run_guard` from its `Engine` on: the process that owns a virtual machine's processes and its
network helper, and that ends when none of them is left. It is a routine that goes round: it reaps
what has ended, signals what has to end, and polls.

The requests are the functions of `linux.rs` and what `lib.rs` asks of the system itself; `World`
says what they do to the processes around the guard and remembers whom the guard has signalled. An
`io::Error` is the text it is printed as.
-/

namespace PocketVm.Guard

open Conc Conc.Setting Processes

def SIGHUP : Nat := 1
def SIGINT : Nat := 2
def SIGQUIT : Nat := 3
def SIGKILL : Nat := 9
def SIGTERM : Nat := 15
def SIGCHLD : Nat := 17

inductive ReapedChild where
  | exited (pid status : Nat)
  | noExitedChild
  | noChildren
  deriving DecidableEq

/-- What `poll` finds of one descriptor: whether it is readable, hung up or in error, and whether it
is no descriptor at all. -/
structure Revents where
  ready : Bool
  invalid : Bool
  deriving DecidableEq

structure Polled where
  signal : Revents
  liveness : Revents
  pidfd : Revents
  deriving DecidableEq

/-- The requests. Times are in nanoseconds, the timeout of a poll in milliseconds and below zero for
none. -/
inductive Call where
  | reapOne
  | reapOneBlocking
  | reapSpecificNonblocking (pid : Nat)
  | reapSpecificBlocking (pid : Nat)
  | readImmediateChildren
  | sendSignalToProcess (pid signal : Nat)
  | sendSignalToGroup (processGroup signal : Nat)
  | now
  | poll (liveness pidfd : Bool) (timeoutMs : Int)
  | readPending
  | readLiveness
  | sleep
  deriving DecidableEq

abbrev Call.Ans : Call → Type
  | reapOne => Except String ReapedChild
  | reapOneBlocking => Except String (Option (Nat × Nat))
  | reapSpecificNonblocking _ => Except String Bool
  | reapSpecificBlocking _ => Except String Unit
  | readImmediateChildren => Except String (List Nat)
  | sendSignalToProcess _ _ => Except String Unit
  | sendSignalToGroup _ _ => Except String Unit
  | now => Nat
  | poll _ _ _ => Except String Polled
  | readPending => Except String (List Nat)
  | readLiveness => Except String Bool
  | sleep => Unit

abbrev GuardM := Prog Call.Ans

def ask (e : Call) : GuardM e.Ans := Prog.request e

inductive GuardError where
  | system (operation source : String)
  | lifecycle (text : String)
  deriving DecidableEq

def GuardError.text : GuardError → String
  | system operation source => operation ++ ": " ++ source
  | lifecycle text => "guard lifecycle failure: " ++ text

inductive ChildOutcome where
  | exited (code : Nat)
  | signaled (signal : Nat)
  deriving DecidableEq

def ChildOutcome.fromWaitStatus (status : Nat) : Except GuardError ChildOutcome :=
  if status % 128 = 0 then .ok (.exited (status / 256 % 256))
  else if status % 128 ≠ 127 then .ok (.signaled (status % 128))
  else
    .error (.lifecycle ("child produced non-terminal wait status 0x" ++ String.ofList (Nat.toDigits 16 status)))

structure Shutdown where
  gracefulSignal : Nat
  deadline : Nat
  escalated : Bool
  signaledChildren : List Nat
  deriving DecidableEq

/-- `pidfd` and `liveness` say whether the descriptor is still open. -/
structure Engine where
  networkPid : Option Nat
  childPid : Nat
  directOutcome : Option ChildOutcome
  pidfd : Bool
  liveness : Bool
  termTimeout : Nat
  shutdown : Option Shutdown
  infrastructureFailure : Option String
  deriving DecidableEq

namespace Engine

/-- The first failure is the one that is reported. -/
def recordFailure (e : Engine) (failure : String) : Engine :=
  { e with infrastructureFailure := e.infrastructureFailure <|> some failure }

def noted (e : Engine) (failure : String) : Except String Unit → Engine
  | .ok _ => e
  | .error error => e.recordFailure (failure ++ error)

def signal (s : Shutdown) : Nat := if s.escalated then SIGKILL else s.gracefulSignal

def signalEach (signal : Nat) : List Nat → Engine → Shutdown → GuardM (Engine × Shutdown)
  | [], e, s => pure (e, s)
  | pid :: pids, e, s =>
    if pid ∈ s.signaledChildren then signalEach signal pids e s
    else do
      let sent ← ask (.sendSignalToProcess pid signal)
      signalEach signal pids
        (e.noted ("could not send signal " ++ toString signal ++ " to adopted child " ++
          toString pid ++ ": ") sent)
        { s with signaledChildren := pid :: s.signaledChildren }

def signalImmediateChildren (e : Engine) (s : Shutdown) : GuardM (Engine × Shutdown) := do
  match ← ask .readImmediateChildren with
  | .error error => pure (e.recordFailure ("could not enumerate adopted children: " ++ error), s)
  | .ok children => signalEach (signal s) children e s

def escalate (e : Engine) : GuardM Engine :=
  match e.shutdown with
  | none => pure e
  | some s =>
    if s.escalated then pure e
    else do
      let sent ← ask (.sendSignalToGroup e.childPid SIGKILL)
      let after ← (e.noted ("could not send SIGKILL to child process group " ++ toString e.childPid ++ ": ") sent).signalImmediateChildren
        { s with escalated := true, signaledChildren := [] }
      pure { after.1 with shutdown := some after.2 }

def escalateUntimed (e : Engine) : GuardM Engine := if e.termTimeout = 0 then e.escalate else pure e

def beginShutdown (e : Engine) (gracefulSignal : Nat) : GuardM Engine :=
  if e.shutdown.isSome then pure e
  else do
    let now ← ask .now
    let sent ← ask (.sendSignalToGroup e.childPid gracefulSignal)
    let after ← (e.noted ("could not forward signal " ++ toString gracefulSignal ++
      " to child process group " ++
        toString e.childPid ++ ": ") sent).signalImmediateChildren
      { gracefulSignal, deadline := now + e.termTimeout, escalated := false, signaledChildren := [] }
    escalateUntimed { after.1 with shutdown := some after.2 }

def signalNewlyAdoptedChildren (e : Engine) : GuardM Engine :=
  match e.shutdown with
  | none => pure e
  | some s => do
    let after ← e.signalImmediateChildren s
    pure { after.1 with shutdown := some after.2 }

def maybeEscalate (e : Engine) : GuardM Engine :=
  match e.shutdown with
  | none => pure e
  | some s =>
    if s.escalated then pure e
    else do
      let now ← ask .now
      if s.deadline ≤ now then e.escalate else pure e

def pollTimeoutMs (e : Engine) : GuardM Int :=
  match e.shutdown with
  | none => pure (-1)
  | some s =>
    if s.escalated then pure (-1)
    else do
      let now ← ask .now
      pure (min ((s.deadline - now) / 1000000 : Nat) 2147483647)

def handleSignal (e : Engine) (signal : Nat) : GuardM Engine :=
  if signal = SIGCHLD then pure e
  else if signal = SIGTERM ∨ signal = SIGINT ∨ signal = SIGHUP ∨ signal = SIGQUIT then
    if e.shutdown.isNone then e.beginShutdown signal
    else if e.shutdown.any (·.escalated) then pure e
    else e.escalate
  else
    (e.recordFailure ("received unexpected signal " ++ toString signal ++ " through signalfd")).beginShutdown SIGTERM

def handleSignals (e : Engine) : GuardM (Except GuardError Engine) := do
  match ← ask .readPending with
  | .error error => pure (.error (.system "signalfd read failed" error))
  | .ok signals => Except.ok <$> signals.foldlM handleSignal e

def onSignals (e : Engine) (events : Revents) : GuardM (Except GuardError Engine) :=
  if events.ready then e.handleSignals else pure (.ok e)

def loseLiveness (e : Engine) : GuardM Engine := { e with liveness := false }.beginShutdown SIGTERM

/-- Nothing that happens between the poll and here closes the descriptor. -/
def onLiveness (e : Engine) (events : Revents) : GuardM Engine :=
  if e.liveness then
    if events.invalid then (e.recordFailure "liveness FD became invalid").loseLiveness
    else if events.ready then do
      match ← ask .readLiveness with
      | .ok true => e.loseLiveness
      | .ok false => pure e
      | .error error => (e.recordFailure ("liveness FD read failed: " ++ error)).loseLiveness
    else pure e
  else pure e

def onPidfd (e : Engine) (events : Revents) : Engine :=
  { e with pidfd := e.pidfd && !(events.ready || events.invalid) }

/-- What `reap_all` does with one child. -/
def reaped (e : Engine) (pid status : Nat) : Except GuardError Engine :=
  if pid = e.childPid then
    (ChildOutcome.fromWaitStatus status).map fun outcome =>
      { e with directOutcome := some outcome, pidfd := false }
  else .ok e

def result (e : Engine) : Except GuardError ChildOutcome :=
  match e.directOutcome with
  | none => .error (.lifecycle "direct child disappeared without a wait status")
  | some outcome =>
    match e.infrastructureFailure with
    | some failure => .error (.lifecycle failure)
    | none => .ok outcome

/-- The children that are left have to go once the direct child has. -/
def onDirectOutcome (e : Engine) : GuardM Engine :=
  if e.directOutcome.isSome ∧ e.shutdown.isNone then e.beginShutdown SIGTERM else pure e

end Engine

abbrev Outcome := Except GuardError ChildOutcome

/-- Where a turn starts: the loops of `reap_all` and `run`, the emergency cleanup and its loop, and
the end of the network helper and its loop. -/
inductive Phase where
  | reaping (e : Engine)
  | polling (e : Engine) (timeoutMs : Int)
  | failed (e : Engine) (error : GuardError)
  | cleaning (e : Engine) (error : GuardError) (failures : List String)
  | ended (e : Engine) (result : Outcome)
  | stopping (pid deadline : Nat) (result : Outcome)

/-- The part of a turn of `run` that comes before the poll, while children are left. -/
def Engine.attend (e : Engine) : GuardM Phase := do
  let e₁ ← e.onDirectOutcome
  let e₂ ← e₁.signalNewlyAdoptedChildren
  let e₃ ← e₂.maybeEscalate
  let timeoutMs ← e₃.pollTimeoutMs
  pure (.polling e₃ timeoutMs)

def Engine.onPolled (e : Engine) (polled : Polled) : GuardM Phase := do
  match ← e.onSignals polled.signal with
  | .error error => pure (.failed e error)
  | .ok e₁ =>
    let e₂ ← e₁.onLiveness polled.liveness
    pure (.reaping (e₂.onPidfd polled.pidfd))

def Engine.onReaped (e : Engine) : Except String ReapedChild → GuardM Phase
  | .error error => pure (.failed e (.system "waitpid failed" error))
  | .ok .noExitedChild => e.attend
  | .ok .noChildren =>
    match e.result with
    | .ok outcome => pure (.ended e (.ok outcome))
    | .error error => pure (.failed e error)
  | .ok (.exited pid status) =>
    match e.reaped pid status with
    | .ok e' => pure (.reaping e')
    | .error error => pure (.failed e error)

def failureOf (failure : String) : Except String Unit → List String
  | .ok _ => []
  | .error error => [failure ++ error]

def killEach : List Nat → List String → GuardM (List String)
  | [], failures => pure failures
  | pid :: pids, failures => do
    let sent ← ask (.sendSignalToProcess pid SIGKILL)
    killEach pids (failures ++
      failureOf ("could not send SIGKILL to child " ++ toString pid ++
        " during emergency cleanup: ") sent)

/-- What `run_guard` returns after the emergency cleanup. -/
def cleanupResult (error : GuardError) (failures : List String) : Outcome :=
  if failures = [] then .error error
  else
    .error (.lifecycle (error.text ++ "; emergency child cleanup also failed: " ++
      "; ".intercalate failures))

/-- One round of the loop of `kill_and_reap_after_failure`. -/
def Engine.clean (e : Engine) (error : GuardError) (failures : List String) : GuardM Phase := do
  match ← ask .readImmediateChildren with
  | .error source => pure (.ended e (cleanupResult error
      (failures ++ ["could not enumerate children during emergency cleanup: " ++ source])))
  | .ok children =>
    let failures ← killEach children failures
    match ← ask .reapOneBlocking with
    | .ok (some _) => pure (.cleaning e error failures)
    | .ok none => pure (.ended e (cleanupResult error failures))
    | .error source => pure (.ended e (cleanupResult error
        (failures ++ ["waitpid failed during emergency cleanup: " ++ source])))

def Engine.fail (e : Engine) (error : GuardError) : GuardM Phase := do
  let sent ← ask (.sendSignalToGroup e.childPid SIGKILL)
  pure (.cleaning e error
    (failureOf ("could not send SIGKILL to child process group " ++ toString e.childPid ++ ": ") sent))

/-- The first half of `terminate_network_helper`; what its signals come to is only printed. -/
def Engine.terminateNetworkHelper (e : Engine) (result : Outcome) : GuardM (Phase ⊕ Outcome) :=
  match e.networkPid with
  | none => pure (.inr result)
  | some pid => do
    let _ ← ask (.sendSignalToGroup pid SIGTERM)
    let now ← ask .now
    pure (.inl (.stopping pid (now + 2000000000) result))

/-- One round of its loop, and what follows the last. -/
def stopNetworkHelper (pid deadline : Nat) (result : Outcome) : GuardM (Phase ⊕ Outcome) := do
  match ← ask (.reapSpecificNonblocking pid) with
  | .ok true => pure (.inr result)
  | .error _ => pure (.inr result)
  | .ok false =>
    let now ← ask .now
    if deadline ≤ now then do
      let _ ← ask (.sendSignalToGroup pid SIGKILL)
      let _ ← ask (.reapSpecificBlocking pid)
      pure (.inr result)
    else do
      let _ ← ask .sleep
      pure (.inl (.stopping pid deadline result))

def Engine.poll (e : Engine) (timeoutMs : Int) : GuardM Phase := do
  match ← ask (.poll e.liveness e.pidfd timeoutMs) with
  | .error error => pure (.failed e (.system "poll failed" error))
  | .ok polled => e.onPolled polled

/-- `run_guard`. -/
def turn : Phase → GuardM (Phase ⊕ Outcome)
  | .reaping e => Sum.inl <$> (ask .reapOne >>= e.onReaped)
  | .polling e timeoutMs => Sum.inl <$> e.poll timeoutMs
  | .failed e error => Sum.inl <$> e.fail error
  | .cleaning e error failures => Sum.inl <$> e.clean error failures
  | .ended e result => e.terminateNetworkHelper result
  | .stopping pid deadline result => stopNetworkHelper pid deadline result

structure Sent where
  id : Nat
  signal : Nat
  deriving DecidableEq

/-- The table of the processes, with the guard as its owner; whom it has signalled; and the identity
and the number of its network helper. -/
structure World where
  table : Table
  clock : Nat
  sent : List Sent
  helper : Option (Nat × Nat)

namespace World

/-- The signal reaches the processes that `hit` selects. -/
def deliver (w : World) (signal : Nat) (hit : Process → Bool) : World :=
  { w with sent := (w.table.processes.filter hit).map (fun p => ⟨p.id, signal⟩) ++ w.sent }

def childAt (w : World) (pid : Nat) :
    Option Process := (w.table.holder pid).filter fun p => p.parent = 0

def reap (w : World) (pid status : Nat) : Option World :=
  match w.childAt pid with
  | some p => if p.status = some status then some { w with table := w.table.remove p.id } else none
  | none => none

/-- `waitpid` for a number returns: there is no such child, or it has ended. -/
def reapSpecific (w : World) (pid : Nat) : Option World :=
  match w.childAt pid with
  | none => some w
  | some p => if p.status.isSome then some { w with table := w.table.remove p.id } else none

/-- A program is executed: a new child that leads a group of its own. -/
def spawn (w : World) (pid : Nat) : Option World :=
  if h : w.table.Free pid then some { w with table := w.table.add 0 pid pid h } else none

/-- The world after an answer. An error leaves it as it is. -/
def answer : (e : Call) → World → e.Ans → Option World
  | .reapOne, w, .ok (.exited pid status) => w.reap pid status
  | .reapOne, w, .ok .noExitedChild =>
    if w.table.children ≠ [] ∧ ∀ p ∈ w.table.children, p.status = none then some w else none
  | .reapOne, w, .ok .noChildren => if w.table.children = [] then some w else none
  | .reapOneBlocking, w, .ok (some (pid, status)) => w.reap pid status
  | .reapOneBlocking, w, .ok none => if w.table.children = [] then some w else none
  | .reapSpecificNonblocking pid, w, .ok true => w.reapSpecific pid
  | .reapSpecificNonblocking pid, w, .ok false =>
    if (w.childAt pid).any (·.status.isNone) then some w else none
  | .reapSpecificBlocking pid, w, .ok _ => w.reapSpecific pid
  | .readImmediateChildren, w, .ok pids =>
    if pids.Perm (w.table.children.map Process.pid) then some w else none
  | .sendSignalToProcess pid signal, w, .ok _ => some (w.deliver signal fun p => p.pid = pid)
  | .sendSignalToGroup group signal, w, .ok _ => some (w.deliver signal fun p => p.group = group)
  | .now, w, time => if w.clock ≤ time then some { w with clock := time } else none
  | _, w, _ => some w

def move (m : Move) (w : World) : Option World := (w.table.move m).map fun t =>
    { w with table := t }

end World

def kernel : Setting Call.Ans World Move := ⟨World.answer, World.move⟩

structure GuardOptions where
  livenessFd : Option Int
  termTimeout : Nat
  networkHelper : List String

/-- The network helper is executed first, if there is one. -/
def World.spawnHelper (o : GuardOptions) (t : Table) (pid : Nat) : Option World :=
  if o.networkHelper = [] then some ⟨t, 0, [], none⟩
  else World.spawn ⟨t, 0, [], some (t.next, pid)⟩ pid

/-- `run_guard` with its programs executed, the helper as `helper` and the command as `child`. -/
def started (o : GuardOptions) (t : Table) (helper child : Nat) (pidfd : Bool) :
    Option (Config Call.Ans World Phase Outcome) := do
  let w ← World.spawnHelper o t helper
  let w ← w.spawn child
  some ⟨w, .ret (.inl (.reaping {
    networkPid := if o.networkHelper = [] then none else some helper
    childPid := child
    directOutcome := none
    pidfd
    liveness := o.livenessFd.isSome
    termTimeout := o.termTimeout
    shutdown := none
    infrastructureFailure := none }))⟩

/-- A configuration that the guard, started on some table, is brought to by steps allowed by `cond`. -/
def Run (cond : World → Act Call.Ans Move → Prop) (o : GuardOptions)
    (c : Config Call.Ans World Phase Outcome) : Prop :=
  ∃ t helper child pidfd c₀, started o t helper child pidfd = some c₀ ∧ kernel.Reach cond turn c₀ c

theorem Run.exists_of_replay {cond : World → Act Call.Ans Move → Prop}
    {ok : World → Act Call.Ans Move → Bool}
    (hok : ∀ w a, ok w a = true → cond w a) {o : GuardOptions} {t : Table} {helper child : Nat}
    {pidfd : Bool}
    (evs : List (Event Call.Ans Move)) (test : Config Call.Ans World Phase Outcome → Bool)
    (h : ((started o t helper child pidfd).any fun c => (kernel.replay turn ok c evs).any test) = true) :
    ∃ c, Run cond o c ∧ test c = true := by
  cases hc₀ : started o t helper child pidfd with
  | none =>
    rw [hc₀] at h
    cases h
  | some c₀ =>
    rw [hc₀] at h
    obtain ⟨c, hreach, hc⟩ := Reach.exists_of_replay hok evs test h
    exact ⟨c, ⟨t, helper, child, pidfd, c₀, hc₀, hreach⟩, hc⟩

/-- The helper of this number has been reaped, and nothing is left of its group. -/
def World.HelperGone (w : World) (pid : Nat) : Prop :=
  ∃ id, w.helper = some (id, pid) ∧ ∀ p ∈ w.table.processes, p.id ≠ id ∧ p.group ≠ pid

/-- All steps. -/
def always (_ : World) (_ : Act Call.Ans Move) : Prop := True

/-- In some run the guard signals the group of its helper after the helper is gone. -/
def Strays (o : GuardOptions) : Prop :=
  ∃ c c' pid signal k, Run always o c ∧ c.world.HelperGone pid ∧ kernel.Reach always turn c c' ∧
    c'.rest = .call (.sendSignalToGroup pid signal) k

variable {w w' : World}

theorem helper_reap {pid status : Nat} (h : w.reap pid status = some w') :
    w'.helper = w.helper := by
  unfold World.reap at h
  split at h
  · cases (Option.ite_none_right_eq_some.mp h).2
    rfl
  · cases h

theorem helper_reapSpecific {pid : Nat} (h : w.reapSpecific pid = some w') :
    w'.helper = w.helper := by
  unfold World.reapSpecific at h
  split at h
  · cases h
    rfl
  · cases (Option.ite_none_right_eq_some.mp h).2
    rfl

theorem helper_answer {e : Call} {r : e.Ans} (h : World.answer e w r = some w') :
    w'.helper = w.helper := by
  unfold World.answer at h
  split at h
  case h_1 | h_4 => exact helper_reap h
  case h_6 | h_8 => exact helper_reapSpecific h
  case h_10 | h_11 | h_13 => cases h; rfl
  all_goals
    cases (Option.ite_none_right_eq_some.mp h).2
    rfl

theorem helper_reach {cond : World → Act Call.Ans Move → Prop}
    {c c' : Config Call.Ans World Phase Outcome}
    (h : kernel.Reach cond turn c c') : c'.world.helper = c.world.helper := by
  induction h with
  | refl => rfl
  | tail _ hstep ih =>
    refine .trans ?_ ih
    cases hstep with
    | move _ hm =>
      obtain ⟨t, -, rfl⟩ := Option.map_eq_some_iff.mp hm
      rfl
    | answer _ ha => exact helper_answer ha
    | turn => rfl

theorem helper_started {o : GuardOptions} {t : Table} {helper child : Nat} {pidfd : Bool}
    {c : Config Call.Ans World Phase Outcome} (ho : o.networkHelper = [])
    (h : started o t helper child pidfd = some c) : c.world.helper = none := by
  unfold started World.spawnHelper World.spawn at h
  simp only [if_pos ho, Option.bind_eq_bind, Option.bind_eq_some_iff, Option.some.injEq] at h
  obtain ⟨w, rfl, w', hw', rfl⟩ := h
  split at hw'
  · cases hw'
    rfl
  · cases hw'

namespace HelperSample

def reaps (reaped : ReapedChild) : Event Call.Ans Move :=
  .answer fun
    | .reapOne => .ok reaped
    | .reapOneBlocking => .ok none
    | .reapSpecificNonblocking _ => .ok true
    | .reapSpecificBlocking _ | .sendSignalToProcess _ _ | .sendSignalToGroup _ _ => .ok ()
    | .readImmediateChildren | .readPending => .ok []
    | .now => 0
    | .poll _ _ _ => .error ""
    | .readLiveness => .ok false
    | .sleep => ()

def helperEnds : List (Event Call.Ans Move) := [.move (.exit 1 0 0), .turn, reaps (.exited 20 0)]

/-- The command, with number 10, ends and is reaped, and the guard is about to stop the helper. -/
def commandEnds : List (Event Call.Ans Move) :=
  [.move (.exit 2 0 0), .turn, reaps (.exited 10 0), .turn, reaps .noChildren, .turn]

def gone (c : Config Call.Ans World Phase Outcome) : Bool :=
  c.world.helper = some (1, 20) && c.world.table.processes.all fun p => p.id ≠ 1 && p.group ≠ 20

def signals (c : Config Call.Ans World Phase Outcome) : Bool :=
  match c.rest with
  | .call (.sendSignalToGroup pid _) _ => pid = 20 && gone c
  | _ => false

variable {o : GuardOptions} {c : Config Call.Ans World Phase Outcome}

theorem gone_true (h : gone c = true) : c.world.HelperGone 20 := by
  simp only [gone, Bool.and_eq_true, decide_eq_true_eq, List.all_eq_true] at h
  exact ⟨1, h.1, fun p hp => h.2 p hp⟩

theorem strays_of_signals (hrun : Run always o c) (h : signals c = true) : Strays o := by
  unfold signals at h
  split at h
  · next pid signal k hrest =>
    simp only [Bool.and_eq_true, decide_eq_true_eq] at h
    obtain ⟨rfl, hgone⟩ := h
    exact ⟨c, c, 20, signal, k, hrun, gone_true hgone, .refl, hrest⟩
  · cases h

end HelperSample

open HelperSample in
/-- Without a helper there is nothing to signal. With one the guard signals its group after the
helper and the command have ended by themselves. -/
theorem helper_signals_iff (o : GuardOptions) : ¬Strays o ↔ o.networkHelper = [] := by
  constructor
  · intro h
    by_contra hne
    obtain ⟨livenessFd, termTimeout, networkHelper⟩ := o
    obtain ⟨word, words, rfl⟩ := List.exists_cons_of_ne_nil hne
    have hreplay : ((started ⟨livenessFd, termTimeout, word :: words⟩ (.empty 2) 20 10 false).any fun c =>
        (kernel.replay turn (fun _ _ => true) c (helperEnds ++ commandEnds)).any signals) = true :=
          rfl
    obtain ⟨c, hrun, hsignals⟩ := Run.exists_of_replay (fun _ _ _ => trivial) _ _ hreplay
    exact h (strays_of_signals hrun hsignals)
  · rintro ho ⟨c, c', pid, signal, k, ⟨t, helper, child, pidfd, c₀, hstart, hreach⟩,
      ⟨id, hhelper, -⟩, -⟩
    rw [helper_reach hreach, helper_started ho hstart] at hhelper
    cases hhelper

open HelperSample in
/-- The helper ends and is reaped, a process of someone else gets its number and leads a group, and
the command ends: the guard sends SIGTERM to that process. -/
theorem stranger_signalled :
    ∃ c c', Run always ⟨none, 0, ["passt"]⟩ c ∧ c.world.HelperGone 20 ∧
      kernel.Reach always turn c c' ∧
      ⟨3, 20, 20, 7, none⟩ ∈ c'.world.table.processes ∧ ⟨3, SIGTERM⟩ ∈ c'.world.sent := by
  have hreplay : ((started ⟨none, 0, ["passt"]⟩ (.empty 2) 20 10 false).any fun c =>
      (kernel.replay turn (fun _ _ => true) c helperEnds).any fun c => gone c &&
        (kernel.replay turn (fun _ _ => true) c (.move (.fork 7 20 20) :: commandEnds ++
          [reaps .noChildren])).any fun c' =>
          decide (⟨3, 20, 20, 7, none⟩ ∈ c'.world.table.processes ∧
            ⟨3, SIGTERM⟩ ∈ c'.world.sent)) = true := by
    decide +kernel
  obtain ⟨c, hrun, hc⟩ := Run.exists_of_replay (fun _ _ _ => trivial) _ _ hreplay
  rw [Bool.and_eq_true] at hc
  obtain ⟨c', hreach, hc'⟩ := Reach.exists_of_replay (fun _ _ _ => trivial) _ _ hc.2
  exact ⟨c, c', hrun, gone_true hc.1, hreach, of_decide_eq_true hc'⟩

end PocketVm.Guard
