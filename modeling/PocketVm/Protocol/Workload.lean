import PocketVm.Protocol.BuilderState
import PocketVm.Protocol.FrameStream

/-!
# The workload session

`state.rs`: the lifecycle of one run as either side sees it. Both sides keep such a session and
offer it every message they send or receive, so the two differ by what is on its way between them.
`Joint` says how they can differ.
-/

namespace PocketVm.Protocol

open Checked

inductive WorkloadState where
  | awaitHello | awaitStart | awaitReady | running | shuttingDown | exited | failed
  deriving DecidableEq

namespace WorkloadState

def asStr : WorkloadState → String
  | awaitHello => "await-hello"
  | awaitStart => "await-start"
  | awaitReady => "await-ready"
  | running => "running"
  | shuttingDown => "shutting-down"
  | exited => "exited"
  | failed => "failed"

def isTerminal : WorkloadState → Bool
  | exited | failed => true
  | _ => false

/-- The table of `accept`: the state a message leads to, if it may come now. -/
def next : WorkloadState → Direction → MessageKind → Option WorkloadState
  | awaitHello, .guestToHost, .hello => some awaitStart
  | awaitStart, .hostToGuest, .start => some awaitReady
  | awaitReady, .guestToHost, .ready => some running
  | awaitHello, .guestToHost, .error | awaitStart, .guestToHost, .error | awaitReady, .guestToHost,
    .error => some failed
  | running, .hostToGuest, .signal | running, .hostToGuest, .resize => some running
  | running, .hostToGuest, .shutdown => some shuttingDown
  | running, .guestToHost, .exit | shuttingDown, .guestToHost, .exit => some exited
  | running, .guestToHost, .error | shuttingDown, .guestToHost, .error => some failed
  | _, _, _ => none

end WorkloadState

structure WorkloadSession where
  state : WorkloadState
  nextHostSequence : UInt64
  nextGuestSequence : UInt64
  deriving DecidableEq

namespace WorkloadSession

def new : WorkloadSession := ⟨.awaitHello, 0, 0⟩

def nextSequence (s : WorkloadSession) : Direction → UInt64
  | .hostToGuest => s.nextHostSequence
  | .guestToHost => s.nextGuestSequence

def setSequence (s : WorkloadSession) (direction : Direction) (sequence : UInt64) :
    WorkloadSession :=
  match direction with
  | .hostToGuest => { s with nextHostSequence := sequence }
  | .guestToHost => { s with nextGuestSequence := sequence }

/-- The session after a frame header, if it is accepted; a refused one leaves it as it was. -/
def accept (s : WorkloadSession) (direction : Direction) (kind : MessageKind) (sequence : UInt64) :
    Except ProtocolError WorkloadSession := do
  stop (sequence ≠ s.nextSequence direction) (.sequenceMismatch (s.nextSequence direction) sequence)
  let state ← require (s.state.next direction kind)
    (.invalidStateTransition s.state.asStr direction.asStr kind.toU16)
  let incremented ← Protocol.nextSequence sequence
  return { s.setSequence direction incremented with state }

variable {s s' : WorkloadSession} {direction : Direction} {kind : MessageKind} {sequence : UInt64}

theorem accept_ok : s.accept direction kind sequence = .ok s' ↔
    sequence = s.nextSequence direction ∧ sequenceSpace sequence ≠ 0 ∧ ∃ state,
      s.state.next direction kind = some state ∧
        s' = { s.setSequence direction (sequence + 1) with state } := by
  unfold accept
  simp only [bind_ok, stop_ok, require_ok, pure_ok, not_not]
  constructor
  · rintro ⟨-, hsequence, state, hstate, incremented, hincremented, rfl⟩
    by_cases hspace : sequenceSpace sequence = 0
    · rw [nextSequence_exhausted hspace] at hincremented
      cases hincremented
    · rw [(nextSequence_eq hspace).1] at hincremented
      cases hincremented
      exact ⟨hsequence, hspace, state, hstate, rfl⟩
  · rintro ⟨hsequence, hspace, state, hstate, rfl⟩
    exact ⟨(), hsequence, state, hstate, _, (nextSequence_eq hspace).1, rfl⟩

end WorkloadSession

namespace WorkloadState

variable {h h' g g' : WorkloadState} {direction : Direction} {kind : MessageKind}
  {toHost toGuest : List MessageKind}

theorem next_terminal (hterminal : h.isTerminal = true) : h.next direction kind = none := by
  cases h with
  | exited => rfl
  | failed => rfl
  | _ => cases hterminal

/-- Only the guest ends a run. -/
theorem next_live (hnext : g.next .hostToGuest kind = some g') : g'.isTerminal = false := by
  cases g <;> cases kind <;> cases hnext <;> rfl

def follow (h : WorkloadState) (toHost : List MessageKind) : Option WorkloadState :=
  toHost.foldlM (fun state kind => state.next .guestToHost kind) h

theorem follow_cons : h.follow (kind :: toHost) = (h.next .guestToHost kind).bind fun h' =>
    h'.follow toHost := rfl

/-- A guest message that ends the run is accepted before and after whatever the host sends: the two
cross without either noticing. -/
theorem next_crosses (hsend : h.next .hostToGuest kind = some h') {last : MessageKind}
    (hlast : h.next .guestToHost last = some g) : g.isTerminal = true ∧
    h'.next .guestToHost last = some g := by
  cases h with
  | awaitStart =>
    cases kind <;> cases hsend
    cases last <;> cases hlast
    exact ⟨rfl, rfl⟩
  | running =>
    cases kind <;> cases hsend <;> cases last <;> cases hlast <;> exact ⟨rfl, rfl⟩
  | _ => cases kind <;> cases hsend

theorem follow_crosses (hsend : h.next .hostToGuest kind = some h')
    (hterminal : g.isTerminal = true)
    (hfollow : h.follow toHost = some g) : h'.follow toHost = some g := by
  cases toHost with
  | nil =>
    rw [Option.some.inj hfollow, next_terminal hterminal] at hsend
    cases hsend
  | cons last toHost =>
    rw [follow_cons, Option.bind_eq_some_iff] at hfollow
    obtain ⟨state, hlast, hrest⟩ := hfollow
    obtain ⟨hend, hcrossed⟩ := next_crosses hsend hlast
    rw [follow_cons, hcrossed]
    exact hrest

/-- The host's state, the guest's, and the messages on their way to each. Once the guest has ended
the run, what it sent last still leads the host to the same end, and nothing it is sent matters. -/
inductive Joint : WorkloadState → WorkloadState → List MessageKind → List MessageKind → Prop
  | quiet : Joint awaitHello awaitHello [] []
  | helloSent : Joint awaitHello awaitStart [.hello] []
  | greeted : Joint awaitStart awaitStart [] []
  | startSent : Joint awaitReady awaitStart [] [.start]
  | started : Joint awaitReady awaitReady [] []
  | readySent : Joint awaitReady running [.ready] []
  | running {toGuest : List MessageKind}
    (hcontrols : ∀ kind ∈ toGuest, kind = .signal ∨ kind = .resize) :
    Joint running running [] toGuest
  | shutdownSent {toGuest : List MessageKind}
    (hcontrols : ∀ kind ∈ toGuest, kind = .signal ∨ kind = .resize) :
    Joint shuttingDown running [] (toGuest ++ [.shutdown])
  | shuttingDown : Joint shuttingDown shuttingDown [] []
  | ended {h g : WorkloadState} {toHost toGuest : List MessageKind}
    (hterminal : g.isTerminal = true)
    (hfollow : h.follow toHost = some g) : Joint h g toHost toGuest

namespace Joint

theorem guest_sends (hjoint : Joint h g toHost toGuest)
    (hsend : g.next .guestToHost kind = some g') :
    Joint h g' (toHost ++ [kind]) toGuest := by
  cases hjoint with
  | quiet =>
    cases kind <;> cases hsend
    · exact .helloSent
    · exact .ended rfl rfl
  | helloSent =>
    cases kind <;> cases hsend
    exact .ended rfl rfl
  | greeted =>
    cases kind <;> cases hsend
    exact .ended rfl rfl
  | startSent =>
    cases kind <;> cases hsend
    exact .ended rfl rfl
  | started =>
    cases kind <;> cases hsend
    · exact .readySent
    · exact .ended rfl rfl
  | readySent => cases kind <;> cases hsend <;> exact .ended rfl rfl
  | running => cases kind <;> cases hsend <;> exact .ended rfl rfl
  | shutdownSent => cases kind <;> cases hsend <;> exact .ended rfl rfl
  | shuttingDown => cases kind <;> cases hsend <;> exact .ended rfl rfl
  | ended hterminal =>
    rw [next_terminal hterminal] at hsend
    cases hsend

theorem host_sends (hjoint : Joint h g toHost toGuest)
    (hsend : h.next .hostToGuest kind = some h') :
    Joint h' g toHost (toGuest ++ [kind]) := by
  cases hjoint with
  | greeted =>
    cases kind <;> cases hsend
    exact .startSent
  | running hcontrols =>
    cases kind <;> cases hsend
    · refine .running fun kind hkind => ?_
      rcases List.mem_append.mp hkind with hkind | hkind
      · exact hcontrols kind hkind
      · exact .inl (List.mem_singleton.mp hkind)
    · refine .running fun kind hkind => ?_
      rcases List.mem_append.mp hkind with hkind | hkind
      · exact hcontrols kind hkind
      · exact .inr (List.mem_singleton.mp hkind)
    · exact .shutdownSent hcontrols
  | ended hterminal hfollow => exact .ended hterminal (follow_crosses hsend hterminal hfollow)
  | _ => cases kind <;> cases hsend

theorem host_accepts (hjoint : Joint h g (kind :: toHost) toGuest) :
    ∃ h', h.next .guestToHost kind = some h' ∧ Joint h' g toHost toGuest := by
  cases hjoint with
  | helloSent => exact ⟨_, rfl, .greeted⟩
  | readySent => exact ⟨_, rfl, .running (by simp)⟩
  | ended hterminal hfollow =>
    rw [follow_cons, Option.bind_eq_some_iff] at hfollow
    obtain ⟨h', hnext, hfollow⟩ := hfollow
    exact ⟨h', hnext, .ended hterminal hfollow⟩

theorem guest_accepts (hjoint : Joint h g toHost (kind :: toGuest)) (hlive : g.isTerminal = false) :
    ∃ g', g.next .hostToGuest kind = some g' ∧ Joint h g' toHost toGuest := by
  generalize hall : kind :: toGuest = all at hjoint
  cases hjoint with
  | startSent =>
    cases hall
    exact ⟨_, rfl, .started⟩
  | running hcontrols =>
    subst hall
    have hrest : Joint .running .running [] toGuest := .running fun k hk =>
      hcontrols k (List.mem_cons_of_mem _ hk)
    rcases hcontrols kind (List.mem_cons_self ..) with rfl | rfl
    · exact ⟨_, rfl, hrest⟩
    · exact ⟨_, rfl, hrest⟩
  | @shutdownSent before hcontrols =>
    cases before with
    | nil =>
      cases hall
      exact ⟨_, rfl, .shuttingDown⟩
    | cons first before =>
      obtain ⟨rfl, rfl⟩ := List.cons.inj hall
      have hrest : Joint .shuttingDown .running [] (before ++ [.shutdown]) :=
        .shutdownSent fun k hk => hcontrols k (List.mem_cons_of_mem _ hk)
      rcases hcontrols kind (List.mem_cons_self ..) with rfl | rfl
      · exact ⟨_, rfl, hrest⟩
      · exact ⟨_, rfl, hrest⟩
  | ended hterminal =>
    rw [hterminal] at hlive
    cases hlive
  | _ => cases hall

theorem host_ended (hjoint : Joint h g toHost toGuest) (hterminal : h.isTerminal = true) :
    toHost = [] ∧ g = h := by
  cases hjoint with
  | ended _ hfollow =>
    cases toHost with
    | nil => exact ⟨rfl, (Option.some.inj hfollow).symm⟩
    | cons kind toHost =>
      rw [follow_cons, next_terminal hterminal] at hfollow
      cases hfollow
  | _ => cases hterminal

theorem all_read (hjoint : Joint h g [] toGuest)
    (hread : toGuest = [] ∨ g.isTerminal = true) : h = g := by
  generalize hnone : [] = toHost at hjoint
  cases hjoint with
  | ended _ hfollow =>
    subst hnone
    exact Option.some.inj hfollow
  | helloSent | readySent => cases hnone
  | startSent | shutdownSent => simp [isTerminal] at hread
  | _ => rfl

end Joint

end WorkloadState

end PocketVm.Protocol
