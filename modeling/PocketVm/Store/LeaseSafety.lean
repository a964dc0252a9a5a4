import PocketVm.Store.LeasePublish

/-!
# A lease protects its generation

Every operation keeps the lease discipline, so over every run a generation that some process has
leased, and every file of it, stays where it is until that process drops the lease. `acquire_lease`
on its own is such an operation only in the runs that `leaseCond True` is about.
-/

namespace PocketVm.Store

open Conc Discipline Footprint

variable {host : Host} {bare : Prop} {p : Nat} {s s' : State} {g : GenerationId}

namespace Lease

section
variable (hb : bare)

/-- The lease file is open, and on the inode of its name as long as the generation is there. -/
def tied (p : Nat) (g : GenerationId) (l : Option LockMode) : Assn (leases host bare) p where
  holds s := ∃ fd, s.fds.lookup (p, .lease g) = some fd ∧ fd.lock = l ∧
    (Present s g → s.lockFiles.lookup (.lease g) = some fd.ino)
  stable q s s' hq _ _ hg h := by
    obtain ⟨fd, hfd, hl, hn⟩ := h
    refine ⟨fd, (hg.locks.fds p _ hq.symm).trans hfd, hl, fun hp' => ?_⟩
    have hname : s.lockFiles.lookup (.lease g) = some fd.ino := by
      by_cases hp : Present s g
      · exact hn hp
      · -- the generation appears: no process has another lease file of it open
        exact (hg.created g hp hp').2 hb p fd hfd
    rcases hg.kept g _ hname with h | ⟨-, hno, -⟩
    · exact h
    · exact absurd hp' hno

theorem spec_openTied (hk : KeyBinding host) :
    Spec host (⊤ : Assn (leases host bare) p) (openLeaseLock g) (fun _ => tied hb p g none)
      fun _ => ⊤ := by
  refine .bind (spec_ensureLease hk .top fun _ _ _ => .inl hb) fun _ =>
    Spec.ask ⟨?_, fun _ _ h _ _ => h⟩
  intro s a s' hi _ _ h
  change execLock host p s (.open (.lease g)) = _ at h
  simp only [execLock, State.answer, State.fail] at h
  split at h
  · cases h
    exact ⟨hi, (leases host bare).guar_refl p s, trivial⟩
  · next ino hn =>
    cases h
    have hown := OwnFd.insert p ⟨ino, none⟩ (.inl hn)
    obtain ⟨hi', hg⟩ := (leases_locking host bare).own p _ s _ trivial hown hi (hi.1.open_fd ino)
    exact ⟨hi', hg, _, AList.lookup_insert _, rfl, fun _ => hn⟩

theorem spec_lockTied {operation : String} :
    Spec host (tied hb p g none : Assn (leases host bare) p)
      (ask operation (.lock (.lock (.lease g) .shared))) (fun _ => tied hb p g (some .shared))
        fun _ => ⊤ := by
  refine Spec.ask ((leases_locking host bare).asks_lock trivial (fun s s' _ hs _ hown hfd => ?_)
    fun _ _ _ => trivial)
  obtain ⟨fd, hfd, hfd'⟩ := hfd
  obtain ⟨fd₀, hfd₀, -, hn⟩ := hs
  cases hfd.symm.trans hfd₀
  refine ⟨_, hfd', rfl, fun hp => ?_⟩
  rw [hown.lockFiles]
  exact hn ((SameLeases.of_own hown).present.mp hp)

include hb in
theorem spec_acquireLease (hk : KeyBinding host) :
    Spec host (⊤ : Assn (leases host bare) p) (acquireLease host g)
      (fun gen => leased p gen.manifest.id) fun _ => ⊤ := by
  refine .bind (spec_openTied hb hk) fun _ => Spec.closeOnError (X := fun _ => ⊤)
    (.bind (spec_lockTied hb) fun _ => ?_) fun _ =>
      asks_closeOwn (K := (· = .lease g)) (Z := fun _ => False) rfl .top fun _ h => h
  have hverify : Spec host (tied hb p g (some .shared) : Assn (leases host bare) p)
      (verifyGeneration host g)
      (fun gen => (tied hb p g (some .shared) ⊓ leased p g) ⊓ .fact (Verified host g gen))
      fun _ => tied hb p g (some .shared) :=
    Spec.verify (fun s d _ hs hd => by
      obtain ⟨fd, hfd, hl, hn⟩ := hs
      exact ⟨⟨fd, hfd, hl, hn⟩, ⟨fd, hfd, .inr (hn ⟨d, hd⟩), hl⟩, d, hd⟩) fun _ hs => hs.1
  refine hverify.conseq (fun _ _ h => h) (fun gen _ _ h => ?_) fun _ _ _ _ => trivial
  show leased p gen.manifest.id _
  rw [Verified.id_eq h.2]
  exact h.1.2

end

end Lease

def Value.lease : Value → Option GenerationId
  | .leased generation | .retainedLease _ generation => some generation.manifest.id
  | _ => none

namespace Lease

def ended (p : Nat) : Ret → Assn (leases host bare) p
  | .ok v => .all fun g : {g // v.lease = some g} => leased p g.1
  | .error _ => ⊤

theorem ended_of_leased {v : Value} (hv : v.lease = some g)
    (h : (leased p g : Assn (leases host bare) p) s) :
    (ended p (.ok v) : Assn (leases host bare) p) s := by
  rintro ⟨g', hg'⟩
  cases hv.symm.trans hg'
  exact h

theorem ended_of_none {v : Value} (hv : v.lease = none) :
    (ended p (.ok v) : Assn (leases host bare) p) s :=
  fun g => nomatch hv.symm.trans g.2

theorem spec_routine (hk : KeyBinding host) {op : Op} (hop : leaseOp bare op) :
    Spec host (⊤ : Assn (leases host bare) p) (routine host op) (fun v => ended p (.ok v))
      fun _ => ⊤ := by
  cases op with
  | build input => exact Spec.map (spec_build hk input) fun _ _ h => ended_of_leased rfl h
  | acquireLease g => exact Spec.map (spec_acquireLease hop hk) fun _ _ h => ended_of_leased rfl h
  | leaseAlias key => exact Spec.map (spec_leaseAlias hk key) fun _ _ h => ended_of_leased rfl h
  | leaseRetainedCow id =>
    exact .bind (spec_leaseRetainedCow hk id) fun r => .pure fun _ _ h => ended_of_leased rfl h
  | setAlias key id =>
    exact .bind (spec_setAlias key id) fun _ => .pure fun _ _ _ => ended_of_none rfl
  | registerRetainedCow id path digest state =>
    exact Spec.map (spec_registerRetainedCow id path digest state) fun _ _ _ => ended_of_none rfl
  | garbageCollect => exact Spec.map (spec_garbageCollect hk) fun _ _ _ => ended_of_none rfl
  | recover => exact Spec.map spec_recover fun _ _ _ => ended_of_none rfl
  | _ => exact hop.elim

theorem spec_run (hk : KeyBinding host) {op : Op} (hop : leaseOp bare op) (s : State) :
    (leases host bare).wp (system host) p (routine host op).run
      (fun r => (ended p r : Assn (leases host bare) p)) s := by
  refine wp_mono (spec_routine hk hop s trivial) fun r s' _ hr => ?_
  cases r <;> exact hr

theorem sound (hk : KeyBinding host) :
    (leases host bare).Sound (system host) fun p r => (ended p r : Assn (leases host bare) p) where
  start p op s hi hc := by
    have hsame : SameLeases s (enter p op s) := ⟨fun _ => rfl, fun _ => rfl, rfl, rfl⟩
    exact ⟨⟨hi.1.of_sub fun _ _ h => h, hsame.consistent hi.2⟩, hsame.step ⟨fun _ _ _ => rfl⟩,
      spec_run hk hc _⟩
  kill p s hi _ := by
    have hsame : SameLeases s (leave p s) := ⟨fun _ => rfl, fun _ => rfl, rfl, rfl⟩
    obtain ⟨hl, hls⟩ := hi.1.leave p
    exact ⟨⟨hl, hsame.consistent hi.2⟩, hsame.step hls⟩

end Lease

/-- An initial configuration: nothing runs, no lock file is open, every generation has its lease
file and every root names a generation. -/
structure Initial (c : Config Req.Ans State Ret) : Prop where
  idle : ∀ p, c.procs p = none
  closed : c.shared.fds = ∅
  consistent : Consistent c.shared

/-- Process `p` has returned a lease on `g` and not dropped it. -/
def HasLease (c : Config Req.Ans State Ret) (p : Nat) (g : GenerationId) : Prop :=
  ∃ v, c.procs p = some (.ret (.ok v)) ∧ v.lease = some g

theorem Initial.locks {c : Config Req.Ans State Ret} (h : Initial c) : Locks fixed c.shared := by
  have hno : ∀ k fd, c.shared.fds.lookup k ≠ some fd := by
    intro k fd hfd
    rw [h.closed] at hfd
    cases hfd
  exact ⟨fun k _ fd _ _ _ hfd => absurd hfd (hno k fd),
    fun n p _ fd _ _ _ _ _ hfd => absurd hfd (hno (p, n) fd)⟩

theorem Spares.trans {s₁ s₂ s₃ : State} (h : Spares g s₁ s₂) (h' : Spares g s₂ s₃) :
    Spares g s₁ s₃ := by
  intro d hd
  obtain ⟨d', hd', hf⟩ := h d hd
  obtain ⟨d'', hd'', hf'⟩ := h' d' hd'
  exact ⟨d'', hd'', fun f x hx => hf' f x (hf f x hx)⟩

namespace Lease

variable {c₀ c c' : Config Req.Ans State Ret}

theorem leased_of_hasLease (hc : (leases host bare).Runnable (system host)
      (fun p r => (ended p r : Assn (leases host bare) p)) c) (hl : HasLease c p g) :
    (leased p g : Assn (leases host bare) p) c.shared := by
  obtain ⟨v, hp, hv⟩ := hl
  exact hc.post hp ⟨g, hv⟩

/-- While the others run, a leased generation stays leased and whole. -/
theorem spares_run (hk : KeyBinding host) (h₀ : Initial c₀)
    (hr : (system host).Reach (leaseCond bare) c₀ c) (hl : HasLease c p g)
    (hr' : (system host).Reach (others p (leaseCond bare)) c c') :
    Held c'.shared p (.lease g) .shared ∧ Present c'.shared g ∧ Spares g c.shared c'.shared := by
  have hc : (leases host bare).Runnable (system host)
      (fun p r => (ended p r : Assn (leases host bare) p)) c :=
    (sound hk).reach ⟨h₀.locks, h₀.consistent⟩ h₀.idle hr
  suffices h : (leases host bare).Runnable (system host)
      (fun p r => (ended p r : Assn (leases host bare) p)) c' ∧
      (leased p g : Assn (leases host bare) p) c'.shared ∧ Spares g c.shared c'.shared from
    ⟨h.2.1.1, h.2.1.2, h.2.2⟩
  induction hr' with
  | refl => exact ⟨hc, leased_of_hasLease hc hl, fun d hd => ⟨d, hd, fun _ _ h => h⟩⟩
  | @tail c₁ q a c₂ _ hcond hs ih =>
    obtain ⟨hc₁, hl₁, hsp⟩ := ih
    obtain ⟨hc₂, hg⟩ := hc₁.step (sound hk) hcond.2 hs
    exact ⟨hc₂, (leased p g).stable q _ _ hcond.1 hc₁.1 hc₂.1 hg hl₁,
      hsp.trans (hg.spares_of_held hc₁.1.1 hcond.1 hl₁.1)⟩

end Lease

/-! Whether a step meets the conditions, and what a replayed run ends with. -/

def leaseCheck (ops : Op → Bool) (s : State) (p : Nat) : Act Op Req → Bool
  | .start op => ops op
  | .run (.lock (.lock n m)) => !isFixed n || grantedAsNamed s p n m
  | .run (.lock (.tryLock n)) => !isFixed n || grantedAsNamed s p n .exclusive
  | .run (.lock (.replace _ _)) => false
  | .run (.dir (.link _ (.final g))) => s.fds.entries.all fun e =>
      e.1.2 ≠ .lease g || s.lockFiles.lookup (.lease g) = some e.2.ino
  | .run (.dir (.replace _ _)) => false
  | _ => true

theorem leaseCheck_sound {ops : Op → Bool} (hops : ∀ op, ops op = true → leaseOp bare op)
    (s : State) (p : Nat) (a : Act Op Req) (h : leaseCheck ops s p a = true) :
    leaseCond bare s p a := by
  have hlock : ∀ {n m}, (!isFixed n || grantedAsNamed s p n m) = true → fixed n →
      GrantedAsNamed s p n m := by
    intro n m hc hn
    rw [isFixed_iff.mpr hn] at hc
    exact grantedAsNamed_sound hc
  unfold leaseCond
  split
  · exact hops _ h
  · exact hlock h
  · exact hlock h
  · cases h
  · next g =>
    intro _ q fd hfd
    have hall := List.all_eq_true.mp h _ (AList.mem_lookup_iff.mp hfd)
    simpa using hall
  · cases h
  · trivial

def leaseOf (c : Config Req.Ans State Ret) (p : Nat) : Option GenerationId :=
  match c.procs p with
  | some (.ret (.ok v)) => v.lease
  | _ => none

theorem hasLease_of_leaseOf {c : Config Req.Ans State Ret} (h : leaseOf c p = some g) :
    HasLease c p g := by
  unfold leaseOf at h
  split at h
  · exact ⟨_, ‹_›, h⟩
  · cases h

open Sample (config generation input runs)

theorem Sample.initial : Initial config where
  idle _ := rfl
  closed := rfl
  consistent := by
    refine ⟨fun g hg => ?_, fun a r hr => ?_, fun i r hr => ?_⟩
    · obtain ⟨d, hd⟩ := hg
      cases hd
    · cases hr
    · cases hr

/-- From the moment an operation returns a lease until its process drops it, nobody removes the
generation or any file of it. -/
theorem leased_generation_stays (hk : KeyBinding host) {c₀ c c' : Config Req.Ans State Ret}
    (h₀ : Initial c₀) (hr : (system host).Reach (leaseCond False) c₀ c) (hl : HasLease c p g)
    (hr' : (system host).Reach (others p (leaseCond False)) c c') : Present c'.shared g ∧
    Spares g c.shared c'.shared :=
  (Lease.spares_run hk h₀ hr hl hr').2

def buildsAndCollects : Op → Bool
  | .build _ | .garbageCollect => true
  | _ => false

theorem leaseOp_of_buildsAndCollects (op : Op) (h : buildsAndCollects op = true) :
    leaseOp bare op := by
  cases op <;> trivial

set_option maxRecDepth 10000 in
/-- A collection runs from start to end while the builder still holds its lease. -/
theorem leased_generation_stays_collected : ∃ c c' : Config Req.Ans State Ret,
    HasLease c 0 (generation [1, 2, 3]) ∧
      (system (Sample.host true)).Reach (others 0 (leaseCond False)) c c' ∧
        Present c'.shared (generation [1, 2, 3]) ∧
      Spares (generation [1, 2, 3]) c.shared c'.shared := by
  have hok : ∀ s p a, leaseCheck buildsAndCollects s p a = true → leaseCond False s p a :=
    leaseCheck_sound leaseOp_of_buildsAndCollects
  obtain ⟨c, c', hr, hl, hr', -⟩ := System.Reach.exists_of_replays (M := system (Sample.host true))
    hok (othersCheck_sound (p := 0) hok) config
    (.start 0 (.build (input [1, 2, 3] false)) :: runs 0 57)
    (.start 1 .garbageCollect :: runs 1 11)
    (fun c => leaseOf c 0 = some (generation [1, 2, 3])) (fun _ => true) (by decide +kernel)
  have hl := hasLease_of_leaseOf (of_decide_eq_true hl)
  exact ⟨c, c', hl, hr',
    leased_generation_stays (Sample.keyBinding true) Sample.initial hr hl hr'⟩

/-- Where every republication finds the lease file that the others have open, the lease that
`acquire_lease` returns is held on the file its name denotes and protects its generation. -/
theorem acquired_generation_stays (hk : KeyBinding host) {c₀ c c' : Config Req.Ans State Ret}
    (h₀ : Initial c₀) (hr : (system host).Reach (leaseCond True) c₀ c) (hl : HasLease c p g)
    (hr' : (system host).Reach (others p (leaseCond True)) c c') :
    (∃ fd, c'.shared.fds.lookup (p, .lease g) = some fd ∧ fd.lock = some .shared ∧
      c'.shared.lockFiles.lookup (.lease g) = some fd.ino) ∧ Present c'.shared g ∧
        Spares g c.shared c'.shared := by
  obtain ⟨⟨fd, hfd, hn, hlock⟩, hp, hs⟩ := Lease.spares_run hk h₀ hr hl hr'
  exact ⟨⟨fd, hfd, hlock, hn.lease⟩, hp, hs⟩

def acquiresBuildsAndCollects : Op → Bool
  | .acquireLease _ | .build _ | .garbageCollect => true
  | _ => false

theorem leaseOp_of_acquiresBuildsAndCollects (op : Op) (h : acquiresBuildsAndCollects op = true) :
    leaseOp True op := by
  cases op <;> trivial

set_option maxRecDepth 10000 in
/-- `acquire_lease` of a built generation, then a collection. -/
theorem acquired_generation_stays_collected : ∃ c c' : Config Req.Ans State Ret,
    HasLease c 2 (generation [1, 2, 3]) ∧
      (system (Sample.host true)).Reach (others 2 (leaseCond True)) c c' ∧
      (∃ fd, c'.shared.fds.lookup (2, .lease (generation [1, 2, 3])) = some fd ∧
        fd.lock = some .shared ∧ c'.shared.lockFiles.lookup (.lease (generation [1, 2, 3])) =
          some fd.ino) ∧
      Present c'.shared (generation [1, 2, 3]) ∧
        Spares (generation [1, 2, 3]) c.shared c'.shared := by
  have hok : ∀ s p a, leaseCheck acquiresBuildsAndCollects s p a = true → leaseCond True s p a :=
    leaseCheck_sound leaseOp_of_acquiresBuildsAndCollects
  obtain ⟨c, c', hr, hl, hr', -⟩ := System.Reach.exists_of_replays (M := system (Sample.host true))
    hok (othersCheck_sound (p := 2) hok) config
    (.start 0 (.build (input [1, 2, 3] false)) :: runs 0 57 ++
      .kill 0 :: .start 2 (.acquireLease (generation [1, 2, 3])) :: runs 2 9)
    (.start 1 .garbageCollect :: runs 1 11)
    (fun c => leaseOf c 2 = some (generation [1, 2, 3])) (fun _ => true) (by decide +kernel)
  have hl := hasLease_of_leaseOf (of_decide_eq_true hl)
  exact ⟨c, c', hl, hr',
    acquired_generation_stays (Sample.keyBinding true) Sample.initial hr hl hr'⟩

/-- The waiter opens the lease file before the collection unlinks it and takes its lock after the
generation was published again under a new lease file. -/
def waiterSchedule : List (Event Op) :=
  .start 0 (.build (input [1, 2, 3] false)) :: runs 0 57 ++
  .kill 0 :: .start 1 .garbageCollect :: .start 2 (.acquireLease (generation [1, 2, 3])) ::
  runs 2 2 ++ runs 1 44 ++
  .start 3 (.build (input [1, 2, 3] false)) :: runs 3 53 ++ .kill 3 :: runs 2 7

set_option maxRecDepth 10000 in
/-- Process 2 has a lease on a file that is no longer the lease file, and a collection removes the
generation. -/
theorem acquired_generation_removed : ∃ c c' : Config Req.Ans State Ret,
      (system (Sample.host true)).Reach (starting (leaseOp True)) config c ∧
      HasLease c 2 (generation [1, 2, 3]) ∧ Present c.shared (generation [1, 2, 3]) ∧
      (∃ fd, c.shared.fds.lookup (2, .lease (generation [1, 2, 3])) = some fd ∧
        c.shared.lockFiles.lookup (.lease (generation [1, 2, 3])) ≠ some fd.ino) ∧
      (system (Sample.host true)).Reach (others 2 (starting (leaseOp True))) c c' ∧
      ¬ Present c'.shared (generation [1, 2, 3]) := by
  have hok : ∀ s p a, startingCheck acquiresBuildsAndCollects s p a = true →
      starting (leaseOp True) s p a := startingCheck_sound _ leaseOp_of_acquiresBuildsAndCollects
  obtain ⟨c, c', hr, ht, hr', ht'⟩ :=
    System.Reach.exists_of_replays (M := system (Sample.host true))
    hok (othersCheck_sound (p := 2) hok) config waiterSchedule
    (.start 4 .garbageCollect :: runs 4 44)
    (fun c => leaseOf c 2 = some (generation [1, 2, 3]) &&
      (c.shared.dirs.lookup (.final (generation [1, 2, 3]))).isSome &&
      (c.shared.fds.lookup (2, .lease (generation [1, 2, 3]))).any fun fd =>
        c.shared.lockFiles.lookup (.lease (generation [1, 2, 3])) ≠ some fd.ino)
    (fun c => (c.shared.dirs.lookup (.final (generation [1, 2, 3]))).isNone)
    (by decide +kernel)
  rw [Bool.and_eq_true, Bool.and_eq_true, decide_eq_true_eq] at ht
  obtain ⟨⟨hl, hp⟩, hfd⟩ := ht
  refine ⟨c, c', hr, hasLease_of_leaseOf hl, Option.isSome_iff_exists.mp hp, ?_, hr', ?_⟩
  · cases h : c.shared.fds.lookup (2, .lease (generation [1, 2, 3])) with
    | none => rw [h] at hfd; cases hfd
    | some fd => rw [h] at hfd; exact ⟨fd, rfl, of_decide_eq_true hfd⟩
  · rintro ⟨d, hd⟩
    rw [hd] at ht'
    cases ht'

end PocketVm.Store
