import PocketVm.Store.Logic

/-!
# Holding a lock

A process holds a lock where its descriptor carries the lock; a lock on a lease file counts only
while the descriptor is on the inode that the name denotes, since lease files are unlinked and made
again. Two holders of a lease file exclude each other as their modes say, because they are on one
inode. For the lock files in `N` the same is asked of the locks as they are granted
(`GrantedAsNamed`).
-/

namespace PocketVm.Store

open Conc Discipline

variable {host : Host} {p q : Nat} {s s' : State} {n : LockName} {m m' : LockMode}

/-- Lock files that are never unlinked: all but the leases. -/
def fixed (n : LockName) : Prop := ∀ g, n ≠ .lease g

theorem fixed_roots : fixed .roots := fun _ => LockName.noConfusion

theorem fixed_derivation (k : DerivationKey) : fixed (.derivation k) :=
  fun _ => LockName.noConfusion

/-- A descriptor on inode `i` is one of `n`: a lease file's name still denotes that inode. -/
def Current (s : State) (n : LockName) (i : Nat) : Prop := fixed n ∨ s.lockFiles.lookup n = some i

def Opened (s : State) (p : Nat) (n : LockName) : Prop :=
  ∃ fd, s.fds.lookup (p, n) = some fd ∧ Current s n fd.ino

def Held (s : State) (p : Nat) (n : LockName) (m : LockMode) : Prop :=
  ∃ fd, s.fds.lookup (p, n) = some fd ∧ Current s n fd.ino ∧ fd.lock = some m

theorem Current.lease {g : GenerationId} {i : Nat} (h : Current s (.lease g) i) :
    s.lockFiles.lookup (.lease g) = some i :=
  h.resolve_left fun hn => hn g rfl

theorem Held.mono (hfd : s'.fds.lookup (p, n) = s.fds.lookup (p, n))
    (hn : ∀ i, s.lockFiles.lookup n = some i → s'.lockFiles.lookup n = some i) (h : Held s p n m) :
    Held s' p n m := by
  obtain ⟨fd, h₁, h₂, h₃⟩ := h
  exact ⟨fd, hfd.trans h₁, h₂.imp_right (hn _), h₃⟩

theorem Held.of_fixed (hn : fixed n) (hfd : s'.fds.lookup (p, n) = s.fds.lookup (p, n))
    (h : Held s p n m) : Held s' p n m := by
  obtain ⟨fd, h₁, -, h₃⟩ := h
  exact ⟨fd, hfd.trans h₁, .inl hn, h₃⟩

theorem Opened.mono (hfd : s'.fds.lookup (p, n) = s.fds.lookup (p, n))
    (hn : ∀ i, s.lockFiles.lookup n = some i → s'.lockFiles.lookup n = some i) (h : Opened s p n) :
    Opened s' p n := by
  obtain ⟨fd, h₁, h₂⟩ := h
  exact ⟨fd, hfd.trans h₁, h₂.imp_right (hn _)⟩

theorem Opened.of_fixed (hn : fixed n) (hfd : s'.fds.lookup (p, n) = s.fds.lookup (p, n))
    (h : Opened s p n) : Opened s' p n := by
  obtain ⟨fd, h₁, -⟩ := h
  exact ⟨fd, hfd.trans h₁, .inl hn⟩

/-- If the kernel grants `p` the lock, no other process holds `n` in a mode that excludes it. -/
def GrantedAsNamed (s : State) (p : Nat) (n : LockName) (m : LockMode) : Prop :=
  ∀ fd, s.fds.lookup (p, n) = some fd → s.conflict (p, n) fd.ino m = false →
    ∀ q fd' m', q ≠ p → s.fds.lookup (q, n) = some fd' → fd'.lock = some m' →
      m = .shared ∧ m' = .shared

/-- Locks on one inode, and locks under one name of `N`, exclude each other as their modes say. -/
structure Locks (N : LockName → Prop) (s : State) : Prop where
  flock : FlockOk s
  apart : ∀ n p q fd fd' m m', N n → p ≠ q → s.fds.lookup (p, n) = some fd →
    s.fds.lookup (q, n) = some fd' → fd.lock = some m → fd'.lock = some m' →
    m = .shared ∧ m' = .shared

/-- A step of `q` leaves the descriptors of the others alone. -/
structure LockStep (q : Nat) (s s' : State) : Prop where
  fds : ∀ p n, p ≠ q → s'.fds.lookup (p, n) = s.fds.lookup (p, n)

variable {N : LockName → Prop}

theorem Held.excludes (hs : Locks N s) (hn : fixed n → N n) (hp : Held s p n .exclusive)
    (hq : Held s q n m) : q = p := by
  obtain ⟨fd, hfd, hc, hl⟩ := hp
  obtain ⟨fd', hfd', hc', hl'⟩ := hq
  by_contra hne
  by_cases hfix : fixed n
  · exact LockMode.noConfusion (hs.apart n q p _ _ _ _ (hn hfix) hne hfd' hfd hl' hl).2
  · have hino : fd'.ino = fd.ino :=
      Option.some.inj ((hc'.resolve_left hfix).symm.trans (hc.resolve_left hfix))
    have hkey : (q, n) ≠ (p, n) := fun h => hne (Prod.mk.inj h).1
    exact LockMode.noConfusion (hs.flock _ _ _ _ _ _ hfd' hfd hkey hino hl' hl).2

theorem LockStep.refl (q : Nat) (s : State) : LockStep q s s := ⟨fun _ _ _ => rfl⟩

theorem LockStep.held (h : LockStep q s s') (hp : p ≠ q) (hn : fixed n) (hh : Held s p n m) :
    Held s' p n m :=
  hh.of_fixed hn (h.fds p n hp)

theorem LockStep.opened (h : LockStep q s s') (hp : p ≠ q) (hn : fixed n) (hh : Opened s p n) :
    Opened s' p n :=
  hh.of_fixed hn (h.fds p n hp)

/-- A step that changes only `p`'s own descriptor for `n`. -/
structure OwnFd (p : Nat) (n : LockName) (s s' : State) : Prop where
  eq : s' = { s with fds := s'.fds }
  others : ∀ k, k ≠ (p, n) → s'.fds.lookup k = s.fds.lookup k
  ino : ∀ fd, s'.fds.lookup (p, n) = some fd → s.lockFiles.lookup n = some fd.ino ∨
    ∃ fd₀, s.fds.lookup (p, n) = some fd₀ ∧ fd₀.ino = fd.ino

theorem OwnFd.insert (p : Nat) {n : LockName} (fd : Fd) (h : s.lockFiles.lookup n = some fd.ino ∨
      ∃ fd₀, s.fds.lookup (p, n) = some fd₀ ∧ fd₀.ino = fd.ino) :
    OwnFd p n s { s with fds := s.fds.insert (p, n) fd } :=
  ⟨rfl, fun _ hk => AList.lookup_insert_ne hk, fun fd' hfd' => by
    rw [AList.lookup_insert] at hfd'
    cases hfd'
    exact h⟩

theorem OwnFd.erase (s : State) (p : Nat) (n : LockName) :
    OwnFd p n s { s with fds := s.fds.erase (p, n) } :=
  ⟨rfl, fun _ hk => AList.lookup_erase_ne hk, fun fd hfd => by
    rw [AList.lookup_erase] at hfd
    cases hfd⟩

theorem OwnFd.lockFiles (h : OwnFd p n s s') : s'.lockFiles = s.lockFiles := by rw [h.eq]

theorem OwnFd.dirs (h : OwnFd p n s s') : s'.dirs = s.dirs := by rw [h.eq]

theorem OwnFd.aliases (h : OwnFd p n s s') : s'.aliases = s.aliases := by rw [h.eq]

theorem OwnFd.retained (h : OwnFd p n s s') : s'.retained = s.retained := by rw [h.eq]

theorem OwnFd.instances (h : OwnFd p n s s') : s'.instances = s.instances := by rw [h.eq]

theorem OwnFd.lockStep (h : OwnFd p n s s') : LockStep p s s' :=
  ⟨fun q n' hq => h.others (q, n') fun hk => hq (Prod.mk.inj hk).1⟩

theorem OwnFd.held {n' : LockName} (h : OwnFd p n s s') (hn : n' ≠ n) (hh : Held s q n' m) :
    Held s' q n' m :=
  hh.mono (h.others (q, n') fun hk => hn (Prod.mk.inj hk).2)
    fun i hi => by rw [h.lockFiles]; exact hi

theorem Locks.insert (hs : Locks N s) {fd : Fd}
    (hflock : ∀ m, fd.lock = some m → s.conflict (p, n) fd.ino m = false)
    (hgrant : ∀ m, fd.lock = some m → N n → ∀ q fd' m', q ≠ p → s.fds.lookup (q, n) = some fd' →
      fd'.lock = some m' → m = .shared ∧ m' = .shared) :
    Locks N { s with fds := s.fds.insert (p, n) fd } where
  flock := hs.flock.insert (p, n) fd hflock
  apart n' q q' fd₁ fd₂ m m' hN hne h₁ h₂ hm hm' := by
    by_cases hk : (q, n') = (p, n)
    · cases hk
      rw [AList.lookup_insert] at h₁
      cases h₁
      rw [AList.lookup_insert_ne fun h => hne (Prod.mk.inj h).1.symm] at h₂
      exact hgrant m hm hN q' fd₂ m' hne.symm h₂ hm'
    · rw [AList.lookup_insert_ne hk] at h₁
      by_cases hk' : (q', n') = (p, n)
      · cases hk'
        rw [AList.lookup_insert] at h₂
        cases h₂
        exact (hgrant m' hm' hN q fd₁ m hne h₁ hm).symm
      · rw [AList.lookup_insert_ne hk'] at h₂
        exact hs.apart n' q q' fd₁ fd₂ m m' hN hne h₁ h₂ hm hm'

theorem Locks.open_fd (hs : Locks N s) (ino : Nat) :
    Locks N { s with fds := s.fds.insert (p, n) ⟨ino, none⟩ } :=
  hs.insert (by rintro _ ⟨⟩) (by rintro _ ⟨⟩)

theorem Locks.lock_fd (hs : Locks N s) {fd : Fd} (hfd : s.fds.lookup (p, n) = some fd)
    (hc : s.conflict (p, n) fd.ino m = false) (hg : N n → GrantedAsNamed s p n m) :
    Locks N { s with fds := s.fds.insert (p, n) ⟨fd.ino, some m⟩ } :=
  hs.insert (by rintro _ ⟨⟩; exact hc) (by rintro _ ⟨⟩ hN; exact hg hN fd hfd hc)

theorem Locks.of_sub (hs : Locks N s)
    (hsub : ∀ k fd, s'.fds.lookup k = some fd → s.fds.lookup k = some fd) : Locks N s' :=
  ⟨hs.flock.of_sub hsub, fun n q q' fd fd' m m' hN hne h h' =>
    hs.apart n q q' fd fd' m m' hN hne (hsub _ _ h) (hsub _ _ h')⟩

theorem lookup_erase_sub {κ : Type} [DecidableEq κ] {ν : Type} {t : Table κ ν} {k k' : κ} {v : ν}
    (h : (t.erase k).lookup k' = some v) : t.lookup k' = some v := by
  by_cases hk : k' = k
  · subst hk
    rw [AList.lookup_erase] at h
    cases h
  · rwa [AList.lookup_erase_ne hk] at h

theorem Locks.close_fd (hs : Locks N s) : Locks N { s with fds := s.fds.erase (p, n) } :=
  hs.of_sub fun _ _ h => lookup_erase_sub h

theorem Locks.exec {e : Req} {a : e.Ans} (h : exec host p e s = some (a, s'))
    (hl : ∀ n m, e ≠ .lock (.lock n m)) (ht : ∀ n, e ≠ .lock (.tryLock n)) (hs : Locks N s) :
    Locks N s' ∧ LockStep p s s' := by
  refine ⟨?_, ⟨fun q n hq => exec_fds_other h hq n⟩⟩
  cases e with
  | lock r =>
    rcases execLock_fds h with hf | ⟨n, ino, -, -, hf⟩ | ⟨n, fd, mode, hr, -⟩ | ⟨n, -, hf⟩
    · exact hs.of_sub fun k fd hk => by rwa [hf] at hk
    · exact (hs.open_fd (p := p) (n := n) ino).of_sub fun k fd hk => by rwa [hf] at hk
    · rcases hr with rfl | ⟨rfl, -⟩
      · exact absurd rfl (hl n mode)
      · exact absurd rfl (ht n)
    · refine hs.of_sub fun k fd hk => ?_
      rw [hf] at hk
      exact lookup_erase_sub hk
  | _ => exact hs.of_sub fun k fd hk => by rwa [(exec_locks_frame h fun _ => nofun).1] at hk

theorem lookup_closeAll (fds : Table (Nat × LockName) Fd) (q : Nat) (n : LockName) :
    (closeAll p fds).lookup (q, n) = if q = p then none else fds.lookup (q, n) := by
  have hmem : ∀ (t : Table (Nat × LockName) Fd) fd, t.lookup (q, n) = some fd ↔
      (⟨(q, n), fd⟩ : Sigma fun _ : Nat × LockName => Fd) ∈ t.entries := fun _ _ =>
        AList.mem_lookup_iff
  refine Option.ext fun fd => ?_
  rw [closeAll]
  split <;> simp_all

theorem Locks.leave (hs : Locks N s) (p : Nat) : Locks N (leave p s) ∧
    LockStep p s (leave p s) := by
  have hfd : ∀ q n, (Store.leave p s).fds.lookup (q, n) = if q = p then
    none else s.fds.lookup (q, n) :=
    lookup_closeAll s.fds
  refine ⟨hs.of_sub fun k fd h => ?_, ⟨fun q n hq => ?_⟩⟩
  · have := hfd k.1 k.2
    rw [h] at this
    split at this
    · cases this
    · exact this.symm
  · rw [hfd, if_neg hq]

/-- A discipline under which the locks of `N` exclude each other as named and a process may open,
lock and close the lock files of `free` as it likes. -/
structure Locking (D : Discipline Op Req State) (N free : LockName → Prop) : Prop where
  locks : ∀ s, D.inv s → Locks N s
  step : ∀ q s s', D.guar q s s' → LockStep q s s'
  lock : ∀ s p n m, D.inv s → D.cond s p (.run (.lock (.lock n m))) → N n → GrantedAsNamed s p n m
  tryLock : ∀ s p n, D.inv s → D.cond s p (.run (.lock (.tryLock n))) → N n →
    GrantedAsNamed s p n .exclusive
  own : ∀ p n s s', free n → OwnFd p n s s' → D.inv s → Locks N s' → D.inv s' ∧ D.guar p s s'

namespace Locking

variable {D : Discipline Op Req State} {free : LockName → Prop} {P Q Q' X : Assn D p}

/-- A lock that no other process can take away. -/
def held (L : Locking D N free) (p : Nat) {n : LockName} (hn : fixed n) (m : LockMode) : Assn D p :=
  ⟨fun s => Held s p n m, fun q s s' hq _ _ hg h => (L.step q s s' hg).held hq.symm hn h⟩

def opened (L : Locking D N free) (p : Nat) {n : LockName} (hn : fixed n) : Assn D p :=
  ⟨fun s => Opened s p n, fun q s s' hq _ _ hg h => (L.step q s s' hg).opened hq.symm hn h⟩

theorem asks_open (L : Locking D N free) (hf : free n)
    (hQ : ∀ s s', D.inv s → P s → OwnFd p n s s' → Opened s' p n → Q s')
    (hX : ∀ s, D.inv s → P s → X s) :
    Asks host P (.lock (.open n)) (Ends (fun _ => Q) fun _ => X) where
  run s a s' hi hp _ h := by
    change execLock host p s (.open n) = _ at h
    simp only [execLock, State.answer, State.fail] at h
    split at h
    · cases h; exact ⟨hi, D.guar_refl p s, hX s hi hp⟩
    · next ino hn =>
      cases h
      have hown := OwnFd.insert p ⟨ino, none⟩ (.inl hn)
      obtain ⟨hi', hg⟩ := L.own p n s _ hf hown hi ((L.locks s hi).open_fd ino)
      exact ⟨hi', hg, hQ s _ hi hp hown ⟨_, AList.lookup_insert _, .inr hn⟩⟩
  fault s hi hp _ _ := hX s hi hp

theorem asks_lock (L : Locking D N free) (hf : free n)
    (hQ : ∀ s s', D.inv s → P s → D.cond s p (.run (.lock (.lock n m))) → OwnFd p n s s' →
      (∃ fd, s.fds.lookup (p, n) = some fd ∧ s'.fds.lookup (p, n) = some ⟨fd.ino, some m⟩) → Q s')
    (hX : ∀ s, D.inv s → P s → X s) :
    Asks host P (.lock (.lock n m)) (Ends (fun _ => Q) fun _ => X) where
  run s a s' hi hp hcond h := by
    change execLock host p s (.lock n m) = _ at h
    simp only [execLock, State.answer, State.fail] at h
    split at h
    · cases h; exact ⟨hi, D.guar_refl p s, hX s hi hp⟩
    · next fd hfd =>
      split at h
      · cases h
      · next hc =>
        cases h
        have hown := OwnFd.insert p ⟨fd.ino, some m⟩ (.inr ⟨fd, hfd, rfl⟩)
        obtain ⟨hi', hg⟩ := L.own p n s _ hf hown hi
          ((L.locks s hi).lock_fd hfd (Bool.eq_false_of_not_eq_true hc) (L.lock s p n m hi hcond))
        exact ⟨hi', hg, hQ s _ hi hp hcond hown ⟨fd, hfd, AList.lookup_insert _⟩⟩
  fault s hi hp _ _ := hX s hi hp

theorem asks_tryLock (L : Locking D N free) (hf : free n)
    (hQ : ∀ s s', D.inv s → P s → OwnFd p n s s' →
      (∃ fd, s.fds.lookup (p, n) = some fd ∧
        s'.fds.lookup (p, n) = some ⟨fd.ino, some .exclusive⟩) → Q s')
    (hX : ∀ s, D.inv s → P s → X s) :
    Asks host P (.lock (.tryLock n)) (Ends (fun b => if b then Q else X) fun _ => X) where
  run s a s' hi hp hcond h := by
    change execLock host p s (.tryLock n) = _ at h
    simp only [execLock, State.answer, State.fail] at h
    split at h
    · cases h; exact ⟨hi, D.guar_refl p s, hX s hi hp⟩
    · next fd hfd =>
      split at h
      · cases h; exact ⟨hi, D.guar_refl p s, hX s hi hp⟩
      · next hc =>
        cases h
        have hown := OwnFd.insert p ⟨fd.ino, some .exclusive⟩ (.inr ⟨fd, hfd, rfl⟩)
        obtain ⟨hi', hg⟩ := L.own p n s _ hf hown hi
          ((L.locks s hi).lock_fd hfd (Bool.eq_false_of_not_eq_true hc) (L.tryLock s p n hi hcond))
        exact ⟨hi', hg, hQ s _ hi hp hown ⟨fd, hfd, AList.lookup_insert _⟩⟩
  fault s hi hp _ _ := hX s hi hp

theorem asks_close (L : Locking D N free) (hf : free n)
    (hQ : ∀ s s', D.inv s → P s → OwnFd p n s s' → s'.fds.lookup (p, n) = none → Q s') :
    Asks host P (.lock (.close n)) fun _ => Q where
  run s a s' hi hp _ h := by
    cases h
    have hown := OwnFd.erase s p n
    obtain ⟨hi', hg⟩ := L.own p n s _ hf hown hi (L.locks s hi).close_fd
    exact ⟨hi', hg, hQ s _ hi hp hown (AList.lookup_erase _ _)⟩
  fault _ _ _ _ h := nomatch h

theorem held_of_opened {fd fd' : Fd} (ho : Opened s p n) (hown : OwnFd p n s s')
    (hfd : s.fds.lookup (p, n) = some fd) (hfd' : s'.fds.lookup (p, n) = some fd')
    (hino : fd'.ino = fd.ino) (hl : fd'.lock = some m) : Held s' p n m := by
  obtain ⟨fd₀, hfd₀, hn⟩ := ho
  cases hfd₀.symm.trans hfd
  exact ⟨fd', hfd', by unfold Current; rw [hown.lockFiles, hino]; exact hn, hl⟩

variable (L : Locking D N free) (hN : fixed n) (hf : free n) (hP : P.Keeps (OwnFd p n))
include hf hP

theorem asks_open_fixed :
    Asks host P (.lock (.open n)) (Ends (fun _ => P ⊓ L.opened p hN) fun _ => P) :=
  L.asks_open hf (fun s s' _ hs hown hop => ⟨hP s s' hown hs, hop⟩) fun _ _ hs => hs

theorem asks_tryLock_fixed : Asks host (P ⊓ L.opened p hN) (.lock (.tryLock n))
      (Ends (fun b => if b then P ⊓ L.held p hN .exclusive else P) fun _ => P) :=
  L.asks_tryLock hf (fun s s' _ hs hown ⟨_, hfd, hfd'⟩ =>
    ⟨hP s s' hown hs.1, held_of_opened hs.2 hown hfd hfd' rfl rfl⟩) fun _ _ hs => hs.1

omit hf hP
include L

theorem asks_close_keeps (hf : free n) (hQ : Q.Keeps (OwnFd p n)) (hPQ : ∀ s, P s → Q s) :
    Asks host P (.lock (.close n)) fun _ => Q :=
  L.asks_close hf fun s s' _ hs hown _ => hQ s s' hown (hPQ s hs)

/-- A routine under the roots lock, whose end is not about that lock; `J` is what holds where the
lock is granted. -/
theorem spec_withRoots {α : Type} {body : StoreM α} {Q : α → Assn D p} {X : StoreError → Assn D p}
    {J : Assn D p} (hf : free .roots) (hP : P.Keeps (OwnFd p .roots))
    (hQ : ∀ a, (Q a).Keeps (OwnFd p .roots)) (hX : ∀ e, (X e).Keeps (OwnFd p .roots))
    (hPX : ∀ e s, P s → X e s)
    (hJ : ∀ s s', D.inv s → P s → D.cond s p (.run (.lock (.lock .roots m))) → OwnFd p .roots s s' →
      Held s' p .roots m → J s') (hb : Spec host J body Q X) :
      Spec host P (withRoots m body) Q X := by
  have hopen : Spec host P (openFixedLock .roots) (fun _ =>
    P ⊓ L.opened p fixed_roots) fun _ => P :=
    Spec.ask (L.asks_open_fixed fixed_roots hf hP)
  have hlock : Spec host (P ⊓ L.opened p fixed_roots)
      (ask "acquire GC-root lock" (.lock (.lock .roots m))) (fun _ => J) fun _ => P :=
    Spec.ask (L.asks_lock hf (fun s s' hi hs hc hown ⟨_, hfd, hfd'⟩ =>
      hJ s s' hi hs.1 hc hown (held_of_opened hs.2 hown hfd hfd' rfl rfl)) fun _ _ hs => hs.1)
  exact .bind (hopen.err fun e s _ h => hPX e s h) fun _ =>
    Spec.holding (.bind (hlock.err fun e s _ h => hPX e s h)
        fun _ => hb)
      (fun a => L.asks_close_keeps hf (hQ a) fun _ h => h)
      fun e => L.asks_close_keeps hf (hX e) fun _ h => h

end Locking

end PocketVm.Store

/-! ### Replaying runs -/

namespace PocketVm.Store

open Wire Conc List

def grantedAsNamed (s : State) (p : Nat) (n : LockName) (m : LockMode) : Bool :=
  match s.fds.lookup (p, n) with
  | none => true
  | some fd =>
    s.conflict (p, n) fd.ino m ||
      s.fds.entries.all fun e => e.1.2 ≠ n || e.1.1 = p ||
        match e.2.lock with
        | none => true
        | some held => held = .shared && m = .shared

theorem grantedAsNamed_sound {s : State} {p : Nat} {n : LockName} {m : LockMode}
    (h : grantedAsNamed s p n m = true) : GrantedAsNamed s p n m := by
  intro fd hfd hc q fd' m' hq hfd' hm'
  simp only [grantedAsNamed, hfd, hc, Bool.false_or, all_eq_true] at h
  have hmem : (⟨(q, n), fd'⟩ : Sigma fun _ : Nat × LockName => Fd) ∈ s.fds.entries :=
    AList.mem_lookup_iff.mp hfd'
  have hall := h _ hmem
  simp only [hm', ne_eq, not_true_eq_false, decide_false, Bool.false_or, Bool.or_eq_true,
    decide_eq_true_eq, Bool.and_eq_true] at hall
  rcases hall with heq | ⟨h₁, h₂⟩
  · exact absurd heq hq
  · exact ⟨h₂, h₁⟩

def isFixed : LockName → Bool
  | .lease _ => false
  | _ => true

theorem isFixed_iff {n : LockName} : isFixed n = true ↔ fixed n := by
  cases n with
  | lease g => exact ⟨nofun, fun h => absurd rfl (h g)⟩
  | _ => exact ⟨fun _ _ => LockName.noConfusion, fun _ => rfl⟩

def starting (ops : Op → Prop) (_ : State) (_ : Nat) : Act Op Req → Prop
  | .start op => ops op
  | _ => True

def anyStep (_ : State) (_ : Nat) (_ : Act Op Req) : Prop := True

theorem anyStep_sound (s : State) (p : Nat) (a : Act Op Req) (_ : true = true) :
    anyStep s p a := trivial

def startingCheck (ops : Op → Bool) (_ : State) (_ : Nat) : Act Op Req → Bool
  | .start op => ops op
  | _ => true

theorem startingCheck_sound (ops : Op → Bool) {ops' : Op → Prop} (h : ∀ op, ops op = true → ops' op)
    (s : State) (p : Nat) (a : Act Op Req) (ha : startingCheck ops s p a = true) :
    starting ops' s p a := by
  cases a with
  | start op => exact h op ha
  | _ => trivial

/-- The steps of `cond` that processes other than `p` take. -/
def others (p : Nat) (cond : State → Nat → Act Op Req → Prop) (s : State) (q : Nat)
    (a : Act Op Req) : Prop := q ≠ p ∧ cond s q a

def othersCheck (p : Nat) (ok : State → Nat → Act Op Req → Bool) (s : State) (q : Nat)
    (a : Act Op Req) : Bool := q ≠ p && ok s q a

theorem othersCheck_sound {ok : State → Nat → Act Op Req → Bool}
    {cond : State → Nat → Act Op Req → Prop} (h : ∀ s q a, ok s q a = true → cond s q a)
    {p : Nat} (s : State) (q : Nat) (a : Act Op Req) (ha : othersCheck p ok s q a = true) :
    others p cond s q a := by
  rw [othersCheck, Bool.and_eq_true, decide_eq_true_eq] at ha
  exact ⟨ha.1, h s q a ha.2⟩

theorem lookup_eq_none {κ ν : Type} [DecidableEq κ] {t : Table κ ν} (h : t.entries.isEmpty = true)
    (k : κ) : t.lookup k = none := by
  have ht : t = ∅ := AList.ext (List.isEmpty_iff.mp h)
  rw [ht]
  exact AList.lookup_empty k

namespace Sample

/-- A hash of 128 bits. The bytes that `GenerationId::derive` hashes put their key above it. -/
def sha256 (bytes : Bytes) : Digest :=
  let low := bytes.foldl (fun n b => (n * 257 + b.toNat + 1) % 2 ^ 128) 0
  if bytes[7]? = some 102 then ⟨.ofNat 256 (readBE ((bytes.drop 36).take 32) * 2 ^ 128 + low)⟩
  else ⟨.ofNat 256 low⟩

theorem foldl_lt (bytes : Bytes) (n : Nat) (hn : n < 2 ^ 128) :
    bytes.foldl (fun n b => (n * 257 + b.toNat + 1) % 2 ^ 128) n < 2 ^ 128 := by
  induction bytes generalizing n with
  | nil => exact hn
  | cons b bytes ih => exact ih _ (Nat.mod_lt _ (by decide))

theorem derivationKey_lt (spec : GenerationSpec) :
    (spec.derivationKey sha256).bits.toNat < 2 ^ 128 := by
  have h7 : spec.keyBytes[7]? = some 103 := by
    unfold GenerationSpec.keyBytes
    rw [getElem?_append_left (by decide +kernel)]
    decide +kernel
  have hlt := foldl_lt spec.keyBytes 0 (by decide)
  unfold GenerationSpec.derivationKey HashId.ofDigest sha256
  rw [h7, if_neg (by decide)]
  simp only [BitVec.toNat_ofNat]
  rw [Nat.mod_eq_of_lt (hlt.trans (by decide))]
  exact hlt

theorem derive_div {k : DerivationKey} (hk : k.bits.toNat < 2 ^ 128) (digest : Digest)
    (size : UInt64) (sidecars : List ImmutableSidecar) :
    (sha256 (generationBytes k digest size sidecars)).bits.toNat / 2 ^ 128 = k.bits.toNat := by
  have h7 : (generationBytes k digest size sidecars)[7]? = some 102 := by
    unfold generationBytes
    rw [append_assoc, append_assoc, append_assoc,
      getElem?_append_left (by decide +kernel)]
    decide +kernel
  have hkey : ((generationBytes k digest size sidecars).drop 36).take 32 = k.asBytes := by
    have hlen : (utf8 "pocket-final-generation-identity\x00v1\x00").length = 36 := by decide +kernel
    unfold generationBytes
    rw [append_assoc, append_assoc, append_assoc, ← hlen, drop_left,
      take_left' (by simp [HashId.asBytes])]
  have hread : readBE k.asBytes = k.bits.toNat := readBE_beBytes (by simpa using k.bits.isLt)
  have hlt := foldl_lt (generationBytes k digest size sidecars) 0 (by decide)
  unfold sha256
  rw [if_pos h7, hkey]
  simp only [BitVec.toNat_ofNat]
  omega

def host (noreplace : Bool) : Host := ⟨sha256, "/store", noreplace⟩

theorem hasKey_div {noreplace : Bool} {id : GenerationId} {k : DerivationKey}
    (h : HasKey (host noreplace) id k) : id.bits.toNat / 2 ^ 128 = k.bits.toNat := by
  obtain ⟨spec, digest, size, sidecars, rfl, hid⟩ := h
  rw [GenerationId.eq_of_derive hid]
  exact derive_div (derivationKey_lt spec) digest size sidecars

theorem keyBinding (noreplace : Bool) : KeyBinding (host noreplace) := by
  intro id k k' h h'
  have heq : k.bits.toNat = k'.bits.toNat := (hasKey_div h).symm.trans (hasKey_div h')
  exact congrArg HashId.mk (BitVec.eq_of_toNat_eq heq)

/-! An initialized store, and a build for it. -/

def platform : Platform :=
  ⟨⟨"linux", by decide, by decide⟩, ⟨"amd64", by decide, by decide⟩, none, none, [], by decide,
    by simp⟩

def digest (n : Nat) : Digest := ⟨.ofNat 256 n⟩

def spec : GenerationSpec :=
  ⟨digest 1, digest 2, [digest 3], [digest 4], none, platform, platform,
    ⟨"selector", by decide, by decide⟩, ⟨"profile", by decide, by decide⟩, digest 5,
    ⟨"layout", by decide, by decide⟩, ⟨"ext4", by decide, by decide⟩, digest 6, by decide,
    by decide, by decide⟩

def input (base : Bytes) (rebuild : Bool) : BuildInput := ⟨spec, rebuild, base, sha256 base, []⟩

def generation (base : Bytes) : GenerationId :=
  .ofDigest (sha256 (generationBytes (spec.derivationKey sha256) (sha256 base)
    (UInt64.ofNat base.length) []))

def store : State := ⟨(∅ : Table _ _).insert .roots 0, ∅, ∅, 1, ∅, ∅, ∅, ∅, ∅, ∅, [], ∅⟩

def config : Config Req.Ans State Ret := ⟨store, fun _ => none⟩

def runs (p n : Nat) : List (Event Op) := List.replicate n (.run p)

/-! A run of the built image, kept under a name. -/

def retain (name : String) : RetainRequest := ⟨name, "image", ["sh"], "sh", false⟩

def instanceId (name : String) : InstanceId := Instance.deriveId (host true) name

def cowPath (name : String) : CowPath := .inInstance (instanceId name) ROOT_COW

def output (name : String) : RunOutput := ⟨generation [1, 2, 3], some (cowPath name), .exited 0⟩

def runInput (name : String) (overlay : Bytes) : RunInput :=
  ⟨retain name, generation [1, 2, 3], overlay, .exited 0, 1, 2⟩

def root (name : String) (overlay : Bytes) : RetainedCowId :=
  RetainedCow.deriveId (host true) (generation [1, 2, 3]) (cowPath name) (sha256 overlay)
    (UInt64.ofNat overlay.length) .clean

def built : List (Event Op) := .start 0 (.build (input [1, 2, 3] false)) :: runs 0 57 ++ [.kill 0]

def rested (c : Config Req.Ans State Ret) : Config Req.Ans State Ret := ⟨c.shared, fun _ => none⟩

end Sample

end PocketVm.Store
