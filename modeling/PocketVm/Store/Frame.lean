import PocketVm.Store.Footprint

/-!
# What a request leaves alone

Inversion of `exec`, once: which parts of the state a request of each group can change, and where
inside that part. Later proofs use these and never unfold `exec`.
-/

namespace PocketVm.Store

open Conc

variable {host : Host} {p : Nat} {s s' : State}

theorem execLock_frame {r : LockReq} {a : Except Errno r.Out}
    (h : execLock host p s r = some (a, s')) :
    ∃ lf fds t, s' = { s with lockFiles := lf, fds := fds, temps := t } := by
  cases r <;> simp only [execLock, State.answer, State.fail] at h <;>
    first
      | (cases h; exact ⟨_, _, _, rfl⟩)
      | (split at h <;> first | (cases h; exact ⟨_, _, _, rfl⟩) |
          (split at h <;> cases h <;> exact ⟨_, _, _, rfl⟩))

theorem execTemp_frame {r : TempReq} {a : Except Errno r.Out} (h : execTemp s r = some (a, s')) :
    ∃ t f, s' = { s with temps := t, fresh := f } := by
  cases r <;> simp only [execTemp, State.answer, State.fail] at h <;>
    first
      | (cases h; exact ⟨_, _, rfl⟩)
      | (split at h <;> cases h <;> exact ⟨_, _, rfl⟩)

variable {r : DirReq} {e : Req} {d : DirName}

theorem execDir_frame {a : Except Errno r.Out}
    (h : execDir host p s r = some (a, s')) : ∃ d f, s' = { s with dirs := d, fresh := f } := by
  cases r <;> simp only [execDir, State.answer, State.fail, State.setDir, State.moveDir] at h <;>
    first
      | (cases h; exact ⟨_, _, rfl⟩)
      | (split at h <;> first | (cases h; exact ⟨_, _, rfl⟩) |
          (split at h <;> cases h <;> exact ⟨_, _, rfl⟩))

theorem execRec_frame {r : RecReq} {a : Except Errno r.Out} (h : execRec host s r = some (a, s')) :
    ∃ d al rt i t, s' = { s with
      derivations := d, aliases := al, retained := rt, instances := i, temps := t } := by
  cases r <;> simp only [execRec, State.readRecord, State.replaceRecord, State.linkRecord,
    State.unlinkRecord, State.answer, State.fail, setDerivations, setAliases, setRetained,
    setInstances] at h <;>
    first
      | (cases h; exact ⟨_, _, _, _, _, rfl⟩)
      | (split at h <;> first | (cases h; exact ⟨_, _, _, _, _, rfl⟩) |
          (split at h <;> cases h <;> exact ⟨_, _, _, _, _, rfl⟩))

/-- Two descriptors that hold locks on one inode both hold shared ones. -/
def FlockOk (s : State) : Prop :=
  ∀ k k' fd fd' m m', s.fds.lookup k = some fd → s.fds.lookup k' = some fd' → k ≠ k' →
    fd.ino = fd'.ino → fd.lock = some m → fd'.lock = some m' → m = .shared ∧ m' = .shared

theorem LockMode.eq_shared_of_ne {m : LockMode} (h : m ≠ .exclusive) : m = .shared := by
  cases m with
  | shared => rfl
  | exclusive => exact absurd rfl h

theorem conflict_eq_false {key : Nat × LockName} {ino : Nat} {mode : LockMode}
    (h : s.conflict key ino mode = false) {k : Nat × LockName} {fd : Fd} {m : LockMode}
    (hk : s.fds.lookup k = some fd) (hne : k ≠ key) (hino : fd.ino = ino) (hm : fd.lock = some m) :
    m = .shared ∧ mode = .shared := by
  have hmem : (⟨k, fd⟩ : Sigma fun _ : Nat × LockName => Fd) ∈ s.fds.entries :=
    AList.mem_lookup_iff.mp hk
  have hall := List.any_eq_false.mp h _ hmem
  simp only [hm, hino, hne, ne_eq, not_false_eq_true, decide_true, BEq.rfl, Bool.true_and,
    Bool.or_eq_true, decide_eq_true_eq, not_or] at hall
  exact ⟨LockMode.eq_shared_of_ne hall.1, LockMode.eq_shared_of_ne hall.2⟩

theorem FlockOk.insert (hs : FlockOk s) (key : Nat × LockName) (fd : Fd)
    (hok : ∀ mode, fd.lock = some mode → s.conflict key fd.ino mode = false) :
    FlockOk { s with fds := s.fds.insert key fd } := by
  intro k k' fd₁ fd₂ m m' h₁ h₂ hne hino hm hm'
  by_cases hk : k = key
  · subst hk
    rw [AList.lookup_insert] at h₁
    cases h₁
    rw [AList.lookup_insert_ne hne.symm] at h₂
    exact (conflict_eq_false (hok m hm) h₂ hne.symm hino.symm hm').symm
  · rw [AList.lookup_insert_ne hk] at h₁
    by_cases hk' : k' = key
    · subst hk'
      rw [AList.lookup_insert] at h₂
      cases h₂
      exact conflict_eq_false (hok m' hm') h₁ hne hino hm
    · rw [AList.lookup_insert_ne hk'] at h₂
      exact hs k k' fd₁ fd₂ m m' h₁ h₂ hne hino hm hm'

theorem FlockOk.of_sub (hs : FlockOk s)
    (hsub : ∀ k fd, s'.fds.lookup k = some fd → s.fds.lookup k = some fd) : FlockOk s' :=
  fun k k' fd fd' m m' h h' => hs k k' fd fd' m m' (hsub k fd h) (hsub k' fd' h')

/-- How the descriptors can change: one of `p`'s own is opened, locked or closed. -/
theorem execLock_fds {r : LockReq} {a : Except Errno r.Out}
    (h : execLock host p s r = some (a, s')) : s'.fds = s.fds ∨
    (∃ n ino, r = .open n ∧ s.lockFiles.lookup n = some ino ∧
      s'.fds = s.fds.insert (p, n) ⟨ino, none⟩) ∨
    (∃ n fd mode, (r = .lock n mode ∨ r = .tryLock n ∧ mode = .exclusive) ∧
      s.fds.lookup (p, n) = some fd ∧ s.conflict (p, n) fd.ino mode = false ∧
      s'.fds = s.fds.insert (p, n) ⟨fd.ino, some mode⟩) ∨
        (∃ n, r = .close n ∧ s'.fds = s.fds.erase (p, n)) := by
  cases r <;> simp only [execLock, State.answer, State.fail] at h <;> grind

theorem exec_locks_frame {a : e.Ans} (h : exec host p e s = some (a, s'))
    (he : ∀ r, e ≠ .lock r) : s'.fds = s.fds ∧ s'.lockFiles = s.lockFiles := by
  cases e with
  | lock r => exact absurd rfl (he r)
  | temp r => obtain ⟨_, _, rfl⟩ := execTemp_frame h; exact ⟨rfl, rfl⟩
  | dir r => obtain ⟨_, _, rfl⟩ := execDir_frame h; exact ⟨rfl, rfl⟩
  | record r => obtain ⟨_, _, _, _, _, rfl⟩ := execRec_frame h; exact ⟨rfl, rfl⟩
  | host r => cases h; exact ⟨rfl, rfl⟩

theorem exec_fds_other {a : e.Ans} (h : exec host p e s = some (a, s')) {q : Nat}
    (hq : q ≠ p) (n : LockName) : s'.fds.lookup (q, n) = s.fds.lookup (q, n) := by
  have hne : ∀ n', (q, n) ≠ (p, n') := fun n' he => hq (Prod.mk.inj he).1
  cases e with
  | lock r =>
    rcases execLock_fds h with hf | ⟨n', _, _, _, hf⟩ | ⟨n', _, _, _, _, _, hf⟩ | ⟨n', _, hf⟩
    · rw [hf]
    · rw [hf, AList.lookup_insert_ne (hne n')]
    · rw [hf, AList.lookup_insert_ne (hne n')]
    · rw [hf, AList.lookup_erase_ne (hne n')]
  | _ => rw [(exec_locks_frame h fun _ => nofun).1]

theorem exec_flockOk {a : e.Ans} (h : exec host p e s = some (a, s')) (hs : FlockOk s) :
    FlockOk s' := by
  cases e with
  | lock r =>
    rcases execLock_fds h with hf | ⟨n, ino, _, _, hf⟩ | ⟨n, fd, mode, _, _, hc, hf⟩ | ⟨n, _, hf⟩
    · exact hs.of_sub fun k fd hk => by rwa [hf] at hk
    · exact (hs.insert (p, n) ⟨ino, none⟩ (by rintro _ ⟨⟩)).of_sub
        fun k fd hk => by rwa [hf] at hk
    · exact (hs.insert (p, n) ⟨fd.ino, some mode⟩ (by rintro _ ⟨⟩; exact hc)).of_sub
        fun k fd hk => by rwa [hf] at hk
    · refine hs.of_sub fun k fd hk => ?_
      rw [hf] at hk
      by_cases hkn : k = (p, n)
      · subst hkn; rw [AList.lookup_erase] at hk; cases hk
      · rwa [AList.lookup_erase_ne hkn] at hk
  | _ => exact hs.of_sub fun k fd hk => by rwa [(exec_locks_frame h fun _ => nofun).1] at hk

/-- How a lock file's name can change its meaning. -/
theorem exec_lockFiles {a : e.Ans} (h : exec host p e s = some (a, s')) :
    s'.lockFiles = s.lockFiles ∨
    (∃ t n ino, (e = .lock (.link t n) ∧ s.lockFiles.lookup n = none ∨ e = .lock (.replace t n)) ∧
      s.temps.lookup t = some ino ∧ s'.lockFiles = s.lockFiles.insert n ino) ∨
    (∃ n, e = .lock (.unlink n) ∧ s'.lockFiles = s.lockFiles.erase n) := by
  cases e with
  | lock r =>
    change execLock host p s r = _ at h
    cases r <;> simp only [execLock, State.answer, State.fail] at h <;> grind
  | _ => exact .inl (exec_locks_frame h fun _ => nofun).2

def DirReq.touches : DirReq → DirName → Prop
  | .make x, d | .create x _ _, d | .write x _ _ _, d | .chmodFile x _ _ _, d | .chmod x _ _, d
  | .unlink x _ _, d | .remove x, d => x = d
  | .link x y, d | .replace x y, d => x = d ∨ y = d
  | _, _ => False

theorem exec_dirs_frame {a : e.Ans} (h : exec host p e s = some (a, s')) (he : ∀ r, e ≠ .dir r) :
    s'.dirs = s.dirs := by
  cases e with
  | lock r => obtain ⟨_, _, _, rfl⟩ := execLock_frame h; rfl
  | temp r => obtain ⟨_, _, rfl⟩ := execTemp_frame h; rfl
  | dir r => exact absurd rfl (he r)
  | record r => obtain ⟨_, _, _, _, _, rfl⟩ := execRec_frame h; rfl
  | host r => cases h; rfl

theorem lookup_setDir (s : State) (x : DirName) (d : Dir) : (s.setDir x d).dirs.lookup x = some d :=
  AList.lookup_insert _

theorem lookup_setDir_ne {x y : DirName} {d : Dir} (h : y ≠ x) :
    (s.setDir x d).dirs.lookup y = s.dirs.lookup y :=
  AList.lookup_insert_ne h

theorem lookup_moveDir {old new : DirName} {x : Dir} (ho : old ≠ d) (hn : new ≠ d) :
    (s.moveDir old new x).dirs.lookup d = s.dirs.lookup d := by
  rw [State.moveDir, AList.lookup_insert_ne hn.symm, AList.lookup_erase_ne ho.symm]

theorem execDir_untouched {a : Except Errno r.Out} (h : execDir host p s r = some (a, s'))
    (hd : ¬ r.touches d) :
    s'.dirs.lookup d = s.dirs.lookup d := by
  cases r <;> simp only [DirReq.touches, not_or] at hd <;>
    simp only [execDir, State.answer, State.fail, State.setDir] at h <;>
    grind [lookup_moveDir, AList.lookup_insert_ne, AList.lookup_erase_ne]

theorem exec_dirs_untouched {a : e.Ans} (h : exec host p e s = some (a, s'))
    (hd : ∀ r, e = .dir r → ¬ r.touches d) :
    s'.dirs.lookup d = s.dirs.lookup d := by
  cases e with
  | dir r => exact execDir_untouched h (hd r rfl)
  | _ => rw [exec_dirs_frame h fun _ => nofun]

theorem dir_eq_some {name : DirName} {ino : Nat} {d : Dir} (h : s.dir name ino = some d) :
    s.dirs.lookup name = some d ∧ d.ino = ino := by
  unfold State.dir at h
  rw [Option.filter_eq_some_iff] at h
  exact ⟨h.1, by simpa using h.2⟩

/-- A directory is made by `p`, is the one it was, or had another name. -/
theorem execDir_makers {a : Except Errno r.Out} (h : execDir host p s r = some (a, s'))
    (x : DirName) {d' : Dir} (hd' : s'.dirs.lookup x = some d') :
    d'.maker = p ∨ (∃ d, s.dirs.lookup x = some d ∧ d.maker = d'.maker) ∨
      ∃ y z, (r = .link y z ∨ r = .replace y z) ∧ ∃ d, s.dirs.lookup y = some d ∧
        d.maker = d'.maker := by
  by_cases hx : r.touches x
  · cases r <;> simp only [DirReq.touches] at hx <;>
      simp only [execDir, State.answer, State.fail, State.setDir, State.moveDir] at h <;>
      grind [dir_eq_some, AList.lookup_insert, AList.lookup_insert_ne, AList.lookup_erase,
        AList.lookup_erase_ne]
  · exact .inr (.inl ⟨d', by rw [← hd', execDir_untouched h hx], rfl⟩)

section
variable {x y : DirName} {ino mode : Nat} {file : String}

theorem exec_make {a : Except Errno Nat} (h : exec host p (.dir (.make x)) s = some (a, s')) :
    s' = s ∨ s.dirs.lookup x = none ∧
      s' = { s.setDir x ⟨s.fresh, PRIVATE_DIR_MODE, p, ∅⟩ with fresh := s.fresh + 1 } := by
  simp only [exec, execDir, State.answer, State.fail] at h
  grind

/-- A file comes into being, or a file that is there gets new contents. -/
theorem exec_fill {e : Req} {a : e.Ans} (content : Content)
    (he : e = .dir (.create x ino file) ∨ e = .dir (.write x ino file content))
    (h : exec host p e s = some (a, s')) :
    s' = s ∨ ∃ d f, s.dirs.lookup x = some d ∧
      s' = s.setDir x { d with files := d.files.insert file f } := by
  rcases he with rfl | rfl <;> simp only [exec, execDir, State.answer, State.fail] at h <;>
    grind [dir_eq_some]

theorem exec_chmod {a : Except Errno Unit}
    (h : exec host p (.dir (.chmod x ino mode)) s = some (a, s')) :
    s' = s ∨ ∃ d, s.dirs.lookup x = some d ∧ d.ino = ino ∧ s' = s.setDir x { d with mode } := by
  simp only [exec, execDir, State.answer] at h
  grind [dir_eq_some]

theorem exec_unlink {a : Except Errno Unit}
    (h : exec host p (.dir (.unlink x ino file)) s = some (a, s')) :
    s' = s ∧ a ≠ .ok () ∨ ∃ d f, s.dirs.lookup x = some d ∧ d.ino = ino ∧
      d.files.lookup file = some f ∧ s' = s.setDir x { d with files := d.files.erase file } := by
  simp only [exec, execDir, State.answer, State.fail] at h
  grind [dir_eq_some]

theorem exec_remove {a : Except Errno Unit} (h : exec host p (.dir (.remove x)) s = some (a, s')) :
    s' = s ∧ a ≠ .ok () ∨ ∃ d, s.dirs.lookup x = some d ∧ d.files.keys = [] ∧
      s' = { s with dirs := s.dirs.erase x } := by
  simp only [exec, execDir, State.answer, State.fail] at h
  grind

/-- A rename of a directory, with or without the flag: it lands where there is nothing, or on an
empty directory. -/
theorem exec_move {e : Req} {a : e.Ans} (he : e = .dir (.link x y) ∨ e = .dir (.replace x y))
    (h : exec host p e s = some (a, s')) : s' = s ∨ ∃ d, s.dirs.lookup x = some d ∧
      (∀ d', s.dirs.lookup y = some d' → d'.files.keys = []) ∧ s' = s.moveDir x y d := by
  rcases he with rfl | rfl <;> simp only [exec, execDir, State.answer, State.fail] at h <;> grind

end

theorem exec_records_frame {a : e.Ans} (h : exec host p e s = some (a, s'))
    (he : ∀ r, e ≠ .record r) : s'.derivations = s.derivations ∧ s'.aliases = s.aliases ∧
      s'.retained = s.retained ∧ s'.instances = s.instances := by
  cases e with
  | lock r => obtain ⟨_, _, _, rfl⟩ := execLock_frame h; exact ⟨rfl, rfl, rfl, rfl⟩
  | temp r => obtain ⟨_, _, rfl⟩ := execTemp_frame h; exact ⟨rfl, rfl, rfl, rfl⟩
  | dir r => obtain ⟨_, _, rfl⟩ := execDir_frame h; exact ⟨rfl, rfl, rfl, rfl⟩
  | record r => exact absurd rfl (he r)
  | host r => cases h; exact ⟨rfl, rfl, rfl, rfl⟩

/-- Which requests change a table of records, and how they change that of instances. -/
theorem execRec_tables {r : RecReq} {a : Except Errno r.Out} (h : execRec host s r = some (a, s')) :
    (s'.aliases = s.aliases ∨ ∃ t x, r = .replaceAlias t x) ∧
    (s'.retained = s.retained ∨ (∃ t x, r = .linkRetained t x ∨ r = .replaceRetained t x) ∨
      ∃ id, r = .unlinkRetained id) ∧ (s'.instances = s.instances ∨
      (∃ t id x, (r = .linkInstance t x ∧ id = x.id ∨ r = .replaceInstance t id x) ∧
        s'.instances = s.instances.insert id (some x)) ∨
      ∃ id, r = .unlinkInstance id ∧ s'.instances = s.instances.erase id) := by
  cases r <;> simp only [execRec, State.readRecord, State.replaceRecord, State.linkRecord,
    State.unlinkRecord, State.answer, State.fail, setDerivations, setAliases, setRetained,
    setInstances] at h <;> grind

/-! How a record file is written and removed. -/

section
variable {κ α : Type} [DecidableEq κ] {t : TempName} {table : Table κ (Option α)} {key : κ}
  {record : α} {set : State → Table κ (Option α) → State} {a : Except Errno Unit}

theorem linkRecord_cases (h : s.linkRecord host t table key record set = some (a, s')) :
    (∃ n, a = .error n) ∧ s' = s ∨ a = .ok () ∧ table.lookup key = none ∧
      s' = set { s with temps := s.temps.erase t } (table.insert key (some record)) := by
  unfold State.linkRecord State.answer State.fail at h
  grind

theorem replaceRecord_cases (h : s.replaceRecord t table key record set = some (a, s')) :
    (∃ n, a = .error n) ∧ s' = s ∨ a = .ok () ∧
      s' = set { s with temps := s.temps.erase t } (table.insert key (some record)) := by
  unfold State.replaceRecord State.answer State.fail at h
  grind

theorem unlinkRecord_cases (h : s.unlinkRecord table key set = some (a, s')) :
    (∃ n, a = .error n) ∧ s' = s ∨ a = .ok () ∧ s' = set s (table.erase key) := by
  unfold State.unlinkRecord State.answer State.fail at h
  grind

end

namespace Footprint

variable {F : Footprint} {e : Req} {a : e.Ans}

variable (he : F.allows e) (h : exec host p e s = some (a, s'))
include he h

theorem frame_dirs {d : DirName}
    (hd : ¬ F.dirs d) (hc : ¬ F.chmods d) : s'.dirs.lookup d = s.dirs.lookup d := by
  refine exec_dirs_untouched h fun r hr ht => ?_
  subst hr
  cases r <;> simp only [DirReq.touches] at ht <;> simp only [allows] at he
  case chmod => subst ht; exact he.elim hd hc
  case link => rcases ht with rfl | rfl; exacts [hd he.1, hd he.2]
  case replace => rcases ht with rfl | rfl; exacts [hd he.1, hd he.2]
  all_goals subst ht; exact hd he

/-- Who made a directory does not change, as long as no other directory takes its name. -/
theorem frame_maker {x : DirName} {d' : Dir}
    (hF : ∀ y, F.dirs y → y = x) (hd' : s'.dirs.lookup x = some d') :
    d'.maker = p ∨ ∃ d, s.dirs.lookup x = some d ∧ d.maker = d'.maker := by
  cases e with
  | dir r =>
    rcases execDir_makers h x hd' with hp | hsame | ⟨y, z, hr, hd⟩
    · exact .inl hp
    · exact .inr hsame
    · -- a directory that another name had
      have hy : F.dirs y := by rcases hr with rfl | rfl <;> exact he.1
      cases hF y hy
      exact .inr hd
  | _ => exact .inr ⟨d', by rw [← hd', exec_dirs_frame h fun _ => nofun], rfl⟩

theorem frame_names {n : LockName}
    (hn : ¬ F.names n) (hu : ¬ F.unlinks n) : s'.lockFiles.lookup n = s.lockFiles.lookup n := by
  rcases exec_lockFiles h with hf | ⟨t, n', ino, hr, -, hf⟩ | ⟨n', rfl, hf⟩
  · rw [hf]
  · have hne : n ≠ n' := by
      rintro rfl
      rcases hr with ⟨rfl, -⟩ | rfl <;> exact hn he
    rw [hf, AList.lookup_insert_ne hne]
  · have hne : n ≠ n' := by rintro rfl; exact hu he
    rw [hf, AList.lookup_erase_ne hne]

theorem frame_fds {n : LockName}
    (hn : ¬ F.opens n) (q : Nat) : s'.fds.lookup (q, n) = s.fds.lookup (q, n) := by
  cases e with
  | lock r =>
    have hne : ∀ n', F.opens n' → (q, n) ≠ (p, n') := fun n' ho hk =>
      hn ((Prod.mk.inj hk).2 ▸ ho)
    rcases execLock_fds h with hf | ⟨n', _, rfl, _, hf⟩ | ⟨n', _, _, hr, _, _, hf⟩ | ⟨n', rfl, hf⟩
    · rw [hf]
    · rw [hf, AList.lookup_insert_ne (hne n' he)]
    · have ho : F.opens n' := by rcases hr with rfl | ⟨rfl, -⟩ <;> exact he
      rw [hf, AList.lookup_insert_ne (hne n' ho)]
    · rw [hf, AList.lookup_erase_ne (hne n' he)]
  | _ => rw [(exec_locks_frame h fun _ => nofun).1]

theorem frame_aliases (ha : ¬ F.aliases) :
    s'.aliases = s.aliases := by
  cases e with
  | record r =>
    rcases (execRec_tables h).1 with hsame | ⟨t, x, rfl⟩
    · exact hsame
    · exact absurd he ha
  | _ => exact (exec_records_frame h fun _ => nofun).2.1

theorem frame_retained
    (ha : ¬ F.retained) : s'.retained = s.retained := by
  cases e with
  | record r =>
    rcases (execRec_tables h).2.1 with hsame | ⟨t, x, rfl | rfl⟩ | ⟨id, rfl⟩
    · exact hsame
    all_goals exact absurd he ha
  | _ => exact (exec_records_frame h fun _ => nofun).2.2.1

theorem frame_instance {id : InstanceId}
    (ha : ¬ F.instances id) : s'.instances.lookup id = s.instances.lookup id := by
  cases e with
  | record r =>
    rcases (execRec_tables h).2.2 with hsame | ⟨t, id', x, hr, hsame⟩ | ⟨id', rfl, hsame⟩
    · rw [hsame]
    · have hne : id ≠ id' := by
        rintro rfl
        rcases hr with ⟨rfl, rfl⟩ | rfl <;> exact ha he
      rw [hsame, AList.lookup_insert_ne hne]
    · have hne : id ≠ id' := by rintro rfl; exact ha he.1
      rw [hsame, AList.lookup_erase_ne hne]
  | _ => rw [(exec_records_frame h fun _ => nofun).2.2.2]

/-- A record that can be read stays one that can be read unless it is unlinked. -/
theorem frame_readable {id : InstanceId}
    (hf : ¬ F.forgets id) (hs : ∃ r, s.instances.lookup id = some (some r)) :
    ∃ r, s'.instances.lookup id = some (some r) := by
  cases e with
  | record r =>
    rcases (execRec_tables h).2.2 with hsame | ⟨t, id', x, hr, hsame⟩ | ⟨id', rfl, hsame⟩
    · rwa [hsame]
    · by_cases hid : id = id'
      · exact ⟨x, by rw [hsame, hid, AList.lookup_insert]⟩
      · rwa [hsame, AList.lookup_insert_ne hid]
    · have hne : id ≠ id' := by rintro rfl; exact hf he.2
      rwa [hsame, AList.lookup_erase_ne hne]
  | _ => rwa [(exec_records_frame h fun _ => nofun).2.2.2]

theorem frame_instances
    (ha : ∀ id, ¬ F.instances id) : s'.instances = s.instances := by
  cases e with
  | record r =>
    rcases (execRec_tables h).2.2 with hsame | ⟨t, id, x, ⟨rfl, -⟩ | rfl, -⟩ | ⟨id, rfl, -⟩
    · exact hsame
    · exact absurd he (ha _)
    · exact absurd he (ha _)
    · exact absurd he.1 (ha _)
  | _ => exact (exec_records_frame h fun _ => nofun).2.2.2

end Footprint

end PocketVm.Store
