import PocketVm.Store.RootsRead

/-!
# Releasing a root by its identifier

`release_orphaned_retained_cow` asks the records whether one names the root, and then removes the
directory the root's path lies in. A resume that is interrupted leaves two roots on one path, so
the directory may be that of an instance which names the other one. Where the root to be released
is the only one on its path that a published instance could own, the release leaves every published
instance's directory alone.
-/

namespace PocketVm.Store

open Conc Discipline Footprint

def keepingOp : Op → Bool
  | .executeRun _ | .executeStart _ | .retainInstance _ _ _ _ | .removeInstance _
  | .releaseOrphanedRetainedCow _ => true
  | _ => false

/-- If root `id` lies in the directory of a published instance, that instance names it. -/
def OnlyRoot (s : State) (id : RetainedCowId) : Prop :=
  ∀ r j leaf inst, s.retained.lookup id = some (some r) → r.cowPath = .inInstance j leaf →
    s.instances.lookup j = some (some inst) → inst.retainedId = id

/-- The steps the discipline is about: a release gets the roots lock only where its root is the only
one. -/
def releaseCond (s : State) (p : Nat) : Act Op Req → Prop
  | .start op => keepingOp op = true
  | .run (.lock (.lock .roots .exclusive)) =>
    ∀ id, s.live.lookup p = some (.releaseOrphanedRetainedCow id) → OnlyRoot s id
  | _ => True

structure ReleaseStep (q : Nat) (s s' : State) : Prop where
  locks : LockStep q s s'
  live : ∀ p, p ≠ q → s'.live.lookup p = s.live.lookup p
  tables : s'.retained = s.retained ∧ s'.instances = s.instances ∨ Held s q .roots .exclusive
  spared : ∀ id, s.live.lookup q = some (.releaseOrphanedRetainedCow id) →
    ∀ j inst, s.instances.lookup j = some (some inst) →
      s'.dirs.lookup (.instance j) = s.dirs.lookup (.instance j)

def releasing : Discipline Op Req State where
  inv := Solid
  guar := ReleaseStep
  cond := releaseCond
  guar_refl q s := ⟨.refl q s, fun _ _ => rfl, .inl ⟨rfl, rfl⟩, fun _ _ _ _ _ => rfl⟩

variable {host : Host} {p : Nat} {s s' : State} {op : Op} {id : RetainedCowId}
  {T : Table RetainedCowId (Option RetainedCow)} {I : Table InstanceId (Option Instance)}

theorem releasing_locking : Locking releasing (· = .roots) (· = .roots) where
  locks _ h := h.locks
  step _ _ _ h := h.locks
  lock s p n m hi _ hn := by subst hn; exact hi.granted p m
  tryLock s p n hi _ hn := by subst hn; exact hi.granted p .exclusive
  own p n s s' _ h hi hl := ⟨hi.own h hl, h.lockStep, fun _ _ => by rw [h.eq],
    .inl ⟨h.retained, h.instances⟩, fun _ _ _ _ _ => by rw [h.dirs]⟩

theorem releasing_attended : Attended releasing := ⟨fun _ _ _ h => h.live⟩

namespace Release

def roots (p : Nat) : Assn releasing p := releasing_locking.held p fixed_roots .exclusive

def alive (p : Nat) (op : Op) : Assn releasing p := releasing_attended.alive p op

/-- Roots and instances, under the roots lock. -/
def tables (p : Nat) (T : Table RetainedCowId (Option RetainedCow))
    (I : Table InstanceId (Option Instance)) : Assn releasing p where
  holds s := Held s p .roots .exclusive ∧ s.retained = T ∧ s.instances = I
  stable q s s' hq hi _ hg hs := by
    refine ⟨hg.locks.held hq.symm fixed_roots hs.1, ?_⟩
    rcases hg.tables with ⟨hT, hI⟩ | hheld
    · exact ⟨hT.trans hs.2.1, hI.trans hs.2.2⟩
    · exact absurd (hs.1.excludes hi.locks (fun _ => rfl) hheld) hq

theorem keeps_alive_own {n : LockName} : (alive p op).Keeps (OwnFd p n) :=
  fun s s' h hs => by show s'.live.lookup p = some op; rw [h.eq]; exact hs

section
variable {F : Footprint} {α : Type} {m : StoreM α} (hop : ∀ id, op ≠ .releaseOrphanedRetainedCow id)
  (hn : ¬ F.names .roots) (hu : ¬ F.unlinks .roots)
include hop hn hu

theorem asks_free (hr : ¬ F.retained) (hi : ∀ i, ¬ F.instances i) {e : Req} (he : F.allows e) :
    Asks host (alive p op) e fun _ => alive p op where
  run s a s' hinv hp _ h := by
    obtain ⟨hs, hl⟩ := hinv.exec h (frame_names he h hn hu)
    refine ⟨hs, ⟨hl, fun _ _ => by rw [exec_live h],
      .inl ⟨frame_retained he h hr, frame_instances he h hi⟩, fun id hid => ?_⟩,
      by show s'.live.lookup p = some op; rw [exec_live h]; exact hp⟩
    cases hp.symm.trans hid
    exact absurd rfl (hop id)
  fault _ _ hp _ _ := hp

theorem spec_locked (ho : ¬ F.opens .roots) (hm : F.Within m) :
    Spec host (alive p op) (withRoots .exclusive m) (fun _ => alive p op) fun _ => alive p op := by
  refine releasing_locking.spec_withRoots (J := alive p op ⊓ roots p) rfl keeps_alive_own
    (fun _ => keeps_alive_own) (fun _ => keeps_alive_own) (fun _ _ h => h)
    (fun s s' _ hs _ h hheld => ⟨keeps_alive_own s s' h hs, hheld⟩) ?_
  refine .conseq (Spec.keeps (P := alive p op ⊓ roots p) hm fun e he =>
      ⟨fun s a s' hinv hp _ h => ?_, fun _ _ hp _ _ => hp⟩)
    (fun _ _ h => h) (fun _ _ _ h => h.1) fun _ _ _ h => h.1
  obtain ⟨hs, hl⟩ := hinv.exec h (frame_names he h hn hu)
  refine ⟨hs, ⟨hl, fun _ _ => by rw [exec_live h], .inr hp.2, fun id hid => ?_⟩,
    by show s'.live.lookup p = some op; rw [exec_live h]; exact hp.1,
    hp.2.of_fixed fixed_roots (frame_fds he h ho p)⟩
  cases hp.1.symm.trans hid
  exact absurd rfl (hop id)

end

def free : Footprint where
  temps := True
  opens n := n ≠ .roots
  names n := n ≠ .roots
  unlinks n := n ≠ .roots
  dirs _ := True
  chmods _ := True
  keys _ := True
  aliases := True
  retained := False
  instances _ := False
  forgets _ := False

section
variable (hop : ∀ id, op ≠ .releaseOrphanedRetainedCow id)
include hop

theorem keeping (i : InstanceId) : Keeping host (alive p op) i := by
  have hout : ∀ e, outside.allows e → Asks host (alive p op) e fun _ => alive p op := fun e he =>
    asks_free (F := outside) hop (fun ⟨_, h⟩ => nomatch h) not_false not_false
      (fun _ => not_false) he
  exact ⟨hout, fun hm => releasing_locking.spec_withRoots (J := alive p op) rfl keeps_alive_own
      (fun _ => keeps_alive_own) (fun _ => keeps_alive_own) (fun _ _ h => h)
      (fun s s' _ hs _ h _ => keeps_alive_own s s' h hs) (.keeps hm hout),
    fun hm => spec_locked hop not_false not_false not_false hm⟩

theorem spec_free {α : Type} {m : StoreM α} (hm : free.Within m) :
    Spec host (alive p op) m (fun _ => alive p op) fun _ => alive p op :=
  .keeps hm fun _ he => asks_free hop (absurd rfl) (absurd rfl) not_false (fun _ => not_false) he

theorem spec_executeRun (input : RunInput) :
    Spec host (alive p op) (executeRun host input) (fun _ => alive p op) fun _ => alive p op := by
  have hrun : free.Within (do
      ofExcept (validateInstanceName input.retain.name)
      let id ← discardOnError host input.retain.name
        (startWithLease host input.retain input.overlay)
      ask "announce consoles" (.host .announceConsoles)
      discardOnError host input.retain.name (ask "wait" (.host .wait))
      return id) :=
    .bind (.ofExcept _) fun _ => .bind
      (within_discardOnError trivial (within_startWithLease trivial _))
      fun _ => .bind (.ask trivial) fun _ => .bind (within_discardOnError trivial (.ask trivial))
      fun _ => .pure _
  refine .bind (spec_free hop (within_acquireLease host trivial nofun nofun)) fun _ =>
    .bind (spec_free hop (.holding nofun hrun)) fun id => ?_
  refine .bind (J := fun _ => alive p op)
    ((Spec.attempt ((keeping hop _).spec_retainInstance rfl _ _ _)).post
    fun r _ _ h => by cases r <;> exact h) fun r => ?_
  cases r with
  | ok a => exact .pure fun _ _ h => h
  | error e =>
    exact .bind (spec_free hop (.attempt (within_discardInstanceDirectory host trivial))) fun _ =>
      .throw fun _ _ h => h

theorem spec_executeStart (input : StartInput) :
    Spec host (alive p op) (executeStart host input) (fun _ => alive p op) fun _ => alive p op := by
  refine .bind ((keeping hop (Instance.deriveId host input.name)).spec_readInstanceByName _) fun i =>
    .bind (Spec.looks (.require _ _)) fun _ =>
    .bind ((keeping hop i.id).spec_leaseRetainedCow _) fun ⟨r, g⟩ =>
    .bind (spec_free hop (.holding nofun ?_)) fun id =>
    (keeping hop _).spec_retainInstance rfl _ _ _
  exact .bind (within_startWithLease trivial _) fun _ => .bind (.ask trivial) fun _ =>
    .bind (.ask trivial) fun _ => .pure _

theorem spec_removeInstance (name : String) :
    Spec host (alive p op) (removeInstance host name) (fun _ => alive p op) fun _ =>
      alive p op := by
  have K : Keeping host (alive p op) (Instance.deriveId host name) := keeping hop _
  refine .bind (K.spec_readInstanceByName _) fun i => .bind (K.spec_dropRoot _) fun _ =>
    spec_locked (F := { free with opens := (· ≠ .roots), instances := fun _ => True, forgets := fun _ => True }) hop (absurd rfl)
      (absurd rfl) (absurd rfl) ?_
  exact .bind (.ask ⟨trivial, trivial⟩) fun _ =>
    .bind (.attempt (within_removeTree trivial)) fun _ =>
    .bind (.syncAll _) fun _ => .pure _

end

def holder (p : Nat) (id : RetainedCowId) (I : Table InstanceId (Option Instance)) :
    Assn releasing p where
  holds s := s.live.lookup p = some (.releaseOrphanedRetainedCow id) ∧ Held s p .roots .exclusive ∧
    s.instances = I
  stable q s s' hq hi _ hg hs := by
    refine ⟨(hg.live p hq.symm).trans hs.1, hg.locks.held hq.symm fixed_roots hs.2.1, ?_⟩
    rcases hg.tables with ⟨-, hI⟩ | hheld
    · exact hI.trans hs.2.2
    · exact absurd (hs.2.1.excludes hi.locks (fun _ => rfl) hheld) hq

theorem spec_removeUnowned {j : InstanceId} (hj : ∀ inst, I.lookup j ≠ some (some inst)) :
    Spec host (holder p id I) (removeTree (.instance j)) (fun _ => holder p id I) fun _ =>
      holder p id I := by
  refine .keeps (F := { Footprint.reads with dirs := (· = .instance j) }) (within_removeTree rfl)
    fun e he => ⟨fun s a s' hinv hp _ h => ?_, fun _ _ hp _ _ => hp⟩
  obtain ⟨hs, hl⟩ := hinv.exec h (frame_names he h not_false not_false)
  have hinst : s'.instances = s.instances := frame_instances he h fun _ => not_false
  refine ⟨hs, ⟨hl, fun _ _ => by rw [exec_live h], .inl ⟨frame_retained he h not_false, hinst⟩, ?_⟩,
    by rw [exec_live h]; exact hp.1, hp.2.1.of_fixed fixed_roots (frame_fds he h not_false p),
    hinst.trans hp.2.2⟩
  intro _ _ j' inst hinst'
  refine frame_dirs he h (fun hd => ?_) not_false
  cases DirName.instance.inj hd
  exact hj inst (hp.2.2 ▸ hinst')

theorem spec_releaseOrphanedRetainedCow :
    Spec host (alive p (.releaseOrphanedRetainedCow id)) (releaseOrphanedRetainedCow host id)
      (fun _ => ⊤) fun _ => ⊤ := by
  refine releasing_locking.spec_withRoots
    (J := .any fun t : Table RetainedCowId (Option RetainedCow) × Table InstanceId
      (Option Instance) =>
      holder p id t.2 ⊓ tables p t.1 t.2 ⊓ .fact (∀ r j leaf inst, t.1.lookup id = some (some r) →
        r.cowPath = .inInstance j leaf → t.2.lookup j = some (some inst) → inst.retainedId = id))
    rfl keeps_alive_own (fun _ => .top) (fun _ => .top) (fun _ _ _ => trivial)
    (fun s s' hi hs hc h hheld => ⟨(s'.retained, s'.instances),
      ⟨⟨keeps_alive_own s s' h hs, hheld, rfl⟩, hheld, rfl, rfl⟩, ?_⟩)
    (.of_any fun ⟨T, I⟩ => .of_fact fun honly => ?_)
  · -- the lock is granted in the state the condition speaks of
    rw [h.retained, h.instances]
    exact hc id hs
  refine .bind ((spec_readInstancesLocked (P := holder p id I ⊓ tables p T I) (I := I)
    fun s hs => hs.2.2.2).err fun _ _ _ _ => trivial) fun l => .of_fact fun hl => ?_
  split
  · exact .pure fun _ _ _ => trivial
  · next hfind =>
    refine .bind (Spec.attempt (spec_readRetained (P := holder p id I ⊓ tables p T I)
      (x := T.lookup id) fun s hs => by rw [hs.2.2.1])) fun a => ?_
    split
    · exact .pure fun _ _ _ => trivial
    · exact .throw fun _ _ _ => trivial
    · next r =>
      refine .of_fact fun hr => ?_
      have hfree : ∀ j leaf, r.cowPath = .inInstance j leaf → ∀ inst,
        I.lookup j ≠ some (some inst) := by
        intro j leaf hpath inst hinst
        have hnamed := honly r j leaf inst hr.1 hpath hinst
        exact List.find?_eq_none.mp hfind inst (hl j inst hinst) (decide_eq_true hnamed)
      have hunlink : Spec host (holder p id I ⊓ tables p T I)
        (ask "unlink file" (.record (.unlinkRetained id)))
          (fun _ => holder p id I) fun _ => ⊤ := by
        refine Spec.ask ((asks_unlinkRetained (Q := holder p id I) fun s hi hs _ => ?_).imp
          fun a s h => ?_)
        · exact ⟨hi.of_sub (fun _ _ h => h) rfl,
            ⟨⟨fun _ _ _ => rfl⟩, fun _ _ => rfl, .inr hs.2.1, fun _ _ _ _ _ => rfl⟩, hs.1⟩
        · cases a
          · trivial
          · exact h
      refine .bind hunlink fun _ => .bind ((Spec.syncAll _).err fun _ _ _ _ => trivial) fun _ =>
        .bind (J := fun _ => ⊤) ?_ fun _ => .pure fun _ _ h => h
      cases hpath : r.cowPath with
      | inInstance j leaf =>
        exact .bind (J := fun _ => ⊤) ((Spec.attempt (spec_removeUnowned (hfree j leaf hpath))).post
          fun _ _ _ _ => trivial) fun _ => .pure fun _ _ h => h
      | elsewhere path => exact .pure fun _ _ _ => trivial

theorem spec_run (hop : keepingOp op = true) (hs : s.live.lookup p = some op) :
    releasing.wp (system host) p (routine host op).run (fun _ _ => True) s := by
  have hend : ∀ {α : Type} {f : α → Value} {m : StoreM α} {Q X}, Spec host (alive p op) m Q X →
      releasing.wp (system host) p (f <$> m).run (fun _ _ => True) s := fun h =>
    wp_mono ((Spec.map h fun _ _ _ => trivial : Spec host (alive p op) _ (fun _ => ⊤) _) s hs)
      fun _ _ _ _ => trivial
  cases op with
  | executeRun input => exact hend (spec_executeRun (by rintro _ ⟨⟩) input)
  | executeStart input => exact hend (spec_executeStart (by rintro _ ⟨⟩) input)
  | retainInstance output retain created finished =>
    exact hend ((keeping (by rintro _ ⟨⟩) _).spec_retainInstance rfl output created finished)
  | removeInstance name => exact hend (spec_removeInstance (by rintro _ ⟨⟩) name)
  | releaseOrphanedRetainedCow id => exact hend spec_releaseOrphanedRetainedCow
  | _ => cases hop

theorem sound : releasing.Sound (system host) fun _ _ _ => True where
  start p op s hi hc := ⟨hi.of_sub (fun _ _ h => h) rfl,
    ⟨⟨fun _ _ _ => rfl⟩, fun _ hq => live_enter hq, .inl ⟨rfl, rfl⟩, fun _ _ _ _ _ => rfl⟩,
      spec_run hc (AList.lookup_insert _)⟩
  kill p s hi _ := by
    obtain ⟨hsolid, hlock⟩ := hi.leave p
    exact ⟨hsolid, hlock, fun _ hq => live_leave hq, .inl ⟨rfl, rfl⟩, fun _ _ _ _ _ => rfl⟩

end Release

/-- A release leaves the directory of every published instance as it is. -/
theorem release_spares_published {c₀ c c' : Config Req.Ans State Ret}
    (hidle : ∀ p, c₀.procs p = none)
    (hclosed : c₀.shared.fds = ∅) (hr : (system host).Reach releaseCond c₀ c) {a : Act Op Req}
    (hlive : c.shared.live.lookup p = some (.releaseOrphanedRetainedCow id))
    (hcond : releaseCond c.shared p a) (hs : (system host).Step c p a c') {j : InstanceId}
    {inst : Instance} (hj : c.shared.instances.lookup j = some (some inst)) :
    c'.shared.dirs.lookup (.instance j) = c.shared.dirs.lookup (.instance j) := by
  have hc := Release.sound.reach (Solid.of_closed hclosed) hidle hr
  exact (hc.step Release.sound hcond hs).2.spared id hlive j inst hj

def onlyRoot (s : State) (id : RetainedCowId) : Bool :=
  match s.retained.lookup id with
  | some (some r) =>
    match r.cowPath with
    | .inInstance j _ => (s.instances.lookup j).join.all (·.retainedId = id)
    | .elsewhere _ => true
  | _ => true

def rootToRelease (s : State) (p : Nat) : Option RetainedCowId :=
  match s.live.lookup p with
  | some (.releaseOrphanedRetainedCow id) => some id
  | _ => none

def releaseCheck (s : State) (p : Nat) : Act Op Req → Bool
  | .start op => keepingOp op
  | .run (.lock (.lock .roots .exclusive)) => (rootToRelease s p).all (onlyRoot s)
  | _ => true

theorem rootToRelease_eq_some : rootToRelease s p = some id ↔
    s.live.lookup p = some (.releaseOrphanedRetainedCow id) := by
  unfold rootToRelease
  split <;> simp_all

theorem onlyRoot_sound (h : onlyRoot s id = true) : OnlyRoot s id := by
  intro r j leaf inst hr hpath hinst
  simp only [onlyRoot, hr, hpath, hinst, Option.join_some, Option.all_some, decide_eq_true_eq] at h
  exact h

theorem releaseCheck_sound (s : State) (p : Nat) (a : Act Op Req) (h : releaseCheck s p a = true) :
    releaseCond s p a := by
  unfold releaseCond
  split
  · exact h
  · intro id hlive
    rw [releaseCheck, rootToRelease_eq_some.mpr hlive] at h
    exact onlyRoot_sound h
  · trivial

open Sample (built config instanceId rested root runInput runs)

set_option maxRecDepth 10000 in
/-- The root that a killed run registered is released beside a published instance: the directory of
the killed run goes, that of the instance stays. -/
theorem release_spares_published_beside : ∃ (c c' : Config Req.Ans State Ret) (inst : Instance),
      c.shared.instances.lookup (instanceId "a") = some (some inst) ∧
      c.shared.dirs.lookup (.instance (instanceId "b")) ≠ none ∧
      c'.shared.dirs.lookup (.instance (instanceId "b")) = none ∧
        c'.shared.dirs.lookup (.instance (instanceId "a")) =
        c.shared.dirs.lookup (.instance (instanceId "a")) := by
  obtain ⟨c₀, -, ht⟩ := System.Reach.exists_of_replay (M := system (Sample.host true))
    anyStep_sound config built (fun c => c.shared.fds.entries.isEmpty &&
      ((system (Sample.host true)).replay releaseCheck (rested c)
        (.start 1 (.executeRun (runInput "a" [7])) :: runs 1 54 ++ .kill 1 ::
          .start 2 (.executeRun (runInput "b" [9])) :: runs 2 50 ++ .kill 2 ::
          .start 3 (.releaseOrphanedRetainedCow (root "b" [9])) :: runs 3 13)).any fun c =>
        (c.shared.instances.lookup (instanceId "a")).join.isSome &&
        decide (rootToRelease c.shared 3 = some (root "b" [9])) &&
        (c.shared.dirs.lookup (.instance (instanceId "b"))).isSome &&
        ((system (Sample.host true)).replay releaseCheck c [.run 3]).any fun c' =>
          (c'.shared.dirs.lookup (.instance (instanceId "b"))).isNone) (by decide +kernel)
  rw [Bool.and_eq_true] at ht
  have hclosed : (rested c₀).shared.fds = ∅ := AList.ext (List.isEmpty_iff.mp ht.1)
  obtain ⟨c, hr, hc⟩ := System.Reach.exists_of_replay releaseCheck_sound _ _ _ ht.2
  simp only [Bool.and_eq_true, Option.any_eq_true, decide_eq_true_eq, Option.isSome_iff_exists,
    Option.isNone_iff_eq_none, Option.join_eq_some_iff, rootToRelease_eq_some] at hc
  obtain ⟨⟨⟨⟨inst, hinst⟩, hlive⟩, d, hd⟩, c', hstep, hgone⟩ := hc
  obtain ⟨a, hok, hs⟩ := System.Step.of_replay hstep
  exact ⟨c, c', inst, hinst, by rw [hd]; exact nofun, hgone,
    release_spares_published (fun _ => rfl) hclosed hr hlive
      (releaseCheck_sound _ _ _ hok) hs hinst⟩

/-- An image, a run kept under a name, and a resume of it that dies before it drops the old root:
two roots lie on the path of the one overlay. -/
def Sample.interrupted : List (Event Op) :=
  built ++ .start 1 (.executeRun (runInput "a" [7])) :: runs 1 54 ++
  .kill 1 :: .start 2 (.executeStart ⟨"a", [8], .exited 0, 3, 4⟩) :: runs 2 69 ++ [.kill 2]

def releasedBy (c : Config Req.Ans State Ret) (p : Nat) : Option RetainedCow :=
  match c.procs p with
  | some (.ret (.ok (.released (.released r)))) => some r
  | _ => none

theorem procs_of_releasedBy {c : Config Req.Ans State Ret} {r : RetainedCow}
    (h : releasedBy c p = some r) :
    c.procs p = some (.ret (.ok (.released (.released r)))) := by
  unfold releasedBy at h
  split at h
  · cases h; assumption
  · cases h

set_option maxRecDepth 10000 in
/-- The old root is released: the instance stays published and its directory is removed. -/
theorem release_removes_published : ∃ c c' : Config Req.Ans State Ret,
      (system (Sample.host true)).Reach anyStep config c ∧
      (∃ inst, c.shared.instances.lookup (instanceId "a") = some (some inst) ∧
        inst.retainedId = root "a" [8]) ∧
      (∃ d f, c.shared.dirs.lookup (.instance (instanceId "a")) = some d ∧
        d.files.lookup ROOT_COW = some f) ∧
      (system (Sample.host true)).Reach (starting fun op => keepingOp op = true) c c' ∧
      (∃ r, c'.procs 3 = some (.ret (.ok (.released (.released r)))) ∧ r.id = root "a" [7]) ∧
      (∃ inst, c'.shared.instances.lookup (instanceId "a") = some (some inst)) ∧
      c'.shared.dirs.lookup (.instance (instanceId "a")) = none := by
  obtain ⟨c, c', hr, ht, hr', ht'⟩ :=
    System.Reach.exists_of_replays (M := system (Sample.host true))
    anyStep_sound (startingCheck_sound keepingOp fun _ h => h) config Sample.interrupted
    (.start 3 (.releaseOrphanedRetainedCow (root "a" [7])) :: runs 3 16)
    (fun c => (c.shared.instances.lookup (instanceId "a")).join.any (·.retainedId = root "a" [8]) &&
      (c.shared.dirs.lookup (.instance (instanceId "a"))).any fun d =>
        (d.files.lookup ROOT_COW).isSome)
    (fun c => (releasedBy c 3).any (·.id = root "a" [7]) &&
      (c.shared.instances.lookup (instanceId "a")).join.isSome &&
      (c.shared.dirs.lookup (.instance (instanceId "a"))).isNone)
    (by decide +kernel)
  simp only [Bool.and_eq_true, Option.any_eq_true, decide_eq_true_eq, Option.isSome_iff_exists,
    Option.isNone_iff_eq_none, Option.join_eq_some_iff] at ht ht'
  obtain ⟨hinst, d, hd, f, hf⟩ := ht
  obtain ⟨⟨⟨r, hret, hid⟩, hinst'⟩, hgone⟩ := ht'
  exact ⟨c, c', hr, hinst, ⟨d, f, hd, hf⟩, hr', ⟨r, procs_of_releasedBy hret, hid⟩, hinst', hgone⟩

end PocketVm.Store
