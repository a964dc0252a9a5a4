import PocketVm.Store.RootsRead

/-!
# Overlays under a lease

`lease_retained_cow` hands out the record of an overlay and a lease on its generation. The lease
keeps the generation; nothing keeps the overlay. `remove_instance` and
`release_orphaned_retained_cow` take the roots lock, which a resumed run does not hold, so either
removes the disk its guest is writing. Where neither runs beside a lease on the directory it
removes, a leased directory stays as it is.
-/

namespace PocketVm.Store

open Conc Discipline Footprint Fallible

variable (host : Host)

/-- Some overlay in the directory of `j` has the identifier `id`. -/
def RootIn (id : RetainedCowId) (j : InstanceId) : Prop :=
  ∃ r : RetainedCow, RetainedCow.deriveId host r.generationId r.cowPath r.cowDigest r.cowSize r.state = id ∧
    ∃ leaf, r.cowPath = .inInstance j leaf

/-- The directories in which the operation leases an overlay. -/
def Op.leases : Op → InstanceId → Prop
  | .executeStart input, j => j = Instance.deriveId host input.name
  | .leaseRetainedCow id, j => RootIn host id j
  | _, _ => False

/-- The directories that the operation may remove. -/
def Op.takes : Op → InstanceId → Prop
  | .removeInstance name, j => j = Instance.deriveId host name
  | .releaseOrphanedRetainedCow id, j => RootIn host id j
  | _, _ => False

/-- No process runs an operation that leases an overlay in the directory of `j`. -/
def Unleased (s : State) (j : InstanceId) : Prop := ∀ q op, s.live.lookup q = some op →
    ¬ op.leases host j

/-- The steps the discipline is about. A removal starts, and a release reads its root, while nobody
leases the directory in question; no lease begins on a directory that a running operation may
remove. -/
def overlayCond (s : State) (p : Nat) : Act Op Req → Prop
  | .start op => (∀ q op' j, s.live.lookup q = some op' → op'.takes host j → ¬ op.leases host j) ∧
    ∀ name, op = .removeInstance name → Unleased host s (Instance.deriveId host name)
  | .run (.record (.readRetained id)) => Doing s p (· = .releaseOrphanedRetainedCow id) → ∀ r j leaf,
    s.retained.lookup id = some (some r) → r.cowPath = .inInstance j leaf → Unleased host s j
  | _ => True

/-- What a step leaves as it is: the directories under a lease, where it is one of a removal or a
release. -/
structure OverlayStep (q : Nat) (s s' : State) : Prop where
  live : ∀ p, p ≠ q → s'.live.lookup p = s.live.lookup p
  begins : ∀ op, s'.live.lookup q = some op → s.live.lookup q = some op ∨
    ∀ p op' j, s.live.lookup p = some op' → op'.takes host j → ¬ op.leases host j
  spared : ∀ op i j, s.live.lookup q = some op → op.takes host i → ¬ Unleased host s j →
    s'.dirs.lookup (.instance j) = s.dirs.lookup (.instance j)

def sparing : Discipline Op Req State where
  inv _ := True
  guar := OverlayStep host
  cond := overlayCond host
  guar_refl _ _ := ⟨fun _ _ => rfl, fun _ h => .inl h, fun _ _ _ _ _ _ => rfl⟩

variable {host} {p q : Nat} {s s' : State} {op : Op}

theorem yields_readRetained (id : RetainedCowId) :
    Yields (fun r => ∀ j leaf, r.cowPath = .inInstance j leaf → RootIn host id j)
      (readRetained host id) := by
  refine .bind (.any _) fun a _ => ?_
  split
  · exact .throw _
  · exact .throw _
  · exact .throw _
  · next r =>
    exact .bind yields_require fun _ hr => .bind yields_require fun _ hid =>
      .pure fun j leaf hpath => ⟨r, hr.trans hid, leaf, hpath⟩

theorem yields_withRoots {α : Type} {ψ : α → Prop} {mode : LockMode} {m : StoreM α}
    (h : Yields ψ m) :
    Yields ψ (withRoots mode m) :=
  .bind (.any _) fun _ _ => .bind (yields_attempt (.bind (.any _) fun _ _ => h)) fun _ hr =>
    .bind (.any _) fun _ _ => yields_ofExcept hr

theorem yields_leaseRetainedCow (id : RetainedCowId) :
    Yields (fun r => ∀ j leaf, r.1.cowPath = .inInstance j leaf → RootIn host id j)
      (leaseRetainedCow host id) := by
  refine yields_withRoots (.bind (yields_readRetained id) fun _ hr => ?_)
  refine .bind (.any _) fun _ _ => .bind (.any _) fun _ _ => .bind (.any _) fun _ _ => ?_
  exact .bind (.any _) fun _ _ => .pure hr

namespace Overlay

theorem attended : Attended (sparing host) := ⟨fun _ _ _ h => h.live⟩

def alive (p : Nat) (op : Op) : Assn (sparing host) p := attended.alive p op

/-- Everything, as to directories only those of `taken`. -/
def but (taken : InstanceId → Prop) : Footprint where
  temps := True
  opens _ := True
  names _ := True
  unlinks _ := True
  dirs d := ∃ j, d = .instance j ∧ taken j
  chmods _ := False
  keys _ := True
  aliases := True
  retained := True
  instances _ := True
  forgets _ := True

section
variable {taken : InstanceId → Prop} {P : Assn (sparing host) p} {e : Req}

/-- A request that writes only directories nobody leases. -/
theorem asks_but (hP : ∀ s s', s'.live = s.live → P s → P s')
    (hfree : ∀ s, P s → ∀ j, taken j → Unleased host s j)
    (he : (but taken).allows e) : Asks host P e fun _ => P where
  run s a s' _ hp _ h := by
    refine ⟨trivial, ⟨fun _ _ => by rw [exec_live h], fun op' hop' => .inl (by rwa [exec_live h] at hop'), ?_⟩,
      hP s s' (exec_live h) hp⟩
    intro _ _ j _ _ hleased
    refine frame_dirs he h (fun hd => ?_) not_false
    obtain ⟨j', hj, htaken⟩ := hd
    cases hj
    exact hleased (hfree s hp _ htaken)
  fault _ _ hp _ _ := hp

end

theorem alive_of_live (hl : s'.live = s.live) (h : s.live.lookup p = some op) :
    s'.live.lookup p = some op := by
  rw [hl]
  exact h

section
variable {j : InstanceId}

/-- Process `p` runs an operation that may remove the directory of `j`, and nobody leases it. -/
def clear (p : Nat) (op : Op) (h : op.takes host j) : Assn (sparing host) p where
  holds s := s.live.lookup p = some op ∧ Unleased host s j
  stable q s s' hq _ _ hg hs := by
    obtain ⟨hlive, hfree⟩ := hs
    refine ⟨(hg.live p hq.symm).trans hlive, fun q' op' hop' => ?_⟩
    by_cases hqq : q' = q
    · subst hqq
      rcases hg.begins op' hop' with hold | hnew
      · exact hfree q' op' hold
      · exact hnew p op j hlive h
    · exact hfree q' op' ((hg.live q' hqq).symm.trans hop')

theorem Spec.clear {α : Type} {m : StoreM α} (h : op.takes host j) (hm : (but (· = j)).Within m) :
    Spec host (clear p op h) m (fun _ => alive p op) fun _ => alive p op := by
  refine (Spec.keeps hm fun e he => asks_but (fun s s' hl hs => ?_) (fun s hs => ?_) he).conseq
    (fun _ _ hs => hs) (fun _ _ _ hs => hs.1) fun _ _ _ hs => hs.1
  · refine ⟨alive_of_live hl hs.1, fun q op' hop' => hs.2 q op' ?_⟩
    rwa [hl] at hop'
  · rintro _ rfl
    exact hs.2

end

theorem spec_removeInstance (name : String)
    (h : (Op.removeInstance name).takes host (Instance.deriveId host name)) :
    Spec host (clear p _ h) (routine host (.removeInstance name))
      (fun _ => alive p (.removeInstance name)) fun _ => alive p (.removeInstance name) := by
  have hdrop : ∀ id, (but (· = Instance.deriveId host name)).Within (dropRoot host id) := by
    intro id
    refine .bind (.attempt (within_withRoots trivial ?_)) fun r => ?_
    · exact .bind (within_readRetained host id) fun _ => .bind (.ask trivial) fun _ =>
        .bind (.syncAll _) fun _ => .pure _
    · split
      · exact .pure _
      · exact .pure _
      · exact .throw _
  refine Spec.clear h (.map ?_)
  refine .bind (.bind (.ofExcept _) fun _ =>
    within_withRoots trivial (within_readInstance host _)) fun i => ?_
  refine .bind (hdrop _) fun _ => within_withRoots trivial ?_
  refine .bind (.ask ⟨trivial, trivial⟩) fun _ =>
    .bind (.attempt (within_removeTree ⟨_, rfl, rfl⟩)) fun _ => ?_
  exact .bind (.syncAll _) fun _ => .pure _

section
variable {id : RetainedCowId}

/-- The root that a release has read lies in a directory that nobody leases. -/
def cleared (p : Nat) (id : RetainedCowId) (r : RetainedCow) : Assn (sparing host) p :=
  alive p (.releaseOrphanedRetainedCow id) ⊓ .all fun j => .all fun h : RootIn host id j ∧
    ∃ leaf, r.cowPath = .inInstance j leaf => clear p (.releaseOrphanedRetainedCow id) h.1

theorem spec_readRoot : Spec host (alive p (.releaseOrphanedRetainedCow id) : Assn (sparing host) p)
    (readRetained host id) (cleared p id) fun _ => alive p (.releaseOrphanedRetainedCow id) := by
  refine .bind (J := Ends (fun x => x.elim (alive p (.releaseOrphanedRetainedCow id)) (cleared p id))
    fun _ => alive p (.releaseOrphanedRetainedCow id)) (Spec.sys ⟨?_, ?_⟩) fun a => ?_
  · intro s a s' _ hp hc h
    change execRec host s (.readRetained id) = _ at h
    simp only [execRec, State.readRecord, State.answer, State.fail] at h
    split at h
    · cases h
      exact ⟨trivial, (sparing host).guar_refl p s, hp⟩
    · next x hx =>
      cases h
      refine ⟨trivial, (sparing host).guar_refl p s, ?_⟩
      cases x with
      | none => exact hp
      | some r =>
        refine ⟨hp, fun j hj => ⟨hp, ?_⟩⟩
        obtain ⟨-, leaf, hpath⟩ := hj
        exact hc ⟨_, hp, rfl⟩ r j leaf hx hpath
  · exact fun _ _ hp _ _ => hp
  · split
    · exact .throw fun _ _ h => h
    · exact .throw fun _ _ h => h
    · exact .throw fun _ _ h => h
    · next r =>
      refine .bind (Spec.require (Q := fun _ => cleared p id r) (fun _ _ _ h => h) fun _ _ _ h =>
        h.1) fun _ => ?_
      exact .bind (Spec.require (Q := fun _ => cleared p id r) (fun _ _ _ h => h) fun _ _ _ h =>
        h.1) fun _ => .pure fun _ _ h => h

theorem spec_release : Spec host (alive p (.releaseOrphanedRetainedCow id) : Assn (sparing host) p)
    (releaseOrphanedRetainedCow host id) (fun _ => alive p (.releaseOrphanedRetainedCow id))
    fun _ => alive p (.releaseOrphanedRetainedCow id) := by
  have hasks : ∀ e, (but fun _ => False).allows e →
      Asks host (alive p (.releaseOrphanedRetainedCow id) : Assn (sparing host) p) e
        fun _ => alive p _ :=
    fun e he => asks_but (fun _ _ hl h => alive_of_live hl h) (fun _ _ _ => False.elim) he
  have hread : ∀ l, (but fun _ => False).Within (readInstances host l) := by
    intro l
    induction l with
    | nil => exact .pure _
    | cons i l ih => exact .bind (within_readInstance host i) fun _ => .bind ih fun _ => .pure _
  refine .withRoots (hasks _ trivial) (hasks _ trivial) (hasks _ trivial) ?_
  refine .bind (Spec.keeps (.bind (.ask trivial) fun _ => hread _) hasks) fun l => ?_
  split
  · exact .pure fun _ _ h => h
  refine .bind (.attempt (spec_readRoot.yields (yields_readRetained id))) fun r => ?_
  split
  · exact .pure fun _ _ h => h
  · exact .throw fun _ _ h => h
  next r =>
  cases hpath : r.cowPath with
  | inInstance j leaf =>
    refine .of_fact fun hroot => ?_
    have htakes : (Op.releaseOrphanedRetainedCow id).takes host j := hroot j leaf hpath
    refine (Spec.clear htakes ?_).pre fun s _ hs => hs.2 j ⟨htakes, leaf, hpath⟩
    refine .bind (.ask trivial) fun _ => .bind (.syncAll _) fun _ => .bind ?_ fun _ => .pure _
    exact .bind (.attempt (within_removeTree ⟨j, rfl, rfl⟩)) fun _ => .pure _
  | elsewhere path =>
    refine (Spec.keeps ?_ hasks).pre fun _ _ hs => hs.1.1
    exact .bind (.ask trivial) fun _ => .bind (.syncAll _) fun _ => .bind (.pure _) fun _ => .pure _

end

/-- What a process returned belongs to its operation: a lease on an overlay is one that
`lease_retained_cow` returned. -/
def Returned (host : Host) (p : Nat) (r : Ret) (s : State) : Prop :=
  ∀ retained generation, r = .ok (.retainedLease retained generation) →
    ∃ op, s.live.lookup p = some op ∧ ∀ j leaf, retained.cowPath = .inInstance j leaf →
      op.leases host j

theorem yields_routine :
    Yields (fun v => ∀ retained generation, v = .retainedLease retained generation →
    ∀ j leaf, retained.cowPath = .inInstance j leaf → op.leases host j) (routine host op) := by
  cases op with
  | leaseRetainedCow id =>
    refine .bind (yields_leaseRetainedCow id) fun r hr => .pure ?_
    rintro _ _ ⟨⟩ j leaf hpath
    exact hr j leaf hpath
  | _ => exact .map _ (by rintro _ _ _ ⟨⟩)

/-- What the operation relies on when it starts. -/
def entry (op : Op) (p : Nat) : Assn (sparing host) p :=
  match op with
  | .removeInstance name => clear (j := Instance.deriveId host name) p (.removeInstance name) rfl
  | op => alive p op

theorem spec_routine : Spec host (entry op p : Assn (sparing host) p) (routine host op)
    (fun _ => alive p op) fun _ => alive p op := by
  have hharmless (ht : ∀ j, ¬ op.takes host j) :
    Spec host (alive p op : Assn (sparing host) p) (routine host op)
      (fun _ => alive p op) fun _ => alive p op := by
    refine .of_uses (A := fun _ => True) (fun e s a s' _ _ hp _ h => ?_) (.any _)
    refine ⟨trivial, ⟨fun _ _ => by rw [exec_live h], fun op' hop' => .inl (by rwa [exec_live h] at hop'), ?_⟩,
      alive_of_live (exec_live h) hp⟩
    intro op' i _ hop' htake
    cases hp.symm.trans hop'
    exact absurd htake (ht i)
  cases op with
  | removeInstance name => exact spec_removeInstance name rfl
  | releaseOrphanedRetainedCow id => exact .map spec_release fun _ _ h => h
  | _ => exact hharmless fun _ => not_false

theorem entry_enter (hc : overlayCond host s p (.start op)) :
    (entry op p : Assn (sparing host) p) (enter p op s) := by
  have hnow : (enter p op s).live.lookup p = some op := AList.lookup_insert _
  cases op with
  | removeInstance name =>
    refine ⟨hnow, fun q op' hop' hlease => ?_⟩
    by_cases hq : q = p
    · subst hq
      cases hnow.symm.trans hop'
      exact hlease
    · exact hc.2 name rfl q op' ((live_enter hq).symm.trans hop') hlease
  | _ => exact hnow

theorem sound : (sparing host).Sound (system host) (Returned host) where
  start p op s _ hc := by
    refine ⟨trivial, ⟨fun _ hq => live_enter hq, fun op' hop' => ?_, fun _ _ _ _ _ _ => rfl⟩, ?_⟩
    · cases hop'.symm.trans (AList.lookup_insert _)
      exact .inr hc.1
    · refine wp_mono ((spec_routine.yields yields_routine) _ (entry_enter hc)) fun r s _ hr => ?_
      rintro retained generation rfl
      exact ⟨op, hr.1, hr.2 _ _ rfl⟩
  kill p s _ _ := by
    refine ⟨trivial, fun _ hq => live_leave hq, fun op hop => ?_, fun _ _ _ _ _ _ => rfl⟩
    cases hop.symm.trans (AList.lookup_erase _ _)

end Overlay

/-- Process `p` leases the overlay in the directory of `j`: it resumes that instance, or it was
handed the lease and has not ended. -/
def Leasing (host : Host) (c : Config Req.Ans State Ret) (p : Nat) (j : InstanceId) : Prop :=
  (∃ input, c.shared.live.lookup p = some (.executeStart input) ∧
    j = Instance.deriveId host input.name) ∨
  ∃ retained generation leaf, c.procs p = some (.ret (.ok (.retainedLease retained generation))) ∧
    retained.cowPath = .inInstance j leaf

/-- A step of a removal or a release leaves every directory under a lease as it is. -/
theorem leased_overlay_stays {c₀ c c' : Config Req.Ans State Ret} (hidle : ∀ p, c₀.procs p = none)
    (hr : (system host).Reach (overlayCond host) c₀ c)
    {a : Act Op Req} (hcond : overlayCond host c.shared q a) (hs : (system host).Step c q a c')
    (hq : Doing c.shared q fun op => ∃ i, op.takes host i) {j : InstanceId}
    (hp : Leasing host c p j) :
    c'.shared.dirs.lookup (.instance j) = c.shared.dirs.lookup (.instance j) := by
  have hc := Overlay.sound.reach trivial hidle hr
  obtain ⟨op, hop, i, htake⟩ := hq
  refine (hc.step Overlay.sound hcond hs).2.spared op i j hop htake fun hfree => ?_
  rcases hp with ⟨input, hlive, hj⟩ | ⟨retained, generation, leaf, hret, hpath⟩
  · exact hfree p _ hlive hj
  · obtain ⟨op', hlive, hroot⟩ := hc.post hret retained generation rfl
    exact hfree p op' hlive (hroot j leaf hpath)

/-- Whether the first operation takes nothing that the second leases, in runs of kept runs, resumes
and removals. -/
def apartCheck : Op → Op → Bool
  | .removeInstance name, .executeStart input =>
    Instance.deriveId (Sample.host true) name ≠ Instance.deriveId (Sample.host true) input.name
  | .executeRun _, _ | .executeStart _, _ | _, .executeRun _ | _, .removeInstance _ => true
  | _, _ => false

def overlayCheck (s : State) (p : Nat) : Act Op Req → Bool
  | .start op => s.live.entries.all fun e => apartCheck e.2 op && apartCheck op e.2
  | .run (.record (.readRetained _)) =>
    !((s.live.lookup p).any (· matches .releaseOrphanedRetainedCow _))
  | _ => true

theorem apartCheck_sound {op op' : Op} {j : InstanceId} (h : apartCheck op op' = true)
    (htake : op.takes (Sample.host true) j) : ¬ op'.leases (Sample.host true) j := by
  intro hlease
  unfold apartCheck at h
  split at h
  · exact of_decide_eq_true h (htake.symm.trans hlease)
  · exact htake
  · exact htake
  · exact hlease
  · exact hlease
  · cases h

theorem overlayCheck_sound (s : State) (p : Nat) (a : Act Op Req) (h : overlayCheck s p a = true) :
    overlayCond (Sample.host true) s p a := by
  unfold overlayCheck at h
  split at h
  · next op =>
    have hall : ∀ q op', s.live.lookup q = some op' →
      apartCheck op' op = true ∧ apartCheck op op' = true :=
      fun q op' hq => Bool.and_eq_true_iff.mp
        (List.all_eq_true.mp h ⟨q, op'⟩ (AList.mem_lookup_iff.mp hq))
    refine ⟨fun q op' j hq => apartCheck_sound (hall q op' hq).1, ?_⟩
    rintro name rfl q op' hq
    exact apartCheck_sound (hall q op' hq).2 rfl
  · rintro ⟨_, hop, rfl⟩
    rw [hop] at h
    cases h
  · next hstart hread =>
    unfold overlayCond
    split
    · exact absurd rfl (hstart _)
    · exact absurd rfl (hread _)
    · trivial

def resuming (s : State) (p : Nat) : Option String :=
  match s.live.lookup p with
  | some (.executeStart input) => some input.name
  | _ => none

def removing (s : State) (p : Nat) : Option String :=
  match s.live.lookup p with
  | some (.removeInstance name) => some name
  | _ => none

theorem leasing_of_resuming {c : Config Req.Ans State Ret} {name : String}
    (h : resuming c.shared p = some name) : Leasing host c p (Instance.deriveId host name) := by
  unfold resuming at h
  split at h
  · next input hlive => cases h; exact .inl ⟨input, hlive, rfl⟩
  · cases h

theorem doing_of_removing {name : String} (h : removing s p = some name) :
    Doing s p fun op => ∃ i, op.takes host i := by
  unfold removing at h
  split at h
  · next name' hlive => exact ⟨_, hlive, Instance.deriveId host name', rfl⟩
  · cases h

open Sample (built config generation instanceId rested runInput runs)

set_option maxRecDepth 10000 in
/-- While one instance is resumed another one is removed: its directory goes, that of the resumed
one stays. -/
theorem leased_overlay_stays_resumed : ∃ c c' : Config Req.Ans State Ret,
      Leasing (Sample.host true) c 3 (instanceId "a") ∧
        c.shared.dirs.lookup (.instance (instanceId "b")) ≠ none ∧
      c'.shared.dirs.lookup (.instance (instanceId "b")) = none ∧
        c'.shared.dirs.lookup (.instance (instanceId "a")) =
        c.shared.dirs.lookup (.instance (instanceId "a")) := by
  obtain ⟨c₀, -, ht⟩ := System.Reach.exists_of_replay (M := system (Sample.host true))
    anyStep_sound config built (fun c => ((system (Sample.host true)).replay overlayCheck (rested c)
        (.start 1 (.executeRun (runInput "a" [7])) :: runs 1 54 ++ .kill 1 ::
          .start 2 (.executeRun (runInput "b" [9])) :: runs 2 54 ++ .kill 2 ::
          .start 3 (.executeStart ⟨"a", [8], .exited 0, 3, 4⟩) :: runs 3 27 ++
          .start 4 (.removeInstance "b") :: runs 4 19)).any fun c =>
        decide (resuming c.shared 3 = some "a") && decide (removing c.shared 4 = some "b") &&
        (c.shared.dirs.lookup (.instance (instanceId "b"))).isSome &&
        ((system (Sample.host true)).replay overlayCheck c [.run 4]).any fun c' =>
          (c'.shared.dirs.lookup (.instance (instanceId "b"))).isNone) (by decide +kernel)
  obtain ⟨c, hr, hc⟩ := System.Reach.exists_of_replay overlayCheck_sound _ _ _ ht
  simp only [Bool.and_eq_true, Option.any_eq_true, decide_eq_true_eq, Option.isSome_iff_exists,
    Option.isNone_iff_eq_none] at hc
  obtain ⟨⟨⟨hresume, hremove⟩, d, hd⟩, c', hstep, hgone⟩ := hc
  obtain ⟨a, hok, hs⟩ := System.Step.of_replay hstep
  exact ⟨c, c', leasing_of_resuming hresume, by rw [hd]; exact nofun, hgone,
    leased_overlay_stays (fun _ => rfl) hr (overlayCheck_sound _ _ _ hok) hs
      (doing_of_removing hremove) (leasing_of_resuming hresume)⟩

def removedBy (c : Config Req.Ans State Ret) (p : Nat) : Option Instance :=
  match c.procs p with
  | some (.ret (.ok (.instance record))) => some record
  | _ => none

theorem procs_of_removedBy {c : Config Req.Ans State Ret} {record : Instance}
    (h : removedBy c p = some record) : c.procs p = some (.ret (.ok (.instance record))) := by
  unfold removedBy at h
  split at h
  · cases h; assumption
  · cases h

def leaseHeld (s : State) (p : Nat) (g : GenerationId) : Bool :=
  (s.fds.lookup (p, .lease g)).any fun fd =>
    decide (s.lockFiles.lookup (.lease g) = some fd.ino ∧ fd.lock = some .shared)

theorem held_of_leaseHeld {g : GenerationId} (h : leaseHeld s p g = true) :
    Held s p (.lease g) .shared := by
  simp only [leaseHeld, Option.any_eq_true, decide_eq_true_eq] at h
  obtain ⟨fd, hfd, hname, hlock⟩ := h
  exact ⟨fd, hfd, .inr hname, hlock⟩

set_option maxRecDepth 10000 in
/-- A guest runs on the overlay of a resumed instance, the instance is removed, and the overlay is
gone while the resume still runs and holds its lease. -/
theorem leased_overlay_removed : ∃ c c' : Config Req.Ans State Ret,
    (system (Sample.host true)).Reach anyStep config c ∧
      Leasing (Sample.host true) c 2 (instanceId "a") ∧
      (∃ d f, c.shared.dirs.lookup (.instance (instanceId "a")) = some d ∧
        d.files.lookup ROOT_COW = some f) ∧
      (system (Sample.host true)).Reach (others 2 anyStep) c c' ∧
        Leasing (Sample.host true) c' 2 (instanceId "a") ∧
      Held c'.shared 2 (.lease (generation [1, 2, 3])) .shared ∧
      (∃ record, c'.procs 3 = some (.ret (.ok (.instance record))) ∧ record.name = "a") ∧
      c'.shared.dirs.lookup (.instance (instanceId "a")) = none := by
  obtain ⟨c, c', hr, ht, hr', ht'⟩ :=
    System.Reach.exists_of_replays (M := system (Sample.host true))
    anyStep_sound (othersCheck_sound (p := 2) anyStep_sound) config
    (built ++ .start 1 (.executeRun (runInput "a" [7])) :: runs 1 54 ++ .kill 1 ::
      .start 2 (.executeStart ⟨"a", [8], .exited 0, 3, 4⟩) :: runs 2 27)
    (.start 3 (.removeInstance "a") :: runs 3 23)
    (fun c => decide (resuming c.shared 2 = some "a") &&
      (c.shared.dirs.lookup (.instance (instanceId "a"))).any fun d =>
        (d.files.lookup ROOT_COW).isSome)
    (fun c => decide (resuming c.shared 2 = some "a") && leaseHeld c.shared 2
      (generation [1, 2, 3]) && (removedBy c 3).any (·.name = "a") &&
        (c.shared.dirs.lookup (.instance (instanceId "a"))).isNone)
    (by decide +kernel)
  simp only [Bool.and_eq_true, Option.any_eq_true, decide_eq_true_eq, Option.isSome_iff_exists,
    Option.isNone_iff_eq_none] at ht ht'
  obtain ⟨hresume, d, hd, f, hf⟩ := ht
  obtain ⟨⟨⟨hresume', hheld⟩, record, hret, hname⟩, hgone⟩ := ht'
  exact ⟨c, c', hr, leasing_of_resuming hresume, ⟨d, f, hd, hf⟩, hr', leasing_of_resuming hresume',
    held_of_leaseHeld hheld, ⟨record, procs_of_removedBy hret, hname⟩, hgone⟩

end PocketVm.Store
