import PocketVm.Store.Retain

/-!
# A named instance keeps its base image

In every run of the discipline, each instance record that can be read names a root that is there,
`collect_gc_roots` returns the instance's generation, and no step removes the generation. Removing
an instance is what breaks this: the root goes first, under a lock of its own, and a process that
dies before it unlinks the record leaves a record without a root.
-/

namespace PocketVm.Store

open Conc Discipline Footprint

namespace Retain

variable {host : Host} {p : Nat} {s s' : State} {op : Op} {i : InstanceId}
  {x : Option (Option Instance)} {A : Table AliasId (Option AliasRecord)}
  {T : Table RetainedCowId (Option RetainedCow)} {I : Table InstanceId (Option Instance)}

theorem spec_removeInstance {name : String}
    (hop : op.removes host = some (Instance.deriveId host name)) (hx : ∀ r, x ≠ some (some r)) :
    Spec host (recorded p op _ (.inr hop) x) (removeInstance host name) (fun _ => ⊤)
      fun _ => ⊤ := by
  have hread : Spec host (recorded p op _ (.inr hop) x) (readInstanceByName host name)
      (fun _ => ⊤ ⊓ .fact False) fun _ => ⊤ :=
    .conseq (spec_readInstanceByName rfl .top) (fun _ _ h => ⟨h, trivial⟩)
      (fun r _ _ h => ⟨trivial, hx r h.2⟩) fun _ _ _ h => h
  exact .bind hread fun _ => .of_fact False.elim

theorem spec_removeOverlay (path : CowPath) :
    Spec host (⊤ : Assn (retaining host) p) (removeOverlay path) (fun _ => ⊤) fun _ => ⊤ := by
  cases path with
  | inInstance owner leaf =>
    exact .bind (Spec.mild (.attempt (within_removeTree nofun)) .top) fun _ => .pure fun _ _ h => h
  | elsewhere path => exact .pure fun _ _ h => h

theorem spec_releaseOrphanedRetainedCow {id : RetainedCowId} (hop : op.releases = true) :
    Spec host (retaining_attended.alive p op : Assn (retaining host) p)
      (releaseOrphanedRetainedCow host id) (fun _ => ⊤) fun _ => ⊤ := by
  refine spec_withRoots (keeps_alive fun _ _ h => h) (fun _ => .top) (fun _ => .top)
    (fun _ _ _ => trivial) fun A T I => ?_
  refine .bind ((spec_readInstancesLocked (P := retaining_attended.alive p op ⊓ tables p A T I) (I := I)
    fun s hs => hs.2.2.2.2).err fun _ _ _ _ => trivial) fun l => .of_fact fun hl => ?_
  split
  · exact .pure fun _ _ _ => trivial
  · next hfind =>
    have hdrop : ∀ s, (retaining host).inv s →
        (retaining_attended.alive p op ⊓ tables p A T I : Assn (retaining host) p) s →
        retainCond host s p (.run (.record (.unlinkRetained id))) →
        let s' := { s with retained := s.retained.erase id }
        (retaining host).inv s' ∧ RetainStep host p s s' ∧ (⊤ : Assn (retaining host) p) s' := by
      intro s hi hs hc
      have hfree : ∀ j inst, s.instances.lookup j = some (some inst) → inst.retainedId ≠ id := by
        intro j inst hj he
        have hmem := hl j inst (hs.2.2.2.2 ▸ hj)
        exact List.find?_eq_none.mp hfind inst hmem (decide_eq_true he)
      obtain ⟨hinv, hstep⟩ := drop_root hi hs.2.1 hfree fun r hr => .inl (hc ⟨op, hs.1, hop⟩ r hr)
      exact ⟨hinv, hstep, trivial⟩
    refine .bind (J := Ends (fun _ => retaining_attended.alive p op ⊓ tables p A T I) fun _ => ⊤)
      ((Spec.attempt (Spec.looks (within_readRetained host id))).post fun a _ _ h => by
        cases a
        · trivial
        · exact h) fun a => ?_
    split
    · exact .pure fun _ _ _ => trivial
    · exact .throw fun _ _ _ => trivial
    · refine .bind (Spec.ask ((asks_unlinkRetained hdrop).imp ?_)) fun _ =>
        .bind (Spec.syncAll _) fun _ => .bind (spec_removeOverlay _) fun _ => .pure fun _ _ h => h
      intro a s
      cases a <;> exact fun _ => trivial

theorem spec_collectAll {l : List GenerationId} (hl : Complete A T l) (ids : List GenerationId)
    (report : GarbageCollectionReport) :
    Spec host (tables p A T I : Assn (retaining host) p) (collectAll host l ids report)
      (fun _ => tables p A T I) fun _ => tables p A T I := by
  induction ids generalizing report with
  | nil => exact .pure fun _ _ h => h
  | cons id ids ih =>
    rw [collectAll]
    split
    · exact ih _
    · next hroot =>
      have hcollect : Spec host (tables p A T I : Assn (retaining host) p) (collectOne host id)
          (fun _ => tables p A T I) fun _ => tables p A T I := by
        refine Spec.plain (U := (· = id)) (within_collectOne host trivial nofun nofun nofun
          (fun _ h => (DirName.final.inj h).symm) (fun _ => nofun) (fun _ => nofun)
            fun _ => trivial)
          keeps_tables fun s hi hs j inst hj he => ?_
        -- the instance's root is among those that were read
        obtain ⟨r, hr, -, hgen⟩ := hi.2.1 j inst hj
        exact (hl.unrooted (by simpa using hroot)).retained _ r (hs.2.2.1 ▸ hr) (hgen.trans he)
      refine .bind hcollect fun fate => ?_
      cases fate with
      | collected d => exact ih _
      | leasedOrBusy => exact ih _
      | corrupt => exact ih _

theorem spec_garbageCollect :
    Spec host (⊤ : Assn (retaining host) p) (garbageCollect host) (fun _ => ⊤) fun _ => ⊤ := by
  refine spec_withRoots .top (fun _ => .top) (fun _ => .top) (fun _ _ h => h) fun A T I => ?_
  refine .pre (B := tables p A T I) ?_ fun _ _ h => h.2
  refine .bind ((spec_collectGcRoots (P := tables p A T I) (fun _ h => h.2.1) fun _ h => h.2.2.1).err
    fun _ _ _ _ => trivial) fun l => .of_fact fun hl => ?_
  refine .bind ((Spec.looks (.ask (e := .dir .listGenerations) trivial)).err fun _ _ _ _ => trivial)
    fun names => .bind ((Spec.looks (.ofExcept _)).err fun _ _ _ _ => trivial) fun r => ?_
  exact .bind ((spec_collectAll hl _ _).err fun _ _ _ _ => trivial) fun _ =>
    .bind ((Spec.syncAll _).err fun _ _ _ _ => trivial) fun _ => .pure fun _ _ _ => trivial

theorem serial_enter (hc : retainCond host s p (.start op)) (hs : Serial host s) :
    Serial host (enter p op s) := by
  have hcases : ∀ {q k}, Doing (enter p op s) q k → q = p ∧ k op ∨ q ≠ p ∧ Doing s q k :=
    Doing.of_enter
  refine ⟨fun q q' i hq hq' => ?_, fun q q' i hq hq' => ?_⟩
  · rcases hcases hq with ⟨rfl, hk⟩ | ⟨hne, ho⟩ <;> rcases hcases hq' with ⟨rfl, hk'⟩ | ⟨hne', ho'⟩
    · rfl
    · cases op <;> cases hk
      exact absurd ho' (hc.2.2 q').1
    · cases op <;> cases hk'
      exact absurd ho (hc.2.2 q).1
    · exact hs.retainers q q' i ho ho'
  · rcases hcases hq with ⟨rfl, hk⟩ | ⟨hne, ho⟩ <;> rcases hcases hq' with ⟨rfl, hk'⟩ | ⟨hne', ho'⟩
    · cases op <;> simp [Op.retains, Op.removes] at hk hk'
    · cases op <;> cases hk
      exact (hc.2.2 q').2 ho'
    · cases op <;> cases hk'
      exact hc.2 q ho
    · exact hs.removers q q' i ho ho'

theorem spec_run (hc : retainCond host s p (.start op)) :
    (retaining host).wp (system host) p (routine host op).run (fun _ _ => True) (enter p op s) := by
  have hlive : (enter p op s).live.lookup p = some op := AList.lookup_insert _
  have hend : ∀ {P : Assn (retaining host) p} {m : StoreM Value}, P (enter p op s) →
      Spec host P m (fun _ => ⊤) (fun _ => ⊤) →
      (retaining host).wp (system host) p m.run (fun _ _ => True) (enter p op s) :=
    fun hP h => wp_mono (h _ hP) fun _ _ _ _ => trivial
  cases op with
  | retainInstance output retain created finished =>
    exact hend (P := recorded p _ _ (.inl rfl) (s.instances.lookup (Instance.deriveId host retain.name)))
      ⟨hlive, rfl⟩ (Spec.map (spec_retainInstance rfl rfl hc.1 hc.2.1) fun _ _ h => h)
  | removeInstance name =>
    exact hend (P := recorded p _ _ (.inr rfl) (s.instances.lookup (Instance.deriveId host name)))
      ⟨hlive, rfl⟩ (Spec.map (spec_removeInstance rfl hc.1) fun _ _ h => h)
  | releaseOrphanedRetainedCow id =>
    exact hend (P := retaining_attended.alive p _) hlive
      (Spec.map (spec_releaseOrphanedRetainedCow rfl) fun _ _ h => h)
  | garbageCollect => exact hend (P := ⊤) trivial (Spec.map spec_garbageCollect fun _ _ h => h)
  | _ => exact False.elim hc

theorem sound : (retaining host).Sound (system host) fun _ _ _ => True where
  start p op s hi hc := by
    exact ⟨⟨hi.1.of_sub (fun _ _ h => h) rfl, hi.2.1, serial_enter hc hi.2.2⟩,
      RetainStep.of_registry ⟨fun _ _ _ => rfl⟩ fun _ hq => live_enter hq, spec_run hc⟩
  kill p s hi _ := by
    obtain ⟨hsolid, hlock⟩ := hi.1.leave p
    exact ⟨⟨hsolid, hi.2.1, hi.2.2.of_doing fun _ _ h => h.of_leave⟩,
      RetainStep.of_registry hlock fun _ hq => live_leave hq⟩

end Retain

/-- Nothing runs, no lock file is open, and every instance that can be read names a root of its own. -/
structure Tidy (c : Config Req.Ans State Ret) : Prop where
  idle : ∀ p, c.procs p = none
  closed : c.shared.fds = ∅
  nobody : c.shared.live = ∅
  rooted : Rooted c.shared

variable {host : Host}

theorem Tidy.inv {c : Config Req.Ans State Ret} (h : Tidy c) : (retaining host).inv c.shared := by
  have hno : ∀ p k, ¬ Doing c.shared p k := by
    rintro p k ⟨op, hop, -⟩
    rw [h.nobody] at hop
    cases hop
  exact ⟨.of_closed h.closed, h.rooted,
    ⟨fun p _ _ hp => absurd hp (hno p _), fun p _ _ hp => absurd hp (hno p _)⟩⟩

theorem mem_collectGcRoots {s s' : State} {q : Nat} {l : List GenerationId} {id : RetainedCowId}
    {r : RetainedCow} (hr : s.retained.lookup id = some (some r))
    (h : (system host).Runs True q (collectGcRoots host).run s (.ok l) s') :
    r.generationId ∈ l := by
  have hspec : Spec host (alone.asserts (· = s) : Assn (alone q fun _ => True) q)
    (collectGcRoots host)
      (fun l => alone.asserts (· = s) ⊓ .fact (Complete s.aliases s.retained l)) fun _ =>
        alone.asserts (· = s) :=
    spec_collectGcRoots (fun _ h => by rw [h]) fun _ h => by rw [h]
  have hend := wp_runs (fun _ _ => trivial) (fun _ _ _ => trivial) trivial (hspec s rfl) h
  exact hend.2.2.retained id r hr

/-- An instance that can be read names a root that is there, a collection finds its generation
among the roots, and no step takes the generation away. -/
theorem instance_keeps_its_base {c₀ c : Config Req.Ans State Ret} (h₀ : Tidy c₀)
    (hr : (system host).Reach (retainCond host) c₀ c) {i : InstanceId} {inst : Instance}
    (hi : c.shared.instances.lookup i = some (some inst)) :
    (∃ r, c.shared.retained.lookup inst.retainedId = some (some r) ∧
      r.generationId = inst.generationId) ∧
    (∀ q l s', (system host).Runs True q (collectGcRoots host).run c.shared (.ok l) s' →
      inst.generationId ∈ l) ∧
    ∀ q a c', retainCond host c.shared q a → (system host).Step c q a c' →
      Spares inst.generationId c.shared c'.shared := by
  have hc := Retain.sound.reach h₀.inv h₀.idle hr
  obtain ⟨r, hroot, -, hgen⟩ := hc.1.2.1 i inst hi
  refine ⟨⟨r, hroot, hgen⟩, fun q l s' h => hgen ▸ mem_collectGcRoots hroot h, ?_⟩
  intro q a c' hcond hstep
  exact (hc.step Retain.sound hcond hstep).2.images i inst hi

/-- A store with an image and the overlay of a run that nobody has retained yet. -/
def Sample.ran : List (Event Op) :=
  built ++ .start 1 (.executeRun (runInput "a" [7])) :: runs 1 18 ++ [.kill 1]

def retainCheck (s : State) (_ : Nat) : Act Op Req → Bool
  | .start (.retainInstance output retain _ _) =>
    output.cowPath = some (.inInstance (Instance.deriveId (Sample.host true) retain.name) ROOT_COW) &&
      !retain.resume && s.live.entries.isEmpty
  | .start .garbageCollect => true
  | .start _ => false
  | .run (.record (.unlinkRetained _)) => false
  | _ => true

theorem retainCheck_sound (s : State) (p : Nat) (a : Act Op Req) (h : retainCheck s p a = true) :
    retainCond (Sample.host true) s p a := by
  cases a with
  | start op =>
    cases op with
    | retainInstance output retain created finished =>
      simp only [retainCheck, Bool.and_eq_true, decide_eq_true_eq, Bool.not_eq_true'] at h
      obtain ⟨⟨hpath, hres⟩, hlive⟩ := h
      have hno : ∀ q k, ¬ Doing s q k := by
        rintro q k ⟨op, hop, -⟩
        rw [lookup_eq_none hlive] at hop
        cases hop
      refine ⟨hpath, fun hr => ?_, fun q => ⟨hno q _, hno q _⟩⟩
      rw [hres] at hr
      cases hr
    | garbageCollect => trivial
    | _ => cases h
  | run e =>
    cases e with
    | record r => cases r <;> trivial
    | _ => trivial
  | _ => trivial

open Sample (config generation instanceId output rested retain runs)

set_option maxRecDepth 10000 in
/-- A run is retained and a collection runs; the instance still names its root. -/
theorem instance_keeps_its_base_collected : ∃ (c : Config Req.Ans State Ret) (inst : Instance),
      c.shared.instances.lookup (instanceId "a") = some (some inst) ∧
      ∃ r, c.shared.retained.lookup inst.retainedId = some (some r) ∧
        r.generationId = inst.generationId := by
  obtain ⟨c₀, -, ht⟩ := System.Reach.exists_of_replay (M := system (Sample.host true))
    anyStep_sound config
    Sample.ran
    (fun c => c.shared.fds.entries.isEmpty && c.shared.live.entries.isEmpty &&
      c.shared.instances.entries.isEmpty &&
      ((system (Sample.host true)).replay retainCheck (rested c)
        (.start 2 (.retainInstance (output "a") (retain "a") 1 2) :: runs 2 33 ++
          .kill 2 :: .start 3 .garbageCollect :: runs 3 14)).any fun c =>
        (c.shared.instances.lookup (instanceId "a")).join.isSome) (by decide +kernel)
  simp only [Bool.and_eq_true] at ht
  obtain ⟨⟨⟨hfds, hlive⟩, hinst⟩, ht⟩ := ht
  have h₀ : Tidy (rested c₀) := ⟨fun _ => rfl, AList.ext (List.isEmpty_iff.mp hfds),
    AList.ext (List.isEmpty_iff.mp hlive),
      fun i inst hi => nomatch (lookup_eq_none hinst i).symm.trans hi⟩
  obtain ⟨c, hr, hc⟩ := System.Reach.exists_of_replay retainCheck_sound _ _ _ ht
  obtain ⟨inst, hinst⟩ := Option.isSome_iff_exists.mp hc
  have hi := Option.join_eq_some_iff.mp hinst
  exact ⟨c, inst, hi, (instance_keeps_its_base h₀ hr hi).1⟩

def instanceOp : Op → Bool
  | .retainInstance _ _ _ _ | .removeInstance _ | .releaseOrphanedRetainedCow _
  | .garbageCollect => true
  | _ => false

set_option maxRecDepth 10000 in
/-- The removal dies after it dropped the root; a collection then removes the image of an instance
that still has its name. -/
theorem instance_loses_its_base : ∃ c c' : Config Req.Ans State Ret,
      (system (Sample.host true)).Reach anyStep config c ∧
      (∀ i, c.shared.instances.lookup i = none) ∧ Present c.shared (generation [1, 2, 3]) ∧
      (system (Sample.host true)).Reach (starting fun op => instanceOp op = true) c c' ∧
      ∃ inst, c'.shared.instances.lookup (instanceId "a") = some (some inst) ∧
        inst.generationId = generation [1, 2, 3] ∧
          c'.shared.retained.lookup inst.retainedId = none ∧
        ¬ Present c'.shared (generation [1, 2, 3]) := by
  obtain ⟨c, c', hr, ht, hr', ht'⟩ :=
    System.Reach.exists_of_replays (M := system (Sample.host true))
    anyStep_sound (startingCheck_sound instanceOp fun _ h => h) config Sample.ran
    (.start 2 (.retainInstance (output "a") (retain "a") 1 2) :: runs 2 33 ++
      .kill 2 :: .start 4 (.removeInstance "a") :: runs 4 8 ++
      .kill 4 :: .start 5 .garbageCollect :: runs 5 44)
    (fun c => c.shared.instances.entries.isEmpty &&
      (c.shared.dirs.lookup (.final (generation [1, 2, 3]))).isSome)
    (fun c => (c.shared.instances.lookup (instanceId "a")).join.any (fun inst =>
      decide (inst.generationId = generation [1, 2, 3]) &&
        (c.shared.retained.lookup inst.retainedId).isNone) &&
      (c.shared.dirs.lookup (.final (generation [1, 2, 3]))).isNone)
    (by decide +kernel)
  rw [Bool.and_eq_true] at ht ht'
  obtain ⟨inst, hinst, hi⟩ := Option.any_eq_true _ _ |>.mp ht'.1
  rw [Bool.and_eq_true, decide_eq_true_eq, Option.isNone_iff_eq_none] at hi
  refine ⟨c, c', hr, lookup_eq_none ht.1, Option.isSome_iff_exists.mp ht.2, hr', inst,
    Option.join_eq_some_iff.mp hinst, hi.1, hi.2, ?_⟩
  rintro ⟨d, hd⟩
  rw [hd] at ht'
  cases ht'.2

end PocketVm.Store
