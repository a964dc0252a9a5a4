import PocketVm.Store.Lease
import PocketVm.Store.RootsRead

/-!
# The operations on roots keep the lease discipline

`lease_alias` and `lease_retained_cow` end with their generation leased, `set_alias` and
`register_retained_cow` add roots that name a generation that is there, and `recover` touches no
lease and no complete generation.
-/

namespace PocketVm.Store

open Conc Discipline Footprint

namespace Lease

variable {host : Host} {bare : Prop} {p : Nat} {s s' : State} {g : GenerationId}
  {K : LockName → Prop} {Z : GenerationId → Prop} {m : LockMode}

variable {P : Assn (leases host bare) p} {e : Req}

/-- No other root is read or written while the roots lock is held. -/
theorem spec_frozen {α : Type} {c : StoreM α} {Q : α → Assn (leases host bare) p}
    {X : StoreError → Assn (leases host bare) p}
    (hP : ∀ s, P s → HoldsRoots s p) (h : ∀ A T, Spec host (P ⊓ tables p A T) c Q X) :
    Spec host P c Q X :=
  .pre (.of_any fun i : Table AliasId (Option AliasRecord) × Table RetainedCowId
    (Option RetainedCow) =>
    h i.1 i.2) fun s _ hs => ⟨(s.aliases, s.retained), hs, hP s hs, rfl, rfl⟩

theorem spec_aliasTarget (id : AliasId) :
    Spec host (roots p m : Assn (leases host bare) p) (readAlias host id)
      (fun r => roots p m ⊓ present p r.generationId) fun _ => roots p m := by
  refine spec_frozen (fun s hs => ⟨m, hs⟩) fun A T => ?_
  refine (spec_readAlias (P := roots p m ⊓ tables p A T) (A := A) (fun s hs => hs.2.2.1) id).conseq
    (fun _ _ h => h)
    (fun r s hi h => ⟨h.1.1, ⟨m, h.1.1⟩, ?_⟩) fun _ _ _ h => h.1
  exact hi.2.aliased id r (h.1.2.2.1 ▸ h.2)

theorem spec_retainedTarget (id : RetainedCowId) :
    Spec host (roots p m : Assn (leases host bare) p) (readRetained host id)
      (fun r => roots p m ⊓ present p r.generationId) fun _ => roots p m := by
  refine spec_frozen (fun s hs => ⟨m, hs⟩) fun A T => ?_
  refine (spec_readRetained (P := roots p m ⊓ tables p A T) (x := T.lookup id)
    fun s hs => by rw [hs.2.2.2]).conseq (fun _ _ h => h)
    (fun r s hi h => ⟨h.1.1, ⟨m, h.1.1⟩, ?_⟩) fun _ _ _ h => h.1.1
  exact hi.2.retained id r (h.1.2.2.2 ▸ h.2.1)

theorem nameable_of_present (hk : KeyBinding host) : ∀ s, (leases host bare).inv s →
    (P ⊓ present p g) s →
      (P ⊓ nameable hk .roots p g : Assn (leases host bare) p) s :=
  fun _ hi hs => ⟨hs.1, hs.2.1, .inl (hi.2.lease g hs.2.2)⟩

theorem spec_acquireRooted (hk : KeyBinding host) :
    Spec host (roots p m ⊓ present p g : Assn (leases host bare) p) (acquireLeaseInner host g)
      (fun gen => roots p m ⊓ leased p g ⊓ .fact (Verified host g gen)) fun _ => roots p m :=
  .pre (spec_acquireLeaseInner (K := (· = .lease g)) (Z := fun _ => False) hk rfl
    (keeps_roots nofun)) (nameable_of_present hk)

theorem spec_leaseAlias (hk : KeyBinding host) (key : AliasKey) :
    Spec host (⊤ : Assn (leases host bare) p) (leaseAlias host key)
      (fun gen => leased p gen.manifest.id) fun _ => ⊤ := by
  refine spec_withRoots .top (fun _ => keeps_leased nofun not_false) (fun _ => .top)
    (fun _ _ h => h) ?_
  refine .pre (.bind ((spec_aliasTarget _).err fun _ _ _ _ => trivial) fun r => ?_) fun _ _ h => h.2
  refine .bind (Spec.require (fun _ _ _ h => h) fun _ _ _ _ => trivial) fun _ =>
    .bind ((spec_acquireRooted hk).err fun _ _ _ _ => trivial) fun gen => .of_fact fun hgen => ?_
  refine Spec.closeOnError (X := fun _ => ⊤) (.bind (Spec.ofExcept (fun _ _ _ _ h => h.2)
    fun _ _ _ _ _ => trivial) fun _ => .pure fun _ _ h => ?_) fun _ =>
    asks_closeOwn (K := (· = .lease r.generationId)) (Z := fun _ => False) rfl .top fun _ h => h
  rw [hgen.id_eq]
  exact h

theorem spec_leaseRetainedCow (hk : KeyBinding host) (id : RetainedCowId) :
    Spec host (⊤ : Assn (leases host bare) p) (leaseRetainedCow host id)
      (fun r => leased p r.2.manifest.id) fun _ => ⊤ := by
  refine spec_withRoots .top (fun _ => keeps_leased nofun not_false) (fun _ => .top)
    (fun _ _ h => h) ?_
  refine .pre (.bind ((spec_retainedTarget _).err fun _ _ _ _ => trivial) fun r => ?_)
    fun _ _ h => h.2
  refine .bind ((Spec.looks (within_hashOverlay host _)).err fun _ _ _ _ => trivial) fun _ => ?_
  refine .bind (Spec.require (fun _ _ _ h => h) fun _ _ _ _ => trivial) fun _ =>
    .bind (Spec.require (fun _ _ _ h => h) fun _ _ _ _ => trivial) fun _ =>
    .bind ((spec_acquireRooted hk).err fun _ _ _ _ => trivial) fun gen => .of_fact fun hgen =>
      .pure fun _ _ h => ?_
  rw [hgen.id_eq]
  exact h.2

theorem step_of_roots (hr : Held s p .roots .exclusive) (hn : s'.lockFiles = s.lockFiles)
    (hf : s'.fds = s.fds) (hd : s'.dirs = s.dirs) : LeaseStep host bare p s s' where
  locks := ⟨fun _ _ _ => by rw [hf]⟩
  kept _ _ h := .inl (by rw [hn]; exact h)
  made g h h' := absurd (by rw [hn]; exact h) h'
  files g := .inl fun d h => ⟨d, by rw [hd]; exact h, fun _ _ hx => hx⟩
  created g h h' := absurd (by unfold Present at h' ⊢; rwa [hd] at h') h
  roots := .inr hr

/-- A root that names a generation that is there may be written under the roots lock. -/
theorem inv_of_roots (hi : (leases host bare).inv s) (hn : s'.lockFiles = s.lockFiles)
    (hf : s'.fds = s.fds) (hd : s'.dirs = s.dirs) (hg : Present s g)
    (ha : ∀ a r, s'.aliases.lookup a = some (some r) →
      s.aliases.lookup a = some (some r) ∨ r.generationId = g)
      (ht : ∀ i r, s'.retained.lookup i = some (some r) →
      s.retained.lookup i = some (some r) ∨ r.generationId = g) : (leases host bare).inv s' := by
  have hpres : ∀ g, Present s g → Present s' g := fun g h => by unfold Present; rwa [hd]
  refine ⟨hi.1.of_sub fun k fd h => by rwa [hf] at h, ?_, ?_, ?_⟩
  · intro g h
    rw [hn]
    exact hi.2.lease g (by unfold Present at h ⊢; rwa [hd] at h)
  · intro a r h
    rcases ha a r h with h | rfl
    · exact hpres _ (hi.2.aliased a r h)
    · exact hpres _ hg
  · intro i r h
    rcases ht i r h with h | rfl
    · exact hpres _ (hi.2.retained i r h)
    · exact hpres _ hg

theorem lookup_insert_cases {κ ν : Type} [DecidableEq κ] {t : Table κ ν} {k k' : κ} {v v' : ν}
    (h : (t.insert k v).lookup k' = some v') : t.lookup k' = some v' ∨ v = v' := by
  by_cases hk : k' = k
  · subst hk
    rw [AList.lookup_insert] at h
    exact .inr (Option.some.inj h)
  · rw [AList.lookup_insert_ne hk] at h
    exact .inl h

theorem asks_replaceAlias (t : TempName) (r : AliasRecord) :
    Asks host (roots p .exclusive ⊓ present p r.generationId : Assn (leases host bare) p)
      (.record (.replaceAlias t r)) fun _ => ⊤ where
  run s a s' hi hp _ h := by
    rcases replaceRecord_cases h with ⟨-, rfl⟩ | ⟨-, rfl⟩
    · exact ⟨hi, (leases host bare).guar_refl p _, trivial⟩
    · refine ⟨inv_of_roots hi rfl rfl rfl hp.2.2 (fun a r' hr => ?_) fun _ _ hr => .inl hr,
        step_of_roots hp.1 rfl rfl rfl, trivial⟩
      exact (lookup_insert_cases hr).imp_right fun he => by cases he; rfl
  fault _ _ _ _ _ := trivial

theorem asks_writeRetained {t : TempName} {r : RetainedCow}
    (he : e = .record (.linkRetained t r) ∨ e = .record (.replaceRetained t r)) :
    Asks host (roots p .exclusive ⊓ present p r.generationId : Assn (leases host bare) p)
      e fun _ => roots p .exclusive ⊓ present p r.generationId where
  run s a s' hi hp _ h := by
    have hadd : s' = s ∨ s' = { s with
        temps := s.temps.erase t, retained := s.retained.insert r.id (some r) } := by
      rcases he with rfl | rfl
      · exact (linkRecord_cases h).imp And.right fun h => h.2.2
      · exact (replaceRecord_cases h).imp And.right And.right
    rcases hadd with rfl | rfl
    · exact ⟨hi, (leases host bare).guar_refl p s', hp⟩
    · refine ⟨inv_of_roots hi rfl rfl rfl hp.2.2 (fun _ _ hr => .inl hr) fun i r' hr => ?_,
        step_of_roots hp.1 rfl rfl rfl, hp⟩
      exact (lookup_insert_cases hr).imp_right fun he => by cases he; rfl
  fault _ _ hp _ _ := hp

theorem spec_verifyRooted :
    Spec host (roots p m : Assn (leases host bare) p) (verifyGeneration host g)
      (fun _ => roots p m ⊓ present p g) fun _ => roots p m :=
  (Spec.verify (B := roots p m ⊓ present p g) (fun _ d _ hs hd => ⟨hs, ⟨m, hs⟩, d, hd⟩)
    fun _ hs => hs.1).post fun _ _ _ h => h.1

theorem spec_setAlias (key : AliasKey) (id : GenerationId) :
    Spec host (⊤ : Assn (leases host bare) p) (setAlias host key id) (fun _ => ⊤) fun _ => ⊤ := by
  refine spec_withRoots .top (fun _ => .top) (fun _ => .top) (fun _ _ h => h) ?_
  refine .pre (B := roots p .exclusive) ?_ fun _ _ h => h.2
  refine .bind (spec_verifyRooted.err fun _ _ _ _ => trivial) fun gen => ?_
  refine .bind (Spec.ofExcept (fun _ _ _ _ h => h) fun _ _ _ _ _ => trivial) fun _ => ?_
  have hslot : reads.Within (checkAliasSlot host key) := by
    refine .bind (.attempt (within_readAlias host _)) fun r => ?_
    split
    · exact .require _ _
    · exact .pure _
    · exact .throw _
  refine .bind ((Spec.looks hslot).err fun _ _ _ _ => trivial) fun _ => ?_
  have hkeep : (roots p .exclusive ⊓ present p id : Assn (leases host bare) p).Keeps (Quiet p) :=
    (keeps_roots not_false).inf (keeps_present not_false not_false)
  have htemp : Spec host _ (ask "create regular file" (.temp (.write .aliases))) (fun _ => _)
      fun _ => _ := Spec.calm (.ask trivial) hkeep
  refine .bind (htemp.err fun _ _ _ _ => trivial) fun t => ?_
  refine .bind (Spec.attempt (Spec.ask_any (asks_replaceAlias t ⟨_, _, id⟩))) fun r => ?_
  have hdrop : Spec host (⊤ : Assn (leases host bare) p) (attempt (unlinkTemp t)) (fun _ => ⊤)
      fun _ => ⊤ := Spec.calm (.attempt (within_unlinkTemp trivial t)) (.top (r := Quiet p))
  rcases r with e | ⟨⟨⟩⟩
  · exact .bind hdrop fun _ => .throw fun _ _ h => h
  · exact Spec.syncAll _

theorem spec_renameRetained (t : TempName) (r : RetainedCow) :
    Spec host (roots p .exclusive ⊓ present p r.generationId : Assn (leases host bare) p)
      (renameRetained t r) (fun _ => roots p .exclusive ⊓ present p r.generationId)
      fun _ => roots p .exclusive ⊓ present p r.generationId := by
  refine Spec.renameNoReplace (L := fun _ => _) (C := roots p .exclusive ⊓ present p r.generationId)
    (Spec.sys (asks_writeRetained (.inl rfl))) (fun _ _ h => h) (fun _ _ _ h => h) ?_
    (Spec.ask_any (asks_writeRetained (.inr rfl)))
  refine .bind (Spec.looks (.sys trivial)) fun a => ?_
  split
  · exact .pure fun _ _ h => h
  · exact .pure fun _ _ h => h
  · exact .throw fun _ _ h => h

theorem spec_registerRetainedCow (id : GenerationId) (path : CowPath) (digest : Digest)
    (state : RetainedCowState) :
    Spec host (⊤ : Assn (leases host bare) p) (registerRetainedCow host id path digest state)
      (fun _ => ⊤) fun _ => ⊤ := by
  refine .bind (Spec.looks (within_hashOverlay host path)) fun h => ?_
  refine .bind (Spec.looks (.require _ _)) fun _ => ?_
  refine spec_withRoots .top (fun _ => .top) (fun _ => .top) (fun _ _ h => h) ?_
  refine .pre (B := roots p .exclusive) ?_ fun _ _ h => h.2
  refine .bind (spec_verifyRooted.err fun _ _ _ _ => trivial) fun gen => ?_
  refine .bind (Spec.looks (.attempt (within_readRetained host _))|>.err fun _ _ _ _ => trivial)
    fun r => ?_
  have hkeep : (roots p .exclusive ⊓ present p id : Assn (leases host bare) p).Keeps (Quiet p) :=
    (keeps_roots not_false).inf (keeps_present not_false not_false)
  split
  · exact .bind (Spec.looks (.require _ _)|>.err fun _ _ _ _ => trivial) fun _ =>
      .pure fun _ _ _ => trivial
  · have htemp : Spec host _ (ask "create regular file" (.temp (.write .retained))) (fun _ => _)
        fun _ => _ := Spec.calm (.ask trivial) hkeep
    refine .bind (htemp.err fun _ _ _ _ => trivial) fun t => ?_
    refine .bind (Spec.attempt (spec_renameRetained t ⟨_, id, _, _, _, _⟩)) fun r => ?_
    have hdrop : Spec host (⊤ : Assn (leases host bare) p) (attempt (unlinkTemp t)) (fun _ => ⊤)
        fun _ => ⊤ := Spec.calm (.attempt (within_unlinkTemp trivial t)) (.top (r := Quiet p))
    refine .pre (B := ⊤) ?_ fun _ _ _ => trivial
    split
    · exact .bind (Spec.syncAll _) fun _ => .pure fun _ _ h => h
    · exact .bind hdrop fun _ => .bind (Spec.looks (within_readRetained host _)) fun _ =>
        .bind (Spec.looks (.require _ _)) fun _ => .pure fun _ _ h => h
    · exact .bind hdrop fun _ => .throw fun _ _ h => h
  · exact .throw fun _ _ _ => trivial

/-- The footprint of recovery: as a calm routine, but it opens the lock files that are never
unlinked and seals generations. -/
def recovery : Footprint := { calm with opens := fixed, chmods := fun _ => True }

theorem step_finals (hi : (leases host bare).inv s) (hn : s'.lockFiles = s.lockFiles)
    (hf : s'.fds = s.fds) (ha : s'.aliases = s.aliases) (ht : s'.retained = s.retained)
    (hfiles : ∀ g, Spares g s s' ∨ Held s p .roots .exclusive ∧ Held s p (.lease g) .exclusive)
    (hback : ∀ g, Present s' g → Present s g)
    (hA : ∀ a r, s.aliases.lookup a = some (some r) → Present s' r.generationId)
    (hT : ∀ i r, s.retained.lookup i = some (some r) → Present s' r.generationId) :
    (leases host bare).inv s' ∧ (leases host bare).guar p s s' := by
  refine ⟨⟨hi.1.of_sub fun _ _ h => by rwa [hf] at h, ?_, ?_, ?_⟩,
    ⟨?_, ?_, ?_, hfiles, ?_, .inl ⟨ha, ht⟩⟩⟩
  · intro g hg
    rw [hn]
    exact hi.2.lease g (hback g hg)
  · exact fun a r h => hA a r (ha ▸ h)
  · exact fun i r h => hT i r (ht ▸ h)
  · exact ⟨fun _ _ _ => by rw [hf]⟩
  · exact fun g i h => .inl (by rwa [hn])
  · exact fun g h h' => absurd (by rwa [hn]) h'
  · exact fun g h h' => absurd (hback g h') h

theorem asks_chmod (d : DirName) (ino mode : Nat)
    (hP : ∀ s s', P s → s'.lockFiles = s.lockFiles → s'.fds = s.fds → s'.aliases = s.aliases →
      s'.retained = s.retained → (∀ g, Present s' g ↔ Present s g) → P s') :
    Asks host P (.dir (.chmod d ino mode)) fun _ => P where
  run s a s' hi hp _ h := by
    obtain ⟨hf, hn⟩ := exec_locks_frame h fun _ => Req.noConfusion
    obtain ⟨-, ha, ht, -⟩ := exec_records_frame h fun _ => Req.noConfusion
    have hfiles : ∀ g, (s'.dirs.lookup (.final g)).map Dir.files =
        (s.dirs.lookup (.final g)).map Dir.files := by
      intro g
      rcases exec_chmod h with rfl | ⟨x, hx, -, rfl⟩
      · rfl
      · by_cases hg : DirName.final g = d
        · rw [hg, hx, lookup_setDir]; rfl
        · rw [lookup_setDir_ne hg]
    have hpres : ∀ g, Present s' g ↔ Present s g := by
      intro g
      have := congrArg Option.isSome (hfiles g)
      rw [Option.isSome_map, Option.isSome_map] at this
      exact Option.isSome_iff_exists.symm.trans (this ▸ Option.isSome_iff_exists)
    have hsp : ∀ g, Spares g s s' := by
      intro g x hx
      obtain ⟨x', hx'⟩ := (hpres g).mpr ⟨x, hx⟩
      have := hfiles g
      rw [hx, hx'] at this
      exact ⟨x', hx', fun f y hy => by rw [Option.some.inj this]; exact hy⟩
    obtain ⟨hi', hg⟩ := step_finals (p := p) hi hn hf ha ht (fun g => .inl (hsp g))
      (fun g => (hpres g).mp) (fun a r hr => (hpres _).mpr (hi.2.aliased a r hr))
      fun i r hr => (hpres _).mpr (hi.2.retained i r hr)
    exact ⟨hi', hg, hP s s' hp hn hf ha ht hpres⟩
  fault _ _ hp _ _ := hp

theorem asks_recovery (he : recovery.allows e) :
    Asks host (⊤ : Assn (leases host bare) p) e fun _ => ⊤ := by
  have hL := leases_locking host bare
  have ends : ∀ {e : Req} {Q : e.Out → Assn (leases host bare) p}
      {X : Errno → Assn (leases host bare) p}, Asks host ⊤ e (Ends Q X) →
      Asks host (⊤ : Assn (leases host bare) p) e fun _ => ⊤ := fun h =>
    ⟨fun s a s' hi hp hc hr => ⟨(h.run s a s' hi hp hc hr).1,
      (h.run s a s' hi hp hc hr).2.1, trivial⟩, fun _ _ _ _ _ => trivial⟩
  have hcalm : calm.allows e → Asks host (⊤ : Assn (leases host bare) p) e fun _ => ⊤ :=
    fun h => asks_calm h (.top (r := Quiet p))
  cases e with
  | lock r =>
    cases r with
    | «open» n =>
      exact ends (hL.asks_open (Q := ⊤) (X := ⊤) trivial (fun _ _ _ h _ _ => h) fun _ _ h => h)
    | lock n m =>
      exact ends (hL.asks_lock (Q := ⊤) (X := ⊤) trivial (fun _ _ _ h _ _ _ => h) fun _ _ h => h)
    | tryLock n =>
      exact ends (hL.asks_tryLock (Q := ⊤) (X := ⊤) trivial (fun _ _ _ h _ _ => h) fun _ _ h => h)
    | close n => exact hL.asks_close trivial fun _ _ _ h _ _ => h
    | _ => exact hcalm he
  | dir r =>
    cases r with
    | chmod d ino mode => exact asks_chmod d ino mode fun _ _ h _ _ _ _ _ => h
    | _ => exact hcalm he
  | temp r => cases r <;> exact hcalm he
  | record r => cases r <;> exact hcalm he
  | host r => exact hcalm he

theorem spec_recover :
    Spec host (⊤ : Assn (leases host bare) p) (recover host) (fun _ => ⊤) fun _ => ⊤ :=
  Spec.keeps (F := recovery) (within_recover host trivial (fun _ _ => nofun) (fun _ _ => nofun)
    (fun _ => trivial) fixed_derivation fixed_derivation fixed_roots fun _ => trivial)
    fun _ he => asks_recovery he

end Lease

/-! ### Collection

A collector removes a generation under the roots lock, its lease and the lock of its key, all
exclusive. -/

namespace Lease

variable {host : Host} {bare : Prop} {p : Nat} {s s' : State} {id : GenerationId}
  {A : Table AliasId (Option AliasRecord)} {T : Table RetainedCowId (Option RetainedCow)}

structure Removes (id : GenerationId) (s s' : State) : Prop where
  fds : s'.fds = s.fds
  lockFiles : s'.lockFiles = s.lockFiles
  aliases : s'.aliases = s.aliases
  retained : s'.retained = s.retained
  finals : ∀ g, g ≠ id → s'.dirs.lookup (.final g) = s.dirs.lookup (.final g)
  back : Present s' id → Present s id

def removing (id : GenerationId) : Req → Prop
  | .dir (.chmod d _ _) | .dir (.unlink d _ _) | .dir (.remove d) => d = .final id
  | _ => False

theorem removes_setDir {d d' : Dir} (hd : s.dirs.lookup (.final id) = some d) :
    Removes id s (s.setDir (.final id) d') :=
  ⟨rfl, rfl, rfl, rfl, fun _ hg => lookup_setDir_ne fun h => hg (DirName.final.inj h),
    fun _ => ⟨d, hd⟩⟩

theorem removes_of_exec {e : Req} {a : e.Ans} (he : removing id e)
    (h : exec host p e s = some (a, s')) : Removes id s s' := by
  have hrefl : Removes id s s := ⟨rfl, rfl, rfl, rfl, fun _ _ => rfl, fun h => h⟩
  cases e with
  | dir r =>
    cases r with
    | chmod x ino mode =>
      cases (he : x = .final id)
      rcases exec_chmod h with rfl | ⟨d, hd, -, rfl⟩
      · exact hrefl
      · exact removes_setDir hd
    | unlink x ino file =>
      cases (he : x = .final id)
      rcases exec_unlink h with ⟨rfl, -⟩ | ⟨d, f, hd, -, -, rfl⟩
      · exact hrefl
      · exact removes_setDir hd
    | remove x =>
      cases (he : x = .final id)
      rcases exec_remove h with ⟨rfl, -⟩ | ⟨d, hd, -, rfl⟩
      · exact hrefl
      · exact ⟨rfl, rfl, rfl, rfl, fun _ hg => AList.lookup_erase_ne fun h =>
          hg (DirName.final.inj h), fun _ => ⟨d, hd⟩⟩
    | _ => exact absurd he not_false
  | _ => exact absurd he not_false

theorem removed_of_exec {a : Unit}
    (h : exec host p (.dir (.remove (.final id))) s = some (.ok a, s')) : ¬ Present s' id := by
  rcases exec_remove h with ⟨-, ha⟩ | ⟨d, hd, -, rfl⟩
  · exact absurd rfl ha
  · rintro ⟨d', hd'⟩
    rw [AList.lookup_erase] at hd'
    cases hd'

theorem lookup_erase_none {κ ν : Type} [DecidableEq κ] {t : Table κ ν} {k k' : κ}
    (h : t.lookup k' = none) : (t.erase k).lookup k' = none := by
  by_cases hk : k' = k
  · subst hk; exact AList.lookup_erase _ _
  · rw [AList.lookup_erase_ne hk]; exact h

def collectorLocks (id : GenerationId) (n : LockName) : Prop :=
  n = .lease id ∨ ∃ k, n = .derivation k

theorem Removes.mild {K : LockName → Prop} (h : Removes id s s') : Mild K (· = id) p s s' where
  fds q n _ := by rw [h.fds]
  names n i _ hi := by rw [h.lockFiles]; exact hi
  finals := h.finals
  aliases := h.aliases
  retained := h.retained

theorem Removes.held {n : LockName} {m : LockMode} (h : Removes id s s') (hh : Held s p n m) :
    Held s' p n m :=
  hh.mono (by rw [h.fds]) fun i hi => by rw [h.lockFiles]; exact hi

section
variable {P : Assn (leases host bare) p} (hk : KeyBinding host)
  (hP : P.Keeps (Mild (collectorLocks id) (· = id) p))
  (hroots : ∀ s, P s → Held s p .roots .exclusive)
  (htables : ∀ s, P s → s.aliases = A ∧ s.retained = T) (hun : Unrooted A T id)

def removal (P : Assn (leases host bare) p) (hk : KeyBinding host) (id : GenerationId)
    (k : DerivationKey) : Assn (leases host bare) p :=
  P ⊓ held hk .roots p id .exclusive ⊓ key p k

include hP hroots htables hun

variable {k : DerivationKey}

theorem asks_removing {e : Req} (he : removing id e) :
    Asks host (removal P hk id k) e fun _ => removal P hk id k where
  run s a s' hi hp _ h := by
    have hrem := removes_of_exec he h
    have hpres : ∀ g, g ≠ id → (Present s' g ↔ Present s g) := fun g hg => by
      unfold Present; rw [hrem.finals g hg]
    obtain ⟨⟨hPs, hguard, hlease⟩, hkey⟩ := hp
    obtain ⟨hA, hT⟩ := htables s hPs
    have hstep : (leases host bare).inv s' ∧ (leases host bare).guar p s s' := by
      refine step_finals hi hrem.lockFiles hrem.fds hrem.aliases hrem.retained (fun g => ?_)
        (fun g => ?_) (fun a r hr => ?_) fun i r hr => ?_
      · by_cases hg : g = id
        · subst hg
          exact .inr ⟨hroots s hPs, hlease⟩
        · exact .inl fun d hd => ⟨d, by rw [hrem.finals g hg]; exact hd, fun _ _ hx => hx⟩
      · by_cases hg : g = id
        · subst hg; exact hrem.back
        · exact (hpres g hg).mp
      · exact (hpres _ (hun.aliases a r (hA ▸ hr))).mpr (hi.2.aliased a r hr)
      · exact (hpres _ (hun.retained i r (hT ▸ hr))).mpr (hi.2.retained i r hr)
    exact ⟨hstep.1, hstep.2, ⟨hP s s' hrem.mild hPs, hguard.mono fun _ => hrem.held,
      hrem.held hlease⟩, hrem.held hkey⟩
  fault _ _ hp _ _ := hp

theorem spec_unlinkAll (ino : Nat) (names : List String) :
    Spec host (removal P hk id k) (unlinkAll (.final id) ino names) (fun _ => removal P hk id k)
      fun _ => removal P hk id k := by
  induction names with
  | nil => exact .pure fun _ _ h => h
  | cons name names ih =>
    exact .bind (Spec.ask_any (asks_removing hk hP hroots htables hun (e := .dir (.unlink _ _ _)) rfl))
      fun _ => .bind (Spec.syncAll _) fun _ => ih

/-- The generation is gone when the removal succeeds, and nobody can bring it back while its key
is held. -/
theorem spec_removeFinal (hkey : HasKey host id k) :
    Spec host (removal P hk id k) (removeTree (.final id))
      (fun _ => P ⊓ key p k ⊓ vacant hk p id) fun _ => P := by
  have herr : ∀ (e : StoreError) (s : State), (leases host bare).inv s →
      removal P hk id k s → P s := fun _ _ _ h => h.1.1
  have hask : ∀ e, removing id e → Asks host (removal P hk id k) e fun _ => removal P hk id k :=
    fun e he => asks_removing hk hP hroots htables hun he
  refine .bind (Spec.looks_or (.ask trivial) herr) fun ino =>
    .bind ((Spec.ask_any (hask (.dir (.chmod _ _ _)) rfl)).err herr) fun _ =>
    .bind (Spec.looks_or (.ask trivial) herr) fun names =>
    .bind ((spec_unlinkAll hk hP hroots htables hun ino names).err herr) fun _ =>
    .bind ((Spec.syncAll _).err herr) fun _ => .bind (J := fun _ => P ⊓ key p k ⊓ vacant hk p id)
    (Spec.ask ⟨fun s a s' hi hp hc h => ?_, fun s hi hp _ _ => herr (.io "" .other) s hi hp⟩) fun _ =>
    (Spec.syncAll _).err fun _ _ _ h => h.1.1
  obtain ⟨hi', hg, hp'⟩ := (hask (.dir (.remove _)) rfl).run s a s' hi hp hc h
  refine ⟨hi', hg, ?_⟩
  cases a with
  | error n => exact herr (.io "" .other) s' hi' hp'
  | ok a => exact ⟨⟨hp'.1.1, hp'.2⟩, ⟨k, hkey, hp'.2⟩, removed_of_exec h⟩

omit htables hun

theorem asks_unlinkLease :
    Asks host (P ⊓ vacant hk p id) (.lock (.unlink (.lease id))) fun _ => P where
  run s a s' hi hp _ h := by
    have hcases : s' = s ∨ s' = { s with lockFiles := s.lockFiles.erase (.lease id) } := by
      change execLock host p s (.unlink (.lease id)) = _ at h
      simp only [execLock, State.answer, State.fail] at h
      split at h
      · cases h; exact .inl rfl
      · cases h; exact .inr rfl
    rcases hcases with rfl | rfl
    · exact ⟨hi, (leases host bare).guar_refl p s', hp.1⟩
    · have hne : ∀ n, n ≠ .lease id → (s.lockFiles.erase (.lease id)).lookup n =
        s.lockFiles.lookup n :=
        fun n hn => AList.lookup_erase_ne hn
      have hmild : Mild (collectorLocks id) (· = id) p s
          { s with lockFiles := s.lockFiles.erase (.lease id) } :=
        ⟨fun _ _ _ => rfl, fun g i hg hi => by rw [← hi]; exact hne _ fun h => hg (LockName.lease.inj h),
          fun _ _ => rfl, rfl, rfl⟩
      refine ⟨⟨hi.1.of_sub fun _ _ h => h, fun g hg => ?_, hi.2.aliased, hi.2.retained⟩,
        ⟨⟨fun _ _ _ => rfl⟩, fun g i hg => ?_, fun g hg hg' => ?_,
          fun g => .inl fun d hd => ⟨d, hd, fun _ _ hx => hx⟩, fun g hg hg' => absurd hg' hg,
          .inl ⟨rfl, rfl⟩⟩, hP s _ hmild hp.1⟩
      · have hg' : g ≠ id := by rintro rfl; exact hp.2.2 hg
        obtain ⟨i, hi'⟩ := hi.2.lease g hg
        exact ⟨i, (hne _ fun h => hg' (LockName.lease.inj h)).trans hi'⟩
      · by_cases hgid : g = id
        · subst hgid
          exact .inr ⟨hp.2.2, hp.2.2, hroots s hp.1, hp.2.1⟩
        · exact .inl ((hne _ fun h => hgid (LockName.lease.inj h)).trans hg)
      · exact absurd (lookup_erase_none hg) hg'
  fault _ _ hp _ _ := hp.1

include htables hun

theorem spec_deleteGeneration (hkey : HasKey host id k) :
    Spec host (removal P hk id k) (deleteGeneration host id k) (fun _ => P) fun _ => P := by
  have hrem : (removal P hk id k).Keeps (Quiet p) :=
    ((keeps_quiet hP).inf (keeps_held not_false not_false not_false)).inf (keeps_key not_false)
  refine .bind (Spec.looks_or (within_verifyGeneration host id) fun _ _ _ h => h.1.1) fun _ =>
    .bind ((Spec.calm (within_removeFromDerivationIndex trivial trivial id) hrem).err
      fun _ _ _ h => h.1.1) fun discarded =>
    .bind (spec_removeFinal hk hP hroots htables hun hkey) fun _ => ?_
  -- the lease lock is dropped first; the key keeps the generation away
  have hclose : Spec host (P ⊓ key p k ⊓ vacant hk p id) (close (.lease id))
      (fun _ => P ⊓ vacant hk p id) fun _ => P :=
    Spec.close ((leases_locking host bare).asks_close trivial fun s s' _ hs hown _ =>
      ⟨hP s s' (.of_own (.inl rfl) hown) hs.1.1, ?_⟩)
  · refine .bind hclose fun _ =>
      .bind (Spec.attempt (Spec.ask_any (asks_unlinkLease hk hP hroots))) fun r => ?_
    split
    · exact .pure fun _ _ h => h
    · exact .pure fun _ _ h => h
    · exact .throw fun _ _ h => h
  · exact keeps_vacant (K := (· = .lease id)) (Z := fun _ => False) (fun _ => nofun) not_false s s'
      (.of_own rfl hown) hs.2

include hk in
theorem spec_collectOne :
    Spec host (P ⊓ present p id) (collectOne host id) (fun _ => P) fun _ => P := by
  have hlease : collectorLocks id (.lease id) := .inl rfl
  refine .bind (.pre (spec_openLease hk hlease hP) (nameable_of_present hk)) fun _ =>
    Spec.holding (Q := fun _ => P) (X := fun _ => P)
      (.bind (spec_tryLease hk hlease hP) fun free => ?_)
      (fun _ => asks_closeOwn hlease hP fun _ h => h) fun _ => asks_closeOwn hlease hP fun _ h => h
  cases free with
  | false => exact .pure fun _ _ h => h
  | true =>
    refine .bind (Spec.attempt ((Spec.looks (P := P ⊓ held hk .roots p id .exclusive)
      (within_verifyGeneration host id)).yields (yields_verifyGeneration id))) fun r => ?_
    rcases r with e | gen
    · exact .pure fun _ _ h => h.1
    · refine .of_fact fun hgen => ?_
      have hkey : collectorLocks id (.derivation gen.manifest.derivationKey) := .inr ⟨_, rfl⟩
      have hheld : (P ⊓ held hk .roots p id .exclusive).Keeps
          (Release (.derivation gen.manifest.derivationKey) p) :=
        .inf (fun s s' h => hP s s' (h.mono (by rintro _ rfl; exact hkey) fun _ => False.elim))
          (keeps_held nofun nofun not_false)
      refine .bind ((spec_openDerivation (K := (· = .derivation _)) rfl hheld).err
        fun _ _ _ h => h.1) fun _ =>
        Spec.holding (Q := fun _ => P) (X := fun _ => P)
          (.bind ((spec_tryKey (K := (· = .derivation _)) rfl hheld).err fun _ _ _ h => h.1)
            fun free => ?_)
          (fun _ => asks_closeOwn hkey hP fun _ h => h) fun _ => asks_closeOwn hkey hP fun _ h => h
      cases free with
      | false => exact .pure fun _ _ h => h.1
      | true => exact spec_deleteGeneration hk hP hroots htables hun hgen.key

end

def collecting (p : Nat) (A : Table AliasId (Option AliasRecord))
    (T : Table RetainedCowId (Option RetainedCow)) (ids : List GenerationId) :
    Assn (leases host bare) p :=
  roots p .exclusive ⊓ tables p A T ⊓ .all fun g : {g // g ∈ ids} => present p g.1

theorem keeps_collecting {ids : List GenerationId} (hid : id ∉ ids) :
    (collecting p A T ids : Assn (leases host bare) p).Keeps
      (Mild (collectorLocks id) (· = id) p) := by
  have hroots : ¬ collectorLocks id .roots := by rintro (h | ⟨k, h⟩) <;> cases h
  exact .inf (.inf (keeps_roots hroots) (keeps_tables hroots))
    (.all fun g => keeps_present hroots fun h => hid (h ▸ g.2))

theorem spec_collectAll (hk : KeyBinding host) {l : List GenerationId} (hl : Complete A T l)
    {ids : List GenerationId} (hids : ids.Nodup) (report : GarbageCollectionReport) :
    Spec host (collecting p A T ids : Assn (leases host bare) p) (collectAll host l ids report)
      (fun _ => ⊤) fun _ => ⊤ := by
  induction ids generalizing report with
  | nil => exact .pure fun _ _ _ => trivial
  | cons id ids ih =>
    obtain ⟨hid, hids⟩ := List.nodup_cons.mp hids
    have hrest : ∀ s, (leases host bare).inv s → collecting p A T (id :: ids) s →
        (collecting p A T ids ⊓ present p id : Assn (leases host bare) p) s := fun _ _ h =>
      ⟨⟨h.1, fun g => h.2 ⟨g.1, List.mem_cons_of_mem _ g.2⟩⟩, h.2 ⟨id, List.mem_cons_self⟩⟩
    rw [collectAll]
    split
    · exact .pre (ih hids _) fun s hi h => (hrest s hi h).1
    · next hroot =>
      refine .bind (.pre ((spec_collectOne hk (keeps_collecting hid) (fun _ h => h.1.1)
        (fun _ h => h.1.2.2) (hl.unrooted (by simpa using hroot))).err fun _ _ _ _ =>
          trivial) hrest) fun fate => ?_
      cases fate with
      | collected d => exact ih hids _
      | leasedOrBusy => exact ih hids _
      | corrupt => exact ih hids _

theorem spec_garbageCollect (hk : KeyBinding host) :
    Spec host (⊤ : Assn (leases host bare) p) (garbageCollect host) (fun _ => ⊤) fun _ => ⊤ := by
  refine spec_withRoots .top (fun _ => .top) (fun _ => .top) (fun _ _ h => h) ?_
  refine .pre (B := roots p .exclusive) (spec_frozen (fun s hs => ⟨_, hs⟩) fun A T => ?_)
    fun _ _ h => h.2
  refine .bind ((spec_collectGcRoots (P := roots p .exclusive ⊓ tables p A T) (fun _ h => h.2.2.1)
    fun _ h => h.2.2.2).err fun _ _ _ _ => trivial) fun l => .of_fact fun hl => ?_
  have hlist : Spec host (roots p .exclusive ⊓ tables p A T : Assn (leases host bare) p)
      (ask "read directory" (.dir .listGenerations))
      (fun names : List DirName => collecting p A T (names.filterMap DirName.asFinal) ⊓
        .fact (names.filterMap DirName.asFinal).Nodup) fun _ => ⊤ :=
    Spec.ask ⟨fun s a s' hi hp _ h => by
      cases h
      refine ⟨hi, (leases host bare).guar_refl p s, ⟨hp, fun g => ⟨⟨_, hp.1⟩, ?_⟩⟩,
        nodup_filterMap_generations s⟩
      obtain ⟨d, hd, hg⟩ := List.mem_filterMap.mp g.2
      rw [DirName.asFinal_eq_some.mp hg] at hd
      exact final_mem_generations.mp hd, fun _ _ _ _ _ => trivial⟩
  refine .bind hlist fun names => .of_fact fun hnodup => ?_
  refine .bind (J := fun r => collecting p A T r.1 ⊓ .fact r.1.Nodup)
    (Spec.ofExcept (fun r hr s _ h => ?_) fun _ _ _ _ _ => trivial) fun r => .of_fact fun hr => ?_
  · obtain ⟨ids, temps⟩ := r
    cases candidates_ok hr
    exact ⟨h, hnodup⟩
  · exact .bind (spec_collectAll hk hl hr _) fun _ => .bind (Spec.syncAll _) fun _ =>
      .pure fun _ _ h => h

end Lease

end PocketVm.Store
