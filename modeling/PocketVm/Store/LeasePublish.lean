import PocketVm.Store.LeaseOps

/-!
# Building keeps the lease discipline

The derivation lock is held from the cache lookup to the end of the publication. Under it a lease
file can be created and its name keeps its meaning, so the shared lock a builder takes before its
generation appears is a lease once it has appeared.
-/

namespace PocketVm.Store

open Conc Discipline Footprint

namespace Lease

variable {host : Host} {bare : Prop} {p : Nat} {s s' : State} {g : GenerationId}
  {k : DerivationKey}

/-- Where a build has the lock of its key and the lease of what it publishes. -/
def publishing (hk : KeyBinding host) (p : Nat) (k : DerivationKey) (g : GenerationId) :
    Assn (leases host bare) p :=
  key p k ⊓ held hk (.key k) p g .shared

theorem keeps_publishing {hk : KeyBinding host} :
    (publishing hk p k g : Assn (leases host bare) p).Keeps (Quiet p) :=
  .inf (keeps_key not_false) (keeps_held not_false not_false not_false)

theorem nameable_of_key (hk : KeyBinding host) (hg : HasKey host g k) :
    ∀ s, (leases host bare).inv s → (key p k : Assn (leases host bare) p) s →
      (key p k ⊓ nameable hk (.key k) p g : Assn (leases host bare) p) s :=
  fun _ _ hs => ⟨hs, ⟨hg, hs⟩, .inr (.inr ⟨k, hg, hs⟩)⟩

theorem spec_openLeaseKeyed (hk : KeyBinding host) (hg : HasKey host g k) :
    Spec host (key p k : Assn (leases host bare) p) (openLeaseLock g)
      (fun _ => key p k ⊓ opened hk (.key k) p g) fun _ => key p k :=
  .pre (spec_openLease (K := (· = .lease g)) (Z := fun _ => False) hk rfl (keeps_key nofun))
    (nameable_of_key hk hg)

theorem spec_lockLeaseKeyed (hk : KeyBinding host) {operation : String} :
    Spec host (key p k ⊓ opened hk (.key k) p g : Assn (leases host bare) p)
      (ask operation (.lock (.lock (.lease g) .shared))) (fun _ => publishing hk p k g)
        fun _ => key p k :=
  spec_lockLease (K := (· = .lease g)) (Z := fun _ => False) hk rfl (keeps_key nofun)

theorem spec_verifyKeyed (hk : KeyBinding host) :
    Spec host (publishing hk p k g : Assn (leases host bare) p) (verifyGeneration host g)
      (fun gen => publishing hk p k g ⊓ leased p g ⊓ .fact (Verified host g gen)) fun _ =>
        publishing hk p k g :=
  spec_verifyLeased hk

theorem asks_closeLease {P : Assn (leases host bare) p}
    (hP : ∀ s, P s → Held s p (.derivation k) .exclusive) :
    Asks host P (.lock (.close (.lease g))) fun _ => key p k :=
  asks_closeOwn (K := (· = .lease g)) (Z := fun _ => False) rfl (keeps_key nofun) hP

theorem spec_leaseIndexed (hk : KeyBinding host) :
    Spec host (key p k : Assn (leases host bare) p) (leaseIndexed host k)
      (fun r => key p k ⊓ .all fun gen : {gen // r = some gen} => leased p gen.1.manifest.id)
        fun _ => key p k := by
  refine .bind ((Spec.looks (within_generationsForDerivationLocked host k)).yields
    (yields_generationsForDerivationLocked k)) fun l => .of_fact fun hl => ?_
  cases l with
  | nil => exact .pure fun _ _ h => ⟨h, fun gen => nomatch gen.2⟩
  | cons gen rest =>
    have hg := hl gen List.mem_cons_self
    refine .bind (spec_openLeaseKeyed hk hg) fun _ => ?_
    refine .bind (Spec.attempt (X := fun _ => key p k) (.bind (spec_lockLeaseKeyed hk) fun _ =>
      (spec_verifyKeyed hk).err fun _ _ _ h => h.1)) fun r => ?_
    rcases r with e | gen'
    · refine .bind (Spec.close (asks_closeLease fun _ h => h)) fun _ => ?_
      exact Spec.ite (.pure fun _ _ h => ⟨h, fun gen => nomatch gen.2⟩) (.throw fun _ _ h => h)
    · refine .pure fun _ _ h => ⟨h.1.1.1, fun gen => ?_⟩
      obtain ⟨gen, hgen⟩ := gen
      cases hgen
      show leased p gen'.manifest.id _
      rw [Verified.id_eq h.2]
      exact h.1.2

theorem spec_createTransaction (spec : GenerationSpec) :
    Spec host (key p k : Assn (leases host bare) p) (createTransaction spec k)
      (fun tx => key p k ⊓ .fact (tx.spec = spec ∧ tx.derivationKey = k)) fun _ => key p k := by
  have hkey : (key p k : Assn (leases host bare) p).Keeps (Quiet p) := keeps_key not_false
  have hcalm := Spec.calm (within_createTransaction (k := k) trivial (fun _ _ => nofun) spec) hkey
  exact (hcalm.yields (yields_createTransaction spec k)).post fun _ _ _ h => ⟨h.1, h.2.1, h.2.2.1⟩

def begun (p : Nat) : BeginGeneration → Assn (leases host bare) p
  | .existing gen => leased p gen.manifest.id
  | .vacant tx =>
    key p tx.derivationKey ⊓ .fact (tx.spec.derivationKey host.sha256 = tx.derivationKey)

theorem spec_tryBegin (hk : KeyBinding host) (spec : GenerationSpec) (rebuild : Bool) :
    Spec host (⊤ : Assn (leases host bare) p) (tryBeginGenerationInner host spec rebuild) (begun p)
      fun _ => ⊤ := by
  have hopen : Spec host (⊤ : Assn (leases host bare) p)
      (openDerivationLock (spec.derivationKey host.sha256)) (fun _ =>
        ⊤ ⊓ keyOpened p _) fun _ => ⊤ :=
    spec_openDerivation (K := (· = .derivation _)) (Z := fun _ => False) rfl .top
  have htry : Spec host (⊤ ⊓ keyOpened p _ : Assn (leases host bare) p)
      (tryLock (.derivation (spec.derivationKey host.sha256)))
      (fun b => if b then ⊤ ⊓ key p (spec.derivationKey host.sha256) else ⊤) fun _ => ⊤ :=
    spec_tryKey (K := (· = .derivation _)) (Z := fun _ => False) rfl .top
  refine .bind hopen fun _ => Spec.closeOnError (X := fun _ => ⊤)
    (.bind htry fun free => ?_) fun _ =>
    asks_closeOwn (K := (· = .derivation _)) (Z := fun _ => False) rfl .top fun _ h => h
  cases free with
  | false =>
    exact .bind (J := fun _ => .fact False) (Spec.require (fun h => nomatch h)
      fun _ _ _ _ => trivial) fun _ _ h => h.elim
  | true =>
    refine .bind (J := fun _ => key p _) (Spec.require (fun _ _ _ h => h.2) fun h => absurd rfl h)
      fun _ => ?_
    have hhit : Spec host (key p _ : Assn (leases host bare) p)
        (cacheHit host (spec.derivationKey host.sha256) rebuild)
        (fun r => key p _ ⊓ .all fun gen : {gen // r = some gen} => leased p gen.1.manifest.id)
        fun _ => ⊤ :=
      Spec.ite (.pure fun _ _ h => ⟨h, fun gen => nomatch gen.2⟩)
        ((spec_leaseIndexed hk).err fun _ _ _ _ => trivial)
    refine .bind hhit fun r => ?_
    cases r with
    | some gen =>
      refine .bind (J := fun _ => leased p gen.manifest.id) (Spec.close ?_) fun _ =>
        .pure fun _ _ h => h
      exact asks_closeOwn (K := (· = .derivation _)) (Z := fun _ => False) rfl
        (keeps_leased nofun not_false) fun _ h => h.2 ⟨gen, rfl⟩
    | none =>
      refine .bind (.pre ((spec_createTransaction spec).err fun _ _ _ _ => trivial)
        fun _ _ h => h.1) fun tx => .of_fact fun ⟨hspec, htx⟩ => .pure fun _ _ h => ?_
      refine ⟨?_, by rw [hspec, htx]; exact rfl⟩
      rw [htx]
      exact h

def staged (hk : KeyBinding host) (p : Nat) (k : DerivationKey) : Staged → Assn (leases host bare) p
  | .existing gen => key p k ⊓ leased p gen.manifest.id
  | .moved manifest => publishing hk p k manifest.id ⊓ .fact (HasKey host manifest.id k)

theorem spec_stageForPublication (hk : KeyBinding host) {tx : Transaction}
    (htx : tx.spec.derivationKey host.sha256 = tx.derivationKey) (expected : Digest)
    (sidecars : List ImmutableSidecar) :
    Spec host (key p tx.derivationKey : Assn (leases host bare) p)
      (stageForPublication host tx expected sidecars) (staged hk p tx.derivationKey)
      fun _ => key p tx.derivationKey := by
  have hkeyq : (key p tx.derivationKey : Assn (leases host bare) p).Keeps (Quiet p) :=
    keeps_key not_false
  have hseal : Spec host (key p tx.derivationKey : Assn (leases host bare) p)
      (sealOutputs host tx expected sidecars) (fun _ => key p tx.derivationKey)
      fun _ => key p tx.derivationKey :=
    Spec.calm (within_sealOutputs host (fun _ => nofun) expected sidecars) hkeyq
  refine .bind (hseal.yields (yields_sealOutputs htx expected sidecars)) fun m =>
    .of_fact fun hm => .bind (spec_openLeaseKeyed hk hm.2) fun _ => ?_
  refine Spec.closeOnError (X := fun _ => key p tx.derivationKey)
    (.bind (spec_lockLeaseKeyed hk) fun _ => .bind (Spec.attempt (spec_verifyKeyed hk)) fun r => ?_)
    fun _ => asks_closeLease fun _ h => h
  split
  · next gen =>
    refine .bind (J := fun _ => key p tx.derivationKey ⊓ leased p gen.manifest.id)
      (Spec.require (fun _ _ _ h => ?_) fun _ _ _ h => h.1.1.1) fun _ => ?_
    · refine ⟨h.1.1.1, ?_⟩
      rw [Verified.id_eq h.2]
      exact h.1.2
    · exact .bind ((Spec.calm (within_updateDerivationIndex trivial trivial _)
        (hkeyq.inf (keeps_leased not_false not_false))).err fun _ _ _ h => h.1) fun _ =>
        .pure fun _ _ h => h
  · have hcalm : ∀ {α : Type} {c : StoreM α}, calm.Within c →
        Spec host (publishing hk p tx.derivationKey m.id : Assn (leases host bare) p) c
          (fun _ => publishing hk p tx.derivationKey m.id) fun _ => key p tx.derivationKey :=
      fun hc => (Spec.calm hc keeps_publishing).err fun _ _ _ h => h.1
    exact .bind (hcalm (within_writeNewSynced (fun _ => nofun) _ _ _ _)) fun _ =>
      .bind (hcalm (.ask trivial)) fun _ => .bind (hcalm (.require _ _)) fun _ =>
      .bind (hcalm (.syncAll _)) fun _ =>
      .bind (hcalm (within_renameDir (fun _ => nofun) fun _ => nofun)) fun _ =>
      .pure fun _ _ h => ⟨h, hm.2⟩
  · exact .throw fun _ _ h => h.1

theorem lookup_moveDir_new {s : State} (old new : DirName) (d : Dir) :
    (s.moveDir old new d).dirs.lookup new = some d := AList.lookup_insert _

/-- The directory of a publication takes its final name: its key is owned and its lease held. -/
theorem asks_publish (hk : KeyBinding host) {x : DirName} (hx : ∀ g, x ≠ .final g) {e : Req}
    (he : e = .dir (.link x (.final g)) ∨ e = .dir (.replace x (.final g)))
    (hg : HasKey host g k) :
    Asks host (publishing hk p k g : Assn (leases host bare) p) e fun _ => publishing hk p k g where
  run s a s' hi hp hc h := by
    have hcond : bare → ∀ q fd, s.fds.lookup (q, .lease g) = some fd →
        s.lockFiles.lookup (.lease g) = some fd.ino := by
      rcases he with rfl | rfl <;> exact hc
    rcases exec_move he h with rfl | ⟨d, hd, hempty, rfl⟩
    · exact ⟨hi, (leases host bare).guar_refl p _, hp⟩
    have hother : ∀ g', g' ≠ g →
        (s.moveDir x (.final g) d).dirs.lookup (.final g') = s.dirs.lookup (.final g') :=
      fun g' hne => lookup_moveDir (hx g') fun h => hne (DirName.final.inj h).symm
    have hpres : ∀ g', Present (s.moveDir x (.final g) d) g' → g' = g ∨ Present s g' := by
      intro g' hg'
      by_cases hne : g' = g
      · exact .inl hne
      · unfold Present at hg'
        rw [hother g' hne] at hg'
        exact .inr hg'
    have hkeep : ∀ g', Present s g' → Present (s.moveDir x (.final g) d) g' := by
      intro g' hg'
      by_cases hne : g' = g
      · exact ⟨d, hne ▸ lookup_moveDir_new x _ d⟩
      · unfold Present
        rw [hother g' hne]
        exact hg'
    refine ⟨⟨hi.1.of_sub fun _ _ h => h, ?_, ?_, ?_⟩,
      ⟨⟨fun _ _ _ => rfl⟩, ?_, ?_, ?_, ?_, .inl ⟨rfl, rfl⟩⟩, hp⟩
    · intro g' hg'
      rcases hpres g' hg' with rfl | hg'
      · obtain ⟨fd, -, hn, -⟩ := hp.2.2
        exact ⟨fd.ino, hn.lease⟩
      · exact hi.2.lease g' hg'
    · exact fun a r hr => hkeep _ (hi.2.aliased a r hr)
    · exact fun i r hr => hkeep _ (hi.2.retained i r hr)
    · exact fun _ _ h => .inl h
    · exact fun _ h h' => absurd h h'
    · intro g'
      refine .inl fun d' hd' => ?_
      by_cases hne : g' = g
      · -- a directory that was in the way is empty
        subst hne
        refine ⟨d, lookup_moveDir_new x _ d, fun f y hf => ?_⟩
        have hmem : f ∈ d'.files.keys := AList.mem_keys.mp (AList.lookup_isSome.mp (hf ▸ rfl))
        rw [hempty d' hd'] at hmem
        cases hmem
      · exact ⟨d', by rw [hother g' hne]; exact hd', fun _ _ h => h⟩
    · intro g' hno hyes
      rcases hpres g' hyes with rfl | hg'
      · exact ⟨⟨k, hg, hp.1⟩, hcond⟩
      · exact absurd hg' hno
  fault _ _ hp _ _ := hp

section
variable (hk : KeyBinding host)

theorem spec_renameFinal {x : DirName} (hx : ∀ g, x ≠ .final g) (hg : HasKey host g k) :
    Spec host (publishing hk p k g : Assn (leases host bare) p) (renameDir x (.final g))
      (fun _ => publishing hk p k g) fun _ => publishing hk p k g := by
  refine Spec.renameNoReplace (L := fun _ => publishing hk p k g) (C := publishing hk p k g)
    (Spec.sys (asks_publish hk hx (.inl rfl) hg)) (fun _ _ h => h) (fun _ _ _ h => h) ?_
    (Spec.ask_any (asks_publish hk hx (.inr rfl) hg))
  refine (Spec.looks (m := ask _ (.dir (.exists (.final g)))) (.ask trivial)).post fun b _ _ h => ?_
  cases b <;> exact h

theorem spec_commitPublication (tx : Transaction) (hg : HasKey host g k) :
    Spec host (publishing hk p k g : Assn (leases host bare) p) (commitPublication tx g)
      (fun _ => publishing hk p k g) fun _ => publishing hk p k g := by
  have hcalm : ∀ {α : Type} {c : StoreM α}, calm.Within c →
      Spec host (publishing hk p k g : Assn (leases host bare) p) c
        (fun _ => publishing hk p k g) fun _ => publishing hk p k g :=
    fun hc => Spec.calm hc keeps_publishing
  refine .bind (hcalm (.syncAll _)) fun _ => .bind (hcalm (.syncAll _)) fun _ =>
    .bind (hcalm (.ask (.inl fun _ => nofun))) fun _ => .bind (hcalm (.syncAll _)) fun _ =>
    .bind (hcalm (.ask trivial)) fun _ => .bind (hcalm (.require _ _)) fun _ =>
    .bind (Spec.attempt (spec_renameFinal hk (fun _ => nofun) hg)) fun r => ?_
  split
  · exact .pure fun _ _ h => h
  · exact .throw fun _ _ h => h
  · exact .throw fun _ _ h => h

include hk

theorem spec_publishLeased {tx : Transaction}
    (htx : tx.spec.derivationKey host.sha256 = tx.derivationKey) (expected : Digest)
    (sidecars : List ImmutableSidecar) :
    Spec host (key p tx.derivationKey : Assn (leases host bare) p)
      (publishLeased host tx expected sidecars) (fun gen => leased p gen.manifest.id)
        fun _ => ⊤ := by
  have hremove : ∀ {x : DirName} {P : Assn (leases host bare) p}, P.Keeps (Quiet p) →
      (∀ g, x ≠ .final g) → Spec host P (removeTree x) (fun _ => P) fun _ => P :=
    fun hP hx => Spec.calm (within_removeTree hx) hP
  have hclose : ∀ {P Q : Assn (leases host bare) p},
    Q.Keeps (Release (.derivation tx.derivationKey) p) →
      (∀ s, P s → Q s) → Asks host P (.lock (.close (.derivation tx.derivationKey))) fun _ => Q :=
    fun hQ hPQ => asks_closeOwn (K := (· = .derivation _)) rfl hQ hPQ
  refine Spec.holding (Q := fun gen => leased p gen.manifest.id) (X := fun _ => ⊤) ?_
    (fun gen => hclose (keeps_leased nofun not_false) fun _ h => h)
    fun _ => hclose .top fun _ h => h
  refine .bind ((Spec.cleaning (spec_stageForPublication hk htx expected sidecars) fun _ =>
    hremove (x := .staging tx.stage) (keeps_key not_false) fun _ => nofun).err fun _ _ _ _ =>
      trivial) fun r => ?_
  cases r with
  | existing gen =>
    have hleased : (leased p gen.manifest.id : Assn (leases host bare) p).Keeps (Quiet p) :=
      keeps_leased not_false not_false
    refine .bind (J := fun _ => leased p gen.manifest.id) (.pre (B := leased p gen.manifest.id)
      ((Spec.attempt (hremove (x := .staging tx.stage) hleased fun _ => nofun)).post fun r _ _ h =>
        ?_) fun _ _ h => h.2)
      fun _ => .pure fun _ _ h => h
    cases r <;> exact h
  | moved m =>
    refine .of_fact fun hg => ?_
    refine .bind (J := fun _ => publishing hk p tx.derivationKey m.id) ?_ fun _ => ?_
    · refine (Spec.cleaning (X := fun _ => key p tx.derivationKey)
        (Spec.closeOnError (spec_commitPublication hk tx hg) fun _ =>
          asks_closeLease fun _ h => h.1)
        fun _ => hremove (x := .publication tx.stage) (keeps_key not_false) fun _ =>
          nofun).err fun _ _ _ _ => trivial
    · refine (Spec.closeOnError (X := fun _ => key p tx.derivationKey)
        (Y := fun _ => key p tx.derivationKey) ?_ fun _ => asks_closeLease fun _ h => h).err
        fun _ _ _ _ => trivial
      refine .bind ((Spec.syncAll _).err fun _ _ _ h => h.1) fun _ =>
        .bind ((spec_verifyKeyed hk).err fun _ _ _ h => h.1) fun gen => .of_fact fun hgen => ?_
      have hkept : (publishing hk p tx.derivationKey m.id ⊓ leased p m.id :
          Assn (leases host bare) p).Keeps (Quiet p) :=
        keeps_publishing.inf (keeps_leased not_false not_false)
      refine .bind ((Spec.calm (within_updateDerivationIndex trivial trivial _) hkept).err
        fun _ _ _ h => h.1.1) fun _ => .pure fun _ _ h => ?_
      rw [hgen.id_eq]
      exact h.2

theorem spec_build (input : BuildInput) :
    Spec host (⊤ : Assn (leases host bare) p) (build host input)
      (fun gen => leased p gen.manifest.id) fun _ => ⊤ := by
  refine .bind (spec_tryBegin hk input.spec input.rebuild) fun r => ?_
  cases r with
  | existing gen => exact .pure fun _ _ h => h
  | vacant tx =>
    refine .of_fact fun htx => ?_
    have hkey : (key p tx.derivationKey : Assn (leases host bare) p).Keeps (Quiet p) :=
      keeps_key not_false
    refine .bind (Spec.attempt (Spec.calm (within_writeOutputs (fun _ => nofun) _ _) hkey)) fun r =>
      ?_
    rcases r with e | ⟨⟨⟩⟩
    · refine .bind (J := fun _ => ⊤) (.bind (J := fun _ => ⊤) ?_ fun _ => ?_) fun _ =>
        .throw fun _ _ _ => trivial
      · exact (Spec.calm (.attempt (within_removeTree (d := .staging tx.stage) fun _ => nofun)) hkey).conseq
          (fun _ _ h => h) (fun _ _ _ _ => trivial) fun _ _ _ _ => trivial
      · exact Spec.close (asks_closeOwn (K := (· = .derivation _)) (Z := fun _ => False) rfl .top
          fun _ h => h)
    · exact spec_publishLeased hk htx _ _

end

end Lease

end PocketVm.Store
