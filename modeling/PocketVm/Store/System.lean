import PocketVm.Store.Collect

/-!
# The store system

The operations as processes of one system: what each returns, and the program it runs. A manifest
that decodes carries the identifier derived from it, and its derivation key is one the identifier
was derived from, whatever the store answers.
-/

namespace PocketVm.Store

open Conc Fallible

/-- What an operation hands back. A `leased` generation stays leased while its process lives. -/
inductive Value where
  | unit
  | leased (generation : Generation)
  | retainedLease (retained : RetainedCow) (generation : Generation)
  | retained (retained : RetainedCow)
  | collected (report : GarbageCollectionReport)
  | recovered (report : RecoveryReport)
  | released (release : RetainedRelease)
  | «instance» (record : Instance)

abbrev Ret := Except StoreError Value

variable (host : Host)

def routine : Op → StoreM Value
  | .build input => .leased <$> build host input
  | .acquireLease id => .leased <$> acquireLease host id
  | .leaseAlias key => .leased <$> leaseAlias host key
  | .leaseRetainedCow id => do
    let (retained, generation) ← leaseRetainedCow host id
    return .retainedLease retained generation
  | .setAlias key id => do
    setAlias host key id
    return .unit
  | .registerRetainedCow id path digest state =>
    .retained <$> registerRetainedCow host id path digest state
  | .garbageCollect => .collected <$> garbageCollect host
  | .recover => .recovered <$> recover host
  | .executeRun input => .instance <$> executeRun host input
  | .executeStart input => .instance <$> executeStart host input
  | .retainInstance output retain created finished =>
    .instance <$> retainInstance host output retain created finished
  | .removeInstance name => .instance <$> removeInstance host name
  | .releaseOrphanedRetainedCow id => .released <$> releaseOrphanedRetainedCow host id

def system : System Op Req Req.Ans State Ret where
  exec := exec host
  fault := fault
  enter := enter
  leave := leave
  code op := (routine host op).run

/-- `id` is derived from outputs built to a specification of `key`. -/
def HasKey (host : Host) (id : GenerationId) (key : DerivationKey) : Prop :=
  ∃ (spec : GenerationSpec) (digest : Digest) (size : UInt64) (sidecars : List ImmutableSidecar),
    spec.derivationKey host.sha256 = key ∧
      GenerationId.derive host.sha256 key digest size sidecars = .ok id

/-- An identifier is derived under one key only, as it is where the hash has no collisions. -/
def KeyBinding (host : Host) : Prop :=
  ∀ id k k', HasKey host id k → HasKey host id k' → k = k'

variable {host : Host} {α : Type} {ψ : α → Prop}

theorem yields_ofExcept {r : Except StoreError α} (h : ∀ a, r = .ok a → ψ a) :
    Yields ψ (ofExcept r) :=
  fun a ha => h a ha

theorem yields_require {c : Prop} [Decidable c] {e : StoreError} :
    Yields (fun _ => c) (require c e) := by
  unfold require
  split
  · exact .pure ‹_›
  · exact .throw e

theorem yields_attempt {m : StoreM α} (h : Yields ψ m) :
    Yields (fun r : Except StoreError α => ∀ a, r = .ok a → ψ a) (attempt m) :=
  Prog.Yields.bind h fun _ hr _ hb => by cases hb; exact hr

theorem yields_readDerivation (key : DerivationKey) :
    Yields (fun r => r.derivationKey = key ∧ r.validate = .ok ()) (readDerivation key) :=
  .bind (.any _) fun r _ => by
    split
    · exact .throw _
    · exact .throw _
    · exact .throw _
    · exact .bind (yields_ofExcept fun _ h => h) fun _ hv => .bind yields_require fun _ hk =>
        .pure ⟨hk, hv⟩

theorem DerivationRecord.insert_derivationKey (r : DerivationRecord) (id : GenerationId) :
    (r.insert id).derivationKey = r.derivationKey := by
  unfold insert
  split <;> rfl

theorem DerivationRecord.remove_derivationKey {r r' : DerivationRecord} {id : GenerationId}
    (h : r.remove id = some r') : r'.derivationKey = r.derivationKey := by
  unfold remove at h
  split at h
  · split at h
    · cases h
    · cases h; rfl
  · cases h; rfl

theorem yields_createStagingDirectory (key : DerivationKey) (attempts : Nat) :
    Yields (fun r => r.1.key = key) (createStagingDirectory key attempts) := by
  induction attempts with
  | zero => exact .throw _
  | succ attempts ih =>
    refine .bind (.any _) fun suffix _ => .bind (.any _) fun r _ => ?_
    split
    · exact .bind (.any _) fun _ _ => .pure rfl
    · exact ih
    · exact .throw _

theorem yields_createTransaction (spec : GenerationSpec) (key : DerivationKey) :
    Yields (fun tx => tx.spec = spec ∧ tx.derivationKey = key ∧ tx.stage.key = key)
      (createTransaction spec key) := by
  refine .bind (yields_createStagingDirectory key 128) fun r hr => ?_
  exact .bind (.any _) fun _ _ => .bind (.any _) fun _ _ => .pure ⟨rfl, rfl, hr⟩

theorem decodeManifest_ok {content : Content} {manifest : GenerationManifest}
    (h : decodeManifest host content = .ok manifest) :
    content = .manifest manifest ∧ manifest.spec.derivationKey host.sha256 =
      manifest.derivationKey ∧
      GenerationId.derive host.sha256 manifest.derivationKey manifest.baseDigest manifest.baseSize
        manifest.sidecars = .ok manifest.id := by
  unfold decodeManifest at h
  split at h
  · split at h
    · cases h
    · next hkey =>
      split at h
      · cases h
      · next id hid =>
        split at h
        · cases h
        · next heq =>
          cases h
          exact ⟨rfl, not_not.mp hkey, hid.trans (congrArg _ (not_not.mp heq))⟩
  · cases h

/-- A verified generation is the one asked for, and its key is one its identifier is bound to. -/
structure Verified (host : Host) (id : GenerationId) (generation : Generation) : Prop where
  id_eq : generation.manifest.id = id
  key : HasKey host id generation.manifest.derivationKey

theorem yields_verify (id : GenerationId) (mode : Nat) :
    Yields (Verified host id) (verifyGenerationWithDirectoryMode host id mode) := by
  refine .bind (.any _) fun ino _ => .bind (.any _) fun observed _ => .bind (.any _) fun _ _ => ?_
  refine .bind (.any _) fun entries _ => .bind (.any _) fun content _ => ?_
  refine .bind (yields_ofExcept fun _ h => h) fun manifest hm =>
    .bind yields_require fun _ hid => ?_
  refine .bind (.any _) fun _ _ => .bind (.any _) fun _ _ => .bind (.any _) fun _ _ => ?_
  refine .bind (.any _) fun base _ => .bind (.any _) fun _ _ => .pure ⟨hid, ?_⟩
  obtain ⟨-, hkey, hder⟩ := decodeManifest_ok hm
  exact ⟨_, _, _, _, hkey, hder.trans (congrArg _ hid)⟩

theorem yields_verifyGeneration (id : GenerationId) :
    Yields (Verified host id) (verifyGeneration host id) :=
  yields_verify id _

theorem yields_verifyIndexed (key : DerivationKey) (ids : List GenerationId) :
    Yields (fun l => ∀ g ∈ l, Verified host g.manifest.id g ∧ g.manifest.derivationKey = key)
      (verifyIndexed host key ids) := by
  induction ids with
  | nil => exact .pure (by simp)
  | cons id ids ih =>
    refine .bind (yields_verifyGeneration id) fun g hg => .bind yields_require fun _ hkey =>
      .bind ih fun others ho => .pure ?_
    intro g' hg'
    rcases List.mem_cons.mp hg' with rfl | hmem
    · rw [hg.id_eq]; exact ⟨hg, hkey⟩
    · exact ho g' hmem

theorem yields_generationsForDerivationLocked (key : DerivationKey) :
    Yields (fun l => ∀ g ∈ l, HasKey host g.manifest.id key)
      (generationsForDerivationLocked host key) := by
  refine .bind (.any _) fun r _ => ?_
  split
  · refine Prog.Yields.mono (fun _ h l hl g hg => ?_) (@yields_verifyIndexed host key _)
    obtain ⟨hv, hkey⟩ := h l hl g hg
    exact hkey ▸ hv.key
  · exact .pure (by simp)
  · exact .throw _

theorem yields_sealOutputs {tx : Transaction}
    (htx : tx.spec.derivationKey host.sha256 = tx.derivationKey) (expected : Digest)
    (sidecars : List ImmutableSidecar) :
    Yields (fun m => m.derivationKey = tx.derivationKey ∧ HasKey host m.id tx.derivationKey)
      (sealOutputs host tx expected sidecars) := by
  refine .bind (.any _) fun _ _ => .bind (.any _) fun entries _ => .bind (.any _) fun _ _ =>
    .bind (.any _) fun base _ => ?_
  refine .bind (.any _) fun _ _ => .bind (.any _) fun _ _ => .bind (.any _) fun _ _ => ?_
  refine .bind (.any _) fun _ _ => .bind (yields_ofExcept fun _ h => h) fun id hid =>
    .pure ⟨rfl, ?_⟩
  exact ⟨_, _, _, _, htx, hid⟩

end PocketVm.Store
