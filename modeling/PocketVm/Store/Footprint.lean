import PocketVm.Store.System

/-!
# What a routine can touch

A `Footprint` bounds the requests a routine issues: the lock files it opens and locks, those it
creates, the directories it writes, the lookups it rewrites. Reading and host steps are in every
footprint.
-/

namespace PocketVm.Store

open Conc Fallible

structure Footprint where
  /-- whether temporary names are written and removed, and unique suffixes drawn -/
  temps : Prop
  opens : LockName → Prop
  names : LockName → Prop
  unlinks : LockName → Prop
  dirs : DirName → Prop
  chmods : DirName → Prop
  keys : DerivationKey → Prop
  aliases : Prop
  retained : Prop
  instances : InstanceId → Prop
  /-- the instance records that may be unlinked, among those of `instances` -/
  forgets : InstanceId → Prop

namespace Footprint

def allows (F : Footprint) : Req → Prop
  | .lock (.open n) | .lock (.lock n _) | .lock (.tryLock n) | .lock (.close n) => F.opens n
  | .lock (.link _ n) | .lock (.replace _ n) => F.names n
  | .lock (.unlink n) => F.unlinks n
  | .temp (.write _) | .temp (.unlink _) | .dir .uniqueSuffix => F.temps
  | .dir (.make d) | .dir (.create d _ _) | .dir (.write d _ _ _) | .dir (.chmodFile d _ _ _)
  | .dir (.unlink d _ _) | .dir (.remove d) => F.dirs d
  | .dir (.chmod d _ _) => F.dirs d ∨ F.chmods d
  | .dir (.link d e) | .dir (.replace d e) => F.dirs d ∧ F.dirs e
  | .record (.replaceDerivation _ r) => F.keys r.derivationKey
  | .record (.unlinkDerivation k) => F.keys k
  | .record (.replaceAlias _ _) => F.aliases
  | .record (.linkRetained _ _) | .record (.replaceRetained _ _) | .record (.unlinkRetained _) =>
    F.retained
  | .record (.linkInstance _ r) => F.instances r.id
  | .record (.replaceInstance _ id _) => F.instances id
  | .record (.unlinkInstance id) => F.instances id ∧ F.forgets id
  | _ => True

def Within {α : Type} (F : Footprint) (m : StoreM α) : Prop := Uses F.allows m

variable {F : Footprint} {α β : Type}

/-! ### Combinators -/

variable {m : StoreM α} {n : LockName} {k : DerivationKey}

theorem Within.bind {f : α → StoreM β} (hm : F.Within m) (hf : ∀ a, F.Within (f a)) :
    F.Within (m >>= f) :=
  Uses.bind hm hf

theorem Within.bind_of {ψ : α → Prop} {f : α → StoreM β} (hm : F.Within m)
    (hy : Yields ψ m) (hf : ∀ a, ψ a → F.Within (f a)) : F.Within (m >>= f) :=
  Uses.bind_of hm hy hf

theorem Within.map {f : α → β} (hm : F.Within m) : F.Within (f <$> m) :=
  Uses.bind hm fun _ => trivial

theorem Within.pure (a : α) : F.Within (pure a : StoreM α) := trivial

theorem Within.throw (e : StoreError) : F.Within (throw e : StoreM α) := trivial

theorem Within.ite {c : Prop} [Decidable c] {n : StoreM α} (hm : F.Within m) (hn : F.Within n) :
    F.Within (if c then m else n) := by
  split
  · exact hm
  · exact hn

theorem Within.ofExcept (r : Except StoreError α) : F.Within (ofExcept r) := trivial

theorem Within.require (c : Prop) [Decidable c] (e : StoreError) : F.Within (require c e) :=
  .ite (.pure _) (.throw _)

theorem Within.sys {e : Req} (he : F.allows e) : F.Within (sys e) :=
  Uses.lift (.request he)

theorem Within.ask {operation : String} {e : Req} (he : F.allows e) : F.Within (ask operation e) :=
  .bind (.sys he) fun r => by cases r <;> trivial

theorem Within.attempt (hm : F.Within m) : F.Within (attempt m) := Uses.lift hm

theorem Within.syncAll (operation : String) : F.Within (syncAll operation) := .ask trivial

theorem Within.close (hn : F.opens n) : F.Within (close n) :=
  .bind (.sys hn) fun _ => .pure _

/-! ### Properties that compose -/

/-- A property that the routines within `F` have, and that a sequence has where its parts have it. -/
structure Passes (F : Footprint) (P : ∀ {α : Type}, StoreM α → Prop) : Prop where
  of_within : ∀ {α : Type} {m : StoreM α}, F.Within m → P m
  bind : ∀ {α β : Type} {m : StoreM α} {f : α → StoreM β}, P m → (∀ a, P (f a)) → P (m >>= f)
  attempt : ∀ {α : Type} {m : StoreM α}, P m → P (attempt m)

theorem passes_within : F.Passes fun {_} => F.Within := ⟨id, .bind, .attempt⟩

namespace Passes

variable {P : ∀ {α : Type}, StoreM α → Prop}

theorem ite (_ : F.Passes P) {c : Prop} [Decidable c] {n : StoreM α} (hm : P m) (hn : P n) :
    P (if c then m else n) := by
  split
  · exact hm
  · exact hn

variable (hP : F.Passes P)
include hP

theorem pure (a : α) : P (pure a : StoreM α) := hP.of_within (.pure a)

theorem throw (e : StoreError) : P (throw e : StoreM α) := hP.of_within (.throw e)

theorem holding (hn : F.opens n) (hm : P m) : P (holding n m) :=
  hP.bind (hP.attempt hm) fun r => hP.of_within (.bind (.close hn) fun _ => .ofExcept r)

theorem closeOnError (hn : F.opens n) (hm : P m) : P (closeOnError n m) :=
  hP.bind (hP.attempt hm) fun r => by
    cases r with
    | ok a => exact hP.pure a
    | error e => exact hP.of_within (.bind (.close hn) fun _ => .throw e)

end Passes

theorem Within.holding (hn : F.opens n) (hm : F.Within m) : F.Within (holding n m) :=
  passes_within.holding hn hm

theorem Within.closeOnError (hn : F.opens n) (hm : F.Within m) : F.Within (closeOnError n m) :=
  passes_within.closeOnError hn hm

theorem Within.renameNoReplace {link : StoreM (Except Errno Unit)} {present : StoreM Bool}
    {rename : StoreM Unit} (hl : F.Within link) (hp : F.Within present) (hr : F.Within rename) :
    F.Within (renameNoReplace link present rename) :=
  .bind hl fun r => by
    cases r with
    | ok _ => exact .pure _
    | error n =>
      cases n with
      | einval => exact .bind hp fun _ => .bind (.require _ _) fun _ => hr
      | _ => exact .throw _

/-! ### Locks -/

theorem within_unlinkTemp (ht : F.temps) (t : TempName) : F.Within (unlinkTemp t) := .ask ht

theorem within_writeInstance (host : Host) (ht : F.temps) (i : Instance) :
    F.Within (writeInstance host i) :=
  .bind (.ofExcept _) fun _ => .ask ht

theorem within_renameLock (hn : F.names n) (t : TempName) : F.Within (renameLock t n) :=
  .renameNoReplace (.sys hn) (.ask trivial) (.ask hn)

theorem within_publishRecord (ht : F.temps) (hn : F.names n) (attempts : Nat) :
    F.Within (publishRecord n attempts) := by
  induction attempts with
  | zero => exact .pure _
  | succ attempts ih =>
    refine .bind (.ask ht) fun t => .bind (.attempt (within_renameLock hn t)) fun r => ?_
    have hdrop : ∀ e, F.Within (do let _ ← attempt (unlinkTemp t); throw e : StoreM Unit) :=
      fun e => .bind (.attempt (within_unlinkTemp ht t)) fun _ => .throw e
    split
    · exact .syncAll _
    · exact .bind (.attempt (within_unlinkTemp ht t)) fun _ => .pure _
    · exact .ite ih (hdrop _)

theorem within_ensureRecord (ht : F.temps) (hn : F.names n) : F.Within (ensureRecord n) := by
  refine .bind (.ask trivial) fun _ => .ite (.pure _) ?_
  refine .bind (within_publishRecord ht hn _) fun _ => ?_
  exact .bind (.ask trivial) fun _ => .require _ _

theorem within_openLock (ht : F.temps) (hn : F.names n) (ho : F.opens n) :
    F.Within (do ensureRecord n; openFixedLock n) :=
  .bind (within_ensureRecord ht hn) fun _ => .ask ho

theorem within_openDerivationLock (ht : F.temps) (hn : F.names (.derivation k))
    (ho : F.opens (.derivation k)) : F.Within (openDerivationLock k) :=
  within_openLock ht hn ho

theorem within_openLeaseLock {id : GenerationId} (ht : F.temps) (hn : F.names (.lease id))
    (ho : F.opens (.lease id)) : F.Within (openLeaseLock id) :=
  within_openLock ht hn ho

theorem within_withRoots {mode : LockMode} (ho : F.opens .roots) (hm : F.Within m) :
    F.Within (withRoots mode m) :=
  .bind (.ask ho) fun _ => .holding ho (.bind (.ask ho) fun _ => hm)

theorem within_tryLock (ho : F.opens n) : F.Within (tryLock n) := .ask ho

/-! ### Verification, removal and the lookup -/

theorem within_readFile (d : DirName) (ino : Nat) (file : String) (mode : Nat) :
    F.Within (readFile d ino file mode) :=
  .bind (.ask trivial) fun _ => .ofExcept _

theorem within_readStaging (d : DirName) (ino : Nat) : F.Within (readStaging d ino) :=
  .bind (within_readFile d ino _ _) fun _ => .ofExcept _

section
variable (host : Host)

theorem within_readChecked (d : DirName) (ino : Nat) (file : String) (size : UInt64)
    (digest : Digest) : F.Within (readChecked host d ino file size digest) :=
  .bind (within_readFile d ino _ _) fun _ => .ofExcept _

theorem within_checkSidecars (d : DirName) (ino : Nat) (l : List ImmutableSidecar) :
    F.Within (checkSidecars host d ino l) := by
  induction l with
  | nil => exact .pure _
  | cons a l ih => exact .bind (within_readChecked host d ino _ _ _) fun _ => ih

theorem within_openGeneration (id : GenerationId) : F.Within (openGeneration id) :=
  .bind (.sys trivial) fun r => by
    cases r with
    | ok ino => exact .pure _
    | error n => cases n <;> exact .throw _

theorem within_verify (id : GenerationId) (mode : Nat) :
    F.Within (verifyGenerationWithDirectoryMode host id mode) := by
  refine .bind (within_openGeneration id) fun ino => .bind (.ask trivial) fun _ => ?_
  refine .bind (.require _ _) fun _ => .bind (.ask trivial) fun _ => ?_
  refine .bind (within_readFile _ ino _ _) fun _ => .bind (.ofExcept _) fun _ => ?_
  refine .bind (.require _ _) fun _ => .bind (.require _ _) fun _ => ?_
  refine .bind (within_readStaging _ ino) fun _ => .bind (.require _ _) fun _ => ?_
  refine .bind (within_readChecked host _ ino _ _ _) fun _ => ?_
  exact .bind (within_checkSidecars host _ ino _) fun _ => .pure _

theorem within_verifyGeneration (id : GenerationId) : F.Within (verifyGeneration host id) :=
  within_verify host id _

end

theorem within_unlinkAll {d : DirName} (hd : F.dirs d) (ino : Nat) (l : List String) :
    F.Within (unlinkAll d ino l) := by
  induction l with
  | nil => exact .pure _
  | cons a l ih => exact .bind (.ask hd) fun _ => .bind (.syncAll _) fun _ => ih

theorem within_removeTree {d : DirName} (hd : F.dirs d) : F.Within (removeTree d) := by
  refine .bind (.ask trivial) fun ino => .bind (.ask (Or.inl hd)) fun _ => ?_
  refine .bind (.ask trivial) fun _ => .bind (within_unlinkAll hd ino _) fun _ => ?_
  refine .bind (.syncAll _) fun _ => .bind (.ask hd) fun _ => ?_
  exact .syncAll _

theorem within_readDerivation (k : DerivationKey) : F.Within (readDerivation k) :=
  .bind (.sys trivial) fun r => by
    split
    · exact .throw _
    · exact .throw _
    · exact .throw _
    · exact .bind (.ofExcept _) fun _ => .bind (.require _ _) fun _ => .pure _

theorem within_writeDerivationRecord {r : DerivationRecord} (ht : F.temps)
    (hk : F.keys r.derivationKey) :
    F.Within (writeDerivationRecord r) :=
  .bind (.ofExcept _) fun _ => .bind (.ask ht) fun t => .bind (.attempt (.ask hk)) fun r => by
    split
    · exact .syncAll _
    · exact .bind (.attempt (within_unlinkTemp ht t)) fun _ => .throw _

theorem within_updateDerivationIndex (ht : F.temps) (hk : F.keys k)
    (id : GenerationId) : F.Within (updateDerivationIndex k id) :=
  .bind_of (.attempt (within_readDerivation k)) (yields_attempt (yields_readDerivation k))
    fun r hr => by
      split
      · refine within_writeDerivationRecord ht ?_
        rw [DerivationRecord.insert_derivationKey, (hr _ rfl).1]
        exact hk
      · exact within_writeDerivationRecord ht hk
      · exact .throw _

theorem within_removeFromDerivationIndex (ht : F.temps) (hk : F.keys k)
    (id : GenerationId) : F.Within (removeFromDerivationIndex k id) :=
  .bind_of (.attempt (within_readDerivation k)) (yields_attempt (yields_readDerivation k))
    fun r hr => by
      split
      · exact .pure _
      · refine .bind (.attempt (.ask hk)) fun r => ?_
        split
        · exact .bind (.syncAll _) fun _ => .pure _
        · exact .bind (.syncAll _) fun _ => .pure _
        · exact .throw _
      · exact .throw _
      · refine .ite (.pure _) ?_
        split
        · exact .bind (.ask hk) fun _ => .bind (.syncAll _) fun _ => .pure _
        · next heq =>
          refine .bind (within_writeDerivationRecord ht ?_) fun _ => .pure _
          rw [DerivationRecord.remove_derivationKey heq, (hr _ rfl).1]
          exact hk

/-! ### Building -/

section
variable (host : Host)

theorem within_verifyIndexed (k : DerivationKey) (ids : List GenerationId) :
    F.Within (verifyIndexed host k ids) := by
  induction ids with
  | nil => exact .pure _
  | cons id ids ih =>
    exact .bind (within_verifyGeneration host id) fun _ => .bind (.require _ _) fun _ =>
      .bind ih fun _ => .pure _

theorem within_generationsForDerivationLocked (k : DerivationKey) :
    F.Within (generationsForDerivationLocked host k) :=
  .bind (.attempt (within_readDerivation k)) fun r => by
    split
    · exact within_verifyIndexed host k _
    · exact .pure _
    · exact .throw _

variable {k : DerivationKey} {d : DirName} {tx : Transaction} {id : GenerationId}

theorem Passes.createStagingDirectory {P : ∀ {α : Type}, StoreM α → Prop} (hP : F.Passes P)
    (hs : P (ask "unique suffix" (.dir .uniqueSuffix))) (hd : ∀ n, F.dirs (.staging ⟨k, n⟩))
    (attempts : Nat) :
    P (createStagingDirectory k attempts) := by
  induction attempts with
  | zero => exact hP.throw _
  | succ attempts ih =>
    refine hP.bind hs fun suffix => hP.bind (hP.of_within (.sys (hd suffix))) fun r => ?_
    split
    · exact hP.of_within (.bind (.syncAll _) fun _ => .pure _)
    · exact ih
    · exact hP.throw _

theorem within_writeNewSynced (hd : F.dirs d) (ino : Nat) (file : String)
    (content : Content) (mode : Nat) : F.Within (writeNewSynced d ino file content mode) := by
  refine .bind (.ask hd) fun _ => .bind (.ask hd) fun _ => .bind (.syncAll _) fun _ => ?_
  exact .bind (.ask hd) fun _ => .syncAll _

theorem Passes.cleaning {P : ∀ {α : Type}, StoreM α → Prop} (hP : F.Passes P) (hd : F.dirs d)
    {m : StoreM α} (hm : P m) :
    P (cleaning d m) :=
  hP.bind (hP.attempt hm) fun r => by
    cases r with
    | ok a => exact hP.pure a
    | error e => exact hP.of_within (.bind (.attempt (within_removeTree hd)) fun _ => .throw e)

theorem within_createTransaction (ht : F.temps) (hd : ∀ n, F.dirs (.staging ⟨k, n⟩))
    (spec : GenerationSpec) :
    F.Within (createTransaction spec k) := by
  refine .bind_of (passes_within.createStagingDirectory (.ask ht) hd 128)
    (yields_createStagingDirectory k 128)
    fun r hr => ?_
  obtain ⟨⟨key, suffix⟩, ino⟩ := r
  cases hr
  exact .bind (passes_within.cleaning (hd suffix) (within_writeNewSynced (hd suffix) _ _ _ _)) fun _ =>
    .bind (.syncAll _) fun _ => .pure _

theorem within_hashStaged (tx : Transaction) (file : String) : F.Within (hashStaged host tx file) :=
  .bind (within_readFile _ _ _ _) fun content => by
    cases content with
    | data bytes => exact .pure _
    | _ => exact .throw _

theorem within_sealSidecars (hd : F.dirs (.staging tx.stage))
    (l : List ImmutableSidecar) : F.Within (sealSidecars host tx l) := by
  induction l with
  | nil => exact .pure _
  | cons a l ih =>
    refine .bind (within_hashStaged host tx _) fun _ => .bind (.require _ _) fun _ => ?_
    refine .bind (.require _ _) fun _ => .bind (.ask hd) fun _ => ?_
    exact .bind (.syncAll _) fun _ => ih

theorem within_sealOutputs (hd : F.dirs (.staging tx.stage))
    (expected : Digest) (l : List ImmutableSidecar) :
    F.Within (sealOutputs host tx expected l) := by
  refine .bind (.ofExcept _) fun _ => .bind (.ask trivial) fun _ => .bind (.require _ _) fun _ => ?_
  refine .bind (within_hashStaged host tx _) fun _ => .bind (.require _ _) fun _ => ?_
  refine .bind (.ask hd) fun _ => .bind (.syncAll _) fun _ => ?_
  exact .bind (within_sealSidecars host hd l) fun _ => .bind (.ofExcept _) fun _ => .pure _

theorem within_renameDir {old new : DirName} (ho : F.dirs old) (hn : F.dirs new) :
    F.Within (renameDir old new) :=
  .renameNoReplace (.sys ⟨ho, hn⟩) (.ask trivial) (.ask ⟨ho, hn⟩)

theorem within_writeSidecars (hd : F.dirs (.staging tx.stage))
    (l : List (ImmutableSidecar × Wire.Bytes)) : F.Within (writeSidecars tx l) := by
  induction l with
  | nil => exact .pure _
  | cons a l ih => exact .bind (.ask hd) fun _ => .bind (.ask hd) fun _ => ih

theorem within_writeOutputs (hd : F.dirs (.staging tx.stage))
    (base : Wire.Bytes) (l : List (ImmutableSidecar × Wire.Bytes)) :
    F.Within (writeOutputs tx base l) :=
  .bind (.ask hd) fun _ => .bind (.ask hd) fun _ => within_writeSidecars hd l

/-! ### Leases and collection -/

theorem Passes.acquireLease {P : ∀ {α : Type}, StoreM α → Prop} (hP : F.Passes P)
    (hlock : P (openLeaseLock id)) (ho : F.opens (.lease id)) : P (acquireLease host id) :=
  hP.bind hlock fun _ => hP.of_within
    (.closeOnError ho (.bind (.ask ho) fun _ => within_verifyGeneration host id))

theorem within_acquireLease (ht : F.temps) (hn : F.names (.lease id))
    (ho : F.opens (.lease id)) : F.Within (acquireLease host id) :=
  passes_within.acquireLease host (within_openLeaseLock ht hn ho) ho

theorem within_deleteGeneration (ht : F.temps)
    (ho : F.opens (.lease id)) (hu : F.unlinks (.lease id)) (hd : F.dirs (.final id))
    (hk : F.keys k) : F.Within (deleteGeneration host id k) := by
  refine .bind (within_verifyGeneration host id) fun _ => ?_
  refine .bind (within_removeFromDerivationIndex ht hk id) fun _ => ?_
  refine .bind (within_removeTree hd) fun _ => .bind (.close ho) fun _ => ?_
  refine .bind (.attempt (.ask hu)) fun r => ?_
  split
  · exact .pure _
  · exact .pure _
  · exact .throw _

theorem within_collectOne (ht : F.temps) (hn : F.names (.lease id))
    (ho : F.opens (.lease id)) (hu : F.unlinks (.lease id)) (hd : F.dirs (.final id))
    (hnk : ∀ k, F.names (.derivation k)) (hok : ∀ k, F.opens (.derivation k))
    (hk : ∀ k, F.keys k) : F.Within (collectOne host id) := by
  refine .bind (within_openLeaseLock ht hn ho) fun _ => .holding ho
    (.bind (within_tryLock ho) fun _ => .ite ?_ (.pure _))
  refine .bind (.attempt (within_verifyGeneration host id)) fun r => ?_
  split
  · exact .pure _
  · refine .bind (within_openDerivationLock ht (hnk _) (hok _)) fun _ => .holding (hok _) ?_
    refine .bind (within_tryLock (hok _)) fun _ => .ite ?_ (.pure _)
    exact within_deleteGeneration host ht ho hu hd (hk _)

/-! ### Roots and recovery -/

theorem within_unsafeOnError {reason : String} {m : StoreM α} (hm : F.Within m) :
    F.Within (unsafeOnError reason m) :=
  .bind (.attempt hm) fun r => by
    cases r with
    | ok a => exact .pure a
    | error e => exact .throw _

theorem within_readAlias (id : AliasId) : F.Within (readAlias host id) :=
  .bind (.sys trivial) fun r => by
    split
    · exact .throw _
    · exact .throw _
    · exact .throw _
    · exact .bind (.require _ _) fun _ => .bind (.require _ _) fun _ => .pure _

theorem within_readRetained (id : RetainedCowId) : F.Within (readRetained host id) :=
  .bind (.sys trivial) fun r => by
    split
    · exact .throw _
    · exact .throw _
    · exact .throw _
    · exact .bind (.require _ _) fun _ => .bind (.require _ _) fun _ => .pure _

theorem within_openOverlay (path : CowPath) : F.Within (openOverlay path) := by
  cases path with
  | inInstance id leaf => exact .bind (.ask trivial) fun _ => .ask trivial
  | elsewhere path => exact .ask trivial

theorem within_hashOverlay (path : CowPath) : F.Within (hashOverlay host path) :=
  .bind (within_openOverlay path) fun _ => .bind (.ofExcept _) fun content => by
    cases content with
    | data bytes => exact .pure _
    | _ => exact .throw _

section
variable {P : ∀ {α : Type}, StoreM α → Prop} (hP : F.Passes P)
include hP

theorem Passes.recoverStage {stage : StageName} (hd : F.dirs d)
    (ho : F.opens (.derivation stage.key))
    (hlock : P (openDerivationLock stage.key)) (report : RecoveryReport) :
    P (recoverStage d stage report) := by
  refine hP.bind (hP.of_within (.attempt (.ask trivial))) fun r => ?_
  split
  · exact hP.pure _
  · refine hP.bind (hP.of_within (.ask trivial)) fun mode => hP.ite ?_ (hP.pure _)
    refine hP.bind (hP.of_within (.attempt (within_readStaging _ _))) fun r => ?_
    split
    · exact hP.pure _
    · split
      · next heq =>
        cases heq
        exact hP.bind hlock fun _ => hP.of_within <| .holding ho <|
          .bind (within_tryLock ho) fun _ =>
          .ite (.bind (within_removeTree hd) fun _ => .pure _) (.pure _)
      · exact hP.pure _

variable (ho : ∀ k, F.opens (.derivation k)) (hlock : ∀ k, P (openDerivationLock k))
  (hindex : ∀ k id, P (updateDerivationIndex k id))

theorem Passes.completeFinal (hc : F.chmods (.final id)) (hindex : P (updateDerivationIndex k id))
    (ino mode : Nat) (report : RecoveryReport) : P (completeFinal host id k ino mode report) := by
  refine hP.bind (hP.of_within (.ite ?_ (.pure _))) fun _ => ?_
  · refine .bind (.ask (Or.inr hc)) fun _ => .bind (.syncAll _) fun _ => ?_
    exact .bind (.syncAll _) fun _ => .pure _
  · refine hP.bind (hP.of_within (within_verifyGeneration host id)) fun _ => ?_
    exact hP.bind hindex fun _ => hP.pure _

include ho hlock

theorem Passes.recoverFinal (hc : F.chmods (.final id))
    (hindex : ∀ k, P (updateDerivationIndex k id))
    (report : RecoveryReport) : P (recoverFinal host id report) := by
  refine hP.bind (hP.of_within (.attempt (.ask trivial))) fun r => ?_
  split
  · exact hP.pure _
  · refine hP.bind (hP.of_within (.ask trivial)) fun mode => hP.ite ?_ (hP.pure _)
    refine hP.bind (hP.of_within (.attempt (within_readStaging _ _))) fun r => ?_
    split
    · exact hP.pure _
    · next key =>
      refine hP.bind (hlock key) fun _ => hP.holding (ho key) ?_
      refine hP.bind (hP.of_within (within_tryLock (ho key))) fun _ => hP.ite ?_ (hP.pure _)
      refine hP.bind (hP.of_within (.attempt (within_verify host id _))) fun r => ?_
      split
      · exact hP.pure _
      · exact hP.ite (hP.completeFinal host hc (hindex key) _ _ _) (hP.pure _)

theorem Passes.recoverStaging (hd : ∀ stage, F.dirs (.staging stage)) (l : List DirName)
    (report : RecoveryReport) : P (recoverStaging l report) := by
  induction l generalizing report with
  | nil => exact hP.pure _
  | cons name l ih =>
    cases name with
    | staging stage =>
      exact hP.bind (hP.recoverStage (hd _) (ho _) (hlock _) _) fun report => ih report
    | _ => exact hP.bind (hP.pure _) fun report => ih report

include hindex

theorem Passes.recoverPublications (hd : ∀ stage, F.dirs (.publication stage))
    (hc : ∀ id, F.chmods (.final id))
    (l : List DirName) (report : RecoveryReport) : P (recoverPublications host l report) := by
  induction l generalizing report with
  | nil => exact hP.pure _
  | cons name l ih =>
    cases name with
    | publication stage =>
      exact hP.bind (hP.recoverStage (hd _) (ho _) (hlock _) _) fun report => ih report
    | final id =>
      exact hP.bind (hP.recoverFinal host ho hlock (hc _) (hindex · id) _) fun report => ih report
    | _ => exact hP.bind (hP.pure _) fun report => ih report

end

theorem within_sweepTemps (ht : F.temps) (l : List TempName) (report : RecoveryReport) :
    F.Within (sweepTemps l report) := by
  induction l generalizing report with
  | nil => exact .pure _
  | cons t l ih =>
    refine .bind (.attempt (.ask trivial)) fun r => ?_
    cases r with
    | error e => exact ih _
    | ok u => exact .bind (within_unlinkTemp ht t) fun _ => .bind (.syncAll _) fun _ => ih _

theorem within_recoverAtomicTemps (ht : F.temps) (area : Area) (report : RecoveryReport) :
    F.Within (recoverAtomicTemps area report) :=
  .bind (.ask trivial) fun _ => within_sweepTemps ht _ _

theorem within_recover (ht : F.temps) (hs : ∀ stage, F.dirs (.staging stage))
    (hp : ∀ stage, F.dirs (.publication stage)) (hc : ∀ id, F.chmods (.final id))
    (hn : ∀ k, F.names (.derivation k)) (ho : ∀ k, F.opens (.derivation k))
    (hr : F.opens .roots) (hk : ∀ k, F.keys k) : F.Within (recover host) := by
  have hlock : ∀ k, F.Within (openDerivationLock k) :=
    fun k => within_openDerivationLock ht (hn k) (ho k)
  have hindex : ∀ k id, F.Within (updateDerivationIndex k id) := fun k id =>
    within_updateDerivationIndex ht (hk k) id
  have htemps : ∀ area report, F.Within (recoverAtomicTemps area report) :=
    within_recoverAtomicTemps ht
  refine within_withRoots hr (.bind (.ask trivial) fun _ => ?_)
  refine .bind (passes_within.recoverPublications host ho hlock hindex hp hc _ _) fun _ => ?_
  refine .bind (.ask trivial) fun _ =>
    .bind (passes_within.recoverStaging ho hlock hs _ _) fun _ => ?_
  refine .bind (htemps _ _) fun _ => .bind (htemps _ _) fun _ => .bind (htemps _ _) fun _ => ?_
  exact .bind (htemps _ _) fun _ => .bind (htemps _ _) fun _ => htemps _ _

end

end Footprint

end PocketVm.Store
