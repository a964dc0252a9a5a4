import PocketVm.Store.Program

/-!
# Leases and garbage-collection roots

`acquire_lease`, the aliases and the retained-overlay records. A lease is the shared lock on the
generation's lease file; it outlives the routine that returns it. The digest of an overlay file is
taken over the bytes found at its path.
-/

namespace PocketVm.Store

open Wire Conc

variable (host : Host)

def acquireLeaseInner (id : GenerationId) : StoreM Generation := do
  openLeaseLock id
  closeOnError (.lease id) do
    ask "acquire shared generation lease" (.lock (.lock (.lease id) .shared))
    verifyGeneration host id

def acquireLease (id : GenerationId) : StoreM Generation := acquireLeaseInner host id

/-- A platform asked for leaves open what it does not name. -/
def platformCompatible (requested effective : Platform) : Bool :=
  requested.os = effective.os && requested.architecture = effective.architecture &&
    (requested.variant.all fun v => effective.variant = some v) &&
    (requested.osVersion.all fun v => effective.osVersion = some v) &&
    (requested.osFeatures.isEmpty || requested.osFeatures = effective.osFeatures)

def validateAliasTarget (key : AliasKey) (generation : Generation) : Except StoreError Unit :=
  let spec := generation.manifest.spec
  let name := "generation " ++ generation.manifest.id.display
  if spec.profileId ≠ key.profileId ∨ spec.profileRevision ≠ key.profileRevision then
    .error (.invalidInput "alias target"
      (name ++ " belongs to " ++ spec.profileId.val ++ "@" ++ spec.profileRevision.display ++
        ", not " ++ key.profileId.val ++ "@" ++ key.profileRevision.display))
  else if spec.selectorPolicyId ≠ key.selectorPolicyId then
    .error (.invalidInput "alias target"
      (name ++ " uses selector policy " ++ spec.selectorPolicyId.val ++ ", not " ++
        key.selectorPolicyId.val))
  else if !platformCompatible key.requestedPlatform spec.effectivePlatform then
    .error (.invalidInput "alias target"
      (name ++ " effective platform is incompatible with the requested alias selector"))
  else .ok ()

def readAlias (id : AliasId) : StoreM AliasRecord := do
  match ← sys (.record (.readAlias id)) with
  | .error .enoent => throw .aliasNotFound
  | .error n => throw (.io "open regular file" n.kind)
  | .ok none => throw (.invalidMetadata .alias "alias ID or encoding is not canonical")
  | .ok (some record) =>
    require (record.key.id host.sha256 = record.id)
      (.invalidMetadata .alias "alias ID or encoding is not canonical")
    require (record.id = id) (.invalidMetadata .alias "alias ID does not match filename")
    return record

def checkAliasSlot (key : AliasKey) : StoreM Unit := do
  match ← attempt (readAlias host (key.id host.sha256)) with
  | .ok record =>
    require (record.key = key)
      (.invalidMetadata .alias "alias filename collides with a different canonical key")
  | .error .aliasNotFound => return
  | .error e => throw e

def setAlias (key : AliasKey) (generationId : GenerationId) : StoreM Unit :=
  withRoots .exclusive do
    let generation ← verifyGeneration host generationId
    ofExcept (validateAliasTarget key generation)
    checkAliasSlot host key
    let t ← ask "create regular file" (.temp (.write .aliases))
    match ← attempt (ask "replace atomically" (.record (.replaceAlias t
        ⟨key.id host.sha256, key, generationId⟩))) with
    | .ok () => syncAll "sync alias replacement"
    | .error e =>
      let _ ← attempt (unlinkTemp t)
      throw e

def leaseAlias (key : AliasKey) : StoreM Generation :=
  withRoots .shared do
    let record ← readAlias host (key.id host.sha256)
    require (record.key = key)
      (.invalidMetadata .alias "alias key does not match requested key")
    let generation ← acquireLeaseInner host record.generationId
    -- the lease is a local here, so an incompatible target drops it
    closeOnError (.lease record.generationId) do
      ofExcept (validateAliasTarget key generation)
      return generation

def RetainedCowState.encode : RetainedCowState → UInt8
  | clean => 0
  | crashDirty => 1

/-- The text of an overlay's path below `root`, the absolute path of the store. -/
def CowPath.text (root : String) : CowPath → String
  | inInstance id leaf => root ++ "/instances/" ++ id.display ++ ".d/" ++ leaf
  | elsewhere path => path

def RetainedCow.deriveId (generationId : GenerationId) (cowPath : CowPath) (cowDigest : Digest)
    (cowSize : UInt64) (state : RetainedCowState) : RetainedCowId :=
  .ofDigest (host.sha256 (utf8 "pocket-retained-cow-identity\x00v1\x00" ++ generationId.asBytes ++
    putText (cowPath.text host.root) ++ cowDigest.asBytes ++ putU64 cowSize ++ [state.encode]))

def openOverlay (path : CowPath) : StoreM File :=
  match path with
  | .inInstance id leaf => do
    let ino ← ask "open directory component" (.dir (.open (.instance id)))
    ask "open regular file" (.dir (.read (.instance id) ino leaf))
  | .elsewhere path => ask "open regular file" (.dir (.readOutside path))

def hashOverlay (path : CowPath) : StoreM (Digest × UInt64) := do
  let f ← openOverlay path
  match ← ofExcept (validateFile f PRIVATE_FILE_MODE) with
  | .data bytes => return (host.sha256 bytes, UInt64.ofNat bytes.length)
  | _ => throw .unexpectedEntry

def readRetained (id : RetainedCowId) : StoreM RetainedCow := do
  match ← sys (.record (.readRetained id)) with
  | .error .enoent => throw .retainedCowNotFound
  | .error n => throw (.io "open regular file" n.kind)
  | .ok none => throw (.invalidMetadata .retainedCow "record is not in canonical encoding")
  | .ok (some r) =>
    require (RetainedCow.deriveId host r.generationId r.cowPath r.cowDigest r.cowSize r.state = r.id)
      (.invalidMetadata .retainedCow "retained-COW ID does not match canonical record")
    require (r.id = id)
      (.invalidMetadata .retainedCow "retained-COW ID does not match filename")
    return r

def renameRetained (t : TempName) (r : RetainedCow) : StoreM Unit :=
  renameNoReplace (sys (.record (.linkRetained t r)))
    (do match ← sys (.record (.readRetained r.id)) with
      | .ok _ => return true
      | .error .enoent => return false
      | .error n => throw (.io "publish without replacement" n.kind))
    (ask "publish without replacement" (.record (.replaceRetained t r)))

/-- `register_retained_cow`; the caller holds a lease on `generationId`. -/
def registerRetainedCow (generationId : GenerationId) (path : CowPath) (expectedDigest : Digest)
    (state : RetainedCowState) : StoreM RetainedCow := do
  let (digest, size) ← hashOverlay host path
  require (digest = expectedDigest) (.digestMismatch expectedDigest digest)
  let id := RetainedCow.deriveId host generationId path digest size state
  let retained : RetainedCow := ⟨id, generationId, path, digest, size, state⟩
  withRoots .exclusive do
    let _ ← verifyGeneration host generationId
    match ← attempt (readRetained host id) with
    | .ok existing =>
      require (existing = retained)
        (.invalidMetadata .retainedCow "retained-COW ID collides with a different record")
      return existing
    | .error .retainedCowNotFound =>
      let t ← ask "create regular file" (.temp (.write .retained))
      match ← attempt (renameRetained t retained) with
      | .ok () =>
        syncAll "sync retained-COW publication"
        return retained
      | .error (.io _ .alreadyExists) =>
        let _ ← attempt (unlinkTemp t)
        let existing ← readRetained host id
        require (existing = retained)
          (.invalidMetadata .retainedCow "concurrent retained-COW record differs")
        return existing
      | .error e =>
        let _ ← attempt (unlinkTemp t)
        throw e
    | .error e => throw e

def leaseRetainedCow (id : RetainedCowId) : StoreM (RetainedCow × Generation) :=
  withRoots .shared do
    let retained ← readRetained host id
    let (digest, size) ← hashOverlay host retained.cowPath
    require (size = retained.cowSize) (.sizeMismatch retained.cowSize size)
    require (digest = retained.cowDigest) (.digestMismatch retained.cowDigest digest)
    let generation ← acquireLeaseInner host retained.generationId
    return (retained, generation)

def removeRetainedCow (id : RetainedCowId) : StoreM RetainedCow :=
  withRoots .exclusive do
    let retained ← readRetained host id
    ask "unlink file" (.record (.unlinkRetained id))
    syncAll "sync retained-COW removal"
    return retained

/-! ### Garbage collection and recovery

Both hold the roots lock exclusively from start to end. -/

def unsafeOnError {α : Type} (reason : String) (m : StoreM α) : StoreM α := do
  match ← attempt m with
  | .ok a => return a
  | .error _ => throw (.unsafeGarbageCollection reason)

def aliasRoots : List AliasId → StoreM (List GenerationId)
  | [] => return []
  | id :: rest => do
    let record ← unsafeOnError "unreadable alias" (readAlias host id)
    let generation ← unsafeOnError "alias has an invalid target"
      (verifyGeneration host record.generationId)
    unsafeOnError "alias has an incompatible target"
      (ofExcept (validateAliasTarget record.key generation))
    let roots ← aliasRoots rest
    return record.generationId :: roots

def retainedRoots : List RetainedCowId → StoreM (List GenerationId)
  | [] => return []
  | id :: rest => do
    let retained ← unsafeOnError "unreadable retained COW" (readRetained host id)
    let _ ← unsafeOnError "retained COW has an invalid target"
      (verifyGeneration host retained.generationId)
    let roots ← retainedRoots rest
    return retained.generationId :: roots

def collectGcRoots : StoreM (List GenerationId) := do
  let (aliases, strays) ← ask "read directory" (.record .listAliases)
  require (strays = []) (.unsafeGarbageCollection "unknown alias entry")
  let roots ← aliasRoots host aliases
  let (retained, strays) ← ask "read directory" (.record .listRetained)
  require (strays = []) (.unsafeGarbageCollection "unknown retained-COW entry")
  let others ← retainedRoots host retained
  return roots ++ others

structure GarbageCollectionReport where
  collected : List GenerationId
  rooted : List GenerationId
  leasedOrBusy : List GenerationId
  corruptUnrooted : List GenerationId
  publicationInFlight : List StageName
  discardedDerivationIndex : List DerivationKey
  deriving DecidableEq

/-- The identifiers to look at and the publications in flight; any other entry is refused. -/
def candidates : List DirName → Except StoreError (List GenerationId × List StageName)
  | [] => .ok ([], [])
  | name :: rest =>
    match name with
    | .final id => (candidates rest).map fun (ids, temps) => (id :: ids, temps)
    | .publication stage => (candidates rest).map fun (ids, temps) => (ids, stage :: temps)
    | _ => .error (.unsafeGarbageCollection "unknown generation entry")

inductive Fate where
  | collected (discarded : Option DerivationKey)
  | leasedOrBusy
  | corrupt

/-- The deletion itself: out of the lookup, then the tree, then the lease file, whose lock is
dropped before the file is unlinked. -/
def deleteGeneration (id : GenerationId) (key : DerivationKey) : StoreM Fate := do
  let _ ← verifyGeneration host id
  let discarded ← removeFromDerivationIndex key id
  removeTree (.final id)
  close (.lease id)
  match ← attempt (ask "unlink file" (.lock (.unlink (.lease id)))) with
  | .ok () | .error (.io _ .notFound) => return .collected (if discarded then some key else none)
  | .error e => throw e

def collectOne (id : GenerationId) : StoreM Fate := do
  openLeaseLock id
  -- the guard of the lease lock; closing it again after `deleteGeneration` changes nothing
  holding (.lease id) do
    if ← tryLock (.lease id) then
      match ← attempt (verifyGeneration host id) with
      | .error _ => return .corrupt
      | .ok generation =>
        openDerivationLock generation.manifest.derivationKey
        holding (.derivation generation.manifest.derivationKey) do
          if ← tryLock (.derivation generation.manifest.derivationKey) then
            deleteGeneration host id generation.manifest.derivationKey
          else return .leasedOrBusy
    else return .leasedOrBusy

def collectAll (roots : List GenerationId) :
    List GenerationId → GarbageCollectionReport → StoreM GarbageCollectionReport
  | [], report => return report
  | id :: rest, report => do
    if roots.contains id then
      collectAll roots rest { report with rooted := report.rooted ++ [id] }
    else
      match ← collectOne host id with
      | .collected discarded =>
        collectAll roots rest { report with
          collected := report.collected ++ [id]
          discardedDerivationIndex := report.discardedDerivationIndex ++ discarded.toList }
      | .leasedOrBusy =>
        collectAll roots rest { report with leasedOrBusy := report.leasedOrBusy ++ [id] }
      | .corrupt =>
        collectAll roots rest { report with corruptUnrooted := report.corruptUnrooted ++ [id] }

def garbageCollect : StoreM GarbageCollectionReport :=
  withRoots .exclusive do
    let roots ← collectGcRoots host
    let names ← ask "read directory" (.dir .listGenerations)
    let (ids, temps) ← ofExcept (candidates names)
    let report ← collectAll host roots ids ⟨[], [], [], [], temps, []⟩
    syncAll "sync generation directory after GC"
    return report

structure RecoveryReport where
  removedStaging : List DirName
  busyStaging : List DirName
  completedPublications : List GenerationId
  busyPublications : List GenerationId
  removedTemporaryRecords : List TempName
  blockedEntries : List (DirName ⊕ TempName)
  deriving DecidableEq

def RecoveryReport.block (report : RecoveryReport) (d : DirName) : RecoveryReport :=
  { report with blockedEntries := report.blockedEntries ++ [.inl d] }

/-- An abandoned transaction directory: its mode and its staging record must be in order and match
its name, and its derivation lock free. -/
def recoverStage (d : DirName) (stage : StageName) (report : RecoveryReport) :
    StoreM RecoveryReport := do
  match ← attempt (ask "open directory" (.dir (.open d))) with
  | .error _ => return report.block d
  | .ok ino =>
    let mode ← ask "stat recovery staging" (.dir (.stat d ino))
    if mode = PRIVATE_DIR_MODE ∨ mode = IMMUTABLE_DIR_MODE then
      match ← attempt (readStaging d ino) with
      | .error _ => return report.block d
      | .ok key =>
        if key = stage.key then do
          openDerivationLock key
          holding (.derivation key) do
            if ← tryLock (.derivation key) then
              removeTree d
              return { report with removedStaging := report.removedStaging ++ [d] }
            else return { report with busyStaging := report.busyStaging ++ [d] }
        else return report.block d
    else return report.block d

def sealRecovered (id : GenerationId) (ino mode : Nat) (report : RecoveryReport) :
    StoreM RecoveryReport := do
  if mode = PRIVATE_DIR_MODE then
    ask "set permissions" (.dir (.chmod (.final id) ino IMMUTABLE_DIR_MODE))
    syncAll "sync recovered generation permissions"
    syncAll "sync recovered generation publication"
    return { report with completedPublications := report.completedPublications ++ [id] }
  else return report

def completeFinal (id : GenerationId) (key : DerivationKey) (ino mode : Nat)
    (report : RecoveryReport) : StoreM RecoveryReport := do
  let report ← sealRecovered id ino mode report
  let _ ← verifyGeneration host id
  updateDerivationIndex key id
  return report

/-- A directory under a final name: complete it if it verifies, and index it. -/
def recoverFinal (id : GenerationId) (report : RecoveryReport) : StoreM RecoveryReport := do
  match ← attempt (ask "open directory" (.dir (.open (.final id)))) with
  | .error _ => return report.block (.final id)
  | .ok ino =>
    let mode ← ask "stat interrupted publication" (.dir (.stat (.final id) ino))
    if mode = PRIVATE_DIR_MODE ∨ mode = IMMUTABLE_DIR_MODE then
      match ← attempt (readStaging (.final id) ino) with
      | .error _ => return report.block (.final id)
      | .ok key =>
        openDerivationLock key
        holding (.derivation key) do
          if ← tryLock (.derivation key) then
            match ← attempt (verifyGenerationWithDirectoryMode host id mode) with
            | .error _ => return report.block (.final id)
            | .ok generation =>
              if generation.manifest.derivationKey = key then
                completeFinal host id key ino mode report
              else return report.block (.final id)
          else return { report with busyPublications := report.busyPublications ++ [id] }
    else return report.block (.final id)

def recoverPublications : List DirName → RecoveryReport → StoreM RecoveryReport
  | [], report => return report
  | name :: rest, report => do
    let report ← match name with
      | .publication stage => recoverStage name stage report
      | .final id => recoverFinal host id report
      | _ => pure (report.block name)
    recoverPublications rest report

def recoverStaging : List DirName → RecoveryReport → StoreM RecoveryReport
  | [], report => return report
  | name :: rest, report => do
    let report ← match name with
      | .staging stage => recoverStage name stage report
      | _ => pure (report.block name)
    recoverStaging rest report

/-- A name that cannot be opened is passed over. A record that was opened is one of the store's own: the
checks of its metadata pass. -/
def sweepTemps : List TempName → RecoveryReport → StoreM RecoveryReport
  | [], report => return report
  | t :: rest, report => do
    match ← attempt (ask "open regular file" (.temp (.open t))) with
    | .error _ =>
      sweepTemps rest { report with blockedEntries := report.blockedEntries ++ [.inr t] }
    | .ok _ =>
      unlinkTemp t
      syncAll "sync temporary-record recovery"
      sweepTemps rest
        { report with removedTemporaryRecords := report.removedTemporaryRecords ++ [t] }

def recoverAtomicTemps (area : Area) (report : RecoveryReport) : StoreM RecoveryReport := do
  let temps ← ask "read directory" (.temp (.list area))
  sweepTemps temps report

def recover : StoreM RecoveryReport :=
  withRoots .exclusive do
    let names ← ask "read directory" (.dir .listGenerations)
    let report ← recoverPublications host names ⟨[], [], [], [], [], []⟩
    let stages ← ask "read directory" (.dir .listStaging)
    let report ← recoverStaging stages report
    let report ← recoverAtomicTemps .aliases report
    let report ← recoverAtomicTemps .derivations report
    let report ← recoverAtomicTemps .retained report
    let report ← recoverAtomicTemps .root report
    let report ← recoverAtomicTemps .locks report
    recoverAtomicTemps .leases report

end PocketVm.Store

/-! ### Kept runs

The instance records, and what `pocket-runtime` and the command line do with them. A guest is the
bytes it leaves in its overlay; the checks and the launch around it are steps that may fail. -/

namespace PocketVm.Store

open Wire Conc

variable (host : Host)

def MAX_INSTANCE_NAME_BYTES : Nat := 64
def MAX_INSTANCE_COMMAND_BYTES : Nat := 4096
def MAX_INSTANCE_ARGV : Nat := 1024

def ROOT_COW : String := "root.cow"

def Instance.deriveId (name : String) : InstanceId :=
  .ofDigest (host.sha256 (utf8 "pocket-instance-identity\x00v1\x00" ++ putText name))

def STORE_SCHEMA_VERSION : Nat := 3
def MAX_METADATA_BYTES : Nat := 1024 * 1024
def INSTANCE_MAGIC : Bytes := utf8 "PKVMINS2"

def startRecord (magic : Bytes) : Bytes := magic ++ putU16 STORE_SCHEMA_VERSION

def finishRecord (sha256 : Bytes → Digest) (bytes : Bytes) :
    Bytes := bytes ++ (sha256 bytes).asBytes

def InstanceOutcome.encode : InstanceOutcome → UInt8 × Nat
  | unknown => (0, 0)
  | exited code => (1, code.toNat)
  | signalled signal => (2, signal.toNat)

@[irreducible] def Instance.encode (i : Instance) : Bytes :=
  finishRecord host.sha256 (startRecord INSTANCE_MAGIC ++ i.id.asBytes ++ putText i.name ++
    i.generationId.asBytes ++ i.retainedId.asBytes ++ putText i.imageReference ++
      counted 2 putText i.argv ++ putText i.command ++
    putU64 i.createdUnix ++ putU64 i.finishedUnix ++ [i.outcome.encode.1] ++
      putU16 i.outcome.encode.2)

/-- `write_new_synced` of an instance's record. -/
def writeInstance (i : Instance) : StoreM TempName := do
  ofExcept (Checked.stop ((i.encode host).length > MAX_METADATA_BYTES)
    (.metadataTooLarge .store MAX_METADATA_BYTES))
  ask "create regular file" (.temp (.write .instances))

def validateInstanceName (name : String) : Except StoreError Unit :=
  if (utf8 name).length = 0 ∨ (utf8 name).length > MAX_INSTANCE_NAME_BYTES then
    .error (.invalidMetadata .instance "name must be 1 to 64 bytes")
  else if ¬ ((utf8 name).all fun b => isAsciiAlphanumeric b || [45, 95, 46].contains b) ∨
      (utf8 name).head? = some 46 then
    .error (.invalidMetadata .instance
      "name may use only letters, digits, '-', '_' and '.', and may not start with '.'")
  else .ok ()

def createInstanceDirectory (name : String) : StoreM InstanceId := do
  ofExcept (validateInstanceName name)
  let id := Instance.deriveId host name
  match ← sys (.dir (.make (.instance id))) with
  | .ok _ =>
    syncAll "sync parent directory"
    return id
  | .error .eexist =>
    throw (.invalidMetadata .instance ("an instance named " ++ name ++ " already exists"))
  | .error n => throw (.io "create private directory" n.kind)

def instanceDirectory (name : String) : StoreM InstanceId := do
  ofExcept (validateInstanceName name)
  let id := Instance.deriveId host name
  -- `Path::is_dir` answers false to an error as well
  match ← sys (.dir (.exists (.instance id))) with
  | .ok true => return id
  | _ => throw .instanceNotFound

def readInstance (id : InstanceId) : StoreM Instance := do
  match ← sys (.record (.readInstance id)) with
  | .error .enoent => throw .instanceNotFound
  | .error n => throw (.io "open regular file" n.kind)
  | .ok none => throw (.invalidMetadata .instance "instance record is not canonical")
  | .ok (some i) =>
    require (Instance.deriveId host i.name = i.id)
      (.invalidMetadata .instance "instance ID does not match its name")
    return i

/-- No lock is taken: the record is looked for, then the tree is removed. -/
def discardInstanceDirectory (name : String) : StoreM Unit := do
  ofExcept (validateInstanceName name)
  let id := Instance.deriveId host name
  match ← attempt (readInstance host id) with
  | .error .instanceNotFound => removeTree (.instance id)
  | .ok _ => throw (.invalidMetadata .instance
      (name ++ " is a published instance; remove it instead of discarding it"))
  | .error e => throw e

def renameInstance (t : TempName) (i : Instance) : StoreM Unit :=
  renameNoReplace (sys (.record (.linkInstance t i)))
    (do match ← sys (.record (.readInstance i.id)) with
      | .ok _ => return true
      | .error .enoent => return false
      | .error n => throw (.io "publish without replacement" n.kind))
    (ask "publish without replacement" (.record (.replaceInstance t i.id i)))

def createInstance (name : String) (generationId : GenerationId) (retainedId : RetainedCowId)
    (retain : RetainRequest) (created finished : UInt64) (outcome : InstanceOutcome) :
    StoreM Instance := do
  ofExcept (validateInstanceName name)
  require (retain.argv.length ≤ MAX_INSTANCE_ARGV)
    (.invalidMetadata .instance "recorded argv exceeds 1024 arguments")
  require ((utf8 retain.imageReference).length ≤ MAX_INSTANCE_COMMAND_BYTES ∧
      (utf8 retain.command).length ≤ MAX_INSTANCE_COMMAND_BYTES)
    (.invalidMetadata .instance "recorded reference or command is too long")
  let i : Instance := ⟨Instance.deriveId host name, name, generationId, retainedId,
    retain.imageReference, retain.argv, retain.command, created, finished, outcome⟩
  withRoots .exclusive do
    let t ← writeInstance host i
    match ← attempt (renameInstance t i) with
    | .ok () =>
      syncAll "sync instance publication"
      return i
    | .error (.io _ .alreadyExists) =>
      let _ ← attempt (unlinkTemp t)
      throw (.invalidMetadata .instance ("an instance named " ++ name ++ " already exists"))
    | .error e =>
      let _ ← attempt (unlinkTemp t)
      throw e

def updateInstance (name : String) (retainedId : RetainedCowId) (finished : UInt64)
    (outcome : InstanceOutcome) : StoreM Instance := do
  ofExcept (validateInstanceName name)
  withRoots .exclusive do
    let previous ← readInstance host (Instance.deriveId host name)
    let updated := { previous with retainedId, finishedUnix := finished, outcome }
    let t ← writeInstance host updated
    ask "replace atomically" (.record (.replaceInstance t (Instance.deriveId host name) updated))
    syncAll "sync instance update"
    return updated

def readInstanceByName (name : String) : StoreM Instance := do
  ofExcept (validateInstanceName name)
  withRoots .shared (readInstance host (Instance.deriveId host name))

/-- `remove_retained_cow`, content with a root that is already gone. -/
def dropRoot (id : RetainedCowId) : StoreM Unit := do
  match ← attempt (removeRetainedCow host id) with
  | .ok _ | .error .retainedCowNotFound => return
  | .error e => throw e

/-- The retained root goes first, under its own lock; then the record and the directory. -/
def removeInstance (name : String) : StoreM Instance := do
  let i ← readInstanceByName host name
  dropRoot host i.retainedId
  withRoots .exclusive do
    ask "unlink file" (.record (.unlinkInstance (Instance.deriveId host name)))
    let _ ← attempt (removeTree (.instance (Instance.deriveId host name)))
    syncAll "sync instance removal"
    return i

inductive RetainedRelease where
  | heldBy (name : String)
  | absent
  | released (retained : RetainedCow)

def readInstances : List InstanceId → StoreM (List Instance)
  | [] => return []
  | id :: rest => do
    let i ← readInstance host id
    return i :: (← readInstances rest)

def readInstancesLocked : StoreM (List Instance) := do
  let ids ← ask "read directory" (.record .listInstances)
  readInstances host ids

/-- Only ever a directory directly under `instances/`; a failure is ignored. -/
def removeOverlay : CowPath → StoreM Unit
  | .inInstance owner _ => do
    let _ ← attempt (removeTree (.instance owner))
  | .elsewhere _ => return

/-- Whether some instance names the root is asked of the records; what is removed is the directory
the root's path lies in. -/
def releaseOrphanedRetainedCow (id : RetainedCowId) : StoreM RetainedRelease :=
  withRoots .exclusive do
    let instances ← readInstancesLocked host
    match instances.find? fun i => i.retainedId = id with
    | some i => return .heldBy i.name
    | none =>
      match ← attempt (readRetained host id) with
      | .error .retainedCowNotFound => return .absent
      | .error e => throw e
      | .ok retained =>
        ask "unlink file" (.record (.unlinkRetained id))
        syncAll "sync retained-COW removal"
        removeOverlay retained.cowPath
        return .released retained

/-- The resumed half of `retain_instance`: the record moves to the new root, then the old root is
dropped. -/
def rewriteInstance (name : String) (root : RetainedCowId) (finished : UInt64)
    (outcome : InstanceOutcome) : StoreM Instance := do
  let previous ← readInstanceByName host name
  let updated ← updateInstance host name root finished outcome
  if previous.retainedId = root then return updated
  else
    dropRoot host previous.retainedId
    return updated

/-- `retain_instance`: lease, register the overlay as a root, then write the record. -/
def retainInstance (output : RunOutput) (retain : RetainRequest) (created finished : UInt64) :
    StoreM Instance := do
  match output.cowPath with
  | none => throw (.invalidInput "retain" "this run did not keep its overlay")
  | some path =>
    let f ← openOverlay path
    match f.content with
    | .data bytes =>
      let _ ← acquireLease host output.generationId
      holding (.lease output.generationId) do
        let retained ← registerRetainedCow host output.generationId path (host.sha256 bytes) .clean
        if retain.resume then
          rewriteInstance host retain.name retained.id finished output.outcome
        else
          createInstance host retain.name output.generationId retained.id retain created finished
            output.outcome
    | _ => throw (.io "read retained COW" .other)

/-- What the guest leaves: the overlay exists, then holds its last bytes. -/
def runGuest (id : InstanceId) (fresh : Bool) (overlay : Bytes) : StoreM Unit := do
  let ino ← ask "open directory component" (.dir (.open (.instance id)))
  if fresh then
    ask "create overlay" (.dir (.create (.instance id) ino ROOT_COW))
    ask "write overlay" (.dir (.write (.instance id) ino ROOT_COW (.data overlay)))
  else ask "write overlay" (.dir (.write (.instance id) ino ROOT_COW (.data overlay)))

def checkOverlay (resume : Bool) (id : InstanceId) : StoreM Unit := do
  match ← attempt (openOverlay (.inInstance id ROOT_COW)) with
  | .ok _ =>
    require (resume = true)
      (.invalidInput "root.cow" "fresh COW leaf unexpectedly exists before UML launch")
  | .error _ =>
    require (resume = false)
      (.invalidInput "root.cow" "the overlay this run was told to resume no longer exists")

/-- The directory of the run: a resumed one must be there, a fresh one is reserved. -/
def runDirectory (retain : RetainRequest) : StoreM InstanceId :=
  if retain.resume then instanceDirectory host retain.name
  else createInstanceDirectory host retain.name

/-- `start_with_lease` up to a guest that runs: the name is reserved on the way. -/
def startWithLease (retain : RetainRequest) (overlay : Bytes) : StoreM InstanceId := do
  ask "prepare run" (.host .prepare)
  let id ← runDirectory host retain
  checkOverlay retain.resume id
  ask "launch" (.host .launch)
  runGuest id (!retain.resume) overlay
  return id

/-- A kept run that fails releases the directory of its name. -/
def discardOnError {α : Type} (name : String) (m : StoreM α) : StoreM α := do
  match ← attempt m with
  | .ok a => return a
  | .error e =>
    let _ ← attempt (discardInstanceDirectory host name)
    throw e

/-- `execute_run` with a retain name. -/
def executeRun (input : RunInput) : StoreM Instance := do
  let name := input.retain.name
  let _ ← acquireLease host input.generationId
  let id ← holding (.lease input.generationId) do
    ofExcept (validateInstanceName name)
    let id ← discardOnError host name (startWithLease host input.retain input.overlay)
    -- a failure here returns without the handler
    ask "announce consoles" (.host .announceConsoles)
    discardOnError host name (ask "wait" (.host .wait))
    return id
  discardOnError host name (retainInstance host
    ⟨input.generationId, some (.inInstance id ROOT_COW), input.outcome⟩ input.retain
    input.startedUnix input.finishedUnix)

/-- `execute_start`. The source takes a second lease on the generation and keeps the first until it
returns. A process has one descriptor of a lock file here, so the one lease ends with the wait:
others may do more meanwhile, not less. -/
def executeStart (input : StartInput) : StoreM Instance := do
  let i ← readInstanceByName host input.name
  require (i.argv ≠ []) (.invalidInput "start" "this instance recorded no command to replay")
  let retain : RetainRequest := ⟨i.name, i.imageReference, i.argv, i.command, true⟩
  let (retained, _) ← leaseRetainedCow host i.retainedId
  let id ← holding (.lease retained.generationId) do
    let id ← startWithLease host retain input.overlay
    ask "announce consoles" (.host .announceConsoles)
    ask "wait" (.host .wait)
    return id
  retainInstance host ⟨i.generationId, some (.inInstance id ROOT_COW), input.outcome⟩ retain
    input.startedUnix input.finishedUnix

end PocketVm.Store
