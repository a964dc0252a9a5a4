import PocketVm.Store.Kernel

/-!
# Store routines: locks, verification, the derivation lookup

The routines of `store.rs` and `fs.rs` that the operations are made of, as programs over the
requests of `Kernel`. Reopening the store root to compare its identity is left out: it reads
nothing that these processes change.
-/

namespace PocketVm.Store

open Wire Conc

abbrev StoreM := ExceptT StoreError (Prog Req.Ans)

def sys (e : Req) : StoreM (Except Errno e.Out) := ExceptT.lift (Prog.request e)

/-- One request; an error number ends the routine as a failure of `operation`. -/
def ask (operation : String) (e : Req) : StoreM e.Out := do
  match ← sys e with
  | .ok a => return a
  | .error n => throw (.io operation n.kind)

def attempt {α : Type} (m : StoreM α) : StoreM (Except StoreError α) := ExceptT.lift m.run

def ofExcept {α : Type} (r : Except StoreError α) : StoreM α := ExceptT.mk (pure r)

def require (c : Prop) [Decidable c] (e : StoreError) : StoreM Unit :=
  if c then pure () else throw e

def syncAll (operation : String) : StoreM Unit := ask operation (.host .sync)

def close (n : LockName) : StoreM Unit := do
  let _ ← sys (.lock (.close n))

/-- A lock guard: `n` is closed when `body` ends, however it ends. -/
def holding {α : Type} (n : LockName) (body : StoreM α) : StoreM α := do
  let r ← attempt body
  close n
  ofExcept r

/-- A lock guard that moves into the result: `n` is closed only when `body` fails. -/
def closeOnError {α : Type} (n : LockName) (body : StoreM α) : StoreM α := do
  match ← attempt body with
  | .ok a => return a
  | .error e =>
    close n
    throw e

/-- `rename_noreplace_at`: where the file system lacks the flag, a check and then a rename. -/
def renameNoReplace (link : StoreM (Except Errno Unit)) (present : StoreM Bool)
    (rename : StoreM Unit) : StoreM Unit := do
  match ← link with
  | .ok () => return
  | .error .einval =>
    let found ← present
    require (found = false) (.io "publish without replacement" .alreadyExists)
    rename
  | .error n => throw (.io "publish without replacement" n.kind)

def renameLock (t : TempName) (n : LockName) : StoreM Unit :=
  renameNoReplace (sys (.lock (.link t n)))
    (ask "publish without replacement" (.lock (.exists n)))
    (ask "publish without replacement" (.lock (.replace t n)))

def unlinkTemp (t : TempName) : StoreM Unit := ask "unlink file" (.temp (.unlink t))

def publishRecord (n : LockName) : Nat → StoreM Unit
  | 0 => return
  | attempts + 1 => do
    let t ← ask "create regular file" (.temp (.write n.area))
    match ← attempt (renameLock t n) with
    | .ok () => syncAll "sync fixed record publication"
    | .error (.io _ .alreadyExists) =>
      let _ ← attempt (unlinkTemp t)
    | .error e =>
      -- `recover` may have swept the temporary name away
      if (e matches .io _ .notFound) ∧ attempts ≠ 0 then publishRecord n attempts
      else do
        let _ ← attempt (unlinkTemp t)
        throw e

def PUBLICATION_ATTEMPTS : Nat := 4

def ensureRecord (n : LockName) : StoreM Unit := do
  if ← ask "open regular file" (.lock (.exists n)) then return
  else
    publishRecord n PUBLICATION_ATTEMPTS
    let found ← ask "open regular file" (.lock (.exists n))
    require (found = true) (.io "open regular file" .notFound)

def openFixedLock (n : LockName) : StoreM Unit := ask "open regular file" (.lock (.open n))

def openDerivationLock (key : DerivationKey) : StoreM Unit := do
  ensureRecord (.derivation key)
  openFixedLock (.derivation key)

def openLeaseLock (id : GenerationId) : StoreM Unit := do
  ensureRecord (.lease id)
  openFixedLock (.lease id)

/-- `lock_roots_exclusive` and `lock_roots_shared`, held while `body` runs. -/
def withRoots {α : Type} (mode : LockMode) (body : StoreM α) : StoreM α := do
  openFixedLock .roots
  holding .roots do
    ask "acquire GC-root lock" (.lock (.lock .roots mode))
    body

def tryLock (n : LockName) : StoreM Bool := ask "lock" (.lock (.tryLock n))

/-- A verified generation, with the contents its open base descriptor reads. -/
structure Generation where
  manifest : GenerationManifest
  base : Bytes
  deriving DecidableEq

section
variable (host : Host)

/-- A decoding failure, told as damage to the record it was found in. -/
def contextualize (kind : MetadataKind) : StoreError → StoreError
  | .metadataTooLarge _ maximum => .metadataTooLarge kind maximum
  | .invalidMetadata _ reason => .invalidMetadata kind reason
  | .invalidInput field reason => .invalidMetadata kind ("invalid " ++ field ++ ": " ++ reason)
  | e => e

def decodeManifest (content : Content) : Except StoreError GenerationManifest :=
  match content with
  | .manifest m =>
    if m.spec.derivationKey host.sha256 ≠ m.derivationKey then
      .error (.invalidMetadata .generation "derivation key does not match canonical immutable inputs")
    else
      match GenerationId.derive host.sha256 m.derivationKey m.baseDigest m.baseSize m.sidecars with
      | .error e => .error (contextualize .generation e)
      | .ok id =>
        if id ≠ m.id then
          .error
            (.invalidMetadata .generation "generation ID does not match completed immutable outputs")
        else .ok m
  | _ => .error (.invalidMetadata .generation "record is truncated")

def decodeStaging (content : Content) : Except StoreError DerivationKey :=
  match content with
  | .stagingRecord key => .ok key
  | _ => .error (.invalidMetadata .staging "record is truncated")

def validateFile (f : File) (mode : Nat) : Except StoreError Content :=
  if f.mode ≠ mode then .error .unexpectedEntry else .ok f.content

def checkBytes (content : Content) (size : UInt64) (digest : Digest) : Except StoreError Bytes :=
  match content with
  | .data bytes =>
    if UInt64.ofNat bytes.length ≠ size then
      .error (.sizeMismatch size (UInt64.ofNat bytes.length))
    else if host.sha256 bytes ≠ digest then .error (.digestMismatch digest (host.sha256 bytes))
    else .ok bytes
  | _ => .error .unexpectedEntry

def readFile (d : DirName) (ino : Nat) (file : String) (mode : Nat) : StoreM Content := do
  let f ← ask "open regular file" (.dir (.read d ino file))
  ofExcept (validateFile f mode)

def readStaging (d : DirName) (ino : Nat) : StoreM DerivationKey := do
  let content ← readFile d ino STAGING_METADATA IMMUTABLE_FILE_MODE
  ofExcept (decodeStaging content)

def readChecked (d : DirName) (ino : Nat) (file : String) (size : UInt64) (digest : Digest) :
    StoreM Bytes := do
  let content ← readFile d ino file IMMUTABLE_FILE_MODE
  ofExcept (checkBytes host content size digest)

def checkSidecars (d : DirName) (ino : Nat) : List ImmutableSidecar → StoreM Unit
  | [] => return
  | sidecar :: rest => do
    let _ ← readChecked host d ino sidecar.name sidecar.size sidecar.digest
    checkSidecars d ino rest

/-- The names a complete generation directory holds, in the order they are listed. -/
def expectedNames (m : GenerationManifest) : List String :=
  ([BASE_IMAGE, GENERATION_METADATA, STAGING_METADATA] ++
    m.sidecars.map ImmutableSidecar.name).insertionSort (· ≤ ·)

/-- `open_dir_at` in `generations/`, with a missing directory told apart. -/
def openGeneration (id : GenerationId) : StoreM Nat := do
  match ← sys (.dir (.open (.final id))) with
  | .ok ino => return ino
  | .error .enoent => throw (.generationNotFound id)
  | .error n => throw (.io "open directory" n.kind)

def verifyGenerationWithDirectoryMode (id : GenerationId) (mode : Nat) : StoreM Generation := do
  let ino ← openGeneration id
  let observed ← ask "stat directory" (.dir (.stat (.final id) ino))
  require (observed = mode) .unexpectedEntry
  let entries ← ask "read directory" (.dir (.list (.final id) ino))
  let content ← readFile (.final id) ino GENERATION_METADATA IMMUTABLE_FILE_MODE
  let manifest ← ofExcept (decodeManifest host content)
  require (manifest.id = id)
    (.invalidMetadata .generation "manifest ID does not match generation directory")
  require (entries = expectedNames manifest) .unexpectedEntry
  let key ← readStaging (.final id) ino
  require (key = manifest.derivationKey)
    (.invalidMetadata .staging "staging derivation key does not match generation manifest")
  let base ← readChecked host (.final id) ino BASE_IMAGE manifest.baseSize manifest.baseDigest
  checkSidecars host (.final id) ino manifest.sidecars
  return ⟨manifest, base⟩

def verifyGeneration (id : GenerationId) : StoreM Generation :=
  verifyGenerationWithDirectoryMode host id IMMUTABLE_DIR_MODE

def unlinkAll (d : DirName) (ino : Nat) : List String → StoreM Unit
  | [] => return
  | file :: rest => do
    ask "unlink file" (.dir (.unlink d ino file))
    syncAll "sync removal parent"
    unlinkAll d ino rest

/-- `remove_tree_at` on a directory of plain files: private first, then entry by entry. -/
def removeTree (d : DirName) : StoreM Unit := do
  let ino ← ask "open directory" (.dir (.open d))
  ask "set permissions" (.dir (.chmod d ino PRIVATE_DIR_MODE))
  let names ← ask "read directory" (.dir (.list d ino))
  unlinkAll d ino names
  syncAll "sync emptied directory"
  ask "remove directory" (.dir (.remove d))
  syncAll "sync removal parent"

end

namespace DerivationRecord

def ids (r : DerivationRecord) : List GenerationId := r.winner :: r.alternatives

def insertSorted (id : GenerationId) : List GenerationId → List GenerationId
  | [] => [id]
  | a :: rest => if id.le a then id :: a :: rest else a :: insertSorted id rest

def insert (r : DerivationRecord) (id : GenerationId) : DerivationRecord :=
  if id = r.winner ∨ id ∈ r.alternatives then r
  else { r with alternatives := insertSorted id r.alternatives }

def remove (r : DerivationRecord) (id : GenerationId) : Option DerivationRecord :=
  if id = r.winner then
    match r.alternatives with
    | [] => none
    | a :: rest => some { r with winner := a, alternatives := rest }
  else some { r with alternatives := r.alternatives.erase id }

def validate (r : DerivationRecord) : Except StoreError Unit :=
  if r.alternatives.length ≥ 65535 then
    .error (.invalidMetadata .derivation "too many alternative generation IDs")
  else if r.winner ∈ r.alternatives ∨ ¬ r.alternatives.Pairwise fun i j => ¬ j.le i then
    .error (.invalidMetadata .derivation "alternative generation IDs are not canonical")
  else .ok ()

end DerivationRecord

def readDerivation (key : DerivationKey) : StoreM DerivationRecord := do
  match ← sys (.record (.readDerivation key)) with
  | .error .enoent => throw .derivationNotFound
  | .error n => throw (.io "open regular file" n.kind)
  | .ok none => throw (.invalidMetadata .derivation "record is not in canonical encoding")
  | .ok (some record) =>
    ofExcept record.validate
    require (record.derivationKey = key)
      (.invalidMetadata .derivation "derivation key does not match filename")
    return record

def writeDerivationRecord (record : DerivationRecord) : StoreM Unit := do
  ofExcept record.validate
  let t ← ask "create regular file" (.temp (.write .derivations))
  match ← attempt (ask "replace atomically" (.record (.replaceDerivation t record))) with
  | .ok () => syncAll "sync derivation lookup replacement"
  | .error e =>
    let _ ← attempt (unlinkTemp t)
    throw e

def updateDerivationIndex (key : DerivationKey) (id : GenerationId) : StoreM Unit := do
  match ← attempt (readDerivation key) with
  | .ok record => writeDerivationRecord (record.insert id)
  | .error .derivationNotFound => writeDerivationRecord ⟨key, id, []⟩
  | .error e => throw e

/-- Whether a damaged lookup had to be discarded. -/
def removeFromDerivationIndex (key : DerivationKey) (id : GenerationId) : StoreM Bool := do
  match ← attempt (readDerivation key) with
  | .error .derivationNotFound => return false
  | .error (.invalidMetadata _ _) =>
    match ← attempt (ask "unlink file" (.record (.unlinkDerivation key))) with
    | .ok () | .error (.io _ .notFound) =>
      syncAll "sync discarded derivation lookup"
      return true
    | .error e => throw e
  | .error e => throw e
  | .ok record =>
    if id ∉ record.ids then return false
    else
      match record.remove id with
      | none =>
        ask "unlink file" (.record (.unlinkDerivation key))
        syncAll "sync derivation lookup removal"
        return false
      | some record =>
        writeDerivationRecord record
        return false

/-! ### Building and publishing a generation

The derivation lock is held from the start of the transaction to its end. On every way out the
destructor removes the transaction's directory, unless it already bears its final name, before the
lock is released. -/

variable (host : Host)

structure Transaction where
  spec : GenerationSpec
  derivationKey : DerivationKey
  stage : StageName
  ino : Nat

inductive BeginGeneration where
  /-- a cache hit; its lease is held -/
  | existing (generation : Generation)
  /-- a new transaction; its derivation lock is held -/
  | vacant (tx : Transaction)

def verifyIndexed (key : DerivationKey) : List GenerationId → StoreM (List Generation)
  | [] => return []
  | id :: rest => do
    let generation ← verifyGeneration host id
    require (generation.manifest.derivationKey = key)
      (.invalidMetadata .derivation "indexed generation belongs to a different derivation")
    let others ← verifyIndexed key rest
    return generation :: others

def generationsForDerivationLocked (key : DerivationKey) : StoreM (List Generation) := do
  match ← attempt (readDerivation key) with
  | .ok record => verifyIndexed host key record.ids
  | .error .derivationNotFound => return []
  | .error e => throw e

/-- Lease the first indexed generation; `none` if there is none, or if it is gone by then. -/
def leaseIndexed (key : DerivationKey) : StoreM (Option Generation) := do
  match ← generationsForDerivationLocked host key with
  | [] => return none
  | generation :: _ =>
    let id := generation.manifest.id
    openLeaseLock id
    let leased ← attempt do
      ask "acquire shared generation lease" (.lock (.lock (.lease id) .shared))
      verifyGeneration host id
    match leased with
    | .ok generation => return some generation
    | .error e =>
      close (.lease id)
      if e matches .generationNotFound _ then return none else throw e

def cacheHit (key : DerivationKey) (rebuild : Bool) : StoreM (Option Generation) :=
  if rebuild then pure none else leaseIndexed host key

def createStagingDirectory (key : DerivationKey) : Nat → StoreM (StageName × Nat)
  | 0 => throw (.invalidInput "staging name" "could not allocate a unique staging name")
  | attempts + 1 => do
    let suffix ← ask "unique suffix" (.dir .uniqueSuffix)
    match ← sys (.dir (.make (.staging ⟨key, suffix⟩))) with
    | .ok ino =>
      syncAll "sync parent directory"
      return (⟨key, suffix⟩, ino)
    | .error .eexist => createStagingDirectory key attempts
    | .error n => throw (.io "create private directory" n.kind)

/-- `write_new_synced`: the file exists, then has its contents, then its final mode. -/
def writeNewSynced (d : DirName) (ino : Nat) (file : String) (content : Content) (mode : Nat) :
    StoreM Unit := do
  ask "create regular file" (.dir (.create d ino file))
  ask "write metadata" (.dir (.write d ino file content))
  syncAll "sync metadata contents"
  ask "set permissions" (.dir (.chmodFile d ino file mode))
  syncAll "sync metadata permissions"

def cleaning {α : Type} (d : DirName) (body : StoreM α) : StoreM α := do
  match ← attempt body with
  | .ok a => return a
  | .error e =>
    let _ ← attempt (removeTree d)
    throw e

def createTransaction (spec : GenerationSpec) (key : DerivationKey) : StoreM Transaction := do
  let (stage, ino) ← createStagingDirectory key 128
  cleaning (.staging stage) do
    writeNewSynced (.staging stage) ino STAGING_METADATA (.stagingRecord key) IMMUTABLE_FILE_MODE
  syncAll "sync staging directory"
  return ⟨spec, key, stage, ino⟩

def tryBeginGenerationInner (spec : GenerationSpec) (rebuild : Bool) : StoreM BeginGeneration := do
  let key := spec.derivationKey host.sha256
  openDerivationLock key
  closeOnError (.derivation key) do
    let free ← tryLock (.derivation key)
    require (free = true) (.derivationBusy key)
    match ← cacheHit host key rebuild with
    | some generation =>
      close (.derivation key)
      return .existing generation
    | none =>
      let tx ← createTransaction spec key
      return .vacant tx

def hashStaged (tx : Transaction) (file : String) : StoreM (Digest × UInt64) := do
  let content ← readFile (.staging tx.stage) tx.ino file PRIVATE_FILE_MODE
  match content with
  | .data bytes => return (host.sha256 bytes, UInt64.ofNat bytes.length)
  | _ => throw .unexpectedEntry

def sealSidecars (tx : Transaction) : List ImmutableSidecar → StoreM Unit
  | [] => return
  | expected :: rest => do
    let (digest, size) ← hashStaged host tx expected.name
    require (size = expected.size) (.sizeMismatch expected.size size)
    require (digest = expected.digest) (.digestMismatch expected.digest digest)
    ask "set permissions" (.dir (.chmodFile (.staging tx.stage) tx.ino expected.name
      IMMUTABLE_FILE_MODE))
    syncAll "sync immutable staged sidecar metadata"
    sealSidecars tx rest

def stagedNames (sidecars : List ImmutableSidecar) : List String :=
  ([BASE_IMAGE, STAGING_METADATA] ++ sidecars.map ImmutableSidecar.name).insertionSort (· ≤ ·)

def sealOutputs (tx : Transaction) (expectedBaseDigest : Digest)
    (sidecars : List ImmutableSidecar) : StoreM GenerationManifest := do
  ofExcept (validateCanonicalSidecars sidecars)
  let entries ← ask "read directory" (.dir (.list (.staging tx.stage) tx.ino))
  require (entries = stagedNames sidecars) .unexpectedEntry
  let (baseDigest, baseSize) ← hashStaged host tx BASE_IMAGE
  require (baseDigest = expectedBaseDigest) (.digestMismatch expectedBaseDigest baseDigest)
  ask "set permissions" (.dir (.chmodFile (.staging tx.stage) tx.ino BASE_IMAGE
    IMMUTABLE_FILE_MODE))
  syncAll "sync immutable staged base metadata"
  sealSidecars host tx sidecars
  let id ← ofExcept (GenerationId.derive host.sha256 tx.derivationKey baseDigest baseSize sidecars)
  return ⟨id, tx.derivationKey, tx.spec, baseDigest, baseSize, sidecars⟩

def renameDir (old new : DirName) : StoreM Unit :=
  renameNoReplace (sys (.dir (.link old new)))
    (ask "publish without replacement" (.dir (.exists new)))
    (ask "publish without replacement" (.dir (.replace old new)))

/-- What became of a staged generation under the lease on its identifier. -/
inductive Staged where
  | existing (generation : Generation)
  /-- the directory now bears its publication name -/
  | moved (manifest : GenerationManifest)

def stageForPublication (tx : Transaction) (expectedBaseDigest : Digest)
    (sidecars : List ImmutableSidecar) : StoreM Staged := do
  let manifest ← sealOutputs host tx expectedBaseDigest sidecars
  openLeaseLock manifest.id
  closeOnError (.lease manifest.id) do
    ask "hold publication lease" (.lock (.lock (.lease manifest.id) .shared))
    match ← attempt (verifyGeneration host manifest.id) with
    | .ok existing =>
      require (existing.manifest = manifest) (.generationAlreadyExists manifest.id)
      updateDerivationIndex tx.derivationKey manifest.id
      return .existing existing
    | .error (.generationNotFound _) =>
      writeNewSynced (.staging tx.stage) tx.ino GENERATION_METADATA (.manifest manifest)
        IMMUTABLE_FILE_MODE
      let entries ← ask "read directory" (.dir (.list (.staging tx.stage) tx.ino))
      require (entries = expectedNames manifest) .unexpectedEntry
      syncAll "sync complete staging directory"
      renameDir (.staging tx.stage) (.publication tx.stage)
      return .moved manifest
    | .error e => throw e

def commitPublication (tx : Transaction) (id : GenerationId) : StoreM Unit := do
  syncAll "sync publication temporary name"
  syncAll "sync staging transfer"
  ask "set permissions" (.dir (.chmod (.publication tx.stage) tx.ino IMMUTABLE_DIR_MODE))
  syncAll "sync sealed publication directory"
  let mode ← ask "stat directory" (.dir (.stat (.publication tx.stage) tx.ino))
  require (mode = IMMUTABLE_DIR_MODE) .unexpectedEntry
  match ← attempt (renameDir (.publication tx.stage) (.final id)) with
  | .ok () => return
  | .error (.io _ .alreadyExists) => throw (.generationAlreadyExists id)
  | .error e => throw e

def publishLeased (tx : Transaction) (expectedBaseDigest : Digest)
    (sidecars : List ImmutableSidecar) : StoreM Generation :=
  holding (.derivation tx.derivationKey) do
    let staged ← cleaning (.staging tx.stage)
      (stageForPublication host tx expectedBaseDigest sidecars)
    match staged with
    | .existing generation =>
      let _ ← attempt (removeTree (.staging tx.stage))
      return generation
    | .moved manifest =>
      cleaning (.publication tx.stage)
        (closeOnError (.lease manifest.id) (commitPublication tx manifest.id))
      closeOnError (.lease manifest.id) do
        syncAll "sync generation publication"
        let generation ← verifyGeneration host manifest.id
        updateDerivationIndex tx.derivationKey manifest.id
        return generation

def writeSidecars (tx : Transaction) : List (ImmutableSidecar × Bytes) → StoreM Unit
  | [] => return
  | (sidecar, bytes) :: rest => do
    ask "create regular file" (.dir (.create (.staging tx.stage) tx.ino sidecar.name))
    ask "write sidecar" (.dir (.write (.staging tx.stage) tx.ino sidecar.name (.data bytes)))
    writeSidecars tx rest

def writeOutputs (tx : Transaction) (base : Bytes) (sidecars : List (ImmutableSidecar × Bytes)) :
    StoreM Unit := do
  ask "create regular file" (.dir (.create (.staging tx.stage) tx.ino BASE_IMAGE))
  ask "write base" (.dir (.write (.staging tx.stage) tx.ino BASE_IMAGE (.data base)))
  writeSidecars tx sidecars

def dropTransaction (tx : Transaction) : StoreM Unit := do
  let _ ← attempt (removeTree (.staging tx.stage))
  close (.derivation tx.derivationKey)

def build (input : BuildInput) : StoreM Generation := do
  match ← tryBeginGenerationInner host input.spec input.rebuild with
  | .existing generation => return generation
  | .vacant tx =>
    match ← attempt (writeOutputs tx input.base input.sidecars) with
    | .ok () =>
      publishLeased host tx input.expectedBaseDigest (input.sidecars.map Prod.fst)
    | .error e =>
      dropTransaction tx
      throw e

end PocketVm.Store
