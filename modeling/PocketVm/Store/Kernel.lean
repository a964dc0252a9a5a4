import Mathlib.Data.List.AList
import PocketVm.Conc.System
import PocketVm.Identity

/-!
# The store as its processes share it

What a store directory holds (`pocket-store/src/store.rs`), with the names already parsed and the
record files already decoded, and the kernel's table of open lock descriptors. A `flock` lock
belongs to an open descriptor and is held on an inode; the name a lock file was opened under can
come to denote another inode.
-/

namespace PocketVm.Store

open Wire

abbrev Table (κ ν : Type) := AList fun _ : κ => ν

inductive LockName where
  | roots
  | derivation (key : DerivationKey)
  | lease (id : GenerationId)
  deriving DecidableEq

inductive LockMode where
  | shared | exclusive
  deriving DecidableEq

structure StageName where
  key : DerivationKey
  suffix : Nat
  deriving DecidableEq

/-- The directories the store makes and removes, and entries whose name it cannot parse. -/
inductive DirName where
  | staging (name : StageName)
  /-- `.tmp-generation-<stage name>` in `generations/` -/
  | publication (name : StageName)
  | final (id : GenerationId)
  | «instance» (id : InstanceId)
  | strayGeneration (name : String)
  | strayStaging (name : String)
  deriving DecidableEq

/-- The directories in which a record is written under a temporary name and then renamed. -/
inductive Area where
  | root | locks | leases | derivations | aliases | retained | instances
  deriving DecidableEq

structure TempName where
  area : Area
  suffix : Nat
  deriving DecidableEq

def LockName.area : LockName → Area
  | roots => .root
  | derivation _ => .locks
  | lease _ => .leases

def BASE_IMAGE : String := "base.ext4"
def GENERATION_METADATA : String := "generation.meta"
def STAGING_METADATA : String := "staging.meta"

def PRIVATE_DIR_MODE : Nat := 0o700
def IMMUTABLE_DIR_MODE : Nat := 0o500
def PRIVATE_FILE_MODE : Nat := 0o600
def IMMUTABLE_FILE_MODE : Nat := 0o400

structure GenerationManifest where
  id : GenerationId
  derivationKey : DerivationKey
  spec : GenerationSpec
  baseDigest : Digest
  baseSize : UInt64
  sidecars : List ImmutableSidecar
  deriving DecidableEq

/-- What a file of a store directory holds; bytes that do not decode as the record the file is
named for are `junk`. -/
inductive Content where
  | manifest (m : GenerationManifest)
  | stagingRecord (key : DerivationKey)
  | data (bytes : Bytes)
  | junk
  deriving DecidableEq

structure File where
  mode : Nat
  content : Content
  deriving DecidableEq

structure Dir where
  ino : Nat
  mode : Nat
  /-- the process that made the directory; no request reads it -/
  maker : Nat
  files : Table String File

structure DerivationRecord where
  derivationKey : DerivationKey
  winner : GenerationId
  alternatives : List GenerationId
  deriving DecidableEq

structure AliasRecord where
  id : AliasId
  key : AliasKey
  generationId : GenerationId
  deriving DecidableEq

/-- Where an overlay lies: in the directory of an instance, or outside the store's `instances/`. -/
inductive CowPath where
  | inInstance (id : InstanceId) (leaf : String)
  | elsewhere (path : String)
  deriving DecidableEq

inductive RetainedCowState where
  | clean | crashDirty
  deriving DecidableEq

structure RetainedCow where
  id : RetainedCowId
  generationId : GenerationId
  cowPath : CowPath
  cowDigest : Digest
  cowSize : UInt64
  state : RetainedCowState
  deriving DecidableEq

inductive InstanceOutcome where
  | unknown
  | exited (code : UInt8)
  | signalled (signal : UInt16)
  deriving DecidableEq

structure Instance where
  id : InstanceId
  name : String
  generationId : GenerationId
  retainedId : RetainedCowId
  imageReference : String
  argv : List String
  command : String
  createdUnix : UInt64
  finishedUnix : UInt64
  outcome : InstanceOutcome
  deriving DecidableEq

/-- An open lock file: the inode it was opened on and the lock taken on it, if any. -/
structure Fd where
  ino : Nat
  lock : Option LockMode
  deriving DecidableEq

/-- What one build is given: its specification, and what its builder writes. -/
structure BuildInput where
  spec : GenerationSpec
  rebuild : Bool
  base : Bytes
  expectedBaseDigest : Digest
  sidecars : List (ImmutableSidecar × Bytes)

structure RunOutput where
  generationId : GenerationId
  cowPath : Option CowPath
  outcome : InstanceOutcome

structure RetainRequest where
  name : String
  imageReference : String
  argv : List String
  command : String
  resume : Bool

/-- A kept run: the name it is kept under, the generation it runs, and what its guest leaves. -/
structure RunInput where
  retain : RetainRequest
  generationId : GenerationId
  overlay : Bytes
  outcome : InstanceOutcome
  startedUnix : UInt64
  finishedUnix : UInt64

/-- `pocket start`: the instance it resumes and what the guest leaves in the overlay. -/
structure StartInput where
  name : String
  overlay : Bytes
  outcome : InstanceOutcome
  startedUnix : UInt64
  finishedUnix : UInt64

inductive Op where
  | build (input : BuildInput)
  | acquireLease (id : GenerationId)
  | leaseAlias (key : AliasKey)
  | leaseRetainedCow (id : RetainedCowId)
  | setAlias (key : AliasKey) (id : GenerationId)
  | registerRetainedCow (generationId : GenerationId) (path : CowPath) (digest : Digest)
      (state : RetainedCowState)
  | garbageCollect
  | recover
  | executeRun (input : RunInput)
  | executeStart (input : StartInput)
  | retainInstance (output : RunOutput) (retain : RetainRequest) (created finished : UInt64)
  | removeInstance (name : String)
  | releaseOrphanedRetainedCow (id : RetainedCowId)

structure State where
  lockFiles : Table LockName Nat
  fds : Table (Nat × LockName) Fd
  temps : Table TempName Nat
  /-- the next inode number, also used where the source draws a unique suffix -/
  fresh : Nat
  dirs : Table DirName Dir
  -- a record file that does not decode is `none`
  derivations : Table DerivationKey (Option DerivationRecord)
  aliases : Table AliasId (Option AliasRecord)
  retained : Table RetainedCowId (Option RetainedCow)
  instances : Table InstanceId (Option Instance)
  /-- files outside the store that overlays may lie in; no operation here writes them -/
  outside : Table String File
  /-- entries of `aliases/` and `retained/` whose name does not parse -/
  strays : List (Area × String)
  /-- the operation each live process runs; no request reads it -/
  live : Table Nat Op

/-- What does not change while the store is in use: the hash, the absolute path of the store, and
whether its file system has `RENAME_NOREPLACE`. -/
structure Host where
  sha256 : Bytes → Digest
  root : String
  noreplace : Bool

/-- The error numbers the store tells apart; `einval` is a file system without the rename flag. -/
inductive Errno where
  | enoent | eexist | enotempty | einval | eio
  deriving DecidableEq

def Errno.kind : Errno → IoKind
  | enoent => .notFound
  | eexist => .alreadyExists
  | _ => .other

/-- Steps that change no store file and may fail: `fsync`, and what a run does around its guest. -/
inductive HostStep where
  | sync | prepare | launch | announceConsoles | wait
  deriving DecidableEq

inductive LockReq where
  | exists (name : LockName)
  | open (name : LockName)
  | lock (name : LockName) (mode : LockMode)
  | tryLock (name : LockName)
  | close (name : LockName)
  | link (temp : TempName) (name : LockName)
  | replace (temp : TempName) (name : LockName)
  | unlink (name : LockName)

inductive TempReq where
  | write (area : Area)
  | list (area : Area)
  | open (temp : TempName)
  | unlink (temp : TempName)

/-- Requests on directories. A directory that was opened is named together with its inode: a
request through the descriptor acts on that inode only. -/
inductive DirReq where
  | uniqueSuffix
  | make (name : DirName)
  | open (name : DirName)
  | stat (name : DirName) (ino : Nat)
  | list (name : DirName) (ino : Nat)
  | read (name : DirName) (ino : Nat) (file : String)
  | create (name : DirName) (ino : Nat) (file : String)
  | write (name : DirName) (ino : Nat) (file : String) (content : Content)
  | chmodFile (name : DirName) (ino : Nat) (file : String) (mode : Nat)
  | chmod (name : DirName) (ino : Nat) (mode : Nat)
  | unlink (name : DirName) (ino : Nat) (file : String)
  | remove (name : DirName)
  | exists (name : DirName)
  | link (old new : DirName)
  | replace (old new : DirName)
  | listGenerations
  | listStaging
  | readOutside (path : String)

/-- Requests on the record files of `derivations/`, `aliases/`, `retained/` and `instances/`. -/
inductive RecReq where
  | readDerivation (key : DerivationKey)
  | replaceDerivation (temp : TempName) (record : DerivationRecord)
  | unlinkDerivation (key : DerivationKey)
  | listAliases
  | readAlias (id : AliasId)
  | replaceAlias (temp : TempName) (record : AliasRecord)
  | listRetained
  | readRetained (id : RetainedCowId)
  | linkRetained (temp : TempName) (record : RetainedCow)
  | replaceRetained (temp : TempName) (record : RetainedCow)
  | unlinkRetained (id : RetainedCowId)
  | listInstances
  | readInstance (id : InstanceId)
  | linkInstance (temp : TempName) (record : Instance)
  | replaceInstance (temp : TempName) (id : InstanceId) (record : Instance)
  | unlinkInstance (id : InstanceId)

inductive Req where
  | lock (r : LockReq)
  | temp (r : TempReq)
  | dir (r : DirReq)
  | record (r : RecReq)
  | host (step : HostStep)

abbrev LockReq.Out : LockReq → Type
  | .exists _ => Bool
  | .tryLock _ => Bool
  | _ => Unit

abbrev TempReq.Out : TempReq → Type
  | .write _ => TempName
  | .list _ => List TempName
  | .open _ | .unlink _ => Unit

abbrev DirReq.Out : DirReq → Type
  | .uniqueSuffix | .make _ | .open _ | .stat _ _ => Nat
  | .list _ _ => List String
  | .read _ _ _ | .readOutside _ => File
  | .exists _ => Bool
  | .listGenerations | .listStaging => List DirName
  | _ => Unit

abbrev RecReq.Out : RecReq → Type
  | .readDerivation _ => Option DerivationRecord
  | .readAlias _ => Option AliasRecord
  | .readRetained _ => Option RetainedCow
  | .readInstance _ => Option Instance
  | .listAliases => List AliasId × List String
  | .listRetained => List RetainedCowId × List String
  | .listInstances => List InstanceId
  | _ => Unit

abbrev Req.Out : Req → Type
  | .lock r => r.Out
  | .temp r => r.Out
  | .dir r => r.Out
  | .record r => r.Out
  | .host _ => Unit

/-- Every request answers with a value or an error number. -/
abbrev Req.Ans (e : Req) : Type := Except Errno e.Out

/-! ### What each request does

One request is one system call, or a few that no other process can come between with an effect.
`fsync` changes nothing and may fail; a crash keeps exactly the requests made before it. -/

variable (host : Host) (p : Nat)

/-- The answer of a request and the state after it; `none` while the request blocks. -/
abbrev Effect (α : Type) := Option (Except Errno α × State)

def State.answer {α : Type} (s : State) (a : α) : Effect α := some (.ok a, s)
def State.fail {α : Type} (s : State) (e : Errno) : Effect α := some (.error e, s)

/-- Whether a lock of `mode` on inode `ino` would clash with one held through a descriptor other
than `key`. -/
def State.conflict (s : State) (key : Nat × LockName) (ino : Nat) (mode : LockMode) : Bool :=
  s.fds.entries.any fun e =>
    e.1 ≠ key && e.2.ino == ino &&
      match e.2.lock with
      | none => false
      | some held => held = .exclusive || mode = .exclusive

def execLock (s : State) : (r : LockReq) → Effect r.Out
  | .exists n => s.answer (s.lockFiles.lookup n).isSome
  | .open n =>
    match s.lockFiles.lookup n with
    | none => s.fail .enoent
    | some ino => State.answer { s with fds := s.fds.insert (p, n) ⟨ino, none⟩ } ()
  | .lock n mode =>
    match s.fds.lookup (p, n) with
    | none => s.fail .eio
    | some fd =>
      if s.conflict (p, n) fd.ino mode then none
      else State.answer { s with fds := s.fds.insert (p, n) ⟨fd.ino, some mode⟩ } ()
  | .tryLock n =>
    match s.fds.lookup (p, n) with
    | none => s.fail .eio
    | some fd =>
      if s.conflict (p, n) fd.ino .exclusive then s.answer false
      else State.answer { s with fds := s.fds.insert (p, n) ⟨fd.ino, some .exclusive⟩ } true
  | .close n => State.answer { s with fds := s.fds.erase (p, n) } ()
  | .link t n =>
    match s.temps.lookup t, s.lockFiles.lookup n with
    | none, _ => s.fail .enoent
    | some _, some _ => s.fail .eexist
    | some ino, none =>
      if host.noreplace then
        State.answer { s with lockFiles := s.lockFiles.insert n ino, temps := s.temps.erase t } ()
      else s.fail .einval
  | .replace t n =>
    match s.temps.lookup t with
    | none => s.fail .enoent
    | some ino =>
      State.answer { s with lockFiles := s.lockFiles.insert n ino, temps := s.temps.erase t } ()
  | .unlink n =>
    match s.lockFiles.lookup n with
    | none => s.fail .enoent
    | some _ => State.answer { s with lockFiles := s.lockFiles.erase n } ()

def execTemp (s : State) : (r : TempReq) → Effect r.Out
  | .write area =>
    match s.temps.lookup ⟨area, s.fresh⟩ with
    | some _ => s.fail .eexist
    | none =>
      State.answer { s with temps := s.temps.insert ⟨area, s.fresh⟩ s.fresh, fresh := s.fresh + 1 }
        (⟨area, s.fresh⟩ : TempName)
  | .list area => s.answer (s.temps.keys.filter fun t => t.area = area)
  | .open t =>
    match s.temps.lookup t with
    | none => s.fail .enoent
    | some _ => s.answer ()
  | .unlink t =>
    match s.temps.lookup t with
    | none => s.fail .enoent
    | some _ => State.answer { s with temps := s.temps.erase t } ()

/-- The directory a descriptor for inode `ino`, opened as `name`, still reaches by that name. -/
def State.dir (s : State) (name : DirName) (ino : Nat) : Option Dir :=
  (s.dirs.lookup name).filter fun d => d.ino = ino

def State.setDir (s : State) (name : DirName) (d : Dir) : State :=
  { s with dirs := s.dirs.insert name d }

def Dir.names (d : Dir) : List String := d.files.keys.insertionSort (· ≤ ·)

def DirName.asFinal : DirName → Option GenerationId
  | final id => some id
  | _ => none

def DirName.isPublication : DirName → Bool
  | publication _ => true
  | _ => false

def DirName.isStrayGeneration : DirName → Bool
  | strayGeneration _ => true
  | _ => false

def DirName.inStaging : DirName → Bool
  | staging _ | strayStaging _ => true
  | _ => false

/-- The entries of `generations/`: `.tmp-` names come before `pkvm-` names. -/
def State.generations (s : State) : List DirName :=
  s.dirs.keys.filter DirName.isPublication ++
    ((s.dirs.keys.filterMap DirName.asFinal).insertionSort fun i j => i.le j).map .final ++
    s.dirs.keys.filter DirName.isStrayGeneration

def State.moveDir (s : State) (old new : DirName) (d : Dir) : State :=
  { s with dirs := (s.dirs.erase old).insert new d }

def execDir (s : State) : (r : DirReq) → Effect r.Out
  | .uniqueSuffix => State.answer { s with fresh := s.fresh + 1 } s.fresh
  | .make name =>
    match s.dirs.lookup name with
    | some _ => s.fail .eexist
    | none =>
      State.answer { s.setDir name ⟨s.fresh, PRIVATE_DIR_MODE, p, ∅⟩ with fresh := s.fresh + 1 }
        s.fresh
  | .open name =>
    match s.dirs.lookup name with
    | none => s.fail .enoent
    | some d => s.answer d.ino
  | .stat name ino =>
    match s.dir name ino with
    | some d => s.answer d.mode
    -- removed meanwhile; `remove_tree_at` makes a directory private before it removes it
    | none => s.answer PRIVATE_DIR_MODE
  | .list name ino =>
    match s.dir name ino with
    | some d => s.answer d.names
    | none => s.answer []
  | .read name ino file =>
    match (s.dir name ino).bind fun d => d.files.lookup file with
    | some f => s.answer f
    | none => s.fail .enoent
  | .create name ino file =>
    match s.dir name ino with
    | none => s.fail .enoent
    | some d =>
      match d.files.lookup file with
      | some _ => s.fail .eexist
      | none =>
        (s.setDir name { d with files := d.files.insert file ⟨PRIVATE_FILE_MODE, .junk⟩ }).answer ()
  | .write name ino file content =>
    match s.dir name ino with
    | none => s.answer ()
    | some d =>
      match d.files.lookup file with
      | none => s.answer ()
      | some f =>
        (s.setDir name { d with files := d.files.insert file { f with content } }).answer ()
  | .chmodFile name ino file mode =>
    match s.dir name ino with
    | none => s.answer ()
    | some d =>
      match d.files.lookup file with
      | none => s.answer ()
      | some f => (s.setDir name { d with files := d.files.insert file { f with mode } }).answer ()
  | .chmod name ino mode =>
    match s.dir name ino with
    | none => s.answer ()
    | some d => (s.setDir name { d with mode }).answer ()
  | .unlink name ino file =>
    match s.dir name ino with
    | none => s.fail .enoent
    | some d =>
      match d.files.lookup file with
      | none => s.fail .enoent
      | some _ => (s.setDir name { d with files := d.files.erase file }).answer ()
  | .remove name =>
    match s.dirs.lookup name with
    | none => s.fail .enoent
    | some d =>
      if d.files.keys = [] then State.answer { s with dirs := s.dirs.erase name } ()
      else s.fail .enotempty
  | .exists name => s.answer (s.dirs.lookup name).isSome
  | .link old new =>
    match s.dirs.lookup old, s.dirs.lookup new with
    | none, _ => s.fail .enoent
    | some _, some _ => s.fail .eexist
    | some d, none => if host.noreplace then (s.moveDir old new d).answer () else s.fail .einval
  | .replace old new =>
    match s.dirs.lookup old, s.dirs.lookup new with
    | none, _ => s.fail .enoent
    | some d, none => (s.moveDir old new d).answer ()
    | some d, some e =>
      -- a rename may land on an empty directory only
      if e.files.keys = [] then (s.moveDir old new d).answer () else s.fail .enotempty
  | .listGenerations => s.answer s.generations
  | .listStaging => s.answer (s.dirs.keys.filter DirName.inStaging)
  | .readOutside path =>
    match s.outside.lookup path with
    | some f => s.answer f
    | none => s.fail .enoent

/-- A record file: missing, or read, with `none` for bytes that do not decode. -/
def State.readRecord {κ α : Type} [DecidableEq κ] (s : State) (table : Table κ (Option α))
    (key : κ) : Effect (Option α) :=
  match table.lookup key with
  | none => s.fail .enoent
  | some record => s.answer record

def State.replaceRecord {κ α : Type} [DecidableEq κ] (s : State) (temp : TempName)
    (table : Table κ (Option α)) (key : κ) (record : α)
    (set : State → Table κ (Option α) → State) : Effect Unit :=
  match s.temps.lookup temp with
  | none => s.fail .enoent
  | some _ =>
    (set { s with temps := s.temps.erase temp } (table.insert key (some record))).answer ()

/-- `renameat2` with `RENAME_NOREPLACE` of a temporary record to its final name. -/
def State.linkRecord {κ α : Type} [DecidableEq κ] (s : State) (temp : TempName)
    (table : Table κ (Option α)) (key : κ) (record : α)
    (set : State → Table κ (Option α) → State) : Effect Unit :=
  match s.temps.lookup temp, table.lookup key with
  | none, _ => s.fail .enoent
  | some _, some _ => s.fail .eexist
  | some _, none =>
    if host.noreplace then
      (set { s with temps := s.temps.erase temp } (table.insert key (some record))).answer ()
    else s.fail .einval

def State.unlinkRecord {κ α : Type} [DecidableEq κ] (s : State) (table : Table κ (Option α))
    (key : κ) (set : State → Table κ (Option α) → State) : Effect Unit :=
  match table.lookup key with
  | none => s.fail .enoent
  | some _ => (set s (table.erase key)).answer ()

def setDerivations (s : State) (t : Table DerivationKey (Option DerivationRecord)) : State :=
  { s with derivations := t }
def setAliases (s : State) (t : Table AliasId (Option AliasRecord)) : State :=
  { s with aliases := t }
def setRetained (s : State) (t : Table RetainedCowId (Option RetainedCow)) : State :=
  { s with retained := t }
def setInstances (s : State) (t : Table InstanceId (Option Instance)) : State :=
  { s with instances := t }

def State.straysOf (s : State) (area : Area) : List String :=
  (s.strays.filter fun e => e.1 = area).map Prod.snd

def execRec (s : State) : (r : RecReq) → Effect r.Out
  | .readDerivation key => s.readRecord s.derivations key
  | .replaceDerivation t r => s.replaceRecord t s.derivations r.derivationKey r setDerivations
  | .unlinkDerivation key => s.unlinkRecord s.derivations key setDerivations
  | .listAliases => s.answer (s.aliases.keys.insertionSort fun i j => i.le j, s.straysOf .aliases)
  | .readAlias id => s.readRecord s.aliases id
  | .replaceAlias t r => s.replaceRecord t s.aliases r.id r setAliases
  | .listRetained =>
    s.answer (s.retained.keys.insertionSort fun i j => i.le j, s.straysOf .retained)
  | .readRetained id => s.readRecord s.retained id
  | .linkRetained t r => s.linkRecord host t s.retained r.id r setRetained
  | .replaceRetained t r => s.replaceRecord t s.retained r.id r setRetained
  | .unlinkRetained id => s.unlinkRecord s.retained id setRetained
  | .listInstances => s.answer (s.instances.keys.insertionSort fun i j => i.le j)
  | .readInstance id => s.readRecord s.instances id
  | .linkInstance t r => s.linkRecord host t s.instances r.id r setInstances
  | .replaceInstance t id r => s.replaceRecord t s.instances id r setInstances
  | .unlinkInstance id => s.unlinkRecord s.instances id setInstances

def exec (e : Req) (s : State) : Effect e.Out :=
  match e with
  | .lock r => execLock host p s r
  | .temp r => execTemp s r
  | .dir r => execDir host p s r
  | .record r => execRec host s r
  | .host _ => s.answer ()

/-- Closing a descriptor and drawing a suffix cannot fail; anything else can. -/
def fault : (e : Req) → Option e.Ans
  | .lock (.close _) => none
  | .dir .uniqueSuffix => none
  | _ => some (.error .eio)

/-- The kernel closes the descriptors of a process that is gone. -/
def closeAll (fds : Table (Nat × LockName) Fd) : Table (Nat × LockName) Fd :=
  ⟨fds.entries.filter fun e => e.1.1 ≠ p,
    List.Nodup.sublist (List.filter_sublist.map Sigma.fst) fds.nodupKeys⟩

def leave (s : State) : State := { s with fds := closeAll p s.fds, live := s.live.erase p }

def enter (op : Op) (s : State) : State := { s with live := s.live.insert p op }

end PocketVm.Store
