import PocketVm.Protocol.Builder

/-!
# The two walks over a built tree

`emit_manifest` of the builder guest and `validate_manifest` of the validator guest. Each crate has
its own walker; the two differ in what they do with an entry and in some of their messages, and are
otherwise the same text. What they share stands here once, with the differences as parameters.
-/

namespace PocketVm.Guest

open Wire Checked Protocol Mutating

abbrev Errno := Nat

inductive FileType where
  | file
  | dir
  | symlink
  | charDevice
  | blockDevice
  | fifo
  | socket
  | unknown
  deriving DecidableEq

structure Metadata where
  fileType : FileType
  dev : UInt64
  ino : UInt64
  nlink : UInt64
  mode : UInt32
  uid : UInt32
  gid : UInt32
  size : UInt64
  rdev : UInt64
  mtime : Int64
  mtimeNsec : Int64
  deriving DecidableEq

def Metadata.key (metadata : Metadata) : UInt64 × UInt64 := (metadata.dev, metadata.ino)

abbrev CName := { name : Bytes // 0 ∉ name }

/-- A tree that does not change, by the calls that read it at a path relative to its root. Any of
them may fail. -/
structure Filesystem where
  symlinkMetadata : Bytes → Except Errno Metadata
  readLink : Bytes → Except Errno Bytes
  readFile : Bytes → Except Errno Bytes
  readDir : Bytes → Except Errno (List (Except Errno Bytes))
  llistxattr : Bytes → Except Errno (List CName)
  lgetxattr : Bytes → Bytes → Except Errno Bytes

/-- The failures of a walk, in either crate. All of them carry the stage `manifest`. -/
inductive WalkError where
  | manifest (diagnostic : String)
  | protocol (source : ProtocolError)
  | io (source : Errno)
  deriving DecidableEq

/-- The diagnostics that the two crates word differently. -/
structure Wording where
  directoryNames : String
  directoryEntries : String
  hardlinkPaths : String
  mtimeNanoseconds : String

def add64 (a b : Nat) : Option Nat := if a + b < 2 ^ 64 then some (a + b) else none

def toU32 (n : Int64) : Option UInt32 :=
  if 0 ≤ n.toInt ∧ n.toInt < 2 ^ 32 then some (UInt32.ofNat n.toInt.toNat) else none

def collectXattrs (limits : ManifestLimits) (lgetxattr : Bytes → Except Errno Bytes)
    (attributes : List ManifestXattr)
    (total : Nat) : List Bytes → Except WalkError (List ManifestXattr)
  | [] => .ok attributes
  | name :: names => do
    stop name.isEmpty (.manifest "xattr list contains an empty name")
    stop (attributes.length ≥ limits.maxXattrsPerEntry.toNat)
      (.manifest "xattr count exceeds negotiated limit")
    stop (name.contains 0) (.manifest "xattr name contains NUL")
    let value ← (lgetxattr name).mapError .io
    let total ← require ((add64 total name.length).bind (add64 · value.length))
      (.manifest "xattr byte-count overflow")
    stop (total > limits.maxXattrBytesPerEntry.toNat)
      (.manifest "xattr bytes exceed negotiated limit")
    collectXattrs limits lgetxattr (attributes ++ [⟨name, value⟩]) total names

def xattrBuffer (names : List CName) : Bytes := names.flatMap fun name => name.1 ++ [0]

def listXattrs (fs : Filesystem) (path : Bytes) (limits : ManifestLimits) :
    Except WalkError (List ManifestXattr) := do
  let names ← (fs.llistxattr path).mapError .io
  let buffer := xattrBuffer names
  stop (buffer.length > min (limits.maxXattrsPerEntry.toNat * 256) limits.maxXattrBytesPerEntry.toNat)
    (.manifest "xattr names exceed negotiated limit")
  if buffer.length = 0 then return []
  else do
    stop (buffer.getLast? ≠ some 0) (.manifest "xattr-name list changed or is malformed")
    let attributes ← collectXattrs limits (fs.lgetxattr path) [] 0 (buffer.dropLast.splitOn 0)
    return attributes.insertionSort fun left right => left.name ≤ right.name

/-- The part of a walker that both crates have, and `output`, what becomes of the entries. -/
structure Walker (κ : Type) where
  hardlinks : List ((UInt64 × UInt64) × Bytes)
  hardlinkPathBytes : Nat
  entryCount : Nat
  output : κ
  deriving DecidableEq

abbrev WalkM (κ : Type) := Mutating WalkError (Walker κ)

def FileType.kind : FileType → Option UInt8
  | .file => some 1
  | .dir => some 2
  | .symlink => some 3
  | .charDevice => some 4
  | .blockDevice => some 5
  | .fifo => some 6
  | .socket => some 7
  | .unknown => none

section

variable (sha256 : Bytes → Digest) (words : Wording) (limits : ManifestLimits)
  (fs : Filesystem) {κ : Type}

def symlinkTarget (relative : Bytes) (metadata : Metadata) : Except WalkError (Option Bytes) :=
  if metadata.fileType = .symlink then ((fs.readLink relative).mapError .io).map some else .ok none

def hashRegularFile (path : Bytes) : Except WalkError Bytes :=
  ((fs.readFile path).mapError .io).map fun bytes => (sha256 bytes).asBytes

/-- The first path of a file with several links. -/
def recordHardlink (relative : Bytes) (key : UInt64 × UInt64) : WalkM κ Unit := do
  let w ← get
  check (stop (w.hardlinks.length ≥ limits.maxHardlinkGroups.toNat)
    (.manifest "hardlink groups exceed negotiated limit"))
  let bytes ← check (require (add64 w.hardlinkPathBytes relative.length)
    (.manifest "hardlink path byte count overflow"))
  modify fun w => { w with hardlinkPathBytes := bytes }
  check (stop (bytes > limits.maxHardlinkPathBytes.toNat) (.manifest words.hardlinkPaths))
  modify fun w => { w with hardlinks := (key, relative) :: w.hardlinks }

/-- The digest of a regular file, or the path under which the walk saw it first. -/
def contentEvidence (relative : Bytes) (metadata : Metadata) :
    WalkM κ (Option Bytes × Option Bytes) :=
  if metadata.fileType ≠ .file then pure (none, none)
  else if metadata.nlink > 1 then do
    let w ← get
    match w.hardlinks.lookup metadata.key with
    | some firstPath => pure (none, some firstPath)
    | none => do
      recordHardlink words limits relative metadata.key
      let digest ← check (hashRegularFile sha256 fs relative)
      pure (some digest, none)
  else do
    let digest ← check (hashRegularFile sha256 fs relative)
    pure (some digest, none)

def makeEntry (relative : Bytes) (metadata : Metadata) : WalkM κ ManifestEntry := do
  let kind ← check (require metadata.fileType.kind (.manifest "filesystem entry has an unknown type"))
  let symlinkTarget ← check (symlinkTarget fs relative metadata)
  let evidence ← contentEvidence sha256 words limits fs relative metadata
  let mtimeNanoseconds ← check (require (toU32 metadata.mtimeNsec)
    (.manifest words.mtimeNanoseconds))
  let xattrs ← check (listXattrs fs relative limits)
  let entry : ManifestEntry :=
    { path := relative
      kind
      mode := metadata.mode &&& 0o7777
      uid := metadata.uid
      gid := metadata.gid
      size := metadata.size
      rdev := if metadata.fileType = .charDevice ∨ metadata.fileType = .blockDevice then
        metadata.rdev else 0
      mtimeSeconds := metadata.mtime
      mtimeNanoseconds
      symlinkTarget
      contentSha256 := evidence.1
      hardlinkTarget := evidence.2
      xattrs }
  check (entry.validate.mapError .protocol)
  return entry

def collectChildren (entryCount : Nat) (children : List Bytes) (childNameBytes : Nat) :
    List (Except Errno Bytes) → Except WalkError (List Bytes)
  | [] => .ok children
  | child :: rest => do
    let name ← child.mapError .io
    stop (name.isEmpty ∨ name.contains 0 ∨ name = [46] ∨ name = [46, 46])
      (.manifest "directory contains an invalid name")
    let childNameBytes ← require (add64 childNameBytes name.length)
      (.manifest "directory-name byte count overflow")
    stop (childNameBytes > limits.maxDirectoryNameBytes.toNat) (.manifest words.directoryNames)
    stop ((children ++ [name]).length > limits.maxDirectoryEntries.toNat)
      (.manifest words.directoryEntries)
    stop (min (entryCount + (children ++ [name]).length) (2 ^ 64 - 1) > limits.maxEntries.toNat)
      (.manifest "directory entries exceed negotiated total")
    collectChildren entryCount (children ++ [name]) childNameBytes rest

def childRelative (relative child : Bytes) :
    Bytes := if relative = [] then child else relative ++ [47] ++ child

variable (pushEntry : ManifestEntry → WalkM κ Unit)

def visit (relative : Bytes) (depth : Nat) : WalkM κ Unit :=
  if _ : depth > limits.maxDepth.toNat then
    check (.error (.manifest "directory depth exceeds negotiated limit"))
  else do
    check (stop (relative.length > limits.maxPathBytes.toNat)
      (.manifest "path exceeds negotiated limit"))
    let metadata ← check ((fs.symlinkMetadata relative).mapError .io)
    let entry ← makeEntry sha256 words limits fs relative metadata
    pushEntry entry
    if metadata.fileType = .dir then do
      let listing ← check ((fs.readDir relative).mapError .io)
      let w ← get
      let children ← check (collectChildren words limits w.entryCount [] 0 listing)
      (children.insertionSort fun left right => left ≤ right).forM fun child =>
        visit (childRelative relative child) (depth + 1)
    else pure ()
termination_by limits.maxDepth.toNat + 1 - depth

def checkRoot : Except WalkError Unit := do
  limits.validate.mapError .protocol
  let metadata ← (fs.symlinkMetadata []).mapError .io
  stop (metadata.fileType ≠ .dir) (.manifest "manifest root is not a directory")

end

namespace Validator

def words : Wording where
  directoryNames := "directory names exceed negotiated limit"
  directoryEntries := "one directory exceeds negotiated entry limit"
  hardlinkPaths := "hardlink paths exceed negotiated limit"
  mtimeNanoseconds := "invalid mtime nanoseconds"

/-- `hasher` holds the bytes that the digest is taken of. -/
structure Hashed where
  byteCount : Nat
  hasher : Bytes
  deriving DecidableEq

structure ManifestSummary where
  sha256 : String
  entryCount : Nat
  byteCount : Nat
  deriving DecidableEq

variable (sha256 : Bytes → Digest) (entries : Codec ManifestEntry) (limits : ManifestLimits)
  (fs : Filesystem)

def hashEntry (encoded : Bytes) (framedLen : Nat) : WalkM Hashed Unit := do
  let w ← get
  check (stop (framedLen > limits.maxChunkBytes.toNat) (.manifest "entry cannot fit in one negotiated chunk"))
  check (stop (encoded.length ≥ 2 ^ 32) (.manifest "entry length does not fit protocol field"))
  let newByteCount ← check (require (add64 w.output.byteCount framedLen)
    (.manifest "manifest byte-count overflow"))
  check (stop (newByteCount > limits.maxTotalBytes.toNat)
    (.manifest "manifest bytes exceed negotiated limit"))
  modify fun w => { w with output := ⟨newByteCount,
    w.output.hasher ++ beBytes 4 encoded.length ++ encoded⟩ }
  let entryCount ← check (require (add64 w.entryCount 1)
    (.manifest "manifest entry-count overflow"))
  modify fun w => { w with entryCount }

def pushEntry (entry : ManifestEntry) : WalkM Hashed Unit := do
  let w ← get
  check (stop (w.entryCount ≥ limits.maxEntries.toNat) (.manifest "entry count exceeds negotiated limit"))
  let encoded ← check ((encodePayload entries ManifestEntry.validate entry).mapError .protocol)
  check (stop (encoded.isEmpty ∨ encoded.length > limits.maxEntryBytes.toNat)
    (.manifest "canonical entry exceeds negotiated limit"))
  let framedLen ← check (require (add64 encoded.length 4)
    (.manifest "length-prefixed entry size overflow"))
  hashEntry limits encoded framedLen

def validateManifest : Except WalkError ManifestSummary := do
  checkRoot limits fs
  let (result, w) := (visit sha256 words limits fs (pushEntry entries limits) [] 0).run.run ⟨[],
    0, 0, ⟨0, []⟩⟩
  result
  return ⟨hexDigest sha256 w.output.hasher, w.entryCount, w.output.byteCount⟩

end Validator

namespace Builder

def words : Wording where
  directoryNames := "directory names exceed negotiated memory bound"
  directoryEntries := "one directory exceeds negotiated entry bound"
  hardlinkPaths := "hardlink paths exceed negotiated memory bound"
  mtimeNanoseconds := "negative or oversized mtime nanoseconds"

/-- The stream of chunks, and the emitter in its own state `σ`. -/
structure Chunked (σ : Type) where
  emitter : σ
  chunk : Bytes
  chunkEntries : Nat
  chunkFirstEntry : Nat
  chunkSequence : Nat
  byteCount : Nat
  hasher : Bytes
  deriving DecidableEq

structure ManifestSummary where
  streamId : String
  sha256 : String
  entryCount : Nat
  byteCount : Nat
  deriving DecidableEq

/-- `ManifestEmitter`: takes one complete message, or fails. -/
abbrev ManifestEmitter (σ : Type) := BuilderMessage → σ → Except WalkError Unit × σ

variable {σ : Type} (sha256 : Bytes → Digest) (entries : Codec ManifestEntry)
  (limits : ManifestLimits) (fs : Filesystem) (streamId : String) (emit : ManifestEmitter σ)

def emitMessage (message : BuilderMessage) : WalkM (Chunked σ) Unit := do
  let w ← get
  let (result, emitter) := emit message w.output.emitter
  modify fun w => { w with output := { w.output with emitter } }
  check result

def sendChunk (bytes : Bytes) : WalkM (Chunked σ) Unit := do
  let w ← get
  let byteCount ← check (require (add64 w.output.byteCount bytes.length)
    (.manifest "manifest byte-count overflow"))
  check (stop (byteCount > limits.maxTotalBytes.toNat) (.manifest "manifest bytes exceed negotiated limit"))
  modify fun w => { w with output := { w.output with hasher := w.output.hasher ++ bytes } }
  emitMessage emit (.manifestChunk
    { streamId
      sequence := UInt64.ofNat w.output.chunkSequence
      firstEntry := UInt64.ofNat w.output.chunkFirstEntry
      entryCount := UInt32.ofNat w.output.chunkEntries
      bytes })
  modify fun w => { w with output := { w.output with byteCount } }
  let chunkSequence ← check (require (add64 w.output.chunkSequence 1)
    (.manifest "chunk sequence overflow"))
  modify fun w => { w with output := { w.output with chunkSequence, chunkEntries := 0 } }

def flushChunk : WalkM (Chunked σ) Unit := do
  let w ← get
  if w.output.chunk.isEmpty then pure ()
  else do
    modify fun w => { w with output := { w.output with chunk := [] } }
    sendChunk limits streamId emit w.output.chunk

def makeRoom (framedLen : Nat) : WalkM (Chunked σ) Unit := do
  let w ← get
  if ¬w.output.chunk.isEmpty ∧ min (w.output.chunk.length + framedLen)
    (2 ^ 64 - 1) > limits.maxChunkBytes.toNat then flushChunk limits streamId emit
  else pure ()

def openChunk (w : Walker (Chunked σ)) : Walker (Chunked σ) :=
  if w.output.chunk.isEmpty then
    { w with output := { w.output with chunkFirstEntry := w.entryCount } } else w

def appendEntry (encoded : Bytes) : WalkM (Chunked σ) Unit := do
  modify openChunk
  check (stop (encoded.length ≥ 2 ^ 32) (.manifest "entry length does not fit protocol field"))
  modify fun w => { w with output := { w.output with chunk := w.output.chunk ++ beBytes 4 encoded.length ++ encoded } }
  let w ← get
  check (stop (w.output.chunkEntries + 1 ≥ 2 ^ 32) (.manifest "chunk entry-count overflow"))
  modify fun w => { w with output := { w.output with chunkEntries := w.output.chunkEntries + 1 } }
  let entryCount ← check (require (add64 w.entryCount 1)
    (.manifest "manifest entry-count overflow"))
  modify fun w => { w with entryCount }

def pushEntry (entry : ManifestEntry) : WalkM (Chunked σ) Unit := do
  let w ← get
  check (stop (w.entryCount ≥ limits.maxEntries.toNat) (.manifest "entry count exceeds negotiated limit"))
  let encoded ← check ((encodePayload entries ManifestEntry.validate entry).mapError .protocol)
  check (stop (encoded.isEmpty ∨ encoded.length > limits.maxEntryBytes.toNat)
    (.manifest "canonical entry exceeds negotiated limit"))
  let framedLen ← check (require (add64 encoded.length 4)
    (.manifest "length-prefixed entry size overflow"))
  makeRoom limits streamId emit framedLen
  check (stop (framedLen > limits.maxChunkBytes.toNat) (.manifest "entry cannot fit in one negotiated chunk"))
  appendEntry encoded

/-- `stream_id`. -/
def manifestStreamId (derivationKey schema : String) : String :=
  hexDigest sha256 (utf8 "pocket-builder-manifest-stream" ++ [0] ++ utf8 "v1" ++ [0] ++
    utf8 derivationKey ++ [0] ++ utf8 schema)

def streamManifest (schema : String) : WalkM (Chunked σ) ManifestSummary := do
  emitMessage emit (.manifestBegin ⟨schema, streamId⟩)
  visit sha256 words limits fs (pushEntry entries limits streamId emit) [] 0
  flushChunk limits streamId emit
  let w ← get
  let digest := hexDigest sha256 w.output.hasher
  emitMessage emit (.manifestEnd
    { streamId, entryCount := UInt64.ofNat w.entryCount, byteCount := UInt64.ofNat w.output.byteCount, sha256 := digest })
  return ⟨streamId, digest, w.entryCount, w.output.byteCount⟩

def emitManifest (schema derivationKey : String) (emitter : σ) :
    Except WalkError ManifestSummary := do
  checkRoot limits fs
  ((streamManifest sha256 entries limits fs (manifestStreamId sha256 derivationKey schema) emit schema).run.run
    ⟨[], 0, 0, ⟨emitter, [], 0, 0, 0, 0, []⟩⟩).1

end Builder

end PocketVm.Guest
