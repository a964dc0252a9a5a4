import Mathlib.Data.List.Destutter
import PocketVm.Protocol.Message

/-!
# Accounts, and the messages between the host and the builder guest

From `builder.rs`: the users and groups of an image and how they are read from its files, and then
the messages, with every field's check in the source's order.
-/

namespace PocketVm.Protocol

open Wire Checked

def MAX_ACCOUNT_DB_BYTES : Nat := 192 * 1024
def MAX_ACCOUNT_USERS : Nat := 8192
def MAX_ACCOUNT_GROUPS : Nat := 8192
def MAX_ACCOUNT_NAME_BYTES : Nat := 256
def MAX_ACCOUNT_GROUP_MEMBERS : Nat := 4096
def MAX_ACCOUNT_MEMBERSHIPS : Nat := 65536
def MAX_ACCOUNT_LINE_BYTES : Nat := 64 * 1024
def ACCOUNT_DB_SCHEMA : String := "pocket-accounts-v1"

structure AccountUser where
  name : String
  uid : UInt32
  gid : UInt32
  deriving DecidableEq

structure AccountGroup where
  name : String
  gid : UInt32
  members : List String
  deriving DecidableEq

structure AccountDatabase where
  schema : String
  users : List AccountUser
  groups : List AccountGroup
  deriving DecidableEq

def validateAccountName (field value : String) : Except ProtocolError Unit := do
  validateText field value MAX_ACCOUNT_NAME_BYTES false
  refuse ((utf8 value).any fun b => b ≤ 32 || b == 58 || b == 44 || b == 0x7f) field
    "contains a forbidden account-name byte"

def validateSortedNames (nameField field reason : String) : Option String → List String →
    Except ProtocolError Unit :=
  validateEach fun previous name => do
    validateAccountName nameField name
    refuse (notAfter (previous.map utf8) (utf8 name)) field reason

def validateGroups : Option String → Nat → List AccountGroup → Except ProtocolError Unit
  | _, _, [] => .ok ()
  | previous, memberships, group :: groups => do
    validateAccountName "account_db.groups.name" group.name
    refuse (notAfter (previous.map utf8) (utf8 group.name)) "account_db.groups" "group names are not unique and sorted"
    validateCount "account_db.groups.members" group.members.length MAX_ACCOUNT_GROUP_MEMBERS
    let memberships ← checkedAdd memberships group.members.length
      (unbounded "account_db.memberships" MAX_ACCOUNT_MEMBERSHIPS)
    refuse (memberships > MAX_ACCOUNT_MEMBERSHIPS) "account_db.memberships" "exceeds hard cap"
    validateSortedNames "account_db.groups.members" "account_db.groups.members"
      "member names are not unique and sorted" none group.members
    validateGroups (some group.name) memberships groups

def AccountDatabase.validate (d : AccountDatabase) : Except ProtocolError Unit := do
  refuse (d.schema ≠ ACCOUNT_DB_SCHEMA) "account_db.schema" "unsupported account database schema"
  validateCount "account_db.users" d.users.length MAX_ACCOUNT_USERS
  validateCount "account_db.groups" d.groups.length MAX_ACCOUNT_GROUPS
  validateSortedNames "account_db.users.name" "account_db.users" "user names are not unique and sorted" none
    (d.users.map AccountUser.name)
  validateGroups none 0 d.groups

/-- `str::lines`: what a line feed ends, without a carriage return before it, and what is left after
the last one. -/
def lines (text : String) : List String :=
  let parts := text.toList.splitOn '\n'
  let ended := parts.dropLast.map fun line => if line.getLast? = some '\x0d' then
    line.dropLast else line
  (ended ++ parts.getLast?.toList.filter (· ≠ [])).map String.ofList

def splitText (separator : Char) (text : String) :
    List String := (text.toList.splitOn separator).map String.ofList

def accountLines (text : String) : Except ProtocolError (List String) := do
  refuse ((lines text).any fun line =>
    decide ((utf8 line).length > MAX_ACCOUNT_LINE_BYTES)) "account_file"
    "line exceeds hard cap"
  return (lines text).filter fun line => line.toList ≠ [] && line.toList.head? ≠ some '#'

def parseAccountId (value field : String) : Except ProtocolError UInt32 := do
  let digits := utf8 value
  refuse (digits = [] ∨ ¬digits.all fun b => 48 ≤ b && b ≤ 57) field "is not an unsigned decimal ID"
  let number : Nat := digits.foldl (fun n b => n * 10 + (b.toNat - 48)) 0
  refuse (number ≥ 2 ^ 32) field "does not fit u32"
  return UInt32.ofNat number

def parseUser (line : String) : Except ProtocolError AccountUser :=
  match splitText ':' line with
  | [name, _, uid, gid, _, _, _] => do
    validateAccountName "passwd.name" name
    let uid ← parseAccountId uid "passwd uid"
    let gid ← parseAccountId gid "passwd gid"
    return ⟨name, uid, gid⟩
  | _ => invalid "passwd" "entry does not have seven fields"

def parseGroup (line : String) : Except ProtocolError AccountGroup :=
  match splitText ':' line with
  | [name, _, gid, members] => do
    validateAccountName "group.name" name
    let members ← ((splitText ',' members).filter (· ≠ "")).mapM fun member => do
      validateAccountName "group.members" member
      return member
    let gid ← parseAccountId gid "group gid"
    return ⟨name, gid, (members.insertionSort fun a b => utf8 a ≤ utf8 b).destutter (· ≠ ·)⟩
  | _ => invalid "group" "entry does not have four fields"

def accountDatabaseFromFiles (passwd group : String) : Except ProtocolError AccountDatabase := do
  let passwd ← accountLines passwd
  let users ← passwd.mapM parseUser
  let group ← accountLines group
  let groups ← group.mapM parseGroup
  let database : AccountDatabase := {
    schema := ACCOUNT_DB_SCHEMA
    users := users.insertionSort fun a b => utf8 a.name ≤ utf8 b.name
    groups := groups.insertionSort fun a b => utf8 a.name ≤ utf8 b.name }
  database.validate
  return database

structure AccountDb where
  schema : String
  byteCount : UInt32
  sha256 : String
  canonicalBytes : Bytes
  deriving DecidableEq

variable (sha256 : Bytes → Digest) (codec : Codec AccountDatabase)

def hexDigest (bytes : Bytes) : String := hexEncode (sha256 bytes).asBytes

def AccountDb.validate (db : AccountDb) : Except ProtocolError Unit := do
  refuse (db.schema ≠ ACCOUNT_DB_SCHEMA) "account_db.schema" "unsupported account database schema"
  validateCount "account_db.canonical_bytes" db.canonicalBytes.length MAX_ACCOUNT_DB_BYTES
  refuse (db.byteCount.toNat ≠ db.canonicalBytes.length) "account_db.byte_count" "does not match canonical bytes"
  validateSha256 "account_db.sha256" db.sha256
  refuse (db.sha256 ≠ hexDigest sha256 db.canonicalBytes) "account_db.sha256" "does not match canonical bytes"
  let database ← decodePayload codec AccountDatabase.validate db.canonicalBytes
  database.validate

def AccountDb.fromDatabase (database : AccountDatabase) : Except ProtocolError AccountDb := do
  database.validate
  let canonicalBytes ← encodePayload codec AccountDatabase.validate database
  validateCount "account_db.canonical_bytes" canonicalBytes.length MAX_ACCOUNT_DB_BYTES
  stop (canonicalBytes.length ≥ 2 ^ 32)
    (.messageLimitExceeded "account_db.canonical_bytes" canonicalBytes.length MAX_ACCOUNT_DB_BYTES)
  return ⟨ACCOUNT_DB_SCHEMA, UInt32.ofNat canonicalBytes.length, hexDigest sha256 canonicalBytes,
    canonicalBytes⟩

def AccountDb.fromCanonicalBytes (canonicalBytes : Bytes) : Except ProtocolError AccountDb := do
  validateCount "account_db.canonical_bytes" canonicalBytes.length MAX_ACCOUNT_DB_BYTES
  let database ← decodePayload codec AccountDatabase.validate canonicalBytes
  let accountDb ← AccountDb.fromDatabase sha256 codec database
  refuse (accountDb.canonicalBytes ≠ canonicalBytes) "account_db.canonical_bytes"
    "bytes do not match deterministic account encoding"
  return accountDb

def AccountDb.decodeDatabase (db : AccountDb) : Except ProtocolError AccountDatabase := do
  db.validate sha256 codec
  decodePayload codec AccountDatabase.validate db.canonicalBytes

variable {sha256 codec} {db : AccountDb} {bytes : Bytes}

theorem validateSha256_hexDigest (field : String) :
    validateSha256 field (hexDigest sha256 bytes) = .ok () := by
  have hdigits : ∀ i : Fin 16, isHexByte (UInt8.ofNat (Nat.digitChar i).toNat) = true := by decide
  have hlength : (utf8 (hexDigest sha256 bytes)).length = 64 := by
    rw [hexDigest, utf8_hexEncode]
    simp [Digest.asBytes]
  refine refuse_ok.mpr (not_or.mpr ⟨not_not.mpr hlength,
    not_not.mpr (List.all_eq_true.mpr fun digit hdigit => ?_)⟩)
  rw [hexDigest, utf8_hexEncode] at hdigit
  obtain ⟨b, -, hb⟩ := List.mem_flatMap.mp hdigit
  have hlt := b.toNat_lt
  rcases List.mem_pair.mp hb with rfl | rfl
  · exact hdigits ⟨b.toNat / 16, by omega⟩
  · exact hdigits ⟨b.toNat % 16, by omega⟩

theorem AccountDb.fromCanonicalBytes_encoded {database : AccountDatabase}
    (h : encodePayload codec AccountDatabase.validate database = .ok bytes) :
    (bytes.length ≤ MAX_ACCOUNT_DB_BYTES → ∃ db,
      AccountDb.fromCanonicalBytes sha256 codec bytes = .ok db ∧
      db.decodeDatabase sha256 codec = .ok database) ∧
    (MAX_ACCOUNT_DB_BYTES < bytes.length → AccountDb.fromCanonicalBytes sha256 codec bytes =
      .error (.messageLimitExceeded "account_db.canonical_bytes" bytes.length MAX_ACCOUNT_DB_BYTES)) := by
  have hcanonical := encodePayload_eq_ok.mp h
  have hdecode := decodePayload_eq_ok.mpr hcanonical
  constructor
  · intro hsize
    have hword : bytes.length < 2 ^ 32 := lt_of_le_of_lt hsize (by decide)
    have hcount : (UInt32.ofNat bytes.length).toNat = bytes.length :=
      UInt32.toNat_ofNat_of_lt' hword
    refine ⟨⟨ACCOUNT_DB_SCHEMA, UInt32.ofNat bytes.length, hexDigest sha256 bytes, bytes⟩, ?_, ?_⟩
    · unfold fromCanonicalBytes fromDatabase
      simp only [bind_ok, validateCount_ok, refuse_ok, stop_ok, pure_ok, not_not, not_le]
      exact ⟨(), hsize, database, hdecode, _, ⟨(), hcanonical.valid, bytes, h, (), hsize, (), hword,
        rfl⟩, (), rfl, rfl⟩
    · unfold decodeDatabase AccountDb.validate
      simp only [bind_ok, validateCount_ok, refuse_ok, not_not]
      exact ⟨(), ⟨(), trivial, (), hsize, (), hcount, (), validateSha256_hexDigest _, (), trivial,
        database, hdecode, hcanonical.valid⟩, hdecode⟩
  · intro hsize
    unfold fromCanonicalBytes validateCount
    rw [stop, if_pos hsize]
    rfl

theorem AccountDb.sha256_of_fromCanonicalBytes
    (h : AccountDb.fromCanonicalBytes sha256 codec bytes = .ok db) :
    db.sha256 = hexDigest sha256 bytes := by
  unfold fromCanonicalBytes fromDatabase at h
  simp only [bind_ok, refuse_ok, pure_ok, not_not] at h
  obtain ⟨_, -, database, -, accountDb, ⟨_, -, canonical, -, _, -, _, -, rfl⟩, _, hbytes, rfl⟩ := h
  dsimp only at hbytes ⊢
  rw [hbytes]

end PocketVm.Protocol

/-! ### What the two sides of a build tell each other -/

namespace PocketVm.Protocol

open Wire Checked

def MAX_BUILDER_TOOLS : Nat := 16
def MAX_BUILDER_LAYERS : Nat := 512
def MAX_MEDIA_TYPE_LENGTH : Nat := 256
def MAX_ORIGINAL_USER_LENGTH : Nat := 1024
def MAX_LAYER_COMPRESSED_BYTES : Nat := 128 * 1024 * 1024 * 1024
def MAX_LAYER_UNCOMPRESSED_BYTES : Nat := 64 * 1024 * 1024 * 1024
def MAX_TOTAL_UNCOMPRESSED_BYTES : Nat := 256 * 1024 * 1024 * 1024
def SOURCE_DATE_EPOCH_MIN : Nat := 946684800
def SOURCE_DATE_EPOCH_MAX : Nat := 4102444800

structure ToolIdentity where
  role : String
  sha256 : String
  version : String
  deriving DecidableEq

def ToolIdentity.validate (t : ToolIdentity) : Except ProtocolError Unit := do
  validateToken "tool.role" t.role 64
  validateSha256 "tool.sha256" t.sha256
  validateText "tool.version" t.version 256 false

def validateTools (tools : List ToolIdentity) (field : String) : Except ProtocolError Unit := do
  validateCount field tools.length MAX_BUILDER_TOOLS
  refuse (tools = []) field "at least one tool identity is required"
  validateEach (fun previous tool => do
    tool.validate
    refuse (notAfter (previous.map fun t => utf8 t.role)
      (utf8 tool.role)) field "tool roles are not strictly sorted")
    none tools

def validateBuilderMemory (field : String) (bytes : UInt64) : Except ProtocolError Unit :=
  refuse (¬(64 * 1024 * 1024 ≤ bytes.toNat ∧ bytes.toNat ≤ 1024 * 1024 * 1024 * 1024) ∨
    bytes.toNat % 4096 ≠ 0) field
    "builder memory must be 64 MiB..=1 TiB and 4096-byte aligned"

structure BuilderHello where
  guestContractId : String
  initBuildId : String
  kernelBuildId : String
  hostElfMachine : UInt16
  guestUtsMachine : String
  guestPageSize : UInt32
  cpuStateHwcapPolicy : String
  onlineCpus : UInt16
  builderTools : List ToolIdentity
  features : List String
  acceptedPhysmemBytes : UInt64
  deriving DecidableEq

def BuilderHello.validate (h : BuilderHello) : Except ProtocolError Unit := do
  validateSha256 "guest_contract_id" h.guestContractId
  validateSha256 "init_build_id" h.initBuildId
  validateSha256 "kernel_build_id" h.kernelBuildId
  refuse (¬(h.hostElfMachine = 62 ∨ h.hostElfMachine = 183)) "host_elf_machine" "unsupported ELF machine"
  refuse (¬(h.guestUtsMachine = "x86_64" ∨ h.guestUtsMachine = "aarch64")) "guest_uts_machine"
    "unsupported guest machine"
  refuse (¬(4096 ≤ h.guestPageSize.toNat ∧ h.guestPageSize.toNat ≤ 65536) ∨
      ¬h.guestPageSize.toNat.isPowerOfTwo) "guest_page_size" "unsupported page size"
  validateToken "cpu_state_hwcap_policy" h.cpuStateHwcapPolicy MAX_ID_LENGTH
  refuse (h.onlineCpus ≠ 1) "online_cpus" "builder must have exactly one online CPU"
  validateBuilderMemory "accepted_physmem_bytes" h.acceptedPhysmemBytes
  refuse (h.acceptedPhysmemBytes.toNat % h.guestPageSize.toNat ≠ 0) "accepted_physmem_bytes"
    "must be aligned to the reported guest page size"
  validateTools h.builderTools "builder_tools"
  validateCount "features" h.features.length 32
  validateUnique (fun feature => validateToken "features" feature 64) "features" "duplicate feature" [] h.features

def validateOciDigest (field value : String) : Except ProtocolError Unit :=
  if (utf8 "sha256:").isPrefixOf (utf8 value) then validateSha256 field (value.drop 7).toString
  else invalid field "digest must use sha256"

def validateMediaType (field value : String) : Except ProtocolError Unit := do
  validateText field value MAX_MEDIA_TYPE_LENGTH false
  refuse (!(utf8 value).all fun b =>
    0x21 ≤ b && b ≤ 0x7e) field "media type contains whitespace or non-ASCII bytes"

structure OciDescriptor where
  digest : String
  size : UInt64
  mediaType : String
  deriving DecidableEq

def OciDescriptor.validate (d : OciDescriptor) (field : String) (maximumSize : Nat) :
    Except ProtocolError Unit := do
  validateOciDigest field d.digest
  refuse (d.size = 0 ∨ d.size.toNat > maximumSize) field "descriptor size is zero or exceeds its hard cap"
  validateMediaType field d.mediaType

structure BuilderLayerDescriptor where
  descriptor : OciDescriptor
  diffId : String
  uncompressedSize : UInt64
  deriving DecidableEq

def BuilderLayerDescriptor.validate (l : BuilderLayerDescriptor) : Except ProtocolError Unit := do
  l.descriptor.validate "layers.descriptor" MAX_LAYER_COMPRESSED_BYTES
  validateOciDigest "layers.diff_id" l.diffId
  refuse (l.uncompressedSize.toNat > MAX_LAYER_UNCOMPRESSED_BYTES) "layers.uncompressed_size" "exceeds hard cap"
  refuse (l.uncompressedSize.toNat > min (l.descriptor.size.toNat * 1024)
    (2 ^ 64 - 1)) "layers.uncompressed_size" "exceeds the fixed decompression-ratio cap"

def validateLayers : Nat → List BuilderLayerDescriptor → Except ProtocolError Nat
  | total, [] => .ok total
  | total, layer :: layers => do
    layer.validate
    let total ← checkedAdd total layer.uncompressedSize.toNat
      (unbounded "layers.uncompressed_total" (2 ^ 64 - 1))
    validateLayers total layers

def validatePlatforms (descriptor : Option Platform) (config effective : Platform) :
    Except ProtocolError Unit := do
  refuse (config.os ≠ effective.os ∨ config.architecture ≠ effective.architecture) "platform"
    "config and effective OS/architecture disagree"
  descriptor.forM fun descriptor => do
    refuse (descriptor.os ≠ config.os ∨ descriptor.architecture ≠ config.architecture) "platform"
      "descriptor and config OS/architecture disagree"
    refuse (descriptor.variant.isSome ∧ config.variant.isSome ∧
      descriptor.variant ≠ config.variant) "platform" "explicit variants disagree"
  refuse ((descriptor.bind Platform.variant).or config.variant ≠
    effective.variant) "effective_platform" "variant does not match raw platform fields"

structure BuilderStart where
  profileId : String
  profileRevision : String
  derivationKey : String
  selectedManifest : OciDescriptor
  config : OciDescriptor
  layers : List BuilderLayerDescriptor
  descriptorPlatform : Option Platform
  configPlatform : Platform
  effectivePlatform : Platform
  selectorPolicy : String
  rootLayout : String
  filesystemContract : String
  manifestSchema : String
  manifestLimits : ManifestLimits
  expectedTools : List ToolIdentity
  inputReference : String
  originalUser : String
  expectedPhysmemBytes : UInt64
  sourceDateEpoch : UInt64
  deriving DecidableEq

def BuilderStart.validate (s : BuilderStart) : Except ProtocolError Unit := do
  validateToken "profile_id" s.profileId MAX_ID_LENGTH
  validateSha256 "profile_revision" s.profileRevision
  validateSha256 "derivation_key" s.derivationKey
  s.selectedManifest.validate "selected_manifest" (4 * 1024 * 1024)
  s.config.validate "config" (16 * 1024 * 1024)
  validateCount "layers" s.layers.length MAX_BUILDER_LAYERS
  let total ← validateLayers 0 s.layers
  refuse (total > MAX_TOTAL_UNCOMPRESSED_BYTES) "layers.uncompressed_total" "exceeds hard cap"
  s.descriptorPlatform.forM fun platform => platform.validate "descriptor_platform"
  s.configPlatform.validate "config_platform"
  s.effectivePlatform.validate "effective_platform"
  validatePlatforms s.descriptorPlatform s.configPlatform s.effectivePlatform
  validateToken "selector_policy" s.selectorPolicy MAX_ID_LENGTH
  validateToken "root_layout" s.rootLayout MAX_ID_LENGTH
  validateToken "filesystem_contract" s.filesystemContract MAX_ID_LENGTH
  validateToken "manifest_schema" s.manifestSchema MAX_ID_LENGTH
  s.manifestLimits.validate
  validateTools s.expectedTools "expected_tools"
  validateToken "input_reference" s.inputReference 128
  refuse (s.inputReference ≠ "root") "input_reference" "only the canonical root reference is supported"
  validateText "original_user" s.originalUser MAX_ORIGINAL_USER_LENGTH true
  validateBuilderMemory "expected_physmem_bytes" s.expectedPhysmemBytes
  refuse (¬(SOURCE_DATE_EPOCH_MIN ≤ s.sourceDateEpoch.toNat ∧
    s.sourceDateEpoch.toNat ≤ SOURCE_DATE_EPOCH_MAX))
    "source_date_epoch" "must be a pinned Unix timestamp from 2000-01-01 through 2100-01-01"

def GENERATION_MARKER_SCHEMA : String := "pocket-generation-v3"

/-- What a base image says of itself, in `/.pocket-generation.cbor`. -/
structure GenerationMarker where
  schema : String
  derivationKey : String
  profileId : String
  profileRevision : String
  descriptorPlatform : Option Platform
  configPlatform : Platform
  effectivePlatform : Platform
  selectorPolicy : String
  rootLayout : String
  filesystemContract : String
  accountDbSha256 : String
  deriving DecidableEq

def GenerationMarker.fromStart (start : BuilderStart) (accountDbSha256 : String) :
    GenerationMarker where
  schema := GENERATION_MARKER_SCHEMA
  derivationKey := start.derivationKey
  profileId := start.profileId
  profileRevision := start.profileRevision
  descriptorPlatform := start.descriptorPlatform
  configPlatform := start.configPlatform
  effectivePlatform := start.effectivePlatform
  selectorPolicy := start.selectorPolicy
  rootLayout := start.rootLayout
  filesystemContract := start.filesystemContract
  accountDbSha256

def GenerationMarker.validate (m : GenerationMarker) : Except ProtocolError Unit := do
  refuse (m.schema ≠ GENERATION_MARKER_SCHEMA) "schema" "unsupported generation-marker schema"
  validateSha256 "derivation_key" m.derivationKey
  validateToken "profile_id" m.profileId MAX_ID_LENGTH
  validateSha256 "profile_revision" m.profileRevision
  m.descriptorPlatform.forM fun platform => platform.validate "descriptor_platform"
  m.configPlatform.validate "config_platform"
  m.effectivePlatform.validate "effective_platform"
  validatePlatforms m.descriptorPlatform m.configPlatform m.effectivePlatform
  validateToken "selector_policy" m.selectorPolicy MAX_ID_LENGTH
  validateToken "root_layout" m.rootLayout MAX_ID_LENGTH
  validateToken "filesystem_contract" m.filesystemContract MAX_ID_LENGTH
  validateSha256 "account_db_sha256" m.accountDbSha256

structure ManifestBegin where
  schema : String
  streamId : String
  deriving DecidableEq

def ManifestBegin.validate (b : ManifestBegin) : Except ProtocolError Unit := do
  validateToken "schema" b.schema MAX_ID_LENGTH
  validateSha256 "stream_id" b.streamId

structure ManifestChunk where
  streamId : String
  sequence : UInt64
  firstEntry : UInt64
  entryCount : UInt32
  bytes : Bytes
  deriving DecidableEq

def ManifestChunk.validate (c : ManifestChunk) : Except ProtocolError Unit := do
  validateSha256 "stream_id" c.streamId
  refuse (c.entryCount = 0) "entry_count" "chunk must contain at least one entry"
  validateCount "bytes" c.bytes.length MAX_MANIFEST_CHUNK_BYTES
  refuse (c.bytes = []) "bytes" "chunk bytes must not be empty"
  let decoded ← countLengthPrefixedEntries c.bytes MAX_MANIFEST_ENTRY_BYTES
  refuse (decoded ≠ c.entryCount.toNat) "entry_count" "does not match length-prefixed entry bytes"

structure ManifestEnd where
  streamId : String
  entryCount : UInt64
  byteCount : UInt64
  sha256 : String
  deriving DecidableEq

def ManifestEnd.validate (e : ManifestEnd) : Except ProtocolError Unit := do
  validateSha256 "stream_id" e.streamId
  validateSha256 "sha256" e.sha256

structure UserResolution where
  kind : UInt8
  uid : UInt32
  gid : UInt32
  supplementaryGids : List UInt32
  deriving DecidableEq

def UserResolution.KIND_UNRESOLVED : UInt8 := 3

def UserResolution.validate (r : UserResolution) : Except ProtocolError Unit := do
  refuse (r.kind > KIND_UNRESOLVED) "user_resolution.kind" "unknown resolution kind"
  refuse (r.kind = KIND_UNRESOLVED ∧
    (r.uid ≠ 0 ∨ r.gid ≠ 0 ∨ r.supplementaryGids ≠ [])) "user_resolution"
    "unresolved user must not carry numeric resolution evidence"
  validateCount "user_resolution.supplementary_gids" r.supplementaryGids.length 64
  validateUnique (fun _ => .ok ()) "user_resolution.supplementary_gids" "duplicate group ID" [] r.supplementaryGids

structure FilesystemStatus where
  targetSynced : Bool
  targetUnmounted : Bool
  inputUnmounted : Bool
  deriving DecidableEq

structure BuilderDone where
  status : UInt8
  manifestSha256 : String
  entryCount : UInt64
  byteCount : UInt64
  generationMarkerSha256 : String
  originalUser : String
  userResolution : UserResolution
  observedTools : List ToolIdentity
  filesystemStatus : FilesystemStatus
  accountDbSha256 : String
  deriving DecidableEq

def BuilderDone.validate (d : BuilderDone) : Except ProtocolError Unit := do
  refuse (d.status ≠ 0) "status" "BUILD_DONE status must be zero"
  validateSha256 "manifest_sha256" d.manifestSha256
  validateSha256 "generation_marker_sha256" d.generationMarkerSha256
  validateSha256 "account_db_sha256" d.accountDbSha256
  validateText "original_user" d.originalUser MAX_ORIGINAL_USER_LENGTH true
  d.userResolution.validate
  validateTools d.observedTools "observed_tools"
  refuse (¬(d.filesystemStatus.targetSynced ∧ d.filesystemStatus.targetUnmounted ∧
    d.filesystemStatus.inputUnmounted))
    "filesystem_status" "successful build must be synced and fully unmounted"

inductive BuilderMessage where
  | hello (message : BuilderHello)
  | start (message : BuilderStart)
  | manifestBegin (message : ManifestBegin)
  | manifestChunk (message : ManifestChunk)
  | manifestEnd (message : ManifestEnd)
  | accountDb (message : AccountDb)
  | done (message : BuilderDone)
  | error (message : ErrorMessage)
  deriving DecidableEq

namespace BuilderMessage

def kind : BuilderMessage → MessageKind
  | hello _ => .buildHello
  | start _ => .buildStart
  | manifestBegin _ => .manifestBegin
  | manifestChunk _ => .manifestChunk
  | manifestEnd _ => .manifestEnd
  | accountDb _ => .accountDb
  | done _ => .buildDone
  | error _ => .buildError

variable (sha256 : Bytes → Digest) (accounts : Codec AccountDatabase)

def validate : BuilderMessage → Except ProtocolError Unit
  | hello message => message.validate
  | start message => message.validate
  | manifestBegin message => message.validate
  | manifestChunk message => message.validate
  | manifestEnd message => message.validate
  | accountDb message => message.validate sha256 accounts
  | done message => message.validate
  | error message => message.validate

end BuilderMessage

end PocketVm.Protocol
