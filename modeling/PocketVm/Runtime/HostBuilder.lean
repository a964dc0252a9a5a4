import PocketVm.Guest.Marker
import PocketVm.Protocol.Validator
import PocketVm.Runtime.Filesystem

/-!
# The images that a host publishes

`HostBuilder` of `builder.rs`: an image is built from an OCI image, committed from a kept run, or
adjusted to another size. Each of the three first decides the specification that the store looks up,
and only on a miss makes the base image and the sidecars that are then published. What the builder
guest and the validator guest leave behind is an input; so are the encodings of `minicbor` and
`serde_json`.

Before a guest is launched, `runtime.rs` compares the specification of a generation with the
profile.
-/

namespace PocketVm.Runtime

open Wire Checked Protocol Sparse

/-! ### The profile -/

structure Contracts where
  selectorPolicy : String
  rootLayout : String
  filesystem : String
  deriving DecidableEq

structure BuilderContract where
  manifestSchema : String
  requiredTools : List ToolIdentity
  sourceDateEpoch : UInt64
  deriving DecidableEq

structure ArtifactManifest where
  uml : Digest
  builderInitramfs : Digest
  validatorInitramfs : Digest
  mke2fs : Digest
  e2fsck : Digest
  mke2fsConfig : Digest
  e2fsckConfig : Digest
  deriving DecidableEq

/-- The fields of a profile's manifest that building and starting an image read. -/
structure ProfileManifest where
  profileId : String
  profileRevision : Digest
  ociOs : String
  ociArchitecture : String
  acceptedOciVariants : List (Option String)
  builderMemoryBytes : UInt64
  validatorMemoryBytes : UInt64
  contracts : Contracts
  builder : BuilderContract
  validatorManifestSchema : String
  artifacts : ArtifactManifest
  deriving DecidableEq

/-! ### Sizes -/

def PAYLOAD_MINIMUM_BYTES : Nat := 128 * 1024 * 1024
def TARGET_MINIMUM_BYTES : Nat := 8 * 1024 * 1024 * 1024
def SIZE_CLASS_BYTES : Nat := 64 * 1024 * 1024
def MAX_TARGET_BYTES : Nat := 512 * 1024 * 1024 * 1024
def EXT4_INODE_BYTES : Nat := 256
def TAR_RECORD_BYTES : Nat := 512
def TARGET_INODE_CLASS : Nat := 65536
def TARGET_INTERNAL_INODES : Nat := 16

structure FilesystemSize where
  bytes : Nat
  inodes : Nat
  deriving DecidableEq

structure FilesystemSizing where
  initial : FilesystemSize
  retry : Option FilesystemSize
  deriving DecidableEq

def fits (n : Nat) (field reason : String) : Except HostBuildError Nat :=
  if n < 2 ^ 64 then .ok n else .error (.invalid field reason)

def sizedInodeClass (value inodeClass : Nat) (field : String) : Except HostBuildError Nat := do
  let value ← fits (value + (inodeClass - 1)) field "inode-class rounding overflow"
  return value / inodeClass * inodeClass

def sizedClass (value maximum : Nat) (field : String) : Except HostBuildError Nat := do
  let value ← fits (value + (SIZE_CLASS_BYTES - 1)) field "size-class rounding overflow"
  let rounded := value / SIZE_CLASS_BYTES * SIZE_CLASS_BYTES
  stop (rounded > maximum)
    (.invalid field ("requires " ++ toString rounded ++ " bytes, maximum is " ++ toString maximum))
  return rounded

def filesystemSizing (desiredBytes inodes maximumBytes inodeClass : Nat) (field : String) :
    Except HostBuildError FilesystemSizing := do
  let bytes ← sizedClass desiredBytes maximumBytes field
  let initial : FilesystemSize := ⟨bytes, inodes⟩
  if bytes + SIZE_CLASS_BYTES < 2 ^ 64 ∧ bytes + SIZE_CLASS_BYTES ≤ maximumBytes then do
    let inodes ← fits (inodes + inodeClass) field "retry inode-count arithmetic overflow"
    return ⟨initial, some ⟨bytes + SIZE_CLASS_BYTES, inodes⟩⟩
  else return ⟨initial, none⟩

def validateTargetSize (bytes : Nat) : Except HostBuildError Nat := do
  stop (bytes % EXT4_BLOCK_BYTES ≠ 0)
    (.invalid "target_bytes" "must be a multiple of the 4096-byte block size")
  stop (bytes < PAYLOAD_MINIMUM_BYTES)
    (.invalid "target_bytes" ("must be at least " ++ toString PAYLOAD_MINIMUM_BYTES ++ " bytes"))
  stop (bytes > MAX_TARGET_BYTES)
    (.invalid "target_bytes" ("exceeds the " ++ toString MAX_TARGET_BYTES ++ "-byte maximum"))
  return bytes

/-! ### OCI images -/

def SELECTOR_POLICY_ID : String := "native-amd64-v1"

structure ImagePlatform where
  os : String
  architecture : String
  variant : Option String
  osVersion : Option String
  osFeatures : List String
  features : List String
  deriving DecidableEq

structure Layer where
  digest : Digest
  diffId : Digest
  size : UInt64
  uncompressedSize : UInt64
  mediaType : String
  deriving DecidableEq

/-- An image whose blobs have all been verified; of its process configuration only the user. -/
structure VerifiedImage where
  manifestDigest : Digest
  manifestSize : UInt64
  manifestMediaType : String
  configDigest : Digest
  configSize : UInt64
  configMediaType : String
  configBytes : Bytes
  descriptorPlatform : Option ImagePlatform
  configPlatform : ImagePlatform
  effectivePlatform : ImagePlatform
  selectorPolicy : String
  layers : List Layer
  user : String
  deriving DecidableEq

def uncompressedBytes (layers : List Layer) : Except HostBuildError Nat :=
  layers.foldlM (fun sum layer => fits (sum + layer.uncompressedSize.toNat) "layers" "uncompressed byte count overflow") 0

def targetSizing (image : VerifiedImage) (maximumManifestEntries : Nat) :
    Except HostBuildError FilesystemSizing := do
  let logical ← uncompressedBytes image.layers
  let archiveEntryUpper := min (max (logical / TAR_RECORD_BYTES) 1) maximumManifestEntries
  let inodeRequirement ← fits (archiveEntryUpper + TARGET_INTERNAL_INODES) "layers" "inode sizing overflow"
  let inodes ← sizedInodeClass inodeRequirement TARGET_INODE_CLASS "target"
  let inodeTableBytes ← fits (inodes * EXT4_INODE_BYTES) "layers" "inode-table sizing arithmetic overflow"
  let entryAllocationFloor ← fits (archiveEntryUpper * EXT4_BLOCK_BYTES) "layers" "entry sizing arithmetic overflow"
  let contentBytes ← fits (logical * 2) "layers" "content sizing arithmetic overflow"
  let desired ← fits (max contentBytes entryAllocationFloor + inodeTableBytes + 512 * 1024 * 1024) "layers"
    "target sizing arithmetic overflow"
  filesystemSizing (max desired TARGET_MINIMUM_BYTES) inodes MAX_TARGET_BYTES TARGET_INODE_CLASS "target"

/-! ### What is serialised -/

/-- What `serde_json` does with a type. A value is read back from its own text. -/
structure Json (α : Type) where
  toVec : α → Except String Bytes
  fromSlice : Bytes → Except String α
  fromSlice_toVec : ∀ {x : α} {bytes : Bytes}, toVec x = .ok bytes → fromSlice bytes = .ok x

def Json.ofCodec {α : Type} (codec : Codec α) : Json α where
  toVec := codec.toVec
  fromSlice bytes := (codec.decode bytes).map Prod.fst
  fromSlice_toVec h := by rw [codec.decode_toVec h]; rfl

structure BuildContractRecord where
  schema : String
  profileId : String
  profileRevision : String
  selectorPolicy : String
  umlSha256 : String
  builderInitramfsSha256 : String
  validatorInitramfsSha256 : String
  mke2fsSha256 : String
  e2fsckSha256 : String
  mke2fsConfigSha256 : String
  e2fsckConfigSha256 : String
  manifestSchema : String
  validatorManifestSchema : String
  builderTools : List ToolIdentity
  sourceDateEpoch : UInt64
  targetInitialSizeBytes : Nat
  targetInitialInodes : Nat
  targetRetrySizeBytes : Option Nat
  targetRetryInodes : Option Nat
  filesystemSizingContract : String
  directoryHashSeedContract : String
  capacityRetryContract : String
  conversionContract : String
  validationContract : String
  protocolMajor : UInt16
  protocolMinor : UInt16
  deriving DecidableEq

structure CommitContract where
  schema : String
  profileId : String
  profileRevision : String
  sourceGeneration : String
  overlaySha256 : String
  mergeContract : String
  deriving DecidableEq

structure CommitRecord where
  schema : String
  sourceGeneration : String
  sourceReference : String
  instanceName : String
  overlaySha256 : String
  mergeContract : String
  deriving DecidableEq

/-- The fields of `build-record.json` that speak of the base image and of files in it; the others
are copied from the profile, the OCI image and the messages of the two guests. -/
structure BuildRecord where
  derivationKey : String
  baseSha256 : String
  baseSize : UInt64
  generationMarkerSha256 : String
  targetSizeBytes : Nat
  validationGenerationMarkerSha256 : String
  validationFilesystemBytes : UInt64
  deriving DecidableEq

/-- The parts of a host builder that this code does not define. -/
structure Dependencies where
  sha256 : Bytes → Digest
  marker : Codec GenerationMarker
  accounts : Codec AccountDatabase
  validatorDone : Codec ValidatorDone
  buildContract : Json BuildContractRecord
  commitContract : Json CommitContract
  commitRecord : Json CommitRecord
  buildRecord : Json BuildRecord
  tools : E2fs
  /-- an image as the guests mount it -/
  mounted : Ext4View

/-! ### Generations -/

structure Image where
  id : GenerationId
  spec : GenerationSpec
  base : Bytes
  sidecars : List (ImmutableSidecar × Bytes)
  deriving DecidableEq

/-- What is published: the base image with the digest it is expected to have, and the sidecars as
they are recorded, each with its bytes. -/
structure Outputs where
  base : Bytes
  expectedBaseDigest : Digest
  sidecars : List (ImmutableSidecar × Bytes)
  deriving DecidableEq

/-- The specification that the store is asked for, the alias of the result, and how the result is
made if the store does not have it. -/
structure Plan where
  spec : GenerationSpec
  aliasKey : AliasKey
  outputs : Except HostBuildError Outputs

section

variable (deps : Dependencies)

def sidecarOf (name : String) (bytes : Bytes) :
    Except HostBuildError (ImmutableSidecar × Bytes) := do
  let sidecar ← (ImmutableSidecar.new name (deps.sha256 bytes)
    (UInt64.ofNat bytes.length)).mapError .store
  return (sidecar, bytes)

def checkSidecar (entry : ImmutableSidecar × Bytes) : Except HostBuildError Unit := do
  let size := UInt64.ofNat entry.2.length
  stop (size ≠ entry.1.size) (.store (.sizeMismatch entry.1.size size))
  stop (deps.sha256 entry.2 ≠ entry.1.digest)
    (.store (.digestMismatch entry.1.digest (deps.sha256 entry.2)))

/-- What `publish_leased` checks of the outputs, and the generation that they make. -/
def Outputs.publish (outputs : Outputs) (spec : GenerationSpec) : Except HostBuildError Image := do
  let sidecars := outputs.sidecars.map Prod.fst
  (validateCanonicalSidecars sidecars).mapError .store
  let baseDigest := deps.sha256 outputs.base
  stop (baseDigest ≠ outputs.expectedBaseDigest)
    (.store (.digestMismatch outputs.expectedBaseDigest baseDigest))
  outputs.sidecars.forM (checkSidecar deps)
  let id ← (GenerationId.derive deps.sha256 (spec.derivationKey deps.sha256) baseDigest
    (UInt64.ofNat outputs.base.length) sidecars).mapError .store
  return ⟨id, spec, outputs.base, outputs.sidecars⟩

def Plan.publish (plan : Plan) : Except HostBuildError Image := do
  let outputs ← plan.outputs
  outputs.publish deps plan.spec

/-! ### Building -/

/-- What `{:?}` prints of an optional text; Rust writes control characters in another way. -/
def debugOption : Option String → String
  | none => "None"
  | some text => "Some(" ++ text.quote ++ ")"

def debugList (items : List String) : String := "[" ++ ", ".intercalate items ++ "]"

def storePlatform (platform : ImagePlatform) : Except HostBuildError PocketVm.Platform := do
  stop (platform.features ≠ []) (.unsupported "platform.features"
    (debugList (platform.features.map String.quote)))
  (PocketVm.Platform.new platform.os platform.architecture platform.variant platform.osVersion
    platform.osFeatures).mapError .store

/-- `protocol_platform` of `builder.rs`. -/
def ImagePlatform.protocolPlatform (platform : ImagePlatform) : Protocol.Platform :=
  ⟨platform.os, platform.architecture, platform.variant⟩

def checkImagePlatform (profile : ProfileManifest) (field : String) (platform : ImagePlatform) :
    Except HostBuildError Unit := do
  stop (platform.os ≠ "linux" ∨ platform.architecture ≠ "amd64")
    (.unsupported field (platform.os ++ "/" ++ platform.architecture))
  stop (platform.osVersion.isSome ∨ platform.osFeatures ≠ [] ∨ platform.features ≠ [])
    (.unsupported field ("os_version=" ++ debugOption platform.osVersion ++ ", os_features=" ++
      debugList (platform.osFeatures.map String.quote) ++ ", features=" ++
        debugList (platform.features.map String.quote)))
  stop (platform.variant ∉ profile.acceptedOciVariants)
    (.unsupported field ("variant " ++ debugOption platform.variant))

def validateImagePlatforms (profile : ProfileManifest) (image : VerifiedImage) :
    Except HostBuildError Unit := do
  checkImagePlatform profile "config_platform" image.configPlatform
  checkImagePlatform profile "effective_platform" image.effectivePlatform
  image.descriptorPlatform.forM (checkImagePlatform profile "descriptor_platform")

def requireCanonicalOciBoundary (image : VerifiedImage) : Except HostBuildError Unit := do
  stop (image.manifestMediaType ≠ "application/vnd.oci.image.manifest.v1+json")
    (.unsupported "manifest_media_type" image.manifestMediaType)
  stop (image.configMediaType ≠ "application/vnd.oci.image.config.v1+json")
    (.unsupported "config_media_type" image.configMediaType)
  image.layers.forM fun layer =>
    stop (layer.mediaType ∉ ["application/vnd.oci.image.layer.v1.tar",
      "application/vnd.oci.image.layer.v1.tar+gzip",
        "application/vnd.oci.image.layer.v1.tar+zstd"])
          (.unsupported "layer_media_type" layer.mediaType)

def buildContractRecord (profile : ProfileManifest) (target : FilesystemSizing) :
    BuildContractRecord where
  schema := "pocket-host-build-contract-v4"
  profileId := profile.profileId
  profileRevision := profile.profileRevision.display
  selectorPolicy := profile.contracts.selectorPolicy
  umlSha256 := profile.artifacts.uml.display
  builderInitramfsSha256 := profile.artifacts.builderInitramfs.display
  validatorInitramfsSha256 := profile.artifacts.validatorInitramfs.display
  mke2fsSha256 := profile.artifacts.mke2fs.display
  e2fsckSha256 := profile.artifacts.e2fsck.display
  mke2fsConfigSha256 := profile.artifacts.mke2fsConfig.display
  e2fsckConfigSha256 := profile.artifacts.e2fsckConfig.display
  manifestSchema := profile.builder.manifestSchema
  validatorManifestSchema := profile.validatorManifestSchema
  builderTools := profile.builder.requiredTools
  sourceDateEpoch := profile.builder.sourceDateEpoch
  targetInitialSizeBytes := target.initial.bytes
  targetInitialInodes := target.initial.inodes
  targetRetrySizeBytes := target.retry.map FilesystemSize.bytes
  targetRetryInodes := target.retry.map FilesystemSize.inodes
  filesystemSizingContract := "pocket-ext4-bytes-inodes-v2"
  directoryHashSeedContract := "sha256-derivation-domain-uuid-v1"
  capacityRetryContract := "fresh-next-block-and-inode-class-once-v1"
  conversionContract := "pocket-umoci-raw-unpack-v1"
  validationContract := "fresh-read-only-uml-challenge-evidence-v1"
  protocolMajor := PROTOCOL_MAJOR
  protocolMinor := PROTOCOL_MINOR

def buildContractDigest (profile : ProfileManifest) (target : FilesystemSizing) :
    Except HostBuildError Digest := do
  let bytes ← (deps.buildContract.toVec (buildContractRecord profile target)).mapError
    fun e => .invalid "build_contract" ("cannot serialize: " ++ e)
  return deps.sha256 bytes

def defaultManifestLimits : ManifestLimits where
  maxPathBytes := UInt32.ofNat MAX_MANIFEST_PATH_BYTES
  maxXattrsPerEntry := UInt16.ofNat MAX_MANIFEST_XATTRS
  maxXattrBytesPerEntry := UInt32.ofNat MAX_MANIFEST_XATTR_BYTES
  maxEntryBytes := UInt32.ofNat MAX_MANIFEST_ENTRY_BYTES
  maxChunkBytes := UInt32.ofNat MAX_MANIFEST_CHUNK_BYTES
  maxEntries := UInt64.ofNat MAX_MANIFEST_ENTRIES
  maxTotalBytes := UInt64.ofNat MAX_MANIFEST_BYTES
  maxDirectoryEntries := UInt32.ofNat MAX_MANIFEST_DIRECTORY_ENTRIES
  maxDirectoryNameBytes := UInt64.ofNat MAX_MANIFEST_DIRECTORY_NAME_BYTES
  maxHardlinkGroups := UInt32.ofNat MAX_MANIFEST_HARDLINK_GROUPS
  maxHardlinkPathBytes := UInt64.ofNat MAX_MANIFEST_HARDLINK_PATH_BYTES
  maxDepth := UInt16.ofNat MAX_MANIFEST_DEPTH

def builderStartOf (profile : ProfileManifest) (image : VerifiedImage) (key : DerivationKey) :
    BuilderStart where
  profileId := profile.profileId
  profileRevision := hexEncode profile.profileRevision.asBytes
  derivationKey := hexEncode key.asBytes
  selectedManifest := ⟨image.manifestDigest.display, image.manifestSize, image.manifestMediaType⟩
  config := ⟨image.configDigest.display, image.configSize, image.configMediaType⟩
  layers := image.layers.map fun layer =>
    ⟨⟨layer.digest.display, layer.size, layer.mediaType⟩, layer.diffId.display,
      layer.uncompressedSize⟩
  descriptorPlatform := image.descriptorPlatform.map ImagePlatform.protocolPlatform
  configPlatform := image.configPlatform.protocolPlatform
  effectivePlatform := image.effectivePlatform.protocolPlatform
  selectorPolicy := image.selectorPolicy
  rootLayout := profile.contracts.rootLayout
  filesystemContract := profile.contracts.filesystem
  manifestSchema := profile.builder.manifestSchema
  manifestLimits := defaultManifestLimits
  expectedTools := profile.builder.requiredTools
  inputReference := "root"
  originalUser := image.user
  expectedPhysmemBytes := profile.builderMemoryBytes
  sourceDateEpoch := profile.builder.sourceDateEpoch

def builderStart (profile : ProfileManifest) (image : VerifiedImage) (key : DerivationKey) :
    Except HostBuildError BuilderStart := do
  let start := builderStartOf profile image key
  start.validate.mapError .protocol
  return start

structure BuildRequest where
  sourceReference : String
  requestedVariant : Option String
  deriving DecidableEq

structure PreparedBuild where
  image : VerifiedImage
  spec : GenerationSpec
  aliasKey : AliasKey
  start : BuilderStart
  targetSizing : FilesystemSizing
  deriving DecidableEq

def imageSpec (profile : ProfileManifest) (image : VerifiedImage) (contract : Digest) :
    Except HostBuildError GenerationSpec := do
  let descriptorPlatform ← image.descriptorPlatform.mapM storePlatform
  let configPlatform ← storePlatform image.configPlatform
  let effectivePlatform ← storePlatform image.effectivePlatform
  (GenerationSpec.new image.manifestDigest image.configDigest (image.layers.map Layer.digest)
    (image.layers.map Layer.diffId) descriptorPlatform configPlatform effectivePlatform image.selectorPolicy
    profile.profileId profile.profileRevision profile.contracts.rootLayout profile.contracts.filesystem
    contract).mapError .store

def prepareBuild (profile : ProfileManifest) (request : BuildRequest) (image : VerifiedImage) :
    Except HostBuildError PreparedBuild := do
  stop (request.sourceReference = "" ∨ (utf8 request.sourceReference).length > 1024 ∨
      (utf8 request.sourceReference).any fun b => b == 0 || b == 10 || b == 13)
    (.invalid "source_reference" "must contain 1..=1024 bytes without NUL or line separators")
  stop (profile.ociOs ≠ "linux" ∨ profile.ociArchitecture ≠ "amd64")
    (.unsupported "profile.platform" (profile.ociOs ++ "/" ++ profile.ociArchitecture))
  stop (profile.contracts.selectorPolicy ≠ SELECTOR_POLICY_ID)
    (.evidenceMismatch "selector_policy" profile.contracts.selectorPolicy SELECTOR_POLICY_ID)
  stop (request.requestedVariant ∉ profile.acceptedOciVariants)
    (.invalid "requested_variant" (debugOption request.requestedVariant ++ " is not admitted by " ++
      debugList (profile.acceptedOciVariants.map debugOption)))
  stop (image.selectorPolicy ≠ profile.contracts.selectorPolicy)
    (.evidenceMismatch "verified_image.selector_policy" profile.contracts.selectorPolicy image.selectorPolicy)
  requireCanonicalOciBoundary image
  validateImagePlatforms profile image
  stop (request.requestedVariant.isSome ∧
    image.effectivePlatform.variant ≠ request.requestedVariant)
    (.evidenceMismatch "requested_variant" (debugOption request.requestedVariant)
      (debugOption image.effectivePlatform.variant))
  let sizing ← targetSizing image MAX_MANIFEST_ENTRIES
  let contract ← buildContractDigest deps profile sizing
  let spec ← imageSpec profile image contract
  let requestedPlatform ← (PocketVm.Platform.new "linux" "amd64" request.requestedVariant none []).mapError .store
  let aliasKey ← (AliasKey.new profile.profileId profile.profileRevision request.sourceReference requestedPlatform
    profile.contracts.selectorPolicy).mapError .store
  let start ← builderStart profile image (spec.derivationKey deps.sha256)
  return ⟨image, spec, aliasKey, start, sizing⟩

/-- What the two guests of a build leave: the messages that end their sessions, the files that the
host wrote for the builder, the image it made, what else the validator observed, and the helpers'
output. -/
structure GuestRuns where
  base : Bytes
  targetBytes : Nat
  targetUuid : String
  metadataManifest : Bytes
  accounts : Bytes
  done : BuilderDone
  challenge : String
  observed : ValidatorEvidence
  evidenceSha256 : String
  log : Bytes

def loadAccountEvidence (bytes : Bytes) (done : BuilderDone) : Except HostBuildError AccountDb := do
  stop (bytes.length > MAX_ACCOUNT_DB_BYTES)
    (.invalid "accounts.cbor" "account evidence is not a bounded regular file")
  let accountDb ← (AccountDb.fromCanonicalBytes deps.sha256 deps.accounts bytes).mapError .protocol
  stop (done.accountDbSha256 ≠ accountDb.sha256)
    (.evidenceMismatch "validator_account_db_sha256" done.accountDbSha256 accountDb.sha256)
  return accountDb

def validatorStartOf (profile : ProfileManifest) (prepared : PreparedBuild) (runs : GuestRuns)
    (accountDb : AccountDb) :
    ValidatorStart where
  profileId := profile.profileId
  profileRevision := hexEncode profile.profileRevision.asBytes
  challenge := runs.challenge
  derivationKey := hexEncode (prepared.spec.derivationKey deps.sha256).asBytes
  rootLayout := profile.contracts.rootLayout
  filesystemContract := profile.contracts.filesystem
  manifestSchema := profile.validatorManifestSchema
  manifestLimits := defaultManifestLimits
  expectedManifestSha256 := runs.done.manifestSha256
  expectedManifestEntryCount := runs.done.entryCount
  expectedManifestByteCount := runs.done.byteCount
  expectedGenerationMarker := .fromStart prepared.start runs.done.accountDbSha256
  expectedGenerationMarkerSha256 := runs.done.generationMarkerSha256
  expectedAccountDb := accountDb
  expectedFilesystemUuid := runs.targetUuid
  expectedFilesystemBytes := UInt64.ofNat runs.base.length
  expectedPhysmemBytes := profile.validatorMemoryBytes

def validatorStart (profile : ProfileManifest) (prepared : PreparedBuild) (runs : GuestRuns)
    (accountDb : AccountDb) :
    Except HostBuildError ValidatorStart := do
  let start := validatorStartOf deps profile prepared runs accountDb
  (start.validate deps.sha256 deps.accounts).mapError .protocol
  return start

/-- The validator guest mounts the image, checks its marker and answers. -/
def runValidator (start : ValidatorStart) (runs : GuestRuns) :
    Except HostBuildError ValidatorDone := do
  let markerSha256 ← (Guest.validateCandidateMarker deps.sha256 deps.marker start.expectedGenerationMarker
    start.expectedGenerationMarkerSha256
      (deps.mounted.file runs.base GENERATION_MARKER_PATH)).mapError
      fun diagnostic => .invalid "validator" diagnostic
  return ⟨0, start.challenge, { runs.observed with generationMarkerSha256 := markerSha256 },
    runs.evidenceSha256⟩

def builtRecord (sha256 : Bytes → Digest) (prepared : PreparedBuild) (runs : GuestRuns)
    (validation : ValidatorDone) :
    BuildRecord where
  derivationKey := (prepared.spec.derivationKey sha256).display
  baseSha256 := (sha256 runs.base).display
  baseSize := UInt64.ofNat runs.base.length
  generationMarkerSha256 := runs.done.generationMarkerSha256
  targetSizeBytes := runs.targetBytes
  validationGenerationMarkerSha256 := validation.evidence.generationMarkerSha256
  validationFilesystemBytes := validation.evidence.filesystemBytes

def buildRecord (prepared : PreparedBuild) (runs : GuestRuns) (validation : ValidatorDone) :
    Except HostBuildError Bytes := do
  let bytes ← (deps.buildRecord.toVec (builtRecord deps.sha256 prepared runs validation)).mapError
    fun e => .invalid "build_record" ("cannot serialize: " ++ e)
  return bytes ++ [10]

def artifactDigest (base : Bytes) : Bytes := utf8 ((deps.sha256 base).display ++ "\n")

/-- `build_transaction`, from the end of the builder's session on. -/
def buildTransaction (profile : ProfileManifest) (prepared : PreparedBuild) (runs : GuestRuns) :
    Except HostBuildError Outputs := do
  let accountDb ← loadAccountEvidence deps runs.accounts runs.done
  deps.tools.e2fsck runs.base
  (validateExt4Base runs.base).mapError (.invalid "base.ext4")
  stop (runs.base.length ≠ runs.targetBytes)
    (.evidenceMismatch "base.size" (toString runs.targetBytes) (toString runs.base.length))
  let start ← validatorStart deps profile prepared runs accountDb
  let validation ← runValidator deps start runs
  let evidence ← (encodePayload deps.validatorDone ValidatorDone.validate validation).mapError .protocol
  let record ← buildRecord deps prepared runs validation
  let sidecars ← [("accounts.cbor", runs.accounts),
    ("artifact.digest", artifactDigest deps runs.base), ("build-record.json", record),
      ("build.log", runs.log), ("image-config.json", prepared.image.configBytes),
    ("metadata.manifest", runs.metadataManifest),
      ("validation-evidence.cbor", evidence)].mapM fun (name, bytes) =>
      sidecarOf deps name bytes
  return ⟨runs.base, deps.sha256 runs.base, sidecars⟩

def build (profile : ProfileManifest) (request : BuildRequest) (image : VerifiedImage)
    (runs : GuestRuns) :
    Except HostBuildError Plan := do
  let prepared ← prepareBuild deps profile request image
  return ⟨prepared.spec, prepared.aliasKey, buildTransaction deps profile prepared runs⟩

/-! ### A new generation from an old one -/

def respecify (previous : GenerationSpec) (contract : Digest) :
    Except HostBuildError GenerationSpec :=
  (GenerationSpec.new previous.selectedManifestDigest previous.configDigest previous.layerDigests previous.diffIds
    previous.descriptorPlatform previous.configPlatform previous.effectivePlatform previous.selectorPolicyId.val
    previous.profileId.val previous.profileRevision previous.rootLayoutContract.val previous.filesystemContract.val
    contract).mapError .store

def resultAlias (profile : ProfileManifest) (previous : GenerationSpec) (reference : String) :
    Except HostBuildError AliasKey :=
  (AliasKey.new profile.profileId profile.profileRevision reference previous.effectivePlatform
    previous.selectorPolicyId.val).mapError .store

def replaceMarker (staged : Bytes) (change : GenerationMarker → GenerationMarker)
    (lengthReason : Nat → Nat → String) :
    Except HostBuildError Bytes := do
  let markerBytes ← readGenerationMarker deps.tools staged
  let marker ← (decodePayload deps.marker GenerationMarker.validate markerBytes).mapError
    (.invalidBy "generation_marker" "cannot decode: ")
  let updated ← (encodePayload deps.marker GenerationMarker.validate (change marker)).mapError
    (.invalidBy "generation_marker" "cannot encode: ")
  stop (updated.length ≠ markerBytes.length)
    (.invalid "generation_marker" (lengthReason updated.length markerBytes.length))
  rewriteGenerationMarker deps.tools staged updated

/-! ### Committing a kept run -/

structure CommitRequest where
  overlay : Bytes
  instanceName : String
  reference : String
  deriving DecidableEq

def MERGE_CONTRACT : String := "pocket-uml-cow-v3-bitmap-merge-v1"

def commitContractRecord (profile : ProfileManifest) (source : GenerationId) (cowDigest : Digest) :
    CommitContract where
  schema := "pocket-host-commit-contract-v1"
  profileId := profile.profileId
  profileRevision := profile.profileRevision.display
  sourceGeneration := hexEncode source.asBytes
  overlaySha256 := cowDigest.display
  mergeContract := MERGE_CONTRACT

def commitContractDigest (profile : ProfileManifest) (source : GenerationId) (cowDigest : Digest) :
    Except HostBuildError Digest := do
  let bytes ← (deps.commitContract.toVec (commitContractRecord profile source cowDigest)).mapError
    fun e => .invalid "commit_contract" ("cannot serialize: " ++ e)
  return deps.sha256 bytes

def committedAccounts (staged : Bytes) : Except HostBuildError Bytes := do
  let passwd ← readGuestFile deps.tools staged "/rootfs/etc/passwd"
  let group ← readGuestFile deps.tools staged "/rootfs/etc/group"
  let accounts ← (accountDatabaseFromFiles passwd group).mapError (.invalidBy "accounts" "")
  (encodePayload deps.accounts AccountDatabase.validate accounts).mapError
    (.invalidBy "accounts" "cannot encode: ")

def committedRecord (source : Image) (request : CommitRequest) (cowDigest : Digest) :
    CommitRecord where
  schema := "pocket-commit-record-v1"
  sourceGeneration := source.id.display
  sourceReference := request.reference
  instanceName := request.instanceName
  overlaySha256 := cowDigest.display
  mergeContract := MERGE_CONTRACT

def commitOutputs (source : Image) (request : CommitRequest) (key : DerivationKey)
    (staged : Bytes) :
    Except HostBuildError Outputs := do
  let merged ← applyCow staged request.overlay
  verifyFilesystem deps.tools merged
  let accountBytes ← committedAccounts deps merged
  let accounts ← sidecarOf deps "accounts.cbor" accountBytes
  let staged ← replaceMarker deps merged
    (fun marker => { marker with
      derivationKey := hexEncode key.asBytes
      accountDbSha256 := hexEncode (deps.sha256 accountBytes).asBytes })
    fun _ _ => "replacement marker changed length"
  verifyFilesystem deps.tools staged
  let configBytes ← require ((source.sidecars.find? fun s => s.1.name == "image-config.json").map Prod.snd)
    (.io "read source sidecar" "image-config.json")
  let config ← sidecarOf deps "image-config.json" configBytes
  let recordBytes ← (deps.commitRecord.toVec (committedRecord source request (deps.sha256 request.overlay))).mapError
    fun e => .invalid "commit_record" ("cannot serialize: " ++ e)
  let record ← sidecarOf deps "commit-record.json" recordBytes
  let sidecars := [accounts, config, record].insertionSort fun a b => utf8 a.1.name ≤ utf8 b.1.name
  return ⟨staged, deps.sha256 staged, sidecars⟩

def commit (profile : ProfileManifest) (source : Image) (holes : Holes source.base)
    (request : CommitRequest) :
    Except HostBuildError Plan := do
  let (_, sourceBlocks) ← (ext4Geometry source.base).mapError (.invalid "source")
  let _ ← declaredBytes sourceBlocks "source" "source size overflows"
  let contract ← commitContractDigest deps profile source.id (deps.sha256 request.overlay)
  let spec ← respecify source.spec contract
  let aliasKey ← resultAlias profile source.spec request.reference
  return ⟨spec, aliasKey, CopyCalls.copySparse holes .reliable >>=
    commitOutputs deps source request (spec.derivationKey deps.sha256)⟩

/-! ### Adjusting the size -/

structure AdjustRequest where
  reference : String
  targetBytes : Nat
  deriving DecidableEq

def adjustOutputs (source : Image) (sourceBytes targetBytes : Nat) (key : DerivationKey)
    (staged : Bytes) :
    Except HostBuildError Outputs := do
  let resized ← resizeInPlace deps.tools staged sourceBytes targetBytes
  let staged ← replaceMarker deps resized (fun marker =>
    { marker with derivationKey := hexEncode key.asBytes }) fun updated original =>
      "replacement is " ++ toString updated ++ " bytes against the original " ++ toString original
  verifyFilesystem deps.tools staged
  let (_, blocks) ← (ext4Geometry staged).mapError (.invalid "target")
  let observed ← declaredBytes blocks "target" "resized size overflows"
  stop (observed ≠ targetBytes) (.invalid "target_bytes"
    ("resize produced " ++ toString observed ++ " bytes, not the requested " ++
      toString targetBytes))
  let sidecars ← source.sidecars.mapM fun (sidecar, bytes) => sidecarOf deps sidecar.name bytes
  return ⟨staged, deps.sha256 staged, sidecars⟩

def adjustLeased (profile : ProfileManifest) (source : Image) (holes : Holes source.base)
    (request : AdjustRequest) :
    Except HostBuildError Plan := do
  let targetBytes ← validateTargetSize request.targetBytes
  let (inodes, sourceBlocks) ← (ext4Geometry source.base).mapError (.invalid "source")
  let sourceBytes ← declaredBytes sourceBlocks "source" "source size overflows"
  let contract ← buildContractDigest deps profile ⟨⟨targetBytes, inodes⟩, none⟩
  let spec ← respecify source.spec contract
  let aliasKey ← resultAlias profile source.spec request.reference
  return ⟨spec, aliasKey, CopyCalls.copySparse holes .reliable >>=
    adjustOutputs deps source sourceBytes targetBytes (spec.derivationKey deps.sha256)⟩

end

inductive RuntimeError where
  | generationMismatch (field expected actual : String)
  | invalidConfiguration (field reason : String)
  | protocol (error : ProtocolError)
  | store (error : StoreError)
  deriving DecidableEq

structure WorkloadSpec where
  argv : List String
  env : List String
  cwd : String
  uid : UInt32
  gid : UInt32
  supplementaryGids : List UInt32
  umask : UInt16
  rlimits : List ResourceLimit
  hostname : String
  rootReadOnly : Bool
  volumes : List VolumeSpec
  network : Bool
  privileged : Bool
  stopSignal : UInt16
  deriving DecidableEq

structure TerminalRequest where
  rows : UInt16
  columns : UInt16
  deriving DecidableEq

structure RunOptions where
  workload : WorkloadSpec
  stdinBytes : UInt64
  terminal : Option TerminalRequest
  extraConsoles : UInt8
  deriving DecidableEq

def compareGeneration (field expected actual : String) : Except RuntimeError Unit :=
  stop (expected ≠ actual) (.generationMismatch field expected actual)

def validateGeneration (profile : ProfileManifest) (spec : GenerationSpec) :
    Except RuntimeError Unit := do
  compareGeneration "profile_id" profile.profileId spec.profileId.val
  compareGeneration "profile_revision" profile.profileRevision.display spec.profileRevision.display
  let platform := spec.effectivePlatform
  compareGeneration "platform.os" "linux" platform.os.val
  compareGeneration "platform.architecture" "amd64" platform.architecture.val
  stop (platform.variant.map Identifier.val ∉ profile.acceptedOciVariants)
    (.generationMismatch "platform.variant" (debugList (profile.acceptedOciVariants.map debugOption))
      (debugOption (platform.variant.map Identifier.val)))
  stop (platform.osVersion.isSome ∨ platform.osFeatures ≠ [])
    (.generationMismatch "platform.os_extensions" "no OS version or features"
      ("version=" ++ debugOption (platform.osVersion.map Text.val) ++ ", features=" ++
        debugList (platform.osFeatures.map fun feature => feature.val.quote)))
  compareGeneration "selector_policy" profile.contracts.selectorPolicy spec.selectorPolicyId.val
  compareGeneration "root_layout" profile.contracts.rootLayout spec.rootLayoutContract.val
  compareGeneration "filesystem_contract" profile.contracts.filesystem spec.filesystemContract.val

/-- `protocol_platform` of `runtime.rs`. -/
def protocolPlatform (platform : PocketVm.Platform) : Protocol.Platform :=
  ⟨platform.os.val, platform.architecture.val, platform.variant.map Identifier.val⟩

section

variable (sha256 : Bytes → Digest)

def buildStart (profile : ProfileManifest) (spec : GenerationSpec) (generationId : GenerationId)
    (accountDbSha256 : String) (options : RunOptions) : Except RuntimeError Start := do
  let workload := options.workload
  let start : Start := {
    profileId := profile.profileId
    profileRevision := hexEncode profile.profileRevision.asBytes
    generationId := hexEncode generationId.asBytes
    descriptorPlatform := spec.descriptorPlatform.map protocolPlatform
    configPlatform := protocolPlatform spec.configPlatform
    effectivePlatform := protocolPlatform spec.effectivePlatform
    selectorPolicy := profile.contracts.selectorPolicy
    rootLayout := profile.contracts.rootLayout
    filesystemContract := profile.contracts.filesystem
    argv := workload.argv
    env := workload.env
    cwd := workload.cwd
    uid := workload.uid
    gid := workload.gid
    supplementaryGids := workload.supplementaryGids
    umask := workload.umask
    rlimits := workload.rlimits
    hostname := workload.hostname
    rootReadOnly := workload.rootReadOnly
    volumes := workload.volumes
    terminal := options.terminal.isSome
    stdinStreaming := options.terminal.isSome
    extraConsoles := options.extraConsoles
    terminalRows := (options.terminal.map TerminalRequest.rows).getD 0
    terminalColumns := (options.terminal.map TerminalRequest.columns).getD 0
    networkMode := if workload.network then 1 else 0
    privileged := workload.privileged
    stopSignal := workload.stopSignal
    derivationKey := hexEncode (spec.derivationKey sha256).asBytes
    accountDbSha256
    stdinBytes := options.stdinBytes }
  start.validate.mapError .protocol
  return start

def Image.accountDigest (image : Image) : Option Digest :=
  (image.sidecars.find? fun s => s.1.name == "accounts.cbor").map fun s => s.1.digest

def startWithLease (profile : ProfileManifest) (image : Image) (options : RunOptions) :
    Except RuntimeError Start := do
  validateGeneration profile image.spec
  let accounts ← require image.accountDigest (.invalidConfiguration "generation.accounts"
    "verified generation lacks the mandatory accounts.cbor sidecar")
  (validateExt4Base image.base).mapError (.invalidConfiguration "ext4_base")
  buildStart sha256 profile image.spec image.id (hexEncode accounts.asBytes) options

end

end PocketVm.Runtime
