import PocketVm.Oci.Document

/-!
# The verification of an OCI layout

`verify_layout_with_limits` of pocket-oci's `layout.rs`: the walk from `index.json` through nested
indexes to the manifests, the two passes over each blob, and the budgets that the walk keeps. The
gzip and zstd decoders and the hash are parameters. A descriptor that has been counted is also put
on record, with the index depth at which it was met: the record is read by no step.
-/

namespace PocketVm.Oci

open Wire Checked Mutating

/-- What the reads of a stream return, one after the other, up to the first that returns nothing. -/
structure Stream where
  reads : List Bytes
  nonempty : ∀ chunk ∈ reads, chunk ≠ []

def Stream.content (stream : Stream) : Bytes := stream.reads.flatten

inductive Entry where
  | directory
  | symlink
  | special
  | unreadable (error : String)
  | file (stream : Stream)

structure Layout where
  root : String
  entry : List String → Option Entry

namespace Layout

variable (layout : Layout)

def path (names : List String) : String := layout.root ++ String.join (names.map ("/" ++ ·))

def noEntry (names : List String) :
    Error := .io (layout.path names) "No such file or directory (os error 2)"

def requirePlainDirectory (names : List String) (label : String) : Except Error Unit :=
  match layout.entry names with
  | none => .error (layout.noEntry names)
  | some .directory => .ok ()
  | some _ => .error (.invalidDocument (layout.path names) (label ++ " is not a plain directory"))

def openPlainFile (names : List String) (context : String) : Except Error Stream :=
  match layout.entry names with
  | none => .error (layout.noEntry names)
  | some (.file stream) => .ok stream
  | some (.unreadable error) => .error (.io (layout.path names) error)
  | some _ =>
    .error (.invalidDocument context (layout.path names ++ " is not a plain regular file"))

def readPlainFileBounded (names : List String) (maximum : Nat) (context : String) :
    Except Error Bytes := do
  let stream ← layout.openPlainFile names context
  let exceeded := .limit ("byte length of " ++ context) maximum
  stop (stream.content.length > maximum) exceeded
  let bytes := stream.content.take (maximum + 1)
  stop (bytes.length > maximum) exceeded
  return bytes

end Layout

inductive LayerCompression where
  | none | gzip | zstd
  deriving DecidableEq, Repr

def layerCompression (mediaType : String) (position : Nat) : Except Error LayerCompression :=
  if mediaType = OCI_LAYER then .ok .none
  else if mediaType = OCI_LAYER_GZIP ∨ mediaType = DOCKER_LAYER_GZIP then .ok .gzip
  else if mediaType = OCI_LAYER_ZSTD then .ok .zstd
  else .error (.unsupportedMediaType ("manifest layer " ++ toString position) mediaType)

/-- A decoder over a file: what its reads return and the failure they end in, if any; how many bytes
of the file it has then taken, and how many of these it has not decoded. -/
structure Decoding where
  stream : Stream
  failure : Option String
  taken : Nat
  unread : Nat

structure Decoders where
  gzip : Bytes → Except String Decoding
  zstd : (windowLogMax : Nat) → Bytes → Except String Decoding

/-- What the decoders are given with: a decoder that ends without a failure has returned what the
bytes it has taken, without those it left unread, are a complete encoding of. -/
structure Decoders.Sound (decoders : Decoders)
    (encodes : LayerCompression → Bytes → Bytes → Prop) : Prop where
  taken_le {bytes : Bytes} {decoding : Decoding}
    (h : decoders.gzip bytes = .ok decoding ∨ ∃ log, decoders.zstd log bytes = .ok decoding) :
    decoding.taken ≤ bytes.length
  gzip {bytes : Bytes} {decoding : Decoding} (h : decoders.gzip bytes = .ok decoding)
    (hend : decoding.failure = none) :
    encodes .gzip (bytes.take (decoding.taken - decoding.unread)) decoding.stream.content
  zstd {log : Nat} {bytes : Bytes} {decoding : Decoding}
    (h : decoders.zstd log bytes = .ok decoding)
    (hend : decoding.failure = none) :
    encodes .zstd (bytes.take (decoding.taken - decoding.unread)) decoding.stream.content

structure Layer where
  digest : Digest
  diffId : Digest
  size : Nat
  uncompressedSize : Nat
  mediaType : String
  compression : LayerCompression
  deriving DecidableEq

structure ImagePlatform where
  os : String
  architecture : String
  variant : Option String
  osVersion : Option String
  osFeatures : List String
  features : List String
  deriving DecidableEq

def ImagePlatform.ofPlatform (platform : Platform) : ImagePlatform where
  os := platform.os
  architecture := platform.architecture
  variant := platform.variant
  osVersion := platform.osVersion
  osFeatures := platform.osFeatures
  features := platform.features

def SELECTOR_POLICY_ID : String := "native-amd64-v1"

/-- The one selected Linux/amd64 image after all reachable blobs are verified. -/
structure VerifiedImage where
  manifestDigest : Digest
  manifestSize : Nat
  manifestMediaType : String
  configDigest : Digest
  configSize : Nat
  configMediaType : String
  configBytes : Bytes
  descriptorPlatform : Option ImagePlatform
  configPlatform : ImagePlatform
  effectivePlatform : ImagePlatform
  selectorPolicy : String
  layers : List Layer
  process : DockerProcessConfig
  deriving DecidableEq

structure Setting where
  layout : Layout
  limits : VerifyLimits
  sha256 : Bytes → Digest
  serde : Serde
  decoders : Decoders

structure Verifier where
  descriptorsSeen : Nat := 0
  totalUncompressedBytes : Nat := 0
  activeIndexes : List Digest := []
  candidates : List VerifiedImage := []
  consumed : List (Descriptor × Nat) := []

abbrev VerifyM := Mutating Error Verifier

variable (setting : Setting)

def tooManyDescriptors (limits : VerifyLimits) :
    Error := .limit "reachable descriptor count" limits.maxTotalDescriptors

def consumeDescriptor (descriptor : Descriptor) (context : String) (indexDepth : Nat) :
    VerifyM Unit := do
  let verifier ← get
  let seen ← check (checkedAdd verifier.descriptorsSeen 1 (tooManyDescriptors setting.limits))
  modify fun verifier => { verifier with descriptorsSeen := seen }
  check (stop (seen > setting.limits.maxTotalDescriptors) (tooManyDescriptors setting.limits))
  modify fun verifier => { verifier with consumed := verifier.consumed ++ [(descriptor,
    indexDepth)] }
  check (validateDescriptor setting.sha256 setting.limits descriptor context)

def blobNames (digest : Digest) : List String := ["blobs", "sha256", hex digest]

/-- One read of `authenticate_blob`: the count and the bytes hashed, which are also those retained. -/
def authenticateRead (maximum : Nat) (context : String) (state : Nat × Bytes) (chunk : Bytes) :
    Except Error (Nat × Bytes) := do
  let exceeded := .limit ("blob byte count for " ++ context) maximum
  let count ← checkedAdd state.1 chunk.length exceeded
  stop (count > maximum) exceeded
  return (count, state.2 ++ chunk)

def authenticateBlob (descriptor : Descriptor) (maximum : Nat) (retain : Bool) (context : String) :
    Except Error Bytes := do
  stop (descriptor.size > maximum) (.limit ("descriptor size for " ++ context) maximum)
  let expected ← parseDigest descriptor.digest context
  let file ← setting.layout.openPlainFile (blobNames expected) context
  let length := file.content.length
  stop (length ≠ descriptor.size) (.sizeMismatch descriptor.digest descriptor.size length)
  let (count, hashed) ← file.reads.foldlM (authenticateRead maximum context) (0, [])
  stop (count ≠ descriptor.size) (.sizeMismatch descriptor.digest descriptor.size count)
  stop (setting.sha256 hashed ≠ expected)
    (.digestMismatch descriptor.digest (hex (setting.sha256 hashed)))
  return if retain then hashed else []

def authenticateJsonBlob (descriptor : Descriptor) (maximum : Nat) (context : String) :
    Except Error Bytes :=
  authenticateBlob setting descriptor maximum true context

def authenticateLayerBlob (descriptor : Descriptor) (position : Nat) : Except Error Digest := do
  let context := "manifest layer " ++ toString position
  let _ ← authenticateBlob setting descriptor setting.limits.maxLayerBytes false context
  parseDigest descriptor.digest context

/-- One read of `hash_uncompressed_stream`: the size so far and the bytes hashed. -/
def hashRead (total : Nat) (descriptor : Descriptor) (compression : LayerCompression)
    (position : Nat) (state : Nat × Bytes) (chunk : Bytes) : Except Error (Nat × Bytes) := do
  let limits := setting.limits
  let size ← checkedAdd state.1 chunk.length (.layerUncompressedOverflow position)
  stop (size > limits.maxLayerUncompressedBytes)
    (.layerUncompressedLimit position limits.maxLayerUncompressedBytes size)
  let total ← checkedAdd total size (.totalUncompressedOverflow position)
  stop (total > limits.maxTotalUncompressedBytes)
    (.totalUncompressedLimit position limits.maxTotalUncompressedBytes total)
  stop (compression ≠ .none ∧ size > descriptor.size * limits.maxDecompressionRatio)
    (.decompressionRatio position limits.maxDecompressionRatio descriptor.size size)
  return (size, state.2 ++ chunk)

def layerDecodeError (position : Nat) (descriptor : Descriptor) (source : String) : Error :=
  .layerDecode position descriptor.mediaType source

def hashUncompressedStream (total : Nat) (decoding : Decoding) (descriptor : Descriptor)
    (compression : LayerCompression) (position : Nat) : Except Error (Nat × Bytes) := do
  let hashed ← decoding.stream.reads.foldlM
    (hashRead setting total descriptor compression position) (0, [])
  match decoding.failure with
  | some source => .error (layerDecodeError position descriptor source)
  | none => return hashed

/-- The rest of the file is read and counted, and nothing may be left that was not decoded. -/
def finishLayerReplay (file : Bytes) (decoding : Decoding) (descriptor : Descriptor)
    (expected : Digest) (position : Nat) : Except Error Unit := do
  let drained := file.drop decoding.taken
  let count := decoding.taken + drained.length
  let trailing ← checkedAdd (count - decoding.taken) decoding.unread
    (.layerUncompressedOverflow position)
  let digest := setting.sha256 (file.take decoding.taken ++ drained)
  stop (count ≠ descriptor.size) (.sizeMismatch descriptor.digest descriptor.size count)
  stop (digest ≠ expected) (.digestMismatch descriptor.digest (hex digest))
  stop (trailing ≠ 0) (layerDecodeError position descriptor
    (toString trailing ++ " trailing compressed bytes were not decoded"))

def decodingOf (compression : LayerCompression) (file : Stream) : Except String Decoding :=
  match compression with
  | .none => .ok ⟨file, none, file.content.length, 0⟩
  | .gzip => setting.decoders.gzip file.content
  | .zstd => setting.decoders.zstd setting.limits.maxZstdWindowLog file.content

def verifyLayerDiffId (descriptor : Descriptor) (compression : LayerCompression)
    (expectedDiffId : Digest) (position : Nat) : VerifyM Nat := do
  let verifier ← get
  let context := "manifest layer " ++ toString position ++ " DiffID replay"
  let compressed ← check (parseDigest descriptor.digest context)
  let file ← check (setting.layout.openPlainFile (blobNames compressed) context)
  check (stop (file.content.length ≠ descriptor.size)
    (.sizeMismatch descriptor.digest descriptor.size file.content.length))
  let decoding ← check ((decodingOf setting compression file).mapError
    (layerDecodeError position descriptor))
  let (size, content) ← check (hashUncompressedStream setting verifier.totalUncompressedBytes decoding descriptor
    compression position)
  check (finishLayerReplay setting file.content decoding descriptor compressed position)
  check (stop (setting.sha256 content ≠ expectedDiffId)
    (.diffIdMismatch position expectedDiffId.display (setting.sha256 content).display))
  let total ← check (checkedAdd verifier.totalUncompressedBytes size
    (.totalUncompressedOverflow position))
  modify fun verifier => { verifier with totalUncompressedBytes := total }
  return size

/-- One turn of the loop over a manifest's layers and its configuration's diff ids. -/
def verifyLayer (context : String) (indexDepth : Nat) (layer : Descriptor) (diffIdText : String)
    (position : Nat) :
    VerifyM Layer := do
  consumeDescriptor setting layer ("manifest layer " ++ toString position) indexDepth
  check (stop layer.platform.isSome (.invalidDocument context
    ("layer descriptor " ++ toString position ++ " unexpectedly has a platform")))
  let compression ← check (layerCompression layer.mediaType position)
  let digest ← check (authenticateLayerBlob setting layer position)
  let diffId ← check (parseDigest diffIdText ("rootfs diff_id " ++ toString position))
  let uncompressedSize ← verifyLayerDiffId setting layer compression diffId position
  return { digest, diffId, size := layer.size, uncompressedSize, mediaType := layer.mediaType, compression }

def verifyLayers (context : String) (indexDepth : Nat) : List (Descriptor × String) → Nat →
    VerifyM (List Layer)
  | [], _ => return []
  | (layer, diffIdText) :: rest, position => do
    let layer ← verifyLayer setting context indexDepth layer diffIdText position
    return layer :: (← verifyLayers context indexDepth rest (position + 1))

def ConfigDocument.platform (config : ConfigDocument) : Platform where
  architecture := config.architecture
  os := config.os
  variant := config.variant
  osVersion := config.osVersion
  osFeatures := config.osFeatures
  features := []

def ConfigDocument.isTarget (config : ConfigDocument) :
    Bool := config.os = "linux" && config.architecture = "amd64"

def targetImage (descriptor : Descriptor) (descriptorPlatform : Option Platform)
    (context configContext : String)
    (manifest : ManifestDocument) (config : ConfigDocument) (configBytes : Bytes)
    (layers : List Layer) :
    Except Error VerifiedImage := do
  validateTargetPlatform config.platform configContext
  descriptorPlatform.forM (validateTargetPlatform · context)
  let process ← effectiveProcess config.config setting.limits
  let manifestDigest ← parseDigest descriptor.digest "manifest descriptor"
  let configDigest ← parseDigest manifest.config.digest "config descriptor"
  return {
    manifestDigest
    manifestSize := descriptor.size
    manifestMediaType := descriptor.mediaType
    configDigest
    configSize := manifest.config.size
    configMediaType := manifest.config.mediaType
    configBytes
    descriptorPlatform := descriptorPlatform.map ImagePlatform.ofPlatform
    configPlatform := .ofPlatform config.platform
    effectivePlatform := .ofPlatform (Oci.effectivePlatform descriptorPlatform config.platform)
    selectorPolicy := SELECTOR_POLICY_ID
    layers
    process }

/-- What is made of a manifest once its blobs are verified. -/
def selectImage (descriptor : Descriptor) (descriptorPlatform : Option Platform)
    (context configContext : String)
    (manifest : ManifestDocument) (config : ConfigDocument) (configBytes : Bytes)
    (layers : List Layer) :
    Except Error (Option VerifiedImage) := do
  validatePlatformShape config.platform configContext setting.limits
  descriptorPlatform.forM (requirePlatformAgreement · config.platform context)
  if config.isTarget then
    some <$> targetImage setting descriptor descriptorPlatform context configContext manifest config
      configBytes layers
  else return none

def verifyManifest (descriptor : Descriptor) (descriptorPlatform : Option Platform)
    (indexDepth : Nat) :
    VerifyM (Option VerifiedImage) := do
  let limits := setting.limits
  let bytes ← check (authenticateJsonBlob setting descriptor limits.maxManifestBytes "image manifest")
  let context := descriptor.digest
  let manifest ← check (parseJson setting.serde setting.serde.manifest bytes context limits)
  check (validateManifest limits manifest descriptor context)
  consumeDescriptor setting manifest.config "manifest config" indexDepth
  check (stop manifest.config.platform.isSome
    (.invalidDocument context "config descriptor unexpectedly has a platform"))
  check (stop (manifest.config.mediaType ≠ OCI_CONFIG ∧ manifest.config.mediaType ≠ DOCKER_CONFIG)
    (.unsupportedMediaType "manifest config descriptor" manifest.config.mediaType))
  let configBytes ← check (authenticateJsonBlob setting manifest.config limits.maxConfigBytes "image config")
  let configContext := manifest.config.digest
  let config ← check (parseJson setting.serde setting.serde.config configBytes configContext limits)
  check (validateConfigCore limits config configContext)
  check (stop (config.rootfs.diffIds.length ≠ manifest.layers.length)
    (.rootfsCountMismatch manifest.layers.length config.rootfs.diffIds.length))
  let layers ← verifyLayers setting context indexDepth (manifest.layers.zip config.rootfs.diffIds) 0
  check (selectImage setting descriptor descriptorPlatform context configContext manifest config configBytes layers)

def Descriptor.isManifest (descriptor : Descriptor) : Bool :=
  descriptor.mediaType = OCI_MANIFEST || descriptor.mediaType = DOCKER_MANIFEST

def Descriptor.isIndex (descriptor : Descriptor) : Bool :=
  descriptor.mediaType = OCI_INDEX || descriptor.mediaType = DOCKER_INDEX

/-- A nested index, read and checked, with its digest among the active ones. -/
def openIndex (descriptor : Descriptor) : VerifyM (Digest × IndexDocument) := do
  let digest ← check (parseDigest descriptor.digest "nested index descriptor")
  let verifier ← get
  check (stop (digest ∈ verifier.activeIndexes) (.invalidDocument descriptor.digest "image-index descriptor cycle"))
  modify fun verifier => { verifier with activeIndexes := digest :: verifier.activeIndexes }
  let bytes ← check (authenticateJsonBlob setting descriptor setting.limits.maxIndexBytes "nested image index")
  let index ← check (parseJson setting.serde setting.serde.index bytes descriptor.digest setting.limits)
  check (validateIndex setting.limits index descriptor.digest (some descriptor.mediaType))
  return (digest, index)

mutual

-- The depth of indexes below one another is bounded, whatever the descriptors say: the recursion ends on
-- what is left of `max_index_depth`, then on what is left of the list at hand.
def walkDescriptor (descriptor : Descriptor) (inheritedPlatform : Option Platform)
    (indexDepth : Nat) :
    VerifyM Unit := do
  consumeDescriptor setting descriptor "image index" indexDepth
  let platform ← check (mergePlatforms inheritedPlatform descriptor.platform "nested index descriptors" setting.limits)
  if descriptor.isManifest then
    let image ← verifyManifest setting descriptor platform indexDepth
    modify fun verifier => { verifier with candidates := verifier.candidates ++ image.toList }
  else if descriptor.isIndex then
    if _h : indexDepth ≥ setting.limits.maxIndexDepth then
      check (.error (.limit "nested image-index depth" setting.limits.maxIndexDepth))
    else
      let (digest, index) ← openIndex setting descriptor
      walkDescriptors index.manifests platform (indexDepth + 1)
      modify fun verifier => { verifier with activeIndexes := verifier.activeIndexes.erase digest }
  else
    check (.error (.unsupportedMediaType "image index descriptor" descriptor.mediaType))
termination_by (setting.limits.maxIndexDepth - indexDepth, 0)

def walkDescriptors (descriptors : List Descriptor) (platform : Option Platform)
    (indexDepth : Nat) : VerifyM Unit :=
  match descriptors with
  | [] => return ()
  | descriptor :: rest => do
    walkDescriptor descriptor platform indexDepth
    walkDescriptors rest platform indexDepth
termination_by (setting.limits.maxIndexDepth - indexDepth, descriptors.length)

end

def openLayout : Except Error IndexDocument := do
  let { layout, limits, serde, .. } := setting
  layout.requirePlainDirectory [] "OCI layout root"
  layout.requirePlainDirectory ["blobs"] "OCI blobs directory"
  layout.requirePlainDirectory ["blobs", "sha256"] "OCI sha256 blobs directory"
  let layoutBytes ← layout.readPlainFileBounded ["oci-layout"] limits.maxLayoutBytes "oci-layout"
  let version ← parseJson serde serde.imageLayoutVersion layoutBytes "oci-layout" limits
  stop (version ≠ OCI_LAYOUT_VERSION) (.unsupportedLayoutVersion version)
  let indexBytes ← layout.readPlainFileBounded ["index.json"] limits.maxIndexBytes "index.json"
  parseJson serde serde.index indexBytes "index.json" limits

def onlyCandidate (candidates : List VerifiedImage) : Except Error VerifiedImage :=
  match candidates with
  | [] => .error .noLinuxAmd64Image
  | [image] => .ok image
  | _ => .error (.ambiguousLinuxAmd64 candidates.length)

def verifyLayoutWithLimits : VerifyM VerifiedImage := do
  let index ← check (openLayout setting)
  check (validateIndex setting.limits index "index.json" none)
  walkDescriptors setting index.manifests none 0
  let verifier ← get
  check (onlyCandidate verifier.candidates)

end PocketVm.Oci
