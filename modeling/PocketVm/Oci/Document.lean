import PocketVm.Identity

/-!
# The documents of an OCI layout

From `layout.rs` of pocket-oci: the limits, the JSON documents and how they are read, and what is
checked of a descriptor, a digest, a platform and an annotation. The JSON parser and the derived
readers of the documents are `serde`'s and parameters here; the refusal of repeated keys and the
walk that bounds the shape of a value are the source's own. `effective_process` brings the Docker
defaults of an image into the form in which the guest takes them.
-/

namespace PocketVm.Oci

open Wire Checked

/-- `Error`, as far as the verification of a layout produces it. -/
inductive Error where
  | io (path source : String)
  | json (document source : String)
  | limit (what : String) (limit : Nat)
  | unsupportedLayoutVersion (found : String)
  | invalidDocument (document reason : String)
  | unsupportedMediaType (context mediaType : String)
  | invalidDigest (context digest reason : String)
  | sizeMismatch (digest : String) (expected actual : Nat)
  | digestMismatch (digest actual : String)
  | platform (context reason : String)
  | noLinuxAmd64Image
  | ambiguousLinuxAmd64 (count : Nat)
  | rootfsCountMismatch (layers diffIds : Nat)
  | layerDecode (position : Nat) (mediaType source : String)
  | diffIdMismatch (position : Nat) (expected actual : String)
  | layerUncompressedOverflow (position : Nat)
  | totalUncompressedOverflow (position : Nat)
  | layerUncompressedLimit (position limit actual : Nat)
  | totalUncompressedLimit (position limit actual : Nat)
  | decompressionRatio (position maximum compressed uncompressed : Nat)
  | processConfig (reason : String)
  deriving DecidableEq, Repr

/-- Resource ceilings used while parsing and authenticating an image layout. -/
structure VerifyLimits where
  maxLayoutBytes : Nat := 4 * 1024
  maxIndexBytes : Nat := 4 * 1024 * 1024
  maxManifestBytes : Nat := 4 * 1024 * 1024
  maxConfigBytes : Nat := 16 * 1024 * 1024
  maxLayerBytes : Nat := 128 * 1024 * 1024 * 1024
  maxLayerUncompressedBytes : Nat := 64 * 1024 * 1024 * 1024
  maxTotalUncompressedBytes : Nat := 256 * 1024 * 1024 * 1024
  maxDecompressionRatio : Nat := 65536
  maxZstdWindowLog : Nat := 27
  maxTotalDescriptors : Nat := 4096
  maxDescriptorsPerIndex : Nat := 1024
  maxLayers : Nat := 2048
  maxIndexDepth : Nat := 8
  maxJsonNodes : Nat := 1000000
  maxJsonDepth : Nat := 96
  maxArrayEntries : Nat := 100000
  maxObjectEntries : Nat := 100000
  maxJsonStringBytes : Nat := 1024 * 1024
  maxTotalJsonStringBytes : Nat := 16 * 1024 * 1024
  maxProcessEntries : Nat := 16384
  maxProcessStringBytes : Nat := 64 * 1024
  maxLabels : Nat := 16384
  deriving DecidableEq, Repr

def OCI_LAYOUT_VERSION : String := "1.0.0"
def OCI_INDEX : String := "application/vnd.oci.image.index.v1+json"
def DOCKER_INDEX : String := "application/vnd.docker.distribution.manifest.list.v2+json"
def OCI_MANIFEST : String := "application/vnd.oci.image.manifest.v1+json"
def DOCKER_MANIFEST : String := "application/vnd.docker.distribution.manifest.v2+json"
def OCI_CONFIG : String := "application/vnd.oci.image.config.v1+json"
def DOCKER_CONFIG : String := "application/vnd.docker.container.image.v1+json"
def OCI_LAYER : String := "application/vnd.oci.image.layer.v1.tar"
def OCI_LAYER_GZIP : String := "application/vnd.oci.image.layer.v1.tar+gzip"
def OCI_LAYER_ZSTD : String := "application/vnd.oci.image.layer.v1.tar+zstd"
def DOCKER_LAYER_GZIP : String := "application/vnd.docker.image.rootfs.diff.tar.gzip"

def checkedAdd (a b : Nat) (overflow : Error) : Except Error Nat :=
  if a + b < 2 ^ 64 then .ok (a + b) else .error overflow

@[simp] theorem checkedAdd_ok {a b n : Nat} {overflow : Error} :
    checkedAdd a b overflow = .ok n ↔ a + b < 2 ^ 64 ∧ n = a + b := by
  unfold checkedAdd
  split
  · simp_all [eq_comm]
  · simp_all

/-! ### JSON values -/

/-- A JSON value; an object lists its entries. -/
inductive Value where
  | null
  | bool (value : Bool)
  | number (text : String)
  | string (value : String)
  | array (values : List Value)
  | object (entries : List (String × Value))

/-- `Map::insert`, for a key that is not there yet. -/
def insertKey (key : String) (value : Value) : List (String × Value) →
    Option (List (String × Value))
  | [] => some [(key, value)]
  | (other, held) :: rest =>
    if utf8 key < utf8 other then some ((key, value) :: (other, held) :: rest)
    else if key = other then none
    else (insertKey key value rest).map ((other, held) :: ·)

mutual

/-- `UniqueValue`: the value with the entries of each object under their keys, of which none is
repeated. -/
def unique : Value → Except String Value
  | .array values => do return .array (← uniqueItems values)
  | .object entries => do return .object (← uniqueEntries entries [])
  | .null => return .null
  | .bool b => return .bool b
  | .number text => return .number text
  | .string s => return .string s

def uniqueItems : List Value → Except String (List Value)
  | [] => return []
  | value :: rest => do
    let value ← unique value
    return value :: (← uniqueItems rest)

def uniqueEntries : List (String × Value) → List (String × Value) →
    Except String (List (String × Value))
  | [], values => return values
  | (key, value) :: rest, values => do
    let value ← unique value
    let values ← require (insertKey key value values) ("duplicate JSON object key " ++ key.quote)
    uniqueEntries rest values

end

section Shape

variable (document : String) (limits : VerifyLimits)

def addJsonString (total : Nat) (value : String) : Except Error Nat := do
  stop ((utf8 value).length > limits.maxJsonStringBytes)
    (.limit ("JSON string length in " ++ document) limits.maxJsonStringBytes)
  let overflow := .limit ("total JSON string bytes in " ++ document) limits.maxTotalJsonStringBytes
  let total ← checkedAdd total (utf8 value).length overflow
  stop (total > limits.maxTotalJsonStringBytes) overflow
  return total

/-- The values of an array, in the order in which the stack gives them back. -/
def stackedItems (values : List Value) (depth : Nat) : List (Value × Nat) :=
  (values.map fun value => (value, depth)).reverse

def stackedEntries (entries : List (String × Value)) (depth : Nat) : List (Value × Nat) :=
  (entries.map fun entry => (entry.2, depth)).reverse

/-- What is left to walk, as a measure: a value weighs more than the values in it. -/
noncomputable def weight (stack : List (Value × Nat)) :
    Nat := (stack.map fun entry => sizeOf entry.1).sum

@[simp] theorem weight_append (first second : List (Value × Nat)) :
    weight (first ++ second) = weight first + weight second := by
  simp [weight]

theorem weight_cons (node : Value) (depth : Nat) (rest : List (Value × Nat)) :
    weight ((node, depth) :: rest) = sizeOf node + weight rest := by
  simp [weight]

theorem weight_items (values : List Value) (depth : Nat) :
    weight (stackedItems values depth) < sizeOf (Value.array values) := by
  induction values with
  | nil => simp [weight, stackedItems]
  | cons value rest ih =>
    simp only [stackedItems, weight, List.map_reverse, List.sum_reverse, List.map_cons,
      List.sum_cons, Value.array.sizeOf_spec, List.cons.sizeOf_spec] at ih ⊢
    omega

theorem weight_entries (entries : List (String × Value)) (depth : Nat) :
    weight (stackedEntries entries depth) < sizeOf (Value.object entries) := by
  induction entries with
  | nil => simp [weight, stackedEntries]
  | cons entry rest ih =>
    obtain ⟨key, value⟩ := entry
    simp only [stackedEntries, weight, List.map_reverse, List.sum_reverse, List.map_cons,
      List.sum_cons, Value.object.sizeOf_spec, List.cons.sizeOf_spec, Prod.mk.sizeOf_spec] at ih ⊢
    omega

/-- The loop of `validate_json_shape`: the values still to look at, with their depths, the last
found first. -/
def walkShape (stack : List (Value × Nat)) (nodes totalStringBytes : Nat) : Except Error Unit :=
  match stack with
  | [] => return ()
  | (node, depth) :: rest => do
    let overflow := .limit ("JSON node count in " ++ document) limits.maxJsonNodes
    let nodes ← checkedAdd nodes 1 overflow
    stop (nodes > limits.maxJsonNodes) overflow
    stop (depth > limits.maxJsonDepth)
      (.limit ("JSON nesting depth in " ++ document) limits.maxJsonDepth)
    match node with
    | .string value =>
      let total ← addJsonString document limits totalStringBytes value
      walkShape rest nodes total
    | .array values =>
      stop (values.length > limits.maxArrayEntries)
        (.limit ("JSON array length in " ++ document) limits.maxArrayEntries)
      walkShape (stackedItems values (depth + 1) ++ rest) nodes totalStringBytes
    | .object entries =>
      stop (entries.length > limits.maxObjectEntries)
        (.limit ("JSON object size in " ++ document) limits.maxObjectEntries)
      let total ← entries.foldlM (fun total entry =>
        addJsonString document limits total entry.1) totalStringBytes
      walkShape (stackedEntries entries (depth + 1) ++ rest) nodes total
    | .null => walkShape rest nodes totalStringBytes
    | .bool _ => walkShape rest nodes totalStringBytes
    | .number _ => walkShape rest nodes totalStringBytes
termination_by weight stack
decreasing_by
  · simp [weight]
  · rw [weight_append, weight_cons]
    exact Nat.add_lt_add_right (weight_items values (depth + 1)) _
  · rw [weight_append, weight_cons]
    exact Nat.add_lt_add_right (weight_entries entries (depth + 1)) _
  · simp [weight]
  · simp [weight]
  · simp [weight]

def validateJsonShape (value : Value) :
    Except Error Unit := walkShape document limits [(value, 0)] 0 0

end Shape

/-! ### The documents -/

structure Platform where
  architecture : String
  os : String
  variant : Option String
  osVersion : Option String
  osFeatures : List String
  features : List String
  deriving DecidableEq

structure Descriptor where
  mediaType : String
  digest : String
  size : Nat
  platform : Option Platform
  annotations : List (String × String)
  artifactType : Option String
  urls : Option (List String)
  data : Option String
  deriving DecidableEq

structure IndexDocument where
  schemaVersion : Nat
  mediaType : Option String
  manifests : List Descriptor
  annotations : List (String × String)
  deriving DecidableEq

structure ManifestDocument where
  schemaVersion : Nat
  mediaType : Option String
  config : Descriptor
  layers : List Descriptor
  annotations : List (String × String)
  artifactType : Option String
  subject : Option Descriptor
  deriving DecidableEq

structure RootFs where
  kind : String
  diffIds : List String
  deriving DecidableEq

structure RuntimeConfig where
  env : Option (List String)
  entrypoint : Option (List String)
  cmd : Option (List String)
  workingDir : Option String
  user : Option String
  labels : Option (List (String × String))
  stopSignal : Option String
  deriving DecidableEq

structure ConfigDocument where
  architecture : String
  os : String
  variant : Option String
  osVersion : Option String
  osFeatures : List String
  rootfs : RootFs
  config : Option RuntimeConfig
  deriving DecidableEq

/-- What `serde_json` and the derived readers do: a whole text as a value, whose objects still list
every entry of the text, and a value as each of the documents. -/
structure Serde where
  value : Bytes → Except String Value
  imageLayoutVersion : Value → Except String String
  index : Value → Except String IndexDocument
  manifest : Value → Except String ManifestDocument
  config : Value → Except String ConfigDocument

section Reading

variable (serde : Serde) {α : Type} (fromValue : Value → Except String α)

def parseJson (bytes : Bytes) (document : String) (limits : VerifyLimits) : Except Error α := do
  let text ← (serde.value bytes).mapError (.json document)
  let value ← (unique text).mapError (.json document)
  validateJsonShape document limits value
  (fromValue value).mapError (.json document)

/-- What a byte string says, if nothing bounds it. -/
def Serde.Says (bytes : Bytes) (contents : α) : Prop :=
  ∃ text value, serde.value bytes = .ok text ∧ unique text = .ok value ∧
    fromValue value = .ok contents

variable {serde fromValue}

theorem Serde.Says.unique {bytes : Bytes} {first second : α} (h : serde.Says fromValue bytes first)
    (h' : serde.Says fromValue bytes second) : first = second := by
  obtain ⟨text, value, htext, hvalue, hfirst⟩ := h
  obtain ⟨text', value', htext', hvalue', hsecond⟩ := h'
  cases htext.symm.trans htext'
  cases hvalue.symm.trans hvalue'
  cases hfirst.symm.trans hsecond
  rfl

theorem says_of_parseJson {bytes : Bytes} {document : String} {limits : VerifyLimits} {contents : α}
    (h : parseJson serde fromValue bytes document limits = .ok contents) :
    serde.Says fromValue bytes contents := by
  unfold parseJson at h
  simp only [bind_ok, mapError_ok] at h
  obtain ⟨text, htext, value, hvalue, _, -, hcontents⟩ := h
  exact ⟨text, value, htext, hvalue, hcontents⟩

end Reading

/-! ### Digests -/

def isHexByte (b : UInt8) : Bool := (48 ≤ b && b ≤ 57) || (97 ≤ b && b ≤ 102)

def hexValue (b : UInt8) : Option UInt8 :=
  if 48 ≤ b && b ≤ 57 then some (b - 48)
  else if 97 ≤ b && b ≤ 102 then some (b - 87)
  else if 65 ≤ b && b ≤ 70 then some (b - 55)
  else none

def hexDecode : Bytes → Except String Bytes
  | [] => return []
  | [_] => .error "Odd number of digits"
  | high :: low :: rest => do
    let highValue ← require (hexValue high) "Invalid character"
    let lowValue ← require (hexValue low) "Invalid character"
    return (highValue * 16 + lowValue) :: (← hexDecode rest)

def parseDigest (text context : String) : Except Error Digest := do
  let encoded ← require ((utf8 "sha256:").isPrefixOf? (utf8 text))
    (.invalidDigest context text "only canonical sha256 digests are accepted")
  stop (encoded.length ≠ 64 ∨ ¬encoded.all isHexByte)
    (.invalidDigest context text "payload must be exactly 64 lowercase hexadecimal digits")
  let bytes ← (hexDecode encoded).mapError (.invalidDigest context text)
  stop (bytes.length ≠ 32) (.invalidDigest context text "decoded digest is not 32 bytes")
  return ⟨BitVec.ofNat 256 (readBE bytes)⟩

def hex (digest : Digest) : String := hexEncode digest.asBytes

theorem parseDigest_context {text context : String} (context' : String) {digest : Digest}
    (h : parseDigest text context = .ok digest) : parseDigest text context' = .ok digest := by
  unfold parseDigest at h ⊢
  simp only [bind_ok, require_ok, stop_ok, mapError_ok] at h ⊢
  exact h

/-! ### Embedded data -/

namespace Base64

def symbol (byte : UInt8) : Option Nat :=
  if 65 ≤ byte && byte ≤ 90 then some (byte.toNat - 65)
  else if 97 ≤ byte && byte ≤ 122 then some (byte.toNat - 97 + 26)
  else if 48 ≤ byte && byte ≤ 57 then some (byte.toNat - 48 + 52)
  else if byte = 43 then some 62
  else if byte = 47 then some 63
  else none

/-- How many of the four symbols of the last group are padding. -/
def paddingOf (third fourth : UInt8) : Option Nat :=
  if third = 61 ∧ fourth = 61 then some 2
  else if third = 61 then none
  else if fourth = 61 then some 1
  else some 0

/-- The 24 bits of a group; padding counts as zero bits. -/
def accumulate (padding : Nat) (group : List UInt8) : Option Nat :=
  group.zipIdx.foldlM (fun accumulator (byte, position) => do
    let value ← if position ≥ 4 - padding then some 0 else symbol byte
    return accumulator * 64 + value) 0

def decodeGroup (last : Bool) (group : List UInt8) : Option Bytes := do
  guard (last ∨ 61 ∉ group)
  let padding ← if last then paddingOf (group.getD 2 0) (group.getD 3 0) else some 0
  let accumulator ← accumulate padding group
  guard (accumulator % 2 ^ (padding * 8) = 0)
  return (beBytes 3 accumulator).take (3 - padding)

def decodeGroups : Bytes → Option Bytes
  | a :: b :: c :: d :: rest => do
    let octets ← decodeGroup rest.isEmpty [a, b, c, d]
    return octets ++ (← decodeGroups rest)
  | _ => some []

end Base64

def decodeCanonicalBase64 (text : String) : Option Bytes :=
  let bytes := utf8 text
  if bytes.length % 4 ≠ 0 then none else Base64.decodeGroups bytes

def validateEmbeddedData (sha256 : Bytes → Digest) (data : String) (descriptor : Descriptor)
    (digest : Digest) (context : String) : Except Error Unit := do
  let decoded ← require (decodeCanonicalBase64 data)
    (.invalidDocument context "embedded descriptor data is not canonically encoded base64")
  stop (decoded.length ≠ descriptor.size)
    (.invalidDocument context ("embedded descriptor data decodes to " ++
    toString decoded.length ++ " bytes but the descriptor declares " ++ toString descriptor.size))
  stop (sha256 decoded ≠ digest)
    (.invalidDocument context "embedded descriptor data does not match the descriptor digest")

/-! ### Annotations and platforms -/

def validateAnnotations (annotations : List (String × String)) (context : String)
    (limits : VerifyLimits) :
    Except Error Unit := do
  stop (annotations.length > limits.maxObjectEntries)
    (.limit ("annotation count in " ++ context) limits.maxObjectEntries)
  stop ("" ∈ annotations.map Prod.fst) (.invalidDocument context "annotation key is empty")

def validatePlatformShape (platform : Platform) (context : String) (limits : VerifyLimits) :
    Except Error Unit := do
  stop (platform.os = "" ∨ platform.architecture = "")
    (.platform context "os and architecture must be non-empty")
  [("os", platform.os), ("architecture", platform.architecture)].forM fun (name, value) =>
    stop ((utf8 value).length > limits.maxProcessStringBytes ∨ 0 ∈ utf8 value)
      (.platform context (name ++ " is invalid or too long"))

/-- An empty text stands for an absent one. -/
def explicitValue (value : Option String) : Option String := value.filter (· ≠ "")

def disagree (expected actual : Option String) : Prop :=
  expected.isSome ∧ actual.isSome ∧ expected ≠ actual

instance (expected actual : Option String) : Decidable (disagree expected actual) :=
  inferInstanceAs (Decidable (_ ∧ _ ∧ _))

def requirePlatformAgreement (expected actual : Platform) (context : String) : Except Error Unit :=
  stop (expected.os ≠ actual.os ∨ expected.architecture ≠ actual.architecture ∨
      disagree (explicitValue expected.variant) (explicitValue actual.variant) ∨
      disagree (explicitValue expected.osVersion) (explicitValue actual.osVersion) ∨
      expected.osFeatures ≠ actual.osFeatures)
    (.platform context "descriptor platform disagrees with image config")

def mergePlatforms (inherited «local» : Option Platform) (context : String)
    (limits : VerifyLimits) :
    Except Error (Option Platform) := do
  «local».forM (validatePlatformShape · context limits)
  match inherited, «local» with
  | some outer, some inner => do
    requirePlatformAgreement outer inner context
    return some inner
  | some platform, none => return some platform
  | none, some platform => return some platform
  | none, none => return none

def validateTargetPlatform (platform : Platform) (context : String) : Except Error Unit := do
  let variant := explicitValue platform.variant
  stop (variant ≠ none ∧ variant ≠ some "v1")
    (.platform context ("amd64 variant " ++ (platform.variant.map String.quote).getD "None" ++
      " is not absent or v1"))
  stop (explicitValue platform.osVersion ≠ none) (.platform context "os.version is not empty")
  stop (platform.osFeatures ≠ [] ∨ platform.features ≠ [])
    (.platform context "os.features/features is not empty")

def effectivePlatform (descriptor : Option Platform) (config : Platform) : Platform where
  architecture := config.architecture
  os := config.os
  variant := (descriptor.bind fun value => explicitValue value.variant).or
    (explicitValue config.variant)
  osVersion := (descriptor.bind fun value => explicitValue value.osVersion).or
    (explicitValue config.osVersion)
  osFeatures := match descriptor with
    | some value => if value.osFeatures ≠ [] then value.osFeatures else config.osFeatures
    | none => config.osFeatures
  features := (descriptor.map Platform.features).getD []

/-! ### Descriptors, indexes, manifests and configurations -/

def validateDescriptor (sha256 : Bytes → Digest) (limits : VerifyLimits) (descriptor : Descriptor)
    (context : String) :
    Except Error Unit := do
  let digest ← parseDigest descriptor.digest context
  stop (descriptor.mediaType = "") (.invalidDocument context "descriptor mediaType is empty")
  stop descriptor.artifactType.isSome
    (.invalidDocument context "artifact descriptor is not an executable image")
  stop (descriptor.urls.getD [] ≠ [])
    (.invalidDocument context "external descriptor URLs are forbidden")
  descriptor.data.forM (validateEmbeddedData sha256 · descriptor digest context)
  validateAnnotations descriptor.annotations context limits
  descriptor.platform.forM (validatePlatformShape · context limits)

def mediaTypeReason (document descriptor : String) : String :=
  "document mediaType " ++ document.quote ++ " disagrees with descriptor " ++ descriptor.quote

def validateIndex (limits : VerifyLimits) (index : IndexDocument) (context : String)
    (descriptorMediaType : Option String) : Except Error Unit := do
  stop (index.schemaVersion ≠ 2)
    (.invalidDocument context ("schemaVersion is " ++ toString index.schemaVersion ++ ", not 2"))
  index.mediaType.forM fun mediaType => do
    stop (mediaType ≠ OCI_INDEX ∧ mediaType ≠ DOCKER_INDEX)
      (.unsupportedMediaType context mediaType)
    descriptorMediaType.forM fun descriptorType =>
      stop (mediaType ≠ descriptorType) (.invalidDocument context
        (mediaTypeReason mediaType descriptorType))
  stop (index.manifests = []) (.invalidDocument context "manifests array is empty")
  stop (index.manifests.length > limits.maxDescriptorsPerIndex)
    (.limit ("descriptor count in " ++ context) limits.maxDescriptorsPerIndex)
  validateAnnotations index.annotations context limits

def validateManifest (limits : VerifyLimits) (manifest : ManifestDocument) (descriptor : Descriptor)
    (context : String) : Except Error Unit := do
  stop (manifest.schemaVersion ≠ 2)
    (.invalidDocument context ("schemaVersion is " ++ toString manifest.schemaVersion ++ ", not 2"))
  manifest.mediaType.forM fun mediaType =>
    stop (mediaType ≠ descriptor.mediaType)
      (.invalidDocument context (mediaTypeReason mediaType descriptor.mediaType))
  stop (manifest.artifactType.isSome ∨ manifest.subject.isSome)
    (.invalidDocument context "artifact manifests and subject-linked manifests are not executable images")
  stop (manifest.layers.length > limits.maxLayers)
    (.limit ("layer count in " ++ context) limits.maxLayers)
  validateAnnotations manifest.annotations context limits

def validateConfigCore (limits : VerifyLimits) (config : ConfigDocument) (context : String) :
    Except Error Unit := do
  stop (config.rootfs.kind ≠ "layers")
    (.invalidDocument context ("rootfs type is " ++ config.rootfs.kind.quote ++ ", not \"layers\""))
  stop (config.rootfs.diffIds.length > limits.maxLayers)
    (.limit ("rootfs diff_id count in " ++ context) limits.maxLayers)
  config.rootfs.diffIds.zipIdx.forM fun (digest, position) => do
    let _ ← parseDigest digest ("rootfs diff_id " ++ toString position)

structure DockerProcessConfig where
  entrypoint : List String
  cmd : List String
  argv : List String
  env : List String
  workingDir : String
  user : String
  labels : List (String × String)
  stopSignal : Option String
  deriving DecidableEq

inductive Component where
  | rootDir
  | curDir
  | parentDir
  | normal (name : String)
  deriving DecidableEq

/-- One part between slashes; an empty part and a dot are left out. -/
def component (part : String) : Option Component :=
  if part = "" ∨ part = "." then none
  else if part = ".." then some .parentDir
  else some (.normal part)

def isAbsolute (path : String) : Bool := path.toList.head? = some '/'

/-- `Path::components`: a dot counts only where a relative path starts with it. -/
def components (path : String) : List Component :=
  let parts := (path.toList.splitOn '/').map String.ofList
  let start := if isAbsolute path then
    [.rootDir] else if parts.head? = some "." then [.curDir] else []
  start ++ parts.filterMap component

def normalized (path : String) : String :=
  "/" ++ "/".intercalate ((components path).filterMap fun
    | .normal name => some name
    | _ => none)

def validateProcessString (limits : VerifyLimits) (field value : String) : Except Error Unit := do
  stop ((utf8 value).length > limits.maxProcessStringBytes)
    (.limit ("Docker config " ++ field ++ " string length") limits.maxProcessStringBytes)
  stop (0 ∈ utf8 value) (.processConfig (field ++ " contains NUL"))

def validateProcessStrings (limits : VerifyLimits) (name : String) (values : List String) :
    Except Error Unit := do
  stop (values.length > limits.maxProcessEntries)
    (.limit ("Docker config " ++ name ++ " entry count") limits.maxProcessEntries)
  values.forM (validateProcessString limits name)

def validateLabel (limits : VerifyLimits) (label : String × String) : Except Error Unit := do
  validateProcessString limits "label key" label.1
  validateProcessString limits "label value" label.2
  stop (label.1 = "") (.processConfig "label key is empty")

def environmentKey (entry : String) : Option String :=
  if '=' ∈ entry.toList then some (String.ofList (entry.toList.takeWhile (· ≠ '='))) else none

def validateEnvironmentEntry (entry : String) : Except Error Unit := do
  let key ← require (environmentKey entry)
    (.processConfig ("environment entry " ++ entry.quote ++ " has no '='"))
  stop (key = "" ∨ '=' ∈ key.toList)
    (.processConfig ("environment entry " ++ entry.quote ++ " has an invalid key"))

def effectiveProcess (config : Option RuntimeConfig) (limits : VerifyLimits) :
    Except Error DockerProcessConfig := do
  let entrypoint := (config.bind RuntimeConfig.entrypoint).getD []
  let cmd := (config.bind RuntimeConfig.cmd).getD []
  let env := (config.bind RuntimeConfig.env).getD []
  let labels := (config.bind RuntimeConfig.labels).getD []
  let stopSignal := config.bind RuntimeConfig.stopSignal
  let workingDir := (explicitValue (config.bind RuntimeConfig.workingDir)).getD "/"
  let user := (explicitValue (config.bind RuntimeConfig.user)).getD "0"
  validateProcessStrings limits "Entrypoint" entrypoint
  validateProcessStrings limits "Cmd" cmd
  validateProcessStrings limits "Env" env
  stop (labels.length > limits.maxLabels) (.limit "Docker config label count" limits.maxLabels)
  labels.forM (validateLabel limits)
  env.forM validateEnvironmentEntry
  validateProcessString limits "WorkingDir" workingDir
  stop (¬isAbsolute workingDir ∨ .parentDir ∈ components workingDir)
    (.processConfig ("WorkingDir " ++ workingDir.quote ++ " is not an absolute normalized path"))
  validateProcessString limits "User" user
  stopSignal.forM (validateProcessString limits "StopSignal")
  let overflow := .limit "effective argv entry count" limits.maxProcessEntries
  let argvLength ← checkedAdd entrypoint.length cmd.length overflow
  stop (argvLength > limits.maxProcessEntries) overflow
  let argv := entrypoint ++ cmd
  stop (argv.head? = some "") (.processConfig "effective argv[0] is empty")
  return { entrypoint, cmd, argv, env, workingDir := normalized workingDir, user, labels, stopSignal }

/-! ### Embedded data has one text -/

open List

namespace Base64

def letter (value : Nat) : UInt8 :=
  (utf8 "ABCDEFGHIJKLMNOPQRSTUVWXYZabcdefghijklmnopqrstuvwxyz0123456789+/").getD value 0

def letters (bits : Nat) : Bytes := [bits / 262144, bits / 4096 % 64, bits / 64 % 64,
    bits % 64].map letter

/-- Up to three octets as 24 bits, of which those that are missing are zero. -/
def bits (octets : Bytes) : Nat := readBE octets * 256 ^ (3 - octets.length)

def encodeGroup (octets : Bytes) : Bytes :=
  (letters (bits octets)).take (octets.length + 1) ++ List.replicate (3 - octets.length) 61

/-- The standard encoding with padding. -/
def encode (octets : Bytes) : Bytes :=
  if _ : octets = [] then [] else encodeGroup (octets.take 3) ++ encode (octets.drop 3)
termination_by octets.length
decreasing_by
  have := length_pos_of_ne_nil ‹_›
  rw [length_drop]
  omega

variable {last : Bool} {a b c d : UInt8} {n v padding : Nat} {octets rest text : Bytes}

theorem symbol_eq_some : symbol c = some v ↔ v < 64 ∧ c = letter v := by
  have hletter : ∀ v < 64, symbol (letter v) = some v := by decide +kernel
  have hsymbol : ∀ n < 256, ∀ v ∈ symbol (UInt8.ofNat n), v < 64 ∧ UInt8.ofNat n = letter v := by
    decide +kernel
  constructor
  · intro h
    have := hsymbol c.toNat c.toNat_lt v
    rw [UInt8.ofNat_toNat] at this
    exact this h
  · rintro ⟨hv, rfl⟩
    exact hletter v hv

theorem accumulate_eq_some (h : padding ≤ 2) : accumulate padding [a, b, c, d] = some n ↔
    n < 2 ^ 24 ∧ n % 64 ^ padding = 0 ∧ [a, b, c, d].take (4 - padding) = (letters n).take
      (4 - padding) := by
  obtain rfl | rfl | rfl : padding = 0 ∨ padding = 1 ∨ padding = 2 := by omega
  all_goals
    simp [accumulate, letters, Option.bind_eq_some_iff, symbol_eq_some]
    constructor
  · rintro ⟨v, ⟨hv, rfl⟩, w, ⟨hw, rfl⟩, x, ⟨hx, rfl⟩, y, ⟨hy, rfl⟩, rfl⟩
    exact ⟨by omega, by omega, congrArg _ (by omega), congrArg _ (by omega), congrArg _ (by omega),
      congrArg _ (by omega)⟩
  · rintro ⟨hlt, -, ha, hb, hc, hd⟩
    exact ⟨_, ⟨by omega, ha⟩, _, ⟨by omega, hb⟩, _, ⟨by omega, hc⟩, _, ⟨by omega, hd⟩, by omega⟩
  · rintro ⟨v, ⟨hv, rfl⟩, w, ⟨hw, rfl⟩, x, ⟨hx, rfl⟩, rfl⟩
    exact ⟨by omega, by omega, congrArg _ (by omega), congrArg _ (by omega), congrArg _ (by omega)⟩
  · rintro ⟨hlt, hzero, ha, hb, hc⟩
    exact ⟨_, ⟨by omega, ha⟩, _, ⟨by omega, hb⟩, _, ⟨by omega, hc⟩, by omega⟩
  · rintro ⟨v, ⟨hv, rfl⟩, w, ⟨hw, rfl⟩, rfl⟩
    exact ⟨by omega, by omega, congrArg _ (by omega), congrArg _ (by omega)⟩
  · rintro ⟨hlt, hzero, ha, hb⟩
    exact ⟨_, ⟨by omega, ha⟩, _, ⟨by omega, hb⟩, by omega⟩

/-- Padding is told from the symbols, which it is none of. -/
theorem padding_iff (h : padding ≤ 2) (hlt : n < 2 ^ 24) :
    ((last = true ∨ 61 ∉ [a, b, c, d]) ∧ (if last then paddingOf c d else some 0) = some padding) ∧
      [a, b, c, d].take (4 - padding) = (letters n).take (4 - padding) ↔
    [a, b, c, d] = (letters n).take (4 - padding) ++ List.replicate padding 61 ∧
      (last = false → padding = 0) := by
  have hletter : ∀ v < 64, letter v ≠ 61 := by decide +kernel
  have hfirst := hletter (n / 262144) (by omega)
  have hothers (m) := hletter (m % 64) (by omega)
  obtain rfl | rfl | rfl : padding = 0 ∨ padding = 1 ∨ padding = 2 := by omega
  all_goals
    simp [letters]
    cases last
    all_goals grind [paddingOf]

theorem bits_iff (h : padding ≤ 2) :
    n < 2 ^ 24 ∧ n % 2 ^ (padding * 8) = 0 ∧ (beBytes 3 n).take (3 - padding) = octets ↔
      octets.length = 3 - padding ∧ bits octets = n := by
  have htake : (beBytes 3 n).take (3 - padding) = beBytes (3 - padding) (n / 256 ^ padding) := by
    obtain rfl | rfl | rfl : padding = 0 ∨ padding = 1 ∨ padding = 2 := by omega
    all_goals simp [beBytes, Nat.div_div_eq_div_mul]
  have hroom : 2 ^ 24 = 256 ^ padding * 256 ^ (3 - padding) := by
    rw [← pow_add, Nat.add_sub_of_le (by omega)]
    rfl
  have hpos : 0 < 256 ^ padding := Nat.pow_pos (by decide)
  rw [htake, hroom, pow_mul']
  constructor
  · rintro ⟨hlt, hzero, rfl⟩
    rw [bits, length_beBytes, readBE_beBytes (Nat.div_lt_of_lt_mul hlt),
      Nat.sub_sub_self (by omega)]
    exact ⟨rfl, Nat.div_mul_cancel (Nat.dvd_of_mod_eq_zero hzero)⟩
  · rintro ⟨hlen, rfl⟩
    have hlt := readBE_lt octets
    have hback := beBytes_readBE octets
    rw [bits, hlen, Nat.sub_sub_self (by omega), Nat.mul_comm _ (256 ^ padding)]
    rw [hlen] at hlt hback
    refine ⟨Nat.mul_lt_mul_of_pos_left hlt hpos, Nat.mul_mod_right _ _, ?_⟩
    rw [Nat.mul_div_cancel_left _ hpos, hback]

theorem decodeGroup_eq_some : decodeGroup last [a, b, c, d] = some octets ↔
    [a, b, c, d] = encodeGroup octets ∧ 1 ≤ octets.length ∧ octets.length ≤ 3 ∧
      (last = false → octets.length = 3) := by
  have hle : ∀ padding, (if last then paddingOf c d else some 0) = some padding → padding ≤ 2 := by
    grind [paddingOf]
  have heq : decodeGroup last [a, b, c, d] =
    (guard (last = true ∨ 61 ∉ [a, b, c, d]) : Option Unit).bind fun _ =>
      (if last then paddingOf c d else some 0).bind fun padding =>
        (accumulate padding [a, b, c, d]).bind fun n =>
        (guard (n % 2 ^ (padding * 8) = 0) : Option Unit).bind fun _ =>
          some ((beBytes 3 n).take (3 - padding)) := by
    cases last <;> rfl
  simp only [heq, Option.bind_eq_some_iff, Option.some.injEq, Option.guard_eq_some']
  constructor
  · rintro ⟨_, hmarks, padding, hpadding, n, hn, _, hzero, hoctets⟩
    have h := hle padding hpadding
    obtain ⟨hlt, -, hsymbols⟩ := (accumulate_eq_some h).mp hn
    obtain ⟨hlen, rfl⟩ := (bits_iff h).mp ⟨hlt, hzero, hoctets⟩
    obtain ⟨hgroup, hlast⟩ := (padding_iff h hlt).mp ⟨⟨hmarks, hpadding⟩, hsymbols⟩
    rw [encodeGroup, hlen, show 3 - padding + 1 = 4 - padding by omega, Nat.sub_sub_self (by omega)]
    exact ⟨hgroup, by omega, by omega, fun hl => by have := hlast hl; omega⟩
  · rintro ⟨hgroup, hpos, hlen, hlast⟩
    have h : 3 - octets.length ≤ 2 := by omega
    obtain ⟨hlt, hzero, hoctets⟩ := (@bits_iff _ _ octets h).mpr ⟨by omega, rfl⟩
    rw [encodeGroup, show octets.length + 1 = 4 - (3 - octets.length) by omega] at hgroup
    obtain ⟨⟨hmarks, hpadding⟩, hsymbols⟩ := (padding_iff h hlt).mpr ⟨hgroup,
      fun hl => by have := hlast hl; omega⟩
    refine ⟨(), hmarks, _, hpadding, _, (accumulate_eq_some h).mpr ⟨hlt, ?_, hsymbols⟩, (),
      hzero, hoctets⟩
    have hdvd : 64 ^ (3 - octets.length) ∣ 2 ^ ((3 - octets.length) * 8) := by
      rw [pow_mul']
      exact pow_dvd_pow_of_dvd (by decide) _
    exact Nat.mod_eq_zero_of_dvd (hdvd.trans (Nat.dvd_of_mod_eq_zero hzero))

theorem encode_cons (h : octets ≠ []) :
    encode octets = encodeGroup (octets.take 3) ++ encode (octets.drop 3) := by
  rw [encode, dif_neg h]

theorem decodeGroups_eq_some : decodeGroups text = some octets ∧ text.length % 4 = 0 ↔
    text = encode octets := by
  have hnil : encode [] = [] := by rw [encode, dif_pos rfl]
  have hlength (octets : Bytes) : (encodeGroup (octets.take 3)).length = 4 := by
    simp [encodeGroup, letters]
  fun_induction decodeGroups text generalizing octets with
  | case1 a b c d rest ih =>
    simp only [Option.bind_eq_bind, Option.bind_eq_some_iff, Option.pure_def, Option.some.injEq,
      decodeGroup_eq_some, length_cons]
    constructor
    · rintro ⟨⟨first, ⟨hgroup, hpos, hle, hlast⟩, others, hothers, rfl⟩, hmod⟩
      have hparts : (first ++ others).take 3 = first ∧ (first ++ others).drop 3 = others := by
        cases rest with
        | nil => cases hothers; simpa [take_of_length_le hle] using hle
        | cons => rw [← hlast rfl]; simp
      have hne : first ++ others ≠ [] :=
        append_ne_nil_of_left_ne_nil (ne_nil_of_length_pos hpos) others
      rw [encode_cons hne, hparts.1, hparts.2, ← hgroup, ← ih.mp ⟨hothers, by omega⟩]
      rfl
    · intro htext
      have hne : octets ≠ [] := by
        rintro rfl
        rw [hnil] at htext
        cases htext
      rw [encode_cons hne] at htext
      obtain ⟨hgroup, hrest⟩ := @append_inj _ [a, b, c, d] _ rest _ htext (hlength octets).symm
      obtain ⟨hothers, hmod⟩ := ih.mpr hrest
      have hpos := length_pos_of_ne_nil hne
      have hfirst : (octets.take 3).length = min 3 octets.length := length_take
      refine ⟨⟨_, ⟨hgroup, by omega, by omega, fun hlast => ?_⟩, _, hothers,
        take_append_drop ..⟩, by omega⟩
      by_contra hshort
      rw [hrest, drop_eq_nil_of_le (by omega), hnil] at hlast
      cases hlast
  | case2 text hshort =>
    have hlt : text.length < 4 := by
      match text with
      | [] | [_] | [_, _] | [_, _, _] => simp
      | a :: b :: c :: d :: rest => exact absurd rfl (hshort a b c d rest)
    constructor
    · rintro ⟨⟨⟩, hmod⟩
      rw [hnil]
      exact length_eq_zero_iff.mp (by omega)
    · rintro rfl
      obtain rfl : octets = [] := by
        by_contra hne
        rw [encode_cons hne, length_append, hlength] at hlt
        omega
      rw [hnil]
      exact ⟨rfl, rfl⟩

end Base64

/-- A text is taken for a byte string exactly if it is its encoding, so that a byte string has one
text. -/
theorem decodeCanonicalBase64_iff :
    (∀ text octets, decodeCanonicalBase64 text = some octets ↔ utf8 text = Base64.encode octets) ∧
    ∀ text text' octets, decodeCanonicalBase64 text = some octets →
      decodeCanonicalBase64 text' = some octets → text = text' := by
  have hiff : ∀ text octets, decodeCanonicalBase64 text = some octets ↔
    utf8 text = Base64.encode octets := by
    intro text octets
    rw [← Base64.decodeGroups_eq_some]
    simp [decodeCanonicalBase64, and_comm]
  refine ⟨hiff, fun text text' octets h h' => utf8_inj ?_⟩
  rw [(hiff _ _).mp h, (hiff _ _).mp h']

end PocketVm.Oci
