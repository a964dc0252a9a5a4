import Mathlib.Data.List.Sort
import PocketVm.Wire

/-!
# Identifiers and specifications

`pocket-store/src/identity.rs` and the writers of `codec.rs`: digests, the hash identifiers, what
a generation is built from (`GenerationSpec`), and the byte strings that are hashed into them.
Values that the source builds only through a validating constructor carry the check they passed.
SHA-256 is a parameter `sha256`.
-/

namespace PocketVm

open Wire Checked

def utf8 (s : String) : Bytes := s.toUTF8.data.toList

theorem utf8_ofList (chars : List Char) :
    utf8 (String.ofList chars) = chars.flatMap String.utf8EncodeChar := by
  unfold utf8
  rw [String.toUTF8, String.toByteArray_ofList, List.utf8Encode]
  simp

theorem utf8_ofList_ascii {chars : List Char} (h : ∀ c ∈ chars, c.toNat < 128) :
    utf8 (String.ofList chars) = chars.map fun c => UInt8.ofNat c.toNat := by
  rw [utf8_ofList, List.map_eq_flatMap]
  refine List.flatMap_congr fun c hc => ?_
  exact if_pos (Nat.le_of_lt_succ (h c hc))

theorem utf8_inj {s t : String} (h : utf8 s = utf8 t) : s = t :=
  String.toByteArray_inj.mp (ByteArray.ext (Array.toList_inj.mp h))

def MAX_ID_TEXT : Nat := 128
def MAX_REFERENCE_TEXT : Nat := 1024
def MAX_PLATFORM_FEATURES : Nat := 32
def MAX_LAYERS : Nat := 512
def MAX_GENERATION_SIDECARS : Nat := 64
def MAX_SIDECAR_NAME_BYTES : Nat := 128

/-! ### Digests and hash identifiers -/

structure Digest where
  bits : BitVec 256
  deriving DecidableEq

namespace Digest

def asBytes (d : Digest) : Bytes := beBytes 32 d.bits.toNat

theorem selfDelim_asBytes : SelfDelim (fun _ => True) asBytes :=
  SelfDelim.of_length (by simp [asBytes]) fun a b _ _ h => by
    have hbits := beBytes_inj (by simpa using a.bits.isLt) (by simpa using b.bits.isLt) h
    exact congrArg mk (BitVec.eq_of_toNat_eq hbits)

end Digest

inductive IdKind where
  | generation | derivation | «alias» | retainedCow | «instance»
  deriving DecidableEq

def IdKind.tag : IdKind → String
  | generation => "pkvm-gen-v1-"
  | derivation => "pkvm-der-v1-"
  | «alias» => "pkvm-alias-v1-"
  | retainedCow => "pkvm-cow-v1-"
  | «instance» => "pkvm-inst-v1-"

/-- What `hash_id!` declares: a hash used as a name of one kind. -/
structure HashId (kind : IdKind) where
  bits : BitVec 256
  deriving DecidableEq

abbrev GenerationId := HashId .generation
abbrev DerivationKey := HashId .derivation
abbrev AliasId := HashId .alias
abbrev RetainedCowId := HashId .retainedCow
abbrev InstanceId := HashId .instance

namespace HashId

variable {kind : IdKind}

def ofDigest (d : Digest) : HashId kind := ⟨d.bits⟩

def asBytes (i : HashId kind) : Bytes := beBytes 32 i.bits.toNat

theorem selfDelim_asBytes : SelfDelim (fun _ => True) (@asBytes kind) :=
  SelfDelim.of_length (by simp [asBytes]) fun a b _ _ h => by
    have hbits := beBytes_inj (by simpa using a.bits.isLt) (by simpa using b.bits.isLt) h
    exact congrArg mk (BitVec.eq_of_toNat_eq hbits)

/-- The order of the bytes, which is that of the numbers they spell. -/
def le (i j : HashId kind) : Bool := decide (i.bits.toNat ≤ j.bits.toNat)

end HashId

def hexEncode (bytes : Bytes) : String :=
  String.ofList (bytes.flatMap fun b => [Nat.digitChar (b.toNat / 16),
    Nat.digitChar (b.toNat % 16)])

theorem digitChar_inj {m n : Nat} (hm : m < 16) (hn : n < 16)
    (h : Nat.digitChar m = Nat.digitChar n) : m = n := by
  have hdigits : ∀ i j : Fin 16, Nat.digitChar i = Nat.digitChar j → i = j := by decide
  exact Fin.mk.inj (hdigits ⟨m, hm⟩ ⟨n, hn⟩ h)

theorem hexEncode_inj {a b : Bytes} (h : hexEncode a = hexEncode b) : a = b := by
  have hchars := String.ofList_inj.mp h
  induction a generalizing b with
  | nil =>
    cases b with
    | nil => rfl
    | cons y b => cases hchars
  | cons x a ih =>
    cases b with
    | nil => cases hchars
    | cons y b =>
      simp only [List.flatMap_cons, List.cons_append, List.nil_append, List.cons.injEq] at hchars
      obtain ⟨hhigh, hlow, hrest⟩ := hchars
      have hx := x.toNat_lt
      have hy := y.toNat_lt
      have hhigh := digitChar_inj (by omega) (by omega) hhigh
      have hlow := digitChar_inj (by omega) (by omega) hlow
      have hxy : x = y := UInt8.toNat_inj.mp (by omega)
      rw [hxy, ih (congrArg String.ofList hrest) hrest]

theorem utf8_hexEncode (bytes : Bytes) : utf8 (hexEncode bytes) =
    bytes.flatMap fun b =>
      [UInt8.ofNat (Nat.digitChar (b.toNat / 16)).toNat,
        UInt8.ofNat (Nat.digitChar (b.toNat % 16)).toNat] := by
  have hdigits : ∀ i : Fin 16, (Nat.digitChar i).toNat < 128 := by decide
  rw [hexEncode, utf8_ofList_ascii, List.map_flatMap]
  · rfl
  · intro c hc
    obtain ⟨b, -, hb⟩ := List.mem_flatMap.mp hc
    have hlt := b.toNat_lt
    rcases List.mem_pair.mp hb with rfl | rfl
    · exact hdigits ⟨b.toNat / 16, by omega⟩
    · exact hdigits ⟨b.toNat % 16, by omega⟩

theorem Digest.hexEncode_inj {d d' : Digest}
    (h : hexEncode d.asBytes = hexEncode d'.asBytes) : d = d' :=
  Digest.selfDelim_asBytes.injOn trivial trivial (PocketVm.hexEncode_inj h)

def HashId.display {kind : IdKind} (i : HashId kind) : String := kind.tag ++ hexEncode i.asBytes
def Digest.display (d : Digest) : String := "sha256:" ++ hexEncode d.asBytes

/-! ### Failures -/

inductive MetadataKind where
  | store | generation | staging | «alias» | lease | retainedCow | «instance» | derivation | lock
  deriving DecidableEq

/-- The `io::ErrorKind`s the store tells apart. -/
inductive IoKind where
  | notFound | alreadyExists | other
  deriving DecidableEq

/-- `StoreError`, without the host path that only its text shows. -/
inductive StoreError where
  | io (operation : String) (kind : IoKind)
  | invalidInput (field reason : String)
  | invalidMetadata (kind : MetadataKind) (reason : String)
  | metadataTooLarge (kind : MetadataKind) (maximum : Nat)
  | symlink
  | generationNotFound (id : GenerationId)
  | derivationBusy (key : DerivationKey)
  | generationAlreadyExists (id : GenerationId)
  | aliasNotFound
  | derivationNotFound
  | retainedCowNotFound
  | instanceNotFound
  | digestMismatch (expected actual : Digest)
  | sizeMismatch (expected actual : UInt64)
  | sidecarNotFound (id : GenerationId) (name : String)
  | sidecarTooLarge (actual : UInt64) (maximum : Nat)
  | unsafeGarbageCollection (reason : String)
  | unexpectedEntry
  deriving DecidableEq

def invalid (field reason : String) : StoreError := .invalidInput field reason

/-! ### Validated texts -/

def isAsciiAlphanumeric (b : UInt8) : Bool :=
  (48 ≤ b && b ≤ 57) || (65 ≤ b && b ≤ 90) || (97 ≤ b && b ≤ 122)

def isIdentifierByte (b : UInt8) : Bool :=
  isAsciiAlphanumeric b || [45, 95, 46, 43, 47].contains b

/-- A text that `validate_identifier` accepts. -/
structure Identifier where
  val : String
  size_ok : 0 < (utf8 val).length ∧ (utf8 val).length ≤ MAX_ID_TEXT
  bytes_ok : (utf8 val).all isIdentifierByte = true
  deriving DecidableEq

def validateIdentifier (field value : String) : Except StoreError Identifier :=
  if hs : 0 < (utf8 value).length ∧ (utf8 value).length ≤ MAX_ID_TEXT then
    if hb : (utf8 value).all isIdentifierByte = true then .ok ⟨value, hs, hb⟩
    else .error (invalid field
      "must contain only ASCII letters, digits, '.', '_', '+', '-', or '/'")
  else .error (invalid field "must contain 1..=128 bytes")

theorem validateIdentifier_ok {field value : String} {i : Identifier} :
    validateIdentifier field value = .ok i ↔ i.val = value := by
  unfold validateIdentifier
  constructor
  · intro h
    split at h
    · split at h
      · cases h
        rfl
      · cases h
    · cases h
  · rintro rfl
    rw [dif_pos i.size_ok, dif_pos i.bytes_ok]

def isControl (c : Char) : Bool := c.toNat < 32 || (127 ≤ c.toNat && c.toNat < 160)

def isWhiteSpace (c : Char) : Bool :=
  (9 ≤ c.toNat && c.toNat ≤ 13) || c.toNat == 32 || c.toNat == 0x85 || c.toNat == 0xa0 ||
    c.toNat == 0x1680 ||
    (0x2000 ≤ c.toNat && c.toNat ≤ 0x200a) || c.toNat == 0x2028 || c.toNat == 0x2029 ||
      c.toNat == 0x202f ||
    c.toNat == 0x205f || c.toNat == 0x3000

/-- A text that `validate_text` accepts under a bound. -/
structure Text (maximum : Nat) where
  val : String
  size_ok : 0 < (utf8 val).length ∧ (utf8 val).length ≤ maximum
  chars_ok : val.toList.any isControl = false
  deriving DecidableEq

def validateText (field value : String) (maximum : Nat) : Except StoreError (Text maximum) :=
  if hs : 0 < (utf8 value).length ∧ (utf8 value).length ≤ maximum then
    if hc : value.toList.any isControl = false then .ok ⟨value, hs, hc⟩
    else .error (invalid field "must not contain control characters")
  else .error (invalid field ("must contain 1..=" ++ toString maximum ++ " bytes"))

def reservedNames : List String := [".", "..", "base.ext4", "generation.meta", "staging.meta"]

def isSidecarName (value : String) : Bool :=
  0 < (utf8 value).length && (utf8 value).length ≤ MAX_SIDECAR_NAME_BYTES &&
    !reservedNames.contains value && (utf8 value).head? != some 46 &&
    (utf8 value).all fun b => isAsciiAlphanumeric b || [46, 95, 45].contains b

/-- One immutable output beside the base image, covered by the generation's identity. -/
structure ImmutableSidecar where
  name : String
  digest : Digest
  size : UInt64
  name_ok : isSidecarName name = true
  deriving DecidableEq

def ImmutableSidecar.new (name : String) (digest : Digest) (size : UInt64) :
    Except StoreError ImmutableSidecar :=
  if h : isSidecarName name = true then .ok ⟨name, digest, size, h⟩
  else .error (invalid "sidecar.name"
    "must be a non-reserved ASCII basename using letters, digits, '.', '_', or '-'")

def sidecarsOrdered : List ImmutableSidecar → Bool
  | a :: b :: rest => utf8 a.name < utf8 b.name && sidecarsOrdered (b :: rest)
  | _ => true

def validateCanonicalSidecars (sidecars : List ImmutableSidecar) : Except StoreError Unit :=
  if sidecars.length > MAX_GENERATION_SIDECARS then
    .error (invalid "sidecars" "at most 64 entries are allowed")
  else if !sidecarsOrdered sidecars then
    .error (invalid "sidecars" "entries must be strictly ordered by canonical byte name")
  else .ok ()

/-! ### Platforms -/

structure Platform where
  os : Identifier
  architecture : Identifier
  variant : Option Identifier
  osVersion : Option (Text MAX_ID_TEXT)
  osFeatures : List Identifier
  features_le : osFeatures.length ≤ MAX_PLATFORM_FEATURES
  features_sorted : (osFeatures.map Identifier.val).Pairwise (· < ·)
  deriving DecidableEq

def Platform.new (os architecture : String) (variant osVersion : Option String)
    (osFeatures : List String) : Except StoreError Platform := do
  let os ← validateIdentifier "platform.os" os
  let architecture ← validateIdentifier "platform.architecture" architecture
  let variant ← variant.mapM (validateIdentifier "platform.variant")
  let osVersion ← osVersion.mapM (validateText "platform.os_version" · MAX_ID_TEXT)
  if osFeatures.length > MAX_PLATFORM_FEATURES then
    throw (invalid "platform.os_features" "at most 32 entries are allowed")
  let features ← osFeatures.mapM (validateIdentifier "platform.os_features")
  let sorted := features.insertionSort fun a b => a.val ≤ b.val
  if hn : sorted.length ≤ MAX_PLATFORM_FEATURES then
    -- sorted, so strictly increasing unless two neighbours are equal
    if hs : (sorted.map Identifier.val).Pairwise (· < ·) then
      return ⟨os, architecture, variant, osVersion, sorted, hn, hs⟩
    else throw (invalid "platform.os_features" "duplicate entry")
  else throw (invalid "platform.os_features" "at most 32 entries are allowed")

theorem Platform.of_new {os architecture : String} {variant osVersion : Option String}
    {osFeatures : List String}
    {p : Platform} (h : Platform.new os architecture variant osVersion osFeatures = .ok p) :
    p.os.val = os ∧ p.architecture.val = architecture ∧ p.variant.map Identifier.val = variant := by
  unfold Platform.new at h
  simp only [bind_ok, validateIdentifier_ok] at h
  obtain ⟨os', hos, architecture', harch, variant', hvariant, version, -, h⟩ := h
  have hvariant : variant'.map Identifier.val = variant := by
    cases variant with
    | none =>
      cases hvariant
      rfl
    | some v =>
      simp only [Option.mapM_some, map_ok, validateIdentifier_ok] at hvariant
      obtain ⟨i, hi, rfl⟩ := hvariant
      exact congrArg some hi
  split at h
  · cases h
  · simp only [bind_ok] at h
    obtain ⟨features, -, h⟩ := h
    split at h
    · split at h
      · cases h
        exact ⟨hos, harch, hvariant⟩
      · cases h
    · cases h

def mergedOptionalPlatformField {τ : Type} [DecidableEq τ] (field : String)
    (descriptor config : Option τ) : Except StoreError (Option τ) :=
  match descriptor, config with
  | some left, some right =>
    if left ≠ right then .error (invalid field "descriptor and config values disagree")
    else .ok (some left)
  | some value, none => .ok (some value)
  | none, some value => .ok (some value)
  | none, none => .ok none

def validatePlatformContract (descriptor : Option Platform) (config effective : Platform) :
    Except StoreError Unit := do
  if config.os ≠ effective.os then
    throw (invalid "platform.os" "config and effective values disagree")
  if config.architecture ≠ effective.architecture then
    throw (invalid "platform.architecture" "config and effective values disagree")
  if let some d := descriptor then
    if d.os ≠ config.os ∨ d.architecture ≠ config.architecture then
      throw (invalid "descriptor_platform" "descriptor and config OS/architecture disagree")
  let variant ← mergedOptionalPlatformField "platform.variant"
    (descriptor.bind Platform.variant) config.variant
  if effective.variant ≠ variant then
    throw (invalid "effective_platform.variant"
      "does not equal the reconciled descriptor/config value")
  let osVersion ← mergedOptionalPlatformField "platform.os_version"
    (descriptor.bind Platform.osVersion) config.osVersion
  if effective.osVersion ≠ osVersion then
    throw (invalid "effective_platform.os_version"
      "does not equal the reconciled descriptor/config value")
  let descriptorFeatures := (descriptor.map Platform.osFeatures).getD []
  let features ←
    if descriptorFeatures.isEmpty then pure config.osFeatures
    else if config.osFeatures.isEmpty ∨ config.osFeatures = descriptorFeatures then
      pure descriptorFeatures
    else throw (invalid "platform.os_features" "descriptor and config values disagree")
  if effective.osFeatures ≠ features then
    throw (invalid "effective_platform.os_features"
      "does not equal the reconciled descriptor/config value")

/-! ### Generation specifications -/

/-- The immutable inputs of a generation, all of which its derivation key covers. -/
structure GenerationSpec where
  selectedManifestDigest : Digest
  configDigest : Digest
  layerDigests : List Digest
  diffIds : List Digest
  descriptorPlatform : Option Platform
  configPlatform : Platform
  effectivePlatform : Platform
  selectorPolicyId : Identifier
  profileId : Identifier
  profileRevision : Digest
  rootLayoutContract : Identifier
  filesystemContract : Identifier
  buildContractDigest : Digest
  layers_le : layerDigests.length ≤ MAX_LAYERS
  layers_eq : layerDigests.length = diffIds.length
  platforms_ok :
    validatePlatformContract descriptorPlatform configPlatform effectivePlatform = .ok ()
  deriving DecidableEq

def GenerationSpec.new (selectedManifestDigest configDigest : Digest)
    (layerDigests diffIds : List Digest) (descriptorPlatform : Option Platform)
    (configPlatform effectivePlatform : Platform) (selectorPolicyId profileId : String)
    (profileRevision : Digest) (rootLayoutContract filesystemContract : String)
    (buildContractDigest : Digest) : Except StoreError GenerationSpec :=
  if hl : layerDigests.length ≤ MAX_LAYERS then
    if he : layerDigests.length = diffIds.length then
      match hp : validatePlatformContract descriptorPlatform configPlatform effectivePlatform with
      | .error e => .error e
      | .ok () => do
        let selectorPolicyId ← validateIdentifier "selector_policy_id" selectorPolicyId
        let profileId ← validateIdentifier "profile_id" profileId
        let rootLayoutContract ← validateIdentifier "root_layout_contract" rootLayoutContract
        let filesystemContract ← validateIdentifier "filesystem_contract" filesystemContract
        return ⟨selectedManifestDigest, configDigest, layerDigests, diffIds, descriptorPlatform,
          configPlatform, effectivePlatform, selectorPolicyId, profileId, profileRevision,
          rootLayoutContract, filesystemContract, buildContractDigest, hl, he, hp⟩
    else .error (invalid "diff_ids" "layer digest and DiffID counts must match")
  else .error (invalid "layer_digests" "at most 512 layers are allowed")

theorem GenerationSpec.of_new {manifest config : Digest} {layers diffs : List Digest}
    {descriptor : Option Platform}
    {configPlatform effective : Platform} {selector profile layout filesystem : String}
    {revision contract : Digest} {spec : GenerationSpec}
    (h : GenerationSpec.new manifest config layers diffs descriptor configPlatform effective selector profile revision
      layout filesystem contract = .ok spec) :
    spec.descriptorPlatform = descriptor ∧ spec.configPlatform = configPlatform ∧
      spec.effectivePlatform = effective ∧
      spec.selectorPolicyId.val = selector ∧ spec.profileId.val = profile ∧
        spec.profileRevision = revision ∧
      spec.rootLayoutContract.val = layout ∧ spec.filesystemContract.val = filesystem := by
  unfold GenerationSpec.new at h
  split at h
  · split at h
    · split at h
      · cases h
      · simp only [bind_ok, validateIdentifier_ok, pure_ok] at h
        obtain ⟨selector', hselector, profile', hprofile, layout', hlayout, filesystem',
          hfilesystem, rfl⟩ := h
        exact ⟨rfl, rfl, rfl, hselector, hprofile, rfl, hlayout, hfilesystem⟩
    · cases h
  · cases h

theorem GenerationSpec.new_self (s : GenerationSpec) (contract : Digest) :
    GenerationSpec.new s.selectedManifestDigest s.configDigest s.layerDigests s.diffIds s.descriptorPlatform
      s.configPlatform s.effectivePlatform s.selectorPolicyId.val s.profileId.val s.profileRevision
      s.rootLayoutContract.val s.filesystemContract.val contract =
        .ok { s with buildContractDigest := contract } := by
  unfold GenerationSpec.new
  rw [dif_pos s.layers_le, dif_pos s.layers_eq]
  split
  · rename_i hp
    rw [s.platforms_ok] at hp
    cases hp
  · simp only [bind_ok, validateIdentifier_ok, pure_ok]
    exact ⟨_, rfl, _, rfl, _, rfl, _, rfl, rfl⟩

structure AliasKey where
  profileId : Identifier
  profileRevision : Digest
  reference : Text MAX_REFERENCE_TEXT
  requestedPlatform : Platform
  selectorPolicyId : Identifier
  deriving DecidableEq

def AliasKey.new (profileId : String) (profileRevision : Digest) (reference : String)
    (requestedPlatform : Platform) (selectorPolicyId : String) : Except StoreError AliasKey := do
  let profileId ← validateIdentifier "alias.profile_id" profileId
  let reference ← validateText "alias.reference" reference MAX_REFERENCE_TEXT
  let selectorPolicyId ← validateIdentifier "alias.selector_policy_id" selectorPolicyId
  return ⟨profileId, profileRevision, reference, requestedPlatform, selectorPolicyId⟩

/-! ### Canonical encodings -/

def putU16 (value : Nat) : Bytes := beBytes 2 value
def putU64 (value : UInt64) : Bytes := beBytes 8 value.toNat
def putBytes (value : Bytes) : Bytes := beBytes 4 value.length ++ value
def putText (value : String) : Bytes := putBytes (utf8 value)
def putOptionalText : Option String → Bytes := tagged putText

def Platform.encode (p : Platform) : Bytes :=
  putText p.os.val ++ putText p.architecture.val ++
    putOptionalText (p.variant.map Identifier.val) ++ putOptionalText (p.osVersion.map Text.val) ++
    counted 2 putText (p.osFeatures.map Identifier.val)

def GenerationSpec.encode (s : GenerationSpec) : Bytes :=
  s.selectedManifestDigest.asBytes ++ s.configDigest.asBytes ++
    counted 2 Digest.asBytes s.layerDigests ++ counted 2 Digest.asBytes s.diffIds ++
    tagged Platform.encode s.descriptorPlatform ++ s.configPlatform.encode ++
    s.effectivePlatform.encode ++ putText s.selectorPolicyId.val ++ putText s.profileId.val ++
    s.profileRevision.asBytes ++ putText s.rootLayoutContract.val ++
    putText s.filesystemContract.val ++ s.buildContractDigest.asBytes

def AliasKey.encode (k : AliasKey) : Bytes :=
  putText k.profileId.val ++ k.profileRevision.asBytes ++ putText k.reference.val ++
    k.requestedPlatform.encode ++ putText k.selectorPolicyId.val

def ImmutableSidecar.encode (s : ImmutableSidecar) : Bytes :=
  putText s.name ++ s.digest.asBytes ++ putU64 s.size

section
variable (sha256 : Bytes → Digest)

def GenerationSpec.keyBytes (s : GenerationSpec) : Bytes :=
  utf8 "pocket-generation-derivation\x00v1\x00" ++ s.encode

def GenerationSpec.derivationKey (s : GenerationSpec) : DerivationKey :=
  .ofDigest (sha256 s.keyBytes)

def AliasKey.id (k : AliasKey) : AliasId :=
  .ofDigest (sha256 (utf8 "pocket-alias-identity\x00v1\x00" ++ k.encode))

def generationBytes (key : DerivationKey) (baseDigest : Digest) (baseSize : UInt64)
    (sidecars : List ImmutableSidecar) : Bytes :=
  utf8 "pocket-final-generation-identity\x00v1\x00" ++ key.asBytes ++ baseDigest.asBytes ++
    putU64 baseSize ++ counted 2 ImmutableSidecar.encode sidecars

def GenerationId.derive (key : DerivationKey) (baseDigest : Digest) (baseSize : UInt64)
    (sidecars : List ImmutableSidecar) : Except StoreError GenerationId := do
  validateCanonicalSidecars sidecars
  return .ofDigest (sha256 (generationBytes key baseDigest baseSize sidecars))

variable {sha256} in
theorem GenerationId.eq_of_derive {key : DerivationKey} {baseDigest : Digest} {baseSize : UInt64}
    {sidecars : List ImmutableSidecar} {id : GenerationId}
    (h : GenerationId.derive sha256 key baseDigest baseSize sidecars = .ok id) :
    id = .ofDigest (sha256 (generationBytes key baseDigest baseSize sidecars)) := by
  unfold GenerationId.derive at h
  cases hv : validateCanonicalSidecars sidecars with
  | error e => rw [hv] at h; cases h
  | ok _ => rw [hv] at h; cases h; rfl

end

/-! ### How a platform is printed

A name may hold a `/` and a version a `:`, so the text says the pieces, and not which field they are
from. -/

open List

def Platform.canonicalText (p : Platform) : String :=
  let text := p.os.val ++ "/" ++ p.architecture.val
  let text := match p.variant with
    | some variant => text ++ "/" ++ variant.val
    | none => text
  let text := match p.osVersion with
    | some version => text ++ ":osversion=" ++ version.val
    | none => text
  p.osFeatures.foldl (fun text feature => text ++ ":osfeature=" ++ feature.val) text

/-- What fields hold between the marks. -/
def splitAll (mark : UInt8) (fields : List Bytes) : List Bytes := fields.flatMap (splitOn mark)

def Platform.names (p : Platform) :
    List Bytes := (p.os :: p.architecture :: p.variant.toList).map fun name => utf8 name.val

def Platform.extras (p : Platform) : List Bytes :=
  (p.osVersion.toList.map fun version => utf8 ("osversion=" ++ version.val)) ++
    p.osFeatures.map fun feature => utf8 ("osfeature=" ++ feature.val)

variable {mark : UInt8} {field : Bytes} {fields fields' : List Bytes} {p q : Platform}

theorem intercalate_cons_eq :
    [mark].intercalate (field :: fields) = field ++ fields.flatMap (mark :: ·) := by
  induction fields generalizing field with
  | nil => rw [intercalate_singleton, flatMap_nil, append_nil]
  | cons next fields ih =>
    rw [intercalate_cons_cons, ih, flatMap_cons, append_assoc]
    rfl

theorem splitOn_intercalate_cons :
    splitOn mark ([mark].intercalate (field :: fields)) = splitAll mark (field :: fields) := by
  induction fields generalizing field with
  | nil => rw [intercalate_singleton, splitAll, flatMap_singleton]
  | cons next fields ih =>
    rw [intercalate_cons_cons, append_assoc, splitAll, flatMap_cons, ← splitAll, ← ih]
    exact splitOnP_append_cons _ _ (beq_self_eq_true mark)

theorem intercalate_eq_iff {field' : Bytes} :
    [mark].intercalate (field :: fields) = [mark].intercalate (field' :: fields') ↔
    splitAll mark (field :: fields) = splitAll mark (field' :: fields') := by
  rw [← splitOn_intercalate_cons, ← splitOn_intercalate_cons]
  refine ⟨congrArg _, fun heq => ?_⟩
  have := congrArg ([mark].intercalate ·) heq
  rwa [intercalate_splitOn, intercalate_splitOn] at this

theorem utf8_append (s t : String) : utf8 (s ++ t) = utf8 s ++ utf8 t := by
  simp [utf8]

theorem utf8_canonicalText (p : Platform) :
    utf8 p.canonicalText = [58].intercalate ([47].intercalate p.names :: p.extras) := by
  have hfeatures : ∀ (l : List Identifier) (text : String),
      utf8 (l.foldl (fun text feature => text ++ ":osfeature=" ++ feature.val) text) =
        utf8 text ++ (l.map fun feature => utf8 ("osfeature=" ++ feature.val)).flatMap
          (58 :: ·) := by
    intro l
    induction l with
    | nil => simp
    | cons feature l ih =>
      intro text
      rw [foldl_cons, ih, map_cons, flatMap_cons]
      simp only [utf8_append, append_assoc]
      rfl
  have hnames : [47].intercalate p.names = utf8 (match p.variant with
      | some variant => p.os.val ++ "/" ++ p.architecture.val ++ "/" ++ variant.val
      | none => p.os.val ++ "/" ++ p.architecture.val) := by
    unfold Platform.names
    rw [map_cons, intercalate_cons_eq]
    cases p.variant <;> simp [utf8_append] <;> rfl
  rw [intercalate_cons_eq, hnames, Platform.canonicalText, hfeatures, Platform.extras,
    flatMap_append]
  cases p.osVersion
  · simp
  · simp [utf8_append]
    rfl

theorem colon_not_mem_names (p : Platform) : 58 ∉ [47].intercalate p.names := by
  have hname : ∀ name : Identifier, 58 ∉ utf8 name.val := fun name hmem =>
    absurd (all_eq_true.mp name.bytes_ok 58 hmem) (by decide)
  unfold Platform.names
  rw [map_cons, intercalate_cons_eq]
  simp only [mem_append, mem_flatMap, mem_map]
  rintro (hmem | ⟨_, ⟨name, -, rfl⟩, hmem⟩)
  · exact hname _ hmem
  · rcases mem_cons.mp hmem with heq | hmem
    · cases heq
    · exact hname _ hmem

theorem canonicalText_eq_iff : p.canonicalText = q.canonicalText ↔
    splitAll 47 p.names = splitAll 47 q.names ∧ splitAll 58 p.extras = splitAll 58 q.extras := by
  have hsplit : ∀ p : Platform,
      splitAll 58 ([47].intercalate p.names :: p.extras) =
        [47].intercalate p.names :: splitAll 58 p.extras := by
    intro p
    rw [splitAll, flatMap_cons, splitOn_eq_singleton (colon_not_mem_names p)]
    rfl
  have hsame : p.canonicalText = q.canonicalText ↔ utf8 p.canonicalText = utf8 q.canonicalText :=
    ⟨congrArg _, utf8_inj⟩
  rw [hsame, utf8_canonicalText, utf8_canonicalText, intercalate_eq_iff, hsplit, hsplit, cons.injEq]
  exact and_congr_left' intercalate_eq_iff

/-- Two platforms print alike exactly if their names have the same pieces between slashes, and their
versions and features between colons. -/
theorem canonicalText_tells_apart_iff (p q : Platform) :
    (p.canonicalText = q.canonicalText → p = q) ↔
    (p ≠ q → splitAll 47 p.names ≠ splitAll 47 q.names ∨
      splitAll 58 p.extras ≠ splitAll 58 q.extras) := by
  rw [canonicalText_eq_iff, ← not_and_or]
  exact not_imp_not.symm

/-- A variant that is part of the architecture's name, and a feature that is part of the version. -/
theorem different_platforms_print_alike : Forall (fun pair =>
    pair.1.toOption.isSome ∧ pair.2.toOption.isSome ∧ pair.1.toOption ≠ pair.2.toOption ∧
      pair.1.toOption.map Platform.canonicalText = pair.2.toOption.map Platform.canonicalText) [
    (Platform.new "linux" "arm64" (some "v8") none [],
      Platform.new "linux" "arm64/v8" none none []),
    (Platform.new "windows" "amd64" none (some "10") ["win32k"],
      Platform.new "windows" "amd64" none (some "10:osfeature=win32k") [])] := by
  decide +kernel

end PocketVm
