import PocketVm.Cbor
import PocketVm.Identity

/-!
# One encoding, one value

The byte strings hashed into derivation keys and generation identifiers determine what they
encode (`GenerationSpec.encode_inj`, `generationBytes_inj`): every field is of fixed length,
length-prefixed, counted or tagged, and the bounds a validated value carries keep every length
inside its prefix.
-/

namespace PocketVm

open Wire

theorem selfDelim_putBytes : SelfDelim (fun b : Bytes => b.length < 256 ^ 4) putBytes := by
  intro a b u v ha hb h
  obtain ⟨hlen, h'⟩ := SelfDelim.beBytes 4 _ _ _ _ ha hb h
  exact List.append_inj h' hlen

theorem selfDelim_putText : SelfDelim (fun s : String => (utf8 s).length < 256 ^ 4) putText :=
  selfDelim_putBytes.comap utf8 (fun _ h => h) fun _ _ _ _ => utf8_inj

theorem selfDelim_putU64 : SelfDelim (fun _ => True) putU64 :=
  (SelfDelim.beBytes 8).comap UInt64.toNat (fun n _ => n.toNat_lt) fun _ _ _ _ h =>
    UInt64.toNat_inj.mp h

theorem Identifier.size_lt (i : Identifier) : (utf8 i.val).length < 256 ^ 4 := by
  have h := i.size_ok.2
  simp only [MAX_ID_TEXT] at h
  omega

theorem Identifier.ext_val {i j : Identifier} (h : i.val = j.val) : i = j := by
  cases i; cases j; cases h; rfl

theorem Text.size_lt {n : Nat} (hn : n < 256 ^ 4) (t : Text n) : (utf8 t.val).length < 256 ^ 4 := by
  have h := t.size_ok.2
  omega

theorem Text.ext_val {n : Nat} {s t : Text n} (h : s.val = t.val) : s = t := by
  cases s; cases t; cases h; rfl

theorem selfDelim_identifier : SelfDelim (fun _ => True) fun i : Identifier => putText i.val :=
  selfDelim_putText.comap Identifier.val (fun i _ => i.size_lt) fun _ _ _ _ => Identifier.ext_val

theorem selfDelim_text {n : Nat} (hn : n < 256 ^ 4) : SelfDelim (fun _ => True) fun t :
    Text n => putText t.val :=
  selfDelim_putText.comap Text.val (fun t _ => t.size_lt hn) fun _ _ _ _ => Text.ext_val

theorem tagged_map {α β : Type} (enc : β → Bytes) (f : α → β) (o : Option α) :
    tagged enc (o.map f) = tagged (fun a => enc (f a)) o := by
  cases o <;> rfl

theorem counted_map {α β : Type} (k : Nat) (enc : β → Bytes) (f : α → β) (l : List α) :
    counted k enc (l.map f) = counted k (fun a => enc (f a)) l := by
  simp [counted, List.flatMap_map]

theorem Platform.selfDelim_encode : SelfDelim (fun _ => True) Platform.encode := by
  intro p q u v _ _ h
  simp only [Platform.encode, putOptionalText, tagged_map, counted_map, List.append_assoc] at h
  obtain ⟨h₁, h⟩ := selfDelim_identifier.cut h
  obtain ⟨h₂, h⟩ := selfDelim_identifier.cut h
  obtain ⟨h₃, h⟩ := selfDelim_identifier.tagged _ _ _ _ (by simp) (by simp) h
  obtain ⟨h₄, h⟩ := (selfDelim_text (by decide)).tagged _ _ _ _ (by simp) (by simp) h
  have hcount : ∀ r : Platform, r.osFeatures.length < 256 ^ 2 ∧ ∀ a ∈ r.osFeatures, True := by
    intro r
    have hr := r.features_le
    simp only [MAX_PLATFORM_FEATURES] at hr
    exact ⟨by omega, fun _ _ => trivial⟩
  obtain ⟨h₅, h⟩ := selfDelim_identifier.counted 2 _ _ _ _ (hcount p) (hcount q) h
  cases p; cases q
  simp_all

theorem GenerationSpec.selfDelim_encode : SelfDelim (fun _ => True) GenerationSpec.encode := by
  intro s t u v _ _ h
  simp only [GenerationSpec.encode, List.append_assoc] at h
  have hlayers : ∀ r : GenerationSpec,
      r.layerDigests.length < 256 ^ 2 ∧ ∀ a ∈ r.layerDigests, True := by
    intro r
    have hr := r.layers_le
    simp only [MAX_LAYERS] at hr
    exact ⟨by omega, fun _ _ => trivial⟩
  have hdiffs : ∀ r : GenerationSpec, r.diffIds.length < 256 ^ 2 ∧ ∀ a ∈ r.diffIds, True :=
    fun r => ⟨r.layers_eq ▸ (hlayers r).1, fun _ _ => trivial⟩
  have hdig := Digest.selfDelim_asBytes
  obtain ⟨h₁, h⟩ := hdig.cut h
  obtain ⟨h₂, h⟩ := hdig.cut h
  obtain ⟨h₃, h⟩ := hdig.counted 2 _ _ _ _ (hlayers s) (hlayers t) h
  obtain ⟨h₄, h⟩ := hdig.counted 2 _ _ _ _ (hdiffs s) (hdiffs t) h
  obtain ⟨h₅, h⟩ := Platform.selfDelim_encode.tagged _ _ _ _ (by simp) (by simp) h
  obtain ⟨h₆, h⟩ := Platform.selfDelim_encode.cut h
  obtain ⟨h₇, h⟩ := Platform.selfDelim_encode.cut h
  obtain ⟨h₈, h⟩ := selfDelim_identifier.cut h
  obtain ⟨h₉, h⟩ := selfDelim_identifier.cut h
  obtain ⟨h₁₀, h⟩ := hdig.cut h
  obtain ⟨h₁₁, h⟩ := selfDelim_identifier.cut h
  obtain ⟨h₁₂, h⟩ := selfDelim_identifier.cut h
  obtain ⟨h₁₃, h⟩ := hdig.cut h
  cases s; cases t
  simp_all

theorem GenerationSpec.encode_inj {s t : GenerationSpec} (h : s.encode = t.encode) : s = t :=
  GenerationSpec.selfDelim_encode.injOn trivial trivial h

theorem ImmutableSidecar.selfDelim_encode : SelfDelim (fun _ => True) ImmutableSidecar.encode := by
  intro a b u v _ _ h
  have hname : ∀ s : ImmutableSidecar, (utf8 s.name).length < 256 ^ 4 := by
    intro s
    have hs := s.name_ok
    simp only [isSidecarName, Bool.and_eq_true, decide_eq_true_eq] at hs
    obtain ⟨⟨⟨⟨-, hle⟩, -⟩, -⟩, -⟩ := hs
    simp only [MAX_SIDECAR_NAME_BYTES] at hle
    omega
  simp only [ImmutableSidecar.encode, List.append_assoc] at h
  obtain ⟨h₁, h⟩ := selfDelim_putText _ _ _ _ (hname a) (hname b) h
  obtain ⟨h₂, h⟩ := Digest.selfDelim_asBytes.cut h
  obtain ⟨h₃, h⟩ := selfDelim_putU64.cut h
  cases a; cases b
  simp_all

theorem generationBytes_inj {k k' : DerivationKey} {d d' : Digest} {n n' : UInt64}
    {l l' : List ImmutableSidecar} (hl : l.length ≤ MAX_GENERATION_SIDECARS)
    (hl' : l'.length ≤ MAX_GENERATION_SIDECARS)
    (h : generationBytes k d n l = generationBytes k' d' n' l') :
    k = k' ∧ d = d' ∧ n = n' ∧ l = l' := by
  have hcount : ∀ r : List ImmutableSidecar, r.length ≤ MAX_GENERATION_SIDECARS →
      r.length < 256 ^ 2 ∧ ∀ a ∈ r, True := by
    intro r hr
    simp only [MAX_GENERATION_SIDECARS] at hr
    exact ⟨by omega, fun _ _ => trivial⟩
  simp only [generationBytes, List.append_assoc] at h
  have h := List.append_cancel_left h
  obtain ⟨h₁, h⟩ := HashId.selfDelim_asBytes.cut h
  obtain ⟨h₂, h⟩ := Digest.selfDelim_asBytes.cut h
  obtain ⟨h₃, h⟩ := selfDelim_putU64.cut h
  have h₄ := (ImmutableSidecar.selfDelim_encode.counted 2).injOn (hcount l hl) (hcount l' hl') h
  exact ⟨h₁, h₂, h₃, h₄⟩

/-! ### Managed paths

`pocket-core/src/path.rs`: in normal form two paths are equal exactly when their texts are. -/

open Checked

def MAX_MANAGED_UML_PATH_BYTES : Nat := 3840
def MIN_MANAGED_UML_PATH_COMPONENTS : Nat := 3

inductive ManagedUmlPathError where
  | notAbsolute
  | notUtf8
  | tooLong (actual maximum : Nat)
  | containsWhitespace
  | containsReservedCharacter (character : Char)
  | notNormalized
  | tooBroad (components minimum : Nat)
  deriving DecidableEq

def ManagedUmlPathError.text : ManagedUmlPathError → String
  | notAbsolute => "managed UML path must be absolute"
  | notUtf8 => "managed UML path must be valid UTF-8"
  | tooLong actual maximum =>
    "managed UML path is " ++ toString actual ++ " bytes; maximum is " ++ toString maximum
  | containsWhitespace => "managed UML path contains whitespace"
  | containsReservedCharacter character =>
    "managed UML path contains reserved character '" ++
      (if character = '\x00' then "\\0" else character.toString) ++ "'"
  | notNormalized => "managed UML path is not in normalized lexical form"
  | tooBroad components minimum =>
    "managed UML path has only " ++ toString components ++ " components; at least " ++
      toString minimum ++ " are required"

namespace ManagedUmlPath

def checkSegments (segments : List (List Char)) : Except ManagedUmlPathError Unit := do
  stop (segments.any fun segment => segment = [] || segment = ['.'] || segment = ['.',
    '.']) .notNormalized
  stop (segments.length < MIN_MANAGED_UML_PATH_COMPONENTS)
    (.tooBroad segments.length MIN_MANAGED_UML_PATH_COMPONENTS)

def checkRelative : List Char → Except ManagedUmlPathError Unit
  | '/' :: [] => .error (.tooBroad 0 MIN_MANAGED_UML_PATH_COMPONENTS)
  | '/' :: relative => checkSegments (relative.splitOn '/')
  | _ => .error .notAbsolute

def checkReserved (text : List Char) : Except ManagedUmlPathError Unit :=
  match text.find? fun c => c == ',' || c == ':' || c == '\x00' with
  | some character => .error (.containsReservedCharacter character)
  | none => .ok ()

def check (text : String) : Except ManagedUmlPathError Unit := do
  stop ((utf8 text).length > MAX_MANAGED_UML_PATH_BYTES)
    (.tooLong (utf8 text).length MAX_MANAGED_UML_PATH_BYTES)
  stop (text.toList.any isWhiteSpace = true) .containsWhitespace
  checkReserved text.toList
  checkRelative text.toList

end ManagedUmlPath

structure ManagedUmlPath where
  text : String
  accepted : ManagedUmlPath.check text = .ok ()
  deriving DecidableEq

namespace ManagedUmlPath

def new (path : Bytes) : Except ManagedUmlPathError ManagedUmlPath :=
  if path.head? ≠ some 47 then .error .notAbsolute
  else
    match String.fromUTF8? ⟨path.toArray⟩ with
    | none => .error .notUtf8
    | some text =>
      match h : check text with
      | .error e => .error e
      | .ok () => .ok ⟨text, h⟩

theorem size_le (p : ManagedUmlPath) : (utf8 p.text).length ≤ MAX_MANAGED_UML_PATH_BYTES := by
  have h := p.accepted
  simp only [check, bind_ok, stop_ok] at h
  obtain ⟨-, hsize, -⟩ := h
  exact Nat.not_lt.mp hsize

theorem size_lt (p : ManagedUmlPath) : (utf8 p.text).length < 256 ^ 4 :=
  Nat.lt_of_le_of_lt p.size_le (by decide)

theorem head_text (p : ManagedUmlPath) : ∃ relative, p.text.toList = '/' :: relative := by
  have h := p.accepted
  simp only [check, bind_ok] at h
  obtain ⟨-, -, -, -, -, -, h⟩ := h
  unfold checkRelative at h
  split at h
  · cases h
  · next relative _ heq => exact ⟨relative, heq⟩
  · cases h

theorem new_self (p : ManagedUmlPath) (h : String.fromUTF8? ⟨(utf8 p.text).toArray⟩ = some p.text) :
    new (utf8 p.text) = .ok p := by
  obtain ⟨relative, hhead⟩ := p.head_text
  have hslash : (utf8 p.text).head? = some 47 := by
    rw [← String.ofList_toList (s := p.text), hhead, utf8_ofList]
    rfl
  unfold new
  rw [if_neg (not_not.mpr hslash), h]
  simp only
  split
  · next e he =>
    rw [p.accepted] at he
    cases he
  · rfl

theorem ext_text {p q : ManagedUmlPath} (h : p.text = q.text) : p = q := by
  cases p
  cases h
  rfl

end ManagedUmlPath

/-! ### Reading the store's records

The reader of `codec.rs` and the decoders of `identity.rs`. Each takes what the encoder beside it
writes. -/

open Wire.Reader List

abbrev RecordReader (α : Type) := Reader StoreError α

def readTake (length : Nat) :
    RecordReader Bytes := take length (.invalidMetadata .store "record is truncated")

def readU8 : RecordReader UInt8 := do
  let bytes ← readTake 1
  return bytes.headD 0

def readU16 : RecordReader Nat := do
  let bytes ← readTake 2
  return readBE bytes

def readU32 : RecordReader Nat := do
  let bytes ← readTake 4
  return readBE bytes

def readU64 : RecordReader UInt64 := do
  let bytes ← readTake 8
  return UInt64.ofNat (readBE bytes)

def readBytes (maximum : Nat) : RecordReader Bytes := do
  let length ← readU32
  accept (stop (length > maximum)
    (.invalidMetadata .store ("field is " ++ toString length ++ " bytes; maximum is " ++
      toString maximum)))
  readTake length

def readText (maximum : Nat) : RecordReader String := do
  let bytes ← readBytes maximum
  accept (require (String.fromUTF8? ⟨bytes.toArray⟩) (.invalidMetadata .store "text is not UTF-8"))

def readOption {α : Type} (m : RecordReader α) (kind : MetadataKind) (option : String) :
    RecordReader (Option α) := do
  let tag ← readU8
  if tag = 0 then return none
  else if tag = 1 then do
    let a ← m
    return some a
  else accept (.error (.invalidMetadata kind ("invalid " ++ option ++ " discriminant " ++ toString tag.toNat)))

def readOptionalText (maximum : Nat) : RecordReader (Option String) :=
  readOption (readText maximum) .store "option"

def readDigest : RecordReader Digest := do
  let bytes ← readTake 32
  return ⟨BitVec.ofNat 256 (readBE bytes)⟩

/-- `read_generation_id`, `read_derivation_key` and their siblings. -/
def readId {kind : IdKind} : RecordReader (HashId kind) := do
  let bytes ← readTake 32
  return ⟨BitVec.ofNat 256 (readBE bytes)⟩

def Platform.decode : RecordReader Platform := do
  let os ← readText MAX_ID_TEXT
  let architecture ← readText MAX_ID_TEXT
  let variant ← readOptionalText MAX_ID_TEXT
  let osVersion ← readOptionalText MAX_ID_TEXT
  let featureCount ← readU16
  accept (stop (featureCount > MAX_PLATFORM_FEATURES) (.invalidMetadata .generation "too many OS features"))
  let features ← times (readText MAX_ID_TEXT) featureCount
  accept (Platform.new os architecture variant osVersion features)

def GenerationSpec.decode : RecordReader GenerationSpec := do
  let selectedManifestDigest ← readDigest
  let configDigest ← readDigest
  let layerCount ← readU16
  accept (stop (layerCount > MAX_LAYERS) (.invalidMetadata .generation "too many layers"))
  let layers ← times readDigest layerCount
  let diffCount ← readU16
  accept (stop (diffCount > MAX_LAYERS) (.invalidMetadata .generation "too many DiffIDs"))
  let diffIds ← times readDigest diffCount
  let descriptorPlatform ← readOption Platform.decode .generation "descriptor-platform option"
  let configPlatform ← Platform.decode
  let effectivePlatform ← Platform.decode
  let selectorPolicyId ← readText MAX_ID_TEXT
  let profileId ← readText MAX_ID_TEXT
  let profileRevision ← readDigest
  let rootLayoutContract ← readText MAX_ID_TEXT
  let filesystemContract ← readText MAX_ID_TEXT
  let buildContractDigest ← readDigest
  accept (GenerationSpec.new selectedManifestDigest configDigest layers diffIds descriptorPlatform configPlatform
    effectivePlatform selectorPolicyId profileId profileRevision rootLayoutContract filesystemContract buildContractDigest)

def AliasKey.decode : RecordReader AliasKey := do
  let profileId ← readText MAX_ID_TEXT
  let profileRevision ← readDigest
  let reference ← readText MAX_REFERENCE_TEXT
  let requestedPlatform ← Platform.decode
  let selectorPolicyId ← readText MAX_ID_TEXT
  accept (AliasKey.new profileId profileRevision reference requestedPlatform selectorPolicyId)

def ImmutableSidecar.decode : RecordReader ImmutableSidecar := do
  let name ← readText MAX_SIDECAR_NAME_BYTES
  let digest ← readDigest
  let size ← readU64
  accept (ImmutableSidecar.new name digest size)

variable {bytes : Bytes} {n maximum : Nat} {α : Type} {m : RecordReader α} {enc : α → Bytes}

theorem takes_readTake (h : bytes.length = n) : Takes (readTake n) bytes bytes := by
  rw [← h]
  exact Takes.take

theorem takes_readU8 (b : UInt8) : Takes readU8 [b] b :=
  (takes_readTake (show [b].length = 1 from rfl)).bind_last Takes.pure

theorem takes_readU16 (h : n < 256 ^ 2) : Takes readU16 (beBytes 2 n) n := by
  refine (takes_readTake (length_beBytes 2 n)).bind_last ?_
  rw [readBE_beBytes h]
  exact Takes.pure

theorem takes_readU32 (h : n < 256 ^ 4) : Takes readU32 (beBytes 4 n) n := by
  refine (takes_readTake (length_beBytes 4 n)).bind_last ?_
  rw [readBE_beBytes h]
  exact Takes.pure

theorem takes_readU64 (n : UInt64) : Takes readU64 (putU64 n) n := by
  refine (takes_readTake (length_beBytes 8 n.toNat)).bind_last ?_
  rw [readBE_beBytes n.toNat_lt, UInt64.ofNat_toNat]
  exact Takes.pure

theorem takes_readText {text : String} (h : (utf8 text).length ≤ maximum)
    (hmax : maximum < 256 ^ 4) :
    Takes (readText maximum) (putText text) text := by
  have hdecode : String.fromUTF8? ⟨(utf8 text).toArray⟩ = some text :=
    Cbor.Format.fromUTF8?_textBytes text
  have hbytes : Takes (readBytes maximum) (putText text) (utf8 text) := by
    refine (takes_readU32 (Nat.lt_of_le_of_lt h hmax)).bind ?_
    exact Takes.stop (Nat.not_lt.mpr h) (takes_readTake rfl)
  exact hbytes.bind_last (Takes.accept (require_ok.mpr hdecode))

theorem takes_readOption {kind : MetadataKind} {option : String} {o : Option α}
    (h : ∀ a ∈ o, Takes m (enc a) a) : Takes (readOption m kind option) (tagged enc o) o := by
  cases o with
  | none => exact (takes_readU8 0).bind_last Takes.pure
  | some a =>
    have hvalue : Takes (do
        let a ← m
        return some a) (enc a) (some a) := (h a rfl).bind_last Takes.pure
    exact (takes_readU8 1).bind hvalue

theorem takes_readDigest (d : Digest) : Takes readDigest d.asBytes d := by
  have hbits : BitVec.ofNat 256 (readBE d.asBytes) = d.bits := by
    rw [Digest.asBytes, readBE_beBytes d.bits.isLt, BitVec.ofNat_toNat, BitVec.setWidth_eq]
  refine (takes_readTake (length_beBytes 32 d.bits.toNat)).bind_last ?_
  show Takes (pure ⟨BitVec.ofNat 256 (readBE d.asBytes)⟩) [] d
  rw [hbits]
  exact Takes.pure

theorem takes_readId {kind : IdKind} (i : HashId kind) : Takes readId i.asBytes i := by
  have hbits : BitVec.ofNat 256 (readBE i.asBytes) = i.bits := by
    rw [HashId.asBytes, readBE_beBytes i.bits.isLt, BitVec.ofNat_toNat, BitVec.setWidth_eq]
  refine (takes_readTake (length_beBytes 32 i.bits.toNat)).bind_last ?_
  show Takes (pure ⟨BitVec.ofNat 256 (readBE i.asBytes)⟩) [] i
  rw [hbits]
  exact Takes.pure

theorem takes_counted {β : Type} {as : List α} {e : StoreError}
    {next : List α → RecordReader β} {b : β} (h : ∀ a ∈ as, Takes m (enc a) a)
    (hle : as.length ≤ maximum) (hmax : maximum < 256 ^ 2) (hnext : Takes (next as) bytes b) :
    Takes (do
      let count ← readU16
      accept (stop (count > maximum) e)
      let as ← times m count
      next as) (counted 2 enc as ++ bytes) b := by
  refine (takes_readU16 (Nat.lt_of_le_of_lt hle hmax)).bind ?_
  exact Takes.stop (Nat.not_lt.mpr hle) ((Takes.times h).bind hnext)

theorem takes_identifier (i : Identifier) : Takes (readText MAX_ID_TEXT) (putText i.val) i.val :=
  takes_readText i.size_ok.2 (by decide)

theorem mapM_validateIdentifier (field : String) (identifiers : List Identifier) :
    (identifiers.map Identifier.val).mapM (validateIdentifier field) = .ok identifiers := by
  induction identifiers with
  | nil => rfl
  | cons i identifiers ih =>
    rw [map_cons, mapM_cons, validateIdentifier_ok.mpr rfl, ih]
    rfl

theorem validateText_self (field : String) (t : Text maximum) :
    validateText field t.val maximum = .ok t := by
  unfold validateText
  rw [dif_pos t.size_ok, dif_pos t.chars_ok]

theorem string_le_of_lt {s t : String} (h : s < t) : s ≤ t := Std.le_of_not_ge fun hle => hle h

theorem Platform.new_self (p : Platform) :
    Platform.new p.os.val p.architecture.val (p.variant.map Identifier.val)
      (p.osVersion.map Text.val) (p.osFeatures.map Identifier.val) = .ok p := by
  have hvariant : (p.variant.map Identifier.val).mapM (validateIdentifier "platform.variant") =
    .ok p.variant := by
    cases p.variant with
    | none => rfl
    | some i => rw [Option.map_some, Option.mapM_some, validateIdentifier_ok.mpr rfl]; rfl
  have hversion : (p.osVersion.map Text.val).mapM
    (validateText "platform.os_version" · MAX_ID_TEXT) = .ok p.osVersion := by
    cases p.osVersion with
    | none => rfl
    | some t => rw [Option.map_some, Option.mapM_some, validateText_self]; rfl
  have hsorted : p.osFeatures.insertionSort (fun a b => a.val ≤ b.val) = p.osFeatures := by
    refine List.Pairwise.insertionSort_eq ?_
    exact (pairwise_map.mp p.features_sorted).imp fun h => string_le_of_lt h
  unfold Platform.new
  rw [validateIdentifier_ok.mpr rfl, validateIdentifier_ok.mpr rfl, hvariant, hversion]
  simp only [bind, Except.bind]
  rw [if_neg (by rw [length_map]; exact Nat.not_lt.mpr p.features_le)]
  simp only [mapM_validateIdentifier, pure, Except.pure, hsorted]
  rw [dif_pos p.features_le, dif_pos p.features_sorted]

theorem AliasKey.new_self (k : AliasKey) :
    AliasKey.new k.profileId.val k.profileRevision k.reference.val k.requestedPlatform k.selectorPolicyId.val = .ok k := by
  unfold AliasKey.new
  rw [validateIdentifier_ok.mpr rfl, validateText_self, validateIdentifier_ok.mpr rfl]
  rfl

theorem ImmutableSidecar.size_name (s : ImmutableSidecar) :
    (utf8 s.name).length ≤ MAX_SIDECAR_NAME_BYTES := by
  have h := s.name_ok
  simp only [isSidecarName, Bool.and_eq_true, decide_eq_true_eq] at h
  obtain ⟨⟨⟨⟨-, hle⟩, -⟩, -⟩, -⟩ := h
  exact hle

theorem Platform.takes_decode (p : Platform) : Takes Platform.decode p.encode p := by
  have hvariant : Takes (readOptionalText MAX_ID_TEXT)
    (putOptionalText (p.variant.map Identifier.val))
      (p.variant.map Identifier.val) := by
    refine takes_readOption fun text htext => ?_
    obtain ⟨i, -, rfl⟩ := Option.mem_map.mp htext
    exact takes_identifier i
  have hversion : Takes (readOptionalText MAX_ID_TEXT) (putOptionalText (p.osVersion.map Text.val))
    (p.osVersion.map Text.val) := by
    refine takes_readOption fun text htext => ?_
    obtain ⟨t, -, rfl⟩ := Option.mem_map.mp htext
    exact takes_readText t.size_ok.2 (by decide)
  have hfeatures : ∀ text ∈ p.osFeatures.map Identifier.val,
    Takes (readText MAX_ID_TEXT) (putText text) text := by
    intro text htext
    obtain ⟨i, -, rfl⟩ := mem_map.mp htext
    exact takes_identifier i
  have hcount : (p.osFeatures.map Identifier.val).length ≤ MAX_PLATFORM_FEATURES := by
    rw [length_map]
    exact p.features_le
  unfold Platform.decode Platform.encode
  simp only [append_assoc]
  refine (takes_identifier p.os).bind
    ((takes_identifier p.architecture).bind (hvariant.bind (hversion.bind ?_)))
  rw [← append_nil (counted 2 putText _)]
  exact takes_counted hfeatures hcount (by decide) (Takes.accept p.new_self)

theorem GenerationSpec.takes_decode (s : GenerationSpec) :
    Takes GenerationSpec.decode s.encode s := by
  have hdiffs : s.diffIds.length ≤ MAX_LAYERS := s.layers_eq ▸ s.layers_le
  unfold GenerationSpec.decode GenerationSpec.encode
  simp only [append_assoc]
  refine (takes_readDigest _).bind ((takes_readDigest _).bind ?_)
  refine takes_counted (fun d _ => takes_readDigest d) s.layers_le (by decide) ?_
  refine takes_counted (fun d _ => takes_readDigest d) hdiffs (by decide) ?_
  refine (takes_readOption fun p _ => p.takes_decode).bind ?_
  refine s.configPlatform.takes_decode.bind (s.effectivePlatform.takes_decode.bind ?_)
  refine (takes_identifier s.selectorPolicyId).bind
    ((takes_identifier s.profileId).bind ((takes_readDigest _).bind ?_))
  refine (takes_identifier s.rootLayoutContract).bind
    ((takes_identifier s.filesystemContract).bind ?_)
  exact (takes_readDigest _).bind_last (Takes.accept (s.new_self s.buildContractDigest))

theorem AliasKey.takes_decode (k : AliasKey) : Takes AliasKey.decode k.encode k := by
  unfold AliasKey.decode AliasKey.encode
  simp only [append_assoc]
  refine (takes_identifier k.profileId).bind ((takes_readDigest _).bind ?_)
  refine (takes_readText k.reference.size_ok.2 (by decide)).bind
    (k.requestedPlatform.takes_decode.bind ?_)
  exact (takes_identifier k.selectorPolicyId).bind_last (Takes.accept k.new_self)

theorem ImmutableSidecar.takes_decode (s : ImmutableSidecar) :
    Takes ImmutableSidecar.decode s.encode s := by
  unfold ImmutableSidecar.decode ImmutableSidecar.encode
  simp only [append_assoc]
  refine (takes_readText s.size_name (by decide)).bind
    ((takes_readDigest _).bind ((takes_readU64 _).bind_last ?_))
  exact Takes.accept (dif_pos s.name_ok)

end PocketVm
