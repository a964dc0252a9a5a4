import Mathlib.Data.Finset.Card
import PocketVm.Store.Identified

/-!
# The records of the store

The encoders and decoders of `store.rs` for generation manifests, aliases, derivation lookups and
retained overlays. A decoder accepts a byte string only if it is the encoding of what it gives, with
the checksum of what precedes it at its end; and it accepts the encoding of every record that the
store builds, up to the bound on a record's size.
-/

namespace PocketVm.Store

open Wire Wire.Reader Checked List

def CHECKSUM_BYTES : Nat := 32

def GENERATION_MAGIC : Bytes := utf8 "PKVMGEN2"
def DERIVATION_MAGIC : Bytes := utf8 "PKVMDER2"
def ALIAS_MAGIC : Bytes := utf8 "PKVMALS2"
def RETAINED_MAGIC : Bytes := utf8 "PKVMRET2"

def readHeader (magic : Bytes) (kind : MetadataKind) : RecordReader Unit := do
  let found ← readTake 8
  accept (stop (found ≠ magic) (.invalidMetadata kind "wrong record magic"))
  let version ← readU16
  accept (stop (version ≠ STORE_SCHEMA_VERSION) (.invalidMetadata kind ("unsupported schema version " ++ toString version)))

section
variable (sha256 : Bytes → Digest)

/-- The part of `verify_record` before the reader: the payload without its checksum. -/
def verifyChecksum (bytes magic : Bytes) (kind : MetadataKind) : Except StoreError Bytes := do
  stop (bytes.length > MAX_METADATA_BYTES) (.metadataTooLarge kind MAX_METADATA_BYTES)
  stop (bytes.length < magic.length + 2 + CHECKSUM_BYTES)
    (.invalidMetadata kind "record is truncated")
  stop ((sha256 (bytes.take (bytes.length - CHECKSUM_BYTES))).asBytes ≠ bytes.drop
    (bytes.length - CHECKSUM_BYTES)) (.invalidMetadata kind "checksum mismatch")
  return bytes.take (bytes.length - CHECKSUM_BYTES)

/-- `verify_record`, the fields of the record and `finish`. -/
def decodeFields {α : Type} (bytes magic : Bytes) (kind : MetadataKind) (body : RecordReader α) :
    Except StoreError α := do
  let payload ← verifyChecksum sha256 bytes magic kind
  let read ← (do
    readHeader magic kind
    let a ← body
    finish (.invalidMetadata .store "trailing bytes in canonical record")
    return a : RecordReader α) payload
  return read.1

def GenerationManifest.encode (m : GenerationManifest) : Bytes :=
  finishRecord sha256 (startRecord GENERATION_MAGIC ++ m.id.asBytes ++ m.derivationKey.asBytes ++
    m.spec.encode ++ m.baseDigest.asBytes ++ putU64 m.baseSize ++
      counted 2 ImmutableSidecar.encode m.sidecars)

def GenerationManifest.complete (spec : GenerationSpec) (baseDigest : Digest) (baseSize : UInt64)
    (sidecars : List ImmutableSidecar) : Except StoreError GenerationManifest := do
  let id ← GenerationId.derive sha256 (spec.derivationKey sha256) baseDigest baseSize sidecars
  return ⟨id, spec.derivationKey sha256, spec, baseDigest, baseSize, sidecars⟩

def GenerationManifest.fields : RecordReader GenerationManifest := do
  let id ← readId
  let derivationKey ← readId
  let spec ← GenerationSpec.decode
  let baseDigest ← readDigest
  let baseSize ← readU64
  let sidecarCount ← readU16
  accept (stop (sidecarCount > MAX_GENERATION_SIDECARS)
    (.invalidMetadata .generation "too many immutable sidecars"))
  let sidecars ← times ImmutableSidecar.decode sidecarCount
  return ⟨id, derivationKey, spec, baseDigest, baseSize, sidecars⟩

def GenerationManifest.recomputeId (m : GenerationManifest) : Except StoreError GenerationId :=
  GenerationId.derive sha256 m.derivationKey m.baseDigest m.baseSize m.sidecars

def GenerationManifest.decode (bytes : Bytes) : Except StoreError GenerationManifest := (do
  let manifest ← decodeFields sha256 bytes GENERATION_MAGIC .generation GenerationManifest.fields
  validateCanonicalSidecars manifest.sidecars
  stop (manifest.spec.derivationKey sha256 ≠ manifest.derivationKey)
    (.invalidMetadata .generation "derivation key does not match canonical immutable inputs")
  let id ← manifest.recomputeId sha256
  stop (id ≠ manifest.id) (.invalidMetadata .generation "generation ID does not match completed immutable outputs")
  stop (manifest.encode sha256 ≠ bytes)
    (.invalidMetadata .generation "record is not in canonical encoding")
  return manifest).mapError (contextualize .generation)

def AliasRecord.new (key : AliasKey) (generationId : GenerationId) :
    AliasRecord := ⟨key.id sha256, key, generationId⟩

def AliasRecord.encode (r : AliasRecord) : Bytes :=
  finishRecord sha256 (startRecord ALIAS_MAGIC ++ r.id.asBytes ++ r.key.encode ++
    r.generationId.asBytes)

def AliasRecord.fields : RecordReader AliasRecord := do
  let id ← readId
  let key ← AliasKey.decode
  let generationId ← readId
  return ⟨id, key, generationId⟩

def AliasRecord.decode (bytes : Bytes) : Except StoreError AliasRecord := (do
  let record ← decodeFields sha256 bytes ALIAS_MAGIC .alias AliasRecord.fields
  stop (record.key.id sha256 ≠ record.id ∨ record.encode sha256 ≠ bytes)
    (.invalidMetadata .alias "alias ID or encoding is not canonical")
  return record).mapError (contextualize .alias)

def DerivationRecord.encode (r : DerivationRecord) : Bytes :=
  finishRecord sha256 (startRecord DERIVATION_MAGIC ++ r.derivationKey.asBytes ++
    r.winner.asBytes ++ counted 2 HashId.asBytes r.alternatives)

def DerivationRecord.fields : RecordReader DerivationRecord := do
  let derivationKey ← readId
  let winner ← readId
  let count ← readU16
  let alternatives ← times readId count
  return ⟨derivationKey, winner, alternatives⟩

def DerivationRecord.decode (bytes : Bytes) : Except StoreError DerivationRecord := (do
  let record ← decodeFields sha256 bytes DERIVATION_MAGIC .derivation DerivationRecord.fields
  record.validate
  stop (record.encode sha256 ≠ bytes)
    (.invalidMetadata .derivation "record is not in canonical encoding")
  return record).mapError (contextualize .derivation)

def RetainedCowState.decode (value : UInt8) : Except StoreError RetainedCowState :=
  if value = 0 then .ok .clean
  else if value = 1 then .ok .crashDirty
  else
    .error (.invalidMetadata .retainedCow ("invalid retained-COW state " ++ toString value.toNat))

/-- The record of a retained overlay, whose path is any managed one. -/
structure RetainedCowRecord where
  id : RetainedCowId
  generationId : GenerationId
  cowPath : ManagedUmlPath
  cowDigest : Digest
  cowSize : UInt64
  state : RetainedCowState
  deriving DecidableEq

namespace RetainedCowRecord

def deriveId (generationId : GenerationId) (cowPath : ManagedUmlPath) (cowDigest : Digest)
    (cowSize : UInt64) (state : RetainedCowState) : RetainedCowId :=
  (Identified.retainedCow generationId cowPath cowDigest cowSize state).id sha256

def new (generationId : GenerationId) (cowPath : ManagedUmlPath) (cowDigest : Digest)
    (cowSize : UInt64) (state : RetainedCowState) : RetainedCowRecord :=
  ⟨deriveId sha256 generationId cowPath cowDigest cowSize state, generationId, cowPath, cowDigest,
    cowSize, state⟩

def encode (r : RetainedCowRecord) : Bytes :=
  finishRecord sha256 (startRecord RETAINED_MAGIC ++ r.id.asBytes ++ r.generationId.asBytes ++
    putText r.cowPath.text ++ r.cowDigest.asBytes ++ putU64 r.cowSize ++ [r.state.encode])

def fields : RecordReader RetainedCowRecord := do
  let id ← readId
  let generationId ← readId
  let cowText ← readText MAX_MANAGED_UML_PATH_BYTES
  let cowPath ← accept ((ManagedUmlPath.new (utf8 cowText)).mapError fun e =>
    .invalidMetadata .retainedCow e.text)
  let cowDigest ← readDigest
  let cowSize ← readU64
  let state ← readU8
  let state ← accept (RetainedCowState.decode state)
  return ⟨id, generationId, cowPath, cowDigest, cowSize, state⟩

def decode (bytes : Bytes) : Except StoreError RetainedCowRecord := (do
  let retained ← decodeFields sha256 bytes RETAINED_MAGIC .retainedCow fields
  stop (deriveId sha256 retained.generationId retained.cowPath retained.cowDigest retained.cowSize retained.state ≠ retained.id)
    (.invalidMetadata .retainedCow "retained-COW ID does not match canonical record")
  stop (retained.encode sha256 ≠ bytes)
    (.invalidMetadata .retainedCow "record is not in canonical encoding")
  return retained).mapError (contextualize .retainedCow)

end RetainedCowRecord

end

section
variable {sha256 : Bytes → Digest} {α : Type} {bytes magic body : Bytes} {kind : MetadataKind}
  {reader : RecordReader α} {a : α}

def Sealed (sha256 : Bytes → Digest) (bytes : Bytes) : Prop := ∃ payload,
    bytes = finishRecord sha256 payload

theorem length_asBytes (d : Digest) : d.asBytes.length = CHECKSUM_BYTES := length_beBytes 32 _

theorem decodeFields_finishRecord (kind : MetadataKind) (hmagic : magic.length = 8)
    (hreads : Takes reader body a)
    (hsize : (finishRecord sha256 (startRecord magic ++ body)).length ≤ MAX_METADATA_BYTES) :
    decodeFields sha256 (finishRecord sha256 (startRecord magic ++ body)) magic kind reader =
      .ok a := by
  have hlength : (finishRecord sha256 (startRecord magic ++ body)).length =
    (startRecord magic ++ body).length + CHECKSUM_BYTES := by
    rw [finishRecord, length_append, length_asBytes]
  have hpayload : (finishRecord sha256 (startRecord magic ++ body)).length - CHECKSUM_BYTES =
    (startRecord magic ++ body).length := by
    omega
  have hlong : magic.length + 2 + CHECKSUM_BYTES ≤
    (finishRecord sha256 (startRecord magic ++ body)).length := by
    rw [hlength, startRecord, putU16]
    simp
  have hchecked : verifyChecksum sha256
    (finishRecord sha256 (startRecord magic ++ body)) magic kind =
      .ok (startRecord magic ++ body) := by
    unfold verifyChecksum
    simp only [bind_ok, stop_ok, pure_ok, not_not, hpayload]
    rw [finishRecord, take_left, drop_left]
    exact ⟨(), Nat.not_lt.mpr hsize, (), Nat.not_lt.mpr hlong, (), rfl, rfl⟩
  have hheader : Takes (readHeader magic kind) (startRecord magic) () := by
    refine (takes_readTake hmagic).bind (Takes.stop (not_not.mpr rfl) ?_)
    exact (takes_readU16 (by decide)).bind_last (Takes.accept (stop_ok.mpr (not_not.mpr rfl)))
  have hrun : (do
      readHeader magic kind
      let a ← reader
      finish (.invalidMetadata .store "trailing bytes in canonical record")
      return a : RecordReader α) (startRecord magic ++ body) = .ok (a, []) := by
    show (readHeader magic kind (startRecord magic ++ body) >>= fun p => (do
      let a ← reader
      finish (.invalidMetadata .store "trailing bytes in canonical record")
      return a : RecordReader α) p.2) = _
    rw [hheader body]
    exact hreads.run_finish
  unfold decodeFields
  simp only [bind_ok, pure_ok]
  exact ⟨_, hchecked, _, hrun, rfl⟩

end

theorem GenerationManifest.takes_fields (m : GenerationManifest)
    (h : m.sidecars.length ≤ MAX_GENERATION_SIDECARS) :
    Takes GenerationManifest.fields (m.id.asBytes ++
      (m.derivationKey.asBytes ++ (m.spec.encode ++ (m.baseDigest.asBytes ++
      (putU64 m.baseSize ++ counted 2 ImmutableSidecar.encode m.sidecars))))) m := by
  refine (takes_readId m.id).bind ((takes_readId m.derivationKey).bind
    (m.spec.takes_decode.bind ?_))
  refine (takes_readDigest m.baseDigest).bind ((takes_readU64 m.baseSize).bind ?_)
  rw [← append_nil (counted 2 ImmutableSidecar.encode _)]
  exact takes_counted (fun s _ => s.takes_decode) h (by decide) Takes.pure

theorem AliasRecord.takes_fields (r : AliasRecord) :
    Takes AliasRecord.fields (r.id.asBytes ++ (r.key.encode ++ r.generationId.asBytes)) r :=
  (takes_readId r.id).bind (r.key.takes_decode.bind ((takes_readId r.generationId).bind_last Takes.pure))

theorem DerivationRecord.takes_fields (r : DerivationRecord) (h : r.alternatives.length < 256 ^ 2) :
    Takes DerivationRecord.fields (r.derivationKey.asBytes ++
      (r.winner.asBytes ++ counted 2 HashId.asBytes r.alternatives)) r := by
  refine (takes_readId r.derivationKey).bind
    ((takes_readId r.winner).bind ((takes_readU16 h).bind ?_))
  exact (Takes.times fun id _ => takes_readId id).bind_last Takes.pure

theorem RetainedCowState.decode_encode (s : RetainedCowState) :
    RetainedCowState.decode s.encode = .ok s := by
  cases s <;> rfl

theorem RetainedCowRecord.takes_fields (r : RetainedCowRecord) :
    Takes RetainedCowRecord.fields (r.id.asBytes ++
      (r.generationId.asBytes ++ (putText r.cowPath.text ++ (r.cowDigest.asBytes ++
      (putU64 r.cowSize ++ [r.state.encode]))))) r := by
  have hpath : (ManagedUmlPath.new (utf8 r.cowPath.text)).mapError (fun e =>
    StoreError.invalidMetadata .retainedCow e.text) =
      .ok r.cowPath :=
    mapError_ok.mpr (r.cowPath.new_self (Cbor.Format.fromUTF8?_textBytes r.cowPath.text))
  refine (takes_readId r.id).bind ((takes_readId r.generationId).bind ?_)
  refine (takes_readText r.cowPath.size_le (by decide)).bind (Takes.check hpath ?_)
  refine (takes_readDigest r.cowDigest).bind ((takes_readU64 r.cowSize).bind ?_)
  exact (takes_readU8 r.state.encode).bind_last (Takes.check r.state.decode_encode Takes.pure)

/-- A record format, with the records that the store's constructors build. -/
structure RecordFormat (α : Type) where
  encode : α → Bytes
  decode : Bytes → Except StoreError α
  Built : α → Prop

/-- Accepted bytes are the one encoding of what they are decoded to and carry their checksum, and
the records that are built are decoded again. -/
structure RecordFormat.Canonical {α : Type} (sha256 : Bytes → Digest)
    (f : RecordFormat α) : Prop where
  encode_of_decode : ∀ bytes r, f.decode bytes = .ok r → f.encode r = bytes
  sealed_of_decode : ∀ bytes r, f.decode bytes = .ok r → Sealed sha256 bytes
  decode_encode : ∀ r, f.Built r → (f.encode r).length ≤ MAX_METADATA_BYTES →
    f.decode (f.encode r) = .ok r

/-- What is accepted is sealed because it is an encoding. -/
theorem RecordFormat.Canonical.of_encode {α : Type} {sha256 : Bytes → Digest} {f : RecordFormat α}
    (hsealed : ∀ r, Sealed sha256 (f.encode r))
    (hencode : ∀ bytes r, f.decode bytes = .ok r → f.encode r = bytes)
    (hdecode : ∀ r, f.Built r → (f.encode r).length ≤ MAX_METADATA_BYTES →
      f.decode (f.encode r) = .ok r) :
    f.Canonical sha256 :=
  ⟨hencode, fun bytes r h => hencode bytes r h ▸ hsealed r, hdecode⟩

/-- The lookups that `new`, `insert` and `remove` lead to. -/
inductive DerivationRecord.Built : DerivationRecord → Prop
  | new (key : DerivationKey) (winner : GenerationId) : Built ⟨key, winner, []⟩
  | insert {r : DerivationRecord} (id : GenerationId) (h : Built r) : Built (r.insert id)
  | remove {r r' : DerivationRecord} (id : GenerationId) (h : Built r)
    (hremove : r.remove id = some r') : Built r'

section
variable (sha256 : Bytes → Digest)

def manifestFormat : RecordFormat GenerationManifest where
  encode := GenerationManifest.encode sha256
  decode := GenerationManifest.decode sha256
  Built m := ∃ spec baseDigest baseSize sidecars,
    GenerationManifest.complete sha256 spec baseDigest baseSize sidecars = .ok m

def aliasFormat : RecordFormat AliasRecord where
  encode := AliasRecord.encode sha256
  decode := AliasRecord.decode sha256
  Built r := ∃ key generationId, r = AliasRecord.new sha256 key generationId

def derivationFormat : RecordFormat DerivationRecord where
  encode := DerivationRecord.encode sha256
  decode := DerivationRecord.decode sha256
  Built := DerivationRecord.Built

def retainedCowFormat : RecordFormat RetainedCowRecord where
  encode := RetainedCowRecord.encode sha256
  decode := RetainedCowRecord.decode sha256
  Built r := ∃ generationId cowPath cowDigest cowSize state,
    r = RetainedCowRecord.new sha256 generationId cowPath cowDigest cowSize state

end

variable {sha256 : Bytes → Digest}

theorem manifestFormat_canonical : (manifestFormat sha256).Canonical sha256 := by
  refine .of_encode (fun _ => ⟨_, rfl⟩) ?_ ?_
  · intro bytes m h
    simp only [manifestFormat, GenerationManifest.decode, mapError_ok, bind_ok, stop_ok,
      pure_ok, not_not] at h
    obtain ⟨_, -, -, -, -, -, -, -, -, -, -, hbytes, rfl⟩ := h
    exact hbytes
  · rintro m ⟨spec, baseDigest, baseSize, sidecars, hcomplete⟩ hsize
    simp only [GenerationManifest.complete, bind_ok, pure_ok] at hcomplete
    obtain ⟨id, hid, rfl⟩ := hcomplete
    have hcanonical : validateCanonicalSidecars sidecars = .ok () := by
      obtain ⟨_, hvalid, -⟩ := bind_ok.mp hid
      exact hvalid
    simp only [manifestFormat, GenerationManifest.encode, GenerationManifest.decode, mapError_ok,
      bind_ok, stop_ok, pure_ok, not_not, append_assoc] at hsize ⊢
    have hfields := decodeFields_finishRecord .generation (by decide +kernel)
      (GenerationManifest.takes_fields ⟨id, spec.derivationKey sha256, spec, baseDigest,
        baseSize, sidecars⟩ (length_of_canonical hcanonical)) hsize
    exact ⟨_, hfields, (), hcanonical, (), rfl, id, hid, (), rfl, (), rfl, rfl⟩

theorem aliasFormat_canonical : (aliasFormat sha256).Canonical sha256 := by
  refine .of_encode (fun _ => ⟨_, rfl⟩) ?_ ?_
  · intro bytes r h
    simp only [aliasFormat, AliasRecord.decode, mapError_ok, bind_ok, stop_ok, pure_ok,
      not_or, not_not] at h
    obtain ⟨_, -, -, ⟨-, hbytes⟩, rfl⟩ := h
    exact hbytes
  · rintro r ⟨key, generationId, rfl⟩ hsize
    simp only [aliasFormat, AliasRecord.encode, AliasRecord.decode, mapError_ok, bind_ok, stop_ok,
      pure_ok, not_or, not_not, append_assoc] at hsize ⊢
    have hfields := decodeFields_finishRecord .alias (by decide +kernel)
      (AliasRecord.takes_fields (AliasRecord.new sha256 key generationId)) hsize
    exact ⟨_, hfields, (), ⟨rfl, rfl⟩, rfl⟩

namespace DerivationRecord

/-- The alternatives are in order, and the winner is none of them. -/
structure Ordered (r : DerivationRecord) : Prop where
  winner : r.winner ∉ r.alternatives
  sorted : r.alternatives.Pairwise fun i j => ¬j.le i

variable {id : GenerationId} {ids : List GenerationId} {r : DerivationRecord}

theorem mem_insertSorted {a : GenerationId} : a ∈ insertSorted id ids ↔ a = id ∨ a ∈ ids := by
  induction ids with
  | nil => simp [insertSorted]
  | cons b ids ih =>
    unfold insertSorted
    split
    · simp
    · rw [mem_cons, mem_cons]
      tauto

theorem sorted_insertSorted (h : ids.Pairwise fun i j => ¬j.le i) (hnew : id ∉ ids) :
    (insertSorted id ids).Pairwise fun i j => ¬j.le i := by
  induction ids with
  | nil => exact pairwise_singleton ..
  | cons b ids ih =>
    obtain ⟨hb, hids⟩ := pairwise_cons.mp h
    obtain ⟨hne, hnew⟩ := not_or.mp (mt mem_cons.mpr hnew)
    have hbits : id.bits.toNat ≠ b.bits.toNat := by
      intro heq
      refine hne ?_
      exact congrArg HashId.mk (BitVec.eq_of_toNat_eq heq)
    unfold insertSorted
    split
    · next hle =>
      simp only [HashId.le, decide_eq_true_eq] at hle hb h ⊢
      refine pairwise_cons.mpr ⟨fun j hj => ?_, h⟩
      rcases mem_cons.mp hj with rfl | hj
      · omega
      · have := hb j hj
        omega
    · next hlt =>
      refine pairwise_cons.mpr ⟨fun j hj => ?_, ih hids hnew⟩
      rcases mem_insertSorted.mp hj with rfl | hj
      · simpa [HashId.le] using hlt
      · exact hb j hj

theorem Ordered.insert (h : r.Ordered) (id : GenerationId) : (r.insert id).Ordered := by
  unfold DerivationRecord.insert
  split
  · exact h
  · next hnew =>
    obtain ⟨hwinner, halternatives⟩ := not_or.mp hnew
    refine ⟨fun hmem => ?_, sorted_insertSorted h.sorted halternatives⟩
    rcases mem_insertSorted.mp hmem with heq | hmem
    · exact hwinner heq.symm
    · exact h.winner hmem

theorem Ordered.remove {r' : DerivationRecord} (h : r.Ordered) (hremove : r.remove id = some r') :
    r'.Ordered := by
  obtain ⟨key, winner, alternatives⟩ := r
  unfold DerivationRecord.remove at hremove
  split at hremove
  · cases alternatives with
    | nil => cases hremove
    | cons a rest =>
      cases hremove
      obtain ⟨ha, hrest⟩ := pairwise_cons.mp h.sorted
      refine ⟨fun hmem => ?_, hrest⟩
      exact ha a hmem (by simp [HashId.le])
  · cases hremove
    exact ⟨fun hmem => h.winner (mem_of_mem_erase hmem), h.sorted.sublist erase_sublist⟩

theorem Built.ordered (h : r.Built) : r.Ordered := by
  induction h with
  | new key winner => exact ⟨not_mem_nil, .nil⟩
  | insert id h ih => exact ih.insert id
  | remove id h hremove ih => exact ih.remove hremove

theorem Ordered.validate (h : r.Ordered) (hlength : r.alternatives.length < 65535) :
    r.validate = .ok () := by
  unfold DerivationRecord.validate
  rw [if_neg (Nat.not_le.mpr hlength), if_neg (not_or.mpr ⟨h.winner, not_not.mpr h.sorted⟩)]

theorem length_alternatives (h : (r.encode sha256).length ≤ MAX_METADATA_BYTES) :
    r.alternatives.length < 65535 := by
  have hcounted : (counted 2 HashId.asBytes r.alternatives).length =
    2 + 32 * r.alternatives.length := by
    simp [counted, length_flatMap, HashId.asBytes, Nat.mul_comm]
  rw [DerivationRecord.encode, finishRecord, length_append, length_append, MAX_METADATA_BYTES] at h
  omega

end DerivationRecord

theorem derivationFormat_canonical : (derivationFormat sha256).Canonical sha256 := by
  refine .of_encode (fun _ => ⟨_, rfl⟩) ?_ ?_
  · intro bytes r h
    simp only [derivationFormat, DerivationRecord.decode, mapError_ok, bind_ok, stop_ok,
      pure_ok, not_not] at h
    obtain ⟨_, -, -, -, -, hbytes, rfl⟩ := h
    exact hbytes
  · intro r hbuilt hsize
    have hlength : r.alternatives.length < 65535 := DerivationRecord.length_alternatives hsize
    have hvalid := (DerivationRecord.Built.ordered hbuilt).validate hlength
    simp only [derivationFormat, DerivationRecord.encode, DerivationRecord.decode, mapError_ok,
      bind_ok, stop_ok, pure_ok, not_not, append_assoc] at hsize ⊢
    have hfields := decodeFields_finishRecord .derivation (by decide +kernel)
      (r.takes_fields (by omega)) hsize
    exact ⟨r, hfields, (), hvalid, (), rfl, rfl⟩

theorem retainedCowFormat_canonical : (retainedCowFormat sha256).Canonical sha256 := by
  refine .of_encode (fun _ => ⟨_, rfl⟩) ?_ ?_
  · intro bytes r h
    simp only [retainedCowFormat, RetainedCowRecord.decode, mapError_ok, bind_ok, stop_ok,
      pure_ok, not_not] at h
    obtain ⟨_, -, -, -, -, hbytes, rfl⟩ := h
    exact hbytes
  · rintro r ⟨generationId, cowPath, cowDigest, cowSize, state, rfl⟩ hsize
    simp only [retainedCowFormat, RetainedCowRecord.encode, RetainedCowRecord.decode, mapError_ok,
      bind_ok, stop_ok, pure_ok, not_not, append_assoc] at hsize ⊢
    have hfields := decodeFields_finishRecord .retainedCow (by decide +kernel)
      (RetainedCowRecord.takes_fields (RetainedCowRecord.new sha256 generationId cowPath cowDigest cowSize state)) hsize
    exact ⟨_, hfields, (), rfl, (), rfl, rfl⟩

/-- In each of the four formats, accepted bytes are the encoding of the record they are decoded to
and end with their checksum, and every record that the store builds within the bound is decoded
again. -/
theorem store_records_canonical (sha256 : Bytes → Digest) :
    (manifestFormat sha256).Canonical sha256 ∧ (aliasFormat sha256).Canonical sha256 ∧
      (derivationFormat sha256).Canonical sha256 ∧ (retainedCowFormat sha256).Canonical sha256 :=
  ⟨manifestFormat_canonical, aliasFormat_canonical, derivationFormat_canonical,
    retainedCowFormat_canonical⟩

end PocketVm.Store

/-! ### Derivation lookups as sets

Under `insert` and `remove` a lookup is the set of what was inserted and not removed, as long as it
fits. -/

namespace PocketVm.Store.DerivationRecord

open List

/-- What `update_derivation_index` and `remove_from_derivation_index` do to the record of a key. -/
inductive Call where
  | insert (id : GenerationId)
  | remove (id : GenerationId)

/-- The lookup after a call; `none` is no file. -/
def apply (key : DerivationKey) : Option DerivationRecord → Call → Option DerivationRecord
  | none, .insert id => some ⟨key, id, []⟩
  | none, .remove _ => none
  | some r, .insert id => some (r.insert id)
  | some r, .remove id => r.remove id

def Call.onSet (s : Finset GenerationId) : Call → Finset GenerationId
  | .insert id => Insert.insert id s
  | .remove id => s.erase id

variable {key : DerivationKey} {id a : GenerationId} {r r' : DerivationRecord}
  {s : Finset GenerationId} {calls : List Call}

theorem Ordered.nodup (h : r.Ordered) : r.ids.Nodup := by
  refine nodup_cons.mpr ⟨h.winner, h.sorted.imp fun {i j} hlt heq => hlt ?_⟩
  rw [heq, HashId.le, decide_eq_true_eq]

theorem mem_ids_insert : a ∈ (r.insert id).ids ↔ a = id ∨ a ∈ r.ids := by
  unfold DerivationRecord.insert
  split
  · next hlisted =>
    refine ⟨.inr, ?_⟩
    rintro (rfl | h)
    · exact mem_cons.mpr hlisted
    · exact h
  · simp only [ids, mem_cons, mem_insertSorted]
    tauto

theorem mem_ids_remove (h : r.Ordered) (hremove : r.remove id = some r') : a ∈ r'.ids ↔
    a ≠ id ∧ a ∈ r.ids := by
  obtain ⟨key, winner, alternatives⟩ := r
  have hnodup := (nodup_cons.mp h.nodup).2
  unfold DerivationRecord.remove at hremove
  split at hremove
  · next hid =>
    cases alternatives with
    | nil => cases hremove
    | cons b rest =>
      cases hremove
      have hwinner : winner ∉ b :: rest := h.winner
      simp only [ids, mem_cons] at hid hwinner ⊢
      grind
  · next hid =>
    cases hremove
    simp only [ids, mem_cons, hnodup.mem_erase_iff]
    grind

theorem remove_eq_none : r.remove id = none ↔ r.ids = [id] := by
  obtain ⟨key, winner, alternatives⟩ := r
  unfold DerivationRecord.remove ids
  cases alternatives <;> grind

theorem validate_iff (h : r.Ordered) : r.validate = .ok () ↔ r.ids.length ≤ 65535 := by
  constructor
  · intro hvalid
    unfold DerivationRecord.validate at hvalid
    split at hvalid
    · cases hvalid
    · next hfew => exact Nat.not_le.mp hfew
  · exact fun hfew => h.validate hfew

/-- A lookup that lists a set. -/
structure Lists (r : DerivationRecord) (s : Finset GenerationId) : Prop where
  ordered : r.Ordered
  ids : r.ids.toFinset = s

theorem Lists.length (h : r.Lists s) : r.ids.length = s.card := by
  rw [← h.ids, toFinset_card_of_nodup h.ordered.nodup]

theorem Lists.remove_eq_none (h : r.Lists s) : r.remove id = none ↔ s = {id} := by
  rw [DerivationRecord.remove_eq_none, ← h.ids]
  constructor
  · intro hone
    rw [hone]
    rfl
  · intro hset
    have hlength : r.ids.length = 1 := by rw [h.length, ← h.ids, hset, Finset.card_singleton]
    obtain ⟨b, hb⟩ := length_eq_one_iff.mp hlength
    rw [hb] at hset ⊢
    rw [Finset.singleton_injective hset]

/-- A call does to the lookup what it does to the set; where the lookup goes, nothing is left in the
set. -/
def Tracks : Option DerivationRecord → Finset GenerationId → Prop
  | none, s => s = ∅
  | some r, s => r.Lists s

theorem Tracks.apply {o : Option DerivationRecord} (h : Tracks o s) (call : Call) :
    Tracks (apply key o call) (call.onSet s) := by
  cases o with
  | none =>
    obtain rfl : s = ∅ := h
    cases call with
    | insert id => exact ⟨⟨not_mem_nil, .nil⟩, rfl⟩
    | remove id => rfl
  | some r =>
    have h : r.Lists s := h
    cases call with
    | insert id =>
      refine ⟨h.ordered.insert id, ?_⟩
      ext a
      rw [mem_toFinset, mem_ids_insert, Call.onSet, Finset.mem_insert, ← h.ids, mem_toFinset]
    | remove id =>
      show Tracks (r.remove id) (s.erase id)
      cases hremove : r.remove id with
      | none =>
        rw [h.remove_eq_none.mp hremove]
        exact Finset.erase_singleton id
      | some r' =>
        refine ⟨h.ordered.remove hremove, ?_⟩
        ext a
        rw [mem_toFinset, mem_ids_remove h.ordered hremove, Finset.mem_erase, ← h.ids, mem_toFinset]

theorem tracks_foldl (calls : List Call) {o : Option DerivationRecord} (h : Tracks o s) :
    Tracks (calls.foldl (apply key) o) (calls.foldl Call.onSet s) := by
  induction calls generalizing o s with
  | nil => exact h
  | cons call calls ih => exact ih (h.apply call)

theorem winner_insert : (r.insert id).winner = r.winner := by
  unfold DerivationRecord.insert
  split <;> rfl

theorem winner_remove (h : r.Ordered) (hremove : r.remove id = some r') : r'.winner = r.winner ↔
    id ≠ r.winner := by
  constructor
  · rintro hwinner rfl
    have hmem := (mem_ids_remove (a := r.winner) h hremove).mp (hwinner ▸ mem_cons_self ..)
    exact hmem.1 rfl
  · intro hne
    rw [DerivationRecord.remove, if_neg hne] at hremove
    cases hremove
    rfl

/-- After any calls there is no lookup exactly if nothing that was inserted is left. Otherwise the
lookup lists what is left, each generation once, and passes `validate` exactly up to 65535
generations; `remove` gives up the file exactly with the last generation, and the winner changes
only when it is removed. -/
theorem derivation_lookup_is_set (key : DerivationKey) (calls : List Call) :
    (calls.foldl (apply key) none = none ↔ calls.foldl Call.onSet ∅ = ∅) ∧ ∀ r,
      calls.foldl (apply key) none = some r →
      r.ids.Nodup ∧ r.ids.toFinset = calls.foldl Call.onSet ∅ ∧
      (r.validate = .ok () ↔ (calls.foldl Call.onSet ∅).card ≤ 65535) ∧
      ∀ id, (r.remove id = none ↔ calls.foldl Call.onSet ∅ = {id}) ∧
        (r.insert id).winner = r.winner ∧
        ∀ r', r.remove id = some r' → (r'.winner = r.winner ↔ id ≠ r.winner) := by
  have htracks : Tracks (calls.foldl (apply key) none) (calls.foldl Call.onSet ∅) :=
    tracks_foldl calls rfl
  constructor
  · constructor
    · intro hnone
      rwa [hnone] at htracks
    · intro hempty
      cases hrecord : calls.foldl (apply key) none with
      | none => rfl
      | some r =>
        rw [hrecord, hempty] at htracks
        exact absurd htracks.ids (Finset.ne_empty_of_mem
          (mem_toFinset.mpr (mem_cons_self (a := r.winner))))
  · intro r hrecord
    rw [hrecord] at htracks
    have h : r.Lists (calls.foldl Call.onSet ∅) := htracks
    refine ⟨h.ordered.nodup, h.ids, ?_, fun id => ⟨h.remove_eq_none, winner_insert,
      fun r' => winner_remove h.ordered⟩⟩
    rw [validate_iff h.ordered, h.length]

theorem onSet_inserts (l : List GenerationId) (s : Finset GenerationId) :
    (l.map Call.insert).foldl Call.onSet s = s ∪ l.toFinset := by
  induction l generalizing s with
  | nil => simp
  | cons id l ih =>
    rw [map_cons, foldl_cons, ih, toFinset_cons]
    ext a
    simp only [Call.onSet, Finset.mem_union, Finset.mem_insert]
    tauto

theorem exists_inserted {l : List GenerationId} (h : l.Nodup) (hne : l ≠ []) :
    ∃ r, (l.map Call.insert).foldl (apply key) none = some r ∧ r.Ordered ∧
      r.ids.length = l.length := by
  have htracks : Tracks ((l.map Call.insert).foldl (apply key) none) _ := tracks_foldl _ rfl
  rw [onSet_inserts, Finset.empty_union] at htracks
  cases hrecord : (l.map Call.insert).foldl (apply key) none with
  | none =>
    rw [hrecord] at htracks
    exact absurd ((toFinset_eq_empty_iff _).mp htracks) hne
  | some r =>
    rw [hrecord] at htracks
    exact ⟨r, rfl, htracks.ordered, htracks.length.trans (toFinset_card_of_nodup h)⟩

def crowd : List GenerationId := (List.range 65536).map fun n => ⟨BitVec.ofNat 256 n⟩

theorem length_crowd : crowd.length = 65536 := by
  rw [crowd, length_map, length_range]

theorem nodup_crowd : crowd.Nodup := by
  refine Nodup.map_on (fun m hm n hn heq => ?_) nodup_range
  rw [mem_range] at hm hn
  have := congrArg (fun id : GenerationId => id.bits.toNat) heq
  simp only [BitVec.toNat_ofNat] at this
  omega

/-- Insertions alone lead to a lookup that `validate` refuses. -/
theorem crowded_lookup_refused : ∃ r, (crowd.map Call.insert).foldl (apply ⟨0⟩) none = some r ∧
    r.validate ≠ .ok () := by
  obtain ⟨r, hrecord, hordered, hlength⟩ := exists_inserted nodup_crowd
    (ne_nil_of_length_pos (by rw [length_crowd]; decide))
  refine ⟨r, hrecord, fun hvalid => ?_⟩
  have hfew := (validate_iff hordered).mp hvalid
  rw [hlength, length_crowd] at hfew
  omega

end PocketVm.Store.DerivationRecord
