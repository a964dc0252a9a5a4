import PocketVm.Protocol.Builder

/-!
# The generation marker in the guests

Before anything of an image runs, `pocket-init` reads the marker of its root volume and reconciles
it with the START it was sent (`contract.rs`). Before a built image is published, the validator
guest compares the marker with the one that the host expects (`linux.rs` of
`pocket-validator-init`).
-/

namespace PocketVm.Guest

open Wire Checked Protocol

structure InitError where
  stage : String
  diagnostic : String
  deriving DecidableEq

def MAX_GENERATION_MARKER_BYTES : Nat := 64 * 1024

section

variable (codec : Codec GenerationMarker)

def markerError (diagnostic : String) : InitError := ⟨"generation-marker", diagnostic⟩

def decodeGenerationMarker (bytes : Bytes) : Except InitError GenerationMarker := do
  stop (bytes.length > MAX_GENERATION_MARKER_BYTES) (markerError
    ("generation marker is " ++ toString bytes.length ++ " bytes; maximum is " ++
      toString MAX_GENERATION_MARKER_BYTES))
  let (marker, position) ← (codec.decode bytes).mapError fun e =>
    markerError ("invalid CBOR: " ++ e)
  stop (position ≠ bytes.length) (markerError "trailing bytes after marker")
  let canonical ← (codec.toVec marker).mapError fun e =>
    markerError ("cannot re-encode marker: " ++ e)
  stop (canonical ≠ bytes) (markerError "marker is not in deterministic CBOR encoding")
  return marker

def mismatch (field : String) :
    InitError := markerError ("generation marker " ++ field ++ " does not match START")

/-- The fields that a marker has to share with START. -/
structure Reconciled (marker : GenerationMarker) (start : Start) : Prop where
  derivationKey : marker.derivationKey = start.derivationKey
  profileId : marker.profileId = start.profileId
  profileRevision : marker.profileRevision = start.profileRevision
  descriptorPlatform : marker.descriptorPlatform = start.descriptorPlatform
  configPlatform : marker.configPlatform = start.configPlatform
  effectivePlatform : marker.effectivePlatform = start.effectivePlatform
  selectorPolicy : marker.selectorPolicy = start.selectorPolicy
  rootLayout : marker.rootLayout = start.rootLayout
  filesystemContract : marker.filesystemContract = start.filesystemContract
  accountDbSha256 : marker.accountDbSha256 = start.accountDbSha256

def verifyGenerationMarker (marker : GenerationMarker) (start : Start) : Except InitError Unit := do
  stop (marker.schema ≠ GENERATION_MARKER_SCHEMA) (mismatch "schema")
  stop (¬(marker.derivationKey = start.derivationKey ∧ marker.profileId = start.profileId ∧
      marker.profileRevision = start.profileRevision ∧
        marker.descriptorPlatform = start.descriptorPlatform ∧
      marker.configPlatform = start.configPlatform ∧
        marker.effectivePlatform = start.effectivePlatform ∧
      marker.selectorPolicy = start.selectorPolicy ∧ marker.rootLayout = start.rootLayout ∧
      marker.filesystemContract = start.filesystemContract ∧
        marker.accountDbSha256 = start.accountDbSha256))
    (mismatch "START reconciliation fields")

/-- The part of `verify_volume` that is about the marker; `file` is what the volume has under its
path. -/
def verifyVolumeMarker (file : Option Bytes) (start : Start) : Except InitError Unit := do
  let bytes ← require file ⟨"generation-marker", "cannot open"⟩
  stop (bytes.length > MAX_GENERATION_MARKER_BYTES) (markerError "marker exceeds hard cap")
  let marker ← decodeGenerationMarker codec bytes
  verifyGenerationMarker marker start

variable {codec} {bytes : Bytes} {marker : GenerationMarker} {start : Start}

theorem decodeGenerationMarker_ok : decodeGenerationMarker codec bytes = .ok marker ↔
    bytes.length ≤ MAX_GENERATION_MARKER_BYTES ∧ codec.toVec marker = .ok bytes := by
  unfold decodeGenerationMarker
  simp only [bind_ok, stop_ok, mapError_ok, pure_ok, not_not, Nat.not_lt]
  constructor
  · rintro ⟨_, hlen, ⟨m, position⟩, -, _, -, canonical, henc, _, rfl, rfl⟩
    exact ⟨hlen, henc⟩
  · rintro ⟨hlen, henc⟩
    exact ⟨(), hlen, (marker, bytes.length), codec.decode_toVec henc, (), rfl, bytes,
      henc, (), rfl, rfl⟩

theorem verifyGenerationMarker_ok {u : Unit} : verifyGenerationMarker marker start = .ok u ↔
    marker.schema = GENERATION_MARKER_SCHEMA ∧ Reconciled marker start := by
  unfold verifyGenerationMarker
  simp only [bind_ok, stop_ok, not_not, exists_and_left, exists_const]
  refine and_congr_right fun _ => ⟨?_, ?_⟩
  · rintro ⟨h1, h2, h3, h4, h5, h6, h7, h8, h9, h10⟩
    exact ⟨h1, h2, h3, h4, h5, h6, h7, h8, h9, h10⟩
  · rintro ⟨h1, h2, h3, h4, h5, h6, h7, h8, h9, h10⟩
    exact ⟨h1, h2, h3, h4, h5, h6, h7, h8, h9, h10⟩

/-- A volume's marker passes when it is the canonical encoding, not too long, of a marker that
agrees with START. -/
theorem verifyVolumeMarker_ok {file : Option Bytes} {u : Unit} :
    verifyVolumeMarker codec file start = .ok u ↔
    ∃ bytes marker, file = some bytes ∧ bytes.length ≤ MAX_GENERATION_MARKER_BYTES ∧
      codec.toVec marker = .ok bytes ∧ marker.schema = GENERATION_MARKER_SCHEMA ∧
        Reconciled marker start := by
  unfold verifyVolumeMarker
  simp only [bind_ok, require_ok, stop_ok, Nat.not_lt, decodeGenerationMarker_ok,
    verifyGenerationMarker_ok]
  constructor
  · rintro ⟨bytes, hfile, _, -, marker, ⟨hlen, henc⟩, hmarker⟩
    exact ⟨bytes, marker, hfile, hlen, henc, hmarker⟩
  · rintro ⟨bytes, marker, hfile, hlen, henc, hmarker⟩
    exact ⟨bytes, hfile, (), hlen, marker, ⟨hlen, henc⟩, hmarker⟩

end

section

variable (sha256 : Bytes → Digest) (codec : Codec GenerationMarker)

def MARKER_LIMIT : Nat := 64 * 1024

/-- The part of `validate_candidate` that is about the marker: the diagnostic of a refusal, or the
digest that goes into the evidence. `file` is what the mounted candidate has under the marker's
path. -/
def validateCandidateMarker (expected : GenerationMarker) (expectedSha256 : String)
    (file : Option Bytes) :
    Except String String := do
  let bytes ← require file "cannot inspect"
  stop (bytes.length > MARKER_LIMIT) "file is not a bounded regular file"
  let markerSha256 := hexDigest sha256 bytes
  stop (markerSha256 ≠ expectedSha256) "generation marker digest differs from VALIDATE_START"
  let marker ← (decodePayload codec GenerationMarker.validate bytes).mapError fun _ =>
    "generation-marker"
  (marker.validate).mapError fun _ => "generation-marker"
  stop (marker ≠ expected) "generation marker fields differ from VALIDATE_START"
  return markerSha256

variable {sha256 codec} {expected : GenerationMarker} {expectedSha256 result : String}
  {file : Option Bytes}

theorem validateCandidateMarker_ok
    (h : validateCandidateMarker sha256 codec expected expectedSha256 file = .ok result) :
    ∃ bytes, file = some bytes ∧ bytes.length ≤ MARKER_LIMIT ∧ result = hexDigest sha256 bytes ∧
      Canonical codec GenerationMarker.validate expected bytes := by
  unfold validateCandidateMarker at h
  simp only [bind_ok, require_ok, stop_ok, mapError_ok, decodePayload_eq_ok, Nat.not_lt,
    not_not, pure_ok] at h
  obtain ⟨bytes, hfile, _, hlen, _, -, marker, hmarker, _, -, _, rfl, rfl⟩ := h
  exact ⟨bytes, hfile, hlen, rfl, hmarker⟩

end

end PocketVm.Guest
