import PocketVm.Identity
import PocketVm.Protocol.Frame

/-!
# Message fields and payloads

`message.rs`: the checks that every message's fields share, and payloads. A payload is accepted only
if it is, byte for byte, what the decoded message encodes to. The CBOR encoding itself is the work
of `minicbor` and a parameter here: a `Codec` for each type.
-/

namespace PocketVm.Protocol

open Wire Checked

def MAX_ID_LENGTH : Nat := 128
def MAX_DIAGNOSTIC_LENGTH : Nat := 8192

def invalid {α : Type} (field reason : String) : Except ProtocolError α :=
  .error (.invalidMessage field reason)

/-- `if c { return invalid(field, reason) }`. -/
def refuse (c : Prop) [Decidable c] (field reason : String) : Except ProtocolError Unit :=
  stop c (.invalidMessage field reason)

def validateCount (field : String) (actual maximum : Nat) : Except ProtocolError Unit :=
  stop (actual > maximum) (.messageLimitExceeded field actual maximum)

def validateText (field value : String) (maximum : Nat) (emptyAllowed : Bool) :
    Except ProtocolError Unit := do
  validateCount field (utf8 value).length maximum
  refuse (!emptyAllowed && (utf8 value).isEmpty) field "must not be empty"
  refuse ((utf8 value).contains 0) field "contains NUL"

def isTokenByte (b : UInt8) : Bool := isAsciiAlphanumeric b || b == 46 || b == 95 || b == 45

def validateToken (field value : String) (maximum : Nat) : Except ProtocolError Unit := do
  validateText field value maximum false
  refuse (!(utf8 value).all isTokenByte) field "contains a non-token character"

def isHexByte (b : UInt8) : Bool := (48 ≤ b && b ≤ 57) || (97 ≤ b && b ≤ 102)

def validateSha256 (field value : String) : Except ProtocolError Unit :=
  refuse ((utf8 value).length ≠ 64 ∨ ¬(utf8 value).all isHexByte) field
    "must be 64 lowercase hexadecimal characters"

def checkedAdd (a b : Nat) (overflow : ProtocolError) : Except ProtocolError Nat :=
  if a + b < 2 ^ 64 then .ok (a + b) else .error overflow

/-- The overflow of a count that has no bound of its own. -/
def unbounded (field : String) (maximum : Nat) : ProtocolError :=
  .messageLimitExceeded field (2 ^ 64 - 1) maximum

/-- A loop that checks each element against the one before it. -/
def validateEach {α : Type} (check : Option α → α → Except ProtocolError Unit) :
    Option α → List α → Except ProtocolError Unit
  | _, [] => .ok ()
  | previous, x :: xs => do
    check previous x
    validateEach check (some x) xs

/-- A loop that puts each element into a set and stops at one that is there already. -/
def validateUnique {α : Type} [BEq α] (check : α → Except ProtocolError Unit)
    (field reason : String) :
    List α → List α → Except ProtocolError Unit
  | _, [] => .ok ()
  | seen, x :: xs => do
    check x
    refuse (seen.contains x) field reason
    validateUnique check field reason (x :: seen) xs

/-- `previous >= value` on the bytes of two names, as far as there is a previous one. -/
def notAfter (previous : Option Bytes) (value : Bytes) : Bool :=
  match previous with
  | none => false
  | some name => !decide (name < value)

structure Platform where
  os : String
  architecture : String
  variant : Option String
  deriving DecidableEq

def Platform.validate (p : Platform) (field : String) : Except ProtocolError Unit := do
  validateToken field p.os 32
  validateToken field p.architecture 32
  p.variant.forM fun variant => validateToken field variant 32

/-- The numbers of `pocket_core::ErrorCode`. -/
def ErrorCode.known : List UInt16 :=
  [0x0101, 0x0102, 0x0103, 0x0104, 0x0105, 0x0106, 0x0107, 0x0201, 0x0202, 0x0203, 0x0204, 0x0205,
    0x0301, 0x0302, 0x0303, 0x0304, 0x0305, 0x0306, 0x1001, 0x1002, 0x1003, 0x1004, 0x1005, 0x1006,
    0x1007, 0x1008, 0x1009, 0x100a, 0x100b, 0x100c, 0x100d, 0x100e, 0x2001, 0x2002, 0x2003, 0x2004,
    0x2005, 0x2006, 0x2007, 0x2008, 0x2009, 0x200a, 0x200b, 0x200c, 0x2101, 0x2102, 0x2103, 0x2104,
    0x2105, 0x2106, 0x2107, 0x2108]

structure ErrorMessage where
  stage : String
  stableCode : UInt16
  errno : Option Int32
  diagnostic : String
  deriving DecidableEq

def ErrorMessage.validate (m : ErrorMessage) : Except ProtocolError Unit := do
  validateToken "stage" m.stage 64
  refuse (!ErrorCode.known.contains m.stableCode) "stable_code" "unknown stable error code"
  m.errno.forM fun errno =>
    refuse (¬(1 ≤ errno.toInt ∧ errno.toInt ≤ 4095)) "errno" "must be a positive Linux errno"
  validateText "diagnostic" m.diagnostic MAX_DIAGNOSTIC_LENGTH true

/-- What `minicbor` derives for a type: `to_vec`, and `decode` with the position it stopped at. A
value is decoded from its own encoding, to the end. -/
structure Codec (α : Type) where
  toVec : α → Except String Bytes
  decode : Bytes → Except String (α × Nat)
  decode_toVec : ∀ {x : α} {bytes : Bytes}, toVec x = .ok bytes →
    decode bytes = .ok (x, bytes.length)

variable {α : Type}

theorem Codec.toVec_inj {codec : Codec α} {x y : α} {bytes : Bytes} (hx : codec.toVec x = .ok bytes)
    (hy : codec.toVec y = .ok bytes) : x = y := by
  have := (codec.decode_toVec hx).symm.trans (codec.decode_toVec hy)
  exact (Prod.mk.inj (Except.ok.inj this)).1

/-- A codec that knows the values of a table: a byte is the place of a value. -/
def Codec.table [DecidableEq α] (values : List α) (hlen : values.length ≤ 256) : Codec α where
  toVec x := if x ∈ values then .ok [UInt8.ofNat (values.idxOf x)] else .error "unsupported"
  decode bytes := (require (bytes.head?.bind fun b => values[b.toNat]?) "unsupported").map (·, 1)
  decode_toVec {x bytes} h := by
    by_cases hx : x ∈ values
    · rw [if_pos hx] at h
      cases h
      have hlt := List.idxOf_lt_length_of_mem hx
      have hplace : (UInt8.ofNat (values.idxOf x)).toNat = values.idxOf x := by
        rw [UInt8.toNat_ofNat']
        omega
      simp only [List.head?_cons, Option.bind_some, hplace, List.getElem?_idxOf hx]
      rfl
    · rw [if_neg hx] at h
      cases h

def encodePayload (codec : Codec α) (validate : α → Except ProtocolError Unit) (message : α) :
    Except ProtocolError Bytes := do
  validate message
  let payload ← (codec.toVec message).mapError .cborMalformed
  validateCount "payload" payload.length MAX_CONTROL_PAYLOAD
  return payload

def decodePayload (codec : Codec α) (validate : α → Except ProtocolError Unit) (payload : Bytes) :
    Except ProtocolError α := do
  validateCount "payload" payload.length MAX_CONTROL_PAYLOAD
  let (message, position) ← (codec.decode payload).mapError .cborMalformed
  stop (position ≠ payload.length) (.trailingData (payload.length - position))
  validate message
  let canonical ← (codec.toVec message).mapError .cborMalformed
  stop (canonical ≠ payload) .cborNonCanonical
  return message

/-- `message` is valid and `payload` is its encoding, of a size that fits a frame. -/
structure Canonical (codec : Codec α) (validate : α → Except ProtocolError Unit) (message : α)
    (payload : Bytes) : Prop where
  length : payload.length ≤ MAX_CONTROL_PAYLOAD
  valid : validate message = .ok ()
  encoded : codec.toVec message = .ok payload

variable {codec : Codec α} {validate : α → Except ProtocolError Unit} {message : α}
  {payload : Bytes}

@[simp] theorem refuse_ok {c : Prop} [Decidable c] {field reason : String} {u : Unit} :
    refuse c field reason = .ok u ↔ ¬c := stop_ok

@[simp] theorem validateCount_ok {field : String} {actual maximum : Nat} {u : Unit} :
    validateCount field actual maximum = .ok u ↔ actual ≤ maximum := by
  rw [validateCount, stop_ok, Nat.not_lt]

@[simp] theorem checkedAdd_ok {a b c : Nat} {e : ProtocolError} :
    checkedAdd a b e = .ok c ↔ a + b < 2 ^ 64 ∧ c = a + b := by
  unfold checkedAdd
  by_cases h : a + b < 2 ^ 64
  · rw [if_pos h, Except.ok.injEq, eq_comm, and_iff_right h]
  · rw [if_neg h]
    exact iff_of_false nofun fun hc => h hc.1

theorem decodePayload_eq_ok : decodePayload codec validate payload = .ok message ↔
    Canonical codec validate message payload := by
  unfold decodePayload
  simp only [bind_ok, mapError_ok, validateCount_ok, stop_ok, pure_ok, not_not]
  constructor
  · rintro ⟨_, hlen, ⟨m, position⟩, -, _, -, ⟨⟩, hval, canonical, henc, _, hcanon, rfl⟩
    exact ⟨hlen, hval, hcanon ▸ henc⟩
  · rintro ⟨hlen, hval, henc⟩
    exact ⟨(), hlen, (message, payload.length), codec.decode_toVec henc, (), rfl, (), hval, payload,
      henc, (), rfl, rfl⟩

theorem encodePayload_eq_ok : encodePayload codec validate message = .ok payload ↔
    Canonical codec validate message payload := by
  unfold encodePayload
  simp only [bind_ok, mapError_ok, validateCount_ok, pure_ok]
  constructor
  · rintro ⟨⟨⟩, hval, bytes, henc, _, hlen, rfl⟩
    exact ⟨hlen, hval, henc⟩
  · rintro ⟨hlen, hval, henc⟩
    exact ⟨(), hval, payload, henc, (), hlen, rfl⟩

end PocketVm.Protocol

/-! ### The metadata manifest

From `builder.rs` and `builder_state.rs`: its limits, its entries, and the chunks that carry them. -/

namespace PocketVm.Protocol

open Wire Checked

def MAX_MANIFEST_CHUNK_BYTES : Nat := 192 * 1024
def MAX_MANIFEST_ENTRY_BYTES : Nat := 128 * 1024
def MAX_MANIFEST_PATH_BYTES : Nat := 4096
def MAX_MANIFEST_XATTRS : Nat := 128
def MAX_MANIFEST_XATTR_BYTES : Nat := 64 * 1024
def MAX_MANIFEST_ENTRIES : Nat := 1000000
def MAX_MANIFEST_BYTES : Nat := 16 * 1024 * 1024 * 1024
def MAX_MANIFEST_DIRECTORY_ENTRIES : Nat := 131072
def MAX_MANIFEST_DIRECTORY_NAME_BYTES : Nat := 64 * 1024 * 1024
def MAX_MANIFEST_HARDLINK_GROUPS : Nat := 131072
def MAX_MANIFEST_HARDLINK_PATH_BYTES : Nat := 64 * 1024 * 1024
def MAX_MANIFEST_DEPTH : Nat := 256

structure ManifestLimits where
  maxPathBytes : UInt32
  maxXattrsPerEntry : UInt16
  maxXattrBytesPerEntry : UInt32
  maxEntryBytes : UInt32
  maxChunkBytes : UInt32
  maxEntries : UInt64
  maxTotalBytes : UInt64
  maxDirectoryEntries : UInt32
  maxDirectoryNameBytes : UInt64
  maxHardlinkGroups : UInt32
  maxHardlinkPathBytes : UInt64
  maxDepth : UInt16
  deriving DecidableEq

def validateRange (field : String) (value maximum : Nat) : Except ProtocolError Unit :=
  refuse (value = 0 ∨ value > maximum) field "outside supported range"

def ManifestLimits.validate (l : ManifestLimits) : Except ProtocolError Unit := do
  validateRange "manifest_limits.max_path_bytes" l.maxPathBytes.toNat MAX_MANIFEST_PATH_BYTES
  refuse (l.maxXattrsPerEntry.toNat > MAX_MANIFEST_XATTRS) "manifest_limits.max_xattrs_per_entry" "exceeds hard cap"
  refuse (l.maxXattrBytesPerEntry.toNat > MAX_MANIFEST_XATTR_BYTES) "manifest_limits.max_xattr_bytes_per_entry"
    "exceeds hard cap"
  validateRange "manifest_limits.max_entry_bytes" l.maxEntryBytes.toNat MAX_MANIFEST_ENTRY_BYTES
  refuse (¬(4 ≤ l.maxChunkBytes.toNat ∧ l.maxChunkBytes.toNat ≤ MAX_MANIFEST_CHUNK_BYTES))
    "manifest_limits.max_chunk_bytes" "outside supported range"
  -- `checked_add(4)` cannot overflow below the cap on entries
  refuse (l.maxEntryBytes.toNat + 4 > l.maxChunkBytes.toNat) "manifest_limits.max_entry_bytes"
    "one length-prefixed entry must fit in a chunk"
  validateRange "manifest_limits.max_entries" l.maxEntries.toNat MAX_MANIFEST_ENTRIES
  validateRange "manifest_limits.max_total_bytes" l.maxTotalBytes.toNat MAX_MANIFEST_BYTES
  validateRange "manifest_limits.max_directory_entries" l.maxDirectoryEntries.toNat MAX_MANIFEST_DIRECTORY_ENTRIES
  validateRange "manifest_limits.max_directory_name_bytes" l.maxDirectoryNameBytes.toNat
    MAX_MANIFEST_DIRECTORY_NAME_BYTES
  validateRange "manifest_limits.max_hardlink_groups" l.maxHardlinkGroups.toNat MAX_MANIFEST_HARDLINK_GROUPS
  validateRange "manifest_limits.max_hardlink_path_bytes" l.maxHardlinkPathBytes.toNat
    MAX_MANIFEST_HARDLINK_PATH_BYTES
  validateRange "manifest_limits.max_depth" l.maxDepth.toNat MAX_MANIFEST_DEPTH

structure ManifestXattr where
  name : Bytes
  value : Bytes
  deriving DecidableEq

structure ManifestEntry where
  path : Bytes
  kind : UInt8
  mode : UInt32
  uid : UInt32
  gid : UInt32
  size : UInt64
  rdev : UInt64
  mtimeSeconds : Int64
  mtimeNanoseconds : UInt32
  symlinkTarget : Option Bytes
  contentSha256 : Option Bytes
  hardlinkTarget : Option Bytes
  xattrs : List ManifestXattr
  deriving DecidableEq

def components (path : Bytes) : List Bytes := path.splitOn 47

def isIrregular (part : Bytes) : Bool := part.isEmpty || part == [46] || part == [46, 46]

def countXattrBytes (maximum : Nat) : Nat → List ManifestXattr → Except ProtocolError Nat
  | total, [] => .ok total
  | total, x :: xattrs => do
    let total ← checkedAdd total x.name.length (unbounded "manifest_entry.xattr_bytes" maximum)
    let total ← checkedAdd total x.value.length (unbounded "manifest_entry.xattr_bytes" maximum)
    countXattrBytes maximum total xattrs

def validateXattrs (previous : Option Bytes) (total : Nat) : List ManifestXattr →
    Except ProtocolError Nat
  | [] => .ok total
  | x :: xattrs => do
    refuse (x.name.isEmpty ∨ x.name.contains 0) "manifest_entry.xattrs" "invalid xattr name"
    refuse (notAfter previous x.name) "manifest_entry.xattrs" "xattrs are not strictly sorted"
    let total ← checkedAdd total x.name.length
      (unbounded "manifest_entry.xattr_bytes" MAX_MANIFEST_XATTR_BYTES)
    let total ← checkedAdd total x.value.length
      (unbounded "manifest_entry.xattr_bytes" MAX_MANIFEST_XATTR_BYTES)
    validateXattrs (some x.name) total xattrs

def ManifestEntry.validate (e : ManifestEntry) : Except ProtocolError Unit := do
  refuse (e.path.length > MAX_MANIFEST_PATH_BYTES ∨ e.path.contains 0) "manifest_entry.path"
    "invalid or oversized path"
  refuse (e.path.head? = some 47 ∨ e.path ≠ [] ∧ (components e.path).any isIrregular) "manifest_entry.path"
    "path is not normalized and relative"
  refuse (¬(1 ≤ e.kind ∧ e.kind ≤ 7)) "manifest_entry.kind" "unknown filesystem entry kind"
  refuse (e.mode > 0o7777) "manifest_entry.mode" "mode exceeds permission and set-ID bits"
  refuse (e.mtimeNanoseconds ≥ 1000000000) "manifest_entry.mtime_nanoseconds" "outside valid range"
  refuse (e.symlinkTarget.any fun value => value.contains 0 ||
    decide (value.length > MAX_MANIFEST_PATH_BYTES))
    "manifest_entry.symlink_target" "invalid or oversized target"
  refuse (e.contentSha256.any fun value => value.length ≠ 32) "manifest_entry.content_sha256"
    "digest must be 32 bytes"
  refuse (e.hardlinkTarget.any fun value =>
    value.isEmpty || decide (value.length > MAX_MANIFEST_PATH_BYTES) ||
      value.contains 0 || value.head? == some 47 || (components value).any isIrregular)
    "manifest_entry.hardlink_target" "invalid hardlink path"
  refuse (e.kind ≠ 1 ∧ (e.contentSha256.isSome ∨ e.hardlinkTarget.isSome)) "manifest_entry.content"
    "only regular files carry content or hardlink evidence"
  refuse (e.kind = 1 ∧ e.contentSha256.isSome = e.hardlinkTarget.isSome) "manifest_entry.content"
    "regular file needs exactly one content digest or hardlink target"
  refuse ((e.kind == 3) ≠ e.symlinkTarget.isSome) "manifest_entry.symlink_target"
    "symlink target presence does not match entry kind"
  refuse (¬(e.kind = 4 ∨ e.kind = 5) ∧ e.rdev ≠ 0) "manifest_entry.rdev"
    "only character and block devices carry rdev"
  validateCount "manifest_entry.xattrs" e.xattrs.length MAX_MANIFEST_XATTRS
  let total ← validateXattrs none 0 e.xattrs
  validateCount "manifest_entry.xattr_bytes" total MAX_MANIFEST_XATTR_BYTES

def entryLength (bytes : Bytes) : Nat := readBE (bytes.take 4)

/-- The entries of a chunk are counted by their lengths alone. A position inside a slice and a count
of its entries do not overflow. -/
def countLengthPrefixedEntries (bytes : Bytes) (maximumEntry : Nat) : Except ProtocolError Nat :=
  if _ : bytes = [] then .ok 0
  else do
    refuse (bytes.length < 4) "bytes" "truncated manifest-entry length"
    refuse (entryLength bytes = 0 ∨ entryLength bytes > maximumEntry) "bytes"
      "manifest entry length is zero or oversized"
    refuse (4 + entryLength bytes > bytes.length) "bytes" "manifest entry straddles chunks"
    let count ← countLengthPrefixedEntries (bytes.drop (4 + entryLength bytes)) maximumEntry
    return count + 1
termination_by bytes.length
decreasing_by
  have := List.length_pos_of_ne_nil ‹bytes ≠ []›
  rw [List.length_drop]
  omega

/-! ### What a workload is started with -/

def MAX_ARG_COUNT : Nat := 256
def MAX_ARG_LENGTH : Nat := 4096
def MAX_ENV_COUNT : Nat := 256
def MAX_ENV_LENGTH : Nat := 8192
def MAX_PATH_LENGTH : Nat := 4096
def MAX_SUPPLEMENTARY_GIDS : Nat := 64
def MAX_RLIMIT_COUNT : Nat := 32
def MAX_VOLUME_COUNT : Nat := 32
def MAX_STDIN_BYTES : Nat := 16 * 1024 * 1024
def MAX_EXTRA_CONSOLES : Nat := 8

def RESERVED_GUEST_PATHS : List String :=
  ["/dev", "/etc/hostname", "/etc/hosts", "/etc/resolv.conf", "/proc", "/run", "/sys"]

def isBeneath (parent path : String) : Bool := (utf8 parent ++ [47]).isPrefixOf (utf8 path)

/-- The reserved path that a destination is, lies below or contains. -/
def reservedGuestPathConflict (destination : String) : Option String :=
  RESERVED_GUEST_PATHS.find? fun reserved =>
    destination == reserved || isBeneath reserved destination || isBeneath destination reserved

def validateGuestPath (field value : String) (rootAllowed : Bool) : Except ProtocolError Unit := do
  validateText field value MAX_PATH_LENGTH false
  refuse ((utf8 value).head? ≠ some 47) field "must be absolute"
  if (utf8 value).tail = [] then refuse (!rootAllowed) field "filesystem root is not allowed here"
  else refuse ((components (utf8 value).tail).any isIrregular) field "must use normalized lexical form"

structure ResourceLimit where
  resource : UInt8
  soft : UInt64
  hard : UInt64
  deriving DecidableEq

structure VolumeSpec where
  source : String
  destination : String
  readOnly : Bool
  deriving DecidableEq

def countTexts (check : Nat → String → Except ProtocolError Unit) (field : String) :
    Nat → Nat → List String → Except ProtocolError Nat
  | _, total, [] => .ok total
  | index, total, text :: texts => do
    check index text
    let total ← checkedAdd total (utf8 text).length (unbounded field MAX_CONTROL_PAYLOAD)
    countTexts check field (index + 1) total texts

def validateEnvironment (entry : String) : Except ProtocolError Unit := do
  let key := (utf8 entry).takeWhile (· != 61)
  refuse (key.length = (utf8 entry).length) "env" "entry must contain '='"
  refuse (key = []) "env" "key must not be empty"
  refuse (key.any fun b => b == 61 || b == 0) "env" "invalid key"

def validateRlimits : List ResourceLimit → Except ProtocolError Unit :=
  go []
where
  go (resources : List UInt8) : List ResourceLimit → Except ProtocolError Unit
    | [] => .ok ()
    | limit :: limits => do
      refuse (limit.resource > 15) "rlimits" "resource number is unsupported"
      refuse (limit.soft > limit.hard) "rlimits" "soft limit exceeds hard limit"
      refuse (resources.contains limit.resource) "rlimits" "duplicate resource limit"
      go (limit.resource :: resources) limits

def validateVolumes : List VolumeSpec → Except ProtocolError Unit :=
  go []
where
  go (destinations : List String) : List VolumeSpec → Except ProtocolError Unit
    | [] => .ok ()
    | volume :: volumes => do
      validateGuestPath "volume.source" volume.source false
      validateGuestPath "volume.destination" volume.destination false
      refuse (reservedGuestPathConflict volume.destination).isSome "volume.destination"
        "collides with a path the runtime mounts or generates"
      refuse (destinations.contains volume.destination) "volumes" "duplicate destination"
      go (volume.destination :: destinations) volumes

def validateSignal (field : String) (signal : UInt16) : Except ProtocolError Unit :=
  refuse (¬(1 ≤ signal ∧ signal ≤ 64)) field "must be in 1..=64"

structure Start where
  profileId : String
  profileRevision : String
  generationId : String
  descriptorPlatform : Option Platform
  configPlatform : Platform
  effectivePlatform : Platform
  selectorPolicy : String
  rootLayout : String
  filesystemContract : String
  argv : List String
  env : List String
  cwd : String
  uid : UInt32
  gid : UInt32
  supplementaryGids : List UInt32
  umask : UInt16
  rlimits : List ResourceLimit
  hostname : String
  rootReadOnly : Bool
  volumes : List VolumeSpec
  terminal : Bool
  networkMode : UInt8
  stopSignal : UInt16
  derivationKey : String
  accountDbSha256 : String
  stdinBytes : UInt64
  privileged : Bool
  stdinStreaming : Bool
  terminalRows : UInt16
  terminalColumns : UInt16
  extraConsoles : UInt8
  deriving DecidableEq

def validatePlatformAgreement (s : Start) : Except ProtocolError Unit := do
  let config := s.configPlatform
  let effective := s.effectivePlatform
  refuse (config.os ≠ effective.os ∨ config.architecture ≠ effective.architecture) "platform"
    "OS or architecture fields disagree"
  s.descriptorPlatform.forM fun descriptor => do
    refuse (descriptor.os ≠ config.os ∨ descriptor.architecture ≠ config.architecture) "platform"
      "OS or architecture fields disagree"
    refuse (descriptor.variant.isSome ∧ config.variant.isSome ∧
      descriptor.variant ≠ config.variant) "platform" "explicit variants disagree"
  refuse ((s.descriptorPlatform.bind Platform.variant).or config.variant ≠
    effective.variant) "effective_platform" "variant does not match raw fields"

/-- The terminal's size, and input of no known length, go with a terminal. -/
def Start.validateTerminal (s : Start) : Except ProtocolError Unit := do
  refuse (s.terminal ∧ (s.terminalRows = 0 ∨ s.terminalColumns = 0)) "terminal_size" "rows and columns must be nonzero"
  refuse (¬s.terminal ∧ (s.terminalRows ≠ 0 ∨ s.terminalColumns ≠ 0)) "terminal_size"
    "a size is meaningful only for a terminal session"
  refuse (s.extraConsoles.toNat > MAX_EXTRA_CONSOLES) "extra_consoles"
    "exceeds the serial lines the guest kernel provides"
  refuse (s.stdinStreaming ∧ ¬s.terminal) "stdin_streaming" "streamed input is defined only for a terminal session"
  refuse (s.stdinStreaming ∧ s.stdinBytes ≠ 0) "stdin_streaming"
    "streamed input declares no length, so stdin_bytes must be zero"

def Start.validate (s : Start) : Except ProtocolError Unit := do
  validateToken "profile_id" s.profileId MAX_ID_LENGTH
  validateSha256 "profile_revision" s.profileRevision
  validateSha256 "generation_id" s.generationId
  validateSha256 "derivation_key" s.derivationKey
  validateSha256 "account_db_sha256" s.accountDbSha256
  s.descriptorPlatform.forM fun platform => platform.validate "descriptor_platform"
  s.configPlatform.validate "config_platform"
  s.effectivePlatform.validate "effective_platform"
  validatePlatformAgreement s
  validateToken "selector_policy" s.selectorPolicy MAX_ID_LENGTH
  validateToken "root_layout" s.rootLayout MAX_ID_LENGTH
  validateToken "filesystem_contract" s.filesystemContract MAX_ID_LENGTH
  validateCount "argv" s.argv.length MAX_ARG_COUNT
  refuse (s.argv = []) "argv" "final argv must not be empty"
  let argumentBytes ← countTexts (fun index argument =>
    validateText "argv" argument MAX_ARG_LENGTH (index != 0)) "argv_total" 0 0 s.argv
  validateCount "argv_total" argumentBytes (MAX_CONTROL_PAYLOAD / 2)
  validateCount "env" s.env.length MAX_ENV_COUNT
  let environmentBytes ← countTexts (fun _ entry => do
    validateText "env" entry MAX_ENV_LENGTH false
    validateEnvironment entry) "env_total" 0 0 s.env
  validateCount "env_total" environmentBytes (MAX_CONTROL_PAYLOAD / 2)
  validateGuestPath "cwd" s.cwd true
  validateCount "supplementary_gids" s.supplementaryGids.length MAX_SUPPLEMENTARY_GIDS
  refuse (s.umask > 0o777) "umask" "must fit Unix permission bits"
  validateCount "rlimits" s.rlimits.length MAX_RLIMIT_COUNT
  validateRlimits s.rlimits
  validateText "hostname" s.hostname 64 false
  refuse (!(utf8 s.hostname).all fun b => isAsciiAlphanumeric b || b == 46 || b == 45) "hostname"
    "contains unsupported character"
  validateCount "volumes" s.volumes.length MAX_VOLUME_COUNT
  validateVolumes s.volumes
  refuse (s.networkMode > 1) "network_mode" "must be none(0) or slirp(1)"
  refuse (s.stdinBytes.toNat > MAX_STDIN_BYTES) "stdin_bytes" "exceeds the synchronous input cap"
  s.validateTerminal
  validateSignal "stop_signal" s.stopSignal

end PocketVm.Protocol
