import PocketVm.Protocol.BuilderHistory

/-!
# Messages between the host and the validator guest

`validator.rs`: what the host asks an independent guest to check of a built image, and the evidence
that the guest answers with.
-/

namespace PocketVm.Protocol

open Wire Checked

def isUuidByte (index : Nat) (b : UInt8) : Bool :=
  if index = 8 ∨ index = 13 ∨ index = 18 ∨ index = 23 then b == 45 else isHexByte b

def validateUuid (field value : String) : Except ProtocolError Unit :=
  refuse ((utf8 value).length ≠ 36 ∨ ¬(utf8 value).zipIdx.all fun (b, index) =>
    isUuidByte index b) field
    "must be a lowercase canonical UUID"

def validateValidatorMemory (field : String) (bytes : UInt64) : Except ProtocolError Unit :=
  refuse (¬(64 * 1024 * 1024 ≤ bytes.toNat ∧ bytes.toNat ≤ 1024 * 1024 * 1024 * 1024) ∨
    bytes.toNat % 4096 ≠ 0) field
    "validator memory must be 64 MiB..=1 TiB and 4096-byte aligned"

structure ValidatorHello where
  guestContractId : String
  initBuildId : String
  kernelBuildId : String
  hostElfMachine : UInt16
  guestUtsMachine : String
  guestPageSize : UInt32
  cpuStateHwcapPolicy : String
  onlineCpus : UInt16
  acceptedPhysmemBytes : UInt64
  features : List String
  deriving DecidableEq

def ValidatorHello.validate (h : ValidatorHello) : Except ProtocolError Unit := do
  validateSha256 "guest_contract_id" h.guestContractId
  validateSha256 "init_build_id" h.initBuildId
  validateSha256 "kernel_build_id" h.kernelBuildId
  refuse (¬(h.hostElfMachine = 62 ∨ h.hostElfMachine = 183)) "host_elf_machine" "unsupported ELF machine"
  refuse (¬(h.guestUtsMachine = "x86_64" ∨ h.guestUtsMachine = "aarch64")) "guest_uts_machine"
    "unsupported guest machine"
  refuse (¬(4096 ≤ h.guestPageSize.toNat ∧ h.guestPageSize.toNat ≤ 65536) ∨
      ¬h.guestPageSize.toNat.isPowerOfTwo) "guest_page_size" "unsupported page size"
  validateToken "cpu_state_hwcap_policy" h.cpuStateHwcapPolicy MAX_ID_LENGTH
  refuse (h.onlineCpus ≠ 1) "online_cpus" "validator must have exactly one online CPU"
  validateValidatorMemory "accepted_physmem_bytes" h.acceptedPhysmemBytes
  refuse (h.acceptedPhysmemBytes.toNat % h.guestPageSize.toNat ≠ 0) "accepted_physmem_bytes"
    "must be aligned to the reported guest page size"
  validateCount "features" h.features.length 32
  validateUnique (fun feature => validateToken "features" feature 64) "features" "duplicate feature" [] h.features

structure ValidatorStart where
  profileId : String
  profileRevision : String
  challenge : String
  derivationKey : String
  rootLayout : String
  filesystemContract : String
  manifestSchema : String
  manifestLimits : ManifestLimits
  expectedManifestSha256 : String
  expectedManifestEntryCount : UInt64
  expectedManifestByteCount : UInt64
  expectedGenerationMarker : GenerationMarker
  expectedGenerationMarkerSha256 : String
  expectedAccountDb : AccountDb
  expectedFilesystemUuid : String
  expectedFilesystemBytes : UInt64
  expectedPhysmemBytes : UInt64
  deriving DecidableEq

def ValidatorStart.validate (sha256 : Bytes → Digest) (accounts : Codec AccountDatabase)
    (s : ValidatorStart) :
    Except ProtocolError Unit := do
  validateToken "profile_id" s.profileId MAX_ID_LENGTH
  validateSha256 "profile_revision" s.profileRevision
  validateSha256 "challenge" s.challenge
  validateSha256 "derivation_key" s.derivationKey
  validateSha256 "expected_manifest_sha256" s.expectedManifestSha256
  validateSha256 "expected_generation_marker_sha256" s.expectedGenerationMarkerSha256
  validateToken "root_layout" s.rootLayout MAX_ID_LENGTH
  validateToken "filesystem_contract" s.filesystemContract MAX_ID_LENGTH
  validateToken "manifest_schema" s.manifestSchema MAX_ID_LENGTH
  s.manifestLimits.validate
  refuse (s.expectedManifestEntryCount = 0 ∨
    s.expectedManifestEntryCount > s.manifestLimits.maxEntries)
    "expected_manifest_entry_count" "outside negotiated manifest limit"
  refuse (s.expectedManifestByteCount = 0 ∨
    s.expectedManifestByteCount > s.manifestLimits.maxTotalBytes)
    "expected_manifest_byte_count" "outside negotiated manifest limit"
  s.expectedGenerationMarker.validate
  refuse (s.expectedGenerationMarker.profileId ≠ s.profileId ∨
      s.expectedGenerationMarker.profileRevision ≠ s.profileRevision ∨
      s.expectedGenerationMarker.derivationKey ≠ s.derivationKey ∨
      s.expectedGenerationMarker.rootLayout ≠ s.rootLayout ∨
      s.expectedGenerationMarker.filesystemContract ≠ s.filesystemContract)
    "expected_generation_marker" "does not agree with validation request"
  s.expectedAccountDb.validate sha256 accounts
  refuse (s.expectedGenerationMarker.accountDbSha256 ≠
    s.expectedAccountDb.sha256) "expected_account_db" "digest differs from generation marker"
  validateUuid "expected_filesystem_uuid" s.expectedFilesystemUuid
  refuse (s.expectedFilesystemBytes.toNat < 64 * 1024 * 1024 ∨
    s.expectedFilesystemBytes.toNat % 4096 ≠ 0)
    "expected_filesystem_bytes" "must be at least 64 MiB and 4096-byte aligned"
  validateValidatorMemory "expected_physmem_bytes" s.expectedPhysmemBytes

structure ValidatorEvidence where
  manifestSha256 : String
  manifestEntryCount : UInt64
  manifestByteCount : UInt64
  generationMarkerSha256 : String
  accountDbSha256 : String
  filesystemUuid : String
  filesystemBytes : UInt64
  cleanBeforeMount : Bool
  blockDeviceReadOnly : Bool
  mountedReadOnly : Bool
  unmounted : Bool
  cleanAfterUnmount : Bool
  deriving DecidableEq

def ValidatorEvidence.validate (e : ValidatorEvidence) : Except ProtocolError Unit := do
  validateSha256 "manifest_sha256" e.manifestSha256
  validateSha256 "generation_marker_sha256" e.generationMarkerSha256
  validateSha256 "account_db_sha256" e.accountDbSha256
  validateUuid "filesystem_uuid" e.filesystemUuid
  refuse (e.manifestEntryCount = 0 ∨ e.manifestByteCount = 0 ∨
    e.filesystemBytes = 0) "validator_evidence" "numeric evidence must be nonzero"
  refuse (¬(e.cleanBeforeMount ∧ e.blockDeviceReadOnly ∧ e.mountedReadOnly ∧ e.unmounted ∧
    e.cleanAfterUnmount))
    "validator_evidence" "successful validation requires clean read-only mount and unmount evidence"

structure ValidatorDone where
  status : UInt8
  challenge : String
  evidence : ValidatorEvidence
  evidenceSha256 : String
  deriving DecidableEq

def ValidatorDone.validate (d : ValidatorDone) : Except ProtocolError Unit := do
  refuse (d.status ≠ 0) "status" "VALIDATE_DONE status must be zero"
  validateSha256 "challenge" d.challenge
  d.evidence.validate
  validateSha256 "evidence_sha256" d.evidenceSha256

inductive ValidatorMessage where
  | hello (message : ValidatorHello)
  | start (message : ValidatorStart)
  | done (message : ValidatorDone)
  | error (message : ErrorMessage)
  deriving DecidableEq

namespace ValidatorMessage

def kind : ValidatorMessage → MessageKind
  | hello _ => .validateHello
  | start _ => .validateStart
  | done _ => .validateDone
  | error _ => .validateError

def validate (sha256 : Bytes → Digest) (accounts : Codec AccountDatabase) : ValidatorMessage →
    Except ProtocolError Unit
  | hello message => message.validate
  | start message => message.validate sha256 accounts
  | done message => message.validate
  | error message => message.validate

end ValidatorMessage

def EVIDENCE_DOMAIN : Bytes := utf8 "pocket-validator-evidence\x00v1\x00"

def hashField (value : String) : Bytes := beBytes 8 (utf8 value).length ++ utf8 value

def evidenceTexts (start : ValidatorStart) (evidence : ValidatorEvidence) : List String :=
  [start.profileId, start.profileRevision, start.challenge, start.derivationKey, start.rootLayout,
    start.filesystemContract, start.manifestSchema, start.expectedManifestSha256,
      start.expectedGenerationMarkerSha256,
    start.expectedAccountDb.sha256, start.expectedFilesystemUuid, evidence.manifestSha256,
    evidence.generationMarkerSha256, evidence.accountDbSha256, evidence.filesystemUuid]

def evidenceNumbers (start : ValidatorStart) (evidence : ValidatorEvidence) : List UInt64 :=
  [start.expectedManifestEntryCount, start.expectedManifestByteCount, start.expectedFilesystemBytes,
    start.expectedPhysmemBytes, evidence.manifestEntryCount, evidence.manifestByteCount,
      evidence.filesystemBytes]

def evidenceFlags (evidence : ValidatorEvidence) : List Bool :=
  [evidence.cleanBeforeMount, evidence.blockDeviceReadOnly, evidence.mountedReadOnly,
    evidence.unmounted, evidence.cleanAfterUnmount]

def evidencePreimage (start : ValidatorStart) (evidence : ValidatorEvidence) : Bytes :=
  EVIDENCE_DOMAIN ++ (evidenceTexts start evidence).flatMap hashField ++
    (evidenceNumbers start evidence).flatMap (fun n => beBytes 8 n.toNat) ++
    (evidenceFlags evidence).map fun flag => if flag then 1 else 0

def validatorEvidenceSha256 (sha256 : Bytes → Digest) (start : ValidatorStart)
    (evidence : ValidatorEvidence) : String :=
  hexDigest sha256 (evidencePreimage start evidence)

/-! ### The validator session

`validator_state.rs`: the order of a validation's messages, and that DONE answers the START that was
accepted. -/

inductive ValidatorState where
  | awaitHello | awaitStart | awaitDone | completed | failed
  deriving DecidableEq

def ValidatorState.asStr : ValidatorState → String
  | awaitHello => "await-validate-hello"
  | awaitStart => "await-validate-start"
  | awaitDone => "await-validate-done"
  | completed => "completed"
  | failed => "failed"

structure ValidatorSession where
  state : ValidatorState
  nextHostSequence : UInt64
  nextGuestSequence : UInt64
  acceptedPhysmemBytes : Option UInt64
  start : Option ValidatorStart
  deriving DecidableEq

namespace ValidatorSession

def new : ValidatorSession := ⟨.awaitHello, 0, 0, none, none⟩

def nextSequence (s : ValidatorSession) : Direction → UInt64
  | .hostToGuest => s.nextHostSequence
  | .guestToHost => s.nextGuestSequence

def setSequence (s : ValidatorSession) (direction : Direction) (sequence : UInt64) :
    ValidatorSession :=
  match direction with
  | .hostToGuest => { s with nextHostSequence := sequence }
  | .guestToHost => { s with nextGuestSequence := sequence }

def differs (c : Prop) [Decidable c] (field : String) : Except ProtocolError Unit :=
  refuse c field "validator transcript differs from its prior evidence"

variable (sha256 : Bytes → Digest) (accounts : Codec AccountDatabase)

/-- What VALIDATE_DONE repeats of VALIDATE_START. -/
structure Answers (start : ValidatorStart) (done : ValidatorDone) : Prop where
  challenge : done.challenge = start.challenge
  manifestSha256 : done.evidence.manifestSha256 = start.expectedManifestSha256
  manifestEntryCount : done.evidence.manifestEntryCount = start.expectedManifestEntryCount
  manifestByteCount : done.evidence.manifestByteCount = start.expectedManifestByteCount
  generationMarkerSha256 :
    done.evidence.generationMarkerSha256 = start.expectedGenerationMarkerSha256
  accountDbSha256 : done.evidence.accountDbSha256 = start.expectedAccountDb.sha256
  filesystemUuid : done.evidence.filesystemUuid = start.expectedFilesystemUuid
  filesystemBytes : done.evidence.filesystemBytes = start.expectedFilesystemBytes

def acceptInner (s : ValidatorSession) (direction : Direction) (message : ValidatorMessage) :
    Except ProtocolError ValidatorSession :=
  match s.state, direction, message with
  | .awaitHello, .guestToHost, .hello hello =>
    .ok { s with acceptedPhysmemBytes := some hello.acceptedPhysmemBytes, state := .awaitStart }
  | .awaitStart, .hostToGuest, .start start => do
    differs (¬s.acceptedPhysmemBytes.any fun accepted => start.expectedPhysmemBytes ≤
      accepted) "expected_physmem_bytes"
    return { s with start := some start, state := .awaitDone }
  | .awaitDone, .guestToHost, .done done => do
    let start ← require s.start
      (.invalidStateTransition s.state.asStr "guest-to-host" MessageKind.validateDone.toU16)
    differs (done.challenge ≠ start.challenge ∨
        done.evidence.manifestSha256 ≠ start.expectedManifestSha256 ∨
        done.evidence.manifestEntryCount ≠ start.expectedManifestEntryCount ∨
        done.evidence.manifestByteCount ≠ start.expectedManifestByteCount ∨
        done.evidence.generationMarkerSha256 ≠ start.expectedGenerationMarkerSha256 ∨
        done.evidence.accountDbSha256 ≠ start.expectedAccountDb.sha256 ∨
        done.evidence.filesystemUuid ≠ start.expectedFilesystemUuid ∨
        done.evidence.filesystemBytes ≠ start.expectedFilesystemBytes ∨
        done.evidenceSha256 ≠ validatorEvidenceSha256 sha256 start done.evidence) "validation_evidence"
    return { s with state := .completed }
  | .awaitStart, .guestToHost, .error _ | .awaitDone, .guestToHost, .error _ =>
    .ok { s with state := .failed }
  | state, direction, message =>
    .error (.invalidStateTransition state.asStr direction.asStr message.kind.toU16)

def accept (s : ValidatorSession) (direction : Direction) (message : ValidatorMessage)
    (frameSequence : UInt64) :
    Except ProtocolError ValidatorSession := do
  stop (frameSequence ≠ s.nextSequence direction)
    (.sequenceMismatch (s.nextSequence direction) frameSequence)
  message.validate sha256 accounts
  let next ← s.acceptInner sha256 direction message
  let incremented ← Protocol.nextSequence frameSequence
  return next.setSequence direction incremented

structure Offer where
  direction : Direction
  message : ValidatorMessage
  sequence : UInt64
  deriving DecidableEq

def offer (r : ValidatorSession × List ValidatorMessage) (o : Offer) :
    ValidatorSession × List ValidatorMessage :=
  match r.1.accept sha256 accounts o.direction o.message o.sequence with
  | .ok s => (s, r.2 ++ [o.message])
  | .error _ => r

def history (offers : List Offer) : ValidatorSession × List ValidatorMessage :=
  offers.foldl (offer sha256 accounts) (new, [])

def Phase (s : ValidatorSession) (said : List ValidatorMessage) : Prop :=
  match s.state with
  | .awaitHello => said = []
  | .awaitStart => ∃ hello, said = [.hello hello]
  | .awaitDone => ∃ hello start, said = [.hello hello, .start start] ∧ s.start = some start ∧
    start.validate sha256 accounts = .ok ()
  | .completed => ∃ hello start done, said = [.hello hello, .start start, .done done] ∧
    start.validate sha256 accounts = .ok () ∧ done.validate = .ok () ∧ Answers start done ∧
    done.evidenceSha256 = validatorEvidenceSha256 sha256 start done.evidence
  | .failed => True

variable {sha256 accounts} {s s' : ValidatorSession} {said : List ValidatorMessage}

theorem accept_phase {direction : Direction} {message : ValidatorMessage} {sequence : UInt64}
    (hphase : Phase sha256 accounts s said)
    (h : s.accept sha256 accounts direction message sequence = .ok s') :
    Phase sha256 accounts s' (said ++ [message]) := by
  unfold accept at h
  simp only [bind_ok, stop_ok, pure_ok] at h
  obtain ⟨_, -, _, hvalid, next, hinner, incremented, -, rfl⟩ := h
  unfold acceptInner at hinner
  split at hinner
  · next hello hstate =>
    rw [Phase, hstate] at hphase
    cases hinner
    exact ⟨hello, by rw [hphase]; rfl⟩
  · next start hstate =>
    rw [Phase, hstate] at hphase
    obtain ⟨hello, rfl⟩ := hphase
    simp only [bind_ok, pure_ok] at hinner
    obtain ⟨_, -, rfl⟩ := hinner
    exact ⟨hello, start, rfl, rfl, hvalid⟩
  · next done hstate =>
    rw [Phase, hstate] at hphase
    obtain ⟨hello, start, rfl, hstart, hstartValid⟩ := hphase
    simp only [bind_ok, require_ok, differs, refuse_ok, pure_ok, hstart, Option.some.injEq,
      exists_eq_left', not_or, not_not] at hinner
    obtain ⟨_, ⟨h1, h2, h3, h4, h5, h6, h7, h8, h9⟩, rfl⟩ := hinner
    exact ⟨hello, start, done, rfl, hstartValid, hvalid, ⟨h1, h2, h3, h4, h5, h6, h7, h8⟩, h9⟩
  · cases hinner
    trivial
  · cases hinner
    trivial
  · cases hinner

theorem history_phase (offers : List Offer) :
    Phase sha256 accounts (history sha256 accounts offers).1
      (history sha256 accounts offers).2 := by
  have hrun : ∀ (offers : List Offer) (r : ValidatorSession × List ValidatorMessage),
    Phase sha256 accounts r.1 r.2 →
      Phase sha256 accounts (offers.foldl (offer sha256 accounts) r).1
        (offers.foldl (offer sha256 accounts) r).2 := by
    intro offers
    induction offers with
    | nil => exact fun r h => h
    | cons o offers ih =>
      intro r h
      refine ih _ ?_
      unfold offer
      split
      · next hok => exact accept_phase h hok
      · exact h
  exact hrun offers (new, []) rfl

end ValidatorSession

variable {field value : String} {u : Unit}

theorem length_of_validateText {maximum : Nat} {empty : Bool}
    (h : validateText field value maximum empty = .ok u) : (utf8 value).length ≤ maximum := by
  unfold validateText at h
  simp only [bind_ok, validateCount_ok] at h
  obtain ⟨_, hlen, -⟩ := h
  exact hlen

theorem length_of_validateToken {maximum : Nat}
    (h : validateToken field value maximum = .ok u) : (utf8 value).length ≤ maximum := by
  unfold validateToken at h
  simp only [bind_ok] at h
  obtain ⟨_, htext, -⟩ := h
  exact length_of_validateText htext

theorem length_of_validateSha256 (h : validateSha256 field value = .ok u) :
    (utf8 value).length = 64 := by
  unfold validateSha256 at h
  rw [refuse_ok, not_or, not_not] at h
  exact h.1

theorem length_of_validateUuid (h : validateUuid field value = .ok u) :
    (utf8 value).length = 36 := by
  unfold validateUuid at h
  rw [refuse_ok, not_or, not_not] at h
  exact h.1

theorem selfDelim_hashField : SelfDelim (fun text => (utf8 text).length < 256 ^ 8) hashField := by
  intro a b u v ha hb h
  simp only [hashField, List.append_assoc] at h
  obtain ⟨hlen, h⟩ := SelfDelim.beBytes 8 _ _ _ _ ha hb h
  obtain ⟨htext, huv⟩ := List.append_inj h hlen
  exact ⟨utf8_inj htext, huv⟩

theorem selfDelim_u64 : SelfDelim (fun _ => True) fun n : UInt64 => beBytes 8 n.toNat :=
  (SelfDelim.beBytes 8).comap UInt64.toNat (fun n _ => by simpa using n.toNat_lt) fun _ _ _ _ =>
    UInt64.toNat_inj.mp

theorem evidenceTexts_short {sha256 : Bytes → Digest} {accounts : Codec AccountDatabase}
    {start : ValidatorStart}
    {evidence : ValidatorEvidence} (hstart : start.validate sha256 accounts = .ok ())
    (hevidence : evidence.validate = .ok ()) :
    ∀ text ∈ evidenceTexts start evidence, (utf8 text).length < 256 ^ 8 := by
  unfold ValidatorStart.validate AccountDb.validate at hstart
  unfold ValidatorEvidence.validate at hevidence
  simp only [bind_ok] at hstart hevidence
  obtain ⟨_, h1, _, h2, _, h3, _, h4, _, h8, _, h9, _, h5, _, h6, _, h7, _, -, _, -, _, -,
    _, -, _, -, _, ⟨_, -, _, -, _, -, _, h10, -⟩, _, -, _, h11, -⟩ := hstart
  obtain ⟨_, h12, _, h13, _, h14, _, h15, -⟩ := hevidence
  have htoken : ∀ {field text}, validateToken field text MAX_ID_LENGTH = .ok () →
    (utf8 text).length < 256 ^ 8 :=
    fun h => (length_of_validateToken h).trans_lt (by decide)
  have hsha : ∀ {field text}, validateSha256 field text = .ok () → (utf8 text).length < 256 ^ 8 :=
    fun h => by rw [length_of_validateSha256 h]; decide
  have huuid : ∀ {field text}, validateUuid field text = .ok () → (utf8 text).length < 256 ^ 8 :=
    fun h => by rw [length_of_validateUuid h]; decide
  intro text htext
  simp only [evidenceTexts, List.mem_cons, List.not_mem_nil, or_false] at htext
  rcases htext with rfl | rfl | rfl | rfl | rfl | rfl | rfl | rfl | rfl | rfl | rfl | rfl |
    rfl | rfl | rfl
  exacts [htoken h1, hsha h2, hsha h3, hsha h4, htoken h5, htoken h6, htoken h7, hsha h8, hsha h9,
    hsha h10, huuid h11, hsha h12, hsha h13, hsha h14, huuid h15]

/-- Two STARTs ask for the same: they differ at most in the limits and the marker that the digests
stand for. -/
structure SameExpectations (start start' : ValidatorStart) : Prop where
  profileId : start.profileId = start'.profileId
  profileRevision : start.profileRevision = start'.profileRevision
  challenge : start.challenge = start'.challenge
  derivationKey : start.derivationKey = start'.derivationKey
  rootLayout : start.rootLayout = start'.rootLayout
  filesystemContract : start.filesystemContract = start'.filesystemContract
  manifestSchema : start.manifestSchema = start'.manifestSchema
  manifestSha256 : start.expectedManifestSha256 = start'.expectedManifestSha256
  manifestEntryCount : start.expectedManifestEntryCount = start'.expectedManifestEntryCount
  manifestByteCount : start.expectedManifestByteCount = start'.expectedManifestByteCount
  generationMarkerSha256 :
    start.expectedGenerationMarkerSha256 = start'.expectedGenerationMarkerSha256
  accountDbSha256 : start.expectedAccountDb.sha256 = start'.expectedAccountDb.sha256
  filesystemUuid : start.expectedFilesystemUuid = start'.expectedFilesystemUuid
  filesystemBytes : start.expectedFilesystemBytes = start'.expectedFilesystemBytes
  physmemBytes : start.expectedPhysmemBytes = start'.expectedPhysmemBytes

theorem evidencePreimage_inj {sha256 : Bytes → Digest} {accounts : Codec AccountDatabase}
    {start start' : ValidatorStart}
    {evidence evidence' : ValidatorEvidence} (hstart : start.validate sha256 accounts = .ok ())
    (hstart' : start'.validate sha256 accounts = .ok ()) (hevidence : evidence.validate = .ok ())
    (hevidence' : evidence'.validate = .ok ())
    (h : evidencePreimage start evidence = evidencePreimage start' evidence') :
    SameExpectations start start' ∧ evidence = evidence' := by
  unfold evidencePreimage at h
  simp only [List.append_assoc, List.append_cancel_left_eq] at h
  obtain ⟨htexts, h⟩ := selfDelim_hashField.flatMap _ _ _ _ (evidenceTexts_short hstart hevidence)
    (evidenceTexts_short hstart' hevidence') rfl h
  obtain ⟨hnumbers, h⟩ := selfDelim_u64.flatMap (evidenceNumbers start evidence)
    (evidenceNumbers start' evidence') _ _
    (fun _ _ => trivial) (fun _ _ => trivial) rfl h
  have hflags : evidenceFlags evidence = evidenceFlags evidence' := by
    refine List.map_injective_iff.mpr ?_ h
    intro a b hab
    cases a <;> cases b <;> simp_all
  simp only [evidenceTexts, evidenceNumbers, evidenceFlags, List.cons.injEq,
    and_true] at htexts hnumbers hflags
  obtain ⟨t1, t2, t3, t4, t5, t6, t7, t8, t9, t10, t11, t12, t13, t14, t15⟩ := htexts
  obtain ⟨n1, n2, n3, n4, n5, n6, n7⟩ := hnumbers
  obtain ⟨f1, f2, f3, f4, f5⟩ := hflags
  refine ⟨⟨t1, t2, t3, t4, t5, t6, t7, t8, n1, n2, t9, t10, t11, n3, n4⟩, ?_⟩
  cases evidence
  cases evidence'
  simp only [ValidatorEvidence.mk.injEq]
  exact ⟨t12, n5, n6, t13, t14, t15, n7, f1, f2, f3, f4, f5⟩

namespace ValidatorSession

/-- A session that completes has accepted one HELLO, one START and one DONE, and its DONE repeats
every value that START expects. The digest in DONE is that of bytes from which the hashed fields of
START and the whole evidence can be read back, so that, short of a collision of SHA-256, two
sessions that complete with one digest were given the same evidence for the same expectations. -/
theorem completed_sessions_bind_expectations (sha256 : Bytes → Digest)
    (accounts : Codec AccountDatabase) :
    (∀ offers, (history sha256 accounts offers).1.state = .completed →
      ∃ hello start done, (history sha256 accounts offers).2 = [.hello hello,
        .start start, .done done] ∧
        Answers start done) ∧ (∀ start start' evidence evidence',
          start.validate sha256 accounts = .ok () →
      start'.validate sha256 accounts = .ok () → evidence.validate = .ok () →
        evidence'.validate = .ok () →
      evidencePreimage start evidence = evidencePreimage start' evidence' →
      SameExpectations start start' ∧ evidence = evidence') ∧
        ∀ offers offers' hello hello' start start' done done',
      (history sha256 accounts offers).1.state = .completed →
        (history sha256 accounts offers').1.state = .completed →
      (history sha256 accounts offers).2 = [.hello hello, .start start, .done done] →
      (history sha256 accounts offers').2 = [.hello hello', .start start', .done done'] →
      done.evidenceSha256 = done'.evidenceSha256 →
      (sha256 (evidencePreimage start done.evidence) = sha256
        (evidencePreimage start' done'.evidence) →
          evidencePreimage start done.evidence = evidencePreimage start' done'.evidence) →
      SameExpectations start start' ∧ done.evidence = done'.evidence := by
  have hcompleted : ∀ offers, (history sha256 accounts offers).1.state = .completed →
      ∃ hello start done, (history sha256 accounts offers).2 = [.hello hello,
        .start start, .done done] ∧
        start.validate sha256 accounts = .ok () ∧ done.validate = .ok () ∧ Answers start done ∧
        done.evidenceSha256 = validatorEvidenceSha256 sha256 start done.evidence := by
    intro offers hstate
    have hphase : Phase sha256 accounts (history sha256 accounts offers).1 _ := history_phase offers
    rw [Phase, hstate] at hphase
    exact hphase
  have hevidence : ∀ {done : ValidatorDone}, done.validate = .ok () →
    done.evidence.validate = .ok () := by
    intro done h
    unfold ValidatorDone.validate at h
    simp only [bind_ok] at h
    obtain ⟨_, -, _, -, _, h, -⟩ := h
    exact h
  refine ⟨fun offers hstate => ?_, fun start start' evidence evidence' => evidencePreimage_inj, ?_⟩
  · obtain ⟨hello, start, done, hsaid, -, -, hanswers, -⟩ := hcompleted offers hstate
    exact ⟨hello, start, done, hsaid, hanswers⟩
  · intro offers offers' hello hello' start start' done done' hstate hstate' hsaid hsaid' hsame hcollision
    obtain ⟨_, _, _, heq, hstart, hdone, -, hdigest⟩ := hcompleted offers hstate
    obtain ⟨_, _, _, heq', hstart', hdone', -, hdigest'⟩ := hcompleted offers' hstate'
    rw [hsaid] at heq
    rw [hsaid'] at heq'
    cases heq
    cases heq'
    rw [hdigest, hdigest'] at hsame
    exact evidencePreimage_inj hstart hstart' (hevidence hdone) (hevidence hdone')
      (hcollision (Digest.hexEncode_inj hsame))

end ValidatorSession

namespace Sample

def validatorHello : ValidatorHello where
  guestContractId := digest 'b'
  initBuildId := digest 'c'
  kernelBuildId := digest 'd'
  hostElfMachine := 62
  guestUtsMachine := "x86_64"
  guestPageSize := 4096
  cpuStateHwcapPolicy := "native-x86_64-v1"
  onlineCpus := 1
  acceptedPhysmemBytes := 128 * 1024 * 1024
  features := []

def generationMarker : GenerationMarker := .fromStart (start 1) (hexDigest sha256 databaseBytes)

def validatorStart : ValidatorStart where
  profileId := "x86_64-smp-p4k"
  profileRevision := digest 'e'
  challenge := digest '5'
  derivationKey := digest 'f'
  rootLayout := "pocket-root-v1"
  filesystemContract := "ext4-v1-b4096"
  manifestSchema := "pocket-fs-manifest-v1"
  manifestLimits := limits 1
  expectedManifestSha256 := digest '6'
  expectedManifestEntryCount := 1
  expectedManifestByteCount := 32
  expectedGenerationMarker := generationMarker
  expectedGenerationMarkerSha256 := digest '7'
  expectedAccountDb := ⟨ACCOUNT_DB_SCHEMA, 25, hexDigest sha256 databaseBytes, databaseBytes⟩
  expectedFilesystemUuid := "00000000-0000-0000-0000-000000000001"
  expectedFilesystemBytes := 64 * 1024 * 1024
  expectedPhysmemBytes := 64 * 1024 * 1024

def evidence : ValidatorEvidence where
  manifestSha256 := digest '6'
  manifestEntryCount := 1
  manifestByteCount := 32
  generationMarkerSha256 := digest '7'
  accountDbSha256 := hexDigest sha256 databaseBytes
  filesystemUuid := "00000000-0000-0000-0000-000000000001"
  filesystemBytes := 64 * 1024 * 1024
  cleanBeforeMount := true
  blockDeviceReadOnly := true
  mountedReadOnly := true
  unmounted := true
  cleanAfterUnmount := true

def validatorDone : ValidatorDone :=
  ⟨0, digest '5', evidence, validatorEvidenceSha256 sha256 validatorStart evidence⟩

def validation : List ValidatorSession.Offer :=
  [⟨.guestToHost, .hello validatorHello, 0⟩, ⟨.hostToGuest, .start validatorStart, 0⟩,
    ⟨.guestToHost, .done validatorDone, 1⟩]

/-- The same validation, after a DONE that came too early and was refused. -/
def validationRetried : List ValidatorSession.Offer := ⟨.guestToHost, .done validatorDone,
    0⟩ :: validation

theorem validation_completes : ValidatorSession.history sha256 accounts validation =
    (⟨.completed, 1, 2, some (128 * 1024 * 1024), some validatorStart⟩,
      [.hello validatorHello, .start validatorStart, .done validatorDone]) ∧
    ValidatorSession.history sha256 accounts validationRetried =
      ValidatorSession.history sha256 accounts validation := by
  decide +kernel

end Sample

theorem ValidatorSession.completed_sessions_bind_expectations_retried :
    (∃ hello start done, (history Sample.sha256 Sample.accounts Sample.validation).2 =
      [.hello hello, .start start, .done done] ∧ Answers start done) ∧
    SameExpectations Sample.validatorStart Sample.validatorStart ∧
    Sample.validatorDone.evidence = Sample.validatorDone.evidence := by
  obtain ⟨hrun, hretried⟩ := Sample.validation_completes
  obtain ⟨hanswers, -, hsame⟩ := completed_sessions_bind_expectations Sample.sha256 Sample.accounts
  have hstate : (history Sample.sha256 Sample.accounts Sample.validation).1.state =
    .completed := by rw [hrun]
  have hsaid : (history Sample.sha256 Sample.accounts Sample.validation).2 =
      [.hello Sample.validatorHello, .start Sample.validatorStart,
        .done Sample.validatorDone] := by rw [hrun]
  exact ⟨hanswers Sample.validation hstate,
    hsame Sample.validation Sample.validationRetried _ _ _ _ _ _ hstate
    (by rw [hretried, hstate]) hsaid (by rw [hretried, hsaid]) rfl fun _ => rfl⟩

end PocketVm.Protocol
