import PocketVm.Protocol.BuilderState
import PocketVm.Protocol.FrameStream
import PocketVm.Runtime.Filesystem

/-!
# The host's side of a build

`run_builder_protocol` of `builder.rs`: the host talks with the builder guest over one stream,
checks the manifest's structure as it comes in and writes it, and the account database, to two
sidecar files. The files are reset before every attempt. Deadlines are failed calls of the stream.
-/

namespace PocketVm.Runtime

open Wire Checked Protocol Transport Mutating

/-- Why a stored manifest is not one; the source has these as texts. -/
inductive ManifestFileError where
  | endsInsideLength (offset : Nat)
  | claims (offset length : Nat)
  | notCanonical (offset : Nat) (error : ProtocolError)
  deriving DecidableEq

/-- `decode_manifest` from `offset` on, of which `bytes` are left. -/
def decodeManifestFrom (entries : Codec ManifestEntry) (offset : Nat) (bytes : Bytes) :
    Except ManifestFileError (List ManifestEntry) :=
  if _ : bytes = [] then .ok []
  else do
    stop (bytes.length < 4) (.endsInsideLength offset)
    let length := entryLength bytes
    stop (length = 0 ∨ length > bytes.length - 4) (.claims (offset + 4) length)
    let entry ← (decodePayload entries ManifestEntry.validate ((bytes.drop 4).take length)).mapError
      (.notCanonical (offset + 4))
    let rest ← decodeManifestFrom entries (offset + 4 + length) (bytes.drop (4 + length))
    return entry :: rest
termination_by bytes.length
decreasing_by
  have := List.length_pos_of_ne_nil ‹bytes ≠ []›
  rw [List.length_drop]
  omega

def decodeManifest (entries : Codec ManifestEntry) (bytes : Bytes) :
    Except ManifestFileError (List ManifestEntry) :=
  decodeManifestFrom entries 0 bytes

variable {entries : Codec ManifestEntry} {bytes : Bytes} {es : List ManifestEntry}

theorem decodeManifestFrom_framed
    (h : Framed entries bytes es) (offset : Nat) :
    decodeManifestFrom entries offset bytes = .ok es := by
  induction h generalizing offset with
  | nil => rw [decodeManifestFrom, dif_pos rfl]
  | @cons e payload rest es hcanon hne _ ih =>
    have hlen : (beBytes 4 payload.length ++ payload ++ rest).length =
      4 + payload.length + rest.length := by
      simp [Nat.add_assoc]
    have hpos := List.length_pos_of_ne_nil hne
    rw [decodeManifestFrom, dif_neg frame_ne_nil]
    simp only [bind_ok, stop_ok, mapError_ok, pure_ok, entryLength_frame hcanon.length,
      payload_frame, rest_frame]
    exact ⟨(), by omega, (), by omega, e, decodePayload_eq_ok.mpr hcanon, es, ih _, rfl⟩

theorem decodeManifest_framed (h : Framed entries bytes es) :
    decodeManifest entries bytes = .ok es :=
  decodeManifestFrom_framed h 0

def componentOrder : List Bytes → List Bytes → Ordering := List.compareLex (List.compareLex compare)

/-- Components one after another, each by its bytes; a parent before what is below it. -/
def manifestPathOrder (left right : Bytes) :
    Ordering := componentOrder (components left) (components right)

theorem components_inj {left right : Bytes} (h : components left = components right) :
    left = right :=
  calc left = [47].intercalate (components left) := (List.intercalate_splitOn 47).symm
    _ = [47].intercalate (components right) := by rw [h]
    _ = right := List.intercalate_splitOn 47

/-- A comparison that orders all values, each apart from every other. -/
structure TotalOrder {α : Type} (order : α → α → Ordering) : Prop where
  eq_iff : ∀ a b, order a b = .eq ↔ a = b
  swap : ∀ a b, order b a = (order a b).swap
  trans : ∀ a b c, order a b = .lt → order b c = .lt → order a c = .lt

instance : Std.TransCmp componentOrder :=
  inferInstanceAs (Std.TransCmp (List.compareLex (List.compareLex compare)))

instance : Std.LawfulEqCmp componentOrder :=
  inferInstanceAs (Std.LawfulEqCmp (List.compareLex (List.compareLex compare)))

theorem manifestPathOrder_total : TotalOrder manifestPathOrder := by
  unfold manifestPathOrder
  refine ⟨fun a b => ⟨fun h => ?_, ?_⟩, fun a b => ?_, fun a b c hab hbc => ?_⟩
  · exact components_inj (Std.LawfulEqCmp.eq_of_compare h)
  · rintro rfl
    exact Std.ReflCmp.compare_self
  · exact Std.OrientedCmp.eq_swap
  · exact Std.TransCmp.lt_trans hab hbc

/-- The derived codecs of everything that a build sends or stores. -/
structure BuilderCodecs where
  hello : Codec BuilderHello
  start : Codec BuilderStart
  manifestBegin : Codec ManifestBegin
  manifestChunk : Codec ManifestChunk
  manifestEnd : Codec ManifestEnd
  accountDb : Codec AccountDb
  done : Codec BuilderDone
  error : Codec ErrorMessage
  accountDatabase : Codec AccountDatabase
  manifestEntry : Codec ManifestEntry

section

variable (sha256 : Bytes → Digest) (codecs : BuilderCodecs)

def encodeBuilderMessage : BuilderMessage → Except ProtocolError Bytes
  | .hello m => encodePayload codecs.hello BuilderHello.validate m
  | .start m => encodePayload codecs.start BuilderStart.validate m
  | .manifestBegin m => encodePayload codecs.manifestBegin ManifestBegin.validate m
  | .manifestChunk m => encodePayload codecs.manifestChunk ManifestChunk.validate m
  | .manifestEnd m => encodePayload codecs.manifestEnd ManifestEnd.validate m
  | .accountDb m =>
    encodePayload codecs.accountDb (AccountDb.validate sha256 codecs.accountDatabase) m
  | .done m => encodePayload codecs.done BuilderDone.validate m
  | .error m => encodePayload codecs.error ErrorMessage.validate m

def decodeBuilderMessage (frame : RawFrame) : Except ProtocolError BuilderMessage :=
  match frame.header.kind with
  | .buildHello => (decodePayload codecs.hello BuilderHello.validate frame.payload).map .hello
  | .buildStart => (decodePayload codecs.start BuilderStart.validate frame.payload).map .start
  | .manifestBegin =>
    (decodePayload codecs.manifestBegin ManifestBegin.validate frame.payload).map .manifestBegin
  | .manifestChunk =>
    (decodePayload codecs.manifestChunk ManifestChunk.validate frame.payload).map .manifestChunk
  | .manifestEnd =>
    (decodePayload codecs.manifestEnd ManifestEnd.validate frame.payload).map .manifestEnd
  | .accountDb =>
    (decodePayload codecs.accountDb (AccountDb.validate sha256 codecs.accountDatabase) frame.payload).map .accountDb
  | .buildDone => (decodePayload codecs.done BuilderDone.validate frame.payload).map .done
  | .buildError => (decodePayload codecs.error ErrorMessage.validate frame.payload).map .error
  | _ => Protocol.invalid "kind" "non-builder message in builder protocol"

end

def MessageKind.debug : MessageKind → String
  | .hello => "Hello"
  | .start => "Start"
  | .ready => "Ready"
  | .exit => "Exit"
  | .error => "Error"
  | .signal => "Signal"
  | .resize => "Resize"
  | .shutdown => "Shutdown"
  | .buildHello => "BuildHello"
  | .buildStart => "BuildStart"
  | .manifestBegin => "ManifestBegin"
  | .manifestChunk => "ManifestChunk"
  | .manifestEnd => "ManifestEnd"
  | .buildDone => "BuildDone"
  | .buildError => "BuildError"
  | .accountDb => "AccountDb"
  | .validateHello => "ValidateHello"
  | .validateStart => "ValidateStart"
  | .validateDone => "ValidateDone"
  | .validateError => "ValidateError"

/-- The host's end of the stream. `accepted` is what the session accepted from the guest so far; the
program does not keep it. -/
structure BuilderControl where
  input : Input
  output : Output
  session : BuilderSession
  accepted : List BuilderMessage

def BuilderControl.new (input : Input) (output : Output) :
    BuilderControl := ⟨input, output, .new, []⟩

/-- A regular file that is open for writing. Each call takes one of `faults`: none of them, or a
failure after so many bytes. -/
structure SidecarFile where
  contents : Bytes
  position : Nat
  faults : List (Option Nat)
  deriving DecidableEq

namespace SidecarFile

def fault (f : SidecarFile) : Option Nat := f.faults.headD none
def next (f : SidecarFile) : SidecarFile := { f with faults := f.faults.tail }

def put (f : SidecarFile) (bytes : Bytes) : SidecarFile :=
  { f with
    contents := (f.contents ++ List.replicate (f.position - f.contents.length) 0).take f.position ++
      bytes ++
      f.contents.drop (f.position + bytes.length)
    position := f.position + bytes.length }

def writeAll (f : SidecarFile) (bytes : Bytes) (operation path : String) :
    Except HostBuildError Unit × SidecarFile :=
  match f.fault with
  | none => (.ok (), (f.put bytes).next)
  | some n => (.error (.io operation path), (f.put (bytes.take n)).next)

def setLen (f : SidecarFile) (length : Nat) (operation path : String) :
    Except HostBuildError Unit × SidecarFile :=
  match f.fault with
  | none => (.ok (), { f.next with contents := (f.contents ++ List.replicate (length - f.contents.length) 0).take length })
  | some _ => (.error (.io operation path), f.next)

def seek (f : SidecarFile) (position : Nat) (operation path : String) :
    Except HostBuildError Unit × SidecarFile :=
  match f.fault with
  | none => (.ok (), { f.next with position })
  | some _ => (.error (.io operation path), f.next)

def reset (f : SidecarFile) (path : String) : Except HostBuildError Unit × SidecarFile :=
  match f.setLen 0 "truncate retried sidecar" path with
  | (.error e, f) => (.error e, f)
  | (.ok (), f) => f.seek 0 "rewind retried sidecar" path

end SidecarFile

structure BuildRun where
  control : BuilderControl
  metadataManifest : SidecarFile
  accounts : SidecarFile

abbrev BuildM := Mutating HostBuildError BuildRun

def BuildM.call {α : Type} (f : BuildRun → Except HostBuildError α × BuildRun) :
    BuildM α := ExceptT.mk f

def BuildM.callOn {π α : Type} (called : BuildRun → Except HostBuildError α × π)
    (put : BuildRun → π → BuildRun) :
    BuildM α := .call fun r => ((called r).1, put r (called r).2)

section

variable (sha256 : Bytes → Digest) (codecs : BuilderCodecs)

/-- The next message of the guest: read as a frame, decoded, and accepted by the session. -/
def BuilderControl.receive (c : BuilderControl) :
    Except HostBuildError BuilderMessage × BuilderControl :=
  let sequence := c.session.nextSequence .guestToHost
  match FrameReader.withLimits c.input sequence MAX_CONTROL_PAYLOAD with
  | .error e => (.error (.protocol e), c)
  | .ok frames =>
    match frames.readFrame with
    | (.error e, frames) => (.error (.protocol e), { c with input := frames.inner })
    | (.ok frame, frames) =>
      let c := { c with input := frames.inner }
      match decodeBuilderMessage sha256 codecs frame with
      | .error e => (.error (.protocol e), c)
      | .ok message =>
        match c.session.accept sha256 codecs.manifestEntry codecs.accountDatabase .guestToHost message
            frame.header.sequence with
        | (.error e, _) => (.error (.protocol e), c)
        | (.ok (), candidate) =>
          (.ok message, { c with session := candidate, accepted := c.accepted ++ [message] })

/-- A message of the host: accepted by a copy of the session, which stays once it is written. -/
def BuilderControl.send (c : BuilderControl) (message : BuilderMessage) :
    Except HostBuildError Unit × BuilderControl :=
  match encodeBuilderMessage sha256 codecs message with
  | .error e => (.error (.protocol e), c)
  | .ok payload =>
    let sequence := c.session.nextSequence .hostToGuest
    match c.session.accept sha256 codecs.manifestEntry codecs.accountDatabase .hostToGuest message sequence with
    | (.error e, _) => (.error (.protocol e), c)
    | (.ok (), candidate) =>
      match FrameWriter.withLimits c.output sequence MAX_CONTROL_PAYLOAD with
      | .error e => (.error (.protocol e), c)
      | .ok frames =>
        match frames.writeFrame message.kind payload with
        | (.error e, frames) => (.error (.protocol e), { c with output := frames.inner })
        | (.ok _, frames) => (.ok (), { c with output := frames.inner, session := candidate })

def receive : BuildM BuilderMessage :=
  .callOn (fun r => r.control.receive sha256 codecs) fun r control => { r with control }

def send (message : BuilderMessage) : BuildM Unit :=
  .callOn (fun r => r.control.send sha256 codecs message) fun r control => { r with control }

end

/-- The fields of a profile that HELLO is compared with. -/
structure VerifiedProfile where
  guestContractId : String
  initBuildId : String
  kernelBuildId : String
  cpuStateHwcapPolicy : String
  hostElfMachine : UInt16
  guestPageSize : UInt32
  builderMemoryBytes : UInt64
  requiredTools : List ToolIdentity
  requiredFeatures : List String
  deriving DecidableEq

def debugTexts (texts : List String) :
    String := "[" ++ ", ".intercalate (texts.map String.quote) ++ "]"

def debugTools (tools : List ToolIdentity) : String :=
  debugTexts (tools.flatMap fun t => [t.role, t.sha256, t.version])

def compareHello (field expected actual : String) : Except HostBuildError Unit :=
  stop (expected ≠ actual) (.helloMismatch field expected actual)

def requireFeatures (features : List String) : List String → Except HostBuildError Unit
  | [] => .ok ()
  | required :: rest => do
    stop (required ∉ features) (.helloMismatch "features" required (debugTexts features))
    requireFeatures features rest

def verifyBuilderHello (profile : VerifiedProfile) (hello : BuilderHello) :
    Except HostBuildError Unit := do
  compareHello "guest_contract_id" profile.guestContractId hello.guestContractId
  compareHello "init_build_id" profile.initBuildId hello.initBuildId
  compareHello "kernel_build_id" profile.kernelBuildId hello.kernelBuildId
  compareHello "guest_uts_machine" "x86_64" hello.guestUtsMachine
  compareHello "cpu_state_hwcap_policy" profile.cpuStateHwcapPolicy hello.cpuStateHwcapPolicy
  compareHello "host_elf_machine" (toString profile.hostElfMachine) (toString hello.hostElfMachine)
  compareHello "guest_page_size" (toString profile.guestPageSize) (toString hello.guestPageSize)
  compareHello "online_cpus" "1" (toString hello.onlineCpus)
  stop (hello.acceptedPhysmemBytes < profile.builderMemoryBytes)
    (.helloMismatch "accepted_physmem_bytes" ("at least " ++ toString profile.builderMemoryBytes)
      (toString hello.acceptedPhysmemBytes))
  stop (hello.builderTools ≠ profile.requiredTools)
    (.helloMismatch "builder_tools" (debugTools profile.requiredTools)
      (debugTools hello.builderTools))
  requireFeatures hello.features profile.requiredFeatures

def compareEvidence (field expected actual : String) : Except HostBuildError Unit :=
  stop (expected ≠ actual) (.evidenceMismatch field expected actual)

structure ManifestStructuralVerifier where
  previousPath : Option Bytes
  sawRoot : Bool
  sawRootfs : Bool
  markerDigest : Option String
  deriving DecidableEq

namespace ManifestStructuralVerifier

def default : ManifestStructuralVerifier := ⟨none, false, false, none⟩

def MARKER : Bytes := utf8 ".pocket-generation.cbor"
def ROOTFS : Bytes := utf8 "rootfs"

def invalidManifest (reason : String) : HostBuildError := .invalid "metadata.manifest" reason

def manifestPathDiagnostic (path : Bytes) : String :=
  "hex:" ++ hexEncode (path.take 128) ++
    if path.length > 128 then "...(+" ++ toString (path.length - 128) ++ " bytes)" else ""

/-- The part of `accept_entry` that tells the entries apart by their path. -/
def placeEntry (v : ManifestStructuralVerifier) (entry : ManifestEntry) :
    Except HostBuildError ManifestStructuralVerifier :=
  if entry.path = [] then do
    stop (v.sawRoot ∨ entry.kind ≠ 2) (invalidManifest "root entry is duplicated or not a directory")
    return { v with sawRoot := true }
  else if entry.path = MARKER then do
    stop (entry.kind ≠ 1 ∨ v.markerDigest.isSome)
      (invalidManifest "generation marker is duplicated or not a regular file")
    return { v with markerDigest := entry.contentSha256.map hexEncode }
  else if entry.path = ROOTFS then do
    stop (v.sawRootfs ∨ entry.kind ≠ 2)
      (invalidManifest "rootfs entry is duplicated or not a directory")
    return { v with sawRootfs := true }
  else do
    stop (¬(utf8 "rootfs/").isPrefixOf entry.path)
      (invalidManifest "entry escapes the rootfs plus marker layout")
    return v

def acceptEntry (v : ManifestStructuralVerifier) (entry : ManifestEntry) :
    Except HostBuildError ManifestStructuralVerifier := do
  stop (v.previousPath.any fun previous => manifestPathOrder previous entry.path != .lt)
    (invalidManifest ("paths are not strictly increasing: " ++ manifestPathDiagnostic (v.previousPath.getD []) ++
      " then " ++ manifestPathDiagnostic entry.path))
  let v ← v.placeEntry entry
  return { v with previousPath := some entry.path }

def acceptBytes (entries : Codec ManifestEntry) (v : ManifestStructuralVerifier)
    (remaining : Bytes) :
    Except HostBuildError ManifestStructuralVerifier :=
  if _ : remaining = [] then .ok v
  else do
    stop (remaining.length < 4) (invalidManifest "truncated entry length")
    stop (remaining.length < 4 + entryLength remaining) (invalidManifest "truncated entry")
    let entry ← (decodePayload entries ManifestEntry.validate
      ((remaining.drop 4).take (entryLength remaining))).mapError .protocol
    entry.validate.mapError .protocol
    let v ← v.acceptEntry entry
    acceptBytes entries v (remaining.drop (4 + entryLength remaining))
termination_by remaining.length
decreasing_by
  have := List.length_pos_of_ne_nil ‹remaining ≠ []›
  rw [List.length_drop]
  omega

def acceptChunk (entries : Codec ManifestEntry) (v : ManifestStructuralVerifier)
    (chunk : ManifestChunk) :
    Except HostBuildError ManifestStructuralVerifier := v.acceptBytes entries chunk.bytes

def markerSha256 (v : ManifestStructuralVerifier) : Except HostBuildError String :=
  require v.markerDigest (invalidManifest "missing generation marker digest")

def finish (v : ManifestStructuralVerifier) : Except HostBuildError Unit :=
  stop (¬v.sawRoot ∨ ¬v.sawRootfs ∨ v.markerDigest.isNone)
    (invalidManifest "missing root, rootfs, or generation marker evidence")

end ManifestStructuralVerifier

section

variable (sha256 : Bytes → Digest) (codecs : BuilderCodecs)

theorem BuilderControl.receive_consumes {c c' : BuilderControl} {message : BuilderMessage}
    (h : c.receive sha256 codecs = (.ok message, c')) :
    c'.input.bytes.length < c.input.bytes.length := by
  unfold BuilderControl.receive at h
  simp only [FrameReader.withLimits] at h
  rw [if_neg (Nat.lt_irrefl _)] at h
  dsimp only at h
  split at h
  · cases h
  · next frame frames hframe =>
    have := readFrame_consumes hframe
    split at h
    · cases h
    · split at h
      · cases h
      · cases h
        exact this

def unexpectedBuilder (expected : String) (actual : MessageKind) : HostBuildError :=
  .evidenceMismatch "builder_message_kind" expected (MessageKind.debug actual)

/-- Chunks until MANIFEST_END: each one is checked and then written. -/
def streamManifest (v : ManifestStructuralVerifier) (r : BuildRun) :
    Except HostBuildError ManifestStructuralVerifier × BuildRun :=
  match _h : r.control.receive sha256 codecs with
  | (.error e, control) => (.error e, { r with control })
  | (.ok (.manifestChunk chunk), control) =>
    match v.acceptChunk codecs.manifestEntry chunk with
    | .error e => (.error e, { r with control })
    | .ok v =>
      match r.metadataManifest.writeAll chunk.bytes "write metadata manifest" "<metadata.manifest>" with
      | (.error e, metadataManifest) => (.error e, { r with control, metadataManifest })
      | (.ok (), metadataManifest) => streamManifest v { r with control, metadataManifest }
  | (.ok (.manifestEnd _), control) => (.ok v, { r with control })
  | (.ok (.error message), control) =>
    (.error (.guest "metadata manifest" message), { r with control })
  | (.ok message, control) =>
    (.error (unexpectedBuilder "MANIFEST_CHUNK/END" message.kind), { r with control })
termination_by r.control.input.bytes.length
decreasing_by exact BuilderControl.receive_consumes sha256 codecs _h

def expectMessage {α : Type} (stage : String) (due : BuilderMessage → Option α)
    (message : BuilderMessage) :
    Except HostBuildError α :=
  match due message, message with
  | some a, _ => .ok a
  | none, .error m => .error (.guest stage m)
  | none, m => .error (unexpectedBuilder stage m.kind)

def BuilderMessage.asHello : BuilderMessage → Option BuilderHello
  | .hello m => some m
  | _ => none

def BuilderMessage.asBegin : BuilderMessage → Option ManifestBegin
  | .manifestBegin m => some m
  | _ => none

def BuilderMessage.asAccountDb : BuilderMessage → Option AccountDb
  | .accountDb m => some m
  | _ => none

def BuilderMessage.asDone : BuilderMessage → Option BuilderDone
  | .done m => some m
  | _ => none

def runBuilderProtocol (start : BuilderStart) (profile : VerifiedProfile) : BuildM BuilderDone := do
  let message ← receive sha256 codecs
  let hello ← check (expectMessage "BUILD_HELLO" BuilderMessage.asHello message)
  check (verifyBuilderHello profile hello)
  send sha256 codecs (.start start)
  let message ← receive sha256 codecs
  let _ ← check (expectMessage "MANIFEST_BEGIN" BuilderMessage.asBegin message)
  let verifier ← .call (streamManifest sha256 codecs .default)
  check verifier.finish
  let message ← receive sha256 codecs
  let accountDb ← check (expectMessage "ACCOUNT_DB" BuilderMessage.asAccountDb message)
  check ((accountDb.validate sha256 codecs.accountDatabase).mapError .protocol)
  .callOn (fun r => r.accounts.writeAll accountDb.canonicalBytes "write accounts.cbor" "<accounts.cbor>")
    fun r accounts => { r with accounts }
  let message ← receive sha256 codecs
  let done ← check (expectMessage "BUILD_DONE" BuilderMessage.asDone message)
  check (compareEvidence "account_db_sha256" accountDb.sha256 done.accountDbSha256)
  let marker ← check verifier.markerSha256
  check (compareEvidence "generation_marker_sha256" marker done.generationMarkerSha256)
  return done

/-- One attempt at a build, over a new stream: the sidecars are reset, whatever an earlier one left. -/
def buildAttempt (start : BuilderStart) (profile : VerifiedProfile) (input : Input)
    (output : Output) :
    BuildM BuilderDone := do
  .callOn (fun r => r.metadataManifest.reset "metadata.manifest") fun r metadataManifest =>
    { r with metadataManifest }
  .callOn (fun r => r.accounts.reset "accounts.cbor") fun r accounts => { r with accounts }
  modify fun r => { r with control := .new input output }
  runBuilderProtocol sha256 codecs start profile

end

end PocketVm.Runtime

/-! ### What the loops over a chunk visit

All four visit the entries a chunk is the concatenation of, each under its length. -/

namespace PocketVm.Runtime

open Wire Checked Protocol List

def frame (payload : Bytes) : Bytes := beBytes 4 payload.length ++ payload

def frames (payloads : List Bytes) : Bytes := payloads.flatMap frame

/-- The entries from `offset` on, each with the offset of its first byte. -/
def placed (offset : Nat) : List Bytes → List (Nat × Bytes)
  | [] => []
  | payload :: payloads => (offset + 4, payload) :: placed (offset + 4 + payload.length) payloads

/-- What `validate_canonical_entries` does at an entry. -/
def validateEntry (entries : Codec ManifestEntry) (limits : ManifestLimits) (payload : Bytes) :
    Except ProtocolError Unit := do
  let entry ← decodePayload entries ManifestEntry.validate payload
  refuse (entry.path.length > limits.maxPathBytes.toNat) "manifest_entry.path" "exceeds negotiated limit"
  refuse (entry.xattrs.length > limits.maxXattrsPerEntry.toNat) "manifest_entry.xattrs" "exceeds negotiated count"
  let xattrBytes ← countXattrBytes limits.maxXattrBytesPerEntry.toNat 0 entry.xattrs
  refuse (xattrBytes > limits.maxXattrBytesPerEntry.toNat) "manifest_entry.xattr_bytes" "exceeds negotiated limit"

/-- What `accept_chunk` does at an entry. -/
def acceptPayload (entries : Codec ManifestEntry) (v : ManifestStructuralVerifier)
    (payload : Bytes) :
    Except HostBuildError ManifestStructuralVerifier := do
  let entry ← (decodePayload entries ManifestEntry.validate payload).mapError .protocol
  entry.validate.mapError .protocol
  v.acceptEntry entry

/-- What `decode_manifest` does at an entry. -/
def decodeAt (entries : Codec ManifestEntry) (visit : Nat × Bytes) :
    Except ManifestFileError ManifestEntry :=
  (decodePayload entries ManifestEntry.validate visit.2).mapError (.notCanonical visit.1)

variable {entries : Codec ManifestEntry} {limits : ManifestLimits} {payload rest bytes : Bytes}
  {payloads : List Bytes} {limit n offset : Nat}

theorem frames_cons : frames (payload :: payloads) = beBytes 4 payload.length ++ payload ++
    frames payloads := flatMap_cons

theorem counted_of_count (h : countLengthPrefixedEntries bytes limit = .ok n) :
    ∃ payloads, bytes = frames payloads ∧ payloads.length = n ∧
      ∀ p ∈ payloads, p ≠ [] ∧ p.length ≤ limit ∧ p.length < 256 ^ 4 := by
  induction hn : bytes.length using Nat.strong_induction_on generalizing bytes n with
  | _ m ih =>
    rw [countLengthPrefixedEntries] at h
    by_cases hnil : bytes = []
    · rw [dif_pos hnil] at h
      cases h
      exact ⟨[], hnil, rfl, fun _ hp => absurd hp not_mem_nil⟩
    · simp only [dif_neg hnil, bind_ok, refuse_ok, pure_ok] at h
      obtain ⟨_, -, _, hrange, _, hlong, k, hk, rfl⟩ := h
      obtain ⟨payloads, hbytes, hlength, hall⟩ := ih _ (by rw [length_drop]; omega) hk rfl
      have hsize := length_entry (show 4 + entryLength bytes ≤ bytes.length by omega)
      have hbound : entryLength bytes < 256 ^ 4 :=
        lt_of_lt_of_le (readBE_lt _) (Nat.pow_le_pow_right (by decide) (length_take_le ..))
      refine ⟨(bytes.drop 4).take (entryLength bytes) :: payloads, ?_, by rw [length_cons, hlength],
        forall_mem_cons.mpr ⟨?_, hall⟩⟩
      · rw [frames_cons, ← hbytes]
        exact eq_frame (by omega)
      · exact ⟨ne_nil_of_length_pos (by omega), by omega, by omega⟩

theorem entryLength_frames (h : payload.length < 256 ^ 4) :
    entryLength (frames (payload :: payloads)) = payload.length := by
  rw [frames_cons, entryLength, append_assoc, take_left' (length_beBytes 4 _)]
  exact readBE_beBytes h

/-- One entry ahead of the others, for all three loops. -/
theorem walks_frames (h : ∀ p ∈ payloads, p ≠ [] ∧ p.length < 256 ^ 4) (offset : Nat)
    (v : ManifestStructuralVerifier) :
    validateCanonicalEntries entries limits (frames payloads) =
      (placed offset payloads).forM (fun visit => validateEntry entries limits visit.2) ∧
    v.acceptBytes entries (frames payloads) =
      (placed offset payloads).foldlM (fun v visit => acceptPayload entries v visit.2) v ∧
    decodeManifestFrom entries offset (frames payloads) = (placed offset payloads).mapM
      (decodeAt entries) := by
  induction payloads generalizing offset v with
  | nil =>
    have hnil : frames [] = [] := rfl
    rw [hnil, validateCanonicalEntries, ManifestStructuralVerifier.acceptBytes, decodeManifestFrom]
    exact ⟨rfl, rfl, rfl⟩
  | cons payload payloads ih =>
    obtain ⟨⟨hne, hp⟩, hrest⟩ := forall_mem_cons.mp h
    have hpos := length_pos_of_ne_nil hne
    have hnil : frames (payload :: payloads) ≠ [] := frame_ne_nil
    have hlength : (frames (payload :: payloads)).length =
      4 + payload.length + (frames payloads).length := by
      simp [frames_cons, Nat.add_assoc]
    have hshort : ¬(frames (payload :: payloads)).length < 4 := by omega
    have hpayload : ((frames (payload :: payloads)).drop 4).take payload.length =
      payload := payload_frame
    have hdrop : (frames (payload :: payloads)).drop (4 + payload.length) =
      frames payloads := rest_frame
    rw [validateCanonicalEntries, ManifestStructuralVerifier.acceptBytes, decodeManifestFrom,
      placed, foldlM_cons, mapM_cons]
    simp only [dif_neg hnil, entryLength_frames hp, hpayload, hdrop, stop, if_neg hshort,
      if_neg (show ¬(frames (payload :: payloads)).length < 4 + payload.length by omega),
      if_neg (show ¬(payload.length = 0 ∨ payload.length > (frames (payload :: payloads)).length - 4) by omega)]
    refine ⟨?_, ?_, ?_⟩
    · rw [(ih hrest (offset + 4 + payload.length) v).1]
      show _ = validateEntry entries limits payload >>= fun _ => _
      simp only [validateEntry, bind_assoc]
    · simp only [acceptPayload, bind_assoc, fun v => (ih hrest (offset + 4 + payload.length) v).2.1]
      rfl
    · rw [(ih hrest (offset + 4 + payload.length) v).2.2]
      rfl

theorem placed_inside {before : Bytes} {visit : Nat × Bytes}
    (h : visit ∈ placed before.length payloads) :
    ∃ start rest, before ++ frames payloads = start ++ frame visit.2 ++ rest ∧
      visit.1 = start.length + 4 := by
  induction payloads generalizing before with
  | nil => cases h
  | cons payload payloads ih =>
    rcases mem_cons.mp h with rfl | h
    · exact ⟨before, frames payloads, by rw [append_assoc]; rfl, rfl⟩
    · have hnext : before.length + 4 + payload.length = (before ++ frame payload).length := by
        simp [frame, Nat.add_assoc]
      rw [hnext] at h
      obtain ⟨start, rest, heq, hvisit⟩ := ih h
      exact ⟨start, rest, by rw [← heq, append_assoc]; rfl, hvisit⟩

theorem counted_chunks {chunks : List Bytes}
    (h : ∀ chunk ∈ chunks, ∃ n, countLengthPrefixedEntries chunk limit = .ok n) :
    ∃ payloads : List (List Bytes), chunks = payloads.map frames ∧
      chunks.flatten = frames payloads.flatten ∧
      (∀ ps ∈ payloads, countLengthPrefixedEntries (frames ps) limit = .ok ps.length) ∧
      ∀ p ∈ payloads.flatten, p ≠ [] ∧ p.length < 256 ^ 4 := by
  induction chunks with
  | nil =>
    exact ⟨[], rfl, rfl, fun ps hps => absurd hps not_mem_nil, fun p hp => absurd hp not_mem_nil⟩
  | cons chunk chunks ih =>
    obtain ⟨⟨n, hchunk⟩, hrest⟩ := forall_mem_cons.mp h
    obtain ⟨first, rfl, rfl, hfirst⟩ := counted_of_count hchunk
    obtain ⟨payloads, rfl, hflat, hcounts, hpayloads⟩ := ih hrest
    refine ⟨first :: payloads, rfl, ?_, forall_mem_cons.mpr ⟨hchunk, hcounts⟩, fun p hp => ?_⟩
    · rw [flatten_cons, hflat]
      exact flatMap_append.symm
    · rcases mem_append.mp hp with hp | hp
      · exact ⟨(hfirst p hp).1, (hfirst p hp).2.2⟩
      · exact hpayloads p hp

/-- A chunk whose lengths were counted is so many entries, one after another, and the loops that
follow its lengths again visit these entries and read nothing outside of them. In a file of such
chunks they are the entries of the chunks in turn. -/
theorem counted_entries_visited (entries : Codec ManifestEntry) (limits : ManifestLimits)
    (limit : Nat) :
    (∀ {bytes : Bytes} {n : Nat}, countLengthPrefixedEntries bytes limit = .ok n →
      ∃ payloads : List Bytes, payloads.length = n ∧ bytes = frames payloads ∧
      (∀ visit ∈ placed 0 payloads, ∃ start rest, bytes = start ++ frame visit.2 ++ rest ∧
        visit.1 = start.length + 4) ∧
      validateCanonicalEntries entries limits bytes =
        (placed 0 payloads).forM (fun visit => validateEntry entries limits visit.2) ∧ ∀ v :
          ManifestStructuralVerifier,
        v.acceptBytes entries bytes = (placed 0 payloads).foldlM (fun v visit =>
          acceptPayload entries v visit.2) v) ∧
    ∀ {chunks : List Bytes}, (∀ chunk ∈ chunks, ∃ n,
      countLengthPrefixedEntries chunk limit = .ok n) →
      ∃ payloads : List (List Bytes), chunks = payloads.map frames ∧
        (∀ ps ∈ payloads, countLengthPrefixedEntries (frames ps) limit = .ok ps.length) ∧
        decodeManifest entries chunks.flatten = (placed 0 payloads.flatten).mapM
          (decodeAt entries) := by
  refine ⟨fun {bytes n} h => ?_, fun {chunks} h => ?_⟩
  · obtain ⟨payloads, rfl, hlength, hall⟩ := counted_of_count h
    have hwalks := @walks_frames entries limits payloads fun p hp =>
      ⟨(hall p hp).1, (hall p hp).2.2⟩
    exact ⟨payloads, hlength, rfl, fun visit => @placed_inside payloads [] visit,
      (hwalks 0 ⟨none, false, false, none⟩).1, fun v => (hwalks 0 v).2.1⟩
  · obtain ⟨payloads, hchunks, hflat, hcounts, hpayloads⟩ := counted_chunks h
    refine ⟨payloads, hchunks, hcounts, ?_⟩
    rw [hflat]
    exact (@walks_frames entries limits _ hpayloads 0 ⟨none, false, false, none⟩).2.2

namespace CountedSample

def directory (path : Bytes) : ManifestEntry := ⟨path, 2, 0o755, 0, 0, 4096, 0, 0, 0, none,
    none, none, []⟩

def manifest : Codec ManifestEntry := .table [directory [], directory [97],
    directory [98]] (by decide)

def bounds : ManifestLimits := ⟨8, 0, 0, 8, 16, 8, 64, 8, 64, 0, 0, 4⟩

/-- The root and `a`, and then `b`. -/
def chunks : List Bytes := [[0, 0, 0, 1, 0, 0, 0, 0, 1, 1], [0, 0, 0, 1, 2]]

end CountedSample

open CountedSample in
theorem counted_entries_visited_two :
    (∃ payloads : List Bytes, payloads.length = 2 ∧
      [0, 0, 0, 1, 0, 0, 0, 0, 1, 1] = frames payloads ∧
        (placed 0 payloads).forM (fun visit => validateEntry manifest bounds visit.2) = .ok ()) ∧
    ∃ payloads : List (List Bytes), chunks = payloads.map frames ∧
      (placed 0 payloads.flatten).mapM (decodeAt manifest) = .ok [directory [], directory [97],
        directory [98]] := by
  obtain ⟨hchunk, hfile⟩ := counted_entries_visited manifest bounds 8
  obtain ⟨payloads, hlength, hbytes, -, hvalidate, -⟩ :=
    @hchunk [0, 0, 0, 1, 0, 0, 0, 0, 1, 1] 2 (by decide +kernel)
  have hcounts : ∀ chunk ∈ chunks, ∃ n, countLengthPrefixedEntries chunk 8 = .ok n :=
    forall_mem_cons.mpr ⟨⟨2, by decide +kernel⟩, forall_mem_singleton.mpr ⟨1, by decide +kernel⟩⟩
  obtain ⟨payloads', hchunks, -, hdecode⟩ := @hfile chunks hcounts
  exact ⟨⟨payloads, hlength, hbytes, hvalidate.symm.trans (by decide +kernel)⟩,
    payloads', hchunks, hdecode.symm.trans (by decide +kernel)⟩

end PocketVm.Runtime
