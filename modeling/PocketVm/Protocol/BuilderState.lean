import PocketVm.Protocol.Builder

/-!
# The builder session

`builder_state.rs`: which message may come next in a build, from which side, and what it must agree
with. `accept` works on a copy of the session and keeps the copy only if nothing failed.
-/

namespace PocketVm.Protocol

open Wire Checked

inductive Direction where
  | hostToGuest | guestToHost
  deriving DecidableEq

def Direction.asStr : Direction → String
  | hostToGuest => "host-to-guest"
  | guestToHost => "guest-to-host"

inductive BuilderState where
  | awaitHello | awaitStart | awaitManifestBegin | streamingManifest | awaitAccountDb | awaitDone
  | completed | failed
  deriving DecidableEq

def BuilderState.asStr : BuilderState → String
  | awaitHello => "await-build-hello"
  | awaitStart => "await-build-start"
  | awaitManifestBegin => "await-manifest-begin"
  | streamingManifest => "streaming-manifest"
  | awaitAccountDb => "await-account-db"
  | awaitDone => "await-build-done"
  | completed => "completed"
  | failed => "failed"

/-- `manifestHasher` is the bytes the hasher was given. -/
structure BuilderSession where
  state : BuilderState
  nextHostSequence : UInt64
  nextGuestSequence : UInt64
  observedTools : Option (List ToolIdentity)
  acceptedPhysmemBytes : Option UInt64
  expectedTools : Option (List ToolIdentity)
  originalUser : Option String
  manifestSchema : Option String
  manifestLimits : Option ManifestLimits
  streamId : Option String
  nextChunkSequence : UInt64
  nextEntry : Nat
  byteCount : Nat
  manifestHasher : Bytes
  manifestSha256 : Option String
  accountDbSha256 : Option String
  deriving DecidableEq

/-- Every entry of a chunk is canonical and within the limits on one entry. The lengths have been
checked by `countLengthPrefixedEntries`. -/
def validateCanonicalEntries (entries : Codec ManifestEntry) (limits : ManifestLimits)
    (bytes : Bytes) :
    Except ProtocolError Unit :=
  if _ : bytes = [] then .ok ()
  else do
    let entry ← decodePayload entries ManifestEntry.validate
      ((bytes.drop 4).take (entryLength bytes))
    refuse (entry.path.length > limits.maxPathBytes.toNat) "manifest_entry.path" "exceeds negotiated limit"
    refuse (entry.xattrs.length > limits.maxXattrsPerEntry.toNat) "manifest_entry.xattrs" "exceeds negotiated count"
    let xattrBytes ← countXattrBytes limits.maxXattrBytesPerEntry.toNat 0 entry.xattrs
    refuse (xattrBytes > limits.maxXattrBytesPerEntry.toNat) "manifest_entry.xattr_bytes" "exceeds negotiated limit"
    validateCanonicalEntries entries limits (bytes.drop (4 + entryLength bytes))
termination_by bytes.length
decreasing_by
  have := List.length_pos_of_ne_nil ‹bytes ≠ []›
  rw [List.length_drop]
  omega

namespace BuilderSession

def new : BuilderSession where
  state := .awaitHello
  nextHostSequence := 0
  nextGuestSequence := 0
  observedTools := none
  acceptedPhysmemBytes := none
  expectedTools := none
  originalUser := none
  manifestSchema := none
  manifestLimits := none
  streamId := none
  nextChunkSequence := 0
  nextEntry := 0
  byteCount := 0
  manifestHasher := []
  manifestSha256 := none
  accountDbSha256 := none

def nextSequence (s : BuilderSession) : Direction → UInt64
  | .hostToGuest => s.nextHostSequence
  | .guestToHost => s.nextGuestSequence

def setSequence (s : BuilderSession) (direction : Direction) (sequence : UInt64) : BuilderSession :=
  match direction with
  | .hostToGuest => { s with nextHostSequence := sequence }
  | .guestToHost => { s with nextGuestSequence := sequence }

/-- What the methods of a session do to it: a failure leaves the changes made before it. -/
abbrev SessionM := Mutating ProtocolError BuilderSession

open Mutating

variable (sha256 : Bytes → Digest) (entries : Codec ManifestEntry)
  (accounts : Codec AccountDatabase)

def acceptChunk (chunk : ManifestChunk) : SessionM Unit := do
  let s ← get
  check (refuse (some chunk.streamId ≠ s.streamId) "stream_id" "MANIFEST_CHUNK stream differs from BEGIN")
  check (refuse (chunk.sequence ≠ s.nextChunkSequence) "chunk.sequence" "chunk sequence is not contiguous")
  check (refuse (chunk.firstEntry.toNat ≠ s.nextEntry) "chunk.first_entry" "entry range is not contiguous")
  let limits ← check (require s.manifestLimits
    (.invalidStateTransition s.state.asStr "guest-to-host" MessageKind.manifestChunk.toU16))
  check (refuse (chunk.bytes.length > limits.maxChunkBytes.toNat) "chunk.bytes" "exceeds negotiated chunk limit")
  let entryCount ← check (countLengthPrefixedEntries chunk.bytes limits.maxEntryBytes.toNat)
  check (refuse (entryCount ≠ chunk.entryCount.toNat) "chunk.entry_count" "does not match encoded entries")
  check (validateCanonicalEntries entries limits chunk.bytes)
  let nextEntry ← check (checkedAdd s.nextEntry chunk.entryCount.toNat
    (unbounded "manifest.entry_count" (2 ^ 64 - 1)))
  check (refuse (nextEntry > limits.maxEntries.toNat) "manifest.entry_count" "exceeds negotiated limit")
  let byteCount ← check (checkedAdd s.byteCount chunk.bytes.length
    (unbounded "manifest.byte_count" (2 ^ 64 - 1)))
  check (refuse (byteCount > limits.maxTotalBytes.toNat) "manifest.byte_count" "exceeds negotiated limit")
  modify fun s => { s with manifestHasher := s.manifestHasher ++ chunk.bytes }
  let sequence ← check (Protocol.nextSequence s.nextChunkSequence)
  modify fun s => { s with nextChunkSequence := sequence, nextEntry := nextEntry, byteCount := byteCount }

def acceptStart (start : BuilderStart) : SessionM Unit := do
  let s ← get
  let observed ← check (require s.observedTools
    (.invalidStateTransition s.state.asStr "host-to-guest" MessageKind.buildStart.toU16))
  check (refuse (observed ≠ start.expectedTools) "expected_tools" "does not equal BUILD_HELLO tool evidence")
  check (refuse (¬s.acceptedPhysmemBytes.any fun accepted => start.expectedPhysmemBytes ≤ accepted)
    "expected_physmem_bytes" "exceeds BUILD_HELLO accepted physical memory")
  modify fun s => { s with
    expectedTools := some start.expectedTools
    originalUser := some start.originalUser
    manifestSchema := some start.manifestSchema
    manifestLimits := some start.manifestLimits
    state := .awaitManifestBegin }

def acceptBegin (begin : ManifestBegin) : SessionM Unit := do
  let s ← get
  check (refuse (some begin.schema ≠ s.manifestSchema) "manifest_schema" "MANIFEST_BEGIN schema differs from START")
  modify fun s => { s with
    streamId := some begin.streamId
    nextChunkSequence := 0
    nextEntry := 0
    byteCount := 0
    manifestHasher := []
    state := .streamingManifest }

def acceptEnd (fin : ManifestEnd) : SessionM Unit := do
  let s ← get
  check (refuse (some fin.streamId ≠ s.streamId) "stream_id" "MANIFEST_END stream differs from BEGIN")
  check (refuse (fin.entryCount.toNat ≠ s.nextEntry ∨
    fin.byteCount.toNat ≠ s.byteCount) "manifest_totals" "MANIFEST_END totals do not match chunks")
  check (refuse (fin.sha256 ≠ hexDigest sha256 s.manifestHasher) "manifest_sha256"
    "MANIFEST_END digest does not match chunks")
  modify fun s => { s with manifestSha256 := some (hexDigest sha256 s.manifestHasher), state := .awaitAccountDb }

def acceptDone (done : BuilderDone) : SessionM Unit := do
  let s ← get
  check (refuse (some done.manifestSha256 ≠ s.manifestSha256 ∨ done.entryCount.toNat ≠ s.nextEntry ∨
    done.byteCount.toNat ≠ s.byteCount) "build_done" "manifest evidence differs from stream")
  check (refuse (some done.originalUser ≠ s.originalUser) "original_user" "BUILD_DONE differs from START")
  check (refuse (some done.accountDbSha256 ≠ s.accountDbSha256) "account_db_sha256" "BUILD_DONE differs from ACCOUNT_DB")
  check (refuse (some done.observedTools ≠ s.expectedTools) "observed_tools" "BUILD_DONE differs from START")
  modify fun s => { s with state := .completed }

def acceptInner (direction : Direction) (message : BuilderMessage) : SessionM Unit := do
  let s ← get
  match s.state, direction, message with
  | .awaitHello, .guestToHost, .hello hello =>
    modify fun s => { s with
      observedTools := some hello.builderTools
      acceptedPhysmemBytes := some hello.acceptedPhysmemBytes
      state := .awaitStart }
  | .awaitStart, .hostToGuest, .start start => acceptStart start
  | .awaitManifestBegin, .guestToHost, .manifestBegin begin => acceptBegin begin
  | .streamingManifest, .guestToHost, .manifestChunk chunk => acceptChunk entries chunk
  | .streamingManifest, .guestToHost, .manifestEnd fin => acceptEnd sha256 fin
  | .awaitAccountDb, .guestToHost, .accountDb accountDb =>
    modify fun s => { s with accountDbSha256 := some accountDb.sha256, state := .awaitDone }
  | .awaitDone, .guestToHost, .done done => acceptDone done
  | .awaitStart, .guestToHost, .error _ | .awaitManifestBegin, .guestToHost, .error _
  | .streamingManifest, .guestToHost, .error _ | .awaitAccountDb, .guestToHost, .error _
  | .awaitDone, .guestToHost, .error _ => modify fun s => { s with state := .failed }
  | state, direction, message =>
    check (.error (.invalidStateTransition state.asStr direction.asStr message.kind.toU16))

def accept (s : BuilderSession) (direction : Direction) (message : BuilderMessage)
    (frameSequence : UInt64) :
    Except ProtocolError Unit × BuilderSession :=
  if frameSequence ≠ s.nextSequence direction then
    (.error (.sequenceMismatch (s.nextSequence direction) frameSequence), s)
  else match message.validate sha256 accounts with
    | .error e => (.error e, s)
    | .ok () =>
      match (acceptInner sha256 entries direction message).run.run s with
      | (.error e, _) => (.error e, s)
      | (.ok (), next) =>
        match Protocol.nextSequence frameSequence with
        | .error e => (.error e, s)
        | .ok incremented => (.ok (), next.setSequence direction incremented)

end BuilderSession

/-! ### What a completed build has gone through -/

open List

variable {sha256 : Bytes → Digest} {entries : Codec ManifestEntry}
  {accounts : Codec AccountDatabase}

/-- `bytes` are the canonical encodings of `es`, each behind its length. -/
inductive Framed (entries : Codec ManifestEntry) : Bytes → List ManifestEntry → Prop
  | nil : Framed entries [] []
  | cons {e : ManifestEntry} {payload rest : Bytes} {es : List ManifestEntry} :
    Canonical entries ManifestEntry.validate e payload → payload ≠ [] → Framed entries rest es →
      Framed entries (beBytes 4 payload.length ++ payload ++ rest) (e :: es)

variable {es es' : List ManifestEntry} {bytes : Bytes}

theorem Framed.append {b b' : Bytes} (h : Framed entries b es)
    (h' : Framed entries b' es') : Framed entries (b ++ b') (es ++ es') := by
  induction h with
  | nil => exact h'
  | cons hcanon hne _ ih =>
    rw [append_assoc]
    exact .cons hcanon hne ih

theorem frame_inj {payload payload' rest rest' : Bytes} (hp : payload.length ≤ MAX_CONTROL_PAYLOAD)
    (hp' : payload'.length ≤ MAX_CONTROL_PAYLOAD)
    (h : beBytes 4 payload.length ++ payload ++ rest = beBytes 4 payload'.length ++
      payload' ++ rest') :
    payload = payload' ∧ rest = rest' := by
  have hcap : MAX_CONTROL_PAYLOAD < 256 ^ 4 := by decide
  rw [append_assoc, append_assoc] at h
  obtain ⟨hlen, h⟩ := append_inj h (by simp)
  exact append_inj h (beBytes_inj (by omega) (by omega) hlen)

theorem Framed.unique (h : Framed entries bytes es) (h' : Framed entries bytes es') : es = es' := by
  induction h generalizing es' with
  | nil =>
    generalize hb : ([] : Bytes) = bytes at h'
    cases h' with
    | nil => rfl
    | cons hcanon hne _ =>
      have hlen := congrArg List.length hb
      simp only [length_append, length_beBytes, length_nil] at hlen
      omega
  | @cons e payload rest es hcanon hne _ ih =>
    generalize hb : beBytes 4 payload.length ++ payload ++ rest = bytes at h'
    cases h' with
    | nil =>
      have hlen := congrArg List.length hb
      simp only [length_append, length_beBytes, length_nil] at hlen
      omega
    | cons hcanon' _ hrest =>
      obtain ⟨rfl, rfl⟩ := frame_inj hcanon.length hcanon'.length hb
      have hdec := entries.decode_toVec hcanon.encoded
      rw [entries.decode_toVec hcanon'.encoded] at hdec
      cases hdec
      rw [ih hrest]

structure EntryWithin (entries : Codec ManifestEntry) (limits : ManifestLimits)
    (e : ManifestEntry) : Prop where
  path : e.path.length ≤ limits.maxPathBytes.toNat
  xattrs : e.xattrs.length ≤ limits.maxXattrsPerEntry.toNat
  xattrBytes : (e.xattrs.map fun x => x.name.length + x.value.length).sum ≤
    limits.maxXattrBytesPerEntry.toNat
  encoded : ∀ payload, entries.toVec e = .ok payload → payload.length ≤ limits.maxEntryBytes.toNat

theorem countXattrBytes_ok {maximum total n : Nat} {xattrs : List ManifestXattr}
    (h : countXattrBytes maximum total xattrs = .ok n) :
    n = total + (xattrs.map fun x => x.name.length + x.value.length).sum := by
  induction xattrs generalizing total with
  | nil =>
    cases h
    simp
  | cons x xattrs ih =>
    simp only [countXattrBytes, bind_ok, checkedAdd_ok] at h
    obtain ⟨_, ⟨-, rfl⟩, _, ⟨-, rfl⟩, h⟩ := h
    rw [ih h, map_cons, sum_cons]
    omega

theorem length_entry (h : 4 + entryLength bytes ≤ bytes.length) :
    ((bytes.drop 4).take (entryLength bytes)).length = entryLength bytes := by
  rw [length_take, length_drop]
  omega

theorem eq_frame (h : 4 + entryLength bytes ≤ bytes.length) :
    bytes = beBytes 4 ((bytes.drop 4).take (entryLength bytes)).length ++ (bytes.drop 4).take
      (entryLength bytes) ++ bytes.drop (4 + entryLength bytes) := by
  have hhead : beBytes 4 (entryLength bytes) = bytes.take 4 := by
    have := beBytes_readBE (bytes.take 4)
    rwa [length_take, Nat.min_eq_left (by omega)] at this
  rw [length_entry h, hhead, append_assoc, ← drop_drop, take_append_drop, take_append_drop]

section

variable {payload rest : Bytes}

theorem entryLength_frame (h : payload.length ≤ MAX_CONTROL_PAYLOAD) :
    entryLength (beBytes 4 payload.length ++ payload ++ rest) = payload.length := by
  have hcap : MAX_CONTROL_PAYLOAD < 256 ^ 4 := by decide
  rw [entryLength, append_assoc, take_left' (length_beBytes 4 _)]
  exact readBE_beBytes (by omega)

theorem payload_frame :
    ((beBytes 4 payload.length ++ payload ++ rest).drop 4).take payload.length = payload := by
  rw [append_assoc, drop_left' (length_beBytes 4 _), take_left]

theorem rest_frame :
    (beBytes 4 payload.length ++ payload ++ rest).drop (4 + payload.length) = rest :=
  drop_left' (by simp)

theorem frame_ne_nil : beBytes 4 payload.length ++ payload ++ rest ≠ [] :=
  ne_nil_of_length_pos (by simp)

end

theorem framed_of_checks {limits : ManifestLimits} {count : Nat}
    (hcount : countLengthPrefixedEntries bytes limits.maxEntryBytes.toNat = .ok count)
    (hcanon : validateCanonicalEntries entries limits bytes = .ok ()) :
    ∃ es, Framed entries bytes es ∧ es.length = count ∧ ∀ e ∈ es, EntryWithin entries limits e := by
  induction hn : bytes.length using Nat.strong_induction_on generalizing bytes count with
  | _ n ih =>
    rw [countLengthPrefixedEntries] at hcount
    rw [validateCanonicalEntries] at hcanon
    by_cases hnil : bytes = []
    · rw [dif_pos hnil] at hcount
      cases hcount
      exact ⟨[], hnil ▸ .nil, rfl, by simp⟩
    · simp only [dif_neg hnil, bind_ok, refuse_ok, pure_ok] at hcount hcanon
      obtain ⟨_, -, _, hrange, _, hlong, k, hk, rfl⟩ := hcount
      obtain ⟨e, hdec, _, hpath, _, hxattrs, total, htotal, _, hbytes, hrest⟩ := hcanon
      obtain ⟨es, hes, hlen, hwithin⟩ := ih _ (by rw [length_drop]; omega) hk hrest rfl
      have hpayload := decodePayload_eq_ok.mp hdec
      have hfits : 4 + entryLength bytes ≤ bytes.length := by omega
      have hsize := length_entry hfits
      have hframe := eq_frame hfits
      have htotal := countXattrBytes_ok htotal
      refine ⟨e :: es, ?_, by rw [length_cons, hlen], ?_⟩
      · rw [hframe]
        exact .cons hpayload (ne_nil_of_length_pos (by omega)) hes
      · rintro e' he'
        rcases mem_cons.mp he' with rfl | he'
        · refine ⟨Nat.le_of_not_lt hpath, Nat.le_of_not_lt hxattrs, by omega, fun payload hp => ?_⟩
          rw [hpayload.encoded] at hp
          cases hp
          omega
        · exact hwithin e' he'

namespace BuilderSession

open Mutating

/-- The transitions of a session: what each one asks of the messages before it, and what it leaves. -/
inductive Accepts (sha256 : Bytes → Digest) (entries : Codec ManifestEntry) :
    BuilderSession → Direction → BuilderMessage → BuilderSession → Prop
  | hello {s : BuilderSession} {hello : BuilderHello} : s.state = .awaitHello →
    Accepts sha256 entries s .guestToHost (.hello hello)
      { s with observedTools := some hello.builderTools, acceptedPhysmemBytes := some hello.acceptedPhysmemBytes,
               state := .awaitStart }
  | start {s : BuilderSession} {start : BuilderStart} : s.state = .awaitStart →
    s.observedTools = some start.expectedTools →
    Accepts sha256 entries s .hostToGuest (.start start)
      { s with expectedTools := some start.expectedTools, originalUser := some start.originalUser,
               manifestSchema := some start.manifestSchema,
                 manifestLimits := some start.manifestLimits,
               state := .awaitManifestBegin }
  | begin {s : BuilderSession} {begin : ManifestBegin} : s.state = .awaitManifestBegin →
    Accepts sha256 entries s .guestToHost (.manifestBegin begin)
      { s with streamId := some begin.streamId, nextChunkSequence := 0, nextEntry := 0, byteCount := 0,
               manifestHasher := [], state := .streamingManifest }
  | chunk {s : BuilderSession} {chunk : ManifestChunk} {limits : ManifestLimits}
    {es : List ManifestEntry}
    {sequence : UInt64} : s.state = .streamingManifest → s.manifestLimits = some limits →
    chunk.firstEntry.toNat = s.nextEntry → chunk.bytes.length ≤ limits.maxChunkBytes.toNat →
    Framed entries chunk.bytes es → es.length = chunk.entryCount.toNat →
      (∀ e ∈ es, EntryWithin entries limits e) →
    s.nextEntry + es.length ≤ limits.maxEntries.toNat →
    s.byteCount + chunk.bytes.length ≤ limits.maxTotalBytes.toNat →
    Accepts sha256 entries s .guestToHost (.manifestChunk chunk)
      { s with manifestHasher := s.manifestHasher ++ chunk.bytes, nextChunkSequence := sequence,
               nextEntry := s.nextEntry + es.length, byteCount := s.byteCount + chunk.bytes.length,
               state := .streamingManifest }
  | fin {s : BuilderSession} {fin : ManifestEnd} : s.state = .streamingManifest →
    Accepts sha256 entries s .guestToHost (.manifestEnd fin)
      { s with manifestSha256 := some (hexDigest sha256 s.manifestHasher), state := .awaitAccountDb }
  | accountDb {s : BuilderSession} {accountDb : AccountDb} : s.state = .awaitAccountDb →
    Accepts sha256 entries s .guestToHost (.accountDb accountDb)
      { s with accountDbSha256 := some accountDb.sha256, state := .awaitDone }
  | done {s : BuilderSession} {done : BuilderDone} : s.state = .awaitDone →
    s.manifestSha256 = some done.manifestSha256 → done.entryCount.toNat = s.nextEntry →
    done.byteCount.toNat = s.byteCount → s.originalUser = some done.originalUser →
    s.accountDbSha256 = some done.accountDbSha256 → s.expectedTools = some done.observedTools →
    Accepts sha256 entries s .guestToHost (.done done) { s with state := .completed }
  | error {s : BuilderSession} {message : ErrorMessage} :
    Accepts sha256 entries s .guestToHost (.error message) { s with state := .failed }

variable {s s' : BuilderSession} {direction : Direction} {message : BuilderMessage}
  {sequence : UInt64}

theorem acceptChunk_ok {chunk : ManifestChunk} (hstate : s.state = .streamingManifest)
    (h : (acceptChunk entries chunk).run.run s = (.ok (), s')) :
    Accepts sha256 entries s .guestToHost (.manifestChunk chunk) s' := by
  unfold acceptChunk at h
  simp only [run_get_bind, run_check_bind, run_modify_bind, run_modify, refuse_ok, require_ok,
    checkedAdd_ok, not_not] at h
  obtain ⟨_, -, _, -, _, hfirst, limits, hlimits, _, hbytes, count, hcount, _, rfl, ⟨⟩, hcanon, _,
    ⟨-, rfl⟩, _, hentries, _, ⟨-, rfl⟩, _, htotal, next, -, rfl⟩ := h
  obtain ⟨es, hes, hlen, hwithin⟩ := framed_of_checks hcount hcanon
  rw [← hlen] at hentries ⊢
  rw [hstate]
  exact .chunk hstate hlimits hfirst (Nat.le_of_not_lt hbytes) hes hlen hwithin
    (Nat.le_of_not_lt hentries)
    (Nat.le_of_not_lt htotal)

theorem acceptStart_ok {start : BuilderStart} (hstate : s.state = .awaitStart)
    (h : (acceptStart start).run.run s = (.ok (), s')) :
    Accepts sha256 entries s .hostToGuest (.start start) s' := by
  unfold acceptStart at h
  simp only [run_get_bind, run_check_bind, run_modify, refuse_ok, require_ok, not_not] at h
  obtain ⟨observed, hobserved, _, rfl, _, -, rfl⟩ := h
  exact .start hstate hobserved

theorem acceptDone_ok {done : BuilderDone} (hstate : s.state = .awaitDone)
    (h : (acceptDone done).run.run s = (.ok (), s')) :
    Accepts sha256 entries s .guestToHost (.done done) s' := by
  unfold acceptDone at h
  simp only [run_get_bind, run_check_bind, run_modify, refuse_ok, not_or, not_not] at h
  obtain ⟨_, ⟨hmanifest, hentries, hbytes⟩, _, huser, _, haccounts, _, htools, rfl⟩ := h
  exact .done hstate hmanifest.symm hentries hbytes huser.symm haccounts.symm htools.symm

theorem acceptInner_ok (h : (acceptInner sha256 entries direction message).run.run s =
    (.ok (), s')) :
    Accepts sha256 entries s direction message s' := by
  unfold acceptInner at h
  rw [run_get_bind] at h
  split at h
  · next hstate =>
    rw [run_modify] at h
    subst h
    exact .hello hstate
  · next hstate => exact acceptStart_ok hstate h
  · next hstate =>
    unfold acceptBegin at h
    simp only [run_get_bind, run_check_bind, run_modify] at h
    obtain ⟨_, -, rfl⟩ := h
    exact .begin hstate
  · next hstate => exact acceptChunk_ok hstate h
  · next hstate =>
    unfold acceptEnd at h
    simp only [run_get_bind, run_check_bind, run_modify] at h
    obtain ⟨_, -, _, -, _, -, rfl⟩ := h
    exact .fin hstate
  · next hstate =>
    rw [run_modify] at h
    subst h
    exact .accountDb hstate
  · next hstate => exact acceptDone_ok hstate h
  all_goals first
    | rw [run_modify] at h
      subst h
      exact .error
    | exact absurd h run_check_error

theorem accept_ok (h : accept sha256 entries accounts s direction message sequence = (.ok (), s')) :
    sequence = s.nextSequence direction ∧ sequence.toNat + 1 < 2 ^ 64 ∧
      message.validate sha256 accounts = .ok () ∧
      ∃ next, Accepts sha256 entries s direction message next ∧
        s' = next.setSequence direction (sequence + 1) := by
  unfold accept at h
  split at h
  · cases h
  · next hseq =>
    split at h
    · cases h
    · next hvalid =>
      split at h
      · cases h
      · next next hinner =>
        split at h
        · cases h
        · next incremented hinc =>
          cases h
          rw [Protocol.nextSequence] at hinc
          split at hinc
          · next hlt =>
            cases hinc
            exact ⟨not_not.mp hseq, hlt, hvalid, next, acceptInner_ok hinner, rfl⟩
          · cases hinc

theorem accept_error {e : ProtocolError}
    (h : accept sha256 entries accounts s direction message sequence = (.error e, s')) :
    s' = s := by
  unfold accept at h
  split at h
  · cases h
    rfl
  · split at h
    · cases h
      rfl
    · split at h
      · cases h
        rfl
      · split at h
        · cases h
          rfl
        · cases h

end BuilderSession

end PocketVm.Protocol
