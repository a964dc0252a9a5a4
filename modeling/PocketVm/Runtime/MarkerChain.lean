import PocketVm.Runtime.HostBuilder
import PocketVm.Runtime.Merge

/-!
# Published images and their own guests

A guest runs an image only if the image's marker agrees with the START that the host makes from the
generation's specification. The marker is written by the builder guest and checked by the validator,
and commits and adjusts rewrite it in place. A commit takes the other fields of the marker from the
merged filesystem, which the run wrote: the result starts exactly when the run left those fields
alone.
-/

namespace PocketVm.Runtime

open Wire Checked Protocol Sparse List

section

variable {deps : Dependencies}

/-! ### The marker that START asks for -/

/-- The marker of a generation, by its specification and the digest of its account database. -/
def expectedMarker (sha256 : Bytes → Digest) (spec : GenerationSpec) (accounts : Digest) :
    GenerationMarker where
  schema := GENERATION_MARKER_SCHEMA
  derivationKey := hexEncode (spec.derivationKey sha256).asBytes
  profileId := spec.profileId.val
  profileRevision := hexEncode spec.profileRevision.asBytes
  descriptorPlatform := spec.descriptorPlatform.map protocolPlatform
  configPlatform := protocolPlatform spec.configPlatform
  effectivePlatform := protocolPlatform spec.effectivePlatform
  selectorPolicy := spec.selectorPolicyId.val
  rootLayout := spec.rootLayoutContract.val
  filesystemContract := spec.filesystemContract.val
  accountDbSha256 := hexEncode accounts.asBytes

theorem Digest.hex_of_display {d d' : Digest} (h : d.display = d'.display) :
    hexEncode d.asBytes = hexEncode d'.asBytes := by
  have := congrArg String.toList h
  simp only [Digest.display, String.toList_append, append_cancel_left_eq] at this
  exact String.toList_inj.mp this

section

variable {sha256 : Bytes → Digest} {profile : ProfileManifest} {image : Image}
  {options : RunOptions} {start : Start}

/-- START carries the fields of one marker, that of the generation. -/
theorem reconciled_iff (h : startWithLease sha256 profile image options = .ok start)
    (marker : GenerationMarker) :
    marker.schema = GENERATION_MARKER_SCHEMA ∧ Guest.Reconciled marker start ↔
      ∃ accounts, image.accountDigest = some accounts ∧
        marker = expectedMarker sha256 image.spec accounts := by
  unfold startWithLease validateGeneration compareGeneration buildStart at h
  simp only [bind_ok, stop_ok, not_not, require_ok, mapError_ok, pure_ok] at h
  obtain ⟨_, ⟨_, hid, _, hrevision, _, -, _, -, _, -, _, -, _, hselector, _, hlayout, hfilesystem⟩,
    accounts, haccounts, _, -, _, -, rfl⟩ := h
  have hrevision := Digest.hex_of_display hrevision
  constructor
  · rintro ⟨hschema, ⟨h1, h2, h3, h4, h5, h6, h7, h8, h9, h10⟩⟩
    refine ⟨accounts, haccounts, ?_⟩
    cases marker
    subst_vars
    rw [expectedMarker, ← hid, ← hrevision, ← hselector, ← hlayout, ← hfilesystem]
  · rintro ⟨accounts', haccounts', rfl⟩
    obtain rfl : accounts = accounts' := by
      rw [haccounts] at haccounts'
      exact Option.some.inj haccounts'
    exact ⟨rfl, rfl, hid.symm, hrevision.symm, rfl, rfl, rfl, hselector.symm, hlayout.symm,
      hfilesystem.symm, rfl⟩

end

/-- The file under the marker's path is the marker of the generation, no longer than a guest reads. -/
def Marked (deps : Dependencies) (image : Image) : Prop :=
  ∃ accounts bytes, image.accountDigest = some accounts ∧
    deps.mounted.file image.base GENERATION_MARKER_PATH = some bytes ∧
    bytes.length ≤ Guest.MAX_GENERATION_MARKER_BYTES ∧
    deps.marker.toVec (expectedMarker deps.sha256 image.spec accounts) = .ok bytes

variable {profile : ProfileManifest} {image : Image} {plan : Plan}

/-- Whether the guest accepts an image does not depend on the START, as long as there is one. -/
theorem verifyVolumeMarker_iff {options : RunOptions} {start : Start}
    (h : startWithLease deps.sha256 profile image options = .ok start) :
    Guest.verifyVolumeMarker deps.marker
      (deps.mounted.file image.base GENERATION_MARKER_PATH) start = .ok () ↔
      Marked deps image := by
  rw [Guest.verifyVolumeMarker_ok]
  constructor
  · rintro ⟨bytes, marker, hfile, hlen, henc, hmarker⟩
    obtain ⟨accounts, haccounts, rfl⟩ := (reconciled_iff h marker).mp hmarker
    exact ⟨accounts, bytes, haccounts, hfile, hlen, henc⟩
  · rintro ⟨accounts, bytes, haccounts, hfile, hlen, henc⟩
    exact ⟨bytes, _, hfile, hlen, henc, (reconciled_iff h _).mpr ⟨accounts, haccounts, rfl⟩⟩

/-! ### Sidecars -/

variable {entry : ImmutableSidecar × Bytes} {request : BuildRequest} {oci : VerifiedImage}
  {previous : GenerationSpec}
variable {contract : Digest} {image' : Bytes} {result : Nat} {source : Image}
  {holes : Holes source.base}

theorem sidecarOf_ok {name : String} {bytes : Bytes} (h : sidecarOf deps name bytes = .ok entry) :
    entry.1.name = name ∧ entry.1.digest = deps.sha256 bytes ∧ entry.2 = bytes ∧
      entry.1.size = UInt64.ofNat bytes.length := by
  unfold sidecarOf ImmutableSidecar.new at h
  simp only [bind_ok, mapError_ok, pure_ok] at h
  obtain ⟨sidecar, hnew, rfl⟩ := h
  split at hnew
  · cases hnew
    exact ⟨rfl, rfl, rfl, rfl⟩
  · cases hnew

def Recorded (deps : Dependencies) (sidecars : List (ImmutableSidecar × Bytes)) : Prop :=
  ∀ entry ∈ sidecars, entry.1.digest = deps.sha256 entry.2

theorem publish_ok (h : plan.publish deps = .ok image) :
    ∃ outputs, plan.outputs = .ok outputs ∧ image.spec = plan.spec ∧ image.base = outputs.base ∧
      image.sidecars = outputs.sidecars ∧ Recorded deps image.sidecars := by
  unfold Plan.publish Outputs.publish at h
  simp only [bind_ok, mapError_ok, stop_ok, pure_ok] at h
  obtain ⟨outputs, houtputs, _, -, _, -, _, hchecked, id, -, rfl⟩ := h
  refine ⟨outputs, houtputs, rfl, rfl, rfl, fun entry hentry => ?_⟩
  have := forM_ok hchecked entry hentry
  unfold checkSidecar at this
  simp only [bind_ok, stop_ok, not_not] at this
  obtain ⟨_, -, hdigest⟩ := this
  exact hdigest.symm

def accountDigestOf (sidecars : List (ImmutableSidecar × Bytes)) : Option Digest :=
  (sidecars.find? fun s => s.1.name == "accounts.cbor").map fun s => s.1.digest

theorem accountDigestOf_cons_of_name {rest : List (ImmutableSidecar × Bytes)}
    (h : entry.1.name = "accounts.cbor") :
    accountDigestOf (entry :: rest) = some entry.1.digest := by
  rw [accountDigestOf, find?_cons_of_pos (by simp [h])]
  rfl

theorem accountDigestOf_copied {sidecars copies : List (ImmutableSidecar × Bytes)}
    (hrecorded : Recorded deps sidecars)
    (h : (sidecars.mapM fun (sidecar, bytes) => sidecarOf deps sidecar.name bytes) = .ok copies) :
    accountDigestOf copies = accountDigestOf sidecars := by
  induction sidecars generalizing copies with
  | nil =>
    cases h
    rfl
  | cons entry rest ih =>
    simp only [mapM_cons, bind_ok, pure_ok] at h
    obtain ⟨copy, hcopy, copies', hcopies, rfl⟩ := h
    obtain ⟨hname, hdigest, -⟩ := sidecarOf_ok hcopy
    have hrest := ih (fun e he => hrecorded e (mem_cons_of_mem _ he)) hcopies
    have hsame : copy.1.digest = entry.1.digest := by rw [hdigest, hrecorded entry mem_cons_self]
    by_cases h : entry.1.name = "accounts.cbor"
    · rw [accountDigestOf_cons_of_name (hname.trans h), accountDigestOf_cons_of_name h, hsame]
    · unfold accountDigestOf at hrest ⊢
      rw [find?_cons_of_neg (by simp [hname, h]), find?_cons_of_neg (by simp [h])]
      exact hrest

/-! ### Building -/

theorem storePlatform_ok {platform : ImagePlatform} {p : PocketVm.Platform}
    (h : storePlatform platform = .ok p) :
    protocolPlatform p = platform.protocolPlatform := by
  unfold storePlatform at h
  simp only [bind_ok, mapError_ok] at h
  obtain ⟨_, -, hnew⟩ := h
  obtain ⟨hos, harch, hvariant⟩ := Platform.of_new hnew
  rw [protocolPlatform, hos, harch, hvariant, ImagePlatform.protocolPlatform]

/-- The builder's START and the specification of a build say the same. -/
theorem fromStart_prepared
    {prepared : PreparedBuild} (h : prepareBuild deps profile request oci = .ok prepared)
    (accounts : Digest) :
    GenerationMarker.fromStart prepared.start (hexEncode accounts.asBytes) =
      expectedMarker deps.sha256 prepared.spec accounts := by
  unfold prepareBuild imageSpec builderStart builderStartOf at h
  simp only [bind_ok, mapError_ok, stop_ok, not_not, pure_ok] at h
  obtain ⟨_, -, _, -, _, -, _, -, _, hselector, _, -, _, -, _, -, sizing, -, contract, -, spec,
    ⟨descriptor, hdescriptor, config, hconfig, effective, heffective, hspec⟩, requested, -,
      aliasKey, -, start,
    ⟨_, -, rfl⟩, rfl⟩ := h
  obtain ⟨h1, h2, h3, h4, h5, h6, h7, h8⟩ := GenerationSpec.of_new hspec
  have hdescriptor : descriptor.map protocolPlatform =
    oci.descriptorPlatform.map ImagePlatform.protocolPlatform := by
    cases hoci : oci.descriptorPlatform with
    | none =>
      rw [hoci] at hdescriptor
      cases hdescriptor
      rfl
    | some platform =>
      rw [hoci] at hdescriptor
      simp only [Option.mapM_some, map_ok] at hdescriptor
      obtain ⟨p, hp, rfl⟩ := hdescriptor
      exact congrArg some (storePlatform_ok hp)
  dsimp only [GenerationMarker.fromStart, expectedMarker]
  rw [h1, h2, h3, h4, h5, h6, h7, h8, hdescriptor, storePlatform_ok hconfig,
    storePlatform_ok heffective]

theorem build_marked {runs : GuestRuns} (hplan : build deps profile request oci runs = .ok plan)
    (himage : plan.publish deps = .ok image) : Marked deps image := by
  obtain ⟨outputs, houtputs, hspec, hbase, hsidecars, -⟩ := publish_ok himage
  unfold build at hplan
  simp only [bind_ok, pure_ok] at hplan
  obtain ⟨prepared, hprepared, rfl⟩ := hplan
  unfold buildTransaction loadAccountEvidence validatorStart validatorStartOf runValidator at houtputs
  simp only [bind_ok, mapError_ok, stop_ok, not_not, pure_ok, mapM_cons] at houtputs
  obtain ⟨accountDb, ⟨_, -, db, hdb, _, hsha, rfl⟩, _, -, _, -, _, -, start,
    ⟨_, -, rfl⟩, validation, ⟨markerSha256, hmarker, rfl⟩, evidence, -, record, -, sidecars,
      ⟨accounts, haccounts, rest, -, rfl⟩, rfl⟩ := houtputs
  obtain ⟨bytes, hfile, hlen, -, hcanonical⟩ := Guest.validateCandidateMarker_ok hmarker
  obtain ⟨hname, hdigest, -⟩ := sidecarOf_ok haccounts
  have hmarked := hcanonical.encoded
  rw [hsha, AccountDb.sha256_of_fromCanonicalBytes hdb, hexDigest,
    fromStart_prepared hprepared] at hmarked
  refine ⟨deps.sha256 runs.accounts, bytes,
    ?_, by rw [hbase]; exact hfile, hlen, by rw [hspec]; exact hmarked⟩
  show accountDigestOf image.sidecars = _
  rw [hsidecars, accountDigestOf_cons_of_name hname, hdigest]

/-! ### Rewriting the marker -/

theorem respecify_ok {spec : GenerationSpec} (h : respecify previous contract = .ok spec) :
    spec = { previous with buildContractDigest := contract } := by
  unfold respecify at h
  rw [GenerationSpec.new_self] at h
  exact (Except.ok.inj h).symm

/-- Only the key and the accounts tell the markers of a generation and of one derived from it apart. -/
theorem expectedMarker_respecified (accounts accounts' : Digest) :
    expectedMarker deps.sha256 { previous with buildContractDigest := contract } accounts' =
      { expectedMarker deps.sha256 previous accounts with
        derivationKey := hexEncode ((GenerationSpec.derivationKey deps.sha256
          { previous with buildContractDigest := contract }).asBytes)
        accountDbSha256 := hexEncode accounts'.asBytes } := rfl

theorem replaceMarker_ok (sound : deps.tools.Sound deps.mounted) {image : Bytes}
    {change : GenerationMarker → GenerationMarker} {reason : Nat → Nat → String}
    (h : replaceMarker deps image change reason = .ok image') :
    ∃ marker old new inode, deps.marker.toVec marker = .ok old ∧
      deps.marker.toVec (change marker) = .ok new ∧
      new.length = old.length ∧ deps.mounted.file image GENERATION_MARKER_PATH = some old ∧
      deps.mounted.inode image GENERATION_MARKER_PATH = some inode ∧
      deps.mounted.inode image' = deps.mounted.inode image ∧
        deps.mounted.content image' inode = new ∧
      ∀ other ≠ inode, deps.mounted.content image' other = deps.mounted.content image other := by
  unfold replaceMarker at h
  simp only [bind_ok, mapError_ok, stop_ok, not_not, decodePayload_eq_ok, encodePayload_eq_ok] at h
  obtain ⟨old, hread, marker, hmarker, new, hnew, _, hlen, hrewrite⟩ := h
  have hold := readGenerationMarker_ok sound hread
  obtain ⟨inode, hinode, h1, h2, h3⟩ := rewriteGenerationMarker_ok sound hold hlen hrewrite
  exact ⟨marker, old, new, inode, hmarker.encoded, hnew.encoded, hlen, hold, hinode, h1, h2, h3⟩

theorem file_of_replaced {image new : Bytes} {inode : Nat}
    (hinode : deps.mounted.inode image GENERATION_MARKER_PATH = some inode)
    (hsame : deps.mounted.inode image' = deps.mounted.inode image)
    (hnew : deps.mounted.content image' inode = new) :
    deps.mounted.file image' GENERATION_MARKER_PATH = some new := by
  rw [Ext4View.file, hsame, hinode, ← hnew]
  rfl

/-! ### Adjusting -/

theorem validateTargetSize_ok {bytes : Nat} (h : validateTargetSize bytes = .ok result) :
    result = bytes ∧ bytes % EXT4_BLOCK_BYTES = 0 := by
  unfold validateTargetSize at h
  simp only [bind_ok, stop_ok, not_not, pure_ok] at h
  obtain ⟨_, haligned, _, -, _, -, rfl⟩ := h
  exact ⟨rfl, haligned⟩

theorem declaredBytes_ok {blocks : Nat} {field reason : String}
    (h : declaredBytes blocks field reason = .ok result) :
    result = blocks * EXT4_BLOCK_BYTES := by
  unfold declaredBytes at h
  split at h
  · exact (Except.ok.inj h).symm
  · cases h

theorem adjust_marked (sound : deps.tools.Sound deps.mounted) {request : AdjustRequest}
    (hsource : Marked deps source)
    (hrecorded : Recorded deps source.sidecars)
    (hplan : adjustLeased deps profile source holes request = .ok plan)
    (himage : plan.publish deps = .ok image) : Marked deps image := by
  obtain ⟨accounts, bytes, haccounts, hfile, hlen, henc⟩ := hsource
  obtain ⟨outputs, houtputs, hspec, hbase, hsidecars, -⟩ := publish_ok himage
  unfold adjustLeased at hplan
  simp only [bind_ok, mapError_ok, pure_ok, CopyCalls.copySparse_reliable] at hplan
  obtain ⟨targetBytes, htarget, ⟨inodes, blocks⟩, hgeometry, sourceBytes, hsourceBytes, contract, -,
    spec, hrespecify, aliasKey, -, rfl⟩ := hplan
  obtain ⟨rfl, haligned⟩ := validateTargetSize_ok htarget
  obtain rfl := declaredBytes_ok hsourceBytes
  obtain rfl := respecify_ok hrespecify
  unfold adjustOutputs at houtputs
  simp only [bind_ok, mapError_ok, stop_ok, pure_ok] at houtputs
  obtain ⟨resized, hresized, staged, hreplace, _, -, _, -, _, -, _, -, copies, hcopies,
    rfl⟩ := houtputs
  have hsame := resizeInPlace_same sound hgeometry haligned hresized
  obtain ⟨marker, old, new, inode, hold, hnew, hlen', hfile', hinode, h1, h2, -⟩ :=
    replaceMarker_ok sound hreplace
  -- the marker that was decoded is the source's
  rw [hsame.file, hfile] at hfile'
  cases hfile'
  obtain rfl := Codec.toVec_inj henc hold
  refine ⟨accounts, new, ?_, ?_, by omega, ?_⟩
  · show accountDigestOf image.sidecars = some accounts
    rw [hsidecars, accountDigestOf_copied hrecorded hcopies]
    exact haccounts
  · rw [hbase]
    exact file_of_replaced hinode h1 h2
  · rw [hspec]
    exact hnew

/-! ### Committing -/

/-- The merged image's marker is, but for the two fields that a commit replaces, the source's, and
it is no longer than a guest reads. -/
def KeepsMarker (deps : Dependencies) (source merged : Bytes) : Prop :=
  ∃ marker marker' bytes bytes', deps.mounted.file source GENERATION_MARKER_PATH = some bytes ∧
    deps.marker.toVec marker = .ok bytes ∧
      deps.mounted.file merged GENERATION_MARKER_PATH = some bytes' ∧
    deps.marker.toVec marker' = .ok bytes' ∧ bytes'.length ≤ Guest.MAX_GENERATION_MARKER_BYTES ∧
    marker' = { marker with derivationKey := marker'.derivationKey, accountDbSha256 := marker'.accountDbSha256 }

theorem committed_order {accounts config record : ImmutableSidecar × Bytes}
    (h1 : accounts.1.name = "accounts.cbor") (h2 : config.1.name = "image-config.json")
    (h3 : record.1.name = "commit-record.json") :
    ([accounts, config, record].insertionSort fun a b => utf8 a.1.name ≤ utf8 b.1.name) = [accounts,
      record, config] := by
  simp only [insertionSort_cons, insertionSort_nil, orderedInsert_cons, orderedInsert_nil, h2, h3]
  rw [if_neg (by decide), orderedInsert_cons, if_pos (by rw [h1, h3]; decide)]

theorem commit_marked_iff (sound : deps.tools.Sound deps.mounted) {request : CommitRequest}
    {merged : Bytes}
    (hsource : Marked deps source) (hmerged : applyCow source.base request.overlay = .ok merged)
    (hplan : commit deps profile source holes request = .ok plan)
    (himage : plan.publish deps = .ok image) :
    Marked deps image ↔ KeepsMarker deps source.base merged := by
  obtain ⟨accounts, bytes, -, hfile, -, henc⟩ := hsource
  obtain ⟨outputs, houtputs, hspec, hbase, hsidecars, -⟩ := publish_ok himage
  unfold commit at hplan
  simp only [bind_ok, mapError_ok, pure_ok, CopyCalls.copySparse_reliable] at hplan
  obtain ⟨⟨inodes, blocks⟩, -, _, -, contract, -, spec, hrespecify, aliasKey, -, rfl⟩ := hplan
  obtain rfl := respecify_ok hrespecify
  unfold commitOutputs at houtputs
  simp only [bind_ok, mapError_ok, require_ok, pure_ok, hmerged, Except.ok.injEq,
    exists_eq_left'] at houtputs
  obtain ⟨_, -, accountBytes, -, accountsEntry, haccounts, staged, hreplace, _, -, configBytes, -,
    config, hconfig, recordBytes, -, record, hrecord, rfl⟩ := houtputs
  obtain ⟨haname, hadigest, -⟩ := sidecarOf_ok haccounts
  obtain ⟨marker, old, new, inode, hold, hnew, hlen, hfile', hinode, h1, h2, -⟩ :=
    replaceMarker_ok sound hreplace
  have hdigest : image.accountDigest = some (deps.sha256 accountBytes) := by
    show accountDigestOf image.sidecars = _
    rw [hsidecars, committed_order haname (sidecarOf_ok hconfig).1 (sidecarOf_ok hrecord).1,
      accountDigestOf_cons_of_name haname, hadigest]
  have hstaged : deps.mounted.file image.base GENERATION_MARKER_PATH = some new := by
    rw [hbase]
    exact file_of_replaced hinode h1 h2
  constructor
  · rintro ⟨accounts', bytes', haccounts', hfile'', hlen', henc'⟩
    rw [hstaged] at hfile''
    cases hfile''
    rw [hspec] at henc'
    have heq := Codec.toVec_inj henc' hnew
    rw [expectedMarker_respecified accounts] at heq
    refine ⟨_, marker, bytes, old, hfile, henc, hfile', hold, by omega, ?_⟩
    -- the two markers agree once the same key and accounts are put into both
    cases marker
    simp only [GenerationMarker.mk.injEq] at heq ⊢
    obtain ⟨e1, -, e3, e4, e5, e6, e7, e8, e9, e10, -⟩ := heq
    exact ⟨e1.symm, trivial, e3.symm, e4.symm, e5.symm, e6.symm, e7.symm, e8.symm, e9.symm,
      e10.symm, trivial⟩
  · rintro ⟨marker0, marker', bytes0, old', hfile0, henc0, hfile'', hold', hlen', heq⟩
    rw [hfile] at hfile0
    cases hfile0
    obtain rfl := Codec.toVec_inj henc henc0
    rw [hfile'] at hfile''
    cases hfile''
    obtain rfl := Codec.toVec_inj hold hold'
    refine ⟨_, new, hdigest, hstaged, by omega, ?_⟩
    rw [hspec, expectedMarker_respecified accounts, ← hnew]
    rw [heq]

/-! ### Chains -/

/-- The generations that builds publish, and commits and adjusts on top of them. `admitted`
restricts what a commit may find in the merged image, next to its source's base. -/
inductive Published (deps : Dependencies) (admitted : Bytes → Bytes → Prop) : Image → Prop
  | build {profile : ProfileManifest} {request : BuildRequest} {oci : VerifiedImage}
    {runs : GuestRuns} {plan : Plan}
      {image : Image} : build deps profile request oci runs = .ok plan →
      plan.publish deps = .ok image → Published deps admitted image
  | commit {source : Image} {profile : ProfileManifest} {holes : Holes source.base}
    {request : CommitRequest}
      {merged : Bytes} {plan : Plan} {image : Image} : Published deps admitted source →
      applyCow source.base request.overlay = .ok merged → admitted source.base merged →
      commit deps profile source holes request = .ok plan → plan.publish deps = .ok image →
      Published deps admitted image
  | adjust {source : Image} {profile : ProfileManifest} {holes : Holes source.base}
    {request : AdjustRequest}
      {plan : Plan} {image : Image} : Published deps admitted source →
      adjustLeased deps profile source holes request = .ok plan → plan.publish deps = .ok image →
      Published deps admitted image

theorem Published.recorded {admitted : Bytes → Bytes → Prop} (h : Published deps admitted image) :
    Recorded deps image.sidecars := by
  rcases h with ⟨-, himage⟩ | ⟨-, -, -, -, himage⟩ | ⟨-, -, himage⟩
  · obtain ⟨_, -, -, -, -, h⟩ := publish_ok himage
    exact h
  · obtain ⟨_, -, -, -, -, h⟩ := publish_ok himage
    exact h
  · obtain ⟨_, -, -, -, -, h⟩ := publish_ok himage
    exact h

theorem Published.marked (sound : deps.tools.Sound deps.mounted)
    (h : Published deps (KeepsMarker deps) image) : Marked deps image := by
  induction h with
  | build hplan himage => exact build_marked hplan himage
  | commit _ hmerged hkeeps hplan himage ih =>
    exact (commit_marked_iff sound ih hmerged hplan himage).mpr hkeeps
  | adjust hsource hplan himage ih => exact adjust_marked sound ih hsource.recorded hplan himage

/-- Every generation of a chain of builds, commits and adjusts is accepted by the guest of every run
of it, as long as no committed run changed the marker's other fields; and where one did, its commit
is published and then refused. -/
theorem published_image_starts (deps : Dependencies) (sound : deps.tools.Sound deps.mounted) :
    (∀ {image : Image}, Published deps (KeepsMarker deps) image →
      (∃ bytes marker, deps.mounted.file image.base GENERATION_MARKER_PATH = some bytes ∧
        Guest.decodeGenerationMarker deps.marker bytes = .ok marker) ∧
      ∀ {profile : ProfileManifest} {options : RunOptions} {start : Start},
        startWithLease deps.sha256 profile image options = .ok start →
        Guest.verifyVolumeMarker deps.marker
          (deps.mounted.file image.base GENERATION_MARKER_PATH) start = .ok ()) ∧
    ∀ {source : Image} {profile profile' : ProfileManifest} {holes : Holes source.base}
    {request : CommitRequest}
      {merged : Bytes} {plan : Plan} {image : Image} {options : RunOptions} {start : Start},
      Published deps (KeepsMarker deps) source → applyCow source.base request.overlay = .ok merged →
      commit deps profile source holes request = .ok plan → plan.publish deps = .ok image →
      startWithLease deps.sha256 profile' image options = .ok start →
      (Guest.verifyVolumeMarker deps.marker (deps.mounted.file image.base GENERATION_MARKER_PATH) start = .ok () ↔
        KeepsMarker deps source.base merged) := by
  refine ⟨fun {image} h => ?_, fun h hmerged hplan himage hstart => ?_⟩
  · have hmarked := h.marked sound
    refine ⟨?_, fun hstart => (verifyVolumeMarker_iff hstart).mpr hmarked⟩
    obtain ⟨accounts, bytes, -, hfile, hlen, henc⟩ := hmarked
    exact ⟨bytes, _, hfile, Guest.decodeGenerationMarker_ok.mpr ⟨hlen, henc⟩⟩
  · rw [verifyVolumeMarker_iff hstart]
    exact commit_marked_iff sound (h.marked sound) hmerged hplan himage

/-- The key of an adjusted image does not say which image was adjusted: a commit and its source,
with as many inodes, get one specification when they are adjusted to one size. -/
theorem adjusted_commit_shares_key {committer : ProfileManifest} {change : CommitRequest}
    {request : AdjustRequest} {holes' : Holes image.base}
    {adjusted adjusted' : Plan} (hcommit : commit deps committer source holes change = .ok plan)
    (himage : plan.publish deps = .ok image)
    (hinodes : (ext4Geometry image.base).map Prod.fst = (ext4Geometry source.base).map Prod.fst)
    (h : adjustLeased deps profile source holes request = .ok adjusted)
    (h' : adjustLeased deps profile image holes' request = .ok adjusted') :
    adjusted'.spec = adjusted.spec := by
  obtain ⟨_, -, hspec, -⟩ := publish_ok himage
  unfold commit at hcommit
  unfold adjustLeased at h h'
  simp only [bind_ok, mapError_ok, pure_ok] at hcommit h h'
  obtain ⟨_, -, _, -, _, -, _, hcommitted, _, -, rfl⟩ := hcommit
  obtain ⟨_, htarget, ⟨_, _⟩, hgeometry, _, -, _, hcontract, _, hplan, _, -, rfl⟩ := h
  obtain ⟨_, htarget', ⟨_, _⟩, hgeometry', _, -, _, hcontract', _, hplan', _, -, rfl⟩ := h'
  -- the contract binds the size and the inodes alone
  cases htarget.symm.trans htarget'
  rw [hgeometry, hgeometry'] at hinodes
  cases hinodes
  cases hcontract.symm.trans hcontract'
  rw [respecify_ok hplan', respecify_ok hplan, hspec, respecify_ok hcommitted]

end

/-! ### A build and two commits of it -/

namespace DiskSample

def value {ε α : Type} : (r : Except ε α) → r.isOk = true → α
  | .ok a, _ => a

theorem eq_ok_value {ε α : Type} {r : Except ε α} (h : r.isOk = true) : r = .ok (value r h) := by
  cases r with
  | ok a => rfl
  | error e => cases h

/-! ### Disks -/

/-- A digest for evaluation: of the length and the first two kilobytes. -/
def digestOf (length : Nat) (start : Bytes) : Digest :=
  ⟨BitVec.ofNat 256 (length * 65536 + start.foldl (fun n b => (n * 257 + b.toNat) % 65521) 7)⟩

def sha256 (bytes : Bytes) : Digest := digestOf bytes.length (bytes.take 2048)

def sector (b : UInt8) : Bytes := b :: List.replicate 511 0

def superblock : Bytes :=
  [0, 0, 1, 0, 0, 0, 0x20, 0] ++ List.replicate 16 0 ++ [2] ++ List.replicate 31 0 ++
    [0x53, 0xef, 1] ++
    List.replicate 45 0 ++ [1] ++ List.replicate 919 0

/-- A disk of 8 GiB whose first two sectors hold the marker and one other file. -/
def disk (marker file : UInt8) : Bytes :=
  sector marker ++ (sector file ++ (superblock ++ List.replicate (2 ^ 33 - 2048) 0))

variable {m c b : UInt8}

theorem length_sector : (sector b).length = 512 := by
  rw [sector, length_cons, length_replicate]

theorem length_superblock : superblock.length = 1024 := by decide +kernel

theorem length_disk : (disk m c).length = 2 ^ 33 := by
  simp only [disk, length_append, length_sector, length_superblock, length_replicate]
  norm_num

theorem superblockOf_disk : superblockOf (disk m c) = superblock := by
  rw [superblockOf, disk, slice_append_right (by rw [length_sector]; decide),
    slice_append_right (by simp only [length_sector]; decide), length_sector, length_sector,
    slice_append_left (by rw [length_superblock]; decide)]
  exact slice_full (by rw [length_superblock]; rfl)

theorem ext4Geometry_disk : ext4Geometry (disk m c) = .ok (65536, 2 ^ 21) := by
  unfold ext4Geometry validateExt4Base
  rw [superblockOf_disk, length_disk]
  decide +kernel

def diskDigest (marker file : UInt8) :
    Digest := digestOf (2 ^ 33) (sector marker ++ (sector file ++ superblock))

theorem sha256_disk : sha256 (disk m c) = diskDigest m c := by
  have htake : (disk m c).take 2048 = sector m ++ (sector c ++ superblock) := by
    rw [disk, ← append_assoc (sector c), ← append_assoc (sector m)]
    exact take_left' (by simp only [length_append, length_sector, length_superblock])
  rw [sha256, length_disk, htake, diskDigest]

theorem overwrite_marker : overwrite (disk m c) 0 [b] = disk b c := by
  rw [disk, disk, sector, sector, cons_append, cons_append]
  exact @overwrite_start [m] [b] _ rfl

theorem overwrite_first : overwrite (disk m c) 0 (sector b) = disk b c := by
  rw [disk, disk, overwrite_start (by rw [length_sector, length_sector])]

theorem overwrite_second : overwrite (disk m c) 512 (sector b) = disk m b := by
  rw [disk, disk, overwrite_at length_sector.symm (by rw [length_sector, length_sector])]

/-! ### Overlays -/

def cowHeader : Bytes :=
  [0x4f, 0x4f, 0x4f, 0x4d, 0, 0, 0, 3, 0, 0, 0, 0, 0, 0, 0, 2, 0, 0, 0, 0, 0, 0, 2, 0, 0, 0, 0x10,
    0, 0, 0, 0, 0] ++
    List.replicate 8160 0

def bitmap (bits : UInt8) : Bytes := bits :: List.replicate (2 ^ 21 - 1) 0

def layout : CowLayout := ⟨512, 2 ^ 24, 8192, 8192 + 2 ^ 21⟩

theorem length_cowHeader : cowHeader.length = 8192 := by
  rw [cowHeader, length_append, length_replicate]
  rfl

theorem length_bitmap {bits : UInt8} : (bitmap bits).length = 2 ^ 21 := by
  rw [bitmap, length_cons, length_replicate]
  norm_num

theorem sectorChanged_bitmap {bits : UInt8} {index : Nat} :
    sectorChanged (bitmap bits) index = (decide (index < 8) && bits.toNat.testBit index) := by
  rw [sectorChanged, bitmap]
  by_cases h : index < 8
  · rw [Nat.div_eq_of_lt h, Nat.mod_eq_of_lt h, getElem?_cons_zero, Option.any_some,
      decide_eq_true h, Bool.true_and]
  · obtain ⟨k, hk⟩ : ∃ k, index / 8 = k + 1 := ⟨index / 8 - 1, by omega⟩
    rw [hk, getElem?_cons_succ, getElem?_replicate]
    split <;> simp [h]

theorem applyCow_sector {image data : Bytes} {bits : UInt8} {index : Nat} (hindex : index < 8)
    (hbits : ∀ i < 8, bits.toNat.testBit i = decide (i = index))
    (hdata : index * 512 + 512 ≤ data.length) :
    applyCow image (cowHeader ++ (bitmap bits ++ data)) =
      .ok (overwrite image (index * 512) (slice data (index * 512) 512)) := by
  have hheader : readExact (cowHeader ++ (bitmap bits ++ data)) 0 COW_HEADER_BYTES "read overlay header" "overlay" =
      .ok (slice (cowHeader) 0 COW_HEADER_BYTES) := by
    have hle : 0 + COW_HEADER_BYTES ≤ cowHeader.length := by
      rw [length_cowHeader]
      decide
    rw [readExact, if_pos (by rw [length_append]; omega), slice_append_left hle]
  have hlayout : cowLayout (slice (cowHeader) 0 COW_HEADER_BYTES) = .ok layout := by decide +kernel
  have hbitmap : readExact (cowHeader ++ (bitmap bits ++ data)) layout.bitmapOffset
    (divCeil layout.sectors 8)
      "read overlay bitmap" "overlay" = .ok (bitmap bits) := by
    have hlen : divCeil layout.sectors 8 = (bitmap bits).length := by
      rw [length_bitmap]
      rfl
    have hoffset : layout.bitmapOffset = cowHeader.length := length_cowHeader.symm
    rw [readExact, hlen, hoffset, if_pos (by simp only [length_append]; omega),
      slice_append_right le_rfl, Nat.sub_self, slice_append_left (by omega), slice_full rfl]
  have hsector : readExact (cowHeader ++ (bitmap bits ++ data))
    (layout.dataOffset + index * layout.sectorBytes)
      layout.sectorBytes "read overlay sector" "overlay" = .ok (slice data (index * 512) 512) := by
    have hoffset : layout.dataOffset = cowHeader.length + (bitmap bits).length := by
      rw [length_cowHeader, length_bitmap]
      rfl
    have hbytes : layout.sectorBytes = 512 := rfl
    rw [readExact, hoffset, hbytes, if_pos (by simp only [length_append]; omega),
      slice_append_right (by omega), slice_append_right (by omega), Nat.add_assoc,
        Nat.add_sub_cancel_left, Nat.add_sub_cancel_left]
  have hchanged : ∀ i, sectorChanged (bitmap bits) i = decide (i = index) := by
    intro i
    rw [sectorChanged_bitmap]
    by_cases h : i < 8
    · rw [decide_eq_true h, Bool.true_and, hbits i h]
    · rw [decide_eq_false h, Bool.false_and, eq_comm, decide_eq_false_iff_not]
      omega
  have hmem : index ∈ List.range layout.sectors := mem_range.mpr (lt_trans hindex (by decide))
  unfold applyCow
  simp only [bind_ok, stop_ok, pure_ok]
  have hwrap : layout.dataOffset + index * layout.sectorBytes < 2 ^ 64 := by
    show 8192 + 2 ^ 21 + index * 512 < 2 ^ 64
    omega
  exact ⟨_, hheader, layout, hlayout, _, hbitmap, _,
    applySectors_one nodup_range hmem hchanged hwrap hsector, (),
    by simp, rfl⟩

/-! ### The helpers -/

def mounted : Ext4View where
  inode _ path := if path = GENERATION_MARKER_PATH then some 0 else none
  content image inode := if inode = 0 then [image.getD 0 0] else []

def tools : E2fs where
  dump image path := .ok (mounted.file image path)
  blocks _ _ := .ok "0\n"
  e2fsck _ := .ok ()
  resize2fs image blocks :=
    if (ext4Geometry image).map Prod.snd = .ok blocks then
      .ok image else .error (.io "run resize2fs" "resize2fs")

theorem file_disk : mounted.file (disk m c) GENERATION_MARKER_PATH = some [m] := rfl

theorem tools_sound : tools.Sound mounted where
  dump h := (Except.ok.inj h).symm
  blocks {image image' marker listing inode} hinode hlen hlisting hwrite := by
    obtain rfl : 0 = inode := Option.some.inj hinode
    obtain ⟨b, rfl⟩ := length_eq_one_iff.mp hlen
    obtain rfl := Except.ok.inj hlisting
    have hlisted : listedBlocks "0\n" = [0] := by decide +kernel
    rw [hlisted] at hwrite
    obtain rfl : overwrite image 0 [b] = image' := Except.ok.inj hwrite
    refine ⟨rfl, ?_, fun other hother => ?_⟩
    · show [(overwrite image 0 [b]).getD 0 0] = [b]
      rw [getD_overwrite, if_pos (by simp)]
      rfl
    · simp only [mounted, if_neg hother]
  resize2fs {image image' blocks} h := by
    unfold tools at h
    dsimp only at h
    split at h
    · next hgeometry =>
      cases h
      cases hok : ext4Geometry image with
      | error e =>
        rw [hok] at hgeometry
        cases hgeometry
      | ok geometry =>
        rw [hok] at hgeometry
        cases hgeometry
        exact ⟨.refl, geometry.1, rfl⟩
    · cases h
  extent {image inodes blocks length} hgeometry hlength := by
    have hblocks : blocks ≠ 0 := by
      unfold ext4Geometry at hgeometry
      simp only [bind_ok, stop_ok, pure_ok, not_or] at hgeometry
      obtain ⟨_, -, _, hne, heq⟩ := hgeometry
      cases heq
      exact hne.2
    have hlt : 0 < length := lt_of_lt_of_le (Nat.mul_pos (Nat.pos_of_ne_zero hblocks)
      (by decide)) hlength
    refine ⟨rfl, funext fun inode => ?_⟩
    simp only [mounted, resize, getD_takeD, if_pos hlt]

/-! ### A build -/

def json {α : Type} (tag : UInt8) (codec : Codec α) : Json α where
  toVec x := (codec.toVec x).map (tag :: ·)
  fromSlice bytes := (codec.decode bytes.tail).map Prod.fst
  fromSlice_toVec {x bytes} h := by
    obtain ⟨text, htext, rfl⟩ := map_ok.mp h
    rw [tail_cons, codec.decode_toVec htext]
    rfl

def profile : ProfileManifest where
  profileId := "x86_64-smp-p4k"
  profileRevision := ⟨1⟩
  ociOs := "linux"
  ociArchitecture := "amd64"
  acceptedOciVariants := [none]
  builderMemoryBytes := 768 * 1024 * 1024
  validatorMemoryBytes := 256 * 1024 * 1024
  contracts := ⟨"native-amd64-v1", "rootfs-v1", "ext4-v1-b4096"⟩
  builder := ⟨"pocket-fs-manifest-v1", [Protocol.Sample.tool], 1786940622⟩
  validatorManifestSchema := "pocket-fs-manifest-v1"
  artifacts := ⟨⟨2⟩, ⟨3⟩, ⟨4⟩, ⟨5⟩, ⟨6⟩, ⟨7⟩, ⟨8⟩⟩

def platform : ImagePlatform := ⟨"linux", "amd64", none, none, [], []⟩

def oci : VerifiedImage where
  manifestDigest := ⟨9⟩
  manifestSize := 500
  manifestMediaType := "application/vnd.oci.image.manifest.v1+json"
  configDigest := ⟨10⟩
  configSize := 2
  configMediaType := "application/vnd.oci.image.config.v1+json"
  configBytes := [0x7b, 0x7d]
  descriptorPlatform := some platform
  configPlatform := platform
  effectivePlatform := platform
  selectorPolicy := "native-amd64-v1"
  layers := [⟨⟨11⟩, ⟨12⟩, 300, 512, "application/vnd.oci.image.layer.v1.tar+gzip"⟩]
  user := "0"

def request : BuildRequest := ⟨"example", none⟩

def sizing : FilesystemSizing := value (targetSizing oci MAX_MANIFEST_ENTRIES) (by decide +kernel)

def spec : GenerationSpec := value (imageSpec profile oci (sha256 [0, 0])) (by decide +kernel)

def key : DerivationKey := ⟨23752005⟩

theorem derivationKey_spec : spec.derivationKey sha256 = key := by decide +kernel

def baseDigest : Digest := ⟨562949953453512⟩

theorem sha256_base : sha256 (disk 0 0) = baseDigest := by
  rw [sha256_disk]
  decide +kernel

def accountsDigest : Digest := ⟨1691109⟩

theorem sha256_accounts : sha256 Protocol.Sample.databaseBytes = accountsDigest := by decide +kernel

def marker : GenerationMarker where
  schema := GENERATION_MARKER_SCHEMA
  derivationKey := hexEncode key.asBytes
  profileId := "x86_64-smp-p4k"
  profileRevision := hexEncode profile.profileRevision.asBytes
  descriptorPlatform := some Protocol.Sample.platform
  configPlatform := Protocol.Sample.platform
  effectivePlatform := Protocol.Sample.platform
  selectorPolicy := "native-amd64-v1"
  rootLayout := "rootfs-v1"
  filesystemContract := "ext4-v1-b4096"
  accountDbSha256 := hexEncode accountsDigest.asBytes

/-- What the merged disk of a commit says, after a run that changed the marker and after one that
did not. -/
def mergedMarker : Bool → GenerationMarker
  | true => { marker with selectorPolicy := "native-amd64-v2" }
  | false => marker

def committedSpec (tampers : Bool) : GenerationSpec :=
  { spec with buildContractDigest := sha256 [1, if tampers then 0 else 1] }

def committedKey (tampers : Bool) : DerivationKey := if tampers then ⟨23752263⟩ else ⟨23752264⟩

theorem derivationKey_committed (tampers : Bool) :
    (committedSpec tampers).derivationKey sha256 = committedKey tampers := by
  cases tampers <;> decide +kernel

def committedMarker (tampers : Bool) : GenerationMarker :=
  { mergedMarker tampers with derivationKey := hexEncode (committedKey tampers).asBytes }

def adjustedKey : DerivationKey := ⟨23752006⟩

def adjustedMarker :
    GenerationMarker := { marker with derivationKey := hexEncode adjustedKey.asBytes }

def done : BuilderDone := { Protocol.Sample.done with
  generationMarkerSha256 := hexDigest sha256 [0]
  originalUser := "0"
  accountDbSha256 := hexEncode accountsDigest.asBytes }

def runs (base : Bytes) : GuestRuns where
  base
  targetBytes := 2 ^ 33
  targetUuid := "00000000-0000-0000-0000-000000000001"
  metadataManifest := [1]
  accounts := Protocol.Sample.databaseBytes
  done
  challenge := Protocol.Sample.digest 'b'
  observed := {
    manifestSha256 := done.manifestSha256
    manifestEntryCount := 1
    manifestByteCount := 32
    generationMarkerSha256 := hexDigest sha256 [0]
    accountDbSha256 := done.accountDbSha256
    filesystemUuid := "00000000-0000-0000-0000-000000000001"
    filesystemBytes := 8589934592
    cleanBeforeMount := true
    blockDeviceReadOnly := true
    mountedReadOnly := true
    unmounted := true
    cleanAfterUnmount := true }
  evidenceSha256 := Protocol.Sample.digest 'c'
  log := [10]

def validation : ValidatorDone := ⟨0, (runs []).challenge, (runs []).observed,
    (runs []).evidenceSha256⟩

def record : BuildRecord where
  derivationKey := key.display
  baseSha256 := baseDigest.display
  baseSize := 8589934592
  generationMarkerSha256 := hexDigest sha256 [0]
  targetSizeBytes := 2 ^ 33
  validationGenerationMarkerSha256 := hexDigest sha256 [0]
  validationFilesystemBytes := 8589934592

def buildDeps : Dependencies where
  sha256
  marker := .table [marker, mergedMarker true, committedMarker true, committedMarker false,
    adjustedMarker] (by decide)
  accounts := Protocol.Sample.accounts
  validatorDone := .single validation [0]
  buildContract := json 0 (.table [buildContractRecord profile sizing,
    buildContractRecord profile ⟨⟨2 ^ 33, 65536⟩, none⟩] (by decide))
  commitContract := json 1 (.table [] (by decide))
  commitRecord := json 2 (.table [] (by decide))
  buildRecord := json 3 (.single record [0])
  tools
  mounted

def sidecars : List (ImmutableSidecar × Bytes) :=
  value ([("accounts.cbor", Protocol.Sample.databaseBytes),
    ("artifact.digest", utf8 (baseDigest.display ++ "\n")), ("build-record.json", [3, 0, 10]),
      ("build.log", [10]), ("image-config.json", [0x7b, 0x7d]),
    ("metadata.manifest", [1]), ("validation-evidence.cbor", [0])].mapM fun entry =>
      sidecarOf buildDeps entry.1 entry.2) (by decide +kernel)

def builtId : GenerationId :=
  value (GenerationId.derive sha256 key baseDigest 8589934592 (sidecars.map Prod.fst))
    (by decide +kernel)

def built : Image := ⟨builtId, spec, disk 0 0, sidecars⟩

def overlay : Bool → Bytes
  | true => cowHeader ++ (bitmap 1 ++ sector 1)
  | false => cowHeader ++ (bitmap 2 ++ (sector 0 ++ sector 1))

def merged : Bool → Bytes
  | true => disk 1 0
  | false => disk 0 1

theorem applyCow_overlay (tampers : Bool) :
    applyCow (disk 0 0) (overlay tampers) = .ok (merged tampers) := by
  cases tampers with
  | true =>
    have hdata : slice (sector 1) (0 * 512) 512 = sector 1 := slice_full length_sector.symm
    have hmerged := @applyCow_sector (disk 0 0) (sector 1) 1 0 (by decide) (by decide)
      (by rw [length_sector])
    rw [hdata, Nat.zero_mul, overwrite_first] at hmerged
    exact hmerged
  | false =>
    have hdata : slice (sector 0 ++ sector 1) (1 * 512) 512 = sector 1 := by
      rw [slice_append_right length_sector.le, length_sector]
      exact slice_full length_sector.symm
    have hmerged := @applyCow_sector (disk 0 0) (sector 0 ++ sector 1) 2 1 (by decide) (by decide)
      (by rw [length_append, length_sector, length_sector])
    rw [hdata, Nat.one_mul, overwrite_second] at hmerged
    exact hmerged

def overlayDigest : Bool → Digest
  | true => digestOf (8192 + (2 ^ 21 + 512)) (cowHeader.take 2048)
  | false => digestOf (8192 + (2 ^ 21 + (512 + 512))) (cowHeader.take 2048)

theorem sha256_overlay (tampers : Bool) : sha256 (overlay tampers) = overlayDigest tampers := by
  have htake : ∀ rest : Bytes, (cowHeader ++ rest).take 2048 = cowHeader.take 2048 := fun rest =>
    take_append_of_le_length (by rw [length_cowHeader]; decide)
  cases tampers <;>
    simp only [sha256, overlay, overlayDigest, htake, length_append, length_cowHeader,
      length_bitmap, length_sector]

def commitRequest (tampers : Bool) : CommitRequest := ⟨overlay tampers, "run", "committed"⟩

def deps : Dependencies := { buildDeps with
  commitContract := json 1 (.table [commitContractRecord profile builtId (overlayDigest true),
    commitContractRecord profile builtId (overlayDigest false)] (by decide))
  commitRecord := json 2 (.table [
    committedRecord built (commitRequest true) (overlayDigest true),
    committedRecord built (commitRequest false) (overlayDigest false)] (by decide)) }

theorem validateExt4Base_disk : validateExt4Base (disk m c) = .ok () := by
  have h := @ext4Geometry_disk m c
  unfold ext4Geometry at h
  simp only [bind_ok] at h
  exact h.choose_spec.1

theorem publish_disk {digest : Digest} {spec : GenerationSpec}
    {sidecars : List (ImmutableSidecar × Bytes)}
    {id : GenerationId} (hdigest : sha256 (disk m c) = digest)
    (hsidecars : validateCanonicalSidecars (sidecars.map Prod.fst) = .ok ())
    (hchecked : sidecars.forM (checkSidecar deps) = .ok ())
    (hid : GenerationId.derive sha256 (spec.derivationKey sha256) digest 8589934592
      (sidecars.map Prod.fst) = .ok id) :
    (Outputs.publish deps ⟨disk m c, digest, sidecars⟩ spec) = .ok ⟨id, spec, disk m c,
      sidecars⟩ := by
  unfold Outputs.publish
  simp only [bind_ok, mapError_ok, stop_ok, pure_ok, not_not]
  refine ⟨(), hsidecars, (), hdigest, (), hchecked, id, ?_, rfl⟩
  rw [show deps.sha256 = sha256 from rfl, hdigest, length_disk]
  exact hid

def aliasKey : AliasKey := value (resultAlias profile spec "example") (by decide +kernel)

def prepared : PreparedBuild := ⟨oci, spec, aliasKey, builderStartOf profile oci key, sizing⟩

theorem prepareBuild_oci : prepareBuild deps profile request oci = .ok prepared := by
  have hcontract : buildContractDigest deps profile sizing = .ok (sha256 [0, 0]) := by
    decide +kernel
  have hstart : builderStart profile oci key = .ok (builderStartOf profile oci key) :=
    bind_ok.mpr ⟨(), by decide +kernel, rfl⟩
  unfold prepareBuild
  simp only [bind_ok, stop_ok, pure_ok, mapError_ok, not_not]
  refine ⟨(), by decide +kernel, (), by decide +kernel, (), by decide +kernel, (), by decide +kernel, (), by decide +kernel,
    (), by decide +kernel, (), by decide +kernel, (), by decide +kernel, sizing, eq_ok_value _, sha256 [0, 0], hcontract,
    spec, eq_ok_value _, spec.effectivePlatform, by decide +kernel, aliasKey, by decide +kernel, _, ?_, rfl⟩
  rw [show deps.sha256 = sha256 from rfl, derivationKey_spec]
  exact hstart

def accountDb : AccountDb :=
  ⟨ACCOUNT_DB_SCHEMA, 25, hexEncode accountsDigest.asBytes, Protocol.Sample.databaseBytes⟩

def startOfValidator : ValidatorStart :=
  { validatorStartOf deps profile prepared (runs []) accountDb with expectedFilesystemBytes := 8589934592 }

theorem buildTransaction_base {base : Bytes} (hlength : base.length = 2 ^ 33)
    (hdigest : sha256 base = baseDigest)
    (hext4 : validateExt4Base base = .ok ())
    (hfile : mounted.file base GENERATION_MARKER_PATH = some [0]) :
    buildTransaction deps profile prepared (runs base) = .ok ⟨base, baseDigest, sidecars⟩ := by
  have hsha : deps.sha256 = sha256 := rfl
  have hmounted : deps.mounted.file (runs base).base GENERATION_MARKER_PATH = some [0] := hfile
  have hsize : UInt64.ofNat base.length = 8589934592 := by
    rw [hlength]
    rfl
  have hkey : prepared.spec.derivationKey sha256 = key := derivationKey_spec
  have hrecord : builtRecord sha256 prepared (runs base) validation = record := by
    show (⟨(prepared.spec.derivationKey sha256).display, (sha256 base).display,
      UInt64.ofNat base.length, _, _, _, _⟩ : BuildRecord) = _
    rw [hkey, hdigest, hsize]
    rfl
  have haccounts : loadAccountEvidence deps Protocol.Sample.databaseBytes done = .ok accountDb := by
    decide +kernel
  have hstartOf : validatorStartOf deps profile prepared (runs base) accountDb =
    startOfValidator := by
    show { startOfValidator with expectedFilesystemBytes := UInt64.ofNat base.length } =
      startOfValidator
    rw [hsize]
    rfl
  have hstart : validatorStart deps profile prepared (runs base) accountDb =
    .ok startOfValidator := by
    unfold validatorStart
    rw [hstartOf]
    exact bind_ok.mpr ⟨(), by decide +kernel, rfl⟩
  have hvalidated : runValidator deps startOfValidator (runs base) = .ok validation := by
    unfold runValidator
    rw [hmounted]
    exact bind_ok.mpr ⟨hexDigest sha256 [0], by decide +kernel, rfl⟩
  have hevidence : encodePayload deps.validatorDone ValidatorDone.validate validation =
    .ok [0] := by
    decide +kernel
  have hbytes : buildRecord deps prepared (runs base) validation = .ok [3, 0, 10] := by
    unfold buildRecord
    rw [hsha, hrecord]
    decide +kernel
  have hsidecars : ([("accounts.cbor", Protocol.Sample.databaseBytes),
    ("artifact.digest", artifactDigest deps base),
      ("build-record.json", [3, 0, 10]), ("build.log", [10]), ("image-config.json", [0x7b, 0x7d]),
      ("metadata.manifest", [1]), ("validation-evidence.cbor", [0])].mapM fun entry =>
        sidecarOf deps entry.1 entry.2) = .ok sidecars := by
    rw [artifactDigest, hsha, hdigest]
    exact eq_ok_value _
  unfold buildTransaction
  simp only [bind_ok, mapError_ok, stop_ok, not_not, pure_ok]
  refine ⟨accountDb, haccounts, (), rfl, (), hext4, (), hlength, _, hstart, validation, hvalidated,
    [0], hevidence, [3, 0, 10], hbytes, sidecars, hsidecars, ?_⟩
  rw [hsha]
  show Outputs.mk base (sha256 base) sidecars = _
  rw [hdigest]

theorem built_published : ∃ plan, build deps profile request oci (runs (disk 0 0)) = .ok plan ∧
    plan.publish deps = .ok built := by
  have hid : GenerationId.derive sha256 (spec.derivationKey sha256) baseDigest 8589934592
    (sidecars.map Prod.fst) =
      .ok builtId := by
    rw [derivationKey_spec]
    exact eq_ok_value _
  refine ⟨_, bind_ok.mpr ⟨prepared, prepareBuild_oci, rfl⟩, bind_ok.mpr ⟨_,
    buildTransaction_base length_disk sha256_base validateExt4Base_disk file_disk, ?_⟩⟩
  exact publish_disk sha256_base (by decide +kernel) (by decide +kernel) hid

/-! ### Commits -/

def committedBytes : Bool → UInt8 × UInt8
  | true => (2, 0)
  | false => (3, 1)

def committedBase (tampers : Bool) :
    Bytes := disk (committedBytes tampers).1 (committedBytes tampers).2

def committedDigest (tampers : Bool) :
    Digest := diskDigest (committedBytes tampers).1 (committedBytes tampers).2

def committedSidecars (tampers : Bool) : List (ImmutableSidecar × Bytes) :=
  value ([("accounts.cbor", Protocol.Sample.databaseBytes),
    ("commit-record.json", [2, if tampers then 0 else 1]),
      ("image-config.json", [0x7b, 0x7d])].mapM fun entry => sidecarOf buildDeps entry.1 entry.2)
    (by cases tampers <;> decide +kernel)

def committedId (tampers : Bool) : GenerationId :=
  value (GenerationId.derive sha256 (committedKey tampers) (committedDigest tampers) 8589934592
    ((committedSidecars tampers).map Prod.fst)) (by cases tampers <;> decide +kernel)

def committed (tampers : Bool) : Image :=
  ⟨committedId tampers, committedSpec tampers, committedBase tampers, committedSidecars tampers⟩

theorem replaceMarker_disk {deps : Dependencies} {decoded : GenerationMarker}
    {change : GenerationMarker → GenerationMarker}
    {reason : Nat → Nat → String}
    (hdump : deps.tools.dump (disk m c) GENERATION_MARKER_PATH = .ok (some [m]))
    (hblocks : deps.tools.blocks (disk m c) GENERATION_MARKER_PATH = .ok "0\n")
    (hdecode : decodePayload deps.marker GenerationMarker.validate [m] = .ok decoded)
    (hencode : encodePayload deps.marker GenerationMarker.validate (change decoded) = .ok [b]) :
    replaceMarker deps (disk m c) change reason = .ok (disk b c) := by
  have hread : readGenerationMarker deps.tools (disk m c) = .ok [m] := by
    unfold readGenerationMarker
    simp only [bind_ok, require_ok, stop_ok, pure_ok]
    exact ⟨some [m], hdump, [m], rfl, (), by simp, rfl⟩
  have hrewrite : rewriteGenerationMarker deps.tools (disk m c) [b] = .ok (disk b c) := by
    have hlisted : listedBlocks "0\n" = [0] := by decide +kernel
    unfold rewriteGenerationMarker
    simp only [bind_ok, stop_ok]
    refine ⟨"0\n", hblocks, (), ?_, ?_⟩
    · rw [hlisted, length_singleton, length_singleton]
      decide
    · rw [hlisted]
      show Except.ok (overwrite (disk m c) 0 [b]) = _
      rw [overwrite_marker]
  unfold replaceMarker
  simp only [bind_ok, mapError_ok, stop_ok, not_not]
  exact ⟨[m], hread, decoded, hdecode, [b], hencode, (), rfl, hrewrite⟩

theorem replaceMarker_merged (tampers : Bool) (reason : Nat → Nat → String) :
    replaceMarker deps (merged tampers) (fun marker => { marker with
      derivationKey := hexEncode (committedKey tampers).asBytes
      accountDbSha256 := hexEncode accountsDigest.asBytes }) reason =
        .ok (committedBase tampers) := by
  have hdecode : decodePayload deps.marker GenerationMarker.validate [if tampers then 1 else 0] =
    .ok (mergedMarker tampers) := by
    cases tampers <;> decide +kernel
  cases tampers with
  | true => exact replaceMarker_disk rfl rfl hdecode (by decide +kernel)
  | false => exact replaceMarker_disk rfl rfl hdecode (by decide +kernel)

theorem commitOutputs_merged (tampers : Bool) :
    commitOutputs deps built (commitRequest tampers) (committedKey tampers)
    (disk 0 0) = .ok ⟨committedBase tampers, committedDigest tampers,
      committedSidecars tampers⟩ := by
  have hsha : deps.sha256 = sha256 := rfl
  have hoverlay : (commitRequest tampers).overlay = overlay tampers := rfl
  have haccounts : committedAccounts deps (merged tampers) = .ok Protocol.Sample.databaseBytes := by
    have hempty : ∀ path, path ≠ GENERATION_MARKER_PATH →
      readGuestFile deps.tools (merged tampers) path = .ok "" := by
      intro path hpath
      have hnone : deps.tools.dump (merged tampers) path = .ok none := by
        show Except.ok ((if path = GENERATION_MARKER_PATH then some 0 else none).map _) = _
        rw [if_neg hpath]
        rfl
      exact bind_ok.mpr ⟨none, hnone, require_ok.mpr (by decide +kernel)⟩
    unfold committedAccounts
    simp only [bind_ok, mapError_ok]
    exact ⟨"", hempty _ (by decide), "", hempty _ (by decide),
      ⟨ACCOUNT_DB_SCHEMA, [], []⟩, by decide +kernel, by decide +kernel⟩
  have hrecord : deps.commitRecord.toVec (committedRecord built (commitRequest tampers)
    (overlayDigest tampers)) =
      .ok [2, if tampers then 0 else 1] := by
    cases tampers <;> decide +kernel
  have hconfig : (built.sidecars.find? fun s => s.1.name == "image-config.json").map Prod.snd =
    some [0x7b, 0x7d] := by
    show (sidecars.find? fun s => s.1.name == "image-config.json").map Prod.snd = _
    decide +kernel
  have hentries : ∃ accounts config record,
    sidecarOf deps "accounts.cbor" Protocol.Sample.databaseBytes = .ok accounts ∧
      sidecarOf deps "image-config.json" [0x7b, 0x7d] = .ok config ∧
      sidecarOf deps "commit-record.json" [2, if tampers then 0 else 1] = .ok record ∧
      committedSidecars tampers = [accounts, record, config] := by
    cases tampers <;>
      exact ⟨_, _, _, eq_ok_value (by decide +kernel), eq_ok_value (by decide +kernel),
        eq_ok_value (by decide +kernel), by decide +kernel⟩
  obtain ⟨accounts, config, record, h1, h2, h3, hsidecars⟩ := hentries
  unfold commitOutputs
  simp only [bind_ok, mapError_ok, require_ok, pure_ok]
  refine ⟨merged tampers, ?_, (), rfl, _, haccounts, accounts, h1, committedBase tampers, ?_, (),
    rfl, _, hconfig, config, h2, _, ?_, record, h3, ?_⟩
  · exact applyCow_overlay tampers
  · rw [hsha, sha256_accounts]
    exact replaceMarker_merged tampers _
  · rw [hsha, hoverlay, sha256_overlay]
    exact hrecord
  · rw [committed_order (sidecarOf_ok h1).1 (sidecarOf_ok h2).1 (sidecarOf_ok h3).1, hsidecars,
      hsha, committedBase, sha256_disk, committedDigest]

theorem committed_published (tampers : Bool) : ∃ plan,
    commit deps profile built (.allStored _) (commitRequest tampers) = .ok plan ∧
      plan.publish deps = .ok (committed tampers) := by
  have hsha : deps.sha256 = sha256 := rfl
  have hoverlay : (commitRequest tampers).overlay = overlay tampers := rfl
  have hbase : built.base = disk 0 0 := rfl
  have hcontract : commitContractDigest deps profile builtId (overlayDigest tampers) =
      .ok (sha256 [1, if tampers then 0 else 1]) := by
    cases tampers <;> decide +kernel
  have hspec : respecify spec (sha256 [1, if tampers then 0 else 1]) =
    .ok (committedSpec tampers) := by
    cases tampers <;> decide +kernel
  have halias : (resultAlias profile spec "committed").isOk = true := by decide +kernel
  have hid : GenerationId.derive sha256 ((committedSpec tampers).derivationKey sha256)
    (committedDigest tampers) 8589934592
      ((committedSidecars tampers).map Prod.fst) = .ok (committedId tampers) := by
    rw [derivationKey_committed]
    exact eq_ok_value _
  refine ⟨⟨committedSpec tampers, value _ halias,
    .ok ⟨committedBase tampers, committedDigest tampers, committedSidecars tampers⟩⟩, ?_,
      bind_ok.mpr ⟨_, rfl, ?_⟩⟩
  · unfold commit
    simp only [bind_ok, mapError_ok, pure_ok, CopyCalls.copySparse_reliable]
    refine ⟨(65536, 2 ^ 21), ?_, 2 ^ 33, rfl, sha256 [1, if tampers then 0 else 1], ?_,
      committedSpec tampers, hspec, _, eq_ok_value halias, ?_⟩
    · rw [hbase]
      exact ext4Geometry_disk
    · rw [hsha, hoverlay, sha256_overlay]
      exact hcontract
    · rw [hsha, derivationKey_committed, hbase, commitOutputs_merged]
  · exact publish_disk sha256_disk (by cases tampers <;> decide +kernel)
      (by cases tampers <;> decide +kernel) hid

/-! ### Starts -/

def options : RunOptions where
  workload := ⟨["/bin/true"], [], "/", 0, 0, [], 0o022, [], "pocket", false, [], false, false, 15⟩
  stdinBytes := 0
  terminal := none
  extraConsoles := 0

theorem committed_starts (tampers : Bool) :
    ∃ start, startWithLease deps.sha256 profile (committed tampers) options = .ok start := by
  have hsha : deps.sha256 = sha256 := rfl
  have hvalid : validateGeneration profile (committedSpec tampers) = .ok () := by
    cases tampers <;> decide +kernel
  have haccounts : (committed tampers).accountDigest = some accountsDigest := by
    show accountDigestOf (committedSidecars tampers) = _
    cases tampers <;> decide +kernel
  have hstart : (buildStart sha256 profile (committedSpec tampers) (committedId tampers)
    (hexEncode accountsDigest.asBytes)
      options).isOk = true := by cases tampers <;> decide +kernel
  refine ⟨value _ hstart, ?_⟩
  rw [hsha]
  unfold startWithLease
  simp only [bind_ok, mapError_ok, require_ok]
  exact ⟨(), hvalid, accountsDigest, haccounts, (), validateExt4Base_disk, eq_ok_value hstart⟩

theorem marker_built : deps.mounted.file built.base GENERATION_MARKER_PATH = some [0] ∧
    deps.marker.toVec marker = .ok [0] :=
  ⟨file_disk, by decide +kernel⟩

theorem marker_merged (tampers : Bool) :
    deps.mounted.file (merged tampers) GENERATION_MARKER_PATH = some [if tampers then 1 else 0] ∧
      deps.marker.toVec (mergedMarker tampers) = .ok [if tampers then 1 else 0] := by
  cases tampers with
  | true => exact ⟨file_disk, by decide +kernel⟩
  | false => exact ⟨file_disk, by decide +kernel⟩

theorem keepsMarker_false : KeepsMarker deps built.base (merged false) :=
  ⟨marker, marker, [0], [0], marker_built.1, marker_built.2, (marker_merged false).1,
    (marker_merged false).2, by decide, rfl⟩

theorem not_keepsMarker_true : ¬KeepsMarker deps built.base (merged true) := by
  rintro ⟨first, second, bytes, bytes', hfile, henc, hfile', henc', -, heq⟩
  rw [marker_built.1] at hfile
  cases hfile
  rw [(marker_merged true).1] at hfile'
  cases hfile'
  obtain rfl := Codec.toVec_inj henc marker_built.2
  obtain rfl := Codec.toVec_inj henc' (marker_merged true).2
  exact absurd (congrArg GenerationMarker.selectorPolicy heq) (by decide)

theorem applyCow_built (tampers : Bool) :
    applyCow built.base (commitRequest tampers).overlay = .ok (merged tampers) := by
  have hbase : built.base = disk 0 0 := rfl
  have hoverlay : (commitRequest tampers).overlay = overlay tampers := rfl
  rw [hbase, hoverlay, applyCow_overlay]

theorem built_marked : Marked deps built := by
  obtain ⟨plan, hplan, himage⟩ := built_published
  exact build_marked hplan himage

def resized (image : Image) : Except HostBuildError Plan :=
  adjustLeased deps profile image (.allStored _) ⟨"resized", 2 ^ 33⟩

end DiskSample

open DiskSample in
/-- A run that rewrites the selector policy in its marker: its commit is published, and refused. -/
theorem changed_marker_refused :
    (∃ plan, build deps profile request oci (runs (disk 0 0)) = .ok plan ∧
      plan.publish deps = .ok built) ∧
    ∃ plan start, commit deps profile built (.allStored _) (commitRequest true) = .ok plan ∧
      plan.publish deps = .ok (committed true) ∧
        startWithLease deps.sha256 profile (committed true) options = .ok start ∧
      Guest.verifyVolumeMarker deps.marker
        (deps.mounted.file (committed true).base GENERATION_MARKER_PATH) start ≠ .ok () := by
  obtain ⟨plan, hplan, himage⟩ := committed_published true
  obtain ⟨start, hstart⟩ := committed_starts true
  refine ⟨built_published, plan, start, hplan, himage, hstart,
    fun haccepted => not_keepsMarker_true ?_⟩
  exact (commit_marked_iff tools_sound built_marked (applyCow_built true) hplan himage).mp
    ((verifyVolumeMarker_iff hstart).mp haccepted)

open DiskSample in
theorem published_image_starts_kept :
    (∃ start, startWithLease deps.sha256 profile (committed false) options = .ok start ∧
      Guest.verifyVolumeMarker deps.marker
        (deps.mounted.file (committed false).base GENERATION_MARKER_PATH) start = .ok ()) ∧
    ∃ start, startWithLease deps.sha256 profile (committed true) options = .ok start ∧
      ¬Guest.verifyVolumeMarker deps.marker
        (deps.mounted.file (committed true).base GENERATION_MARKER_PATH) start = .ok () := by
  obtain ⟨hstarts, hcommits⟩ := published_image_starts deps tools_sound
  obtain ⟨plan, hplan, himage⟩ := built_published
  have hbuilt : Published deps (KeepsMarker deps) built := .build hplan himage
  obtain ⟨kept, hkept⟩ := committed_starts false
  obtain ⟨plan', hplan', himage'⟩ := committed_published false
  obtain ⟨changed, hchanged⟩ := committed_starts true
  obtain ⟨plan'', hplan'', himage''⟩ := committed_published true
  refine ⟨⟨kept, hkept, ?_⟩, changed, hchanged, ?_⟩
  · exact (hstarts (.commit hbuilt (applyCow_built false) keepsMarker_false hplan' himage')).2 hkept
  · rw [hcommits hbuilt (applyCow_built true) hplan'' himage'' hchanged]
    exact not_keepsMarker_true

open DiskSample in
theorem adjusted_commit_shares_key_resized : ∃ plan plan', resized built = .ok plan ∧
    resized (committed true) = .ok plan' ∧ plan'.spec = plan.spec := by
  have hadjust (image : Image) (hgeometry : ext4Geometry image.base = .ok (65536, 2 ^ 21))
      (halias : (resultAlias profile image.spec "resized").isOk = true) :
      ∃ plan, resized image = .ok plan := by
    unfold resized adjustLeased
    simp only [bind_ok, mapError_ok, pure_ok]
    exact ⟨_, 2 ^ 33, by decide +kernel, _, hgeometry, 2 ^ 33, rfl, _, eq_ok_value (by decide +kernel), _,
      mapError_ok.mpr (image.spec.new_self _), _, eq_ok_value halias, rfl⟩
  obtain ⟨plan, hplan⟩ := hadjust built ext4Geometry_disk (by decide +kernel)
  obtain ⟨plan', hplan'⟩ := hadjust (committed true) ext4Geometry_disk (by decide +kernel)
  obtain ⟨_, hcommit, himage⟩ := committed_published true
  refine ⟨plan, plan', hplan, hplan', adjusted_commit_shares_key hcommit himage ?_ hplan hplan'⟩
  exact congrArg (Except.map Prod.fst) (ext4Geometry_disk.trans ext4Geometry_disk.symm)

end PocketVm.Runtime
