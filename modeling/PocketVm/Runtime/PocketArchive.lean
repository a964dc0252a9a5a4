import Mathlib.Algebra.Order.BigOperators.Group.List
import PocketVm.Oci.Document
import PocketVm.Runtime.CommittedAccounts
import PocketVm.Store.Collect

/-!
# Pocket archives

`pocket_archive.rs` and the two functions of the host builder that write and read an archive: a
magic text, a document with its length in front, the bytes of the extents that the document lists,
and the bytes of the sidecars. The document is not trusted, so that every size in it is any 64-bit
number. The additions without a check are those of the source: a build either aborts on an overflow
or wraps.
-/

namespace PocketVm

open Wire Checked List

def Digest.fromStr (value : String) : Except StoreError Digest := do
  let encoded ← require ((utf8 "sha256:").isPrefixOf? (utf8 value))
    (invalid "digest" "expected sha256:<64 lowercase hexadecimal characters>")
  stop (encoded.length ≠ 64 ∨ ¬encoded.all Oci.isHexByte)
    (invalid "digest" "expected 64 lowercase hexadecimal characters")
  let bytes ← (Oci.hexDecode encoded).mapError (invalid "digest")
  stop (bytes.length ≠ 32) (invalid "digest" "decoded digest is not 32 bytes")
  return ⟨BitVec.ofNat 256 (readBE bytes)⟩

namespace Runtime

open Protocol Sparse

/-! ### Unchecked additions -/

structure Build where
  overflowChecks : Bool
  deriving DecidableEq

namespace Build

variable (build : Build)

/-- What is left of a number that may not fit, if the program goes on. -/
def fit (n : Nat) : Option Nat :=
  if n < 2 ^ 64 then some n
  else if build.overflowChecks then none
  else some (wrap64 n)

def add (a b : Nat) : Option Nat := build.fit (a + b)

def sum (values : List Nat) : Option Nat := values.foldlM build.add 0

variable {build}

theorem fit_eq_self {n : Nat} : build.fit n = some n ↔ n < 2 ^ 64 := by
  unfold fit wrap64
  split
  · next h => exact iff_of_true rfl h
  · next h =>
    refine iff_of_false ?_ h
    split
    · intro heq
      cases heq
    · intro heq
      have := Option.some.inj heq
      omega

theorem fit_bind_add (a b : Nat) :
    (build.fit a >>= fun s => build.add s b) = build.fit (a + b) := by
  unfold add fit wrap64
  by_cases ha : a < 2 ^ 64
  · rw [if_pos ha]
    rfl
  · rw [if_neg ha, if_neg (show ¬a + b < 2 ^ 64 by omega)]
    cases build.overflowChecks with
    | true => rfl
    | false =>
      change (if a % 2 ^ 64 + b < 2 ^ 64 then some (a % 2 ^ 64 + b) else some
        ((a % 2 ^ 64 + b) % 2 ^ 64)) =
        some ((a + b) % 2 ^ 64)
      rw [Nat.mod_add_mod]
      split
      · next h => rw [← Nat.mod_add_mod, Nat.mod_eq_of_lt h]
      · rfl

theorem fit_bind_fit (a b : Nat) :
    (build.fit a >>= fun x => build.fit b >>= fun y => build.add x y) = build.fit (a + b) := by
  have hinner : ∀ x, (build.fit b >>= fun y => build.add x y) = build.add x b := by
    intro x
    have hcomm : ∀ y, build.add x y = build.add y x :=
      fun y => congrArg build.fit (Nat.add_comm x y)
    simp only [hcomm]
    exact fit_bind_add b x
  simp only [hinner]
  exact fit_bind_add a b

theorem sum_eq (values : List Nat) : build.sum values = build.fit values.sum := by
  suffices ∀ start, (build.fit start >>= fun s => values.foldlM build.add s) = build.fit
    (start + values.sum) by
    have h := this 0
    rw [Nat.zero_add] at h
    exact h
  induction values with
  | nil =>
    simp
  | cons value rest ih =>
    intro start
    simp only [foldlM_cons, sum_cons]
    rw [← bind_assoc, fit_bind_add, ih, Nat.add_assoc]

end Build

/-! ### The document -/

structure Extent where
  offset : UInt64
  length : UInt64
  deriving DecidableEq

structure PlatformRecord where
  os : String
  architecture : String
  variant : Option String
  osVersion : Option String
  osFeatures : List String
  deriving DecidableEq

structure SpecRecord where
  selectedManifestDigest : String
  configDigest : String
  layerDigests : List String
  diffIds : List String
  descriptorPlatform : Option PlatformRecord
  configPlatform : PlatformRecord
  effectivePlatform : PlatformRecord
  selectorPolicyId : String
  profileId : String
  profileRevision : String
  rootLayoutContract : String
  filesystemContract : String
  buildContractDigest : String
  deriving DecidableEq

structure SidecarRecord where
  name : String
  digest : String
  size : UInt64
  deriving DecidableEq

structure BaseRecord where
  size : UInt64
  digest : String
  extents : List Extent
  deriving DecidableEq

structure Document where
  schema : String
  generationId : String
  reference : String
  spec : SpecRecord
  base : BaseRecord
  sidecars : List SidecarRecord
  deriving DecidableEq

/-- `to_string` of the failures of the validated types, which are all of this kind. -/
def refusalText : StoreError → String
  | .invalidInput field reason => "invalid " ++ field ++ ": " ++ reason
  | _ => ""

def PlatformRecord.build (record : PlatformRecord) : Except String PocketVm.Platform :=
  (Platform.new record.os record.architecture record.variant record.osVersion record.osFeatures).mapError refusalText

def SpecRecord.build (record : SpecRecord) : Except String GenerationSpec := do
  let digest := fun text => (Digest.fromStr text).mapError refusalText
  let selectedManifestDigest ← digest record.selectedManifestDigest
  let configDigest ← digest record.configDigest
  let layerDigests ← record.layerDigests.mapM digest
  let diffIds ← record.diffIds.mapM digest
  let descriptorPlatform ← record.descriptorPlatform.mapM PlatformRecord.build
  let configPlatform ← record.configPlatform.build
  let effectivePlatform ← record.effectivePlatform.build
  let profileRevision ← digest record.profileRevision
  let buildContractDigest ← digest record.buildContractDigest
  (GenerationSpec.new selectedManifestDigest configDigest layerDigests diffIds descriptorPlatform configPlatform
    effectivePlatform record.selectorPolicyId record.profileId profileRevision record.rootLayoutContract
    record.filesystemContract buildContractDigest).mapError refusalText

def SidecarRecord.build (record : SidecarRecord) : Except String ImmutableSidecar := do
  let digest ← (Digest.fromStr record.digest).mapError refusalText
  (ImmutableSidecar.new record.name digest record.size).mapError refusalText

/-- How a computation ends that does not go on: with an error, or with the whole program. -/
inductive Halt (ε : Type) where
  | aborted
  | failed (error : ε)
  deriving DecidableEq

namespace Document

def SCHEMA : String := "pocket-archive-v1"

/-- One turn of the loop over the extents: what they cover so far, and where the last one ended. -/
def checkExtent (build : Build) (size : UInt64) (state : Nat × Nat) (extent : Extent) :
    Except (Halt String) (Nat × Nat) := do
  stop (extent.length = 0) (.failed "archive records an empty extent")
  stop (extent.offset.toNat < state.2) (.failed "archive extents overlap or are unordered")
  let last := extent.offset.toNat + extent.length.toNat
  stop (2 ^ 64 ≤ last) (.failed "archive extent overflows")
  stop (size.toNat < last) (.failed "archive extent runs past the end of the image")
  let covered ← require (build.add state.1 extent.length.toNat) .aborted
  return (covered, last)

variable (build : Build) (document : Document)

def validate : Except (Halt String) Unit := do
  stop (document.schema ≠ SCHEMA)
    (.failed ("archive schema is \"" ++ document.schema ++ "\", not " ++ SCHEMA))
  let state ← document.base.extents.foldlM (checkExtent build document.base.size) (0, 0)
  stop (document.base.size.toNat < state.1) (.failed "archive extents cover more than the image")

def dataLength : Option Nat := build.sum (document.base.extents.map fun extent =>
    extent.length.toNat)

def describedBytes (length : Nat) : Nat :=
  16 + 8 + length + (document.base.extents.map fun extent => extent.length.toNat).sum +
    (document.sidecars.map fun record => record.size.toNat).sum

def expectedBytes (length : Nat) : Option Nat := do
  let magic ← build.add 16 8
  let header ← build.add magic length
  let data ← document.dataLength build
  let body ← build.add header data
  let sidecars ← build.sum (document.sidecars.map fun record => record.size.toNat)
  build.add body sidecars

end Document

/-! ### Importing -/

def MAGIC : Bytes := utf8 "pocket-archive1\n"
def MAX_DOCUMENT_BYTES : Nat := 64 * 1024 * 1024
def COPY_BUFFER_BYTES : Nat := 1024 * 1024

section Import

variable (json : Json Document) (build : Build) (archive : Bytes) (input : String)

def readDocument : Except HostBuildError (Nat × Document) := do
  let magic ← readExact archive 0 16 "read archive" input
  stop (magic ≠ MAGIC) (.invalid "pocket-archive" "not a pocket archive")
  let lengthBytes ← readExact archive 16 8 "read archive" input
  let length := readBE lengthBytes
  stop (length = 0 ∨ MAX_DOCUMENT_BYTES < length)
    (.invalid "pocket-archive" "archive document length is implausible")
  let encoded ← readExact archive 24 length "read archive" input
  let document ← (json.fromSlice encoded).mapError (.invalid "pocket-archive")
  return (length, document)

def checkLength (length : Nat) (document : Document) : Except (Halt HostBuildError) Unit := do
  let expectedBytes ← require (document.expectedBytes build length) .aborted
  stop (archive.length ≠ expectedBytes) (.failed (.invalid "pocket-archive"
    ("archive is " ++ toString archive.length ++ " bytes; its document describes " ++
      toString expectedBytes)))

structure ImportRequest where
  spec : GenerationSpec
  expectedBase : Digest
  sidecars : List ImmutableSidecar
  deriving DecidableEq

def importRequest (profile : ProfileManifest) (document : Document) :
    Except HostBuildError ImportRequest := do
  let spec ← document.spec.build.mapError (.invalid "pocket-archive")
  stop (document.spec.profileId ≠ profile.profileId ∨
    document.spec.profileRevision ≠ profile.profileRevision.display)
    (.invalid "pocket-archive" ("archive holds " ++ document.spec.profileId ++ "@" ++
      document.spec.profileRevision ++ ", and this profile is " ++ profile.profileId ++ "@" ++
        profile.profileRevision.display))
  let expectedBase ← (Digest.fromStr document.base.digest).mapError fun e =>
    .invalid "pocket-archive" (refusalText e)
  let sidecars ← (document.sidecars.mapM SidecarRecord.build).mapError (.invalid "pocket-archive")
  return ⟨spec, expectedBase, sidecars⟩

def stageExtent (state : Nat × Bytes) (extent : Extent) : Except HostBuildError (Nat × Bytes) := do
  let bytes ← readExact archive state.1 extent.length.toNat "read archive" input
  return (state.1 + extent.length.toNat, overwrite state.2 extent.offset.toNat bytes)

def createSparseTarget (size : UInt64) : Except HostBuildError Bytes := do
  stop (2 ^ 63 ≤ size.toNat) (.io "size target ext4" "base.ext4")
  return List.replicate size.toNat 0

def stageSidecar (position : Nat) (names : List String) (record : SidecarRecord) :
    Except HostBuildError Bytes := do
  let bytes ← readExact archive position record.size.toNat "read archive sidecar" input
  stop (record.name ∈ names) (.store (.io "create regular file" .alreadyExists))
  return bytes

/-- The loop over the sidecars: the buffers that it allocates, one for each, and the files. -/
def stageSidecars : Nat → List String → List SidecarRecord →
    List Nat × Except HostBuildError (List Bytes)
  | _, _, [] => ([], .ok [])
  | position, names, record :: rest =>
    match stageSidecar archive input position names record with
    | .error e => ([record.size.toNat], .error e)
    | .ok bytes =>
      let later := stageSidecars (position + record.size.toNat) (record.name :: names) rest
      (record.size.toNat :: later.1, later.2.map (bytes :: ·))

/-- What an import does after the length check: the buffers that it allocates, and how it ends. -/
structure ImportRun where
  buffers : List Nat
  outcome : Except HostBuildError Image
  deriving DecidableEq

def publishStaged (deps : Dependencies) (request : ImportRequest) (base : Bytes)
    (sidecars : List Bytes) :
    Except HostBuildError Image :=
  (Outputs.mk base request.expectedBase (request.sidecars.zip sidecars)).publish deps request.spec

def Image.generation (sha256 : Bytes → Digest) (image : Image) : Store.Generation where
  manifest :=
    { id := image.id
      derivationKey := image.spec.derivationKey sha256
      spec := image.spec
      baseDigest := sha256 image.base
      baseSize := UInt64.ofNat image.base.length
      sidecars := image.sidecars.map Prod.fst }
  base := image.base

def aliased (deps : Dependencies) (aliasKey : AliasKey) (image : Image) :
    Except HostBuildError Image := do
  (Store.validateAliasTarget aliasKey (image.generation deps.sha256)).mapError .store
  return image

/-- The generation is made from the archive, after its `length` bytes of document. -/
def stage (deps : Dependencies) (request : ImportRequest) (length : Nat)
    (document : Document) : ImportRun :=
  match createSparseTarget document.base.size with
  | .error e => ⟨[], .error e⟩
  | .ok target =>
    match document.base.extents.foldlM (stageExtent archive input) (24 + length, target) with
    | .error e => ⟨[COPY_BUFFER_BYTES], .error e⟩
    | .ok (position, base) =>
      let sidecars := stageSidecars archive input position [] document.sidecars
      ⟨COPY_BUFFER_BYTES :: sidecars.1, sidecars.2 >>= publishStaged deps request base⟩

/-- What follows the length check. The store answers with the generation it holds for a
specification, if it holds one. -/
def importChecked (deps : Dependencies) (profile : ProfileManifest) (aliasKey : AliasKey)
    (existing : GenerationSpec → Option Image) (length : Nat) (document : Document) : ImportRun :=
  match importRequest profile document with
  | .error e => ⟨[], .error e⟩
  | .ok request =>
    match existing request.spec with
    | some image => ⟨[], aliased deps aliasKey image⟩
    | none =>
      let staged := stage archive input deps request length document
      ⟨staged.buffers, staged.outcome >>= aliased deps aliasKey⟩

def importHeader : Except (Halt HostBuildError) (Nat × Document) := do
  let head ← (readDocument json archive input).mapError .failed
  (head.2.validate build).mapError fun
    | .aborted => .aborted
    | .failed reason => .failed (.invalid "pocket-archive" reason)
  checkLength build archive head.1 head.2
  return head

/-! ### Sizes -/

variable {json build archive input}
variable {deps : Dependencies} {profile : ProfileManifest} {aliasKey : AliasKey}
  {existing : GenerationSpec → Option Image}
  {length : Nat} {document : Document} {request : ImportRequest}

theorem Document.checkExtent_ok {size : UInt64} {state state' : Nat × Nat} {extent : Extent}
    (hcovered : state.1 ≤ state.2) (h : Document.checkExtent build size state extent = .ok state') :
    state' = (state.1 + extent.length.toNat, extent.offset.toNat + extent.length.toNat) ∧
      state'.1 ≤ state'.2 ∧
      state'.2 ≤ size.toNat ∧ state.2 ≤ extent.offset.toNat ∧ extent.length ≠ 0 := by
  unfold Document.checkExtent at h
  simp only [bind_ok, stop_ok, require_ok, pure_ok] at h
  obtain ⟨_, hlength, _, horder, _, hfits, _, hsize, covered, hcovered', rfl⟩ := h
  have hsum : state.1 + extent.length.toNat < 2 ^ 64 := by omega
  rw [Build.add, Build.fit_eq_self.mpr hsum] at hcovered'
  obtain rfl := Option.some.inj hcovered'
  exact ⟨rfl, by simp only; omega, by simp only; omega, by omega, hlength⟩

/-- The extents of an accepted document cover no more than the image, so that their sum is exact. -/
theorem Document.validate_ok (h : document.validate build = .ok ()) :
    (document.base.extents.map fun extent => extent.length.toNat).sum ≤
      document.base.size.toNat := by
  unfold Document.validate at h
  simp only [bind_ok, stop_ok] at h
  obtain ⟨_, -, state, hfold, hcovers⟩ := h
  have hinv := foldlM_ok (fun done s => s.1 = (done.map fun extent => extent.length.toNat).sum ∧
    s.1 ≤ s.2) hfold
    ⟨rfl, le_refl 0⟩ fun done extent s s' hs hturn => by
      obtain ⟨rfl, hle, -⟩ := Document.checkExtent_ok hs.2 hturn
      refine ⟨?_, hle⟩
      rw [map_append, sum_append, ← hs.1]
      simp
  omega

/-- The unchecked sum is the mathematical one, taken as the build takes what does not fit. -/
theorem Document.expectedBytes_eq :
    document.expectedBytes build length = build.fit (document.describedBytes length) := by
  have hdata : document.expectedBytes build length =
      ((((build.add 16 8 >>= fun magic => build.add magic length) >>= fun header => document.dataLength build >>=
        fun data => build.add header data) >>= fun body =>
          build.sum (document.sidecars.map fun record => record.size.toNat) >>= fun sidecars =>
            build.add body sidecars)) := by
    simp only [Document.expectedBytes, bind_assoc]
  rw [hdata, Document.dataLength, Build.add, Build.fit_bind_add, Build.sum_eq,
    Build.fit_bind_fit, Build.sum_eq, Build.fit_bind_fit]
  rfl

theorem mem_stageSidecars {records : List SidecarRecord} {position : Nat} {names : List String}
    {buffer : Nat} (h : buffer ∈ (stageSidecars archive input position names records).1) :
    buffer ∈ records.map fun record => record.size.toNat := by
  induction records generalizing position names with
  | nil => exact absurd h not_mem_nil
  | cons record rest ih =>
    rw [stageSidecars] at h
    split at h
    · obtain rfl := mem_singleton.mp h
      exact mem_cons_self
    · rcases mem_cons.mp h with rfl | h
      · exact mem_cons_self
      · exact mem_cons_of_mem _ (ih h)

/-- The import gets as far as staging: the document's request is well formed, the store has nothing
for it, and a file can have the size of the image. -/
def Stages (profile : ProfileManifest) (existing : GenerationSpec → Option Image)
    (document : Document) : Prop :=
  ∃ request, importRequest profile document = .ok request ∧ existing request.spec = none ∧
    document.base.size.toNat < 2 ^ 63

theorem buffers_importChecked (hstages : Stages profile existing document) :
    COPY_BUFFER_BYTES ∈ (importChecked archive input deps profile aliasKey existing length document).buffers := by
  obtain ⟨request, hrequest, hexisting, hsize⟩ := hstages
  have htarget : createSparseTarget document.base.size =
    .ok (List.replicate document.base.size.toNat 0) := by
    exact bind_ok.mpr ⟨(), stop_ok.mpr (by omega), rfl⟩
  simp only [importChecked, hrequest, hexisting, stage, htarget]
  split
  · exact mem_cons_self
  · exact mem_cons_self

theorem buffer_cases {buffer : Nat}
    (h : buffer ∈ (importChecked archive input deps profile aliasKey existing length document).buffers) :
    (Stages profile existing document ∧ buffer = COPY_BUFFER_BYTES) ∨
      buffer ∈ document.sidecars.map fun record => record.size.toNat := by
  unfold importChecked at h
  split at h
  · exact absurd h not_mem_nil
  · next request hrequest =>
    split at h
    · exact absurd h not_mem_nil
    · next hexisting =>
      unfold stage at h
      split at h
      · exact absurd h not_mem_nil
      · next target htarget =>
        have hsize : document.base.size.toNat < 2 ^ 63 := by
          unfold createSparseTarget at htarget
          simp only [bind_ok, stop_ok] at htarget
          omega
        have hstages : Stages profile existing document := ⟨request, hrequest, hexisting, hsize⟩
        split at h
        · exact .inl ⟨hstages, mem_singleton.mp h⟩
        · rcases mem_cons.mp h with rfl | h
          · exact .inl ⟨hstages, rfl⟩
          · exact .inr (mem_stageSidecars h)

theorem checkLength_ok {u : Unit} :
    checkLength build archive length document = .ok u ↔
      build.fit (document.describedBytes length) = some archive.length := by
  unfold checkLength
  rw [Document.expectedBytes_eq]
  simp only [bind_ok, require_ok, stop_ok, not_not]
  constructor
  · rintro ⟨expected, hexpected, hlength⟩
    rw [hexpected, hlength]
  · intro h
    exact ⟨archive.length, h, rfl⟩

/-- For an accepted document the sum is exact, the check passes only the exact length, and no later
buffer is larger than the archive, exactly if the sizes that it states add up to a 64-bit number and
the archive is no smaller than the fixed buffer that it is copied through. -/
theorem archive_sizes_exact_iff (build : Build) (archive : Bytes) (input : String)
    (deps : Dependencies)
    (profile : ProfileManifest) (aliasKey : AliasKey) (existing : GenerationSpec → Option Image)
    (length : Nat) (document : Document) (hvalid : document.validate build = .ok ()) :
    document.dataLength build = some (document.base.extents.map fun extent =>
      extent.length.toNat).sum ∧
    ((document.expectedBytes build length = some (document.describedBytes length) ∧
        (checkLength build archive length document = .ok () →
          archive.length = document.describedBytes length ∧
            ∀ buffer ∈ (importChecked archive input deps profile aliasKey existing length document).buffers,
            buffer ≤ archive.length)) ↔ document.describedBytes length < 2 ^ 64 ∧
        (archive.length = document.describedBytes length → Stages profile existing document →
          COPY_BUFFER_BYTES ≤ archive.length)) := by
  refine ⟨?_, ?_⟩
  · have hcovers := Document.validate_ok hvalid
    have hsize := document.base.size.toNat_lt
    rw [Document.dataLength, Build.sum_eq, Build.fit_eq_self]
    omega
  · rw [Document.expectedBytes_eq, Build.fit_eq_self, checkLength_ok]
    refine and_congr_right fun hfits => ?_
    rw [Build.fit_eq_self.mpr hfits]
    constructor
    · intro h hlength hstages
      exact (h (congrArg some hlength.symm)).2 _ (buffers_importChecked hstages)
    · intro h hpasses
      have hlength := (Option.some.inj hpasses).symm
      refine ⟨hlength, fun buffer hbuffer => ?_⟩
      rcases buffer_cases hbuffer with ⟨hstages, rfl⟩ | hsidecar
      · exact h hlength hstages
      · have hle := le_sum_of_mem hsidecar
        rw [hlength, Document.describedBytes]
        omega

end Import

namespace ArchiveSample

def platform : PlatformRecord := ⟨"linux", "amd64", none, none, []⟩

def digest : String := Digest.display ⟨1⟩

def spec : SpecRecord where
  selectedManifestDigest := digest
  configDigest := digest
  layerDigests := [digest]
  diffIds := [digest]
  descriptorPlatform := none
  configPlatform := platform
  effectivePlatform := platform
  selectorPolicyId := "native-amd64-v1"
  profileId := DiskSample.profile.profileId
  profileRevision := DiskSample.profile.profileRevision.display
  rootLayoutContract := "rootfs-v1"
  filesystemContract := "ext4-v1-b4096"
  buildContractDigest := digest

/-- A document with two sidecars of the same size and an image of one extent. -/
def document (extent sidecarSize : UInt64) : Document where
  schema := Document.SCHEMA
  generationId := ""
  reference := ""
  spec := spec
  base := ⟨2097152, digest, [⟨4096, extent⟩]⟩
  sidecars := [⟨"first", digest, sidecarSize⟩, ⟨"second", digest, sidecarSize⟩]

def json (document : Document) : Json Document where
  toVec d := if d = document then .ok [1] else .error ""
  fromSlice bytes := if bytes = [1] then .ok document else .error ""
  fromSlice_toVec {d bytes} h := by
    split at h
    · next hd =>
      cases h
      rw [if_pos rfl, hd]
    · cases h

/-- An archive with so many bytes behind its document. -/
def archive (data : Nat) : Bytes := MAGIC ++ beBytes 8 1 ++ [1] ++ List.replicate data 0

theorem length_archive (data : Nat) : (archive data).length = 25 + data := by
  rw [archive, length_append, length_replicate]
  rfl

end ArchiveSample

/-- An image of one mebibyte and two sidecars of three bytes, all of it in the archive. -/
theorem archive_sizes_exact_staged : ∃ (archive : Bytes) (document : Document),
    document.validate ⟨false⟩ = .ok () ∧ checkLength ⟨false⟩ archive 1 document = .ok () ∧
      Stages DiskSample.profile (fun _ => none) document ∧ document.describedBytes 1 = 1048607 ∧
      ∀ buffer ∈ (importChecked archive "archive" DiskSample.deps DiskSample.profile DiskSample.aliasKey
        (fun _ => none) 1 document).buffers, buffer ≤ archive.length := by
  refine ⟨ArchiveSample.archive 1048582, ArchiveSample.document 1048576 3, ?_⟩
  generalize harchive : ArchiveSample.archive 1048582 = archive
  have hlength : archive.length = 1048607 := by rw [← harchive, ArchiveSample.length_archive]
  have hvalid : (ArchiveSample.document 1048576 3).validate ⟨false⟩ = .ok () := by decide +kernel
  have hdescribed : (ArchiveSample.document 1048576 3).describedBytes 1 = 1048607 := by
    decide +kernel
  have hpasses : checkLength ⟨false⟩ archive 1 (ArchiveSample.document 1048576 3) = .ok () :=
    checkLength_ok.mpr (by rw [hdescribed, hlength]; rfl)
  have hrequest : (importRequest DiskSample.profile (ArchiveSample.document 1048576 3)).isOk =
    true := by
    decide +kernel
  have hexact := (archive_sizes_exact_iff ⟨false⟩ archive "archive" DiskSample.deps DiskSample.profile
    DiskSample.aliasKey (fun _ => none) 1 (ArchiveSample.document 1048576 3) hvalid).2.mpr
      ⟨by rw [hdescribed]; decide, fun _ _ => by rw [hlength]; decide⟩
  exact ⟨hvalid, hpasses, ⟨_, DiskSample.eq_ok_value hrequest, rfl, by decide +kernel⟩, hdescribed,
    (hexact.2 hpasses).2⟩

/-- Two sidecars of half the 64-bit range each add up to nothing: an archive without a byte of them
passes, or the program aborts. -/
theorem unchecked_sum_passes_truncated_archive :
    importHeader (ArchiveSample.json (ArchiveSample.document 512 9223372036854775808)) ⟨false⟩
        (ArchiveSample.archive 512) "archive" =
        .ok (1, ArchiveSample.document 512 9223372036854775808) ∧
      (ArchiveSample.archive 512).length = 537 ∧
      (ArchiveSample.document 512 9223372036854775808).describedBytes 1 = 18446744073709552153 ∧
      importHeader (ArchiveSample.json (ArchiveSample.document 512 9223372036854775808)) ⟨true⟩
        (ArchiveSample.archive 512) "archive" = .error .aborted := by
  decide +kernel

end Runtime

end PocketVm
