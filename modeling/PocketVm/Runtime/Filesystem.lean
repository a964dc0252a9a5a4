import PocketVm.Protocol.Message
import PocketVm.Sparse

/-!
# Staged filesystem images

`filesystem.rs` and the image helpers of `builder.rs`: what the host reads in an ext4 superblock,
how it merges a run's overlay into a copied image, resizes the copy and rewrites the generation
marker in it. The `e2fsprogs` programs it runs on an image are a parameter.
-/

namespace PocketVm.Runtime

open Wire Checked Protocol Sparse

inductive HostBuildError where
  | store (error : StoreError)
  | protocol (error : ProtocolError)
  | guest (stage : String) (message : ErrorMessage)
  | helloMismatch (field expected actual : String)
  | evidenceMismatch (field expected actual : String)
  | invalid (field reason : String)
  /-- `Invalid` with a reason that ends in the text of an error -/
  | invalidBy (field reason : String) (error : ProtocolError)
  | unsupported (field value : String)
  | io (operation path : String)
  | guardStatus (stage : String)
  deriving DecidableEq

def EXT_SUPERBLOCK_OFFSET : Nat := 1024
def EXT_SUPERBLOCK_BYTES : Nat := 1024
def EXT_SUPER_MAGIC : Nat := 0xef53
def EXT4_VALID_FS : Nat := 0x0001
def EXT4_ERROR_FS : Nat := 0x0002
def EXT4_FEATURE_INCOMPAT_RECOVER : Nat := 0x0004
def EXT4_FEATURE_INCOMPAT_64BIT : Nat := 0x0080
def EXT4_BLOCK_BYTES : Nat := 4096

def leField (superblock : Bytes) (offset width : Nat) :
    Nat := readBE (slice superblock offset width).reverse

def hex06 (n : Nat) : String :=
  let digits := Nat.toDigits 16 n
  "0x" ++ String.ofList (List.replicate (4 - digits.length) '0' ++ digits)

def declaredBlocks (superblock : Bytes) : Nat :=
  let high := if leField superblock 0x60 4 &&& EXT4_FEATURE_INCOMPAT_64BIT ≠ 0 then
    leField superblock 0x150 4 else 0
  leField superblock 0x04 4 + high * 2 ^ 32

def superblockOf (base : Bytes) : Bytes := slice base EXT_SUPERBLOCK_OFFSET EXT_SUPERBLOCK_BYTES

/-- The reason why a base image is refused, without its path. -/
def validateExt4Base (base : Bytes) : Except String Unit := do
  stop (base.length < EXT_SUPERBLOCK_OFFSET + EXT_SUPERBLOCK_BYTES) "base is too small for an ext superblock"
  let superblock := superblockOf base
  let magic := leField superblock 0x38 2
  stop (magic ≠ EXT_SUPER_MAGIC) ("expected ext magic " ++ hex06 EXT_SUPER_MAGIC ++
    ", observed " ++ hex06 magic)
  let logBlockSize := leField superblock 0x18 4
  stop (logBlockSize ≥ 64) "block-size shift overflows"
  let blockSize := 1024 * 2 ^ logBlockSize % 2 ^ 64
  stop (blockSize ≠ 4096) ("filesystem contract requires 4096-byte blocks, observed " ++
    toString blockSize)
  let state := leField superblock 0x3a 2
  stop (state &&& EXT4_VALID_FS = 0 ∨ state &&& EXT4_ERROR_FS ≠ 0)
    ("filesystem state is not clean (" ++ hex06 state ++ ")")
  stop (leField superblock 0x60 4 &&& EXT4_FEATURE_INCOMPAT_RECOVER ≠
    0) "filesystem requires journal recovery"
  let blocks := declaredBlocks superblock
  stop (blocks = 0) "filesystem declares zero blocks"
  let logicalBytes := blocks * blockSize
  stop (logicalBytes ≥ 2 ^ 64) "filesystem logical size overflows"
  stop (logicalBytes > base.length)
    ("filesystem declares " ++ toString logicalBytes ++ " bytes but base file has " ++
      toString base.length)
  stop ((slice superblock 0x68 16).all (· == 0)) "filesystem UUID is all zero"

def ext4Geometry (base : Bytes) : Except String (Nat × Nat) := do
  validateExt4Base base
  let inodes := leField (superblockOf base) 0x00 4
  let blocks := declaredBlocks (superblockOf base)
  stop (inodes = 0 ∨ blocks = 0) "filesystem declares no inodes or no blocks"
  return (inodes, blocks)

def declaredBytes (blocks : Nat) (field reason : String) : Except HostBuildError Nat :=
  if blocks * EXT4_BLOCK_BYTES < 2 ^ 64 then
    .ok (blocks * EXT4_BLOCK_BYTES) else .error (.invalid field reason)

def COW_HEADER_BYTES : Nat := 32 + 4096
def COW_MAGIC : Nat := 0x4f4f4f4d

def readExact (file : Bytes) (offset length : Nat) (operation path : String) :
    Except HostBuildError Bytes :=
  if offset + length ≤ file.length then
    .ok (slice file offset length) else .error (.io operation path)

def divCeil (n d : Nat) : Nat := (n + d - 1) / d

/-- A sum or a product of 64-bit numbers, without a check for overflow. -/
def wrap64 (n : Nat) : Nat := n % 2 ^ 64

def beField (header : Bytes) (offset width : Nat) : Nat := readBE (slice header offset width)

structure CowLayout where
  sectorBytes : Nat
  sectors : Nat
  bitmapOffset : Nat
  dataOffset : Nat
  deriving DecidableEq

def cowLayout (header : Bytes) : Except HostBuildError CowLayout := do
  let magic := beField header 0 4
  let version := beField header 4 4
  stop (magic ≠ COW_MAGIC ∨ version ≠ 3) (.invalid "overlay"
    ("expected a COW v3 overlay, observed magic 0x" ++ String.ofList (Nat.toDigits 16 magic) ++
      " version " ++ toString version))
  let size := beField header 12 8
  let sectorBytes := beField header 20 4
  let alignment := beField header 24 4
  stop (sectorBytes = 0 ∨ alignment = 0 ∨ leField header 28 4 ≠ 0)
    (.invalid "overlay" "unsupported overlay geometry or bitmap format")
  let sectors := divCeil size sectorBytes
  -- the kernel rounds the header, and the bitmap, up to the alignment
  let bitmapOffset := wrap64 (divCeil COW_HEADER_BYTES alignment * alignment)
  let dataOffset := wrap64 (divCeil (wrap64 (bitmapOffset + divCeil sectors 8)) alignment * alignment)
  return ⟨sectorBytes, sectors, bitmapOffset, dataOffset⟩

def sectorChanged (bitmap : Bytes) (index : Nat) : Bool :=
  (bitmap[index / 8]?).any fun bits => bits.toNat.testBit (index % 8)

def applySectors (overlay bitmap : Bytes) (layout : CowLayout) : List Nat → Bytes × Nat →
    Except HostBuildError (Bytes × Nat)
  | [], result => .ok result
  | index :: rest, (image, applied) =>
    if sectorChanged bitmap index then do
      let start := wrap64 (index * layout.sectorBytes)
      let sector ← readExact overlay (wrap64 (layout.dataOffset + start)) layout.sectorBytes "read overlay sector" "overlay"
      applySectors overlay bitmap layout rest (overwrite image start sector, applied + 1)
    else applySectors overlay bitmap layout rest (image, applied)

def applyCow (image overlay : Bytes) : Except HostBuildError Bytes := do
  let header ← readExact overlay 0 COW_HEADER_BYTES "read overlay header" "overlay"
  let layout ← cowLayout header
  let bitmap ← readExact overlay layout.bitmapOffset
    (divCeil layout.sectors 8) "read overlay bitmap" "overlay"
  let (merged, applied) ← applySectors overlay bitmap layout (List.range layout.sectors) (image, 0)
  stop (applied = 0) (.invalid "overlay"
    "the kept run changed nothing, so committing it would republish its source unchanged")
  return merged

/-- What a helper program leaves when it is run on an image, or how its run fails. -/
structure E2fs where
  /-- `debugfs -R "dump <path> <target>"`: the target file, if the path names a file -/
  dump : Bytes → String → Except HostBuildError (Option Bytes)
  /-- `debugfs -R "blocks <path>"`: its standard output -/
  blocks : Bytes → String → Except HostBuildError String
  /-- `e2fsck -f -n` -/
  e2fsck : Bytes → Except HostBuildError Unit
  /-- `resize2fs <image> <blocks>` -/
  resize2fs : Bytes → Nat → Except HostBuildError Bytes

section

variable (tools : E2fs)

def GENERATION_MARKER_PATH : String := "/.pocket-generation.cbor"

def readGenerationMarker (image : Bytes) : Except HostBuildError Bytes := do
  let target ← tools.dump image GENERATION_MARKER_PATH
  let bytes ← require target (.io "read generation marker" "generation-marker.cbor")
  stop (bytes = []) (.invalid "generation_marker" "image carries no generation marker")
  return bytes

def readGuestFile (image : Bytes) (guestPath : String) : Except HostBuildError String := do
  let target ← tools.dump image guestPath
  require (String.fromUTF8? ⟨(target.getD []).toArray⟩)
    (.invalid "accounts" (guestPath ++ " is not UTF-8 and cannot be canonicalized"))

def verifyFilesystem (image : Bytes) : Except HostBuildError Unit := tools.e2fsck image

def resizeInPlace (image : Bytes) (sourceBytes targetBytes : Nat) :
    Except HostBuildError Bytes := do
  tools.e2fsck image
  let image := if targetBytes > sourceBytes then resize image targetBytes else image
  let image ← tools.resize2fs image (targetBytes / EXT4_BLOCK_BYTES)
  return if targetBytes < sourceBytes then resize image targetBytes else image

def splitWhitespace (text : List Char) :
    List (List Char) := (text.splitOnP isWhiteSpace).filter (· ≠ [])

def parseU64 (field : List Char) : Option Nat :=
  let digits := if field.head? = some '+' then field.tail else field
  if digits ≠ [] ∧ digits.all Char.isDigit then
    let number := digits.foldl (fun n c => n * 10 + (c.toNat - 48)) 0
    if number < 2 ^ 64 then some number else none
  else none

def listedBlocks (listing : String) :
    List Nat := (splitWhitespace listing.toList).filterMap parseU64

/-- The marker goes into the blocks, one after the other; `written` bytes of it are in place. -/
def writeMarkerBlocks (marker : Bytes) : Nat → List Nat → Bytes → Except HostBuildError Bytes
  | _, [], image => .ok image
  | written, block :: rest, image =>
    if written ≥ marker.length then .ok image
    else if block * EXT4_BLOCK_BYTES ≥ 2 ^ 64 then
      .error (.invalid "generation_marker" "block offset overflows")
    else
      let last := min (written + EXT4_BLOCK_BYTES) marker.length
      writeMarkerBlocks marker last rest
        (overwrite image (block * EXT4_BLOCK_BYTES) (slice marker written (last - written)))

def rewriteGenerationMarker (image marker : Bytes) : Except HostBuildError Bytes := do
  let listing ← tools.blocks image GENERATION_MARKER_PATH
  let blocks := listedBlocks listing
  let capacity := min (blocks.length * EXT4_BLOCK_BYTES) (2 ^ 64 - 1)
  stop (blocks = [] ∨ capacity < marker.length) (.invalid "generation_marker"
    ("marker occupies " ++ toString blocks.length ++ " blocks, too few for " ++
      toString marker.length ++ " bytes"))
  writeMarkerBlocks marker 0 blocks image

end

/-- An image as a mounted filesystem: the inode of the regular file that a path names, and what each
inode holds. -/
structure Ext4View where
  inode : Bytes → String → Option Nat
  content : Bytes → Nat → Bytes

namespace Ext4View

variable (view : Ext4View)

def file (image : Bytes) (path : String) :
    Option Bytes := (view.inode image path).map (view.content image)

def Same (image image' : Bytes) : Prop := view.inode image' = view.inode image ∧
    view.content image' = view.content image

variable {view} {image image' image'' : Bytes}

theorem Same.refl : view.Same image image := ⟨rfl, rfl⟩

theorem Same.trans (h : view.Same image image') (h' : view.Same image' image'') :
    view.Same image image'' :=
  ⟨h'.1.trans h.1, h'.2.trans h.2⟩

theorem Same.file (h : view.Same image image') (path : String) :
    view.file image' path = view.file image path := by
  rw [Ext4View.file, h.1, h.2, Ext4View.file]

end Ext4View

/-- The documented behaviour of the helpers, on the files that `view` sees: `dump` copies a file
out, the blocks listed for the marker are those of its file, in order, so that as many bytes written
there replace its contents and nothing else, `resize2fs` makes the filesystem declare the blocks it
is asked for, and a filesystem lies within what it declares. -/
structure E2fs.Sound (tools : E2fs) (view : Ext4View) : Prop where
  dump : ∀ {image path target}, tools.dump image path = .ok target → target = view.file image path
  blocks : ∀ {image image' marker listing}
    {inode : Nat}, view.inode image GENERATION_MARKER_PATH = some inode →
    marker.length = (view.content image inode).length →
      tools.blocks image GENERATION_MARKER_PATH = .ok listing →
    writeMarkerBlocks marker 0 (listedBlocks listing) image = .ok image' →
    view.inode image' = view.inode image ∧ view.content image' inode = marker ∧
      ∀ other ≠ inode, view.content image' other = view.content image other
  resize2fs : ∀ {image image' blocks}, tools.resize2fs image blocks = .ok image' →
    view.Same image image' ∧ ∃ inodes, ext4Geometry image' = .ok (inodes, blocks)
  extent : ∀ {image inodes blocks length}, ext4Geometry image = .ok (inodes, blocks) →
    blocks * EXT4_BLOCK_BYTES ≤ length → view.Same image (resize image length)

section

variable {tools : E2fs} {view : Ext4View} (sound : tools.Sound view) {image image' marker : Bytes}

include sound

theorem readGenerationMarker_ok (h : readGenerationMarker tools image = .ok marker) :
    view.file image GENERATION_MARKER_PATH = some marker := by
  unfold readGenerationMarker at h
  simp only [bind_ok, require_ok, stop_ok, pure_ok] at h
  obtain ⟨target, hdump, bytes, htarget, _, -, rfl⟩ := h
  rw [← sound.dump hdump, htarget]

/-- Neither direction of the resize touches a file. -/
theorem resizeInPlace_same {inodes blocks targetBytes : Nat}
    (hgeometry : ext4Geometry image = .ok (inodes, blocks))
    (haligned : targetBytes % EXT4_BLOCK_BYTES = 0)
    (h : resizeInPlace tools image (blocks * EXT4_BLOCK_BYTES) targetBytes = .ok image') :
    view.Same image image' := by
  unfold resizeInPlace at h
  simp only [bind_ok, pure_ok] at h
  obtain ⟨_, -, resized, hresize, rfl⟩ := h
  obtain ⟨hsame, inodes', hdeclared⟩ := sound.resize2fs hresize
  have hgrown : view.Same image (if targetBytes > blocks * EXT4_BLOCK_BYTES then resize image targetBytes else image) := by
    split
    · exact sound.extent hgeometry (by omega)
    · exact .refl
  have htarget : targetBytes / EXT4_BLOCK_BYTES * EXT4_BLOCK_BYTES = targetBytes :=
    Nat.div_mul_cancel (Nat.dvd_of_mod_eq_zero haligned)
  refine (hgrown.trans hsame).trans ?_
  split
  · exact sound.extent hdeclared htarget.le
  · exact .refl

theorem rewriteGenerationMarker_ok {old : Bytes}
    (hold : view.file image GENERATION_MARKER_PATH = some old)
    (hlen : marker.length = old.length)
    (h : rewriteGenerationMarker tools image marker = .ok image') :
    ∃ inode, view.inode image GENERATION_MARKER_PATH = some inode ∧
      view.inode image' = view.inode image ∧
      view.content image' inode = marker ∧ ∀ other ≠ inode,
        view.content image' other = view.content image other := by
  unfold rewriteGenerationMarker at h
  simp only [bind_ok, stop_ok] at h
  obtain ⟨listing, hlisting, _, -, hwrite⟩ := h
  obtain ⟨inode, hinode, hcontent⟩ := Option.map_eq_some_iff.mp hold
  exact ⟨inode, hinode, sound.blocks hinode (by rw [hlen, hcontent]) hlisting hwrite⟩

end

/-! ### Copying a base image, call by call

`copy_sparse` takes every failure of `lseek` for the end of the file. A failed search for a hole
only makes it copy more; a failed search for data ends it, with whatever the source still stores
left out. -/

/-- How the calls of one copy turn out. No search is made twice from the same place, and no place is
read twice, so the arguments tell the calls apart. -/
structure CopyCalls where
  /-- opening and measuring the source, creating the target and giving it the source's length -/
  prepare : Except HostBuildError Unit
  /-- the error of a search for data (or for a hole) from an offset, if it fails -/
  seek : Bool → Nat → Option Nat
  /-- how many bytes at most a read moves from a place on, next to the first, or how it fails -/
  move : Nat → Except HostBuildError Nat
  sync : Except HostBuildError Unit

namespace CopyCalls

def BUFFER_BYTES : Nat := 1024 * 1024

variable {source : Bytes} (holes : Holes source) (calls : CopyCalls)

def seekHoleAware (start : Nat) (wantData : Bool) : Option Nat :=
  if (calls.seek wantData start).isSome then none
  else if wantData then holes.seekData start
  else holes.seekHole start

def rangeEnd (data : Nat) :
    Nat := min ((seekHoleAware holes calls data false).getD source.length) source.length

/-- The inner loop: reads of any sizes, up to the buffer's. -/
def copyRange (calls : CopyCalls) (source : Bytes) (place remaining : Nat) (target : Bytes) :
    Except HostBuildError Bytes :=
  if remaining = 0 then .ok target
  else do
    let most ← calls.move place
    let want := min remaining BUFFER_BYTES
    let bytes := slice source place (min (most + 1) want)
    -- the end of the file
    if bytes.length = 0 then .ok target
    else
      copyRange calls source (place + bytes.length) (remaining - bytes.length)
        (overwrite target place bytes)
termination_by remaining
decreasing_by exact Nat.sub_lt (Nat.pos_of_ne_zero ‹_›) (Nat.pos_of_ne_zero ‹_›)

variable {holes calls}

variable {data offset : Nat}

theorem seekHoleAware_data {start : Nat} (h : seekHoleAware holes calls start true = some data) :
    holes.seekData start = some data := by
  unfold seekHoleAware at h
  split at h
  · cases h
  · exact h

theorem lt_rangeEnd {start : Nat} (h : seekHoleAware holes calls start true = some data) :
    data < rangeEnd holes calls data := by
  obtain ⟨-, hin, hstored, -⟩ := Holes.next_some (seekHoleAware_data h)
  obtain ⟨found, hfound, hlt⟩ := Holes.lt_seekHole hin hstored
  unfold rangeEnd seekHoleAware
  split
  · exact lt_min hin hin
  · rw [hfound]
    exact lt_min hlt hin

variable (holes calls)

def copyLoop (offset : Nat) (target : Bytes) : Except HostBuildError Bytes :=
  if offset < source.length then
    match _h : seekHoleAware holes calls offset true with
    | none => .ok target
    | some data =>
      if source.length ≤ data then .ok target
      else do
        let target ← copyRange calls source data (rangeEnd holes calls data - data) target
        copyLoop (rangeEnd holes calls data) target
  else .ok target
termination_by source.length - offset
decreasing_by
  have h1 := (Holes.next_some (seekHoleAware_data _h)).1
  have h2 := lt_rangeEnd _h
  omega

def copySparse : Except HostBuildError Bytes := do
  calls.prepare
  let target ← copyLoop holes calls 0 (List.replicate source.length 0)
  calls.sync
  return target

inductive Searches : Nat → Nat → Prop
  | here {offset : Nat} : offset < source.length → Searches offset offset
  | later {offset data place : Nat} : offset < source.length →
    seekHoleAware holes calls offset true = some data →
      Searches (rangeEnd holes calls data) place → Searches offset place

variable {holes calls} {target target' : Bytes}

theorem copyRange_ok {place remaining : Nat} (hin : place + remaining ≤ source.length)
    (hlength : target.length = source.length)
    (h : copyRange calls source place remaining target = .ok target') :
    target'.length = source.length ∧ ∀ p, target'.getD p 0 =
      if place ≤ p ∧ p < place + remaining then source.getD p 0 else target.getD p 0 := by
  induction remaining using Nat.strong_induction_on generalizing place target with
  | _ remaining ih =>
    rw [copyRange] at h
    split at h
    · next hzero =>
      cases h
      exact ⟨hlength, fun p => by rw [if_neg (by omega)]⟩
    · next hpos =>
      obtain ⟨most, -, h⟩ := bind_ok.mp h
      dsimp only at h
      have hbuffer : 0 < BUFFER_BYTES := by decide
      generalize hcount : min (most + 1) (min remaining BUFFER_BYTES) = count at h
      have hlen : (slice source place count).length = count := length_slice (by omega)
      rw [hlen, if_neg (by omega)] at h
      have hkept : (overwrite target place (slice source place count)).length = source.length := by
        rw [length_overwrite]
        omega
      obtain ⟨hlength', hbytes⟩ := ih (remaining - count) (by omega) (by omega) hkept h
      refine ⟨hlength', fun p => ?_⟩
      rw [hbytes, getD_overwrite, hlen, getD_slice]
      by_cases hnew : place ≤ p ∧ p < place + count
      · -- a byte that this read moved
        rw [if_neg (by omega), if_pos hnew, if_pos (by omega), if_pos (by omega),
          Nat.add_sub_cancel' hnew.1]
      · rw [if_neg hnew]
        by_cases hlater : place + count ≤ p ∧ p < place + remaining
        · rw [if_pos (by omega), if_pos (by omega)]
        · rw [if_neg (by omega), if_neg (by omega)]

theorem copyLoop_none (hnone : seekHoleAware holes calls offset true = none) :
    copyLoop holes calls offset target = .ok target := by
  rw [copyLoop]
  split
  · split
    · rfl
    · next hdata =>
      rw [hnone] at hdata
      cases hdata
  · rfl

theorem copyLoop_some (hlt : offset < source.length)
    (hdata : seekHoleAware holes calls offset true = some data) :
    copyLoop holes calls offset target =
      copyRange calls source data (rangeEnd holes calls data - data) target >>= copyLoop holes calls
        (rangeEnd holes calls data) := by
  have hin := (Holes.next_some (seekHoleAware_data hdata)).2.1
  rw [copyLoop, if_pos hlt]
  split
  · next hnone =>
    rw [hdata] at hnone
    cases hnone
  · next data' hdata' =>
    obtain rfl := Option.some.inj (hdata.symm.trans hdata')
    rw [if_neg (by omega)]

theorem copyLoop_end (hend : source.length ≤ offset) :
    copyLoop holes calls offset target = .ok target := by
  rw [copyLoop, if_neg (by omega)]

/-- What the walk has copied when it searches from `offset` on: everything before it, and nothing of
the rest. -/
structure CopiedTo (source : Bytes) (offset : Nat) (target : Bytes) : Prop where
  length : target.length = source.length
  before : ∀ p < offset, target.getD p 0 = source.getD p 0
  after : ∀ p, offset ≤ p → target.getD p 0 = 0

theorem CopiedTo.init : CopiedTo source 0 (List.replicate source.length 0) where
  length := List.length_replicate
  before p hp := absurd hp (Nat.not_lt_zero p)
  after p _ := by
    rw [List.getD_eq_getElem?_getD, List.getElem?_replicate]
    split <;> rfl

/-- A target that holds everything up to `offset` is complete exactly if nothing but zeros follows. -/
theorem CopiedTo.eq_iff (h : CopiedTo source offset target) :
    target = source ↔ ∀ p, offset ≤ p → source.getD p 0 = 0 := by
  constructor
  · rintro rfl p hp
    exact h.after p hp
  · intro hzero
    refine ext_getD h.length fun p _ => ?_
    by_cases hp : p < offset
    · exact h.before p hp
    · rw [h.after p (by omega), hzero p (by omega)]

/-- One turn of the outer loop: the gap before the data is a hole, and the data is copied. -/
theorem CopiedTo.step (h : CopiedTo source offset target)
    (hdata : seekHoleAware holes calls offset true = some data)
    (hrange : copyRange calls source data (rangeEnd holes calls data - data) target = .ok target') :
    CopiedTo source (rangeEnd holes calls data) target' := by
  obtain ⟨hge, -, -, hgap⟩ := Holes.next_some (seekHoleAware_data hdata)
  have hlt := lt_rangeEnd hdata
  have hle : rangeEnd holes calls data ≤ source.length := min_le_right _ _
  obtain ⟨hlength, hbytes⟩ := copyRange_ok (by omega) h.length hrange
  refine ⟨hlength, fun p hp => ?_, fun p hp => ?_⟩
  · rw [hbytes]
    by_cases hin : data ≤ p
    · rw [if_pos (by omega)]
    · rw [if_neg (by omega)]
      by_cases hbefore : p < offset
      · exact h.before p hbefore
      · rw [h.after p (by omega), holes.zero p (by simpa using hgap p (by omega) (by omega))]
  · rw [hbytes, if_neg (by omega)]
    exact h.after p (by omega)

/-- The walk copies everything, or stops where a search for data fails. -/
theorem copyLoop_ok (hcopied : CopiedTo source offset target)
    (h : copyLoop holes calls offset target = .ok target') : target' = source ∨
      ∃ stopped, Searches holes calls offset stopped ∧ (calls.seek true stopped).isSome ∧
        CopiedTo source stopped target' := by
  induction hn : source.length - offset using Nat.strong_induction_on generalizing offset target with
  | _ n ih =>
    by_cases hlt : offset < source.length
    · cases hseek : seekHoleAware holes calls offset true with
      | none =>
        rw [copyLoop_none hseek] at h
        cases h
        unfold seekHoleAware at hseek
        split at hseek
        · next hfault => exact .inr ⟨offset, .here hlt, hfault, hcopied⟩
        · -- nothing is stored from here on
          refine .inl (hcopied.eq_iff.mpr fun p hp => ?_)
          by_cases hin : p < source.length
          · exact holes.zero p (by simpa using Holes.next_none hseek hp hin)
          · exact List.getD_eq_default _ _ (by omega)
      | some data =>
        have hge := (Holes.next_some (seekHoleAware_data hseek)).1
        have hprogress := lt_rangeEnd hseek
        rw [copyLoop_some hlt hseek] at h
        obtain ⟨middle, hrange, h⟩ := bind_ok.mp h
        rcases ih _ (by omega) (hcopied.step hseek hrange) h rfl with hall |
          ⟨stopped, hsearch, hfault, hstopped⟩
        · exact .inl hall
        · exact .inr ⟨stopped, .later hlt hseek hsearch, hfault, hstopped⟩
    · rw [copyLoop_end (by omega)] at h
      cases h
      refine .inl (hcopied.eq_iff.mpr fun p hp => ?_)
      exact List.getD_eq_default _ _ (by omega)

theorem copyLoop_stops {place : Nat} (hsearch : Searches holes calls offset place)
    (hfault : (calls.seek true place).isSome) (hcopied : CopiedTo source offset target)
    (h : copyLoop holes calls offset target = .ok target') : CopiedTo source place target' := by
  induction hsearch generalizing target with
  | here _ =>
    rw [copyLoop_none (if_pos hfault)] at h
    cases h
    exact hcopied
  | later hlt hdata _ ih =>
    rw [copyLoop_some hlt hdata] at h
    obtain ⟨middle, hrange, h⟩ := bind_ok.mp h
    exact ih hfault (hcopied.step hdata hrange) h

theorem copySparse_ok (h : copySparse holes calls = .ok target) :
    copyLoop holes calls 0 (List.replicate source.length 0) = .ok target := by
  unfold copySparse at h
  simp only [bind_ok, pure_ok] at h
  obtain ⟨_, -, target', hloop, _, -, rfl⟩ := h
  exact hloop

/-- A copy that succeeds has the source's length. It has the source's bytes exactly if every search
for data that failed was made where nothing but zeros was left. -/
theorem copy_complete_iff (source : Bytes) (holes : Holes source) (calls : CopyCalls)
    (target : Bytes) (h : copySparse holes calls = .ok target) : target.length = source.length ∧
      (target = source ↔ ∀ offset, Searches holes calls 0 offset → (calls.seek true offset).isSome →
        ∀ p, offset ≤ p → source.getD p 0 = 0) := by
  have hloop := copySparse_ok h
  have hstop := copyLoop_ok CopiedTo.init hloop
  constructor
  · rcases hstop with rfl | ⟨stopped, -, -, hstopped⟩
    · rfl
    · exact hstopped.length
  · constructor
    · intro heq offset hsearch hfault
      exact (copyLoop_stops hsearch hfault .init hloop).eq_iff.mp heq
    · intro hzero
      rcases hstop with rfl | ⟨stopped, hsearch, hfault, hstopped⟩
      · rfl
      · exact hstopped.eq_iff.mpr (hzero stopped hsearch hfault)

/-- Every call does its work, and a read fills the buffer. -/
def reliable : CopyCalls where
  prepare := .ok ()
  seek _ _ := none
  move _ := .ok (BUFFER_BYTES - 1)
  sync := .ok ()

theorem copyRange_reliable (source : Bytes) (place remaining : Nat) (target : Bytes) :
    ∃ target', copyRange reliable source place remaining target = .ok target' := by
  induction remaining using Nat.strong_induction_on generalizing place target with
  | _ remaining ih =>
    rw [copyRange]
    split
    · exact ⟨target, rfl⟩
    · next hpos =>
      rw [show reliable.move place = .ok (BUFFER_BYTES - 1) from rfl]
      dsimp only [bind, Except.bind]
      split
      · exact ⟨target, rfl⟩
      · exact ih _ (by omega) ..

theorem copyLoop_reliable (offset : Nat) (target : Bytes) :
    ∃ target', copyLoop holes reliable offset target = .ok target' := by
  induction hn : source.length - offset using Nat.strong_induction_on generalizing offset target with
  | _ n ih =>
    by_cases hlt : offset < source.length
    · cases hseek : seekHoleAware holes reliable offset true with
      | none => exact ⟨target, copyLoop_none hseek⟩
      | some data =>
        have hge := (Holes.next_some (seekHoleAware_data hseek)).1
        have hprogress := lt_rangeEnd hseek
        obtain ⟨middle, hrange⟩ := copyRange_reliable source data
          (rangeEnd holes reliable data - data) target
        rw [copyLoop_some hlt hseek, hrange]
        exact ih _ (by omega) _ middle rfl
    · exact ⟨target, copyLoop_end (by omega)⟩

@[simp] theorem copySparse_reliable {α : Type} (next : Bytes → Except HostBuildError α) :
    copySparse holes reliable >>= next = next source := by
  obtain ⟨target, hloop⟩ := @copyLoop_reliable source holes 0 (List.replicate source.length 0)
  rcases copyLoop_ok .init hloop with rfl | ⟨stopped, -, hfault, -⟩
  · unfold copySparse
    rw [hloop]
    rfl
  · cases hfault

def failing (kind : Bool) (place : Nat) : CopyCalls where
  prepare := .ok ()
  seek wantData start := if wantData = kind ∧ start = place then some 5 else none
  move _ := .ok 0
  sync := .ok ()

/-- Three bytes, the second of them a hole. -/
def gapped : Holes [7, 0, 9] where
  stored p := p ≠ 1
  zero p h := by
    obtain rfl : p = 1 := by simpa using h
    rfl

/-- The first range is copied whatever becomes of the later searches. -/
theorem copySparse_gapped {kind : Bool} {place : Nat} (hplace : 0 < place) {target : Bytes}
    (hloop : copyLoop gapped (failing kind place) 1 [7, 0, 0] = .ok target) :
    copySparse gapped (failing kind place) = .ok target := by
  have hseek : ∀ wanted, seekHoleAware gapped (failing kind place) 0 wanted =
    some (if wanted then 0 else 1) := by
    intro wanted
    have hreliable : (failing kind place).seek wanted 0 = none := if_neg (by omega)
    unfold seekHoleAware
    rw [hreliable]
    cases wanted <;> decide
  have hfirst : copyLoop gapped (failing kind place) 0 [0, 0, 0] = .ok target := by
    rw [copyLoop_some (by decide) (show _ = some 0 from hseek true), rangeEnd,
      show seekHoleAware gapped (failing kind place) 0 false = some 1 from hseek false]
    change copyRange (failing kind place) [7, 0, 9] 0 1 [0, 0, 0] >>= _ = _
    rw [copyRange]
    change copyRange (failing kind place) [7, 0, 9] 1 0 [7, 0, 0] >>= _ = _
    rw [copyRange, if_pos rfl]
    exact hloop
  unfold copySparse
  simp only [bind_ok, pure_ok]
  exact ⟨(), rfl, target, hfirst, (), rfl, rfl⟩

/-- The search for the end of the second range fails, and nothing is lost. -/
theorem copy_complete_without_hole_search : copySparse gapped (failing false 2) = .ok [7, 0, 9] ∧
      ∀ offset, Searches gapped (failing false 2) 0 offset →
        ((failing false 2).seek true offset).isSome →
        ∀ p, offset ≤ p → ([7, 0, 9] : Bytes).getD p 0 = 0 := by
  have h : copySparse gapped (failing false 2) = .ok [7, 0, 9] := by
    refine copySparse_gapped (by decide) ?_
    rw [copyLoop_some (by decide) (show _ = some 2 by decide)]
    change copyRange (failing false 2) [7, 0, 9] 2 1 [7, 0, 0] >>= _ = _
    rw [copyRange]
    change copyRange (failing false 2) [7, 0, 9] 3 0 [7, 0, 9] >>= _ = _
    rw [copyRange, if_pos rfl]
    exact copyLoop_end (by decide)
  exact ⟨h, (copy_complete_iff _ gapped (failing false 2) _ h).2.mp rfl⟩

/-- The search for the second range fails: the copy succeeds with a zero in place of its byte. -/
theorem failed_data_search_loses_byte : copySparse gapped (failing true 1) = .ok [7, 0, 0] :=
  copySparse_gapped (by decide) (copyLoop_none (by decide))

end CopyCalls

end PocketVm.Runtime
