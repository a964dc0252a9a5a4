import PocketVm.Protocol.Message
import PocketVm.Tar

/-!
# Exporting an image

`oci_export.rs`: the layer of an exported image is a tar archive written from the stored manifest,
with the contents that `debugfs` dumped into a scratch directory. The writer below never fails to
write; what it has written is its digest's input too.
-/

namespace PocketVm.Runtime.OciExport

open Wire Protocol Numeral List
open Tar (BLOCK)

def KIND_FILE : UInt8 := 1
def KIND_DIRECTORY : UInt8 := 2
def KIND_SYMLINK : UInt8 := 3
def KIND_CHAR_DEVICE : UInt8 := 4
def KIND_BLOCK_DEVICE : UInt8 := 5
def KIND_FIFO : UInt8 := 6
def KIND_SOCKET : UInt8 := 7

def NAME_FIELD : Nat := 100
def LINK_FIELD : Nat := 100

def writeField (width : Nat) (value : Bytes) : Bytes :=
  let take := min value.length (width - 1)
  value.take take ++ List.replicate (width - take) 0

/-- What `write_octal` leaves in a field of zeros: the last digits that fit. -/
def writeOctal (width value : Nat) : Bytes :=
  let text := padded 8 (width - 1) value
  let take := min text.length (width - 1)
  text.drop (text.length - take) ++ List.replicate (width - take) 0

def emptyHeader : Tar.Header where
  name := List.replicate 100 0
  mode := List.replicate 8 0
  uid := List.replicate 8 0
  gid := List.replicate 8 0
  size := List.replicate 12 0
  mtime := List.replicate 12 0
  checksum := List.replicate 8 0
  typeflag := [0]
  linkname := List.replicate 100 0
  magic := List.replicate 6 0
  version := List.replicate 2 0
  uname := List.replicate 32 0
  gname := List.replicate 32 0
  devmajor := List.replicate 8 0
  devminor := List.replicate 8 0
  parent := List.replicate 155 0
  unused := List.replicate 12 0

def finishHeader (header : Tar.Header) : Tar.Header :=
  { header with checksum := padded 8 6 header.sum ++ [0, 32] }

/-- `BTreeMap::insert`, the map as its pairs in the order of their keys. -/
def insertRecord (key value : Bytes) : List (Bytes × Bytes) → List (Bytes × Bytes)
  | [] => [(key, value)]
  | (key', value') :: records =>
    if key < key' then (key, value) :: (key', value') :: records
    else if key = key' then (key, value) :: records
    else (key', value') :: insertRecord key value records

/-- The loop of `encode_pax` from a guess on: a length that counts its own digits. -/
def growLength (body : Nat) : Nat → Nat → Nat
  | 0, length => length
  | fuel + 1, length =>
    if (print 10 length).length + body ≠ length then growLength body fuel (length + 1) else length

def recordLength (body : Nat) : Nat := growLength body (body + 1) (body + 1)

def encodePax (records : List (Bytes × Bytes)) : Bytes :=
  records.flatMap fun (key, value) =>
    print 10 (recordLength (key.length + value.length + 3)) ++ [32] ++ key ++ [61] ++ value ++ [10]

def printInt (n : Int) : Bytes := if n < 0 then 45 :: print 10 n.natAbs else print 10 n.natAbs

/-- All that was written; `written` is its length. -/
structure TarBuilder where
  inner : Bytes
  deriving DecidableEq

namespace TarBuilder

def new : TarBuilder := ⟨[]⟩

def emit (b : TarBuilder) (bytes : Bytes) : TarBuilder := ⟨b.inner ++ bytes⟩

def pad (b : TarBuilder) : TarBuilder :=
  let remainder := b.inner.length % BLOCK
  if remainder ≠ 0 then b.emit (List.replicate (BLOCK - remainder) 0) else b

def finish (sha256 : Bytes → Digest) (b : TarBuilder) : Bytes × Digest :=
  let b := b.emit (List.replicate (BLOCK * 2) 0)
  (b.inner, sha256 b.inner)

end TarBuilder

def memberPath (entry : ManifestEntry) : Bytes :=
  if entry.kind = KIND_DIRECTORY ∧ entry.path.getLast? ≠ some 47 then
    entry.path ++ [47] else entry.path

def memberLink (entry : ManifestEntry) :
    Bytes := (entry.hardlinkTarget.or entry.symlinkTarget).getD []

def mtimeText (entry : ManifestEntry) : Bytes :=
  printInt entry.mtimeSeconds.toInt ++ [46] ++ padded 10 9 entry.mtimeNanoseconds.toNat

/-- Whatever will not fit, or is not expressible, in the historical fixed-width fields. -/
def paxRecords (entry : ManifestEntry) : List (Bytes × Bytes) :=
  let records := if (memberPath entry).length > NAME_FIELD then
    insertRecord Tar.PATH (memberPath entry) [] else []
  let records :=
    if (memberLink entry).length > LINK_FIELD then
      insertRecord Tar.LINKPATH (memberLink entry) records else records
  let records :=
    if entry.mtimeNanoseconds ≠ 0 then insertRecord Tar.MTIME (mtimeText entry) records else records
  entry.xattrs.foldl (fun records xattr =>
    insertRecord (Tar.XATTR ++ xattr.name) xattr.value records) records

def paxHeader (entry : ManifestEntry) (payload : Bytes) : Tar.Header :=
  finishHeader { emptyHeader with
    -- `PaxHeaders/0`
    name := writeField 100 [80, 97, 120, 72, 101, 97, 100, 101, 114, 115, 47, 48]
    mode := writeOctal 8 0o644
    uid := writeOctal 8 0
    gid := writeOctal 8 0
    size := writeOctal 12 payload.length
    mtime := writeOctal 12 (max entry.mtimeSeconds.toInt 0).toNat
    typeflag := [120] }

def hasContents (entry : ManifestEntry) :
    Bool := entry.kind == KIND_FILE && entry.hardlinkTarget.isNone

def bodyLength (entry : ManifestEntry) (contents : Bytes) :
    Nat := if hasContents entry then contents.length else 0

def typeflag (entry : ManifestEntry) : Except String UInt8 :=
  if entry.kind = KIND_FILE then .ok (if entry.hardlinkTarget.isSome then 49 else 48)
  else if entry.kind = KIND_SYMLINK then .ok 50
  else if entry.kind = KIND_CHAR_DEVICE then .ok 51
  else if entry.kind = KIND_BLOCK_DEVICE then .ok 52
  else if entry.kind = KIND_DIRECTORY then .ok 53
  else if entry.kind = KIND_FIFO then .ok 54
  else .error ("unknown entry kind " ++ toString entry.kind.toNat)

def isDevice (entry : ManifestEntry) :
    Bool := entry.kind == KIND_CHAR_DEVICE || entry.kind == KIND_BLOCK_DEVICE

def writtenMajor (rdev : UInt64) : UInt64 := (rdev >>> 8) &&& 0xfff
def writtenMinor (rdev : UInt64) :
    UInt64 := (rdev &&& 0xff : UInt64) ||| ((rdev >>> 12) &&& 0xfff00)

def memberHeader (entry : ManifestEntry) (contents : Bytes) (flag : UInt8) : Tar.Header :=
  finishHeader { emptyHeader with
    name := writeField 100 (memberPath entry)
    mode := writeOctal 8 (entry.mode &&& 0o7777).toNat
    uid := writeOctal 8 entry.uid.toNat
    gid := writeOctal 8 entry.gid.toNat
    size := writeOctal 12 (bodyLength entry contents)
    mtime := writeOctal 12 (max entry.mtimeSeconds.toInt 0).toNat
    typeflag := [flag]
    linkname := writeField 100 (memberLink entry)
    -- `ustar\0`, `00`
    magic := [117, 115, 116, 97, 114, 0]
    version := [48, 48]
    devmajor := if isDevice entry then
      writeOctal 8 (writtenMajor entry.rdev).toNat else List.replicate 8 0
    devminor := if isDevice entry then
      writeOctal 8 (writtenMinor entry.rdev).toNat else List.replicate 8 0 }

namespace TarBuilder

/-- One entry, with `contents` for a regular file, and whether anything was written for it. -/
def append (b : TarBuilder) (entry : ManifestEntry) (contents : Bytes) :
    Except String (Bool × TarBuilder) :=
  if entry.kind = KIND_SOCKET then .ok (false, b)
  else do
    let records := paxRecords entry
    let payload := encodePax records
    let b := if records ≠ [] then ((b.emit (paxHeader entry payload).bytes).emit payload).pad else b
    let flag ← typeflag entry
    let b := b.emit (memberHeader entry contents flag).bytes
    return (true, if bodyLength entry contents > 0 then (b.emit contents).pad else b)

def appendAll (b : TarBuilder) (members : List (ManifestEntry × Bytes)) :
    Except String TarBuilder :=
  members.foldlM (fun b member => do
    let (_, b) ← b.append member.1 member.2
    return b) b

end TarBuilder

def layerPath (entry : ManifestEntry) : Option Bytes :=
  -- `rootfs/`
  (entry.path.dropPrefix? [114, 111, 111, 116, 102, 115, 47]).filter fun rest => !rest.isEmpty

def stagedName (index : Nat) : Bytes := 102 :: padded 10 8 index

def join (path name : Bytes) : Bytes :=
  if path = [] then name else if path.getLast? = some 47 then path ++ name else path ++ [47] ++ name

def dumped (entries : List ManifestEntry) : List (ManifestEntry × Nat) :=
  entries.zipIdx.filter fun (entry, _) =>
    entry.kind == KIND_FILE && entry.hardlinkTarget.isNone && entry.size != 0 &&
      (layerPath entry).isSome

def dumpScript (entries : List ManifestEntry) (scratch : Bytes) : Bytes :=
  (dumped entries).flatMap (fun (entry, index) =>
    -- `dump /`
    [100, 117, 109, 112, 32, 47] ++ entry.path ++ [32] ++
      join scratch (stagedName index) ++ [10]) ++
  -- `quit`
  [113, 117, 105, 116, 10]

namespace Debugfs

/-- The nonempty pieces of a text between separators, the first one starting with `current`. -/
def pieces (separates : UInt8 → Bool) (current : Bytes) : Bytes → List Bytes
  | [] => if current = [] then [] else [current]
  | c :: rest =>
    if separates c then (if current = [] then [] else [current]) ++ pieces separates [] rest
    else pieces separates (current ++ [c]) rest

def isNewline (c : UInt8) : Bool := c == 10

def isSpace (c : UInt8) : Bool := c == 32 || (9 ≤ c && c ≤ 13)

/-- One command for each line that is not blank, its arguments separated by whitespace. -/
def commands (script : Bytes) : List (List Bytes) :=
  ((pieces isNewline [] script).map (pieces isSpace [])).filter (· ≠ [])

variable {separates : UInt8 → Bool} {current word rest : Bytes}

theorem pieces_word (h : ∀ c ∈ word, separates c = false) :
    pieces separates current (word ++ rest) = pieces separates (current ++ word) rest := by
  induction word generalizing current with
  | nil => rw [nil_append, append_nil]
  | cons c word ih =>
    rw [cons_append, pieces, if_neg (by rw [h c (mem_cons_self ..)]; decide),
      ih fun c hc => h c (mem_cons_of_mem _ hc), append_assoc]
    rfl

theorem pieces_first {c : UInt8} (h : ∀ c ∈ word, separates c = false) (hne : word ≠ [])
    (hc : separates c = true) :
    pieces separates [] (word ++ c :: rest) = word :: pieces separates [] rest := by
  rw [pieces_word h, nil_append, pieces, if_pos hc, if_neg hne]
  rfl

theorem pieces_only (h : ∀ c ∈ word, separates c = false) (hne : word ≠ []) :
    pieces separates [] word = [word] := by
  have hword : pieces separates [] (word ++ []) = pieces separates ([] ++ word) [] := pieces_word h
  rw [append_nil, nil_append] at hword
  rw [hword, pieces, if_neg hne]

theorem not_separates_of_mem_pieces (hcurrent : ∀ c ∈ current, separates c = false) {text : Bytes}
    (h : word ∈ pieces separates current text) : ∀ c ∈ word, separates c = false := by
  have hflush : word ∈ (if current = [] then [] else [current]) → ∀ c ∈ word,
    separates c = false := by
    intro hmem
    split at hmem
    · cases hmem
    · rwa [mem_singleton.mp hmem]
  induction text generalizing current with
  | nil => exact hflush h
  | cons c text ih =>
    rw [pieces] at h
    split at h
    · rcases mem_append.mp h with h | h
      · exact hflush h
      · exact ih (by simp) h (by simp)
    · rename_i hc
      have hnext : ∀ d ∈ current ++ [c], separates d = false := by
        intro d hd
        rcases mem_append.mp hd with hd | hd
        · exact hcurrent d hd
        · rw [mem_singleton.mp hd]
          exact Bool.not_eq_true _ ▸ hc
      refine ih hnext h ?_
      intro hmem
      split at hmem
      · cases hmem
      · rwa [mem_singleton.mp hmem]

theorem isNewline_of_not_isSpace {c : UInt8} (h : isSpace c = false) : isNewline c = false := by
  unfold isNewline
  rw [beq_eq_false_iff_ne]
  rintro rfl
  cases h

def spaced : List Bytes → Bytes
  | [] => []
  | [word] => word
  | word :: words => word ++ 32 :: spaced words

theorem spaced_words {words : List Bytes} (hne : words ≠ [])
    (hwords : ∀ w ∈ words, w ≠ [] ∧ ∀ c ∈ w, isSpace c = false) :
    spaced words ≠ [] ∧ (∀ c ∈ spaced words, isNewline c = false) ∧
      pieces isSpace [] (spaced words) = words := by
  induction words with
  | nil => exact absurd rfl hne
  | cons w words ih =>
    obtain ⟨hw, hspace⟩ := hwords w (mem_cons_self ..)
    cases words with
    | nil => exact ⟨hw, fun c hc => isNewline_of_not_isSpace (hspace c hc), pieces_only hspace hw⟩
    | cons w' words =>
      obtain ⟨-, hline, hrest⟩ := ih (by simp) fun w hw => hwords w (mem_cons_of_mem _ hw)
      refine ⟨by simp [spaced, hw], ?_, ?_⟩
      · intro c hc
        rcases mem_append.mp hc with hc | hc
        · exact isNewline_of_not_isSpace (hspace c hc)
        · rcases mem_cons.mp hc with rfl | hc
          · rfl
          · exact hline c hc
      · rw [spaced, pieces_first hspace hw rfl, hrest]
        exact cons_ne_nil _ _

theorem commands_line {words : List Bytes} (hne : words ≠ [])
    (hwords : ∀ w ∈ words, w ≠ [] ∧ ∀ c ∈ w, isSpace c = false) (rest : Bytes) :
    commands (spaced words ++ 10 :: rest) = words :: commands rest := by
  obtain ⟨hnonempty, hline, hpieces⟩ := spaced_words hne hwords
  unfold commands
  rw [pieces_first hline hnonempty rfl, map_cons, hpieces, filter_cons_of_pos (by simpa using hne)]

end Debugfs

open Debugfs

def DUMP : Bytes := [100, 117, 109, 112]
def QUIT : Bytes := [113, 117, 105, 116]

/-- What the script is for: each file dumped to its place in the scratch directory, and nothing
else. -/
def intended (entries : List ManifestEntry) (scratch : Bytes) : List (List Bytes) :=
  (dumped entries).map (fun (entry, index) => [DUMP, 47 :: entry.path,
    join scratch (stagedName index)]) ++ [[QUIT]]

theorem isSpace_of_isDigit {c : UInt8} (h : isDigit 10 c = true) : isSpace c = false := by
  unfold isDigit at h
  simp only [Bool.and_eq_true, decide_eq_true_eq] at h
  unfold isSpace
  simp only [Bool.or_eq_false_iff, beq_eq_false_iff_ne, Bool.and_eq_false_iff,
    decide_eq_false_iff_not, ne_eq]
  refine ⟨?_, .inr fun hle => ?_⟩
  · rintro rfl
    exact absurd h (by decide)
  · have : c.toNat ≤ 13 := hle
    omega

theorem mem_join {path name : Bytes} {c : UInt8} (hc : c ∈ path ∨ c ∈ name) :
    c ∈ join path name := by
  unfold join
  split
  · rename_i hpath
    subst hpath
    simpa using hc
  · split <;> simp only [mem_append] <;> tauto

theorem not_isSpace_join {path : Bytes} (h : ∀ c ∈ path, isSpace c = false) (index : Nat) :
    ∀ c ∈ join path (stagedName index), isSpace c = false := by
  have hname : ∀ c ∈ stagedName index, isSpace c = false := by
    intro c hc
    rcases mem_cons.mp hc with rfl | hc
    · rfl
    · exact isSpace_of_isDigit (isDigit_padded (by decide) (by decide) c hc)
  intro c hc
  unfold join at hc
  split at hc
  · exact hname c hc
  · split at hc
    · rcases mem_append.mp hc with hc | hc
      · exact h c hc
      · exact hname c hc
    · rcases mem_append.mp hc with hc | hc
      · rcases mem_append.mp hc with hc | hc
        · exact h c hc
        · rw [mem_singleton.mp hc]
          rfl
      · exact hname c hc

theorem join_ne_nil (path : Bytes) (index : Nat) : join path (stagedName index) ≠ [] := by
  unfold join stagedName
  split
  · exact cons_ne_nil _ _
  · split <;> simp

/-- The script says what is intended exactly when no dumped path holds whitespace, nor the scratch
directory if anything is dumped at all. -/
theorem dumpScript_intended_iff (entries : List ManifestEntry) (scratch : Bytes) :
    commands (dumpScript entries scratch) = intended entries scratch ↔
      ∀ file ∈ dumped entries, (∀ c ∈ file.1.path, isSpace c = false) ∧ ∀ c ∈ scratch,
        isSpace c = false := by
  constructor
  · intro h file hfile
    -- no argument of any command holds whitespace, and the intended ones hold the paths
    have hargument : ∀ w, (∃ command ∈ intended entries scratch, w ∈ command) → ∀ c ∈ w,
      isSpace c = false := by
      rintro w ⟨command, hcommand, hw⟩
      rw [← h] at hcommand
      obtain ⟨line, -, rfl⟩ := mem_map.mp (mem_of_mem_filter hcommand)
      exact not_separates_of_mem_pieces (by simp) hw
    have hcommand : [DUMP, 47 :: file.1.path,
      join scratch (stagedName file.2)] ∈ intended entries scratch :=
      mem_append_left _ (mem_map_of_mem hfile)
    constructor
    · intro c hc
      exact hargument (47 :: file.1.path) ⟨_, hcommand, by simp⟩ c (mem_cons_of_mem _ hc)
    · intro c hc
      exact hargument (join scratch (stagedName file.2)) ⟨_, hcommand, by simp⟩ c
        (mem_join (.inl hc))
  · intro h
    unfold dumpScript intended
    generalize dumped entries = files at h
    induction files with
    | nil =>
      show commands [113, 117, 105, 116, 10] = [[QUIT]]
      decide +kernel
    | cons file files ih =>
      obtain ⟨hpath, hscratch⟩ := h file (mem_cons_self ..)
      have hline : ([100, 117, 109, 112, 32, 47] ++ file.1.path ++ [32] ++
        join scratch (stagedName file.2) ++ [10] : Bytes) =
          spaced [DUMP, 47 :: file.1.path, join scratch (stagedName file.2)] ++ [10] := by
        simp [DUMP, spaced]
      rw [flatMap_cons, map_cons, append_assoc, cons_append]
      dsimp only
      rw [hline, append_assoc, singleton_append, commands_line (by simp) ?_,
        ih fun file hfile => h file (mem_cons_of_mem _ hfile)]
      intro w hw
      rcases mem_cons.mp hw with rfl | hw
      · exact ⟨by decide +kernel, by decide +kernel⟩
      rcases mem_cons.mp hw with rfl | hw
      · refine ⟨cons_ne_nil _ _, fun c hc => ?_⟩
        rcases mem_cons.mp hc with rfl | hc
        · rfl
        · exact hpath c hc
      · rw [mem_singleton.mp hw]
        exact ⟨join_ne_nil scratch file.2, not_isSpace_join hscratch file.2⟩

/-- A file whose name spells a command of its own: `a`, a newline, `dump /rootfs/b /etc/x`, a
newline, `q`. -/
def injecting : ManifestEntry where
  path := [114, 111, 111, 116, 102, 115, 47, 97, 10, 100, 117, 109, 112, 32, 47, 114, 111, 111, 116,
    102, 115, 47, 98, 32, 47, 101, 116, 99, 47, 120, 10, 113]
  kind := KIND_FILE
  mode := 0o644
  uid := 0
  gid := 0
  size := 1
  rdev := 0
  mtimeSeconds := 0
  mtimeNanoseconds := 0
  symlinkTarget := none
  contentSha256 := some (List.replicate 32 0)
  hardlinkTarget := none
  xattrs := []

/-- It passes validation and has `debugfs` write `/etc/x` on the host. -/
theorem dumpScript_injected : injecting.validate = .ok () ∧
    [DUMP, [47, 114, 111, 111, 116, 102, 115, 47, 98], [47, 101, 116, 99, 47, 120]] ∈
      commands (dumpScript [injecting] [47, 116]) ∧
    commands (dumpScript [injecting] [47, 116]) ≠ intended [injecting] [47, 116] := by
  decide +kernel

end PocketVm.Runtime.OciExport
