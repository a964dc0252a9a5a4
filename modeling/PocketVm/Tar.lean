import PocketVm.Numeral

/-!
# Reading tar archives

A reader of ustar archives with pax extended headers: 512-byte headers with octal fields and a
checksum, bodies padded to whole blocks, and records `length key=value` that stand for what a field
cannot hold. POSIX lets a record with an empty value unset its key; readers differ in whether they
do, so it is a parameter.
-/

namespace Tar

open Wire Numeral List

def BLOCK : Nat := 512

def roundUp (n : Nat) : Nat := (n + (BLOCK - 1)) / BLOCK * BLOCK

theorem le_roundUp (n : Nat) : n ≤ roundUp n := by
  unfold roundUp BLOCK
  omega

structure Header where
  name : Bytes
  mode : Bytes
  uid : Bytes
  gid : Bytes
  size : Bytes
  mtime : Bytes
  checksum : Bytes
  typeflag : Bytes
  linkname : Bytes
  magic : Bytes
  version : Bytes
  uname : Bytes
  gname : Bytes
  devmajor : Bytes
  devminor : Bytes
  parent : Bytes
  unused : Bytes
  deriving DecidableEq

def widths : List Nat := [100, 8, 8, 8, 12, 12, 8, 1, 100, 6, 2, 32, 32, 8, 8, 155, 12]

def cut : List Nat → Bytes → List Bytes
  | [], _ => []
  | width :: widths, bytes => bytes.take width :: cut widths (bytes.drop width)

theorem cut_flatten (fields : List Bytes) :
    cut (fields.map List.length) fields.flatten = fields := by
  induction fields with
  | nil => rfl
  | cons field fields ih =>
    rw [map_cons, flatten_cons, cut, take_left, drop_left, ih]

namespace Header

def fields (h : Header) : List Bytes :=
  [h.name, h.mode, h.uid, h.gid, h.size, h.mtime, h.checksum, h.typeflag, h.linkname, h.magic,
    h.version, h.uname, h.gname, h.devmajor, h.devminor, h.parent, h.unused]

def ofFields : List Bytes → Option Header
  | [name, mode, uid, gid, size, mtime, checksum, typeflag, linkname, magic, version, uname, gname,
    devmajor, devminor,
      parent, unused] =>
    some ⟨name, mode, uid, gid, size, mtime, checksum, typeflag, linkname, magic, version, uname,
      gname, devmajor, devminor, parent, unused⟩
  | _ => none

def bytes (h : Header) : Bytes := h.fields.flatten

def Fits (h : Header) : Prop := h.fields.map List.length = widths

def sum (h : Header) :
    Nat := (({ h with checksum := List.replicate 8 32 } : Header).bytes.map UInt8.toNat).sum

theorem length_bytes {h : Header} (hfits : h.Fits) : h.bytes.length = BLOCK := by
  rw [bytes, length_flatten, hfits]
  rfl

theorem ofFields_cut {h : Header} (hfits : h.Fits) : ofFields (cut widths h.bytes) = some h := by
  rw [← hfits, bytes, cut_flatten]
  rfl

theorem sum_lt {h : Header} (hfits : h.Fits) : h.sum < 8 ^ 6 := by
  have hlen : (({ h with checksum := List.replicate 8 32 } : Header).bytes).length = BLOCK := by
    apply length_bytes
    unfold Fits fields widths at hfits ⊢
    simp only [map_cons, List.cons.injEq] at hfits ⊢
    simp [hfits]
  have hbound : ∀ bytes : Bytes, (bytes.map UInt8.toNat).sum ≤ 255 * bytes.length := by
    intro bytes
    induction bytes with
    | nil => exact Nat.zero_le _
    | cons c bytes ih =>
      have hc := c.toNat_lt
      rw [map_cons, sum_cons, length_cons]
      omega
  have hsum := hbound (({ h with checksum := List.replicate 8 32 } : Header).bytes)
  rw [hlen] at hsum
  unfold sum
  unfold BLOCK at hsum
  omega

end Header

/-- An octal number, ended by spaces or NULs. -/
def number (field : Bytes) : Option Nat :=
  let digits := field.takeWhile (isDigit 8)
  if (field.drop digits.length).all fun c => c == 0 || c == 32 then some (value 8 digits) else none

/-- A text, ended by a NUL unless it fills the field. -/
def text (field : Bytes) : Bytes := field.takeWhile (· ≠ 0)

theorem number_digits {digits rest : Bytes} (hdigits : ∀ c ∈ digits, isDigit 8 c = true)
    (hrest : ∀ c ∈ rest, c = 0 ∨ c = 32) : number (digits ++ rest) = some (value 8 digits) := by
  have htake : (digits ++ rest).takeWhile (isDigit 8) = digits := by
    apply takeWhile_digits hdigits
    intro c hc
    rcases hrest c (mem_of_mem_head? hc) with rfl | rfl <;> rfl
  unfold number
  dsimp only
  rw [htake, drop_left, if_pos]
  rw [all_eq_true]
  intro c hc
  rcases hrest c hc with rfl | rfl <;> rfl

theorem text_zeros {value : Bytes} (hzero : ∀ c ∈ value, c ≠ 0) (k : Nat) :
    text (value ++ List.replicate k 0) = value := by
  unfold text
  rw [takeWhile_append_of_pos fun c hc => decide_eq_true (hzero c hc)]
  cases k with
  | zero => simp
  | succ k => simp [replicate_succ]

def readHeader (bytes : Bytes) : Option (Header × Bytes) :=
  match Header.ofFields (cut widths (bytes.take BLOCK)) with
  | none => none
  | some h =>
    if BLOCK ≤ bytes.length ∧ number h.checksum = some h.sum then
      some (h, bytes.drop BLOCK) else none

theorem readHeader_bytes {h : Header} (hfits : h.Fits) (hsum : number h.checksum = some h.sum)
    (rest : Bytes) :
    readHeader (h.bytes ++ rest) = some (h, rest) := by
  have hlen := Header.length_bytes hfits
  unfold readHeader
  rw [← hlen, take_left, drop_left, Header.ofFields_cut hfits]
  dsimp only
  rw [if_pos ⟨by rw [length_append]; omega, hsum⟩]

/-- A record's key ends at its first `=`. -/
def splitPair (pair : Bytes) : Bytes × Bytes :=
  (pair.takeWhile (· ≠ 61), pair.drop ((pair.takeWhile (· ≠ 61)).length + 1))

/-- The record in front: its length in decimal, which counts the whole record, a space, the pair and
a newline. -/
def record (bytes : Bytes) : Option ((Bytes × Bytes) × Bytes) :=
  let digits := bytes.takeWhile (isDigit 10)
  let length := value 10 digits
  match (bytes.take length).drop digits.length with
  | [] => none
  | space :: line =>
    if length ≤ bytes.length ∧ space = 32 ∧ line.getLast? = some 10 ∧ 61 ∈ line.dropLast then
      some (splitPair line.dropLast, bytes.drop length)
    else none

theorem record_shorter {bytes rest : Bytes} {pair : Bytes × Bytes}
    (h : record bytes = some (pair, rest)) :
    rest.length < bytes.length := by
  unfold record at h
  dsimp only at h
  split at h
  · cases h
  · rename_i space line hline
    have hlen := congrArg List.length hline
    rw [length_drop, length_take, length_cons] at hlen
    split at h
    · cases h
      rw [length_drop]
      omega
    · cases h

def records (bytes : Bytes) : Option (List (Bytes × Bytes)) :=
  if bytes = [] then some []
  else
    match _h : record bytes with
    | none => none
    | some (pair, rest) => (records rest).map (pair :: ·)
termination_by bytes.length
decreasing_by exact record_shorter _h

def line (length : Nat) (pair : Bytes) : Bytes := print 10 length ++ 32 :: (pair ++ [10])

theorem record_line {length : Nat} {pair : Bytes} (hlength : (line length pair).length = length)
    (hpair : 61 ∈ pair)
    (rest : Bytes) : record (line length pair ++ rest) = some (splitPair pair, rest) := by
  have hdigits : (line length pair ++ rest).takeWhile (isDigit 10) = print 10 length := by
    rw [line, append_assoc]
    apply takeWhile_digits (isDigit_print (by decide) (by decide))
    rintro c ⟨⟩
    rfl
  unfold record
  dsimp only
  rw [hdigits, value_print (by decide) (by decide), take_left' hlength, drop_left' hlength]
  have hbody : (line length pair).drop (print 10 length).length = 32 :: (pair ++ [10]) := drop_left
  rw [hbody]
  dsimp only
  rw [if_pos, dropLast_concat]
  refine ⟨?_, rfl, getLast?_concat, ?_⟩
  · rw [length_append, hlength]
    exact Nat.le_add_right ..
  · rwa [dropLast_concat]

theorem records_lines {lines : List (Nat × Bytes)}
    (h : ∀ l ∈ lines, (line l.1 l.2).length = l.1 ∧ 61 ∈ l.2) :
    records (lines.flatMap fun l => line l.1 l.2) = some (lines.map fun l => splitPair l.2) := by
  induction lines with
  | nil =>
    unfold records
    rfl
  | cons l lines ih =>
    obtain ⟨hlength, hpair⟩ := h l (mem_cons_self ..)
    have hne : line l.1 l.2 ++ lines.flatMap (fun l => line l.1 l.2) ≠ [] := by
      unfold line
      simp
    rw [flatMap_cons]
    unfold records
    rw [if_neg hne, record_line hlength hpair]
    dsimp only
    rw [ih fun l hl => h l (mem_cons_of_mem _ hl)]
    rfl

section
variable {key value : Bytes}

theorem splitPair_key (h : 61 ∉ key) : splitPair (key ++ 61 :: value) = (key, value) := by
  have htake : (key ++ 61 :: value).takeWhile (· ≠ 61) = key := by
    rw [takeWhile_append_of_pos]
    · simp
    · intro c hc
      exact decide_eq_true fun heq => h (heq ▸ hc)
  unfold splitPair
  rw [htake, ← drop_drop, drop_left]
  rfl

theorem not_mem_splitPair (pair : Bytes) : 61 ∉ (splitPair pair).1 := by
  intro h
  have hall := all_eq_true.mp (all_takeWhile (p := fun c : UInt8 => decide (c ≠ 61))
    (l := pair)) 61 h
  simp at hall

theorem splitPair_append (hkey : 61 ∉ key) :
    splitPair (key ++ value) = (key ++ (splitPair value).1, (splitPair value).2) := by
  have htake : (key ++ value).takeWhile (· ≠ 61) = key ++ value.takeWhile (· ≠ 61) := by
    rw [takeWhile_append_of_pos]
    intro c hc
    exact decide_eq_true fun heq => hkey (heq ▸ hc)
  unfold splitPair
  rw [htake, length_append, Nat.add_assoc, ← drop_drop, drop_left]

end

def PATH : Bytes := [112, 97, 116, 104]
def LINKPATH : Bytes := [108, 105, 110, 107, 112, 97, 116, 104]
def MTIME : Bytes := [109, 116, 105, 109, 101]
def SIZE : Bytes := [115, 105, 122, 101]
def UID : Bytes := [117, 105, 100]
def GID : Bytes := [103, 105, 100]
/-- `SCHILY.xattr.` -/
def XATTR : Bytes := [83, 67, 72, 73, 76, 89, 46, 120, 97, 116, 116, 114, 46]

inductive Kind where
  | file | hardlink | symlink | charDevice | blockDevice | directory | fifo
  deriving DecidableEq

def kindOf (typeflag : Bytes) : Option Kind :=
  match typeflag.map UInt8.toNat with
  | [0] | [48] => some .file
  | [49] => some .hardlink
  | [50] => some .symlink
  | [51] => some .charDevice
  | [52] => some .blockDevice
  | [53] => some .directory
  | [54] => some .fifo
  | _ => none

/-- `mtime` is in nanoseconds since the epoch. -/
structure Member where
  path : Bytes
  link : Bytes
  typeflag : Bytes
  mode : Nat
  uid : Nat
  gid : Nat
  size : Nat
  mtime : Int
  devmajor : Nat
  devminor : Nat
  xattrs : List (Bytes × Bytes)
  deriving DecidableEq

def lookup (records : List (Bytes × Bytes)) (key : Bytes) :
    Option Bytes := records.reverse.lookup key

theorem lookup_some {records : List (Bytes × Bytes)} {key value : Bytes}
    (hmem : (key, value) ∈ records)
    (hunique : ∀ v, (key, v) ∈ records → v = value) : lookup records key = some value := by
  unfold lookup
  rw [← mem_reverse] at hmem
  have hunique' : ∀ v, (key, v) ∈ records.reverse → v = value := fun v hv =>
    hunique v (mem_reverse.mp hv)
  generalize records.reverse = records at hmem hunique'
  induction records with
  | nil => cases hmem
  | cons r records ih =>
    obtain ⟨k, v⟩ := r
    rw [lookup_cons]
    by_cases hk : key = k
    · subst hk
      simp [hunique' v (mem_cons_self ..)]
    · rw [beq_eq_false_iff_ne.mpr hk]
      rcases mem_cons.mp hmem with heq | hmem
      · cases heq
        exact absurd rfl hk
      · exact ih hmem fun v hv => hunique' v (mem_cons_of_mem _ hv)

theorem lookup_none {records : List (Bytes × Bytes)} {key : Bytes} (h : ∀ r ∈ records, r.1 ≠ key) :
    lookup records key = none := by
  unfold lookup
  rw [lookup_eq_none_iff]
  intro r hr
  have hkey : key ≠ r.1 := fun heq => h r (mem_reverse.mp hr) heq.symm
  simpa using hkey

def decimal (text : Bytes) : Option Nat :=
  if text ≠ [] ∧ text.all (isDigit 10) then some (value 10 text) else none

/-- A decimal number of seconds, with a sign and a fraction, to the nanosecond. -/
def time (text : Bytes) : Option Int :=
  let negative := text.head? = some 45
  let digits := if negative then text.tail else text
  let seconds := digits.takeWhile (isDigit 10)
  match digits.drop seconds.length with
  | [] => (decimal seconds).map fun s => if negative then -(s * 10 ^ 9 : Int) else s * 10 ^ 9
  | point :: fraction =>
    if point = 46 ∧ fraction.all (isDigit 10) then
      (decimal seconds).map fun s =>
        let nanoseconds : Nat := s * 10 ^ 9 + value 10 ((fraction ++ List.replicate 9 48).take 9)
        if negative then -(nanoseconds : Int) else nanoseconds
    else none

def numeric (records : List (Bytes × Bytes)) (key field : Bytes) : Option Nat :=
  match lookup records key with
  | some text => decimal text
  | none => number field

def modified (records : List (Bytes × Bytes)) (field : Bytes) : Option Int :=
  match lookup records MTIME with
  | some text => time text
  | none => (number field).map fun s => (s : Int) * 10 ^ 9

/-- The path in the fields: the name, below the parent if there is one. -/
def Header.path (h : Header) : Bytes :=
  if h.magic = [117, 115, 116, 97, 114, 0] ∧ text h.parent ≠ [] then
    text h.parent ++ 47 :: text h.name
  else text h.name

def hasBody (typeflag : Bytes) : Bool := typeflag == [48] || typeflag == [0]

def memberOf (h : Header) (records : List (Bytes × Bytes)) : Option Member := do
  let mode ← number h.mode
  let uid ← numeric records UID h.uid
  let gid ← numeric records GID h.gid
  let size ← numeric records SIZE h.size
  let mtime ← modified records h.mtime
  let devmajor ← number h.devmajor
  let devminor ← number h.devminor
  return {
    path := (lookup records PATH).getD h.path
    link := (lookup records LINKPATH).getD (text h.linkname)
    typeflag := h.typeflag
    mode, uid, gid, size, mtime, devmajor, devminor
    xattrs := records.filterMap fun r => (r.1.dropPrefix? XATTR).map fun name => (name, r.2) }

def bodySize (m : Member) : Nat := if hasBody m.typeflag then m.size else 0

def readBody (h : Header) (records : List (Bytes × Bytes)) (rest : Bytes) :
    Option (Member × Bytes) :=
  match memberOf h records with
  | none => none
  | some m => if bodySize m ≤ rest.length then some (m, rest.drop (roundUp (bodySize m))) else none

section
variable (keepsEmpty : Bool)

/-- Records with no value count as absent, unless the reader keeps them. -/
def kept (records : List (Bytes × Bytes)) : List (Bytes × Bytes) :=
  records.filter fun r => keepsEmpty || !r.2.isEmpty

/-- The next member, with the extended header before it if there is one. -/
def readMember (bytes : Bytes) : Option (Member × Bytes) := do
  let (h, rest) ← readHeader bytes
  if h.typeflag = [120] then
    let size ← number h.size
    let pairs ← records (rest.take size)
    let (h, rest) ← readHeader (rest.drop (roundUp size))
    readBody h (kept keepsEmpty pairs) rest
  else readBody h [] rest

theorem readHeader_length {bytes rest : Bytes} {h : Header}
    (hread : readHeader bytes = some (h, rest)) :
    rest.length < bytes.length := by
  unfold readHeader at hread
  split at hread
  · cases hread
  · split at hread
    · rename_i hlen
      cases hread
      have : 0 < BLOCK := by decide
      rw [length_drop]
      omega
    · cases hread

theorem readBody_length {records : List (Bytes × Bytes)} {bytes rest : Bytes}
    {h : Header} {m : Member}
    (hread : readBody h records bytes = some (m, rest)) : rest.length ≤ bytes.length := by
  unfold readBody at hread
  split at hread
  · cases hread
  · split at hread
    · cases hread
      rw [length_drop]
      omega
    · cases hread

variable {keepsEmpty}

theorem readMember_shorter {bytes rest : Bytes} {m : Member}
    (h : readMember keepsEmpty bytes = some (m, rest)) :
    rest.length < bytes.length := by
  unfold readMember at h
  rw [Option.bind_eq_bind, Option.bind_eq_some_iff] at h
  obtain ⟨⟨first, after⟩, hfirst, h⟩ := h
  have hafter := readHeader_length hfirst
  dsimp only at h
  split at h
  · simp only [Option.bind_eq_bind, Option.bind_eq_some_iff] at h
    obtain ⟨size, -, pairs, -, ⟨second, last⟩, hsecond, h⟩ := h
    have hlast := readHeader_length hsecond
    have hrest : rest.length ≤ last.length := readBody_length h
    rw [length_drop] at hlast
    omega
  · have hrest := readBody_length h
    omega

variable (keepsEmpty)

def isEnd (bytes : Bytes) : Bool := BLOCK ≤ bytes.length && (bytes.take BLOCK).all (· == 0)

def readArchive (bytes : Bytes) : Option (List Member) :=
  if isEnd bytes then some []
  else
    match _h : readMember keepsEmpty bytes with
    | none => none
    | some (m, rest) => (readArchive rest).map (m :: ·)
termination_by bytes.length
decreasing_by exact readMember_shorter _h

end

end Tar
