import PocketVm.Runtime.OciLayer

/-!
# What survives an export

An archive of entries is read back member by member as long as every body fits its size field. From
there on, each part of an entry survives under a condition of its own.
-/

namespace PocketVm.Runtime.OciExport

open Wire Protocol Numeral Checked Tar List

/-! ### Whole archives -/

section
variable {e : ManifestEntry} {contents : Bytes} {flag : UInt8} {keepsEmpty : Bool}

def flagOf (e : ManifestEntry) : UInt8 := (typeflag e).toOption.getD 0

theorem typeflag_flagOf (hvalid : Validated e) (hsocket : e.kind ≠ KIND_SOCKET) :
    typeflag e = .ok (flagOf e) := by
  have hkinds : ∀ kind : UInt8, 1 ≤ kind ∧ kind ≤ 7 → kind ≠ KIND_SOCKET →
    kind = KIND_FILE ∨ kind = KIND_SYMLINK ∨
      kind = KIND_CHAR_DEVICE ∨ kind = KIND_BLOCK_DEVICE ∨ kind = KIND_DIRECTORY ∨
        kind = KIND_FIFO := by
    rintro kind ⟨hlow, hhigh⟩ hne
    rw [UInt8.le_iff_toNat_le] at hlow hhigh
    simp only [ne_eq, ← UInt8.toNat_inj, KIND_SOCKET, KIND_FILE, KIND_SYMLINK, KIND_CHAR_DEVICE,
      KIND_BLOCK_DEVICE, KIND_DIRECTORY, KIND_FIFO, UInt8.reduceToNat] at hlow hhigh hne ⊢
    omega
  obtain ⟨flag, hflag⟩ : ∃ flag, typeflag e = .ok flag := by
    unfold typeflag
    rcases hkinds e.kind hvalid.kind hsocket with h | h | h | h | h |
      h <;> rw [h] <;> exact ⟨_, rfl⟩
  rw [flagOf, hflag]
  rfl

def written (members : List (ManifestEntry × Bytes)) : List (ManifestEntry × Bytes) :=
  members.filter fun m => m.1.kind ≠ KIND_SOCKET

def archiveBytes (members : List (ManifestEntry × Bytes)) : Bytes :=
  (written members).flatMap fun m => memberBytes m.1 m.2 (flagOf m.1)

theorem appendAll_eq {members : List (ManifestEntry × Bytes)}
    (hvalid : ∀ m ∈ members, Validated m.1) {b : TarBuilder}
    (hblock : b.inner.length % BLOCK = 0) :
    b.appendAll members = .ok (b.emit (archiveBytes members)) := by
  induction members generalizing b with
  | nil =>
    show Except.ok b = _
    rw [TarBuilder.emit, archiveBytes]
    simp [written]
  | cons m members ih =>
    have hrest := fun m hm => hvalid m (mem_cons_of_mem _ hm)
    unfold TarBuilder.appendAll
    rw [foldlM_cons]
    by_cases hsocket : m.1.kind = KIND_SOCKET
    · have happend : b.append m.1 m.2 = .ok (false, b) := if_pos hsocket
      have hskip : archiveBytes (m :: members) = archiveBytes members := by
        unfold archiveBytes written
        rw [filter_cons_of_neg (by simpa using hsocket)]
      rw [happend, hskip]
      exact ih hrest hblock
    · have happend : b.append m.1 m.2 = _ :=
        append_eq hblock hsocket (typeflag_flagOf (hvalid m (mem_cons_self ..)) hsocket)
      have htake : archiveBytes (m :: members) = memberBytes m.1 m.2 (flagOf m.1) ++
        archiveBytes members := by
        unfold archiveBytes written
        rw [filter_cons_of_pos (by simpa using hsocket), flatMap_cons]
      have hnext : (b.emit (memberBytes m.1 m.2 (flagOf m.1))).inner.length % BLOCK = 0 := by
        have hbytes : (memberBytes m.1 m.2 (flagOf m.1)).length % BLOCK = 0 := length_memberBytes
        show (b.inner ++ _).length % BLOCK = 0
        rw [length_append]
        unfold BLOCK at hblock hbytes ⊢
        omega
      rw [happend, htake]
      have hemit : b.emit (memberBytes m.1 m.2 (flagOf m.1) ++ archiveBytes members) =
          (b.emit (memberBytes m.1 m.2 (flagOf m.1))).emit (archiveBytes members) := by
        unfold TarBuilder.emit
        rw [append_assoc]
      rw [hemit]
      exact ih hrest hnext

def ending : Bytes := List.replicate (BLOCK * 2) 0

theorem readArchive_ending : readArchive keepsEmpty ending = some [] := by
  unfold readArchive
  rw [if_pos (by decide +kernel)]

theorem readArchive_cons (hvalid : Validated e) (hflag : typeflag e = .ok flag)
    (hsize : bodyLength e contents < 8 ^ 11)
    (rest : Bytes) : readArchive keepsEmpty (memberBytes e contents flag ++ rest) =
      (readArchive keepsEmpty rest).map (asRead keepsEmpty e contents flag :: ·) := by
  obtain ⟨hend, hread⟩ := readMember_memberBytes contents keepsEmpty hvalid hflag rest
  rw [Nat.mod_eq_of_lt hsize, drop_left' length_stored] at hread
  rw [readArchive, hend, if_neg (by decide)]
  split
  · rename_i hnone
    rw [hread] at hnone
    cases hnone
  · rename_i m rest' hsome
    rw [hread] at hsome
    cases hsome
    rfl

theorem readArchive_ones {n : Nat} (hn : BLOCK ≤ n) (rest : Bytes) :
    readArchive keepsEmpty (List.replicate n 255 ++ rest) = none := by
  have htake : (List.replicate n 255 ++ rest).take BLOCK = List.replicate 512 255 := by
    rw [take_append_of_le_length (by rw [length_replicate]; exact hn), take_replicate,
      Nat.min_eq_left (show BLOCK ≤ n from hn)]
    rfl
  have hend : isEnd (List.replicate n 255 ++ rest) = false := by
    unfold isEnd
    rw [htake, Bool.and_eq_false_iff]
    exact .inr (by decide +kernel)
  have hheader : readHeader (List.replicate n 255 ++ rest) = none := by
    have hchecksum : ∀ h ∈ Header.ofFields (cut widths (List.replicate 512 255)),
        number h.checksum = none := by decide +kernel
    unfold readHeader
    rw [htake]
    split
    · rfl
    · rename_i h hfields
      rw [if_neg]
      rw [hchecksum h hfields]
      exact fun hsum => nomatch hsum.2
  have hmember : readMember keepsEmpty (List.replicate n 255 ++ rest) = none := by
    unfold readMember
    rw [hheader]
    rfl
  rw [readArchive, hend, if_neg (by decide)]
  split
  · rfl
  · rename_i hsome
    rw [hmember] at hsome
    cases hsome

end

/-! ### Names -/

section
variable {e : ManifestEntry} {contents : Bytes} {flag : UInt8} {keepsEmpty : Bool}

def layerName (e : ManifestEntry) :
    Bytes := if e.kind = KIND_DIRECTORY then e.path ++ [47] else e.path

def layerKind (e : ManifestEntry) : Option Kind :=
  match e.kind.toNat with
  | 1 => some (if e.hardlinkTarget.isSome then .hardlink else .file)
  | 2 => some .directory
  | 3 => some .symlink
  | 4 => some .charDevice
  | 5 => some .blockDevice
  | 6 => some .fifo
  | _ => none

theorem nil_mem_components (path : Bytes) : ∃ init : List Bytes, init ≠ [] ∧
    components (path ++ [47]) = init ++ [[]] := by
  unfold components List.splitOn
  induction path with
  | nil => exact ⟨[[]], by simp, by simp [splitOnP_cons_eq_if_modifyHead]⟩
  | cons c path ih =>
    obtain ⟨init, hinit, heq⟩ := ih
    rw [cons_append, splitOnP_cons_eq_if_modifyHead, heq]
    split
    · exact ⟨[] :: init, by simp, rfl⟩
    · cases init with
      | nil => exact absurd rfl hinit
      | cons first init => exact ⟨(c :: first) :: init, by simp, rfl⟩

theorem memberPath_eq (h : e.validate = .ok ()) : memberPath e = layerName e := by
  unfold ManifestEntry.validate at h
  simp only [bind_ok, refuse_ok] at h
  obtain ⟨_, -, _, hregular, -⟩ := h
  have hslash : e.path.getLast? ≠ some 47 := by
    intro hlast
    obtain ⟨path, hpath⟩ := getLast?_eq_some_iff.mp hlast
    obtain ⟨init, -, hcomponents⟩ := nil_mem_components path
    apply hregular
    right
    rw [hpath]
    refine ⟨by simp, ?_⟩
    rw [any_eq_true]
    exact ⟨[], by rw [hcomponents]; simp, rfl⟩
  unfold memberPath layerName
  by_cases hdirectory : e.kind = KIND_DIRECTORY
  · rw [if_pos ⟨hdirectory, hslash⟩, if_pos hdirectory]
  · rw [if_neg fun h => hdirectory h.1, if_neg hdirectory]

theorem kindOf_flagOf (hflag : typeflag e = .ok flag) : kindOf [flag] = layerKind e := by
  unfold typeflag at hflag
  unfold layerKind
  split_ifs at hflag with hfile htarget hlink hchar hblock hdirectory hfifo
  · rw [hfile, ← Except.ok.inj hflag, htarget]
    rfl
  · rw [hfile, ← Except.ok.inj hflag, Bool.eq_false_of_not_eq_true htarget]
    rfl
  · rw [hlink, ← Except.ok.inj hflag]
    rfl
  · rw [hchar, ← Except.ok.inj hflag]
    rfl
  · rw [hblock, ← Except.ok.inj hflag]
    rfl
  · rw [hdirectory, ← Except.ok.inj hflag]
    rfl
  · rw [hfifo, ← Except.ok.inj hflag]
    rfl

/-- What is read has the entry's names, type and extended attributes. -/
structure SameNames (m : Member) (e : ManifestEntry) : Prop where
  path : m.path = layerName e
  link : m.link = memberLink e
  kind : kindOf m.typeflag = layerKind e
  xattrs : ∀ name value, (name, value) ∈ m.xattrs ↔ ⟨name, value⟩ ∈ e.xattrs

/-- Names that the writer can express to a reader: none of exactly the length of its field, no `=`
in the name of an attribute, and no empty value if the reader drops such records. -/
structure Expressible (keepsEmpty : Bool) (e : ManifestEntry) : Prop where
  path : (layerName e).length ≠ NAME_FIELD
  link : (memberLink e).length ≠ LINK_FIELD
  xattrs : ∀ x ∈ e.xattrs, 61 ∉ x.name ∧ (keepsEmpty = true ∨ x.value ≠ [])

theorem cut_name_iff (name : Bytes) : (if name.length > 100 then name else name.take 99) = name ↔
    name.length ≠ 100 := by
  by_cases hlong : name.length > 100
  · rw [if_pos hlong]
    exact iff_of_true rfl (by omega)
  · rw [if_neg hlong, take_eq_self_iff]
    omega

theorem mem_xattrs (hvalid : Validated e) {name value : Bytes} :
    (name, value) ∈ (asRead keepsEmpty e contents flag).xattrs ↔
    ∃ x ∈ e.xattrs, asXattr x = (name, value) ∧ (keepsEmpty = true ∨ value ≠ []) := by
  have hread : (name, value) ∈ (asRead keepsEmpty e contents flag).xattrs ↔
      (XATTR ++ name, value) ∈ readRecords keepsEmpty e := by
    unfold asRead
    simp only [mem_filterMap, Option.map_eq_some_iff, dropPrefix?_eq_some_iff]
    constructor
    · rintro ⟨⟨key, v⟩, hr, rest, ⟨front, hkey, hfront⟩, heq⟩
      cases heq
      rw [beq_iff_eq] at hfront
      rw [hfront] at hkey
      rwa [← hkey]
    · intro hr
      exact ⟨_, hr, name, ⟨XATTR, rfl, by decide⟩, rfl⟩
  rw [hread, mem_readRecords hvalid]
  have hfield : (XATTR ++ name, value) ∉ fieldRecords e := by
    intro hr
    obtain ⟨_, hfield, -⟩ := mem_fieldRecords.mp hr
    have hkeys : ∀ key ∈ [MTIME, LINKPATH, PATH], key.head? ≠ some 83 := by decide
    exact hkeys _ hfield.key_mem rfl
  rw [or_iff_left hfield]
  constructor
  · rintro ⟨x, hx, heq, hkept⟩
    obtain ⟨hname, hvalue⟩ := Prod.mk.inj heq
    have hpair : asXattr x = (name, value) := Prod.ext (append_cancel_left hname).symm hvalue.symm
    exact ⟨x, hx, hpair, hvalue ▸ hkept⟩
  · rintro ⟨x, hx, heq, hkept⟩
    exact ⟨x, hx, by rw [heq], by rw [heq]; exact hkept⟩

theorem sameNames_asRead_iff (h : e.validate = .ok ()) (hflag : typeflag e = .ok flag) :
    SameNames (asRead keepsEmpty e contents flag) e ↔ Expressible keepsEmpty e := by
  have hvalid := validated h
  have hpath := cut_name_iff (memberPath e)
  have hlink := cut_name_iff (memberLink e)
  constructor
  · intro hsame
    refine ⟨?_, hlink.mp hsame.link, ?_⟩
    · rw [← memberPath_eq h]
      exact hpath.mp (hsame.path.trans (memberPath_eq h).symm)
    · intro x hx
      obtain ⟨y, -, heq, hkept⟩ := (mem_xattrs hvalid).mp ((hsame.xattrs x.name x.value).mpr hx)
      refine ⟨?_, hkept⟩
      have hname : (asXattr y).1 = x.name := congrArg Prod.fst heq
      rw [← hname]
      exact not_mem_splitPair _
  · intro hexpressible
    have hpathLength := hexpressible.path
    rw [← memberPath_eq h] at hpathLength
    refine ⟨(hpath.mpr hpathLength).trans (memberPath_eq h), hlink.mpr hexpressible.link,
      kindOf_flagOf hflag, ?_⟩
    intro name value
    rw [mem_xattrs hvalid]
    constructor
    · rintro ⟨x, hx, heq, -⟩
      rw [asXattr, splitPair_key (hexpressible.xattrs x hx).1] at heq
      cases heq
      exact hx
    · intro hx
      exact ⟨_, hx, splitPair_key (hexpressible.xattrs _ hx).1, (hexpressible.xattrs _ hx).2⟩

end

/-! ### Every archive -/

section
variable {keepsEmpty : Bool}

/-- Every entry with contents comes with as many bytes as it says. -/
def Filled (entries : List ManifestEntry) (members : List (ManifestEntry × Bytes)) : Prop :=
  members.map Prod.fst = entries ∧ ∀ m ∈ members, hasContents m.1 = true →
    m.2.length = m.1.size.toNat

def representable (entries : List ManifestEntry) : List ManifestEntry := entries.filter fun e =>
    e.kind ≠ KIND_SOCKET

/-- The archive of the entries gives them back, whatever their contents. -/
def ReadsBack (keepsEmpty : Bool) (entries : List ManifestEntry) : Prop :=
  ∀ members, Filled entries members → ∃ read,
    readArchive keepsEmpty (archiveBytes members ++ ending) = some read ∧
      List.Forall₂ SameNames read (representable entries)

def filler (e : ManifestEntry) :
    Bytes := if hasContents e then List.replicate e.size.toNat 255 else []

variable {e : ManifestEntry} {entries : List ManifestEntry}

theorem length_filler (h : hasContents e = true) : (filler e).length = e.size.toNat := by
  rw [filler, if_pos h, length_replicate]

theorem filled_filler (entries : List ManifestEntry) :
    Filled entries (entries.map fun e => (e, filler e)) := by
  refine ⟨by simp [Function.comp_def], ?_⟩
  intro m hm hcontents
  obtain ⟨e, -, rfl⟩ := mem_map.mp hm
  exact length_filler hcontents

variable {members : List (ManifestEntry × Bytes)} {contents : Bytes}

theorem Filled.cons
    (hfilled : Filled entries members)
    (hcontents : hasContents e = true → contents.length = e.size.toNat) :
    Filled (e :: entries) ((e, contents) :: members) := by
  refine ⟨by rw [map_cons, hfilled.1], ?_⟩
  intro m hm
  rcases mem_cons.mp hm with rfl | hm
  · exact hcontents
  · exact hfilled.2 m hm

theorem Filled.uncons (hfilled : Filled (e :: entries) members) : ∃ contents rest,
    members = (e, contents) :: rest ∧
      (hasContents e = true → contents.length = e.size.toNat) ∧ Filled entries rest := by
  obtain ⟨hmembers, hlengths⟩ := hfilled
  obtain ⟨⟨e', contents⟩, rest, rfl, rfl, hrest⟩ := map_eq_cons_iff.mp hmembers
  exact ⟨contents, rest, rfl, hlengths _ (mem_cons_self ..), hrest,
    fun m hm => hlengths m (mem_cons_of_mem _ hm)⟩

theorem bodyLength_filled (hcontents : hasContents e = true → contents.length = e.size.toNat) :
    bodyLength e contents = if hasContents e then e.size.toNat else 0 := by
  unfold bodyLength
  split
  · rename_i h
    rw [hcontents h]
  · rfl

/-- A file too long for its size field leaves the reader inside its contents. -/
theorem readArchive_oversized {flag : UInt8} (hvalid : Validated e) (hflag : typeflag e = .ok flag)
    (hcontents : hasContents e = true) (hsize : 8 ^ 11 ≤ e.size.toNat) (rest : Bytes) :
    readArchive keepsEmpty (memberBytes e (filler e) flag ++ rest) = none := by
  have hfiller : filler e = List.replicate e.size.toNat 255 := if_pos hcontents
  have hbody : bodyLength e (filler e) = e.size.toNat := by
    rw [bodyLength, if_pos hcontents, hfiller, length_replicate]
  obtain ⟨hend, hread⟩ := readMember_memberBytes (filler e) keepsEmpty hvalid hflag rest
  generalize hskip : roundUp (bodyLength e (filler e) % 8 ^ 11) = skip at hread
  have hleft : skip + BLOCK ≤ e.size.toNat := by
    rw [← hskip]
    unfold roundUp BLOCK
    omega
  have hstored : stored e (filler e) = List.replicate e.size.toNat 255 ++ padding e.size.toNat := by
    rw [stored, if_pos (by rw [hbody]; omega), hfiller, length_replicate]
  rw [hstored, append_assoc, drop_append_of_le_length (by rw [length_replicate]; omega),
    drop_replicate] at hread
  rw [readArchive, hend, if_neg (by decide)]
  split
  · rfl
  · rename_i m rest' hsome
    rw [hread] at hsome
    cases hsome
    rw [readArchive_ones (by omega)]
    rfl

def Survives (keepsEmpty : Bool) (e : ManifestEntry) : Prop :=
  e.kind ≠ KIND_SOCKET → Expressible keepsEmpty e ∧ (hasContents e = true → e.size.toNat < 8 ^ 11)

theorem readsBack_socket (hsocket : e.kind = KIND_SOCKET) :
    ReadsBack keepsEmpty (e :: entries) ↔ ReadsBack keepsEmpty entries := by
  have hskip : ∀ members contents, archiveBytes ((e, contents) :: members) =
    archiveBytes members := by
    intro members contents
    unfold archiveBytes written
    rw [filter_cons_of_neg (by simpa using hsocket)]
  have hrepresentable : representable (e :: entries) = representable entries :=
    filter_cons_of_neg (by simpa using hsocket)
  unfold ReadsBack
  rw [hrepresentable]
  constructor
  · intro h members hfilled
    have hread := h _ (hfilled.cons length_filler)
    rwa [hskip] at hread
  · intro h members hfilled
    obtain ⟨contents, rest, rfl, -, hrest⟩ := hfilled.uncons
    rw [hskip]
    exact h rest hrest

/-- The first entry survives and leaves the reader at the next one, or the archive is misread. -/
theorem readsBack_cons (h : e.validate = .ok ())
    (hsocket : e.kind ≠ KIND_SOCKET) : ReadsBack keepsEmpty (e :: entries) ↔
      (Expressible keepsEmpty e ∧ (hasContents e = true → e.size.toNat < 8 ^ 11)) ∧
        ReadsBack keepsEmpty entries := by
  have hflag := typeflag_flagOf (validated h) hsocket
  have htake : ∀ members contents, archiveBytes ((e, contents) :: members) ++ ending =
      memberBytes e contents (flagOf e) ++ (archiveBytes members ++ ending) := by
    intro members contents
    unfold archiveBytes written
    rw [filter_cons_of_pos (by simpa using hsocket), flatMap_cons, append_assoc]
  have hrepresentable : representable (e :: entries) = e :: representable entries :=
    filter_cons_of_pos (by simpa using hsocket)
  have hread : ∀ members contents, (hasContents e = true → contents.length = e.size.toNat) →
      (hasContents e = true → e.size.toNat < 8 ^ 11) →
      readArchive keepsEmpty (archiveBytes ((e, contents) :: members) ++ ending) =
        (readArchive keepsEmpty (archiveBytes members ++ ending)).map
          (asRead keepsEmpty e contents (flagOf e) :: ·) := by
    intro members contents hcontents hsize
    rw [htake]
    apply readArchive_cons (validated h) hflag
    rw [bodyLength_filled hcontents]
    split
    · exact hsize ‹_›
    · decide
  constructor
  · intro hback
    have hsize : hasContents e = true → e.size.toNat < 8 ^ 11 := by
      intro hcontents
      by_contra hlong
      obtain ⟨read, hnone, -⟩ := hback _ ((filled_filler entries).cons length_filler)
      rw [htake, readArchive_oversized (validated h) hflag hcontents (Nat.not_lt.mp hlong)] at hnone
      cases hnone
    have hboth : ∀ members, Filled entries members →
      SameNames (asRead keepsEmpty e (filler e) (flagOf e)) e ∧
        ∃ read, readArchive keepsEmpty (archiveBytes members ++ ending) = some read ∧
          List.Forall₂ SameNames read (representable entries) := by
      intro members hfilled
      obtain ⟨read, hsome, hsame⟩ := hback _ (hfilled.cons length_filler)
      rw [hread _ _ length_filler hsize, Option.map_eq_some_iff] at hsome
      obtain ⟨later, hlater, rfl⟩ := hsome
      rw [hrepresentable, List.forall₂_cons] at hsame
      exact ⟨hsame.1, later, hlater, hsame.2⟩
    refine ⟨⟨(sameNames_asRead_iff h hflag).mp (hboth _ (filled_filler entries)).1, hsize⟩, ?_⟩
    exact fun members hfilled => (hboth members hfilled).2
  · rintro ⟨⟨hexpressible, hsize⟩, hback⟩ members hfilled
    obtain ⟨contents, rest, rfl, hcontents, hrest⟩ := hfilled.uncons
    obtain ⟨later, hlater, hsame⟩ := hback rest hrest
    refine ⟨_ :: later, by rw [hread _ _ hcontents hsize, hlater]; rfl, ?_⟩
    rw [hrepresentable]
    exact .cons ((sameNames_asRead_iff h hflag).mpr hexpressible) hsame

theorem readsBack_iff (hvalid : ∀ e ∈ entries, e.validate = .ok ()) :
    ReadsBack keepsEmpty entries ↔ ∀ e ∈ entries, Survives keepsEmpty e := by
  induction entries with
  | nil =>
    refine iff_of_true ?_ (by simp)
    rintro members ⟨hmembers, -⟩
    rw [map_eq_nil_iff.mp hmembers]
    exact ⟨[], readArchive_ending, .nil⟩
  | cons e entries ih =>
    rw [forall_mem_cons, ← ih fun e he => hvalid e (mem_cons_of_mem _ he)]
    by_cases hsocket : e.kind = KIND_SOCKET
    · rw [readsBack_socket hsocket]
      exact (and_iff_right fun hother => absurd hsocket hother).symm
    · rw [readsBack_cons (hvalid e (mem_cons_self ..)) hsocket]
      refine and_congr_left' ?_
      exact ⟨fun hsurvives _ => hsurvives, fun hsurvives => hsurvives hsocket⟩

/-- For validated entries with any contents of their recorded sizes, the archive gives back every
entry's path, link target, type and extended attributes exactly when no path or link has the length
of its field, no attribute's name holds `=`, none is empty where the reader drops such, and every
file fits the size field. -/
theorem layer_names_read_back_iff (sha256 : Bytes → Digest) (keepsEmpty : Bool)
    (entries : List ManifestEntry) (hvalid : ∀ e ∈ entries, e.validate = .ok ()) :
    (∀ members, Filled entries members → ∃ b read, TarBuilder.new.appendAll members = .ok b ∧
      readArchive keepsEmpty (b.finish sha256).1 = some read ∧ List.Forall₂ SameNames read
        (representable entries)) ↔
    ∀ e ∈ entries, e.kind ≠ KIND_SOCKET →
      ((layerName e).length ≠ 100 ∧ (memberLink e).length ≠ 100 ∧
        ∀ x ∈ e.xattrs, 61 ∉ x.name ∧ (keepsEmpty = true ∨ x.value ≠ [])) ∧
      (hasContents e = true → e.size.toNat < 2 ^ 33) := by
  have hback : ReadsBack keepsEmpty entries ↔ ∀ members, Filled entries members → ∃ b read,
      TarBuilder.new.appendAll members = .ok b ∧
        readArchive keepsEmpty (b.finish sha256).1 = some read ∧
        List.Forall₂ SameNames read (representable entries) := by
    refine forall_congr' fun members => forall_congr' fun hfilled => ?_
    have hall : ∀ m ∈ members, Validated m.1 := by
      intro m hm
      have hmem : m.1 ∈ members.map Prod.fst := mem_map_of_mem hm
      rw [hfilled.1] at hmem
      exact validated (hvalid m.1 hmem)
    have hbuilt : TarBuilder.new.appendAll members = .ok ⟨archiveBytes members⟩ :=
      appendAll_eq hall rfl
    constructor
    · rintro ⟨read, hread, hsame⟩
      exact ⟨_, read, hbuilt, hread, hsame⟩
    · rintro ⟨b, read, hb, hread, hsame⟩
      cases hbuilt.symm.trans hb
      exact ⟨read, hread, hsame⟩
  rw [← hback, readsBack_iff hvalid]
  refine forall_congr' fun e => forall_congr' fun _ => forall_congr' fun _ =>
    and_congr ?_ (by norm_num)
  exact ⟨fun h => ⟨h.path, h.link, h.xattrs⟩, fun h => ⟨h.1, h.2.1, h.2.2⟩⟩

def plainFile (path : Bytes) : ManifestEntry where
  path := path
  kind := KIND_FILE
  mode := 0o644
  uid := 0
  gid := 0
  size := 0
  rdev := 0
  mtimeSeconds := 0
  mtimeNanoseconds := 0
  symlinkTarget := none
  contentSha256 := some (List.replicate 32 0)
  hardlinkTarget := none
  xattrs := []

/-- `a`, with the attribute `user.x` of value `1`, after a path that takes a record. -/
def survivors : List ManifestEntry :=
  [plainFile (List.replicate 150 97),
    { plainFile [97] with size := 1, xattrs := [⟨[117, 115, 101, 114, 46, 120], [49]⟩] }]

/-- These two are read back even by a reader that drops empty records. -/
theorem layer_names_read_back_survivors : (∀ e ∈ survivors, e.validate = .ok ()) ∧
    ∀ members, Filled survivors members → ∃ b read, TarBuilder.new.appendAll members = .ok b ∧
      readArchive false (b.finish fun _ => ⟨0⟩).1 = some read ∧
        List.Forall₂ SameNames read (representable survivors) := by
  have hvalid : ∀ e ∈ survivors, e.validate = .ok () := by decide +kernel
  exact ⟨hvalid, (layer_names_read_back_iff (fun _ => ⟨0⟩) false survivors hvalid).mpr
    (by decide +kernel)⟩

/-- A path of 100 bytes is not put into a record, and its field holds 99 of them. -/
theorem layer_names_cut : (plainFile (List.replicate 100 97)).validate = .ok () ∧
    ((TarBuilder.new.appendAll [(plainFile (List.replicate 100 97), [])]).toOption.bind fun b =>
      (readArchive true (b.finish fun _ => ⟨0⟩).1).map fun read => read.map Member.path) =
        some [List.replicate 99 97] := by
  decide +kernel

end

/-! ### Numbers -/

section
variable {e : ManifestEntry} {contents : Bytes} {flag : UInt8} {keepsEmpty : Bool}

/-- The major number of a device: bits 8 to 19 and 44 to 63. -/
def deviceMajor (rdev : Nat) : Nat := rdev / 2 ^ 8 % 2 ^ 12 + rdev / 2 ^ 44 * 2 ^ 12

/-- The minor number of a device: bits 0 to 7 and 20 to 43. -/
def deviceMinor (rdev : Nat) : Nat := rdev % 2 ^ 8 + rdev / 2 ^ 20 % 2 ^ 24 * 2 ^ 8

theorem toNat_writtenMajor (rdev : UInt64) :
    (writtenMajor rdev).toNat = rdev.toNat / 2 ^ 8 % 2 ^ 12 := by
  unfold writtenMajor
  rw [UInt64.toNat_and, UInt64.toNat_shiftRight, show (0xfff : UInt64).toNat = 2 ^ 12 - 1 from rfl,
    Nat.and_two_pow_sub_one_eq_mod, Nat.shiftRight_eq_div_pow]
  rfl

theorem toNat_writtenMinor (rdev : UInt64) :
    (writtenMinor rdev).toNat = rdev.toNat % 2 ^ 8 + rdev.toNat / 2 ^ 20 % 2 ^ 12 * 2 ^ 8 := by
  have hhigh : rdev.toNat / 2 ^ 12 &&& 0xfff00 = 2 ^ 8 * (rdev.toNat / 2 ^ 20 % 2 ^ 12) := by
    rw [show 0xfff00 = (2 ^ 12 - 1) <<< 8 from rfl]
    apply Nat.eq_of_testBit_eq
    intro i
    rw [Nat.testBit_and, Nat.testBit_shiftLeft, Nat.testBit_two_pow_mul, Nat.testBit_mod_two_pow,
      Nat.testBit_two_pow_sub_one, Nat.testBit_div_two_pow, Nat.testBit_div_two_pow]
    by_cases hi : i ≥ 8
    · rw [show i - 8 + 20 = i + 12 by omega]
      simp [hi, Bool.and_comm]
    · simp [hi]
  unfold writtenMinor
  rw [UInt64.toNat_or, UInt64.toNat_and, UInt64.toNat_and, UInt64.toNat_shiftRight,
    show (0xff : UInt64).toNat = 2 ^ 8 - 1 from rfl, Nat.and_two_pow_sub_one_eq_mod,
      Nat.shiftRight_eq_div_pow]
  show rdev.toNat % 2 ^ 8 ||| (rdev.toNat / 2 ^ 12 &&& 0xfff00) = _
  rw [hhigh, Nat.or_comm, ← Nat.two_pow_add_eq_or_of_lt (Nat.mod_lt _ (by decide))]
  omega

theorem mod_eq_iff {n k : Nat} (hk : 0 < k) : n % k = n ↔ n < k :=
  ⟨fun h => h ▸ Nat.mod_lt n hk, Nat.mod_eq_of_lt⟩

/-- The words of a device number that are written are all of it below 32 bits, and not above. -/
theorem device_written_iff (rdev : UInt64) :
    ((writtenMajor rdev).toNat % 8 ^ 7 = deviceMajor rdev.toNat ∧
      (writtenMinor rdev).toNat % 8 ^ 7 = deviceMinor rdev.toNat) ↔ rdev.toNat < 2 ^ 32 := by
  have hlt := rdev.toNat_lt
  rw [toNat_writtenMajor, toNat_writtenMinor]
  generalize rdev.toNat = r at hlt
  have hmajor : r / 2 ^ 8 % 2 ^ 12 % 8 ^ 7 = r / 2 ^ 8 % 2 ^ 12 := Nat.mod_eq_of_lt (by omega)
  have hminor : (r % 2 ^ 8 + r / 2 ^ 20 % 2 ^ 12 * 2 ^ 8) % 8 ^ 7 =
    r % 2 ^ 8 + r / 2 ^ 20 % 2 ^ 12 * 2 ^ 8 :=
    Nat.mod_eq_of_lt (by omega)
  unfold deviceMajor deviceMinor
  rw [hmajor, hminor]
  constructor
  · rintro ⟨hhigh, hlow⟩
    have hmiddle : r / 2 ^ 20 % 2 ^ 12 = r / 2 ^ 20 % 2 ^ 24 := by omega
    rw [Nat.mod_eq_of_lt (show r / 2 ^ 20 < 2 ^ 24 by omega)] at hmiddle
    omega
  · intro hshort
    have hbits : r / 2 ^ 44 = 0 := by omega
    have hmiddle : r / 2 ^ 20 < 2 ^ 12 := by omega
    rw [hbits, Nat.mod_eq_of_lt hmiddle, Nat.mod_eq_of_lt (hmiddle.trans (by decide))]
    exact ⟨rfl, rfl⟩

/-- What is read has the entry's numbers; the size is that of its own contents. -/
structure SameNumbers (m : Member) (e : ManifestEntry) : Prop where
  mode : m.mode = e.mode.toNat
  uid : m.uid = e.uid.toNat
  gid : m.gid = e.gid.toNat
  size : m.size = if hasContents e then e.size.toNat else 0
  mtime : m.mtime = e.mtimeSeconds.toInt * 10 ^ 9 + e.mtimeNanoseconds.toNat
  device : m.devmajor = deviceMajor e.rdev.toNat ∧ m.devminor = deviceMinor e.rdev.toNat

/-- A time is read back from 1970 on; without a fraction it also has to fit its field. -/
theorem mtime_asRead_iff : (asRead keepsEmpty e contents flag).mtime =
    e.mtimeSeconds.toInt * 10 ^ 9 + e.mtimeNanoseconds.toNat ↔
      0 ≤ e.mtimeSeconds.toInt ∧ (e.mtimeNanoseconds ≠ 0 ∨ e.mtimeSeconds.toInt < 2 ^ 33) := by
  have hzero : e.mtimeNanoseconds = 0 ↔ e.mtimeNanoseconds.toNat = 0 := by
    rw [← UInt32.toNat_inj]
    rfl
  unfold asRead
  by_cases hnanos : e.mtimeNanoseconds = 0
  · have hn := hzero.mp hnanos
    rw [if_neg (not_not.mpr hnanos), hn]
    simp only [ne_eq, hnanos, not_true_eq_false, false_or]
    omega
  · have hn := mt hzero.mpr hnanos
    rw [if_pos hnanos]
    simp only [ne_eq, hnanos, not_false_eq_true, true_or, and_true]
    split <;> omega

theorem device_asRead_iff (hvalid : Validated e) :
    ((asRead keepsEmpty e contents flag).devmajor = deviceMajor e.rdev.toNat ∧
      (asRead keepsEmpty e contents flag).devminor = deviceMinor e.rdev.toNat) ↔
    (isDevice e = true → e.rdev.toNat < 2 ^ 32) := by
  unfold asRead
  dsimp only
  by_cases hdevice : isDevice e = true
  · rw [if_pos hdevice, if_pos hdevice, device_written_iff]
    exact ⟨fun h _ => h, fun h => h hdevice⟩
  · have hrdev := hvalid.rdev (Bool.not_eq_true _ ▸ hdevice)
    rw [if_neg hdevice, if_neg hdevice, hrdev]
    exact iff_of_true ⟨by decide, by decide⟩ fun h => absurd h hdevice

/-- The bytes of a validated entry are read back with its mode, owner, size, time and device numbers
exactly when the owner fits 21 bits, the file 33, a device number 32, and the time is not before
1970 and, without a fraction, fits 33 bits. -/
theorem layer_numbers_read_back_iff (keepsEmpty : Bool) (e : ManifestEntry) (contents : Bytes)
    (h : e.validate = .ok ()) (hsocket : e.kind ≠ KIND_SOCKET)
    (hcontents : hasContents e = true → contents.length = e.size.toNat) (rest : Bytes) :
    ∃ b m after, TarBuilder.new.append e contents = .ok (true, b) ∧
      readMember keepsEmpty (b.inner ++ rest) = some (m, after) ∧
      (SameNumbers m e ↔ e.uid.toNat < 2 ^ 21 ∧ e.gid.toNat < 2 ^ 21 ∧ (hasContents e = true →
        e.size.toNat < 2 ^ 33) ∧ (0 ≤ e.mtimeSeconds.toInt ∧
          (e.mtimeNanoseconds ≠ 0 ∨ e.mtimeSeconds.toInt < 2 ^ 33)) ∧
        (isDevice e = true → e.rdev.toNat < 2 ^ 32)) := by
  have hvalid := validated h
  have hflag := typeflag_flagOf hvalid hsocket
  have happend : TarBuilder.new.append e contents = .ok (true,
    ⟨memberBytes e contents (flagOf e)⟩) := append_eq rfl hsocket hflag
  refine ⟨_, _, _, happend, (readMember_memberBytes contents keepsEmpty hvalid hflag rest).2, ?_⟩
  have hsize : (bodyLength e contents % 8 ^ 11 = if hasContents e then e.size.toNat else 0) ↔
      (hasContents e = true → e.size.toNat < 2 ^ 33) := by
    rw [bodyLength_filled hcontents]
    by_cases hbody : hasContents e = true
    · rw [if_pos hbody]
      exact ⟨fun hlt _ => by omega, fun hlt => by have := hlt hbody; omega⟩
    · rw [if_neg hbody]
      exact iff_of_true rfl fun hcontents => absurd hcontents hbody
  constructor
  · intro hsame
    refine ⟨?_, ?_, hsize.mp hsame.size, mtime_asRead_iff.mp hsame.mtime,
      (device_asRead_iff hvalid).mp hsame.device⟩
    · exact (mod_eq_iff (by decide)).mp hsame.uid
    · exact (mod_eq_iff (by decide)).mp hsame.gid
  · rintro ⟨huid, hgid, hbody, hmtime, hdevice⟩
    exact ⟨rfl, Nat.mod_eq_of_lt huid, Nat.mod_eq_of_lt hgid, hsize.mpr hbody,
      mtime_asRead_iff.mpr hmtime, (device_asRead_iff hvalid).mpr hdevice⟩

def ownedFile : ManifestEntry :=
  { plainFile [97] with mode := 0o4755, uid := 1000, gid := 100, size := 3, mtimeSeconds := 1700000000,
                        mtimeNanoseconds := 5 }

/-- A file of three bytes with an owner, a set-user-ID bit and a time with a fraction. -/
theorem layer_numbers_read_back_plain : ∃ m after,
    readMember true ((TarBuilder.new.append ownedFile [104, 105, 10]).toOption.elim []
      fun r => r.2.inner) = some (m, after) ∧ SameNumbers m ownedFile := by
  obtain ⟨b, m, after, happend, hread, hsame⟩ :=
    layer_numbers_read_back_iff true ownedFile [104, 105, 10]
    (by decide +kernel) (by decide) (fun _ => rfl) []
  rw [append_nil] at hread
  refine ⟨m, after, ?_, hsame.mpr (by decide +kernel)⟩
  rw [happend]
  exact hread

/-- The owner 2097152 is read as 0. -/
theorem layer_numbers_cut :
    ({ plainFile [97] with uid := 2097152 } : ManifestEntry).validate = .ok () ∧
    ((TarBuilder.new.append { plainFile [97] with uid := 2097152 } []).toOption.bind fun r =>
      (readMember true r.2.inner).map fun read => read.1.uid) = some 0 := by
  decide +kernel

end

/-! ### The shape of an exported archive

Whatever is appended, an archive is a sequence of whole blocks: headers that sum up, each with its
padded body. -/

/-- The loop passes over no length that counts itself. -/
theorem growLength_least {body fuel length l : Nat} (hle : length ≤ l)
    (hlt : l < growLength body fuel length) :
    (print 10 l).length + body ≠ l := by
  induction fuel generalizing length with
  | zero => exact absurd hlt (Nat.not_lt.mpr hle)
  | succ fuel ih =>
    rw [growLength] at hlt
    split at hlt
    · next hne =>
      rcases Nat.eq_or_lt_of_le hle with rfl | hlt'
      · exact hne
      · exact ih hlt' hlt
    · exact absurd hlt (Nat.not_lt.mpr hle)

def paxLine (r : Bytes × Bytes) :
    Bytes := line (recordLength (r.1.length + r.2.length + 3)) (r.1 ++ 61 :: r.2)

theorem records_encodePax_keys {records : List (Bytes × Bytes)} (hkeys : ∀ r ∈ records, 61 ∉ r.1) :
    Tar.records (encodePax records) = some records := by
  rw [records_encodePax, Option.some_inj]
  exact (map_congr_left fun r hr => splitPair_key (hkeys r hr)).trans (map_id' records)

/-- A header's six octal digits, which say the sum of its bytes with the field itself as spaces. -/
def SumsUp (h : Header) : Prop :=
  ∃ digits, h.checksum = digits ++ [0, 32] ∧ digits.length = 6 ∧
    (∀ c ∈ digits, isDigit 8 c = true) ∧ value 8 digits = h.sum

theorem Finished.fits {h : Header} (hfinished : Finished h) : h.Fits := by
  obtain ⟨fields, hfits, rfl⟩ := hfinished
  exact fits_finishHeader hfits

theorem Finished.sumsUp {h : Header} (hfinished : Finished h) : SumsUp h := by
  obtain ⟨fields, hfits, rfl⟩ := hfinished
  exact ⟨padded 8 6 fields.sum, rfl, length_padded (by decide) (by decide) (Header.sum_lt hfits),
    isDigit_padded (by decide) (by decide), value_padded (by decide) (by decide)⟩

/-- The headers that an `append` writes, each with what follows it up to the next one. An entry of
an unknown kind gets no header of its own, but the records ahead of it are written by then. -/
def parts (call : ManifestEntry × Bytes) : List (Header × Bytes) :=
  if call.1.kind = KIND_SOCKET then []
  else
    (if paxRecords call.1 ≠ [] then
      [(paxHeader call.1 (encodePax (paxRecords call.1)),
        encodePax (paxRecords call.1) ++ padding (encodePax (paxRecords call.1)).length)]
    else []) ++
    ((typeflag call.1).toOption.map fun flag => (memberHeader call.1 call.2 flag,
      stored call.1 call.2)).toList

def spelled (parts : List (Header × Bytes)) : Bytes := parts.flatMap fun part =>
    part.1.bytes ++ part.2

/-- The builder after a call of `append`; `append_dir` and `append_raw` are such calls. -/
def TarBuilder.after (b : TarBuilder) (call : ManifestEntry × Bytes) : TarBuilder :=
  match b.append call.1 call.2 with
  | .ok (_, b) => b
  | .error _ => b.appendPax call.1

variable {b : TarBuilder} {call : ManifestEntry × Bytes}

theorem after_eq (hblock : b.inner.length % BLOCK = 0) :
    b.after call = b.emit (spelled (parts call)) := by
  obtain ⟨e, contents⟩ := call
  have hpax : spelled (if paxRecords e ≠ [] then [(paxHeader e (encodePax (paxRecords e)),
      encodePax (paxRecords e) ++ padding (encodePax (paxRecords e)).length)] else
        []) = paxBytes e := by
    unfold paxBytes
    split <;> simp [spelled]
  by_cases hsocket : e.kind = KIND_SOCKET
  · have happend : b.append e contents = .ok (false, b) := if_pos hsocket
    simp only [TarBuilder.after, parts, happend, if_pos hsocket]
    exact congrArg TarBuilder.mk (append_nil b.inner).symm
  · have hparts : spelled (parts (e, contents)) = paxBytes e ++
        spelled ((typeflag e).toOption.map fun flag => (memberHeader e contents flag,
          stored e contents)).toList := by
      rw [parts, if_neg hsocket, ← hpax]
      exact flatMap_append
    rw [hparts, TarBuilder.after]
    cases hflag : typeflag e with
    | ok flag =>
      rw [append_eq hblock hsocket hflag]
      simp [memberBytes, spelled, Except.toOption]
    | error message =>
      have happend : b.append e contents = .error message := by
        unfold TarBuilder.append
        rw [if_neg hsocket, hflag]
        rfl
      simp [happend, appendPax_eq hblock, spelled, Except.toOption]

theorem parts_whole {part : Header × Bytes} (hpart : part ∈ parts call) :
    Finished part.1 ∧ part.2.length % BLOCK = 0 := by
  unfold parts at hpart
  split at hpart
  · cases hpart
  · rcases mem_append.mp hpart with hpart | hpart
    · split at hpart
      · obtain rfl := mem_singleton.mp hpart
        refine ⟨finished_paxHeader _, ?_⟩
        rw [length_padded_body]
        exact roundUp_mod _
      · cases hpart
    · obtain ⟨flag, -, rfl⟩ := Option.map_eq_some_iff.mp (Option.mem_toList.mp hpart)
      refine ⟨finished_memberHeader, ?_⟩
      rw [length_stored]
      exact roundUp_mod _

theorem length_spelled {parts : List (Header × Bytes)}
    (h : ∀ part ∈ parts, Finished part.1 ∧ part.2.length % BLOCK = 0) :
    (spelled parts).length % BLOCK = 0 := by
  induction parts with
  | nil => rfl
  | cons part parts ih =>
    have hrest := ih fun part hpart => h part (mem_cons_of_mem _ hpart)
    obtain ⟨hheader, hbody⟩ := h part (mem_cons_self ..)
    unfold spelled at hrest ⊢
    rw [flatMap_cons, length_append, length_append, hheader.length_bytes]
    unfold BLOCK at hrest hbody ⊢
    omega

theorem foldl_after (calls : List (ManifestEntry × Bytes)) (hblock : b.inner.length % BLOCK = 0) :
    calls.foldl TarBuilder.after b = b.emit (spelled (calls.flatMap parts)) := by
  induction calls generalizing b with
  | nil => exact congrArg TarBuilder.mk (append_nil b.inner).symm
  | cons call calls ih =>
    have hwritten : (spelled (parts call)).length % BLOCK = 0 := length_spelled fun _ => parts_whole
    have hnext : (b.emit (spelled (parts call))).inner.length % BLOCK = 0 := by
      show (b.inner ++ _).length % BLOCK = 0
      rw [length_append]
      unfold BLOCK at hblock hwritten ⊢
      omega
    rw [foldl_cons, after_eq hblock, ih hnext, flatMap_cons]
    simp [TarBuilder.emit, spelled]

/-- The search for a record's length ends at the first length that counts itself. So each record
starts with its own length, and cutting by these lengths gives the records of every map whose keys
have no `=`. After any calls the archive is whole blocks, with nothing in it but headers that sum up
and their bodies. -/
theorem exported_archive_shape (sha256 : Bytes → Digest) :
    (∀ body, (print 10 (recordLength body)).length + body = recordLength body ∧
      ∀ l, body + 1 ≤ l → l < recordLength body → (print 10 l).length + body ≠ l) ∧
    (∀ records : List (Bytes × Bytes), encodePax records = records.flatMap paxLine ∧
      (∀ r ∈ records, paxLine r = line (paxLine r).length (r.1 ++ 61 :: r.2)) ∧
      ((∀ r ∈ records, 61 ∉ r.1) → Tar.records (encodePax records) = some records)) ∧
    ∀ calls : List (ManifestEntry × Bytes),
      (calls.foldl TarBuilder.after .new).inner.length % BLOCK = 0 ∧
      ((calls.foldl TarBuilder.after .new).finish sha256).1.length % BLOCK = 0 ∧
      (calls.foldl TarBuilder.after .new).inner = spelled (calls.flatMap parts) ∧
      ∀ part ∈ calls.flatMap parts, part.1.Fits ∧ SumsUp part.1 ∧ part.2.length % BLOCK = 0 := by
  refine ⟨fun body => ⟨recordLength_fixed body, fun l => growLength_least⟩,
    fun records => ⟨?_, ?_, ?_⟩, fun calls => ?_⟩
  · rw [encodePax_eq, flatMap_map]
    rfl
  · intro r _
    rw [paxLine, length_line]
  · exact records_encodePax_keys
  · have hwhole : ∀ part ∈ calls.flatMap parts, Finished part.1 ∧ part.2.length % BLOCK = 0 := by
      intro part hpart
      obtain ⟨call, -, hcall⟩ := mem_flatMap.mp hpart
      exact parts_whole hcall
    have hbuilt : (calls.foldl TarBuilder.after .new).inner = spelled (calls.flatMap parts) := by
      rw [foldl_after calls rfl]
      rfl
    have hlength := length_spelled hwhole
    refine ⟨by rwa [hbuilt], ?_, hbuilt, fun part hpart => ?_⟩
    · show (_ ++ List.replicate (BLOCK * 2) 0).length % BLOCK = 0
      rw [hbuilt, length_append, length_replicate]
      unfold BLOCK at hlength ⊢
      omega
    · obtain ⟨hheader, hbody⟩ := hwhole part hpart
      exact ⟨hheader.fits, hheader.sumsUp, hbody⟩

end PocketVm.Runtime.OciExport
