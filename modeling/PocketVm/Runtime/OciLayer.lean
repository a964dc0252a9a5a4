import PocketVm.Runtime.OciExport

/-!
# Reading an exported layer back

What a tar reader makes of the bytes that `TarBuilder` writes: each member as it is read, field by
field, and from that exactly when it is the entry that was written.
-/

namespace PocketVm.Runtime.OciExport

open Wire Protocol Numeral Checked Tar List

/-! ### Fields -/

variable {width : Nat}

theorem length_writeField (hwidth : 0 < width) (value : Bytes) :
    (writeField width value).length = width := by
  unfold writeField
  rw [length_append, length_take, length_replicate]
  omega

theorem text_writeField {value : Bytes} (hzero : ∀ c ∈ value, c ≠ 0) :
    text (writeField width value) = value.take (width - 1) := by
  unfold writeField
  rw [text_zeros fun c hc => hzero c (mem_of_mem_take hc)]
  rcases Nat.le_total value.length (width - 1) with hle | hle
  · rw [Nat.min_eq_left hle, take_length, take_of_length_le hle]
  · rw [Nat.min_eq_right hle]

theorem writeOctal_eq (hwidth : 0 < width) (n : Nat) : writeOctal width n =
      (padded 8 (width - 1) n).drop ((padded 8 (width - 1) n).length - (width - 1)) ++ [0] := by
  have hle : width - 1 ≤ (padded 8 (width - 1) n).length := le_length_padded
  unfold writeOctal
  dsimp only
  rw [Nat.min_eq_right hle, show width - (width - 1) = 1 by omega]
  rfl

theorem length_writeOctal (hwidth : 0 < width) (n : Nat) : (writeOctal width n).length = width := by
  have hle : width - 1 ≤ (padded 8 (width - 1) n).length := le_length_padded
  rw [writeOctal_eq hwidth, length_append, length_drop, length_singleton]
  omega

theorem number_writeOctal (hwidth : 0 < width) (n : Nat) :
    number (writeOctal width n) = some (n % 8 ^ (width - 1)) := by
  have hle : width - 1 ≤ (padded 8 (width - 1) n).length := le_length_padded
  have hdigits : ∀ c ∈ padded 8 (width - 1) n, isDigit 8 c = true :=
    isDigit_padded (by decide) (by decide)
  rw [writeOctal_eq hwidth, number_digits (fun c hc => hdigits c (mem_of_mem_drop hc)) (by simp),
    value_drop hdigits, value_padded (by decide) (by decide), length_drop]
  congr 3
  omega

theorem number_zeros (k : Nat) : number (List.replicate k 0) = some 0 := by
  have hempty : ∀ c ∈ ([] : Bytes), isDigit 8 c = true := by simp
  exact number_digits hempty fun c hc => .inl (eq_of_mem_replicate hc)

/-! ### Headers -/

theorem fits_finishHeader {h : Header} (hfits : h.Fits) : (finishHeader h).Fits := by
  have hlen : (padded 8 6 h.sum ++ [0, 32]).length = 8 := by
    rw [length_append, length_padded (by decide) (by decide) (Header.sum_lt hfits)]
    rfl
  unfold Header.Fits Header.fields widths at hfits ⊢
  simp only [finishHeader, map_cons, List.cons.injEq] at hfits ⊢
  simp [hfits, hlen]

theorem number_checksum {h : Header} :
    number (finishHeader h).checksum = some (finishHeader h).sum := by
  show number (padded 8 6 h.sum ++ [0, 32]) = some h.sum
  rw [number_digits (isDigit_padded (by decide) (by decide)) (by simp),
    value_padded (by decide) (by decide)]

def Finished (h : Header) : Prop := ∃ fields : Header, fields.Fits ∧ h = finishHeader fields

namespace Finished

variable {h : Header}

theorem length_bytes (hfinished : Finished h) : h.bytes.length = BLOCK := by
  obtain ⟨fields, hfits, rfl⟩ := hfinished
  exact Header.length_bytes (fits_finishHeader hfits)

theorem readHeader (hfinished : Finished h) (rest : Bytes) :
    readHeader (h.bytes ++ rest) = some (h, rest) := by
  obtain ⟨fields, hfits, rfl⟩ := hfinished
  exact readHeader_bytes (fits_finishHeader hfits) number_checksum rest

theorem not_isEnd (hfinished : Finished h) (rest : Bytes) : isEnd (h.bytes ++ rest) = false := by
  have hlen : h.bytes.length = BLOCK := hfinished.length_bytes
  unfold isEnd
  rw [← hlen, take_left, Bool.and_eq_false_iff]
  right
  rw [all_eq_false]
  -- the checksum ends in a space
  refine ⟨32, ?_, by decide⟩
  obtain ⟨fields, -, rfl⟩ := hfinished
  have hmem : (32 : UInt8) ∈ (finishHeader fields).checksum := by simp [finishHeader]
  exact mem_flatten.mpr ⟨_, by simp [Header.fields], hmem⟩

end Finished

/-! ### Extended headers -/

/-- The loop stops: from a length that is too short to its own digits on, it does not pass the one
that counts itself. -/
theorem growLength_fixed (body fuel extra : Nat) (hfuel : extra + fuel = body + 2)
    (hextra : extra ≤ (print 10 (body + extra)).length) :
    (print 10 (growLength body fuel (body + extra))).length + body = growLength body fuel
      (body + extra) := by
  induction fuel generalizing extra with
  | zero =>
    have hshort : (print 10 (body + extra)).length ≤ extra := by
      rw [length_print (by decide)]
      apply Nat.log_lt_of_lt_pow' (by omega)
      have hpow : extra < 2 ^ extra := Nat.lt_two_pow_self
      have hle : 2 ^ extra * 2 ≤ 10 ^ extra := by
        calc 2 ^ extra * 2 ≤ 2 ^ extra * 5 ^ extra := Nat.mul_le_mul_left _ (le_trans (by norm_num) (Nat.le_self_pow (by omega) 5))
          _ = 10 ^ extra := by rw [← Nat.mul_pow]
      omega
    show (print 10 (body + extra)).length + body = body + extra
    omega
  | succ fuel ih =>
    rw [growLength]
    split
    · rename_i hne
      have hmono : (print 10 (body + extra)).length ≤ (print 10 (body + (extra + 1))).length := by
        rw [length_print (by decide), length_print (by decide)]
        exact Nat.succ_le_succ (Nat.log_mono_right (by omega))
      exact ih (extra + 1) (by omega) (by omega)
    · rename_i heq
      omega

theorem recordLength_fixed (body : Nat) :
    (print 10 (recordLength body)).length + body = recordLength body := by
  apply growLength_fixed body (body + 1) 1 (by omega)
  rw [length_print (by decide)]
  omega

theorem growLength_le (body fuel length : Nat) : growLength body fuel length ≤ length + fuel := by
  induction fuel generalizing length with
  | zero => exact Nat.le_refl _
  | succ fuel ih =>
    rw [growLength]
    split
    · have := ih (length + 1)
      omega
    · omega

def asPair (record : Bytes × Bytes) : Bytes × Bytes := splitPair (record.1 ++ 61 :: record.2)

theorem encodePax_eq (records : List (Bytes × Bytes)) : encodePax records =
    (records.map fun r => (recordLength (r.1.length + r.2.length + 3), r.1 ++ 61 :: r.2)).flatMap
      fun l => line l.1 l.2 := by
  rw [flatMap_map]
  unfold encodePax line
  simp

theorem length_line (record : Bytes × Bytes) :
    (line (recordLength (record.1.length + record.2.length + 3))
      (record.1 ++ 61 :: record.2)).length =
      recordLength (record.1.length + record.2.length + 3) := by
  have hfixed := recordLength_fixed (record.1.length + record.2.length + 3)
  unfold line
  simp only [length_append, length_cons, length_nil]
  omega

theorem records_encodePax (records : List (Bytes × Bytes)) :
    Tar.records (encodePax records) = some (records.map asPair) := by
  rw [encodePax_eq, records_lines, map_map]
  · rfl
  · intro l hl
    obtain ⟨r, -, rfl⟩ := mem_map.mp hl
    exact ⟨length_line r, by simp⟩

theorem length_encodePax_le (records : List (Bytes × Bytes)) :
    (encodePax records).length ≤ (records.map fun r => 2 * (r.1.length + r.2.length) + 8).sum := by
  induction records with
  | nil => exact Nat.le_refl _
  | cons r records ih =>
    have hline := length_line r
    have hle := growLength_le (r.1.length + r.2.length + 3) (r.1.length + r.2.length + 3 + 1)
      (r.1.length + r.2.length + 3 + 1)
    have hcons : (encodePax (r :: records)).length = recordLength
      (r.1.length + r.2.length + 3) + (encodePax records).length := by
      rw [encodePax_eq, encodePax_eq, map_cons, flatMap_cons, length_append, hline]
    rw [hcons, map_cons, sum_cons]
    unfold recordLength
    omega

theorem insertRecord_perm {key : Bytes} (value : Bytes) {records : List (Bytes × Bytes)}
    (hfresh : ∀ r ∈ records, r.1 ≠ key) :
    (insertRecord key value records).Perm ((key, value) :: records) := by
  induction records with
  | nil => exact .refl _
  | cons r records ih =>
    rw [insertRecord]
    split
    · exact .refl _
    · rw [if_neg fun heq => hfresh _ (mem_cons_self ..) heq.symm]
      have hrest := ih fun r hr => hfresh r (mem_cons_of_mem _ hr)
      exact (hrest.cons _).trans (List.Perm.swap ..)

/-! ### What validation gives -/

theorem validateXattrs_ok {previous : Option Bytes} {total total' : Nat}
    {xattrs : List ManifestXattr} (h : validateXattrs previous total xattrs = .ok total') :
    (∀ name ∈ previous, ∀ x ∈ xattrs, name < x.name) ∧
      (xattrs.map ManifestXattr.name).Pairwise (· < ·) ∧
      total' = total + (xattrs.map fun x => x.name.length + x.value.length).sum := by
  induction xattrs generalizing previous total with
  | nil =>
    cases h
    exact ⟨by simp, .nil, rfl⟩
  | cons x xattrs ih =>
    rw [validateXattrs] at h
    simp only [bind_ok, refuse_ok, checkedAdd_ok] at h
    obtain ⟨_, -, _, hafter, _, ⟨-, rfl⟩, _, ⟨-, rfl⟩, h⟩ := h
    obtain ⟨hfirst, hsorted, rfl⟩ := ih h
    have hnext : ∀ y ∈ xattrs, x.name < y.name := hfirst x.name rfl
    refine ⟨?_, ?_, ?_⟩
    · rintro name rfl y hy
      have hname : name < x.name := by simpa [notAfter] using hafter
      rcases mem_cons.mp hy with rfl | hy
      · exact hname
      · exact List.lt_trans hname (hnext y hy)
    · rw [map_cons, pairwise_cons]
      refine ⟨?_, hsorted⟩
      intro name hname
      obtain ⟨y, hy, rfl⟩ := mem_map.mp hname
      exact hnext y hy
    · rw [map_cons, sum_cons]
      omega

structure Validated (e : ManifestEntry) : Prop where
  path_length : e.path.length ≤ MAX_MANIFEST_PATH_BYTES
  path_zero : ∀ c ∈ e.path, c ≠ 0
  link_length : (memberLink e).length ≤ MAX_MANIFEST_PATH_BYTES
  link_zero : ∀ c ∈ memberLink e, c ≠ 0
  kind : 1 ≤ e.kind ∧ e.kind ≤ 7
  mode : e.mode.toNat ≤ 0o7777
  nanoseconds : e.mtimeNanoseconds.toNat < 10 ^ 9
  rdev : isDevice e = false → e.rdev = 0
  xattrs_count : e.xattrs.length ≤ MAX_MANIFEST_XATTRS
  xattrs_names : (e.xattrs.map ManifestXattr.name).Nodup
  xattrs_bytes : (e.xattrs.map fun x => x.name.length + x.value.length).sum ≤
    MAX_MANIFEST_XATTR_BYTES

theorem ne_zero_of_not_contains {bytes : Bytes} (h : bytes.contains 0 = false) :
    ∀ c ∈ bytes, c ≠ 0 := by
  rintro c hc rfl
  rw [contains_iff_mem.mpr hc] at h
  cases h

theorem validated {e : ManifestEntry} (h : e.validate = .ok ()) : Validated e := by
  unfold ManifestEntry.validate at h
  simp only [bind_ok, refuse_ok, validateCount_ok] at h
  obtain ⟨_, hpath, _, -, _, hkind, _, hmode, _, hnanos, _, hsymlink, _, -, _, hhardlink, _,
    hcontent, _, -, _, -, _, hrdev, _, hcount, total, hxattrs, hbytes⟩ := h
  obtain ⟨-, hsorted, rfl⟩ := validateXattrs_ok hxattrs
  have hlink : (memberLink e).length ≤ MAX_MANIFEST_PATH_BYTES ∧
    (memberLink e).contains 0 = false := by
    unfold memberLink
    cases htarget : e.hardlinkTarget with
    | some target =>
      rw [htarget] at hhardlink
      simp only [Option.any_some, Bool.or_eq_true, decide_eq_true_eq, not_or,
        Bool.not_eq_true] at hhardlink
      obtain ⟨⟨⟨⟨-, hlen⟩, hzero⟩, -⟩, -⟩ := hhardlink
      exact ⟨Nat.not_lt.mp hlen, hzero⟩
    | none =>
      cases htarget : e.symlinkTarget with
      | none => exact ⟨Nat.zero_le _, rfl⟩
      | some target =>
        rw [htarget] at hsymlink
        simp only [Option.any_some, Bool.or_eq_true, decide_eq_true_eq, not_or,
          Bool.not_eq_true] at hsymlink
        exact ⟨Nat.not_lt.mp hsymlink.2, hsymlink.1⟩
  have hnames : (e.xattrs.map ManifestXattr.name).Nodup := by
    refine hsorted.imp ?_
    rintro a b hlt rfl
    exact List.lt_irrefl _ hlt
  rw [not_or, Bool.not_eq_true] at hpath
  refine ⟨Nat.not_lt.mp hpath.1, ne_zero_of_not_contains hpath.2, hlink.1,
    ne_zero_of_not_contains hlink.2, not_not.mp hkind, ?_, ?_, ?_, hcount, hnames, ?_⟩
  · exact Nat.not_lt.mp hmode
  · exact Nat.lt_of_not_le hnanos
  · intro hdevice
    by_contra hne
    refine hrdev ⟨?_, hne⟩
    rintro (hfour | hfive)
    · rw [isDevice, hfour] at hdevice
      cases hdevice
    · rw [isDevice, hfive] at hdevice
      cases hdevice
  · rwa [Nat.zero_add] at hbytes

/-! ### The records of an entry -/

section
variable {e : ManifestEntry}

def fieldRecords (e : ManifestEntry) : List (Bytes × Bytes) :=
  (if e.mtimeNanoseconds ≠ 0 then [(MTIME, mtimeText e)] else []) ++
    ((if (memberLink e).length > LINK_FIELD then [(LINKPATH, memberLink e)] else []) ++
      (if (memberPath e).length > NAME_FIELD then [(PATH, memberPath e)] else []))

def xattrRecord (x : ManifestXattr) : Bytes × Bytes := (XATTR ++ x.name, x.value)

/-- The keys that stand for fields of the header, each with its value and when it is written. -/
inductive FieldRecord (e : ManifestEntry) : Bytes → Bytes → Prop → Prop
  | mtime : FieldRecord e MTIME (mtimeText e) (e.mtimeNanoseconds ≠ 0)
  | link : FieldRecord e LINKPATH (memberLink e) ((memberLink e).length > LINK_FIELD)
  | path : FieldRecord e PATH (memberPath e) ((memberPath e).length > NAME_FIELD)

variable {key value : Bytes} {written : Prop} {r : Bytes × Bytes}

theorem mem_fieldRecords : (key, value) ∈ fieldRecords e ↔ ∃ written,
    FieldRecord e key value written ∧ written := by
  have hif : ∀ (c : Prop) [Decidable c] (r : Bytes × Bytes),
    (key, value) ∈ (if c then [r] else []) ↔ (key, value) = r ∧ c := by
    intro c _ r
    by_cases hc : c
    · rw [if_pos hc, mem_singleton, and_iff_left hc]
    · rw [if_neg hc]
      exact iff_of_false not_mem_nil fun h => hc h.2
  unfold fieldRecords
  rw [mem_append, mem_append, hif, hif, hif]
  constructor
  · rintro (⟨⟨⟩, hwritten⟩ | ⟨⟨⟩, hwritten⟩ | ⟨⟨⟩, hwritten⟩)
    · exact ⟨_, .mtime, hwritten⟩
    · exact ⟨_, .link, hwritten⟩
    · exact ⟨_, .path, hwritten⟩
  · rintro ⟨_, ⟨⟩, hwritten⟩
    · exact .inl ⟨rfl, hwritten⟩
    · exact .inr (.inl ⟨rfl, hwritten⟩)
    · exact .inr (.inr ⟨rfl, hwritten⟩)

theorem FieldRecord.key_mem (h : FieldRecord e key value written) :
    key ∈ [MTIME, LINKPATH, PATH] := by
  cases h <;> simp

theorem FieldRecord.unique {value' : Bytes} {written' : Prop} (h : FieldRecord e key value written)
    (h' : FieldRecord e key value' written') : value = value' ∧ written = written' := by
  cases h <;> cases h' <;> exact ⟨rfl, rfl⟩

theorem insertRecords_perm {xattrs : List ManifestXattr} {records : List (Bytes × Bytes)}
    (hnames : (xattrs.map ManifestXattr.name).Nodup)
    (hfresh : ∀ r ∈ records, ∀ x ∈ xattrs, r.1 ≠ XATTR ++ x.name) :
    (xattrs.foldl (fun records x => insertRecord (XATTR ++ x.name) x.value records) records).Perm
      (xattrs.map xattrRecord ++ records) := by
  induction xattrs generalizing records with
  | nil => exact .refl _
  | cons x xattrs ih =>
    rw [map_cons, nodup_cons] at hnames
    have hinsert : (insertRecord (XATTR ++ x.name) x.value records).Perm
      (xattrRecord x :: records) :=
      insertRecord_perm x.value fun r hr => hfresh r hr x (mem_cons_self ..)
    have hfresh' : ∀ r ∈ insertRecord (XATTR ++ x.name) x.value records, ∀ y ∈ xattrs,
      r.1 ≠ XATTR ++ y.name := by
      intro r hr y hy
      rcases mem_cons.mp (hinsert.mem_iff.mp hr) with rfl | hr
      · intro heq
        exact hnames.1 (mem_map.mpr ⟨y, hy, (append_cancel_left heq).symm⟩)
      · exact hfresh r hr y (mem_cons_of_mem _ hy)
    have hrest := ih hnames.2 hfresh'
    exact (hrest.trans (hinsert.append_left _)).trans perm_middle

theorem paxRecords_perm (hvalid : Validated e) :
    (paxRecords e).Perm (e.xattrs.map xattrRecord ++ fieldRecords e) := by
  have hfields : ∀ records : List (Bytes × Bytes), records.Perm (fieldRecords e) →
      (e.xattrs.foldl (fun records x => insertRecord (XATTR ++ x.name) x.value records) records).Perm
        (e.xattrs.map xattrRecord ++ fieldRecords e) := by
    intro records hperm
    refine (insertRecords_perm hvalid.xattrs_names ?_).trans (hperm.append_left _)
    rintro ⟨key, value⟩ hr x _ heq
    obtain ⟨_, hfield, -⟩ := mem_fieldRecords.mp (hperm.mem_iff.mp hr)
    have hhead : key.head? = some 83 := congrArg List.head? heq
    have hkeys : ∀ key ∈ [MTIME, LINKPATH, PATH], key.head? ≠ some 83 := by decide
    exact hkeys key hfield.key_mem hhead
  apply hfields
  -- one insertion for each record, into those before it
  have hpath : (if (memberPath e).length > NAME_FIELD then insertRecord PATH
    (memberPath e) [] else []) =
      if (memberPath e).length > NAME_FIELD then [(PATH, memberPath e)] else [] := rfl
  unfold fieldRecords
  rw [hpath]
  generalize hfirst : (if (memberPath e).length > NAME_FIELD then [(PATH, memberPath e)] else []) =
    first
  have hfresh : ∀ r ∈ first, r.1 = PATH := by
    intro r hr
    rw [← hfirst] at hr
    split at hr
    · rw [mem_singleton.mp hr]
    · cases hr
  have hlink : (if (memberLink e).length > LINK_FIELD then insertRecord LINKPATH
    (memberLink e) first else first).Perm
      ((if (memberLink e).length > LINK_FIELD then [(LINKPATH, memberLink e)] else []) ++ first) := by
    split
    · exact insertRecord_perm _ fun r hr => by rw [hfresh r hr]; decide
    · exact .refl _
  split
  · refine (insertRecord_perm _ fun r hr => ?_).trans (hlink.cons _)
    rcases mem_append.mp (hlink.mem_iff.mp hr) with hr | hr
    · split at hr
      · rw [mem_singleton.mp hr]
        show LINKPATH ≠ MTIME
        decide
      · cases hr
    · rw [hfresh r hr]
      decide
  · exact hlink

def asXattr (x : ManifestXattr) : Bytes × Bytes := splitPair (x.name ++ 61 :: x.value)

theorem asPair_xattrRecord (x : ManifestXattr) :
    asPair (xattrRecord x) = (XATTR ++ (asXattr x).1, (asXattr x).2) := by
  unfold asPair xattrRecord asXattr
  rw [append_assoc, splitPair_append (by decide)]

theorem asPair_fieldRecord (hr : r ∈ fieldRecords e) : asPair r = r := by
  obtain ⟨_, hfield, -⟩ := mem_fieldRecords.mp hr
  have hkeys : ∀ key ∈ [MTIME, LINKPATH, PATH], 61 ∉ key := by decide
  exact splitPair_key (hkeys r.1 hfield.key_mem)

theorem fieldRecord_nonempty (hr : r ∈ fieldRecords e) : r.2 ≠ [] := by
  obtain ⟨key, value⟩ := r
  obtain ⟨_, hfield, hwritten⟩ := mem_fieldRecords.mp hr
  cases hfield with
  | mtime => simp [mtimeText]
  | link => exact ne_nil_of_length_pos (Nat.lt_of_le_of_lt (Nat.zero_le _) hwritten)
  | path => exact ne_nil_of_length_pos (Nat.lt_of_le_of_lt (Nat.zero_le _) hwritten)

variable (keepsEmpty : Bool)

def readRecords (e : ManifestEntry) : List (Bytes × Bytes) :=
  kept keepsEmpty ((paxRecords e).map asPair)

variable {keepsEmpty}

theorem mem_readRecords (hvalid : Validated e) : r ∈ readRecords keepsEmpty e ↔
    (∃ x ∈ e.xattrs, r = (XATTR ++ (asXattr x).1, (asXattr x).2) ∧
      (keepsEmpty = true ∨ (asXattr x).2 ≠ [])) ∨ r ∈ fieldRecords e := by
  have hmem : r ∈ (paxRecords e).map asPair ↔
    (∃ x ∈ e.xattrs, r = (XATTR ++ (asXattr x).1, (asXattr x).2)) ∨
      r ∈ fieldRecords e := by
    rw [((paxRecords_perm hvalid).map asPair).mem_iff, map_append, mem_append, map_map, mem_map,
      mem_map]
    refine or_congr ?_ ?_
    · simp only [Function.comp_apply, asPair_xattrRecord, eq_comm]
    · constructor
      · rintro ⟨r', hr', rfl⟩
        rwa [asPair_fieldRecord hr']
      · intro hr
        exact ⟨r, hr, asPair_fieldRecord hr⟩
  unfold readRecords kept
  rw [mem_filter, hmem]
  constructor
  · rintro ⟨⟨x, hx, rfl⟩ | hr, hkept⟩
    · refine .inl ⟨x, hx, rfl, ?_⟩
      simpa using hkept
    · exact .inr hr
  · rintro (⟨x, hx, rfl, hkept⟩ | hr)
    · exact ⟨.inl ⟨x, hx, rfl⟩, by simpa using hkept⟩
    · exact ⟨.inr hr, by simp [fieldRecord_nonempty hr]⟩

theorem lookup_readRecords (hvalid : Validated e) (hkey : key.head? ≠ some 83)
    {value : Option Bytes}
    (hvalue : ∀ v, (key, v) ∈ fieldRecords e ↔ value = some v) :
    lookup (readRecords keepsEmpty e) key = value := by
  have hmem : ∀ v, (key, v) ∈ readRecords keepsEmpty e ↔ value = some v := by
    intro v
    rw [mem_readRecords hvalid, ← hvalue]
    refine or_iff_right ?_
    rintro ⟨x, -, heq, -⟩
    rw [(Prod.mk.inj heq).1] at hkey
    exact hkey rfl
  cases value with
  | none =>
    apply lookup_none
    rintro ⟨k, v⟩ hr rfl
    cases (hmem v).mp hr
  | some value =>
    apply lookup_some ((hmem value).mpr rfl)
    intro v hv
    cases (hmem v).mp hv
    rfl

theorem lookup_field (hvalid : Validated e) [Decidable written]
    (hfield : FieldRecord e key value written) :
    lookup (readRecords keepsEmpty e) key = if written then some value else none := by
  have hkeys : ∀ key ∈ [MTIME, LINKPATH, PATH], key.head? ≠ some 83 := by decide
  apply lookup_readRecords hvalid (hkeys key hfield.key_mem)
  intro v
  rw [mem_fieldRecords]
  constructor
  · rintro ⟨written', hfield', hwritten⟩
    obtain ⟨rfl, rfl⟩ := hfield.unique hfield'
    exact if_pos hwritten
  · intro h
    split at h
    · rename_i hwritten
      cases h
      exact ⟨written, hfield, hwritten⟩
    · cases h

theorem lookup_none (hvalid : Validated e) (hkey : key ∈ [SIZE, UID, GID]) :
    lookup (readRecords keepsEmpty e) key = none := by
  have hhead : ∀ key ∈ [SIZE, UID, GID], key.head? ≠ some 83 ∧ key ∉ [MTIME, LINKPATH, PATH] := by
    decide
  apply lookup_readRecords hvalid (hhead key hkey).1
  intro v
  rw [mem_fieldRecords]
  refine iff_of_false ?_ nofun
  rintro ⟨_, hfield, -⟩
  exact (hhead key hkey).2 hfield.key_mem

end

/-! ### Times -/

theorem print_ne_minus (n : Nat) : ∀ c ∈ print 10 n, c ≠ 45 := by
  rintro c hc rfl
  exact absurd (isDigit_print (by decide) (by decide) 45 hc) (by decide)

/-- A time before 1970 with a fraction is printed with the fraction's sign turned around. -/
theorem time_mtimeText {e : ManifestEntry} (hnanos : e.mtimeNanoseconds.toNat < 10 ^ 9) :
    time (mtimeText e) = some (if e.mtimeSeconds.toInt < 0 then e.mtimeSeconds.toInt * 10 ^ 9 - e.mtimeNanoseconds.toNat
      else e.mtimeSeconds.toInt * 10 ^ 9 + e.mtimeNanoseconds.toNat) := by
  generalize hs : e.mtimeSeconds.toInt = s
  generalize hn : e.mtimeNanoseconds.toNat = n at hnanos
  have hdigits : ∀ c ∈ print 10 s.natAbs, isDigit 10 c = true :=
    isDigit_print (by decide) (by decide)
  have hfraction : ∀ c ∈ padded 10 9 n, isDigit 10 c = true :=
    isDigit_padded (by decide) (by decide)
  have hlen : (padded 10 9 n).length = 9 := length_padded (by decide) (by decide) hnanos
  have hprinted : print 10 s.natAbs ≠ [] := by
    apply ne_nil_of_length_pos
    rw [length_print (by decide)]
    omega
  have htake : (print 10 s.natAbs ++ 46 :: padded 10 9 n).takeWhile (isDigit 10) =
    print 10 s.natAbs :=
    takeWhile_digits hdigits (by rintro c ⟨⟩; rfl)
  have hdecimal : Tar.decimal (print 10 s.natAbs) = some s.natAbs := by
    unfold Tar.decimal
    rw [if_pos ⟨hprinted, all_eq_true.mpr hdigits⟩, value_print (by decide) (by decide)]
  have hnanoseconds : value 10 ((padded 10 9 n ++ List.replicate 9 48).take 9) = n := by
    rw [take_left' hlen, value_padded (by decide) (by decide)]
  have htext : mtimeText e = (if s < 0 then [45] else []) ++
    (print 10 s.natAbs ++ 46 :: padded 10 9 n) := by
    unfold mtimeText printInt
    rw [hs, hn]
    split <;> simp
  have hhead : (mtimeText e).head? = some 45 ↔ s < 0 := by
    rw [htext]
    by_cases hneg : s < 0
    · simp [hneg]
    · rw [if_neg hneg, nil_append, head?_append_of_ne_nil _ hprinted]
      refine iff_of_false (fun hhead => ?_) hneg
      exact print_ne_minus _ 45 (mem_of_mem_head? hhead) rfl
  have hrest : (if (mtimeText e).head? = some 45 then (mtimeText e).tail else mtimeText e) =
      print 10 s.natAbs ++ 46 :: padded 10 9 n := by
    by_cases hneg : s < 0
    · rw [htext, if_pos hneg]
      rfl
    · rw [if_neg (mt hhead.mp hneg), htext, if_neg hneg]
      rfl
  unfold time
  dsimp only
  rw [hrest, htake, drop_left]
  dsimp only
  rw [if_pos ⟨rfl, all_eq_true.mpr hfraction⟩, hdecimal]
  simp only [Option.map_some, Option.some.injEq, hhead]
  split <;> omega

/-! ### Members -/

section
variable {e : ManifestEntry} {contents : Bytes} {flag : UInt8} {keepsEmpty : Bool}

theorem fits_fields {name mode uid gid size mtime linkname magic version devmajor devminor : Bytes}
    (hname : name.length = 100) (hmode : mode.length = 8) (huid : uid.length = 8)
    (hgid : gid.length = 8)
    (hsize : size.length = 12) (hmtime : mtime.length = 12) (hlinkname : linkname.length = 100)
    (hmagic : magic.length = 6) (hversion : version.length = 2) (hdevmajor : devmajor.length = 8)
    (hdevminor : devminor.length = 8) : Header.Fits { emptyHeader with
      name, mode, uid, gid, size, mtime, typeflag := [flag], linkname, magic, version, devmajor,
        devminor } := by
  simp only [Header.Fits, Header.fields, emptyHeader, map_cons, map_nil, hname, hmode,
    huid, hgid, hsize, hmtime, hlinkname, hmagic, hversion, hdevmajor, hdevminor, length_replicate,
      length_singleton]
  rfl

theorem finished_paxHeader (payload : Bytes) : Finished (paxHeader e payload) := by
  refine ⟨_, ?_, rfl⟩
  exact fits_fields (length_writeField (by decide) _) (length_writeOctal (by decide) _)
    (length_writeOctal (by decide) _)
    (length_writeOctal (by decide) _) (length_writeOctal (by decide) _)
      (length_writeOctal (by decide) _)
    length_replicate length_replicate length_replicate length_replicate length_replicate

theorem finished_memberHeader : Finished (memberHeader e contents flag) := by
  have hdevice : ∀ n, (if isDevice e then writeOctal 8 n else List.replicate 8 0).length = 8 := by
    intro n
    split
    · exact length_writeOctal (by decide) n
    · exact length_replicate
  refine ⟨_, ?_, rfl⟩
  exact fits_fields (length_writeField (by decide) _) (length_writeOctal (by decide) _)
    (length_writeOctal (by decide) _)
    (length_writeOctal (by decide) _) (length_writeOctal (by decide) _)
      (length_writeOctal (by decide) _)
    (length_writeField (by decide) _) rfl rfl (hdevice _) (hdevice _)

def asRead (keepsEmpty : Bool) (e : ManifestEntry) (contents : Bytes) (flag : UInt8) : Member where
  path := if (memberPath e).length > NAME_FIELD then memberPath e else (memberPath e).take 99
  link := if (memberLink e).length > LINK_FIELD then memberLink e else (memberLink e).take 99
  typeflag := [flag]
  mode := e.mode.toNat
  uid := e.uid.toNat % 8 ^ 7
  gid := e.gid.toNat % 8 ^ 7
  size := bodyLength e contents % 8 ^ 11
  mtime :=
    if e.mtimeNanoseconds ≠ 0 then
      if e.mtimeSeconds.toInt < 0 then e.mtimeSeconds.toInt * 10 ^ 9 - e.mtimeNanoseconds.toNat
      else e.mtimeSeconds.toInt * 10 ^ 9 + e.mtimeNanoseconds.toNat
    else ((max e.mtimeSeconds.toInt 0).toNat % 8 ^ 11 : Nat) * 10 ^ 9
  devmajor := if isDevice e then (writtenMajor e.rdev).toNat % 8 ^ 7 else 0
  devminor := if isDevice e then (writtenMinor e.rdev).toNat % 8 ^ 7 else 0
  xattrs := (readRecords keepsEmpty e).filterMap fun r =>
    (r.1.dropPrefix? XATTR).map fun name => (name, r.2)

theorem memberPath_zero (hvalid : Validated e) : ∀ c ∈ memberPath e, c ≠ 0 := by
  intro c hc
  unfold memberPath at hc
  split at hc
  · rcases mem_append.mp hc with hc | hc
    · exact hvalid.path_zero c hc
    · rw [mem_singleton.mp hc]
      decide
  · exact hvalid.path_zero c hc

theorem number_mode (hvalid : Validated e) :
    number (memberHeader e contents flag).mode = some e.mode.toNat := by
  have hmode := hvalid.mode
  have hmask : (e.mode &&& 0o7777).toNat = e.mode.toNat := by
    rw [UInt32.toNat_and, show (0o7777 : UInt32).toNat = 2 ^ 12 - 1 from rfl,
      Nat.and_two_pow_sub_one_eq_mod]
    omega
  rw [show (memberHeader e contents flag).mode = writeOctal 8 (e.mode &&& 0o7777).toNat from rfl,
    hmask, number_writeOctal (by decide), Nat.mod_eq_of_lt (by omega)]

theorem numeric_written (hvalid : Validated e) {key : Bytes}
    (hkey : key ∈ [SIZE, UID, GID]) {width : Nat} (hwidth : 0 < width) (n : Nat) :
    numeric (readRecords keepsEmpty e) key (writeOctal width n) = some (n % 8 ^ (width - 1)) := by
  unfold numeric
  rw [lookup_none hvalid hkey]
  exact number_writeOctal hwidth n

theorem modified_written (hvalid : Validated e) :
    modified (readRecords keepsEmpty e) (memberHeader e contents flag).mtime =
    some (asRead keepsEmpty e contents flag).mtime := by
  have hfield : number (memberHeader e contents flag).mtime =
    some ((max e.mtimeSeconds.toInt 0).toNat % 8 ^ 11) :=
    number_writeOctal (show 0 < 12 by decide) _
  unfold modified
  rw [lookup_field hvalid .mtime, hfield]
  unfold asRead
  by_cases hnanos : e.mtimeNanoseconds ≠ 0
  · rw [if_pos hnanos, if_pos hnanos]
    exact time_mtimeText hvalid.nanoseconds
  · rw [if_neg hnanos, if_neg hnanos]
    rfl

theorem number_device (n : Nat) :
    number (if isDevice e then writeOctal 8 n else List.replicate 8 0) =
    some (if isDevice e then n % 8 ^ 7 else 0) := by
  by_cases hdevice : isDevice e = true
  · rw [if_pos hdevice, if_pos hdevice]
    exact number_writeOctal (by decide) n
  · rw [if_neg hdevice, if_neg hdevice]
    exact number_zeros 8

theorem path_memberHeader (hvalid : Validated e) :
    (memberHeader e contents flag).path = (memberPath e).take 99 := by
  exact text_writeField (memberPath_zero hvalid)

theorem memberOf_memberHeader (hvalid : Validated e) :
    memberOf (memberHeader e contents flag) (readRecords keepsEmpty e) =
      some (asRead keepsEmpty e contents flag) := by
  have hlink : text (memberHeader e contents flag).linkname = (memberLink e).take 99 :=
    text_writeField hvalid.link_zero
  have huid : numeric (readRecords keepsEmpty e) UID (memberHeader e contents flag).uid =
    some (e.uid.toNat % 8 ^ 7) :=
    numeric_written hvalid (by simp) (show 0 < 8 by decide) _
  have hgid : numeric (readRecords keepsEmpty e) GID (memberHeader e contents flag).gid =
    some (e.gid.toNat % 8 ^ 7) :=
    numeric_written hvalid (by simp) (show 0 < 8 by decide) _
  have hsize : numeric (readRecords keepsEmpty e) SIZE (memberHeader e contents flag).size =
      some (bodyLength e contents % 8 ^ 11) := numeric_written hvalid (by simp)
        (show 0 < 12 by decide) _
  have hmajor : number (memberHeader e contents flag).devmajor = _ :=
    number_device (writtenMajor e.rdev).toNat
  have hminor : number (memberHeader e contents flag).devminor = _ :=
    number_device (writtenMinor e.rdev).toNat
  have hgetD : ∀ (c : Prop) [Decidable c] (long short : Bytes),
      (if c then some long else none : Option Bytes).getD short = if c then long else short := by
    intro c _ long short
    split <;> rfl
  unfold memberOf
  rw [number_mode hvalid, huid, hgid, hsize, modified_written hvalid, hmajor, hminor,
    path_memberHeader hvalid, hlink, lookup_field hvalid .path,
      lookup_field hvalid .link, hgetD, hgetD]
  rfl

/-! ### The bytes of an entry -/

def padding (n : Nat) : Bytes := List.replicate (roundUp n - n) 0

theorem length_padded_body (bytes : Bytes) :
    (bytes ++ padding bytes.length).length = roundUp bytes.length := by
  have := le_roundUp bytes.length
  rw [length_append, padding, length_replicate]
  omega

def stored (e : ManifestEntry) (contents : Bytes) : Bytes :=
  if bodyLength e contents > 0 then contents ++ padding contents.length else []

def paxBytes (e : ManifestEntry) : Bytes :=
  if paxRecords e ≠ [] then
    (paxHeader e (encodePax (paxRecords e))).bytes ++
      (encodePax (paxRecords e) ++ padding (encodePax (paxRecords e)).length)
  else []

def memberBytes (e : ManifestEntry) (contents : Bytes) (flag : UInt8) : Bytes :=
  paxBytes e ++ ((memberHeader e contents flag).bytes ++ stored e contents)

theorem bodyLength_pos (h : bodyLength e contents > 0) :
    bodyLength e contents = contents.length := by
  unfold bodyLength at h ⊢
  split
  · rfl
  · rename_i hcontents
    rw [if_neg hcontents] at h
    exact absurd h (Nat.lt_irrefl 0)

theorem length_stored : (stored e contents).length = roundUp (bodyLength e contents) := by
  unfold stored
  by_cases hpos : bodyLength e contents > 0
  · rw [if_pos hpos, length_padded_body, bodyLength_pos hpos]
  · rw [Nat.eq_zero_of_not_pos hpos]
    rfl

theorem roundUp_mod (n : Nat) : roundUp n % BLOCK = 0 := Nat.mul_mod_left ..

theorem length_paxBytes : (paxBytes e).length % BLOCK = 0 := by
  have hround := roundUp_mod (encodePax (paxRecords e)).length
  unfold paxBytes
  split
  · rw [length_append, (finished_paxHeader _).length_bytes, length_padded_body]
    unfold BLOCK at hround ⊢
    omega
  · rfl

theorem length_memberBytes : (memberBytes e contents flag).length % BLOCK = 0 := by
  have hpax := length_paxBytes (e := e)
  have hround := roundUp_mod (bodyLength e contents)
  unfold memberBytes
  rw [length_append, length_append, finished_memberHeader.length_bytes, length_stored]
  unfold BLOCK at hpax hround ⊢
  omega

theorem pad_emit {b : TarBuilder} (hblock : b.inner.length % BLOCK = 0) (bytes : Bytes) :
    (b.emit bytes).pad = b.emit (bytes ++ padding bytes.length) := by
  have hround : roundUp bytes.length - bytes.length =
      if bytes.length % BLOCK = 0 then 0 else BLOCK - bytes.length % BLOCK := by
    unfold roundUp BLOCK
    split <;> omega
  have hremainder : (b.emit bytes).inner.length % BLOCK = bytes.length % BLOCK := by
    show (b.inner ++ bytes).length % BLOCK = _
    rw [length_append]
    unfold BLOCK at hblock ⊢
    omega
  unfold TarBuilder.pad padding
  rw [hremainder, hround]
  by_cases hzero : bytes.length % BLOCK = 0
  · rw [if_neg (not_not.mpr hzero), if_pos hzero, replicate_zero, append_nil]
  · rw [if_pos hzero, if_neg hzero]
    unfold TarBuilder.emit
    rw [append_assoc]

/-- What `append` writes ahead of an entry. -/
def TarBuilder.appendPax (b : TarBuilder) (e : ManifestEntry) : TarBuilder :=
  if paxRecords e ≠ [] then
    ((b.emit (paxHeader e (encodePax (paxRecords e))).bytes).emit (encodePax (paxRecords e))).pad
  else b

theorem appendPax_eq {b : TarBuilder} (hblock : b.inner.length % BLOCK = 0) :
    b.appendPax e = b.emit (paxBytes e) := by
  unfold TarBuilder.appendPax paxBytes
  by_cases hrecords : paxRecords e ≠ []
  · have hheader : (b.emit (paxHeader e (encodePax (paxRecords e))).bytes).inner.length % BLOCK =
      0 := by
      show (b.inner ++ _).length % BLOCK = 0
      rw [length_append, (finished_paxHeader _).length_bytes]
      unfold BLOCK at hblock ⊢
      omega
    rw [if_pos hrecords, if_pos hrecords, pad_emit hheader]
    unfold TarBuilder.emit
    rw [append_assoc]
  · rw [if_neg hrecords, if_neg hrecords]
    unfold TarBuilder.emit
    rw [append_nil]

theorem append_eq {b : TarBuilder} (hblock : b.inner.length % BLOCK = 0)
    (hsocket : e.kind ≠ KIND_SOCKET)
    (hflag : typeflag e = .ok flag) :
    b.append e contents = .ok (true, b.emit (memberBytes e contents flag)) := by
  have hpax : (if paxRecords e ≠ [] then
      ((b.emit (paxHeader e (encodePax (paxRecords e))).bytes).emit
        (encodePax (paxRecords e))).pad else b) =
      b.emit (paxBytes e) := appendPax_eq hblock
  have hstart : ((b.emit (paxBytes e)).emit (memberHeader e contents flag).bytes).inner.length % BLOCK = 0 := by
    have := length_paxBytes (e := e)
    show (b.inner ++ _ ++ _).length % BLOCK = 0
    rw [length_append, length_append, finished_memberHeader.length_bytes]
    unfold BLOCK at hblock this ⊢
    omega
  have hbody : (if bodyLength e contents > 0 then
      (((b.emit (paxBytes e)).emit (memberHeader e contents flag).bytes).emit contents).pad
      else
        (b.emit (paxBytes e)).emit (memberHeader e contents flag).bytes) =
          b.emit (memberBytes e contents flag) := by
    unfold memberBytes stored
    by_cases hpos : bodyLength e contents > 0
    · rw [if_pos hpos, if_pos hpos, pad_emit hstart]
      unfold TarBuilder.emit
      simp only [append_assoc]
    · rw [if_neg hpos, if_neg hpos]
      unfold TarBuilder.emit
      simp only [append_assoc, append_nil]
  unfold TarBuilder.append
  rw [if_neg hsocket]
  dsimp only
  rw [hpax, hflag]
  exact congrArg (fun b => Except.ok (true, b)) hbody

/-! ### Reading an entry -/

theorem length_print_le {n width : Nat} (hwidth : width ≠ 0) (hn : n < 10 ^ width) :
    (print 10 n).length ≤ width := by
  rw [length_print (by decide)]
  exact Nat.log_lt_of_lt_pow' hwidth hn

theorem length_mtimeText (hvalid : Validated e) : (mtimeText e).length ≤ 30 := by
  have hseconds : (print 10 e.mtimeSeconds.toInt.natAbs).length ≤ 19 := by
    apply length_print_le (by decide)
    have hlow := e.mtimeSeconds.minValue_le_toInt
    have hhigh := e.mtimeSeconds.toInt_lt
    rw [show Int64.minValue.toInt = -2 ^ 63 from rfl] at hlow
    omega
  have hint : (printInt e.mtimeSeconds.toInt).length ≤ 20 := by
    unfold printInt
    split
    · rw [length_cons]
      omega
    · omega
  unfold mtimeText
  rw [length_append, length_append, length_padded (by decide) (by decide) hvalid.nanoseconds,
    length_singleton]
  omega

theorem length_payload (hvalid : Validated e) : (encodePax (paxRecords e)).length < 8 ^ 11 := by
  have hperm := (((paxRecords_perm hvalid).map fun r => 2 * (r.1.length + r.2.length) + 8)).sum_eq
  have hle := length_encodePax_le (paxRecords e)
  rw [hperm, map_append, sum_append] at hle
  have hxattrs : ((e.xattrs.map xattrRecord).map fun r => 2 * (r.1.length + r.2.length) + 8).sum =
      2 * (e.xattrs.map fun x => x.name.length + x.value.length).sum + 34 * e.xattrs.length := by
    induction e.xattrs with
    | nil => rfl
    | cons x xattrs ih =>
      simp only [map_cons, sum_cons, length_cons, xattrRecord, length_append] at ih ⊢
      rw [show XATTR.length = 13 from rfl]
      omega
  have hmtime := length_mtimeText hvalid
  have hpath : (memberPath e).length ≤ MAX_MANIFEST_PATH_BYTES + 1 := by
    have := hvalid.path_length
    unfold memberPath
    split
    · rw [length_append, length_singleton]
      omega
    · omega
  have hlink := hvalid.link_length
  have hfields : ((fieldRecords e).map fun r => 2 * (r.1.length + r.2.length) + 8).sum ≤
      2 * (mtimeText e).length + 2 * (memberLink e).length + 2 * (memberPath e).length + 58 := by
    unfold fieldRecords
    have hm : MTIME.length = 5 := rfl
    have hl : LINKPATH.length = 8 := rfl
    have hp : PATH.length = 4 := rfl
    split <;> split <;> split <;>
      simp only [map_append, map_cons, map_nil, sum_append, sum_cons, sum_nil, hm, hl, hp] <;>
      omega
  have hcount := hvalid.xattrs_count
  have hbytes := hvalid.xattrs_bytes
  unfold MAX_MANIFEST_PATH_BYTES at hpath hlink
  unfold MAX_MANIFEST_XATTRS at hcount
  unfold MAX_MANIFEST_XATTR_BYTES at hbytes
  omega

theorem typeflag_cases (hflag : typeflag e = .ok flag) :
    flag ∈ ([48, 49, 50, 51, 52, 53, 54] : List UInt8) ∧ (flag = 48 ↔ hasContents e = true) := by
  unfold typeflag at hflag
  unfold hasContents
  by_cases hfile : e.kind = KIND_FILE
  · rw [if_pos hfile] at hflag
    cases htarget : e.hardlinkTarget with
    | none =>
      rw [htarget] at hflag
      obtain rfl : 48 = flag := Except.ok.inj hflag
      exact ⟨by decide, by simp [hfile]⟩
    | some target =>
      rw [htarget] at hflag
      obtain rfl : 49 = flag := Except.ok.inj hflag
      exact ⟨by decide, by simp⟩
  · have hbody : (e.kind == KIND_FILE && e.hardlinkTarget.isNone) = false := by simp [hfile]
    rw [hbody]
    rw [if_neg hfile] at hflag
    repeat' split at hflag
    all_goals cases hflag
    all_goals exact ⟨by decide, by decide⟩

theorem bodySize_asRead (hflag : typeflag e = .ok flag) :
    bodySize (asRead keepsEmpty e contents flag) = bodyLength e contents % 8 ^ 11 := by
  obtain ⟨hmem, hcontents⟩ := typeflag_cases hflag
  have hflags : ∀ flag ∈ ([48, 49, 50, 51, 52, 53, 54] : List UInt8), hasBody [flag] = true ↔
    flag = 48 := by decide +kernel
  have hbody : hasBody [flag] = true ↔ hasContents e = true := (hflags flag hmem).trans hcontents
  show (if hasBody [flag] then bodyLength e contents % 8 ^ 11 else 0) = _
  by_cases h : hasContents e = true
  · rw [if_pos (hbody.mpr h)]
  · rw [if_neg (mt hbody.mp h), bodyLength, if_neg h]
    rfl

theorem readBody_memberHeader (hvalid : Validated e) (hflag : typeflag e = .ok flag)
    (rest : Bytes) :
    readBody (memberHeader e contents flag) (readRecords keepsEmpty e) (stored e contents ++ rest) =
      some (asRead keepsEmpty e contents flag,
        (stored e contents ++ rest).drop (roundUp (bodyLength e contents % 8 ^ 11))) := by
  unfold readBody
  rw [memberOf_memberHeader hvalid]
  dsimp only
  rw [bodySize_asRead hflag, if_pos]
  have hround := le_roundUp (bodyLength e contents)
  rw [length_append, length_stored]
  omega

theorem readMember_memberBytes (contents : Bytes) (keepsEmpty : Bool) (hvalid : Validated e)
    (hflag : typeflag e = .ok flag) (rest : Bytes) :
    isEnd (memberBytes e contents flag ++ rest) = false ∧
      readMember keepsEmpty (memberBytes e contents flag ++ rest) =
      some (asRead keepsEmpty e contents flag,
        (stored e contents ++ rest).drop (roundUp (bodyLength e contents % 8 ^ 11))) := by
  have hordinary : (memberHeader e contents flag).typeflag ≠ [120] := by
    have hflags : ∀ flag ∈ ([48, 49, 50, 51, 52, 53, 54] : List UInt8), [flag] ≠ [120] := by
      decide +kernel
    exact hflags flag (typeflag_cases hflag).1
  unfold memberBytes paxBytes
  by_cases hrecords : paxRecords e ≠ []
  · rw [if_pos hrecords]
    simp only [append_assoc]
    refine ⟨(finished_paxHeader _).not_isEnd _, ?_⟩
    have hsize : number (paxHeader e (encodePax (paxRecords e))).size =
      some (encodePax (paxRecords e)).length := by
      rw [show (paxHeader e (encodePax (paxRecords e))).size = writeOctal 12
        (encodePax (paxRecords e)).length from rfl, number_writeOctal (by decide),
          Nat.mod_eq_of_lt (length_payload hvalid)]
    unfold readMember
    rw [(finished_paxHeader _).readHeader]
    simp only [bind, Option.bind]
    rw [if_pos (show (paxHeader e (encodePax (paxRecords e))).typeflag = [120] from rfl), hsize]
    dsimp only
    rw [take_left, records_encodePax]
    rw [← append_assoc (encodePax (paxRecords e)), drop_left' (length_padded_body _),
      finished_memberHeader.readHeader]
    exact readBody_memberHeader hvalid hflag rest
  · rw [if_neg hrecords, nil_append, append_assoc]
    refine ⟨finished_memberHeader.not_isEnd _, ?_⟩
    have hnone : readRecords keepsEmpty e = [] := by
      unfold readRecords
      rw [not_not.mp hrecords]
      rfl
    unfold readMember
    rw [finished_memberHeader.readHeader]
    simp only [bind, Option.bind]
    rw [if_neg hordinary, ← hnone]
    exact readBody_memberHeader hvalid hflag rest

end

end PocketVm.Runtime.OciExport
