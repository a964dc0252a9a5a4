import PocketVm.Runtime.Filesystem

/-!
# What a merged overlay leaves

`apply_cow` walks the bitmap of a COW v3 file and writes the sectors it marks. For a file that
describes the image it is applied to, the merged image is that file's byte wherever the byte's
sector is marked and the old byte everywhere else, and no offset on the way leaves 64 bits.
-/

namespace PocketVm.Runtime

open Wire Checked Sparse List

/-- A file of the host. Its length is an `off_t`. -/
structure HostFile where
  bytes : Bytes
  length_lt : bytes.length < 2 ^ 63

namespace Cow

def roundUp (n alignment : Nat) : Nat := divCeil n alignment * alignment

variable (overlay : Bytes)

def size : Nat := beField overlay 12 8
def sectorBytes : Nat := beField overlay 20 4
def alignment : Nat := beField overlay 24 4
def sectors : Nat := divCeil (size overlay) (sectorBytes overlay)
def bitmapBytes : Nat := divCeil (sectors overlay) 8
def bitmapOffset : Nat := roundUp COW_HEADER_BYTES (alignment overlay)
def dataOffset : Nat := roundUp (bitmapOffset overlay + bitmapBytes overlay) (alignment overlay)

def Marked (p : Nat) : Prop :=
  let sector := p / sectorBytes overlay
  (overlay.getD (bitmapOffset overlay + sector / 8) 0).toNat.testBit (sector % 8) = true

instance (p : Nat) : Decidable (Marked overlay p) := inferInstanceAs (Decidable (_ = true))

/-- No offset of the overlay leaves the range of `u64`. -/
structure NoWrap : Prop where
  bitmapOffset : bitmapOffset overlay < 2 ^ 64
  bitmapEnd : Cow.bitmapOffset overlay + bitmapBytes overlay < 2 ^ 64
  dataOffset : dataOffset overlay < 2 ^ 64
  place : ∀ index < sectors overlay, index * sectorBytes overlay < 2 ^ 64
  source : ∀ index < sectors overlay, Cow.dataOffset overlay + index * sectorBytes overlay < 2 ^ 64
  applied : sectors overlay < 2 ^ 64

variable {overlay}

theorem divCeil_mul_lt {n d : Nat} (hd : 0 < d) : divCeil n d * d < n + d := by
  have := Nat.div_mul_le_self (n + d - 1) d
  rw [divCeil]
  omega

theorem divCeil_of_dvd {n d : Nat} (hd : 0 < d) (h : n % d = 0) : divCeil n d * d = n := by
  obtain ⟨k, rfl⟩ := Nat.dvd_of_mod_eq_zero h
  rw [divCeil, show d * k + d - 1 = d - 1 + d * k by omega, Nat.add_mul_div_left _ _ hd, Nat.div_eq_of_lt (by omega)]
  ring

theorem beField_lt (offset width : Nat) : beField overlay offset width < 256 ^ width := by
  refine (readBE_lt _).trans_le (Nat.pow_le_pow_right (by decide) ?_)
  rw [slice, length_take]
  omega

/-- A header that describes a file of the host keeps every offset within 64 bits. -/
theorem noWrap (hsize : size overlay < 2 ^ 63) (hsector : 0 < sectorBytes overlay)
    (halign : 0 < alignment overlay)
    (hwhole : size overlay % sectorBytes overlay = 0) : NoWrap overlay := by
  have halignLt : alignment overlay < 2 ^ 32 := beField_lt 24 4
  have hsectors : sectors overlay * sectorBytes overlay = size overlay :=
    divCeil_of_dvd hsector hwhole
  have hle : sectors overlay ≤ size overlay := by
    rw [← hsectors]
    exact Nat.le_mul_of_pos_right _ hsector
  have hbitmap : bitmapBytes overlay * 8 < sectors overlay + 8 := divCeil_mul_lt (by decide)
  have hbitmapOffset : bitmapOffset overlay < COW_HEADER_BYTES + alignment overlay :=
    divCeil_mul_lt halign
  have hdataOffset : dataOffset overlay < bitmapOffset overlay + bitmapBytes overlay + alignment overlay :=
    divCeil_mul_lt halign
  have hheader : COW_HEADER_BYTES = 4128 := rfl
  have hplace : ∀ index < sectors overlay, index * sectorBytes overlay < size overlay := by
    intro index hindex
    rw [← hsectors]
    exact Nat.mul_lt_mul_of_pos_right hindex hsector
  refine ⟨by omega, by omega, by omega, fun index hindex => ?_, fun index hindex => ?_, by omega⟩
  · have := hplace index hindex
    omega
  · have := hplace index hindex
    omega

end Cow

variable {image overlay bitmap merged : Bytes} {layout : CowLayout}

variable {index width applied offset length : Nat} {indices : List Nat}

theorem div_eq_iff_mem_sector {p : Nat} (hwidth : 0 < width) :
    p / width = index ↔ index * width ≤ p ∧ p < index * width + width := by
  rw [Nat.div_eq_iff hwidth]
  constructor
  · rintro ⟨h1, h2⟩
    exact ⟨h1, by omega⟩
  · rintro ⟨h1, h2⟩
    exact ⟨h1, by omega⟩

theorem applySectors_getD {applied' : Nat} (hwidth : 0 < layout.sectorBytes)
    (hplace : ∀ index ∈ indices, index * layout.sectorBytes + layout.sectorBytes ≤ image.length)
    (hwrap : ∀ index ∈ indices, layout.dataOffset + index * layout.sectorBytes < 2 ^ 64)
    (h : applySectors overlay bitmap layout indices (image, applied) = .ok (merged, applied')) :
    merged.length = image.length ∧ ∀ p, merged.getD p 0 =
      if p / layout.sectorBytes ∈ indices ∧ sectorChanged bitmap (p / layout.sectorBytes) then
        overlay.getD (layout.dataOffset + p) 0
      else image.getD p 0 := by
  induction indices generalizing image applied with
  | nil =>
    cases h
    exact ⟨rfl, fun p => by rw [if_neg (by simp)]⟩
  | cons index rest ih =>
    have hin := hplace index mem_cons_self
    rw [applySectors] at h
    by_cases hchanged : sectorChanged bitmap index
    · rw [if_pos hchanged] at h
      have hsource := hwrap index mem_cons_self
      simp only [wrap64, Nat.mod_eq_of_lt (show index * layout.sectorBytes < 2 ^ 64 by omega),
        Nat.mod_eq_of_lt hsource, bind_ok] at h
      obtain ⟨sector, hread, h⟩ := h
      unfold readExact at hread
      split at hread
      swap
      · cases hread
      next hwithin =>
      obtain rfl := Except.ok.inj hread
      have hlen := length_slice hwithin
      have hkeep : (overwrite image (index * layout.sectorBytes) (slice overlay (layout.dataOffset +
          index * layout.sectorBytes) layout.sectorBytes)).length = image.length := by
        rw [length_overwrite]
        omega
      obtain ⟨hlength, hbytes⟩ := ih (fun i hi => by rw [hkeep]; exact hplace i (mem_cons_of_mem _ hi))
        (fun i hi => hwrap i (mem_cons_of_mem _ hi)) h
      refine ⟨hlength.trans hkeep, fun p => ?_⟩
      rw [hbytes, getD_overwrite, hlen]
      by_cases hp : p / layout.sectorBytes = index
      · -- the byte lies in this sector, which a later pass could only write again
        have hrange := (div_eq_iff_mem_sector hwidth).mp hp
        rw [if_pos hrange, getD_slice, if_pos (show p - index * layout.sectorBytes < layout.sectorBytes by omega),
          show layout.dataOffset + index * layout.sectorBytes + (p - index * layout.sectorBytes) =
            layout.dataOffset + p by omega, ite_self, hp, if_pos ⟨mem_cons_self, hchanged⟩]
      · have hrange := fun h => hp ((div_eq_iff_mem_sector hwidth).mpr h)
        rw [if_neg hrange]
        simp only [mem_cons, hp, false_or]
    · rw [if_neg hchanged] at h
      obtain ⟨hlength, hbytes⟩ := ih (fun i hi => hplace i (mem_cons_of_mem _ hi))
        (fun i hi => hwrap i (mem_cons_of_mem _ hi)) h
      refine ⟨hlength, fun p => ?_⟩
      rw [hbytes]
      by_cases hp : p / layout.sectorBytes = index
      · rw [if_neg (by rw [hp]; exact fun h => hchanged h.2),
          if_neg (by rw [hp]; exact fun h => hchanged h.2)]
      · simp only [mem_cons, hp, false_or]

theorem applySectors_unchanged {result : Bytes × Nat}
    (h : ∀ index ∈ indices, sectorChanged bitmap index = false) :
    applySectors overlay bitmap layout indices result = .ok result := by
  induction indices generalizing result with
  | nil => rfl
  | cons index rest ih =>
    rw [applySectors, h index mem_cons_self]
    exact ih fun i hi => h i (mem_cons_of_mem _ hi)

theorem applySectors_one {sector : Bytes} (hnodup : indices.Nodup) (hmem : index ∈ indices)
    (hbits : ∀ i, sectorChanged bitmap i = decide (i = index))
    (hwrap : layout.dataOffset + index * layout.sectorBytes < 2 ^ 64)
    (hread : readExact overlay (layout.dataOffset + index * layout.sectorBytes) layout.sectorBytes "read overlay sector"
      "overlay" = .ok sector) : applySectors overlay bitmap layout indices (image, applied) =
      .ok (overwrite image (index * layout.sectorBytes) sector, applied + 1) := by
  have hplace : wrap64 (index * layout.sectorBytes) = index * layout.sectorBytes :=
    Nat.mod_eq_of_lt (by omega)
  have hsource : wrap64 (layout.dataOffset + index * layout.sectorBytes) =
    layout.dataOffset + index * layout.sectorBytes :=
    Nat.mod_eq_of_lt hwrap
  induction indices with
  | nil => cases hmem
  | cons i rest ih =>
    obtain ⟨hi, hrest⟩ := nodup_cons.mp hnodup
    rw [applySectors, hbits]
    by_cases h : i = index
    · subst h
      rw [if_pos (by simp)]
      dsimp only
      rw [hplace, hsource, hread]
      refine applySectors_unchanged fun j hj => ?_
      rw [hbits, decide_eq_false_iff_not]
      rintro rfl
      exact hi hj
    · rw [if_neg (by simp [h])]
      exact ih hrest ((mem_cons.mp hmem).resolve_left (Ne.symm h))

theorem slice_slice {file : Bytes} (h : offset + width ≤ length) :
    slice (slice file 0 length) offset width = slice file offset width := by
  rw [slice, slice, slice, drop_zero, drop_take, take_take, Nat.min_eq_left (by omega)]

theorem cowLayout_ok (h : cowLayout (slice overlay 0 COW_HEADER_BYTES) = .ok layout) :
    0 < Cow.sectorBytes overlay ∧ 0 < Cow.alignment overlay ∧ (Cow.NoWrap overlay →
      layout = ⟨Cow.sectorBytes overlay, Cow.sectors overlay, Cow.bitmapOffset overlay,
        Cow.dataOffset overlay⟩) := by
  unfold cowLayout at h
  have hfield : ∀ offset width, offset + width ≤ COW_HEADER_BYTES →
      beField (slice overlay 0 COW_HEADER_BYTES) offset width = beField overlay offset width := by
    intro offset width hwithin
    rw [beField, slice_slice hwithin, beField]
  rw [hfield 12 8 (by decide), hfield 20 4 (by decide),
    hfield 24 4 (by decide)] at h
  simp only [bind_ok, stop_ok, not_or, pure_ok] at h
  obtain ⟨_, -, _, ⟨hsector, halign, -⟩, rfl⟩ := h
  refine ⟨Nat.pos_of_ne_zero hsector, Nat.pos_of_ne_zero halign, fun hwrap => ?_⟩
  have h1 : wrap64 (Cow.bitmapOffset overlay) = Cow.bitmapOffset overlay :=
    Nat.mod_eq_of_lt hwrap.bitmapOffset
  have h2 : wrap64 (Cow.bitmapOffset overlay + Cow.bitmapBytes overlay) =
      Cow.bitmapOffset overlay + Cow.bitmapBytes overlay := Nat.mod_eq_of_lt hwrap.bitmapEnd
  have h3 : wrap64 (Cow.dataOffset overlay) = Cow.dataOffset overlay :=
    Nat.mod_eq_of_lt hwrap.dataOffset
  show CowLayout.mk (Cow.sectorBytes overlay) (Cow.sectors overlay)
    (wrap64 (Cow.bitmapOffset overlay))
    (wrap64 (Cow.roundUp (wrap64 (wrap64 (Cow.bitmapOffset overlay) + Cow.bitmapBytes overlay)) (Cow.alignment overlay))) = _
  rw [h1, h2]
  exact congrArg _ h3

theorem sectorChanged_slice (hwithin : offset + length ≤ overlay.length)
    (hindex : index / 8 < length) : sectorChanged (slice overlay offset length) index =
      (overlay.getD (offset + index / 8) 0).toNat.testBit (index % 8) := by
  have hlen := length_slice hwithin
  rw [sectorChanged, getElem?_eq_getElem (by omega), Option.any_some,
    ← getD_eq_getElem _ 0 (by omega), getD_slice, if_pos hindex]

/-- Merging an overlay that describes its image: the length stays, a byte is the overlay's where the
bitmap marks its sector and the old one elsewhere, and nothing wraps. -/
theorem merged_byte_by_byte (image overlay : HostFile) (merged : Bytes)
    (hsize : Cow.size overlay.bytes = image.bytes.length)
    (hwhole : Cow.size overlay.bytes % Cow.sectorBytes overlay.bytes = 0)
    (h : applyCow image.bytes overlay.bytes = .ok merged) : merged.length = image.bytes.length ∧
    (∀ p < image.bytes.length, merged.getD p 0 =
      if Cow.Marked overlay.bytes p then overlay.bytes.getD (Cow.dataOffset overlay.bytes + p) 0
      else image.bytes.getD p 0) ∧ Cow.NoWrap overlay.bytes := by
  unfold applyCow at h
  simp only [bind_ok, stop_ok, pure_ok] at h
  obtain ⟨header, hheader, layout, hlayout, bits, hbits, ⟨result, applied⟩, hwalk, _, -, rfl⟩ := h
  unfold readExact at hheader
  split at hheader
  swap
  · cases hheader
  obtain rfl := Except.ok.inj hheader
  obtain ⟨hsector, halign, hlayout⟩ := cowLayout_ok hlayout
  have hwrap := Cow.noWrap (by rw [hsize]; exact image.length_lt) hsector halign hwhole
  obtain rfl := hlayout hwrap
  have hsectors : Cow.sectors overlay.bytes * Cow.sectorBytes overlay.bytes = image.bytes.length :=
    (Cow.divCeil_of_dvd hsector hwhole).trans hsize
  unfold readExact at hbits
  split at hbits
  swap
  · cases hbits
  next hwithin =>
  obtain rfl := Except.ok.inj hbits
  obtain ⟨hlength, hbytes⟩ := applySectors_getD hsector
    (fun index hindex => by
      rw [← hsectors, ← Nat.succ_mul]
      exact Nat.mul_le_mul_right _ (mem_range.mp hindex))
    (fun index hindex => hwrap.source index (mem_range.mp hindex)) hwalk
  refine ⟨hlength, fun p hp => ?_, hwrap⟩
  have hmem : p / Cow.sectorBytes overlay.bytes < Cow.sectors overlay.bytes := by
    rw [Nat.div_lt_iff_lt_mul hsector, hsectors]
    exact hp
  have hbyte : p / Cow.sectorBytes overlay.bytes / 8 < divCeil (Cow.sectors overlay.bytes) 8 := by
    rw [divCeil]
    omega
  rw [hbytes, sectorChanged_slice hwithin hbyte]
  simp only [mem_range, hmem, true_and]
  rfl

def twoSectors : HostFile := ⟨List.replicate 1024 5, by rw [length_replicate]; decide⟩

def secondSector : HostFile where
  bytes := [0x4f, 0x4f, 0x4f, 0x4d, 0, 0, 0, 3, 0, 0, 0, 0, 0, 0, 0, 0, 0, 0, 4, 0, 0, 0, 2, 0, 0,
    0, 0, 3, 0, 0, 0, 0] ++
    List.replicate 4096 0 ++ [2, 0, 0] ++ List.replicate 512 0 ++ List.replicate 512 9
  length_lt := by decide +kernel

theorem merged_byte_by_byte_second :
    applyCow twoSectors.bytes secondSector.bytes = .ok
      (List.replicate 512 5 ++ List.replicate 512 9) ∧
    (List.replicate 512 5 ++ List.replicate 512 9 : Bytes).getD 700 0 =
      if Cow.Marked secondSector.bytes 700 then secondSector.bytes.getD (Cow.dataOffset secondSector.bytes + 700) 0
      else twoSectors.bytes.getD 700 0 := by
  have h : applyCow twoSectors.bytes secondSector.bytes =
    .ok (List.replicate 512 5 ++ List.replicate 512 9) := by
    decide +kernel
  exact ⟨h, (merged_byte_by_byte twoSectors secondSector _ (by decide +kernel) (by decide +kernel) h).2.1 700
    (by decide +kernel)⟩

end PocketVm.Runtime
