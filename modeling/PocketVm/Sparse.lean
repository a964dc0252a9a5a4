import Mathlib.Data.List.GetD
import Mathlib.Data.List.TakeDrop
import PocketVm.Wire

/-!
# Files with holes

A file is its bytes. Writing past the end fills the gap with zeros, and a hole is a range that is
not stored and reads as zeros. `lseek` finds the next stored byte and the next hole.
-/

namespace Sparse

open Wire List

/-- `pwrite`. -/
def overwrite (file : Bytes) (offset : Nat) (data : Bytes) : Bytes :=
  file.takeD offset 0 ++ data ++ file.drop (offset + data.length)

/-- `ftruncate`. -/
def resize (file : Bytes) (length : Nat) : Bytes := file.takeD length 0

def slice (file : Bytes) (offset length : Nat) : Bytes := (file.drop offset).take length

variable {file target data : Bytes} {offset length p : Nat}

theorem getD_takeD {n : Nat} : (file.takeD n 0).getD p 0 = if p < n then file.getD p 0 else 0 := by
  induction n generalizing file p with
  | zero => simp
  | succ n ih =>
    cases p with
    | zero => cases file <;> simp
    | succ p =>
      cases file with
      | nil => simp
      | cons b file => simpa using ih

theorem length_overwrite :
    (overwrite file offset data).length = max file.length (offset + data.length) := by
  simp only [overwrite, length_append, takeD_length, length_drop]
  omega

theorem getD_overwrite : (overwrite file offset data).getD p 0 =
    if offset ≤ p ∧ p < offset + data.length then data.getD (p - offset) 0 else file.getD p 0 := by
  have hhead : (file.takeD offset 0).length = offset := takeD_length ..
  by_cases hlow : p < offset
  · rw [if_neg (by omega), overwrite, append_assoc, getD_append _ _ _ _ (by omega), getD_takeD,
      if_pos hlow]
  by_cases hin : p < offset + data.length
  · rw [if_pos ⟨by omega, hin⟩, overwrite, append_assoc,
      getD_append_right _ _ _ _ (by omega), hhead, getD_append _ _ _ _ (by omega)]
  · rw [if_neg (by omega), overwrite, getD_append_right _ _ _ _ (by simp [hhead]; omega),
      length_append, getD_eq_getElem?_getD, getElem?_drop]
    congr 2
    omega

theorem ext_getD (hlen : file.length = target.length)
    (h : ∀ p < file.length, file.getD p 0 = target.getD p 0) :
    file = target := by
  refine ext_getElem hlen fun p hp hp' => ?_
  have := h p hp
  rwa [getD_eq_getElem _ _ hp, getD_eq_getElem _ _ hp'] at this

theorem getD_slice :
    (slice file offset length).getD p 0 = if p < length then file.getD (offset + p) 0 else 0 := by
  by_cases h : p < length
  · simp [slice, getD_eq_getElem?_getD, getElem?_take_of_lt h, getElem?_drop, h]
  · simp [slice, getD_eq_getElem?_getD, h]

theorem length_slice (h : offset + length ≤ file.length) :
    (slice file offset length).length = length := by
  rw [slice, length_take, length_drop]
  omega

theorem slice_append_left {first second : Bytes} (h : offset + length ≤ first.length) :
    slice (first ++ second) offset length = slice first offset length := by
  rw [slice, slice, drop_append_of_le_length (by omega), take_append_of_le_length (by simp; omega)]

theorem slice_append_right {first second : Bytes} (h : first.length ≤ offset) :
    slice (first ++ second) offset length = slice second (offset - first.length) length := by
  rw [slice, slice, drop_append, drop_of_length_le h, nil_append]

theorem slice_full (h : length = file.length) : slice file 0 length = file := by
  rw [slice, drop_zero, h, take_length]

theorem overwrite_at {first old new second : Bytes} {offset : Nat} (hoffset : offset = first.length)
    (hlen : new.length = old.length) : overwrite (first ++ (old ++ second)) offset new = first ++
    (new ++ second) := by
  subst hoffset
  rw [overwrite, takeD_eq_take _ (by simp), take_left' rfl, ← append_assoc first old, append_assoc,
    drop_left' (by simp [hlen])]

theorem overwrite_start {old new second : Bytes} (hlen : new.length = old.length) :
    overwrite (old ++ second) 0 new = new ++ second :=
  @overwrite_at [] old new second 0 rfl hlen

/-- Which bytes of a file are stored. A byte that is not is zero. -/
structure Holes (file : Bytes) where
  stored : Nat → Bool
  zero : ∀ p, stored p = false → file.getD p 0 = 0

namespace Holes

def allStored (file : Bytes) : Holes file where
  stored _ := true
  zero p h := by cases h

variable (holes : Holes file)

/-- The first position of the file from `start` on that is stored, or that is not. -/
def next (wanted : Bool) (start : Nat) : Option Nat :=
  (List.range' start (file.length - start)).find? (holes.stored · == wanted)

/-- `lseek` with `SEEK_DATA`; `none` is `ENXIO`. -/
def seekData (start : Nat) : Option Nat := holes.next true start

/-- `lseek` with `SEEK_HOLE`: the end of the file counts as a hole. -/
def seekHole (start : Nat) : Option Nat :=
  if start < file.length then some ((holes.next false start).getD file.length) else none

variable {holes} {wanted : Bool} {start found : Nat}

theorem next_some (h : holes.next wanted start = some found) : start ≤ found ∧ found < file.length ∧
    holes.stored found = wanted ∧ ∀ p, start ≤ p → p < found → holes.stored p = !wanted := by
  obtain ⟨hfound, before, after, hsplit, hbefore⟩ := find?_eq_some_iff_append.mp h
  have hmem : found ∈ List.range' start (file.length - start) := by
    rw [hsplit]
    simp
  rw [mem_range'_1] at hmem
  refine ⟨hmem.1, by omega, by simpa using hfound, fun p hlo hhi => ?_⟩
  -- the range is increasing, so what lies below `found` stands before it
  have hp : p ∈ List.range' start (file.length - start) := mem_range'_1.mpr ⟨hlo, by omega⟩
  have hsorted : (List.range' start (file.length - start)).Pairwise (· < ·) := pairwise_lt_range'
  rw [hsplit] at hp hsorted
  rcases mem_append.mp hp with hp | hp
  · have := hbefore p hp
    revert this
    cases holes.stored p <;> cases wanted <;> simp
  · rcases mem_cons.mp hp with rfl | hp
    · omega
    · have := (pairwise_cons.mp (pairwise_append.mp hsorted).2.1).1 p hp
      omega

theorem next_none (h : holes.next wanted start = none) {p : Nat} (hlo : start ≤ p)
    (hhi : p < file.length) :
    holes.stored p = !wanted := by
  have := find?_eq_none.mp h p (mem_range'_1.mpr ⟨hlo, by omega⟩)
  revert this
  cases holes.stored p <;> cases wanted <;> simp

theorem lt_seekHole (hin : start < file.length) (hstored : holes.stored start = true) :
    ∃ found, holes.seekHole start = some found ∧ start < found := by
  refine ⟨_, if_pos hin, ?_⟩
  cases hnext : holes.next false start with
  | none => exact hin
  | some q =>
    obtain ⟨h1, -, h3, -⟩ := next_some hnext
    refine lt_of_le_of_ne h1 ?_
    rintro rfl
    rw [hstored] at h3
    cases h3

end Holes

end Sparse
