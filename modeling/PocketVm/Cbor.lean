import PocketVm.Wire
import Mathlib.Algebra.BigOperators.Group.List.Basic

/-!
# Deterministic CBOR

The part of CBOR that records of numbers, texts and lists need: every item starts with a head, which
gives its major type and a number on as few bytes as it takes. A format writes values and reads them
back, whatever follows them, and formats are put together from formats.
-/

namespace Cbor

open Wire List

variable {α β : Type}

/-- What has been written of a value that fits is read back, up to what follows it. -/
structure Format (α : Type) where
  fits : α → Bool
  write : α → Bytes
  read : Bytes → Option (α × Bytes)
  read_write : ∀ {a : α} (rest : Bytes), fits a = true → read (write a ++ rest) = some (a, rest)

namespace Format

/-- A value is written as the value of another type that stands for it. -/
def via (format : Format α) (forth : β → α) (back : α → β) (h : ∀ b, back (forth b) = b) :
    Format β where
  fits b := format.fits (forth b)
  write b := format.write (forth b)
  read bytes := (format.read bytes).map fun x => (back x.1, x.2)
  read_write {b} rest hfits := by
    rw [format.read_write rest hfits]
    simp only [Option.map_some, h]

def seq (first : Format α) (second : Format β) : Format (α × β) where
  fits x := first.fits x.1 && second.fits x.2
  write x := first.write x.1 ++ second.write x.2
  read bytes := do
    let (a, rest) ← first.read bytes
    let (b, rest) ← second.read rest
    return ((a, b), rest)
  read_write {x} rest hfits := by
    obtain ⟨hfirst, hsecond⟩ := Bool.and_eq_true_iff.mp hfits
    rw [append_assoc, first.read_write _ hfirst]
    show ((second.read (second.write x.2 ++ rest)).bind fun y => some ((x.1, y.1), y.2)) = _
    rw [second.read_write rest hsecond]
    rfl

end Format

def argumentWidth (n : Nat) :
    Nat := if n < 2 ^ 8 then 0 else if n < 2 ^ 16 then 1 else if n < 2 ^ 32 then 2 else 3

def writeHead (major n : Nat) : Bytes :=
  if n < 24 then [UInt8.ofNat (32 * major + n)]
  else UInt8.ofNat (32 * major + 24 + argumentWidth n) :: beBytes (2 ^ argumentWidth n) n

def readHead (major : Nat) : Bytes → Option (Nat × Bytes)
  | [] => none
  | first :: rest =>
    let info := first.toNat % 32
    if first.toNat / 32 ≠ major then none
    else if info < 24 then some (info, rest)
    else if info < 28 ∧ 2 ^ (info - 24) ≤ rest.length then
      some (readBE (rest.take (2 ^ (info - 24))), rest.drop (2 ^ (info - 24)))
    else none

theorem argumentWidth_lt (n : Nat) : argumentWidth n < 4 := by
  unfold argumentWidth
  split_ifs <;> decide

theorem lt_of_argumentWidth {n : Nat} (h : n < 2 ^ 64) : n < 256 ^ 2 ^ argumentWidth n := by
  unfold argumentWidth
  split_ifs with h8 h16 h32
  · exact h8
  · exact h16
  · exact h32
  · exact h

theorem readHead_writeHead {major n : Nat} (hmajor : major < 8) (hn : n < 2 ^ 64) (rest : Bytes) :
    readHead major (writeHead major n ++ rest) = some (n, rest) := by
  have hwidth := argumentWidth_lt n
  unfold writeHead
  split
  · next hsmall =>
    have hbyte : (UInt8.ofNat (32 * major + n)).toNat = 32 * major + n := by
      rw [UInt8.toNat_ofNat']
      omega
    simp only [singleton_append, readHead, hbyte]
    rw [if_neg (by omega), if_pos (by omega)]
    congr 2
    omega
  · next hlarge =>
    have hbyte : (UInt8.ofNat (32 * major + 24 + argumentWidth n)).toNat =
      32 * major + 24 + argumentWidth n := by
      rw [UInt8.toNat_ofNat']
      omega
    have hinfo : (32 * major + 24 + argumentWidth n) % 32 = 24 + argumentWidth n := by omega
    simp only [cons_append, readHead, hbyte, hinfo, Nat.add_sub_cancel_left]
    rw [if_neg (by omega), if_neg (by omega), if_pos ⟨by omega, by simp⟩,
      take_left' (length_beBytes _ _), drop_left' (length_beBytes _ _),
        readBE_beBytes (lt_of_argumentWidth hn)]

def headSize (n : Nat) : Nat := if n < 24 then 1 else 1 + 2 ^ argumentWidth n

theorem length_writeHead (major n : Nat) : (writeHead major n).length = headSize n := by
  unfold writeHead headSize
  split
  · rfl
  · rw [length_cons, length_beBytes, Nat.add_comm]

theorem headSize_small {n : Nat} (h : n < 24) : headSize n = 1 := if_pos h

theorem headSize_byte {n : Nat} (h : ¬n < 24) (hn : n < 2 ^ 8) : headSize n = 2 := by
  rw [headSize, if_neg h, argumentWidth, if_pos hn]
  rfl

namespace Format

def u32 : Format UInt32 where
  fits _ := true
  write n := writeHead 0 n.toNat
  read bytes := do
    let (n, rest) ← readHead 0 bytes
    if n < 2 ^ 32 then some (UInt32.ofNat n, rest) else none
  read_write {n} rest _ := by
    have hn := n.toNat_lt
    rw [readHead_writeHead (by decide) (by omega)]
    show (if n.toNat < 2 ^ 32 then some (UInt32.ofNat n.toNat, rest) else none) = _
    rw [if_pos hn, UInt32.ofNat_toNat]

def textBytes (text : String) : Bytes := text.toUTF8.data.toList

theorem fromUTF8?_textBytes (text : String) :
    String.fromUTF8? ⟨(textBytes text).toArray⟩ = some text := by
  exact dif_pos text.isValidUTF8

def text : Format String where
  fits s := (textBytes s).length < 2 ^ 64
  write s := writeHead 3 (textBytes s).length ++ textBytes s
  read bytes := do
    let (length, rest) ← readHead 3 bytes
    if length ≤ rest.length then
      (String.fromUTF8? ⟨(rest.take length).toArray⟩).map (·, rest.drop length) else none
  read_write {s} rest hfits := by
    rw [append_assoc, readHead_writeHead (by decide) (of_decide_eq_true hfits)]
    show (if (textBytes s).length ≤ (textBytes s ++ rest).length then
      (String.fromUTF8? ⟨((textBytes s ++ rest).take (textBytes s).length).toArray⟩).map
        (·, (textBytes s ++ rest).drop (textBytes s).length) else none) = _
    rw [if_pos (by simp), take_left' rfl, drop_left' rfl, fromUTF8?_textBytes]
    rfl

def readItems (format : Format α) : Nat → Bytes → Option (List α × Bytes)
  | 0, bytes => some ([], bytes)
  | count + 1, bytes => do
    let (item, rest) ← format.read bytes
    let (items, rest) ← readItems format count rest
    return (item :: items, rest)

theorem readItems_write (format : Format α) {items : List α} (rest : Bytes)
    (h : items.all format.fits = true) :
    readItems format items.length (items.flatMap format.write ++ rest) = some (items, rest) := by
  induction items with
  | nil => rfl
  | cons item items ih =>
    obtain ⟨hitem, hitems⟩ := Bool.and_eq_true_iff.mp h
    rw [flatMap_cons, append_assoc, length_cons, readItems, format.read_write _ hitem]
    show ((readItems format items.length (items.flatMap format.write ++ rest)).bind
      fun x => some (item :: x.1, x.2)) = _
    rw [ih hitems]
    rfl

def array (format : Format α) : Format (List α) where
  fits items := items.length < 2 ^ 64 && items.all format.fits
  write items := writeHead 4 items.length ++ items.flatMap format.write
  read bytes := do
    let (count, rest) ← readHead 4 bytes
    readItems format count rest
  read_write {items} rest hfits := by
    obtain ⟨hlength, hall⟩ := Bool.and_eq_true_iff.mp hfits
    rw [append_assoc, readHead_writeHead (by decide) (of_decide_eq_true hlength)]
    exact format.readItems_write rest hall

def under (major n : Nat) (hmajor : major < 8) (hn : n < 2 ^ 64) (format : Format α) :
    Format α where
  fits := format.fits
  write a := writeHead major n ++ format.write a
  read bytes := do
    let (m, rest) ← readHead major bytes
    if m = n then format.read rest else none
  read_write {a} rest hfits := by
    rw [append_assoc, readHead_writeHead hmajor hn]
    show (if n = n then format.read (format.write a ++ rest) else none) = _
    rw [if_pos rfl, format.read_write rest hfits]

def field (index : Nat) (hindex : index < 2 ^ 64) (format : Format α) :
    Format α := under 0 index (by decide) hindex format

def record {γ : Type} (first : Format α) (second : Format β) (third : Format γ) :
    Format (α × β × γ) :=
  under 5 3 (by decide) (by decide) (seq (field 0 (by decide) first)
    (seq (field 1 (by decide) second) (field 2 (by decide) third)))

def textSize (s : String) : Nat := headSize (textBytes s).length + (textBytes s).length

theorem length_text (s : String) : (text.write s).length = textSize s := by
  show (writeHead 3 (textBytes s).length ++ textBytes s).length = _
  rw [length_append, length_writeHead, textSize]

theorem length_u32 (n : UInt32) : (u32.write n).length = headSize n.toNat :=
  length_writeHead 0 n.toNat

theorem length_array (format : Format α) {size : α → Nat}
    (h : ∀ a, (format.write a).length = size a) (items : List α) :
    ((array format).write items).length = headSize items.length + (items.map size).sum := by
  show (writeHead 4 items.length ++ items.flatMap format.write).length = _
  rw [length_append, length_writeHead, length_flatMap]
  simp only [h]

theorem length_record {γ : Type} (first : Format α) (second : Format β) (third : Format γ) (a : α)
    (b : β) (c : γ) :
    ((record first second third).write (a, b, c)).length =
      4 + (first.write a).length + (second.write b).length + (third.write c).length := by
  show (writeHead 5 3 ++ ((writeHead 0 0 ++ first.write a) ++ ((writeHead 0 1 ++ second.write b) ++
    (writeHead 0 2 ++ third.write c)))).length = _
  simp only [length_append, length_writeHead]
  have h0 : headSize 0 = 1 := rfl
  have h1 : headSize 1 = 1 := rfl
  have h2 : headSize 2 = 1 := rfl
  have h3 : headSize 3 = 1 := rfl
  omega

end Format

def writeText (s : String) : Bytes := Format.text.write s

def writeBool (b : Bool) : Bytes := [if b then 0xf5 else 0xf4]

def writeArray (items : List Bytes) : Bytes := writeHead 4 items.length ++ items.flatten

def writeMap (entries : List (Nat × Bytes)) : Bytes :=
  writeHead 5 entries.length ++ entries.flatMap fun entry => writeHead 0 entry.1 ++ entry.2

theorem length_writeText (s : String) : (writeText s).length = Format.textSize s :=
  Format.length_text s

theorem length_writeBool (b : Bool) : (writeBool b).length = 1 := rfl

theorem length_writeArray (items : List Bytes) :
    (writeArray items).length = headSize items.length + (items.map List.length).sum := by
  rw [writeArray, length_append, length_writeHead, length_flatten]

theorem length_writeMap (entries : List (Nat × Bytes)) : (writeMap entries).length =
    headSize entries.length + (entries.map fun entry => headSize entry.1 + entry.2.length).sum := by
  rw [writeMap, length_append, length_flatMap]
  simp only [length_append, length_writeHead]

end Cbor
