import PocketVm.Wire

/-!
# Byte transports that cut as they like

A reader and a writer over a byte stream. Which part of a request one call serves is decided by a
list of cuts: a call is interrupted, fails, or moves at most so many bytes. After the last cut
every call serves what is asked for. A fair list of cuts neither fails nor stalls.
-/

namespace Transport

open Wire List

inductive Cut where
  | interrupted
  | failed
  | bytes (n : Nat)
  deriving DecidableEq

def Cut.fair : Cut → Bool
  | interrupted => true
  | failed => false
  | bytes n => 0 < n

inductive Failure where
  | interrupted | writeZero | other
  deriving DecidableEq

/-- What is still to be delivered. -/
structure Input where
  bytes : Bytes
  cuts : List Cut

/-- One `read` into a buffer of `want` bytes. No bytes means the end of the stream. -/
def Input.read (r : Input) (want : Nat) : Except Failure Bytes × Input :=
  match r.cuts with
  | [] => (.ok (r.bytes.take want), ⟨r.bytes.drop want, []⟩)
  | .interrupted :: cuts => (.error .interrupted, ⟨r.bytes, cuts⟩)
  | .failed :: cuts => (.error .other, ⟨r.bytes, cuts⟩)
  | .bytes n :: cuts => (.ok (r.bytes.take (min n want)), ⟨r.bytes.drop (min n want), cuts⟩)

/-- What has been accepted. -/
structure Output where
  bytes : Bytes
  cuts : List Cut

def Output.write (w : Output) (buffer : Bytes) : Except Failure Nat × Output :=
  match w.cuts with
  | [] => (.ok buffer.length, ⟨w.bytes ++ buffer, []⟩)
  | .interrupted :: cuts => (.error .interrupted, ⟨w.bytes, cuts⟩)
  | .failed :: cuts => (.error .other, ⟨w.bytes, cuts⟩)
  | .bytes n :: cuts => (.ok (min n buffer.length), ⟨w.bytes ++ buffer.take n, cuts⟩)

/-- No cut stops the transfer. -/
def Fair (cuts : List Cut) : Prop := ∀ c ∈ cuts, c.fair = true

instance : DecidablePred Fair := fun cuts => inferInstanceAs (Decidable (∀ c ∈ cuts, c.fair = true))

@[grind =] theorem fair_cons {c : Cut} {cuts : List Cut} : Fair (c :: cuts) ↔
    c.fair = true ∧ Fair cuts :=
  forall_mem_cons

section
variable {r r' : Input} {w w' : Output} {want : Nat} {buffer : Bytes}

variable {a : Except Failure Bytes}

/-- Whatever the cuts, a read that succeeds moves the next bytes of the stream, and one that fails
none. -/
theorem Input.read_bytes (h : r.read want = (a, r')) : (∃ e, a = .error e ∧ r'.bytes = r.bytes) ∨
      ∃ chunk, a = .ok chunk ∧ r.bytes = chunk ++ r'.bytes ∧ chunk.length ≤ want := by
  unfold Input.read at h
  split at h <;> cases h <;> grind [take_append_drop]

/-- Whatever the cuts, a write that succeeds takes the first bytes of the buffer, and one that fails
none. -/
theorem Output.write_bytes {a : Except Failure Nat} (h : w.write buffer = (a, w')) :
    (∃ e, a = .error e ∧ w'.bytes = w.bytes) ∨ ∃ n,
      a = .ok n ∧ w'.bytes = w.bytes ++ buffer.take n := by
  unfold Output.write at h
  grind

/-- A fair read fails only if it is interrupted, and finds nothing only at the end. -/
theorem Input.read_fair (hf : Fair r.cuts) (hw : 0 < want) (h : r.read want = (a, r')) :
    Fair r'.cuts ∧ (∀ e, a = .error e → e = .interrupted) ∧ (a = .ok [] → r.bytes = []) := by
  unfold Input.read at h
  split at h <;> cases h <;> grind [Cut.fair, take_eq_nil_iff]

/-- A fair write fails only if it is interrupted, and takes something. -/
theorem Output.write_fair {a : Except Failure Nat} (hf : Fair w.cuts) (hb : buffer ≠ [])
    (h : w.write buffer = (a, w')) : Fair w'.cuts ∧ (∀ e, a = .error e → e = .interrupted) ∧
    a ≠ .ok 0 := by
  unfold Output.write at h
  split at h <;> cases h <;> grind [Cut.fair]

/-- Every call uses up a cut, if there is one; an interrupted call had one. -/
theorem Input.cuts_read (h : r.read want = (a, r')) :
    r'.cuts.length ≤ r.cuts.length ∧ (a = .error .interrupted →
      r'.cuts.length < r.cuts.length) := by
  unfold Input.read at h
  grind

theorem Output.cuts_write {a : Except Failure Nat} (h : w.write buffer = (a, w')) :
    w'.cuts.length ≤ w.cuts.length ∧ (a = .error .interrupted →
      w'.cuts.length < w.cuts.length) := by
  unfold Output.write at h
  grind

end

def Output.writeAll (w : Output) (buffer : Bytes) : Except Failure Unit × Output :=
  if _ : buffer = [] then (.ok (), w)
  else
    match h : w.write buffer with
    | (.ok 0, w') => (.error .writeZero, w')
    | (.ok (n + 1), w') => writeAll w' (buffer.drop (n + 1))
    | (.error .interrupted, w') => writeAll w' buffer
    | (.error e, w') => (.error e, w')
termination_by buffer.length + w.cuts.length
decreasing_by
  · have hcuts := (Output.cuts_write h).1
    have hlen := length_pos_of_ne_nil ‹_›
    rw [length_drop]
    omega
  · have hcuts := (Output.cuts_write h).2 rfl
    omega

/-- Whatever the cuts, a first part of the buffer is written, and all of it if the loop succeeds. -/
theorem Output.writeAll_part {w w' : Output} {buffer : Bytes} {a : Except Failure Unit}
    (h : w.writeAll buffer = (a, w')) :
    ∃ part, part <+: buffer ∧ w'.bytes = w.bytes ++ part ∧ (a = .ok () → part = buffer) := by
  fun_induction writeAll w buffer with
  | case1 w =>
    cases h
    exact ⟨[], nil_prefix, (append_nil _).symm, fun _ => rfl⟩
  | case2 w buffer hb w₁ hw =>
    cases h
    rcases write_bytes hw with ⟨e, he, -⟩ | ⟨n, hn, hbytes⟩
    · cases he
    · cases hn
      exact ⟨[], nil_prefix, hbytes, fun ha => by cases ha⟩
  | case3 w buffer hb n w₁ hw ih =>
    obtain ⟨part, ⟨rest, hpart⟩, hbytes, hall⟩ := ih h
    rcases write_bytes hw with ⟨e, he, -⟩ | ⟨m, hm, hfirst⟩
    · cases he
    · cases hm
      refine ⟨buffer.take (n + 1) ++ part, ⟨rest, ?_⟩, ?_, fun ha => ?_⟩
      · rw [append_assoc, hpart, take_append_drop]
      · rw [hbytes, hfirst, append_assoc]
      · rw [hall ha, take_append_drop]
  | case4 w buffer hb w₁ hw ih =>
    rcases write_bytes hw with ⟨e, -, hsame⟩ | ⟨n, hn, -⟩
    · rw [← hsame]
      exact ih h
    · cases hn
  | case5 w buffer hb e w₁ hne hw =>
    cases h
    rcases write_bytes hw with ⟨e, -, hsame⟩ | ⟨n, hn, -⟩
    · exact ⟨[], nil_prefix, by rw [hsame, append_nil], fun ha => by cases ha⟩
    · cases hn

theorem Output.writeAll_fair {w : Output} (hf : Fair w.cuts) (buffer : Bytes) :
    ∃ cuts, Fair cuts ∧ w.writeAll buffer = (.ok (), ⟨w.bytes ++ buffer, cuts⟩) := by
  have hok : ∃ w', Fair w'.cuts ∧ w.writeAll buffer = (.ok (), w') := by
    fun_induction writeAll w buffer with
    | case1 w => exact ⟨w, hf, rfl⟩
    | case2 w buffer hb w₁ hw => exact absurd rfl (write_fair hf hb hw).2.2
    | case3 w buffer hb n w₁ hw ih => exact ih (write_fair hf hb hw).1
    | case4 w buffer hb w₁ hw ih => exact ih (write_fair hf hb hw).1
    | case5 w buffer hb e w₁ hne hw => exact absurd ((write_fair hf hb hw).2.1 e rfl) hne
  obtain ⟨⟨bytes, cuts⟩, hf', h⟩ := hok
  obtain ⟨part, -, rfl, hall⟩ := writeAll_part h
  exact ⟨cuts, hf', by rw [h, hall rfl]⟩

end Transport
