import PocketVm.Guest.Control

/-!
# A control stream in any pieces

The reads of a whole control stream, as the guest's decoder takes them one after another. Each frame
comes out of the read that completes it, and the first frame out of sequence stops the decoder in
the read that completes that frame.
-/

namespace PocketVm.Guest

open Wire Protocol List

namespace ControlFrameDecoder

/-- What each read returned, up to the first that was refused, and the decoder after the last. -/
def feedAll (d : ControlFrameDecoder) :
    List Bytes → List (List RawFrame) × Except ProtocolError ControlFrameDecoder
  | [] => ([], .ok d)
  | bytes :: reads =>
    match d.feed bytes with
    | .error e => ([], .error e)
    | .ok (frames, d') => (frames :: (feedAll d' reads).1, (feedAll d' reads).2)

variable {d d' : ControlFrameDecoder} {first : UInt64} {frames taken later : List RawFrame}
  {f : RawFrame}
  {bytes unread : Bytes} {reads : List Bytes} {results : List (List RawFrame)} {e : ProtocolError}

theorem feedAll_ok (h : d.feed bytes = .ok (taken, d')) :
    d.feedAll (bytes :: reads) = (taken :: (d'.feedAll reads).1, (d'.feedAll reads).2) := by
  rw [feedAll, h]

theorem feedAll_error (h : d.feed bytes = .error e) :
    d.feedAll (bytes :: reads) = ([], .error e) := by
  rw [feedAll, h]

theorem feedAll_take (h : d.feedAll reads = (results, .ok d')) (k : Nat) :
    ∃ d₁, d.feedAll (reads.take k) = (results.take k, .ok d₁) := by
  induction reads generalizing d results k with
  | nil =>
    cases h
    exact ⟨d', by rw [take_nil, take_nil]; rfl⟩
  | cons bytes reads ih =>
    cases k with
    | zero => exact ⟨d, rfl⟩
    | succ k =>
      cases hfeed : d.feed bytes with
      | error e =>
        rw [feedAll_error hfeed] at h
        cases h
      | ok out =>
        rw [feedAll_ok hfeed] at h
        obtain ⟨hresults, hlast⟩ := Prod.mk.inj h
        obtain ⟨d₂, htake⟩ := ih (Prod.ext rfl hlast) k
        refine ⟨d₂, ?_⟩
        rw [take_succ_cons, feedAll_ok hfeed, htake, ← hresults, take_succ_cons]

/-- The frames in sequence, and the others from the first that is not. -/
structure Parted (first : UInt64) (good bad : List RawFrame) : Prop where
  consecutive : Consecutive first good
  wrong : ∀ f later, bad = f :: later → f.header.sequence ≠ first + UInt64.ofNat good.length

variable {good bad : List RawFrame}

theorem drain_none (h : d.next = .ok none) :
    d.drain = .ok ([], ⟨d.pending, d.expectedSequence + UInt64.ofNat 0⟩) := by
  unfold drain
  rw [h, show UInt64.ofNat 0 = 0 from rfl, UInt64.add_zero]

theorem drain_error (h : d.next = .error e) : d.drain = .error e := by
  unfold drain
  rw [h]

theorem drain_some (h : d.next = .ok (some (f, d'))) : d.drain = (do
    let (frames, last) ← d'.drain
    return (f :: frames, last)) := by
  rw [drain, h]

/-- The loop takes the complete frames that are in sequence. It ends in a frame that is cut, or is
ended by a complete frame that is not in sequence. -/
theorem drain_stream (hsent : ∀ f ∈ good ++ bad, Sendable f)
    (hparted : Parted d.expectedSequence good bad)
    (h : d.pending ++ unread = streamOf (good ++ bad)) :
    (∃ taken later rest, good = taken ++ later ∧ d.pending = streamOf taken ++ rest ∧
      CutIn rest (later ++ bad) ∧ d.drain = .ok (taken,
        ⟨rest, d.expectedSequence + UInt64.ofNat taken.length⟩)) ∨
    ∃ f later rest, bad = f :: later ∧ d.pending = streamOf (good ++ [f]) ++ rest ∧
      d.drain = .error (.sequenceMismatch (d.expectedSequence + UInt64.ofNat good.length) f.header.sequence) := by
  induction good generalizing d with
  | nil =>
    cases bad with
    | nil =>
      have hempty : d.pending = [] := (append_eq_nil_iff.mp h).1
      refine .inl ⟨[], [], d.pending, rfl, rfl, hempty, drain_none ?_⟩
      rw [next, if_pos (by rw [hempty]; decide)]
    | cons f later =>
      have hf : Sendable f := hsent f (mem_cons_self ..)
      rcases cut_or_front h with hcut | ⟨rest, hrest, -⟩
      · exact .inl ⟨[], [], d.pending, rfl, rfl, hcut, drain_none (next_cut hf h hcut)⟩
      have hzero : d.expectedSequence + UInt64.ofNat ([] : List RawFrame).length =
        d.expectedSequence := UInt64.add_zero _
      refine .inr ⟨f, later, rest, rfl, by simpa [streamOf] using hrest, ?_⟩
      rw [hzero]
      exact drain_error ((next_front hf hrest).trans (if_neg (hzero ▸ hparted.wrong f later rfl)))
  | cons f good ih =>
    obtain ⟨⟨hsequence, hconsecutive⟩, hwrong⟩ := hparted
    have hf : Sendable f := hsent f (mem_cons_self ..)
    rcases cut_or_front h with hcut | ⟨rest, hrest, hunread⟩
    · exact .inl ⟨[], f :: good, d.pending, rfl, rfl, hcut, drain_none (next_cut hf h hcut)⟩
    have hnext := (next_front hf hrest).trans (if_pos hsequence)
    simp only [length_cons, ← add_ofNat_succ] at hwrong ⊢
    rcases ih (d := ⟨rest, d.expectedSequence + 1⟩) (fun g hg => hsent g (mem_cons_of_mem _ hg))
      ⟨hconsecutive, hwrong⟩ hunread with
      ⟨taken, later, rest', rfl, hpending, hcut, hdrain⟩ | ⟨g, later, rest', rfl, hpending, hdrain⟩
    · refine .inl ⟨f :: taken, later, rest', rfl, ?_, hcut, ?_⟩
      · rw [hrest, streamOf_cons, append_assoc, ← show rest = streamOf taken ++ rest' from hpending]
      · rw [drain_some hnext, hdrain, length_cons, ← add_ofNat_succ]
        rfl
    · refine .inr ⟨g, later, rest', rfl, ?_, ?_⟩
      · rw [hrest, cons_append, streamOf_cons, append_assoc, ← show rest = streamOf (good ++ [g]) ++
          rest' from hpending]
      · rw [drain_some hnext, hdrain]
        rfl

/-- After `read` bytes of the stream of `frames`: exactly the frames that are complete have been
returned, and they were in sequence. -/
structure Completed (first : UInt64) (frames : List RawFrame) (read : Bytes)
    (returned : List RawFrame) (d : ControlFrameDecoder) : Prop where
  consecutive : Consecutive first returned
  expected : d.expectedSequence = first + UInt64.ofNat returned.length
  bytes : read = streamOf returned ++ d.pending
  cut : ∃ later, frames = returned ++ later ∧ CutIn d.pending later

variable {returned : List RawFrame} {read : Bytes}

theorem Completed.holds_part (h : Completed first frames read returned d)
    (hsent : ∀ f ∈ frames, Sendable f) : d.Partial := by
  obtain ⟨later, rfl, hcut⟩ := h.cut
  exact hcut.length_lt fun f hf => hsent f (mem_append_right _ hf)

/-- The frames that were returned are among those in sequence. -/
theorem Completed.among (h : Completed first (good ++ bad) read returned d)
    (hparted : Parted first good bad) :
    ∃ later, good = returned ++ later ∧ CutIn d.pending (later ++ bad) := by
  obtain ⟨hconsecutive, -, -, rest, hrest, hcut⟩ := h
  rcases append_eq_append_iff.mp hrest with ⟨more, rfl, rfl⟩ | ⟨more, rfl, rfl⟩
  · cases more with
    | nil => exact ⟨[], by rw [append_nil, append_nil], hcut⟩
    | cons f more => exact absurd (consecutive_append.mp hconsecutive).2.1 (hparted.wrong f _ rfl)
  · exact ⟨more, rfl, hcut⟩

theorem Completed.before_wrong (h : Completed first (good ++ f :: later) read returned d)
    (hparted : Parted first good (f :: later)) : read.length < (streamOf (good ++ [f])).length := by
  obtain ⟨rest, rfl, hcut⟩ := h.among hparted
  rw [h.bytes, append_assoc, streamOf_append, length_append, length_append]
  cases rest with
  | nil =>
    have hlt : d.pending.length < f.toBytes.length := hcut
    simpa [streamOf] using hlt
  | cons g rest =>
    have hlt : d.pending.length < g.toBytes.length := hcut
    rw [cons_append, streamOf_cons, length_append]
    omega

/-- The reads up to the one that completes `f` were taken, and that one was refused. -/
structure Refused (first : UInt64) (taken : List RawFrame) (f : RawFrame) (reads : List Bytes)
    (outcome : List (List RawFrame) × Except ProtocolError ControlFrameDecoder) : Prop where
  error : outcome.2 = .error (.sequenceMismatch (first + UInt64.ofNat taken.length) f.header.sequence)
  before : (reads.take outcome.1.length).flatten.length < (streamOf (taken ++ [f])).length
  completes : (streamOf (taken ++ [f])).length ≤ (reads.take (outcome.1.length + 1)).flatten.length

theorem feed_fits (hunread : d.Partial) (hsize : bytes.length ≤ MAX_READ_CHUNK) :
    (d.pending ++ bytes).length ≤ MAX_PENDING ∧
      d.feed bytes = drain { d with pending := d.pending ++ bytes } := by
  unfold Partial at hunread
  have hfits : d.pending.length + bytes.length ≤ MAX_PENDING := by
    unfold MAX_PENDING
    omega
  refine ⟨by rwa [length_append], ?_⟩
  unfold feed
  rw [if_neg (by omega)]

theorem feed_completed (hsent : ∀ f ∈ good ++ bad, Sendable f) (hparted : Parted first good bad)
    (hsize : bytes.length ≤ MAX_READ_CHUNK) (hdone : Completed first (good ++ bad) read returned d)
    (h : read ++ bytes ++ unread = streamOf (good ++ bad)) :
    (∃ taken d', d.feed bytes = .ok (taken, d') ∧ Completed first (good ++ bad) (read ++ bytes)
      (returned ++ taken) d') ∨
    ∃ f later, bad = f :: later ∧ (streamOf (good ++ [f])).length ≤ read.length + bytes.length ∧
      d.feed bytes = .error (.sequenceMismatch (first + UInt64.ofNat good.length) f.header.sequence) := by
  have hchunk := (feed_fits (hdone.holds_part hsent) hsize).2
  obtain ⟨rest, rfl, hcut⟩ := hdone.among hparted
  obtain ⟨-, hexpected, hread, -⟩ := hdone
  obtain ⟨hconsecutive, hwrong⟩ := hparted
  obtain ⟨hreturned, hrest⟩ := consecutive_append.mp hconsecutive
  have hsum : ∀ frames : List RawFrame,
      d.expectedSequence + UInt64.ofNat frames.length = first + UInt64.ofNat
        (returned ++ frames).length := by
    intro frames
    rw [hexpected, length_append, UInt64.ofNat_add, UInt64.add_assoc]
  have hpending : (d.pending ++ bytes) ++ unread = streamOf (rest ++ bad) := by
    rw [hread, append_assoc returned, streamOf_append] at h
    simpa only [append_assoc, append_cancel_left_eq] using h
  rcases drain_stream (d := ⟨d.pending ++ bytes, d.expectedSequence⟩)
      (fun f hf => hsent f (by rw [append_assoc]; exact mem_append_right _ hf))
      ⟨hexpected ▸ hrest, fun f later hbad => by rw [hsum]; exact hwrong f later hbad⟩ hpending with
    ⟨taken, later, left, rfl, hbytes, hleft, hdrain⟩ | ⟨f, later, left, rfl, hbytes, hdrain⟩
  all_goals change d.pending ++ bytes = _ at hbytes
  · refine .inl ⟨taken, _, hchunk.trans hdrain, ?_, hsum taken, ?_,
      later ++ bad, by simp only [append_assoc], hleft⟩
    · rw [← append_assoc] at hconsecutive
      exact (consecutive_append.mp hconsecutive).1
    · rw [hread, append_assoc, hbytes, streamOf_append, append_assoc]
  · refine .inr ⟨f, later, rfl, ?_, by rw [hchunk, hdrain, hsum]⟩
    have hlen := congrArg List.length hbytes
    rw [hread, append_assoc, streamOf_append]
    simp only [length_append] at hlen ⊢
    omega

theorem feedAll_from (hsent : ∀ f ∈ good ++ bad, Sendable f) (hparted : Parted first good bad)
    (hsize : ∀ bytes ∈ reads, bytes.length ≤ MAX_READ_CHUNK)
    (hdone : Completed first (good ++ bad) read returned d)
    (h : read ++ reads.flatten ++ unread = streamOf (good ++ bad)) :
    (∃ results d', d.feedAll reads = (results, .ok d') ∧ results.length = reads.length ∧
      Completed first (good ++ bad) (read ++ reads.flatten) (returned ++ results.flatten) d') ∨
    ∃ results f later, bad = f :: later ∧
      d.feedAll reads = (results, .error (.sequenceMismatch (first + UInt64.ofNat good.length) f.header.sequence)) ∧
      read.length + (reads.take results.length).flatten.length < (streamOf (good ++ [f])).length ∧
      (streamOf (good ++ [f])).length ≤ read.length + (reads.take
        (results.length + 1)).flatten.length := by
  induction reads generalizing d returned read with
  | nil =>
    refine .inl ⟨[], d, rfl, rfl, ?_⟩
    simpa using hdone
  | cons bytes reads ih =>
    have hstream : read ++ bytes ++ (reads.flatten ++ unread) = streamOf (good ++ bad) := by
      rw [← h, flatten_cons]
      simp only [append_assoc]
    rcases feed_completed hsent hparted (hsize bytes (mem_cons_self ..)) hdone hstream with
      ⟨taken, d₁, hfeed, hnow⟩ | ⟨f, later, rfl, hcomplete, hfeed⟩
    · rw [feedAll_ok hfeed]
      rcases ih (fun b hb => hsize b (mem_cons_of_mem _ hb)) hnow
        (by rwa [append_assoc _ reads.flatten]) with
        ⟨results, d', hall, hlen, hdone⟩ | ⟨results, f, later, rfl, hall, hbefore, hafter⟩
      · refine .inl ⟨taken :: results, d', by rw [hall], by rw [length_cons, length_cons, hlen], ?_⟩
        simpa only [flatten_cons, append_assoc] using hdone
      · refine .inr ⟨taken :: results, f, later, rfl, by rw [hall], ?_, ?_⟩
        all_goals
          simp only [length_append, length_cons, take_succ_cons, flatten_cons] at hbefore hafter ⊢
          omega
    · refine .inr ⟨[], f, later, rfl, feedAll_error hfeed, ?_, ?_⟩
      · simpa using hdone.before_wrong hparted
      · simpa using hcomplete

/-- All reads are taken. After each of them exactly the frames that are complete have been returned,
and the next one fits into the decoder's buffer. -/
def Decodes (first : UInt64) (frames : List RawFrame) (reads : List Bytes) : Prop :=
  ∃ results : List (List RawFrame), results.length = reads.length ∧ ∀ k, ∃ d,
    (new first).feedAll (reads.take k) = (results.take k, .ok d) ∧
    Completed first frames (reads.take k).flatten (results.take k).flatten d ∧
    d.pending.length < HEADER_LEN + MAX_CONTROL_PAYLOAD ∧
    ∀ read ∈ reads[k]?, (d.pending ++ read).length ≤
      HEADER_LEN + MAX_CONTROL_PAYLOAD + MAX_READ_CHUNK

section
variable (hsent : ∀ f ∈ good ++ bad, Sendable f) (hparted : Parted first good bad)
  (hsize : ∀ bytes ∈ reads, bytes.length ≤ MAX_READ_CHUNK)
  (hstream : reads.flatten ++ unread = streamOf (good ++ bad))
include hsent hparted hsize hstream

theorem feedAll_new :
    (∃ results d, (new first).feedAll reads = (results, .ok d) ∧ results.length = reads.length ∧
      Completed first (good ++ bad) reads.flatten results.flatten d) ∨
    ∃ f later, bad = f :: later ∧ Refused first good f reads ((new first).feedAll reads) := by
  have hstart : Completed first (good ++ bad) [] [] (new first) := by
    refine ⟨trivial, (UInt64.add_zero _).symm, rfl, good ++ bad, rfl, ?_⟩
    cases good ++ bad with
    | nil => rfl
    | cons f frames =>
      show 0 < f.toBytes.length
      rw [length_toBytes]
      exact Nat.lt_of_lt_of_le (by decide) (Nat.le_add_right ..)
  rcases feedAll_from hsent hparted hsize hstart hstream with hdone |
    ⟨results, f, later, hbad, hall, hbefore, hafter⟩
  · exact .inl hdone
  · refine .inr ⟨f, later, hbad, by rw [hall], ?_, ?_⟩
    · rw [hall]
      simpa using hbefore
    · rw [hall]
      simpa using hafter

theorem decodes_of_ok {results : List (List RawFrame)} {d : ControlFrameDecoder}
    (h : (new first).feedAll reads = (results, .ok d)) (hlen : results.length = reads.length) :
    Decodes first (good ++ bad) reads := by
  refine ⟨results, hlen, fun k => ?_⟩
  obtain ⟨d₁, htake⟩ := feedAll_take h k
  have hpart : (reads.take k).flatten ++ ((reads.drop k).flatten ++ unread) =
    streamOf (good ++ bad) := by
    rw [← append_assoc, ← flatten_append, take_append_drop, hstream]
  rcases feedAll_new hsent hparted (fun bytes hb => hsize bytes (mem_of_mem_take hb)) hpart with
    ⟨results', d', hall, -, hdone⟩ | ⟨_, _, -, hrefused⟩
  · rw [htake] at hall
    cases hall
    have hunread := hdone.holds_part hsent
    exact ⟨d₁, htake, hdone, hunread, fun read hread =>
      (feed_fits hunread (hsize read (mem_of_getElem? hread))).1⟩
  · have herror := hrefused.error
    rw [htake] at herror
    cases herror

end

/-- A stream of frames in sequence is decoded whatever the reads. A stream with a frame out of
sequence is decoded up to there, and refused in the read that completes the first such frame. -/
theorem reads_decode_each_frame_once (hsent : ∀ f ∈ frames, Sendable f)
    (hsize : ∀ bytes ∈ reads, bytes.length ≤ MAX_READ_CHUNK)
    (hstream : reads.flatten ++ unread = streamOf frames) (first : UInt64) :
    (Consecutive first frames → Decodes first frames reads) ∧
    ∀ taken f later, frames = taken ++ f :: later → Consecutive first taken →
      f.header.sequence ≠ first + UInt64.ofNat taken.length →
      (reads.flatten.length < (streamOf (taken ++ [f])).length → Decodes first frames reads) ∧
      ((streamOf (taken ++ [f])).length ≤ reads.flatten.length →
        Refused first taken f reads ((new first).feedAll reads)) := by
  constructor
  · intro hall
    have hparted : Parted first frames [] := ⟨hall, nofun⟩
    rw [← append_nil frames] at hsent hstream ⊢
    rcases feedAll_new hsent hparted hsize hstream with ⟨results, d, hfed, hlen, -⟩ |
      ⟨_, _, hbad, -⟩
    · exact decodes_of_ok hsent hparted hsize hstream hfed hlen
    · cases hbad
  · rintro taken f later rfl htaken hne
    have hparted : Parted first taken (f :: later) :=
      ⟨htaken, fun _ _ hbad => by cases hbad; exact hne⟩
    rcases feedAll_new hsent hparted hsize hstream with ⟨results, d, hfed, hlen, hdone⟩ |
      ⟨_, _, ⟨⟩, hrefused⟩
    · refine ⟨fun _ => decodes_of_ok hsent hparted hsize hstream hfed hlen, fun hlong => ?_⟩
      exact absurd (hdone.before_wrong hparted) (Nat.not_lt.mpr hlong)
    · refine ⟨fun hshort => ?_, fun _ => hrefused⟩
      have hle : ∀ k, (reads.take k).flatten.length ≤ reads.flatten.length := by
        intro k
        conv_rhs => rw [← take_append_drop k reads, flatten_append, length_append]
        exact Nat.le_add_right ..
      exact absurd (hrefused.completes.trans (hle _)) (Nat.not_le.mpr hshort)

namespace Sample

def sent : RawFrame := frameOf .signal [15] 7
def repeated : RawFrame := frameOf .resize [] 7
def written : Bytes := streamOf [sent, repeated]

theorem sendable : ∀ f ∈ [sent, repeated], Sendable f := by
  intro f hf
  rcases mem_pair.mp hf with rfl | rfl
  · exact .frameOf (by decide) (by decide)
  · exact .frameOf (by decide) (by decide)

theorem cut : [written.take 11, (written.drop 11).take 20].flatten ++ written.drop 31 =
    streamOf [sent, repeated] := by
  decide +kernel

theorem whole : [written.take 11, written.drop 11].flatten ++ [] = streamOf [sent, repeated] := by
  decide +kernel

end Sample

open Sample in
theorem reads_decode_until_a_number_repeats :
    Decodes 7 [sent, repeated] [written.take 11, (written.drop 11).take 20] ∧
      Refused 7 [sent] repeated [written.take 11, written.drop 11]
        ((new 7).feedAll [written.take 11, written.drop 11]) := by
  constructor
  · exact ((reads_decode_each_frame_once sendable (by decide +kernel) cut 7).2 [sent] repeated [] rfl (by decide)
      (by decide)).1 (by decide +kernel)
  · exact ((reads_decode_each_frame_once sendable (by decide +kernel) whole 7).2 [sent] repeated [] rfl (by decide)
      (by decide)).2 (by decide +kernel)

end ControlFrameDecoder

end PocketVm.Guest
