import PocketVm.Guest.Pump

/-!
# What a pump delivers

The bytes a pump has read are those it has written and those it holds, in order, and an input pump
has read no more than the announced length. Every operation keeps this, whatever the descriptors
answer.
-/

namespace PocketVm.Guest

open Wire Checked List

def shortage (name : String) (missing : Nat) : PumpError :=
  .contract (name ++ " ended " ++ toString missing ++ " bytes before the announced length")

namespace Piping

/-- A pump that has read `t` bytes of the source. -/
structure Flow (name : String) (announced : Option Nat) (isOutput : Bool) (source : Bytes) (t : Nat)
    (p : Piping) : Prop where
  name_eq : p.pump.name = name
  direction : p.pump.isOutput = isOutput
  eio : p.pump.eioIsEof = true → announced = none
  capacity : p.pump.buffer.capacity = MAX_PUMP_BUFFER
  unread : p.unread = source.drop t
  available : t ≤ source.length
  within : ∀ n ∈ announced, t ≤ n
  budget : p.pump.remainingInput = announced.map (· - t)
  ordered : p.delivered <+: source.take t
  whole : isOutput = true ∨ p.pump.sink = true →
    p.delivered ++ p.pump.buffer.readable = source.take t
  ended : p.pump.source = false → p.pump.sink = true → ∀ n ∈ announced, t = n

/-- Between operations a pump without a sink holds nothing, and an output pump has then no source
either. -/
def Settled (p : Piping) : Prop :=
  p.pump.sink = false → p.pump.buffer.readable = [] ∧ (p.pump.isOutput = true →
    p.pump.source = false)

variable {name : String} {announced : Option Nat} {isOutput : Bool} {source : Bytes} {t : Nat}
  {p p' : Piping}

/-! ### Reading -/

theorem readEnds_none : p.readEnds = none ↔
    p.pump.remainingInput ≠ some 0 ∧ p.pump.buffer.remainingCapacity ≠ 0 ∧
    p.pump.source = true := by
  unfold readEnds
  split
  · simp [*]
  · split
    · simp [*]
    · split <;> simp_all

theorem Flow.closeSource (h : Flow name announced isOutput source t p)
    (hend : ∀ n ∈ announced, t = n) :
    Flow name announced isOutput source t p.closeSource :=
  { h with ended := fun _ _ => hend }

theorem maximum_le (pump : StreamPump) : pump.maximum ≤ pump.buffer.remainingCapacity ∧
    ∀ budget, pump.remainingInput = some budget → pump.maximum ≤ budget := by
  unfold StreamPump.maximum
  cases pump.remainingInput with
  | none => exact ⟨Nat.min_le_left .., by simp⟩
  | some budget =>
    refine ⟨(Nat.min_le_left ..).trans (Nat.min_le_left ..), ?_⟩
    rintro _ ⟨⟩
    exact Nat.min_le_right ..

theorem accept_fits {chunk : Bytes} (h : chunk.length ≤ p.pump.buffer.remainingCapacity) :
    let taken : Piping := { p with
      pump := { p.pump with buffer := (p.pump.buffer.push chunk).2,
                            remainingInput := p.pump.remainingInput.map (· - chunk.length) },
      unread := p.unread.drop chunk.length }
    p.accept chunk = .ok (if p.pump.remainingInput.map (· - chunk.length) =
      some 0 then (taken.closeSource, false) else (taken, true)) := by
  obtain ⟨hcount, -⟩ := p.pump.buffer.push_eq chunk
  rw [Nat.min_eq_left h] at hcount
  unfold accept
  dsimp only
  rw [if_neg (not_not.mpr hcount)]
  cases hbudget : p.pump.remainingInput with
  | none => simp
  | some budget =>
    by_cases hzero : budget - chunk.length = 0
    · simp [hzero]
    · simp [hzero]

/-- A chunk the pump asked for goes to the end of its buffer. -/
theorem Flow.accept (h : Flow name announced isOutput source t p) (hopen : p.pump.source = true)
    {chunk rest : Bytes}
    (hunread : p.unread = chunk ++ rest) (hmax : chunk.length ≤ p.pump.maximum) :
    ∃ p' more, p.accept chunk = .ok (p', more) ∧
      Flow name announced isOutput source (t + chunk.length) p' ∧ p'.pump.sink = p.pump.sink := by
  obtain ⟨hroom, hbudget⟩ := maximum_le p.pump
  have hfits := hmax.trans hroom
  obtain ⟨hcount, hreadable, hcapacity⟩ := p.pump.buffer.push_eq chunk
  rw [hcount, Nat.min_eq_left hfits, take_length] at hreadable
  have hdrop : source.drop t = chunk ++ rest := h.unread.symm.trans hunread
  have htake : source.take (t + chunk.length) = source.take t ++ chunk := by
    rw [take_add, hdrop, take_left]
  have hwithin : ∀ n ∈ announced, t + chunk.length ≤ n := by
    intro n hn
    have hle := h.within n hn
    have hleft := hbudget (n - t) (by rw [h.budget, Option.mem_def.mp hn]; rfl)
    omega
  have hremaining : p.pump.remainingInput.map (· - chunk.length) = announced.map
    (· - (t + chunk.length)) := by
    rw [h.budget, Option.map_map]
    congr 1
    funext n
    exact Nat.sub_sub ..
  have hflow : ∀ open' : Bool, (open' = false → ∀ n ∈ announced, t + chunk.length = n) →
      Flow name announced isOutput source (t + chunk.length) { p with
        pump := { p.pump with source := open', buffer := (p.pump.buffer.push chunk).2,
                              remainingInput := p.pump.remainingInput.map (· - chunk.length) },
        unread := p.unread.drop chunk.length } := by
    intro open' hend
    refine ⟨h.name_eq, h.direction, h.eio, hcapacity.trans h.capacity, ?_, ?_, hwithin, hremaining,
      ?_, ?_, fun hclosed _ => hend hclosed⟩
    · rw [h.unread, drop_drop]
    · have hlen := congrArg List.length hdrop
      rw [length_drop, length_append] at hlen
      have := h.available
      omega
    · rw [htake]
      exact h.ordered.trans (prefix_append ..)
    · intro hsink
      rw [hreadable, ← append_assoc, h.whole hsink, htake]
  rw [accept_fits hfits]
  by_cases hzero : p.pump.remainingInput.map (· - chunk.length) = some 0
  · rw [if_pos hzero]
    refine ⟨_, _, rfl, hflow false fun _ n hn => ?_, rfl⟩
    rw [hremaining, Option.mem_def.mp hn] at hzero
    have hleft : n - (t + chunk.length) = 0 := Option.some.inj hzero
    have := hwithin n hn
    omega
  · rw [if_neg hzero]
    refine ⟨_, _, rfl, ?_, rfl⟩
    have := hflow true (fun hfalse => by cases hfalse)
    rwa [← hopen] at this

theorem maximum_pos (hends : p.readEnds = none) : 0 < p.pump.maximum := by
  obtain ⟨hbudget, hroom, -⟩ := readEnds_none.mp hends
  have hchunk : 0 < IO_CHUNK := by decide
  unfold StreamPump.maximum
  cases hremaining : p.pump.remainingInput with
  | none =>
    show 0 < min _ _
    omega
  | some budget =>
    have hpos : budget ≠ 0 := fun hzero => hbudget (by rw [hremaining, hzero])
    show 0 < min (min _ _) _
    omega

def Shortage (name : String) (announced : Option Nat) (source : Bytes) (e : PumpError) : Prop :=
  ∃ n ∈ announced, source.length < n ∧ e = shortage name (n - source.length)

section
variable (h : Flow name announced isOutput source t p)
include h

theorem Flow.endOfSource (hends : p.readEnds = none) (hempty : p.unread = []) :
    Ends (Shortage name announced source) (fun out => announced = none ∧
      out = (p.closeSource, false)) p.endOfSource := by
  have hall : t = source.length := by
    have hle : source.length ≤ t := drop_eq_nil_iff.mp (h.unread.symm.trans hempty)
    exact Nat.le_antisymm h.available hle
  obtain ⟨hbudget, -, -⟩ := readEnds_none.mp hends
  unfold Piping.endOfSource
  rw [h.budget, hall] at hbudget ⊢
  cases announced with
  | none => exact ⟨rfl, rfl⟩
  | some n =>
    have hpos : n - source.length > 0 := Nat.pos_of_ne_zero fun hzero =>
      hbudget (congrArg some hzero)
    simp only [Option.map_some]
    rw [if_pos hpos, h.name_eq]
    exact ⟨n, rfl, by omega, rfl⟩

/-- A read keeps the flow, or fails for a reason of its own, or finds the source at an early end. -/
theorem Flow.readTurn (hends : p.readEnds = none) (result : ReadResult) :
    Ends (fun e => result = .failed ∨ result = .eio ∨ Shortage name announced source e)
      (fun out => ∃ t', Flow name announced isOutput source t' out.1 ∧
        out.1.pump.sink = p.pump.sink) (p.readTurn result) := by
  have hclose : announced = none → Flow name announced isOutput source t p.closeSource := by
    rintro rfl
    exact h.closeSource (by rintro n ⟨⟩)
  cases result with
  | wouldBlock => exact ⟨t, h, rfl⟩
  | interrupted => exact ⟨t, h, rfl⟩
  | failed => exact .inl rfl
  | eio =>
    unfold Piping.readTurn
    dsimp only
    split
    · next heio => exact ⟨t, hclose (h.eio heio), rfl⟩
    · exact .inr (.inl rfl)
  | upTo extra =>
    have hmax := maximum_pos hends
    unfold Piping.readTurn
    dsimp only
    split
    · next hchunk =>
      have hempty : p.unread = [] := (take_eq_nil_iff.mp hchunk).resolve_left (by omega)
      refine (h.endOfSource hends hempty).imp (fun _ hshort => .inr (.inr hshort)) ?_
      rintro _ ⟨hnone, rfl⟩
      exact ⟨t, hclose hnone, rfl⟩
    · have htaken : (p.unread.take (min (extra + 1) p.pump.maximum)).length ≤ p.pump.maximum :=
        (length_take_le ..).trans (Nat.min_le_right ..)
      obtain ⟨p', more, haccept, hflow, hsink⟩ :=
        h.accept (readEnds_none.mp hends).2.2 (take_append_drop ..).symm htaken
      exact .of_ok haccept ⟨_, hflow, hsink⟩

theorem Flow.readEnds (hends : p.readEnds = some p') :
    Flow name announced isOutput source t p' ∧ p'.pump.sink = p.pump.sink := by
  unfold Piping.readEnds at hends
  split_ifs at hends with hzero
  · cases hends
    rw [h.budget] at hzero
    obtain ⟨n, hn, hleft⟩ := Option.map_eq_some_iff.mp hzero
    have hle := h.within n hn
    obtain rfl : t = n := by omega
    exact ⟨h.closeSource fun m hm => Option.some.inj (hn.symm.trans hm), rfl⟩
  all_goals
    cases hends
    exact ⟨h, rfl⟩

theorem Flow.readLoop (results : List ReadResult) :
    Ends (fun e => .failed ∈ results ∨ .eio ∈ results ∨ Shortage name announced source e)
      (fun p' => ∃ t', Flow name announced isOutput source t' p' ∧ p'.pump.sink = p.pump.sink)
        (p.readLoop results) := by
  induction results generalizing p t with
  | nil =>
    unfold Piping.readLoop
    split
    · next p' hends => exact ⟨t, h.readEnds hends⟩
    · exact ⟨t, h, rfl⟩
  | cons result results ih =>
    unfold Piping.readLoop
    split
    · next p' hends => exact ⟨t, h.readEnds hends⟩
    · next hends =>
      refine ((h.readTurn hends result).imp ?_ fun _ => id).bind ?_
      · rintro e (rfl | rfl | hshort)
        · exact .inl (mem_cons_self ..)
        · exact .inr (.inl (mem_cons_self ..))
        · exact .inr (.inr hshort)
      · rintro ⟨p', more⟩ ⟨t', hflow, hsink⟩
        cases more with
        | false => exact ⟨t', hflow, hsink⟩
        | true =>
          refine (ih hflow).imp (fun e => .imp (mem_cons_of_mem _)
            (Or.imp_left (mem_cons_of_mem _))) ?_
          rintro p₂ ⟨t₂, hflow₂, hsink₂⟩
          exact ⟨t₂, hflow₂, hsink₂.trans hsink⟩

end

/-! ### Closing the sink -/

theorem closeSinkAfterEof_of_closed (pump : StreamPump) (h : pump.sink = false) :
    pump.closeSinkAfterEof = pump := by
  unfold StreamPump.closeSinkAfterEof
  split
  · cases pump
    cases h
    rfl
  · rfl

theorem Flow.closeSink (h : Flow name announced isOutput source t p) :
    Flow name announced isOutput source t { p with pump := p.pump.closeSinkAfterEof } ∧
      (p.pump.sink = true → p.pump.closeSinkAfterEof.sink = false →
        (∀ n ∈ announced, t = n) ∧ p.delivered = source.take t) ∧
      (p.pump.closeSinkAfterEof.sink = false → p.pump.sink = true →
        p.pump.closeSinkAfterEof.buffer.readable = [] ∧
          p.pump.closeSinkAfterEof.source = false) := by
  unfold StreamPump.closeSinkAfterEof
  by_cases hclose : p.pump.source = false ∧ p.pump.buffer.isEmpty = true
  · have hempty := PumpBuffer.isEmpty_iff.mp hclose.2
    rw [if_pos hclose]
    refine ⟨{ h with whole := ?_, ended := ?_ }, fun hsink _ => ⟨h.ended hclose.1 hsink, ?_⟩,
      fun _ _ => ⟨hempty, hclose.1⟩⟩
    · rintro (hout | hsink)
      · exact h.whole (.inl hout)
      · cases hsink
    · intro _ hsink
      cases hsink
    · rw [← h.whole (.inr hsink), hempty, append_nil]
  · rw [if_neg hclose]
    refine ⟨h, fun hopen hclosed => ?_, fun hclosed hopen => ?_⟩
    · rw [hopen] at hclosed
      cases hclosed
    · rw [hopen] at hclosed
      cases hclosed

/-- What an operation leaves, with the reason if it closed the sink. -/
structure Leaves (name : String) (announced : Option Nat) (isOutput : Bool) (source : Bytes)
    (p p' : Piping) (t : Nat) (broke : Prop) : Prop where
  flow : Flow name announced isOutput source t p'
  settled : p'.Settled
  closed : p.pump.sink = true → p'.pump.sink = false →
    ((∀ n ∈ announced, t = n) ∧ p'.delivered = source.take t) ∨ broke

theorem Leaves.imp {broke broke' : Prop} (h : Leaves name announced isOutput source p p' t broke)
    (himp : broke → broke') :
    Leaves name announced isOutput source p p' t broke' :=
  { h with closed := fun hopen hclosed => (h.closed hopen hclosed).imp_right himp }

section
variable (h : Flow name announced isOutput source t p)
include h

theorem Flow.discard (hinput : isOutput = false) (source' : Bool) :
    Flow name announced isOutput source t { p with pump := { p.pump with
      source := source', sink := false, buffer := p.pump.buffer.consume p.pump.buffer.len } } := by
  refine { h with capacity := (p.pump.buffer.consume_eq _).2.trans h.capacity, whole := ?_, ended := ?_ }
  · rintro (hout | hfalse)
    · cases hinput.symm.trans hout
    · cases hfalse
  · intro _ hfalse
    cases hfalse

theorem Flow.afterRead
    (hsettled : isOutput = true → p.Settled) :
    Leaves name announced isOutput source p p.afterRead t False := by
  unfold Piping.afterRead
  by_cases hdiscard : p.pump.isOutput = false ∧ p.pump.sink = false
  · -- the workload has closed its input, and what is left of it is dropped
    rw [if_pos hdiscard]
    have hflow := h.discard (h.direction.symm.trans hdiscard.1) p.pump.source
    rw [← hdiscard.2] at hflow
    dsimp only
    rw [closeSinkAfterEof_of_closed { p.pump with buffer := p.pump.buffer.consume p.pump.buffer.len } hdiscard.2]
    refine ⟨hflow, fun _ => ⟨p.pump.buffer.readable_consume_len, fun hout => ?_⟩,
      fun hsink _ => absurd (hsink.symm.trans hdiscard.2) (by simp)⟩
    exact absurd (hout.symm.trans hdiscard.1) (by simp)
  · rw [if_neg hdiscard]
    obtain ⟨hflow, hclosed, hempty⟩ := h.closeSink
    refine ⟨hflow, fun hsink => ?_, fun hopen hsink => .inl (hclosed hopen hsink)⟩
    cases hopen : p.pump.sink with
    | true =>
      obtain ⟨hreadable, hsource⟩ := hempty hsink hopen
      exact ⟨hreadable, fun _ => hsource⟩
    | false =>
      have hout : isOutput = true := by
        rw [← h.direction]
        simpa [hopen] using hdiscard
      dsimp only
      rw [closeSinkAfterEof_of_closed p.pump hopen]
      exact hsettled hout hopen

theorem Flow.readLoop_settled (hnone : isOutput = true → announced = none)
    (hout : isOutput = true) (hsettled : p.Settled) (hsink : p.pump.sink = false)
    (results : List ReadResult) :
    p.readLoop results = .ok p := by
  have hends : p.readEnds = some p := by
    have hbudget := h.budget
    rw [hnone hout] at hbudget
    have hsource := (hsettled hsink).2 (h.direction.trans hout)
    unfold Piping.readEnds
    rw [if_neg (by rw [hbudget]; simp)]
    split <;> rfl
  unfold Piping.readLoop
  rw [hends]

theorem Flow.readAvailable (hnone : isOutput = true → announced = none)
    (hsettled : p.Settled) (results : List ReadResult) :
    Ends (fun e => .failed ∈ results ∨ .eio ∈ results ∨ Shortage name announced source e)
      (fun p' => ∃ t', Leaves name announced isOutput source p p' t' False)
        (p.readAvailable results) := by
  have hloop := h.readLoop results
  unfold Piping.readAvailable
  cases hread : p.readLoop results with
  | error e =>
    rw [hread] at hloop
    exact hloop
  | ok p' =>
    obtain ⟨t', hflow, hsink⟩ := hloop.ok hread
    have hsettled' : isOutput = true → p'.Settled := by
      intro hout hclosed
      rw [hsink] at hclosed
      rw [h.readLoop_settled hnone hout hsettled hclosed results] at hread
      cases hread
      exact hsettled hclosed
    obtain ⟨hflow', hsettled', hclosed⟩ := hflow.afterRead hsettled'
    exact ⟨t', hflow', hsettled', by rwa [← hsink]⟩

/-! ### Writing -/

theorem Flow.writeTurn (hsink : p.pump.sink = true) (result : WriteResult) :
    Ends (fun _ => result = .failed ∨ result = .zero ∨ result = .brokenPipe ∧ isOutput = true)
      (fun out => Flow name announced isOutput source t out.1 ∧ (out.1.pump.sink = true ∨
        result = .brokenPipe ∧ out.2 = false ∧ out.1.pump.buffer.readable = [] ∧
          isOutput = false)) (p.writeTurn result) := by
  cases result with
  | wouldBlock => exact ⟨h, .inl hsink⟩
  | interrupted => exact ⟨h, .inl hsink⟩
  | failed => exact .inl rfl
  | zero => exact .inr (.inl rfl)
  | brokenPipe =>
    unfold Piping.writeTurn
    dsimp only
    split
    · next hout => exact .inr (.inr ⟨rfl, h.direction.symm.trans hout⟩)
    · next hinput =>
      have hinput := h.direction.symm.trans (Bool.eq_false_iff.mpr hinput)
      exact ⟨h.discard hinput p.pump.source,
        .inr ⟨rfl, rfl, p.pump.buffer.readable_consume_len, hinput⟩⟩
  | upTo extra =>
    refine ⟨{ h with capacity := (p.pump.buffer.consume_eq _).2.trans h.capacity, ordered := ?_, whole := ?_ }, .inl hsink⟩
    · dsimp only
      rw [← h.whole (.inr hsink)]
      exact (prefix_append_right_inj _).mpr (List.take_prefix ..)
    · intro _
      rw [(p.pump.buffer.consume_eq _).1, append_assoc, take_append_drop]
      exact h.whole (.inr hsink)

theorem Flow.writeLoop (hsettled : p.Settled) (results : List WriteResult) :
    Ends (fun _ => .failed ∈ results ∨ .zero ∈ results ∨ .brokenPipe ∈ results ∧ isOutput = true)
      (fun p' => Flow name announced isOutput source t p' ∧ (p' = p ∨ p'.pump.sink = true ∨
        .brokenPipe ∈ results ∧ p'.pump.buffer.readable = [] ∧
          isOutput = false)) (p.writeLoop results) := by
  have hheld : ¬p.pump.buffer.isEmpty = true → ¬p.pump.sink = false := fun hempty hsink =>
    hempty (PumpBuffer.isEmpty_iff.mpr (hsettled hsink).1)
  induction results generalizing p with
  | nil =>
    unfold Piping.writeLoop
    split_ifs with hempty hsink
    · exact ⟨h, .inl rfl⟩
    · exact absurd hsink (hheld hempty)
    · exact ⟨h, .inl rfl⟩
  | cons result results ih =>
    unfold Piping.writeLoop
    split_ifs with hempty hsink
    · exact ⟨h, .inl rfl⟩
    · exact absurd hsink (hheld hempty)
    · refine ((h.writeTurn (by simpa using hsink) result).imp ?_ fun _ => id).bind ?_
      · rintro e (rfl | rfl | ⟨rfl, hout⟩)
        · exact .inl (mem_cons_self ..)
        · exact .inr (.inl (mem_cons_self ..))
        · exact .inr (.inr ⟨mem_cons_self .., hout⟩)
      · rintro ⟨p', more⟩ ⟨hflow, hopen | ⟨rfl, hfalse, hreadable⟩⟩
        · cases more with
          | false => exact ⟨hflow, .inr (.inl hopen)⟩
          | true =>
            have hopen' : ¬p'.pump.sink = false := by simp [show p'.pump.sink = true from hopen]
            refine (ih hflow (fun hclosed => absurd hclosed hopen') fun _ => hopen').imp ?_ ?_
            · exact fun e => .imp (mem_cons_of_mem _)
                (.imp (mem_cons_of_mem _) (And.imp_left (mem_cons_of_mem _)))
            · rintro p₂ ⟨hflow₂, rfl | hsink₂ | hbroke⟩
              · exact ⟨hflow₂, .inr (.inl hopen)⟩
              · exact ⟨hflow₂, .inr (.inl hsink₂)⟩
              · exact ⟨hflow₂, .inr (.inr (hbroke.imp_left (mem_cons_of_mem _)))⟩
        · obtain rfl : more = false := hfalse
          exact ⟨hflow, .inr (.inr ⟨mem_cons_self .., hreadable⟩)⟩

theorem Flow.writeAvailable (hsettled : p.Settled) (results : List WriteResult) :
    Ends (fun _ => .failed ∈ results ∨ .zero ∈ results ∨ .brokenPipe ∈ results ∧ isOutput = true)
      (fun p' => Leaves name announced isOutput source p p' t (.brokenPipe ∈ results))
        (p.writeAvailable results) := by
  refine (h.writeLoop hsettled results).bind ?_
  rintro p' ⟨hflow, hcases⟩
  obtain ⟨hflow', hclosed, hempty⟩ := hflow.closeSink
  refine ⟨hflow', fun hsink => ?_, fun hopen hsink => ?_⟩
  · cases hopen : p'.pump.sink with
    | true =>
      obtain ⟨hreadable, hsource⟩ := hempty hsink hopen
      exact ⟨hreadable, fun _ => hsource⟩
    | false =>
      rw [closeSinkAfterEof_of_closed p'.pump hopen]
      rcases hcases with rfl | hsink | ⟨-, hreadable, hinput⟩
      · exact hsettled hopen
      · cases hopen.symm.trans hsink
      · refine ⟨hreadable, fun hout => ?_⟩
        rw [hflow.direction, hinput] at hout
        cases hout
  · rcases hcases with rfl | hsink' | ⟨hbroke, -⟩
    · exact .inl (hclosed hopen hsink)
    · exact .inl (hclosed hsink' hsink)
    · exact .inr hbroke

/-! ### Every run -/

theorem Flow.closeInput (hsettled : p.Settled) :
    Leaves name announced isOutput source p { p with pump := p.pump.closeInput } t
      (isOutput = false) := by
  unfold StreamPump.closeInput
  split
  · exact ⟨h, hsettled, fun hopen hclosed => by cases hopen.symm.trans hclosed⟩
  · next hinput =>
    have hinput := h.direction.symm.trans (Bool.eq_false_iff.mpr hinput)
    exact ⟨h.discard hinput false, fun _ => ⟨p.pump.buffer.readable_consume_len, fun _ => rfl⟩,
      fun _ _ => .inr hinput⟩

end

/-- What may close a sink before everything is written: the workload's end of a pipe, or the event
loop. -/
def CutsOff (s : PumpStep) : Prop := s = .closesInput ∨ ∃ results,
    s = .writes results ∧ .brokenPipe ∈ results

section
variable (h : Flow name announced isOutput source t p) (hnone : isOutput = true → announced = none)
include h hnone

theorem Flow.step
    (hsettled : p.Settled) {s : PumpStep} (hstep : p.step s = .ok p') :
    ∃ t', Leaves name announced isOutput source p p' t' (CutsOff s) := by
  cases s with
  | reads results =>
    obtain ⟨t', hleaves⟩ := (h.readAvailable hnone hsettled results).ok hstep
    exact ⟨t', hleaves.imp False.elim⟩
  | writes results =>
    exact ⟨t, ((h.writeAvailable hsettled results).ok hstep).imp fun hbroke =>
      .inr ⟨results, rfl, hbroke⟩⟩
  | closesInput =>
    cases hstep
    exact ⟨t, (h.closeInput hsettled).imp fun _ => .inl rfl⟩

theorem Flow.run
    (hsettled : p.Settled) {steps : List PumpStep} (hrun : p.run steps = .ok p') :
    ∃ t', Flow name announced isOutput source t' p' ∧ p'.Settled := by
  refine foldlM_ok (fun _ q => ∃ t', Flow name announced isOutput source t' q ∧ q.Settled) hrun ⟨t,
    h, hsettled⟩ ?_
  rintro - s q q' ⟨t', hflow, hsettled⟩ hstep
  obtain ⟨t₂, hleaves⟩ := hflow.step hnone hsettled hstep
  exact ⟨t₂, hleaves.flow, hleaves.settled⟩

end

theorem flow_input (name : String) (announced : Nat) (source : Bytes) :
    Flow name (some announced) false source 0 (input name announced source) ∧
      (input name announced source).Settled := by
  have hopen : Flow name (some announced) false source 0
      ⟨{ StreamPump.new name false false with remainingInput := some announced }, source, []⟩ :=
    ⟨rfl, rfl, fun hfalse => (by cases hfalse), rfl, rfl, Nat.zero_le _, fun _ _ => Nat.zero_le _,
      rfl, nil_prefix, fun _ => rfl, fun hfalse => by cases hfalse⟩
  unfold input StreamPump.withInputLimit
  split
  · refine ⟨{ hopen with whole := ?_, ended := ?_ }, fun _ => ⟨rfl, fun hfalse => by cases hfalse⟩⟩
    · rintro (hfalse | hfalse) <;> cases hfalse
    · intro _ hfalse
      cases hfalse
  · exact ⟨hopen, fun hfalse => by cases hfalse⟩

theorem flow_output (name : String) (eioIsEof : Bool) (source : Bytes) :
    Flow name none true source 0 (output name eioIsEof source) ∧
      (output name eioIsEof source).Settled :=
  ⟨⟨rfl, rfl, fun _ => rfl, rfl, rfl, Nat.zero_le _, fun _ _ => Nat.zero_le _, rfl,
    nil_prefix, fun _ => rfl, fun hfalse => by cases hfalse⟩, fun hfalse => by cases hfalse⟩

theorem Flow.buffer_bounded (h : Flow name announced isOutput source t p) :
    p.pump.buffer.len ≤ MAX_PUMP_BUFFER ∧ p.pump.buffer.bytes.length ≤ MAX_PUMP_BUFFER :=
  ⟨h.capacity ▸ p.pump.buffer.len_le_capacity, h.capacity ▸ p.pump.buffer.within⟩

theorem writeTurn_delivered {result : WriteResult} {more : Bool}
    (h : p.writeTurn result = .ok (p', more)) :
    p.delivered <+: p'.delivered ∧
      ∀ extra, result = .upTo extra → p'.delivered = p.delivered ++ p.pump.buffer.readable.take
        (extra + 1) := by
  cases result with
  | upTo extra =>
    cases h
    refine ⟨prefix_append .., ?_⟩
    rintro _ ⟨⟩
    rw [← PumpBuffer.length_readable, ← take_eq_take_min]
  | brokenPipe =>
    unfold writeTurn at h
    dsimp only at h
    split at h
    · cases h
    · cases h
      exact ⟨prefix_rfl, nofun⟩
  | wouldBlock | interrupted =>
    cases h
    exact ⟨prefix_rfl, nofun⟩
  | zero | failed => cases h

/-- A write that the sink takes moves the bytes that are next, and nothing is taken back. -/
theorem writeLoop_delivered {results : List WriteResult} (h : p.writeLoop results = .ok p') :
    p.delivered <+: p'.delivered ∧ ∀ extra rest, results = .upTo extra :: rest →
      p.delivered ++ p.pump.buffer.readable.take (extra + 1) <+: p'.delivered := by
  induction results generalizing p with
  | nil =>
    unfold writeLoop at h
    split_ifs at h <;> cases h <;> exact ⟨prefix_rfl, nofun⟩
  | cons result results ih =>
    unfold writeLoop at h
    split_ifs at h with hempty
    · cases h
      exact ⟨prefix_rfl, fun _ _ _ => by simp [PumpBuffer.isEmpty_iff.mp hempty]⟩
    · obtain ⟨⟨q, more⟩, hturn, h⟩ := bind_ok.mp h
      obtain ⟨hkept, htaken⟩ := writeTurn_delivered hturn
      have hlater : q.delivered <+: p'.delivered := by
        cases more with
        | false =>
          cases h
          exact prefix_rfl
        | true => exact (ih h).1
      refine ⟨hkept.trans hlater, ?_⟩
      rintro extra _ ⟨⟩
      exact htaken extra rfl ▸ hlater

theorem step_delivers {extra : Nat} {results : List WriteResult}
    (h : p.step (.writes (.upTo extra :: results)) = .ok p') :
    p.delivered ++ p.pump.buffer.readable.take (extra + 1) <+: p'.delivered := by
  obtain ⟨q, hloop, ⟨⟩⟩ := bind_ok.mp h
  exact (writeLoop_delivered hloop).2 extra results rfl

/-- An input pump that wants to read and finds the source at its end reports what is missing. -/
theorem Flow.reports_shortage {n : Nat} (h : Flow name (some n) isOutput source t p)
    (hempty : p.unread = [])
    (hwants : p.pump.wantsRead = true) (extra : Nat) (results : List ReadResult) :
    p.step (.reads (.upTo extra :: results)) = .error (shortage name (n - source.length)) := by
  have hends : p.readEnds = none := by
    simp only [StreamPump.wantsRead, Bool.and_eq_true, decide_eq_true_eq] at hwants
    exact readEnds_none.mpr ⟨hwants.2, Nat.ne_of_gt hwants.1.2, hwants.1.1⟩
  have hturn : p.readTurn (.upTo extra) = p.endOfSource := by
    unfold Piping.readTurn
    dsimp only
    rw [hempty, take_nil, if_pos rfl]
  cases hend : p.endOfSource with
  | ok out => cases ((h.endOfSource hends hempty).ok hend).1
  | error e =>
    obtain ⟨m, hm, -, rfl⟩ := (h.endOfSource hends hempty).error hend
    obtain rfl := Option.some.inj (Option.mem_def.mp hm)
    show p.readAvailable _ = _
    unfold Piping.readAvailable Piping.readLoop
    rw [hends]
    dsimp only
    rw [hturn, hend]
    rfl

/-- What a pump of the workload's input has done after any operations on it. -/
structure InputDelivered (name : String) (announced : Nat) (source : Bytes)
    (p : Piping) : Prop where
  inOrder : ∃ t, t ≤ announced ∧ t ≤ source.length ∧ p.unread = source.drop t ∧
    p.delivered <+: source.take t
  bounded : p.pump.buffer.len ≤ MAX_PUMP_BUFFER ∧ p.pump.buffer.bytes.length ≤ MAX_PUMP_BUFFER
  closes : ∀ s p', p.step s = .ok p' → p.pump.sink = true → p'.pump.sink = false →
    p'.delivered = source.take announced ∧ announced ≤ source.length ∨ CutsOff s
  readError : ∀ results e, p.step (.reads results) = .error e → .failed ∉ results → .eio ∉ results →
    source.length < announced ∧ e = shortage name (announced - source.length)
  writeError : ∀ results e, p.step (.writes results) = .error e →
    .failed ∈ results ∨ .zero ∈ results
  delivers : ∀ extra results p', p.step (.writes (.upTo extra :: results)) = .ok p' →
    p.delivered ++ p.pump.buffer.readable.take (extra + 1) <+: p'.delivered
  shortSource : p.unread = [] → p.pump.wantsRead = true → ∀ extra results,
    p.step (.reads (.upTo extra :: results)) = .error (shortage name (announced - source.length))

/-- What holds of an output pump in every state of a run. -/
structure OutputDelivered (source : Bytes) (p : Piping) : Prop where
  inOrder : ∃ t, t ≤ source.length ∧ p.unread = source.drop t ∧
    p.delivered ++ p.pump.buffer.readable = source.take t ∧
      (p.pump.outputDrained = true → p.delivered = source.take t)
  bounded : p.pump.buffer.len ≤ MAX_PUMP_BUFFER ∧ p.pump.buffer.bytes.length ≤ MAX_PUMP_BUFFER
  waits : p.pump.buffer.readable ≠ [] → p.pump.wantsWrite = true
  delivers : ∀ extra results p', p.step (.writes (.upTo extra :: results)) = .ok p' →
    p.delivered ++ p.pump.buffer.readable.take (extra + 1) <+: p'.delivered
  writeError : ∀ results e, p.step (.writes results) = .error e →
    .failed ∈ results ∨ .zero ∈ results ∨ .brokenPipe ∈ results

/-- Whatever the descriptors answer, a pump delivers in order what it reads, an input pump no more
than was announced, and it ends its stream only when all of it has been written. -/
theorem pumps_deliver_in_order :
    (∀ name announced source steps p, (input name announced source).run steps = .ok p →
      InputDelivered name announced source p) ∧
    ∀ name eioIsEof source steps p, (output name eioIsEof source).run steps = .ok p →
      OutputDelivered source p := by
  constructor
  · intro name announced source steps p hrun
    obtain ⟨hstart, hsettled⟩ := flow_input name announced source
    obtain ⟨t, hflow, hsettled⟩ := hstart.run (by simp) hsettled hrun
    refine ⟨⟨t, hflow.within _ rfl, hflow.available, hflow.unread, hflow.ordered⟩,
      hflow.buffer_bounded, ?_, ?_, ?_, fun _ _ _ => step_delivers,
      fun hempty hwants extra results => hflow.reports_shortage hempty hwants extra results⟩
    · intro s p' hstep hopen hclosed
      obtain ⟨t', hleaves⟩ := hflow.step (by simp) hsettled hstep
      rcases hleaves.closed hopen hclosed with ⟨hall, hdelivered⟩ | hcut
      · obtain rfl := hall announced rfl
        exact .inl ⟨hdelivered, hleaves.flow.available⟩
      · exact .inr hcut
    · intro results e herror hfailed heio
      rcases (hflow.readAvailable (by simp) hsettled results).error herror with hfalse | hfalse |
        ⟨n, hn, hshort, he⟩
      · exact absurd hfalse hfailed
      · exact absurd hfalse heio
      · obtain rfl := Option.some.inj (Option.mem_def.mp hn)
        exact ⟨hshort, he⟩
    · intro results e herror
      rcases (hflow.writeAvailable hsettled results).error herror with hfailed | hzero | ⟨-, hfalse⟩
      · exact .inl hfailed
      · exact .inr hzero
      · cases hfalse
  · intro name eioIsEof source steps p hrun
    obtain ⟨hstart, hsettled⟩ := flow_output name eioIsEof source
    obtain ⟨t, hflow, hsettled⟩ := hstart.run (fun _ => rfl) hsettled hrun
    have hwhole := hflow.whole (.inl rfl)
    refine ⟨⟨t, hflow.available, hflow.unread, hwhole, fun hdrained => ?_⟩, hflow.buffer_bounded,
      fun hheld => ?_, fun _ _ _ => step_delivers, fun results e herror => ?_⟩
    · have hempty : p.pump.buffer.readable = [] := by
        simp only [StreamPump.outputDrained, hflow.direction, Bool.not_true, Bool.false_or,
          Bool.and_eq_true] at hdrained
        exact PumpBuffer.isEmpty_iff.mp hdrained.2
      rwa [hempty, append_nil] at hwhole
    · have hsink : p.pump.sink = true := by
        by_contra hclosed
        exact hheld (hsettled (Bool.eq_false_of_not_eq_true hclosed)).1
      have hsome := mt PumpBuffer.isEmpty_iff.mp hheld
      simp [StreamPump.wantsWrite, hsink, hsome]
    · rcases (hflow.writeAvailable hsettled results).error herror with hfailed | hzero | ⟨hbroke, -⟩
      · exact .inl hfailed
      · exact .inr (.inl hzero)
      · exact .inr (.inr hbroke)

namespace Sample

def stdin : Piping := input "stdin" 3 [104, 105, 10, 33]

def schedule : List PumpStep :=
  [.reads [.interrupted, .upTo 1, .wouldBlock], .writes [.upTo 0, .wouldBlock], .reads [.upTo 9],
    .writes [.interrupted, .upTo 9]]

def fed : Piping :=
  { pump := { (StreamPump.new "stdin" false false).withInputLimit 3 with source := false, sink := false, remainingInput := some 0 },
    unread := [33],
    delivered := [104, 105, 10] }

def stdout : Piping := output "stdout" false [1, 2, 3, 4]

def outSchedule : List PumpStep := [.reads [.upTo 2, .wouldBlock], .writes [.upTo 0, .wouldBlock],
    .reads [.interrupted, .upTo 5]]

/-- Four bytes read, and one written. -/
def half : Piping :=
  { pump := { StreamPump.new "stdout" true false with buffer := ⟨[1, 2, 3, 4], 1, MAX_PUMP_BUFFER, by decide, by decide⟩ },
    unread := [],
    delivered := [1] }

end Sample

theorem streams_delivered : Sample.stdin.run Sample.schedule = .ok Sample.fed ∧
    InputDelivered "stdin" 3 [104, 105, 10, 33] Sample.fed ∧
      Sample.stdout.run Sample.outSchedule = .ok Sample.half ∧
    OutputDelivered [1, 2, 3, 4] Sample.half :=
  ⟨by decide +kernel, pumps_deliver_in_order.1 "stdin" 3 [104, 105, 10, 33] Sample.schedule Sample.fed (by decide +kernel),
    by decide +kernel, pumps_deliver_in_order.2 "stdout" false [1, 2, 3, 4] Sample.outSchedule Sample.half (by decide +kernel)⟩

end Piping

end PocketVm.Guest
