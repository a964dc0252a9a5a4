import Mathlib.Tactic.Common

/-!
# What a computation that succeeded went through

A sequence of checks in `Except` succeeds when each of its parts does, in turn. Read from left to
right, these equivalences take a successful run of such a sequence apart.
-/

namespace Checked

variable {ε ε' α β : Type}

/-- A check for its own sake: it goes on only where what it looks for is absent. -/
def stop (c : Prop) [Decidable c] (e : ε) : Except ε Unit := if c then .error e else .ok ()

variable {e : ε} {first result : Except ε α} {a : α} {xs : List α}

variable {c : Prop} {u : Unit} {next : α → Except ε β} {b : β} {f : ε → ε'}

@[simp] theorem stop_ok [Decidable c] : stop c e = .ok u ↔ ¬c := by
  unfold stop
  by_cases h : c
  · simp [h]
  · simp [h]

theorem stop_error [Decidable c] {e' : ε} : stop c e = .error e' ↔ c ∧ e = e' := by
  unfold stop
  by_cases h : c
  · simp [h]
  · simp [h]

@[simp] theorem bind_ok : first >>= next = .ok b ↔ ∃ a, first = .ok a ∧ next a = .ok b := by
  cases first with
  | error e => simp [bind, Except.bind]
  | ok a => simp [bind, Except.bind]

@[simp] theorem pure_ok {b : α} : (pure a : Except ε α) = .ok b ↔
    a = b := ⟨Except.ok.inj, congrArg _⟩

@[simp] theorem mapError_ok : result.mapError f = .ok a ↔ result = .ok a := by
  cases result with
  | error e => simp [Except.mapError]
  | ok a => simp [Except.mapError]

theorem mapError_error {e : ε'} :
    result.mapError f = .error e ↔ ∃ cause, result = .error cause ∧ f cause = e := by
  cases result with
  | error e => simp [Except.mapError]
  | ok a => simp [Except.mapError]

@[simp] theorem map_ok {f : α → β} : f <$> result = .ok b ↔ ∃ a, result = .ok a ∧ f a = b := by
  cases result with
  | error e => simp [Functor.map, Except.map]
  | ok a => simp [Functor.map, Except.map]

theorem forM_ok {f : α → Except ε Unit} (h : xs.forM f = .ok u) : ∀ x ∈ xs, f x = .ok () := by
  induction xs with
  | nil => exact fun x hx => absurd hx List.not_mem_nil
  | cons x xs ih =>
    change (f x >>= fun _ => xs.forM f) = .ok u at h
    rw [bind_ok] at h
    obtain ⟨_, hx, hxs⟩ := h
    intro y hy
    rcases List.mem_cons.mp hy with rfl | hy
    · exact hx
    · exact ih hxs y hy

/-- A loop that went through keeps what each of its turns adds to. -/
theorem foldlM_ok {f : β → α → Except ε β} {start finish : β} (P : List α → β → Prop)
    (h : xs.foldlM f start = .ok finish) (hstart : P [] start)
    (hstep : ∀ done x s s', P done s → f s x = .ok s' → P (done ++ [x]) s') : P xs finish := by
  suffices ∀ done s, P done s → xs.foldlM f s = .ok finish →
    P (done ++ xs) finish from this [] start hstart h
  clear h hstart
  induction xs with
  | nil =>
    intro done s hs h
    rw [List.foldlM_nil, pure_ok] at h
    rwa [List.append_nil, ← h]
  | cons x xs ih =>
    intro done s hs h
    rw [List.foldlM_cons, bind_ok] at h
    obtain ⟨s', hx, hrest⟩ := h
    have hxs := ih (done ++ [x]) s' (hstep done x s s' hs hx) hrest
    rwa [List.append_assoc, List.singleton_append] at hxs

/-- `ok_or`: the value, or the failure that stands for its absence. -/
def require : Option α → ε → Except ε α
  | some a, _ => .ok a
  | none, e => .error e

@[simp] theorem require_ok {o : Option α} : require o e = .ok a ↔ o = some a := by
  cases o with
  | none => simp [require]
  | some b => simp [require]

theorem require_error {o : Option α} {e' : ε} :
    require o e = .error e' ↔ o = none ∧ e = e' := by
  cases o with
  | none => simp [require]
  | some b => simp [require]

def Ends (E : ε → Prop) (P : α → Prop) : Except ε α → Prop
  | .ok a => P a
  | .error e => E e

namespace Ends

variable {E E' : ε → Prop} {P P' : α → Prop} {Q : β → Prop} {result : Except ε α}

theorem ok {a : α} (h : Ends E P result) (hresult : result = .ok a) : P a := by
  subst hresult
  exact h

theorem error {e : ε} (h : Ends E P result) (hresult : result = .error e) : E e := by
  subst hresult
  exact h

theorem of_ok {a : α} (hresult : result = .ok a) (h : P a) : Ends E P result := by
  subst hresult
  exact h

theorem imp (h : Ends E P result) (herror : ∀ e, E e → E' e) (hok : ∀ a, P a → P' a) :
    Ends E' P' result := by
  cases result with
  | error e => exact herror e h
  | ok a => exact hok a h

theorem mono (h : Ends E P result) (hok : ∀ a, P a → P' a) :
    Ends E P' result := h.imp (fun _ => id) hok

theorem any (herror : ∀ e, E e) (hok : ∀ a, P a) : Ends E P result := by
  cases result with
  | error e => exact herror e
  | ok a => exact hok a

theorem bind {next : α → Except ε β} (h : Ends E P result) (hnext : ∀ a, P a → Ends E Q (next a)) :
    Ends E Q (result >>= next) := by
  cases result with
  | error e => exact h
  | ok a => exact hnext a h

theorem stop {c : Prop} [Decidable c] {e : ε} {next : Unit → Except ε β} (herror : c → E e)
    (hnext : ¬c → Ends E Q (next ())) : Ends E Q (stop c e >>= next) := by
  unfold Checked.stop
  split
  · next hc => exact herror hc
  · next hc => exact hnext hc

theorem mapError {E : ε' → Prop} {f : ε → ε'} (h : Ends (fun e => E (f e)) P result) :
    Ends E P (result.mapError f) := by
  cases result with
  | error e => exact h
  | ok a => exact h

/-- A loop, by what each of its turns keeps of the state and of what is still to come. -/
theorem foldlM {f : β → α → Except ε β} (I : List α → β → Prop)
    (hstep : ∀ x xs b, I (x :: xs) b → Ends E (I xs) (f b x)) {xs : List α} {b : β} (h : I xs b) :
    Ends E (I []) (xs.foldlM f b) := by
  induction xs generalizing b with
  | nil => exact h
  | cons x xs ih =>
    exact (hstep x xs b h).bind fun _ => ih

end Ends

theorem toOption_bind : (first >>= next).toOption = first.toOption.bind fun a =>
    (next a).toOption := by
  cases first with
  | error e => rfl
  | ok a => rfl

theorem toOption_pure : (pure a : Except ε α).toOption = some a := rfl

theorem toOption_stop [Decidable c] : (stop c e).toOption = if c then none else some () := by
  unfold stop
  split
  · rfl
  · rfl

theorem toOption_mapError : (result.mapError f).toOption = result.toOption := by
  cases result with
  | error e => rfl
  | ok a => rfl

theorem toOption_congr {second : Except ε' α} (h : ∀ a, first = .ok a ↔ second = .ok a) :
    first.toOption = second.toOption := by
  cases first with
  | error e =>
    cases second with
    | error e' => rfl
    | ok a => cases (h a).mpr rfl
  | ok a =>
    rw [(h a).mp rfl]
    rfl

theorem toOption_mapM {f : α → Except ε β} {g : α → Except ε' β}
    (h : ∀ x, (f x).toOption = (g x).toOption) :
    (xs.mapM f).toOption = (xs.mapM g).toOption := by
  induction xs with
  | nil => rfl
  | cons x xs ih => simp only [List.mapM_cons, toOption_bind, toOption_pure, h, ih]

/-! ### Checks that also change a state

A failure keeps the changes made before it: whoever wants none of them has to work on a copy. -/

variable {σ : Type}

abbrev Mutating (ε σ α : Type) := ExceptT ε (StateM σ) α

namespace Mutating

def check (result : Except ε α) : Mutating ε σ α := ExceptT.mk (pure result)

variable {s s' : σ}

variable {first : Mutating ε σ α} {f : σ → σ}

theorem run_bind_ok {next : α → Mutating ε σ β} {b : β} : (first >>= next).run.run s = (.ok b, s') ↔
      ∃ a t, first.run.run s = (.ok a, t) ∧ (next a).run.run t = (.ok b, s') := by
  have hrun : (first >>= next).run.run s =
      (ExceptT.bindCont next (first.run.run s).1 : StateM σ (Except ε β)).run
        (first.run.run s).2 := rfl
  rw [hrun]
  cases h : first.run.run s with
  | mk result t =>
    cases result with
    | error e =>
      constructor
      · rintro ⟨⟩
      · rintro ⟨_, _, ⟨⟩, -⟩
    | ok a =>
      constructor
      · intro hnext
        exact ⟨a, t, rfl, hnext⟩
      · rintro ⟨_, _, ⟨⟩, hnext⟩
        exact hnext

variable {next : α → Mutating ε σ β} {b : β}

theorem run_bind_of_ok {a : α} (h : first.run.run s = (.ok a, s')) :
    (first >>= next).run.run s = (next a).run.run s' := by
  have hrun : (first >>= next).run.run s =
      (ExceptT.bindCont next (first.run.run s).1 : StateM σ (Except ε β)).run
        (first.run.run s).2 := rfl
  rw [hrun, h]
  rfl

theorem run_bind_of_error {e : ε} (h : first.run.run s = (.error e, s')) :
    (first >>= next).run.run s = (.error e, s') := by
  have hrun : (first >>= next).run.run s =
      (ExceptT.bindCont next (first.run.run s).1 : StateM σ (Except ε β)).run
        (first.run.run s).2 := rfl
  rw [hrun, h]
  rfl

theorem run_bind_cases {result : Except ε β} (h : (first >>= next).run.run s = (result, s')) :
    (∃ e, first.run.run s = (.error e, s') ∧ result = .error e) ∨
      ∃ a t, first.run.run s = (.ok a, t) ∧ (next a).run.run t = (result, s') := by
  cases hfirst : first.run.run s with
  | mk ended t =>
    cases ended with
    | error e =>
      cases (run_bind_of_error hfirst).symm.trans h
      exact .inl ⟨e, rfl, rfl⟩
    | ok a => exact .inr ⟨a, t, rfl, (run_bind_of_ok hfirst).symm.trans h⟩

theorem run_check {result : Except ε α} :
    (check result : Mutating ε σ α).run.run s = (result, s) := rfl

theorem run_get : (get : Mutating ε σ σ).run.run s = (.ok s, s) := rfl

theorem run_check_bind {result : Except ε α} : (check result >>= next).run.run s = (.ok b, s') ↔
    ∃ a, result = .ok a ∧ (next a).run.run s = (.ok b, s') := by
  rw [run_bind_ok]
  constructor
  · rintro ⟨a, t, ⟨⟩, h⟩
    exact ⟨a, rfl, h⟩
  · rintro ⟨a, rfl, h⟩
    exact ⟨a, s, rfl, h⟩

theorem run_check_cases {checked : Except ε α} {result : Except ε β}
    (h : (check checked >>= next).run.run s = (result, s')) :
    (∃ e, checked = .error e ∧ result = .error e ∧ s' = s) ∨
      ∃ a, checked = .ok a ∧ (next a).run.run s = (result, s') := by
  rcases run_bind_cases h with ⟨e, hfirst, rfl⟩ | ⟨a, t, hfirst, h⟩
  · cases hfirst
    exact .inl ⟨e, rfl, rfl, rfl⟩
  · cases hfirst
    exact .inr ⟨a, rfl, h⟩

theorem run_get_bind {next : σ → Mutating ε σ β} : (get >>= next).run.run s = (.ok b, s') ↔
    (next s).run.run s = (.ok b, s') := by
  rw [run_bind_ok]
  constructor
  · rintro ⟨a, t, ⟨⟩, h⟩
    exact h
  · intro h
    exact ⟨s, s, rfl, h⟩

theorem run_modify_bind {next : PUnit → Mutating ε σ β} :
    (modify f >>= next).run.run s = (.ok b, s') ↔ (next ⟨⟩).run.run (f s) = (.ok b, s') := by
  rw [run_bind_ok]
  constructor
  · rintro ⟨a, t, ⟨⟩, h⟩
    exact h
  · intro h
    exact ⟨⟨⟩, f s, rfl, h⟩

theorem run_check_error {e : ε} {a : α} :
    (check (.error e) : Mutating ε σ α).run.run s ≠ (.ok a, s') := nofun

theorem run_modify_eq : (modify f : Mutating ε σ PUnit).run.run s = (.ok ⟨⟩, f s) := rfl

theorem run_modify {u : PUnit} : (modify f : Mutating ε σ PUnit).run.run s = (.ok u, s') ↔
    s' = f s := by
  constructor
  · rintro ⟨⟩
    rfl
  · rintro rfl
    rfl

/-! #### What holds whatever the outcome -/

def Maintains (I : σ → Prop) (m : Mutating ε σ α) : Prop := ∀ s, I s → I (m.run.run s).2

namespace Maintains

variable {I : σ → Prop} {m : Mutating ε σ α}

theorem bind (h : Maintains I m) (hnext : ∀ a, Maintains I (next a)) :
    Maintains I (m >>= next) := by
  intro s hs
  have hm := h s hs
  cases hrun : m.run.run s with
  | mk result t =>
    rw [hrun] at hm
    cases result with
    | error e =>
      rw [run_bind_of_error hrun]
      exact hm
    | ok a =>
      rw [run_bind_of_ok hrun]
      exact hnext a t hm

theorem check (result : Except ε α) : Maintains I (check result : Mutating ε σ α) := fun _ hs => hs

theorem pure (a : α) : Maintains I (pure a : Mutating ε σ α) := fun _ hs => hs

theorem get : Maintains I (get : Mutating ε σ σ) := fun _ hs => hs

theorem modify {f : σ → σ} (h : ∀ s, I s → I (f s)) :
    Maintains I (modify f : Mutating ε σ PUnit) := h

end Maintains

end Mutating

end Checked

/-! ### Two computations in step

The first one may be late: where the second has failed, it may still go on, in states from which it
can only fail. -/

namespace Checked

variable {ε ε' α α' β β' : Type} {P : α → α' → Prop} {Q : β → β' → Prop}

/-- Both succeed, with related values, or both fail. -/
inductive Related (P : α → α' → Prop) : Except ε α → Except ε' α' → Prop
  | ok {a : α} {a' : α'} (h : P a a') : Related P (.ok a) (.ok a')
  | failed {e : ε} {e' : ε'} : Related P (.error e) (.error e')

namespace Related

variable {first : Except ε α} {first' : Except ε' α'}

theorem bind {next : α → Except ε β} {next' : α' → Except ε' β'} (h : Related P first first')
    (hnext : ∀ a a', P a a' → Related Q (next a) (next' a')) :
    Related Q (first >>= next) (first' >>= next') := by
  cases h with
  | ok h => exact hnext _ _ h
  | failed => exact .failed

theorem mapError {γ γ' : Type} {f : ε → γ} {f' : ε' → γ'} (h : Related P first first') :
    Related P (first.mapError f) (first'.mapError f') := by
  cases h with
  | ok h => exact .ok h
  | failed => exact .failed

theorem refl (first : Except ε α) : Related Eq first first := by
  cases first with
  | error e => exact .failed
  | ok a => exact .ok rfl

theorem stop {c c' : Prop} [Decidable c] [Decidable c'] {e : ε} {e' : ε'} (h : c ↔ c') :
    Related Eq (stop c e) (stop c' e') := by
  unfold Checked.stop
  by_cases hc : c
  · rw [if_pos hc, if_pos (h.mp hc)]
    exact .failed
  · rw [if_neg hc, if_neg (mt h.mpr hc)]
    exact .ok rfl

theorem require {o : Option α} {e : ε} {e' : ε'} : Related Eq (require o e) (require o e') := by
  cases o with
  | none => exact .failed
  | some a => exact .ok rfl

theorem of_ok (h : ∀ a, first = .ok a → ∃ a', first' = .ok a' ∧ P a a')
    (h' : ∀ a', first' = .ok a' → ∃ a, first = .ok a) :
    Related P first first' := by
  cases hf : first with
  | ok a =>
    obtain ⟨a', rfl, hP⟩ := h a hf
    exact .ok hP
  | error e =>
    cases hf' : first' with
    | ok a' =>
      obtain ⟨a, ha⟩ := h' a' hf'
      cases hf.symm.trans ha
    | error e' => exact .failed

end Related

namespace Mutating

variable {σ τ : Type} {D : σ → Prop} {R : σ → τ → Prop} {s : σ} {t : τ}

def Keeps (D : σ → Prop) (m : Mutating ε σ α) : Prop := ∀ s a s', D s →
    m.run.run s = (.ok a, s') → D s'

theorem Keeps.bind {m : Mutating ε σ α} {k : α → Mutating ε σ β} (hm : Keeps D m)
    (hk : ∀ a, Keeps D (k a)) :
    Keeps D (m >>= k) := by
  intro s b s' hs h
  obtain ⟨a, u, hrun, hnext⟩ := run_bind_ok.mp h
  exact hk a u b s' (hm s a u hs hrun) hnext

theorem Keeps.pure {a : α} : Keeps D (Pure.pure a : Mutating ε σ α) := by
  rintro s _ _ hs ⟨⟩
  exact hs

theorem Keeps.get : Keeps D (get : Mutating ε σ σ) := by
  rintro s _ _ hs ⟨⟩
  exact hs

theorem Keeps.check {result : Except ε α} : Keeps D (check result : Mutating ε σ α) := by
  rintro s a s' hs h
  cases h
  exact hs

theorem Keeps.modify {f : σ → σ} (hf : ∀ u, D u → D (f u)) :
    Keeps D (modify f : Mutating ε σ PUnit) := by
  rintro s a s' hs h
  rw [run_modify.mp h]
  exact hf s hs

theorem Keeps.forM {xs : List α} {f : α → Mutating ε σ PUnit} (hf : ∀ x, Keeps D (f x)) :
    Keeps D (xs.forM f) := by
  induction xs with
  | nil => exact .pure
  | cons x xs ih => exact (hf x).bind fun _ => ih

inductive Agree (D : σ → Prop) (R : σ → τ → Prop) : Except ε α × σ → Except ε' α × τ → Prop
  | ok {a : α} {s : σ} {t : τ} (h : R s t) : Agree D R (.ok a, s) (.ok a, t)
  | failed {e : ε} {e' : ε'} {s : σ} {t : τ} : Agree D R (.error e, s) (.error e', t)
  | late {a : α} {e' : ε'} {s : σ} {t : τ} (h : D s) : Agree D R (.ok a, s) (.error e', t)

theorem Agree.of_late {a : α} {ran : Except ε' α × τ} (h : D s) (hran : ∀ b t, ran ≠ (.ok b, t)) :
    Agree D R ((.ok a, s) : Except ε α × σ) ran := by
  obtain ⟨result, t⟩ := ran
  cases result with
  | ok b => exact absurd rfl (hran b t)
  | error e => exact .late h

def InStep (D : σ → Prop) (R : σ → τ → Prop) (m : Mutating ε σ α) (n : Mutating ε' τ α) (s : σ)
    (t : τ) : Prop :=
  Agree D R (m.run.run s) (n.run.run t)

namespace InStep

variable {m : Mutating ε σ α} {n : Mutating ε' τ α} {k : α → Mutating ε σ β}
  {l : α → Mutating ε' τ β}

theorem pure {a : α} (h : R s t) : InStep D R (Pure.pure a : Mutating ε σ α)
    (Pure.pure a : Mutating ε' τ α) s t :=
  .ok h

theorem failed {e : ε} {e' : ε'} :
    InStep D R (Mutating.check (.error e) : Mutating ε σ α)
    (Mutating.check (.error e') : Mutating ε' τ α) s t :=
  Agree.failed

theorem bind (h : InStep D R m n s t) (hnext : ∀ a s t, R s t → InStep D R (k a) (l a) s t)
    (hlate : ∀ a, Keeps D (k a)) : InStep D R (m >>= k) (n >>= l) s t := by
  have hm : (m >>= k).run.run s =
      (ExceptT.bindCont k (m.run.run s).1 : StateM σ (Except ε β)).run (m.run.run s).2 := rfl
  have hn : (n >>= l).run.run t =
      (ExceptT.bindCont l (n.run.run t).1 : StateM τ (Except ε' β)).run (n.run.run t).2 := rfl
  unfold InStep at h ⊢
  rw [hm, hn]
  generalize m.run.run s = x at h
  generalize n.run.run t = y at h
  cases h with
  | ok hr => exact hnext _ _ _ hr
  | failed => exact .failed
  | @late a _ s' _ hd =>
    show Agree D R ((k a).run.run s') _
    cases hrun : (k a).run.run s' with
    | mk result u =>
      cases result with
      | error e => exact .failed
      | ok b => exact .late (hlate a s' b u hd hrun)

theorem check_bind {first : Except ε α} {first' : Except ε' α'} {l : α' → Mutating ε' τ β}
    (h : Related P first first')
    (hnext : ∀ a a', P a a' → first = .ok a → InStep D R (k a) (l a') s t) :
    InStep D R (Mutating.check first >>= k) (Mutating.check first' >>= l) s t := by
  cases h with
  | ok h => exact hnext _ _ h rfl
  | failed => exact Agree.failed

theorem modify_last {f : σ → σ} {g : τ → τ} (h : R (f s) (g t)) :
    InStep D R (modify f : Mutating ε σ PUnit) (modify g : Mutating ε' τ PUnit) s t := .ok h

theorem get_bind {k : σ → Mutating ε σ β} {l : τ → Mutating ε' τ β}
    (h : InStep D R (k s) (l t) s t) :
    InStep D R (get >>= k) (get >>= l) s t := h

theorem modify_bind {f : σ → σ} {g : τ → τ} {k : PUnit → Mutating ε σ β}
    {l : PUnit → Mutating ε' τ β}
    (h : InStep D R (k ⟨⟩) (l ⟨⟩) (f s) (g t)) :
    InStep D R (modify f >>= k) (modify g >>= l) s t := h

theorem forM {xs : List α} {f : α → Mutating ε σ PUnit} {g : α → Mutating ε' τ PUnit} (h : R s t)
    (hf : ∀ x s t, R s t → InStep D R (f x) (g x) s t) (hlate : ∀ x, Keeps D (f x)) :
    InStep D R (xs.forM f) (xs.forM g) s t := by
  induction xs generalizing s t with
  | nil => exact .pure h
  | cons x xs ih => exact (hf x s t h).bind (fun _ _ _ h => ih h) fun _ => .forM hlate

end InStep

end Mutating

end Checked
