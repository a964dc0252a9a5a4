import Mathlib.Logic.Basic
import Mathlib.Logic.Function.Basic
import Mathlib.Logic.Relation

/-!
# Systems of interleaved programs

A program is a tree of requests: it either returns, or issues a request `e` and goes on with the
answer, a value of `R e`. What a request does is not said there: a system says what each does to the
shared state, how it can fail, and which program an operation runs. The processes of a system take
turns one request at a time, and can be killed between any two; what the kernel then does with what
a process held is `leave`. `ExceptT ε (Prog R)` is the shape of a fallible routine.

`Runs` is the same program running alone, with request failures but no other process.
-/

namespace Conc

/-- A program over requests `e : E`, each answered by a value of `R e`. -/
inductive Prog {E : Type} (R : E → Type) (α : Type) where
  | ret (a : α)
  | call (e : E) (k : R e → Prog R α)

namespace Prog

variable {E : Type} {R : E → Type} {α β : Type}

def bind : Prog R α → (α → Prog R β) → Prog R β
  | ret a, f => f a
  | call e k, f => call e fun r => (k r).bind f

instance : Monad (Prog R) where
  pure := ret
  bind := bind

def request (e : E) : Prog R (R e) := call e ret

/-- Every request the program can issue satisfies `A`. -/
def Uses (A : E → Prop) : Prog R α → Prop
  | ret _ => True
  | call e k => A e ∧ ∀ r, (k r).Uses A

variable {A B : E → Prop}

theorem Uses.any (m : Prog R α) : m.Uses fun _ => True := by
  induction m with
  | ret a => trivial
  | call e k ih => exact ⟨trivial, ih⟩

variable {m : Prog R α} {f : α → Prog R β} {ψ : α → Prop}

theorem Uses.bind (hm : m.Uses A) (hf : ∀ a, (f a).Uses A) : (m >>= f).Uses A := by
  induction m with
  | ret a => exact hf a
  | call e k ih => exact ⟨hm.1, fun r => ih r (hm.2 r)⟩

theorem Uses.request {e : E} (he : A e) : (request e : Prog R (R e)).Uses A :=
  ⟨he, fun _ => trivial⟩

/-- Whatever the answers, the value returned satisfies `ψ`. -/
def Yields (ψ : α → Prop) : Prog R α → Prop
  | ret a => ψ a
  | call _ k => ∀ r, (k r).Yields ψ

theorem Yields.mono {χ : α → Prop} (h : ∀ a, ψ a → χ a) (hm : m.Yields ψ) : m.Yields χ := by
  induction m with
  | ret a => exact h a hm
  | call e k ih => exact fun r => ih r (hm r)

theorem Yields.any (m : Prog R α) : m.Yields fun _ => True := by
  induction m with
  | ret a => trivial
  | call e k ih => exact ih

theorem Yields.bind {χ : β → Prop} (hm : m.Yields ψ) (hf : ∀ a, ψ a → (f a).Yields χ) :
    (m >>= f).Yields χ := by
  induction m with
  | ret a => exact hf a hm
  | call e k ih => exact fun r => ih r (hm r)

/-- What follows a program only has to stay in `A` after the values it can return. -/
theorem Uses.bind_of (hm : m.Uses A) (hy : m.Yields ψ) (hf : ∀ a, ψ a → (f a).Uses A) :
    (m >>= f).Uses A := by
  induction m with
  | ret a => exact hf a hy
  | call e k ih => exact ⟨hm.1, fun r => ih r (hm.2 r) (hy r)⟩

end Prog

namespace Fallible

variable {E : Type} {R : E → Type} {α β ε : Type} {A : E → Prop}

def Uses (A : E → Prop) (m : ExceptT ε (Prog R) α) : Prop := Prog.Uses A m.run

variable {m : ExceptT ε (Prog R) α} {f : α → ExceptT ε (Prog R) β}

theorem Uses.bind (hm : Uses A m) (hf : ∀ a, Uses A (f a)) : Uses A (m >>= f) :=
  Prog.Uses.bind hm fun
    | .ok a => hf a
    | .error _ => trivial

theorem Uses.lift {m : Prog R α} (hm : m.Uses A) : Uses A (ExceptT.lift m : ExceptT ε (Prog R) α) :=
  Prog.Uses.bind hm fun _ => trivial

theorem Uses.any (m : ExceptT ε (Prog R) α) : Uses (fun _ => True) m := Prog.Uses.any m.run

def Yields (ψ : α → Prop) (m : ExceptT ε (Prog R) α) : Prop :=
  Prog.Yields (fun r => ∀ a, r = .ok a → ψ a) m.run

variable {ψ : α → Prop} {χ : β → Prop}

theorem Yields.any (m : ExceptT ε (Prog R) α) : Yields (fun _ => True) m :=
  (Prog.Yields.any m.run).mono fun _ _ _ _ => trivial

theorem Yields.bind (hm : Yields ψ m) (hf : ∀ a, ψ a → Yields χ (f a)) : Yields χ (m >>= f) :=
  Prog.Yields.bind hm fun
    | .ok a, h => hf a (h a rfl)
    | .error _, _ => fun _ hc => nomatch hc

theorem Yields.map {f : α → β} (m : ExceptT ε (Prog R) α) (h : ∀ a, χ (f a)) : Yields χ (f <$> m) :=
  Prog.Yields.bind (Prog.Yields.any m.run) fun
    | .ok a, _ => fun _ hc => by cases hc; exact h a
    | .error _, _ => fun _ hc => nomatch hc

theorem Uses.bind_of (hm : Uses A m) (hy : Yields ψ m) (hf : ∀ a, ψ a → Uses A (f a)) :
    Uses A (m >>= f) :=
  Prog.Uses.bind_of hm hy fun
    | .ok a, h => hf a (h a rfl)
    | .error _, _ => trivial

theorem Yields.pure {a : α} (h : ψ a) : Yields ψ (pure a : ExceptT ε (Prog R) α) :=
  fun _ ha => by cases ha; exact h

theorem Yields.throw (e : ε) : Yields ψ (throw e : ExceptT ε (Prog R) α) := fun _ ha => nomatch ha

end Fallible

/-- What the requests of `Prog R` mean on a shared state `S`, and the program of each operation. -/
structure System (Op E : Type) (R : E → Type) (S Ret : Type) where
  /-- One request of process `p`: its answer and the state after it, or `none` while it blocks. -/
  exec : Nat → (e : E) → S → Option (R e × S)
  /-- The answer of a request that fails and changes nothing, where it can fail. -/
  fault : (e : E) → Option (R e)
  enter : Nat → Op → S → S
  leave : Nat → S → S
  code : Op → Prog R Ret

/-- A shared state and what is left to run of each process; a process that is not running is
`none`, one that has returned `a` and still lives is `ret a`. -/
structure Config {E : Type} (R : E → Type) (S Ret : Type) where
  shared : S
  procs : Nat → Option (Prog R Ret)

inductive Event (Op : Type) where
  | start (p : Nat) (op : Op)
  | run (p : Nat)
  | fault (p : Nat)
  | kill (p : Nat)

/-- What a step does, seen from the process that takes it. -/
inductive Act (Op E : Type) where
  | start (op : Op)
  | run (e : E)
  | fault (e : E)
  | kill

namespace System

variable {Op E : Type} {R : E → Type} {S Ret : Type} (M : System Op E R S Ret)

def step (c : Config R S Ret) : Event Op → Option (Config R S Ret)
  | .start p op =>
    match c.procs p with
    | none => some ⟨M.enter p op c.shared, Function.update c.procs p (some (M.code op))⟩
    | some _ => none
  | .run p =>
    match c.procs p with
    | some (.call e k) =>
      match M.exec p e c.shared with
      | some (r, s) => some ⟨s, Function.update c.procs p (some (k r))⟩
      | none => none
    | _ => none
  | .fault p =>
    match c.procs p with
    | some (.call e k) =>
      match M.fault e with
      | some r => some ⟨c.shared, Function.update c.procs p (some (k r))⟩
      | none => none
    | _ => none
  | .kill p =>
    match c.procs p with
    | some _ => some ⟨M.leave p c.shared, Function.update c.procs p none⟩
    | none => none

/-- What an event does in `c`: the process that takes the step, and its act. -/
def act (c : Config R S Ret) : Event Op → Option (Nat × Act Op E)
  | .start p op => some (p, .start op)
  | .run p =>
    match c.procs p with
    | some (.call e _) => some (p, .run e)
    | _ => none
  | .fault p =>
    match c.procs p with
    | some (.call e _) => some (p, .fault e)
    | _ => none
  | .kill p => some (p, .kill)

/-- The run of a list of events, each allowed by `ok`; `none` if one of them cannot happen. -/
def replay (ok : S → Nat → Act Op E → Bool) (c : Config R S Ret) :
    List (Event Op) → Option (Config R S Ret)
  | [] => some c
  | ev :: evs =>
    match act c ev, M.step c ev with
    | some (p, a), some c' => if ok c.shared p a then replay ok c' evs else none
    | _, _ => none

/-- One act of one process: it starts an operation, a request of it is carried out or fails by
itself, or it is killed. -/
inductive Step : Config R S Ret → Nat → Act Op E → Config R S Ret → Prop
  | start {c p op} : c.procs p = none →
      Step c p (.start op) ⟨M.enter p op c.shared, Function.update c.procs p (some (M.code op))⟩
  | run {c p e k r s} : c.procs p = some (.call e k) → M.exec p e c.shared = some (r, s) →
      Step c p (.run e) ⟨s, Function.update c.procs p (some (k r))⟩
  | fault {c p e k r} : c.procs p = some (.call e k) → M.fault e = some r →
      Step c p (.fault e) ⟨c.shared, Function.update c.procs p (some (k r))⟩
  | kill {c p m} : c.procs p = some m →
      Step c p .kill ⟨M.leave p c.shared, Function.update c.procs p none⟩

/-- The configurations reached from `c₀` by steps that all meet `cond`. -/
inductive Reach (cond : S → Nat → Act Op E → Prop) (c₀ : Config R S Ret) :
    Config R S Ret → Prop
  | refl : Reach cond c₀ c₀
  | tail {c p a c'} : Reach cond c₀ c → cond c.shared p a → M.Step c p a c' → Reach cond c₀ c'

variable {M}

variable {c c' : Config R S Ret} {cond : S → Nat → Act Op E → Prop} {ok : S → Nat → Act Op E → Bool}

theorem Step.of_step {ev : Event Op} {p : Nat} {a : Act Op E}
    (ha : act c ev = some (p, a)) (h : M.step c ev = some c') : M.Step c p a c' := by
  cases ev <;> simp only [act, step] at ha h <;> grind [Step]

theorem Reach.of_replay (hok : ∀ s p a, ok s p a = true → cond s p a) {c₀ : Config R S Ret}
    {evs : List (Event Op)} (hr : M.Reach cond c₀ c) (h : M.replay ok c evs = some c') :
    M.Reach cond c₀ c' := by
  induction evs generalizing c with
  | nil => cases h; exact hr
  | cons ev evs ih =>
    simp only [replay] at h
    split at h
    · next p a c₁ ha hs =>
      split at h
      · next hcheck => exact ih (hr.tail (hok _ _ _ hcheck) (Step.of_step ha hs)) h
      · cases h
    · cases h

theorem Reach.exists_of_replay
    (hok : ∀ s p a, ok s p a = true → cond s p a) (c : Config R S Ret) (evs : List (Event Op))
    (t : Config R S Ret → Bool) (h : (M.replay ok c evs).any t = true) : ∃ c', M.Reach cond c c' ∧
    t c' = true := by
  cases hc' : M.replay ok c evs with
  | none => rw [hc'] at h; cases h
  | some c' =>
    rw [hc'] at h
    exact ⟨c', of_replay hok .refl hc', h⟩

theorem Step.of_replay {p : Nat}
    (h : M.replay ok c [.run p] = some c') : ∃ a, ok c.shared p a = true ∧ M.Step c p a c' := by
  simp only [replay] at h
  grind [act, Step.of_step]

theorem Reach.exists_of_replays {cond' : S → Nat → Act Op E → Prop}
    {ok' : S → Nat → Act Op E → Bool} (hok : ∀ s p a, ok s p a = true → cond s p a)
    (hok' : ∀ s p a, ok' s p a = true → cond' s p a) (c : Config R S Ret)
    (evs evs' : List (Event Op)) (t t' : Config R S Ret → Bool)
    (h : ((M.replay ok c evs).any fun c => t c && (M.replay ok' c evs').any t') = true) :
    ∃ c₁ c₂, M.Reach cond c c₁ ∧ t c₁ = true ∧ M.Reach cond' c₁ c₂ ∧ t' c₂ = true := by
  obtain ⟨c₁, hr, ht⟩ := exists_of_replay hok c evs _ h
  rw [Bool.and_eq_true] at ht
  obtain ⟨c₂, hr', ht'⟩ := exists_of_replay hok' c₁ evs' t' ht.2
  exact ⟨c₁, c₂, hr, ht.1, hr', ht'⟩

/-- Program `m` run alone by process `p` from `s`, ending with `a` in the last state; requests fail
by themselves only if `faulty`. -/
inductive Runs (M : System Op E R S Ret) (faulty : Prop) {α : Type} (p : Nat) :
    Prog R α → S → α → S → Prop
  | ret (a : α) (s : S) : Runs M faulty p (.ret a) s a s
  | exec {e k r s s' a s''} : M.exec p e s = some (r, s') → Runs M faulty p (k r) s' a s'' →
      Runs M faulty p (.call e k) s a s''
  | fault {e k r s a s''} : faulty → M.fault e = some r → Runs M faulty p (k r) s a s'' →
      Runs M faulty p (.call e k) s a s''

end System

end Conc

/-! ### A program that goes round in a setting

A turn is a program that ends with where the next turn starts, or with the result. Between any two
requests the world may move any number of times. -/

namespace Conc

/-- The answers to the requests of `Prog R` in a world `W`, and its own moves. -/
structure Setting {E : Type} (R : E → Type) (W Move : Type) where
  /-- The world after request `e` is answered by `r`; `none` if that cannot be the answer. -/
  answer : (e : E) → W → R e → Option W
  move : Move → W → Option W

namespace Setting

variable {E : Type} {R : E → Type} {W Move σ α β : Type}

inductive Act (R : E → Type) (Move : Type) where
  | move (m : Move)
  | answer (e : E) (r : R e)

structure Config (R : E → Type) (W σ α : Type) where
  world : W
  rest : Prog R (σ ⊕ α)

section Runs
variable (S : Setting R W Move) (cond : W → Act R Move → Prop) (turn : σ → Prog R (σ ⊕ α))

/-- One step, of those that meet `cond`. A new turn starts without one. -/
inductive Step : Config R W σ α → Config R W σ α → Prop
  | move {w w' m rest} : cond w (.move m) → S.move m w = some w' → Step ⟨w, rest⟩ ⟨w', rest⟩
  | answer {w w' e r k} : cond w (.answer e r) → S.answer e w r = some w' →
    Step ⟨w, .call e k⟩ ⟨w', k r⟩
  | turn {w s} : Step ⟨w, .ret (.inl s)⟩ ⟨w, turn s⟩

/-- The configurations that steps allowed by `cond` lead to. -/
def Reach : Config R W σ α → Config R W σ α → Prop := Relation.ReflTransGen (S.Step cond turn)

end Runs

variable {S : Setting R W Move} {cond : W → Act R Move → Prop} {turn : σ → Prog R (σ ⊕ α)}

variable {c c' : Config R W σ α}

inductive Event (R : E → Type) (Move : Type) where
  | move (m : Move)
  | answer (pick : (e : E) → R e)
  | turn

variable (S turn) in
def follow (ok : W → Act R Move → Bool) (c : Config R W σ α) : Event R Move →
    Option (Config R W σ α)
  | .move m =>
    if ok c.world (.move m) then (S.move m c.world).map fun w => ⟨w, c.rest⟩ else none
  | .answer pick =>
    match c.rest with
    | .call e k =>
      if ok c.world (.answer e (pick e)) then
        (S.answer e c.world (pick e)).map fun w => ⟨w, k (pick e)⟩ else none
    | .ret _ => none
  | .turn =>
    match c.rest with
    | .ret (.inl s) => some ⟨c.world, turn s⟩
    | _ => none

variable (S turn) in
def replay (ok : W → Act R Move → Bool) (c : Config R W σ α) : List (Event R Move) →
    Option (Config R W σ α)
  | [] => some c
  | ev :: evs =>
    match S.follow turn ok c ev with
    | some c' => replay ok c' evs
    | none => none

variable {ok : W → Act R Move → Bool}

theorem Step.of_follow (hok : ∀ w a, ok w a = true → cond w a) {ev : Event R Move}
    (h : S.follow turn ok c ev = some c') : S.Step cond turn c c' := by
  obtain ⟨w, rest⟩ := c
  cases ev with
  | move m =>
    simp only [follow, Option.ite_none_right_eq_some, Option.map_eq_some_iff] at h
    obtain ⟨hm, w', hw', rfl⟩ := h
    exact .move (hok _ _ hm) hw'
  | answer pick =>
    cases rest with
    | ret => cases h
    | call e k =>
      simp only [follow, Option.ite_none_right_eq_some, Option.map_eq_some_iff] at h
      obtain ⟨hm, w', hw', rfl⟩ := h
      exact .answer (hok _ _ hm) hw'
  | turn =>
    rcases rest with (s | a) | _ <;> cases h
    exact .turn

theorem Reach.of_replay (hok : ∀ w a, ok w a = true → cond w a) {evs : List (Event R Move)}
    (h : S.replay turn ok c evs = some c') : S.Reach cond turn c c' := by
  induction evs generalizing c with
  | nil => cases h; exact .refl
  | cons ev evs ih =>
    simp only [replay] at h
    split at h
    · next c₁ hc₁ => exact .head (Step.of_follow hok hc₁) (ih h)
    · cases h

theorem Reach.exists_of_replay (hok : ∀ w a, ok w a = true → cond w a) (evs : List (Event R Move))
    (test : Config R W σ α → Bool) (h : (S.replay turn ok c evs).any test = true) :
    ∃ c', S.Reach cond turn c c' ∧ test c' = true := by
  cases hc' : S.replay turn ok c evs with
  | none => rw [hc'] at h; cases h
  | some c' =>
    rw [hc'] at h
    exact ⟨c', of_replay hok hc', h⟩

end Setting
end Conc
