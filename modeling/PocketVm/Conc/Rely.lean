import Mathlib.Order.Notation
import PocketVm.Conc.System

/-!
# Rely and guarantee

A `Discipline` is what the processes of a system agree on: an invariant of the shared state, what
a step of process `p` may do to the state (`guar p`), and the steps the discipline is about
(`cond`). `wp` is the weakest precondition of a program of process `p` while every other process
keeps the discipline; it is closed under the steps of the others, so a fact that outlives them
(`Stable`) is what a proof carries from one request to the next.

`Sound.reach` is the induction over runs, done once: if every operation meets its `wp` from every
state of the invariant and a kill keeps the invariant, then in every reachable configuration the
invariant holds and what is left of each process still meets its `wp`.
-/

namespace Conc

structure Discipline (Op E S : Type) where
  inv : S → Prop
  guar : Nat → S → S → Prop
  cond : S → Nat → Act Op E → Prop
  guar_refl : ∀ p s, guar p s s

namespace Discipline

variable {Op E : Type} {R : E → Type} {S Ret α β ε : Type}

section
variable (D : Discipline Op E S)

/-- A step of some process other than `p`. -/
def rely (p : Nat) (s s' : S) : Prop := ∃ q, q ≠ p ∧ D.inv s ∧ D.inv s' ∧ D.guar q s s'

/-- `s'` is a state of the invariant that the other processes can bring about from `s`. -/
def env (p : Nat) (s s' : S) : Prop := D.inv s' ∧ Relation.ReflTransGen (D.rely p) s s'

/-- `P` outlives the steps of the processes other than `p`. -/
def Stable (p : Nat) (P : S → Prop) : Prop :=
  ∀ q s s', q ≠ p → D.inv s → D.inv s' → D.guar q s s' → P s → P s'

def wp (M : System Op E R S Ret) (p : Nat) : Prog R α → (α → S → Prop) → S → Prop
  | .ret a, Q, s => ∀ s', D.env p s s' → Q a s'
  | .call e k, Q, s => ∀ s', D.env p s s' →
      (D.cond s' p (.run e) → ∀ r s'', M.exec p e s' = some (r, s'') →
        D.inv s'' ∧ D.guar p s' s'' ∧ wp M p (k r) Q s'') ∧
      (D.cond s' p (.fault e) → ∀ r, M.fault e = some r → wp M p (k r) Q s')

end

variable {D : Discipline Op E S} {M : System Op E R S Ret} {p : Nat}

variable {s s' : S} {P : S → Prop} {m : Prog R α} {c : Config R S Ret}

theorem env_trans {s'' : S} (h : Relation.ReflTransGen (D.rely p) s s') (h' : D.env p s' s'') :
    D.env p s s'' :=
  ⟨h'.1, h.trans h'.2⟩

theorem Stable.env (hP : D.Stable p P) (h : D.env p s s') (hs : P s) : P s' := by
  obtain ⟨-, h⟩ := h
  induction h with
  | refl => exact hs
  | tail _ hb ih =>
    obtain ⟨q, hq, hi, hi', hg⟩ := hb
    exact hP q _ _ hq hi hi' hg ih

theorem Stable.and {Q : S → Prop} (hP : D.Stable p P) (hQ : D.Stable p Q) :
    D.Stable p fun s => P s ∧ Q s :=
  fun q s s' hq hi hi' hg h => ⟨hP q s s' hq hi hi' hg h.1, hQ q s s' hq hi hi' hg h.2⟩

theorem Stable.const (P : Prop) : D.Stable p fun _ : S => P := fun _ _ _ _ _ _ _ h => h

theorem Stable.forall {ι : Sort*} {P : ι → S → Prop} (h : ∀ i, D.Stable p (P i)) :
    D.Stable p fun s => ∀ i, P i s :=
  fun q s s' hq hi hi' hg hs i => h i q s s' hq hi hi' hg (hs i)

theorem Stable.exists {ι : Sort*} {P : ι → S → Prop} (h : ∀ i, D.Stable p (P i)) :
    D.Stable p fun s => ∃ i, P i s := by
  rintro q s s' hq hi hi' hg ⟨i, hs⟩
  exact ⟨i, h i q s s' hq hi hi' hg hs⟩

theorem wp_rely {Q : α → S → Prop} (hw : D.wp M p m Q s)
    (h : Relation.ReflTransGen (D.rely p) s s') : D.wp M p m Q s' := by
  cases m with
  | ret a => exact fun s'' h' => hw s'' (env_trans h h')
  | call e k => exact fun s'' h' => hw s'' (env_trans h h')

theorem wp_continue {e : E} {k : R e → Prog R α} {k' : R e → Prog R β} {Q : α → S → Prop}
    {Q' : β → S → Prop}
    (hw : D.wp M p (.call e k) Q s) (h : ∀ r s, D.wp M p (k r) Q s → D.wp M p (k' r) Q' s) :
    D.wp M p (.call e k') Q' s := by
  intro s' hs'
  obtain ⟨hr, hf⟩ := hw s' hs'
  refine ⟨fun hc r s'' he => ?_, fun hc r he => h r _ (hf hc r he)⟩
  obtain ⟨hi, hg, hk⟩ := hr hc r s'' he
  exact ⟨hi, hg, h r _ hk⟩

theorem wp_mono {Q Q' : α → S → Prop} (hw : D.wp M p m Q s)
    (h : ∀ a s, D.inv s → Q a s → Q' a s) : D.wp M p m Q' s := by
  induction m generalizing s with
  | ret a => exact fun s' hs' => h a s' hs'.1 (hw s' hs')
  | call e k ih => exact wp_continue hw fun r _ hk => ih r hk

/-- A program can be verified up to a point where the assertion there outlives the others. -/
theorem wp_bind {f : α → Prog R β} {Q : β → S → Prop}
    (hw : D.wp M p m (fun a s => D.wp M p (f a) Q s) s) : D.wp M p (m >>= f) Q s := by
  induction m generalizing s with
  | ret a =>
    -- `f a` starts after the steps of the others, and its own `wp` absorbs them
    have key : ∀ s', D.env p s s' → D.wp M p (f a) Q s' := hw
    show D.wp M p (f a) Q s
    cases hf : f a with
    | ret b =>
      intro s' hs'
      have := key s' hs'
      rw [hf] at this
      exact this s' ⟨hs'.1, .refl⟩
    | call e k =>
      intro s' hs'
      have := key s' hs'
      rw [hf] at this
      exact this s' ⟨hs'.1, .refl⟩
  | call e k ih => exact wp_continue hw fun r _ hk => ih r hk

theorem wp_ret {a : α} {Q : α → S → Prop} (hQ : D.Stable p (Q a)) (h : Q a s) :
    D.wp M p (.ret a) Q s :=
  fun _ hs' => hQ.env hs' h

theorem wp_call {e : E} {k : R e → Prog R α} {Q : α → S → Prop} (P : S → Prop)
    (hP : D.Stable p P) (hs : P s)
    (hrun : ∀ s, D.inv s → P s → D.cond s p (.run e) → ∀ r s', M.exec p e s = some (r, s') →
      D.inv s' ∧ D.guar p s s' ∧ D.wp M p (k r) Q s')
    (hfault : ∀ s, D.inv s → P s → D.cond s p (.fault e) → ∀ r, M.fault e = some r →
      D.wp M p (k r) Q s) :
    D.wp M p (.call e k) Q s := by
  intro s' hs'
  have hp := hP.env hs' hs
  exact ⟨fun hc r s'' he => hrun s' hs'.1 hp hc r s'' he, fun hc r he => hfault s' hs'.1 hp hc r he⟩

theorem wp_of_uses {A : E → Prop} (hP : D.Stable p P)
    (hA : ∀ e s r s', A e → D.inv s → P s → D.cond s p (.run e) → M.exec p e s = some (r, s') →
      D.inv s' ∧ D.guar p s s' ∧ P s') (hm : m.Uses A) (hs : P s) :
      D.wp M p m (fun _ s => P s) s := by
  induction m generalizing s with
  | ret a => exact wp_ret hP hs
  | call e k ih =>
    refine wp_call P hP hs (fun s hi hp hc r s' he => ?_) fun s hi hp _ r _ => ih r (hm.2 r) hp
    obtain ⟨hi', hg, hp'⟩ := hA e s r s' hm.1 hi hp hc he
    exact ⟨hi', hg, ih r (hm.2 r) hp'⟩

theorem wp_yields {ψ : α → Prop} {Q : α → S → Prop} (hw : D.wp M p m Q s)
    (hy : m.Yields ψ) : D.wp M p m (fun a s => Q a s ∧ ψ a) s := by
  induction m generalizing s with
  | ret a => exact fun s' hs' => ⟨hw s' hs', hy⟩
  | call e k ih => exact wp_continue hw fun r _ hk => ih r hk (hy r)

/-- An assertion of process `p` that outlives the steps of the others. -/
structure Assn (D : Discipline Op E S) (p : Nat) where
  holds : S → Prop
  stable : D.Stable p holds

namespace Assn

instance : CoeFun (Assn D p) fun _ => S → Prop := ⟨holds⟩

instance : Min (Assn D p) := ⟨fun P Q => ⟨fun s => P s ∧ Q s, P.stable.and Q.stable⟩⟩

instance : Top (Assn D p) := ⟨⟨fun _ => True, .const True⟩⟩

def fact (c : Prop) : Assn D p := ⟨fun _ => c, .const c⟩

def all {ι : Sort*} (P : ι → Assn D p) : Assn D p :=
  ⟨fun s => ∀ i, P i s, .forall fun i => (P i).stable⟩

def any {ι : Sort*} (P : ι → Assn D p) : Assn D p :=
  ⟨fun s => ∃ i, P i s, .exists fun i => (P i).stable⟩

variable {P Q : Assn D p} {s : S}

@[simp] theorem fact_apply {c : Prop} : (fact c : Assn D p) s ↔ c := Iff.rfl

theorem env (P : Assn D p) {s s' : S} (h : D.env p s s') (hs : P s) : P s' := P.stable.env h hs

/-- `P` is about what `r` leaves as it is. -/
def Keeps (P : Assn D p) (r : S → S → Prop) : Prop := ∀ s s', r s s' → P s → P s'

variable {r : S → S → Prop}

theorem Keeps.inf (hP : P.Keeps r) (hQ : Q.Keeps r) : (P ⊓ Q).Keeps r :=
  fun s s' h hs => ⟨hP s s' h hs.1, hQ s s' h hs.2⟩

theorem Keeps.top : (⊤ : Assn D p).Keeps r := fun _ _ _ _ => trivial

theorem Keeps.fact {c : Prop} : (fact c : Assn D p).Keeps r := fun _ _ _ h => h

theorem Keeps.all {ι : Sort*} {P : ι → Assn D p} (h : ∀ i, (P i).Keeps r) : (all P).Keeps r :=
  fun s s' hr hs i => h i s s' hr (hs i)

end Assn

/-- Where a fallible program ends: with its value in `Q`, with its error in `X`. -/
def Ends (Q : α → Assn D p) (X : ε → Assn D p) : Except ε α → Assn D p
  | .ok a => Q a
  | .error e => X e

/-- From a state of `P` the fallible program ends in `Q` with its value, or in `X` with its
error. -/
def Triple (M : System Op E R S Ret) (P : Assn D p) (m : ExceptT ε (Prog R) α)
    (Q : α → Assn D p) (X : ε → Assn D p) : Prop :=
  ∀ s, P s → D.wp M p m.run (fun r => Ends Q X r) s

theorem wp_env {Q : α → S → Prop} (h : ∀ s', D.env p s s' → D.wp M p m Q s') : D.wp M p m Q s := by
  cases m with
  | ret a => exact fun s' hs' => h s' hs' s' ⟨hs'.1, .refl⟩
  | call e k => exact fun s' hs' => h s' hs' s' ⟨hs'.1, .refl⟩

namespace Triple

variable {P B : Assn D p} {m : ExceptT ε (Prog R) α} {Q Q' : α → Assn D p} {X Y : ε → Assn D p}

theorem conseq (h : D.Triple M B m Q' Y) (hP : ∀ s, D.inv s → P s → B s)
    (hQ : ∀ a s, D.inv s → Q' a s → Q a s) (hX : ∀ e s, D.inv s → Y e s → X e s) :
    D.Triple M P m Q X := by
  intro s hs
  refine wp_env fun s' hs' => wp_mono (h s' (hP s' hs'.1 (P.env hs' hs))) fun r t hi hr => ?_
  cases r with
  | ok a => exact hQ a t hi hr
  | error e => exact hX e t hi hr

theorem pre (h : D.Triple M B m Q X) (hP : ∀ s, D.inv s → P s → B s) : D.Triple M P m Q X :=
  h.conseq hP (fun _ _ _ h => h) fun _ _ _ h => h

theorem post (h : D.Triple M P m Q' X) (hQ : ∀ a s, D.inv s → Q' a s → Q a s) :
    D.Triple M P m Q X :=
  h.conseq (fun _ _ h => h) hQ fun _ _ _ h => h

theorem err (h : D.Triple M P m Q Y) (hX : ∀ e s, D.inv s → Y e s → X e s) : D.Triple M P m Q X :=
  h.conseq (fun _ _ h => h) (fun _ _ _ h => h) hX

theorem of_fact {c : Prop} (h : c → D.Triple M P m Q X) : D.Triple M (P ⊓ .fact c) m Q X :=
  fun s hs => h hs.2 s hs.1

theorem of_any {ι : Sort*} {P : ι → Assn D p} (h : ∀ i, D.Triple M (P i) m Q X) :
    D.Triple M (.any P) m Q X :=
  fun s ⟨i, hs⟩ => h i s hs

theorem pure {a : α} (h : ∀ s, D.inv s → P s → Q a s) : D.Triple M P (pure a) Q X :=
  fun _ hs s' hs' => h s' hs'.1 (P.env hs' hs)

theorem throw {e : ε} (h : ∀ s, D.inv s → P s → X e s) : D.Triple M P (throw e) Q X :=
  fun _ hs s' hs' => h s' hs'.1 (P.env hs' hs)

theorem bind {J : β → Assn D p} {n : ExceptT ε (Prog R) β} {f : β → ExceptT ε (Prog R) α}
    (hm : D.Triple M P n J X) (hf : ∀ b, D.Triple M (J b) (f b) Q X) :
    D.Triple M P (n >>= f) Q X := by
  intro s hs
  refine wp_bind (wp_mono (hm s hs) fun r s' _ hr => ?_)
  cases r with
  | ok b => exact hf b s' hr
  | error e => exact wp_ret (X e).stable hr

theorem lift {n : Prog R β} {Q : β → Assn D p} (h : ∀ s, P s → D.wp M p n (fun b => Q b) s) :
    D.Triple M P (ExceptT.lift n : ExceptT ε (Prog R) β) Q X :=
  fun s hs => wp_bind (wp_mono (h s hs) fun b _ _ hb => wp_ret (Q b).stable hb)

theorem attempt {ε' : Type} {Z : ε' → Assn D p} (h : D.Triple M P m Q X) :
    D.Triple M P (ExceptT.lift m.run : ExceptT ε' (Prog R) (Except ε α)) (Ends Q X) Z :=
  lift h

theorem request {e : E} {Q : R e → Assn D p}
    (hrun : ∀ s r s', D.inv s → P s → D.cond s p (.run e) → M.exec p e s = some (r, s') →
      D.inv s' ∧ D.guar p s s' ∧ Q r s')
    (hfault : ∀ s r, D.inv s → P s → D.cond s p (.fault e) → M.fault e = some r → Q r s) :
    D.Triple M P (ExceptT.lift (Prog.request e) : ExceptT ε (Prog R) (R e)) Q X := by
  refine lift fun s hs => wp_call P P.stable hs (fun s hi hp hc r s' he => ?_)
    fun s hi hp hc r he => wp_ret (Q r).stable (hfault s r hi hp hc he)
  obtain ⟨hi', hg, hq⟩ := hrun s r s' hi hp hc he
  exact ⟨hi', hg, wp_ret (Q r).stable hq⟩

theorem of_uses {A : E → Prop}
    (hA : ∀ e s r s', A e → D.inv s → P s → D.cond s p (.run e) → M.exec p e s = some (r, s') →
      D.inv s' ∧ D.guar p s s' ∧ P s') (hm : Fallible.Uses A m) :
      D.Triple M P m (fun _ => P) fun _ => P := by
  intro s hs
  refine wp_mono (wp_of_uses P.stable hA hm hs) fun r s' _ hr => ?_
  cases r <;> exact hr

theorem yields {ψ : α → Prop} (h : D.Triple M P m Q X) (hy : Fallible.Yields ψ m) :
    D.Triple M P m (fun a => Q a ⊓ .fact (ψ a)) X := by
  intro s hs
  refine wp_mono (wp_yields (h s hs) hy) fun r s' _ hr => ?_
  cases r with
  | ok a => exact ⟨hr.1, hr.2 a rfl⟩
  | error e => exact hr.1

end Triple

/-- Every operation meets its postcondition under the discipline, and a kill keeps it. -/
structure Sound (D : Discipline Op E S) (M : System Op E R S Ret) (Q : Nat → Ret → S → Prop) :
    Prop where
  start : ∀ p op s, D.inv s → D.cond s p (.start op) →
    D.inv (M.enter p op s) ∧ D.guar p s (M.enter p op s) ∧
      D.wp M p (M.code op) (Q p) (M.enter p op s)
  kill : ∀ p s, D.inv s → D.cond s p .kill → D.inv (M.leave p s) ∧ D.guar p s (M.leave p s)

/-- Every process still meets its `wp`. -/
def Runnable (D : Discipline Op E S) (M : System Op E R S Ret) (Q : Nat → Ret → S → Prop)
    (c : Config R S Ret) : Prop :=
  D.inv c.shared ∧ ∀ p m, c.procs p = some m → D.wp M p m (Q p) c.shared

variable {Q : Nat → Ret → S → Prop}

private theorem forall_update {γ : Type} {f : Nat → Option γ} {x : Option γ} {P : Nat → γ → Prop}
    (hself : ∀ m, x = some m → P p m) (hne : ∀ q m, q ≠ p → f q = some m → P q m) :
    ∀ q m, Function.update f p x q = some m → P q m := by
  intro q m hm
  by_cases hq : q = p
  · subst hq
    rw [Function.update_self] at hm
    exact hself m hm
  · rw [Function.update_of_ne hq] at hm
    exact hne q m hq hm

theorem Runnable.step {c' : Config R S Ret} {a : Act Op E} (hD : D.Sound M Q)
    (hc : D.Runnable M Q c) (hcond : D.cond c.shared p a) (hs : M.Step c p a c') :
    D.Runnable M Q c' ∧ D.guar p c.shared c'.shared := by
  obtain ⟨hi, hw⟩ := hc
  -- the others absorb the step as one step of their environment
  have others : ∀ s', D.inv s' → D.guar p c.shared s' → ∀ q m, q ≠ p → c.procs q = some m →
      D.wp M q m (Q q) s' := fun s' hi' hg q m hq hm =>
    wp_rely (hw q m hm) (.single ⟨p, hq.symm, hi, hi', hg⟩)
  cases hs with
  | start hp =>
    obtain ⟨hi', hg, hwp⟩ := hD.start _ _ _ hi hcond
    exact ⟨⟨hi', forall_update (by rintro _ ⟨⟩; exact hwp) (others _ hi' hg)⟩, hg⟩
  | run hp he =>
    obtain ⟨hi', hg, hwp⟩ := (hw p _ hp c.shared ⟨hi, .refl⟩).1 hcond _ _ he
    exact ⟨⟨hi', forall_update (by rintro _ ⟨⟩; exact hwp) (others _ hi' hg)⟩, hg⟩
  | fault hp he =>
    have hwp := (hw p _ hp c.shared ⟨hi, .refl⟩).2 hcond _ he
    exact ⟨⟨hi, forall_update (by rintro _ ⟨⟩; exact hwp) fun q m _ hm => hw q m hm⟩,
      D.guar_refl p _⟩
  | kill hp =>
    obtain ⟨hi', hg⟩ := hD.kill _ _ hi hcond
    exact ⟨⟨hi', forall_update (by rintro _ ⟨⟩) (others _ hi' hg)⟩, hg⟩

theorem Sound.reach {c₀ : Config R S Ret} (hD : D.Sound M Q) (h₀ : D.inv c₀.shared)
    (hp₀ : ∀ p, c₀.procs p = none) (h : M.Reach D.cond c₀ c) : D.Runnable M Q c := by
  induction h with
  | refl => exact ⟨h₀, fun p m hm => by rw [hp₀ p] at hm; cases hm⟩
  | tail _ hcond hs ih => exact (ih.step hD hcond hs).1

theorem Runnable.post (hc : D.Runnable M Q c) {a : Ret} (hp : c.procs p = some (.ret a)) :
    Q p a c.shared :=
  hc.2 p _ hp c.shared ⟨hc.1, .refl⟩

/-- The discipline of a process that nobody else disturbs. -/
def alone (p : Nat) (ok : Act Op E → Prop) : Discipline Op E S where
  inv _ := True
  guar q s s' := q = p ∨ s' = s
  cond _ _ := ok
  guar_refl _ _ := .inr rfl

def alone.asserts {ok : Act Op E → Prop} (P : S → Prop) : Assn (alone (S := S) p ok) p :=
  ⟨P, fun _ _ _ hq _ _ hg h => by rw [hg.resolve_left hq]; exact h⟩

theorem wp_runs {faulty : Prop} {Q : α → S → Prop} {a : α}
    (hrun : ∀ s e, D.cond s p (.run e)) (hfault : faulty → ∀ s e, D.cond s p (.fault e))
    (hi : D.inv s) (hw : D.wp M p m Q s) (h : M.Runs faulty p m s a s') : D.inv s' ∧ Q a s' := by
  induction h with
  | ret a s => exact ⟨hi, hw s ⟨hi, .refl⟩⟩
  | exec he _ ih =>
    obtain ⟨hi', -, hw'⟩ := (hw _ ⟨hi, .refl⟩).1 (hrun _ _) _ _ he
    exact ih hi' hw'
  | fault hf he _ ih => exact ih hi ((hw _ ⟨hi, .refl⟩).2 (hfault hf _ _) _ he)

end Discipline
end Conc
