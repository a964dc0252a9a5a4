import Mathlib.Algebra.Order.Ring.Nat
import Mathlib.Data.List.Basic
import Mathlib.Data.List.Induction
import Mathlib.Tactic.Ring
import PocketVm.Checked

/-!
# Self-delimiting byte encodings

An encoding is self-delimiting on `ok` when a byte string determines both the value it starts with
and what follows it. Self-delimiting encodings compose by concatenation, under a length count and
under an option tag, and each of them is injective.
-/

namespace Wire

open List

abbrev Bytes := List UInt8

def beBytes : Nat → Nat → Bytes
  | 0, _ => []
  | k + 1, n => beBytes k (n / 256) ++ [UInt8.ofNat n]

@[simp] theorem length_beBytes (k n : Nat) : (beBytes k n).length = k := by
  induction k generalizing n with
  | zero => rfl
  | succ k ih => simp [beBytes, ih]

theorem beBytes_inj {k n m : Nat} (hn : n < 256 ^ k) (hm : m < 256 ^ k)
    (h : beBytes k n = beBytes k m) : n = m := by
  induction k generalizing n m with
  | zero => simp at hn hm; omega
  | succ k ih =>
    obtain ⟨hhi, hlo⟩ := append_inj h (by simp)
    have hdiv : n / 256 = m / 256 :=
      ih (Nat.div_lt_of_lt_mul (by rwa [← pow_succ']))
        (Nat.div_lt_of_lt_mul (by rwa [← pow_succ'])) hhi
    have hmod : n % 256 = m % 256 := by
      have := congrArg UInt8.toNat (List.cons.inj hlo).1
      simpa using this
    omega

def readBE (bytes : Bytes) : Nat := bytes.foldl (fun n b => n * 256 + b.toNat) 0

theorem readBE_beBytes {k n : Nat} (hn : n < 256 ^ k) : readBE (beBytes k n) = n := by
  induction k generalizing n with
  | zero => simp at hn; simp [beBytes, readBE, hn]
  | succ k ih =>
    have hdiv : readBE (beBytes k (n / 256)) = n / 256 :=
      ih (Nat.div_lt_of_lt_mul (by rwa [← pow_succ']))
    have happ : readBE (beBytes (k + 1) n) = readBE (beBytes k (n / 256)) * 256 + n % 256 := by
      simp [beBytes, readBE, foldl_append]
    omega

theorem readBE_lt (bytes : Bytes) : readBE bytes < 256 ^ bytes.length := by
  induction bytes using List.reverseRecOn with
  | nil => simp [readBE]
  | append_singleton bytes b ih =>
    have happ : readBE (bytes ++ [b]) = readBE bytes * 256 + b.toNat := by
      simp [readBE, foldl_append]
    have hb := b.toNat_lt
    rw [length_append, length_singleton]
    omega

theorem beBytes_readBE (bytes : Bytes) : beBytes bytes.length (readBE bytes) = bytes := by
  induction bytes using List.reverseRecOn with
  | nil => rfl
  | append_singleton bytes b ih =>
    have happ : readBE (bytes ++ [b]) = readBE bytes * 256 + b.toNat := by
      simp [readBE, foldl_append]
    have hb := b.toNat_lt
    have hdiv : (readBE bytes * 256 + b.toNat) / 256 = readBE bytes := by omega
    have hlow : UInt8.ofNat (readBE bytes * 256 + b.toNat) = b := by
      apply UInt8.toNat_inj.mp
      rw [UInt8.toNat_ofNat']
      omega
    rw [happ, length_append, length_singleton, beBytes, hdiv, ih, hlow]

variable {α β : Type}

/-- A byte string that starts with the encoding of an `ok` value determines the value and the rest. -/
def SelfDelim (ok : α → Prop) (enc : α → Bytes) : Prop :=
  ∀ a b u v, ok a → ok b → enc a ++ u = enc b ++ v → a = b ∧ u = v

namespace SelfDelim

variable {ok : α → Prop} {ok' : β → Prop} {enc : α → Bytes} {enc' : β → Bytes}

theorem injOn (h : SelfDelim ok enc) {a b : α} (ha : ok a) (hb : ok b)
    (he : enc a = enc b) : a = b :=
  (h a b [] [] ha hb (by rw [he])).1

theorem cut {a b : α} {u v : Bytes} (h : SelfDelim (fun _ => True) enc)
    (he : enc a ++ u = enc b ++ v) : a = b ∧ u = v :=
  h a b u v trivial trivial he

theorem of_length (hlen : ∀ a b, ok a → ok b → (enc a).length = (enc b).length)
    (hinj : ∀ a b, ok a → ok b → enc a = enc b → a = b) : SelfDelim ok enc := by
  intro a b u v ha hb h
  obtain ⟨he, hu⟩ := append_inj h (hlen a b ha hb)
  exact ⟨hinj a b ha hb he, hu⟩

theorem beBytes (k : Nat) : SelfDelim (fun n => n < 256 ^ k) (Wire.beBytes k) :=
  of_length (by simp) fun _ _ => beBytes_inj

theorem comap (h : SelfDelim ok enc) (f : β → α) (hf : ∀ b, ok' b → ok (f b))
    (hinj : ∀ a b, ok' a → ok' b → f a = f b → a = b) : SelfDelim ok' fun b => enc (f b) := by
  intro a b u v ha hb he
  obtain ⟨hfe, huv⟩ := h _ _ _ _ (hf a ha) (hf b hb) he
  exact ⟨hinj a b ha hb hfe, huv⟩

end SelfDelim

def counted (k : Nat) (enc : α → Bytes) (l : List α) : Bytes :=
  beBytes k l.length ++ l.flatMap enc

def tagged (enc : α → Bytes) : Option α → Bytes
  | none => [0]
  | some a => 1 :: enc a

theorem SelfDelim.flatMap {ok : α → Prop} {enc : α → Bytes} (h : SelfDelim ok enc) :
    ∀ (l l' : List α) (u v : Bytes), (∀ a ∈ l, ok a) → (∀ a ∈ l', ok a) → l.length = l'.length →
      l.flatMap enc ++ u = l'.flatMap enc ++ v → l = l' ∧ u = v
  | [], [], _, _, _, _, _, he => ⟨rfl, he⟩
  | a :: l, b :: l', u, v, hl, hl', hlen, he => by
    simp only [flatMap_cons, append_assoc] at he
    obtain ⟨hab, he'⟩ := h _ _ _ _ (hl a (by simp)) (hl' b (by simp)) he
    obtain ⟨hll, huv⟩ := h.flatMap l l' u v (fun x hx => hl x (by simp [hx]))
      (fun x hx => hl' x (by simp [hx])) (by simpa using hlen) he'
    exact ⟨by rw [hab, hll], huv⟩

theorem SelfDelim.counted {ok : α → Prop} {enc : α → Bytes} (h : SelfDelim ok enc) (k : Nat) :
    SelfDelim (fun l : List α => l.length < 256 ^ k ∧ ∀ a ∈ l, ok a) (Wire.counted k enc) := by
  intro l l' u v hl hl' he
  simp only [Wire.counted, append_assoc] at he
  obtain ⟨hlen, he⟩ := SelfDelim.beBytes k _ _ _ _ hl.1 hl'.1 he
  exact h.flatMap l l' u v hl.2 hl'.2 hlen he

theorem SelfDelim.tagged {ok : α → Prop} {enc : α → Bytes} (h : SelfDelim ok enc) :
    SelfDelim (fun o : Option α => ∀ a ∈ o, ok a) (Wire.tagged enc) := by
  intro o o' u v ho ho' he
  cases o with
  | none =>
    cases o' with
    | none => exact ⟨rfl, by simpa [Wire.tagged] using he⟩
    | some b => simp [Wire.tagged] at he
  | some a =>
    cases o' with
    | none => simp [Wire.tagged] at he
    | some b =>
      simp only [Wire.tagged, cons_append, List.cons.injEq, true_and] at he
      obtain ⟨rfl, rfl⟩ := h _ _ _ _ (ho a rfl) (ho' b rfl) he
      exact ⟨rfl, rfl⟩

theorem mem_intercalate {sep b : UInt8} {fields : List Bytes} (h : b ∈ [sep].intercalate fields) :
    b = sep ∨ ∃ field ∈ fields, b ∈ field := by
  induction fields with
  | nil => exact absurd h not_mem_nil
  | cons field fields ih =>
    by_cases hne : fields = []
    · subst hne
      rw [intercalate_singleton] at h
      exact .inr ⟨field, mem_cons_self, h⟩
    · rw [intercalate_cons_of_ne_nil hne, append_assoc, mem_append, mem_append,
        mem_singleton] at h
      rcases h with h | h | h
      · exact .inr ⟨field, mem_cons_self, h⟩
      · exact .inl h
      · rcases ih h with h | ⟨other, hother, h⟩
        · exact .inl h
        · exact .inr ⟨other, mem_cons_of_mem _ hother, h⟩

end Wire

/-! ### Readers of byte strings

A reader takes an encoding when, whatever follows, it takes exactly those bytes and gives the
encoded value. -/

namespace Wire

variable {ε α β : Type}

abbrev Reader (ε α : Type) := StateT Bytes (Except ε) α

namespace Reader

def take (n : Nat) (truncated : ε) : Reader ε Bytes := fun rest =>
  if n ≤ rest.length then .ok (rest.take n, rest.drop n) else .error truncated

def finish (trailing : ε) :
    Reader ε Unit := fun rest => if rest = [] then .ok ((), []) else .error trailing

def accept (result : Except ε α) : Reader ε α := fun rest => result.map fun a => (a, rest)

def times (m : Reader ε α) : Nat → Reader ε (List α)
  | 0 => pure []
  | n + 1 => do
    let a ← m
    let as ← times m n
    return a :: as

/-- A reader takes exactly these bytes for this value. -/
def Takes (m : Reader ε α) (bytes : Bytes) (a : α) : Prop := ∀ rest,
    m (bytes ++ rest) = .ok (a, rest)

variable {m : Reader ε α} {next : α → Reader ε β} {bytes bytes' : Bytes} {a : α} {b : β}

theorem Takes.pure : Takes (pure a : Reader ε α) [] a := fun _ => rfl

theorem Takes.bind (h : Takes m bytes a) (h' : Takes (next a) bytes' b) :
    Takes (m >>= next) (bytes ++ bytes') b := by
  intro rest
  rw [List.append_assoc]
  show (m (bytes ++ (bytes' ++ rest)) >>= fun p => next p.1 p.2) = _
  rw [h]
  exact h' rest

theorem Takes.bind_last (h : Takes m bytes a) (h' : Takes (next a) [] b) :
    Takes (m >>= next) bytes b := by
  have hboth := h.bind h'
  rwa [List.append_nil] at hboth

theorem Takes.accept {result : Except ε α} (h : result = .ok a) : Takes (accept result) [] a := by
  intro rest
  rw [h]
  rfl

theorem Takes.check {result : Except ε α} (h : result = .ok a) (h' : Takes (next a) bytes b) :
    Takes (Reader.accept result >>= next) bytes b := by
  have hboth := (Takes.accept h).bind h'
  rwa [List.nil_append] at hboth

theorem Takes.stop {c : Prop} [Decidable c] {e : ε} {next : Unit → Reader ε β} (h : ¬c)
    (h' : Takes (next ()) bytes b) :
    Takes (Reader.accept (Checked.stop c e) >>= next) bytes b :=
  Takes.check (Checked.stop_ok.mpr h) h'

theorem Takes.take {truncated : ε} : Takes (take bytes.length truncated) bytes bytes := by
  intro rest
  rw [Reader.take, if_pos (by simp), List.take_left, List.drop_left]

theorem Takes.times {enc : α → Bytes} {as : List α} (h : ∀ a ∈ as, Takes m (enc a) a) :
    Takes (times m as.length) (as.flatMap enc) as := by
  induction as with
  | nil => exact Takes.pure
  | cons a as ih =>
    refine (h a (List.mem_cons_self ..)).bind ?_
    exact (ih fun a' ha' => h a' (List.mem_cons_of_mem _ ha')).bind_last Takes.pure

theorem Takes.run_finish {trailing : ε} (h : Takes m bytes a) : (do
    let a ← m
    finish trailing
    return a : Reader ε α) bytes = .ok (a, []) := by
  have hread := h []
  rw [List.append_nil] at hread
  show (m bytes >>= fun p => (finish trailing >>= fun _ => Pure.pure p.1 : Reader ε α) p.2) = _
  rw [hread]
  rfl

/-- Whatever is read, what it is read as satisfies `P`. -/
def Gives (P : α → Prop) (m : Reader ε α) : Prop := ∀ rest a rest', m rest = .ok (a, rest') → P a

theorem Gives.any (m : Reader ε α) : Gives (fun _ => True) m := fun _ _ _ _ => trivial

theorem Gives.pure {P : α → Prop} (h : P a) : Gives P (Pure.pure a : Reader ε α) := by
  intro rest _ _ hread
  cases hread
  exact h

theorem Gives.accept {P : α → Prop} {result : Except ε α} (h : ∀ a, result = .ok a → P a) :
    Gives P (accept result) := by
  intro rest a _ hread
  obtain ⟨a', ha, heq⟩ := Checked.map_ok.mp hread
  cases heq
  exact h a ha

theorem Gives.take (n : Nat) (truncated : ε) :
    Gives (fun bytes => bytes.length = n) (take n truncated) := by
  intro rest bytes _ hread
  unfold Reader.take at hread
  split at hread
  · cases hread
    exact List.length_take_of_le ‹_›
  · cases hread

theorem Gives.bind {P : α → Prop} {Q : β → Prop} (h : Gives P m)
    (h' : ∀ a, P a → Gives Q (next a)) :
    Gives Q (m >>= next) := by
  intro rest b rest' hread
  obtain ⟨⟨a, between⟩, ha, hb⟩ := Checked.bind_ok.mp
    (show (m rest >>= fun p => next p.1 p.2) = _ from hread)
  exact h' a (h rest a between ha) between b rest' hb

theorem Gives.times {P : α → Prop} (h : Gives P m) (n : Nat) :
    Gives (fun as => ∀ a ∈ as, P a) (times m n) := by
  induction n with
  | zero => exact .pure fun _ ha => nomatch ha
  | succ n ih =>
    exact h.bind fun a ha => ih.bind fun as has => .pure (List.forall_mem_cons.mpr ⟨ha, has⟩)

end Reader

end Wire
