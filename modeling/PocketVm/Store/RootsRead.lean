import PocketVm.Store.Locks

/-!
# What is read of the records

Reading aliases, retained overlays and instances while nobody else changes them: a record that is
returned is one the table holds, one that is not found is not there, and the roots a collection
gathers contain the target of every record.
-/

namespace PocketVm.Store

open Conc Discipline Footprint List

variable {host : Host} {D : Discipline Op Req State} {p : Nat} {P : Assn D p}
  {A : Table AliasId (Option AliasRecord)} {T : Table RetainedCowId (Option RetainedCow)}

structure Complete (A : Table AliasId (Option AliasRecord))
    (T : Table RetainedCowId (Option RetainedCow)) (l : List GenerationId) : Prop where
  aliases : ∀ a r, A.lookup a = some (some r) → r.generationId ∈ l
  retained : ∀ i r, T.lookup i = some (some r) → r.generationId ∈ l

structure Unrooted (A : Table AliasId (Option AliasRecord))
    (T : Table RetainedCowId (Option RetainedCow)) (id : GenerationId) : Prop where
  aliases : ∀ a r, A.lookup a = some (some r) → r.generationId ≠ id
  retained : ∀ i r, T.lookup i = some (some r) → r.generationId ≠ id

theorem Complete.unrooted {id : GenerationId} {l : List GenerationId} (h : Complete A T l)
    (hid : id ∉ l) :
    Unrooted A T id where
  aliases a r ha he := hid (he ▸ h.aliases a r ha)
  retained i r hi he := hid (he ▸ h.retained i r hi)

variable {e : Req} {κ α : Type} {k : κ} {s s' : State} {t : Table κ (Option α)}
  {a : Except Errno (Option α)}
variable {id : InstanceId}

/-- What one request on a record answers, said of the state it is made in. -/
theorem asks_read (he : reads.allows e) {φ : e.Ans → Prop}
    (h : ∀ s a s', P s → exec host p e s = some (a, s') → φ a) (hf : φ (.error .eio)) :
    Asks host P e fun a => P ⊓ .fact (φ a) where
  run s a s' hi hp hc hr := by
    obtain ⟨hi', hg, hp'⟩ := (Asks.reads (P := P) he).run s a s' hi hp hc hr
    exact ⟨hi', hg, hp', h s a s' hp hr⟩
  fault s _ hp _ _ := ⟨hp, hf⟩

theorem spec_askRead {operation : String} (he : reads.allows e) {φ : e.Out → Prop}
    (h : ∀ s a s', P s → exec host p e s = some (.ok a, s') → φ a) :
    Spec host P (ask operation e) (fun a => P ⊓ .fact (φ a)) fun _ => P :=
  .bind (Spec.sys (asks_read (φ := fun r => ∀ a, r = .ok a → φ a) he
    (fun s _ s' hp hr a ha => h s a s' hp (ha ▸ hr)) fun _ => nofun)) fun
    | .ok a => .pure fun _ _ h => ⟨h.1, h.2 a rfl⟩
    | .error _ => .throw fun _ _ h => h.1

theorem mem_sorted_keys {ν : Type} [DecidableEq κ] {t : Table κ ν} {v : ν}
    {f : κ → κ → Bool} (h : t.lookup k = some v) : k ∈ t.keys.insertionSort fun i j => f i j := by
  rw [mem_insertionSort]
  exact AList.mem_keys.mp (AList.lookup_isSome.mp (Option.isSome_of_eq_some h))

theorem readRecord_ok [DecidableEq κ] {r : Option α} (h : s.readRecord t k = some (a, s'))
    (ha : a = .ok r) : t.lookup k = some r := by
  unfold State.readRecord State.answer State.fail at h
  split at h
  · cases h; cases ha
  · next hr => cases h; cases ha; exact hr

theorem readRecord_enoent [DecidableEq κ] (h : s.readRecord t k = some (a, s'))
    (ha : a = .error .enoent) :
    t.lookup k = none := by
  unfold State.readRecord State.answer State.fail at h
  split at h
  · next hr => exact hr
  · cases h; cases ha

section
variable (hA : ∀ s, P s → s.aliases = A)
include hA

theorem spec_readAlias (id : AliasId) : Spec host P (readAlias host id)
      (fun r => P ⊓ .fact (A.lookup id = some (some r))) fun _ => P := by
  refine .bind (Spec.sys (asks_read (e := .record (.readAlias id)) (φ := fun a => ∀ r,
    a = .ok (some r) → A.lookup id = some (some r)) trivial (fun s a s' hp h r ha => ?_) (fun _ =>
      nofun))) fun a => ?_
  · rw [← hA s hp]; exact readRecord_ok h ha
  · split
    · exact .throw fun _ _ h => h.1
    · exact .throw fun _ _ h => h.1
    · exact .throw fun _ _ h => h.1
    · next r =>
      refine .bind (J := fun _ => P ⊓ .fact (A.lookup id = some (some r)))
        (Spec.require (fun _ _ _ h => ⟨h.1, h.2 _ rfl⟩) fun _ _ _ h => h.1) fun _ =>
        .bind (Spec.require (fun _ _ _ h => h) fun _ _ _ h => h.1) fun _ => .pure fun _ _ h => h

theorem spec_aliasRoots (ids : List AliasId) : Spec host P (aliasRoots host ids) (fun l => P ⊓
      .fact (∀ a ∈ ids, ∀ r, A.lookup a = some (some r) → r.generationId ∈ l)) fun _ => P := by
  induction ids with
  | nil => exact .pure fun _ _ h => ⟨h, by simp⟩
  | cons id ids ih =>
    have hread : Spec host P (unsafeOnError "unreadable alias" (readAlias host id))
        (fun r => P ⊓ .fact (A.lookup id = some (some r))) fun _ => P :=
      .bind (Spec.attempt (spec_readAlias hA id)) fun
        | .ok _ => .pure fun _ _ h => h
        | .error _ => .throw fun _ _ h => h
    refine .bind hread fun r => ?_
    refine .bind ((Spec.looks (P := P ⊓ .fact (A.lookup id = some (some r)))
      (within_unsafeOnError (within_verifyGeneration host _))).err fun _ _ _ h => h.1) fun g => ?_
    refine .bind ((Spec.looks (P := P ⊓ .fact (A.lookup id = some (some r)))
      (within_unsafeOnError (.ofExcept _))).err fun _ _ _ h => h.1) fun _ => ?_
    refine .of_fact fun hr => .bind ih fun l => .of_fact fun hl => .pure fun _ _ h => ⟨h, ?_⟩
    intro a ha r' hr'
    rcases mem_cons.mp ha with rfl | ha
    · rw [hr] at hr'
      cases hr'
      exact mem_cons_self
    · exact mem_cons_of_mem _ (hl a ha r' hr')

end

theorem spec_readRetained {x : Option (Option RetainedCow)} {id : RetainedCowId}
    (hx : ∀ s, P s → s.retained.lookup id = x) :
    Spec host P (readRetained host id) (fun r => P ⊓ .fact (x = some (some r) ∧ r.id = id))
      fun e => P ⊓ .fact (e = .retainedCowNotFound → x = none) := by
  refine .bind (Spec.sys (asks_read (e := .record (.readRetained id)) (φ := fun a =>
    (∀ r, a = .ok (some r) → x = some (some r)) ∧ (a = .error .enoent → x = none)) trivial
    (fun s a s' hp h => ?_) ⟨fun _ => nofun, nofun⟩)) fun a => ?_
  · rw [← hx s hp]
    exact ⟨fun r ha => readRecord_ok h ha, readRecord_enoent h⟩
  · split
    · exact .throw fun _ _ h => ⟨h.1, fun _ => h.2.2 rfl⟩
    · exact .throw fun _ _ h => ⟨h.1, nofun⟩
    · exact .throw fun _ _ h => ⟨h.1, nofun⟩
    · next r =>
      refine .bind (J := fun _ => P ⊓ .fact (x = some (some r)))
        (Spec.require (fun _ _ _ h => ⟨h.1, h.2.1 _ rfl⟩) fun _ _ _ h => ⟨h.1, nofun⟩) fun _ =>
        .bind (J := fun _ => P ⊓ .fact (x = some (some r) ∧ r.id = id))
          (Spec.require (fun hid _ _ h => ⟨h.1, h.2, hid⟩) fun _ _ _ h => ⟨h.1, nofun⟩) fun _ =>
        .pure fun _ _ h => h

theorem spec_readInstance {x : Option (Option Instance)}
    (hx : ∀ s, P s → s.instances.lookup id = x) :
    Spec host P (readInstance host id) (fun r => P ⊓ .fact (x = some (some r) ∧
      Instance.deriveId host r.name = r.id))
      fun e => P ⊓ .fact (e = .instanceNotFound → x = none) := by
  refine .bind (Spec.sys (asks_read (e := .record (.readInstance id)) (φ := fun a =>
    (∀ r, a = .ok (some r) → x = some (some r)) ∧ (a = .error .enoent → x = none)) trivial
    (fun s a s' hp h => ?_) ⟨fun _ => nofun, nofun⟩)) fun a => ?_
  · rw [← hx s hp]
    exact ⟨fun r ha => readRecord_ok h ha, readRecord_enoent h⟩
  · split
    · exact .throw fun _ _ h => ⟨h.1, fun _ => h.2.2 rfl⟩
    · exact .throw fun _ _ h => ⟨h.1, nofun⟩
    · exact .throw fun _ _ h => ⟨h.1, nofun⟩
    · next r =>
      exact .bind (J := fun _ => P ⊓ .fact (x = some (some r) ∧
        Instance.deriveId host r.name = r.id))
        (Spec.require (fun hid _ _ h => ⟨h.1, h.2.1 _ rfl, hid⟩) fun _ _ _ h => ⟨h.1, nofun⟩)
        fun _ => .pure fun _ _ h => h

/-- `B` after the answer that a record is not there, `P` after any other. -/
def unlessMissing {α : Type} (B P : Assn D p) : Except Errno α → Assn D p
  | .error .enoent => B
  | _ => P

/-- `B` after the error that an instance is not there, `P` after any other. -/
def unlessNotFound (B P : Assn D p) : StoreError → Assn D p
  | .instanceNotFound => B
  | _ => P

/-- `B` is what holds where a record is looked for and not found. -/
theorem spec_findInstance {B : Assn D p}
    (hB : ∀ s, D.inv s → P s → s.instances.lookup id = none → B s) :
    Spec host P (readInstance host id) (fun _ => P) (unlessNotFound B P) := by
  refine .bind (J := unlessMissing B P)
    (Spec.sys ⟨fun s a s' hi hp _ h => ?_, fun _ _ hp _ _ => hp⟩) fun a => ?_
  · have hs : s' = s := exec_reads (e := .record (.readInstance id)) trivial h
    subst hs
    refine ⟨hi, D.guar_refl p _, ?_⟩
    unfold unlessMissing
    split
    · exact hB _ hi hp (readRecord_enoent h rfl)
    · exact hp
  · rcases a with n | r
    · cases n <;> exact .throw fun _ _ h => h
    · cases r with
      | none => exact .throw fun _ _ h => h
      | some r =>
        exact .bind (J := fun _ => P) (Spec.require (fun _ _ _ h => h) fun _ _ _ h => h)
          fun _ => .pure fun _ _ h => h

section
variable (hT : ∀ s, P s → s.retained = T)
include hT

theorem spec_retainedRoots (ids : List RetainedCowId) :
    Spec host P (retainedRoots host ids) (fun l => P ⊓
      .fact (∀ i ∈ ids, ∀ r, T.lookup i = some (some r) → r.generationId ∈ l)) fun _ => P := by
  induction ids with
  | nil => exact .pure fun _ _ h => ⟨h, by simp⟩
  | cons id ids ih =>
    have hread : Spec host P (unsafeOnError "unreadable retained COW" (readRetained host id))
        (fun r => P ⊓ .fact (T.lookup id = some (some r))) fun _ => P :=
      .bind (Spec.attempt (spec_readRetained fun s hs => by rw [hT s hs])) fun
        | .ok _ => .pure fun _ _ h => ⟨h.1, h.2.1⟩
        | .error _ => .throw fun _ _ h => h.1
    refine .bind hread fun r => ?_
    refine .bind ((Spec.looks (P := P ⊓ .fact (T.lookup id = some (some r)))
      (within_unsafeOnError (within_verifyGeneration host _))).err fun _ _ _ h => h.1) fun g => ?_
    refine .of_fact fun hr => .bind ih fun l => .of_fact fun hl => .pure fun _ _ h => ⟨h, ?_⟩
    intro a ha r' hr'
    rcases mem_cons.mp ha with rfl | ha
    · rw [hr] at hr'
      cases hr'
      exact mem_cons_self
    · exact mem_cons_of_mem _ (hl a ha r' hr')

end

theorem spec_collectGcRoots (hA : ∀ s, P s → s.aliases = A) (hT : ∀ s, P s → s.retained = T) :
    Spec host P (collectGcRoots host) (fun l => P ⊓ .fact (Complete A T l)) fun _ => P := by
  have hlistA : Spec host P (ask "read directory" (.record .listAliases))
      (fun r : List AliasId × List String =>
        P ⊓ .fact (∀ a x, A.lookup a = some x → a ∈ r.1)) fun _ => P :=
    spec_askRead (e := .record .listAliases) trivial fun s a s' hp h b x hx => by
      cases h
      exact mem_sorted_keys (hA s hp ▸ hx)
  have hlistT : Spec host P (ask "read directory" (.record .listRetained))
      (fun r : List RetainedCowId × List String =>
        P ⊓ .fact (∀ a x, T.lookup a = some x → a ∈ r.1)) fun _ => P :=
    spec_askRead (e := .record .listRetained) trivial fun s a s' hp h b x hx => by
      cases h
      exact mem_sorted_keys (hT s hp ▸ hx)
  refine .bind hlistA fun r => .of_fact fun hids =>
    .bind (Spec.require (fun _ _ _ h => h) fun _ _ _ h => h) fun _ =>
    .bind (spec_aliasRoots hA _) fun roots => .of_fact fun hroots => ?_
  refine .bind hlistT fun r => .of_fact fun hids' =>
    .bind (Spec.require (fun _ _ _ h => h) fun _ _ _ h => h) fun _ =>
    .bind (spec_retainedRoots hT _) fun others => .of_fact fun hothers => ?_
  exact .pure fun _ _ h => ⟨h,
    fun a r ha => mem_append_left _ (hroots a (hids a _ ha) r ha),
    fun i r hi => mem_append_right _ (hothers i (hids' i _ hi) r hi)⟩

section
variable {I : Table InstanceId (Option Instance)} (hI : ∀ s, P s → s.instances = I)
include hI

theorem spec_readInstances (ids : List InstanceId) :
    Spec host P (readInstances host ids) (fun l => P ⊓
      .fact (∀ i ∈ ids, ∀ r, I.lookup i = some (some r) → r ∈ l)) fun _ => P := by
  induction ids with
  | nil => exact .pure fun _ _ h => ⟨h, by simp⟩
  | cons id ids ih =>
    refine .bind ((spec_readInstance fun s hs => by rw [hI s hs]).err fun _ _ _ h => h.1) fun r =>
      .of_fact fun hr => .bind ih fun l => .of_fact fun hl => .pure fun _ _ h => ⟨h, ?_⟩
    intro i hi r' hr'
    rcases mem_cons.mp hi with rfl | hi
    · cases hr.1.symm.trans hr'
      exact mem_cons_self
    · exact mem_cons_of_mem _ (hl i hi r' hr')

theorem spec_readInstancesLocked : Spec host P (readInstancesLocked host) (fun l => P ⊓
      .fact (∀ i r, I.lookup i = some (some r) → r ∈ l)) fun _ => P := by
  have hlist : Spec host P (ask "read directory" (.record .listInstances))
      (fun ids : List InstanceId => P ⊓ .fact (∀ i x, I.lookup i = some x → i ∈ ids)) fun _ => P :=
    spec_askRead (e := .record .listInstances) trivial fun s a s' hp h b x hx => by
      cases h
      exact mem_sorted_keys (hI s hp ▸ hx)
  exact .bind hlist fun ids => .of_fact fun hids => (spec_readInstances hI ids).post
    fun _ _ _ h => ⟨h.1, fun i r hr => h.2 i (hids i _ hr) r hr⟩

end

/-! ### What is written

A record is written or removed whole, or not at all. -/

section
variable {Q : Assn D p} {t : TempName}

theorem asks_linkRetained {r : RetainedCow}
    (h : ∀ s, D.inv s → P s → s.retained.lookup r.id = none →
      let s' := { s with temps := s.temps.erase t, retained := s.retained.insert r.id (some r) }
      D.inv s' ∧ D.guar p s s' ∧ Q s') :
    Asks host P (.record (.linkRetained t r)) (Ends (fun _ => Q) fun _ => P) where
  run s a s' hi hp _ he := by
    rcases linkRecord_cases he with ⟨⟨n, rfl⟩, rfl⟩ | ⟨rfl, hn, rfl⟩
    · exact ⟨hi, D.guar_refl p _, hp⟩
    · exact h s hi hp hn
  fault _ _ hp _ _ := hp

theorem asks_replaceRetained {r : RetainedCow} (h : ∀ s, D.inv s → P s →
      let s' := { s with temps := s.temps.erase t, retained := s.retained.insert r.id (some r) }
      D.inv s' ∧ D.guar p s s' ∧ Q s') :
    Asks host P (.record (.replaceRetained t r)) (Ends (fun _ => Q) fun _ => P) where
  run s a s' hi hp _ he := by
    rcases replaceRecord_cases he with ⟨⟨n, rfl⟩, rfl⟩ | ⟨rfl, rfl⟩
    · exact ⟨hi, D.guar_refl p _, hp⟩
    · exact h s hi hp
  fault _ _ hp _ _ := hp

theorem asks_unlinkRetained {id : RetainedCowId}
    (h : ∀ s, D.inv s → P s → D.cond s p (.run (.record (.unlinkRetained id))) →
      let s' := { s with retained := s.retained.erase id }
      D.inv s' ∧ D.guar p s s' ∧ Q s') :
    Asks host P (.record (.unlinkRetained id)) (Ends (fun _ => Q) fun _ => P) where
  run s a s' hi hp hc he := by
    rcases unlinkRecord_cases he with ⟨⟨n, rfl⟩, rfl⟩ | ⟨rfl, rfl⟩
    · exact ⟨hi, D.guar_refl p _, hp⟩
    · exact h s hi hp hc
  fault _ _ hp _ _ := hp

theorem asks_linkInstance {r : Instance} (h : ∀ s, D.inv s → P s → s.instances.lookup r.id = none →
      let s' := { s with temps := s.temps.erase t, instances := s.instances.insert r.id (some r) }
      D.inv s' ∧ D.guar p s s' ∧ Q s') :
    Asks host P (.record (.linkInstance t r)) (Ends (fun _ => Q) fun _ => P) where
  run s a s' hi hp _ he := by
    rcases linkRecord_cases he with ⟨⟨n, rfl⟩, rfl⟩ | ⟨rfl, hn, rfl⟩
    · exact ⟨hi, D.guar_refl p _, hp⟩
    · exact h s hi hp hn
  fault _ _ hp _ _ := hp

theorem asks_replaceInstance {id : InstanceId} {r : Instance} (h : ∀ s, D.inv s → P s →
      let s' := { s with temps := s.temps.erase t, instances := s.instances.insert id (some r) }
      D.inv s' ∧ D.guar p s s' ∧ Q s') :
    Asks host P (.record (.replaceInstance t id r)) (Ends (fun _ => Q) fun _ => P) where
  run s a s' hi hp _ he := by
    rcases replaceRecord_cases he with ⟨⟨n, rfl⟩, rfl⟩ | ⟨rfl, rfl⟩
    · exact ⟨hi, D.guar_refl p _, hp⟩
    · exact h s hi hp
  fault _ _ hp _ _ := hp

end

end PocketVm.Store

/-! ### The table of live processes, and the roots lock -/

namespace PocketVm.Store

open Conc Discipline Footprint

variable {host : Host} {p q : Nat} {s s' : State} {D : Discipline Op Req State}

theorem exec_live {e : Req} {a : e.Ans} (h : exec host p e s = some (a, s')) :
    s'.live = s.live := by
  cases e with
  | lock r => obtain ⟨_, _, _, rfl⟩ := execLock_frame h; rfl
  | temp r => obtain ⟨_, _, rfl⟩ := execTemp_frame h; rfl
  | dir r => obtain ⟨_, _, rfl⟩ := execDir_frame h; rfl
  | record r => obtain ⟨_, _, _, _, _, rfl⟩ := execRec_frame h; rfl
  | host r => cases h; rfl

/-- Process `p` runs an operation of the kind `k`. -/
def Doing (s : State) (p : Nat) (k : Op → Prop) : Prop := ∃ op, s.live.lookup p = some op ∧ k op

theorem Doing.of_live {k : Op → Prop} (h : s'.live = s.live) (hp : Doing s' p k) : Doing s p k := by
  unfold Doing at hp ⊢
  rwa [h] at hp

theorem Doing.of_enter {k : Op → Prop} {op : Op} (h : Doing (enter p op s) q k) :
    q = p ∧ k op ∨ q ≠ p ∧ Doing s q k := by
  obtain ⟨op', hop', hk⟩ := h
  by_cases hq : q = p
  · subst hq
    cases (AList.lookup_insert _).symm.trans hop'
    exact .inl ⟨rfl, hk⟩
  · exact .inr ⟨hq, op', (AList.lookup_insert_ne hq).symm.trans hop', hk⟩

theorem Doing.of_leave {k : Op → Prop} (h : Doing (leave p s) q k) : Doing s q k := by
  obtain ⟨op, hop, hk⟩ := h
  exact ⟨op, lookup_erase_sub hop, hk⟩

theorem live_enter {op : Op} (hq : q ≠ p) : (enter p op s).live.lookup q = s.live.lookup q :=
  AList.lookup_insert_ne hq

theorem live_leave (hq : q ≠ p) : (leave p s).live.lookup q = s.live.lookup q :=
  AList.lookup_erase_ne hq

/-- A discipline under which a process says nothing about the operations of the others. -/
structure Attended (D : Discipline Op Req State) : Prop where
  live : ∀ q s s', D.guar q s s' → ∀ p, p ≠ q → s'.live.lookup p = s.live.lookup p

def Attended.alive (A : Attended D) (p : Nat) (op : Op) : Assn D p :=
  ⟨fun s => s.live.lookup p = some op, fun q s s' hq _ _ hg h =>
    (A.live q s s' hg p hq.symm).trans h⟩

/-- Locks are in order, and every descriptor of the roots lock is on the file of that name. -/
structure Solid (s : State) : Prop where
  flock : FlockOk s
  roots : ∀ p fd, s.fds.lookup (p, .roots) = some fd → s.lockFiles.lookup .roots = some fd.ino

namespace Solid

theorem of_closed (h : s.fds = ∅) : Solid s := by
  have hno : ∀ k fd, s.fds.lookup k ≠ some fd := by
    intro k fd hk
    rw [h] at hk
    cases hk
  exact ⟨fun k _ fd _ _ _ hk => absurd hk (hno k fd), fun p fd hp => absurd hp (hno _ fd)⟩

theorem granted (hs : Solid s) (p : Nat) (m : LockMode) : GrantedAsNamed s p .roots m := by
  intro fd hfd hc q fd' m' hq hfd' hm'
  have hino : fd'.ino = fd.ino :=
    Option.some.inj ((hs.roots q fd' hfd').symm.trans (hs.roots p fd hfd))
  exact (conflict_eq_false hc hfd' (fun h => hq (Prod.mk.inj h).1) hino hm').symm

theorem locks (hs : Solid s) : Locks (· = .roots) s := by
  refine ⟨hs.flock, ?_⟩
  rintro n p q fd fd' m m' rfl hne hfd hfd' hm hm'
  have hino : fd.ino = fd'.ino :=
    Option.some.inj ((hs.roots p fd hfd).symm.trans (hs.roots q fd' hfd'))
  exact hs.flock _ _ _ _ _ _ hfd hfd' (fun h => hne (Prod.mk.inj h).1) hino hm hm'

theorem of_sub (hs : Solid s) (hsub : ∀ k fd, s'.fds.lookup k = some fd → s.fds.lookup k = some fd)
    (hn : s'.lockFiles.lookup .roots = s.lockFiles.lookup .roots) : Solid s' :=
  ⟨hs.flock.of_sub hsub, fun p fd hfd => hn.trans (hs.roots p fd (hsub _ _ hfd))⟩

theorem exec {e : Req} {a : e.Ans} (h : exec host p e s = some (a, s'))
    (hn : s'.lockFiles.lookup .roots = s.lockFiles.lookup .roots) (hs : Solid s) :
    Solid s' ∧ LockStep p s s' := by
  refine ⟨⟨exec_flockOk h hs.flock, fun q fd hfd => ?_⟩, ⟨fun q n hq => exec_fds_other h hq n⟩⟩
  rw [hn]
  by_cases he : ∃ r, e = .lock r
  · obtain ⟨r, rfl⟩ := he
    rcases execLock_fds h with hf | ⟨n, ino, -, hino, hf⟩ | ⟨n, fd', m, -, hfd', -, hf⟩ | ⟨n, -, hf⟩
    · exact hs.roots q fd (by rwa [hf] at hfd)
    · rw [hf] at hfd
      by_cases hk : (q, LockName.roots) = (p, n)
      · cases hk
        rw [AList.lookup_insert] at hfd
        cases hfd
        exact hino
      · exact hs.roots q fd (by rwa [AList.lookup_insert_ne hk] at hfd)
    · rw [hf] at hfd
      by_cases hk : (q, LockName.roots) = (p, n)
      · cases hk
        rw [AList.lookup_insert] at hfd
        cases hfd
        exact hs.roots _ fd' hfd'
      · exact hs.roots q fd (by rwa [AList.lookup_insert_ne hk] at hfd)
    · rw [hf] at hfd
      exact hs.roots q fd (lookup_erase_sub hfd)
  · exact hs.roots q fd (by rwa [(exec_locks_frame h fun r hr => he ⟨r, hr⟩).1] at hfd)

theorem own {n : LockName} {N : LockName → Prop} (hs : Solid s) (h : OwnFd p n s s')
    (hl : Locks N s') : Solid s' := by
  refine ⟨hl.flock, fun q fd hfd => ?_⟩
  rw [h.lockFiles]
  by_cases hk : (q, LockName.roots) = (p, n)
  · cases hk
    rcases h.ino fd hfd with hn | ⟨fd₀, hfd₀, hino⟩
    · exact hn
    · rw [← hino]
      exact hs.roots p fd₀ hfd₀
  · exact hs.roots q fd (by rwa [h.others _ hk] at hfd)

theorem leave (hs : Solid s) (p : Nat) : Solid (leave p s) ∧ LockStep p s (leave p s) := by
  have hfd := lookup_closeAll (p := p) s.fds
  refine ⟨hs.of_sub (fun k fd h => ?_) rfl, ⟨fun q n hq => ?_⟩⟩
  · have := hfd k.1 k.2
    rw [show (closeAll p s.fds).lookup (k.1, k.2) = some fd from h] at this
    split at this
    · cases this
    · exact this.symm
  · exact (hfd q n).trans (if_neg hq)

end Solid

end PocketVm.Store
