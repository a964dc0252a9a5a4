import PocketVm.Store.Lease
import PocketVm.Store.RootsRead

/-!
# Instances and the roots they name

What keeps an instance's base image: its record names a retained root, and the root names the
generation. The discipline is that of runs in which nobody removes a recorded instance, no two
processes retain one instance at a time, and no root of an instance is released while one is
registered for it.
-/

namespace PocketVm.Store

open Conc Discipline Footprint

variable (host : Host)

/-- The instance that the operation retains a run for. -/
def Op.retains : Op → Option InstanceId
  | .retainInstance _ retain _ _ => some (Instance.deriveId host retain.name)
  | _ => none

/-- The instance that the operation removes. -/
def Op.removes : Op → Option InstanceId
  | .removeInstance name => some (Instance.deriveId host name)
  | _ => none

/-- Whether the operation releases a root. -/
def Op.releases : Op → Bool
  | .releaseOrphanedRetainedCow _ => true
  | _ => false

def Retains (s : State) (p : Nat) (i : InstanceId) : Prop := Doing s p (·.retains host = some i)

def Removes (s : State) (p : Nat) (i : InstanceId) : Prop := Doing s p (·.removes host = some i)

def Releases (s : State) (p : Nat) : Prop := Doing s p (·.releases = true)

/-- Root `id` is there, for the overlay of instance `i` over generation `g`. -/
def RootOf (s : State) (id : RetainedCowId) (i : InstanceId) (g : GenerationId) : Prop :=
  ∃ r, s.retained.lookup id = some (some r) ∧ r.cowPath = .inInstance i ROOT_COW ∧
    r.generationId = g

/-- Every instance that can be read names a root of its own overlay and generation. -/
def Rooted (s : State) : Prop :=
  ∀ i inst, s.instances.lookup i = some (some inst) → RootOf s inst.retainedId i inst.generationId

/-- No process is in the way of one that retains an instance. -/
structure Serial (s : State) : Prop where
  retainers : ∀ p q i, Retains host s p i → Retains host s q i → p = q
  removers : ∀ p q i, Retains host s p i → ¬ Removes host s q i

/-- Nobody retains the instance whose overlay the root is. -/
def Unretained (s : State) (r : RetainedCow) : Prop :=
  ∀ i, r.cowPath = .inInstance i ROOT_COW → ∀ p, ¬ Retains host s p i

structure RetainStep (q : Nat) (s s' : State) : Prop where
  locks : LockStep q s s'
  live : ∀ p, p ≠ q → s'.live.lookup p = s.live.lookup p
  aliases : s'.aliases = s.aliases
  tables : s'.retained = s.retained ∧ s'.instances = s.instances ∨ Held s q .roots .exclusive
  record : ∀ i, s'.instances.lookup i = s.instances.lookup i ∨ Retains host s q i
  root : ∀ id r, s.retained.lookup id = some (some r) → s'.retained.lookup id = some (some r) ∨
    Unretained host s r ∨ ∃ i, Retains host s q i ∧ r.cowPath = .inInstance i ROOT_COW
  images : ∀ i inst, s.instances.lookup i = some (some inst) → Spares inst.generationId s s'

/-- The runs the discipline is about. A run is retained with its own overlay and, if resumed, on the
generation of its record; no other process retains or removes the instance meanwhile. A removal is
of a name without a record, and a release drops a root while nobody retains its instance. -/
def retainCond (s : State) (p : Nat) : Act Op Req → Prop
  | .start (.retainInstance output retain _ _) =>
    output.cowPath = some (.inInstance (Instance.deriveId host retain.name) ROOT_COW) ∧
    (retain.resume = true → ∀ inst,
      s.instances.lookup (Instance.deriveId host retain.name) = some (some inst) →
        inst.generationId = output.generationId) ∧
    ∀ q, ¬ Retains host s q (Instance.deriveId host retain.name) ∧
      ¬ Removes host s q (Instance.deriveId host retain.name)
  | .start (.removeInstance name) =>
    (∀ inst, s.instances.lookup (Instance.deriveId host name) ≠ some (some inst)) ∧
    ∀ q, ¬ Retains host s q (Instance.deriveId host name)
  | .start (.releaseOrphanedRetainedCow _) | .start .garbageCollect => True
  | .start _ => False
  | .run (.record (.unlinkRetained id)) =>
    Releases s p → ∀ r, s.retained.lookup id = some (some r) → Unretained host s r
  | _ => True

variable {host} {p q : Nat} {s s' : State}

theorem RetainStep.refl : RetainStep host q s s where
  locks := .refl q s
  live _ _ := rfl
  aliases := rfl
  tables := .inl ⟨rfl, rfl⟩
  record _ := .inl rfl
  root _ _ h := .inl h
  images _ _ _ d hd := ⟨d, hd, fun _ _ h => h⟩

theorem RetainStep.of_registry {fds : Table (Nat × LockName) Fd} {live : Table Nat Op}
    (hl : LockStep q s { s with fds, live })
    (hlive : ∀ p, p ≠ q → live.lookup p = s.live.lookup p) :
    RetainStep host q s { s with fds, live } where
  locks := hl
  live := hlive
  aliases := rfl
  tables := .inl ⟨rfl, rfl⟩
  record _ := .inl rfl
  root _ _ h := .inl h
  images _ _ _ d hd := ⟨d, hd, fun _ _ h => h⟩

variable (host) in
def retaining : Discipline Op Req State where
  inv s := Solid s ∧ Rooted s ∧ Serial host s
  guar := RetainStep host
  cond := retainCond host
  guar_refl _ _ := .refl

structure SameRecords (s s' : State) : Prop where
  live : s'.live = s.live
  aliases : s'.aliases = s.aliases
  retained : s'.retained = s.retained
  instances : s'.instances = s.instances

theorem SameRecords.of_own {n : LockName} (h : OwnFd p n s s') : SameRecords s s' :=
  ⟨by rw [h.eq], h.aliases, h.retained, h.instances⟩

theorem SameRecords.rooted (h : SameRecords s s') (hr : Rooted s) : Rooted s' := by
  intro i inst hi
  rw [h.instances] at hi
  obtain ⟨r, hr, hpath, hgen⟩ := hr i inst hi
  exact ⟨r, by rw [h.retained]; exact hr, hpath, hgen⟩

theorem Serial.of_doing (h : ∀ p k, Doing s' p k → Doing s p k) (hs : Serial host s) :
    Serial host s' where
  retainers p q i hp hq := hs.retainers p q i (h p _ hp) (h q _ hq)
  removers p q i hp hq := hs.removers p q i (h p _ hp) (h q _ hq)

theorem Serial.of_live (h : s'.live = s.live) (hs : Serial host s) : Serial host s' :=
  hs.of_doing fun _ _ hd => hd.of_live h

theorem SameRecords.inv (h : SameRecords s s') (hi : (retaining host).inv s) (hs : Solid s') :
    (retaining host).inv s' :=
  ⟨hs, h.rooted hi.2.1, hi.2.2.of_live h.live⟩

theorem SameRecords.step (h : SameRecords s s') (hl : LockStep q s s')
    (himg : ∀ i inst, s.instances.lookup i = some (some inst) → Spares inst.generationId s s') :
    RetainStep host q s s' where
  locks := hl
  live _ _ := by rw [h.live]
  aliases := h.aliases
  tables := .inl ⟨h.retained, h.instances⟩
  record _ := .inl (by rw [h.instances])
  root _ _ hr := .inl (by rw [h.retained]; exact hr)
  images := himg

theorem Spares.of_dirs {g : GenerationId}
    (h : s'.dirs.lookup (.final g) = s.dirs.lookup (.final g)) : Spares g s s' :=
  fun d hd => ⟨d, h.trans hd, fun _ _ hx => hx⟩

variable (host) in
theorem retaining_locking : Locking (retaining host) (· = .roots) (· = .roots) where
  locks _ h := h.1.locks
  step _ _ _ h := h.locks
  lock s p n m hi _ hn := by subst hn; exact hi.1.granted p m
  tryLock s p n hi _ hn := by subst hn; exact hi.1.granted p .exclusive
  own p n s s' _ h hi hl := by
    have hsame := SameRecords.of_own h
    exact ⟨hsame.inv hi (hi.1.own h hl), hsame.step h.lockStep fun _ _ _ =>
      .of_dirs (by rw [h.dirs])⟩

theorem retaining_attended : Attended (retaining host) := ⟨fun _ _ _ h => h.live⟩

namespace Retain

variable {op : Op} {i : InstanceId} {x : Option (Option Instance)} {id : RetainedCowId}
  {g : GenerationId} {A : Table AliasId (Option AliasRecord)}
  {T : Table RetainedCowId (Option RetainedCow)} {I : Table InstanceId (Option Instance)}

def roots (p : Nat) : Assn (retaining host) p :=
  (retaining_locking host).held p fixed_roots .exclusive

def recorded (p : Nat) (op : Op) (i : InstanceId)
    (h : op.retains host = some i ∨ op.removes host = some i)
    (x : Option (Option Instance)) : Assn (retaining host) p where
  holds s := s.live.lookup p = some op ∧ s.instances.lookup i = x
  stable q s s' hq hi _ hg hs := by
    refine ⟨(hg.live p hq.symm).trans hs.1, ?_⟩
    rcases hg.record i with he | hr
    · exact he.trans hs.2
    · rcases h with h | h
      · exact absurd (hi.2.2.retainers q p i hr ⟨op, hs.1, h⟩) hq
      · exact absurd ⟨op, hs.1, h⟩ (hi.2.2.removers q p i hr)

def rooted (p : Nat) (op : Op) (i : InstanceId) (h : op.retains host = some i) (id : RetainedCowId)
    (g : GenerationId) : Assn (retaining host) p where
  holds s := s.live.lookup p = some op ∧ RootOf s id i g
  stable q s s' hq hi _ hg hs := by
    obtain ⟨hlive, r, hr, hpath, hgen⟩ := hs
    refine ⟨(hg.live p hq.symm).trans hlive, r, ?_, hpath, hgen⟩
    rcases hg.root id r hr with hr' | hfree | ⟨j, hj, hpath'⟩
    · exact hr'
    · exact absurd ⟨op, hlive, h⟩ (hfree i hpath p)
    · cases hpath.symm.trans hpath'
      exact absurd (hi.2.2.retainers q p _ hj ⟨op, hlive, h⟩) hq

/-- All records, under the roots lock. -/
def tables (p : Nat) (A : Table AliasId (Option AliasRecord))
    (T : Table RetainedCowId (Option RetainedCow))
    (I : Table InstanceId (Option Instance)) : Assn (retaining host) p where
  holds s := Held s p .roots .exclusive ∧ s.aliases = A ∧ s.retained = T ∧ s.instances = I
  stable q s s' hq hi _ hg hs := by
    obtain ⟨hheld, hA, hT, hI⟩ := hs
    refine ⟨hg.locks.held hq.symm fixed_roots hheld, hg.aliases.trans hA, ?_⟩
    rcases hg.tables with ⟨hT', hI'⟩ | hheld'
    · exact ⟨hT'.trans hT, hI'.trans hI⟩
    · exact absurd (hheld.excludes hi.1.locks (fun _ => rfl) hheld') hq

/-- What `plain` requests leave as it is. -/
structure Still (p : Nat) (s s' : State) : Prop extends SameRecords s s' where
  roots : s'.fds.lookup (p, .roots) = s.fds.lookup (p, .roots)

theorem keeps_tables : (tables p A T I : Assn (retaining host) p).Keeps (Still p) :=
  fun _ _ h hs => ⟨hs.1.of_fixed fixed_roots h.roots, h.aliases.trans hs.2.1,
    h.retained.trans hs.2.2.1, h.instances.trans hs.2.2.2⟩

variable {r : State → State → Prop} {e : Req}

theorem keeps_recorded (hr : ∀ s s', r s s' → SameRecords s s')
    {h : op.retains host = some i ∨ op.removes host = some i} : (recorded p op i h x).Keeps r := by
  intro s s' hs hp
  exact ⟨by rw [(hr s s' hs).live]; exact hp.1, by rw [(hr s s' hs).instances]; exact hp.2⟩

theorem keeps_rooted (hr : ∀ s s', r s s' → SameRecords s s')
    {h : op.retains host = some i} : (rooted p op i h id g).Keeps r := by
  intro s s' hs hp
  refine ⟨by rw [(hr s s' hs).live]; exact hp.1, ?_⟩
  unfold RootOf
  rw [(hr s s' hs).retained]
  exact hp.2

theorem keeps_alive (hr : ∀ s s', r s s' → SameRecords s s') :
    (retaining_attended.alive p op : Assn (retaining host) p).Keeps r :=
  fun s s' hs hp => by show s'.live.lookup p = some op; rw [(hr s s' hs).live]; exact hp

/-- Neither records nor the roots lock; of the generations only those of `U`. -/
def plain (U : GenerationId → Prop) : Footprint where
  temps := True
  opens n := n ≠ .roots
  names n := n ≠ .roots
  unlinks n := n ≠ .roots
  dirs d := ∀ g, d = .final g → U g
  chmods _ := False
  keys _ := True
  aliases := False
  retained := False
  instances _ := False
  forgets _ := False

variable {U : GenerationId → Prop} {P : Assn (retaining host) p} {α : Type} {m : StoreM α}

theorem plain_still (he : (plain U).allows e) {a : e.Ans}
    (h : exec host p e s = some (a, s')) : Still p s s' where
  live := exec_live h
  aliases := frame_aliases he h not_false
  retained := frame_retained he h not_false
  instances := frame_instances he h fun _ => not_false
  roots := frame_fds he h (absurd rfl) p

theorem asks_plain (he : (plain U).allows e) (hP : P.Keeps (Still p))
    (hU : ∀ s, (retaining host).inv s → P s → ∀ i inst, s.instances.lookup i = some (some inst) →
      ¬ U inst.generationId) : Asks host P e fun _ => P where
  run s a s' hi hp _ h := by
    have hstill := plain_still he h
    obtain ⟨hsolid, hlock⟩ := hi.1.exec h (frame_names he h (absurd rfl) (absurd rfl))
    refine ⟨hstill.toSameRecords.inv hi hsolid, hstill.toSameRecords.step hlock ?_,
      hP s s' hstill hp⟩
    intro i inst hinst
    exact .of_dirs (frame_dirs he h (fun hd => hU s hi hp i inst hinst (hd _ rfl)) not_false)
  fault _ _ hp _ _ := hp

theorem Spec.plain (hm : (plain U).Within m) (hP : P.Keeps (Still p))
    (hU : ∀ s, (retaining host).inv s → P s → ∀ i inst, s.instances.lookup i = some (some inst) →
      ¬ U inst.generationId) : Spec host P m (fun _ => P) fun _ => P :=
  Spec.keeps hm fun _ he => asks_plain he hP hU

theorem Spec.mild (hm : (Retain.plain fun _ => False).Within m) (hP : P.Keeps (Still p)) :
    Spec host P m (fun _ => P) fun _ => P :=
  Spec.plain hm hP fun _ _ _ _ _ _ => not_false

theorem spec_writeTemp (area : Area) (hP : P.Keeps (Still p)) :
    Spec host P (ask "create regular file" (.temp (.write area))) (fun _ => P) fun _ => P :=
  Spec.mild (.ask (e := .temp (.write area)) trivial) hP

theorem spec_withRoots {β : Type} {body : StoreM β} {Q : β → Assn (retaining host) p}
    {X : StoreError → Assn (retaining host) p} (hP : P.Keeps SameRecords)
    (hQ : ∀ a, (Q a).Keeps SameRecords) (hX : ∀ e, (X e).Keeps SameRecords)
    (hPX : ∀ e s, P s → X e s) (hb : ∀ A T I, Spec host (P ⊓ tables p A T I) body Q X) :
    Spec host P (withRoots .exclusive body) Q X := by
  have hown : ∀ s s', OwnFd p .roots s s' → SameRecords s s' := fun _ _ => SameRecords.of_own
  refine (retaining_locking host).spec_withRoots (J := P ⊓ roots p) rfl
    (fun s s' h => hP s s' (hown s s' h)) (fun a s s' h => hQ a s s' (hown s s' h))
    (fun e s s' h => hX e s s' (hown s s' h)) hPX
    (fun s s' _ hs _ h hheld => ⟨hP s s' (hown s s' h) hs, hheld⟩) ?_
  refine .pre (.of_any (P := fun t : Table AliasId (Option AliasRecord) ×
    Table RetainedCowId (Option RetainedCow) × Table InstanceId (Option Instance) =>
    P ⊓ tables p t.1 t.2.1 t.2.2) fun t => hb t.1 t.2.1 t.2.2) fun s _ hs => ?_
  exact ⟨(s.aliases, s.retained, s.instances), hs.1, hs.2, rfl, rfl, rfl⟩

end Retain

end PocketVm.Store

/-! ### The operations on instances keep every instance rooted -/

namespace PocketVm.Store

open Conc Discipline Footprint

namespace Retain

variable {host : Host} {p : Nat} {s s' : State} {op : Op} {i : InstanceId}
  {x : Option (Option Instance)} {id : RetainedCowId} {g : GenerationId} {t : TempName}
  {A : Table AliasId (Option AliasRecord)} {T : Table RetainedCowId (Option RetainedCow)}
  {I : Table InstanceId (Option Instance)}

/-- A step that writes records only. -/
structure Writes (s s' : State) : Prop where
  eq : s' = { s with temps := s'.temps, retained := s'.retained, instances := s'.instances }

theorem Writes.inv (h : Writes s s') (hi : (retaining host).inv s) (hr : Rooted s') :
    (retaining host).inv s' := by
  have hfds : s'.fds = s.fds := by rw [h.eq]
  have hnames : s'.lockFiles = s.lockFiles := by rw [h.eq]
  have hlive : s'.live = s.live := by rw [h.eq]
  exact ⟨hi.1.of_sub (fun k fd hk => by rwa [hfds] at hk) (by rw [hnames]), hr,
    hi.2.2.of_live hlive⟩

theorem Writes.step (h : Writes s s') (hheld : Held s p .roots .exclusive)
    (hrecord : ∀ j, s'.instances.lookup j = s.instances.lookup j ∨ Retains host s p j)
    (hroot : ∀ id r, s.retained.lookup id = some (some r) → s'.retained.lookup id = some (some r) ∨
      Unretained host s r ∨ ∃ i, Retains host s p i ∧ r.cowPath = .inInstance i ROOT_COW) :
    RetainStep host p s s' where
  locks := ⟨fun _ _ _ => by rw [h.eq]⟩
  live _ _ := by rw [h.eq]
  aliases := by rw [h.eq]
  tables := .inr hheld
  record := hrecord
  root := hroot
  images _ _ _ := .of_dirs (by rw [h.eq])

theorem add_root {r : RetainedCow} (hi : (retaining host).inv s)
    (hheld : Held s p .roots .exclusive) (hn : s.retained.lookup r.id = none) :
    let s' := { s with temps := s.temps.erase t, retained := s.retained.insert r.id (some r) }
    (retaining host).inv s' ∧ RetainStep host p s s' := by
  intro s'
  have hkeep : ∀ id r', s.retained.lookup id = some (some r') →
    s'.retained.lookup id = some (some r') := by
    intro id r' h
    have hne : id ≠ r.id := by
      rintro rfl
      rw [hn] at h
      cases h
    exact (AList.lookup_insert_ne hne).trans h
  refine ⟨Writes.inv ⟨rfl⟩ hi fun j inst hj => ?_,
    Writes.step ⟨rfl⟩ hheld (fun _ => .inl rfl) fun id r' h => .inl (hkeep id r' h)⟩
  obtain ⟨r', hr', hpath, hgen⟩ := hi.2.1 j inst hj
  exact ⟨r', hkeep _ r' hr', hpath, hgen⟩

theorem set_record {r : Instance} (hi : (retaining host).inv s) (hheld : Held s p .roots .exclusive)
    (hret : Retains host s p i) (hroot : RootOf s r.retainedId i r.generationId) :
    let s' := { s with temps := s.temps.erase t, instances := s.instances.insert i (some r) }
    (retaining host).inv s' ∧ RetainStep host p s s' := by
  refine ⟨Writes.inv ⟨rfl⟩ hi fun j inst' hj => ?_, Writes.step ⟨rfl⟩ hheld (fun j => ?_)
    fun id r' h => .inl h⟩
  · by_cases hji : j = i
    · subst hji
      cases (AList.lookup_insert _).symm.trans hj
      exact hroot
    · exact hi.2.1 j inst' ((AList.lookup_insert_ne hji).symm.trans hj)
  · by_cases hji : j = i
    · subst hji
      exact .inr hret
    · exact .inl (AList.lookup_insert_ne hji)

theorem drop_root (hi : (retaining host).inv s) (hheld : Held s p .roots .exclusive)
    (hfree : ∀ j inst, s.instances.lookup j = some (some inst) → inst.retainedId ≠ id)
    (hby : ∀ r, s.retained.lookup id = some (some r) →
      Unretained host s r ∨ ∃ i, Retains host s p i ∧ r.cowPath = .inInstance i ROOT_COW) :
    let s' := { s with retained := s.retained.erase id }
    (retaining host).inv s' ∧ RetainStep host p s s' := by
  refine ⟨Writes.inv ⟨rfl⟩ hi fun j inst hj => ?_, Writes.step ⟨rfl⟩ hheld (fun _ => .inl rfl)
    fun id' r h => ?_⟩
  · obtain ⟨r, hr, hpath, hgen⟩ := hi.2.1 j inst hj
    exact ⟨r, (AList.lookup_erase_ne (hfree j inst hj)).trans hr, hpath, hgen⟩
  · by_cases hid : id' = id
    · subst hid
      exact .inr (hby r h)
    · exact .inl ((AList.lookup_erase_ne hid).trans h)

section
variable (hop : op.retains host = some i)
include hop

theorem spec_renameRetained {r : RetainedCow} (hpath : r.cowPath = .inInstance i ROOT_COW)
    (hn : T.lookup r.id = none) :
    Spec host (recorded p op i (.inl hop) x ⊓ tables p A T I) (renameRetained t r)
      (fun _ => recorded p op i (.inl hop) x ⊓ rooted p op i hop r.id r.generationId)
      fun _ => recorded p op i (.inl hop) x ⊓ tables p A T I := by
  have hadd : ∀ s, (retaining host).inv s → (recorded p op i (.inl hop) x ⊓ tables p A T I) s →
      let s' := { s with temps := s.temps.erase t, retained := s.retained.insert r.id (some r) }
      (retaining host).inv s' ∧ RetainStep host p s s' ∧
        (recorded p op i (.inl hop) x ⊓ rooted p op i hop r.id r.generationId) s' := by
    intro s hi hs
    obtain ⟨hinv, hstep⟩ := add_root (t := t) (r := r) hi hs.2.1 (by rw [hs.2.2.2.1]; exact hn)
    exact ⟨hinv, hstep, hs.1, hs.1.1, r, AList.lookup_insert _, hpath, rfl⟩
  refine Spec.renameNoReplace (C := recorded p op i (.inl hop) x ⊓ tables p A T I)
    (Spec.sys (asks_linkRetained fun s hi hs _ => hadd s hi hs))
    (fun _ _ h => h) (fun _ _ _ h => h) ?_ (Spec.ask (asks_replaceRetained hadd))
  refine .bind (Spec.sys (Asks.reads trivial)) fun a => ?_
  split
  · exact .pure fun _ _ h => h
  · exact .pure fun _ _ h => h
  · exact .throw fun _ _ h => h

/-- A root found under its identifier is the one registered, or the routine fails. -/
theorem spec_confirmRetained {r : RetainedCow} {e : StoreError}
    (hpath : r.cowPath = .inInstance i ROOT_COW) :
    ∀ existing, T.lookup r.id = some (some existing) →
      Spec host (recorded p op i (.inl hop) x ⊓ tables p A T I)
        (do require (existing = r) e; return existing)
        (fun r' => recorded p op i (.inl hop) x ⊓ rooted p op i hop r'.id r.generationId)
        fun _ => recorded p op i (.inl hop) x := by
  intro existing hfound
  refine .bind (J := fun _ => recorded p op i (.inl hop) x ⊓ tables p A T I ⊓ .fact (existing = r))
    (Spec.require (fun he _ _ hs => ⟨hs, he⟩) fun _ _ _ hs => hs.1) fun _ => .of_fact fun he =>
    .pure fun s _ hs => ?_
  subst he
  exact ⟨hs.1, hs.1.1, existing, by rw [hs.2.2.2.1]; exact hfound, hpath, rfl⟩

theorem spec_registerRetainedCow {digest : Digest} {state : RetainedCowState} :
    Spec host (recorded p op i (.inl hop) x)
      (registerRetainedCow host g (.inInstance i ROOT_COW) digest state)
      (fun r => recorded p op i (.inl hop) x ⊓ rooted p op i hop r.id g) fun _ =>
        recorded p op i (.inl hop) x := by
  have hkeep : (recorded p op i (.inl hop) x).Keeps SameRecords := keeps_recorded fun _ _ h => h
  refine .bind (Spec.looks (within_hashOverlay host _)) fun ⟨found, size⟩ => ?_
  refine .bind (J := fun _ => recorded p op i (.inl hop) x)
    (Spec.require (fun _ _ _ h => h) fun _ _ _ h => h) fun _ => ?_
  refine spec_withRoots hkeep (fun r => hkeep.inf (keeps_rooted fun _ _ h => h)) (fun _ => hkeep)
    (fun _ _ h => h) fun A T I => ?_
  refine .bind ((Spec.looks (within_verifyGeneration host g)).err fun _ _ _ h => h.1) fun _ => ?_
  have hplain : (recorded p op i (.inl hop) x ⊓ tables p A T I).Keeps (Still p) :=
    (keeps_recorded fun _ _ h => h.toSameRecords).inf keeps_tables
  refine .bind (Spec.attempt (spec_readRetained (x := T.lookup _) fun s hs => by rw [hs.2.2.2.1]))
    fun a => ?_
  split
  · exact .of_fact fun hfound => spec_confirmRetained hop rfl _ hfound.1
  · refine .of_fact fun hn => .bind ((spec_writeTemp _ hplain).err fun _ _ _ h => h.1) fun t => ?_
    refine .bind (Spec.attempt (spec_renameRetained hop rfl (hn rfl))) fun a => ?_
    have hdrop : Spec host (recorded p op i (.inl hop) x ⊓ tables p A T I)
        (attempt (unlinkTemp t)) (fun _ => recorded p op i (.inl hop) x ⊓ tables p A T I)
        fun _ => recorded p op i (.inl hop) x :=
      (Spec.attempt (Spec.mild (within_unlinkTemp trivial t) hplain)).post fun a _ _ h => by
        cases a <;> exact h
    split
    · refine .bind ((Spec.syncAll _).err fun _ _ _ h => h.1) fun _ => .pure fun _ _ h => h
    · refine .bind hdrop fun _ => ?_
      refine .bind ((spec_readRetained (x := T.lookup _) fun s hs => by rw [hs.2.2.2.1]).err
        fun _ _ _ h => h.1.1) fun existing => .of_fact fun hfound =>
        spec_confirmRetained hop rfl _ hfound.1
    · exact .bind hdrop fun _ => .throw fun _ _ h => h.1
  · exact .throw fun _ _ h => h.1.1

variable {r : Instance} {R : Assn (retaining host) p} {name : String} {finished : UInt64}
  {outcome : InstanceOutcome}

theorem set_recorded
    (hR : R.Keeps fun s s' => s'.live = s.live ∧ s'.retained = s.retained)
    (hg : r.generationId = g) :
    ∀ s, (retaining host).inv s →
      (recorded p op i (.inl hop) x ⊓ rooted p op i hop r.retainedId g ⊓ R ⊓ tables p A T I) s →
      let s' := { s with temps := s.temps.erase t, instances := s.instances.insert i (some r) }
      (retaining host).inv s' ∧ RetainStep host p s s' ∧
        (recorded p op i (.inl hop) (some (some r)) ⊓ R) s' := by
  intro s hi hs
  obtain ⟨⟨⟨hrec, hroot⟩, hr⟩, htab⟩ := hs
  obtain ⟨hinv, hstep⟩ := set_record (t := t) (r := r) hi htab.1 ⟨op, hrec.1, hop⟩ (hg ▸ hroot.2)
  exact ⟨hinv, hstep, ⟨hrec.1, AList.lookup_insert _⟩, hR s _ ⟨rfl, rfl⟩ hr⟩

theorem spec_renameInstance (hi : r.id = i) (hid : r.retainedId = id) (hg : r.generationId = g) :
    Spec host (recorded p op i (.inl hop) x ⊓ rooted p op i hop id g ⊓ tables p A T I)
      (renameInstance t r) (fun _ => ⊤) fun _ => ⊤ := by
  subst hi hid hg
  have hset : ∀ s, (retaining host).inv s → (recorded p op r.id (.inl hop) x ⊓
      rooted p op r.id hop r.retainedId r.generationId ⊓ tables p A T I) s →
      let s' := { s with temps := s.temps.erase t, instances := s.instances.insert r.id (some r) }
      (retaining host).inv s' ∧ RetainStep host p s s' ∧ (⊤ : Assn (retaining host) p) s' := by
    intro s hi hs
    obtain ⟨hinv, hstep, -⟩ := set_recorded (t := t) (r := r) hop (R := ⊤) .top rfl s hi
      ⟨⟨hs.1, trivial⟩, hs.2⟩
    exact ⟨hinv, hstep, trivial⟩
  refine Spec.renameNoReplace
    (Spec.sys (asks_linkInstance fun s hi hs _ => hset s hi hs))
    (fun _ _ _ => trivial) (fun _ _ _ _ => trivial) ?_
    (Spec.ask ((asks_replaceInstance hset).imp ?_))
  · refine .bind (Spec.sys (Asks.reads trivial)) fun a => ?_
    split
    · exact .pure fun _ _ _ => trivial
    · exact .pure fun _ _ h => h
    · exact .throw fun _ _ _ => trivial
  · intro a s
    cases a <;> exact fun _ => trivial

theorem spec_createInstance {retain : RetainRequest} {created : UInt64}
    (hi : i = Instance.deriveId host name) :
    Spec host (recorded p op i (.inl hop) x ⊓ rooted p op i hop id g)
      (createInstance host name g id retain created finished outcome) (fun _ => ⊤) fun _ => ⊤ := by
  subst hi
  have hkeep : (recorded p op _ (.inl hop) x ⊓ rooted p op _ hop id g).Keeps SameRecords :=
    (keeps_recorded fun _ _ h => h).inf (keeps_rooted fun _ _ h => h)
  refine .bind (J := fun _ => recorded p op _ (.inl hop) x ⊓ rooted p op _ hop id g)
    (Spec.ofExcept (fun _ _ _ _ h => h) fun _ _ _ _ _ => trivial) fun _ => ?_
  refine .bind (J := fun _ => recorded p op _ (.inl hop) x ⊓ rooted p op _ hop id g)
    (Spec.require (fun _ _ _ h => h) fun _ _ _ _ => trivial) fun _ => ?_
  refine .bind (J := fun _ => recorded p op _ (.inl hop) x ⊓ rooted p op _ hop id g)
    (Spec.require (fun _ _ _ h => h) fun _ _ _ _ => trivial) fun _ => ?_
  refine spec_withRoots hkeep (fun _ => .top) (fun _ => .top) (fun _ _ _ => trivial) fun A T I => ?_
  have hplain : (recorded p op _ (.inl hop) x ⊓ rooted p op _ hop id g ⊓
    tables p A T I).Keeps (Still p) :=
    ((keeps_recorded fun _ _ h => h.toSameRecords).inf
      (keeps_rooted fun _ _ h => h.toSameRecords)).inf keeps_tables
  refine .bind ((Spec.mild (within_writeInstance host trivial _) hplain).err fun _ _ _ _ =>
    trivial) fun t => ?_
  refine .bind (J := fun _ => ⊤)
    ((Spec.attempt (spec_renameInstance hop (by rfl) (by rfl) (by rfl))).post
      fun a _ _ _ => trivial)
    fun a => ?_
  have hdrop : Spec host (⊤ : Assn (retaining host) p) (attempt (unlinkTemp t)) (fun _ =>
    ⊤) fun _ => ⊤ :=
    Spec.mild (.attempt (within_unlinkTemp trivial t)) .top
  split
  · exact .bind (Spec.syncAll _) fun _ => .pure fun _ _ h => h
  · exact .bind hdrop fun _ => .throw fun _ _ h => h
  · exact .bind hdrop fun _ => .throw fun _ _ h => h

theorem spec_updateInstance (hi : i = Instance.deriveId host name)
    (hR : R.Keeps fun s s' => s'.live = s.live ∧ s'.retained = s.retained)
    (hx : ∀ inst, x = some (some inst) → inst.generationId = g) :
    Spec host (recorded p op i (.inl hop) x ⊓ rooted p op i hop id g ⊓ R)
      (updateInstance host name id finished outcome)
      (fun inst => recorded p op i (.inl hop) (some (some inst)) ⊓ R ⊓ .fact (inst.retainedId = id))
        fun _ => ⊤ := by
  subst hi
  have hR' : R.Keeps SameRecords := fun s s' h => hR s s' ⟨h.live, h.retained⟩
  have hkeep : (recorded p op _ (.inl hop) x ⊓ rooted p op _ hop id g ⊓ R).Keeps SameRecords :=
    ((keeps_recorded fun _ _ h => h).inf (keeps_rooted fun _ _ h => h)).inf hR'
  refine .bind (J := fun _ => recorded p op _ (.inl hop) x ⊓ rooted p op _ hop id g ⊓ R)
    (Spec.ofExcept (fun _ _ _ _ h => h) fun _ _ _ _ _ => trivial) fun _ => ?_
  refine spec_withRoots hkeep
    (fun inst => ((keeps_recorded fun _ _ h => h).inf hR').inf .fact) (fun _ => .top)
    (fun _ _ _ => trivial) fun A T I => ?_
  have hplain : (recorded p op _ (.inl hop) x ⊓ rooted p op _ hop id g ⊓ R ⊓
    tables p A T I).Keeps (Still p) :=
    (Assn.Keeps.inf (fun s s' h => hkeep s s' h.toSameRecords) keeps_tables)
  have hrec : ∀ s, (recorded p op _ (.inl hop) x ⊓ rooted p op _ hop id g ⊓ R ⊓ tables p A T I) s →
      s.instances.lookup (Instance.deriveId host name) = x := fun s hs => hs.1.1.1.2
  refine .bind ((spec_readInstance hrec).err fun _ _ _ _ => trivial)
    fun previous => .of_fact fun hprev => ?_
  refine .bind ((Spec.mild (within_writeInstance host trivial _) hplain).err fun _ _ _ _ =>
    trivial) fun t => ?_
  refine .bind (Spec.ask ((asks_replaceInstance (set_recorded hop hR
      (r := { previous with retainedId := id, finishedUnix := finished, outcome })
      (hx previous hprev.1))).imp ?_))
    fun _ => .bind ((Spec.syncAll _).err fun _ _ _ _ => trivial) fun _ =>
      .pure fun _ _ h => ⟨h, rfl⟩
  intro a s
  cases a
  · exact fun _ => trivial
  · exact fun h => h

theorem spec_dropRoot (hne : r.retainedId ≠ id) :
    Spec host (recorded p op i (.inl hop) (some (some r)) ⊓ rooted p op i hop id g)
      (dropRoot host id) (fun _ => ⊤) fun _ => ⊤ := by
  have hdrop : ∀ A T I s, (retaining host).inv s →
      (recorded p op i (.inl hop) (some (some r)) ⊓ rooted p op i hop id g ⊓ tables p A T I) s →
      let s' := { s with retained := s.retained.erase id }
      (retaining host).inv s' ∧ RetainStep host p s s' ∧ (⊤ : Assn (retaining host) p) s' := by
    intro A T I s hi hs
    obtain ⟨⟨hrec, -, r₀, hr₀, hpath, -⟩, htab⟩ := hs
    have hfree : ∀ j inst, s.instances.lookup j = some (some inst) → inst.retainedId ≠ id := by
      -- a record that names the root lies at the instance of the root's path
      rintro j inst hj rfl
      obtain ⟨r₁, hr₁, hpath', -⟩ := hi.2.1 j inst hj
      cases hr₁.symm.trans hr₀
      cases hpath.symm.trans hpath'
      cases hrec.2.symm.trans hj
      exact hne rfl
    obtain ⟨hinv, hstep⟩ := drop_root hi htab.1 hfree fun r' hr' => by
      cases hr₀.symm.trans hr'
      exact .inr ⟨i, ⟨op, hrec.1, hop⟩, hpath⟩
    exact ⟨hinv, hstep, trivial⟩
  have hremove : Spec host (recorded p op i (.inl hop) (some (some r)) ⊓ rooted p op i hop id g)
      (removeRetainedCow host id) (fun _ => ⊤) fun _ => ⊤ := by
    refine spec_withRoots ((keeps_recorded fun _ _ h => h).inf (keeps_rooted fun _ _ h => h))
      (fun _ => .top) (fun _ => .top) (fun _ _ _ => trivial) fun A T I => ?_
    refine .bind ((Spec.looks (within_readRetained host id)).err fun _ _ _ _ =>
      trivial) fun r' => ?_
    refine .bind (Spec.ask ((asks_unlinkRetained fun s hi hs _ => hdrop A T I s hi hs).imp ?_)) fun _ =>
      .bind (Spec.syncAll _) fun _ => .pure fun _ _ h => h
    intro a s
    cases a <;> exact fun _ => trivial
  refine .bind (J := fun _ => ⊤) ((Spec.attempt hremove).post fun _ _ _ _ => trivial) fun a => ?_
  split
  · exact .pure fun _ _ h => h
  · exact .pure fun _ _ h => h
  · exact .throw fun _ _ h => h

omit hop in
theorem spec_readInstanceByName
    {hrec : op.retains host = some i ∨ op.removes host = some i}
    (hi : i = Instance.deriveId host name)
    (hR : R.Keeps SameRecords) :
    Spec host (recorded p op i hrec x ⊓ R) (readInstanceByName host name)
      (fun r => recorded p op i hrec x ⊓ R ⊓ .fact (x = some (some r))) fun _ => ⊤ := by
  subst hi
  have hkeep : (recorded p op _ hrec x ⊓ R).Keeps (OwnFd p .roots) := fun s s' h hs =>
    ⟨keeps_recorded (fun _ _ h => SameRecords.of_own h) s s' h hs.1, hR s s' (.of_own h) hs.2⟩
  have hrec' : ∀ s, (recorded p op _ hrec x ⊓ R) s →
      s.instances.lookup (Instance.deriveId host name) = x := fun s hs => hs.1.2
  refine .bind (J := fun _ => recorded p op _ hrec x ⊓ R)
    (Spec.ofExcept (fun _ _ _ _ h => h) fun _ _ _ _ _ => trivial) fun _ => ?_
  refine (retaining_locking host).spec_withRoots (J := recorded p op _ hrec x ⊓ R) rfl hkeep
    (fun r => hkeep.inf .fact) (fun _ => .top) (fun _ _ _ => trivial)
    (fun s s' _ hs _ h _ => hkeep s s' h hs) ?_
  exact (spec_readInstance hrec').conseq (fun _ _ h => h) (fun r _ _ h => ⟨h.1, h.2.1⟩)
    fun _ _ _ _ => trivial

theorem spec_rewriteInstance (hi : i = Instance.deriveId host name)
    (hx : ∀ r, x = some (some r) → r.generationId = g) :
    Spec host (recorded p op i (.inl hop) x ⊓ rooted p op i hop id g)
      (rewriteInstance host name id finished outcome) (fun _ => ⊤) fun _ => ⊤ := by
  refine .bind (spec_readInstanceByName hi (keeps_rooted fun _ _ h => h)) fun previous =>
    .of_fact fun hprev => ?_
  -- the root of the record as it was is there until this process drops it
  have hold : ∀ s, (retaining host).inv s →
    (recorded p op i (.inl hop) x ⊓ rooted p op i hop id g) s →
      (recorded p op i (.inl hop) x ⊓ rooted p op i hop id g ⊓
        rooted p op i hop previous.retainedId previous.generationId) s := fun s hi hs =>
    ⟨hs, hs.1.1, hi.2.1 i previous (hs.1.2.trans hprev)⟩
  refine .pre (.bind (spec_updateInstance hop hi (fun s s' h hs => ?_) hx) fun updated =>
    .of_fact fun hroot => Spec.ite' (fun _ => .pure fun _ _ _ => trivial) fun hne => ?_) hold
  · refine ⟨by rw [h.1]; exact hs.1, ?_⟩
    unfold RootOf
    rw [h.2]
    exact hs.2
  · refine .bind (spec_dropRoot hop fun he => hne ?_) fun _ => .pure fun _ _ h => h
    rw [← he, hroot]

theorem spec_retainInstance {output : RunOutput} {retain : RetainRequest} {created : UInt64}
    (hi : i = Instance.deriveId host retain.name)
    (hpath : output.cowPath = some (.inInstance i ROOT_COW))
    (hx : retain.resume = true → ∀ r, x = some (some r) → r.generationId = output.generationId) :
    Spec host (recorded p op i (.inl hop) x) (retainInstance host output retain created finished)
      (fun _ => ⊤) fun _ => ⊤ := by
  have hplain : (recorded p op i (.inl hop) x).Keeps (Still p) :=
    keeps_recorded fun _ _ h => h.toSameRecords
  have hclose : Asks host (⊤ : Assn (retaining host) p)
    (.lock (.close (.lease output.generationId)))
      fun _ => ⊤ :=
    asks_plain (U := fun _ => False) (e := .lock (.close _)) nofun .top fun _ _ _ _ _ _ => not_false
  unfold retainInstance
  rw [hpath]
  refine .bind ((Spec.looks (within_openOverlay _)).err fun _ _ _ _ => trivial) fun f => ?_
  split
  · refine .bind ((Spec.mild (within_acquireLease host trivial nofun nofun) hplain).err
      fun _ _ _ _ => trivial) fun _ => ?_
    refine Spec.holding (.bind ((spec_registerRetainedCow hop).err fun _ _ _ _ =>
      trivial) fun r => ?_)
      (fun _ => hclose) fun _ => hclose
    exact Spec.ite' (fun hres => spec_rewriteInstance hop hi (hx hres))
      fun _ => spec_createInstance hop hi
  · exact .throw fun _ _ _ => trivial

end

end Retain

end PocketVm.Store
