import PocketVm.Store.Locks

/-!
# The lease discipline

What the processes that lease, publish and collect generations agree on. A lease file's name keeps
its meaning except that a collector, holding the roots lock and the lock of the generation's key,
may unlink it once the generation is gone; files of a generation go only by a process that holds
the roots lock and the generation's lease exclusively; a generation appears only by a process that
holds the lock of its key.

`bare` is whether `acquire_lease`, which holds neither of these locks, runs as well.
-/

namespace PocketVm.Store

open DirName List Conc Discipline

variable {s : State} {g : GenerationId}

/-- Generation `g` stands under its final name. -/
def Present (s : State) (g : GenerationId) : Prop := ∃ d, s.dirs.lookup (.final g) = some d

theorem present_iff_mem_keys : Present s g ↔ DirName.final g ∈ s.dirs.keys := by
  rw [← AList.mem_keys, ← AList.lookup_isSome, Option.isSome_iff_exists]
  rfl

theorem DirName.asFinal_eq_some {d : DirName} : d.asFinal = some g ↔ d = .final g := by
  cases d <;> simp [asFinal]

theorem mem_finals : g ∈ s.dirs.keys.filterMap asFinal ↔ Present s g := by
  simp only [mem_filterMap, asFinal_eq_some, exists_eq_right, present_iff_mem_keys]

theorem mem_generations {d : DirName} (h : d ∈ s.generations) : d ∈ s.dirs.keys := by
  simp only [State.generations, mem_append, mem_filter, mem_map,
    mem_insertionSort, mem_finals] at h
  rcases h with (⟨h, -⟩ | ⟨g, hg, rfl⟩) | ⟨h, -⟩
  · exact h
  · exact present_iff_mem_keys.mp hg
  · exact h

theorem final_mem_generations : DirName.final g ∈ s.generations ↔ Present s g := by
  refine ⟨fun h => present_iff_mem_keys.mpr (mem_generations h), fun h => ?_⟩
  simp only [State.generations, mem_append, mem_map, mem_insertionSort, mem_finals]
  exact .inl (.inr ⟨g, h, rfl⟩)

theorem nodup_finals (s : State) : (s.dirs.keys.filterMap asFinal).Nodup := by
  refine s.dirs.keys_nodup.filterMap fun d d' g hd hd' => ?_
  rw [asFinal_eq_some.mp hd, asFinal_eq_some.mp hd']

theorem filterMap_generations (s : State) : s.generations.filterMap asFinal =
    (s.dirs.keys.filterMap asFinal).insertionSort fun i j => i.le j := by
  have hnone : ∀ (l : List DirName) (f : DirName → Bool), (∀ d, f d = true → d.asFinal = none) →
      (l.filter f).filterMap asFinal = [] := by
    intro l f hf
    rw [filterMap_eq_nil_iff]
    exact fun d hd => hf d (mem_filter.mp hd).2
  rw [State.generations, filterMap_append, filterMap_append,
    hnone _ _ (by intro d; cases d <;> simp [isPublication, asFinal]),
    hnone _ _ (by intro d; cases d <;> simp [isStrayGeneration, asFinal]),
    append_nil, filterMap_map]
  exact filterMap_some

theorem nodup_filterMap_generations (s : State) : (s.generations.filterMap asFinal).Nodup := by
  rw [filterMap_generations]
  exact (perm_insertionSort _ _).nodup_iff.mpr (nodup_finals s)

theorem candidates_ok {names : List DirName} {ids : List GenerationId} {temps : List StageName}
    (h : candidates names = .ok (ids, temps)) : ids = names.filterMap asFinal := by
  induction names generalizing ids temps with
  | nil => cases h; rfl
  | cons d names ih =>
    cases d with
    | final id =>
      cases hc : candidates names with
      | error e => rw [candidates, hc] at h; cases h
      | ok r =>
        rw [candidates, hc] at h
        cases h
        rw [ih hc]; rfl
    | publication stage =>
      cases hc : candidates names with
      | error e => rw [candidates, hc] at h; cases h
      | ok r =>
        rw [candidates, hc] at h
        cases h
        rw [ih hc]; rfl
    | _ => cases h

def OwnsKey (host : Host) (s : State) (q : Nat) (g : GenerationId) : Prop :=
  ∃ k, HasKey host g k ∧ Held s q (.derivation k) .exclusive

structure Consistent (s : State) : Prop where
  lease : ∀ g, Present s g → ∃ i, s.lockFiles.lookup (.lease g) = some i
  aliased : ∀ a r, s.aliases.lookup a = some (some r) → Present s r.generationId
  retained : ∀ i r, s.retained.lookup i = some (some r) → Present s r.generationId

/-- The generation is there after the step, with every file it had. -/
def Spares (g : GenerationId) (s s' : State) : Prop :=
  ∀ d, s.dirs.lookup (.final g) = some d → ∃ d', s'.dirs.lookup (.final g) = some d' ∧
    ∀ f x, d.files.lookup f = some x → d'.files.lookup f = some x

structure LeaseStep (host : Host) (bare : Prop) (q : Nat) (s s' : State) : Prop where
  locks : LockStep q s s'
  kept : ∀ g i, s.lockFiles.lookup (.lease g) = some i → s'.lockFiles.lookup (.lease g) = some i ∨
    ¬ Present s g ∧ ¬ Present s' g ∧ Held s q .roots .exclusive ∧ OwnsKey host s q g
  made : ∀ g, s.lockFiles.lookup (.lease g) = none → s'.lockFiles.lookup (.lease g) ≠ none →
    bare ∨ OwnsKey host s q g
  files : ∀ g, Spares g s s' ∨ Held s q .roots .exclusive ∧ Held s q (.lease g) .exclusive
  created : ∀ g, ¬ Present s g → Present s' g → OwnsKey host s q g ∧
    (bare → ∀ p fd, s.fds.lookup (p, .lease g) = some fd →
      s.lockFiles.lookup (.lease g) = some fd.ino)
  roots : s'.aliases = s.aliases ∧ s'.retained = s.retained ∨ Held s q .roots .exclusive

variable {host : Host} {bare : Prop} {p q : Nat} {s s' : State} {g : GenerationId}

structure SameLeases (s s' : State) : Prop where
  lockFiles : ∀ g, s'.lockFiles.lookup (.lease g) = s.lockFiles.lookup (.lease g)
  finals : ∀ g, s'.dirs.lookup (.final g) = s.dirs.lookup (.final g)
  aliases : s'.aliases = s.aliases
  retained : s'.retained = s.retained

theorem SameLeases.present (h : SameLeases s s') : Present s' g ↔ Present s g := by
  unfold Present
  rw [h.finals]

theorem SameLeases.consistent (h : SameLeases s s') (hs : Consistent s) : Consistent s' where
  lease g hg := by rw [h.lockFiles]; exact hs.lease g (h.present.mp hg)
  aliased a r hr := h.present.mpr (hs.aliased a r (h.aliases ▸ hr))
  retained i r hr := h.present.mpr (hs.retained i r (h.retained ▸ hr))

theorem SameLeases.step (h : SameLeases s s') (hl : LockStep q s s') :
    LeaseStep host bare q s s' where
  locks := hl
  kept g i hi := .inl (by rw [h.lockFiles]; exact hi)
  made g hn hn' := absurd (by rw [h.lockFiles]; exact hn) hn'
  files g := .inl fun d hd => ⟨d, by rw [h.finals]; exact hd, fun _ _ hf => hf⟩
  created g hn hp := absurd (h.present.mp hp) hn
  roots := .inl ⟨h.aliases, h.retained⟩

theorem SameLeases.of_own {n : LockName} (h : OwnFd p n s s') : SameLeases s s' :=
  ⟨fun _ => by rw [h.lockFiles], fun _ => by rw [h.dirs], h.aliases, h.retained⟩

variable (host bare)

/-- The operations of the runs with leases; `acquire_lease` alone where `bare` holds. -/
def leaseOp : Op → Prop
  | .build _ | .leaseAlias _ | .leaseRetainedCow _ | .setAlias _ _ | .registerRetainedCow _ _ _ _
  | .garbageCollect | .recover => True
  | .acquireLease _ => bare
  | _ => False

/-- The steps the discipline is about: the roots and derivation locks are granted as named. Where
`acquire_lease` runs, also no lease file is replaced, and a generation does not appear while a
process has another lease file of it open. -/
def leaseCond (s : State) (p : Nat) : Act Op Req → Prop
  | .start op => leaseOp bare op
  | .run (.lock (.lock n m)) => fixed n → GrantedAsNamed s p n m
  | .run (.lock (.tryLock n)) => fixed n → GrantedAsNamed s p n .exclusive
  | .run (.lock (.replace _ (.lease g))) => bare → s.lockFiles.lookup (.lease g) = none
  | .run (.dir (.link _ (.final g))) | .run (.dir (.replace _ (.final g))) =>
    bare → ∀ q fd, s.fds.lookup (q, .lease g) = some fd →
      s.lockFiles.lookup (.lease g) = some fd.ino
  | _ => True

def leases : Discipline Op Req State where
  inv s := Locks fixed s ∧ Consistent s
  guar := LeaseStep host bare
  cond := leaseCond bare
  guar_refl p _ := SameLeases.step ⟨fun _ => rfl, fun _ => rfl, rfl, rfl⟩ (.refl p _)

theorem leases_locking : Locking (leases host bare) fixed fun _ => True where
  locks _ h := h.1
  step _ _ _ h := h.locks
  lock _ _ _ _ _ hc := hc
  tryLock _ _ _ _ hc := hc
  own _ _ _ _ _ h hi hl :=
    ⟨⟨hl, (SameLeases.of_own h).consistent hi.2⟩, (SameLeases.of_own h).step h.lockStep⟩

variable {host bare}

theorem OwnsKey.excludes (hk : KeyBinding host) (hs : Locks fixed s) (hp : OwnsKey host s p g)
    (hq : OwnsKey host s q g) : q = p := by
  obtain ⟨k, hgk, hheld⟩ := hp
  obtain ⟨k', hgk', hheld'⟩ := hq
  cases hk g k k' hgk hgk'
  exact hheld.excludes hs id hheld'

theorem OwnsKey.step (h : LockStep q s s') (hq : p ≠ q) (ho : OwnsKey host s p g) :
    OwnsKey host s' p g := by
  obtain ⟨k, hgk, hheld⟩ := ho
  exact ⟨k, hgk, h.held hq (fun _ => LockName.noConfusion) hheld⟩

def HoldsRoots (s : State) (p : Nat) : Prop := ∃ m, Held s p .roots m

theorem HoldsRoots.step (h : LockStep q s s') (hq : p ≠ q) (hr : HoldsRoots s p) :
    HoldsRoots s' p := by
  obtain ⟨m, hm⟩ := hr
  exact ⟨m, h.held hq fixed_roots hm⟩

/-- A lock under which the name of a generation's lease file keeps its meaning. -/
inductive Guard where
  | roots
  | key (k : DerivationKey)

namespace Guard

def lock : Guard → LockName
  | roots => .roots
  | key k => .derivation k

def holds (host : Host) (s : State) (p : Nat) (g : GenerationId) : Guard → Prop
  | roots => HoldsRoots s p
  | key k => HasKey host g k ∧ Held s p (.derivation k) .exclusive

theorem holds.mono {γ : Guard} (h : ∀ m, Held s p γ.lock m → Held s' p γ.lock m)
    (hg : γ.holds host s p g) : γ.holds host s' p g := by
  cases γ with
  | roots =>
    obtain ⟨m, hm⟩ := hg
    exact ⟨m, h m hm⟩
  | key k => exact ⟨hg.1, h _ hg.2⟩

theorem fixed_lock (γ : Guard) : fixed γ.lock := by
  cases γ with
  | roots => exact fixed_roots
  | key k => exact fixed_derivation k

theorem holds.step {γ : Guard} (h : LockStep q s s') (hq : p ≠ q) (hg : γ.holds host s p g) :
    γ.holds host s' p g :=
  hg.mono fun _ => h.held hq γ.fixed_lock

end Guard

namespace LeaseStep

variable (hk : KeyBinding host) (h : LeaseStep host bare q s s') (hs : Locks fixed s) (hq : q ≠ p)
include hk h hs hq

theorem name {γ : Guard} (hg : γ.holds host s p g) {i : Nat}
    (hi : s.lockFiles.lookup (.lease g) = some i) : s'.lockFiles.lookup (.lease g) = some i := by
  rcases h.kept g i hi with hi' | ⟨-, -, hroots, hkey⟩
  · exact hi'
  · cases γ with
    | roots =>
      obtain ⟨m, hm⟩ := hg
      exact absurd (hroots.excludes hs id hm).symm hq
    | key k => exact absurd (OwnsKey.excludes hk hs ⟨k, hg⟩ hkey) hq

omit hk in
theorem present_of_roots (hr : HoldsRoots s p) (hg : Present s g) : Present s' g := by
  obtain ⟨m, hm⟩ := hr
  obtain ⟨d, hd⟩ := hg
  rcases h.files g with hsp | ⟨hroots, -⟩
  · obtain ⟨d', hd', -⟩ := hsp d hd
    exact ⟨d', hd'⟩
  · exact absurd (hroots.excludes hs id hm).symm hq

theorem absent_of_key (ho : OwnsKey host s p g) (hg : ¬ Present s g) : ¬ Present s' g := fun hp =>
  hq (ho.excludes hk hs (h.created g hg hp).1)

omit hk in
/-- A lease protects the generation: nobody else removes it or any of its files. -/
theorem spares_of_held {m : LockMode} (hm : Held s p (.lease g) m) : Spares g s s' := by
  rcases h.files g with hsp | ⟨-, hex⟩
  · exact hsp
  · exact absurd (hex.excludes hs id hm).symm hq

omit hk in
theorem leased (hm : Held s p (.lease g) .shared) (hg : Present s g) :
    Held s' p (.lease g) .shared ∧ Present s' g := by
  obtain ⟨d, hd⟩ := hg
  obtain ⟨d', hd', -⟩ := h.spares_of_held hs hq hm d hd
  refine ⟨hm.mono (h.locks.fds p _ hq.symm) fun i hi => ?_, d', hd'⟩
  rcases h.kept g i hi with hi' | ⟨hno, -⟩
  · exact hi'
  · exact absurd ⟨d, hd⟩ hno

end LeaseStep

namespace Lease

def roots (p : Nat) (m : LockMode) : Assn (leases host bare) p :=
  (leases_locking host bare).held p fixed_roots m

def key (p : Nat) (k : DerivationKey) : Assn (leases host bare) p :=
  (leases_locking host bare).held p (fixed_derivation k) .exclusive

def present (p : Nat) (g : GenerationId) : Assn (leases host bare) p where
  holds s := HoldsRoots s p ∧ Present s g
  stable _ _ _ hq hi _ hg h :=
    ⟨h.1.step hg.locks hq.symm, hg.present_of_roots hi.1 hq h.1 h.2⟩

/-- The alias and retained tables, which only the holder of the roots lock changes. -/
def tables (p : Nat) (A : Table AliasId (Option AliasRecord))
    (T : Table RetainedCowId (Option RetainedCow)) : Assn (leases host bare) p where
  holds s := HoldsRoots s p ∧ s.aliases = A ∧ s.retained = T
  stable q s s' hq hi _ hg h := by
    obtain ⟨⟨m, hm⟩, hA, hT⟩ := h
    refine ⟨⟨m, hg.locks.held hq.symm fixed_roots hm⟩, ?_⟩
    rcases hg.roots with ⟨ha, ht⟩ | hroots
    · exact ⟨ha.trans hA, ht.trans hT⟩
    · exact absurd (hroots.excludes hi.1 id hm).symm hq

def leased (p : Nat) (g : GenerationId) : Assn (leases host bare) p where
  holds s := Held s p (.lease g) .shared ∧ Present s g
  stable _ _ _ hq hi _ hg h := hg.leased hi.1 hq h.1 h.2

variable (hk : KeyBinding host)

def opened (γ : Guard) (p : Nat) (g : GenerationId) : Assn (leases host bare) p where
  holds s := γ.holds host s p g ∧ Opened s p (.lease g)
  stable _ _ _ hq hi _ hg h := ⟨h.1.step hg.locks hq.symm,
    h.2.mono (hg.locks.fds p _ hq.symm) fun _ => hg.name hk hi.1 hq h.1⟩

def held (γ : Guard) (p : Nat) (g : GenerationId) (m : LockMode) : Assn (leases host bare) p where
  holds s := γ.holds host s p g ∧ Held s p (.lease g) m
  stable _ _ _ hq hi _ hg h := ⟨h.1.step hg.locks hq.symm,
    h.2.mono (hg.locks.fds p _ hq.symm) fun _ => hg.name hk hi.1 hq h.1⟩

def nameable (γ : Guard) (p : Nat) (g : GenerationId) : Assn (leases host bare) p where
  holds s := γ.holds host s p g ∧
    ((∃ i, s.lockFiles.lookup (.lease g) = some i) ∨ bare ∨ OwnsKey host s p g)
  stable q s s' hq hi _ hg h := by
    refine ⟨h.1.step hg.locks hq.symm, ?_⟩
    rcases h.2 with ⟨i, hi'⟩ | hb | ho
    · exact .inl ⟨i, hg.name hk hi.1 hq h.1 hi'⟩
    · exact .inr (.inl hb)
    · exact .inr (.inr (ho.step hg.locks hq.symm))

def vacant (p : Nat) (g : GenerationId) : Assn (leases host bare) p where
  holds s := OwnsKey host s p g ∧ ¬ Present s g
  stable _ _ _ hq hi _ hg h :=
    ⟨h.1.step hg.locks hq.symm, hg.absent_of_key hk hi.1 hq h.1 h.2⟩

/-- The lease file can be created: its key is owned and, unless that is a condition of the run,
nobody has created it. -/
def creatable (p : Nat) (g : GenerationId) : Assn (leases host bare) p where
  holds s := bare ∨ OwnsKey host s p g ∧ s.lockFiles.lookup (.lease g) = none
  stable q s s' hq hi _ hg h := by
    rcases h with hb | ⟨ho, hn⟩
    · exact .inl hb
    · by_cases hn' : s'.lockFiles.lookup (.lease g) = none
      · exact .inr ⟨ho.step hg.locks hq.symm, hn'⟩
      · exact (hg.made g hn hn').imp_right fun ho' => absurd (ho.excludes hk hi.1 ho') hq

end Lease

end PocketVm.Store

/-! ### Which requests keep the discipline, and the routines on leases -/

namespace PocketVm.Store

open Conc Discipline Footprint

variable {host : Host} {bare : Prop} {p q : Nat} {s s' : State} {g : GenerationId}
  {K : LockName → Prop} {Z : GenerationId → Prop}

/-- A step that takes away nothing that leases are about, except `p`'s own descriptors of `K` and
the directories and lease files of `Z`. -/
structure Mild (K : LockName → Prop) (Z : GenerationId → Prop) (p : Nat) (s s' : State) : Prop where
  fds : ∀ q n, (q = p → ¬ K n) → s'.fds.lookup (q, n) = s.fds.lookup (q, n)
  names : ∀ g i, ¬ Z g → s.lockFiles.lookup (.lease g) = some i →
    s'.lockFiles.lookup (.lease g) = some i
  finals : ∀ g, ¬ Z g → s'.dirs.lookup (.final g) = s.dirs.lookup (.final g)
  aliases : s'.aliases = s.aliases
  retained : s'.retained = s.retained

/-- A step that takes away nothing at all that leases are about. -/
abbrev Quiet := Mild (fun _ => False) (fun _ => False)

/-- A quiet step but for `p`'s own descriptor of `n`. -/
abbrev Release (n : LockName) := Mild (· = n) (fun _ => False)

namespace Mild

theorem of_own {n : LockName} (hK : K n) (h : OwnFd p n s s') : Mild K Z p s s' where
  fds q n' hq := h.others (q, n') fun he => hq (Prod.mk.inj he).1 ((Prod.mk.inj he).2 ▸ hK)
  names g i _ hi := by rw [h.lockFiles]; exact hi
  finals g _ := by rw [h.dirs]
  aliases := h.aliases
  retained := h.retained

theorem mono {K' : LockName → Prop} {Z' : GenerationId → Prop} (hK : ∀ n, K n → K' n)
    (hZ : ∀ g, Z g → Z' g) (h : Mild K Z p s s') : Mild K' Z' p s s' where
  fds q n hq := h.fds q n fun hp hn => hq hp (hK n hn)
  names g i hg := h.names g i fun hz => hg (hZ g hz)
  finals g hg := h.finals g fun hz => hg (hZ g hz)
  aliases := h.aliases
  retained := h.retained

theorem of_quiet (h : Quiet p s s') : Mild K Z p s s' :=
  h.mono (fun _ => False.elim) fun _ => False.elim

section
variable (h : Mild K Z p s s')
include h

theorem held {n : LockName} {m : LockMode} (hn : fixed n) (hK : ¬ K n) (hh : Held s q n m) :
    Held s' q n m :=
  hh.of_fixed hn (h.fds q n fun _ => hK)

theorem heldLease {m : LockMode} (hZ : ¬ Z g) (hK : ¬ K (.lease g)) (hh : Held s q (.lease g) m) :
    Held s' q (.lease g) m :=
  hh.mono (h.fds q _ fun _ => hK) fun _ => h.names g _ hZ

theorem present (hZ : ¬ Z g) : Present s' g ↔ Present s g := by
  unfold Present
  rw [h.finals g hZ]

end

section
variable (h : Mild K (fun _ => False) p s s')
include h

theorem consistent (hs : Consistent s) : Consistent s' where
  lease g hg := by
    obtain ⟨i, hi⟩ := hs.lease g ((h.present id).mp hg)
    exact ⟨i, h.names g i id hi⟩
  aliased a r hr := (h.present id).mpr (hs.aliased a r (h.aliases ▸ hr))
  retained i r hr := (h.present id).mpr (hs.retained i r (h.retained ▸ hr))

theorem step (hl : LockStep q s s')
    (hm : ∀ g, s.lockFiles.lookup (.lease g) = none → s'.lockFiles.lookup (.lease g) ≠ none →
      bare ∨ OwnsKey host s q g) : LeaseStep host bare q s s' where
  locks := hl
  kept g i hi := .inl (h.names g i id hi)
  made := hm
  files g := .inl fun d hd => ⟨d, by rw [h.finals g id]; exact hd, fun _ _ hf => hf⟩
  created g hn hp := absurd ((h.present id).mp hp) hn
  roots := .inl ⟨h.aliases, h.retained⟩

end

end Mild

namespace Lease

variable {n : LockName} {m : LockMode} {k : DerivationKey} {γ : Guard}
  {A : Table AliasId (Option AliasRecord)} {T : Table RetainedCowId (Option RetainedCow)}

theorem keeps_roots (hK : ¬ K .roots) :
    (roots p m : Assn (leases host bare) p).Keeps (Mild K Z p) :=
  fun _ _ h hs => h.held fixed_roots hK hs

theorem keeps_key (hK : ¬ K (.derivation k)) :
    (key p k : Assn (leases host bare) p).Keeps (Mild K Z p) :=
  fun _ _ h hs => h.held (fixed_derivation k) hK hs

theorem keeps_present (hK : ¬ K .roots) (hZ : ¬ Z g) :
    (present p g : Assn (leases host bare) p).Keeps (Mild K Z p) :=
  fun _ _ h hs => ⟨hs.1.imp fun _ => h.held fixed_roots hK, (h.present hZ).mpr hs.2⟩

theorem keeps_tables (hK : ¬ K .roots) :
    (tables p A T : Assn (leases host bare) p).Keeps (Mild K Z p) :=
  fun _ _ h hs => ⟨hs.1.imp fun _ => h.held fixed_roots hK, h.aliases.trans hs.2.1,
    h.retained.trans hs.2.2⟩

theorem keeps_leased (hK : ¬ K (.lease g)) (hZ : ¬ Z g) :
    (leased p g : Assn (leases host bare) p).Keeps (Mild K Z p) :=
  fun _ _ h hs => ⟨h.heldLease hZ hK hs.1, (h.present hZ).mpr hs.2⟩

variable {hk : KeyBinding host}

theorem keeps_held (hγ : ¬ K γ.lock) (hK : ¬ K (.lease g)) (hZ : ¬ Z g) :
    (held hk γ p g m : Assn (leases host bare) p).Keeps (Mild K Z p) :=
  fun _ _ h hs => ⟨hs.1.mono fun _ => h.held γ.fixed_lock hγ, h.heldLease hZ hK hs.2⟩

theorem keeps_nameable (hγ : ¬ K γ.lock) (hK : ∀ k, ¬ K (.derivation k)) (hZ : ¬ Z g) :
    (nameable hk γ p g : Assn (leases host bare) p).Keeps (Mild K Z p) :=
  fun _ _ h hs => ⟨hs.1.mono fun _ => h.held γ.fixed_lock hγ,
    hs.2.imp (.imp fun _ => h.names g _ hZ)
      (.imp_right (.imp fun _ => .imp_right (h.held (fixed_derivation _) (hK _))))⟩

theorem keeps_vacant (hK : ∀ k, ¬ K (.derivation k)) (hZ : ¬ Z g) :
    (vacant hk p g : Assn (leases host bare) p).Keeps (Mild K Z p) :=
  fun _ _ h hs => ⟨hs.1.imp fun _ => .imp_right (h.held (fixed_derivation _) (hK _)),
    fun hp => hs.2 ((h.present hZ).mp hp)⟩

end Lease

/-- The footprint of a routine that opens no lock file, creates none but those never unlinked, and
leaves generations and roots alone. -/
def calm : Footprint := { reads with
  temps := True, names := fixed, dirs := fun d => ∀ g, d ≠ .final g, keys := fun _ => True }

variable {e : Req} {a : e.Ans} {P : Assn (leases host bare) p}

theorem calm_lease (he : calm.allows e) (h : exec host p e s = some (a, s'))
    (g : GenerationId) : s'.lockFiles.lookup (.lease g) = s.lockFiles.lookup (.lease g) :=
  frame_names he h (fun hn : fixed (.lease g) => hn g rfl) id

theorem calm_mild (he : calm.allows e)
    (h : exec host p e s = some (a, s')) : Quiet p s s' where
  fds q n _ := frame_fds he h (fun hn : False => hn) q
  names g i _ hi := by rw [calm_lease he h]; exact hi
  finals g _ := frame_dirs he h (fun hd : ∀ g', DirName.final g ≠ .final g' => hd g rfl) id
  aliases := frame_aliases he h id
  retained := frame_retained he h id

theorem asks_calm (he : calm.allows e)
    (hP : P.Keeps (Mild K Z p)) : Asks host P e fun _ => P where
  run s a s' hi hp hc h := by
    have hm := calm_mild he h
    obtain ⟨hl, hls⟩ := hi.1.exec h (by rintro n m rfl; exact he) (by rintro n rfl; exact he)
    refine ⟨⟨hl, hm.consistent hi.2⟩, hm.step hls fun g hno hyes => ?_, hP s s' hm.of_quiet hp⟩
    rw [calm_lease he h] at hyes
    exact absurd hno hyes
  fault s hi hp _ _ := hp

theorem Spec.calm {α : Type} {m : StoreM α}
    (hm : calm.Within m) (hP : P.Keeps (Mild K Z p)) : Spec host P m (fun _ => P) fun _ => P :=
  .keeps hm fun _ he => asks_calm he hP

namespace Lease

variable {P : Assn (leases host bare) p} {γ : Guard}

def owner (p : Nat) (g : GenerationId) : Assn (leases host bare) p where
  holds s := bare ∨ OwnsKey host s p g
  stable _ _ _ hq _ _ hg h := h.imp_right fun ho => ho.step hg.locks hq.symm

theorem keeps_owner (hK : ∀ k, ¬ K (.derivation k)) :
    (owner p g : Assn (leases host bare) p).Keeps (Mild K Z p) :=
  fun _ _ h hs => hs.imp_right (.imp fun _ => .imp_right (h.held (fixed_derivation _) (hK _)))

/-- The footprint of a request that can only add or replace the lease file of `g`. -/
def leaseFile (g : GenerationId) : Footprint := { reads with names := (· = .lease g) }

variable {Q : Assn (leases host bare) p} {n : LockName}

theorem asks_add {e : Req} (he : (leaseFile g).allows e)
    (hno : ∀ s t, P s → leaseCond bare s p (.run e) → e = .lock (.replace t (.lease g)) →
      s.lockFiles.lookup (.lease g) = none) (hQ : Q.Keeps (Quiet p))
    (hPQ : ∀ s, P s → Q s ∧ (bare ∨ OwnsKey host s p g)) : Asks host P e fun _ => Q where
  run s a s' hi hp hc h := by
    have hnames : ∀ n, n ≠ .lease g → s'.lockFiles.lookup n = s.lockFiles.lookup n :=
      fun n hn => frame_names he h hn id
    have hkept : ∀ i, s.lockFiles.lookup (.lease g) = some i →
        s'.lockFiles.lookup (.lease g) = some i := by
      intro i hi'
      rcases exec_lockFiles h with hf | ⟨t, n, ino, ⟨rfl, hn⟩ | rfl, -, hf⟩ | ⟨n, rfl, -⟩
      · rw [hf]; exact hi'
      · cases (he : n = .lease g); rw [hi'] at hn; cases hn
      · cases (he : n = .lease g); rw [hno s t hp hc rfl] at hi'; cases hi'
      · exact absurd he id
    have hm : Quiet p s s' :=
      { fds := fun q n _ => frame_fds he h id q
        names := fun g' i _ hi' => by
          by_cases hg : g' = g
          · subst hg; exact hkept i hi'
          · rw [hnames _ fun h => hg (LockName.lease.inj h)]; exact hi'
        finals := fun g _ => frame_dirs he h id id
        aliases := frame_aliases he h id
        retained := frame_retained he h id }
    obtain ⟨hl, hls⟩ := hi.1.exec h (by rintro n m rfl; exact he) (by rintro n rfl; exact he)
    refine ⟨⟨hl, hm.consistent hi.2⟩, hm.step hls fun g' hn hy => ?_,
      hQ s s' hm.of_quiet (hPQ s hp).1⟩
    by_cases hg : g' = g
    · subst hg; exact (hPQ s hp).2
    · rw [hnames _ fun h => hg (LockName.lease.inj h)] at hy
      exact absurd hn hy
  fault s _ hp _ _ := (hPQ s hp).1

theorem asks_exists {Q' : Assn (leases host bare) p}
    (hQ : ∀ s, (leases host bare).inv s → P s → Q s)
    (hQ' : ∀ s, (leases host bare).inv s → P s → s.lockFiles.lookup n = none → Q' s) :
    Asks host P (.lock (.exists n)) (Ends (fun b => if b then Q else Q') fun _ => Q) where
  run s a s' hi hp _ h := by
    cases h
    refine ⟨hi, (leases host bare).guar_refl p s, ?_⟩
    cases hn : s.lockFiles.lookup n with
    | some i => exact hQ s hi hp
    | none => exact hQ' s hi hp hn
  fault s hi hp _ _ := hQ s hi hp

section
variable (hk : KeyBinding host) (hP : P.Keeps (Quiet p))
include hk hP

theorem spec_renameLease (t : TempName) :
    Spec host (P ⊓ owner p g) (renameLock t (.lease g)) (fun _ => P ⊓ owner p g)
      fun _ => P ⊓ owner p g := by
  have hO : (P ⊓ owner p g).Keeps (Quiet p) := hP.inf (keeps_owner fun _ => id)
  refine Spec.renameNoReplace (L := fun _ => P ⊓ owner p g) (C := P ⊓ owner p g ⊓ creatable hk p g)
    (Spec.sys (asks_add (e := .lock (.link t (.lease g))) (g := g) rfl (fun _ _ _ _ h => nomatch h)
      hO fun s hs => ⟨hs, hs.2⟩))
    (fun _ _ h => h) (fun _ _ _ h => h) (Spec.ask ?_) (Spec.ask_any ?_)
  · exact asks_exists (fun _ _ h => h) fun s _ hs hn => ⟨hs, hs.2.imp_right fun ho => ⟨ho, hn⟩⟩
  · refine asks_add (e := .lock (.replace t (.lease g))) (g := g) rfl (fun s _ hs hc _ => ?_) hO
      fun s hs => ⟨hs.1, hs.1.2⟩
    rcases hs.2 with hb | ⟨-, hn⟩
    · exact hc hb
    · exact hn

theorem spec_publishLease (attempts : Nat) :
    Spec host (P ⊓ owner p g) (publishRecord (.lease g) attempts) (fun _ => P ⊓ owner p g) fun _ =>
      P ⊓ owner p g := by
  have hO : (P ⊓ owner p g).Keeps (Quiet p) := hP.inf (keeps_owner fun _ => id)
  induction attempts with
  | zero => exact .pure fun _ _ h => h
  | succ attempts ih =>
    refine .bind (Spec.calm (.ask trivial) hO) fun t =>
      .bind (Spec.attempt (spec_renameLease hk hP t)) fun r => ?_
    have hdrop : Spec host (P ⊓ owner p g) (attempt (unlinkTemp t)) (fun _ => P ⊓ owner p g)
        fun _ => P ⊓ owner p g := Spec.calm (.attempt (within_unlinkTemp trivial t)) hO
    rcases r with e | ⟨⟨⟩⟩
    · change Spec host (P ⊓ owner p g) _ _ _
      split
      · contradiction
      · exact .bind hdrop fun _ => .pure fun _ _ h => h
      · exact Spec.ite ih (.bind hdrop fun _ => .throw fun _ _ h => h)
    · exact Spec.syncAll _

theorem spec_ensureLease
    (hown : ∀ s, P s → s.lockFiles.lookup (.lease g) = none → bare ∨ OwnsKey host s p g) :
    Spec host P (ensureRecord (.lease g)) (fun _ => P) fun _ => P := by
  have hcheck : Spec host P (ask "open regular file" (.lock (.exists (.lease g))))
      (fun b => if b then P else P ⊓ owner p g) fun _ => P :=
    Spec.ask (asks_exists (fun _ _ h => h) fun s _ hs hn => ⟨hs, hown s hs hn⟩)
  refine .bind hcheck fun found => ?_
  cases found with
  | true => exact .pure fun _ _ h => h
  | false =>
    exact .bind ((spec_publishLease hk hP _).conseq (fun _ _ h => h) (fun _ _ _ h => h.1)
        fun _ _ _ h => h.1) fun _ =>
      .bind (Spec.looks (.ask trivial)) fun _ => Spec.require (fun _ _ _ h => h) fun _ _ _ h => h

end

theorem keeps_quiet (hP : P.Keeps (Mild K Z p)) : P.Keeps (Quiet p) :=
  fun s s' h => hP s s' h.of_quiet

theorem keeps_own (hK : K n) (hP : P.Keeps (Mild K Z p)) : P.Keeps (OwnFd p n) :=
  fun s s' h => hP s s' (.of_own hK h)

theorem keeps_release (hP : P.Keeps (Release n p)) : P.Keeps (OwnFd p n) :=
  keeps_own (K := (· = n)) rfl hP

theorem asks_closeOwn (hK : K n) (hQ : Q.Keeps (Mild K Z p)) (hPQ : ∀ s, P s → Q s) :
    Asks host P (.lock (.close n)) fun _ => Q :=
  (leases_locking host bare).asks_close_keeps trivial (keeps_own hK hQ) hPQ

theorem guard_lock_ne {γ : Guard} : γ.lock ≠ .lease g := γ.fixed_lock g

section
variable {γ : Guard} (hk : KeyBinding host) (hK : K (.lease g)) (hP : P.Keeps (Mild K Z p))
include hK hP

theorem spec_openLease : Spec host (P ⊓ nameable hk γ p g) (openLeaseLock g)
    (fun _ => P ⊓ opened hk γ p g) fun _ => P := by
  have hN : (P ⊓ nameable hk γ p g).Keeps (Quiet p) :=
    (keeps_quiet hP).inf (keeps_nameable id (fun _ => id) id)
  have hensure : Spec host (P ⊓ nameable hk γ p g) (ensureRecord (.lease g))
      (fun _ => P ⊓ nameable hk γ p g) fun _ => P ⊓ nameable hk γ p g := by
    refine spec_ensureLease hk hN fun s hs hn => ?_
    -- no lease file, so the guard is one that may create it
    rcases hs.2.2 with ⟨i, hi⟩ | ho
    · rw [hn] at hi; cases hi
    · exact ho
  refine .bind (hensure.err fun _ _ _ h => h.1) fun _ => Spec.ask ?_
  exact (leases_locking host bare).asks_open trivial
    (fun s s' _ hs hown hop => ⟨hP s s' (.of_own hK hown) hs.1,
      hs.2.1.mono fun _ => hown.held guard_lock_ne, hop⟩) fun _ _ hs => hs.1

theorem spec_lockLease {operation : String} {m : LockMode} :
    Spec host (P ⊓ opened hk γ p g) (ask operation (.lock (.lock (.lease g) m)))
      (fun _ => P ⊓ held hk γ p g m) fun _ => P := by
  refine Spec.ask ((leases_locking host bare).asks_lock trivial (fun s s' _ hs _ hown hfd => ?_)
    fun _ _ hs => hs.1)
  obtain ⟨fd, hfd, hfd'⟩ := hfd
  exact ⟨hP s s' (.of_own hK hown) hs.1, hs.2.1.mono fun _ => hown.held guard_lock_ne,
    Locking.held_of_opened hs.2.2 hown hfd hfd' rfl rfl⟩

theorem spec_tryLease : Spec host (P ⊓ opened hk γ p g) (tryLock (.lease g))
      (fun b => if b then P ⊓ held hk γ p g .exclusive else P) fun _ => P := by
  refine Spec.ask ((leases_locking host bare).asks_tryLock trivial (fun s s' _ hs hown hfd => ?_)
    fun _ _ hs => hs.1)
  obtain ⟨fd, hfd, hfd'⟩ := hfd
  exact ⟨hP s s' (.of_own hK hown) hs.1, hs.2.1.mono fun _ => hown.held guard_lock_ne,
    Locking.held_of_opened hs.2.2 hown hfd hfd' rfl rfl⟩

omit hK hP in
theorem spec_verifyLeased : Spec host (P ⊓ held hk γ p g .shared) (verifyGeneration host g)
      (fun gen => P ⊓ held hk γ p g .shared ⊓ leased p g ⊓ .fact (Verified host g gen))
      fun _ => P ⊓ held hk γ p g .shared :=
  Spec.verify (fun _ d _ hs hd => ⟨hs, hs.2.2, d, hd⟩) fun _ hs => hs.1

theorem spec_acquireLeaseInner : Spec host (P ⊓ nameable hk γ p g) (acquireLeaseInner host g)
      (fun gen => P ⊓ leased p g ⊓ .fact (Verified host g gen)) fun _ => P := by
  refine .bind (spec_openLease hk hK hP) fun _ => Spec.closeOnError (X := fun _ => P)
    (.bind (spec_lockLease hk hK hP) fun _ => ?_) fun _ => asks_closeOwn hK hP fun _ h => h
  exact (spec_verifyLeased hk).conseq (fun _ _ h => h) (fun _ _ _ h => ⟨⟨h.1.1.1, h.1.2⟩, h.2⟩)
    fun _ _ _ h => h.1

end

theorem spec_withRoots {α : Type} {m : LockMode} {body : StoreM α}
    {Q : α → Assn (leases host bare) p} {X : StoreError → Assn (leases host bare) p}
    (hP : P.Keeps (Release .roots p)) (hQ : ∀ a, (Q a).Keeps (Release .roots p))
    (hX : ∀ e, (X e).Keeps (Release .roots p)) (hPX : ∀ e s, P s → X e s)
    (hb : Spec host (P ⊓ roots p m) body Q X) : Spec host P (withRoots m body) Q X :=
  (leases_locking host bare).spec_withRoots (J := P ⊓ roots p m) trivial (keeps_release hP)
    (fun a => keeps_release (hQ a)) (fun e => keeps_release (hX e)) hPX
    (fun s s' _ hs _ hown hheld => ⟨keeps_release hP s s' hown hs, hheld⟩) hb

def keyOpened (p : Nat) (k : DerivationKey) : Assn (leases host bare) p :=
  (leases_locking host bare).opened p (fixed_derivation k)

section
variable {k : DerivationKey} (hK : K (.derivation k)) (hP : P.Keeps (Mild K Z p))
include hK hP

theorem spec_openDerivation :
    Spec host P (openDerivationLock k) (fun _ => P ⊓ keyOpened p k) fun _ => P :=
  .bind (Spec.calm (within_ensureRecord trivial (fixed_derivation k)) hP) fun _ => Spec.ask
    ((leases_locking host bare).asks_open_fixed (fixed_derivation k) trivial (keeps_own hK hP))

theorem spec_tryKey : Spec host (P ⊓ keyOpened p k) (tryLock (.derivation k))
      (fun b => if b then P ⊓ key p k else P) fun _ => P :=
  Spec.ask ((leases_locking host bare).asks_tryLock_fixed (fixed_derivation k) trivial
    (keeps_own hK hP))

end

end Lease

end PocketVm.Store
