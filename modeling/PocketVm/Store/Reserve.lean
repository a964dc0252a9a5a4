import PocketVm.Store.RootsRead

/-!
# Kept runs and the directories they reserve

A kept run reserves the directory of its name, and every failure of the run discards that directory
unless its instance is published. The handler does not ask who reserved it: a run whose own
reservation fails, or that fails before it, discards the directory of the run that holds the name.
Where a run starts only on a published name or on one that no other run holds, what its failure
handling removes is its own.
-/

namespace PocketVm.Store

open Conc Discipline Footprint

variable (host : Host)

/-- The instance that a kept run is for. -/
def Op.runs : Op → Option InstanceId
  | .executeRun input => some (Instance.deriveId host input.retain.name)
  | _ => none

/-- Process `p` is a kept run of instance `i`. -/
def Running (s : State) (p : Nat) (i : InstanceId) : Prop := Doing s p (·.runs host = some i)

/-- Instance `i` has a record that can be read. -/
def Published (s : State) (i : InstanceId) : Prop := ∃ r, s.instances.lookup i = some (some r)

/-- The steps the discipline is about: a run starts on a published name, or on a free one. -/
def reserveCond (s : State) (_ : Nat) : Act Op Req → Prop
  | .start (.executeRun input) =>
    Published s (Instance.deriveId host input.retain.name) ∨
      s.dirs.lookup (.instance (Instance.deriveId host input.retain.name)) = none ∧
      ∀ q, ¬ Running host s q (Instance.deriveId host input.retain.name)
  | .start _ => False
  | _ => True

def RunsApart (s : State) : Prop :=
  ∀ p q i, Running host s p i → Running host s q i → p = q ∨ Published s i

/-- The directory is there after the step, with every file it had. -/
def Intact (i : InstanceId) (d : Dir) (s' : State) : Prop :=
  ∃ d', s'.dirs.lookup (.instance i) = some d' ∧ ∀ f x, d.files.lookup f = some x → ∃ x',
    d'.files.lookup f = some x'

structure ReserveStep (q : Nat) (s s' : State) : Prop where
  live : ∀ p, p ≠ q → s'.live.lookup p = s.live.lookup p
  published : ∀ i, Published s i → Published s' i
  record : ∀ i, s'.instances.lookup i = s.instances.lookup i ∨ Running host s q i
  dir : ∀ i, s'.dirs.lookup (.instance i) = s.dirs.lookup (.instance i) ∨ Running host s q i
  own : ∀ i d, s.dirs.lookup (.instance i) = some d → Intact i d s' ∨
    d.maker = q ∧ Running host s q i ∧ ¬ Published s i

variable {host} {p q : Nat} {s s' : State} {op : Op} {i : InstanceId}

theorem Intact.of_eq {d : Dir} (h : s'.dirs.lookup (.instance i) = some d) : Intact i d s' :=
  ⟨d, h, fun _ x hx => ⟨x, hx⟩⟩

theorem ReserveStep.of_same (hl : ∀ p, p ≠ q → s'.live.lookup p = s.live.lookup p)
    (hi : s'.instances = s.instances)
    (hd : ∀ i, s'.dirs.lookup (.instance i) = s.dirs.lookup (.instance i)) :
    ReserveStep host q s s' where
  live := hl
  published i h := by unfold Published; rw [hi]; exact h
  record _ := .inl (by rw [hi])
  dir i := .inl (hd i)
  own i d h := .inl (.of_eq ((hd i).trans h))

variable (host) in
def reserving : Discipline Op Req State where
  inv := RunsApart host
  guar := ReserveStep host
  cond := reserveCond host
  guar_refl _ _ := .of_same (fun _ _ => rfl) rfl fun _ => rfl

theorem RunsApart.mono (hl : s'.live = s.live) (hp : ∀ i, Published s i → Published s' i)
    (h : RunsApart host s) : RunsApart host s' := by
  intro p q i hp' hq'
  rcases h p q i (hp'.of_live hl) (hq'.of_live hl) with he | hi
  · exact .inl he
  · exact .inr (hp i hi)

namespace Reserve

/-- The directory of `i` is absent, or `p` made it. -/
def Mine (s : State) (p : Nat) (i : InstanceId) : Prop :=
  ∀ d, s.dirs.lookup (.instance i) = some d → d.maker = p

section
variable (p op i) (hop : op.runs host = some i)

def safe : Assn (reserving host) p where
  holds s := s.live.lookup p = some op ∧ (Published s i ∨ Mine s p i)
  stable q s s' hq hi _ hg hs := by
    refine ⟨(hg.live p hq.symm).trans hs.1, ?_⟩
    rcases hs.2 with hpub | hmine
    · exact .inl (hg.published i hpub)
    · rcases hg.dir i with hd | hrun
      · exact .inr fun d h => hmine d (hd ▸ h)
      · rcases hi q p i hrun ⟨op, hs.1, hop⟩ with he | hpub
        · exact absurd he hq
        · exact .inl (hg.published i hpub)

def owner : Assn (reserving host) p where
  holds s := s.live.lookup p = some op ∧ s.instances.lookup i = none ∧ Mine s p i
  stable q s s' hq hi _ hg hs := by
    obtain ⟨hlive, hrec, hmine⟩ := hs
    have hnot : ¬ Running host s q i := fun hrun => by
      rcases hi q p i hrun ⟨op, hlive, hop⟩ with he | ⟨r, hr⟩
      · exact hq he
      · rw [hrec] at hr
        cases hr
    exact ⟨(hg.live p hq.symm).trans hlive, ((hg.record i).resolve_right hnot).trans hrec,
      fun d h => hmine d ((hg.dir i).resolve_right hnot ▸ h)⟩

end

variable (hop : op.runs host = some i)

theorem safe_of_owner {hop : op.runs host = some i} (h : owner p op i hop s) :
    safe p op i hop s := ⟨h.1, .inr h.2.2⟩

theorem asks_aside {F : Footprint} (hd : ∀ j, ¬ F.dirs (.instance j))
    (hc : ∀ j, ¬ F.chmods (.instance j)) (hi : ∀ j, F.instances j → j = i) (hf : ∀ j, ¬ F.forgets j)
    {e : Req} (he : F.allows e) : Asks host (safe p op i hop) e fun _ => safe p op i hop where
  run s a s' hinv hp _ h := by
    have hdirs : ∀ j, s'.dirs.lookup (.instance j) = s.dirs.lookup (.instance j) :=
      fun j => frame_dirs he h (hd j) (hc j)
    have hpub : ∀ j, Published s j → Published s' j := fun j hj => frame_readable he h (hf j) hj
    refine ⟨hinv.mono (exec_live h) hpub, ⟨fun _ _ => by rw [exec_live h], hpub, fun j => ?_,
      fun j => .inl (hdirs j), fun j d hj => .inl (.of_eq ((hdirs j).trans hj))⟩, ?_⟩
    · by_cases hj : j = i
      · subst hj
        exact .inr ⟨op, hp.1, hop⟩
      · exact .inl (frame_instance he h fun hj' => hj (hi j hj'))
    · refine ⟨by rw [exec_live h]; exact hp.1, hp.2.imp (hpub i) fun hm d hd' => hm d ?_⟩
      rw [← hdirs i]
      exact hd'
  fault _ _ hp _ _ := hp

theorem keeping : Keeping host (safe p op i hop) i := by
  have hout : ∀ e, outside.allows e → Asks host (safe p op i hop) e fun _ =>
    safe p op i hop := fun e he =>
    asks_aside hop (F := outside) (fun _ => not_false) (fun _ => not_false) (fun _ => False.elim)
      (fun _ => not_false) he
  have hroots : ∀ e, ({ Footprint.reads with opens := (· = .roots) } : Footprint).allows e →
      Asks host (safe p op i hop) e fun _ => safe p op i hop := fun e he =>
    asks_aside hop (fun _ => not_false) (fun _ => not_false) (fun _ => False.elim)
      (fun _ => not_false) he
  have hbody : ∀ {α : Type} {mode : LockMode} {m : StoreM α},
      Spec host (safe p op i hop) m (fun _ => safe p op i hop) (fun _ => safe p op i hop) →
      Spec host (safe p op i hop) (withRoots mode m) (fun _ => safe p op i hop)
        fun _ => safe p op i hop := fun h =>
    Spec.withRoots (hroots (.lock (.open _)) rfl) (hroots (.lock (.lock _ _)) rfl)
      (hroots (.lock (.close _)) rfl) h
  exact ⟨hout, fun hm => hbody (.keeps hm hout), fun hm => hbody (.keeps hm fun e he =>
    asks_aside hop (F := inside i) (fun _ => not_false) (fun _ => not_false) (fun _ h => h)
      (fun _ => not_false) he)⟩

def fills (x : DirName) : Req → Prop
  | .dir (.make y) | .dir (.create y _ _) | .dir (.write y _ _ _) => y = x
  | _ => False

theorem fills_cases {x : DirName} {e : Req} (he : fills x e) : e = .dir (.make x) ∨
    ∃ ino file content, e = .dir (.create x ino file) ∨ e = .dir (.write x ino file content) := by
  unfold fills at he
  split at he
  · exact .inl (by rw [he])
  · exact .inr ⟨_, _, .junk, .inl (by rw [he])⟩
  · exact .inr ⟨_, _, _, .inr (by rw [he])⟩
  · exact he.elim

theorem asks_fill {e : Req} (he : fills (.instance i) e) :
    Asks host (safe p op i hop) e fun _ => safe p op i hop where
  run s a s' hinv hp _ h := by
    have hrun : Running host s p i := ⟨op, hp.1, hop⟩
    have hlive : s'.live = s.live := exec_live h
    have hinst : s'.instances = s.instances :=
      (exec_records_frame h (by rintro r rfl; exact he)).2.2.2
    have hother : ∀ j, j ≠ i → s'.dirs.lookup (.instance j) = s.dirs.lookup
      (.instance j) := fun j hj =>
      exec_dirs_untouched h fun r hr ht => by
        rcases fills_cases he with rfl | ⟨_, _, _, rfl | rfl⟩ <;> cases hr <;>
          exact hj (DirName.instance.inj ht).symm
    have hpub : ∀ j, Published s j → Published s' j :=
      fun j hj => by unfold Published; rw [hinst]; exact hj
    -- what is left to say is about the directory of `i`
    have hdir : (∀ d, s.dirs.lookup (.instance i) = some d → Intact i d s') ∧
      (Mine s p i → Mine s' p i) := by
      have hself : s' = s → (∀ d, s.dirs.lookup (.instance i) = some d → Intact i d s') ∧
          (Mine s p i → Mine s' p i) := by rintro rfl; exact ⟨fun d hd => .of_eq hd, fun h => h⟩
      rcases fills_cases he with rfl | ⟨ino, file, content, he'⟩
      · rcases exec_make h with hs | ⟨hn, rfl⟩
        · exact hself hs
        · refine ⟨fun d hd => (nomatch hn.symm.trans hd), fun _ d hd => ?_⟩
          cases (lookup_setDir s _ _).symm.trans hd
          rfl
      · rcases exec_fill content he' h with hs | ⟨d, f, hd, rfl⟩
        · exact hself hs
        · refine ⟨fun d' hd' => ?_, fun hm d' hd' => ?_⟩
          · cases hd.symm.trans hd'
            refine ⟨_, lookup_setDir s _ _, fun f' x hx => ?_⟩
            by_cases hf : f' = file
            · subst hf
              exact ⟨f, AList.lookup_insert _⟩
            · exact ⟨x, (AList.lookup_insert_ne hf).trans hx⟩
          · cases (lookup_setDir s _ _).symm.trans hd'
            exact hm d hd
    refine ⟨hinv.mono hlive hpub, ⟨fun _ _ => by rw [hlive], hpub, fun _ => .inl (by rw [hinst]),
      fun j => ?_, fun j d hd => .inl ?_⟩, by rw [hlive]; exact hp.1, hp.2.imp (hpub i) hdir.2⟩
    · by_cases hj : j = i
      · exact .inr (hj ▸ hrun)
      · exact .inl (hother j hj)
    · by_cases hj : j = i
      · subst hj; exact hdir.1 d hd
      · exact .of_eq ((hother j hj).trans hd)
  fault _ _ hp _ _ := hp

theorem spec_removeTree : Spec host (owner p op i hop) (removeTree (.instance i))
    (fun _ => owner p op i hop) fun _ => owner p op i hop := by
  refine .keeps (F := { Footprint.reads with dirs := (· = .instance i) }) (within_removeTree rfl)
    fun e he => ⟨fun s a s' hinv hp _ h => ?_, fun _ _ hp _ _ => hp⟩
  obtain ⟨hlive, hrec, hmine⟩ := hp
  have hinst : s'.instances = s.instances := frame_instances he h fun _ => not_false
  have hother : ∀ j, j ≠ i → s'.dirs.lookup (.instance j) = s.dirs.lookup (.instance j) :=
    fun j hj => frame_dirs he h (fun hd => hj (DirName.instance.inj hd)) not_false
  have hpub : ∀ j, Published s j → Published s' j :=
    fun j hj => by unfold Published; rw [hinst]; exact hj
  have hnot : ¬ Published s i := fun ⟨r, hr⟩ => nomatch hrec.symm.trans hr
  refine ⟨hinv.mono (exec_live h) hpub,
    ⟨fun _ _ => by rw [exec_live h], hpub, fun _ => .inl (by rw [hinst]),
    fun j => ?_, fun j d hd => ?_⟩, by rw [exec_live h]; exact hlive, by rw [hinst]; exact hrec, fun d hd => ?_⟩
  · by_cases hj : j = i
    · exact .inr (hj ▸ ⟨op, hlive, hop⟩)
    · exact .inl (hother j hj)
  · by_cases hj : j = i
    · subst hj; exact .inr ⟨hmine d hd, ⟨op, hlive, hop⟩, hnot⟩
    · exact .inl (.of_eq ((hother j hj).trans hd))
  · rcases frame_maker he h (fun _ h => h) hd with hm | ⟨d₀, hd₀, hm⟩
    · exact hm
    · exact hm.symm.trans (hmine d₀ hd₀)

section
variable {name : String} (hi : i = Instance.deriveId host name)
include hi

theorem spec_discardInstanceDirectory :
    Spec host (safe p op i hop) (discardInstanceDirectory host name)
    (fun _ => safe p op i hop) fun _ => safe p op i hop := by
  subst hi
  have hfound : ∀ s, (reserving host).inv s → safe p op _ hop s →
      s.instances.lookup (Instance.deriveId host name) = none → owner p op _ hop s := by
    intro s _ hs hn
    refine ⟨hs.1, hn, hs.2.resolve_left fun ⟨r, hr⟩ => ?_⟩
    rw [hn] at hr
    cases hr
  refine .bind (Spec.looks (.ofExcept _)) fun _ =>
    .bind (Spec.attempt (spec_findInstance hfound)) fun r => ?_
  split
  · exact .conseq (spec_removeTree hop) (fun _ _ h => h) (fun _ _ _ h => safe_of_owner h)
      fun _ _ _ h => safe_of_owner h
  · exact .throw fun _ _ h => h
  · next e hne => exact .throw fun _ _ h => by cases e <;> first | exact absurd rfl hne | exact h

theorem spec_discardOnError {α : Type} {m : StoreM α}
    (hm : Spec host (safe p op i hop) m (fun _ => safe p op i hop) fun _ => safe p op i hop) :
    Spec host (safe p op i hop) (discardOnError host name m) (fun _ => safe p op i hop) fun _ =>
      safe p op i hop := by
  refine .bind (Spec.attempt hm) fun r => ?_
  cases r with
  | ok a => exact .pure fun _ _ h => h
  | error e =>
    exact .bind (Spec.attempt_keeps (spec_discardInstanceDirectory hop hi)) fun _ =>
      .throw fun _ _ h => h

end

theorem spec_runDirectory {retain : RetainRequest} (hi : i = Instance.deriveId host retain.name) :
    Spec host (safe p op i hop) (runDirectory host retain)
      (fun id => safe p op i hop ⊓ .fact (id = i)) fun _ => safe p op i hop := by
  subst hi
  refine .yields (Spec.ite ?_ ?_) yields_runDirectory
  · refine .bind (Spec.looks (.ofExcept _)) fun _ => .bind (Spec.looks (.sys trivial)) fun r => ?_
    split
    · exact .pure fun _ _ h => h
    · exact .throw fun _ _ h => h
  · refine .bind (Spec.looks (.ofExcept _)) fun _ =>
      .bind (Spec.sys (asks_fill hop (e := .dir (.make _)) rfl)) fun r => ?_
    split
    · exact .bind (Spec.syncAll _) fun _ => .pure fun _ _ h => h
    · exact .throw fun _ _ h => h
    · exact .throw fun _ _ h => h

theorem spec_runGuest (fresh : Bool) (overlay : Wire.Bytes) :
    Spec host (safe p op i hop) (runGuest i fresh overlay) (fun _ => safe p op i hop) fun _ =>
      safe p op i hop := by
  have hwrite : ∀ ino, Spec host (safe p op i hop)
      (ask "write overlay" (.dir (.write (.instance i) ino ROOT_COW (.data overlay))))
      (fun _ => safe p op i hop) fun _ => safe p op i hop :=
    fun ino => Spec.ask_any (asks_fill hop (e := .dir (.write _ _ _ _)) rfl)
  refine .bind (Spec.looks (.ask (e := .dir (.open _)) trivial)) fun ino =>
    Spec.ite (.bind ?_ fun _ => hwrite ino) (hwrite ino)
  exact Spec.ask_any (asks_fill hop (e := .dir (.create _ _ _)) rfl)

theorem spec_startWithLease {retain : RetainRequest} (hi : i = Instance.deriveId host retain.name)
    (overlay : Wire.Bytes) : Spec host (safe p op i hop) (startWithLease host retain overlay)
    (fun _ => safe p op i hop)
      fun _ => safe p op i hop := by
  refine .bind (Spec.looks (.ask (e := .host .prepare) trivial)) fun _ =>
    .bind (spec_runDirectory hop hi) fun id =>
    .of_fact fun hid => ?_
  subst hid
  exact .bind (Spec.looks (within_checkOverlay _ _)) fun _ =>
    .bind (Spec.looks (.ask (e := .host .launch) trivial)) fun _ =>
    .bind (spec_runGuest hop _ _) fun _ => .pure fun _ _ h => h

theorem spec_executeRun {input : RunInput} (hi : i = Instance.deriveId host input.retain.name) :
    Spec host (safe p op i hop) (executeRun host input) (fun _ => safe p op i hop) fun _ =>
      safe p op i hop := by
  have K : Keeping host (safe p op i hop) i := keeping hop
  have hclose := K.out (.lock (.close (.lease input.generationId))) ⟨_, rfl⟩
  refine .bind (K.spec_acquireLease _) fun _ => .bind (J := fun _ => safe p op i hop)
    (Spec.holding ?_ (fun _ => hclose) fun _ => hclose) fun id =>
    spec_discardOnError hop hi (K.spec_retainInstance hi.symm _ _ _)
  exact .bind (Spec.looks (.ofExcept _)) fun _ =>
    .bind (spec_discardOnError hop hi (spec_startWithLease hop hi _)) fun _ =>
    .bind (Spec.looks (.ask (e := .host .announceConsoles) trivial)) fun _ =>
    .bind (spec_discardOnError hop hi (Spec.looks (.ask (e := .host .wait) trivial))) fun _ =>
    .pure fun _ _ h => h

theorem apart_enter (hc : reserveCond host s p (.start op)) (hs : RunsApart host s) :
    RunsApart host (enter p op s) := by
  intro q q' i hq hq'
  rcases hq.of_enter with ⟨rfl, hk⟩ | ⟨hne, ho⟩ <;> rcases hq'.of_enter with
    ⟨rfl, hk'⟩ | ⟨hne', ho'⟩
  · exact .inl rfl
  · cases op <;> cases hk
    exact hc.elim .inr fun h => absurd ho' (h.2 q')
  · cases op <;> cases hk'
    exact hc.elim .inr fun h => absurd ho (h.2 q)
  · exact hs q q' i ho ho'

theorem sound : (reserving host).Sound (system host) fun _ _ _ => True where
  start p op s hi hc := by
    refine ⟨apart_enter hc hi, .of_same (fun _ hq => live_enter hq) rfl fun _ => rfl, ?_⟩
    cases op with
    | executeRun input =>
      have hop : Op.runs host (.executeRun input) =
        some (Instance.deriveId host input.retain.name) := rfl
      refine wp_mono ((Spec.map (spec_executeRun (p := p) hop rfl) fun _ _ _ => trivial :
        Spec host _ _ (fun _ => ⊤) _) _ ⟨AList.lookup_insert _, ?_⟩) fun _ _ _ _ => trivial
      exact hc.imp (fun h => h) fun h d hd => nomatch h.1.symm.trans hd
    | _ => exact False.elim hc
  kill p s hi _ := by
    refine ⟨fun q q' i hq hq' => ?_, .of_same (fun _ hq => live_leave hq) rfl fun _ => rfl⟩
    exact hi q q' i hq.of_leave hq'.of_leave

end Reserve

/-- What a step takes from an instance directory, the directory's own run takes, and only before it
is published. -/
theorem run_discards_its_own {c₀ c c' : Config Req.Ans State Ret} (hidle : ∀ p, c₀.procs p = none)
    (hnobody : c₀.shared.live = ∅) (hr : (system host).Reach (reserveCond host) c₀ c)
    {a : Act Op Req} (hcond : reserveCond host c.shared p a) (hs : (system host).Step c p a c')
    {d : Dir} (hd : c.shared.dirs.lookup (.instance i) = some d) :
    Intact i d c'.shared ∨ d.maker = p ∧ Running host c.shared p i ∧ ¬ Published c.shared i := by
  have h₀ : RunsApart host c₀.shared := by
    rintro p q i ⟨op, hop, -⟩
    rw [hnobody] at hop
    cases hop
  have hc := Reserve.sound.reach h₀ hidle hr
  exact (hc.step Reserve.sound hcond hs).2.own i d hd

def reserveCheck (s : State) (_ : Nat) : Act Op Req → Bool
  | .start (.executeRun input) => s.live.entries.isEmpty &&
      (s.dirs.lookup (.instance (Instance.deriveId (Sample.host true) input.retain.name))).isNone
  | .start _ => false
  | _ => true

theorem reserveCheck_sound (s : State) (p : Nat) (a : Act Op Req) (h : reserveCheck s p a = true) :
    reserveCond (Sample.host true) s p a := by
  cases a with
  | start op =>
    cases op with
    | executeRun input =>
      simp only [reserveCheck, Bool.and_eq_true, Option.isNone_iff_eq_none] at h
      refine .inr ⟨h.2, ?_⟩
      rintro q ⟨op, hop, -⟩
      rw [lookup_eq_none h.1] at hop
      cases hop
    | _ => cases h
  | _ => trivial

open Sample (built config instanceId rested runInput runs)

set_option maxRecDepth 10000 in
/-- A run whose guest fails removes the directory it reserved. -/
theorem run_discards_its_own_failed : ∃ (c c' : Config Req.Ans State Ret) (d : Dir),
      c.shared.dirs.lookup (.instance (instanceId "a")) = some d ∧
      c'.shared.dirs.lookup (.instance (instanceId "a")) = none ∧
      d.maker = 1 ∧ ¬ Published c.shared (instanceId "a") := by
  obtain ⟨c₀, -, ht⟩ := System.Reach.exists_of_replay (M := system (Sample.host true))
    anyStep_sound config built (fun c => c.shared.live.entries.isEmpty &&
      ((system (Sample.host true)).replay reserveCheck (rested c)
        (.start 1 (.executeRun (runInput "a" [7])) :: runs 1 19 ++ .fault 1 ::
          runs 1 7)).any fun c =>
        (c.shared.dirs.lookup (.instance (instanceId "a"))).isSome &&
        ((system (Sample.host true)).replay reserveCheck c [.run 1]).any fun c' =>
          (c'.shared.dirs.lookup (.instance (instanceId "a"))).isNone) (by decide +kernel)
  rw [Bool.and_eq_true] at ht
  have hnobody : (rested c₀).shared.live = ∅ := AList.ext (List.isEmpty_iff.mp ht.1)
  obtain ⟨c, hr, hc⟩ := System.Reach.exists_of_replay reserveCheck_sound _ _ _ ht.2
  simp only [Bool.and_eq_true, Option.any_eq_true, Option.isSome_iff_exists,
    Option.isNone_iff_eq_none] at hc
  obtain ⟨⟨d, hd⟩, c', hstep, hgone⟩ := hc
  obtain ⟨a, hok, hs⟩ := System.Step.of_replay hstep
  rcases run_discards_its_own (fun _ => rfl) hnobody hr (reserveCheck_sound _ _ _ hok) hs hd with
    ⟨d', hd', -⟩ | ⟨hm, -, hp⟩
  · rw [hgone] at hd'
    cases hd'
  · exact ⟨c, c', d, hd, hgone, hm, hp⟩

def keptRun : Op → Bool
  | .executeRun _ => true
  | _ => false

def guestRuns (c : Config Req.Ans State Ret) (p : Nat) : Bool :=
  match c.procs p with
  | some (.call (.host .announceConsoles) _) => true
  | _ => false

theorem procs_of_guestRuns {c : Config Req.Ans State Ret} (h : guestRuns c p = true) :
    ∃ k, c.procs p = some (.call (.host .announceConsoles) k) := by
  unfold guestRuns at h
  split at h
  · exact ⟨_, ‹_›⟩
  · cases h

set_option maxRecDepth 10000 in
/-- The second run of a name fails to reserve it and removes the directory of the first, whose guest
is running. -/
theorem run_discards_another : ∃ c c' : Config Req.Ans State Ret,
    (system (Sample.host true)).Reach anyStep config c ∧
      (∃ k, c.procs 1 = some (.call (.host .announceConsoles) k)) ∧
      (∃ d f, c.shared.dirs.lookup (.instance (instanceId "a")) = some d ∧ d.maker = 1 ∧
        d.files.lookup ROOT_COW = some f) ∧ (system (Sample.host true)).Reach
        (others 1 (starting fun op => keptRun op = true)) c c' ∧
      c'.shared.dirs.lookup (.instance (instanceId "a")) = none := by
  have hok : ∀ s p a, startingCheck keptRun s p a = true →
    starting (fun op => keptRun op = true) s p a :=
    startingCheck_sound keptRun fun _ h => h
  obtain ⟨c, c', hr, ht, hr', ht'⟩ :=
    System.Reach.exists_of_replays (M := system (Sample.host true))
    anyStep_sound (othersCheck_sound (p := 1) hok) config
    (built ++ .start 1 (.executeRun (runInput "a" [7])) :: runs 1 18)
    (.start 2 (.executeRun (runInput "a" [8])) :: runs 2 21)
    (fun c => guestRuns c 1 && (c.shared.dirs.lookup (.instance (instanceId "a"))).any
      fun d : Dir =>
        decide (d.maker = 1) && (d.files.lookup ROOT_COW).isSome)
    (fun c => (c.shared.dirs.lookup (.instance (instanceId "a"))).isNone)
    (by decide +kernel)
  simp only [Bool.and_eq_true, Option.any_eq_true, decide_eq_true_eq, Option.isSome_iff_exists,
    Option.isNone_iff_eq_none] at ht ht'
  obtain ⟨hp, d, hd, hm, f, hf⟩ := ht
  exact ⟨c, c', hr, procs_of_guestRuns hp, ⟨d, f, hd, hm, hf⟩, hr', ht'⟩

end PocketVm.Store
