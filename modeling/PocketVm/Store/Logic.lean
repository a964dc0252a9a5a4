import PocketVm.Conc.Rely
import PocketVm.Store.Frame

/-!
# Proof rules for store routines

`Spec host P m Q X` is the triple of a store routine under a discipline. `Asks` is what has to be
shown of one request; the rules below carry it through the combinators the routines are built
from. A routine that only reads keeps every assertion (`Spec.looks`).
-/

namespace PocketVm.Store

open Conc Discipline Fallible

variable {D : Discipline Op Req State} {p : Nat} {α β : Type}

/-- From a state of `P` the routine ends in `Q` with its value, or in `X` with its error. -/
abbrev Spec (host : Host) (P : Assn D p) (m : StoreM α) (Q : α → Assn D p)
    (X : StoreError → Assn D p) : Prop :=
  D.Triple (system host) P m Q X

/-- What a request of process `p` has to keep, and where it leads. -/
structure Asks (host : Host) (P : Assn D p) (e : Req) (Q : e.Ans → Assn D p) : Prop where
  run : ∀ s a s', D.inv s → P s → D.cond s p (.run e) → exec host p e s = some (a, s') →
    D.inv s' ∧ D.guar p s s' ∧ Q a s'
  fault : ∀ s, D.inv s → P s → D.cond s p (.fault e) → (fault e).isSome → Q (.error .eio) s

variable {host : Host} {P B : Assn D p} {m : StoreM α} {Q Q' : α → Assn D p}
  {X Y : StoreError → Assn D p}

theorem Asks.imp {e : Req} {Q Q' : e.Ans → Assn D p} (h : Asks host P e Q)
    (hQ : ∀ a s, Q a s → Q' a s) : Asks host P e Q' where
  run s a s' hi hp hc he := by
    obtain ⟨hi', hg, hq⟩ := h.run s a s' hi hp hc he
    exact ⟨hi', hg, hQ a s' hq⟩
  fault s hi hp hc hf := hQ _ s (h.fault s hi hp hc hf)

theorem fault_eq {e : Req} {r : e.Ans} (h : fault e = some r) : r = .error .eio := by
  unfold fault at h
  split at h <;> cases h
  rfl

namespace Spec

variable {e : Req} {operation : String} {c : Prop} {n : LockName}

theorem sys {Q : e.Ans → Assn D p} (h : Asks host P e Q) : Spec host P (sys e) Q X :=
  Triple.request h.run fun s r hi hp hc hr => by
    rw [fault_eq hr]
    exact h.fault s hi hp hc (Option.isSome_of_eq_some hr)

theorem ask {Q : e.Out → Assn D p} (h : Asks host P e (Ends Q fun n => X (.io operation n.kind))) :
    Spec host P (ask operation e) Q X :=
  .bind (sys h) fun
    | .ok _ => .pure fun _ _ h => h
    | .error _ => .throw fun _ _ h => h

theorem ask_any (h : Asks host P e fun _ => B) :
    Spec host P (Store.ask operation e) (fun _ => B) fun _ => B :=
  ask ⟨fun s a s' hi hp hc he => by
    obtain ⟨hi', hg, hq⟩ := h.run s a s' hi hp hc he
    cases a <;> exact ⟨hi', hg, hq⟩, h.fault⟩

theorem attempt (h : Spec host P m Q X) : Spec host P (attempt m) (Ends Q X) Y :=
  Triple.attempt h

theorem attempt_keeps (h : Spec host P m (fun _ => P) fun _ => P) :
    Spec host P (Store.attempt m) (fun _ => P) X :=
  (attempt h).post fun r _ _ hr => by cases r <;> exact hr

theorem ofExcept {r : Except StoreError α} (hQ : ∀ a, r = .ok a → ∀ s, D.inv s → P s → Q a s)
    (hX : ∀ e, r = .error e → ∀ s, D.inv s → P s → X e s) : Spec host P (ofExcept r) Q X := by
  cases r with
  | ok a => exact .pure (hQ a rfl)
  | error e => exact .throw (hX e rfl)

theorem require [Decidable c] {e : StoreError} {Q : Unit → Assn D p}
    (hQ : c → ∀ s, D.inv s → P s → Q () s) (hX : ¬ c → ∀ s, D.inv s → P s → X e s) :
    Spec host P (require c e) Q X := by
  unfold Store.require
  split
  · exact .pure (hQ ‹_›)
  · exact .throw (hX ‹_›)

theorem ite [Decidable c] {n : StoreM α} (hm : Spec host P m Q X)
    (hn : Spec host P n Q X) : Spec host P (if c then m else n) Q X := by
  split
  · exact hm
  · exact hn

theorem ite' [Decidable c] {n : StoreM α} (hm : c → Spec host P m Q X)
    (hn : ¬ c → Spec host P n Q X) : Spec host P (if c then m else n) Q X := by
  split
  · exact hm ‹_›
  · exact hn ‹_›

theorem close (h : Asks host P (.lock (.close n)) fun _ => B) :
    Spec host P (close n) (fun _ => B) X :=
  .bind (sys h) fun _ => .pure fun _ _ h => h

/-- A guard leads from where its body ends to where closing the lock file leads. -/
theorem holding (h : Spec host P m Q X) (hQ : ∀ a, Asks host (Q a) (.lock (.close n)) fun _ => Q' a)
    (hX : ∀ e, Asks host (X e) (.lock (.close n)) fun _ => Y e) : Spec host P (holding n m) Q' Y :=
  .bind (attempt h) fun
    | .ok a => .bind (close (hQ a)) fun _ => .pure fun _ _ h => h
    | .error e => .bind (close (hX e)) fun _ => .throw fun _ _ h => h

theorem closeOnError (h : Spec host P m Q X)
    (hX : ∀ e, Asks host (X e) (.lock (.close n)) fun _ => Y e) :
    Spec host P (closeOnError n m) Q Y :=
  .bind (attempt h) fun
    | .ok _ => .pure fun _ _ h => h
    | .error e => .bind (close (hX e)) fun _ => .throw fun _ _ h => h

theorem withRoots {mode : LockMode} (ho : Asks host P (.lock (.open .roots)) fun _ => P)
    (hl : Asks host P (.lock (.lock .roots mode)) fun _ => P)
    (hc : Asks host P (.lock (.close .roots)) fun _ => P)
    (h : Spec host P m (fun _ => P) fun _ => P) :
    Spec host P (withRoots mode m) (fun _ => P) fun _ => P :=
  .bind (ask_any ho) fun _ => holding (.bind (ask_any hl) fun _ => h) (fun _ => hc) fun _ => hc

theorem cleaning {d : DirName} (h : Spec host P m Q X)
    (hX : ∀ e, Spec host (X e) (removeTree d) (fun _ => X e) fun _ => X e) :
    Spec host P (cleaning d m) Q X :=
  .bind (attempt h) fun
    | .ok _ => .pure fun _ _ h => h
    | .error e => .bind (J := fun _ => X e) ((attempt (hX e)).post fun r _ _ h => by cases r <;> exact h)
        fun _ => .throw fun _ _ h => h

/-- `rename_noreplace_at` from what the check of its fallback establishes. -/
theorem renameNoReplace {link : StoreM (Except Errno Unit)} {present : StoreM Bool}
    {rename : StoreM Unit} {L : Except Errno Unit → Assn D p} {C : Assn D p}
    {Q : Unit → Assn D p} (hl : Spec host P link L X) (hok : ∀ s, D.inv s → L (.ok ()) s → Q () s)
    (herr : ∀ n s, D.inv s → L (.error n) s → X (.io "publish without replacement" n.kind) s)
    (hp : Spec host (L (.error .einval)) present
      (fun b => if b then X (.io "publish without replacement" .alreadyExists) else C) X)
    (hr : Spec host C rename Q X) : Spec host P (renameNoReplace link present rename) Q X :=
  .bind hl fun
    | .ok () => .pure hok
    | .error .einval => .bind hp fun
      | true => .bind (require (fun h => nomatch h) fun _ _ _ h => h) fun _ => hr
      | false => .bind (require (fun _ _ _ h => h) fun h => absurd rfl h) fun _ => hr
    | .error .enoent => .throw (herr _)
    | .error .eexist => .throw (herr _)
    | .error .enotempty => .throw (herr _)
    | .error .eio => .throw (herr _)

theorem map {f : α → β} {Q' : β → Assn D p} (h : Spec host P m Q X)
    (hf : ∀ a s, Q a s → Q' (f a) s) :
    Spec host P (f <$> m) Q' X :=
  .bind h fun a => .pure fun s _ hs => hf a s hs

/-- A routine within a footprint all of whose requests keep `P`. -/
theorem keeps {F : Footprint} (hm : F.Within m) (h : ∀ e, F.allows e → Asks host P e fun _ => P) :
    Spec host P m (fun _ => P) fun _ => P :=
  Triple.of_uses (fun e s r s' he hi hp hc hr => (h e he).run s r s' hi hp hc hr) hm

end Spec

namespace Footprint

def reads : Footprint where
  temps := False
  opens _ := False
  names _ := False
  unlinks _ := False
  dirs _ := False
  chmods _ := False
  keys _ := False
  aliases := False
  retained := False
  instances _ := False
  forgets _ := False

theorem exec_reads {e : Req} (he : reads.allows e) {s s' : State} {a : e.Ans}
    (h : exec host p e s = some (a, s')) : s' = s := by
  cases e with
  | lock r =>
    cases r <;> simp only [allows, reads] at he
    cases h; rfl
  | temp r =>
    change execTemp s r = _ at h
    cases r <;> simp only [allows, reads] at he <;>
      simp only [execTemp, State.answer, State.fail] at h
    · cases h; rfl
    · split at h <;> cases h <;> rfl
  | dir r =>
    change execDir host p s r = _ at h
    cases r <;> simp only [allows, reads, or_self, and_self] at he <;>
      simp only [execDir, State.answer, State.fail] at h <;>
      first
        | (cases h; rfl)
        | (split at h <;> cases h <;> rfl)
  | record r =>
    change execRec host s r = _ at h
    cases r <;> simp only [allows, reads, and_self] at he <;>
      simp only [execRec, State.readRecord, State.answer, State.fail] at h <;>
      first
        | (cases h; rfl)
        | (split at h <;> cases h <;> rfl)
  | host r => cases h; rfl

end Footprint

open Footprint

theorem Asks.reads {e : Req} (he : reads.allows e) : Asks host P e fun _ => P where
  run s a s' hi hp _ h := by rw [exec_reads he h]; exact ⟨hi, D.guar_refl p s, hp⟩
  fault _ _ hp _ _ := hp

theorem Spec.looks (hm : Footprint.reads.Within m) : Spec host P m (fun _ => P) fun _ => P :=
  .keeps hm fun _ he => .reads he

theorem Spec.looks_or (hm : Footprint.reads.Within m) (hX : ∀ e s, D.inv s → P s → X e s) :
    Spec host P m (fun _ => P) X :=
  (looks hm).err hX

theorem Spec.syncAll (operation : String) :
    Spec host P (syncAll operation) (fun _ => P) fun _ => P :=
  .looks (.syncAll operation)

theorem Spec.openGeneration {id : GenerationId}
    (hP' : ∀ s d, D.inv s → P s → s.dirs.lookup (.final id) = some d → B s) :
    Spec host P (openGeneration id) (fun _ => B) fun _ => P := by
  refine .bind (J := Ends (fun _ => B) fun _ => P) (Spec.sys ⟨?_, fun s _ hp _ _ => hp⟩) ?_
  · intro s a s' hi hp _ h
    change execDir host p s (.open (.final id)) = _ at h
    simp only [execDir, State.answer, State.fail] at h
    split at h
    · cases h; exact ⟨hi, D.guar_refl p s, hp⟩
    · next d hd => cases h; exact ⟨hi, D.guar_refl p s, hP' s d hi hp hd⟩
  · rintro (n | ino)
    · cases n <;> exact .throw fun _ _ h => h
    · exact .pure fun _ _ h => h

theorem Spec.verify {id : GenerationId} {mode : Nat}
    (hP' : ∀ s d, D.inv s → P s → s.dirs.lookup (.final id) = some d → B s) (hP : ∀ s, B s → P s) :
    Spec host P (verifyGenerationWithDirectoryMode host id mode)
      (fun g => B ⊓ .fact (Verified host id g)) fun _ => P := by
  refine .yields (.bind (Spec.openGeneration hP') fun ino => ?_) (yields_verify id mode)
  refine (Spec.looks (P := B) ?_).conseq (fun _ _ h => h) (fun _ _ _ h => h) fun _ s _ h => hP s h
  -- what follows the first answer is within the footprint of the whole
  exact (within_verify host id mode).2 (.ok ino)

end PocketVm.Store

/-! ### Routines on instances, by what their requests keep -/

namespace PocketVm.Store

open Conc Discipline Footprint

namespace Footprint

variable {F : Footprint}

section
variable (host : Host)

theorem within_readInstance (id : InstanceId) : F.Within (readInstance host id) :=
  .bind (.sys trivial) fun r => by
    split
    · exact .throw _
    · exact .throw _
    · exact .throw _
    · exact .bind (.require _ _) fun _ => .pure _

theorem within_discardInstanceDirectory {name : String}
    (hd : F.dirs (.instance (Instance.deriveId host name))) :
    F.Within (discardInstanceDirectory host name) :=
  .bind (.ofExcept _) fun _ => .bind (.attempt (within_readInstance host _)) fun r => by
    split
    · exact within_removeTree hd
    · exact .throw _
    · exact .throw _

theorem within_runDirectory {retain : RetainRequest}
    (hd : F.dirs (.instance (Instance.deriveId host retain.name))) :
    F.Within (runDirectory host retain) := by
  refine .ite ?_ ?_
  · refine .bind (.ofExcept _) fun _ => .bind (.sys trivial) fun r => ?_
    split
    · exact .pure _
    · exact .throw _
  · refine .bind (.ofExcept _) fun _ => .bind (.sys hd) fun r => ?_
    split
    · exact .bind (.syncAll _) fun _ => .pure _
    · exact .throw _
    · exact .throw _

theorem within_checkOverlay (resume : Bool) (id : InstanceId) : F.Within (checkOverlay resume id) :=
  .bind (.attempt (within_openOverlay _)) fun r => by
    split
    · exact .require _ _
    · exact .require _ _

theorem within_runGuest {id : InstanceId} (hd : F.dirs (.instance id)) (fresh : Bool)
    (overlay : Wire.Bytes) : F.Within (runGuest id fresh overlay) :=
  .bind (.ask trivial) fun _ => .ite (.bind (.ask hd) fun _ => .ask hd) (.ask hd)

end

end Footprint

theorem yields_runDirectory {host : Host} {retain : RetainRequest} :
    Fallible.Yields (fun id => id = Instance.deriveId host retain.name)
      (runDirectory host retain) := by
  unfold runDirectory
  split
  · refine .bind (.any _) fun _ _ => .bind (.any _) fun r _ => ?_
    split
    · exact .pure rfl
    · exact .throw _
  · refine .bind (.any _) fun _ _ => .bind (.any _) fun r _ => ?_
    split
    · exact .bind (.any _) fun _ _ => .pure rfl
    · exact .throw _
    · exact .throw _

namespace Footprint

variable {F : Footprint} {host : Host}

theorem within_startWithLease {retain : RetainRequest}
    (hd : F.dirs (.instance (Instance.deriveId host retain.name))) (overlay : Wire.Bytes) :
    F.Within (startWithLease host retain overlay) := by
  refine .bind (.ask trivial) fun _ =>
    .bind_of (within_runDirectory host hd) yields_runDirectory fun id hid => ?_
  subst hid
  exact .bind (within_checkOverlay _ _) fun _ => .bind (.ask trivial) fun _ =>
    .bind (within_runGuest hd _ _) fun _ => .pure _

theorem within_discardOnError {α : Type} {m : StoreM α} {name : String}
    (hd : F.dirs (.instance (Instance.deriveId host name))) (hm : F.Within m) :
    F.Within (discardOnError host name m) :=
  .bind (.attempt hm) fun r => by
    cases r with
    | ok a => exact .pure a
    | error e => exact .bind (.attempt (within_discardInstanceDirectory host hd)) fun _ => .throw e

end Footprint

/-- Outside the roots lock: a generation's lease, and temporary names. -/
def outside : Footprint := { reads with
  temps := True
  opens := fun n => ∃ g, n = .lease g
  names := fun n => ∃ g, n = .lease g }

def inside (i : InstanceId) : Footprint := { reads with
  temps := True
  retained := True
  instances := (· = i) }

variable {D : Discipline Op Req State} {p : Nat} {host : Host} {P : Assn D p} {i : InstanceId}

/-- `P` is kept by what retaining a run of `i` does outside the roots lock and under it. -/
structure Keeping (host : Host) (P : Assn D p) (i : InstanceId) : Prop where
  out : ∀ e, outside.allows e → Asks host P e fun _ => P
  shared : ∀ {α : Type} {m : StoreM α}, outside.Within m →
    Spec host P (withRoots .shared m) (fun _ => P) fun _ => P
  locked : ∀ {α : Type} {m : StoreM α}, (inside i).Within m →
    Spec host P (withRoots .exclusive m) (fun _ => P) fun _ => P

namespace Keeping

variable (K : Keeping host P i)
include K

theorem looks {α : Type} {m : StoreM α} (hm : outside.Within m) :
    Spec host P m (fun _ => P) fun _ => P :=
  .keeps hm K.out

theorem spec_acquireLease (g : GenerationId) :
    Spec host P (acquireLease host g) (fun _ => P) fun _ => P :=
  K.looks (within_acquireLease host trivial ⟨g, rfl⟩ ⟨g, rfl⟩)

theorem spec_registerRetainedCow (g : GenerationId) (path : CowPath) (digest : Digest)
    (state : RetainedCowState) :
    Spec host P (registerRetainedCow host g path digest state) (fun _ => P) fun _ => P := by
  refine .bind (K.looks (within_hashOverlay host path)) fun ⟨found, size⟩ =>
    .bind (Spec.looks (.require _ _)) fun _ => K.locked ?_
  refine .bind (within_verifyGeneration host g) fun _ =>
    .bind (.attempt (within_readRetained host _)) fun r => ?_
  split
  · exact .bind (.require _ _) fun _ => .pure _
  · refine .bind (.ask (e := .temp (.write .retained)) trivial) fun t => .bind (.attempt
      (.renameNoReplace (.sys (e := .record (.linkRetained t _)) trivial)
        (.bind (.sys (e := .record (.readRetained _)) trivial) fun r => ?_)
        (.ask (e := .record (.replaceRetained t _)) trivial))) fun r => ?_
    · split
      · exact .pure _
      · exact .pure _
      · exact .throw _
    · split
      · exact .bind (.syncAll _) fun _ => .pure _
      · exact .bind (.attempt (within_unlinkTemp trivial t)) fun _ =>
          .bind (within_readRetained host _) fun _ => .bind (.require _ _) fun _ => .pure _
      · exact .bind (.attempt (within_unlinkTemp trivial t)) fun _ => .throw _
  · exact .throw _

theorem spec_createInstance {name : String} (hi : Instance.deriveId host name = i)
    (g : GenerationId)
    (root : RetainedCowId) (retain : RetainRequest) (created finished : UInt64)
    (outcome : InstanceOutcome) :
    Spec host P (createInstance host name g root retain created finished outcome) (fun _ => P)
      fun _ => P := by
  subst hi
  refine .bind (Spec.looks (.ofExcept _)) fun _ => .bind (Spec.looks (.require _ _)) fun _ =>
    .bind (Spec.looks (.require _ _)) fun _ => K.locked ?_
  refine .bind (within_writeInstance host trivial _) fun t => .bind (.attempt
    (.renameNoReplace (.sys (e := .record (.linkInstance t _)) rfl)
      (.bind (.sys (e := .record (.readInstance _)) trivial) fun r => ?_)
      (.ask (e := .record (.replaceInstance t _ _)) rfl))) fun r => ?_
  · split
    · exact .pure _
    · exact .pure _
    · exact .throw _
  · split
    · exact .bind (.syncAll _) fun _ => .pure _
    · exact .bind (.attempt (within_unlinkTemp trivial t)) fun _ => .throw _
    · exact .bind (.attempt (within_unlinkTemp trivial t)) fun _ => .throw _

theorem spec_readInstanceByName (name : String) :
    Spec host P (readInstanceByName host name) (fun _ => P) fun _ => P :=
  .bind (Spec.looks (.ofExcept _)) fun _ => K.shared (within_readInstance host _)

theorem spec_dropRoot (root : RetainedCowId) :
    Spec host P (dropRoot host root) (fun _ => P) fun _ => P := by
  have hdrop : Spec host P (removeRetainedCow host root) (fun _ => P) fun _ => P :=
    K.locked (.bind (within_readRetained host root) fun _ =>
      .bind (.ask (e := .record (.unlinkRetained root)) trivial) fun _ =>
      .bind (.syncAll _) fun _ => .pure _)
  refine .bind (J := fun _ => P) ((Spec.attempt hdrop).post
    fun r _ _ h => by cases r <;> exact h) fun r => ?_
  split
  · exact .pure fun _ _ h => h
  · exact .pure fun _ _ h => h
  · exact .throw fun _ _ h => h

theorem spec_rewriteInstance {name : String} (hi : Instance.deriveId host name = i)
    (root : RetainedCowId) (finished : UInt64) (outcome : InstanceOutcome) :
    Spec host P (rewriteInstance host name root finished outcome) (fun _ => P) fun _ => P := by
  subst hi
  refine .bind (K.spec_readInstanceByName name) fun previous => .bind (J := fun _ => P)
    (.bind (Spec.looks (.ofExcept _)) fun _ => K.locked ?_) fun updated =>
    Spec.ite (.pure fun _ _ h => h) (.bind (K.spec_dropRoot _) fun _ => .pure fun _ _ h => h)
  exact .bind (within_readInstance host _) fun _ =>
    .bind (within_writeInstance host trivial _) fun t =>
    .bind (.ask (e := .record (.replaceInstance t _ _)) rfl) fun _ =>
      .bind (.syncAll _) fun _ => .pure _

theorem spec_retainInstance {retain : RetainRequest} (hi : Instance.deriveId host retain.name = i)
    (output : RunOutput) (created finished : UInt64) :
    Spec host P (retainInstance host output retain created finished) (fun _ => P) fun _ => P := by
  unfold retainInstance
  split
  · exact .throw fun _ _ h => h
  · next path _ =>
    refine .bind (K.looks (within_openOverlay path)) fun f => ?_
    split
    · refine .bind (K.spec_acquireLease _) fun _ => Spec.holding
        (.bind (K.spec_registerRetainedCow _ _ _ _) fun r => Spec.ite
          (K.spec_rewriteInstance hi _ _ _) (K.spec_createInstance hi _ _ _ _ _ _))
        (fun _ => K.out (.lock (.close _)) ⟨_, rfl⟩) fun _ => K.out (.lock (.close _)) ⟨_, rfl⟩
    · exact .throw fun _ _ h => h

theorem spec_leaseRetainedCow (root : RetainedCowId) :
    Spec host P (leaseRetainedCow host root) (fun _ => P) fun _ => P :=
  K.shared (.bind (within_readRetained host root) fun r => .bind (within_hashOverlay host r.cowPath)
    fun _ => .bind (.require _ _) fun _ => .bind (.require _ _) fun _ =>
    .bind (within_acquireLease host trivial ⟨_, rfl⟩ ⟨_, rfl⟩) fun _ => .pure _)

end Keeping

end PocketVm.Store
