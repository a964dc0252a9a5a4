import PocketVm.Protocol.BuilderHistory
import PocketVm.Runtime.BuilderProtocol

/-!
# What a successful build has left on disk

Whatever frames a guest sends: if the host's side of a build succeeds, the manifest file is what the
session accepted, and it describes a tree of the layout that the host expects.
-/

namespace PocketVm.Runtime

open Wire Checked Protocol Transport Mutating BuilderSession List

section

variable {sha256 : Bytes → Digest} {codecs : BuilderCodecs}

/-! ### The files -/

namespace SidecarFile

variable {f f' : SidecarFile} {bytes : Bytes} {operation path : String}

def AtEnd (f : SidecarFile) : Prop := f.position = f.contents.length

theorem writeAll_ok (hf : f.AtEnd) (h : f.writeAll bytes operation path = (.ok (), f')) :
    f'.contents = f.contents ++ bytes ∧ f'.AtEnd := by
  unfold writeAll at h
  split at h
  · cases h
    unfold AtEnd at hf ⊢
    simp [put, next, hf]
  · cases h

def Fresh (f : SidecarFile) : Prop := f.contents = [] ∧ f.AtEnd

theorem reset_ok (h : f.reset path = (.ok (), f')) : f'.Fresh := by
  unfold reset setLen seek at h
  grind [next, Fresh, AtEnd]

end SidecarFile

/-! ### The channel -/

def chunksIn (accepted : List BuilderMessage) : List ManifestChunk :=
  accepted.filterMap fun m => match m with
    | .manifestChunk chunk => some chunk
    | _ => none

variable {message : BuilderMessage} {v : ManifestStructuralVerifier} {r r' : BuildRun}
  {es : List ManifestEntry}
variable {α : Type}

variable {c c' : BuilderControl} {a : α} {stage : String} {due : BuilderMessage → Option α}
  {done : BuilderDone}

theorem BuilderControl.receive_ok (h : c.receive sha256 codecs = (.ok message, c')) :
    ∃ next sequence,
      Accepts sha256 codecs.manifestEntry c.session .guestToHost message next ∧
      message.validate sha256 codecs.accountDatabase = .ok () ∧
      c'.session = next.setSequence .guestToHost sequence ∧
        c'.accepted = c.accepted ++ [message] := by
  unfold receive at h
  simp only [FrameReader.withLimits] at h
  rw [if_neg (Nat.lt_irrefl _)] at h
  dsimp only at h
  split at h
  · cases h
  · split at h
    · cases h
    · split at h
      · cases h
      · next candidate hacc =>
        cases h
        obtain ⟨-, -, hvalid, next, hstep, rfl⟩ := accept_ok hacc
        exact ⟨next, _, hstep, hvalid, rfl, rfl⟩

theorem BuilderControl.send_ok (h : c.send sha256 codecs message = (.ok (), c')) : ∃ next sequence,
      Accepts sha256 codecs.manifestEntry c.session .hostToGuest message next ∧
      c'.session = next.setSequence .hostToGuest sequence ∧ c'.accepted = c.accepted := by
  unfold send at h
  split at h
  · cases h
  · dsimp only at h
    split at h
    · cases h
    · next candidate hacc =>
      split at h
      · cases h
      · split at h
        · cases h
        · cases h
          obtain ⟨-, -, -, next, hstep, rfl⟩ := accept_ok hacc
          exact ⟨next, _, hstep, rfl, rfl⟩

/-! ### The verifier -/

namespace ManifestStructuralVerifier

def Admitted (e : ManifestEntry) : Prop :=
  e.path = [] ∧ e.kind = 2 ∨ e.path = MARKER ∧ e.kind = 1 ∨ e.path = ROOTFS ∧ e.kind = 2 ∨
    (utf8 "rootfs/").isPrefixOf e.path

structure Knows (v : ManifestStructuralVerifier) (es : List ManifestEntry) : Prop where
  sorted : es.Pairwise fun a b => manifestPathOrder a.path b.path = .lt
  last : v.previousPath = es.getLast?.map ManifestEntry.path
  root : v.sawRoot → ∃ e ∈ es, e.path = []
  rootfs : v.sawRootfs → ∃ e ∈ es, e.path = ROOTFS
  marker : ∀ digest, v.markerDigest = some digest → ∃ e ∈ es,
    e.path = MARKER ∧ e.contentSha256.map hexEncode = some digest
  admitted : ∀ e ∈ es, Admitted e

theorem knows_default : Knows .default [] :=
  ⟨.nil, rfl, nofun, nofun, nofun, nofun⟩

variable {es : List ManifestEntry} {e : ManifestEntry} {v v' : ManifestStructuralVerifier}

theorem sorted_concat (hs : es.Pairwise fun a b => manifestPathOrder a.path b.path = .lt)
    (hlast : ∀ a, es.getLast? = some a → manifestPathOrder a.path e.path = .lt) :
    (es ++ [e]).Pairwise fun a b => manifestPathOrder a.path b.path = .lt := by
  rcases eq_nil_or_concat' es with rfl | ⟨init, l, rfl⟩
  · exact pairwise_singleton ..
  · have hl := hlast l (by simp)
    rw [pairwise_append] at hs ⊢
    have htrans : ∀ a ∈ init, manifestPathOrder a.path e.path = .lt := fun a ha =>
      manifestPathOrder_total.trans _ _ _ (hs.2.2 a ha l (mem_singleton_self l)) hl
    grind

theorem placeEntry_ok (h : v.placeEntry e = .ok v') :
    Admitted e ∧ (v'.sawRoot → v.sawRoot ∨ e.path = []) ∧
      (v'.sawRootfs → v.sawRootfs ∨ e.path = ROOTFS) ∧ ∀ digest, v'.markerDigest = some digest →
        v.markerDigest = some digest ∨ e.path = MARKER ∧
          e.contentSha256.map hexEncode = some digest := by
  unfold placeEntry at h
  split_ifs at h <;> simp only [bind_ok, stop_ok, pure_ok] at h <;> grind [Admitted]

theorem Knows.step (hk : Knows v es) (h : v.acceptEntry e = .ok v') : Knows v' (es ++ [e]) := by
  unfold acceptEntry at h
  simp only [bind_ok, stop_ok, pure_ok] at h
  obtain ⟨_, horder, w, hw, rfl⟩ := h
  obtain ⟨hadmitted, hroot, hrootfs, hmarker⟩ := placeEntry_ok hw
  have hsorted : (es ++ [e]).Pairwise fun a b => manifestPathOrder a.path b.path = .lt := by
    refine sorted_concat hk.sorted fun a ha => ?_
    rw [hk.last, ha] at horder
    simpa using horder
  have hkeeps : ∀ {P : ManifestEntry → Prop} {q : Prop}, (q → ∃ x ∈ es, P x) → q ∨ P e →
    ∃ x ∈ es ++ [e], P x := by
    rintro P q hold (hq | hnew)
    · obtain ⟨x, hx, hp⟩ := hold hq
      exact ⟨x, mem_append_left _ hx, hp⟩
    · exact ⟨e, mem_append_right _ (mem_singleton_self e), hnew⟩
  refine ⟨hsorted, by simp, fun h => hkeeps hk.root (hroot h), fun h => hkeeps hk.rootfs (hrootfs h),
    fun d h => hkeeps (hk.marker d) (hmarker d h), fun x hx => ?_⟩
  rcases mem_append.mp hx with hx | hx
  · exact hk.admitted x hx
  · rwa [mem_singleton.mp hx]

theorem Knows.bytes {es' : List ManifestEntry} {bytes : Bytes}
    (hk : Knows v es) (hf : Framed codecs.manifestEntry bytes es')
    (h : v.acceptBytes codecs.manifestEntry bytes = .ok v') : Knows v' (es ++ es') := by
  induction hf generalizing v es with
  | nil =>
    rw [acceptBytes] at h
    cases h
    rwa [append_nil]
  | @cons e payload rest es' hcanon _ _ ih =>
    rw [acceptBytes, dif_neg frame_ne_nil] at h
    simp only [entryLength_frame hcanon.length, payload_frame, rest_frame, bind_ok, stop_ok,
      mapError_ok] at h
    obtain ⟨_, -, _, -, e', hdec, _, -, w, hw, h⟩ := h
    rw [decodePayload_eq_ok.mpr hcanon] at hdec
    cases hdec
    have := ih (hk.step hw) h
    rwa [append_assoc] at this

end ManifestStructuralVerifier

/-! ### The stream of chunks -/

/-- The session, the file and the verifier have all seen the same entries. -/
structure Streaming (codecs : BuilderCodecs) (v : ManifestStructuralVerifier) (r : BuildRun)
    (es : List ManifestEntry) : Prop where
  atEnd : r.metadataManifest.AtEnd
  written : r.metadataManifest.contents = manifestBytes (chunksIn r.control.accepted)
  hasher : r.control.session.manifestHasher = r.metadataManifest.contents
  framed : Framed codecs.manifestEntry r.metadataManifest.contents es
  count : r.control.session.nextEntry = es.length
  knows : v.Knows es

theorem chunksIn_concat {accepted : List BuilderMessage} {chunk : ManifestChunk} :
    chunksIn (accepted ++ [.manifestChunk chunk]) = chunksIn accepted ++ [chunk] := by
  simp [chunksIn]

/-- After the last chunk: the manifest is on disk, and the session remembers its digest. -/
theorem streamManifest_ok {v' : ManifestStructuralVerifier}
    (hs : Streaming codecs v r es) (h : streamManifest sha256 codecs v r = (.ok v', r')) :
    ∃ es', v'.Knows es' ∧ Framed codecs.manifestEntry r'.metadataManifest.contents es' ∧
      r'.metadataManifest.contents = manifestBytes (chunksIn r'.control.accepted) ∧
      r'.control.session.manifestSha256 = some (hexDigest sha256 r'.metadataManifest.contents) ∧
      r'.control.session.nextEntry = es'.length ∧ r'.accounts = r.accounts := by
  induction hn : r.control.input.bytes.length using Nat.strong_induction_on generalizing v r es with
  | _ n ih =>
    rw [streamManifest] at h
    split at h
    · cases h
    · next chunk control hrec =>
      obtain ⟨next, sequence, hstep, -, hsession, haccepted⟩ := BuilderControl.receive_ok hrec
      have hless := BuilderControl.receive_consumes sha256 codecs hrec
      split at h
      · cases h
      · next w hw =>
        split at h
        · cases h
        · next metadataManifest hwrite =>
          obtain ⟨hcontents, hend⟩ := SidecarFile.writeAll_ok hs.atEnd hwrite
          cases hstep with
          | @chunk _ limits es' _ _ _ _ _ hframed _ _ _ _ =>
            have hnext : Streaming codecs w { r with control, metadataManifest } (es ++ es') := by
              refine ⟨hend, ?_, ?_, ?_, ?_, hs.knows.bytes hframed hw⟩
              · show metadataManifest.contents = manifestBytes (chunksIn control.accepted)
                rw [haccepted, chunksIn_concat, manifestBytes_concat, hcontents, hs.written]
              · show control.session.manifestHasher = metadataManifest.contents
                rw [hsession, hcontents, ← hs.hasher]
                rfl
              · show Framed codecs.manifestEntry metadataManifest.contents (es ++ es')
                rw [hcontents]
                exact hs.framed.append hframed
              · show control.session.nextEntry = (es ++ es').length
                rw [hsession, length_append, ← hs.count]
                rfl
            have hrun := ih control.input.bytes.length (by omega) hnext h rfl
            exact hrun
    · next fin control hrec =>
      obtain ⟨next, sequence, hstep, -, hsession, haccepted⟩ := BuilderControl.receive_ok hrec
      cases h
      cases hstep with
      | fin _ =>
        refine ⟨es, hs.knows, hs.framed, ?_, ?_, ?_, rfl⟩
        · show r.metadataManifest.contents = manifestBytes (chunksIn control.accepted)
          rw [haccepted, hs.written]
          simp [chunksIn]
        · show control.session.manifestSha256 = some (hexDigest sha256 r.metadataManifest.contents)
          rw [hsession, ← hs.hasher]
          rfl
        · show control.session.nextEntry = es.length
          rw [hsession, ← hs.count]
          rfl
    · cases h
    · cases h

/-! ### The whole protocol -/

theorem callOn_ok {π : Type} {called : BuildRun → Except HostBuildError α × π}
    {put : BuildRun → π → BuildRun}
    (h : (BuildM.callOn called put).run.run r = (.ok a, r')) : ∃ part, called r = (.ok a, part) ∧
    r' = put r part := by
  have hrun : ((called r).1, put r (called r).2) = (.ok a, r') := h
  obtain ⟨hresult, rfl⟩ := Prod.mk.inj hrun
  exact ⟨(called r).2, Prod.ext hresult rfl, rfl⟩

theorem expectMessage_ok : expectMessage stage due message = .ok a ↔ due message = some a := by
  unfold expectMessage
  cases h : due message with
  | some b => simp
  | none => cases message <;> simp

/-- What a successful build has left: the manifest file, the entries in it, and the account
database. -/
structure Evidence (sha256 : Bytes → Digest) (codecs : BuilderCodecs) (done : BuilderDone)
    (r : BuildRun) (es : List ManifestEntry) : Prop where
  written : r.metadataManifest.contents = manifestBytes (chunksIn r.control.accepted)
  digest : hexDigest sha256 r.metadataManifest.contents = done.manifestSha256
  decoded : decodeManifest codecs.manifestEntry r.metadataManifest.contents = .ok es
  count : es.length = done.entryCount.toNat
  sorted : es.Pairwise fun a b => manifestPathOrder a.path b.path = .lt
  distinct : (es.map ManifestEntry.path).Nodup
  root : ∃! e, e ∈ es ∧ e.path = []
  rootKind : ∀ e ∈ es, e.path = [] → e.kind = 2
  rootfs : ∃! e, e ∈ es ∧ e.path = ManifestStructuralVerifier.ROOTFS
  rootfsKind : ∀ e ∈ es, e.path = ManifestStructuralVerifier.ROOTFS → e.kind = 2
  marker : ∃! e, e ∈ es ∧ e.path = ManifestStructuralVerifier.MARKER
  markerKind : ∀ e ∈ es, e.path = ManifestStructuralVerifier.MARKER →
    e.kind = 1 ∧ e.contentSha256.map hexEncode = some done.generationMarkerSha256
  below : ∀ e ∈ es, e.path = [] ∨ e.path = ManifestStructuralVerifier.MARKER ∨
    e.path = ManifestStructuralVerifier.ROOTFS ∨ (utf8 "rootfs/").isPrefixOf e.path
  accounts : hexDigest sha256 r.accounts.contents = done.accountDbSha256

theorem ManifestStructuralVerifier.finish_ok (h : v.finish = .ok ()) : v.sawRoot = true ∧
    v.sawRootfs = true := by
  unfold finish at h
  simp only [stop_ok, not_or, not_not] at h
  exact ⟨h.1, h.2.1⟩

theorem one_of_path {path : Bytes} (hd : (es.map ManifestEntry.path).Nodup)
    (h : ∃ e ∈ es, e.path = path) : ∃! e, e ∈ es ∧ e.path = path := by
  obtain ⟨e, he, hp⟩ := h
  refine ⟨e, ⟨he, hp⟩, ?_⟩
  rintro e' ⟨he', hp'⟩
  exact inj_on_of_nodup_map hd he' he (hp'.trans hp.symm)

theorem Evidence.of_knows (hk : v.Knows es) (hroot : v.sawRoot = true)
    (hrootfs : v.sawRootfs = true) (hmarker : v.markerDigest = some done.generationMarkerSha256)
    (hwritten : r.metadataManifest.contents = manifestBytes (chunksIn r.control.accepted))
    (hdigest : hexDigest sha256 r.metadataManifest.contents = done.manifestSha256)
    (hframed : Framed codecs.manifestEntry r.metadataManifest.contents es)
    (hcount : es.length = done.entryCount.toNat)
    (haccounts : hexDigest sha256 r.accounts.contents = done.accountDbSha256) :
    Evidence sha256 codecs done r es := by
  have hdistinct : (es.map ManifestEntry.path).Nodup := by
    refine pairwise_map.mpr (hk.sorted.imp fun {a b} hlt heq => ?_)
    rw [manifestPathOrder_total.eq_iff a.path b.path |>.mpr heq] at hlt
    cases hlt
  obtain ⟨m, hm, hpath, hcontent⟩ := hk.marker _ hmarker
  have hfixed : ManifestStructuralVerifier.MARKER ≠ [] ∧ ManifestStructuralVerifier.ROOTFS ≠ [] ∧
      ManifestStructuralVerifier.MARKER ≠ ManifestStructuralVerifier.ROOTFS ∧
      (utf8 "rootfs/").isPrefixOf ManifestStructuralVerifier.MARKER = false ∧
      (utf8 "rootfs/").isPrefixOf ManifestStructuralVerifier.ROOTFS = false := by decide +kernel
  have hkinds : ∀ e ∈ es, (e.path = [] → e.kind = 2) ∧
    (e.path = ManifestStructuralVerifier.ROOTFS → e.kind = 2) ∧
      (e.path = ManifestStructuralVerifier.MARKER → e.kind = 1) := by
    intro e he
    rcases hk.admitted e he with ⟨hp, hkind⟩ | ⟨hp, hkind⟩ | ⟨hp, hkind⟩ | hbelow <;> grind
  exact
    { written := hwritten
      digest := hdigest
      decoded := decodeManifest_framed hframed
      count := hcount
      sorted := hk.sorted
      distinct := hdistinct
      root := one_of_path hdistinct (hk.root hroot)
      rootKind := fun e he => (hkinds e he).1
      rootfs := one_of_path hdistinct (hk.rootfs hrootfs)
      rootfsKind := fun e he => (hkinds e he).2.1
      marker := one_of_path hdistinct ⟨m, hm, hpath⟩
      markerKind := fun e he hp => by
        have heq : e = m := inj_on_of_nodup_map hdistinct he hm (hp.trans hpath.symm)
        exact ⟨(hkinds e he).2.2 hp, heq ▸ hcontent⟩
      below := fun e he => (hk.admitted e he).imp And.left (Or.imp And.left (Or.imp And.left id))
      accounts := haccounts }

theorem receive_due {β : Type} {next : α → BuildM β} {b : β}
    (h : (do
      let message ← receive sha256 codecs
      let a ← check (expectMessage stage due message)
      next a : BuildM β).run.run r = (.ok b, r')) :
    ∃ message a control, r.control.receive sha256 codecs = (.ok message, control) ∧
      due message = some a ∧ (next a).run.run { r with control } = (.ok b, r') := by
  rw [run_bind_ok] at h
  obtain ⟨message, _, hrun, h⟩ := h
  obtain ⟨control, hrec, rfl⟩ := callOn_ok hrun
  rw [run_check_bind] at h
  obtain ⟨a, hdue, h⟩ := h
  exact ⟨message, a, control, hrec, expectMessage_ok.mp hdue, h⟩

theorem runBuilderProtocol_ok {start : BuilderStart} {profile : VerifiedProfile}
    (hcontrol : r.control.accepted = []) (hfile : r.metadataManifest.Fresh)
    (haccounts : r.accounts.Fresh)
    (h : (runBuilderProtocol sha256 codecs start profile).run.run r = (.ok done, r')) :
    ∃ es, Evidence sha256 codecs done r' es := by
  -- HELLO and START
  obtain ⟨message, hello, c₁, hrec, hdue, h⟩ := receive_due h
  cases message <;> cases hdue
  obtain ⟨-, -, -, -, -, hacc₁⟩ := BuilderControl.receive_ok hrec
  rw [run_check_bind] at h
  obtain ⟨⟨⟩, -, h⟩ := h
  rw [run_bind_ok] at h
  obtain ⟨⟨⟩, _, hrun, h⟩ := h
  obtain ⟨c₂, hsend, rfl⟩ := callOn_ok hrun
  obtain ⟨-, -, -, -, hacc₂⟩ := BuilderControl.send_ok hsend
  -- MANIFEST_BEGIN: the session and the verifier start with an empty manifest
  obtain ⟨message, begin, c₃, hrec', hdue', h⟩ := receive_due h
  cases message <;> cases hdue'
  obtain ⟨_, _, hbegin, -, hsession₃, hacc₃⟩ := BuilderControl.receive_ok hrec'
  have hchunks : chunksIn c₃.accepted = [] := by
    rw [hacc₃, hacc₂, hacc₁, hcontrol]
    rfl
  have hstreaming : Streaming codecs .default { r with control := c₃ } [] := by
    cases hbegin with
    | begin _ =>
      refine ⟨hfile.2, ?_, ?_, ?_, ?_, ManifestStructuralVerifier.knows_default⟩
      · show r.metadataManifest.contents = manifestBytes (chunksIn c₃.accepted)
        rw [hchunks, hfile.1]
        rfl
      · show c₃.session.manifestHasher = r.metadataManifest.contents
        rw [hsession₃, hfile.1]
        rfl
      · show Framed codecs.manifestEntry r.metadataManifest.contents []
        rw [hfile.1]
        exact .nil
      · show c₃.session.nextEntry = 0
        rw [hsession₃]
        rfl
  rw [run_bind_ok] at h
  obtain ⟨verifier, r₄, hstream, h⟩ := h
  obtain ⟨es, hknows, hframed, hwritten, hdigest, hcount, hsame⟩ :=
    streamManifest_ok hstreaming hstream
  rw [run_check_bind] at h
  obtain ⟨⟨⟩, hfinish, h⟩ := h
  obtain ⟨hroot, hrootfs⟩ := verifier.finish_ok hfinish
  -- ACCOUNT_DB: written to its own file
  obtain ⟨message, accountDb, c₅, hrec₅, hdue₅, h⟩ := receive_due h
  cases message <;> cases hdue₅
  obtain ⟨_, _, haccountDb, -, hsession₅, hacc₅⟩ := BuilderControl.receive_ok hrec₅
  rw [run_check_bind] at h
  obtain ⟨⟨⟩, hvalid, h⟩ := h
  rw [run_bind_ok] at h
  obtain ⟨⟨⟩, _, hrun₆, h⟩ := h
  obtain ⟨accounts, hwrite, rfl⟩ := callOn_ok hrun₆
  have hfresh : r₄.accounts.Fresh := hsame ▸ haccounts
  have hcontents : accounts.contents = accountDb.canonicalBytes := by
    rw [(SidecarFile.writeAll_ok hfresh.2 hwrite).1, hfresh.1, nil_append]
  -- BUILD_DONE: against what the session, the verifier and the account database recorded
  obtain ⟨message, final, c₇, hrec₇, hdue₇, h⟩ := receive_due h
  cases message <;> cases hdue₇
  obtain ⟨_, _, hdone, -, -, hacc₇⟩ := BuilderControl.receive_ok hrec₇
  rw [run_check_bind] at h
  obtain ⟨⟨⟩, hacdb, h⟩ := h
  rw [run_check_bind] at h
  obtain ⟨marker, hmarker, h⟩ := h
  rw [run_check_bind] at h
  obtain ⟨⟨⟩, hsame', h⟩ := h
  cases h
  unfold AccountDb.validate at hvalid
  simp only [bind_ok, mapError_ok, refuse_ok, not_not] at hvalid
  obtain ⟨_, -, _, -, _, -, _, -, _, hsha, -⟩ := hvalid
  simp only [compareEvidence, stop_ok, not_not] at hacdb hsame'
  have hchunks₇ : chunksIn c₇.accepted = chunksIn r₄.control.accepted := by
    rw [hacc₇, hacc₅]
    simp [chunksIn]
  cases haccountDb with
  | accountDb _ =>
    cases hdone with
    | done _ hmanifest hentries =>
      rw [hsession₅] at hmanifest hentries
      refine ⟨es, .of_knows hknows hroot hrootfs ?_ ?_ ?_ hframed
        (hcount.symm.trans hentries.symm) ?_⟩
      · rw [← hsame']
        exact require_ok.mp hmarker
      · show r₄.metadataManifest.contents = manifestBytes (chunksIn c₇.accepted)
        rw [hchunks₇, hwritten]
      · exact Option.some.inj (hdigest.symm.trans hmanifest)
      · show hexDigest sha256 accounts.contents = _
        rw [hcontents, ← hsha, hacdb]

/-- Whatever an earlier attempt left in the sidecars, and whatever a guest sends. -/
theorem build_attempt_evidence (sha256 : Bytes → Digest) (codecs : BuilderCodecs)
    (start : BuilderStart)
    (profile : VerifiedProfile) (input : Input) (output : Output) (before after : BuildRun)
    (done : BuilderDone)
    (h : (buildAttempt sha256 codecs start profile input output).run.run before =
      (.ok done, after)) :
    TotalOrder manifestPathOrder ∧ ∃ es, Evidence sha256 codecs done after es := by
  refine ⟨manifestPathOrder_total, ?_⟩
  unfold buildAttempt at h
  rw [run_bind_ok] at h
  obtain ⟨⟨⟩, _, hrun, h⟩ := h
  obtain ⟨metadataManifest, hreset, rfl⟩ := callOn_ok hrun
  rw [run_bind_ok] at h
  obtain ⟨⟨⟩, _, hrun', h⟩ := h
  obtain ⟨accounts, hreset', rfl⟩ := callOn_ok hrun'
  exact runBuilderProtocol_ok rfl (SidecarFile.reset_ok hreset) (SidecarFile.reset_ok hreset') h

end

/-! ### A build of an empty root -/

namespace Sample

open Protocol.Sample

def directory (path : Bytes) : ManifestEntry := { Protocol.Sample.entry with path }

def marker : ManifestEntry :=
  { Protocol.Sample.entry with
    path := ManifestStructuralVerifier.MARKER, kind := 1,
      contentSha256 := some (List.replicate 32 0x77) }

def entries : Codec ManifestEntry := Codec.table [directory [], marker,
    directory (utf8 "rootfs")] (by decide)

def chunks : List ManifestChunk :=
  [⟨digest '9', 0, 0, 2, [0, 0, 0, 1, 0, 0, 0, 0, 1, 1]⟩, ⟨digest '9', 1, 2, 1, [0, 0, 0, 1, 2]⟩]

def accountDb : AccountDb := ⟨ACCOUNT_DB_SCHEMA, 25, hexDigest sha256 databaseBytes, databaseBytes⟩

def fin : ManifestEnd := ⟨digest '9', 3, 15, hexDigest sha256 (manifestBytes chunks)⟩

def done : BuilderDone :=
  { Protocol.Sample.done with
    manifestSha256 := hexDigest sha256 (manifestBytes chunks), entryCount := 3, byteCount := 15 }

def codecs : BuilderCodecs where
  hello := Codec.table [hello] (by decide)
  start := Codec.table [start 8] (by decide)
  manifestBegin := Codec.table [⟨"pocket-fs-manifest-v1", digest '9'⟩] (by decide)
  manifestChunk := Codec.table chunks (by decide)
  manifestEnd := Codec.table [fin] (by decide)
  accountDb := Codec.table [accountDb] (by decide)
  done := Codec.table [done] (by decide)
  error := Codec.table [] (by decide)
  accountDatabase := accounts
  manifestEntry := entries

def profile : VerifiedProfile where
  guestContractId := digest 'b'
  initBuildId := digest 'c'
  kernelBuildId := digest 'd'
  cpuStateHwcapPolicy := "native-x86_64-v1"
  hostElfMachine := 62
  guestPageSize := 4096
  builderMemoryBytes := 768 * 1024 * 1024
  requiredTools := [tool]
  requiredFeatures := ["canonical-manifest-v1"]

def input : Input :=
  ⟨wire 0 [(.buildHello, [0]), (.manifestBegin, [0]), (.manifestChunk, [0]), (.manifestChunk, [1]),
    (.manifestEnd, [0]), (.accountDb, [0]), (.buildDone, [0])], []⟩

def before : BuildRun := ⟨.new ⟨[], []⟩ ⟨[], []⟩, ⟨List.replicate 40 1, 40, []⟩,
    ⟨List.replicate 99 2, 99, []⟩⟩

def attempt : Except HostBuildError BuilderDone × BuildRun :=
  (buildAttempt sha256 codecs (start 8) profile input ⟨[], []⟩).run.run before

theorem attempt_ok : attempt = (.ok done, attempt.2) := by
  have hok : attempt.1.toOption = some done := by decide +kernel
  refine Prod.ext ?_ rfl
  cases hresult : attempt.1 with
  | error e =>
    rw [hresult] at hok
    cases hok
  | ok d =>
    rw [hresult] at hok
    exact congrArg Except.ok (Option.some.inj hok)

end Sample

open Sample in
/-- The sidecars of the earlier attempt were longer. -/
theorem build_attempt_evidence_retried : before.metadataManifest.contents.length = 40 ∧
    ∃ es, Evidence Protocol.Sample.sha256 codecs Sample.done attempt.2 es :=
  ⟨by decide, (build_attempt_evidence _ _ _ _ _ _ _ _ _ attempt_ok).2⟩

end PocketVm.Runtime
