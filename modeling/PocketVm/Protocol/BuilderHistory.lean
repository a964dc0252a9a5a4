import PocketVm.Protocol.BuilderState

/-!
# Histories of a builder session

A session is offered messages in any order, from either side, under any sequence numbers. Once it is
completed, what it accepted is one whole build. It does not look at the limits on depth, directories
and hard links that START negotiates: these hold only of streams that keep to them by themselves.
-/

namespace PocketVm.Protocol

open Wire Checked BuilderSession List

section

variable {sha256 : Bytes → Digest} {entries : Codec ManifestEntry}
  {accounts : Codec AccountDatabase}

/-! ### The limits of the walk -/

def depth (path : Bytes) : Nat := if path = [] then 0 else (components path).length

def siblings (es : List ManifestEntry) (e : ManifestEntry) : List ManifestEntry :=
  es.filter fun e' => e'.path ≠ [] ∧ (components e'.path).dropLast = (components e.path).dropLast

def linkTargets (es : List ManifestEntry) :
    List Bytes := (es.filterMap ManifestEntry.hardlinkTarget).dedup

/-- The negotiated limits on the tree that the entries describe. -/
structure WalkWithin (limits : ManifestLimits) (es : List ManifestEntry) : Prop where
  depth : ∀ e ∈ es, depth e.path ≤ limits.maxDepth.toNat
  directories : ∀ e ∈ es, e.path ≠ [] → (siblings es e).length ≤ limits.maxDirectoryEntries.toNat
  names : ∀ e ∈ es, e.path ≠ [] → ((siblings es e).map fun e' =>
    ((components e'.path).getLastD []).length).sum ≤
    limits.maxDirectoryNameBytes.toNat
  groups : (linkTargets es).length ≤ limits.maxHardlinkGroups.toNat
  paths : ((linkTargets es).map List.length).sum ≤ limits.maxHardlinkPathBytes.toNat

/-! ### Whole builds -/

abbrev Said := Direction × BuilderMessage

def chunksOf (said : List Said) : List ManifestChunk :=
  said.filterMap fun m => match m.2 with
    | .manifestChunk chunk => some chunk
    | _ => none

def startsOf (said : List Said) : List BuilderStart :=
  said.filterMap fun m => match m.2 with
    | .start start => some start
    | _ => none

def manifestBytes (chunks : List ManifestChunk) : Bytes := chunks.flatMap ManifestChunk.bytes

/-- The entry ranges of the chunks follow one another from `first` to `last`. -/
inductive Tiles : Nat → List ManifestChunk → Nat → Prop
  | nil {n : Nat} : Tiles n [] n
  | cons {n last : Nat} {c : ManifestChunk} {chunks : List ManifestChunk} : c.firstEntry.toNat = n →
    Tiles (n + c.entryCount.toNat) chunks last → Tiles n (c :: chunks) last

structure Exchange where
  hello : BuilderHello
  start : BuilderStart
  begin : ManifestBegin
  chunks : List ManifestChunk
  fin : ManifestEnd
  accountDb : AccountDb
  done : BuilderDone

namespace Exchange

def opening (hello : BuilderHello) (start : BuilderStart) (begin : ManifestBegin)
    (chunks : List ManifestChunk) :
    List Said :=
  [(.guestToHost, .hello hello), (.hostToGuest, .start start),
    (.guestToHost, .manifestBegin begin)] ++
    chunks.map fun c => (.guestToHost, .manifestChunk c)

def messages (x : Exchange) : List Said :=
  opening x.hello x.start x.begin x.chunks ++
    [(.guestToHost, .manifestEnd x.fin), (.guestToHost, .accountDb x.accountDb),
      (.guestToHost, .done x.done)]

end Exchange

structure Streamed (entries : Codec ManifestEntry) (limits : ManifestLimits)
    (chunks : List ManifestChunk) (es : List ManifestEntry) : Prop where
  framed : Framed entries (manifestBytes chunks) es
  tiles : Tiles 0 chunks es.length
  chunkBytes : ∀ c ∈ chunks, c.bytes.length ≤ limits.maxChunkBytes.toNat
  each : ∀ e ∈ es, EntryWithin entries limits e
  count : es.length ≤ limits.maxEntries.toNat
  total : (manifestBytes chunks).length ≤ limits.maxTotalBytes.toNat
  walk : WalkWithin limits es

/-- The parts of a whole build agree with one another; `es` are the entries of its manifest. -/
structure Exchange.Agrees (sha256 : Bytes → Digest) (entries : Codec ManifestEntry) (x : Exchange)
    (es : List ManifestEntry) : Prop where
  streamed : Streamed entries x.start.manifestLimits x.chunks es
  entryCount : x.done.entryCount.toNat = es.length
  byteCount : x.done.byteCount.toNat = (manifestBytes x.chunks).length
  manifest : x.done.manifestSha256 = hexDigest sha256 (manifestBytes x.chunks)
  accountDb : x.done.accountDbSha256 = hexDigest sha256 x.accountDb.canonicalBytes
  doneTools : x.done.observedTools = x.start.expectedTools
  startTools : x.start.expectedTools = x.hello.builderTools
  user : x.done.originalUser = x.start.originalUser

/-! ### Histories -/

structure Offer where
  direction : Direction
  message : BuilderMessage
  sequence : UInt64
  deriving DecidableEq

def Offer.said (o : Offer) : Said := (o.direction, o.message)

/-- One more offer: the session after it, and what it has accepted in all. -/
def offer (sha256 : Bytes → Digest) (entries : Codec ManifestEntry)
    (accounts : Codec AccountDatabase)
    (r : BuilderSession × List Offer) (o : Offer) : BuilderSession × List Offer :=
  match accept sha256 entries accounts r.1 o.direction o.message o.sequence with
  | (.ok (), s) => (s, r.2 ++ [o])
  | (.error _, s) => (s, r.2)

def history (sha256 : Bytes → Digest) (entries : Codec ManifestEntry)
    (accounts : Codec AccountDatabase) (offers : List Offer) : BuilderSession × List Offer :=
  offers.foldl (offer sha256 entries accounts) (new, [])

/-- A chunk keeps to the limits of the walk: its entries, with those accepted before it, describe a
tree within what the accepted START negotiates. -/
def KeepsWalk (entries : Codec ManifestEntry) (said : List Said)
    (message : BuilderMessage) : Prop :=
  ∀ chunk, message = .manifestChunk chunk → ∀ start ∈ startsOf said, ∀ es,
    Framed entries (manifestBytes (chunksOf said) ++ chunk.bytes) es →
      WalkWithin start.manifestLimits es

/-- Per direction, the accepted sequence numbers are 0, 1, 2 and so on. -/
def Gapless (s : BuilderSession) (accepted : List Offer) : Prop :=
  ∀ d, ((accepted.filter fun o => o.direction = d).map fun o => o.sequence.toNat) =
    List.range (s.nextSequence d).toNat

/-! ### The invariant -/

/-- What START has fixed. -/
structure Started (s : BuilderSession) (hello : BuilderHello) (start : BuilderStart) : Prop where
  tools : start.expectedTools = hello.builderTools
  expected : s.expectedTools = some start.expectedTools
  user : s.originalUser = some start.originalUser
  limits : s.manifestLimits = some start.manifestLimits

/-- The session's totals are those of the chunks. -/
structure Counted (entries : Codec ManifestEntry) (s : BuilderSession) (limits : ManifestLimits)
    (chunks : List ManifestChunk) (es : List ManifestEntry) : Prop where
  streamed : Streamed entries limits chunks es
  hasher : s.manifestHasher = manifestBytes chunks
  nextEntry : s.nextEntry = es.length
  byteCount : s.byteCount = (manifestBytes chunks).length

/-- What a session in each state has accepted, and what it remembers of it. -/
def Phase (sha256 : Bytes → Digest) (entries : Codec ManifestEntry) (s : BuilderSession)
    (said : List Said) : Prop :=
  match s.state with
  | .awaitHello => said = []
  | .awaitStart =>
    ∃ hello, said = [(.guestToHost, .hello hello)] ∧ s.observedTools = some hello.builderTools
  | .awaitManifestBegin => ∃ hello start,
    said = [(.guestToHost, .hello hello), (.hostToGuest, .start start)] ∧ Started s hello start
  | .streamingManifest => ∃ hello start begin chunks es, said = Exchange.opening hello start begin chunks ∧
    Started s hello start ∧ Counted entries s start.manifestLimits chunks es
  | .awaitAccountDb => ∃ hello start begin chunks es fin,
    said = Exchange.opening hello start begin chunks ++ [(.guestToHost, .manifestEnd fin)] ∧
    Started s hello start ∧ Counted entries s start.manifestLimits chunks es ∧
    s.manifestSha256 = some (hexDigest sha256 (manifestBytes chunks))
  | .awaitDone => ∃ hello start begin chunks es fin accountDb,
    said = Exchange.opening hello start begin chunks ++
      [(.guestToHost, .manifestEnd fin), (.guestToHost, .accountDb accountDb)] ∧
    Started s hello start ∧ Counted entries s start.manifestLimits chunks es ∧
    s.manifestSha256 = some (hexDigest sha256 (manifestBytes chunks)) ∧
    s.accountDbSha256 = some (hexDigest sha256 accountDb.canonicalBytes)
  | .completed => ∃ x es, said = Exchange.messages x ∧ x.Agrees sha256 entries es
  | .failed => True

variable {limits : ManifestLimits} {chunks : List ManifestChunk} {hello : BuilderHello}
  {start : BuilderStart}
variable {s next : BuilderSession} {sequence : UInt64} {d : Direction}

theorem WalkWithin.nil : WalkWithin limits [] := by
  exact ⟨nofun, nofun, nofun, Nat.zero_le _, Nat.zero_le _⟩

variable {c : ManifestChunk} {begin : ManifestBegin} {es : List ManifestEntry} {s' : BuilderSession}
variable {said : List Said} {m : BuilderMessage} {d' : Direction} {o : Offer} {offers : List Offer}

theorem Tiles.concat {n last : Nat} (h : Tiles n chunks last)
    (hfirst : c.firstEntry.toNat = last) : Tiles n (chunks ++ [c]) (last + c.entryCount.toNat) := by
  induction h with
  | nil => exact .cons hfirst .nil
  | cons hc _ ih => exact .cons hc (ih hfirst)

theorem manifestBytes_concat : manifestBytes (chunks ++ [c]) = manifestBytes chunks ++ c.bytes := by
  simp [manifestBytes]

theorem chunksOf_opening : chunksOf (Exchange.opening hello start begin chunks) = chunks := by
  induction chunks with
  | nil => rfl
  | cons c chunks ih =>
    simp [chunksOf, Exchange.opening] at ih ⊢

theorem startsOf_opening : startsOf (Exchange.opening hello start begin chunks) = [start] := by
  induction chunks with
  | nil => rfl
  | cons c chunks ih =>
    simp [startsOf, Exchange.opening] at ih ⊢

theorem startsOf_messages (x : Exchange) : startsOf x.messages = [x.start] := by
  rw [Exchange.messages, startsOf.eq_1, filterMap_append, ← startsOf.eq_1, startsOf_opening]
  rfl

theorem chunksOf_messages (x : Exchange) : chunksOf x.messages = x.chunks := by
  rw [Exchange.messages, chunksOf.eq_1, filterMap_append, ← chunksOf.eq_1, chunksOf_opening]
  exact append_nil _

/-- A chunk the session accepts extends the stream, within the limits of the walk if it keeps to
them. -/
theorem Counted.chunk {chunk : ManifestChunk} {es' : List ManifestEntry}
    (hc : Counted entries s limits chunks es)
    (hfirst : chunk.firstEntry.toNat = s.nextEntry)
    (hbytes : chunk.bytes.length ≤ limits.maxChunkBytes.toNat)
    (hes : Framed entries chunk.bytes es') (hnum : es'.length = chunk.entryCount.toNat)
    (hwithin : ∀ e ∈ es', EntryWithin entries limits e)
    (hcount : s.nextEntry + es'.length ≤ limits.maxEntries.toNat)
    (htotal : s.byteCount + chunk.bytes.length ≤ limits.maxTotalBytes.toNat)
    (hwalk : WalkWithin limits (es ++ es')) :
    Counted entries { s with manifestHasher := s.manifestHasher ++ chunk.bytes, nextChunkSequence := sequence,
                             nextEntry := s.nextEntry + es'.length,
                               byteCount := s.byteCount + chunk.bytes.length,
                             state := .streamingManifest }
      limits (chunks ++ [chunk]) (es ++ es') := by
  obtain ⟨hs, hhash, hnext, hlen⟩ := hc
  refine ⟨⟨?_, ?_, ?_, ?_, ?_, ?_, hwalk⟩, ?_, ?_, ?_⟩
  · rw [manifestBytes_concat]
    exact hs.framed.append hes
  · rw [length_append, hnum]
    exact hs.tiles.concat (hfirst.trans hnext)
  · intro c hmem
    rcases mem_append.mp hmem with hmem | hmem
    · exact hs.chunkBytes c hmem
    · rw [mem_singleton.mp hmem]
      exact hbytes
  · intro e hmem
    exact (mem_append.mp hmem).elim (hs.each e) (hwithin e)
  · rw [length_append, ← hnext]
    exact hcount
  · rw [manifestBytes_concat, length_append, ← hlen]
    exact htotal
  · rw [manifestBytes_concat, ← hhash]
  · rw [length_append, ← hnext]
  · rw [manifestBytes_concat, length_append, ← hlen]

theorem Started.of_eq (h : Started s hello start)
    (htools : s'.expectedTools = s.expectedTools) (huser : s'.originalUser = s.originalUser)
    (hlimits : s'.manifestLimits = s.manifestLimits) : Started s' hello start :=
  ⟨h.tools, htools.trans h.expected, huser.trans h.user, hlimits.trans h.limits⟩

theorem Counted.of_eq (h : Counted entries s limits chunks es)
    (hhasher : s'.manifestHasher = s.manifestHasher)
    (hentry : s'.nextEntry = s.nextEntry) (hbyte : s'.byteCount = s.byteCount) :
    Counted entries s' limits chunks es :=
  ⟨h.streamed, hhasher.trans h.hasher, hentry.trans h.nextEntry, hbyte.trans h.byteCount⟩

theorem Phase.setSequence (h : Phase sha256 entries s said) :
    Phase sha256 entries (s.setSequence d sequence) said := by
  have hstarted : ∀ hello start, Started s hello start →
    Started (s.setSequence d sequence) hello start :=
    fun hello start h => by cases d <;> exact h.of_eq rfl rfl rfl
  have hcounted : ∀ limits chunks es, Counted entries s limits chunks es →
      Counted entries (s.setSequence d sequence) limits chunks es :=
    fun limits chunks es h => by cases d <;> exact h.of_eq rfl rfl rfl
  have hstate : (s.setSequence d sequence).state = s.state := by cases d <;> rfl
  unfold Phase at h ⊢
  rw [hstate]
  cases hs : s.state with
  | awaitHello | completed | failed =>
    rw [hs] at h
    exact h
  | awaitStart =>
    rw [hs] at h
    cases d <;> exact h
  | awaitManifestBegin =>
    rw [hs] at h
    obtain ⟨hello, start, hsaid, h⟩ := h
    exact ⟨hello, start, hsaid, hstarted _ _ h⟩
  | streamingManifest =>
    rw [hs] at h
    obtain ⟨hello, start, begin, chunks, es, hsaid, h, hc⟩ := h
    exact ⟨hello, start, begin, chunks, es, hsaid, hstarted _ _ h, hcounted _ _ _ hc⟩
  | awaitAccountDb =>
    rw [hs] at h
    obtain ⟨hello, start, begin, chunks, es, fin, hsaid, h, hc, hd⟩ := h
    refine ⟨hello, start, begin, chunks, es, fin, hsaid, hstarted _ _ h, hcounted _ _ _ hc, ?_⟩
    cases d <;> exact hd
  | awaitDone =>
    rw [hs] at h
    obtain ⟨hello, start, begin, chunks, es, fin, db, hsaid, h, hc, hd⟩ := h
    refine ⟨hello, start, begin, chunks, es, fin, db, hsaid, hstarted _ _ h, hcounted _ _ _ hc, ?_⟩
    cases d <;> exact hd

theorem Phase.step (hp : Phase sha256 entries s said) (h : Accepts sha256 entries s d m next)
    (hvalid : m.validate sha256 accounts = .ok ()) (hwalk : KeepsWalk entries said m) :
    Phase sha256 entries next (said ++ [(d, m)]) := by
  cases h with
  | hello hstate =>
    rw [Phase, hstate] at hp
    exact ⟨_, by rw [hp]; rfl, rfl⟩
  | start hstate htools =>
    rw [Phase, hstate] at hp
    obtain ⟨hello, rfl, hobserved⟩ := hp
    have heq := Option.some.inj (htools.symm.trans hobserved)
    exact ⟨hello, _, rfl, ⟨heq, rfl, rfl, rfl⟩⟩
  | begin hstate =>
    rw [Phase, hstate] at hp
    obtain ⟨hello, start, rfl, hstarted⟩ := hp
    refine ⟨hello, start, _, [], [], rfl, hstarted.of_eq rfl rfl rfl, ?_⟩
    exact ⟨⟨.nil, .nil, nofun, nofun, Nat.zero_le _, Nat.zero_le _, .nil⟩, rfl, rfl, rfl⟩
  | @chunk chunk limits es' _ hstate hlimits hfirst hbytes hes hnum hwithin hcount htotal =>
    rw [Phase, hstate] at hp
    obtain ⟨hello, start, begin, chunks, es, rfl, hstarted, hcounted⟩ := hp
    cases hlimits.symm.trans hstarted.limits
    have hw := hwalk chunk rfl start (by rw [startsOf_opening]; exact mem_singleton_self _)
      (es ++ es') (by
      rw [chunksOf_opening]
      exact hcounted.streamed.framed.append hes)
    refine ⟨hello, start, begin, chunks ++ [chunk], es ++ es', ?_, ?_, ?_⟩
    · simp [Exchange.opening]
    · exact hstarted.of_eq rfl rfl rfl
    · exact hcounted.chunk hfirst hbytes hes hnum hwithin hcount htotal hw
  | fin hstate =>
    rw [Phase, hstate] at hp
    obtain ⟨hello, start, begin, chunks, es, rfl, hstarted, hcounted⟩ := hp
    refine ⟨hello, start, begin, chunks, es, _, rfl, ?_, ?_, ?_⟩
    · exact hstarted.of_eq rfl rfl rfl
    · exact hcounted.of_eq rfl rfl rfl
    · rw [hcounted.hasher]
  | @accountDb db hstate =>
    rw [Phase, hstate] at hp
    obtain ⟨hello, start, begin, chunks, es, fin, rfl, hstarted, hcounted, hdigest⟩ := hp
    simp only [BuilderMessage.validate, AccountDb.validate, bind_ok, refuse_ok, not_not] at hvalid
    obtain ⟨_, -, _, -, _, -, _, -, _, hdb, -⟩ := hvalid
    refine ⟨hello, start, begin, chunks, es, fin, db, ?_, ?_, ?_, hdigest, ?_⟩
    · simp
    · exact hstarted.of_eq rfl rfl rfl
    · exact hcounted.of_eq rfl rfl rfl
    · rw [hdb]
  | @done done hstate hmanifest hentries hbytes huser haccounts htools =>
    rw [Phase, hstate] at hp
    obtain ⟨hello, start, begin, chunks, es, fin, db, rfl, hstarted, hcounted, hdigest, hdb⟩ := hp
    refine ⟨⟨hello, start, begin, chunks, fin, db, done⟩, es, by simp [Exchange.messages], ?_⟩
    exact
      { streamed := hcounted.streamed
        entryCount := hentries.trans hcounted.nextEntry
        byteCount := hbytes.trans hcounted.byteCount
        manifest := Option.some.inj (hmanifest.symm.trans hdigest)
        accountDb := Option.some.inj (haccounts.symm.trans hdb)
        doneTools := Option.some.inj (htools.symm.trans hstarted.expected)
        startTools := hstarted.tools
        user := Option.some.inj (huser.symm.trans hstarted.user) }
  | error => trivial

theorem nextSequence_accepts (h : Accepts sha256 entries s d m next) :
    next.nextSequence d' = s.nextSequence d' := by
  cases h <;> cases d' <;> rfl

theorem nextSequence_setSequence :
    (s.setSequence d sequence).nextSequence d' = if d =
      d' then sequence else s.nextSequence d' := by
  cases d <;> cases d' <;> rfl

theorem Gapless.accept {accepted : List Offer} (hg : Gapless s accepted)
    (h : Accepts sha256 entries s o.direction o.message next)
    (hseq : o.sequence = s.nextSequence o.direction) (hlt : o.sequence.toNat + 1 < 2 ^ 64) :
    Gapless (next.setSequence o.direction (o.sequence + 1)) (accepted ++ [o]) := by
  intro d
  rw [filter_append, map_append, hg d, nextSequence_setSequence, nextSequence_accepts h]
  by_cases hd : o.direction = d
  · have hsucc : (o.sequence + 1).toNat = o.sequence.toNat + 1 := by
      rw [UInt64.toNat_add, show (1 : UInt64).toNat = 1 from rfl]
      omega
    rw [if_pos hd, hsucc, range_succ, ← hd, ← hseq]
    simp
  · rw [if_neg hd]
    simp [hd]

theorem history_concat : history sha256 entries accounts (offers ++ [o]) =
    offer sha256 entries accounts (history sha256 entries accounts offers) o := by
  simp [history]

/-- Every history without a gap, and its session in the phase its state says. -/
theorem history_phase (hwalk : ∀ k o, offers[k]? = some o →
      KeepsWalk entries ((history sha256 entries accounts (offers.take k)).2.map Offer.said) o.message) :
    Gapless (history sha256 entries accounts offers).1 (history sha256 entries accounts offers).2 ∧
      Phase sha256 entries (history sha256 entries accounts offers).1
        ((history sha256 entries accounts offers).2.map Offer.said) := by
  induction offers using List.reverseRecOn with
  | nil =>
    refine ⟨fun d => ?_, rfl⟩
    cases d <;> rfl
  | append_singleton offers o ih =>
    have hlast := hwalk offers.length o (by simp)
    rw [take_left] at hlast
    obtain ⟨hg, hp⟩ := ih fun k o' hk => by
      obtain ⟨hlt, -⟩ := List.getElem?_eq_some_iff.mp hk
      have := hwalk k o' (by rwa [getElem?_append_left hlt])
      rwa [take_append_of_le_length hlt.le] at this
    rw [history_concat]
    unfold offer
    split
    · next s hacc =>
      obtain ⟨hseq, hlt, hvalid, next, hstep, rfl⟩ := accept_ok hacc
      refine ⟨hg.accept hstep hseq hlt, ?_⟩
      rw [map_append]
      exact (hp.step hstep hvalid hlast).setSequence
    · next e s hacc =>
      rw [accept_error hacc]
      exact ⟨hg, hp⟩

/-- A refused message changes nothing, in any session. In every history whose chunks keep to the
limits of the walk, a completed session has accepted one whole build, in order and without a gap,
and the parts of that build agree: chunks, entries, totals, digests, tools and user. -/
theorem completed_session_saw_one_build (sha256 : Bytes → Digest) (entries : Codec ManifestEntry)
    (accounts : Codec AccountDatabase) (offers : List Offer) (hwalk : ∀ k o, offers[k]? = some o →
      KeepsWalk entries ((history sha256 entries accounts (offers.take k)).2.map Offer.said) o.message) :
    (∀ s d m sequence e s', accept sha256 entries accounts s d m sequence = (.error e,
      s') → s' = s) ∧
    ((history sha256 entries accounts offers).1.state = .completed →
      Gapless (history sha256 entries accounts offers).1
        (history sha256 entries accounts offers).2 ∧
      ∃ x es, (history sha256 entries accounts offers).2.map Offer.said = Exchange.messages x ∧
        x.Agrees sha256 entries es) := by
  refine ⟨fun s d m sequence e s' h => accept_error h, fun hstate => ?_⟩
  obtain ⟨hg, hp⟩ := history_phase hwalk
  rw [Phase, hstate] at hp
  exact ⟨hg, hp⟩

end

/-! ### A build of one directory -/

def Codec.single {α : Type} [DecidableEq α] (x : α) (bytes : Bytes) : Codec α where
  toVec y := if y = x then .ok bytes else .error "unsupported"
  decode b := if b = bytes then .ok (x, bytes.length) else .error "unsupported"
  decode_toVec {y b} h := by
    by_cases hy : y = x
    · rw [if_pos hy] at h
      cases h
      rw [if_pos rfl, hy]
    · rw [if_neg hy] at h
      cases h

namespace Sample

def digest (c : Char) : String := String.ofList (List.replicate 64 c)

def sha256 (bytes : Bytes) : Digest := ⟨BitVec.ofNat 256 (readBE bytes)⟩

def entry : ManifestEntry where
  path := [97, 47, 98]
  kind := 2
  mode := 0o755
  uid := 0
  gid := 0
  size := 4096
  rdev := 0
  mtimeSeconds := 1
  mtimeNanoseconds := 0
  symlinkTarget := none
  contentSha256 := none
  hardlinkTarget := none
  xattrs := []

def entryBytes : Bytes :=
  [0xaa, 0x00, 0x43, 0x61, 0x2f, 0x62, 0x01, 0x02, 0x02, 0x19, 0x01, 0xed, 0x03, 0x00, 0x04, 0x00,
    0x05, 0x19, 0x10, 0x00, 0x06, 0x00, 0x07, 0x01, 0x08, 0x00, 0x0c, 0x80]

def entries : Codec ManifestEntry := .single entry entryBytes

def database : AccountDatabase := ⟨ACCOUNT_DB_SCHEMA, [], []⟩

def databaseBytes : Bytes := [0xa3, 0x00, 0x72] ++ utf8 ACCOUNT_DB_SCHEMA ++ [0x01,
    0x80, 0x02, 0x80]

def accounts : Codec AccountDatabase := .single database databaseBytes

def tool : ToolIdentity := ⟨"umoci", digest 'a', "umoci 0.4.7"⟩

def hello : BuilderHello where
  guestContractId := digest 'b'
  initBuildId := digest 'c'
  kernelBuildId := digest 'd'
  hostElfMachine := 62
  guestUtsMachine := "x86_64"
  guestPageSize := 4096
  cpuStateHwcapPolicy := "native-x86_64-v1"
  onlineCpus := 1
  builderTools := [tool]
  features := ["canonical-manifest-v1"]
  acceptedPhysmemBytes := 768 * 1024 * 1024

def limits (maxDepth : UInt16) : ManifestLimits where
  maxPathBytes := 4096
  maxXattrsPerEntry := 128
  maxXattrBytesPerEntry := 64 * 1024
  maxEntryBytes := 128 * 1024
  maxChunkBytes := 192 * 1024
  maxEntries := 1000000
  maxTotalBytes := 16 * 1024 * 1024 * 1024
  maxDirectoryEntries := 131072
  maxDirectoryNameBytes := 64 * 1024 * 1024
  maxHardlinkGroups := 131072
  maxHardlinkPathBytes := 64 * 1024 * 1024
  maxDepth

def platform : Platform := ⟨"linux", "amd64", none⟩

def start (maxDepth : UInt16) : BuilderStart where
  profileId := "x86_64-smp-p4k"
  profileRevision := digest 'e'
  derivationKey := digest 'f'
  selectedManifest := ⟨"sha256:" ++ digest '1', 123, "application/vnd.oci.image.manifest.v1+json"⟩
  config := ⟨"sha256:" ++ digest '2', 456, "application/vnd.oci.image.config.v1+json"⟩
  layers := []
  descriptorPlatform := none
  configPlatform := platform
  effectivePlatform := platform
  selectorPolicy := "oci-native-v1"
  rootLayout := "pocket-root-v1"
  filesystemContract := "ext4-v1-b4096"
  manifestSchema := "pocket-fs-manifest-v1"
  manifestLimits := limits maxDepth
  expectedTools := [tool]
  inputReference := "root"
  originalUser := "www-data"
  expectedPhysmemBytes := 768 * 1024 * 1024
  sourceDateEpoch := 1786940622

def chunk : ManifestChunk := ⟨digest '9', 0, 0, 1, beBytes 4 entryBytes.length ++ entryBytes⟩

def done : BuilderDone where
  status := 0
  manifestSha256 := hexDigest sha256 chunk.bytes
  entryCount := 1
  byteCount := 32
  generationMarkerSha256 := digest '7'
  originalUser := "www-data"
  userResolution := ⟨3, 0, 0, []⟩
  observedTools := [tool]
  filesystemStatus := ⟨true, true, true⟩
  accountDbSha256 := hexDigest sha256 databaseBytes

def offers (maxDepth : UInt16) : List Offer :=
  [⟨.guestToHost, .hello hello, 0⟩, ⟨.hostToGuest, .start (start maxDepth), 0⟩,
    ⟨.guestToHost, .manifestBegin ⟨"pocket-fs-manifest-v1", digest '9'⟩, 1⟩,
    ⟨.guestToHost, .manifestChunk chunk, 2⟩,
    ⟨.guestToHost, .manifestEnd ⟨digest '9', 1, 32, hexDigest sha256 chunk.bytes⟩, 3⟩,
    ⟨.guestToHost, .accountDb ⟨ACCOUNT_DB_SCHEMA, 25, hexDigest sha256 databaseBytes,
      databaseBytes⟩, 4⟩,
    ⟨.guestToHost, .done done, 5⟩]

set_option maxRecDepth 10000 in
theorem completes : ((history sha256 entries accounts (offers 1)).1.state = .completed ∧
    (history sha256 entries accounts (offers 1)).2 = offers 1) ∧
    (history sha256 entries accounts (offers 2)).1.state = .completed := by
  decide +kernel

theorem framed_chunk : Framed entries chunk.bytes [entry] := by
  have hcanon : Canonical entries ManifestEntry.validate entry entryBytes :=
    ⟨by decide, by decide +kernel, rfl⟩
  have h := Framed.cons hcanon (by decide) .nil
  rwa [append_nil] at h

/-- The whole build is one of two levels: it keeps to a depth of two, and to no smaller one. -/
theorem walk_chunk (maxDepth : UInt16) : WalkWithin (limits maxDepth) [entry] ↔
    2 ≤ maxDepth.toNat := by
  constructor
  · intro h
    exact h.depth entry (mem_singleton_self _)
  · intro h
    refine ⟨?_, ?_, ?_, Nat.zero_le _, Nat.zero_le _⟩
    · intro e he
      rw [mem_singleton.mp he]
      exact h
    · intro e he _
      rw [mem_singleton.mp he]
      show (siblings [entry] entry).length ≤ 131072
      decide +kernel
    · intro e he _
      rw [mem_singleton.mp he]
      show ((siblings [entry] entry).map fun e' => ((components e'.path).getLastD []).length).sum ≤
        64 * 1024 * 1024
      decide +kernel

end Sample

open Sample in
/-- A build of one directory two levels down, under a START that allows two. -/
theorem completed_session_saw_one_build_deep :
    ∃ x es, (history sha256 entries accounts (offers 2)).2.map Offer.said = Exchange.messages x ∧
      x.Agrees sha256 entries es := by
  refine ((completed_session_saw_one_build sha256 entries accounts (offers 2) ?_).2 completes.2).2
  intro k o hk c hc st hst es hes
  match k, hk with
  | 0, hk | 1, hk | 2, hk | 4, hk | 5, hk | 6, hk =>
    cases hk
    cases hc
  | 3, hk =>
    cases hk
    cases hc
    have hsaid : startsOf ((history sha256 entries accounts ((offers 2).take 3)).2.map Offer.said) = [start 2] ∧
      chunksOf ((history sha256 entries accounts ((offers 2).take 3)).2.map Offer.said) = [] := by
        decide +kernel
    rw [hsaid.1] at hst
    rw [hsaid.2] at hes
    rw [mem_singleton.mp hst, hes.unique framed_chunk]
    exact (walk_chunk 2).mpr (by decide)

open Sample in
/-- The same build is completed although START allows one level only. -/
theorem completed_session_exceeds_depth :
    (history sha256 entries accounts (offers 1)).1.state = .completed ∧
      ¬∃ x es, (history sha256 entries accounts (offers 1)).2.map Offer.said = Exchange.messages x ∧
        x.Agrees sha256 entries es := by
  refine ⟨completes.1.1, ?_⟩
  rintro ⟨x, es, hsaid, hagrees⟩
  rw [completes.1.2] at hsaid
  have hstart : x.start = start 1 ∧ x.chunks = [chunk] := by
    have hstarts := congrArg startsOf hsaid
    have hchunks := congrArg chunksOf hsaid
    rw [startsOf_messages] at hstarts
    rw [chunksOf_messages] at hchunks
    exact ⟨(List.cons.inj hstarts).1.symm, hchunks.symm⟩
  have hes := hagrees.streamed.framed
  have hwalk := hagrees.streamed.walk
  rw [hstart.2] at hes
  rw [hstart.1, Framed.unique hes (by simpa [manifestBytes] using framed_chunk)] at hwalk
  exact absurd ((walk_chunk 1).mp hwalk) (by decide)

end PocketVm.Protocol
