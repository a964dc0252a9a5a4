import Mathlib.Algebra.BigOperators.Ring.List
import Mathlib.Algebra.Order.BigOperators.Group.List
import PocketVm.Oci.Layout

/-!
# What a verified layout is

The index tree of a layout is what its blobs say: the paths from `index.json` through nested
indexes, a blob that is shared counting once for each path. The walk stays within its budgets
whatever it finds; where it succeeds, it has met every path once, every blob on the way is the one
its descriptor names, every layer has been decoded to its last byte, and exactly one path leads to
an image for Linux/amd64.
-/

namespace PocketVm.Oci

open Wire Checked Mutating List

/-! ### The budgets -/

section Budgets

variable (setting : Setting)

/-- The descriptors on record are within both budgets, and none has been missed by the count. -/
structure WithinBudget (verifier : Verifier) : Prop where
  counted : verifier.consumed.length ≤ verifier.descriptorsSeen
  total : verifier.consumed.length ≤ setting.limits.maxTotalDescriptors
  depth : ∀ entry ∈ verifier.consumed, entry.2 ≤ setting.limits.maxIndexDepth

variable {setting}

theorem WithinBudget.of_consumed {verifier verifier' : Verifier} (h : WithinBudget setting verifier)
    (hconsumed : verifier'.consumed = verifier.consumed)
    (hseen : verifier.descriptorsSeen ≤ verifier'.descriptorsSeen) :
    WithinBudget setting verifier' := by
  obtain ⟨hcounted, htotal, hdepth⟩ := h
  rw [← hconsumed] at hcounted htotal hdepth
  exact ⟨hcounted.trans hseen, htotal, hdepth⟩

theorem maintains_consumeDescriptor (descriptor : Descriptor) (context : String) {indexDepth : Nat}
    (hdepth : indexDepth ≤ setting.limits.maxIndexDepth) :
    Maintains (WithinBudget setting) (consumeDescriptor setting descriptor context indexDepth) := by
  intro s hs
  unfold consumeDescriptor
  have hget : (get : VerifyM Verifier).run.run s = (.ok s, s) := rfl
  rw [run_bind_of_ok hget]
  cases hadd : checkedAdd s.descriptorsSeen 1 (tooManyDescriptors setting.limits) with
  | error e =>
    exact hs
  | ok seen =>
    obtain ⟨-, rfl⟩ := checkedAdd_ok.mp hadd
    rw [run_bind_of_ok run_check, run_bind_of_ok run_modify_eq]
    have hseen : WithinBudget setting { s with descriptorsSeen := s.descriptorsSeen + 1 } :=
      hs.of_consumed rfl (Nat.le_succ _)
    by_cases hmax : s.descriptorsSeen + 1 > setting.limits.maxTotalDescriptors
    · rw [stop, if_pos hmax]
      exact hseen
    · rw [stop, if_neg hmax, run_bind_of_ok run_check, run_bind_of_ok run_modify_eq, run_check]
      refine ⟨?_, ?_, ?_⟩
      · simpa using hs.counted
      · have := hs.counted
        simp only [length_append, length_singleton]
        omega
      · intro entry hentry
        rcases mem_append.mp hentry with hentry | hentry
        · exact hs.depth entry hentry
        · rw [mem_singleton.mp hentry]
          exact hdepth

/-- An invariant that counting a descriptor keeps, as does everything that leaves the counts and the
candidates. -/
structure Steady (setting : Setting) (I : Verifier → Prop) : Prop where
  counts : ∀ descriptor context {indexDepth : Nat}, indexDepth ≤ setting.limits.maxIndexDepth →
    Maintains I (consumeDescriptor setting descriptor context indexDepth)
  grows : ∀ {v v' : Verifier}, I v → v'.consumed = v.consumed →
    v'.descriptorsSeen = v.descriptorsSeen →
    v.candidates ⊆ v'.candidates → I v'

theorem steady_withinBudget : Steady setting (WithinBudget setting) where
  counts _ _ _ hdepth := maintains_consumeDescriptor _ _ hdepth
  grows h hconsumed hseen _ := h.of_consumed hconsumed hseen.ge

/-- A candidate stays one. -/
theorem steady_candidate (image : VerifiedImage) : Steady setting (image ∈ ·.candidates) where
  counts _ _ _ _ := .bind .get fun _ => .bind (.check _) fun _ =>
    .bind (.modify fun _ h => h) fun _ =>
    .bind (.check _) fun _ => .bind (.modify fun _ h => h) fun _ => .check _
  grows h _ _ hcandidates := hcandidates h

variable {I : Verifier → Prop} (hI : Steady setting I)

theorem maintains_walkDescriptors {platform : Option Platform} {indexDepth : Nat}
    (h : ∀ descriptor, Maintains I (walkDescriptor setting descriptor platform indexDepth))
    (descriptors : List Descriptor) :
    Maintains I (walkDescriptors setting descriptors platform indexDepth) := by
  induction descriptors with
  | nil =>
    rw [walkDescriptors]
    exact .pure _
  | cons descriptor rest ih =>
    rw [walkDescriptors]
    exact .bind (h descriptor) fun _ => ih

include hI

theorem maintains_verifyLayerDiffId (descriptor : Descriptor) (compression : LayerCompression)
    (diffId : Digest) (position : Nat) :
    Maintains I (verifyLayerDiffId setting descriptor compression diffId position) := by
  refine .bind .get fun _ => .bind (.check _) fun _ => .bind (.check _) fun _ =>
    .bind (.check _) fun _ =>
    .bind (.check _) fun _ => .bind (.check _) fun _ => .bind (.check _) fun _ =>
      .bind (.check _) fun _ =>
    .bind (.check _) fun _ => .bind (.modify fun _ h => ?_) fun _ => .pure _
  exact hI.grows h rfl rfl (Subset.refl _)

theorem maintains_verifyLayers (context : String) {indexDepth : Nat}
    (hdepth : indexDepth ≤ setting.limits.maxIndexDepth)
    (layers : List (Descriptor × String)) (position : Nat) :
    Maintains I (verifyLayers setting context indexDepth layers position) := by
  induction layers generalizing position with
  | nil => exact .pure _
  | cons entry rest ih =>
    refine .bind ?_ fun _ => .bind (ih (position + 1)) fun _ => .pure _
    exact .bind (hI.counts _ _ hdepth) fun _ => .bind (.check _) fun _ => .bind (.check _) fun _ =>
      .bind (.check _) fun _ => .bind (.check _) fun _ =>
        .bind (maintains_verifyLayerDiffId hI _ _ _ _) fun _ => .pure _

theorem maintains_verifyManifest (descriptor : Descriptor) (platform : Option Platform)
    {indexDepth : Nat} (hdepth : indexDepth ≤ setting.limits.maxIndexDepth) :
    Maintains I (verifyManifest setting descriptor platform indexDepth) :=
  .bind (.check _) fun _ => .bind (.check _) fun _ => .bind (.check _) fun _ =>
    .bind (hI.counts _ _ hdepth) fun _ => .bind (.check _) fun _ => .bind (.check _) fun _ =>
    .bind (.check _) fun _ => .bind (.check _) fun _ => .bind (.check _) fun _ =>
      .bind (.check _) fun _ =>
    .bind (maintains_verifyLayers hI _ hdepth _ _) fun _ => .check _

theorem maintains_openIndex (descriptor : Descriptor) :
    Maintains I (openIndex setting descriptor) :=
  .bind (.check _) fun _ => .bind .get fun _ => .bind (.check _) fun _ =>
    .bind (.modify fun _ h => hI.grows h rfl rfl (Subset.refl _)) fun _ => .bind (.check _) fun _ =>
      .bind (.check _) fun _ =>
    .bind (.check _) fun _ => .pure _

theorem maintains_walkDescriptor (descriptor : Descriptor) (platform : Option Platform)
    {indexDepth : Nat} (hdepth : indexDepth ≤ setting.limits.maxIndexDepth) :
    Maintains I (walkDescriptor setting descriptor platform indexDepth) := by
  rw [walkDescriptor]
  refine .bind (hI.counts _ _ hdepth) fun _ => .bind (.check _) fun platform => ?_
  split
  · refine .bind (maintains_verifyManifest hI _ _ hdepth) fun _ => .modify fun _ h => ?_
    exact hI.grows h rfl rfl (subset_append_left _ _)
  · split
    · split
      · exact .check _
      · have hnext := fun child => @maintains_walkDescriptor child platform
          (indexDepth + 1) (by omega)
        exact .bind (maintains_openIndex hI descriptor) fun _ =>
          .bind (maintains_walkDescriptors hnext _) fun _ =>
          .modify fun _ h => hI.grows h rfl rfl (Subset.refl _)
    · exact .check _
termination_by setting.limits.maxIndexDepth - indexDepth

theorem maintains_verifyLayout : Maintains I (verifyLayoutWithLimits setting) :=
  have hwalk := fun descriptor => maintains_walkDescriptor hI descriptor none (Nat.zero_le _)
  .bind (.check _) fun _ => .bind (.check _) fun _ =>
    .bind (maintains_walkDescriptors hwalk _) fun _ =>
    .bind .get fun _ => .check _

end Budgets

/-! ### Blobs -/

section Blobs

variable (setting : Setting)

/-- The blob that a descriptor names is in the layout, with these bytes, and has its size and its
digest. -/
structure Authentic (descriptor : Descriptor) (digest : Digest) (bytes : Bytes) : Prop where
  named : parseDigest descriptor.digest "" = .ok digest
  stored : ∃ stream, setting.layout.entry (blobNames digest) = some (.file stream) ∧
    stream.content = bytes
  size : bytes.length = descriptor.size
  hashed : setting.sha256 bytes = digest

variable {setting} {descriptor : Descriptor} {digest digest' : Digest} {bytes bytes' : Bytes}

theorem Authentic.unique (h : Authentic setting descriptor digest bytes)
    (h' : Authentic setting descriptor digest' bytes') : digest = digest' ∧ bytes = bytes' := by
  cases h.named.symm.trans h'.named
  obtain ⟨stream, hentry, rfl⟩ := h.stored
  obtain ⟨stream', hentry', rfl⟩ := h'.stored
  cases hentry.symm.trans hentry'
  exact ⟨rfl, rfl⟩

theorem openPlainFile_ok {layout : Layout} {names : List String} {context : String}
    {stream : Stream} :
    layout.openPlainFile names context = .ok stream ↔ layout.entry names = some (.file stream) := by
  unfold Layout.openPlainFile
  split <;> simp_all

theorem authenticateBlob_ok {maximum : Nat} {retain : Bool} {context : String}
    (h : authenticateBlob setting descriptor maximum retain context = .ok bytes) :
    ∃ digest content, Authentic setting descriptor digest content ∧
      bytes = if retain then content else [] := by
  unfold authenticateBlob at h
  simp only [bind_ok, stop_ok, pure_ok, not_not] at h
  obtain ⟨_, -, digest, hdigest, file, hfile, _, hlength, ⟨count, hashed⟩, hread, _, -, _,
    hhash, rfl⟩ := h
  have hhashed : hashed = file.content :=
    foldlM_ok (fun done state => state.2 = done.flatten) hread rfl
      fun done chunk state state' hstate hstep => by
      unfold authenticateRead at hstep
      simp only [bind_ok, pure_ok] at hstep
      obtain ⟨_, -, _, -, rfl⟩ := hstep
      simp [hstate]
  subst hhashed
  exact ⟨digest, file.content, ⟨parseDigest_context "" hdigest,
    ⟨file, openPlainFile_ok.mp hfile, rfl⟩, hlength, hhash⟩,
    rfl⟩

end Blobs

/-! ### Layers -/

section Layers

variable (setting : Setting) (encodes : LayerCompression → Bytes → Bytes → Prop)

def Decodes (compression : LayerCompression) (bytes content : Bytes) : Prop :=
  match compression with
  | .none => content = bytes
  | .gzip => encodes .gzip bytes content
  | .zstd => encodes .zstd bytes content

structure LayerSound (described : Descriptor × String) (layer : Layer) : Prop where
  content : ∃ bytes content, Authentic setting described.1 layer.digest bytes ∧
    Decodes encodes layer.compression bytes content ∧ content.length = layer.uncompressedSize ∧
    setting.sha256 content = layer.diffId
  diffId : parseDigest described.2 "" = .ok layer.diffId
  size : layer.size = described.1.size
  mediaType : layer.mediaType = described.1.mediaType
  limit : layer.uncompressedSize ≤ setting.limits.maxLayerUncompressedBytes
  ratio : layer.compression ≠ .none →
    layer.uncompressedSize ≤ layer.size * setting.limits.maxDecompressionRatio
  plain : layer.compression = .none → layer.uncompressedSize = layer.size

variable {setting encodes}

/-- What the loop over a decoder's reads has seen to. -/
structure Hashed (total : Nat) (descriptor : Descriptor) (compression : LayerCompression)
    (content : Bytes) (state : Nat × Bytes) : Prop where
  bytes : state.2 = content
  size : state.1 = content.length
  limit : state.1 ≤ setting.limits.maxLayerUncompressedBytes
  sum : total ≤ setting.limits.maxTotalUncompressedBytes →
    total + state.1 ≤ setting.limits.maxTotalUncompressedBytes
  ratio : compression ≠ .none → state.1 ≤ descriptor.size * setting.limits.maxDecompressionRatio

variable {decoding : Decoding} {descriptor : Descriptor} {compression : LayerCompression}
  {position indexDepth : Nat}
variable {context : String}

theorem hashUncompressedStream_ok {total : Nat} {state : Nat × Bytes}
    (h : hashUncompressedStream setting total decoding descriptor compression position = .ok state) :
    decoding.failure = none ∧ @Hashed setting total descriptor compression decoding.stream.content state := by
  unfold hashUncompressedStream at h
  rw [bind_ok] at h
  obtain ⟨hashed, hread, hend⟩ := h
  have hhashed : @Hashed setting total descriptor compression decoding.stream.content hashed :=
    foldlM_ok (fun done state => @Hashed setting total descriptor compression done.flatten state) hread
      ⟨rfl, rfl, Nat.zero_le _, id, fun _ => Nat.zero_le _⟩
        fun done chunk state state' hstate hstep => by
        unfold hashRead at hstep
        simp only [bind_ok, stop_ok, pure_ok, checkedAdd_ok] at hstep
        obtain ⟨size, ⟨-, rfl⟩, _, hlimit, sum, ⟨-, rfl⟩, _, htotal, _, hratio, rfl⟩ := hstep
        refine ⟨by simp [hstate.bytes], by simp [hstate.size], by omega, fun _ => by omega, fun hne => ?_⟩
        exact Nat.not_lt.mp fun hlt => hratio ⟨hne, hlt⟩
  split at hend
  · cases hend
  · rename_i hnone
    rw [pure_ok] at hend
    exact ⟨hnone, hend ▸ hhashed⟩

theorem finishLayerReplay_ok {file : Bytes} {expected : Digest} {u : Unit}
    (htaken : decoding.taken ≤ file.length)
    (h : finishLayerReplay setting file decoding descriptor expected position = .ok u) :
    decoding.taken = file.length ∧ decoding.unread = 0 ∧ setting.sha256 file = expected := by
  unfold finishLayerReplay at h
  simp only [bind_ok, stop_ok, checkedAdd_ok, not_not, take_append_drop, length_drop] at h
  obtain ⟨trailing, ⟨-, rfl⟩, _, -, _, hdigest, htrailing⟩ := h
  exact ⟨by omega, by omega, hdigest⟩

theorem decodingOf_ok (sound : setting.decoders.Sound encodes) {file : Stream}
    (h : decodingOf setting compression file = .ok decoding) :
    decoding.taken ≤ file.content.length ∧ (decoding.failure = none →
      Decodes encodes compression (file.content.take (decoding.taken - decoding.unread)) decoding.stream.content) := by
  cases compression with
  | none =>
    cases h
    exact ⟨le_rfl, fun _ => by simp [Decodes]⟩
  | gzip => exact ⟨sound.taken_le (.inl h), sound.gzip h⟩
  | zstd => exact ⟨sound.taken_le (.inr ⟨_, h⟩), sound.zstd h⟩

/-- What a step of the walk leaves alone, and how it moves the total. -/
structure Adds (setting : Setting) (size : Nat) (verifier verifier' : Verifier) : Prop where
  candidates : verifier'.candidates = verifier.candidates
  total : verifier'.totalUncompressedBytes = verifier.totalUncompressedBytes + size
  bounded : verifier.totalUncompressedBytes ≤ setting.limits.maxTotalUncompressedBytes →
    verifier'.totalUncompressedBytes ≤ setting.limits.maxTotalUncompressedBytes

theorem Adds.trans {size size' : Nat} {s s' s'' : Verifier} (h : Adds setting size s s')
    (h' : Adds setting size' s' s'') :
    Adds setting (size + size') s s'' where
  candidates := h'.candidates.trans h.candidates
  total := by rw [h'.total, h.total, Nat.add_assoc]
  bounded hs := h'.bounded (h.bounded hs)

theorem Adds.refl (s : Verifier) : Adds setting 0 s s := ⟨rfl, rfl, id⟩

variable {s s' : Verifier}

theorem consumeDescriptor_ok {u : Unit}
    (h : (consumeDescriptor setting descriptor context indexDepth).run.run s = (.ok u, s')) :
    Adds setting 0 s s' := by
  unfold consumeDescriptor at h
  rw [run_get_bind, run_check_bind] at h
  obtain ⟨seen, -, h⟩ := h
  rw [run_modify_bind, run_check_bind] at h
  obtain ⟨_, -, h⟩ := h
  obtain ⟨-, rfl⟩ := Prod.mk.inj h
  exact ⟨rfl, rfl, id⟩

theorem verifyLayerDiffId_ok (sound : setting.decoders.Sound encodes) {diffId : Digest} {size : Nat}
    (h : (verifyLayerDiffId setting descriptor compression diffId position).run.run s =
      (.ok size, s')) :
    (∃ digest bytes content, Authentic setting descriptor digest bytes ∧
      Decodes encodes compression bytes content ∧ content.length = size ∧
        setting.sha256 content = diffId) ∧ size ≤ setting.limits.maxLayerUncompressedBytes ∧
    (compression ≠ .none → size ≤ descriptor.size * setting.limits.maxDecompressionRatio) ∧
      Adds setting size s s' := by
  unfold verifyLayerDiffId at h
  simp only [run_get_bind, run_check_bind, run_modify_bind, stop_ok, mapError_ok, not_not,
    checkedAdd_ok] at h
  obtain ⟨digest, hdigest, file, hfile, _, hlength, decoding, hdecoding, ⟨size', content⟩, hstream,
    _, hfinish, _, hdiff, total, ⟨-, rfl⟩, hrun⟩ := h
  cases hrun
  obtain ⟨hend, hhashed⟩ := hashUncompressedStream_ok hstream
  obtain ⟨htaken, hdecodes⟩ := decodingOf_ok sound hdecoding
  obtain ⟨hall, hunread, hdigest'⟩ := finishLayerReplay_ok htaken hfinish
  -- the decoder has taken the whole file and decoded all of it
  have hwhole : Decodes encodes compression file.content decoding.stream.content := by
    have hwhole := hdecodes hend
    rwa [hall, hunread, Nat.sub_zero, take_length] at hwhole
  obtain ⟨rfl, rfl⟩ : content = decoding.stream.content ∧ size' = decoding.stream.content.length :=
    ⟨hhashed.bytes, hhashed.size⟩
  exact ⟨⟨digest, file.content, _, ⟨parseDigest_context "" hdigest, ⟨file, openPlainFile_ok.mp hfile, rfl⟩, hlength,
    hdigest'⟩, hwhole, rfl, hdiff⟩, hhashed.limit, hhashed.ratio, rfl, rfl, hhashed.sum⟩

theorem verifyLayer_ok (sound : setting.decoders.Sound encodes) {described : Descriptor × String}
    {layer : Layer}
    (h : (verifyLayer setting context indexDepth described.1 described.2 position).run.run s =
      (.ok layer, s')) :
    LayerSound setting encodes described layer ∧ Adds setting layer.uncompressedSize s s' := by
  unfold verifyLayer at h
  rw [run_bind_ok] at h
  obtain ⟨_, t, hconsume, h⟩ := h
  simp only [run_check_bind] at h
  obtain ⟨_, -, compression, -, digest, hlayer, diffId, hdiffId, h⟩ := h
  rw [run_bind_ok] at h
  obtain ⟨size, t', hreplay, h⟩ := h
  cases h
  obtain ⟨⟨digest', bytes, content, hauthentic, hdecodes, hlength, hhash⟩, hlimit, hratio, hadds⟩ :=
    verifyLayerDiffId_ok sound hreplay
  have hdigest : digest' = digest := by
    unfold authenticateLayerBlob at hlayer
    rw [bind_ok] at hlayer
    obtain ⟨_, -, hparse⟩ := hlayer
    cases (parseDigest_context "" hparse).symm.trans hauthentic.named
    rfl
  subst hdigest
  refine ⟨⟨⟨bytes, content, hauthentic, hdecodes, hlength, hhash⟩, parseDigest_context "" hdiffId,
    rfl, rfl, hlimit, hratio, ?_⟩, ?_⟩
  · rintro rfl
    have hsame : content = bytes := hdecodes
    rw [← hlength, hsame, hauthentic.size]
  · have := (consumeDescriptor_ok hconsume).trans hadds
    rwa [Nat.zero_add] at this

def uncompressed (layers : List Layer) : Nat := (layers.map Layer.uncompressedSize).sum

theorem verifyLayers_ok (sound : setting.decoders.Sound encodes)
    {described : List (Descriptor × String)} {layers : List Layer}
    (h : (verifyLayers setting context indexDepth described position).run.run s =
      (.ok layers, s')) :
    List.Forall₂ (LayerSound setting encodes) described layers ∧
      Adds setting (uncompressed layers) s s' := by
  induction described generalizing position layers s with
  | nil =>
    cases h
    exact ⟨.nil, .refl _⟩
  | cons entry rest ih =>
    simp only [verifyLayers, run_bind_ok] at h
    obtain ⟨layer, t, hlayer, more, t', hmore, h⟩ := h
    cases h
    obtain ⟨hsound, hadds⟩ := verifyLayer_ok sound hlayer
    obtain ⟨hrest, hadds'⟩ := ih hmore
    exact ⟨.cons hsound hrest, hadds.trans hadds'⟩

end Layers

/-! ### Manifests -/

structure Visit where
  path : List Nat
  descriptor : Descriptor
  manifest : ManifestDocument
  config : ConfigDocument
  layers : List Layer
  image : Option VerifiedImage

section Manifests

variable (setting : Setting) (encodes : LayerCompression → Bytes → Bytes → Prop)

structure Describes (visit : Visit) (image : VerifiedImage) : Prop where
  manifest : ∃ bytes, Authentic setting visit.descriptor image.manifestDigest bytes
  manifestSize : image.manifestSize = visit.descriptor.size
  manifestMediaType : image.manifestMediaType = visit.descriptor.mediaType
  config : Authentic setting visit.manifest.config image.configDigest image.configBytes
  configSize : image.configSize = visit.manifest.config.size
  configMediaType : image.configMediaType = visit.manifest.config.mediaType
  configPlatform : image.configPlatform = .ofPlatform visit.config.platform
  layers : image.layers = visit.layers
  process : effectiveProcess visit.config.config setting.limits = .ok image.process

/-- What is verified of a manifest, for whatever platform it is. -/
structure Visit.Sound (visit : Visit) : Prop where
  manifest : ∃ digest bytes, Authentic setting visit.descriptor digest bytes ∧
    setting.serde.Says setting.serde.manifest bytes visit.manifest
  config : ∃ digest bytes, Authentic setting visit.manifest.config digest bytes ∧
    setting.serde.Says setting.serde.config bytes visit.config
  count : visit.config.rootfs.diffIds.length = visit.manifest.layers.length
  layers : List.Forall₂ (LayerSound setting encodes)
    (visit.manifest.layers.zip visit.config.rootfs.diffIds) visit.layers
  image : visit.image.isSome = visit.config.isTarget
  describes : ∀ image, visit.image = some image → Describes setting visit image

variable {setting encodes} {s s' : Verifier}

theorem targetImage_ok {visit : Visit} {platform : Option Platform} {context configContext : String}
    {digest : Digest}
    {configBytes : Bytes} {image : VerifiedImage}
    (hmanifest : ∃ digest bytes, Authentic setting visit.descriptor digest bytes)
    (hconfig : Authentic setting visit.manifest.config digest configBytes)
    (h : targetImage setting visit.descriptor platform context configContext visit.manifest visit.config configBytes
      visit.layers = .ok image) : Describes setting visit image := by
  unfold targetImage at h
  simp only [bind_ok, pure_ok] at h
  obtain ⟨_, -, _, -, process, hprocess, manifestDigest, hmanifestDigest, configDigest,
    hconfigDigest, rfl⟩ := h
  obtain ⟨digest', bytes, hauthentic⟩ := hmanifest
  cases hauthentic.named.symm.trans (parseDigest_context "" hmanifestDigest)
  cases hconfig.named.symm.trans (parseDigest_context "" hconfigDigest)
  exact ⟨⟨bytes, hauthentic⟩, rfl, rfl, hconfig, rfl, rfl, rfl, rfl, hprocess⟩

theorem authenticateJsonBlob_ok {descriptor : Descriptor} {maximum : Nat} {context : String}
    {bytes : Bytes} (h : authenticateJsonBlob setting descriptor maximum context = .ok bytes) :
    ∃ digest, Authentic setting descriptor digest bytes := by
  obtain ⟨digest, content, hauthentic, rfl⟩ := authenticateBlob_ok h
  exact ⟨digest, hauthentic⟩

theorem verifyManifest_ok (sound : setting.decoders.Sound encodes) {descriptor : Descriptor}
    {platform : Option Platform} {indexDepth : Nat} {image : Option VerifiedImage}
    (h : (verifyManifest setting descriptor platform indexDepth).run.run s = (.ok image, s')) :
    ∃ visit : Visit, visit.path = [] ∧ visit.descriptor = descriptor ∧ visit.image = image ∧
      visit.Sound setting encodes ∧ Adds setting (uncompressed visit.layers) s s' := by
  unfold verifyManifest at h
  simp only [run_check_bind] at h
  obtain ⟨bytes, hblob, manifest, hmanifest, _, -, h⟩ := h
  rw [run_bind_ok] at h
  obtain ⟨_, t, hconsume, h⟩ := h
  simp only [run_check_bind, stop_ok, not_not] at h
  obtain ⟨_, -, _, -, configBytes, hconfigBlob, config, hconfig, _, -, _, hcount, h⟩ := h
  rw [run_bind_ok] at h
  obtain ⟨layers, t', hlayers, h⟩ := h
  obtain ⟨hselect, rfl⟩ := Prod.mk.inj h
  obtain ⟨digest, hauthentic⟩ := authenticateJsonBlob_ok hblob
  obtain ⟨configDigest, hconfigAuthentic⟩ := authenticateJsonBlob_ok hconfigBlob
  obtain ⟨hsound, hadds⟩ := verifyLayers_ok sound hlayers
  unfold selectImage at hselect
  simp only [bind_ok] at hselect
  obtain ⟨_, -, _, -, hselect⟩ := hselect
  let visit : Visit := ⟨[], descriptor, manifest, config, layers, image⟩
  have htarget : image.isSome = config.isTarget ∧ ∀ selected, image = some selected →
    Describes setting visit selected := by
    split at hselect
    · rename_i htarget
      obtain ⟨selected, hselected, rfl⟩ := map_ok.mp hselect
      refine ⟨htarget.symm, ?_⟩
      rintro _ ⟨⟩
      exact @targetImage_ok setting visit _ _ _ _ _ _ ⟨digest, bytes,
        hauthentic⟩ hconfigAuthentic hselected
    · rename_i htarget
      cases hselect
      refine ⟨(Bool.eq_false_of_not_eq_true htarget).symm, ?_⟩
      rintro _ ⟨⟩
  refine ⟨visit, rfl, rfl, rfl, ⟨⟨digest, bytes, hauthentic, says_of_parseJson hmanifest⟩,
    ⟨configDigest, configBytes, hconfigAuthentic, says_of_parseJson hconfig⟩, hcount, hsound,
      htarget.1, htarget.2⟩, ?_⟩
  have := (consumeDescriptor_ok hconsume).trans hadds
  rwa [Nat.zero_add] at this

end Manifests

/-! ### The index tree -/

section Tree

variable (setting : Setting)

/-- A path from a descriptor through nested indexes, by the positions taken in each. -/
inductive Leads : Descriptor → List Nat → Descriptor → Prop
  | here (descriptor : Descriptor) : Leads descriptor [] descriptor
  | nested {descriptor child target : Descriptor} {digest : Digest} {bytes : Bytes}
    {index : IndexDocument} {i : Nat}
    {path : List Nat} (hindex : descriptor.isIndex)
    (hblob : Authentic setting descriptor digest bytes)
    (hstates : setting.serde.Says setting.serde.index bytes index)
    (hchild : index.manifests[i]? = some child)
    (hpath : Leads child path target) : Leads descriptor (i :: path) target

/-- A path that starts in a list of descriptors, whose first one has the position `start`. -/
def LeadsFrom (start : Nat) (descriptors : List Descriptor) (path : List Nat)
    (target : Descriptor) : Prop :=
  ∃ i child rest, path = (start + i) :: rest ∧ descriptors[i]? = some child ∧
    Leads setting child rest target

/-- The visits are to the manifests at the ends of the paths, to each once, and every blob on the
way is authentic. -/
structure Survey (encodes : LayerCompression → Bytes → Bytes → Prop)
    (leads : List Nat → Descriptor → Prop) (visits : List Visit) : Prop where
  nodup : (visits.map Visit.path).Nodup
  sound : ∀ visit ∈ visits, leads visit.path visit.descriptor ∧ visit.descriptor.isManifest ∧
    visit.Sound setting encodes
  complete : ∀ path target, leads path target →
    (∃ digest bytes, Authentic setting target digest bytes) ∧
    (target.isManifest → ∃ visit ∈ visits, visit.path = path)

variable {setting} {encodes : LayerCompression → Bytes → Bytes → Prop} {s s' : Verifier}

variable {descriptor target : Descriptor} {path : List Nat} {digest : Digest}
  {index : IndexDocument} {start : Nat}
variable {rest : List Descriptor} {t : Verifier}

theorem not_isIndex_of_isManifest (h : descriptor.isManifest = true) :
    descriptor.isIndex = false := by
  unfold Descriptor.isIndex
  rcases Bool.or_eq_true_iff.mp h with h | h
  · rw [of_decide_eq_true h]
    decide
  · rw [of_decide_eq_true h]
    decide

theorem Leads.of_manifest (hmanifest : descriptor.isManifest)
    (h : Leads setting descriptor path target) : path = [] ∧ target = descriptor := by
  cases h with
  | here => exact ⟨rfl, rfl⟩
  | nested hindex =>
    rw [not_isIndex_of_isManifest hmanifest] at hindex
    cases hindex

theorem Leads.of_index {bytes : Bytes} (hindex : descriptor.isIndex)
    (hblob : Authentic setting descriptor digest bytes)
    (hstates : setting.serde.Says setting.serde.index bytes index) :
    Leads setting descriptor path target ↔
      path = [] ∧ target = descriptor ∨ LeadsFrom setting 0 index.manifests path target := by
  constructor
  · intro h
    cases h with
    | here => exact .inl ⟨rfl, rfl⟩
    | @nested _ child _ digest' bytes' index' i rest _ hblob' hstates' hchild hpath =>
      obtain ⟨rfl, rfl⟩ := hblob.unique hblob'
      cases hstates.unique hstates'
      exact .inr ⟨i, child, rest, by rw [Nat.zero_add], hchild, hpath⟩
  · rintro (⟨rfl, rfl⟩ | ⟨i, child, rest, rfl, hchild, hpath⟩)
    · exact .here _
    · rw [Nat.zero_add]
      exact .nested hindex hblob hstates hchild hpath

theorem leadsFrom_cons : LeadsFrom setting start (descriptor :: rest) path target ↔
      (∃ tail, path = start :: tail ∧ Leads setting descriptor tail target) ∨
        LeadsFrom setting (start + 1) rest path target := by
  constructor
  · rintro ⟨i, child, tail, rfl, hchild, hpath⟩
    cases i with
    | zero =>
      cases hchild
      exact .inl ⟨tail, rfl, hpath⟩
    | succ i => exact .inr ⟨i, child, tail, by rw [Nat.add_assoc, Nat.add_comm 1 i], hchild, hpath⟩
  · rintro (⟨tail, rfl, hpath⟩ | ⟨i, child, tail, rfl, hchild, hpath⟩)
    · exact ⟨0, descriptor, tail, rfl, rfl, hpath⟩
    · exact ⟨i + 1, child, tail, by rw [Nat.add_assoc, Nat.add_comm 1 i], hchild, hpath⟩

/-! ### The walk -/

/-- What a successful part of the walk has done. -/
structure Walked (encodes : LayerCompression → Bytes → Bytes → Prop)
    (leads : List Nat → Descriptor → Prop) (visits : List Visit) (s s' : Verifier) : Prop where
  survey : Survey setting encodes leads visits
  candidates : s'.candidates = s.candidates ++ visits.filterMap Visit.image
  total : s'.totalUncompressedBytes = s.totalUncompressedBytes + (visits.map fun visit =>
    uncompressed visit.layers).sum
  bounded : s.totalUncompressedBytes ≤ setting.limits.maxTotalUncompressedBytes →
    s'.totalUncompressedBytes ≤ setting.limits.maxTotalUncompressedBytes

def Visit.under (position : Nat) (visit : Visit) :
    Visit := { visit with path := position :: visit.path }

theorem Visit.Sound.under {visit : Visit} (h : visit.Sound setting encodes) (position : Nat) :
    (visit.under position).Sound setting encodes :=
  { h with describes := fun image himage => { h.describes image himage with } }

theorem Survey.cons {first more : List Visit}
    (hfirst : Survey setting encodes (Leads setting descriptor) first)
    (hmore : Survey setting encodes (LeadsFrom setting (start + 1) rest) more) :
    Survey setting encodes (LeadsFrom setting start (descriptor :: rest))
      (first.map (Visit.under start) ++ more) := by
  refine ⟨?_, ?_, ?_⟩
  · rw [map_append, nodup_append]
    refine ⟨?_, hmore.nodup, ?_⟩
    · have := hfirst.nodup.map (cons_injective (a := start))
      simpa [map_map, Function.comp_def, Visit.under] using this
    · rintro path hpath path' hpath' rfl
      obtain ⟨v, hv, rfl⟩ := mem_map.mp hpath
      obtain ⟨v', -, rfl⟩ := mem_map.mp hv
      obtain ⟨w, hw, hsame⟩ := mem_map.mp hpath'
      obtain ⟨i, child, tail, hw, -⟩ := (hmore.sound w hw).1
      have hhead := (List.cons.inj (hw.symm.trans hsame)).1
      omega
  · intro visit hvisit
    rcases mem_append.mp hvisit with hvisit | hvisit
    · obtain ⟨v, hv, rfl⟩ := mem_map.mp hvisit
      obtain ⟨hleads, hmanifest, hsound⟩ := hfirst.sound v hv
      exact ⟨leadsFrom_cons.mpr (.inl ⟨v.path, rfl, hleads⟩), hmanifest, hsound.under start⟩
    · obtain ⟨hleads, hmanifest, hsound⟩ := hmore.sound visit hvisit
      exact ⟨leadsFrom_cons.mpr (.inr hleads), hmanifest, hsound⟩
  · intro path target hleads
    rcases leadsFrom_cons.mp hleads with ⟨tail, rfl, htail⟩ | hrest
    · obtain ⟨hauthentic, hvisit⟩ := hfirst.complete tail target htail
      refine ⟨hauthentic, fun hmanifest => ?_⟩
      obtain ⟨v, hv, rfl⟩ := hvisit hmanifest
      exact ⟨v.under start, mem_append_left _ (mem_map_of_mem hv), rfl⟩
    · obtain ⟨hauthentic, hvisit⟩ := hmore.complete path target hrest
      refine ⟨hauthentic, fun hmanifest => ?_⟩
      obtain ⟨v, hv, rfl⟩ := hvisit hmanifest
      exact ⟨v, mem_append_right _ hv, rfl⟩

theorem openIndex_ok (h : (openIndex setting descriptor).run.run s = (.ok (digest, index), s')) :
    (∃ digest bytes, Authentic setting descriptor digest bytes ∧
      setting.serde.Says setting.serde.index bytes index) ∧ Adds setting 0 s s' := by
  unfold openIndex at h
  simp only [run_check_bind, run_get_bind, run_modify_bind] at h
  obtain ⟨digest', hdigest, _, -, bytes, hblob, index', hindex, _, -, h⟩ := h
  cases h
  obtain ⟨digest', hauthentic⟩ := authenticateJsonBlob_ok hblob
  exact ⟨⟨digest', bytes, hauthentic, says_of_parseJson hindex⟩, rfl, rfl, id⟩

theorem Walked.of_manifest {visit : Visit} (hmanifest : descriptor.isManifest)
    (hpath : visit.path = []) (hdescriptor : visit.descriptor = descriptor)
    (hsound : visit.Sound setting encodes) (hadds : Adds setting (uncompressed visit.layers) s t) :
    @Walked setting encodes (Leads setting descriptor) [visit] s
      { t with candidates := t.candidates ++ visit.image.toList } := by
  refine ⟨⟨by simp, ?_, ?_⟩, ?_, ?_, hadds.bounded⟩
  · intro v hv
    rw [mem_singleton.mp hv, hpath, hdescriptor]
    exact ⟨.here _, hmanifest, hsound⟩
  · intro path target hleads
    obtain ⟨rfl, rfl⟩ := hleads.of_manifest hmanifest
    obtain ⟨digest, bytes, hauthentic, -⟩ := hsound.manifest
    rw [hdescriptor] at hauthentic
    exact ⟨⟨digest, bytes, hauthentic⟩, fun _ => ⟨visit, mem_singleton_self _, hpath⟩⟩
  · show t.candidates ++ visit.image.toList = _
    rw [hadds.candidates, filterMap_cons]
    cases visit.image with
    | none => rfl
    | some image => rfl
  · simpa using hadds.total

theorem Walked.of_index {bytes : Bytes}
    {visits : List Visit} (hindex : descriptor.isIndex)
    (hblob : Authentic setting descriptor digest bytes)
    (hstates : setting.serde.Says setting.serde.index bytes index) (hadds : Adds setting 0 s t)
    (h : @Walked setting encodes (LeadsFrom setting 0 index.manifests) visits t s') :
    @Walked setting encodes (Leads setting descriptor) visits s s' := by
  refine ⟨⟨h.survey.nodup, ?_, ?_⟩, ?_, ?_, fun hs => h.bounded (hadds.bounded hs)⟩
  · intro visit hvisit
    obtain ⟨hleads, hrest⟩ := h.survey.sound visit hvisit
    exact ⟨(Leads.of_index hindex hblob hstates).mpr (.inr hleads), hrest⟩
  · intro path target hleads
    rcases (Leads.of_index hindex hblob hstates).mp hleads with ⟨rfl, rfl⟩ | hleads
    · refine ⟨⟨digest, bytes, hblob⟩, fun hmanifest => ?_⟩
      rw [not_isIndex_of_isManifest hmanifest] at hindex
      cases hindex
    · exact h.survey.complete path target hleads
  · rw [h.candidates, hadds.candidates]
  · rw [h.total, hadds.total, Nat.add_zero]

theorem Walked.cons {first more : List Visit}
    (hfirst : @Walked setting encodes (Leads setting descriptor) first s t)
    (hmore : @Walked setting encodes (LeadsFrom setting (start + 1) rest) more t s') :
    @Walked setting encodes (LeadsFrom setting start (descriptor :: rest))
      (first.map (Visit.under start) ++ more) s s' := by
  refine ⟨hfirst.survey.cons hmore.survey, ?_, ?_, fun hs => hmore.bounded (hfirst.bounded hs)⟩
  · rw [hmore.candidates, hfirst.candidates, filterMap_append, filterMap_map, append_assoc]
    rfl
  · rw [hmore.total, hfirst.total, map_append, map_map, sum_append, Nat.add_assoc]
    rfl

/-- The loop over the descriptors of one index, given what the walk does from each of them. -/
theorem walkDescriptors_ok {indexDepth : Nat}
    (hwalk : ∀ {descriptor : Descriptor} {platform : Option Platform}
      {u : Unit} {s s' : Verifier}, (walkDescriptor setting descriptor platform indexDepth).run.run s = (.ok u, s') →
      ∃ visits, @Walked setting encodes (Leads setting descriptor) visits s s')
    {descriptors : List Descriptor} {platform : Option Platform} {u : Unit} (start : Nat)
    (h : (walkDescriptors setting descriptors platform indexDepth).run.run s = (.ok u, s')) :
    ∃ visits, @Walked setting encodes (LeadsFrom setting start descriptors) visits s s' := by
  induction descriptors generalizing s start with
  | nil =>
    rw [walkDescriptors] at h
    cases h
    refine ⟨[], ⟨nodup_nil, fun _ hvisit => absurd hvisit not_mem_nil, ?_⟩, by simp, by simp, id⟩
    rintro path target ⟨i, child, rest, -, hchild, -⟩
    cases hchild
  | cons descriptor rest ih =>
    rw [walkDescriptors, run_bind_ok] at h
    obtain ⟨_, t, hfirst, hrest⟩ := h
    obtain ⟨first, hfirst⟩ := hwalk hfirst
    obtain ⟨more, hmore⟩ := ih (start + 1) hrest
    exact ⟨_, hfirst.cons hmore⟩

-- By induction on the index depth that is left.
theorem walkDescriptor_ok (sound : setting.decoders.Sound encodes) (remaining : Nat)
    {indexDepth : Nat} (hremaining : setting.limits.maxIndexDepth - indexDepth = remaining)
    {platform : Option Platform} {u : Unit} {s s' : Verifier}
    (h : (walkDescriptor setting descriptor platform indexDepth).run.run s = (.ok u, s')) :
    ∃ visits, @Walked setting encodes (Leads setting descriptor) visits s s' := by
  induction remaining using Nat.strongRecOn generalizing indexDepth descriptor platform u s s' with
  | ind remaining ih =>
  rw [walkDescriptor, run_bind_ok] at h
  obtain ⟨_, t, hconsume, h⟩ := h
  have hconsume := consumeDescriptor_ok hconsume
  rw [run_check_bind] at h
  obtain ⟨merged, -, h⟩ := h
  by_cases hmanifest : descriptor.isManifest
  · rw [if_pos hmanifest, run_bind_ok] at h
    obtain ⟨image, t', hverify, hpush⟩ := h
    obtain ⟨visit, hpath, hdescriptor, rfl, hsound, hadds⟩ := verifyManifest_ok sound hverify
    rw [run_modify.mp hpush]
    have hadds := hconsume.trans hadds
    rw [Nat.zero_add] at hadds
    exact ⟨[visit], .of_manifest hmanifest hpath hdescriptor hsound hadds⟩
  · rw [if_neg hmanifest] at h
    by_cases hindex : descriptor.isIndex
    · rw [if_pos hindex] at h
      split at h
      · cases h
      · rename_i hdepth
        rw [run_bind_ok] at h
        obtain ⟨⟨digest, index⟩, t', hopen, h⟩ := h
        rw [run_bind_ok] at h
        obtain ⟨_, t'', hwalk, hremove⟩ := h
        obtain ⟨⟨digest', bytes, hblob, hstates⟩, hadds⟩ := openIndex_ok hopen
        have hless : setting.limits.maxIndexDepth - (indexDepth + 1) < remaining := by omega
        obtain ⟨visits, hwalked⟩ := walkDescriptors_ok (ih _ hless rfl) 0 hwalk
        have hwalked := Walked.of_index hindex hblob hstates (hconsume.trans hadds) hwalked
        rw [run_modify.mp hremove]
        exact ⟨visits, hwalked.survey, hwalked.candidates, hwalked.total, hwalked.bounded⟩
    · rw [if_neg hindex] at h
      cases h

end Tree

/-! ### The verified layout -/

section Verified

variable (setting : Setting)

def RootIndex (index : IndexDocument) : Prop :=
  ∃ stream, setting.layout.entry ["index.json"] = some (.file stream) ∧
    setting.serde.Says setting.serde.index stream.content index

/-- The path leads to a manifest whose configuration is for Linux/amd64. -/
def TargetPath (index : IndexDocument) (path : List Nat) : Prop :=
  ∃ (target : Descriptor) (manifest : ManifestDocument) (config : ConfigDocument),
    LeadsFrom setting 0 index.manifests path target ∧ target.isManifest ∧
    (∃ digest bytes, Authentic setting target digest bytes ∧
      setting.serde.Says setting.serde.manifest bytes manifest) ∧
    (∃ digest bytes, Authentic setting manifest.config digest bytes ∧
      setting.serde.Says setting.serde.config bytes config) ∧
    config.isTarget

def decodedLayers (visits : List Visit) : List Layer :=
  (visits.flatMap Visit.layers).filter fun layer => layer.compression ≠ .none

/-- What is known of a layout from which `image` was selected. -/
structure Verified (encodes : LayerCompression → Bytes → Bytes → Prop) (index : IndexDocument)
    (visits : List Visit) (image : VerifiedImage) : Prop where
  root : RootIndex setting index
  survey : Survey setting encodes (LeadsFrom setting 0 index.manifests) visits
  target : ∃ visit ∈ visits, TargetPath setting index visit.path ∧ Describes setting visit image
  only : ∀ path path', TargetPath setting index path → TargetPath setting index path' → path = path'
  total : (visits.map fun visit => uncompressed visit.layers).sum ≤
    setting.limits.maxTotalUncompressedBytes
  ratio : uncompressed (decodedLayers visits) ≤
    ((decodedLayers visits).map Layer.size).sum * setting.limits.maxDecompressionRatio

variable {setting} {encodes : LayerCompression → Bytes → Bytes → Prop} {index : IndexDocument}
  {visits : List Visit}

theorem rootIndex_of_openLayout (h : openLayout setting = .ok index) : RootIndex setting index := by
  unfold openLayout at h
  simp only [bind_ok] at h
  obtain ⟨_, -, _, -, _, -, _, -, _, -, _, -, bytes, hread, hparse⟩ := h
  unfold Layout.readPlainFileBounded at hread
  simp only [bind_ok, stop_ok, pure_ok] at hread
  obtain ⟨stream, hopen, _, hlength, _, -, rfl⟩ := hread
  rw [take_of_length_le (by omega)] at hparse
  exact ⟨stream, openPlainFile_ok.mp hopen, says_of_parseJson hparse⟩

variable {image : VerifiedImage} {path : List Nat}

theorem Survey.targetPath {visit : Visit}
    (h : Survey setting encodes (LeadsFrom setting 0 index.manifests) visits)
    (hvisit : visit ∈ visits) (himage : visit.image = some image) :
    TargetPath setting index visit.path := by
  obtain ⟨hleads, hmanifest, hsound⟩ := h.sound visit hvisit
  refine ⟨visit.descriptor, visit.manifest, visit.config, hleads, hmanifest, hsound.manifest,
    hsound.config, ?_⟩
  rw [← hsound.image, himage]
  rfl

theorem Leads.end_unique {descriptor target target' : Descriptor}
    (h : Leads setting descriptor path target) (h' : Leads setting descriptor path target') :
    target = target' := by
  induction h with
  | here =>
    cases h'
    rfl
  | nested hindex hblob hstates hchild _ ih =>
    cases h' with
    | nested _ hblob' hstates' hchild' hpath' =>
      obtain ⟨rfl, rfl⟩ := hblob.unique hblob'
      cases hstates.unique hstates'
      cases hchild.symm.trans hchild'
      exact ih hpath'

theorem LeadsFrom.end_unique {start : Nat} {descriptors : List Descriptor}
    {target target' : Descriptor}
    (h : LeadsFrom setting start descriptors path target)
    (h' : LeadsFrom setting start descriptors path target') :
    target = target' := by
  obtain ⟨i, child, rest, rfl, hchild, hpath⟩ := h
  obtain ⟨i', child', rest', hsame, hchild', hpath'⟩ := h'
  obtain ⟨hi, rfl⟩ := List.cons.inj hsame
  obtain rfl : i = i' := by omega
  cases hchild.symm.trans hchild'
  exact hpath.end_unique hpath'

theorem Survey.exists_image
    (h : Survey setting encodes (LeadsFrom setting 0 index.manifests) visits)
    (htarget : TargetPath setting index path) : ∃ visit ∈ visits, visit.path = path ∧
    visit.image.isSome := by
  obtain ⟨target, manifest, config, hleads, hmanifest, ⟨digest, bytes, hblob, hstates⟩,
    ⟨digest', bytes', hblob', hstates'⟩, hconfig⟩ := htarget
  obtain ⟨visit, hvisit, rfl⟩ := (h.complete path target hleads).2 hmanifest
  obtain ⟨hleads', -, hsound⟩ := h.sound visit hvisit
  cases hleads.end_unique hleads'
  -- the blobs say one thing only, so the visit's documents are those of the path
  obtain ⟨_, _, hvisitBlob, hvisitSays⟩ := hsound.manifest
  obtain ⟨rfl, rfl⟩ := hblob.unique hvisitBlob
  cases hstates.unique hvisitSays
  obtain ⟨_, _, hvisitBlob', hvisitSays'⟩ := hsound.config
  obtain ⟨rfl, rfl⟩ := hblob'.unique hvisitBlob'
  cases hstates'.unique hvisitSays'
  exact ⟨visit, hvisit, rfl, hsound.image.trans hconfig⟩

theorem layerSound_of_mem {described : List (Descriptor × String)} {layers : List Layer}
    (h : List.Forall₂ (LayerSound setting encodes) described layers) :
    ∀ layer ∈ layers, ∃ entry, LayerSound setting encodes entry layer := by
  induction h with
  | nil => exact fun _ hlayer => absurd hlayer not_mem_nil
  | cons hsound _ ih =>
    intro layer hlayer
    rcases mem_cons.mp hlayer with rfl | hlayer
    · exact ⟨_, hsound⟩
    · exact ih layer hlayer

theorem Survey.ratio {leads : List Nat → Descriptor → Prop}
    (h : Survey setting encodes leads visits) :
    uncompressed (decodedLayers visits) ≤
      ((decodedLayers visits).map Layer.size).sum * setting.limits.maxDecompressionRatio := by
  rw [← sum_map_mul_right]
  refine sum_le_sum fun layer hlayer => ?_
  obtain ⟨hmem, hcompressed⟩ := mem_filter.mp hlayer
  obtain ⟨visit, hvisit, hlayer⟩ := mem_flatMap.mp hmem
  obtain ⟨entry, hsound⟩ := layerSound_of_mem (h.sound visit hvisit).2.2.layers layer hlayer
  exact hsound.ratio (of_decide_eq_true hcompressed)

theorem onlyCandidate_ok {candidates : List VerifiedImage}
    (h : onlyCandidate candidates = .ok image) : candidates = [image] := by
  unfold onlyCandidate at h
  split at h
  · cases h
  · cases h
    rfl
  · cases h

/-- Where one image was selected, the visits with an image are one and the same. -/
theorem eq_of_filterMap_singleton (h : visits.filterMap Visit.image = [image]) :
    (∃ visit ∈ visits, visit.image = some image) ∧
      ∀ visit ∈ visits, ∀ other ∈ visits, visit.image.isSome → other.image.isSome →
        visit.path = other.path := by
  obtain ⟨before, visit, after, rfl, hbefore, himage, hafter⟩ := filterMap_eq_cons_iff.mp h
  have honly : ∀ other ∈ before ++ visit :: after, other.image.isSome → other = visit := by grind
  refine ⟨⟨visit, by simp, himage⟩, fun v hv w hw hv' hw' => ?_⟩
  rw [honly v hv hv', honly w hw hw']

end Verified

/-! ### A layout with one image -/

namespace Sample

def sha256 (bytes : Bytes) : Digest := ⟨BitVec.ofNat 256 (readBE (1 :: bytes))⟩

def framed (compression : LayerCompression) (bytes content : Bytes) : Prop := compression = .gzip ∧
    bytes = 9 :: content

def streamOf (bytes : Bytes) : Stream where
  reads := bytes.map ([·])
  nonempty := by simp

theorem content_streamOf (bytes : Bytes) : (streamOf bytes).content = bytes := by
  induction bytes with
  | nil => rfl
  | cons b bytes ih => exact congrArg (b :: ·) ih

def decoders : Decoders where
  gzip bytes := match bytes with
    | 9 :: content => .ok ⟨streamOf content, none, content.length + 1, 0⟩
    | _ => .error "invalid gzip header"
  zstd _ _ := .error "unknown frame"

theorem gzip_ok {bytes : Bytes} {decoding : Decoding} (h : decoders.gzip bytes = .ok decoding) :
    ∃ content, bytes = 9 :: content ∧ decoding = ⟨streamOf content, none,
      content.length + 1, 0⟩ := by
  unfold decoders at h
  dsimp only at h
  split at h
  · rename_i content
    cases h
    exact ⟨content, rfl, rfl⟩
  · cases h

theorem sound : decoders.Sound framed where
  taken_le := by
    rintro bytes decoding (h | ⟨log, ⟨⟩⟩)
    obtain ⟨content, rfl, rfl⟩ := gzip_ok h
    simp
  gzip := by
    intro bytes decoding h _
    obtain ⟨content, rfl, rfl⟩ := gzip_ok h
    exact ⟨rfl, by simp [content_streamOf]⟩
  zstd := nofun

def described (mediaType : String) (bytes : Bytes) : Descriptor where
  mediaType := mediaType
  digest := (sha256 bytes).display
  size := bytes.length
  platform := none
  annotations := []
  artifactType := none
  urls := none
  data := none

def config : ConfigDocument where
  architecture := "amd64"
  os := "linux"
  variant := none
  osVersion := none
  osFeatures := []
  rootfs := ⟨"layers", [(sha256 [5]).display]⟩
  config := none

def manifest : ManifestDocument where
  schemaVersion := 2
  mediaType := some OCI_MANIFEST
  config := described OCI_CONFIG [3]
  layers := [described OCI_LAYER_GZIP [9, 5]]
  annotations := []
  artifactType := none
  subject := none

def index : IndexDocument where
  schemaVersion := 2
  mediaType := none
  manifests := [described OCI_MANIFEST [2]]
  annotations := []

def serde : Serde where
  value bytes := match bytes with
    | [n] => .ok (.number (toString n))
    | _ => .error "expected value"
  imageLayoutVersion _ := .ok OCI_LAYOUT_VERSION
  index _ := .ok index
  manifest _ := .ok manifest
  config _ := .ok config

def layout : Layout where
  root := "/layout"
  entry names :=
    if names ∈ [[], ["blobs"], ["blobs", "sha256"]] then some .directory
    else if names = ["oci-layout"] then some (.file (streamOf [0]))
    else if names = ["index.json"] then some (.file (streamOf [1]))
    else if names = blobNames (sha256 [2]) then some (.file (streamOf [2]))
    else if names = blobNames (sha256 [3]) then some (.file (streamOf [3]))
    else if names = blobNames (sha256 [9, 5]) then some (.file (streamOf [9, 5]))
    else none

def setting : Setting where
  layout := layout
  limits := {}
  sha256 := sha256
  serde := serde
  decoders := decoders

end Sample

end PocketVm.Oci
