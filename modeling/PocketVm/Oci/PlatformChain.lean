import PocketVm.Oci.LayoutSound

/-!
# Platforms along nested indexes

`walk_descriptor` merges the platform of a descriptor into the one it inherits, and hands on the
inner one of the two. What an outer descriptor states is compared with the next level that has a
platform; where that level leaves it out, it is forgotten.
-/

namespace PocketVm.Oci

open Wire Checked Mutating List

/-- The innermost platform on the way to a manifest. -/
def innermost (chain : List (Option Platform)) : Option Platform := (chain.filterMap id).getLast?

/-- What the platforms on the way, the outermost first, come to. -/
def mergeChain (limits : VerifyLimits) (chain : List (Option Platform)) :
    Except Error (Option Platform) :=
  chain.foldlM (fun inherited «local» =>
    mergePlatforms inherited «local» "nested index descriptors" limits) none

/-- A way from a descriptor through nested indexes, with the platforms stated on it. -/
inductive Through (setting : Setting) : Descriptor → List (Option Platform) → Descriptor → Prop
  | here (descriptor : Descriptor) : Through setting descriptor [descriptor.platform] descriptor
  | nested {descriptor child target : Descriptor} {digest : Digest} {bytes : Bytes}
    {index : IndexDocument}
    {chain : List (Option Platform)} (hindex : descriptor.isIndex)
    (hblob : Authentic setting descriptor digest bytes)
    (hstates : setting.serde.Says setting.serde.index bytes index)
    (hchild : child ∈ index.manifests)
    (hrest : Through setting child chain target) :
    Through setting descriptor (descriptor.platform :: chain) target

/-- The configuration of the manifest that a descriptor names. -/
def Configured (setting : Setting) (target : Descriptor) (config : ConfigDocument) : Prop :=
  ∃ manifest : ManifestDocument,
    (∃ digest bytes, Authentic setting target digest bytes ∧
      setting.serde.Says setting.serde.manifest bytes manifest) ∧
    ∃ digest bytes, Authentic setting manifest.config digest bytes ∧
      setting.serde.Says setting.serde.config bytes config

/-- The effective platform has what the descriptor's platform states. -/
structure Meets (effective : ImagePlatform) (stated : Platform) : Prop where
  variant : ∀ v, explicitValue stated.variant = some v → effective.variant = some v
  osVersion : ∀ v, explicitValue stated.osVersion = some v → effective.osVersion = some v
  osFeatures : stated.osFeatures ≠ [] → effective.osFeatures = stated.osFeatures
  features : stated.features ≠ [] → effective.features = stated.features

/-- Nothing is stated that the target has not. -/
structure Plain (stated : Platform) : Prop where
  variant : ∀ v, explicitValue stated.variant = some v → v = "v1"
  osVersion : explicitValue stated.osVersion = none
  features : stated.features = []

/-- A stated variant is stated again by the innermost platform or by the configuration. -/
def Repeated (chain : List (Option Platform)) (config : ConfigDocument)
    (stated : Platform) : Prop :=
  ∀ v, explicitValue stated.variant = some v →
    (∃ m ∈ innermost chain, explicitValue m.variant = some v) ∨
      explicitValue config.platform.variant = some v

/-- The fields in which two levels agree or are refused. -/
def Platform.common (platform : Platform) : String × String × List String :=
  (platform.os, platform.architecture, platform.osFeatures)

section

variable {setting : Setting} {limits : VerifyLimits} {context : String}
  {chain : List (Option Platform)}
variable {platform inherited «local» r : Option Platform} {a b p : Platform}

theorem validateTargetPlatform_ok : validateTargetPlatform p context = .ok () ↔
    Plain p ∧ p.osFeatures = [] := by
  unfold validateTargetPlatform
  simp only [bind_ok, stop_ok, exists_const, not_and, not_not, not_or]
  constructor
  · rintro ⟨hvariant, hversion, hos, hfeatures⟩
    exact ⟨⟨fun v hv => by rw [hv] at hvariant; simpa using hvariant, hversion, hfeatures⟩, hos⟩
  · rintro ⟨⟨hvariant, hversion, hfeatures⟩, hos⟩
    refine ⟨fun hne => ?_, hversion, hos, hfeatures⟩
    obtain ⟨v, hv⟩ := Option.ne_none_iff_exists'.mp hne
    rw [hv, hvariant v hv]

theorem common_of_agreement (h : requirePlatformAgreement a b context = .ok ()) :
    a.common = b.common := by
  unfold requirePlatformAgreement at h
  simp only [stop_ok, not_or, not_not] at h
  rw [Platform.common, Platform.common, h.1, h.2.1, h.2.2.2.2]

theorem agreement_of_plain (ha : Plain a) (hb : Plain b) (h : a.common = b.common) :
    requirePlatformAgreement a b context = .ok () := by
  obtain ⟨hos, h⟩ := Prod.mk.inj h
  obtain ⟨harch, hfeatures⟩ := Prod.mk.inj h
  unfold requirePlatformAgreement disagree
  simp only [stop_ok, hos, harch, hfeatures, ha.osVersion, Option.isSome_none,
    Option.isSome_iff_exists]
  rintro (h | h | ⟨⟨v, hv⟩, ⟨w, hw⟩, hne⟩ | h | h)
  · exact h rfl
  · exact h rfl
  · rw [hv, hw, ha.variant v hv, hb.variant w hw] at hne
    exact hne rfl
  · cases h.1
  · exact h rfl

theorem mergePlatforms_ok : mergePlatforms inherited «local» context limits = .ok r ↔
    (∀ p ∈ «local», validatePlatformShape p context limits = .ok ()) ∧
    (∀ outer ∈ inherited, ∀ inner ∈ «local»,
      requirePlatformAgreement outer inner context = .ok ()) ∧
    r = «local».or inherited := by
  unfold mergePlatforms
  cases inherited <;> cases «local» <;> simp [@eq_comm _ r, Unique.exists_iff]

theorem mem_of_innermost (h : p ∈ innermost chain) : some p ∈ chain := by
  obtain ⟨stated, hstated, heq⟩ := mem_filterMap.mp (mem_of_getLast? h)
  rwa [← show stated = some p from heq]

theorem mergeChain_ok (h : mergeChain limits chain = .ok r) :
    (∀ p, some p ∈ chain → validatePlatformShape p "nested index descriptors" limits = .ok () ∧
      ∃ m, r = some m ∧ p.common = m.common) ∧ r = innermost chain := by
  refine foldlM_ok (fun done r => (∀ p, some p ∈ done →
    validatePlatformShape p "nested index descriptors" limits = .ok () ∧ ∃ m, r = some m ∧
      p.common = m.common) ∧
    r = innermost done) h ⟨by simp, rfl⟩ ?_
  rintro done «local» inherited r ⟨hdone, hlast⟩ hstep
  obtain ⟨hshape, hagree, rfl⟩ := mergePlatforms_ok.mp hstep
  cases «local» with
  | none =>
    refine ⟨by simpa using hdone, ?_⟩
    rw [hlast]
    simp [innermost]
  | some inner =>
    refine ⟨fun p hp => ?_, by simp [innermost]⟩
    rcases mem_append.mp hp with hp | hp
    · obtain ⟨hp, m, rfl, hm⟩ := hdone p hp
      exact ⟨hp, inner, rfl, hm.trans (common_of_agreement (hagree m rfl inner rfl))⟩
    · cases mem_singleton.mp hp
      exact ⟨hshape _ rfl, _, rfl, rfl⟩

theorem mergeChain_of_plain {k : String × String × List String} (h : ∀ p, some p ∈ chain →
    validatePlatformShape p "nested index descriptors" limits = .ok () ∧ Plain p ∧ p.common = k) :
    ∃ r, mergeChain limits chain = .ok r := by
  unfold mergeChain
  have hstart : ∀ p ∈ (none : Option Platform), Plain p ∧ p.common = k := nofun
  generalize (none : Option Platform) = inherited at hstart
  induction chain generalizing inherited with
  | nil => exact ⟨inherited, rfl⟩
  | cons «local» rest ih =>
    have hlocal : ∀ p ∈ «local», _ := fun p hp => h p (by simp [Option.mem_def.mp hp])
    obtain ⟨r, hr⟩ := ih (fun p hp => h p (mem_cons_of_mem _ hp)) («local».or inherited)
      fun p hp => by
      rcases Option.or_eq_some_iff.mp hp with hp | ⟨-, hp⟩
      · exact (hlocal p hp).2
      · exact hstart p hp
    refine ⟨r, bind_ok.mpr ⟨_, mergePlatforms_ok.mpr ⟨fun p hp => (hlocal p hp).1, fun outer ho inner hi => ?_, rfl⟩, hr⟩⟩
    exact agreement_of_plain (hstart outer ho).1 (hlocal inner hi).2.1
      ((hstart outer ho).2.trans (hlocal inner hi).2.2.symm)

variable {descriptor target : Descriptor} {depth : Nat} {s s' : Verifier}
  {selected : Option VerifiedImage}
variable {image : VerifiedImage} {manifest : ManifestDocument} {config : ConfigDocument}
  {configBytes : Bytes}
variable {layers : List Layer} {configContext : String}

theorem selectImage_isSome
    (h : selectImage setting descriptor platform context configContext manifest config configBytes
    layers = .ok selected) : selected.isSome = config.isTarget := by
  unfold selectImage at h
  simp only [bind_ok] at h
  obtain ⟨_, -, _, -, h⟩ := h
  split at h
  · next htarget =>
    obtain ⟨image, -, rfl⟩ := map_ok.mp h
    exact htarget.symm
  · next htarget =>
    cases h
    exact (Bool.eq_false_of_not_eq_true htarget).symm

theorem selectImage_ok (h : selectImage setting descriptor platform context configContext manifest config configBytes
    layers = .ok (some image)) : Plain config.platform ∧ config.platform.osFeatures = [] ∧
    (∀ p ∈ platform, Plain p ∧ p.common = config.platform.common) ∧
    image.effectivePlatform = .ofPlatform (effectivePlatform platform config.platform) := by
  unfold selectImage at h
  simp only [bind_ok] at h
  obtain ⟨_, -, _, hagree, h⟩ := h
  split at h
  · unfold targetImage at h
    simp only [map_ok, bind_ok, pure_ok, Option.some.injEq] at h
    obtain ⟨_, ⟨_, hconfig, _, htarget, _, -, _, -, _, -, rfl⟩, rfl⟩ := h
    obtain ⟨hplain, hnone⟩ := validateTargetPlatform_ok.mp hconfig
    refine ⟨hplain, hnone, fun p hp => ?_, rfl⟩
    cases hp
    exact ⟨(validateTargetPlatform_ok.mp htarget).1, common_of_agreement hagree⟩
  · cases h

/-- The target takes any platform that agrees with the configuration and states nothing that it has
not. -/
theorem selectImage_of_plain {platform' : Option Platform}
    (h : selectImage setting descriptor platform context configContext
    manifest config configBytes layers = .ok (some image))
    (hp : ∀ p ∈ platform', Plain p ∧ p.common = config.platform.common) :
    ∃ image', selectImage setting descriptor platform' context configContext manifest config configBytes layers =
      .ok (some image') := by
  obtain ⟨hplain, hnone, -⟩ := selectImage_ok h
  have htarget' : platform'.forM (validateTargetPlatform · context) = .ok () ∧
      platform'.forM (requirePlatformAgreement · config.platform context) = .ok () := by
    cases platform' with
    | none => exact ⟨rfl, rfl⟩
    | some p =>
      obtain ⟨hp, hcommon⟩ := hp p rfl
      have hos : p.osFeatures = [] := (congrArg (·.2.2) hcommon).trans hnone
      exact ⟨validateTargetPlatform_ok.mpr ⟨hp, hos⟩, agreement_of_plain hp hplain hcommon⟩
  unfold selectImage at h ⊢
  simp only [bind_ok] at h ⊢
  obtain ⟨_, hshape, _, -, h⟩ := h
  split at h
  · next htarget =>
    unfold targetImage at h ⊢
    simp only [map_ok, bind_ok] at h
    obtain ⟨_, ⟨_, hconfig, _, -, process, hprocess, m, hm, c, hc, -⟩, -⟩ := h
    exact ⟨_, (), hshape, (), htarget'.2,
      (if_pos htarget).trans (map_ok.mpr ⟨_, bind_ok.mpr ⟨(), hconfig, bind_ok.mpr
      ⟨(), htarget'.1, bind_ok.mpr ⟨process, hprocess,
        bind_ok.mpr ⟨m, hm, bind_ok.mpr ⟨c, hc, rfl⟩⟩⟩⟩⟩, rfl⟩)⟩
  · cases h

/-- The platform is looked at last, when everything else has been verified. -/
theorem verifyManifest_selects
    (h : (verifyManifest setting descriptor platform depth).run.run s = (.ok selected, s')) :
    ∃ (manifest : ManifestDocument) (config : ConfigDocument) (configBytes : Bytes)
    (layers : List Layer),
      Configured setting descriptor config ∧
        selectImage setting descriptor platform descriptor.digest manifest.config.digest manifest config configBytes layers =
        .ok selected ∧
      ∀ platform' selected', selectImage setting descriptor platform' descriptor.digest manifest.config.digest manifest config
        configBytes layers = .ok selected' →
        (verifyManifest setting descriptor platform' depth).run.run s = (.ok selected', s') := by
  unfold verifyManifest at h ⊢
  simp only [run_bind_ok] at h ⊢
  obtain ⟨bytes, t₀, h₀, manifest, t₁, h₁, _, t₂, h₂, _, t₃, h₃, _, t₄, h₄, _, t₅, h₅, configBytes,
    t₆, h₆, config, t₇, h₇, _, t₈, h₈, _, t₉, h₉, layers, t₁₀, h₁₀, h⟩ := h
  obtain ⟨hselect, rfl⟩ := Prod.mk.inj h
  obtain ⟨digest, hblob⟩ := authenticateJsonBlob_ok (Prod.mk.inj h₀).1
  obtain ⟨configDigest, hconfigBlob⟩ := authenticateJsonBlob_ok (Prod.mk.inj h₆).1
  refine ⟨manifest, config, configBytes, layers,
    ⟨manifest, ⟨digest, bytes, hblob, says_of_parseJson (Prod.mk.inj h₁).1⟩,
    configDigest, configBytes, hconfigBlob, says_of_parseJson (Prod.mk.inj h₇).1⟩, hselect, ?_⟩
  exact fun platform' selected' hselect' => ⟨bytes, t₀, h₀, manifest, t₁, h₁, _, t₂, h₂, _, t₃, h₃,
    _, t₄, h₄, _, t₅, h₅, configBytes, t₆, h₆, config, t₇, h₇, _, t₈, h₈, _, t₉, h₉, layers, t₁₀,
      h₁₀, Prod.ext hselect' rfl⟩

theorem effective_variant {config : Platform} (hplain : ∀ m ∈ platform, Plain m)
    (hconfig : Plain config) (v : String) :
    (effectivePlatform platform config).variant = some v ↔
      (∃ m ∈ platform, explicitValue m.variant = some v) ∨
        explicitValue config.variant = some v := by
  simp only [effectivePlatform, Option.or_eq_some_iff, Option.bind_eq_some_iff, Option.mem_def]
  refine or_congr_right' fun hno => ⟨And.right, fun hv => ⟨?_, hv⟩⟩
  -- a variant of the descriptor would be v1 as well
  by_contra hsome
  obtain ⟨w, hw⟩ := Option.ne_none_iff_exists'.mp hsome
  obtain ⟨m, hm, hw⟩ := Option.bind_eq_some_iff.mp hw
  rw [(hplain m hm).variant w hw, ← hconfig.variant v hv] at hw
  exact hno ⟨m, hm, hw⟩

theorem effective_meets_iff {config : Platform} (hplain : ∀ m ∈ platform, Plain m)
    (hconfig : Plain config) (hstated : p.osFeatures = []) :
    Meets (.ofPlatform (effectivePlatform platform config)) p ↔
      Plain p ∧ ∀ v, explicitValue p.variant = some v →
        (∃ m ∈ platform, explicitValue m.variant = some v) ∨
          explicitValue config.variant = some v := by
  have hnone : (effectivePlatform platform config).osVersion = none ∧
      (effectivePlatform platform config).features = [] := by
    cases platform with
    | none => exact ⟨hconfig.osVersion, rfl⟩
    | some m =>
      have hm := hplain m rfl
      simp [effectivePlatform, hm.osVersion, hm.features, hconfig.osVersion]
  have hvariant := effective_variant hplain hconfig
  constructor
  · intro h
    refine ⟨⟨fun v hv => ?_, ?_, ?_⟩, fun v hv => (hvariant v).mp (h.variant v hv)⟩
    · rcases (hvariant v).mp (h.variant v hv) with ⟨m, hm, hv⟩ | hv
      · exact (hplain m hm).variant v hv
      · exact hconfig.variant v hv
    · by_contra hsome
      obtain ⟨v, hv⟩ := Option.ne_none_iff_exists'.mp hsome
      cases hnone.1.symm.trans (h.osVersion v hv)
    · by_contra hsome
      exact hsome ((h.features hsome).symm.trans hnone.2)
  · rintro ⟨hp, hrepeated⟩
    refine ⟨fun v hv => (hvariant v).mpr (hrepeated v hv), fun v hv => ?_,
      fun hne => absurd hstated hne, fun hne => absurd hp.features hne⟩
    rw [hp.osVersion] at hv
    cases hv

/-- The walk of each descriptor, and that its candidates are kept. -/
theorem walkDescriptors_each {descriptors : List Descriptor} {u : Unit}
    (hdepth : depth ≤ setting.limits.maxIndexDepth)
    (h : (walkDescriptors setting descriptors platform depth).run.run s = (.ok u, s')) :
    ∀ child ∈ descriptors, ∃ t t', (walkDescriptor setting child platform depth).run.run t =
      (.ok (), t') ∧ t'.candidates ⊆ s'.candidates := by
  induction descriptors generalizing s with
  | nil => exact fun _ hchild => absurd hchild not_mem_nil
  | cons descriptor rest ih =>
    rw [walkDescriptors, run_bind_ok] at h
    obtain ⟨_, t, hfirst, hrest⟩ := h
    refine forall_mem_cons.mpr ⟨⟨s, t, hfirst, fun image himage => ?_⟩, ih hrest⟩
    have hkept := maintains_walkDescriptors
      (fun _ => maintains_walkDescriptor (steady_candidate image) _ platform hdepth) rest t himage
    rwa [hrest] at hkept

-- By induction on the way, at whatever depth and with whatever platform inherited.
theorem walkDescriptor_merges (hway : Through setting descriptor chain target)
    (hmanifest : target.isManifest)
    (h : (walkDescriptor setting descriptor inherited depth).run.run s = (.ok (), s')) :
    ∃ platform depth' t t' selected, chain.foldlM (fun inherited «local» =>
        mergePlatforms inherited «local» "nested index descriptors" setting.limits) inherited =
          .ok platform ∧
      (verifyManifest setting target platform depth').run.run t = (.ok selected, t') ∧
      ∀ image ∈ selected, image ∈ s'.candidates := by
  induction hway generalizing inherited depth s s' with
  | here descriptor =>
    rw [walkDescriptor, run_bind_ok] at h
    obtain ⟨_, t, -, h⟩ := h
    rw [run_check_bind] at h
    obtain ⟨platform, hmerge, h⟩ := h
    rw [if_pos hmanifest, run_bind_ok] at h
    obtain ⟨selected, t', hverify, hpush⟩ := h
    refine ⟨platform, depth, t, t', selected, bind_ok.mpr ⟨platform, hmerge, rfl⟩, hverify,
      fun image himage => ?_⟩
    rw [run_modify.mp hpush]
    exact mem_append_right _ (Option.mem_toList.mpr himage)
  | @nested descriptor child target digest bytes index chain hindex hblob hstates hchild hrest ih =>
    rw [walkDescriptor, run_bind_ok] at h
    obtain ⟨_, t, -, h⟩ := h
    rw [run_check_bind] at h
    obtain ⟨platform, hmerge, h⟩ := h
    have hnot : ¬descriptor.isManifest = true := fun hm => by
      rw [not_isIndex_of_isManifest hm] at hindex
      cases hindex
    rw [if_neg hnot, if_pos hindex] at h
    split at h
    · cases h
    · next hdepth =>
      rw [run_bind_ok] at h
      obtain ⟨⟨digest', index'⟩, t₁, hopen, h⟩ := h
      obtain ⟨⟨_, _, hblob', hstates'⟩, -⟩ := openIndex_ok hopen
      obtain ⟨rfl, rfl⟩ := hblob.unique hblob'
      cases hstates.unique hstates'
      rw [run_bind_ok] at h
      obtain ⟨_, t₂, hwalk, hremove⟩ := h
      obtain ⟨t₃, t₄, hchild, hkept⟩ := walkDescriptors_each (by omega) hwalk child hchild
      obtain ⟨platform', depth', t₅, t₆, selected, hfold, hverify, hselected⟩ := ih hmanifest hchild
      refine ⟨platform', depth', t₅, t₆, selected, bind_ok.mpr ⟨platform, hmerge, hfold⟩, hverify,
        fun image himage => ?_⟩
      rw [run_modify.mp hremove]
      exact hkept (hselected image himage)

end

deriving instance DecidableEq for Verifier

namespace Sample

/-- Where a variant is stated: v3 at one level, or v1 at both. -/
inductive Levels where
  | outer
  | inner
  | both

def Levels.variants : Levels → Option String × Option String
  | .outer => (some "v3", none)
  | .inner => (none, some "v3")
  | .both => (some "v1", some "v1")

def stated (variant : Option String) : Platform := ⟨"amd64", "linux", variant, none, [], []⟩

variable (levels : Levels)

def inner : Descriptor := { described OCI_MANIFEST [2] with platform := some (stated levels.variants.2) }

def outer : Descriptor := { described OCI_INDEX [4] with platform := some (stated levels.variants.1) }

def nestedIndex : IndexDocument := { index with manifests := [inner levels] }

def nestedEntry (names : List String) : Option Entry :=
  if names = blobNames (sha256 [4]) then some (.file (streamOf [4])) else layout.entry names

def nested : Setting := { setting with
  layout := { layout with entry := nestedEntry }
  serde := { serde with index := fun _ => .ok (nestedIndex levels) } }

def counted : Verifier := { descriptorsSeen := 1, consumed := [(outer levels, 0)] }

def opened : Verifier := { counted levels with activeIndexes := [sha256 [4]] }

theorem open_outer : (openIndex (nested levels) (outer levels)).run.run (counted levels) =
    (.ok (sha256 [4], nestedIndex levels), opened levels) := by
  show @Eq (Except Error (Digest × IndexDocument) × Verifier) _ _
  cases levels <;> decide +kernel

theorem walk_outer : (walkDescriptor (nested levels) (outer levels) none 0).run.run {} =
    (do walkDescriptors (nested levels) [inner levels] (some (stated levels.variants.1)) 1
        modify fun verifier => { verifier with activeIndexes := verifier.activeIndexes.erase (sha256 [4]) }
      : VerifyM Unit).run.run (opened levels) := by
  have hconsume : (consumeDescriptor (nested levels) (outer levels) "image index" 0).run.run {} =
      (.ok (), counted levels) := by
    show @Eq (Except Error Unit × Verifier) _ _
    cases levels <;> decide +kernel
  have hmerge : mergePlatforms none (outer levels).platform "nested index descriptors"
    (nested levels).limits =
      .ok (some (stated levels.variants.1)) := by cases levels <;> decide +kernel
  rw [walkDescriptor, run_bind_of_ok hconsume, hmerge, run_bind_of_ok run_check,
    if_neg (by cases levels <;> decide), if_pos (by cases levels <;> decide),
      dif_neg (by cases levels <;> decide), run_bind_of_ok (open_outer levels)]
  rfl

theorem walk_nested : (((walkDescriptor (nested levels) (outer levels) none 0).run.run {}).1.isOk,
      ((walkDescriptor (nested levels) (outer levels) none 0).run.run {}).2.candidates.map
        fun image => image.effectivePlatform.variant) =
    match levels with
    | .outer => (true, [none])
    | .inner => (false, [])
    | .both => (true, [some "v1"]) := by
  rw [walk_outer, walkDescriptors, walkDescriptor, walkDescriptors]
  cases levels <;> decide +kernel

theorem walked {r : Except Error Unit × Verifier} (h : r.1.isOk = true) : r = (.ok (), r.2) := by
  obtain ⟨_ | _, s⟩ := r
  · cases h
  · rfl

end Sample

end PocketVm.Oci
