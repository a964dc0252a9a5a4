import PocketVm.Cbor
import PocketVm.Protocol.Message

/-!
# How large START is

`minicbor` writes START as a map from the indices of its fields, without the absent ones. The checks
of `Start::validate` bound the bytes of the arguments, of the environment and of every path, each on
its own, and nothing bounds their sum.
-/

namespace PocketVm.Protocol

open Wire Checked Cbor List

def writeOption {α : Type} (index : Nat) (write : α → Bytes) : Option α → List (Nat × Bytes)
  | none => []
  | some a => [(index, write a)]

def Platform.cbor (platform : Platform) : Bytes :=
  writeMap ([(0, writeText platform.os), (1, writeText platform.architecture)] ++
    writeOption 2 writeText platform.variant)

def ResourceLimit.cbor (limit : ResourceLimit) : Bytes :=
  writeMap [(0, writeHead 0 limit.resource.toNat), (1, writeHead 0 limit.soft.toNat),
    (2, writeHead 0 limit.hard.toNat)]

def VolumeSpec.cbor (volume : VolumeSpec) : Bytes :=
  writeMap [(0, writeText volume.source), (1, writeText volume.destination),
    (2, writeBool volume.readOnly)]

def Start.cbor (s : Start) : Bytes :=
  writeMap (
    [(0, writeText s.profileId), (1, writeText s.profileRevision), (2, writeText s.generationId)] ++
    writeOption 3 Platform.cbor s.descriptorPlatform ++
    [(4, s.configPlatform.cbor), (5, s.effectivePlatform.cbor), (6, writeText s.selectorPolicy),
      (7, writeText s.rootLayout), (8, writeText s.filesystemContract),
        (9, writeArray (s.argv.map writeText)),
      (10, writeArray (s.env.map writeText)), (11, writeText s.cwd), (12, writeHead 0 s.uid.toNat),
      (13, writeHead 0 s.gid.toNat), (14,
        writeArray (s.supplementaryGids.map fun gid => writeHead 0 gid.toNat)),
      (15, writeHead 0 s.umask.toNat), (16, writeArray (s.rlimits.map ResourceLimit.cbor)),
        (17, writeText s.hostname),
      (18, writeBool s.rootReadOnly), (19, writeArray (s.volumes.map VolumeSpec.cbor)),
        (20, writeBool s.terminal),
      (21, writeHead 0 s.networkMode.toNat), (22, writeHead 0 s.stopSignal.toNat),
        (23, writeText s.derivationKey),
      (24, writeText s.accountDbSha256), (25, writeHead 0 s.stdinBytes.toNat),
        (26, writeBool s.privileged),
      (27, writeBool s.stdinStreaming), (28, writeHead 0 s.terminalRows.toNat),
      (29, writeHead 0 s.terminalColumns.toNat), (30, writeHead 0 s.extraConsoles.toNat)])

open Format in
def Platform.cborSize (platform : Platform) : Nat :=
  3 + textSize platform.os + textSize platform.architecture +
    (platform.variant.map fun variant => 1 + textSize variant).getD 0

def ResourceLimit.cborSize (limit : ResourceLimit) : Nat :=
  4 + headSize limit.resource.toNat + headSize limit.soft.toNat + headSize limit.hard.toNat

open Format in
def VolumeSpec.cborSize (volume : VolumeSpec) :
    Nat := 5 + textSize volume.source + textSize volume.destination

def textsSize (texts : List String) : Nat := headSize texts.length + (texts.map Format.textSize).sum

open Format in
/-- The head of the map, the indices and the four truth values take 43 bytes, and each field adds
its own. -/
def Start.cborSize (s : Start) : Nat :=
  43 + textSize s.profileId + textSize s.profileRevision + textSize s.generationId +
    (s.descriptorPlatform.map fun platform => 1 + platform.cborSize).getD 0 +
    s.configPlatform.cborSize + s.effectivePlatform.cborSize +
    textSize s.selectorPolicy + textSize s.rootLayout + textSize s.filesystemContract +
    textsSize s.argv + textsSize s.env + textSize s.cwd + headSize s.uid.toNat + headSize s.gid.toNat +
    (headSize s.supplementaryGids.length + (s.supplementaryGids.map fun gid =>
      headSize gid.toNat).sum) +
    headSize s.umask.toNat + (headSize s.rlimits.length + (s.rlimits.map ResourceLimit.cborSize).sum) +
    textSize s.hostname + (headSize s.volumes.length + (s.volumes.map VolumeSpec.cborSize).sum) +
    headSize s.networkMode.toNat + headSize s.stopSignal.toNat + textSize s.derivationKey +
    textSize s.accountDbSha256 + headSize s.stdinBytes.toNat + headSize s.terminalRows.toNat +
    headSize s.terminalColumns.toNat + headSize s.extraConsoles.toNat

theorem length_writeArray_map {α : Type} {write : α → Bytes} {size : α → Nat}
    (h : ∀ a, (write a).length = size a)
    (items : List α) : (writeArray (items.map write)).length =
    headSize items.length + (items.map size).sum := by
  rw [length_writeArray, length_map, map_map]
  congr 2
  exact map_congr_left fun a _ => h a

theorem Platform.length_cbor (platform : Platform) : platform.cbor.length = platform.cborSize := by
  unfold cbor cborSize
  rw [length_writeMap]
  cases platform.variant with
  | none =>
    simp (disch := decide) only [writeOption, append_nil, map_cons, map_nil, sum_cons, sum_nil,
      length_cons, length_nil, length_writeText, headSize_small, Option.map_none, Option.getD_none]
    omega
  | some variant =>
    simp (disch := decide) only [writeOption, cons_append, nil_append, map_cons, map_nil,
      sum_cons, sum_nil, length_cons, length_nil, length_writeText, headSize_small, Option.map_some,
      Option.getD_some]
    omega

theorem ResourceLimit.length_cbor (limit : ResourceLimit) : limit.cbor.length = limit.cborSize := by
  unfold cbor cborSize
  rw [length_writeMap]
  simp (disch := decide) only [map_cons, map_nil, sum_cons, sum_nil, length_cons,
    length_nil, length_writeHead, headSize_small]
  omega

theorem VolumeSpec.length_cbor (volume : VolumeSpec) : volume.cbor.length = volume.cborSize := by
  unfold cbor cborSize
  rw [length_writeMap]
  simp (disch := decide) only [map_cons, map_nil, sum_cons, sum_nil, length_cons,
    length_nil, length_writeText, length_writeBool, headSize_small]
  omega

/-- The absent platform leaves its index out; the head of the map is as long with it as without. -/
theorem Start.length_cbor (s : Start) : s.cbor.length = s.cborSize := by
  unfold cbor cborSize
  rw [length_writeMap]
  cases s.descriptorPlatform
  all_goals
    simp (disch := decide) only [writeOption, append_nil, cons_append, nil_append,
      map_cons, map_nil, sum_cons, sum_nil, length_cons, length_nil, length_writeText,
        length_writeHead, length_writeBool,
      length_writeArray_map length_writeText,
        length_writeArray_map (fun gid => length_writeHead 0 _),
      length_writeArray_map ResourceLimit.length_cbor, length_writeArray_map VolumeSpec.length_cbor,
      Platform.length_cbor, textsSize, headSize_small, headSize_byte, Option.map_none,
        Option.getD_none, Option.map_some,
      Option.getD_some]
    omega

theorem encodePayload_valid {α : Type} {codec : Codec α}
    {validate : α → Except ProtocolError Unit} {message : α}
    {payload : Bytes} (hvalid : validate message = .ok ())
    (hcodec : codec.toVec message = .ok payload) :
    encodePayload codec validate message =
      validateCount "payload" payload.length MAX_CONTROL_PAYLOAD >>= fun _ => pure payload := by
  unfold encodePayload
  rw [hvalid, hcodec]
  rfl

/-- A START that validates is encoded exactly if its fields, each with its head, fit one control
frame. -/
theorem start_encodes_iff (codec : Codec Start) (start : Start) (hvalid : start.validate = .ok ())
    (hcodec : codec.toVec start = .ok start.cbor) :
    (∃ payload, encodePayload codec Start.validate start = .ok payload) ↔
      start.cborSize ≤ MAX_CONTROL_PAYLOAD := by
  rw [encodePayload_valid hvalid hcodec, start.length_cbor]
  simp only [bind_ok, validateCount_ok, pure_ok]
  constructor
  · rintro ⟨payload, -, hfits, -⟩
    exact hfits
  · intro hfits
    exact ⟨start.cbor, (), hfits, rfl⟩

namespace StartSample

def digest : String := String.ofList (List.replicate 64 '0')

def platform : Platform := ⟨"linux", "amd64", none⟩

def small : Start where
  profileId := "profile"
  profileRevision := digest
  generationId := digest
  descriptorPlatform := none
  configPlatform := platform
  effectivePlatform := platform
  selectorPolicy := "policy"
  rootLayout := "layout"
  filesystemContract := "contract"
  argv := ["a"]
  env := []
  cwd := "/"
  uid := 0
  gid := 0
  supplementaryGids := []
  umask := 18
  rlimits := []
  hostname := "pocket"
  rootReadOnly := false
  volumes := []
  terminal := false
  networkMode := 0
  stopSignal := 15
  derivationKey := digest
  accountDbSha256 := digest
  stdinBytes := 0
  privileged := false
  stdinStreaming := false
  terminalRows := 0
  terminalColumns := 0
  extraConsoles := 0

/-- A shell with an environment, groups, a limit and two volumes. -/
def furnished : Start :=
  { small with
    descriptorPlatform := some platform
    argv := ["/bin/sh", "-c", "exec sleep 60"]
    env := ["PATH=/usr/bin:/bin", "LANG="]
    supplementaryGids := [27, 1000]
    rlimits := [⟨7, 1024, 4096⟩]
    volumes := [⟨"/srv/data", "/data", true⟩, ⟨"/home/user", "/work", false⟩] }

def codec (known : Start) : Codec Start where
  toVec s := if s = known then .ok known.cbor else .error "unknown"
  decode bytes := if bytes = known.cbor then .ok (known, bytes.length) else .error "unknown"
  decode_toVec {s bytes} h := by
    split at h
    · next hs =>
      cases h
      rw [if_pos rfl, hs]
    · cases h

theorem codec_known (known : Start) : (codec known).toVec known = .ok known.cbor := by
  exact if_pos rfl

def argument (count : Nat) : String := String.ofList (List.replicate count 'a')

def entry (count : Nat) : String := String.ofList ('a' :: '=' :: List.replicate count 'a')

theorem utf8_argument (count : Nat) : utf8 (argument count) = List.replicate count 97 := by
  rw [argument, utf8_ofList_ascii]
  · rw [map_replicate]
    rfl
  · intro c hc
    rw [eq_of_mem_replicate hc]
    decide

theorem utf8_entry (count : Nat) : utf8 (entry count) = 97 :: 61 :: List.replicate count 97 := by
  rw [entry, utf8_ofList_ascii]
  · rw [map_cons, map_cons, map_replicate]
    rfl
  · intro c hc
    rcases mem_cons.mp hc with rfl | hc
    · decide
    rcases mem_cons.mp hc with rfl | hc
    · decide
    rw [eq_of_mem_replicate hc]
    decide

theorem length_argument (count : Nat) : (utf8 (argument count)).length = count := by
  rw [utf8_argument, length_replicate]

theorem length_entry (count : Nat) : (utf8 (entry count)).length = count + 2 := by
  rw [utf8_entry, length_cons, length_cons, length_replicate]

variable {text : String} {count size : Nat}

theorem countTexts_replicate {check : Nat → String → Except ProtocolError Unit}
    {field : String} (count : Nat)
    (hcheck : ∀ index, check index text = .ok ()) (index total : Nat)
    (hfits : total + count * (utf8 text).length < 2 ^ 64) :
    countTexts check field index total (List.replicate count text) =
      .ok (total + count * (utf8 text).length) := by
  induction count generalizing index total with
  | zero => simp [countTexts]
  | succ count ih =>
    rw [Nat.succ_mul] at hfits ⊢
    refine bind_ok.mpr ⟨(), hcheck index, bind_ok.mpr ⟨_, checkedAdd_ok.mpr ⟨by omega, rfl⟩, ?_⟩⟩
    rw [ih (index + 1) _ (by omega)]
    congr 1
    omega

theorem validateText_argument (hpos : 0 < count) (hcount : count ≤ MAX_ARG_LENGTH)
    (emptyAllowed : Bool) :
    validateText "argv" (argument count) MAX_ARG_LENGTH emptyAllowed = .ok () := by
  unfold validateText
  simp only [bind_ok, validateCount_ok, refuse_ok, utf8_argument, exists_const, length_replicate]
  refine ⟨hcount, ?_, ?_⟩
  · simp [hpos.ne']
  · simp

theorem validateText_entry (hcount : count + 2 ≤ MAX_ENV_LENGTH) :
    validateText "env" (entry count) MAX_ENV_LENGTH false = .ok () := by
  unfold validateText
  simp only [bind_ok, validateCount_ok, refuse_ok, exists_const, length_entry]
  refine ⟨hcount, ?_, ?_⟩
  · simp [utf8_entry]
  · simp [utf8_entry]

theorem validateEnvironment_entry (count : Nat) : validateEnvironment (entry count) = .ok () := by
  unfold validateEnvironment
  have hkey : (utf8 (entry count)).takeWhile (· != 61) = [97] := by
    rw [utf8_entry]
    rfl
  simp only [bind_ok, refuse_ok, hkey, exists_const, length_entry]
  exact ⟨by simp, by decide, by decide⟩

theorem countTexts_arguments (hpos : 0 < size) (hsize : size ≤ MAX_ARG_LENGTH)
    (hfits : count * size < 2 ^ 64) :
    countTexts (fun index text => validateText "argv" text MAX_ARG_LENGTH (index != 0))
      "argv_total" 0 0 (List.replicate count (argument size)) = .ok (count * size) := by
  rw [countTexts_replicate count fun index => validateText_argument hpos hsize (index != 0),
    length_argument, Nat.zero_add]
  rwa [length_argument, Nat.zero_add]

theorem countTexts_entries (hsize : size + 2 ≤ MAX_ENV_LENGTH)
    (hfits : count * (size + 2) < 2 ^ 64) : countTexts (fun _ text => do
      validateText "env" text MAX_ENV_LENGTH false
      validateEnvironment text) "env_total" 0 0 (List.replicate count (entry size)) =
        .ok (count * (size + 2)) := by
  rw [countTexts_replicate count fun _ => bind_ok.mpr ⟨(), validateText_entry hsize,
    validateEnvironment_entry size⟩, length_entry, Nat.zero_add]
  rwa [length_entry, Nat.zero_add]

def replace (s : Start) (argv env : List String) : Start := { s with argv := argv, env := env }

theorem validate_replace {s : Start} (h : s.validate = .ok ()) {argv env : List String}
    {argumentBytes environmentBytes : Nat} (hargv : argv.length ≤ MAX_ARG_COUNT) (hne : argv ≠ [])
    (harguments : countTexts (fun index text => validateText "argv" text MAX_ARG_LENGTH (index != 0)) "argv_total" 0 0 argv =
      .ok argumentBytes) (hhalf : argumentBytes ≤ MAX_CONTROL_PAYLOAD / 2)
      (henv : env.length ≤ MAX_ENV_COUNT)
    (henvironment : countTexts (fun _ text => do
      validateText "env" text MAX_ENV_LENGTH false
      validateEnvironment text) "env_total" 0 0 env = .ok environmentBytes)
    (hhalf' : environmentBytes ≤ MAX_CONTROL_PAYLOAD / 2) :
    (replace s argv env).validate = .ok () := by
  unfold Start.validate at h ⊢
  simp only [bind_ok] at h ⊢
  obtain ⟨_, h1, _, h2, _, h3, _, h4, _, h5, _, h6, _, h7, _, h8, _, h9, _, h10, _, h11, _, h12,
    _, -, _, -, _, -, _, -, _, -, _, -, _, -, hrest⟩ := h
  exact ⟨(), h1, (), h2, (), h3, (), h4, (), h5, (), h6, (), h7, (), h8, (), h9, (), h10,
    (), h11, (), h12, (), validateCount_ok.mpr hargv, (), refuse_ok.mpr hne, _, harguments, (),
      validateCount_ok.mpr hhalf,
    (), validateCount_ok.mpr henv, _, henvironment, (), validateCount_ok.mpr hhalf', hrest⟩

/-- As many bytes of arguments, and as many of environment, as validation lets through. -/
def crowded : Start := replace small (List.replicate 32 (argument 4096))
    (List.replicate 16 (entry 8190))

theorem small_valid : small.validate = .ok () := by decide +kernel

theorem crowded_valid : crowded.validate = .ok () :=
  validate_replace small_valid (by rw [length_replicate]; decide) (cons_ne_nil _ _)
    (countTexts_arguments (by decide) (by decide) (by decide)) (by decide)
      (by rw [length_replicate]; decide)
    (countTexts_entries (by decide) (by decide)) (by decide)

theorem textsSize_replicate (h : (utf8 text).length = size) :
    textsSize (List.replicate count text) = headSize count + count * (headSize size + size) := by
  have htext : Format.textSize text = headSize size + size := by
    rw [← h]
    rfl
  rw [textsSize, length_replicate, map_replicate, sum_replicate_nat, htext]

theorem cborSize_replace (s : Start) (argv env : List String) :
    (replace s argv env).cborSize + textsSize s.argv + textsSize s.env =
      s.cborSize + textsSize argv + textsSize env := by
  unfold replace Start.cborSize
  simp only
  omega

theorem small_size : small.cborSize = 393 := by decide +kernel

theorem cborSize_crowded {first second : String} (hfirst : (utf8 first).length = 4096)
    (hsecond : (utf8 second).length = 8192) :
    (replace small (List.replicate 32 first) (List.replicate 16 second)).cborSize = 262680 := by
  have h := cborSize_replace small (List.replicate 32 first) (List.replicate 16 second)
  have hargv : textsSize small.argv = 3 := by decide +kernel
  have henv : textsSize small.env = 1 := by decide +kernel
  have h32 : headSize 32 = 2 := rfl
  have h16 : headSize 16 = 1 := rfl
  have h4096 : headSize 4096 = 3 := rfl
  have h8192 : headSize 8192 = 3 := rfl
  rw [small_size, textsSize_replicate hfirst, textsSize_replicate hsecond] at h
  omega

theorem crowded_size : crowded.cborSize = 262680 :=
  cborSize_crowded (length_argument 4096) (length_entry 8190)

end StartSample

theorem start_encodes_furnished : (∃ payload,
    encodePayload (StartSample.codec StartSample.furnished) Start.validate StartSample.furnished =
      .ok payload) ∧ StartSample.furnished.cborSize ≤ MAX_CONTROL_PAYLOAD := by
  have hvalid : StartSample.furnished.validate = .ok () := by decide +kernel
  have hfits : StartSample.furnished.cborSize ≤ MAX_CONTROL_PAYLOAD := by decide +kernel
  exact ⟨(start_encodes_iff (StartSample.codec StartSample.furnished) StartSample.furnished hvalid
    (StartSample.codec_known StartSample.furnished)).mpr hfits, hfits⟩

/-- Arguments and environment of 128 KiB each are valid, and their heads do not fit the frame with
them. -/
theorem crowded_start_refused : StartSample.crowded.validate = .ok () ∧
    (StartSample.codec StartSample.crowded).toVec StartSample.crowded =
      .ok StartSample.crowded.cbor ∧
    encodePayload (StartSample.codec StartSample.crowded) Start.validate StartSample.crowded =
      .error (.messageLimitExceeded "payload" 262680 262144) := by
  refine ⟨StartSample.crowded_valid, StartSample.codec_known StartSample.crowded, ?_⟩
  rw [encodePayload_valid StartSample.crowded_valid (StartSample.codec_known StartSample.crowded),
    StartSample.crowded.length_cbor, StartSample.crowded_size]
  rfl

end PocketVm.Protocol
