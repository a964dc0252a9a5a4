import PocketVm.Oci.Document
import PocketVm.Protocol.Message

/-!
# The working directory of an image

`effective_process` brings an image's WorkingDir into the strict lexical form that START's
validation asks for. It does not ask for START's bound on the length.
-/

namespace PocketVm.Oci

open Wire Checked List

theorem utf8_eq (s : String) : utf8 s = s.toList.flatMap String.utf8EncodeChar := by
  rw [← utf8_ofList, String.ofList_toList]

variable {c : Char} {path name : String} {parts : List String}

theorem toNat_of_mem_utf8EncodeChar {b : UInt8} (h : b ∈ String.utf8EncodeChar c)
    (hb : b.toNat < 128) :
    c.val.toNat = b.toNat := by
  unfold String.utf8EncodeChar at h
  dsimp only at h
  split_ifs at h with h₁ h₂ h₃
  · rw [mem_singleton.mp h, UInt8.toNat_ofNat']
    omega
  all_goals
    simp only [mem_cons, not_mem_nil, or_false] at h
    rcases h with rfl | rfl | rfl | rfl <;> simp only [UInt8.toNat_ofNat'] at hb <;> omega

theorem mem_of_mem_utf8 {s : String} (hc : c.val.toNat < 128)
    (h : UInt8.ofNat c.val.toNat ∈ utf8 s) :
    c ∈ s.toList := by
  rw [utf8_eq, mem_flatMap] at h
  obtain ⟨d, hd, h⟩ := h
  have hbyte : (UInt8.ofNat c.val.toNat).toNat = c.val.toNat := by
    rw [UInt8.toNat_ofNat']
    omega
  have hsame := toNat_of_mem_utf8EncodeChar h (by omega)
  rwa [Char.ext (UInt32.toNat_inj.mp (hsame.trans hbyte))] at hd

theorem utf8_slashed (parts : List String) :
    utf8 ("/" ++ "/".intercalate parts) = 47 :: [47].intercalate (parts.map utf8) := by
  rw [utf8_eq, String.toList_append, String.toList_intercalate, flatMap_append]
  have hslash : "/".toList.flatMap String.utf8EncodeChar = [47] := by decide +kernel
  rw [hslash, singleton_append, List.cons.injEq]
  refine ⟨rfl, ?_⟩
  induction parts with
  | nil => rfl
  | cons part rest ih =>
    cases rest with
    | nil => simp [List.intercalate, utf8_eq]
    | cons next rest =>
      simp only [map_cons, intercalate_cons_cons, flatMap_append] at ih ⊢
      rw [ih, ← utf8_eq, hslash]

def names (path : String) : List String :=
  (components path).filterMap fun
    | .normal name => some name
    | _ => none

structure IsName (name : String) : Prop where
  nonempty : name ≠ ""
  notDot : name ≠ "."
  notParent : name ≠ ".."
  noSlash : '/' ∉ name.toList

theorem mem_splitOn {x : Char} {xs part : List Char} (h : part ∈ xs.splitOn x) :
    x ∉ part ∧ part ⊆ xs := by
  induction xs generalizing part with
  | nil =>
    rw [splitOn_nil, mem_singleton] at h
    simp [h]
  | cons y ys ih =>
    rw [splitOn_cons_eq_if_modifyHead] at h
    cases hsplit : ys.splitOn x with
    | nil => exact absurd hsplit (splitOn_ne_nil _ _)
    | cons first rest =>
      rw [hsplit, modifyHead_cons] at h
      split_ifs at h with hxy <;> grind

theorem mem_names (h : name ∈ names path) : IsName name ∧ name.toList ⊆ path.toList := by
  unfold names components at h
  simp only [filterMap_append, mem_append, mem_filterMap, mem_map] at h
  rcases h with ⟨c, hc, hname⟩ | ⟨c, ⟨part, ⟨chars, hchars, rfl⟩, hpart⟩, hname⟩
  · split_ifs at hc <;> simp at hc <;> simp [hc] at hname
  · unfold component at hpart
    obtain ⟨hslash, hsub⟩ := mem_splitOn hchars
    split_ifs at hpart with h₁ h₂
    · cases hpart; cases hname
    · cases hpart
      cases hname
      rw [not_or] at h₁
      exact ⟨⟨h₁.1, h₁.2, h₂, by rwa [String.toList_ofList]⟩, by rwa [String.toList_ofList]⟩

theorem components_of_isAbsolute (h : isAbsolute path) :
    components path = .rootDir :: ((path.toList.splitOn '/').map String.ofList).filterMap component := by
  unfold components
  simp only [h, if_true]
  rfl

theorem component_cases {part : String} {c : Component} (h : component part = some c) :
    c = .parentDir ∨ c = .normal part := by
  unfold component at h
  split_ifs at h <;> cases h <;> simp

theorem components_eq (habsolute : isAbsolute path) (hparent : .parentDir ∉ components path) :
    components path = .rootDir :: (names path).map .normal := by
  unfold names
  rw [components_of_isAbsolute habsolute] at hparent ⊢
  congr 1
  generalize (path.toList.splitOn '/').map String.ofList = parts at hparent
  induction parts with
  | nil => rfl
  | cons part rest ih =>
    cases hpart : component part with
    | none =>
      rw [filterMap_cons_none hpart] at hparent ⊢
      exact ih hparent
    | some c =>
      rw [filterMap_cons_some hpart] at hparent ⊢
      rcases component_cases hpart with rfl | rfl
      · simp at hparent
      · exact congrArg (.normal part :: ·) (ih (by simpa using hparent))

theorem components_slashed (h : ∀ part ∈ parts, IsName part) :
    components ("/" ++ "/".intercalate parts) = .rootDir :: parts.map .normal := by
  have hsplit : ("/" ++ "/".intercalate parts).toList.splitOn '/' =
    [] :: (if parts = [] then [[]] else parts.map String.toList) := by
    rw [String.toList_append, String.toList_intercalate]
    split
    · next hnil => rw [hnil]; rfl
    · next hne =>
      refine congrArg _ (splitOn_intercalate '/' (fun part hpart => ?_) (by simpa using hne))
      obtain ⟨name, hname, rfl⟩ := mem_map.mp hpart
      exact (h name hname).noSlash
  rw [components_of_isAbsolute (by simp [isAbsolute]), hsplit]
  split
  · next hnil => rw [hnil]; rfl
  · rw [map_cons, filterMap_cons_none rfl, map_map,
      show String.ofList ∘ String.toList = id from funext fun _ => String.ofList_toList, map_id,
        ← filterMap_eq_map]
    refine congrArg _ (filterMap_congr fun part hpart => ?_)
    simp [component, (h part hpart).nonempty, (h part hpart).notDot, (h part hpart).notParent]

theorem length_slashed (parts : List Bytes) :
    (47 :: [47].intercalate parts : Bytes).length = max 1 (parts.map (·.length + 1)).sum := by
  induction parts with
  | nil => rfl
  | cons part rest ih =>
    cases rest with
    | nil => simp [List.intercalate]
    | cons next rest =>
      simp only [intercalate_cons_cons, map_cons, sum_cons, length_append, length_cons] at ih ⊢
      simp only [length_nil]
      omega

theorem not_isIrregular (h : IsName name) : Protocol.isIrregular (utf8 name) = false := by
  have hne : ∀ s : String, name ≠ s → utf8 name ≠ utf8 s := fun s hs heq => hs (utf8_inj heq)
  have h₁ := hne "" h.nonempty
  have h₂ := hne "." h.notDot
  have h₃ := hne ".." h.notParent
  rw [show utf8 "" = [] from rfl] at h₁
  rw [show utf8 "." = [46] by decide +kernel] at h₂
  rw [show utf8 ".." = [46, 46] by decide +kernel] at h₃
  simp [Protocol.isIrregular, h₁, h₂, h₃]

/-- A path of names is a guest path if it is short enough. -/
theorem validateGuestPath_slashed (h : ∀ part ∈ parts, IsName part ∧ '\x00' ∉ part.toList)
    (field : String) :
    Protocol.validateGuestPath field ("/" ++ "/".intercalate parts) true = .ok () ↔
      (parts.map fun part => (utf8 part).length + 1).sum ≤ Protocol.MAX_PATH_LENGTH := by
  have hbytes : ∀ bytes ∈ parts.map utf8, Protocol.isIrregular bytes = false ∧ 47 ∉ bytes ∧
    0 ∉ bytes := by
    intro bytes hbytes
    obtain ⟨part, hpart, rfl⟩ := mem_map.mp hbytes
    obtain ⟨hname, hzero⟩ := h part hpart
    exact ⟨not_isIrregular hname, fun hslash => hname.noSlash (mem_of_mem_utf8 (by decide) hslash),
      fun hnul => hzero (mem_of_mem_utf8 (by decide) hnul)⟩
  have hnul : 0 ∉ [47].intercalate (parts.map utf8) := by
    intro hmem
    rcases mem_intercalate hmem with hsep | ⟨bytes, hpart, hzero⟩
    · cases hsep
    · exact (hbytes bytes hpart).2.2 hzero
  have hregular : parts ≠ [] → (Protocol.components ([47].intercalate (parts.map utf8))).any Protocol.isIrregular = false := by
    intro hne
    rw [Protocol.components, splitOn_intercalate 47 (fun bytes hpart => (hbytes bytes hpart).2.1)
      (by simpa using hne), any_eq_false]
    intro bytes hpart
    rw [(hbytes bytes hpart).1]
    decide
  have hlength : (parts.map fun part => (utf8 part).length + 1).sum ≤ Protocol.MAX_PATH_LENGTH ↔
      ¬(47 :: [47].intercalate (parts.map utf8) : Bytes).length > Protocol.MAX_PATH_LENGTH := by
    rw [length_slashed, map_map, Protocol.MAX_PATH_LENGTH, Function.comp_def]
    omega
  unfold Protocol.validateGuestPath Protocol.validateText Protocol.validateCount
  rw [utf8_slashed, hlength]
  split
  · simp [hnul]
  · next hne =>
    simp [hnul, hregular fun hnil => hne (by rw [hnil]; rfl)]

/-- The working directory that is returned names the configured directory. START's validation takes
it exactly where the configured names, with a slash before each, are within its bound. -/
theorem workingDir_accepted_iff {config : Option RuntimeConfig} {limits : VerifyLimits}
    {process : DockerProcessConfig} (h : effectiveProcess config limits = .ok process) :
    components process.workingDir = components
      ((explicitValue (config.bind RuntimeConfig.workingDir)).getD "/") ∧
    (Protocol.validateGuestPath "cwd" process.workingDir true = .ok () ↔
      ((names ((explicitValue (config.bind RuntimeConfig.workingDir)).getD "/")).map fun name =>
        (utf8 name).length + 1).sum ≤ Protocol.MAX_PATH_LENGTH) := by
  unfold effectiveProcess validateProcessString at h
  simp only [bind_ok, stop_ok, pure_ok, not_or, not_not] at h
  obtain ⟨_, -, _, -, _, -, _, -, _, -, _, -, _, ⟨_, -, hnul⟩, _, ⟨habsolute, hparent⟩, _, -, _, -,
    _, -, _, -, _, -, rfl⟩ := h
  generalize (explicitValue (config.bind RuntimeConfig.workingDir)).getD "/" = path at *
  have hnames : ∀ name ∈ names path, IsName name ∧ '\x00' ∉ name.toList := by
    intro name hname
    obtain ⟨hname, hsub⟩ := mem_names hname
    refine ⟨hname, fun hzero => hnul ?_⟩
    rw [utf8_eq]
    exact mem_flatMap.mpr ⟨_, hsub hzero, by decide⟩
  exact ⟨(components_slashed fun name hname => (hnames name hname).1).trans
    (components_eq habsolute hparent).symm, validateGuestPath_slashed hnames "cwd"⟩

def configIn (path : String) : RuntimeConfig where
  env := none
  entrypoint := none
  cmd := none
  workingDir := some path
  user := none
  labels := none
  stopSignal := none

/-- A name of `count` bytes is imported up to the bound on the texts of a configuration, and refused
at every launch beyond START's. -/
theorem refused_of_long {count : Nat} (hlong : 4096 ≤ count) (hshort : count < 65536) :
    ∃ process, effectiveProcess (some (configIn ("/" ++ "/".intercalate [String.ofList (List.replicate count 'a')]))) {} =
      .ok process ∧ Protocol.validateGuestPath "cwd" process.workingDir true ≠ .ok () := by
  have hchars : ∀ c ∈ (String.ofList (List.replicate count 'a')).toList, c = 'a' := by
    rw [String.toList_ofList]
    exact fun c hc => eq_of_mem_replicate hc
  have hbytes : (utf8 (String.ofList (List.replicate count 'a'))).length = count := by
    rw [utf8_ofList_ascii fun c hc => by rw [eq_of_mem_replicate hc]; decide, map_replicate, length_replicate]
  generalize String.ofList (List.replicate count 'a') = name at *
  have hparts : ∀ part ∈ [name], IsName part ∧ '\x00' ∉ part.toList := by
    intro part hpart
    rw [mem_singleton.mp hpart]
    refine ⟨⟨?_, ?_, ?_, fun h => absurd (hchars _ h) (by decide)⟩,
      fun h => absurd (hchars _ h) (by decide)⟩
    all_goals rintro rfl
    · exact absurd hlong (by rw [← hbytes]; decide)
    · exact absurd (hchars '.' (by decide)) (by decide)
    · exact absurd (hchars '.' (by decide)) (by decide)
  have hcomponents := components_slashed fun part hpart => (hparts part hpart).1
  have habsolute : isAbsolute ("/" ++ "/".intercalate [name]) = true := by simp [isAbsolute]
  have hsize : (utf8 ("/" ++ "/".intercalate [name])).length = count + 1 := by
    rw [utf8_slashed]
    simp [List.intercalate, hbytes]
  have hnul : 0 ∉ utf8 ("/" ++ "/".intercalate [name]) := by
    intro h
    have hzero := mem_of_mem_utf8 (c := '\x00') (by decide) h
    simp only [String.intercalate_singleton, String.toList_append, mem_append] at hzero
    rcases hzero with hzero | hzero
    · exact absurd hzero (by decide)
    · exact absurd (hchars _ hzero) (by decide)
  have hgiven : explicitValue (some ("/" ++ "/".intercalate [name])) =
    some ("/" ++ "/".intercalate [name]) := by
    simp [explicitValue]
  refine ⟨⟨[], [], [], [], "/" ++ "/".intercalate [name], "0", [], none⟩, ?_, ?_⟩
  · unfold effectiveProcess validateProcessString normalized
    simp only [configIn, Option.bind_some, hgiven, Option.getD_some, habsolute, hcomponents,
      bind_ok, stop_ok, pure_ok]
    exact ⟨(), rfl, (), rfl, (), rfl, (), rfl, (), rfl, (), rfl, (),
      ⟨(), by rw [hsize]; exact Nat.not_lt.mpr hshort, hnul⟩,
      (), by simp, (), ⟨(), stop_ok.mpr (by decide +kernel), stop_ok.mpr (by decide +kernel)⟩, (), rfl, 0, rfl, (), by decide,
      (), by simp, rfl⟩
  · rw [Ne, validateGuestPath_slashed hparts, Protocol.MAX_PATH_LENGTH]
    simp only [map_cons, map_nil, sum_cons, sum_nil, hbytes]
    omega

theorem workingDir_refused :
    ∃ process, effectiveProcess (some (configIn ("/" ++ "/".intercalate [String.ofList (List.replicate 4096 'a')]))) {} =
      .ok process ∧ Protocol.validateGuestPath "cwd" process.workingDir true ≠ .ok () :=
  refused_of_long (by decide) (by decide)

theorem workingDir_accepted_app : ∃ process,
    effectiveProcess (some (configIn "/srv//app/./")) {} = .ok process ∧
      process.workingDir = "/srv/app" ∧ components process.workingDir = components "/srv//app/./" ∧
      Protocol.validateGuestPath "cwd" process.workingDir true = .ok () := by
  have h : effectiveProcess (some (configIn "/srv//app/./")) {} = .ok ⟨[], [], [], [], "/srv/app",
    "0", [], none⟩ := by
    decide +kernel
  obtain ⟨hsame, haccepted⟩ := workingDir_accepted_iff h
  exact ⟨_, h, rfl, hsame, haccepted.mpr (by decide +kernel)⟩

end PocketVm.Oci
