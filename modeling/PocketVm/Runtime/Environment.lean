import PocketVm.Oci.Document
import PocketVm.Runtime.HostBuilder

/-!
# The environment of a workload

`merge_environment` of `image.rs`: the defaults, the image's entries, and the overrides of a run.
The guest reads the list from both ends: its own search for the executable takes the last entry of a
key, as `environment_value` does, and the workload's `getenv` the first.
-/

namespace PocketVm.Runtime

open Checked List

def DEFAULT_PATH : String := "/usr/local/sbin:/usr/local/bin:/usr/sbin:/usr/bin:/sbin:/bin"

def environmentError (reason : String) : RuntimeError := .invalidConfiguration "image.env" reason

def environmentKey (value : String) : Except RuntimeError String := do
  stop ('\x00' ∈ value.toList) (environmentError "environment entry contains NUL")
  let key ← require (Oci.environmentKey value)
    (environmentError "environment entry must contain '='")
  stop (key = "") (environmentError "environment key must not be empty")
  return key

def environmentKeyUnchecked (value : String) : String := (Oci.environmentKey value).getD value

/-- `merged[index] = value` for the last index of the key, if there is one. -/
def replaceLast (key value : String) : List String → Option (List String)
  | [] => none
  | entry :: rest =>
    match replaceLast key value rest with
    | some replaced => some (entry :: replaced)
    | none => if environmentKeyUnchecked entry = key then some (value :: rest) else none

def putEntry (key value : String) (merged : List String) : List String :=
  (replaceLast key value merged).getD (merged ++ [value])

/-- `PATH` and `HOSTNAME` are there from the start, so that they are always replaced. -/
def imageEntry (merged : List String) (value : String) : Except RuntimeError (List String) := do
  let key ← environmentKey value
  return if key = "PATH" ∨ key = "HOSTNAME" then putEntry key value merged else merged ++ [value]

def overrideEntry (merged : List String) (value : String) : Except RuntimeError (List String) := do
  let key ← environmentKey value
  return putEntry key value merged

def mergeEnvironment (image overrides : List String) (hostname : String) :
    Except RuntimeError (List String) := do
  let merged ← image.foldlM imageEntry ["PATH=" ++ DEFAULT_PATH, "HOSTNAME=" ++ hostname]
  overrides.foldlM overrideEntry merged

/-- `entry.strip_prefix(key)?.strip_prefix('=')`. -/
def entryValue (key entry : String) : Option String :=
  (entry.toList.dropPrefix? (key.toList ++ ['='])).map String.ofList

def environmentValue (environment : List String) (key : String) : Option String :=
  environment.reverse.findSome? (entryValue key)

def getenv (environment : List String) (key : String) :
    Option String := environment.findSome? (entryValue key)

def values (key : String) (environment : List String) :
    List String := environment.filterMap (entryValue key)

def defaultValue (hostname key : String) : Option String :=
  if key = "PATH" then some DEFAULT_PATH else if key = "HOSTNAME" then some hostname else none

theorem getenv_eq (environment : List String) (key : String) :
    getenv environment key = (values key environment).head? :=
  head?_filterMap.symm

theorem environmentValue_eq (environment : List String) (key : String) :
    environmentValue environment key = (values key environment).getLast? :=
  getLast?_filterMap.symm

section

variable {key value entry : String} {merged : List String}

theorem environmentKey_eq_some : Oci.environmentKey entry = some key ↔
    '=' ∉ key.toList ∧ ∃ rest, entry.toList = key.toList ++ '=' :: rest := by
  have htake : ∀ front rest, '=' ∉ front → (front ++ '=' :: rest).takeWhile (· ≠ '=') = front := by
    intro front rest hfront
    have hall : ∀ c ∈ front, decide (c ≠ '=') = true := fun c hc =>
      decide_eq_true (ne_of_mem_of_not_mem hc hfront)
    rw [takeWhile_append_of_pos hall]
    simp
  unfold Oci.environmentKey
  constructor
  · intro h
    split at h
    · next hmem =>
      obtain ⟨front, rest, hentry, hfront⟩ := eq_append_cons_of_mem hmem
      rw [hentry, htake front rest hfront, Option.some.injEq] at h
      rw [← h, String.toList_ofList]
      exact ⟨hfront, rest, hentry⟩
    · cases h
  · rintro ⟨hkey, rest, hentry⟩
    rw [hentry, if_pos (by simp), htake _ _ hkey, String.ofList_toList]

theorem entryValue_isSome (hkey : '=' ∉ key.toList) :
    (entryValue key entry).isSome ↔ Oci.environmentKey entry = some key := by
  rw [environmentKey_eq_some, entryValue, Option.isSome_iff_exists]
  simp [dropPrefix?_eq_some_iff, hkey]

theorem environmentKey_ok (h : environmentKey value = .ok key) :
    Oci.environmentKey value = some key := by
  unfold environmentKey at h
  simp only [bind_ok, require_ok, pure_ok] at h
  obtain ⟨_, -, _, hkey, _, -, rfl⟩ := h
  exact hkey

theorem replaceLast_cases (key value : String) (merged : List String) :
    (replaceLast key value merged = none ∧ ∀ entry ∈ merged, environmentKeyUnchecked entry ≠ key) ∨
    ∃ before old after, merged = before ++ old :: after ∧
      replaceLast key value merged = some (before ++ value :: after) ∧
      environmentKeyUnchecked old = key ∧ ∀ entry ∈ after, environmentKeyUnchecked entry ≠ key := by
  induction merged with
  | nil => exact .inl ⟨rfl, by simp⟩
  | cons entry rest ih =>
    rcases ih with ⟨hnone, hrest⟩ | ⟨before, old, after, rfl, hsome, hold, hafter⟩
    · by_cases hentry : environmentKeyUnchecked entry = key
      · exact .inr ⟨[], entry, rest, rfl, by rw [replaceLast, hnone]; simp [hentry], hentry, hrest⟩
      · exact .inl ⟨by rw [replaceLast, hnone]; simp [hentry], by simpa using ⟨hentry, hrest⟩⟩
    · exact .inr ⟨entry :: before, old, after, rfl, by rw [replaceLast, hsome]; rfl, hold, hafter⟩

def Keyed (merged : List String) : Prop := ∀ entry ∈ merged, (Oci.environmentKey entry).isSome

theorem entryValue_eq_none (hentry : (Oci.environmentKey entry).isSome) (hkey : '=' ∉ key.toList) :
    entryValue key entry = none ↔ environmentKeyUnchecked entry ≠ key := by
  obtain ⟨k, hk⟩ := Option.isSome_iff_exists.mp hentry
  rw [← Option.not_isSome_iff_eq_none, entryValue_isSome hkey, environmentKeyUnchecked, hk,
    Option.getD_some, Option.some.injEq]

theorem values_putEntry (hmerged : Keyed merged) (hvalue : Oci.environmentKey value = some key) :
    values key (putEntry key value merged) = (values key merged).dropLast ++
      values key [value] := by
  have hkey := (environmentKey_eq_some.mp hvalue).1
  have hnil : ∀ entries ⊆ merged, (∀ entry ∈ entries, environmentKeyUnchecked entry ≠ key) →
      entries.filterMap (entryValue key) = [] := fun entries hentries h =>
    filterMap_eq_nil_iff.mpr fun entry hentry =>
      (entryValue_eq_none (hmerged entry (hentries hentry)) hkey).mpr (h entry hentry)
  unfold putEntry values
  obtain ⟨hreplace, hall⟩ | ⟨before, old, after, rfl, hreplace, hold, hafter⟩ :=
    replaceLast_cases key value merged
  · rw [hreplace, Option.getD_none, filterMap_append,
      hnil merged (List.Subset.refl _) hall, dropLast_nil]
  · have hafter := hnil after (by simp) hafter
    cases hlast : entryValue key old with
    | none => exact absurd hold ((entryValue_eq_none (hmerged old (by simp)) hkey).mp hlast)
    | some last => simp [hreplace, hlast, hafter, filterMap_cons]

theorem values_putEntry_of_ne {other : String} (hmerged : Keyed merged)
    (hother : '=' ∉ other.toList)
    (hvalue : Oci.environmentKey value = some key) (hne : key ≠ other) :
    values other (putEntry key value merged) = values other merged := by
  have hnone : ∀ entry, (Oci.environmentKey entry).isSome → environmentKeyUnchecked entry = key →
      entryValue other entry = none := fun entry hentry h =>
        (entryValue_eq_none hentry hother).mpr (h ▸ hne)
  have hvalue := hnone value (by rw [hvalue]; rfl)
    (by rw [environmentKeyUnchecked, hvalue, Option.getD_some])
  unfold putEntry values
  obtain ⟨hreplace, -⟩ | ⟨before, old, after, rfl, hreplace, hold, -⟩ :=
    replaceLast_cases key value merged
  · simp [hreplace, hvalue]
  · simp [hreplace, hvalue, hnone old (hmerged old (by simp)) hold]

theorem keyed_putEntry (hmerged : Keyed merged) (hvalue : Oci.environmentKey value = some key) :
    Keyed (putEntry key value merged) := by
  unfold putEntry
  obtain ⟨hreplace, -⟩ | ⟨before, old, after, rfl, hreplace, -⟩ :=
    replaceLast_cases key value merged
  · simp_all [Keyed, or_imp]
  · simp_all [Keyed, or_imp, forall_and]

theorem values_append (xs ys : List String) :
    values key (xs ++ ys) = values key xs ++ values key ys :=
  filterMap_append

theorem values_entry {r : List Char} (h : entry.toList = key.toList ++ '=' :: r) :
    values key [entry] = [String.ofList r] := by
  have hentry : entry.toList = (key.toList ++ ['=']) ++ r := by simp [h]
  have hvalue : entryValue key entry = some (String.ofList r) := by
    rw [entryValue, hentry, dropPrefix?_append_of_beq _ (beq_self_eq_true _)]
    rfl
  simp [values, hvalue]

theorem values_of_ne {other : String} (hother : '=' ∉ other.toList)
    (hvalue : Oci.environmentKey value = some key)
    (hne : key ≠ other) : values other [value] = [] := by
  have hnone : ¬(entryValue other value).isSome := by
    rw [entryValue_isSome hother, hvalue, Option.some.injEq]
    exact hne
  simpa [values] using hnone

end

section

variable {image overrides merged start : List String} {hostname key : String}

/-- The values of a key before the overrides: a default is replaced, and any other key keeps all its
values. -/
def imageValues (hostname key : String) (image : List String) : List String :=
  match defaultValue hostname key with
  | some value => [(values key image).getLast?.getD value]
  | none => values key image

theorem merged_image (h : image.foldlM imageEntry ["PATH=" ++ DEFAULT_PATH,
    "HOSTNAME=" ++ hostname] = .ok merged) :
    Keyed merged ∧ ∀ key, '=' ∉ key.toList →
      values key merged = imageValues hostname key image := by
  refine foldlM_ok (fun done merged => Keyed merged ∧ ∀ key, '=' ∉ key.toList → values key merged =
    imageValues hostname key done) h ?_ ?_
  · have hpath : Oci.environmentKey ("PATH=" ++ DEFAULT_PATH) = some "PATH" := by decide +kernel
    have hhostname : Oci.environmentKey ("HOSTNAME=" ++ hostname) = some "HOSTNAME" :=
      environmentKey_eq_some.mpr ⟨by decide, hostname.toList, by simp⟩
    refine ⟨by simp [Keyed, hpath, hhostname], fun key hkey => ?_⟩
    rw [← singleton_append, values_append]
    obtain rfl | h₁ := eq_or_ne "PATH" key
    · rw [values_of_ne hkey hhostname (by decide)]
      rfl
    obtain rfl | h₂ := eq_or_ne "HOSTNAME" key
    · rw [values_of_ne hkey hpath h₁, values_entry (r := hostname.toList) (by simp)]
      simp [imageValues, defaultValue, values]
    · rw [values_of_ne hkey hpath h₁, values_of_ne hkey hhostname h₂]
      simp [imageValues, defaultValue, values, h₁.symm, h₂.symm]
  · rintro done value merged merged' ⟨hkeyed, hvalues⟩ hstep
    unfold imageEntry at hstep
    simp only [bind_ok, pure_ok] at hstep
    obtain ⟨k, hk, rfl⟩ := hstep
    have hk := environmentKey_ok hk
    split
    · next hdefault =>
      refine ⟨keyed_putEntry hkeyed hk, fun key hkey => ?_⟩
      obtain rfl | hne := eq_or_ne k key
      · rw [values_putEntry hkeyed hk, hvalues k hkey]
        obtain ⟨-, rest, hrest⟩ := environmentKey_eq_some.mp hk
        rcases hdefault with rfl | rfl <;> simp [imageValues, defaultValue, values_append,
          values_entry hrest]
      · rw [values_putEntry_of_ne hkeyed hkey hk hne, hvalues key hkey, imageValues, imageValues,
          values_append, values_of_ne hkey hk hne, append_nil]
    · next hdefault =>
      refine ⟨by simp_all [Keyed, or_imp], fun key hkey => ?_⟩
      rw [values_append, hvalues key hkey]
      obtain rfl | hne := eq_or_ne k key
      · rw [not_or] at hdefault
        simp [imageValues, defaultValue, hdefault, values_append]
      · rw [imageValues, imageValues, values_append, values_of_ne hkey hk hne,
          append_nil, append_nil]

theorem merged_overrides (hkeyed : Keyed start)
    (h : overrides.foldlM overrideEntry start = .ok merged)
    (hkey : '=' ∉ key.toList) : values key merged =
      match (values key overrides).getLast? with
      | some value => (values key start).dropLast ++ [value]
      | none => values key start := by
  refine (foldlM_ok (fun done merged => Keyed merged ∧ values key merged =
    match (values key done).getLast? with
    | some value => (values key start).dropLast ++ [value]
    | none => values key start) h ⟨hkeyed, rfl⟩ ?_).2
  rintro done value merged merged' ⟨hkeyed, hvalues⟩ hstep
  unfold overrideEntry at hstep
  simp only [bind_ok, pure_ok] at hstep
  obtain ⟨k, hk, rfl⟩ := hstep
  have hk := environmentKey_ok hk
  refine ⟨keyed_putEntry hkeyed hk, ?_⟩
  obtain rfl | hne := eq_or_ne k key
  · obtain ⟨-, rest, hrest⟩ := environmentKey_eq_some.mp hk
    rw [values_putEntry hkeyed hk, hvalues, values_append, values_entry hrest]
    cases (values k done).getLast? <;> simp
  · rw [values_putEntry_of_ne hkeyed hkey hk hne, hvalues, values_append,
      values_of_ne hkey hk hne, append_nil]

end

/-- The last entry of a key is the last override given for it, or the last image value, or the
default. The first entry is the same one unless the image gives the key more than once, with another
value first. -/
theorem mergeEnvironment_values {image overrides merged : List String} {hostname key : String}
    (hkey : '=' ∉ key.toList)
    (h : mergeEnvironment image overrides hostname = .ok merged) : environmentValue merged key =
      ((values key overrides).getLast?.or (values key image).getLast?).or
        (defaultValue hostname key) ∧
    (getenv merged key = environmentValue merged key ↔ key = "PATH" ∨ key = "HOSTNAME" ∨
      (values key image).length ≤ 1 ∨ (values key image).head? = environmentValue merged key) := by
  unfold mergeEnvironment at h
  rw [bind_ok] at h
  obtain ⟨start, hstart, h⟩ := h
  obtain ⟨hkeyed, hstart⟩ := merged_image hstart
  have hmerged := merged_overrides hkeyed h hkey
  rw [getenv_eq, environmentValue_eq, hmerged, hstart key hkey, imageValues]
  have hdefault : defaultValue hostname key = none ↔ ¬(key = "PATH" ∨ key = "HOSTNAME") := by
    unfold defaultValue
    split_ifs <;> simp_all
  generalize values key image = given
  rw [← or_assoc, ← not_iff_not.mpr hdefault |>.trans not_not]
  cases (values key overrides).getLast? with
  | some value =>
    simp only [getLast?_concat]
    cases defaultValue hostname key with
    | some => simp
    | none => rcases given with _ | ⟨first, _ | ⟨second, rest⟩⟩ <;> simp
  | none =>
    cases defaultValue hostname key with
    | some => cases given.getLast? <;> simp
    | none => rcases given with _ | ⟨first, _ | ⟨second, rest⟩⟩ <;> simp

/-- An image that gives `A` twice, and an override of `B`. -/
theorem mergeEnvironment_values_override : ∃ merged,
    mergeEnvironment ["A=1", "B=1", "A=2"] ["B=2"] "pocket" = .ok merged ∧
      (environmentValue merged "A" = some "2" ∧ getenv merged "A" ≠ environmentValue merged "A") ∧
      environmentValue merged "B" = some "2" ∧ getenv merged "B" = environmentValue merged "B" := by
  have h : mergeEnvironment ["A=1", "B=1", "A=2"] ["B=2"] "pocket" =
      .ok ["PATH=" ++ DEFAULT_PATH, "HOSTNAME=pocket", "A=1", "B=2", "A=2"] := by
    decide +kernel
  obtain ⟨hlast, hfirst⟩ := @mergeEnvironment_values _ _ _ _ "A" (by decide) h
  obtain ⟨hlast', hfirst'⟩ := @mergeEnvironment_values _ _ _ _ "B" (by decide) h
  refine ⟨_, h, ⟨hlast.trans (by decide +kernel), hfirst.not.mpr ?_⟩,
    hlast'.trans (by decide +kernel), hfirst'.mpr (.inr (.inr (.inl (by decide +kernel))))⟩
  rw [hlast]
  decide +kernel

/-- An override that the workload does not see. -/
theorem image_value_hides_override : ["D=1", "D=2"].forM Oci.validateEnvironmentEntry = .ok () ∧
    ∃ merged, mergeEnvironment ["D=1", "D=2"] ["D=3"] "pocket" = .ok merged ∧
      environmentValue merged "D" = some "3" ∧ getenv merged "D" = some "1" := by
  refine ⟨by decide +kernel, ["PATH=" ++ DEFAULT_PATH, "HOSTNAME=pocket", "D=1", "D=3"], ?_⟩
  decide +kernel

end PocketVm.Runtime
