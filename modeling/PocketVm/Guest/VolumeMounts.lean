import PocketVm.Guest.Volumes

/-!
# Where the volumes end up

The mounts are made in the order of START, each on the directory that its destination names in what
the earlier mounts have left. A destination that passes below another volume's directory is looked
up in that volume's share, and a mount hides whatever was mounted at or below its place. Every
volume is reached through its destination, whatever the shares hold, exactly if in the tree that the
mounts start from, the image under the runtime's own mounts, every destination names a directory, no
two the same, and none passes below a volume's directory.
-/

namespace PocketVm.Guest

open Wire Checked Mutating Vfs Protocol List

/-! ### Where a destination leads -/

theorem steps_of_regular {path : Bytes} (h : ∀ part ∈ components path, isIrregular part = false) :
    Guest.steps path = (components path).map .name := by
  refine map_congr_left fun part hpart => ?_
  have hregular := h part hpart
  unfold isIrregular at hregular
  simp only [Bool.or_eq_false_iff, isEmpty_eq_false_iff, beq_eq_false_iff_ne] at hregular
  obtain ⟨⟨hne, hdot⟩, hdots⟩ := hregular
  simp [hne, hdot, hdots]

theorem utf8_of_stripSlash {path : String} {relative : Bytes}
    (h : stripSlash path = some relative) :
    utf8 path = 47 :: relative := by
  unfold stripSlash at h
  split at h
  · rename_i rest hpath
    cases h
    exact hpath
  · cases h

/-- The directory that a volume's destination names in a tree, and what is looked at on the way. -/
def Leads (tree : FileTree Bytes) (volume : VolumeSpec) (place : Place)
    (seen : List Place) : Prop :=
  ∃ relative, stripSlash volume.destination = some relative ∧
    Walk tree MAX_SYMLINKS [] (steps relative) place seen ∧ tree.node place = some .directory

section Leads

variable {tree : FileTree Bytes} {volume : VolumeSpec} {place place' : Place}
  {seen seen' : List Place}

theorem Leads.unique (h : Leads tree volume place seen) (h' : Leads tree volume place' seen') :
    place = place' ∧ seen = seen' := by
  obtain ⟨relative, hrelative, hwalk, -⟩ := h
  obtain ⟨relative', hrelative', hwalk', -⟩ := h'
  cases hrelative.symm.trans hrelative'
  exact hwalk.unique hwalk'

theorem Leads.node_ne_none (h : Leads tree volume place seen) : ∀ path ∈ seen,
    tree.node path ≠ none := by
  obtain ⟨relative, -, hwalk, -⟩ := h
  exact hwalk.node_ne_none

theorem Leads.directory (h : Leads tree volume place seen) : tree.node place = some .directory := by
  obtain ⟨relative, -, -, hdir⟩ := h
  exact hdir

theorem Leads.place_mem (h : Leads tree volume place seen) (hne : place ≠ []) : place ∈ seen := by
  obtain ⟨relative, -, hwalk, -⟩ := h
  rcases hwalk.prefix_place with hnil | hmem
  · exact absurd (prefix_nil.mp hnil) hne
  · exact hmem

theorem Leads.of_agree {tree' : FileTree Bytes} (h : Leads tree volume place seen)
    (hagree : ∀ path ∈ seen, tree'.node path = tree.node path) : Leads tree' volume place seen := by
  have hmem := h.place_mem
  obtain ⟨relative, hrelative, hwalk, hdir⟩ := h
  refine ⟨relative, hrelative, hwalk.of_agree hagree, ?_⟩
  by_cases hroot : place = []
  · rw [hroot]
    exact tree'.root
  · rw [hagree place (hmem hroot), hdir]

end Leads

/-! ### The mount points -/

section

variable {tree tree' : FileTree Bytes} {place : Place} {hops : List (Hop Bytes)}

theorem openBeneath_ok : openBeneath tree hops = .ok place ↔
    (∃ seen, Walk tree MAX_SYMLINKS [] hops place seen) ∧ tree.node place = some .directory := by
  rw [openBeneath, mapError_ok, lookupDirectory_ok]

theorem openBeneath_keeps (h : tree.Keeps tree') (hopen : openBeneath tree hops = .ok place) :
    openBeneath tree' hops = .ok place := by
  obtain ⟨⟨seen, hwalk⟩, hdir⟩ := openBeneath_ok.mp hopen
  exact openBeneath_ok.mpr ⟨⟨seen, h.walk hwalk⟩, h _ _ hdir⟩

theorem ensureComponents_ok {walked parts : List Bytes}
    (h : ensureComponents tree walked parts = .ok tree')
    (hwalked : ∃ place, openBeneath tree (walked.map .name) = .ok place) :
    tree.Grows tree' ∧ (∀ part ∈ parts, isIrregular part = false) ∧
      ∃ place, openBeneath tree' ((walked ++ parts).map .name) = .ok place := by
  induction parts generalizing tree walked with
  | nil =>
    cases h
    exact ⟨.refl _, by simp, by simpa using hwalked⟩
  | cons part parts ih =>
    obtain ⟨_, hregular, h⟩ := bind_ok.mp h
    obtain ⟨parent, -, h⟩ := bind_ok.mp h
    obtain ⟨place, hplace, h⟩ := bind_ok.mp h
    obtain ⟨hgrows, hparts, hopen⟩ := ih h ⟨place, mapError_ok.mp hplace⟩
    refine ⟨(tree.grows_makeDirectory _).trans hgrows, ?_, by simpa using hopen⟩
    exact forall_mem_cons.mpr ⟨by simpa using stop_ok.mp hregular, hparts⟩

/-- For the volumes PID 1 only adds directories, where the image has nothing, and each destination
then names a directory, also through links of the image. -/
theorem prepareMountPoints_leads {volumes : List VolumeSpec}
    (h : prepareMountPoints tree volumes = .ok tree') :
    tree.Grows tree' ∧ ∀ volume ∈ volumes, ∃ place seen, Leads tree' volume place seen := by
  induction volumes generalizing tree with
  | nil =>
    cases h
    exact ⟨.refl _, by simp⟩
  | cons volume volumes ih =>
    obtain ⟨relative, hrelative, h⟩ := bind_ok.mp h
    obtain ⟨_, -, h⟩ := bind_ok.mp h
    obtain ⟨_, hmade, h⟩ := bind_ok.mp h
    have hroot : openBeneath tree [] = .ok [] := openBeneath_ok.mpr ⟨⟨_, .done _ _⟩, tree.root⟩
    obtain ⟨hgrows, hregular, place, hopen⟩ := ensureComponents_ok hmade ⟨[], hroot⟩
    obtain ⟨hlater, hleads⟩ := ih h
    rw [nil_append, ← steps_of_regular hregular] at hopen
    obtain ⟨⟨seen, hwalk⟩, hdir⟩ := openBeneath_ok.mp (openBeneath_keeps hlater.keeps hopen)
    refine ⟨hgrows.trans hlater, forall_mem_cons.mpr ⟨⟨place, seen, relative, ?_, hwalk,
      hdir⟩, hleads⟩⟩
    exact require_ok.mp hrelative

end

/-! ### One mount -/

/-- The path of `place` below the root is UTF-8. -/
def IsText (root : Bytes) (place : Place) :
    Prop := (String.fromUTF8? ⟨(placeText root place).toArray⟩).isSome

instance (root : Bytes) : DecidablePred (IsText root) :=
  fun _ => inferInstanceAs (Decidable (_ = true))

section Mounting

variable {root : Bytes} {hostfs : Hostfs} {tree : FileTree Bytes} {table table' : MountTable}
  {volume : VolumeSpec} {position : Nat} {place : Place} {seen : List Place}

/-- The containment check never stops anything. -/
theorem placeText_contained (root : Bytes) (place : Place) :
    ¬(placeText root place ≠ root ∧ ¬(root ++ [47]).isPrefixOf (placeText root place)) := by
  rintro ⟨hne, hleading⟩
  cases place with
  | nil => exact hne (append_nil root)
  | cons name rest =>
    refine hleading (List.isPrefixOf_iff_prefix.mpr ?_)
    exact ⟨name ++ rest.flatMap (47 :: ·), by simp [placeText]⟩

variable {relative : Bytes} {e : VolumeError}

theorem resolveBeneath_ok : resolveBeneath root tree relative = .ok place ↔
      openBeneath tree (steps relative) = .ok place ∧ IsText root place := by
  unfold resolveBeneath IsText
  simp only [bind_ok, mapError_ok, stop_ok, pure_ok]
  constructor
  · rintro ⟨_, hopen, _, htext, _, -, rfl⟩
    exact ⟨hopen, Option.isSome_iff_ne_none.mpr fun hnone =>
      htext (Option.isNone_iff_eq_none.mpr hnone)⟩
  · rintro ⟨hopen, htext⟩
    refine ⟨place, hopen, (), fun hnone => ?_, (), placeText_contained root place, rfl⟩
    exact Option.isSome_iff_ne_none.mp htext (Option.isNone_iff_eq_none.mp hnone)

/-- A failure to find a mount point, rather than to mount on it. -/
def VolumeError.isResolution : VolumeError → Prop
  | .syscall stage _ => stage = "resolve-beneath"
  | .contract _ _ => False

def Proper (volume : VolumeSpec) (relative : Bytes) : Prop :=
  stripSlash volume.destination = some relative ∧ relative ≠ []

/-- The volume is writable, or hostfs can make it read-only. -/
def Hostfs.Remounts (hostfs : Hostfs) (volume : VolumeSpec) : Prop :=
  volume.readOnly = true → hostfs.remount volume.source = .ok ()

/-- How one mount ends: it is refused, its mount point is not found, or the share is mounted where
the destination leads, also where the remount then fails. -/
inductive Mounting (root : Bytes) (hostfs : Hostfs) (position : Nat) (volume : VolumeSpec)
    (table : MountTable) :
    Except VolumeError Unit → MountTable → Prop
  | refused {e : VolumeError} (he : ¬e.isResolution)
    (hcause : (∀ relative, ¬Proper volume relative) ∨ ∃ errno,
      hostfs.share volume.source = .error errno) :
    Mounting root hostfs position volume table (.error e) table
  | lost {e : VolumeError} {relative : Bytes} (hproper : Proper volume relative)
    (hresolve : resolveBeneath root table.tree relative = .error e) :
    Mounting root hostfs position volume table (.error e) table
  | mounted {place : Place} {seen : List Place} {share : FileTree Bytes} {readOnly : Bool}
    {table' : MountTable}
    {result : Except VolumeError Unit} (hleads : Leads table.tree volume place seen)
    (htext : IsText root place)
    (hshare : hostfs.share volume.source = .ok share)
    (htree : table'.tree = table.tree.graft place share)
    (hmounts : table'.mounts = ⟨place, position, volume.source, readOnly⟩ :: table.mounts)
    (hresult : result = .ok () ∧ readOnly = volume.readOnly ∧ hostfs.Remounts volume ∨
      ¬hostfs.Remounts volume ∧ ∃ errno, hostfs.remount volume.source = .error errno ∧
        result = .error (.syscall "mount-volume" errno)) :
        Mounting root hostfs position volume table result table'

theorem mountVolume_ends {result : Except VolumeError Unit}
    (h : (mountVolume root hostfs position volume).run.run table = (result, table')) :
    Mounting root hostfs position volume table result table' := by
  rcases run_check_cases h with ⟨e, hnone, rfl, rfl⟩ | ⟨relative, hrelative, h⟩
  · obtain ⟨hstrip, rfl⟩ := require_error.mp hnone
    exact .refused id (.inl fun relative hproper => by cases hstrip.symm.trans hproper.1)
  rw [require_ok] at hrelative
  rcases run_check_cases h with ⟨e, hroot, rfl, rfl⟩ | ⟨_, hne, h⟩
  · obtain ⟨hempty, rfl⟩ := stop_error.mp hroot
    refine .refused id (.inl fun written hproper => hproper.2 ?_)
    cases hrelative.symm.trans hproper.1
    exact hempty
  have hproper : Proper volume relative := ⟨hrelative, stop_ok.mp hne⟩
  rw [run_bind_of_ok run_get] at h
  rcases run_check_cases h with ⟨e, hresolve, rfl, rfl⟩ | ⟨place, hresolve, h⟩
  · exact .lost hproper hresolve
  obtain ⟨hopen, htext⟩ := resolveBeneath_ok.mp hresolve
  obtain ⟨⟨seen, hwalk⟩, hdir⟩ := openBeneath_ok.mp hopen
  have hleads : Leads table.tree volume place seen := ⟨relative, hrelative, hwalk, hdir⟩
  rcases run_check_cases h with ⟨e, hshare, rfl, rfl⟩ | ⟨share, hshare, h⟩
  · obtain ⟨errno, hfound, rfl⟩ := mapError_error.mp hshare
    exact .refused (by simp [VolumeError.isResolution]) (.inr ⟨errno, hfound⟩)
  rw [mapError_ok] at hshare
  rw [run_bind_of_ok run_modify_eq] at h
  split at h
  · next hreadOnly =>
    rcases run_check_cases h with ⟨e, hremount, rfl, rfl⟩ | ⟨_, hremount, h⟩
    · obtain ⟨errno, hfound, rfl⟩ := mapError_error.mp hremount
      refine .mounted hleads htext hshare rfl rfl (.inr ⟨fun hok => ?_, errno, hfound, rfl⟩)
      cases hfound.symm.trans (hok hreadOnly)
    · cases h
      exact .mounted hleads htext hshare rfl rfl
        (.inl ⟨rfl, hreadOnly.symm, fun _ => mapError_ok.mp hremount⟩)
  · next hreadOnly =>
    cases h
    have hwritable := Bool.eq_false_of_not_eq_true hreadOnly
    exact .mounted hleads htext hshare rfl rfl
      (.inl ⟨rfl, hwritable.symm, fun h => absurd h hreadOnly⟩)

theorem resolveBeneath_of_leads (hproper : Proper volume relative)
    (hleads : Leads table.tree volume place seen) (htext : IsText root place) :
    resolveBeneath root table.tree relative = .ok place := by
  obtain ⟨written, hwritten, hwalk, hdir⟩ := hleads
  cases hwritten.symm.trans hproper.1
  exact resolveBeneath_ok.mpr ⟨openBeneath_ok.mpr ⟨⟨seen, hwalk⟩, hdir⟩, htext⟩

theorem isResolution_of_lost (hproper : Proper volume relative)
    (htext : ∀ place seen, Leads table.tree volume place seen → IsText root place)
    (h : resolveBeneath root table.tree relative = .error e) : e.isResolution := by
  cases hopen : openBeneath table.tree (steps relative) with
  | error errno =>
    unfold resolveBeneath at h
    rw [hopen] at h
    cases h
    rfl
  | ok place =>
    obtain ⟨⟨seen, hwalk⟩, hdir⟩ := openBeneath_ok.mp hopen
    cases h.symm.trans (resolveBeneath_ok.mpr ⟨hopen,
      htext place seen ⟨relative, hproper.1, hwalk, hdir⟩⟩)

theorem Mounting.found (hleads : Leads table.tree volume place seen) (htext : IsText root place)
    (h : Mounting root hostfs position volume table (.error e) table') : ¬e.isResolution := by
  cases h with
  | refused he _ => exact he
  | lost hproper hresolve =>
    cases hresolve.symm.trans (resolveBeneath_of_leads hproper hleads htext)
  | mounted _ _ _ _ _ hresult =>
    rcases hresult with ⟨⟨⟩, -⟩ | ⟨-, errno, -, ⟨⟩⟩
    simp [VolumeError.isResolution]

end Mounting

/-! ### Whether every volume is reached -/

/-- The destination of the volume at `position` leads to the root of its own share, mounted with its
own flag. -/
def Reaches (table : MountTable) (position : Nat) (volume : VolumeSpec) : Prop :=
  ∃ place seen mount, Leads table.tree volume place seen ∧ table.owner place = some mount ∧
    mount.position = position ∧
    mount.place = place ∧ mount.source = volume.source ∧ mount.readOnly = volume.readOnly

/-- No destination passes below the directory of a volume, its own included, and no two name the
same directory. -/
def Independent (tree : FileTree Bytes) (volumes : List VolumeSpec) : Prop :=
  ∀ (i j : Nat) first second place seen place' seen', volumes[i]? = some first →
    volumes[j]? = some second →
    Leads tree first place seen → Leads tree second place' seen' →
    (i ≠ j → place ≠ place') ∧ ∀ path ∈ seen', ¬Below place path

/-- Every destination names a directory. -/
def Prepared (tree : FileTree Bytes) (volumes : List VolumeSpec) : Prop :=
  ∀ volume ∈ volumes, ∃ place seen, Leads tree volume place seen

/-- The directories that the destinations name have paths in text. -/
def InText (root : Bytes) (tree : FileTree Bytes) (volumes : List VolumeSpec) : Prop :=
  ∀ volume ∈ volumes, ∀ place seen, Leads tree volume place seen → IsText root place

/-- What is asked of mounting the volumes: a run that succeeds leaves each of them reached, and none
fails for want of a mount point. -/
def AllReached (root : Bytes) (tree : FileTree Bytes) (volumes : List VolumeSpec)
    (hostfs : Hostfs) : Prop :=
  (∀ table, (mountHostVolumes root hostfs 0 volumes).run.run ⟨tree, []⟩ = (.ok (), table) →
    ∀ (i : Nat) volume, volumes[i]? = some volume → Reaches table i volume) ∧
  ∀ e table, (mountHostVolumes root hostfs 0 volumes).run.run ⟨tree, []⟩ = (.error e, table) →
    ¬e.isResolution

section Reached

variable {root : Bytes} {hostfs : Hostfs} {tree : FileTree Bytes} {volumes : List VolumeSpec}

variable {table table' : MountTable} {place : Place} {volume : VolumeSpec}

variable {mount : Mount} {position count : Nat} {seen : List Place}

theorem owner_mem {path : Place} (h : table.owner path = some mount) : mount ∈ table.mounts ∧
    mount.place <+: path := by
  have hfound := find?_some h
  exact ⟨mem_of_find?_eq_some h, isPrefixOf_iff_prefix.mp hfound⟩

/-! #### Shares with nothing in them -/

def bare : Hostfs where
  share _ := .ok FileTree.empty
  remount _ := .ok ()

/-- Below an empty share there is nothing; elsewhere the tree is as it was. -/
structure Bare (tree : FileTree Bytes) (table : MountTable) : Prop where
  below : ∀ mount ∈ table.mounts, ∀ path, Below mount.place path → table.tree.node path = none
  agrees : ∀ path, table.tree.node path ≠ none → table.tree.node path = tree.node path

theorem Bare.attach (h : Bare tree table)
    (hplace : table.tree.node place = some .directory) (hmount : mount.place = place)
    (htree : table'.tree = table.tree.graft place FileTree.empty)
    (hmounts : table'.mounts = mount :: table.mounts) :
    Bare tree table' := by
  -- the place of the new mount is a directory, so it is not below an earlier one
  refine ⟨?_, ?_⟩
  · intro other hother path hbelow
    rw [htree]
    rw [hmounts] at hother
    by_cases hpath : Below place path
    · exact graft_empty_node hpath
    · rw [graft_node_of_not_below hplace hpath]
      rcases mem_cons.mp hother with rfl | hother
      · exact absurd (hmount ▸ hbelow) hpath
      · exact h.below other hother path hbelow
  · intro path hpath
    rw [htree] at hpath ⊢
    by_cases hbelow : Below place path
    · exact absurd (graft_empty_node hbelow) hpath
    · rw [graft_node_of_not_below hplace hbelow] at hpath ⊢
      exact h.agrees path hpath

theorem bare_run (h : Bare tree table)
    (hrun : (mountHostVolumes root bare position volumes).run.run table = (.ok (), table')) :
    Bare tree table' := by
  induction volumes generalizing position table with
  | nil =>
    cases hrun
    exact h
  | cons volume volumes ih =>
    unfold mountHostVolumes at hrun
    rw [run_bind_ok] at hrun
    obtain ⟨u, middle, hmount, hrest⟩ := hrun
    cases mountVolume_ends hmount with
    | mounted hleads _ hshare htree hmounts _ =>
      cases hshare
      exact ih (h.attach hleads.directory rfl htree hmounts) hrest

/-- What a lookup sees was there before the mounts. -/
theorem Bare.before (h : Bare tree table) (hleads : Leads table.tree volume place seen) :
    Leads tree volume place seen :=
  hleads.of_agree fun path hpath => (h.agrees path (hleads.node_ne_none path hpath)).symm

theorem prepared_of_reached (hbare : Bare tree table)
    (hreached : ∀ (i : Nat) volume, volumes[i]? = some volume → Reaches table i volume) :
    Prepared tree volumes := by
  intro volume hvolume
  obtain ⟨i, hi⟩ := getElem?_of_mem hvolume
  obtain ⟨place, seen, -, hleads, -⟩ := hreached i volume hi
  exact ⟨place, seen, hbare.before hleads⟩

theorem independent_of_reached (hbare : Bare tree table)
    (hreached : ∀ (i : Nat) volume, volumes[i]? = some volume → Reaches table i volume) :
    Independent tree volumes := by
  intro i j first second place seen place' seen' hi hj hfirst hsecond
  obtain ⟨q, t, mount, hleads, howner, hposition, hplace, -⟩ := hreached i first hi
  obtain ⟨q', t', mount', hleads', howner', hposition', -⟩ := hreached j second hj
  obtain ⟨rfl, rfl⟩ := (hbare.before hleads).unique hfirst
  obtain ⟨rfl, rfl⟩ := (hbare.before hleads').unique hsecond
  refine ⟨?_, ?_⟩
  · rintro hij rfl
    cases howner.symm.trans howner'
    exact hij (hposition.symm.trans hposition')
  · intro path hpath hbelow
    refine hleads'.node_ne_none path hpath (hbare.below mount (owner_mem howner).1 path ?_)
    rwa [hplace]

/-! #### Shares with anything in them -/

/-- The first `count` volumes are mounted where their destinations lead in the tree, and what does
not lie below them is as in the tree. -/
structure Settled (tree : FileTree Bytes) (volumes : List VolumeSpec) (count : Nat)
    (table : MountTable) : Prop where
  agrees : ∀ path, (∀ mount ∈ table.mounts, ¬Below mount.place path) →
    table.tree.node path = tree.node path
  mounts : ∀ mount ∈ table.mounts, ∃ volume seen, volumes[mount.position]? = some volume ∧
    Leads tree volume mount.place seen ∧ mount.source = volume.source ∧
      mount.readOnly = volume.readOnly
  all : ∀ i < count, ∃ mount ∈ table.mounts, mount.position = i

theorem Settled.leads {j : Nat}
    (h : Settled tree volumes count table) (hindependent : Independent tree volumes)
    (hj : volumes[j]? = some volume)
    (hleads : Leads tree volume place seen) : Leads table.tree volume place seen := by
  refine hleads.of_agree fun path hpath => h.agrees path fun mount hmount => ?_
  obtain ⟨other, seen', hi, hother, -⟩ := h.mounts mount hmount
  exact (hindependent mount.position j other volume mount.place seen' place seen hi hj hother hleads).2 path hpath

theorem Settled.attach {share : FileTree Bytes} (h : Settled tree volumes count table)
    (hposition : volumes[count]? = some volume)
    (hleads : Leads tree volume place seen) (hplace : table.tree.node place = some .directory)
    (htree : table'.tree = table.tree.graft place share)
    (hmounts : table'.mounts = ⟨place, count, volume.source, volume.readOnly⟩ :: table.mounts) :
    Settled tree volumes (count + 1) table' := by
  refine ⟨?_, ?_, ?_⟩
  · intro path hpath
    rw [hmounts] at hpath
    rw [htree, graft_node_of_not_below hplace (hpath _ mem_cons_self)]
    exact h.agrees path fun mount hmount => hpath mount (mem_cons_of_mem _ hmount)
  · intro mount hmount
    rw [hmounts] at hmount
    rcases mem_cons.mp hmount with rfl | hmount
    · exact ⟨volume, seen, hposition, hleads, rfl, rfl⟩
    · exact h.mounts mount hmount
  · intro i hi
    rw [hmounts]
    rcases Nat.lt_succ_iff_lt_or_eq.mp hi with hi | rfl
    · obtain ⟨mount, hmount, hmountPosition⟩ := h.all i hi
      exact ⟨mount, mem_cons_of_mem _ hmount, hmountPosition⟩
    · exact ⟨_, mem_cons_self, rfl⟩

theorem Settled.reaches {i : Nat} (h : Settled tree volumes volumes.length table)
    (hindependent : Independent tree volumes) (hi : volumes[i]? = some volume) :
    Reaches table i volume := by
  obtain ⟨mount, hmount, rfl⟩ := h.all i (List.getElem?_eq_some_iff.mp hi).1
  obtain ⟨volume', seen, hi', hleads, hsource, hreadOnly⟩ := h.mounts mount hmount
  cases hi.symm.trans hi'
  have hown : table.owner mount.place ≠ none := by
    unfold MountTable.owner
    rw [ne_eq, find?_eq_none, not_forall]
    exact ⟨mount, fun hnone => hnone hmount (List.isPrefixOf_iff_prefix.mpr (prefix_refl _))⟩
  obtain ⟨found, hfound⟩ := Option.ne_none_iff_exists'.mp hown
  obtain ⟨hmem, hleading⟩ := owner_mem hfound
  obtain ⟨other, seen', hj, hother, hsource', hreadOnly'⟩ := h.mounts found hmem
  obtain ⟨hdistinct, havoids⟩ :=
    hindependent found.position mount.position other volume found.place seen' mount.place seen hj hi hother hleads
  -- no other volume's directory is at or above this one
  have hplace : mount.place = found.place := by
    by_contra hne
    have hroot : mount.place ≠ [] := by
      intro hnil
      rw [hnil] at hleading hne
      exact hne (prefix_nil.mp hleading).symm
    exact havoids mount.place (hleads.place_mem hroot) ⟨hleading, hne⟩
  have hposition : found.position = mount.position := by
    by_contra hne
    exact hdistinct hne hplace.symm
  rw [hposition] at hj
  cases hi.symm.trans hj
  exact ⟨mount.place, seen, found, h.leads hindependent hi hleads, hfound, hposition, hplace.symm,
    hsource', hreadOnly'⟩

theorem settled_run (hindependent : Independent tree volumes) (hprepared : Prepared tree volumes)
    (hintext : InText root tree volumes)
    {done rest : List VolumeSpec} (hvolumes : volumes = done ++ rest)
    {result : Except VolumeError Unit} (h : Settled tree volumes done.length table)
    (hrun : (mountHostVolumes root hostfs done.length rest).run.run table = (result, table')) :
    (∀ u, result = .ok u → Settled tree volumes volumes.length table') ∧ ∀ e, result = .error e →
      ¬e.isResolution := by
  induction rest generalizing done table with
  | nil =>
    cases hrun
    rw [append_nil] at hvolumes
    subst hvolumes
    exact ⟨fun _ _ => h, nofun⟩
  | cons volume rest ih =>
    have hposition : volumes[done.length]? = some volume := by
      rw [hvolumes, getElem?_append_right le_rfl, Nat.sub_self]
      rfl
    have hvolume := mem_of_getElem? hposition
    obtain ⟨place, seen, hleads⟩ := hprepared volume hvolume
    have hnow := h.leads hindependent hposition hleads
    rcases run_bind_cases hrun with ⟨e, hmount, rfl⟩ | ⟨u, middle, hmount, hrest⟩
    · refine ⟨nofun, ?_⟩
      rintro _ ⟨⟩
      exact (mountVolume_ends hmount).found hnow (hintext volume hvolume place seen hleads)
    · cases mountVolume_ends hmount with
      | mounted hleads' _ _ htree hmounts hresult =>
        obtain ⟨rfl, rfl⟩ := hnow.unique hleads'
        rcases hresult with ⟨-, rfl, -⟩ | ⟨-, _, -, ⟨⟩⟩
        have hsettled := h.attach hposition hleads hnow.directory htree hmounts
        rw [append_cons] at hvolumes
        have hlength : (done ++ [volume]).length = done.length + 1 := by simp
        rw [← hlength] at hsettled hrest
        exact ih hvolumes hsettled hrest

/-! #### What START's validation gives -/

theorem validateGuestPath_ok {field : String} {value : String}
    (h : validateGuestPath field value false = .ok ()) :
    ∃ relative, stripSlash value = some relative ∧ relative ≠ [] ∧
      ∀ part ∈ components relative, isIrregular part = false := by
  unfold validateGuestPath at h
  simp only [bind_ok, refuse_ok, not_not] at h
  obtain ⟨_, -, _, hhead, h⟩ := h
  cases hvalue : utf8 value with
  | nil =>
    rw [hvalue] at hhead
    cases hhead
  | cons b relative =>
    rw [hvalue] at hhead h
    cases hhead
    have hstrip : stripSlash value = some relative := by
      simp [stripSlash, hvalue]
    split at h
    · simp [refuse, stop] at h
    · rename_i hne
      rw [refuse_ok] at h
      refine ⟨relative, hstrip, hne, fun part hpart => ?_⟩
      by_contra hirregular
      exact h (any_eq_true.mpr ⟨part, hpart, Bool.eq_true_of_not_eq_false hirregular⟩)

theorem validateVolumes_ok (h : validateVolumes volumes = .ok ()) : ∀ volume ∈ volumes,
    validateGuestPath "volume.destination" volume.destination false = .ok () ∧
      reservedGuestPathConflict volume.destination = none := by
  unfold validateVolumes at h
  generalize [] = destinations at h
  induction volumes generalizing destinations with
  | nil => exact fun _ hmem => absurd hmem not_mem_nil
  | cons volume volumes ih =>
    unfold validateVolumes.go at h
    simp only [bind_ok, refuse_ok] at h
    obtain ⟨_, -, _, hdestination, _, hreserved, _, -, hrest⟩ := h
    intro other hother
    rcases mem_cons.mp hother with rfl | hother
    · exact ⟨hdestination, by simpa using hreserved⟩
    · exact ih _ hrest other hother

/-- Over empty shares, a run fails for want of a mount point or not at all. -/
theorem bare_error {e : VolumeError}
    (hdestinations : ∀ volume ∈ volumes, ∃ relative, Proper volume relative)
    (hintext : InText root tree volumes) (h : Bare tree table)
    (hrun : (mountHostVolumes root bare position volumes).run.run table = (.error e, table')) :
    e.isResolution := by
  induction volumes generalizing position table with
  | nil => cases hrun
  | cons volume volumes ih =>
    rcases run_bind_cases hrun with ⟨failure, hmount, ⟨⟩⟩ | ⟨u, middle, hmount, hrest⟩
    · cases mountVolume_ends hmount with
      | refused _ hcause =>
        rcases hcause with himproper | ⟨errno, ⟨⟩⟩
        obtain ⟨relative, hproper⟩ := hdestinations volume mem_cons_self
        exact absurd hproper (himproper relative)
      | lost hproper hresolve =>
        refine isResolution_of_lost hproper (fun place seen hleads => ?_) hresolve
        exact hintext volume mem_cons_self place seen (h.before hleads)
      | mounted _ _ _ _ _ hresult => rcases hresult with ⟨⟨⟩, -⟩ | ⟨-, errno, ⟨⟩, -⟩
    · cases mountVolume_ends hmount with
      | mounted hleads _ hshare htree hmounts _ =>
        cases hshare
        exact ih (fun other hother => hdestinations other (mem_cons_of_mem _ hother))
          (fun other hother => hintext other (mem_cons_of_mem _ hother))
          (h.attach hleads.directory rfl htree hmounts) hrest

theorem proper_of_valid {volumes : List VolumeSpec} (hvalid : validateVolumes volumes = .ok ()) :
    ∀ volume ∈ volumes, ∃ relative, Proper volume relative := by
  intro volume hvolume
  obtain ⟨relative, hrelative, hne, -⟩ :=
    validateGuestPath_ok (validateVolumes_ok hvalid volume hvolume).1
  exact ⟨relative, hrelative, hne⟩

/-- Whatever the shares hold, every volume is reached through its destination, exactly if in the
tree that the call finds the destinations name directories and are independent of one another. -/
theorem mountHostVolumes_allReached_iff (root : Bytes) (tree : FileTree Bytes)
    (volumes : List VolumeSpec)
    (hvalid : validateVolumes volumes = .ok ()) (hintext : InText root tree volumes) :
    (∀ hostfs, AllReached root tree volumes hostfs) ↔
      Prepared tree volumes ∧ Independent tree volumes := by
  constructor
  · intro hall
    obtain ⟨hreached, herror⟩ := hall bare
    have hstart : Bare tree ⟨tree, []⟩ := ⟨fun _ hmount => absurd hmount not_mem_nil,
      fun _ _ => rfl⟩
    cases hrun : (mountHostVolumes root bare 0 volumes).run.run ⟨tree, []⟩ with
    | mk result table =>
      cases result with
      | error e =>
        exact absurd (bare_error (proper_of_valid hvalid) hintext hstart hrun) (herror e table hrun)
      | ok u =>
        have hbare := bare_run hstart hrun
        exact ⟨prepared_of_reached hbare (hreached table hrun),
          independent_of_reached hbare (hreached table hrun)⟩
  · rintro ⟨hprepared, hindependent⟩ hostfs
    have hstart : Settled tree volumes ([] : List VolumeSpec).length ⟨tree, []⟩ :=
      ⟨fun _ _ => rfl, fun _ hmount => absurd hmount not_mem_nil,
        fun _ hi => absurd hi (Nat.not_lt_zero _)⟩
    refine ⟨fun table hrun i volume hi => ?_, fun e table hrun => ?_⟩
    · have hsettled := (settled_run hindependent hprepared hintext rfl hstart hrun).1 () rfl
      exact hsettled.reaches hindependent hi
    · exact (settled_run hindependent hprepared hintext rfl hstart hrun).2 e rfl

end Reached

namespace Sample

def image (directories : List Place) (links : List (Place × Place)) : FileTree Bytes where
  node path :=
    if path = [] ∨ path ∈ directories then some .directory
    else (links.find? fun link => link.1 = path).map fun link => .link true (link.2.map .name)
  root := by simp

/-- An image with the runtime's mounts on it, as empty filesystems. -/
def started (image : FileTree Bytes) : FileTree Bytes :=
  ["sys", "dev", "run"].foldl (fun tree name => tree.graft [utf8 name] FileTree.empty) image

def root : Bytes := utf8 "/newroot"

def shared (source destination : String) : VolumeSpec := ⟨source, destination, false⟩

/-- An image that keeps its data in `/srv`. -/
def linked (target : Place) : FileTree Bytes :=
  image [[utf8 "srv"], [utf8 "proc"], [utf8 "etc"]] [([utf8 "data"], target)]

def data : VolumeSpec := shared "/host/data" "/data"
def cache : VolumeSpec := ⟨"/host/cache", "/data/cache", true⟩
def media : VolumeSpec := shared "/host/media" "/mnt/media"

/-- The image's link, followed, and the directories that the volumes need. -/
def stocked : FileTree Bytes :=
  started (image [[utf8 "srv"], [utf8 "srv", utf8 "cache"], [utf8 "mnt"],
    [utf8 "mnt", utf8 "media"]] [([utf8 "data"], [utf8 "srv"])])

def nested : FileTree Bytes := started (image [[utf8 "a"], [utf8 "a", utf8 "b"]] [])
def inner : VolumeSpec := shared "/srv/inner" "/a/b"
def outer : VolumeSpec := shared "/srv/outer" "/a"

def opened (tree : FileTree Bytes) (volume : VolumeSpec) : Except Nat Place :=
  openBeneath tree (steps (utf8 volume.destination).tail)

theorem opened_of_leads {tree : FileTree Bytes} {volume : VolumeSpec} {place : Place}
    {seen : List Place} (h : Leads tree volume place seen) : opened tree volume = .ok place := by
  obtain ⟨relative, hrelative, hwalk, hdir⟩ := h
  unfold opened
  rw [utf8_of_stripSlash hrelative]
  exact openBeneath_ok.mpr ⟨⟨seen, hwalk⟩, hdir⟩

theorem inText_of_all {tree : FileTree Bytes} {volumes : List VolumeSpec}
    (h : ∀ volume ∈ volumes, ∀ place ∈ (opened tree volume).toOption, IsText root place) :
    InText root tree volumes := by
  intro volume hvolume place seen hleads
  refine h volume hvolume place ?_
  rw [opened_of_leads hleads]
  rfl

end Sample

theorem prepareMountPoints_leads_linked :
    ∃ tree', prepareMountPoints (Sample.linked [utf8 "srv"]) [Sample.cache,
      Sample.media] = .ok tree' ∧ (Sample.linked [utf8 "srv"]).Grows tree' ∧
      ∀ volume ∈ [Sample.cache, Sample.media], ∃ place seen, Leads tree' volume place seen := by
  obtain ⟨tree', hrun⟩ :
      ∃ tree', prepareMountPoints (Sample.linked [utf8 "srv"]) [Sample.cache, Sample.media] =
        .ok tree' := ⟨_, rfl⟩
  exact ⟨tree', hrun, prepareMountPoints_leads hrun⟩

theorem mountHostVolumes_allReached_iff_linked :
    validateVolumes [Sample.cache, Sample.media] = .ok () ∧
    InText Sample.root Sample.stocked [Sample.cache, Sample.media] ∧
    ((∀ hostfs, AllReached Sample.root Sample.stocked [Sample.cache, Sample.media] hostfs) ↔
      Prepared Sample.stocked [Sample.cache, Sample.media] ∧
      Independent Sample.stocked [Sample.cache, Sample.media]) := by
  have hvalid : validateVolumes [Sample.cache, Sample.media] = .ok () := by decide +kernel
  have hintext : InText Sample.root Sample.stocked [Sample.cache, Sample.media] :=
    Sample.inText_of_all (by decide +kernel)
  exact ⟨hvalid, hintext, mountHostVolumes_allReached_iff _ _ _ hvalid hintext⟩

/-- Of two nested volumes, the inner one is hidden if it comes first; if it comes last, it fails for
want of a directory in the outer share, although the image has it. -/
theorem nested_volume_lost :
    validateVolumes [Sample.inner, Sample.outer] = .ok () ∧
      validateVolumes [Sample.outer, Sample.inner] = .ok () ∧
    InText Sample.root Sample.nested [Sample.inner, Sample.outer] ∧
    (∃ table, (mountHostVolumes Sample.root bare 0 [Sample.inner, Sample.outer]).run.run
      ⟨Sample.nested, []⟩ = (.ok (), table) ∧ ¬Reaches table 0 Sample.inner) ∧
    ((mountHostVolumes Sample.root bare 0 [Sample.outer, Sample.inner]).run.run
      ⟨Sample.nested, []⟩).1 = .error (.syscall "resolve-beneath" ENOENT) := by
  refine ⟨by decide +kernel, by decide +kernel, Sample.inText_of_all (by decide +kernel), ⟨_, Prod.ext ?_ rfl, ?_⟩,
    by decide +kernel⟩
  · decide +kernel
  · rintro ⟨place, seen, _, hleads, -⟩
    have hopened : Sample.opened ((mountHostVolumes Sample.root bare 0 [Sample.inner, Sample.outer]).run.run
        ⟨Sample.nested, []⟩).2.tree Sample.inner = .error ENOENT := by decide +kernel
    cases (Sample.opened_of_leads hleads).symm.trans hopened

/-! ### Where an image can redirect a volume

START's validation looks at the text of a destination, and the mount is made where the text leads. A
lookup that meets no symbolic link ends where the text says; nothing looks at the place of one that
follows a link. -/

theorem flatMap_slash_eq {parts : List Bytes} (h : parts ≠ []) :
    parts.flatMap (47 :: ·) = 47 :: [47].intercalate parts := by
  induction parts with
  | nil => exact absurd rfl h
  | cons part parts ih =>
    cases parts with
    | nil => simp [List.intercalate]
    | cons next parts =>
      rw [flatMap_cons, ih (cons_ne_nil _ _)]
      simp [List.intercalate]

theorem placeText_components {path relative : Bytes} (h : path = 47 :: relative) :
    placeText [] (components relative) = path := by
  unfold placeText components
  rw [flatMap_slash_eq (splitOn_ne_nil _ _), h]
  exact congrArg (47 :: ·) (intercalate_splitOn 47)

theorem placeText_of_leading {above place : Place} (h : above <+: place) :
    placeText [] above = placeText [] place ∨
      placeText [] above ++ [47] <+: placeText [] place := by
  obtain ⟨rest, rfl⟩ := h
  cases rest with
  | nil => exact .inl (by rw [append_nil])
  | cons name rest => exact .inr ⟨name ++ rest.flatMap (47 :: ·), by simp [placeText]⟩

def reservedPlaces : List Place := RESERVED_GUEST_PATHS.map fun path => components (utf8 path).tail

/-- A place below the root that is not, contains or lies in one of the runtime's own. -/
def Guarded (place : Place) : Prop :=
  place ≠ [] ∧ ∀ reserved ∈ reservedPlaces, ¬reserved <+: place ∧ ¬place <+: reserved

instance decidableGuarded : DecidablePred Guarded := fun _ => inferInstanceAs (Decidable (_ ∧ _))

theorem reserved_absolute : ∀ path ∈ RESERVED_GUEST_PATHS,
    utf8 path = 47 :: (utf8 path).tail := by decide +kernel

theorem isBeneath_of_leading {parent path : String} (h : utf8 parent ++ [47] <+: utf8 path) :
    isBeneath parent path = true :=
  isPrefixOf_iff_prefix.mpr h

/-- The validation of the text is the guard of the place that it names. -/
theorem guarded_of_validated {destination : String} {relative : Bytes}
    (habsolute : utf8 destination = 47 :: relative)
    (hfree : reservedGuestPathConflict destination = none) : Guarded (components relative) := by
  refine ⟨splitOn_ne_nil _ _, fun place hplace => ?_⟩
  obtain ⟨reserved, hreserved, rfl⟩ := mem_map.mp hplace
  have hconflict := find?_eq_none.mp hfree reserved hreserved
  simp only [Bool.or_eq_true, beq_iff_eq, not_or] at hconflict
  obtain ⟨⟨hdiffers, hbelow⟩, habove⟩ := hconflict
  have hplace := placeText_components (reserved_absolute reserved hreserved)
  have hwritten := placeText_components habsolute
  constructor
  · intro hleading
    have htexts := placeText_of_leading hleading
    rw [hplace, hwritten] at htexts
    rcases htexts with hsame | hin
    · exact hdiffers (utf8_inj hsame).symm
    · exact hbelow (isBeneath_of_leading hin)
  · intro hleading
    have htexts := placeText_of_leading hleading
    rw [hplace, hwritten] at htexts
    rcases htexts with hsame | hin
    · exact hdiffers (utf8_inj hsame)
    · exact habove (isBeneath_of_leading hin)

/-- The last link on the way of the volume's destination, with what is left to walk from it, spells
`path`. -/
def Linked (tree : FileTree Bytes) (volume : VolumeSpec) (path : Place) : Prop :=
  ∃ relative base left, stripSlash volume.destination = some relative ∧
    LastLink tree MAX_SYMLINKS [] (steps relative) base left ∧ path = spell base left

theorem Linked.place_eq {tree : FileTree Bytes} {volume : VolumeSpec} {place path : Place}
    {seen : List Place}
    (h : Linked tree volume path) (hleads : Leads tree volume place seen) : path = place := by
  obtain ⟨relative, base, left, hrelative, hlast, rfl⟩ := h
  obtain ⟨written, hwritten, hwalk, -⟩ := hleads
  cases hrelative.symm.trans hwritten
  obtain ⟨seen', hwalk'⟩ := hlast.exists_walk
  exact (hwalk'.unique hwalk).1

/-- A destination that passes the validation leads to a guarded place, or a link on its way spells
the place. -/
theorem guarded_or_linked {tree : FileTree Bytes} {volume : VolumeSpec} {place : Place}
    {seen : List Place}
    (hvalid : validateGuestPath "volume.destination" volume.destination false = .ok ())
    (hfree : reservedGuestPathConflict volume.destination = none)
    (hleads : Leads tree volume place seen) :
    Guarded place ∨ Linked tree volume place := by
  obtain ⟨relative, hrelative, -, hregular⟩ := validateGuestPath_ok hvalid
  obtain ⟨written, hwritten, hwalk, -⟩ := hleads
  cases hrelative.symm.trans hwritten
  rcases hwalk.direct_or_lastLink with hdirect | ⟨base, left, hlast, hplace⟩
  · left
    rw [hwalk.spelled hdirect, steps_of_regular hregular, spell_names, nil_append]
    exact guarded_of_validated (utf8_of_stripSlash hrelative) hfree
  · exact .inr ⟨relative, base, left, hrelative, hlast, hplace⟩

section Laid

variable (root : Bytes) (hostfs : Hostfs)

/-- The volume's share can be mounted on the directory that its destination names. -/
structure Mountable (tree : FileTree Bytes) (volume : VolumeSpec) (place : Place)
    (share : FileTree Bytes) : Prop where
  leads : ∃ seen, Leads tree volume place seen
  text : IsText root place
  share : hostfs.share volume.source = .ok share

/-- `tree` with the shares of `volumes` in it, each in the directory that its destination names
below the ones before. -/
inductive Laid : FileTree Bytes → List VolumeSpec → FileTree Bytes → Prop
  | nil (tree : FileTree Bytes) : Laid tree [] tree
  | cons {tree tree' share : FileTree Bytes} {volume : VolumeSpec} {volumes : List VolumeSpec}
    {place : Place}
    (hmount : Mountable root hostfs tree volume place share) (hremount : hostfs.Remounts volume)
    (hrest : Laid (tree.graft place share) volumes tree') : Laid tree (volume :: volumes) tree'

/-- `volume` comes after `done`, and its share can be mounted on `place` once those of `done` are in
`tree`. -/
def Placed (tree : FileTree Bytes) (volumes : List VolumeSpec) (before : FileTree Bytes)
    (volume : VolumeSpec) (place : Place) : Prop :=
  ∃ done rest share, volumes = done ++ volume :: rest ∧ Laid root hostfs tree done before ∧
    Mountable root hostfs before volume place share

variable {root hostfs} {position : Nat} {volume : VolumeSpec} {volumes : List VolumeSpec}
  {table table' : MountTable}
  {tree before share share' : FileTree Bytes} {place place' : Place}
  {result : Except VolumeError Unit}

theorem Mountable.unique (h : Mountable root hostfs tree volume place share)
    (h' : Mountable root hostfs tree volume place' share') : place = place' ∧ share = share' := by
  obtain ⟨⟨seen, hleads⟩, -, hshare⟩ := h
  obtain ⟨⟨seen', hleads'⟩, -, hshare'⟩ := h'
  cases hshare.symm.trans hshare'
  exact ⟨(hleads.unique hleads').1, rfl⟩

theorem placed_nil : ¬Placed root hostfs tree [] before volume place := by
  rintro ⟨done, rest, share, hvolumes, -⟩
  exact append_ne_nil_of_right_ne_nil done (cons_ne_nil volume rest) hvolumes.symm

/-- The first volume is placed in the tree as it is, and the others in what it leaves. -/
theorem placed_cons {first : VolumeSpec} :
    Placed root hostfs tree (first :: volumes) before volume place ↔
    (volume = first ∧ before = tree ∧ ∃ share, Mountable root hostfs tree first place share) ∨
    ∃ place' share', Mountable root hostfs tree first place' share' ∧ hostfs.Remounts first ∧
      Placed root hostfs (tree.graft place' share') volumes before volume place := by
  constructor
  · rintro ⟨done, rest, share, hvolumes, hlaid, hmount⟩
    cases hlaid with
    | nil =>
      obtain ⟨rfl, -⟩ := cons.inj hvolumes
      exact .inl ⟨rfl, rfl, share, hmount⟩
    | cons hfirst hremount hlaid =>
      obtain ⟨rfl, rfl⟩ := cons.inj hvolumes
      exact .inr ⟨_, _, hfirst, hremount, _, rest, share, rfl, hlaid, hmount⟩
  · rintro (⟨rfl, rfl, share, hmount⟩ | ⟨place', share', hfirst, hremount, done, rest, share, rfl,
      hlaid, hmount⟩)
    · exact ⟨[], volumes, share, rfl, .nil _, hmount⟩
    · exact ⟨first :: done, rest, share, rfl, .cons hfirst hremount hlaid, hmount⟩

/-- A mount is made exactly if the volume can be mounted, and the turn ends well exactly if the
remount does too. -/
theorem mountVolume_places {relative : Bytes} (hproper : Proper volume relative)
    (h : (mountVolume root hostfs position volume).run.run table = (result, table')) :
    (∃ place share mount, Mountable root hostfs table.tree volume place share ∧
      mount.place = place ∧ table'.mounts = mount :: table.mounts ∧
        table'.tree = table.tree.graft place share ∧
      (result = .ok () ↔ hostfs.Remounts volume)) ∨
    ((∀ place share, ¬Mountable root hostfs table.tree volume place share) ∧ table' = table ∧
      result ≠ .ok ()) := by
  cases mountVolume_ends h with
  | refused _ hcause =>
    refine .inr ⟨fun place share hmount => ?_, rfl, nofun⟩
    rcases hcause with himproper | ⟨errno, herror⟩
    · exact himproper relative hproper
    · cases herror.symm.trans hmount.share
  | lost hproper' hresolve =>
    refine .inr ⟨fun place share hmount => ?_, rfl, nofun⟩
    obtain ⟨seen, hleads⟩ := hmount.leads
    cases hresolve.symm.trans (resolveBeneath_of_leads hproper' hleads hmount.text)
  | mounted hleads htext hshare htree hmounts hresult =>
    refine .inl ⟨_, _, _, ⟨⟨_, hleads⟩, htext, hshare⟩, rfl, hmounts, htree, ?_⟩
    rcases hresult with ⟨rfl, -, hremounts⟩ | ⟨hnot, errno, -, rfl⟩
    · exact iff_of_true rfl hremounts
    · exact iff_of_false nofun hnot

theorem mountHostVolumes_places (hproper : ∀ volume ∈ volumes, ∃ relative, Proper volume relative)
    (h : (mountHostVolumes root hostfs position volumes).run.run table = (result, table'))
    (place : Place) :
    (∃ mount ∈ table'.mounts, mount.place = place) ↔ (∃ mount ∈ table.mounts, mount.place = place) ∨
      ∃ before volume, Placed root hostfs table.tree volumes before volume place := by
  induction volumes generalizing position table with
  | nil =>
    cases h
    simp [placed_nil]
  | cons first volumes ih =>
    obtain ⟨relative, hfirst⟩ := hproper first mem_cons_self
    have hothers := fun volume hvolume => hproper volume (mem_cons_of_mem first hvolume)
    rcases run_bind_cases h with ⟨e, hrun, rfl⟩ | ⟨u, middle, hrun, h⟩
    · rcases mountVolume_places hfirst hrun with
        ⟨found, share, mount, hmount, rfl, hmounts, -, hresult⟩ | ⟨hnone, rfl, -⟩
      · -- the remount fails, so nothing is placed after the first volume
        have hnot : ¬hostfs.Remounts first := fun hremounts => by cases hresult.mpr hremounts
        rw [hmounts, exists_mem_cons_iff, or_comm]
        refine or_congr_right ⟨?_, ?_⟩
        · rintro rfl
          exact ⟨_, first, placed_cons.mpr (.inl ⟨rfl, rfl, share, hmount⟩)⟩
        · rintro ⟨before, volume, hplaced⟩
          rcases placed_cons.mp hplaced with ⟨-, -, share', hmount'⟩ | ⟨_, _, -, hremounts, -⟩
          · exact (hmount.unique hmount').1
          · exact absurd hremounts hnot
      · refine (or_iff_left ?_).symm
        rintro ⟨before, volume, hplaced⟩
        rcases placed_cons.mp hplaced with ⟨-, -, share, hmount⟩ | ⟨_, _, hmount, -⟩
        · exact hnone _ _ hmount
        · exact hnone _ _ hmount
    · rcases mountVolume_places hfirst hrun with
        ⟨found, share, mount, hmount, rfl, hmounts, htree, hresult⟩ | ⟨-, -, herror⟩
      · rw [ih hothers h, hmounts, htree, exists_mem_cons_iff, or_comm (a := _ = _), or_assoc]
        refine or_congr_right ⟨?_, ?_⟩
        · rintro (rfl | ⟨before, volume, hplaced⟩)
          · exact ⟨_, first, placed_cons.mpr (.inl ⟨rfl, rfl, share, hmount⟩)⟩
          · exact ⟨before, volume, placed_cons.mpr (.inr ⟨_, share, hmount, hresult.mp rfl, hplaced⟩)⟩
        · rintro ⟨before, volume, hplaced⟩
          rcases placed_cons.mp hplaced with ⟨-, -, share', hmount'⟩ | ⟨_, _, hmount', -, hplaced⟩
          · exact .inl (hmount.unique hmount').1
          · obtain ⟨rfl, rfl⟩ := hmount.unique hmount'
            exact .inr ⟨before, volume, hplaced⟩
      · exact absurd rfl herror

end Laid

/-- Every share is mounted on a guarded place, whether the run succeeds or not, exactly if each
volume that can be mounted, with the shares before it in the tree, has its destination free of links
or its last link spell a guarded path. -/
theorem mountHostVolumes_guarded_iff (root : Bytes) (hostfs : Hostfs) (tree : FileTree Bytes)
    (volumes : List VolumeSpec) (hvalid : validateVolumes volumes = .ok ()) :
    (∀ mount ∈ ((mountHostVolumes root hostfs 0 volumes).run.run ⟨tree, []⟩).2.mounts,
      Guarded mount.place) ↔
      ∀ before volume place path, Placed root hostfs tree volumes before volume place →
        Linked before volume path → Guarded path := by
  have hplaces := @mountHostVolumes_places root hostfs 0 volumes ⟨tree,
    []⟩ _ _ (proper_of_valid hvalid) rfl
  constructor
  · intro hguarded before volume place path hplaced hlinked
    obtain ⟨mount, hmount, rfl⟩ := (hplaces place).mpr (.inr ⟨before, volume, hplaced⟩)
    obtain ⟨done, rest, share, -, -, hmountable⟩ := hplaced
    rw [hlinked.place_eq hmountable.leads.choose_spec]
    exact hguarded mount hmount
  · intro hhonest mount hmount
    rcases (hplaces mount.place).mp ⟨mount, hmount, rfl⟩ with ⟨_, hnone, -⟩ |
      ⟨before, volume, hplaced⟩
    · exact absurd hnone not_mem_nil
    · obtain ⟨done, rest, share, rfl, -, hmountable⟩ := id hplaced
      obtain ⟨hdestination, hfree⟩ := validateVolumes_ok hvalid volume (by simp)
      rcases guarded_or_linked hdestination hfree hmountable.leads.choose_spec with
        hguarded | hlinked
      · exact hguarded
      · exact hhonest before volume _ _ hplaced hlinked

theorem mountHostVolumes_guarded_iff_linked :
    validateVolumes [Sample.cache, Sample.media] = .ok () ∧
    ((∀ mount ∈ ((mountHostVolumes Sample.root bare 0 [Sample.cache, Sample.media]).run.run
        ⟨Sample.stocked, []⟩).2.mounts, Guarded mount.place) ↔
      ∀ before volume place path,
        Placed Sample.root bare Sample.stocked [Sample.cache, Sample.media] before volume place →
        Linked before volume path → Guarded path) :=
  ⟨by decide +kernel, mountHostVolumes_guarded_iff _ _ _ _ (by decide +kernel)⟩

/-- A link in the image puts a share over the root, over `/proc` or over the directory of the
generated files. -/
theorem linked_volume_unguarded : validateVolumes [Sample.data] = .ok () ∧
    ∀ target ∈ [[], [utf8 "proc"], [utf8 "etc"]],
      ((mountHostVolumes Sample.root bare 0 [Sample.data]).run.run ⟨Sample.linked target,
        []⟩).1 = .ok () ∧
      ((mountHostVolumes Sample.root bare 0 [Sample.data]).run.run ⟨Sample.linked target,
        []⟩).2.mounts.map (·.place) = [target] ∧ ¬Guarded target := by
  decide +kernel

end PocketVm.Guest
