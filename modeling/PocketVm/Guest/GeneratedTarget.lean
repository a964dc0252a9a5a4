import PocketVm.Guest.Volumes

/-!
# Where the generated files of `/etc` go

`resolve_generated_target` walks a path of the image by itself, link by link, so that a link of the
image cannot lead the mount of a generated file out of the image. It normalises the target of a link
by its text and starts again at the image's root; missing directories on the way are made.
-/

namespace PocketVm.Guest

open Wire Checked Vfs List

def MAX_GENERATED_TARGET_SYMLINKS : Nat := 40

/-- What can stand between two slashes, other than nothing, a dot or two dots. -/
def IsFileName (name : Bytes) : Prop := name ≠ [] ∧ name ≠ [46] ∧ name ≠ [46, 46] ∧ 47 ∉ name

instance decidableIsFileName (name : Bytes) : Decidable (IsFileName name) :=
  inferInstanceAs (Decidable (_ ∧ _))

abbrev FileName := { name : Bytes // IsFileName name }

/-- One piece of a path between its slashes. The empty piece is what a slash at the end leaves. -/
def pieceHop (piece : Bytes) : Hop FileName :=
  if piece = [46, 46] then .up
  else if h : IsFileName piece then .name ⟨piece, h⟩
  else .stay

def pathHops (path : Bytes) : List (Hop FileName) := (path.splitOn 47).map pieceHop

def isAbsolute (path : Bytes) : Bool := path.head? == some 47

inductive GeneratedError where
  | contract (diagnostic : String)
  | io (errno : Nat)
  deriving DecidableEq

def hopName : Hop FileName → Option FileName
  | .name n => some n
  | _ => none

def componentsWithoutRoot (hops : List (Hop FileName)) : Except GeneratedError (List FileName) := do
  stop (.up ∈ hops) (.contract "generated-file target is not normalized")
  stop (hops.filterMap hopName = []) (.contract "generated-file target is empty")
  return hops.filterMap hopName

/-- What the resolver asks of the filesystem, by the path below the image's root. With a directory
that is created come the components that are still to be walked below it. -/
inductive Access where
  | inspect (path : List FileName)
  | readLink (path : List FileName)
  | create (path pending : List FileName)
  | setPermissions (path : List FileName)
  deriving DecidableEq

def Access.path : Access → List FileName
  | .inspect path | .readLink path | .create path _ | .setPermissions path => path

/-- The calls that fail, other than for want of a file. A directory may stand although `create_dir`
failed. -/
structure Faults where
  inspect : List FileName → Option Nat
  readLink : List FileName → Option Nat
  create : List FileName → Option (Nat × Bool)
  setPermissions : List FileName → Option Nat
  inspectCreated : List FileName → Option Nat

/-- What was asked, what the image is then, and how the call ends. -/
structure Resolution (α : Type) where
  accesses : List Access
  tree : FileTree FileName
  result : Except GeneratedError α

def Resolution.after {α : Type} (accesses : List Access) (r : Resolution α) : Resolution α :=
  { r with accesses := accesses ++ r.accesses }

def Resolution.stopped {α : Type} (tree : FileTree FileName) (e : GeneratedError) : Resolution α :=
  ⟨[], tree, .error e⟩

variable (faults : Faults)

/-- A missing directory on the way is created, given its permissions and looked at again. -/
def makeParent (tree : FileTree FileName) (candidate pending : List FileName) : Resolution Unit :=
  let made := tree.makeDirectory candidate
  match faults.create candidate with
  | some (errno, stands) =>
    ⟨[.create candidate pending], if stands then made else tree, .error (.io errno)⟩
  | none =>
    match faults.setPermissions candidate with
    | some errno =>
      ⟨[.create candidate pending, .setPermissions candidate], made, .error (.io errno)⟩
    | none => ⟨[.create candidate pending, .setPermissions candidate, .inspect candidate], made,
        match faults.inspectCreated candidate, made.node candidate with
        | some errno, _ => .error (.io errno)
        | none, some .directory => .ok ()
        | none, _ => .error (.contract "created generated-file parent is not a real directory")⟩

/-- What is done at a link: with the tree, the components before it, its name, its target and what
is left. -/
abbrev Follow :=
  FileTree FileName → List FileName → FileName → Bool → List (Hop FileName) → List FileName →
    Resolution (List FileName)

/-- The loop up to the next link, with the components that are done and those that are left. -/
def resolveWalk (follow : Follow) (tree : FileTree FileName) (resolved : List FileName) :
    List FileName → Resolution (List FileName)
  | [] => ⟨[], tree, .ok resolved⟩
  | component :: pending =>
    let candidate := resolved ++ [component]
    Resolution.after [.inspect candidate] <|
      match faults.inspect candidate, tree.node candidate with
      | some errno, _ => .stopped tree (.io errno)
      | none, some (.link absolute target) => follow tree resolved component absolute target pending
      | none, some .directory => resolveWalk follow tree candidate pending
      | none, some .file =>
        if pending.isEmpty then resolveWalk follow tree candidate pending
        else .stopped tree (.contract "non-directory occurs inside generated-file target")
      | none, none =>
        if pending.isEmpty then resolveWalk follow tree candidate pending
        else
          let made := makeParent faults tree candidate pending
          Resolution.after made.accesses <|
            match made.result with
            | .error e => .stopped made.tree e
            | .ok () => resolveWalk follow made.tree candidate pending

/-- The loop, with so many links to follow. -/
def resolveFrom : Nat → FileTree FileName → List FileName → List FileName →
    Resolution (List FileName)
  | 0 => resolveWalk faults fun tree _ _ _ _ _ =>
    .stopped tree (.contract "generated-file target contains too many symlinks")
  | links + 1 => resolveWalk faults fun tree resolved component absolute target pending =>
    Resolution.after [.readLink (resolved ++ [component])] <|
      match faults.readLink (resolved ++ [component]), splice (if absolute then [] else resolved) target with
      | some errno, _ => .stopped tree (.io errno)
      | none, none => .stopped tree (.contract "generated-file symlink escapes the image root")
      | none, some names => resolveFrom links tree [] (names ++ pending)

def resolveGeneratedTarget (tree : FileTree FileName) (relative : Bytes) :
    Resolution (List FileName) :=
  if isAbsolute relative then
    .stopped tree (.contract "generated-file target must be image-root-relative")
  else match componentsWithoutRoot (pathHops relative) with
    | .error e => .stopped tree e
    | .ok names => resolveFrom faults MAX_GENERATED_TARGET_SYMLINKS tree [] names

def isReadLink : Access → Bool
  | .readLink _ => true
  | _ => false

section

variable {faults} {tree tree' : FileTree FileName} {candidate pending : List FileName}

/-- What making a directory changes and asks, whether or not it succeeds. -/
structure MakesParent (tree : FileTree FileName) (candidate pending : List FileName)
    (r : Resolution Unit) :
    Prop where
  grows : tree.Grows r.tree
  changed : ∀ path, r.tree.node path ≠ tree.node path → path = candidate
  create : .create candidate pending ∈ r.accesses
  accesses : ∀ access ∈ r.accesses, access.path = candidate ∧ isReadLink access = false
  made : ∀ u, r.result = .ok u → r.tree = tree.makeDirectory candidate

theorem makeParent_makes (faults : Faults) :
    MakesParent tree candidate pending (makeParent faults tree candidate pending) := by
  have hgrows := tree.grows_makeDirectory candidate
  have hchanged : ∀ path, (tree.makeDirectory candidate).node path ≠ tree.node path →
    path = candidate := by
    intro path hne
    by_contra hother
    exact hne (if_neg fun hc => hother hc.1)
  unfold makeParent
  split
  · next stands _ =>
    refine ⟨?_, ?_, by simp, by simp [Access.path, isReadLink], nofun⟩
    · cases stands with
      | true => exact hgrows
      | false => exact .refl tree
    · cases stands with
      | true => exact hchanged
      | false => exact fun _ hne => absurd rfl hne
  · split
    · exact ⟨hgrows, hchanged, by simp, by simp [Access.path, isReadLink], nofun⟩
    · exact ⟨hgrows, hchanged, by simp, by simp [Access.path, isReadLink], fun _ _ => rfl⟩

/-- What is true of a resolution that starts on `tree` with so many links to follow. -/
structure Resolves (links : Nat) (tree : FileTree FileName)
    (r : Resolution (List FileName)) : Prop where
  grows : tree.Grows r.tree
  /-- what is new was created, with components still to be walked below it -/
  created : ∀ path, r.tree.node path ≠ tree.node path → ∃ pending ≠ [],
    .create path pending ∈ r.accesses
  /-- every path leads through directories -/
  contained : ∀ access ∈ r.accesses, access.path ≠ [] ∧ r.tree.Plain access.path.dropLast
  result : ∀ place, r.result = .ok place → r.tree.Plain place.dropLast ∧ ¬r.tree.IsLink place
  links_le : (r.accesses.filter isReadLink).length ≤ links

/-- Where the loop stands: in a directory, or at its end. -/
structure Stands (tree : FileTree FileName) (resolved pending : List FileName) : Prop where
  above : tree.Plain resolved.dropLast
  notLink : ¬tree.IsLink resolved
  inside : pending ≠ [] → tree.Plain resolved

variable {links : Nat} {r : Resolution (List FileName)} {resolved : List FileName}
  {component : FileName}

theorem stands_of_plain (h : tree.Plain resolved) : Stands tree resolved pending :=
  ⟨h.upTo (List.dropLast_prefix _), h.not_isLink, fun _ => h⟩

theorem resolves_stopped (tree : FileTree FileName) (e : GeneratedError) :
    Resolves links tree (.stopped tree e) where
  grows := .refl tree
  created path hne := absurd rfl hne
  contained access haccess := absurd haccess not_mem_nil
  result place h := by cases h
  links_le := Nat.zero_le _

/-- Asking for the next component before a resolution, with what that changes. -/
theorem Resolves.after (h : Resolves links tree' r) (hgrows : tree.Grows tree')
    (hplain : tree.Plain resolved)
    {accesses : List Access}
    (haccesses : ∀ access ∈ accesses, access.path = resolved ++ [component])
    (hmade : ∀ path, tree'.node path ≠ tree.node path → ∃ pending ≠ [],
      .create path pending ∈ accesses)
    {more : Nat} (hmore : (accesses.filter isReadLink).length + links ≤ more) :
    Resolves more tree (r.after accesses) where
  grows := hgrows.trans h.grows
  created path hne := by
    by_cases hsame : r.tree.node path = tree'.node path
    · obtain ⟨pending, hpending, hcreate⟩ := hmade path (hsame ▸ hne)
      exact ⟨pending, hpending, mem_append_left _ hcreate⟩
    · obtain ⟨pending, hpending, hcreate⟩ := h.created path hsame
      exact ⟨pending, hpending, mem_append_right _ hcreate⟩
  contained access haccess := by
    rcases mem_append.mp haccess with haccess | haccess
    · rw [haccesses access haccess, dropLast_concat]
      exact ⟨by simp, hplain.keeps (hgrows.trans h.grows).keeps⟩
    · exact h.contained access haccess
  result := h.result
  links_le := by
    have := h.links_le
    rw [Resolution.after, filter_append, length_append]
    omega

theorem Resolves.after_same (h : Resolves links tree r) (hplain : tree.Plain resolved)
    (component : FileName)
    {accesses : List Access}
    (haccesses : ∀ access ∈ accesses, access.path = resolved ++ [component]) {more : Nat}
    (hmore : (accesses.filter isReadLink).length + links ≤ more) :
    Resolves more tree (r.after accesses) :=
  h.after (.refl tree) hplain haccesses (fun _ hne => absurd rfl hne) hmore

theorem resolveWalk_resolves {follow : Follow}
    (hfollow : ∀ {tree : FileTree FileName} {resolved : List FileName} (component : FileName)
      (absolute : Bool) (target : List (Hop FileName)) (pending : List FileName),
      tree.Plain resolved →
      Resolves links tree (follow tree resolved component absolute target pending))
    (h : Stands tree resolved pending) :
    Resolves links tree (resolveWalk faults follow tree resolved pending) := by
  induction pending generalizing tree resolved with
  | nil =>
    refine ⟨.refl tree, fun path hne => absurd rfl hne, fun access haccess =>
      absurd haccess not_mem_nil, ?_, Nat.zero_le _⟩
    intro place hplace
    cases hplace
    exact ⟨h.above, h.notLink⟩
  | cons component pending ih =>
    have hplain := h.inside (cons_ne_nil _ _)
    have hlast : ∀ {node : Option (Node FileName)}, tree.node (resolved ++ [component]) = node →
        (∀ absolute target, node ≠ some (.link absolute target)) → pending.isEmpty = true →
        Stands tree (resolved ++ [component]) pending := by
      intro node hnode hne hempty
      refine ⟨by rwa [dropLast_concat], ?_, fun hpending => absurd (List.isEmpty_iff.mp hempty) hpending⟩
      rintro ⟨absolute, target, hlink⟩
      exact hne absolute target (hnode.symm.trans hlink)
    rw [resolveWalk]
    refine Resolves.after_same (?_ : Resolves links tree _) hplain component (by simp [Access.path])
      (by simp [isReadLink])
    split
    · exact resolves_stopped _ _
    · exact hfollow component _ _ pending hplain
    · next hnode => exact ih (stands_of_plain (FileTree.plain_concat.mpr ⟨hplain, hnode⟩))
    · next hnode =>
      split
      · next hempty => exact ih (hlast hnode nofun hempty)
      · exact resolves_stopped _ _
    · next hnode =>
      split
      · next hempty => exact ih (hlast hnode nofun hempty)
      · next hpending =>
        have hmakes : MakesParent tree (resolved ++ [component]) pending _ :=
          makeParent_makes faults
        refine Resolves.after (?_ : Resolves links _ _) hmakes.grows hplain (fun access haccess =>
          (hmakes.accesses access haccess).1)
          (fun path hne => ?_) ?_
        · split
          · exact resolves_stopped _ _
          · next hresult =>
            rw [hmakes.made _ hresult]
            have hgrown := hplain.keeps (tree.grows_makeDirectory (resolved ++ [component])).keeps
            exact ih (stands_of_plain (FileTree.plain_concat.mpr ⟨hgrown, if_pos ⟨rfl, hnode⟩⟩))
        · rw [hmakes.changed path hne]
          exact ⟨pending, mt List.isEmpty_iff.mpr hpending, hmakes.create⟩
        · rw [filter_eq_nil_iff.mpr fun access haccess => by simp [(hmakes.accesses access haccess).2]]
          simp

theorem resolveFrom_resolves (h : Stands tree resolved pending) :
    Resolves links tree (resolveFrom faults links tree resolved pending) := by
  induction links generalizing tree resolved pending with
  | zero => exact resolveWalk_resolves (fun _ _ _ _ _ => resolves_stopped _ _) h
  | succ links ih =>
    refine resolveWalk_resolves (fun {tree resolved} component absolute target pending hplain => ?_) h
    refine Resolves.after_same (?_ : Resolves links tree _) hplain component
      (by simp [Access.path]) ?_
    · split
      · exact resolves_stopped _ _
      · exact resolves_stopped _ _
      · exact ih (stands_of_plain FileTree.plain_nil)
    · change 1 + links ≤ links + 1
      omega

end

/-- The image's tree stands at `root` in the guest's. -/
structure Hosts (world : FileTree FileName) (root : List FileName)
    (tree : FileTree FileName) : Prop where
  plain_root : world.Plain root
  node : ∀ path, world.node (root ++ path) = tree.node path

theorem Hosts.plain {world tree : FileTree FileName} {root path : List FileName}
    (h : Hosts world root tree) (hplain : tree.Plain path) : world.Plain (root ++ path) := by
  induction path using List.reverseRecOn with
  | nil => simpa using h.plain_root
  | append_singleton path name ih =>
    obtain ⟨habove, hnode⟩ := FileTree.plain_concat.mp hplain
    rw [← append_assoc, FileTree.plain_concat, append_assoc, h.node]
    exact ⟨ih habove, hnode⟩

/-- What is asked of a resolution on an image: a bounded number of links, no path that leads through
a link or up, nothing changed but missing directories with components to come below them, a result
that is no link and lies below none, and wherever the image stands, no path that the kernel takes
out of it. -/
structure ContainedResolution (tree : FileTree FileName)
    (r : Resolution (List FileName)) : Prop where
  links : (r.accesses.filter isReadLink).length ≤ MAX_GENERATED_TARGET_SYMLINKS
  accesses : ∀ access ∈ r.accesses, access.path ≠ [] ∧ (∀ name ∈ access.path, name.val ≠ [46, 46]) ∧
    ∀ above, above <+: access.path → above ≠ access.path → ¬tree.IsLink above ∧ ¬r.tree.IsLink above
  changes : ∀ path, r.tree.node path ≠ tree.node path →
    tree.node path = none ∧ r.tree.node path = some .directory ∧
      ∃ pending ≠ [], .create path pending ∈ r.accesses
  result : ∀ place, r.result = .ok place → (∀ name ∈ place, name.val ≠ [46, 46]) ∧
    ∀ above, above <+: place → ¬r.tree.IsLink above
  inside : ∀ world root, Hosts world root r.tree → ∀ path,
    (r.result = .ok path ∨ ∃ access ∈ r.accesses, access.path = path) →
    lookup world 0 [] ((root ++ path.dropLast).map .name) = .ok (root ++ path.dropLast)

theorem notDots (name : FileName) : name.val ≠ [46, 46] := name.2.2.2.1

theorem above_dropLast {above path : List FileName} (h : above <+: path) (hne : above ≠ path) :
    above <+: path.dropLast := by
  rcases eq_nil_or_concat path with rfl | ⟨front, name, rfl⟩
  · exact absurd (prefix_nil.mp h) hne
  · rw [concat_eq_append] at h hne ⊢
    rw [dropLast_concat]
    rcases prefix_concat_iff.mp h with rfl | h
    · exact absurd rfl hne
    · exact h

theorem Resolves.contained_resolution {tree : FileTree FileName} {r : Resolution (List FileName)}
    (h : Resolves MAX_GENERATED_TARGET_SYMLINKS tree r) : ContainedResolution tree r where
  links := h.links_le
  accesses access haccess := by
    obtain ⟨hne, hplain⟩ := h.contained access haccess
    refine ⟨hne, fun name _ => notDots name, fun above habove hproper => ?_⟩
    have hlink := (hplain.upTo (above_dropLast habove hproper)).not_isLink
    exact ⟨mt h.grows.isLink_iff.mpr hlink, hlink⟩
  changes path hne := by
    rcases h.grows path with hsame | ⟨hnone, hdir⟩
    · exact absurd hsame hne
    · exact ⟨hnone, hdir, h.created path hne⟩
  result place hplace := by
    obtain ⟨hplain, hlink⟩ := h.result place hplace
    refine ⟨fun name _ => notDots name, fun above habove => ?_⟩
    by_cases heq : above = place
    · rwa [heq]
    · exact (hplain.upTo (above_dropLast habove heq)).not_isLink
  inside world root hhosts path hpath := by
    have hplain : r.tree.Plain path.dropLast := by
      rcases hpath with hresult | ⟨access, haccess, rfl⟩
      · exact (h.result path hresult).1
      · exact (h.contained access haccess).2
    exact (hhosts.plain hplain).lookup_self

theorem generated_target_contained (faults : Faults) (tree : FileTree FileName) (relative : Bytes) :
    ContainedResolution tree (resolveGeneratedTarget faults tree relative) := by
  unfold resolveGeneratedTarget
  split
  · exact (resolves_stopped tree _).contained_resolution
  · split
    · exact (resolves_stopped tree _).contained_resolution
    · exact (resolveFrom_resolves (stands_of_plain FileTree.plain_nil)).contained_resolution

/-! ### The generated files that the workload reads

The resolver takes `..` in a link for the name before it, the kernel for the parent of the directory
that was reached. The two agree as long as what a link takes back is the name of a directory and not
of a link to one. -/

/-- The file that `prepare_generated_target` makes where there is none. -/
def addFile (tree : FileTree FileName) (place : List FileName) : FileTree FileName where
  node path := if path = place ∧ tree.node path = none then some .file else tree.node path
  root := by simp [tree.root]

/-- The text `hops`, read from `base` with `pending` behind it, is normalised to `target` as the
kernel walks it: it takes back nothing but names of directories, and where it ends the path and asks
for a directory, it leads to one. -/
structure Honest (tree : FileTree FileName) (base : List FileName) (hops : List (Hop FileName))
    (pending target : List FileName) : Prop where
  tidy : Tidy tree MAX_SYMLINKS base hops
  normal : splice base hops = some target
  last : hops.getLast? = some .stay → pending = [] →
    ∃ place, lookupDirectory tree MAX_SYMLINKS [] (target.map .name) = .ok place

/-- Every link on the way of `pending` from `here` has an honest text. -/
inductive Way (tree : FileTree FileName) : List FileName → List FileName → Prop
  | done (here : List FileName) : Way tree here []
  | enter {here pending : List FileName} {component : FileName}
    (hnode : tree.node (here ++ [component]) = some .directory ∨
      tree.node (here ++ [component]) = none)
    (h : Way tree (here ++ [component]) pending) : Way tree here (component :: pending)
  | file {here pending : List FileName} {component : FileName}
    (hnode : tree.node (here ++ [component]) = some .file) : Way tree here (component :: pending)
  | follow {here pending target : List FileName} {component : FileName} {absolute : Bool}
    {hops : List (Hop FileName)}
    (hnode : tree.node (here ++ [component]) = some (.link absolute hops))
    (hhonest : Honest tree (if absolute then [] else here) hops pending target)
    (h : Way tree [] (target ++ pending)) : Way tree here (component :: pending)

section

variable {tree tree' : FileTree FileName} {place resolved pending base target : List FileName}
  {hops : List (Hop FileName)} {faults : Faults} {links : Nat}

theorem Honest.keeps (h : Honest tree base hops pending target) (hkeeps : tree.Keeps tree') :
    Honest tree' base hops pending target := by
  refine ⟨hkeeps.tidy h.tidy, h.normal, fun hstay hnil => ?_⟩
  obtain ⟨place, hplace⟩ := h.last hstay hnil
  obtain ⟨⟨seen, hwalk⟩, hdir⟩ := lookupDirectory_ok.mp hplace
  exact ⟨place, lookupDirectory_ok.mpr ⟨⟨seen, hkeeps.walk hwalk⟩, hkeeps _ _ hdir⟩⟩

theorem Way.grows (h : Way tree resolved pending) (hgrows : tree.Grows tree') :
    Way tree' resolved pending := by
  induction h with
  | done => exact .done _
  | enter hnode _ ih =>
    refine .enter ?_ ih
    rcases hnode with hdir | hnone
    · exact .inl (hgrows.keeps _ _ hdir)
    · rcases hgrows _ with hsame | ⟨-, hdir⟩
      · exact .inr (hsame.trans hnone)
      · exact .inl hdir
  | file hnode => exact .file (hgrows.keeps _ _ hnode)
  | follow hnode hhonest _ ih =>
    exact .follow (hgrows.keeps _ _ hnode) (hhonest.keeps hgrows.keeps) ih

theorem Way.inner {component : FileName} (h : Way tree resolved (component :: pending))
    (hinner : tree.node (resolved ++ [component]) = some .directory ∨
      tree.node (resolved ++ [component]) = none) : Way tree (resolved ++ [component]) pending := by
  cases h with
  | enter _ h => exact h
  | file hnode => rcases hinner with hinner | hinner <;> cases hinner.symm.trans hnode
  | follow hnode => rcases hinner with hinner | hinner <;> cases hinner.symm.trans hnode

theorem keeps_addFile (tree : FileTree FileName) (place : List FileName) :
    tree.Keeps (addFile tree place) := by
  intro path node hnode
  refine (if_neg fun hc => ?_).trans hnode
  cases hc.2.symm.trans hnode

/-- An honest text leads where its normal form leads. -/
theorem Honest.lookup_eq (h : Honest tree base hops pending target) (hbase : tree.Plain base)
    (hlookup : lookup tree links [] ((target ++ pending).map .name) = .ok place) :
    lookup tree links base (hops ++ pending.map .name) = .ok place := by
  have hwalk := lookup_ok.mp hlookup
  rw [map_append] at hwalk
  have hroot : tree.Plain ([] ++ base) := hbase
  rw [← nil_append base, ← hroot.lookup_eq, lookup_ok]
  refine h.tidy.walk h.normal (fun hstay hnil => ?_) hwalk
  obtain rfl := map_eq_nil_iff.mp hnil
  obtain ⟨found, hfound⟩ := h.last hstay rfl
  obtain ⟨⟨seen, hdirect⟩, hdir⟩ := lookupDirectory_ok.mp hfound
  rw [map_nil, append_nil] at hwalk
  obtain ⟨seen', hwalk⟩ := hwalk
  rwa [(hwalk.unique hdirect).1]

/-- A resolution whose way is honest ends where the kernel does. -/
def KernelReaches (links : Nat) (tree : FileTree FileName) (resolved pending : List FileName)
    (r : Resolution (List FileName)) : Prop :=
  (pending ≠ [] → tree.Plain resolved) → Way tree resolved pending → ∀ place, r.result = .ok place →
    tree.Grows r.tree ∧ lookup (addFile r.tree place) links resolved (pending.map .name) = .ok place

/-- The next directory is entered, where it stood or was made. -/
theorem KernelReaches.enter {component : FileName} {r : Resolution (List FileName)}
    (h : KernelReaches links tree' (resolved ++ [component]) pending r)
    (hplain : tree.Plain resolved) (hgrows : tree.Grows tree')
    (hnode : tree'.node (resolved ++ [component]) = some .directory)
    (hway : Way tree' (resolved ++ [component]) pending) (hplace : r.result = .ok place) :
    tree.Grows r.tree ∧
      lookup (addFile r.tree place) links resolved ((component :: pending).map .name) = .ok place := by
  have hinner := FileTree.plain_concat.mpr ⟨hplain.keeps hgrows.keeps, hnode⟩
  obtain ⟨hmore, hlookup⟩ := h (fun _ => hinner) hway place hplace
  refine ⟨hgrows.trans hmore, ?_⟩
  rw [map_cons, lookup_enter (keeps_addFile _ _ _ _ (hmore.keeps _ _ hnode)), hlookup]

/-- The last component is a file, or becomes one. -/
theorem resolveWalk_last {follow : Follow} {component : FileName}
    (hfile : resolved ++ [component] = place → (addFile tree place).node place = some .file)
    (hempty : pending.isEmpty = true)
    (hplace : (resolveWalk faults follow tree (resolved ++ [component]) pending).result = .ok place) :
    let r := resolveWalk faults follow tree (resolved ++ [component]) pending
    tree.Grows r.tree ∧
      lookup (addFile r.tree place) links resolved ((component :: pending).map .name) = .ok place := by
  obtain rfl := List.isEmpty_iff.mp hempty
  cases hplace
  exact ⟨.refl tree, (Walk.file (hfile rfl)).lookup_eq⟩

theorem resolveWalk_reaches {follow : Follow}
    (hfollow : ∀ {tree : FileTree FileName} {resolved : List FileName} {component : FileName} {absolute : Bool}
      {target : List (Hop FileName)} {pending : List FileName},
      tree.node (resolved ++ [component]) = some (.link absolute target) →
      KernelReaches links tree resolved (component :: pending)
      (follow tree resolved component absolute target pending)) :
    KernelReaches links tree resolved pending
      (resolveWalk faults follow tree resolved pending) := by
  induction pending generalizing tree resolved with
  | nil =>
    intro _ _ place hplace
    cases hplace
    exact ⟨.refl tree, lookup_nil⟩
  | cons component pending ih =>
    intro hinside hway place hplace
    have hplain := hinside (cons_ne_nil _ _)
    rw [resolveWalk] at hplace ⊢
    simp only [Resolution.after] at hplace ⊢
    split at hplace
    · cases hplace
    · next hnode => exact hfollow hnode hinside hway place hplace
    · next hnode => exact ih.enter hplain (.refl tree) hnode (hway.inner (.inl hnode)) hplace
    · next hnode =>
      split at hplace
      · next hempty =>
        rw [if_pos hempty]
        exact resolveWalk_last (fun h => keeps_addFile _ _ _ _ (h ▸ hnode)) hempty hplace
      · cases hplace
    · next hnode =>
      split at hplace
      · next hempty =>
        rw [if_pos hempty]
        exact resolveWalk_last (fun h => if_pos ⟨rfl, h ▸ hnode⟩) hempty hplace
      · next hpending =>
        rw [if_neg hpending]
        have hmakes : MakesParent tree (resolved ++ [component]) pending _ :=
          makeParent_makes faults
        split at hplace
        · cases hplace
        · next hresult =>
          rw [hmakes.made _ hresult] at hplace ⊢
          have hgrows := tree.grows_makeDirectory (resolved ++ [component])
          exact ih.enter hplain hgrows (if_pos ⟨rfl, hnode⟩) ((hway.inner (.inr hnode)).grows hgrows)
            hplace

theorem resolveFrom_reaches :
    KernelReaches links tree resolved pending (resolveFrom faults links tree resolved pending) := by
  induction links generalizing tree resolved pending with
  | zero => exact resolveWalk_reaches fun _ _ _ place hplace => by cases hplace
  | succ links ih =>
    refine resolveWalk_reaches fun {tree resolved component absolute hops pending} hnode hinside hway place hplace => ?_
    simp only [Resolution.after] at hplace ⊢
    split at hplace
    · cases hplace
    · cases hplace
    · next htarget =>
      cases hway with
      | enter hnode' _ => rcases hnode' with hnode' | hnode' <;> cases hnode.symm.trans hnode'
      | file hnode' => cases hnode.symm.trans hnode'
      | follow hnode' hhonest hrest =>
        cases hnode.symm.trans hnode'
        cases htarget.symm.trans hhonest.normal
        obtain ⟨hgrows, hlookup⟩ := ih (fun _ => FileTree.plain_nil) hrest place hplace
        have hkeeps : tree.Keeps (addFile _ place) := fun path node h =>
          keeps_addFile _ _ _ _ (hgrows.keeps path node h)
        refine ⟨hgrows, ?_⟩
        rw [map_cons, lookup_follow (hkeeps _ _ hnode)]
        refine (hhonest.keeps hkeeps).lookup_eq ?_ hlookup
        split
        · exact FileTree.plain_nil
        · exact (hinside (cons_ne_nil _ _)).keeps hkeeps

end

theorem splice_of_normal {base : List FileName} {hops : List (Hop FileName)} (h : .up ∉ hops) :
    splice base hops = some (base ++ hops.filterMap hopName) := by
  induction hops generalizing base with
  | nil => simp [splice]
  | cons hop hops ih =>
    have hrest : .up ∉ hops := fun hmem => h (mem_cons_of_mem _ hmem)
    cases hop with
    | up => exact absurd mem_cons_self h
    | stay => exact ih hrest
    | name n =>
      rw [splice, ih hrest]
      simp [hopName]

/-- In every resolution whose target and links are honest, the place that is returned is the one at
which the workload's lookup of the target ends once the generated file is there. -/
theorem generated_target_reached (faults : Faults) (tree : FileTree FileName) (relative : Bytes)
    (place target : List FileName)
    (hok : (resolveGeneratedTarget faults tree relative).result = .ok place)
    (htarget : Honest tree [] (pathHops relative) [] target) (hway : Way tree [] target) :
    lookup (addFile (resolveGeneratedTarget faults tree relative).tree place) MAX_SYMLINKS []
      (pathHops relative) = .ok place := by
  unfold resolveGeneratedTarget at hok ⊢
  split at hok
  · cases hok
  · next habsolute =>
    rw [if_neg habsolute]
    split at hok
    · cases hok
    · next components hcomponents =>
      unfold componentsWithoutRoot at hcomponents
      simp only [bind_ok, stop_ok, pure_ok] at hcomponents
      obtain ⟨_, hup, _, -, rfl⟩ := hcomponents
      have hnames := htarget.normal
      rw [splice_of_normal hup, nil_append, Option.some.injEq] at hnames
      rw [hnames] at hok ⊢
      obtain ⟨hgrows, hlookup⟩ := resolveFrom_reaches (fun _ => FileTree.plain_nil) hway place hok
      have hkeeps := fun path node h => keeps_addFile _ place _ _ (hgrows.keeps path node h)
      have hreach := (htarget.keeps hkeeps).lookup_eq FileTree.plain_nil (by rwa [append_nil])
      rwa [map_nil, append_nil] at hreach

namespace TargetSample

def tree (nodes : List (List FileName × Node FileName)) : FileTree FileName where
  node path := if path.isEmpty then some .directory else nodes.lookup path
  root := rfl

def noFaults : Faults := ⟨fun _ => none, fun _ => none, fun _ => none, fun _ => none, fun _ => none⟩

def hosts : FileName := ⟨[104], by decide⟩
def dir : FileName := ⟨[100], by decide⟩
def inner : FileName := ⟨[101], by decide⟩
def shortcut : FileName := ⟨[115], by decide⟩
def data : FileName := ⟨[120], by decide⟩

/-- `h -> s/e/../x` and `s -> d`, where `d/e` is a directory -/
def through : FileTree FileName :=
  tree [([hosts], .link false [.name shortcut, .name inner, .up, .name data]),
  ([shortcut], .link false [.name dir]), ([dir], .directory), ([dir, inner], .directory)]

/-- `h -> s/../x` and `s -> d/e`, where `d/x` is a file -/
def crossed : FileTree FileName := tree [([hosts], .link false [.name shortcut, .up, .name data]),
  ([shortcut], .link false [.name dir, .name inner]), ([dir], .directory),
    ([dir, inner], .directory),
  ([dir, data], .file)]

theorem through_way : Way through [] [hosts] := by
  have hback : through.Enters MAX_SYMLINKS [shortcut, inner] :=
    ⟨[shortcut], inner, [dir], rfl, by rfl, by rfl⟩
  refine .follow rfl ⟨⟨hback, trivial⟩, rfl, nofun⟩ ?_
  refine .follow rfl ⟨trivial, rfl, nofun⟩ ?_
  exact .enter (.inl rfl) (.enter (.inr rfl) (.done _))

end TargetSample

open TargetSample in
theorem through_target_reached :
    (resolveGeneratedTarget noFaults through [104]).result = .ok [dir, data] ∧
    lookup (addFile (resolveGeneratedTarget noFaults through [104]).tree [dir,
      data]) MAX_SYMLINKS [] (pathHops [104]) = .ok [dir, data] := by
  have hok : (resolveGeneratedTarget noFaults through [104]).result = .ok [dir, data] := by
    decide +kernel
  have htarget : Honest through [] (pathHops [104]) [] [hosts] :=
    ⟨trivial, by decide +kernel, nofun⟩
  exact ⟨hok, generated_target_reached noFaults through [104] [dir,
    data] [hosts] hok htarget through_way⟩

open TargetSample in
/-- The link takes back the name of another link. The resolver returns `x`, and the workload that
opens the target reads `d/x`. -/
theorem crossed_target_missed :
    (resolveGeneratedTarget noFaults crossed [104]).result = .ok [data] ∧
    lookup (addFile (resolveGeneratedTarget noFaults crossed [104]).tree [data]) MAX_SYMLINKS []
      (pathHops [104]) = .ok [dir, data] := by
  decide +kernel

end PocketVm.Guest
