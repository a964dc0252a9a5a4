import Mathlib.Data.List.Basic
import Mathlib.Data.List.Infix

/-!
# Directory trees, symbolic links and mounts

A tree says what stands at each path of names below a root. A lookup walks a path component by
component, follows a bounded number of symbolic links and never leaves the root; a component that
says to stay (a dot, or the slash at the end of a path) asks for a directory. Mounting a tree on a
directory puts it in the place of everything at and below that directory.

A walk depends on the nodes it looks at and on nothing else, so a mount changes only the walks that
look below the directory it is made on, and a node put where nothing was changes no walk that
succeeds.
-/

namespace Vfs

open List

variable {ν : Type}

inductive Hop (ν : Type) where
  | up
  | stay
  | name (n : ν)
  deriving DecidableEq

inductive Node (ν : Type) where
  | directory
  | file
  | link (absolute : Bool) (target : List (Hop ν))
  deriving DecidableEq

/-- What stands at each path of names. The root is a directory. -/
structure FileTree (ν : Type) where
  node : List ν → Option (Node ν)
  root : node [] = some .directory

inductive Failure where
  | notFound
  | notDirectory
  | tooManyLinks
  deriving DecidableEq, Repr

section Lookup

variable (tree : FileTree ν)

/-- A walk up to the first symbolic link. -/
def walk (follow : List ν → List (Hop ν) → Except Failure (List ν)) :
    List ν → List (Hop ν) → Except Failure (List ν)
  | here, [] => .ok here
  | here, .up :: rest => walk follow here.dropLast rest
  | here, .stay :: rest => walk follow here rest
  | here, .name n :: rest =>
    match tree.node (here ++ [n]) with
    | none => .error .notFound
    | some .directory => walk follow (here ++ [n]) rest
    | some .file => if rest.isEmpty then .ok (here ++ [n]) else .error .notDirectory
    | some (.link absolute target) => follow (if absolute then [] else here) (target ++ rest)

/-- What a path leads to from `here`, with so many links to follow. -/
def lookup : Nat → List ν → List (Hop ν) → Except Failure (List ν)
  | 0 => walk tree fun _ _ => .error .tooManyLinks
  | links + 1 => walk tree (lookup links)

/-- The lookup of what has to be a directory. -/
def lookupDirectory (links : Nat) (here : List ν) (hops : List (Hop ν)) :
    Except Failure (List ν) := do
  let place ← lookup tree links here hops
  match tree.node place with
  | some .directory => return place
  | _ => throw .notDirectory

/-- A walk that leads to `place`, with the paths it looks at on the way. -/
inductive Walk : Nat → List ν → List (Hop ν) → List ν → List (List ν) → Prop
  | done (links : Nat) (here : List ν) : Walk links here [] here []
  | up {links : Nat} {here place : List ν} {rest : List (Hop ν)} {seen : List (List ν)}
    (h : Walk links here.dropLast rest place seen) : Walk links here (.up :: rest) place seen
  | stay {links : Nat} {here place : List ν} {rest : List (Hop ν)} {seen : List (List ν)}
    (h : Walk links here rest place seen) : Walk links here (.stay :: rest) place seen
  | enter {links : Nat} {here place : List ν} {n : ν} {rest : List (Hop ν)} {seen : List (List ν)}
    (hnode : tree.node (here ++ [n]) = some .directory)
    (h : Walk links (here ++ [n]) rest place seen) :
    Walk links here (.name n :: rest) place ((here ++ [n]) :: seen)
  | file {links : Nat} {here : List ν} {n : ν} (hnode : tree.node (here ++ [n]) = some .file) :
    Walk links here [.name n] (here ++ [n]) [here ++ [n]]
  | follow {links : Nat} {here place : List ν} {n : ν} {rest target : List (Hop ν)}
    {absolute : Bool}
    {seen : List (List ν)} (hnode : tree.node (here ++ [n]) = some (.link absolute target))
    (h : Walk links (if absolute then [] else here) (target ++ rest) place seen) :
    Walk (links + 1) here (.name n :: rest) place ((here ++ [n]) :: seen)

def FileTree.IsLink (tree : FileTree ν) (path : List ν) : Prop :=
  ∃ absolute target, tree.node path = some (.link absolute target)

/-- The last link that a walk follows leaves the steps `left` to be walked from `base`. -/
inductive LastLink : Nat → List ν → List (Hop ν) → List ν → List (Hop ν) → Prop
  | here {links : Nat} {here place : List ν} {n : ν} {rest target : List (Hop ν)} {absolute : Bool}
    {seen : List (List ν)} (hnode : tree.node (here ++ [n]) = some (.link absolute target))
    (h : Walk tree links (if absolute then [] else here) (target ++ rest) place seen)
    (hdirect : ∀ path ∈ seen, ¬tree.IsLink path) :
    LastLink (links + 1) here (.name n :: rest) (if absolute then [] else here) (target ++ rest)
  | up {links : Nat} {here base : List ν} {rest left : List (Hop ν)}
    (h : LastLink links here.dropLast rest base left) : LastLink links here (.up :: rest) base left
  | stay {links : Nat} {here base : List ν} {rest left : List (Hop ν)}
    (h : LastLink links here rest base left) : LastLink links here (.stay :: rest) base left
  | enter {links : Nat} {here base : List ν} {n : ν} {rest left : List (Hop ν)}
    (hnode : tree.node (here ++ [n]) = some .directory)
    (h : LastLink links (here ++ [n]) rest base left) :
    LastLink links here (.name n :: rest) base left
  | follow {links : Nat} {here base : List ν} {n : ν} {rest left target : List (Hop ν)}
    {absolute : Bool} (hnode : tree.node (here ++ [n]) = some (.link absolute target))
    (h : LastLink links (if absolute then [] else here) (target ++ rest) base left) :
    LastLink (links + 1) here (.name n :: rest) base left

variable {tree} {links links' : Nat} {here place place' base : List ν}
  {hops rest left : List (Hop ν)} {seen seen' : List (List ν)}

theorem exists_walk {follow : List ν → List (Hop ν) → Except Failure (List ν)}
    (hfollow : ∀ here hops, follow here hops = .ok place →
      ∃ left seen, links = left + 1 ∧ Walk tree left here hops place seen)
    (h : walk tree follow here hops = .ok place) :
    ∃ seen, Walk tree links here hops place seen := by
  induction hops generalizing here with
  | nil =>
    cases h
    exact ⟨[], .done links _⟩
  | cons hop rest ih =>
    cases hop with
    | up =>
      obtain ⟨seen, hwalk⟩ := ih h
      exact ⟨seen, .up hwalk⟩
    | stay =>
      obtain ⟨seen, hwalk⟩ := ih h
      exact ⟨seen, .stay hwalk⟩
    | name n =>
      simp only [walk] at h
      split at h
      · cases h
      · rename_i hnode
        obtain ⟨seen, hwalk⟩ := ih h
        exact ⟨_, .enter hnode hwalk⟩
      · rename_i hnode
        split at h
        · rename_i hempty
          obtain rfl := isEmpty_iff.mp hempty
          cases h
          exact ⟨_, .file hnode⟩
        · cases h
      · rename_i absolute target hnode
        obtain ⟨left, seen, rfl, hwalk⟩ := hfollow _ _ h
        exact ⟨_, .follow hnode hwalk⟩

theorem walk_of_lookup (h : lookup tree links here hops = .ok place) :
    ∃ seen, Walk tree links here hops place seen := by
  induction links generalizing here hops with
  | zero =>
    refine exists_walk ?_ h
    exact nofun
  | succ links ih =>
    refine exists_walk ?_ h
    intro here hops hfollow
    obtain ⟨seen, hwalk⟩ := ih hfollow
    exact ⟨links, seen, rfl, hwalk⟩

theorem lookup_nil : lookup tree links here [] = .ok here := by
  cases links with
  | zero => rfl
  | succ links => rfl

theorem lookup_enter {n : ν} (h : tree.node (here ++ [n]) = some .directory) :
    lookup tree links here (.name n :: rest) = lookup tree links (here ++ [n]) rest := by
  cases links with
  | zero => simp [lookup, walk, h]
  | succ links => simp [lookup, walk, h]

theorem lookup_follow {n : ν} {target : List (Hop ν)} {absolute : Bool}
    (h : tree.node (here ++ [n]) = some (.link absolute target)) :
    lookup tree (links + 1) here (.name n :: rest) =
      lookup tree links (if absolute then [] else here) (target ++ rest) := by
  simp [lookup, walk, h]

theorem Walk.lookup_eq (h : Walk tree links here hops place seen) :
    lookup tree links here hops = .ok place := by
  induction h with
  | done => exact lookup_nil
  | @up links _ _ _ _ _ ih =>
    rw [← ih]
    cases links <;> rfl
  | @stay links _ _ _ _ _ ih =>
    rw [← ih]
    cases links <;> rfl
  | enter hnode _ ih => rw [lookup_enter hnode, ih]
  | @file links _ _ hnode => cases links <;> simp [lookup, walk, hnode]
  | follow hnode _ ih => rw [lookup_follow hnode, ih]

theorem lookup_ok : lookup tree links here hops = .ok place ↔
    ∃ seen, Walk tree links here hops place seen :=
  ⟨walk_of_lookup, fun ⟨_, h⟩ => h.lookup_eq⟩

theorem lookupDirectory_ok : lookupDirectory tree links here hops = .ok place ↔
    (∃ seen, Walk tree links here hops place seen) ∧ tree.node place = some .directory := by
  rw [← lookup_ok]
  unfold lookupDirectory
  cases lookup tree links here hops with
  | error e => simp [bind, Except.bind]
  | ok found =>
    simp only [bind, Except.bind, Except.ok.injEq]
    split
    · next hnode =>
      refine ⟨fun h => ?_, fun h => by rw [h.1]; rfl⟩
      cases h
      exact ⟨rfl, hnode⟩
    · next hnode =>
      refine ⟨nofun, ?_⟩
      rintro ⟨rfl, hdir⟩
      exact absurd hdir hnode

/-- A path leads to one place, whatever the number of links allowed. -/
theorem Walk.unique (h : Walk tree links here hops place seen)
    (h' : Walk tree links' here hops place' seen') : place = place' ∧ seen = seen' := by
  induction h generalizing links' seen' with
  | done =>
    cases h'
    exact ⟨rfl, rfl⟩
  | up _ ih =>
    cases h' with
    | up h' => exact ih h'
  | stay _ ih =>
    cases h' with
    | stay h' => exact ih h'
  | enter hnode _ ih =>
    cases h' with
    | enter hnode' h' =>
      obtain ⟨rfl, rfl⟩ := ih h'
      exact ⟨rfl, rfl⟩
    | file hnode' => cases hnode.symm.trans hnode'
    | follow hnode' h' => cases hnode.symm.trans hnode'
  | file hnode =>
    cases h' with
    | enter hnode' h' => cases hnode.symm.trans hnode'
    | file => exact ⟨rfl, rfl⟩
    | follow hnode' h' => cases hnode.symm.trans hnode'
  | follow hnode _ ih =>
    cases h' with
    | enter hnode' h' => cases hnode.symm.trans hnode'
    | file hnode' => cases hnode.symm.trans hnode'
    | follow hnode' h' =>
      cases hnode.symm.trans hnode'
      obtain ⟨rfl, rfl⟩ := ih h'
      exact ⟨rfl, rfl⟩

theorem Walk.of_agree {tree' : FileTree ν} (h : Walk tree links here hops place seen)
    (hagree : ∀ path ∈ seen, tree'.node path = tree.node path) :
    Walk tree' links here hops place seen := by
  induction h with
  | done => exact .done _ _
  | up _ ih => exact .up (ih hagree)
  | stay _ ih => exact .stay (ih hagree)
  | enter hnode _ ih =>
    have hhead := hagree _ mem_cons_self
    exact .enter (hhead.trans hnode) (ih fun path hpath => hagree path (mem_cons_of_mem _ hpath))
  | file hnode => exact .file ((hagree _ mem_cons_self).trans hnode)
  | follow hnode _ ih =>
    have hhead := hagree _ mem_cons_self
    exact .follow (hhead.trans hnode) (ih fun path hpath => hagree path (mem_cons_of_mem _ hpath))

theorem Walk.node_ne_none (h : Walk tree links here hops place seen) :
    ∀ path ∈ seen, tree.node path ≠ none := by
  induction h with
  | done => exact fun _ hpath => absurd hpath not_mem_nil
  | up _ ih => exact ih
  | stay _ ih => exact ih
  | enter hnode _ ih => exact forall_mem_cons.mpr ⟨by simp [hnode], ih⟩
  | file hnode => exact forall_mem_cons.mpr ⟨by simp [hnode], by simp⟩
  | follow hnode _ ih => exact forall_mem_cons.mpr ⟨by simp [hnode], ih⟩

/-- The place has been looked at, unless it is the root or the walk started below it. -/
theorem Walk.prefix_place (h : Walk tree links here hops place seen) :
    place <+: here ∨ place ∈ seen := by
  induction h with
  | done => exact .inl (prefix_refl _)
  | up _ ih => exact ih.imp_left fun h => h.trans (List.dropLast_prefix _)
  | stay _ ih => exact ih
  | enter _ _ ih =>
    rcases ih with h | h
    · rcases prefix_concat_iff.mp h with h | h
      · exact .inr (h ▸ mem_cons_self)
      · exact .inl h
    · exact .inr (mem_cons_of_mem _ h)
  | file => exact .inr mem_cons_self
  | @follow _ _ _ _ _ _ absolute _ _ _ ih =>
    rcases ih with h | h
    · cases absolute with
      | true => exact .inl (h.trans List.nil_prefix)
      | false => exact .inl h
    · exact .inr (mem_cons_of_mem _ h)

/-- Where a path leads if it meets no link, by its text alone. -/
def spell : List ν → List (Hop ν) → List ν
  | here, [] => here
  | here, .up :: rest => spell here.dropLast rest
  | here, .stay :: rest => spell here rest
  | here, .name n :: rest => spell (here ++ [n]) rest

theorem spell_names (here names : List ν) : spell here (names.map .name) = here ++ names := by
  induction names generalizing here with
  | nil => exact (append_nil _).symm
  | cons n names ih => rw [map_cons, spell, ih, append_assoc, singleton_append]

theorem Walk.spelled (h : Walk tree links here hops place seen)
    (hdirect : ∀ path ∈ seen, ¬tree.IsLink path) : place = spell here hops := by
  induction h with
  | done => rfl
  | up _ ih => exact ih hdirect
  | stay _ ih => exact ih hdirect
  | enter _ _ ih => exact ih (forall_mem_cons.mp hdirect).2
  | file => rfl
  | follow hnode _ _ => exact absurd ⟨_, _, hnode⟩ (forall_mem_cons.mp hdirect).1

/-- A walk meets no link, or it ends where the last link that it follows spells. -/
theorem Walk.direct_or_lastLink (h : Walk tree links here hops place seen) :
    (∀ path ∈ seen, ¬tree.IsLink path) ∨
      ∃ base left, LastLink tree links here hops base left ∧ place = spell base left := by
  have hnot : ∀ {path : List ν} {node : Node ν}, tree.node path = some node →
      (∀ absolute target, node ≠ .link absolute target) → ¬tree.IsLink path := by
    rintro path node hnode hne ⟨absolute, target, hlink⟩
    exact hne absolute target (Option.some.inj (hnode.symm.trans hlink))
  induction h with
  | done => exact .inl (by simp)
  | up _ ih => exact ih.imp_right fun ⟨base, left, hlast, hplace⟩ => ⟨base, left, .up hlast, hplace⟩
  | stay _ ih =>
    exact ih.imp_right fun ⟨base, left, hlast, hplace⟩ => ⟨base, left, .stay hlast, hplace⟩
  | enter hnode _ ih =>
    rcases ih with hdirect | ⟨base, left, hlast, hplace⟩
    · exact .inl (forall_mem_cons.mpr ⟨hnot hnode nofun, hdirect⟩)
    · exact .inr ⟨base, left, .enter hnode hlast, hplace⟩
  | file hnode => exact .inl (forall_mem_cons.mpr ⟨hnot hnode nofun, by simp⟩)
  | follow hnode h ih =>
    rcases ih with hdirect | ⟨base, left, hlast, hplace⟩
    · exact .inr ⟨_, _, .here hnode h hdirect, h.spelled hdirect⟩
    · exact .inr ⟨base, left, .follow hnode hlast, hplace⟩

theorem LastLink.exists_walk (h : LastLink tree links here hops base left) :
    ∃ seen, Walk tree links here hops (spell base left) seen := by
  induction h with
  | here hnode h hdirect => exact ⟨_, .follow hnode (h.spelled hdirect ▸ h)⟩
  | up _ ih => exact ih.imp fun _ h => .up h
  | stay _ ih => exact ih.imp fun _ h => .stay h
  | enter hnode _ ih => exact ⟨_, .enter hnode ih.choose_spec⟩
  | follow hnode _ ih => exact ⟨_, .follow hnode ih.choose_spec⟩

end Lookup

/-! ### Trees with more in them -/

section Keeps

variable {tree tree' tree'' : FileTree ν} {links : Nat} {here place path : List ν}
  {hops : List (Hop ν)} {seen : List (List ν)}

/-- What stands in the first tree stands in the second. -/
def FileTree.Keeps (tree tree' : FileTree ν) : Prop :=
  ∀ path node, tree.node path = some node → tree'.node path = some node

theorem FileTree.Keeps.walk (h : tree.Keeps tree') (hwalk : Walk tree links here hops place seen) :
    Walk tree' links here hops place seen := by
  refine hwalk.of_agree fun path hpath => ?_
  obtain ⟨node, hnode⟩ := Option.ne_none_iff_exists'.mp (hwalk.node_ne_none path hpath)
  rw [hnode, h path node hnode]

/-- Directories have been made in a tree, where there was nothing. -/
def FileTree.Grows (tree tree' : FileTree ν) : Prop :=
  ∀ path, tree'.node path = tree.node path ∨
    tree.node path = none ∧ tree'.node path = some .directory

theorem FileTree.Grows.refl (tree : FileTree ν) : tree.Grows tree := fun _ => .inl rfl

theorem FileTree.Grows.trans (h : tree.Grows tree') (h' : tree'.Grows tree'') :
    tree.Grows tree'' := by
  intro path
  have hfirst := h path
  have hthen := h' path
  grind

theorem FileTree.Grows.keeps (h : tree.Grows tree') : tree.Keeps tree' := by
  intro path node hnode
  rcases h path with hsame | ⟨hnone, -⟩
  · rw [hsame, hnode]
  · cases hnone.symm.trans hnode

theorem FileTree.Grows.isLink_iff (h : tree.Grows tree') : tree'.IsLink path ↔
    tree.IsLink path := by
  refine ⟨?_, fun ⟨absolute, target, hlink⟩ => ⟨absolute, target, h.keeps _ _ hlink⟩⟩
  rintro ⟨absolute, target, hlink⟩
  rcases h path with hsame | ⟨-, hdir⟩
  · exact ⟨absolute, target, hsame ▸ hlink⟩
  · cases hdir.symm.trans hlink

/-- `mkdir`: one more directory, where nothing is. -/
def FileTree.makeDirectory [DecidableEq ν] (tree : FileTree ν) (place : List ν) : FileTree ν where
  node path := if path = place ∧ tree.node path = none then some .directory else tree.node path
  root := by simp [tree.root]

theorem FileTree.grows_makeDirectory [DecidableEq ν] (tree : FileTree ν) (place : List ν) :
    tree.Grows (tree.makeDirectory place) := by
  intro path
  by_cases h : path = place ∧ tree.node path = none
  · exact .inr ⟨h.2, if_pos h⟩
  · exact .inl (if_neg h)

/-- Everything on the way to `path`, and `path`, is a directory. -/
def FileTree.Plain (tree : FileTree ν) (path : List ν) : Prop :=
  ∀ above, above <+: path → tree.node above = some .directory

theorem FileTree.plain_nil : tree.Plain [] := by
  intro above habove
  rw [prefix_nil.mp habove]
  exact tree.root

theorem FileTree.Plain.upTo {path' : List ν} (h : tree.Plain path) (hp : path' <+: path) :
    tree.Plain path' :=
  fun above habove => h above (habove.trans hp)

theorem FileTree.Plain.node_eq (h : tree.Plain path) : tree.node path = some .directory :=
  h path prefix_rfl

theorem FileTree.Plain.not_isLink (h : tree.Plain path) : ¬tree.IsLink path := by
  rintro ⟨absolute, target, hlink⟩
  cases h.node_eq.symm.trans hlink

theorem FileTree.Plain.keeps (h : tree.Plain path) (hkeeps : tree.Keeps tree') : tree'.Plain path :=
  fun above habove => hkeeps above _ (h above habove)

theorem FileTree.plain_concat {n : ν} :
    tree.Plain (path ++ [n]) ↔ tree.Plain path ∧ tree.node (path ++ [n]) = some .directory := by
  constructor
  · intro h
    exact ⟨h.upTo (prefix_append _ _), h.node_eq⟩
  · rintro ⟨h, hnode⟩ above habove
    rcases prefix_concat_iff.mp habove with rfl | habove
    · exact hnode
    · exact h above habove

theorem FileTree.Plain.lookup_eq {names : List ν} {rest : List (Hop ν)}
    (h : tree.Plain (here ++ names)) :
    lookup tree links here (names.map .name ++ rest) = lookup tree links (here ++ names) rest := by
  induction names generalizing here with
  | nil => rw [map_nil, nil_append, append_nil]
  | cons n names ih =>
    have hassoc : here ++ n :: names = here ++ [n] ++ names := by simp
    rw [hassoc] at h ⊢
    rw [← ih h, map_cons, cons_append, lookup_enter (h.upTo (prefix_append _ _)).node_eq]

theorem FileTree.Plain.lookup_self {names : List ν} (h : tree.Plain names) :
    lookup tree links [] (names.map .name) = .ok names := by
  have hnames : tree.Plain ([] ++ names) := h
  rw [← append_nil (names.map Hop.name), hnames.lookup_eq, lookup_nil]
  rfl

end Keeps

/-! ### Paths that are normalised by their text -/

section Normal

variable {tree tree' : FileTree ν} {links most : Nat} {here place base : List ν}
  {hops front rest : List (Hop ν)} {seen : List (List ν)}

/-- A stay can be put in anywhere, also at the end of a path that leads to a directory. -/
theorem Walk.insert_stay (h : Walk tree links here hops place seen) (hhops : hops = front ++ rest)
    (hrest : rest = [] → tree.node place = some .directory) :
    Walk tree links here (front ++ .stay :: rest) place seen := by
  induction h generalizing front with
  | done =>
    obtain ⟨rfl, rfl⟩ := append_eq_nil_iff.mp hhops.symm
    exact .stay (.done _ _)
  | up h ih =>
    rcases cons_eq_append_iff.mp hhops with ⟨rfl, rfl⟩ | ⟨front, rfl, heq⟩
    · exact .stay (.up h)
    · exact .up (ih heq hrest)
  | stay h ih =>
    rcases cons_eq_append_iff.mp hhops with ⟨rfl, rfl⟩ | ⟨front, rfl, heq⟩
    · exact .stay (.stay h)
    · exact .stay (ih heq hrest)
  | enter hnode h ih =>
    rcases cons_eq_append_iff.mp hhops with ⟨rfl, rfl⟩ | ⟨front, rfl, heq⟩
    · exact .stay (.enter hnode h)
    · exact .enter hnode (ih heq hrest)
  | file hnode =>
    rcases cons_eq_append_iff.mp hhops with ⟨rfl, rfl⟩ | ⟨front, rfl, heq⟩
    · exact .stay (.file hnode)
    · cases hnode.symm.trans (hrest (append_eq_nil_iff.mp heq.symm).2)
  | follow hnode h ih =>
    rcases cons_eq_append_iff.mp hhops with ⟨rfl, rfl⟩ | ⟨front, rfl, rfl⟩
    · exact .stay (.follow hnode h)
    · have hrest := ih (append_assoc _ _ _).symm hrest
      exact .follow hnode (by rwa [append_assoc] at hrest)

/-- A step into a directory and back can be put in. -/
theorem Walk.insert_back {back : List ν} {met : List (List ν)} {n : ν}
    (hfront : Walk tree most here front back met) (hback : tree.node back = some .directory)
    (hn : tree.node (back ++ [n]) = some .directory)
    (h : Walk tree links here (front ++ rest) place seen) :
    ∃ seen, Walk tree links here (front ++ .name n :: .up :: rest) place seen := by
  induction hfront generalizing links seen with
  | done => exact ⟨_, .enter hn (.up (by rwa [dropLast_concat]))⟩
  | up _ ih =>
    cases h with
    | up h => exact (ih hback hn h).imp fun _ h => .up h
  | stay _ ih =>
    cases h with
    | stay h => exact (ih hback hn h).imp fun _ h => .stay h
  | enter hnode _ ih =>
    rw [cons_append] at h
    generalize hrest : _ ++ rest = all at h
    cases h with
    | enter _ h => exact ⟨_, .enter hnode (ih hback hn (hrest ▸ h)).choose_spec⟩
    | file hnode' => cases hnode.symm.trans hnode'
    | follow hnode' _ => cases hnode.symm.trans hnode'
  | file hnode => cases hnode.symm.trans hback
  | follow hnode _ ih =>
    rw [cons_append] at h
    generalize hrest : _ ++ rest = all at h
    cases h with
    | enter hnode' _ => cases hnode.symm.trans hnode'
    | file hnode' => cases hnode.symm.trans hnode'
    | follow hnode' h =>
      cases hnode.symm.trans hnode'
      rw [← hrest, ← append_assoc] at h
      obtain ⟨seen, h⟩ := ih hback hn h
      exact ⟨_, .follow hnode (by rwa [append_assoc] at h)⟩

/-- The names that a path leaves behind when every `up` takes back the name before it; `none` where
it takes back more than there is. -/
def splice (base : List ν) : List (Hop ν) → Option (List ν)
  | [] => some base
  | .up :: rest => if base.isEmpty then none else splice base.dropLast rest
  | .stay :: rest => splice base rest
  | .name n :: rest => splice (base ++ [n]) rest

/-- The last name of `path` is that of a directory, in the directory that the names before it lead
to. -/
def FileTree.Enters (tree : FileTree ν) (most : Nat) (path : List ν) : Prop :=
  ∃ parent n back, path = parent ++ [n] ∧
    lookupDirectory tree most [] (parent.map .name) = .ok back ∧
    tree.node (back ++ [n]) = some .directory

/-- Every `up` takes back the name of a directory. -/
def Tidy (tree : FileTree ν) (most : Nat) (base : List ν) : List (Hop ν) → Prop
  | [] => True
  | .up :: rest => tree.Enters most base ∧ Tidy tree most base.dropLast rest
  | .stay :: rest => Tidy tree most base rest
  | .name n :: rest => Tidy tree most (base ++ [n]) rest

theorem FileTree.Keeps.tidy (hkeeps : tree.Keeps tree') (h : Tidy tree most base hops) :
    Tidy tree' most base hops := by
  induction hops generalizing base with
  | nil => trivial
  | cons hop hops ih =>
    cases hop with
    | up =>
      obtain ⟨⟨parent, n, back, rfl, hback, hn⟩, hrest⟩ := h
      obtain ⟨⟨seen, hwalk⟩, hdir⟩ := lookupDirectory_ok.mp hback
      exact ⟨⟨parent, n, back, rfl, lookupDirectory_ok.mpr ⟨⟨seen, hkeeps.walk hwalk⟩, hkeeps _ _ hdir⟩,
        hkeeps _ _ hn⟩, ih hrest⟩
    | stay => exact ih h
    | name n => exact ih h

/-- A tidy path leads where it leads once it is normalised. -/
theorem Tidy.walk {target : List ν} (h : Tidy tree most base hops)
    (htarget : splice base hops = some target)
    (hlast : hops.getLast? = some .stay → rest = [] → tree.node place = some .directory)
    (hwalk : ∃ seen, Walk tree links [] (target.map .name ++ rest) place seen) :
    ∃ seen, Walk tree links [] (base.map .name ++ (hops ++ rest)) place seen := by
  induction hops generalizing base with
  | nil =>
    obtain rfl := Option.some.inj htarget
    exact hwalk
  | cons hop hops ih =>
    have htail : hops.getLast? = some .stay → rest = [] → tree.node place = some .directory := by
      intro hstay
      refine hlast ?_
      rw [getLast?_cons, hstay]
      rfl
    cases hop with
    | up =>
      rw [splice] at htarget
      split at htarget
      · cases htarget
      · obtain ⟨⟨parent, n, back, rfl, hback, hn⟩, hrest⟩ := h
        rw [dropLast_concat] at htarget hrest
        obtain ⟨seen, hwalk⟩ := ih hrest htarget htail
        obtain ⟨⟨met, hmet⟩, hdir⟩ := lookupDirectory_ok.mp hback
        simpa using hmet.insert_back hdir hn hwalk
    | stay =>
      obtain ⟨seen, hwalk⟩ := ih h htarget htail
      refine ⟨seen, hwalk.insert_stay rfl fun hnil => ?_⟩
      obtain ⟨rfl, rfl⟩ := append_eq_nil_iff.mp hnil
      exact hlast rfl rfl
    | name n =>
      have hrest : Tidy tree most (base ++ [n]) hops := h
      simpa using ih hrest htarget htail

end Normal

/-! ### Mounts -/

/-- `path` lies below the directory `place`, and is not the directory itself. -/
def Below (place path : List ν) : Prop := place <+: path ∧ path ≠ place

section Graft

variable [DecidableEq ν]

def FileTree.graft (tree : FileTree ν) (place : List ν) (share : FileTree ν) : FileTree ν where
  node path := if place <+: path then share.node (path.drop place.length) else tree.node path
  root := by
    split
    · rw [drop_nil]
      exact share.root
    · exact tree.root

variable {tree share : FileTree ν} {place path : List ν}

theorem graft_node_outside (h : ¬place <+: path) :
    (tree.graft place share).node path = tree.node path :=
  if_neg h

theorem graft_node_inside (h : place <+: path) :
    (tree.graft place share).node path = share.node (path.drop place.length) :=
  if_pos h

theorem graft_node_self : (tree.graft place share).node place = some .directory := by
  rw [graft_node_inside (prefix_refl _), drop_length]
  exact share.root

theorem graft_node_of_not_below (hplace : tree.node place = some .directory)
    (h : ¬Below place path) :
    (tree.graft place share).node path = tree.node path := by
  by_cases hleading : place <+: path
  · have hsame : path = place := by
      by_contra hne
      exact h ⟨hleading, hne⟩
    rw [hsame, graft_node_self, hplace]
  · exact graft_node_outside hleading

def FileTree.empty : FileTree ν where
  node path := if path = [] then some .directory else none
  root := rfl

theorem graft_empty_node (h : Below place path) :
    (tree.graft place FileTree.empty).node path = none := by
  rw [graft_node_inside h.1]
  refine if_neg fun hdrop => h.2 ?_
  obtain ⟨rest, rfl⟩ := h.1
  rw [drop_left] at hdrop
  rw [hdrop, append_nil]

end Graft

end Vfs
