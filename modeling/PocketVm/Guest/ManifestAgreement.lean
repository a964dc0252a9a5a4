import Mathlib.Algebra.BigOperators.Group.List.Basic
import PocketVm.Guest.ManifestWalk

/-!
# The two walks agree

The builder's walk sends its entries in chunks, the validator's hashes them one by one. Over one
tree they find the same manifest, in whatever order each is shown the directories and attributes, or
both fail.
-/

namespace PocketVm.Guest

open Wire Checked Protocol Mutating List

/-! ### The order of a listing -/

/-- The numbers by which a file is known to be another's link, under other names. -/
def Metadata.renamed (rename : UInt64 × UInt64 → UInt64 × UInt64) (m : Metadata) : Metadata :=
  { m with dev := (rename m.key).1, ino := (rename m.key).2 }

/-- One tree, as two walks see it: the order of names may differ, and the device has a number of its
own in each machine. -/
structure Filesystem.SameTree (rename : UInt64 × UInt64 → UInt64 × UInt64)
    (fs fs' : Filesystem) : Prop where
  injective : Function.Injective rename
  symlinkMetadata : ∀ path, fs'.symlinkMetadata path = (fs.symlinkMetadata path).map
    (Metadata.renamed rename)
  readLink : fs'.readLink = fs.readLink
  readFile : fs'.readFile = fs.readFile
  lgetxattr : fs'.lgetxattr = fs.lgetxattr
  readDir : ∀ path, Related List.Perm (fs.readDir path) (fs'.readDir path)
  llistxattr : ∀ path, Related List.Perm (fs.llistxattr path) (fs'.llistxattr path)

theorem add64_eq_some {a b c : Nat} : add64 a b = some c ↔ a + b < 2 ^ 64 ∧ a + b = c := by
  unfold add64
  by_cases h : a + b < 2 ^ 64
  · rw [if_pos h, Option.some.injEq]
    exact ⟨fun hc => ⟨h, hc⟩, fun hc => hc.2⟩
  · rw [if_neg h]
    exact ⟨nofun, fun hc => absurd hc.1 h⟩

theorem Filesystem.SameTree.metadata {rename : UInt64 × UInt64 → UInt64 × UInt64}
    {fs fs' : Filesystem}
    (h : fs.SameTree rename fs') (path : Bytes) :
    Related (fun m m' => m' = Metadata.renamed rename m)
      ((fs.symlinkMetadata path).mapError WalkError.io)
        ((fs'.symlinkMetadata path).mapError WalkError.io) := by
  rw [h.symlinkMetadata path]
  cases fs.symlinkMetadata path with
  | error e => exact .failed
  | ok m => exact .ok rfl

theorem lookup_map_injective {α β : Type} [BEq α] [LawfulBEq α] {f : α → α}
    (hf : Function.Injective f) (key : α)
    (l : List (α × β)) : (l.map (Prod.map f id)).lookup (f key) = l.lookup key := by
  induction l with
  | nil => rfl
  | cons entry l ih =>
    have hkey : (f key == f entry.1) = (key == entry.1) := by
      rw [Bool.eq_iff_iff, beq_iff_eq, beq_iff_eq, hf.eq_iff]
    rw [map_cons, lookup_cons, lookup_cons, ih, Prod.map_fst, Prod.map_snd, hkey]
    rfl

/-- The limits differ at most in the size of a chunk. -/
def Alike (limits limits' : ManifestLimits) : Prop := ∃ maxChunkBytes,
    limits' = { limits with maxChunkBytes }

theorem Alike.symm {limits limits' : ManifestLimits} (h : Alike limits limits') :
    Alike limits' limits := by
  obtain ⟨n, rfl⟩ := h
  exact ⟨limits.maxChunkBytes, rfl⟩

/-! ### Directories -/

section

variable {words words' : Wording} {limits limits' : ManifestLimits} {entryCount : Nat}

def namesOf (listing : List (Except Errno Bytes)) : List Bytes := listing.filterMap Except.toOption

def Regular (name : Bytes) :
    Prop := ¬(name.isEmpty ∨ name.contains 0 ∨ name = [46] ∨ name = [46, 46])

variable {r names names' : List Bytes} {listing listing' : List (Except Errno Bytes)}

/-- A listing is taken as a whole or not at all: which names it holds, how many and how long they
are together decides, and not their order. -/
theorem collectChildren_ok {children : List Bytes} {bytes : Nat}
    (hb : bytes ≤ limits.maxDirectoryNameBytes.toNat) :
    collectChildren words limits entryCount children bytes listing = .ok r ↔
      (∀ c ∈ listing, ∃ name, c = .ok name ∧ Regular name) ∧
      bytes + ((namesOf listing).map List.length).sum ≤ limits.maxDirectoryNameBytes.toNat ∧
      (listing ≠ [] → children.length + listing.length ≤ limits.maxDirectoryEntries.toNat ∧
        min (entryCount + (children.length + listing.length))
          (2 ^ 64 - 1) ≤ limits.maxEntries.toNat) ∧
      r = children ++ namesOf listing := by
  induction listing generalizing children bytes with
  | nil =>
    simp only [collectChildren, namesOf, Except.ok.injEq, filterMap_nil, map_nil,
      sum_nil, append_nil]
    grind
  | cons c listing ih =>
    cases c with
    | error e => simp [collectChildren, Except.mapError]
    | ok name =>
      have hmax := limits.maxDirectoryNameBytes.toNat_lt
      simp only [collectChildren, bind_ok, mapError_ok, stop_ok, require_ok, add64_eq_some,
        Except.ok.injEq]
      have hnames : namesOf (.ok name :: listing) = name :: namesOf listing := rfl
      rw [hnames, map_cons, sum_cons, forall_mem_cons, length_cons]
      constructor
      · rintro ⟨_, rfl, _, hname, _, ⟨-, rfl⟩, _, hbytes, _, hdir, _, hall, h⟩
        obtain ⟨hnames, htotal, hcount, rfl⟩ := (ih (Nat.le_of_not_lt hbytes)).mp h
        rw [length_append, length_singleton] at hdir hall hcount
        refine ⟨⟨⟨name, rfl, hname⟩, hnames⟩, by omega, fun _ => ?_, by simp⟩
        cases listing with
        | nil => exact ⟨Nat.le_of_not_lt hdir, Nat.le_of_not_lt hall⟩
        | cons c' rest =>
          have := hcount (cons_ne_nil _ _)
          rwa [Nat.add_assoc, Nat.add_comm 1] at this
      · rintro ⟨⟨⟨_, ⟨⟩, hname⟩, hnames⟩, htotal, hcount, rfl⟩
        obtain ⟨hdir, hall⟩ := hcount (cons_ne_nil _ _)
        refine ⟨name, rfl, ⟨⟩, hname, _, ⟨by omega, rfl⟩,
          ⟨⟩, by omega, ⟨⟩, ?_, ⟨⟩, ?_, (ih (by omega)).mpr ⟨hnames, by omega, ?_, by simp⟩⟩
        · rw [length_append, length_singleton]
          omega
        · rw [length_append, length_singleton]
          omega
        · intro _
          rw [length_append, length_singleton]
          omega

theorem collectChildren_of_perm (hl : Alike limits limits')
    (h : listing.Perm listing')
    (hr : collectChildren words limits entryCount [] 0 listing = .ok r) :
    ∃ r', collectChildren words' limits' entryCount [] 0 listing' = .ok r' ∧ r.Perm r' := by
  obtain ⟨n, rfl⟩ := hl
  obtain ⟨hall, hbytes, hcount, rfl⟩ := (collectChildren_ok (Nat.zero_le _)).mp hr
  have hnames : (namesOf listing).Perm (namesOf listing') := h.filterMap _
  refine ⟨_, (collectChildren_ok (Nat.zero_le _)).mpr ⟨?_, ?_, ?_, rfl⟩, hnames⟩
  · intro c hc
    exact hall c (h.mem_iff.mpr hc)
  · rwa [← (hnames.map List.length).sum_eq]
  · intro hne
    rw [← h.length_eq]
    exact hcount fun hnil => hne (nil_perm.mp (hnil ▸ h))

theorem collectChildren_perm (hl : Alike limits limits') (h : listing.Perm listing') :
    Related List.Perm (collectChildren words limits entryCount [] 0 listing)
      (collectChildren words' limits' entryCount [] 0 listing') := by
  refine .of_ok (fun _ hr => collectChildren_of_perm hl h hr) fun _ hr => ?_
  obtain ⟨r, hr, -⟩ := collectChildren_of_perm hl.symm h.symm hr
  exact ⟨r, hr⟩

theorem sort_perm {α : Type} {name : α → Bytes} {l l' : List α} (h : l.Perm l')
    (hname : ∀ a ∈ l, ∀ b ∈ l, name a = name b → a = b) :
    (l.insertionSort fun left right => name left ≤ name right) = l'.insertionSort fun left right =>
      name left ≤ name right := by
  refine List.Perm.eq_of_pairwise (fun a b ha hb hab hba => ?_) (pairwise_insertionSort _ _)
    (pairwise_insertionSort _ _) ((perm_insertionSort _ _).trans
      (h.trans (perm_insertionSort _ _).symm))
  exact hname a ((mem_insertionSort _).mp ha) b (h.mem_iff.mpr ((mem_insertionSort _).mp hb))
    (List.le_antisymm hab hba)

/-! ### Extended attributes -/

variable {lgetxattr : Bytes → Except Errno Bytes}

def xattrOf (lgetxattr : Bytes → Except Errno Bytes) (name : Bytes) : ManifestXattr :=
  ⟨name, (lgetxattr name).toOption.getD []⟩

theorem xattrOf_eq {name value : Bytes} (h : lgetxattr name = .ok value) :
    xattrOf lgetxattr name = ⟨name, value⟩ := by
  unfold xattrOf
  rw [h]
  rfl

def xattrBytes (x : ManifestXattr) : Nat := x.name.length + x.value.length

theorem collectXattrs_ok {attributes r : List ManifestXattr} {total : Nat}
    (ht : total ≤ limits.maxXattrBytesPerEntry.toNat) :
    collectXattrs limits lgetxattr attributes total names = .ok r ↔
      (∀ name ∈ names, name ≠ [] ∧ 0 ∉ name ∧ ∃ value, lgetxattr name = .ok value) ∧
      (names ≠ [] → attributes.length + names.length ≤ limits.maxXattrsPerEntry.toNat) ∧
      total + (names.map fun name => xattrBytes (xattrOf lgetxattr name)).sum ≤
        limits.maxXattrBytesPerEntry.toNat ∧
      r = attributes ++ names.map (xattrOf lgetxattr) := by
  induction names generalizing attributes total r with
  | nil =>
    simp only [collectXattrs, Except.ok.injEq, map_nil, sum_nil, append_nil]
    grind
  | cons name names ih =>
    have hmax := limits.maxXattrBytesPerEntry.toNat_lt
    simp only [collectXattrs, bind_ok, mapError_ok, stop_ok, require_ok, Option.bind_eq_some_iff,
      add64_eq_some]
    rw [map_cons, map_cons, sum_cons, forall_mem_cons, length_cons]
    constructor
    · rintro ⟨_, hempty, _, hroom, _, hnul, value, hvalue, _, ⟨_, ⟨-, rfl⟩, -, rfl⟩, _, htotal, h⟩
      have hx := xattrOf_eq hvalue
      obtain ⟨hnames, hcount, hsum, rfl⟩ := (ih (Nat.le_of_not_lt htotal)).mp h
      rw [length_append, length_singleton] at hcount
      rw [hx]
      refine ⟨⟨⟨by simpa using hempty, by simpa using hnul, value, hvalue⟩, hnames⟩,
        fun _ => ?_, ?_, by simp⟩
      · cases names with
        | nil => exact Nat.lt_of_not_le hroom
        | cons name' rest =>
          have := hcount (cons_ne_nil _ _)
          omega
      · show total + (name.length + value.length + _) ≤ _
        omega
    · rintro ⟨⟨⟨hempty, hnul, value, hvalue⟩, hnames⟩, hcount, hsum, rfl⟩
      have hx := xattrOf_eq hvalue
      have hcount := hcount (cons_ne_nil _ _)
      rw [hx] at hsum ⊢
      have hsum : total + (name.length + value.length + (names.map fun name =>
        xattrBytes (xattrOf lgetxattr name)).sum) ≤
        limits.maxXattrBytesPerEntry.toNat := hsum
      have hrest : collectXattrs limits lgetxattr (attributes ++ [⟨name, value⟩])
        (total + name.length + value.length) names =
          .ok (attributes ++ ⟨name, value⟩ :: names.map (xattrOf lgetxattr)) := by
        rw [ih (by omega)]
        refine ⟨hnames, fun _ => ?_, ?_, ?_⟩
        · rw [length_append, length_singleton]
          omega
        · omega
        · simp
      exact ⟨⟨⟩, by simpa using hempty, ⟨⟩, by omega, ⟨⟩, by simpa using hnul, value, hvalue, _,
        ⟨_, ⟨by omega, rfl⟩, by omega, rfl⟩, ⟨⟩, by omega, hrest⟩

theorem collectXattrs_of_perm {r : List ManifestXattr} (hl : Alike limits limits')
    (h : names.Perm names') (hr : collectXattrs limits lgetxattr [] 0 names = .ok r) :
    ∃ r', collectXattrs limits' lgetxattr [] 0 names' = .ok r' ∧ r.Perm r' ∧ ∀ x ∈ r,
      x = xattrOf lgetxattr x.name := by
  obtain ⟨n, rfl⟩ := hl
  obtain ⟨hall, hcount, hsum, rfl⟩ := (collectXattrs_ok (Nat.zero_le _)).mp hr
  refine ⟨_, (collectXattrs_ok (Nat.zero_le _)).mpr ⟨?_, ?_, ?_, rfl⟩, h.map _, ?_⟩
  · intro name hname
    exact hall name (h.mem_iff.mpr hname)
  · intro hne
    rw [← h.length_eq]
    exact hcount fun hnil => hne (nil_perm.mp (hnil ▸ h))
  · rwa [← (h.map fun name => xattrBytes (xattrOf lgetxattr name)).sum_eq]
  · intro x hx
    obtain ⟨name, -, rfl⟩ := mem_map.mp hx
    rfl

theorem xattrBuffer_eq {names : List CName} (h : names ≠ []) :
    xattrBuffer names = [0].intercalate (names.map Subtype.val) ++ [0] := by
  induction names with
  | nil => exact absurd rfl h
  | cons name names ih =>
    cases names with
    | nil => simp [xattrBuffer]
    | cons name' rest =>
      have := ih (cons_ne_nil _ _)
      simp only [xattrBuffer, flatMap_cons, map_cons, intercalate_cons_cons] at this ⊢
      rw [this]
      simp

theorem split_xattrBuffer {names : List CName} (h : names ≠ []) :
    (xattrBuffer names).dropLast.splitOn 0 = names.map Subtype.val := by
  rw [xattrBuffer_eq h, dropLast_concat]
  refine splitOn_intercalate 0 ?_ (mt map_eq_nil_iff.mp h)
  intro l hl
  obtain ⟨name, -, rfl⟩ := mem_map.mp hl
  exact name.2

theorem collectXattrs_perm (hl : Alike limits limits') (h : names.Perm names') :
    Related (fun r r' => r.Perm r' ∧ ∀ x ∈ r, x = xattrOf lgetxattr x.name)
      (collectXattrs limits lgetxattr [] 0 names)
        (collectXattrs limits' lgetxattr [] 0 names') := by
  refine .of_ok (fun _ hr => collectXattrs_of_perm hl h hr) fun _ hr => ?_
  obtain ⟨r, hr, -⟩ := collectXattrs_of_perm hl.symm h.symm hr
  exact ⟨r, hr⟩

theorem listXattrs_perm {rename : UInt64 × UInt64 → UInt64 × UInt64} {fs fs' : Filesystem}
    (hl : Alike limits limits') (h : fs.SameTree rename fs') (path : Bytes) :
    Related Eq (listXattrs fs path limits) (listXattrs fs' path limits') := by
  refine (h.llistxattr path).mapError.bind fun names names' hnames => ?_
  have hlen : (xattrBuffer names).length = (xattrBuffer names').length :=
    (hnames.flatMap_right _).length_eq
  dsimp only
  rw [hlen, h.lgetxattr]
  have hmax : limits'.maxXattrsPerEntry = limits.maxXattrsPerEntry ∧
      limits'.maxXattrBytesPerEntry = limits.maxXattrBytesPerEntry := by
    obtain ⟨n, rfl⟩ := hl
    exact ⟨rfl, rfl⟩
  rw [hmax.1, hmax.2]
  refine (Related.stop Iff.rfl).bind fun _ _ _ => ?_
  by_cases hempty : (xattrBuffer names').length = 0
  · rw [if_pos hempty, if_pos hempty]
    exact .ok rfl
  · rw [if_neg hempty, if_neg hempty]
    have hne : names ≠ [] := fun hnil => hempty (hlen ▸ hnil ▸ rfl)
    have hne' : names' ≠ [] := fun hnil => hempty (hnil ▸ rfl)
    rw [split_xattrBuffer hne, split_xattrBuffer hne', xattrBuffer_eq hne, xattrBuffer_eq hne',
      getLast?_concat, getLast?_concat]
    refine (collectXattrs_perm hl (hnames.map _)).bind fun r r' hr =>
      .ok (sort_perm hr.1 fun a ha b hb hab => ?_)
    -- a name has one value
    rw [hr.2 a ha, hr.2 b hb, hab]

end

/-! ### The walk -/

section

variable {κ κ' : Type} {E : κ → Prop} {Q : Nat → κ → κ' → Prop} {sha256 : Bytes → Digest}
  {words words' : Wording}
  {limits limits' : ManifestLimits} {fs fs' : Filesystem}
  {rename : UInt64 × UInt64 → UInt64 × UInt64}

/-- What the walkers share is equal, up to the numbers, and what they make of the entries is
related. -/
structure Together (rename : UInt64 × UInt64 → UInt64 × UInt64) (Q : Nat → κ → κ' → Prop)
    (b : Walker κ) (v : Walker κ') :
    Prop where
  hardlinks : v.hardlinks = b.hardlinks.map (Prod.map rename id)
  hardlinkPathBytes : b.hardlinkPathBytes = v.hardlinkPathBytes
  entryCount : b.entryCount = v.entryCount
  output : Q v.entryCount b.output v.output

def Late (E : κ → Prop) (b : Walker κ) : Prop := E b.output

variable {relative : Bytes} {b : Walker κ} {v : Walker κ'} {metadata : Metadata}

theorem recordHardlink_keeps {key : UInt64 × UInt64} :
    Keeps (Late E) (recordHardlink words limits relative key) := by
  refine Keeps.get.bind fun w => Keeps.check.bind fun _ => Keeps.check.bind fun _ => ?_
  refine Keeps.bind (.modify fun _ h => ?_) fun _ => Keeps.check.bind fun _ => .modify fun _ h => ?_
  · exact h
  · exact h

theorem recordHardlink_inStep {key : UInt64 × UInt64} (hl : Alike limits limits')
    (h : Together rename Q b v) :
    InStep (Late E) (Together rename Q) (recordHardlink words limits relative key)
      (recordHardlink words' limits' relative (rename key)) b v := by
  obtain ⟨n, rfl⟩ := hl
  refine .get_bind ?_
  rw [h.hardlinks, h.hardlinkPathBytes, length_map]
  refine .check_bind (.stop Iff.rfl) fun _ _ _ _ => .check_bind .require fun bytes _ hbytes _ => ?_
  cases hbytes
  refine .modify_bind (.check_bind (.stop Iff.rfl) fun _ _ _ _ => .modify_last ?_)
  exact ⟨congrArg (_ :: ·) h.hardlinks, rfl, h.entryCount, h.output⟩

theorem contentEvidence_keeps :
    Keeps (Late E) (contentEvidence sha256 words limits fs relative metadata) := by
  unfold contentEvidence
  split
  · exact .pure
  · split
    · refine Keeps.get.bind fun w => ?_
      split
      · exact .pure
      · exact recordHardlink_keeps.bind fun _ => Keeps.check.bind fun _ => .pure
    · exact Keeps.check.bind fun _ => .pure

theorem hashRegularFile_same (h : fs.SameTree rename fs') (relative : Bytes) :
    Related Eq (hashRegularFile sha256 fs relative) (hashRegularFile sha256 fs' relative) := by
  unfold hashRegularFile
  rw [h.readFile]
  exact .refl _

theorem contentEvidence_inStep (hl : Alike limits limits') (hfs : fs.SameTree rename fs')
    (h : Together rename Q b v) :
    InStep (Late E) (Together rename Q) (contentEvidence sha256 words limits fs relative metadata)
      (contentEvidence sha256 words' limits' fs' relative (metadata.renamed rename)) b v := by
  unfold contentEvidence
  rw [show (metadata.renamed rename).fileType = metadata.fileType from rfl,
    show (metadata.renamed rename).nlink = metadata.nlink from rfl,
    show (metadata.renamed rename).key = rename metadata.key from rfl]
  have hhash : ∀ {b v}, Together rename Q b v → InStep (Late E) (Together rename Q)
      (do let digest ← check (hashRegularFile sha256 fs relative); pure (some digest, none))
      (do let digest ← check (hashRegularFile sha256 fs' relative); pure (some digest, (none : Option Bytes))) b v := by
    intro b v h
    refine .check_bind (hashRegularFile_same hfs relative) fun digest _ hdigest _ => ?_
    cases hdigest
    exact .pure h
  split
  · exact .pure h
  · split
    · refine .get_bind ?_
      rw [h.hardlinks, lookup_map_injective hfs.injective]
      split
      · exact .pure h
      · exact (recordHardlink_inStep hl h).bind (fun _ b v h => hhash h) fun _ =>
          Keeps.check.bind fun _ => .pure
    · exact hhash h

theorem makeEntry_keeps : Keeps (Late E) (makeEntry sha256 words limits fs relative metadata) :=
  Keeps.check.bind fun _ => Keeps.check.bind fun _ => contentEvidence_keeps.bind fun _ =>
    Keeps.check.bind fun _ =>
    Keeps.check.bind fun _ => Keeps.check.bind fun _ => .pure

theorem makeEntry_inStep (hl : Alike limits limits') (hfs : fs.SameTree rename fs')
    (h : Together rename Q b v) :
    InStep (Late E) (Together rename Q) (makeEntry sha256 words limits fs relative metadata)
      (makeEntry sha256 words' limits' fs' relative (metadata.renamed rename)) b v := by
  refine .check_bind .require fun kind _ hkind _ => ?_
  cases hkind
  have hlink : Related Eq (symlinkTarget fs relative metadata)
    (symlinkTarget fs' relative (metadata.renamed rename)) := by
    unfold symlinkTarget
    rw [hfs.readLink]
    exact .refl _
  refine .check_bind hlink fun target _ htarget _ => ?_
  cases htarget
  refine (contentEvidence_inStep hl hfs h).bind (fun evidence b v h => ?_) fun _ =>
    Keeps.check.bind fun _ =>
    Keeps.check.bind fun _ => Keeps.check.bind fun _ => .pure
  refine .check_bind .require fun nanoseconds _ hnanoseconds _ => ?_
  cases hnanoseconds
  refine .check_bind (listXattrs_perm hl hfs relative) fun xattrs _ hxattrs _ => ?_
  cases hxattrs
  exact .check_bind (.refl _) fun _ _ _ _ => .pure h

/-! ### The directories of a walk -/

variable {push : ManifestEntry → WalkM κ Unit} {push' : ManifestEntry → WalkM κ' Unit}

theorem visit_keeps (hpush : ∀ entry, Keeps (Late E) (push entry)) (relative : Bytes)
    (depth : Nat) :
    Keeps (Late E) (visit sha256 words limits fs push relative depth) := by
  induction hn : limits.maxDepth.toNat + 1 - depth using Nat.strong_induction_on generalizing relative depth with
  | _ n ih =>
    rw [visit]
    split
    · exact .check
    · refine Keeps.check.bind fun _ => Keeps.check.bind fun metadata =>
        makeEntry_keeps.bind fun entry =>
        (hpush entry).bind fun _ => ?_
      split
      · refine Keeps.check.bind fun _ => Keeps.get.bind fun _ => Keeps.check.bind fun _ => ?_
        exact .forM fun child => ih _ (by omega) _ (depth + 1) rfl
      · exact .pure

/-- In whatever order the directories are listed, the walks visit the same paths in the same order. -/
theorem visit_inStep (hl : Alike limits limits') (hfs : fs.SameTree rename fs')
    (hpush : ∀ entry b v, Together rename Q b v →
      InStep (Late E) (Together rename Q) (push entry) (push' entry) b v)
    (hkeeps : ∀ entry, Keeps (Late E) (push entry)) (relative : Bytes) (depth : Nat)
    (h : Together rename Q b v) :
    InStep (Late E) (Together rename Q) (visit sha256 words limits fs push relative depth)
      (visit sha256 words' limits' fs' push' relative depth) b v := by
  have hbounds : limits'.maxDepth = limits.maxDepth ∧
    limits'.maxPathBytes = limits.maxPathBytes := by
    obtain ⟨n, rfl⟩ := hl
    exact ⟨rfl, rfl⟩
  induction hn : limits.maxDepth.toNat + 1 - depth using Nat.strong_induction_on generalizing relative depth b v with
  | _ n ih =>
    rw [visit, visit, hbounds.1, hbounds.2]
    by_cases hdepth : depth > limits.maxDepth.toNat
    · rw [dif_pos hdepth, dif_pos hdepth]
      exact .failed
    rw [dif_neg hdepth, dif_neg hdepth]
    have hlower : ∀ relative depth, Keeps (Late E)
      (visit sha256 words limits fs push relative depth) := visit_keeps hkeeps
    have hrest : ∀ metadata : Metadata, Keeps (Late E) (if metadata.fileType = .dir then do
        let listing ← check ((fs.readDir relative).mapError .io)
        let w ← get
        let children ← check (collectChildren words limits w.entryCount [] 0 listing)
        (children.insertionSort fun left right => left ≤ right).forM fun child =>
          visit sha256 words limits fs push (childRelative relative child) (depth + 1)
      else pure ()) := by
      intro metadata
      split
      · exact Keeps.check.bind fun _ => Keeps.get.bind fun _ => Keeps.check.bind fun _ =>
          .forM fun child => hlower _ (depth + 1)
      · exact .pure
    refine .check_bind (.stop Iff.rfl) fun _ _ _ _ => .check_bind (hfs.metadata relative)
      fun metadata _ hmetadata _ => ?_
    subst hmetadata
    refine (makeEntry_inStep hl hfs h).bind (fun entry b v h => ?_) fun entry =>
      (hkeeps entry).bind fun _ => hrest metadata
    refine (hpush entry b v h).bind (fun _ b v h => ?_) fun _ => hrest metadata
    rw [show (metadata.renamed rename).fileType = metadata.fileType from rfl]
    split
    · refine .check_bind (hfs.readDir relative).mapError
        fun listing listing' hlisting _ => .get_bind ?_
      rw [h.entryCount]
      refine .check_bind (collectChildren_perm hl hlisting) fun children children' hchildren _ => ?_
      rw [sort_perm hchildren fun _ _ _ _ h => h]
      exact .forM h (fun child b v h => ih _ (by omega) _ (depth + 1) h rfl) fun child =>
        hlower _ (depth + 1)
    · exact .pure h

end

/-! ### What becomes of the entries -/

section

open Builder

variable {σ : Type} {entries : Codec ManifestEntry} {limits : ManifestLimits} {streamId : String}
  {emit : ManifestEmitter σ}

/-- The emitter takes every message. -/
def Accepting (emit : ManifestEmitter σ) : Prop := ∀ message emitter,
    (emit message emitter).1 = .ok ()

variable {w w' : Walker (Chunked σ)} {encoded : Bytes} {v : Walker Validator.Hashed}

theorem emitMessage_run {message : BuilderMessage} (hemit : Accepting emit) :
    (emitMessage emit message).run.run w =
      (.ok (), { w with output := { w.output with emitter := (emit message w.output.emitter).2 } }) :=
  Prod.ext (hemit _ _) rfl

def closed (w : Walker (Chunked σ)) (emitter : σ) : Walker (Chunked σ) :=
  { w with output :=
    { w.output with
      emitter
      chunk := []
      chunkEntries := 0
      chunkSequence := w.output.chunkSequence + 1
      byteCount := w.output.byteCount + w.output.chunk.length
      hasher := w.output.hasher ++ w.output.chunk } }

theorem flushChunk_closes (hemit : Accepting emit) (hchunk : w.output.chunk ≠ [])
    (hbytes : w.output.byteCount + w.output.chunk.length ≤ limits.maxTotalBytes.toNat)
    (hsequence : w.output.chunkSequence + 1 < 2 ^ 64) :
    ∃ emitter, (flushChunk limits streamId emit).run.run w = (.ok (), closed w emitter) := by
  have hmax := limits.maxTotalBytes.toNat_lt
  have hbytes' : w.output.byteCount + w.output.chunk.length < 2 ^ 64 := by omega
  constructor
  unfold flushChunk
  rw [run_get_bind, if_neg (by simpa using hchunk), run_modify_bind]
  unfold sendChunk
  rw [run_get_bind, run_check_bind]
  refine ⟨_, require_ok.mpr (add64_eq_some.mpr ⟨hbytes', rfl⟩), ?_⟩
  rw [run_check_bind]
  refine ⟨(), stop_ok.mpr (Nat.not_lt.mpr hbytes), ?_⟩
  rw [run_modify_bind, run_bind_ok]
  refine ⟨(), _, emitMessage_run hemit, ?_⟩
  rw [run_modify_bind, run_check_bind]
  refine ⟨_, require_ok.mpr (add64_eq_some.mpr ⟨hsequence, rfl⟩), ?_⟩
  exact run_modify.mpr rfl

/-- A chunk that exceeds the total is refused, however late it is closed. -/
theorem flushChunk_refuses (hchunk : w.output.chunk ≠ [])
    (hbytes : limits.maxTotalBytes.toNat < w.output.byteCount + w.output.chunk.length) :
    (flushChunk limits streamId emit).run.run w ≠ (.ok (), w') := by
  intro h
  unfold flushChunk at h
  rw [run_get_bind, if_neg (by simpa using hchunk), run_modify_bind] at h
  unfold sendChunk at h
  rw [run_get_bind, run_check_bind] at h
  obtain ⟨byteCount, hcount, h⟩ := h
  rw [run_check_bind] at h
  obtain ⟨_, htotal, -⟩ := h
  have hcount : w.output.byteCount + w.output.chunk.length = byteCount :=
    (add64_eq_some.mp (require_ok.mp hcount)).2
  rw [stop_ok] at htotal
  omega

def appended (w : Walker (Chunked σ)) (encoded : Bytes) : Walker (Chunked σ) :=
  { openChunk w with
    entryCount := w.entryCount + 1
    output :=
      { (openChunk w).output with
        chunk := (openChunk w).output.chunk ++ beBytes 4 encoded.length ++ encoded
        chunkEntries := w.output.chunkEntries + 1 } }

theorem openChunk_eq (w : Walker (Chunked σ)) :
    ∃ chunkFirstEntry, openChunk w = { w with output := { w.output with chunkFirstEntry } } := by
  unfold openChunk
  split
  · exact ⟨_, rfl⟩
  · exact ⟨_, rfl⟩

theorem appendEntry_ok : (appendEntry encoded).run.run w = (.ok (), w') ↔
      encoded.length < 2 ^ 32 ∧ w.output.chunkEntries + 1 < 2 ^ 32 ∧ w.entryCount + 1 < 2 ^ 64 ∧
        w' = appended w encoded := by
  obtain ⟨chunkFirstEntry, hopen⟩ := openChunk_eq w
  unfold appendEntry appended
  simp only [run_modify_bind, run_check_bind, run_get_bind, run_modify, stop_ok, require_ok,
    add64_eq_some, hopen]
  constructor
  · rintro ⟨_, hlen, _, hchunk, _, ⟨hall, rfl⟩, rfl⟩
    exact ⟨by omega, by omega, hall, rfl⟩
  · rintro ⟨hlen, hchunk, hall, rfl⟩
    exact ⟨⟨⟩, by omega, ⟨⟩, by omega, _, ⟨hall, rfl⟩, rfl⟩

def hashed (w : Walker Validator.Hashed) (encoded : Bytes) : Walker Validator.Hashed :=
  { w with
    entryCount := w.entryCount + 1
    output := ⟨w.output.byteCount + (encoded.length + 4),
      w.output.hasher ++ beBytes 4 encoded.length ++ encoded⟩ }

theorem hashEntry_ok {w w' : Walker Validator.Hashed} :
    (Validator.hashEntry limits encoded (encoded.length + 4)).run.run w = (.ok (), w') ↔
      encoded.length + 4 ≤ limits.maxChunkBytes.toNat ∧
        w.output.byteCount + (encoded.length + 4) ≤ limits.maxTotalBytes.toNat ∧
          w.entryCount + 1 < 2 ^ 64 ∧
        w' = hashed w encoded := by
  have hmaxChunk := limits.maxChunkBytes.toNat_lt
  have hmaxTotal := limits.maxTotalBytes.toNat_lt
  unfold Validator.hashEntry hashed
  simp only [run_modify_bind, run_check_bind, run_get_bind, run_modify, stop_ok, require_ok,
    add64_eq_some]
  constructor
  · rintro ⟨_, hchunk, _, -, _, ⟨-, rfl⟩, _, htotal, _, ⟨hall, rfl⟩, rfl⟩
    exact ⟨by omega, by omega, hall, rfl⟩
  · rintro ⟨hchunk, htotal, hall, rfl⟩
    exact ⟨⟨⟩, by omega, ⟨⟩, by omega, _, ⟨by omega, rfl⟩, ⟨⟩, by omega, _, ⟨hall, rfl⟩, rfl⟩

/-- The builder's open chunk is what it has not hashed yet, and the validator has. -/
structure Streams (limits : ManifestLimits) (n : Nat) (b : Chunked σ)
    (v : Validator.Hashed) : Prop where
  hasher : v.hasher = b.hasher ++ b.chunk
  byteCount : v.byteCount = b.byteCount + b.chunk.length
  total : v.byteCount ≤ limits.maxTotalBytes.toNat
  chunk : b.chunk.length ≤ limits.maxChunkBytes.toNat
  chunkEntries : b.chunkEntries ≤ b.chunk.length
  chunkSequence : b.chunkSequence + min b.chunk.length 1 ≤ n
  entries : n ≤ limits.maxEntries.toNat

/-- The builder holds more than the total allows, and finds out when it closes the chunk. -/
def Exceeds (limits : ManifestLimits) (b : Chunked σ) : Prop :=
  b.byteCount ≤ limits.maxTotalBytes.toNat ∧
    limits.maxTotalBytes.toNat < b.byteCount + b.chunk.length

theorem Exceeds.chunk {b : Chunked σ} (h : Exceeds limits b) : b.chunk ≠ [] := by
  intro hnil
  unfold Exceeds at h
  rw [hnil, length_nil] at h
  omega

/-- What is sent does not change what the two agree on. -/
theorem flushChunk_streams (streamId : String) (hemit : Accepting emit)
    (h : Together rename (Streams limits) w v) :
    ∃ w', (flushChunk limits streamId emit).run.run w = (.ok (), w') ∧
      Together rename (Streams limits) w' v ∧ w'.output.chunk = [] := by
  obtain ⟨hhash, hcount, htotal, hchunk, hentries, hsequence, hall⟩ := h.output
  by_cases hnil : w.output.chunk = []
  · refine ⟨w, ?_, h, hnil⟩
    unfold flushChunk
    rw [run_get_bind, hnil]
    rfl
  · have hpos := length_pos_of_ne_nil hnil
    have hmax := limits.maxEntries.toNat_lt
    have hbytes : w.output.byteCount + w.output.chunk.length ≤
      limits.maxTotalBytes.toNat := by omega
    have hflush : ∃ emitter, (flushChunk limits streamId emit).run.run w = (.ok (),
      closed w emitter) :=
      flushChunk_closes hemit hnil hbytes (by omega)
    obtain ⟨emitter, hrun⟩ := hflush
    refine ⟨closed w emitter, hrun, ⟨h.hardlinks, h.hardlinkPathBytes, h.entryCount, ?_⟩, rfl⟩
    refine ⟨by simp [closed, hhash], by simp [closed, hcount], htotal, Nat.zero_le _, Nat.zero_le _, ?_, hall⟩
    show w.output.chunkSequence + 1 + 0 ≤ v.entryCount
    omega

theorem makeRoom_streams (streamId : String) {framedLen : Nat}
    (hemit : Accepting emit) (hfit : framedLen ≤ limits.maxChunkBytes.toNat)
    (h : Together rename (Streams limits) w v) :
    ∃ w', (makeRoom limits streamId emit framedLen).run.run w = (.ok (), w') ∧
      Together rename (Streams limits) w' v ∧
      w'.output.chunk.length + framedLen ≤ limits.maxChunkBytes.toNat := by
  have hmax := limits.maxChunkBytes.toNat_lt
  by_cases hfull : ¬w.output.chunk.isEmpty ∧
      min (w.output.chunk.length + framedLen) (2 ^ 64 - 1) > limits.maxChunkBytes.toNat
  · obtain ⟨w', hrun, htogether, hnil⟩ := flushChunk_streams streamId hemit h
    refine ⟨w', ?_, htogether, by simpa [hnil] using hfit⟩
    unfold makeRoom
    rwa [run_get_bind, if_pos hfull]
  · refine ⟨w, ?_, h, ?_⟩
    · unfold makeRoom
      rw [run_get_bind, if_neg hfull]
      rfl
    · by_cases hnil : w.output.chunk = []
      · simpa [hnil] using hfit
      · have hroom : ¬min (w.output.chunk.length + framedLen)
          (2 ^ 64 - 1) > limits.maxChunkBytes.toNat :=
          fun hbig => hfull ⟨by simpa using hnil, hbig⟩
        omega

/-- A late builder adds to its chunk, or fails: there is no room that it could make. -/
theorem makeRoom_late {framedLen : Nat} (h : Exceeds limits w.output)
    (hrun : (makeRoom limits streamId emit framedLen).run.run w = (.ok (), w')) : w' = w := by
  unfold makeRoom at hrun
  rw [run_get_bind] at hrun
  split at hrun
  · exact absurd hrun (flushChunk_refuses h.chunk h.2)
  · cases hrun
    rfl

theorem fits_chunk (h : limits.validate = .ok ()) :
    limits.maxEntryBytes.toNat + 4 ≤ limits.maxChunkBytes.toNat := by
  unfold ManifestLimits.validate at h
  simp only [bind_ok, refuse_ok] at h
  omega

theorem appended_length (w : Walker (Chunked σ)) (encoded : Bytes) :
    (appended w encoded).output.byteCount = w.output.byteCount ∧
      (appended w encoded).output.chunk.length = w.output.chunk.length + (encoded.length + 4) := by
  obtain ⟨chunkFirstEntry, hopen⟩ := openChunk_eq w
  unfold appended
  rw [hopen, append_assoc, length_append]
  exact ⟨rfl, rfl⟩

theorem streams_appended
    (h : Together rename (Streams limits) w v)
    (hspace : w.output.chunk.length + (encoded.length + 4) ≤ limits.maxChunkBytes.toNat)
    (htotal : v.output.byteCount + (encoded.length + 4) ≤ limits.maxTotalBytes.toNat)
    (hroom : v.entryCount < limits.maxEntries.toNat) :
    Together rename (Streams limits) (appended w encoded) (hashed v encoded) := by
  obtain ⟨hhash, hcount, -, -, hentries, hsequence, -⟩ := h.output
  obtain ⟨hbytes, hlen⟩ := appended_length w encoded
  obtain ⟨chunkFirstEntry, hopen⟩ := openChunk_eq w
  have hchunk : (appended w encoded).output.chunk = w.output.chunk ++
    beBytes 4 encoded.length ++ encoded := by
    unfold appended
    rw [hopen]
  have hsame : (appended w encoded).hardlinks = w.hardlinks ∧
    (appended w encoded).hardlinkPathBytes = w.hardlinkPathBytes ∧
      (appended w encoded).output.hasher = w.output.hasher ∧
      (appended w encoded).output.chunkSequence = w.output.chunkSequence := by
    unfold appended
    rw [hopen]
    exact ⟨rfl, rfl, rfl, rfl⟩
  refine ⟨hsame.1 ▸ h.hardlinks, hsame.2.1.trans h.hardlinkPathBytes,
    congrArg (· + 1) h.entryCount, ?_⟩
  refine ⟨?_, ?_, htotal, ?_, ?_, ?_, hroom⟩
  · show v.output.hasher ++ beBytes 4 encoded.length ++ encoded = _
    rw [hsame.2.2.1, hchunk, hhash]
    simp
  · show v.output.byteCount + (encoded.length + 4) = _
    omega
  · omega
  · show w.output.chunkEntries + 1 ≤ _
    omega
  · show _ ≤ v.entryCount + 1
    omega

theorem pushEntry_keeps (entry : ManifestEntry) :
    Keeps (Late (Exceeds limits)) (pushEntry entries limits streamId emit entry) := by
  intro w _ w' h hrun
  unfold pushEntry at hrun
  rw [run_get_bind, run_check_bind] at hrun
  obtain ⟨_, -, hrun⟩ := hrun
  rw [run_check_bind] at hrun
  obtain ⟨encoded, -, hrun⟩ := hrun
  rw [run_check_bind] at hrun
  obtain ⟨_, -, hrun⟩ := hrun
  rw [run_check_bind] at hrun
  obtain ⟨framedLen, -, hrun⟩ := hrun
  rw [run_bind_ok] at hrun
  obtain ⟨_, u, hroom, hrun⟩ := hrun
  cases makeRoom_late h hroom
  rw [run_check_bind] at hrun
  obtain ⟨_, -, hrun⟩ := hrun
  obtain ⟨-, -, -, rfl⟩ := appendEntry_ok.mp hrun
  obtain ⟨hbytes, hlen⟩ := appended_length w encoded
  unfold Late Exceeds at h ⊢
  omega

/-- One entry: the validator hashes it, the builder puts it into a chunk, and is late if it exceeds
the total. -/
theorem pushEntry_inStep {limits' : ManifestLimits} (hl : Alike limits limits')
    (hvalid : limits.validate = .ok ())
    (hvalid' : limits'.validate = .ok ()) (hemit : Accepting emit) (entry : ManifestEntry)
    {b : Walker (Chunked σ)} (h : Together rename (Streams limits) b v) :
    InStep (Late (Exceeds limits)) (Together rename (Streams limits))
      (pushEntry entries limits streamId emit entry)
      (Validator.pushEntry entries limits' entry) b v := by
  have hfit := fits_chunk hvalid
  have hfit' := fits_chunk hvalid'
  have hbounds : limits'.maxEntries = limits.maxEntries ∧
    limits'.maxEntryBytes = limits.maxEntryBytes ∧
      limits'.maxTotalBytes = limits.maxTotalBytes := by
    obtain ⟨n, rfl⟩ := hl
    exact ⟨rfl, rfl, rfl⟩
  refine .get_bind ?_
  rw [h.entryCount, hbounds.1, hbounds.2.1]
  refine .check_bind (.stop Iff.rfl) fun _ _ _ hroom =>
    .check_bind (.refl _) fun encoded _ hencoded _ => ?_
  cases hencoded
  refine .check_bind (.stop Iff.rfl) fun _ _ _ hsize =>
    .check_bind .require fun framedLen _ hframed hsum => ?_
  cases hframed
  obtain ⟨-, rfl⟩ := add64_eq_some.mp (require_ok.mp hsum)
  rw [stop_ok] at hsize
  have hlen : encoded.length + 4 ≤ limits.maxChunkBytes.toNat := by omega
  have hlen' : encoded.length + 4 ≤ limits'.maxChunkBytes.toNat := by
    rw [hbounds.2.1] at hfit'
    omega
  -- the builder puts the entry into a chunk in any case
  obtain ⟨w, hrun, htogether, hspace⟩ := makeRoom_streams streamId hemit hlen h
  obtain ⟨-, hcount, htotal, -, hentries, -, hall⟩ := htogether.output
  have hmaxChunk := limits.maxChunkBytes.toNat_lt
  have hmaxEntries := limits.maxEntries.toNat_lt
  rw [stop_ok] at hroom
  have happend : (appendEntry encoded).run.run w = (.ok (), appended w encoded) :=
    appendEntry_ok.mpr ⟨by omega, by omega, by rw [htogether.entryCount]; omega, rfl⟩
  have hbuilt : (do
      makeRoom limits streamId emit (encoded.length + 4)
      check (stop (encoded.length + 4 > limits.maxChunkBytes.toNat)
        (.manifest "entry cannot fit in one negotiated chunk"))
      appendEntry encoded : WalkM (Chunked σ) Unit).run.run b = (.ok (), appended w encoded) := by
    rw [run_bind_ok]
    refine ⟨(), w, hrun, ?_⟩
    rw [run_check_bind]
    exact ⟨(), stop_ok.mpr (by omega), happend⟩
  unfold InStep
  rw [hbuilt]
  by_cases hover : v.output.byteCount + (encoded.length + 4) ≤ limits.maxTotalBytes.toNat
  · have hvalidated : (Validator.hashEntry limits' encoded (encoded.length + 4)).run.run v =
      (.ok (), hashed v encoded) :=
      hashEntry_ok.mpr ⟨hlen', by rwa [hbounds.2.2], by omega, rfl⟩
    rw [hvalidated]
    exact .ok (streams_appended htogether hspace hover (by omega))
  · obtain ⟨hbytes, hlength⟩ := appended_length w encoded
    refine .of_late ⟨by omega, by omega⟩ ?_
    rintro ⟨⟩ v' hran
    obtain ⟨-, htotal', -⟩ := hashEntry_ok.mp hran
    rw [hbounds.2.2] at htotal'
    exact hover htotal'

theorem checkRoot_same {limits' : ManifestLimits} {fs fs' : Filesystem}
    {rename : UInt64 × UInt64 → UInt64 × UInt64} (hfs : fs.SameTree rename fs')
    (hvalid : limits.validate = .ok ()) (hvalid' : limits'.validate = .ok ()) :
    Related Eq (checkRoot limits fs) (checkRoot limits' fs') := by
  unfold checkRoot
  rw [hvalid, hvalid']
  refine (Related.refl _).bind fun _ _ _ => (hfs.metadata []).bind fun metadata _ hmetadata => ?_
  subst hmetadata
  exact .refl _

theorem streams_start (rename : UInt64 × UInt64 → UInt64 × UInt64) (emitter : σ) :
    Together rename (Streams limits)
    ⟨[], 0, 0, ⟨emitter, [], 0, 0, 0, 0, []⟩⟩ ⟨[], 0, 0, ⟨0, []⟩⟩ :=
  ⟨rfl, rfl, rfl, rfl, rfl, Nat.zero_le _, Nat.zero_le _, Nat.zero_le _, Nat.zero_le _,
    Nat.zero_le _⟩

theorem finish_related {sha256 : Bytes → Digest}
    (hemit : Accepting emit) (h : Together rename (Streams limits) w v) :
    ∃ w' : Walker (Chunked σ), ((do
        flushChunk limits streamId emit
        let w ← get
        let digest := hexDigest sha256 w.output.hasher
        emitMessage emit (.manifestEnd
          { streamId, entryCount := UInt64.ofNat w.entryCount, byteCount := UInt64.ofNat w.output.byteCount, sha256 := digest })
        return ⟨streamId, digest, w.entryCount, w.output.byteCount⟩ :
          WalkM (Chunked σ) ManifestSummary).run.run w) =
      (.ok ⟨streamId, hexDigest sha256 v.output.hasher, v.entryCount, v.output.byteCount⟩, w') := by
  obtain ⟨w', hrun, htogether, hnil⟩ := flushChunk_streams streamId hemit h
  obtain ⟨hhash, hcount, -, -, -, -, -⟩ := htogether.output
  rw [hnil, append_nil] at hhash
  rw [hnil] at hcount
  rw [run_bind_of_ok hrun, hhash, hcount, ← htogether.entryCount]
  constructor
  rw [run_get_bind, run_bind_of_ok (emitMessage_run hemit)]
  rfl

end

/-- Over one tree, with limits that may differ in the size of a chunk only: the builder's walk,
whose messages its emitter takes, and the validator's both fail or find the same manifest. -/
theorem walks_agree {σ : Type} (sha256 : Bytes → Digest) (entries : Codec ManifestEntry)
    (limits limits' : ManifestLimits)
    (hlimits : Alike limits limits') (hvalid : limits.validate = .ok ())
    (hvalid' : limits'.validate = .ok ())
    (fs fs' : Filesystem) (rename : UInt64 × UInt64 → UInt64 × UInt64)
    (hfs : fs.SameTree rename fs') (emit : Builder.ManifestEmitter σ) (hemit : Accepting emit)
    (schema derivationKey : String) (emitter : σ) :
    Related (fun b v => b.sha256 = v.sha256 ∧ b.entryCount = v.entryCount ∧
      b.byteCount = v.byteCount)
      (Builder.emitManifest sha256 entries limits fs emit schema derivationKey emitter)
      (Validator.validateManifest sha256 entries limits' fs') := by
  refine (checkRoot_same hfs hvalid hvalid').bind fun _ _ _ => ?_
  unfold Builder.streamManifest
  rw [run_bind_of_ok (emitMessage_run hemit)]
  have hwalk : InStep (Late (Exceeds limits)) (Together rename (Streams limits))
      (visit sha256 Builder.words limits fs
        (Builder.pushEntry entries limits (Builder.manifestStreamId sha256 derivationKey schema) emit) [] 0)
      (visit sha256 Validator.words limits' fs' (Validator.pushEntry entries limits') [] 0)
      ⟨[], 0, 0, ⟨(emit (.manifestBegin ⟨schema, Builder.manifestStreamId sha256 derivationKey schema⟩) emitter).2,
        [], 0, 0, 0, 0, []⟩⟩ ⟨[], 0, 0, ⟨0, []⟩⟩ :=
    visit_inStep hlimits hfs (fun entry _ _ h =>
      pushEntry_inStep hlimits hvalid hvalid' hemit entry h) pushEntry_keeps [] 0
      (streams_start rename _)
  unfold InStep at hwalk
  generalize hbuilt : (visit sha256 Builder.words limits fs _ [] 0).run.run _ = built at hwalk
  generalize (visit sha256 Validator.words limits' fs' _ [] 0).run.run _ = validated at hwalk ⊢
  cases hwalk with
  | ok h =>
    obtain ⟨w', hrun⟩ := finish_related hemit h
    rw [run_bind_of_ok hbuilt, hrun]
    exact .ok ⟨rfl, rfl, rfl⟩
  | failed =>
    rw [run_bind_of_error hbuilt]
    exact .failed
  | @late _ _ w _ h =>
    rw [run_bind_of_ok hbuilt]
    cases hflush : (Builder.flushChunk limits (Builder.manifestStreamId sha256 derivationKey schema) emit).run.run w with
    | mk result u =>
      cases result with
      | ok _ => exact absurd hflush (flushChunk_refuses h.chunk h.2)
      | error e =>
        rw [run_bind_of_error hflush]
        exact .failed

/-! ### Two files that are one -/

namespace Sample

def metadata (dev : UInt64) (path : Bytes) : Except Errno Metadata :=
  if path = [] then .ok ⟨.dir, dev, 2, 2, 0o40755, 0, 0, 4096, 0, 0, 0⟩
  else if path = [97] ∨ path = [98] then .ok ⟨.file, dev, 3, 2, 0o100644, 0, 0, 1, 0, 0, 0⟩
  else .error 2

/-- The second disk of one machine, and the first of the other; `reverse` is the order in which
names are shown. -/
def tree (reverse : Bool) : Filesystem where
  symlinkMetadata := metadata (if reverse then 25088 else 25104)
  readLink _ := .error 22
  readFile _ := .ok [120]
  readDir path := if path = [] then
    .ok (if reverse then [.ok [98], .ok [97]] else [.ok [97], .ok [98]]) else .error 20
  llistxattr path := .ok (if path = [] then [] else
    if reverse then
      [⟨[118], by decide⟩, ⟨[117], by decide⟩] else [⟨[117], by decide⟩, ⟨[118], by decide⟩])
  lgetxattr _ name := .ok name

def renumber (key : UInt64 × UInt64) : UInt64 × UInt64 := (key.1 - 16, key.2)

theorem tree_same : (tree false).SameTree renumber (tree true) where
  injective first second h := by
    obtain ⟨hdev, hino⟩ := Prod.mk.inj h
    refine Prod.ext ?_ hino
    rw [← UInt64.sub_add_cancel first.1 16, hdev, UInt64.sub_add_cancel]
  symlinkMetadata path := by
    show metadata 25088 path = (metadata 25104 path).map _
    unfold metadata
    split_ifs <;> rfl
  readLink := rfl
  readFile := rfl
  lgetxattr := rfl
  readDir path := by
    by_cases hpath : path = []
    · rw [hpath]
      exact .ok (.swap _ _ _)
    · simp only [tree, if_neg hpath]
      exact .failed
  llistxattr path := by
    by_cases hpath : path = []
    · rw [hpath]
      exact .ok .nil
    · simp only [tree, if_neg hpath]
      exact .ok (.swap _ _ _)

def limits (maxChunkBytes : UInt32) : ManifestLimits where
  maxPathBytes := 16
  maxXattrsPerEntry := 2
  maxXattrBytesPerEntry := 16
  maxEntryBytes := 8
  maxChunkBytes
  maxEntries := 3
  maxTotalBytes := 15
  maxDirectoryEntries := 2
  maxDirectoryNameBytes := 2
  maxHardlinkGroups := 1
  maxHardlinkPathBytes := 1
  maxDepth := 1

def sha256 (bytes : Bytes) : Digest := ⟨BitVec.ofNat 256 (readBE bytes)⟩

def entry (path : Bytes) (kind : UInt8) (mode : UInt32) (size : UInt64)
    (content hardlink : Option Bytes) : ManifestEntry :=
  ⟨path, kind, mode, 0, 0, size, 0, 0, 0, none, content, hardlink,
    if path = [] then [] else [⟨[117], [117]⟩, ⟨[118], [118]⟩]⟩

def entries : Codec ManifestEntry :=
  .table [entry [] 2 0o755 4096 none none, entry [97] 1 0o644 1 (some (sha256 [120]).asBytes) none,
    entry [98] 1 0o644 1 none (some [97])] (by decide)

def capture : Builder.ManifestEmitter (List BuilderMessage) := fun message sent =>
    (.ok (), sent ++ [message])

theorem validates : (Validator.validateManifest sha256 entries (limits 64) (tree true)).toOption =
    some ⟨hexDigest sha256 [0, 0, 0, 1, 0, 0, 0, 0, 1, 1, 0, 0, 0, 1, 2], 3, 15⟩ := by
  decide +kernel

end Sample

open Sample in
/-- Chunks of two entries at most, and the names in the other order. -/
theorem walks_agree_hardlinked :
    Related (fun b v => b.sha256 = v.sha256 ∧ b.entryCount = v.entryCount ∧
      b.byteCount = v.byteCount)
      (Builder.emitManifest sha256 entries (limits 12) (tree false) capture "pocket-fs-manifest-v1" "key" [])
      (Validator.validateManifest sha256 entries (limits 64) (tree true)) ∧
    (Validator.validateManifest sha256 entries (limits 64) (tree true)).toOption.isSome :=
  ⟨walks_agree sha256 entries (limits 12) (limits 64) ⟨64, rfl⟩ (by decide) (by decide) (tree false)
    (tree true) renumber tree_same capture (fun _ _ =>
      rfl) "pocket-fs-manifest-v1" "key" [], by rw [validates]; rfl⟩

end PocketVm.Guest
