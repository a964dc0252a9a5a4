import PocketVm.Store.Codec
import PocketVm.Store.Collect

/-!
# What the store's identifiers identify

Five kinds of values are named by a hash. The byte strings that are hashed determine the value,
across the kinds: each starts with a text of its kind that no other starts with. Where SHA-256 tells
two byte strings apart, the values share neither an identifier nor a file name.
-/

namespace PocketVm

open Wire Checked List

def IdKind.domain : IdKind → String
  | generation => "pocket-final-generation-identity\x00v1\x00"
  | derivation => "pocket-generation-derivation\x00v1\x00"
  | «alias» => "pocket-alias-identity\x00v1\x00"
  | retainedCow => "pocket-retained-cow-identity\x00v1\x00"
  | «instance» => "pocket-instance-identity\x00v1\x00"

/-- What the names of a kind's files add to its identifier: `alias_filename` and its siblings. -/
def IdKind.suffixes : IdKind → List String
  | generation => ["", ".lock"]
  | derivation => [".meta", ".lock"]
  | «alias» => [".meta"]
  | retainedCow => [".meta"]
  | «instance» => [".meta", ".d"]

theorem IdKind.domain_mark (k k' : IdKind) :
    (utf8 k.domain)[(7 : Nat)]? = (utf8 k'.domain)[(7 : Nat)]? → k = k' := by
  cases k <;> cases k' <;> decide +kernel

theorem IdKind.tag_mark (k k' : IdKind) : k.tag.toList[5]? = k'.tag.toList[5]? → k = k' := by
  cases k <;> cases k' <;> decide +kernel

namespace Store

structure InstanceName where
  val : String
  accepted : validateInstanceName val = .ok ()

theorem InstanceName.size_lt (n : InstanceName) : (utf8 n.val).length < 256 ^ 4 := by
  have h := n.accepted
  unfold validateInstanceName at h
  split at h
  · cases h
  · next hsize =>
    rw [MAX_INSTANCE_NAME_BYTES] at hsize
    omega

theorem InstanceName.ext_val {n m : InstanceName} (h : n.val = m.val) : n = m := by
  cases n
  cases h
  rfl

inductive Identified where
  | derivation (spec : GenerationSpec)
  | generation (key : DerivationKey) (baseDigest : Digest) (baseSize : UInt64)
    (sidecars : List ImmutableSidecar)
      (canonical : validateCanonicalSidecars sidecars = .ok ())
  | «alias» (key : AliasKey)
  | retainedCow (generationId : GenerationId) (cowPath : ManagedUmlPath) (cowDigest : Digest)
    (cowSize : UInt64)
      (state : RetainedCowState)
  | «instance» (name : InstanceName)

namespace Identified

def kind : Identified → IdKind
  | derivation _ => .derivation
  | generation _ _ _ _ _ => .generation
  | «alias» _ => .alias
  | retainedCow _ _ _ _ _ => .retainedCow
  | «instance» _ => .instance

def body : Identified → Bytes
  | derivation spec => spec.encode
  | generation key baseDigest baseSize sidecars _ =>
    key.asBytes ++ baseDigest.asBytes ++ putU64 baseSize ++
      counted 2 ImmutableSidecar.encode sidecars
  | «alias» key => key.encode
  | retainedCow generationId cowPath cowDigest cowSize state =>
    generationId.asBytes ++ putText cowPath.text ++ cowDigest.asBytes ++ putU64 cowSize ++
      [state.encode]
  | «instance» name => putText name.val

def preimage (x : Identified) : Bytes := utf8 x.kind.domain ++ x.body

section
variable (sha256 : Bytes → Digest)

def id (x : Identified) : HashId x.kind := .ofDigest (sha256 x.preimage)

def fileNames (x : Identified) : List String := x.kind.suffixes.map fun suffix =>
    (x.id sha256).display ++ suffix

theorem id_derivation (spec : GenerationSpec) :
    (derivation spec).id sha256 = spec.derivationKey sha256 := rfl

theorem id_generation {key : DerivationKey} {baseDigest : Digest} {baseSize : UInt64}
    {sidecars : List ImmutableSidecar}
    (h : validateCanonicalSidecars sidecars = .ok ()) :
    GenerationId.derive sha256 key baseDigest baseSize sidecars =
      .ok ((generation key baseDigest baseSize sidecars h).id sha256) := by
  unfold GenerationId.derive
  rw [h]
  simp only [id, preimage, body, kind, IdKind.domain, generationBytes, append_assoc]
  rfl

theorem id_alias (key : AliasKey) : («alias» key).id sha256 = key.id sha256 := rfl

theorem id_retainedCow (host : Host) (generationId : GenerationId) (cowPath : ManagedUmlPath)
    (cowDigest : Digest) (cowSize : UInt64) (state : RetainedCowState) :
    (retainedCow generationId cowPath cowDigest cowSize state).id host.sha256 =
      RetainedCow.deriveId host generationId (.elsewhere cowPath.text) cowDigest cowSize state := by
  simp only [id, preimage, body, kind, IdKind.domain, RetainedCow.deriveId,
    CowPath.text, append_assoc]

theorem id_instance (host : Host) (name : InstanceName) :
    («instance» name).id host.sha256 = Instance.deriveId host name.val := rfl

end

end Identified

theorem AliasKey.encode_inj {k k' : AliasKey} (h : k.encode = k'.encode) : k = k' := by
  simp only [PocketVm.AliasKey.encode, append_assoc] at h
  obtain ⟨h₁, h⟩ := selfDelim_identifier.cut h
  obtain ⟨h₂, h⟩ := Digest.selfDelim_asBytes.cut h
  obtain ⟨h₃, h⟩ := (selfDelim_text (by decide)).cut h
  obtain ⟨h₄, h⟩ := Platform.selfDelim_encode.cut h
  have h₅ := selfDelim_identifier.injOn trivial trivial h
  cases k
  simp_all

theorem RetainedCowState.encode_inj {s s' : RetainedCowState}
    (h : s.encode = s'.encode) : s = s' := by
  cases s <;> cases s' <;> first | rfl | cases h

theorem length_of_canonical {sidecars : List ImmutableSidecar}
    (h : validateCanonicalSidecars sidecars = .ok ()) :
    sidecars.length ≤ MAX_GENERATION_SIDECARS := by
  unfold validateCanonicalSidecars at h
  split at h
  · cases h
  · next hlength => exact Nat.not_lt.mp hlength

theorem retainedBytes_inj {g g' : GenerationId} {path path' : ManagedUmlPath}
    {digest digest' : Digest} {size size' : UInt64} {state state' : RetainedCowState}
    (h : g.asBytes ++ putText path.text ++ digest.asBytes ++ putU64 size ++ [state.encode] =
      g'.asBytes ++ putText path'.text ++ digest'.asBytes ++ putU64 size' ++ [state'.encode]) :
    g = g' ∧ path = path' ∧ digest = digest' ∧ size = size' ∧ state = state' := by
  simp only [append_assoc] at h
  obtain ⟨h₁, h⟩ := HashId.selfDelim_asBytes.cut h
  obtain ⟨h₂, h⟩ := selfDelim_putText _ _ _ _ path.size_lt path'.size_lt h
  obtain ⟨h₃, h⟩ := Digest.selfDelim_asBytes.cut h
  obtain ⟨h₄, h⟩ := selfDelim_putU64.cut h
  exact ⟨h₁, ManagedUmlPath.ext_text h₂, h₃, h₄, RetainedCowState.encode_inj (List.cons.inj h).1⟩

namespace Identified

theorem kind_of_preimage {x y : Identified} (h : x.preimage = y.preimage) : x.kind = y.kind := by
  have hlong : ∀ k : IdKind, 7 < (utf8 k.domain).length := by
    intro k
    cases k <;> decide +kernel
  have hat := congrArg (fun bytes : List UInt8 => bytes[7]?) h
  simp only [preimage, getElem?_append_left (hlong _)] at hat
  exact IdKind.domain_mark _ _ hat

theorem preimage_inj {x y : Identified} (h : x.preimage = y.preimage) : x = y := by
  have hkind := kind_of_preimage h
  have hbody : x.body = y.body := by
    unfold preimage at h
    rw [hkind] at h
    exact append_cancel_left h
  cases x <;> cases y <;> try cases hkind
  case derivation.derivation spec spec' => rw [GenerationSpec.encode_inj hbody]
  case generation.generation key digest size sidecars hc key' digest' size' sidecars' hc' =>
    have hbytes : generationBytes key digest size sidecars =
      generationBytes key' digest' size' sidecars' := by
      simpa only [generationBytes, body, IdKind.domain, append_assoc] using
        congrArg (utf8 (IdKind.domain .generation) ++ ·) hbody
    obtain ⟨rfl, rfl, rfl, rfl⟩ := generationBytes_inj (length_of_canonical hc)
      (length_of_canonical hc') hbytes
    rfl
  case alias.alias key key' => rw [AliasKey.encode_inj hbody]
  case retainedCow.retainedCow g path digest size state g' path' digest' size' state' =>
    obtain ⟨rfl, rfl, rfl, rfl, rfl⟩ := retainedBytes_inj hbody
    rfl
  case instance.instance name name' =>
    rw [InstanceName.ext_val (selfDelim_putText.injOn name.size_lt name'.size_lt hbody)]

section
variable {sha256 : Bytes → Digest}

theorem display_id (x : Identified) :
    (x.id sha256).display = x.kind.tag ++ hexEncode (sha256 x.preimage).asBytes := rfl

theorem length_hexEncode (d : Digest) : (hexEncode d.asBytes).toList.length = 64 := by
  simp [hexEncode, Digest.asBytes, length_flatMap]

theorem of_display_append {x y : Identified} {suffix suffix' : String}
    (h : (x.id sha256).display ++ suffix = (y.id sha256).display ++ suffix') :
    x.kind = y.kind ∧ sha256 x.preimage = sha256 y.preimage := by
  have hchars := congrArg String.toList h
  simp only [display_id, String.toList_append, append_assoc] at hchars
  have hkind : x.kind = y.kind := by
    have hlong : ∀ k : IdKind, 5 < k.tag.toList.length := by
      intro k
      cases k <;> decide +kernel
    have hat := congrArg (fun chars : List Char => chars[5]?) hchars
    simp only [getElem?_append_left (hlong _)] at hat
    exact IdKind.tag_mark _ _ hat
  rw [hkind] at hchars
  have hhex := append_inj_left (append_cancel_left hchars)
    (by rw [length_hexEncode, length_hexEncode])
  exact ⟨hkind, Digest.hexEncode_inj (String.toList_inj.mp hhex)⟩

/-- Different values have different hashed bytes. As far as SHA-256 tells these apart, they have
different identifiers and no file name in common. -/
theorem different_values_share_no_name (sha256 : Bytes → Digest) {x y : Identified} (h : x ≠ y) :
    x.preimage ≠ y.preimage ∧ (sha256 x.preimage ≠ sha256 y.preimage →
      (x.id sha256).display ≠ (y.id sha256).display ∧ ∀ name ∈ x.fileNames sha256,
        name ∉ y.fileNames sha256) := by
  refine ⟨fun hbytes => h (preimage_inj hbytes),
    fun hdigest => ⟨fun hdisplay => ?_, fun name hx hy => ?_⟩⟩
  · exact hdigest (of_display_append (congrArg (· ++ "") hdisplay)).2
  · obtain ⟨suffix, -, rfl⟩ := mem_map.mp hx
    obtain ⟨suffix', -, hname⟩ := mem_map.mp hy
    exact hdigest (of_display_append hname.symm).2

end

namespace Sample

def namedRun (name : String) (h : validateInstanceName name = .ok ()) :
    Identified := «instance» ⟨name, h⟩

def lastBytes (bytes : Bytes) : Digest := ⟨BitVec.ofNat 256 (readBE bytes)⟩

end Sample

open Sample in
theorem named_runs_share_no_name :
    (namedRun "web" (by decide +kernel)).preimage ≠ (namedRun "db" (by decide +kernel)).preimage ∧
      ∀ name ∈ (namedRun "web" (by decide +kernel)).fileNames lastBytes,
        name ∉ (namedRun "db" (by decide +kernel)).fileNames lastBytes := by
  obtain ⟨hbytes, hnames⟩ := different_values_share_no_name lastBytes (x :=
    namedRun "web" (by decide +kernel))
    (y := namedRun "db" (by decide +kernel)) (fun h =>
      absurd (congrArg preimage h) (by decide +kernel))
  exact ⟨hbytes, (hnames (by decide +kernel)).2⟩

end Identified

end Store

end PocketVm
