import PocketVm.Protocol.AccountSize
import PocketVm.Runtime.MarkerChain

/-!
# The accounts of a committed image

A commit derives the account database of the filesystem that it publishes and writes it under the
bound of a control payload. A run of the image reads it under the narrower bound of the database
itself (`resolve_image_process` of `image.rs`), so that a commit can publish accounts that no run
accepts.
-/

namespace PocketVm.Runtime

open Wire Checked Protocol Sparse List

def ACCOUNT_DATABASE_SIDECAR : String := "accounts.cbor"

def Image.readSidecar (sha256 : Bytes → Digest) (image : Image) (name : String)
    (maximumBytes : Nat) :
    Except StoreError Bytes := do
  stop (maximumBytes = 0) (.invalidInput "sidecar.maximum_bytes" "must be greater than zero")
  let (sidecar, bytes) ← require (image.sidecars.find? fun s => s.1.name == name)
    (.sidecarNotFound image.id name)
  stop (sidecar.size.toNat > maximumBytes) (.sidecarTooLarge sidecar.size maximumBytes)
  let observedSize := UInt64.ofNat bytes.length
  stop (observedSize ≠ sidecar.size) (.sizeMismatch sidecar.size observedSize)
  stop (sha256 bytes ≠ sidecar.digest) (.digestMismatch sidecar.digest (sha256 bytes))
  return bytes

def imageAccounts (deps : Dependencies) (image : Image) : Except RuntimeError AccountDatabase := do
  let accountBytes ← (image.readSidecar deps.sha256 ACCOUNT_DATABASE_SIDECAR MAX_ACCOUNT_DB_BYTES).mapError .store
  let accountDb ← (AccountDb.fromCanonicalBytes deps.sha256 deps.accounts accountBytes).mapError .protocol
  (accountDb.decodeDatabase deps.sha256 deps.accounts).mapError .protocol

/-- The account files of the merged image give `database`. -/
def MergedAccounts (deps : Dependencies) (source : Image) (request : CommitRequest)
    (database : AccountDatabase) : Prop :=
  ∃ merged passwd group, applyCow source.base request.overlay = .ok merged ∧
    readGuestFile deps.tools merged "/rootfs/etc/passwd" = .ok passwd ∧
    readGuestFile deps.tools merged "/rootfs/etc/group" = .ok group ∧
    accountDatabaseFromFiles passwd group = .ok database

section

variable {deps : Dependencies} {profile : ProfileManifest} {source : Image}
  {holes : Holes source.base} {request : CommitRequest} {plan : Plan} {image : Image}

/-- The accounts that a commit publishes are those of the merged files, and they are the first
sidecar. -/
theorem commit_accounts (hplan : commit deps profile source holes request = .ok plan)
    (himage : plan.publish deps = .ok image) : ∃ database bytes entry rest,
    MergedAccounts deps source request database ∧
      encodePayload deps.accounts AccountDatabase.validate database = .ok bytes ∧
      sidecarOf deps "accounts.cbor" bytes = .ok entry ∧ image.sidecars = entry :: rest := by
  obtain ⟨outputs, houtputs, -, -, hsidecars, -⟩ := publish_ok himage
  unfold commit at hplan
  simp only [bind_ok, mapError_ok, pure_ok, CopyCalls.copySparse_reliable] at hplan
  obtain ⟨⟨inodes, blocks⟩, -, _, -, contract, -, spec, -, aliasKey, -, rfl⟩ := hplan
  unfold commitOutputs at houtputs
  simp only [bind_ok, mapError_ok, require_ok, pure_ok] at houtputs
  obtain ⟨merged, hmerged, _, -, bytes, hbytes, entry, hentry, staged, -, _, -, configBytes, -,
    config, hconfig, recordBytes, -, record, hrecord, rfl⟩ := houtputs
  unfold committedAccounts at hbytes
  simp only [bind_ok, mapError_ok] at hbytes
  obtain ⟨passwd, hpasswd, group, hgroup, database, hdatabase, hencoded⟩ := hbytes
  refine ⟨database, bytes, entry, [record, config], ⟨merged, passwd, group, hmerged, hpasswd,
    hgroup, hdatabase⟩, hencoded, hentry, ?_⟩
  rw [hsidecars]
  exact committed_order (sidecarOf_ok hentry).1 (sidecarOf_ok hconfig).1 (sidecarOf_ok hrecord).1

theorem MergedAccounts.unique {database database' : AccountDatabase}
    (h : MergedAccounts deps source request database)
    (h' : MergedAccounts deps source request database') : database = database' := by
  obtain ⟨merged, passwd, group, h1, h2, h3, h4⟩ := h
  obtain ⟨merged', passwd', group', h1', h2', h3', h4'⟩ := h'
  cases h1.symm.trans h1'
  cases h2.symm.trans h2'
  cases h3.symm.trans h3'
  exact Except.ok.inj (h4.symm.trans h4')

variable {name : String} {bytes : Bytes} {entry : ImmutableSidecar × Bytes}

theorem readSidecar_first
    {rest : List (ImmutableSidecar × Bytes)} (maximum : Nat)
    (hentry : sidecarOf deps name bytes = .ok entry)
    (hsidecars : image.sidecars = entry :: rest) (hmaximum : maximum ≠ 0)
    (hword : bytes.length < 2 ^ 64) :
    image.readSidecar deps.sha256 name maximum =
      if bytes.length ≤ maximum then .ok bytes else .error (.sidecarTooLarge (UInt64.ofNat bytes.length) maximum) := by
  obtain ⟨hname, hdigest, hbytes, hsize⟩ := sidecarOf_ok hentry
  have hcount : entry.1.size.toNat = bytes.length := by
    rw [hsize, UInt64.toNat_ofNat_of_lt' hword]
  have hfound : image.sidecars.find? (fun s => s.1.name == name) = some entry := by
    rw [hsidecars, find?_cons_of_pos (by simp [hname])]
  unfold Image.readSidecar
  rw [hfound]
  split
  · next hle =>
    simp only [bind_ok, stop_ok, require_ok, pure_ok, not_not]
    refine ⟨(), hmaximum, entry, rfl, (), by omega, (), ?_, (), ?_, hbytes⟩
    · rw [hbytes, hsize]
    · rw [hbytes, hdigest]
  · next hgt =>
    have hlarge : entry.1.size.toNat > maximum := by omega
    rw [← hsize]
    simp only [stop, require, bind, Except.bind, if_neg hmaximum, if_pos hlarge]

end

/-- A run of a committed image gets the accounts of the merged files if they take no more bytes than
the reader's bound, and is refused them otherwise. -/
theorem committed_accounts_accepted_iff (deps : Dependencies) (hsized : deps.accounts.Sized)
    {profile : ProfileManifest}
    {source : Image} {holes : Holes source.base} {request : CommitRequest} {plan : Plan}
    {image : Image}
    (hplan : commit deps profile source holes request = .ok plan)
    (himage : plan.publish deps = .ok image) :
    ∃ database, MergedAccounts deps source request database ∧
      ((∃ accounts, imageAccounts deps image = .ok accounts) ↔
        database.cborSize ≤ MAX_ACCOUNT_DB_BYTES) ∧
      (database.cborSize ≤ MAX_ACCOUNT_DB_BYTES → imageAccounts deps image = .ok database) := by
  obtain ⟨database, bytes, entry, rest, hmerged, hencoded, hentry, hsidecars⟩ :=
    commit_accounts hplan himage
  have hcanonical := encodePayload_eq_ok.mp hencoded
  have hsize : bytes.length = database.cborSize := hsized hcanonical.encoded
  have hread := readSidecar_first MAX_ACCOUNT_DB_BYTES hentry hsidecars (by decide)
    (lt_of_le_of_lt hcanonical.length (by decide))
  have haccepted : database.cborSize ≤ MAX_ACCOUNT_DB_BYTES →
    imageAccounts deps image = .ok database := by
    intro hle
    obtain ⟨db, hdb, hdecoded⟩ :
      ∃ db, AccountDb.fromCanonicalBytes deps.sha256 deps.accounts bytes = .ok db ∧
        db.decodeDatabase deps.sha256 deps.accounts = .ok database :=
      (AccountDb.fromCanonicalBytes_encoded hencoded).1 (by omega)
    rw [if_pos (by omega)] at hread
    unfold imageAccounts
    simp only [bind_ok, mapError_ok]
    exact ⟨bytes, hread, db, hdb, hdecoded⟩
  refine ⟨database, hmerged, ⟨?_, fun hle => ⟨database, haccepted hle⟩⟩, haccepted⟩
  rintro ⟨accounts, h⟩
  unfold imageAccounts at h
  simp only [bind_ok, mapError_ok] at h
  obtain ⟨bytes', hbytes', -⟩ := h
  by_contra hgt
  rw [ACCOUNT_DATABASE_SIDECAR, hread, if_neg (by omega)] at hbytes'
  cases hbytes'

namespace AccountSample

open DiskSample (disk eq_ok_value value)

def sha256 (bytes : Bytes) : Digest := ⟨BitVec.ofNat 256 bytes.length⟩

def nameChars (i : Nat) : List Char :=
  Char.ofNat (65 + i / 28) :: Char.ofNat (65 + i % 28) :: List.replicate 254 'z'

def user (i : Nat) : AccountUser := ⟨String.ofList (nameChars i), 0xffffffff, 0xffffffff⟩

def users (n : Nat) : List AccountUser := (List.range n).map user

def database (n : Nat) : AccountDatabase := ⟨ACCOUNT_DB_SCHEMA, users n, []⟩

variable {i n : Nat}

theorem letters (h : i < 784) : (Char.ofNat (65 + i / 28)).toNat = 65 + i / 28 ∧
    (Char.ofNat (65 + i % 28)).toNat = 65 + i % 28 := by
  have hall : ∀ n < 93, (Char.ofNat n).toNat = n := by decide
  exact ⟨hall _ (by omega), hall _ (by omega)⟩

theorem utf8_name (h : i < 784) : utf8 (user i).name =
    UInt8.ofNat (65 + i / 28) :: UInt8.ofNat (65 + i % 28) :: List.replicate 254 122 := by
  obtain ⟨hfirst, hsecond⟩ := letters h
  have hascii : ∀ c ∈ nameChars i, c.toNat < 128 := by
    intro c hc
    simp only [nameChars, mem_cons, mem_replicate] at hc
    rcases hc with rfl | rfl | ⟨-, rfl⟩
    · omega
    · omega
    · decide
  rw [user, utf8_ofList_ascii hascii, nameChars, map_cons, map_cons, map_replicate, hfirst, hsecond]
  rfl

theorem length_name (h : i < 784) : (utf8 (user i).name).length = 256 := by
  rw [utf8_name h, length_cons, length_cons, length_replicate]

theorem isName (h : i < 784) : IsName (user i).name := by
  rw [IsName, length_name h, utf8_name h]
  refine ⟨by decide, by decide, fun b hb => ?_⟩
  have hletter : ∀ n < 28, 32 < UInt8.ofNat (65 + n) ∧ UInt8.ofNat (65 + n) ≠ 58 ∧
    UInt8.ofNat (65 + n) ≠ 44 ∧
      UInt8.ofNat (65 + n) ≠ 0x7f := by decide
  simp only [mem_cons, mem_replicate] at hb
  rcases hb with rfl | rfl | ⟨-, rfl⟩
  · exact hletter _ (by omega)
  · exact hletter _ (by omega)
  · decide

theorem name_lt (h : i + 1 < 784) : utf8 (user i).name < utf8 (user (i + 1)).name := by
  have hletter : ∀ n < 27, UInt8.ofNat (65 + n) < UInt8.ofNat (65 + (n + 1)) := by decide
  rw [utf8_name (by omega), utf8_name h, cons_lt_cons_iff, cons_lt_cons_iff]
  by_cases hlast : i % 28 = 27
  · left
    rw [show (i + 1) / 28 = i / 28 + 1 by omega]
    exact hletter _ (by omega)
  · right
    rw [show (i + 1) / 28 = i / 28 by omega, show (i + 1) % 28 = i % 28 + 1 by omega]
    exact ⟨rfl, .inl (hletter _ (by omega))⟩

theorem accounts_of_passwd (h : n ≤ 784) :
    accountDatabaseFromFiles (passwdFile (users n)) "" = .ok (database n) := by
  have hmem : ∀ user' ∈ users n, ∃ i < 784, user' = user i := by
    intro user' huser
    obtain ⟨i, hi, rfl⟩ := mem_map.mp huser
    exact ⟨i, by have := mem_range.mp hi; omega, rfl⟩
  refine accountDatabaseFromFiles_passwdFile ?_ ?_ ?_ ?_
  · rw [users, length_map, length_range]
    exact h.trans (by decide)
  · intro user' huser
    obtain ⟨i, hi, rfl⟩ := hmem user' huser
    exact isName hi
  · rw [users, isChain_map, isChain_iff_getElem]
    intro i hi
    simp only [length_range] at hi
    simp only [getElem_range]
    exact name_lt (by omega)
  · intro user' huser
    obtain ⟨i, hi, rfl⟩ := hmem user' huser
    rw [user, String.toList_ofList, nameChars, head?_cons, ne_eq, Option.some.injEq]
    intro hhash
    have := (letters hi).1
    rw [hhash] at this
    have : ('#' : Char).toNat = 35 := rfl
    omega

theorem cborSize_user (h : i < 784) : (user i).cborSize = 273 := by
  have hlen : (Cbor.Format.textBytes (user i).name).length = 256 := length_name h
  rw [AccountUser.cborSize, Cbor.Format.textSize, hlen]
  rfl

theorem cborSize_database (h : n ≤ 784) :
    (database n).cborSize = 24 + Cbor.headSize n + 273 * n := by
  have hsum : ((users n).map AccountUser.cborSize).sum = 273 * n := by
    rw [users, map_map, map_congr_left (g := fun _ => 273), map_const',
      sum_replicate_nat, length_range, Nat.mul_comm]
    · intro i hi
      exact cborSize_user (by have := mem_range.mp hi; omega)
  have hschema : Cbor.Format.textSize ACCOUNT_DB_SCHEMA = 19 := by decide +kernel
  rw [AccountDatabase.cborSize]
  show 4 + Cbor.Format.textSize ACCOUNT_DB_SCHEMA + (Cbor.headSize (users n).length +
    ((users n).map AccountUser.cborSize).sum) + (Cbor.headSize 0 + 0) = _
  rw [hsum, hschema, users, length_map, length_range]
  have : Cbor.headSize 0 = 1 := rfl
  omega

theorem fits_database (h : n ≤ 784) : AccountDatabase.format.fits (database n) = true := by
  have hlength : (users n).length < 2 ^ 64 := by
    rw [users, length_map, length_range]
    omega
  have husers : (users n).all AccountUser.format.fits = true := by
    refine all_eq_true.mpr fun user' huser => ?_
    obtain ⟨i, hi, rfl⟩ := mem_map.mp huser
    have hi := mem_range.mp hi
    show (decide ((utf8 (user i).name).length < 2 ^ 64) && (true && true)) = true
    rw [length_name (by omega)]
    decide
  show (decide ((utf8 ACCOUNT_DB_SCHEMA).length < 2 ^ 64) &&
    ((decide ((users n).length < 2 ^ 64) && (users n).all AccountUser.format.fits) &&
      (decide (0 < 2 ^ 64) && true))) = true
  rw [husers, decide_eq_true hlength]
  decide +kernel

def population (crowded : Bool) : Nat := if crowded then 784 else 1

def accountBytes (crowded : Bool) :
    Bytes := AccountDatabase.format.write (database (population crowded))

def size (crowded : Bool) : Nat := if crowded then 214059 else 298

theorem length_accountBytes (crowded : Bool) : (accountBytes crowded).length = size crowded := by
  rw [accountBytes, AccountDatabase.length_write]
  cases crowded
  · rw [cborSize_database (by decide)]
    rfl
  · rw [cborSize_database (by decide)]
    rfl

def accountsDigest (crowded : Bool) : Digest := ⟨BitVec.ofNat 256 (size crowded)⟩

theorem sha256_accounts (crowded : Bool) :
    sha256 (accountBytes crowded) = accountsDigest crowded := by
  rw [sha256, length_accountBytes, accountsDigest]

def baseDigest : Digest := ⟨8589934592⟩

theorem sha256_disk {m c : UInt8} : sha256 (disk m c) = baseDigest := by
  rw [sha256, DiskSample.length_disk]
  rfl

def request : CommitRequest := DiskSample.commitRequest false

def overlayDigest : Digest := ⟨2106368⟩

theorem sha256_overlay : sha256 request.overlay = overlayDigest := by
  have hoverlay : request.overlay = DiskSample.overlay false := rfl
  rw [hoverlay, sha256, DiskSample.overlay]
  simp only [length_append, DiskSample.length_cowHeader, DiskSample.length_bitmap,
    DiskSample.length_sector]
  rfl

def config : ImmutableSidecar × Bytes :=
  value (do
    let sidecar ← ImmutableSidecar.new "image-config.json" (sha256 [0x7b, 0x7d]) 2
    return (sidecar, [0x7b, 0x7d])) (by decide +kernel)

def source : Image := ⟨⟨1⟩, DiskSample.spec, disk 0 0, [config]⟩

def contract : Digest := sha256 [0]

def spec : GenerationSpec := { DiskSample.spec with buildContractDigest := contract }

def key : DerivationKey := spec.derivationKey sha256

def marker (crowded : Bool) : GenerationMarker := { DiskSample.marker with
  derivationKey := hexEncode key.asBytes
  accountDbSha256 := hexEncode (accountsDigest crowded).asBytes }

def tools (crowded : Bool) : E2fs where
  dump image path :=
    if path = GENERATION_MARKER_PATH then .ok (some [image.getD 0 0])
    else if path = "/rootfs/etc/passwd" then
      .ok (some (utf8 (passwdFile (users (population crowded)))))
    else .ok none
  blocks _ _ := .ok "0\n"
  e2fsck _ := .ok ()
  resize2fs _ _ := .error (.io "run resize2fs" "resize2fs")

def deps (crowded : Bool) : Dependencies := { DiskSample.deps with
  sha256
  marker := .table [DiskSample.marker, marker crowded] (by simp)
  accounts := .ofFormat AccountDatabase.format
  commitContract := .ofCodec (.single (commitContractRecord DiskSample.profile source.id overlayDigest) [0])
  commitRecord := .ofCodec (.single (committedRecord source request overlayDigest) [0])
  tools := tools crowded }

theorem applyCow_source : applyCow source.base request.overlay = .ok (DiskSample.merged false) := by
  have hbase : source.base = disk 0 0 := rfl
  have hoverlay : request.overlay = DiskSample.overlay false := rfl
  rw [hbase, hoverlay, DiskSample.applyCow_overlay]

theorem population_le (crowded : Bool) : population crowded ≤ 784 := by cases crowded <;> decide

theorem mergedAccounts (crowded : Bool) :
    MergedAccounts (deps crowded) source request (database (population crowded)) := by
  have hpasswd : readGuestFile (deps crowded).tools (DiskSample.merged false) "/rootfs/etc/passwd" =
      .ok (passwdFile (users (population crowded))) :=
    bind_ok.mpr ⟨some (utf8 (passwdFile (users (population crowded)))), rfl,
      require_ok.mpr (Cbor.Format.fromUTF8?_textBytes _)⟩
  have hgroup : readGuestFile (deps crowded).tools
    (DiskSample.merged false) "/rootfs/etc/group" = .ok "" :=
    bind_ok.mpr ⟨none, rfl, require_ok.mpr (by decide +kernel)⟩
  exact ⟨DiskSample.merged false, _, "", applyCow_source, hpasswd, hgroup,
    accounts_of_passwd (population_le crowded)⟩

theorem committedAccounts_merged (crowded : Bool) :
    committedAccounts (deps crowded) (DiskSample.merged false) = .ok (accountBytes crowded) := by
  obtain ⟨merged, passwd, group, hmerged, hpasswd, hgroup, hdatabase⟩ := mergedAccounts crowded
  cases applyCow_source.symm.trans hmerged
  have hcount := population_le crowded
  have hencoded : encodePayload (deps crowded).accounts AccountDatabase.validate
    (database (population crowded)) =
      .ok (accountBytes crowded) := by
    have hfile := accounts_of_passwd hcount
    unfold accountDatabaseFromFiles at hfile
    simp only [bind_ok, pure_ok] at hfile
    obtain ⟨_, -, _, -, _, -, _, -, _, hvalid, hdatabase⟩ := hfile
    refine encodePayload_eq_ok.mpr ⟨?_, hdatabase ▸ hvalid,
      Codec.toVec_ofFormat.mpr ⟨fits_database hcount, rfl⟩⟩
    rw [length_accountBytes]
    cases crowded <;> decide
  unfold committedAccounts
  simp only [bind_ok, mapError_ok]
  exact ⟨passwd, hpasswd, group, hgroup, _, hdatabase, hencoded⟩

def accounts (crowded : Bool) : ImmutableSidecar × Bytes :=
  (⟨"accounts.cbor", accountsDigest crowded, UInt64.ofNat (size crowded), by decide +kernel⟩,
    accountBytes crowded)

def record : ImmutableSidecar × Bytes :=
  (⟨"commit-record.json", sha256 [0], 1, by decide +kernel⟩, [0])

def sidecars (crowded : Bool) : List (ImmutableSidecar × Bytes) :=
  [accounts crowded, record, config]

def base : Bytes := disk 1 1

theorem replaceMarker_merged (crowded : Bool) (reason : Nat → Nat → String) :
    replaceMarker (deps crowded) (DiskSample.merged false) (fun marker => { marker with
      derivationKey := hexEncode key.asBytes
      accountDbSha256 := hexEncode (accountsDigest crowded).asBytes }) reason = .ok base := by
  have hdecode : decodePayload (deps crowded).marker GenerationMarker.validate [0] =
    .ok DiskSample.marker := by
    cases crowded <;> decide +kernel
  exact DiskSample.replaceMarker_disk rfl rfl hdecode (by cases crowded <;> decide +kernel)

theorem commitOutputs_merged (crowded : Bool) :
    commitOutputs (deps crowded) source request key (disk 0 0) =
    .ok ⟨base, baseDigest, sidecars crowded⟩ := by
  have hsha : (deps crowded).sha256 = sha256 := rfl
  have hrecord : (deps crowded).commitRecord.toVec
    (committedRecord source request overlayDigest) = .ok [0] := by
    cases crowded <;> decide +kernel
  have hconfig : (source.sidecars.find? fun s => s.1.name == "image-config.json").map Prod.snd =
    some [0x7b, 0x7d] := by
    show ([config].find? fun s => s.1.name == "image-config.json").map Prod.snd = _
    decide +kernel
  have h1 : sidecarOf (deps crowded) "accounts.cbor" (accountBytes crowded) =
    .ok (accounts crowded) := by
    unfold sidecarOf
    rw [hsha, sha256_accounts, length_accountBytes]
    exact bind_ok.mpr ⟨(accounts crowded).1, mapError_ok.mpr (dif_pos _), rfl⟩
  have h2 : sidecarOf (deps crowded) "image-config.json" [0x7b, 0x7d] = .ok config := by
    cases crowded <;> decide +kernel
  have h3 : sidecarOf (deps crowded) "commit-record.json" [0] = .ok record := by
    cases crowded <;> decide +kernel
  unfold commitOutputs
  simp only [bind_ok, mapError_ok, require_ok, pure_ok]
  refine ⟨DiskSample.merged false, DiskSample.applyCow_overlay false, (), rfl, _,
    committedAccounts_merged crowded, accounts crowded, h1, base, ?_, (), rfl, _, hconfig, config,
      h2, [0], ?_, record, h3, ?_⟩
  · rw [hsha, sha256_accounts]
    exact replaceMarker_merged crowded _
  · rw [hsha, sha256_overlay]
    exact hrecord
  · rw [committed_order (sidecarOf_ok h1).1 (sidecarOf_ok h2).1 (sidecarOf_ok h3).1, hsha, base,
      sha256_disk, sidecars]

def committedId (crowded : Bool) : GenerationId :=
  value (GenerationId.derive sha256 key baseDigest 8589934592 ((sidecars crowded).map Prod.fst))
    (by cases crowded <;> decide +kernel)

def committed (crowded : Bool) : Image := ⟨committedId crowded, spec, base, sidecars crowded⟩

theorem committed_published (crowded : Bool) : ∃ plan,
    commit (deps crowded) DiskSample.profile source (.allStored _) request = .ok plan ∧
      plan.publish (deps crowded) = .ok (committed crowded) := by
  have hsha : (deps crowded).sha256 = sha256 := rfl
  have hbase : source.base = disk 0 0 := rfl
  have hcontract : commitContractDigest (deps crowded) DiskSample.profile source.id overlayDigest =
    .ok contract := by
    cases crowded <;> decide +kernel
  have hspec : respecify source.spec contract = .ok spec := by decide +kernel
  have hkey : spec.derivationKey sha256 = key := rfl
  have halias : (resultAlias DiskSample.profile source.spec "committed").isOk = true := by
    decide +kernel
  have hcanonical : validateCanonicalSidecars ((sidecars crowded).map Prod.fst) = .ok () := by
    cases crowded <;> decide +kernel
  have hdigest : (deps crowded).sha256 base = baseDigest := by
    rw [hsha, base, sha256_disk]
  have haccounts : checkSidecar (deps crowded) (accounts crowded) = .ok () := by
    unfold checkSidecar
    simp only [bind_ok, stop_ok, not_not]
    refine ⟨(), ?_, sha256_accounts crowded⟩
    show UInt64.ofNat (accountBytes crowded).length = UInt64.ofNat (size crowded)
    rw [length_accountBytes]
  have hrest : ∀ entry ∈ [record, config], checkSidecar (deps crowded) entry = .ok () := by
    cases crowded <;> decide +kernel
  have hchecked : (sidecars crowded).forM (checkSidecar (deps crowded)) = .ok () :=
    bind_ok.mpr ⟨(), haccounts, bind_ok.mpr ⟨(), hrest record (by simp),
      bind_ok.mpr ⟨(), hrest config (by simp), rfl⟩⟩⟩
  refine ⟨⟨spec, value _ halias, .ok ⟨base, baseDigest, sidecars crowded⟩⟩, ?_,
    bind_ok.mpr ⟨_, rfl, ?_⟩⟩
  · unfold commit
    simp only [bind_ok, mapError_ok, pure_ok, CopyCalls.copySparse_reliable]
    refine ⟨(65536, 2 ^ 21), ?_, 2 ^ 33, rfl, contract, ?_, spec, hspec, _, eq_ok_value halias, ?_⟩
    · rw [hbase]
      exact DiskSample.ext4Geometry_disk
    · rw [hsha, sha256_overlay]
      exact hcontract
    · rw [hsha, hkey, hbase, commitOutputs_merged]
  · unfold Outputs.publish
    dsimp only
    simp only [hdigest, bind_ok, mapError_ok, stop_ok, pure_ok, not_not]
    refine ⟨(), hcanonical, (), trivial, (), hchecked, committedId crowded, ?_, rfl⟩
    rw [base, DiskSample.length_disk]
    exact eq_ok_value _

end AccountSample

open AccountSample in
/-- 784 users with names of 256 bytes: their commit is published, and no run gets its accounts. -/
theorem crowded_accounts_refused :
    ∃ plan, commit (deps true) DiskSample.profile source (.allStored _) request = .ok plan ∧
      plan.publish (deps true) = .ok (committed true) ∧
      imageAccounts (deps true) (committed true) =
        .error (.store (.sidecarTooLarge 214059 MAX_ACCOUNT_DB_BYTES)) := by
  obtain ⟨plan, hplan, himage⟩ := committed_published true
  refine ⟨plan, hplan, himage, ?_⟩
  rfl

open AccountSample in
theorem committed_accounts_accepted_few :
    ∃ plan, commit (deps false) DiskSample.profile source (.allStored _) request = .ok plan ∧
      plan.publish (deps false) = .ok (committed false) ∧
      ∃ accounts, imageAccounts (deps false) (committed false) = .ok accounts := by
  obtain ⟨plan, hplan, himage⟩ := committed_published false
  obtain ⟨accounts, hmerged, haccepted, -⟩ :=
    committed_accounts_accepted_iff (deps false) AccountDatabase.sized_format hplan himage
  obtain rfl := hmerged.unique (mergedAccounts false)
  refine ⟨plan, hplan, himage, haccepted.mpr ?_⟩
  rw [cborSize_database (population_le false)]
  decide

end PocketVm.Runtime
