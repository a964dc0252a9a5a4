import PocketVm.Cbor
import PocketVm.Protocol.Builder

/-!
# The account database of the validator

`account.rs` of `pocket-validator-init`: the validator reads the account files of the mounted image
with a parser of its own. On every pair of texts it agrees with the derivation of the build: both
fail, or both give the same database.
-/

namespace PocketVm.Guest.Validator

open Wire Protocol Checked

def MAX_ACCOUNT_FILE_BYTES : Nat := 4 * 1024 * 1024
def MAX_ACCOUNT_LINE_BYTES : Nat := 64 * 1024

/-- The failures of the stage `account-database`, all with the code of an account failure. -/
inductive AccountFailure where
  | account (diagnostic : String)
  | protocol (e : ProtocolError)
  | io
  deriving DecidableEq

/-- What `lstat` and a read of a path under the root come to. -/
inductive RootfsFile where
  | absent
  | unreadable
  | special
  | plain (bytes : Bytes)
  deriving DecidableEq

def readAccountFile (path : String) : RootfsFile → Except AccountFailure String
  | .absent => .ok ""
  | .unreadable => .error .io
  | .special => .error (.account (path ++ " is not a bounded plain file"))
  | .plain bytes => do
    stop (bytes.length > MAX_ACCOUNT_FILE_BYTES) (.account (path ++ " is not a bounded plain file"))
    require (String.fromUTF8? ⟨bytes.toArray⟩) .io

def accountLines (text : String) : Except AccountFailure (List String) := do
  stop ((lines text).any fun line => decide ((utf8 line).length > MAX_ACCOUNT_LINE_BYTES))
    (.account "account-file line exceeds hard cap")
  return (lines text).filter fun line => line.toList ≠ [] && line.toList.head? ≠ some '#'

def parseId (value field : String) : Except AccountFailure UInt32 := do
  let digits := utf8 value
  stop (digits = [] ∨ ¬digits.all fun b => 48 ≤ b && b ≤ 57)
    (.account (field ++ " is not an unsigned decimal ID"))
  let number : Nat := digits.foldl (fun n b => n * 10 + (b.toNat - 48)) 0
  stop (number ≥ 2 ^ 32) (.account (field ++ " does not fit u32"))
  return UInt32.ofNat number

def validateName (value field : String) : Except AccountFailure Unit :=
  stop (utf8 value = [] ∨ (utf8 value).length > 256 ∨ (utf8 value).any fun b => b ≤ 32 || b == 58 ||
    b == 44 || b == 0x7f)
    (.account (field ++ " name has invalid bytes"))

def parseUser (line : String) : Except AccountFailure AccountUser := do
  let fields := splitText ':' line
  stop (fields.length ≠ 7) (.account "passwd entry does not have seven fields")
  validateName (fields.getD 0 "") "user"
  let uid ← parseId (fields.getD 2 "") "passwd uid"
  let gid ← parseId (fields.getD 3 "") "passwd gid"
  return ⟨fields.getD 0 "", uid, gid⟩

def parseGroup (line : String) : Except AccountFailure AccountGroup := do
  let fields := splitText ':' line
  stop (fields.length ≠ 4) (.account "group entry does not have four fields")
  validateName (fields.getD 0 "") "group"
  let members ← ((splitText ',' (fields.getD 3 "")).filter (· ≠ "")).mapM fun member => do
    validateName member "group member"
    return member
  let gid ← parseId (fields.getD 2 "") "group gid"
  return ⟨fields.getD 0 "", gid, (members.insertionSort fun a b =>
    utf8 a ≤ utf8 b).destutter (· ≠ ·)⟩

def rebuildAccountDatabase (sha256 : Bytes → Digest) (codec : Codec AccountDatabase)
    (rootfs : String) (passwd group : RootfsFile) : Except AccountFailure AccountDb := do
  let passwd ← readAccountFile (rootfs ++ "/etc/passwd") passwd
  let groups ← readAccountFile (rootfs ++ "/etc/group") group
  let passwd ← accountLines passwd
  let users ← passwd.mapM parseUser
  let groups ← accountLines groups
  let accountGroups ← groups.mapM parseGroup
  let database : AccountDatabase := {
    schema := ACCOUNT_DB_SCHEMA
    users := users.insertionSort fun a b => utf8 a.name ≤ utf8 b.name
    groups := accountGroups.insertionSort fun a b => utf8 a.name ≤ utf8 b.name }
  database.validate.mapError .protocol
  (AccountDb.fromDatabase sha256 codec database).mapError .protocol

theorem validateName_agrees (value field nameField : String) :
    (validateName value field).toOption = (validateAccountName nameField value).toOption := by
  have hnul : (utf8 value).contains 0 = true →
    ((utf8 value).any fun b => b ≤ 32 || b == 58 || b == 44 || b == 0x7f) = true :=
    fun h => List.any_eq_true.mpr ⟨0, List.contains_iff_mem.mp h, by decide⟩
  refine toOption_congr fun u => ?_
  simp only [validateName, validateAccountName, Protocol.validateText, bind_ok, stop_ok,
    validateCount_ok, refuse_ok, not_or, not_lt]
  constructor
  · rintro ⟨hempty, hlong, hbytes⟩
    exact ⟨(), ⟨(), hlong, (), by simpa using hempty, fun h => hbytes (hnul h)⟩, hbytes⟩
  · rintro ⟨-, ⟨-, hlong, -, hempty, -⟩, hbytes⟩
    exact ⟨by simpa using hempty, hlong, hbytes⟩

theorem parseId_agrees (value field : String) :
    (parseId value field).toOption = (parseAccountId value field).toOption := by
  simp only [parseId, parseAccountId, refuse, toOption_bind, toOption_stop, toOption_pure]

theorem accountLines_agrees (text : String) :
    (accountLines text).toOption = (Protocol.accountLines text).toOption := by
  simp only [accountLines, Protocol.accountLines, refuse, toOption_bind, toOption_stop,
    toOption_pure]
  rfl

theorem parseUser_agrees (line : String) :
    (parseUser line).toOption = (Protocol.parseUser line).toOption := by
  unfold parseUser Protocol.parseUser
  rcases splitText ':' line with _ |
    ⟨name, _ | ⟨_, _ | ⟨uid, _ | ⟨gid, _ | ⟨_, _ | ⟨_, _ | ⟨_, _ | ⟨_, _⟩⟩⟩⟩⟩⟩⟩⟩
  case cons.cons.cons.cons.cons.cons.cons.nil =>
    simp only [toOption_bind, toOption_pure, parseId_agrees,
      validateName_agrees _ "user" "passwd.name"]
    rfl
  all_goals
    rfl

theorem parseGroup_agrees (line : String) :
    (parseGroup line).toOption = (Protocol.parseGroup line).toOption := by
  have hmember : ∀ member, (do
      validateName member "group member"
      return member : Except AccountFailure String).toOption = (do
      validateAccountName "group.members" member
      return member : Except ProtocolError String).toOption := by
    intro member
    rw [toOption_bind, toOption_bind, validateName_agrees member "group member" "group.members"]
    rfl
  unfold parseGroup Protocol.parseGroup
  rcases splitText ':' line with _ | ⟨name, _ | ⟨_, _ | ⟨gid, _ | ⟨members, _ | ⟨_, _⟩⟩⟩⟩⟩
  case cons.cons.cons.cons.nil =>
    simp only [toOption_bind, toOption_pure, parseId_agrees,
      validateName_agrees _ "group" "group.name", toOption_mapM hmember]
    rfl
  all_goals
    rfl

theorem readAccountFile_plain (path : String) {text : String}
    (h : (utf8 text).length ≤ MAX_ACCOUNT_FILE_BYTES) :
    readAccountFile path (.plain (utf8 text)) = .ok text := by
  have hdecode : String.fromUTF8? ⟨(utf8 text).toArray⟩ = some text :=
    Cbor.Format.fromUTF8?_textBytes text
  simp only [readAccountFile, bind_ok, stop_ok, require_ok]
  exact ⟨(), Nat.not_lt.mpr h, hdecode⟩

/-- On every pair of account files, of any text within the bound, the validator and the build both
fail or both give the same account database. -/
theorem rebuild_agrees_with_build {sha256 : Bytes → Digest} {codec : Codec AccountDatabase}
    (rootfs : String) {passwd group : String}
    (hpasswd : (utf8 passwd).length ≤ MAX_ACCOUNT_FILE_BYTES)
    (hgroup : (utf8 group).length ≤ MAX_ACCOUNT_FILE_BYTES) :
    (rebuildAccountDatabase sha256 codec rootfs (.plain (utf8 passwd))
      (.plain (utf8 group))).toOption =
      (accountDatabaseFromFiles passwd group >>= AccountDb.fromDatabase sha256 codec).toOption := by
  unfold rebuildAccountDatabase accountDatabaseFromFiles
  rw [readAccountFile_plain _ hpasswd, readAccountFile_plain _ hgroup]
  simp only [toOption_bind, toOption_pure, toOption_mapError, accountLines_agrees,
    toOption_mapM parseUser_agrees, toOption_mapM parseGroup_agrees]
  simp only [Option.bind_assoc, Option.bind_some]
  rfl

namespace AccountSample

def passwd : String := "root:x:0:0:root:/root:/bin/sh\n# none\nadmin:x:7:7:::\r\n"
def group : String := "\nwheel:x:10:root,,admin,root\n"

def database : AccountDatabase :=
  ⟨ACCOUNT_DB_SCHEMA, [⟨"admin", 7, 7⟩, ⟨"root", 0, 0⟩], [⟨"wheel", 10, ["admin", "root"]⟩]⟩

def databases : Codec AccountDatabase := .table [database] (by decide)

def sha256 (bytes : Bytes) : Digest := ⟨BitVec.ofNat 256 (readBE bytes)⟩

end AccountSample

open AccountSample in
/-- A comment, an empty line, a carriage return, an empty and a repeated member. -/
theorem rebuild_agrees_on_untidy_files :
    (accountDatabaseFromFiles passwd group).toOption = some database ∧
      (rebuildAccountDatabase sha256 databases "/rootfs" (.plain (utf8 passwd))
        (.plain (utf8 group))).toOption =
        (accountDatabaseFromFiles passwd group >>=
          AccountDb.fromDatabase sha256 databases).toOption :=
  ⟨by decide +kernel, rebuild_agrees_with_build "/rootfs" (by decide +kernel) (by decide +kernel)⟩

end PocketVm.Guest.Validator
