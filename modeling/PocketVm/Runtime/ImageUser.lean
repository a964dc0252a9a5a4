import PocketVm.Runtime.HostBuilder

/-!
# The user of an image, as the builder guest resolves it

`user.rs` of `pocket-builder-init`: the `User` of an image's configuration is looked up in the
account database of the finished root filesystem. A name that the database lacks leaves the user
unresolved.
-/

namespace PocketVm.Protocol

open Wire Checked

def allDigits (value : String) : Bool := (utf8 value).all fun b => 48 ≤ b && b ≤ 57

def parseU32 (value : String) : Option UInt32 :=
  let number := (utf8 value).foldl (fun n b => n * 10 + (b.toNat - 48)) 0
  if number < 2 ^ 32 then some (UInt32.ofNat number) else none

def splitUser (original : String) : Option (String × Option String) :=
  match splitText ':' original with
  | [user] => if user = "" then none else some (user, none)
  | [user, group] => if user = "" ∨ group = "" then none else some (user, some group)
  | _ => none

def hasForbiddenByte (original : String) : Bool := (utf8 original).any fun b =>
    b == 0 || b == 10 || b == 13

def isAccountName (value : String) : Bool :=
  value ≠ "" && (utf8 value).length ≤ 256 && !(utf8 value).any fun b => b ≤ 32 || b == 58 ||
    b == 44 || b == 0x7f

/-- `binary_search_by` on users, whose names are sorted and unique in a valid database. -/
def AccountDatabase.user (database : AccountDatabase) (name : String) : Option AccountUser :=
  database.users.find? (·.name == name)

def AccountDatabase.group (database : AccountDatabase) (name : String) : Option AccountGroup :=
  database.groups.find? (·.name == name)

def AccountDatabase.gidsOf (database : AccountDatabase) (username : String) : List UInt32 :=
  (database.groups.filter (·.members.contains username)).map AccountGroup.gid

/-- What the user part says: the ids, the name that groups list, and how it was found. -/
structure FoundUser where
  uid : UInt32
  defaultGid : UInt32
  username : Option String
  kind : UInt8
  deriving DecidableEq

/-- A user given by number, with the account that has it, if there is one. -/
def FoundUser.numeric (uid : UInt32) : Option AccountUser → FoundUser
  | some record => ⟨uid, record.gid, some record.name, 1⟩
  | none => ⟨uid, 0, none, 1⟩

def FoundUser.named (record : AccountUser) :
    FoundUser := ⟨record.uid, record.gid, some record.name, 2⟩

def supplementaryGids (database : AccountDatabase) (username groupPart : Option String) :
    List UInt32 :=
  match groupPart, username with
  | none, some username => database.gidsOf username
  | _, _ => []

/-- `sort_unstable` and `dedup`. -/
def sortedGids (gids : List UInt32) : List UInt32 := (gids.insertionSort (· ≤ ·)).destutter (· ≠ ·)

def UserResolution.unresolved : UserResolution := ⟨UserResolution.KIND_UNRESOLVED, 0, 0, []⟩

end PocketVm.Protocol

namespace PocketVm.Guest

open Wire Checked Protocol

inductive BuilderError where
  | protocol (stage : String) (error : ProtocolError)
  | contract (stage diagnostic : String)
  deriving DecidableEq

def resolveError (diagnostic : String) : BuilderError := .contract "resolve-user" diagnostic

def parseRequiredId (value field : String) : Except BuilderError UInt32 := do
  stop (value = "" ∨ ¬allDigits value) (resolveError (field ++ " is not an unsigned decimal ID"))
  require (parseU32 value) (resolveError (field ++ " does not fit u32"))

def parseOptionalId (value field : String) : Except BuilderError (Option UInt32) :=
  if allDigits value then some <$> parseRequiredId value field else .ok none

def validateName (value field : String) : Except BuilderError Unit :=
  stop (¬isAccountName value) (resolveError (field ++ " is empty, oversized, or holds a forbidden byte"))

def findUniqueUser (found : List AccountUser) (matchKind : String) :
    Except BuilderError (Option AccountUser) := do
  stop (found.length > 1) (resolveError ("passwd has multiple entries matching " ++ matchKind))
  return found.head?

def resolveUserPart (database : AccountDatabase) (userPart : String) :
    Except BuilderError FoundUser := do
  match ← parseOptionalId userPart "user" with
  | some uid =>
    let record ← findUniqueUser (database.users.filter (·.uid == uid)) "numeric user ID"
    return .numeric uid record
  | none =>
    validateName userPart "user"
    return match database.user userPart with
      | some record => .named record
      | none => ⟨0, 0, some userPart, UserResolution.KIND_UNRESOLVED⟩

/-- The primary group; `none` is a name that the database lacks. -/
def resolveGroupPart (database : AccountDatabase) (defaultGid : UInt32) : Option String →
    Except BuilderError (Option UInt32)
  | none => .ok (some defaultGid)
  | some group => do
    match ← parseOptionalId group "group" with
    | some gid => return some gid
    | none =>
      validateName group "group"
      return (database.group group).map AccountGroup.gid

def resolveImageUserFromDatabase (database : AccountDatabase) (original : String) :
    Except BuilderError UserResolution := do
  database.validate.mapError (.protocol "resolve-user")
  stop ((utf8 original).length > MAX_ORIGINAL_USER_LENGTH ∨ hasForbiddenByte original)
    (resolveError "image User is oversized or contains a forbidden byte")
  if original = "" then return ⟨0, 0, 0, []⟩
  else do
    let (userPart, groupPart) ← require (splitUser original)
      (resolveError "image User must be user-or-uid with at most one nonempty group suffix")
    let user ← resolveUserPart database userPart
    let group ← resolveGroupPart database user.defaultGid groupPart
    let unresolved := user.kind = UserResolution.KIND_UNRESOLVED ∨ group = none
    let gid := group.getD 0
    let all := supplementaryGids database user.username groupPart
    let gids := sortedGids (if unresolved then all else all.filter (· ≠ gid))
    stop (gids.length > 64) (resolveError "resolved supplementary group count exceeds hard cap")
    return if unresolved then UserResolution.unresolved else ⟨user.kind, user.uid, gid, gids⟩

end PocketVm.Guest

/-! ### The same user, as the host resolves it for a run -/

namespace PocketVm.Runtime

open Wire Checked Protocol

def userError (reason : String) : RuntimeError := .invalidConfiguration "image.user" reason

def parseOptionalId (value field : String) : Except RuntimeError (Option UInt32) :=
  if allDigits value then do
    stop (value = "") (userError (field ++ " is empty"))
    some <$> require (parseU32 value) (userError ("numeric " ++ field ++ " does not fit u32"))
  else .ok none

def validateAccountName (value field : String) : Except RuntimeError Unit :=
  stop (¬isAccountName value) (userError (field ++ " name has invalid bytes"))

def findUniqueUser (found : List AccountUser) (matchKind : String) :
    Except RuntimeError (Option AccountUser) := do
  stop (found.length > 1) (userError ("account database has multiple entries matching " ++ matchKind))
  return found.head?

def resolveUserPart (database : AccountDatabase) (userPart : String) :
    Except RuntimeError FoundUser := do
  match ← parseOptionalId userPart "user" with
  | some uid =>
    let record ← findUniqueUser (database.users.filter (·.uid == uid)) "numeric user ID"
    return .numeric uid record
  | none =>
    validateAccountName userPart "user"
    let record ← require (database.user userPart)
      (userError ("named user " ++ userPart.quote ++ " was not found"))
    return .named record

def resolveGroupPart (database : AccountDatabase) (defaultGid : UInt32) : Option String →
    Except RuntimeError UInt32
  | none => .ok defaultGid
  | some group => do
    match ← parseOptionalId group "group" with
    | some gid => return gid
    | none =>
      validateAccountName group "group"
      let record ← require (database.group group)
        (userError ("named group " ++ group.quote ++ " was not found"))
      return record.gid

def resolveUser (database : AccountDatabase) (original : String) :
    Except RuntimeError UserResolution := do
  stop (original = "" ∨ (utf8 original).length > MAX_ORIGINAL_USER_LENGTH ∨
    hasForbiddenByte original) (userError "User is empty, oversized, or contains a forbidden byte")
  let (userPart, groupPart) ← require (splitUser original)
    (userError "User must be user-or-uid with at most one nonempty group suffix")
  let user ← resolveUserPart database userPart
  let gid ← resolveGroupPart database user.defaultGid groupPart
  let gids := sortedGids ((supplementaryGids database user.username groupPart).filter (· ≠ gid))
  stop (gids.length > 64) (userError "resolved supplementary group count exceeds 64")
  return ⟨user.kind, user.uid, gid, gids⟩

section

variable {database : AccountDatabase} {value field matchKind : String} {found : List AccountUser}

/-- The numeric reading of a text: none if it is not made of digits. -/
def OptionalId (value : String) (id : Option UInt32) : Prop :=
  if allDigits value then value ≠ "" ∧ ∃ n, parseU32 value = some n ∧ id = some n else id = none

theorem parseOptionalId_ok {id : Option UInt32} : parseOptionalId value field = .ok id ↔
    OptionalId value id := by
  unfold parseOptionalId OptionalId
  split
  · simp only [bind_ok, stop_ok, map_ok, require_ok, exists_and_left, exists_const]
    refine and_congr_right fun _ => exists_congr fun n => and_congr_right fun _ => eq_comm
  · rw [Except.ok.injEq, eq_comm]

theorem guest_parseOptionalId_ok {id : Option UInt32} :
    Guest.parseOptionalId value field = .ok id ↔ OptionalId value id := by
  unfold Guest.parseOptionalId Guest.parseRequiredId OptionalId
  split
  · next hdigits =>
    simp only [map_ok, bind_ok, stop_ok, require_ok, not_or, not_not, exists_and_left, exists_const,
      hdigits, and_true]
    constructor
    · rintro ⟨n, ⟨hne, hn⟩, rfl⟩
      exact ⟨hne, n, hn, rfl⟩
    · rintro ⟨hne, n, hn, rfl⟩
      exact ⟨n, ⟨hne, hn⟩, rfl⟩
  · rw [Except.ok.injEq, eq_comm]

theorem findUniqueUser_ok {user : Option AccountUser} :
    findUniqueUser found matchKind = .ok user ↔
      Guest.findUniqueUser found matchKind = .ok user := by
  unfold findUniqueUser Guest.findUniqueUser
  simp only [bind_ok, stop_ok, pure_ok]

theorem validateAccountName_ok {u : Unit} :
    validateAccountName value field = .ok u ↔ Guest.validateName value field = .ok u := by
  rw [validateAccountName, Guest.validateName, stop_ok, stop_ok]

theorem resolveUserPart_ok {user : FoundUser} : resolveUserPart database value = .ok user ↔
    Guest.resolveUserPart database value = .ok user ∧
      user.kind ≠ UserResolution.KIND_UNRESOLVED := by
  have hnumeric : ∀ uid record, (FoundUser.numeric uid record).kind = 1 :=
    fun uid record => by cases record <;> rfl
  unfold resolveUserPart Guest.resolveUserPart
  simp only [bind_ok, parseOptionalId_ok, guest_parseOptionalId_ok]
  constructor
  · rintro ⟨id, hid, h⟩
    cases id with
    | some uid =>
      simp only [bind_ok, findUniqueUser_ok, pure_ok] at h
      obtain ⟨record, hrecord, rfl⟩ := h
      refine ⟨⟨some uid, hid, bind_ok.mpr ⟨record, hrecord, rfl⟩⟩, ?_⟩
      rw [hnumeric]
      decide
    | none =>
      simp only [bind_ok, validateAccountName_ok, require_ok, pure_ok] at h
      obtain ⟨_, hname, record, hrecord, rfl⟩ := h
      refine ⟨⟨none, hid, bind_ok.mpr ⟨(), hname, ?_⟩⟩, show (2 : UInt8) ≠ 3 by decide⟩
      rw [hrecord]
      rfl
  · rintro ⟨⟨id, hid, h⟩, hkind⟩
    cases id with
    | some uid =>
      simp only [bind_ok, pure_ok] at h
      obtain ⟨record, hrecord, rfl⟩ := h
      exact ⟨some uid, hid, bind_ok.mpr ⟨record, findUniqueUser_ok.mpr hrecord, rfl⟩⟩
    | none =>
      simp only [bind_ok, pure_ok] at h
      obtain ⟨_, hname, rfl⟩ := h
      refine ⟨none, hid, bind_ok.mpr ⟨(), validateAccountName_ok.mpr hname, ?_⟩⟩
      cases hrecord : database.user value with
      | some record => rfl
      | none =>
        rw [hrecord] at hkind
        exact absurd rfl hkind

theorem resolveGroupPart_ok {defaultGid gid : UInt32} {group : Option String} :
    resolveGroupPart database defaultGid group = .ok gid ↔
      Guest.resolveGroupPart database defaultGid group = .ok (some gid) := by
  cases group with
  | none =>
    rw [resolveGroupPart, Guest.resolveGroupPart, Except.ok.injEq, Except.ok.injEq,
      Option.some.injEq]
  | some group =>
    unfold resolveGroupPart Guest.resolveGroupPart
    simp only [bind_ok, parseOptionalId_ok, guest_parseOptionalId_ok]
    refine exists_congr fun id => and_congr_right fun _ => ?_
    cases id with
    | some id => rw [pure_ok, pure_ok, Option.some.injEq]
    | none =>
      simp only [bind_ok, validateAccountName_ok, require_ok, pure_ok, Option.map_eq_some_iff]

end

theorem resolves_iff {database : AccountDatabase} {original : String} {resolution : UserResolution}
    (hvalid : database.validate = .ok ()) (hne : original ≠ "") :
    (Guest.resolveImageUserFromDatabase database original = .ok resolution ∧
        resolution.kind ≠ UserResolution.KIND_UNRESOLVED) ↔
          resolveUser database original = .ok resolution := by
  unfold Guest.resolveImageUserFromDatabase resolveUser
  simp only [bind_ok, mapError_ok, stop_ok, require_ok, hvalid, resolveUserPart_ok,
    resolveGroupPart_ok, pure_ok, true_and, exists_const, not_or, hne, not_false_eq_true, if_false]
  constructor
  · rintro ⟨⟨htext, ⟨userPart, groupPart⟩, hsplit, user, huser, group, hgroup, hcount, rfl⟩, hkind⟩
    -- a resolution with ids comes from a user and a group that were both found
    by_cases hunresolved : user.kind = UserResolution.KIND_UNRESOLVED ∨ group = none
    · rw [if_pos hunresolved] at hkind
      exact absurd rfl hkind
    · rw [if_neg hunresolved] at hcount
      rw [if_neg hunresolved, if_neg hunresolved]
      obtain ⟨hfound, hsome⟩ := not_or.mp hunresolved
      obtain ⟨gid, rfl⟩ := Option.ne_none_iff_exists'.mp hsome
      exact ⟨htext, (userPart, groupPart), hsplit, user, ⟨huser, hfound⟩, gid, hgroup, hcount, rfl⟩
  · rintro ⟨htext, ⟨userPart, groupPart⟩, hsplit, user, ⟨huser, hfound⟩, gid, hgroup, hcount, rfl⟩
    have hresolved : ¬(user.kind = UserResolution.KIND_UNRESOLVED ∨ some gid = none) := by
      rintro (h | h)
      · exact hfound h
      · cases h
    refine ⟨⟨htext, (userPart, groupPart), hsplit, user, huser, some gid, hgroup, ?_, ?_⟩, hfound⟩
    · rw [if_neg hresolved]
      exact hcount
    · rw [if_neg hresolved, if_neg hresolved]
      rfl

/-- For a valid database and a nonempty user, either the builder guest and the host both find no ids
(the guest fails or leaves the user unresolved, the host fails) or they find the same. -/
theorem resolvers_agree (database : AccountDatabase) (original : String)
    (hvalid : database.validate = .ok ())
    (hne : original ≠ "") :
    ((∀ resolution, Guest.resolveImageUserFromDatabase database original = .ok resolution →
        resolution.kind = UserResolution.KIND_UNRESOLVED) ∧
      ∀ resolution, resolveUser database original ≠ .ok resolution) ∨
    ∃ resolution, Guest.resolveImageUserFromDatabase database original = .ok resolution ∧
      resolution.kind ≠ UserResolution.KIND_UNRESOLVED ∧
        resolveUser database original = .ok resolution := by
  by_cases h : ∃ resolution, resolveUser database original = .ok resolution
  · obtain ⟨resolution, hresolution⟩ := h
    obtain ⟨hguest, hkind⟩ := (resolves_iff hvalid hne).mpr hresolution
    exact .inr ⟨resolution, hguest, hkind, hresolution⟩
  · refine .inl ⟨fun resolution hguest => ?_, fun resolution hresolution =>
      h ⟨resolution, hresolution⟩⟩
    by_contra hkind
    exact h ⟨resolution, (resolves_iff hvalid hne).mp ⟨hguest, hkind⟩⟩

/-- A user with a supplementary group, by name and by number. -/
theorem resolvers_agree_sample :
    let database : AccountDatabase := ⟨ACCOUNT_DB_SCHEMA, [⟨"app", 123, 456⟩],
      [⟨"extra", 789, ["app"]⟩]⟩
    resolveUser database "app" = .ok ⟨2, 123, 456, [789]⟩ ∧
      (((∀ resolution, Guest.resolveImageUserFromDatabase database "app" = .ok resolution →
          resolution.kind = UserResolution.KIND_UNRESOLVED) ∧
        ∀ resolution, resolveUser database "app" ≠ .ok resolution) ∨
      ∃ resolution, Guest.resolveImageUserFromDatabase database "app" = .ok resolution ∧
        resolution.kind ≠ UserResolution.KIND_UNRESOLVED ∧
          resolveUser database "app" = .ok resolution) :=
  ⟨by decide +kernel, resolvers_agree _ "app" (by decide +kernel) (by decide)⟩

end PocketVm.Runtime
