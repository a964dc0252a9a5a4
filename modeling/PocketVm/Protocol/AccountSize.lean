import PocketVm.Cbor
import PocketVm.Numeral
import PocketVm.Protocol.Builder

/-!
# How large an account database is

`minicbor` writes the accounts as maps with the indices of the fields for keys, so that the size of
a database is a sum over its entries. Any users with names in order can be had from a passwd file,
and so any such size.
-/

namespace PocketVm.Protocol

open Wire Checked Cbor List

/-- The codec of a format: what fits is written, and what follows a value is left alone. -/
def Codec.ofFormat {α : Type} (format : Format α) : Codec α where
  toVec x := if format.fits x then
    .ok (format.write x) else .error "value does not fit its encoding"
  decode bytes := (require (format.read bytes) "malformed").map fun x =>
    (x.1, bytes.length - x.2.length)
  decode_toVec {x bytes} h := by
    by_cases hfits : format.fits x = true
    · rw [if_pos hfits] at h
      cases h
      have hread := format.read_write [] hfits
      rw [append_nil] at hread
      rw [hread]
      rfl
    · rw [if_neg hfits] at h
      cases h

theorem Codec.toVec_ofFormat {α : Type} {format : Format α} {x : α} {bytes : Bytes} :
    (Codec.ofFormat format).toVec x = .ok bytes ↔
      format.fits x = true ∧ bytes = format.write x := by
  show (if format.fits x = true then _ else _) = _ ↔ _
  by_cases hfits : format.fits x = true
  · rw [if_pos hfits, Except.ok.injEq, and_iff_right hfits, eq_comm]
  · rw [if_neg hfits]
    exact iff_of_false (by rintro ⟨⟩) fun h => hfits h.1

def AccountUser.format : Format AccountUser :=
  (Format.record .text .u32 .u32).via (fun user => (user.name, user.uid, user.gid)) (fun x =>
    ⟨x.1, x.2.1, x.2.2⟩)
    fun _ => rfl

def AccountGroup.format : Format AccountGroup :=
  (Format.record .text .u32 (.array .text)).via (fun group => (group.name, group.gid,
    group.members))
    (fun x => ⟨x.1, x.2.1, x.2.2⟩) fun _ => rfl

def AccountDatabase.format : Format AccountDatabase :=
  (Format.record .text (.array AccountUser.format) (.array AccountGroup.format)).via
    (fun database => (database.schema, database.users, database.groups)) (fun x =>
      ⟨x.1, x.2.1, x.2.2⟩) fun _ => rfl

def AccountUser.cborSize (user : AccountUser) : Nat :=
  4 + Format.textSize user.name + headSize user.uid.toNat + headSize user.gid.toNat

def AccountGroup.cborSize (group : AccountGroup) : Nat :=
  4 + Format.textSize group.name + headSize group.gid.toNat +
    (headSize group.members.length + (group.members.map Format.textSize).sum)

def AccountDatabase.cborSize (database : AccountDatabase) : Nat :=
  4 + Format.textSize database.schema + (headSize database.users.length + (database.users.map AccountUser.cborSize).sum) +
    (headSize database.groups.length + (database.groups.map AccountGroup.cborSize).sum)

theorem AccountUser.length_write (user : AccountUser) :
    (format.write user).length = user.cborSize := by
  show ((Format.record .text .u32 .u32).write (user.name, user.uid, user.gid)).length = _
  rw [Format.length_record, Format.length_text, Format.length_u32, Format.length_u32, cborSize]

theorem AccountGroup.length_write (group : AccountGroup) :
    (format.write group).length = group.cborSize := by
  show ((Format.record .text .u32 (.array .text)).write (group.name, group.gid,
    group.members)).length = _
  rw [Format.length_record, Format.length_text, Format.length_u32,
    Format.length_array _ Format.length_text, cborSize]

theorem AccountDatabase.length_write (database : AccountDatabase) :
    (format.write database).length = database.cborSize := by
  show ((Format.record .text (.array AccountUser.format) (.array AccountGroup.format)).write
    (database.schema, database.users, database.groups)).length = _
  rw [Format.length_record, Format.length_text, Format.length_array _ AccountUser.length_write,
    Format.length_array _ AccountGroup.length_write, cborSize]

/-- A codec that writes a database in as many bytes as its entries take. -/
def Codec.Sized (codec : Codec AccountDatabase) : Prop :=
  ∀ {database : AccountDatabase} {bytes : Bytes}, codec.toVec database = .ok bytes →
    bytes.length = database.cborSize

theorem AccountDatabase.sized_format : (Codec.ofFormat AccountDatabase.format).Sized := by
  intro database bytes h
  obtain ⟨-, rfl⟩ := Codec.toVec_ofFormat.mp h
  exact database.length_write

def IsName (name : String) : Prop :=
  0 < (utf8 name).length ∧ (utf8 name).length ≤ MAX_ACCOUNT_NAME_BYTES ∧
    ∀ b ∈ utf8 name, 32 < b ∧ b ≠ 58 ∧ b ≠ 44 ∧ b ≠ 0x7f

theorem validateAccountName_ok {field name : String} {u : Unit} :
    validateAccountName field name = .ok u ↔ IsName name := by
  unfold validateAccountName validateText IsName
  simp only [bind_ok, validateCount_ok, refuse_ok, Bool.not_false, Bool.true_and,
    List.isEmpty_iff, any_eq_true, not_exists, not_and, Bool.or_eq_true, decide_eq_true_eq,
      beq_iff_eq, not_or, UInt8.not_le, exists_const,
    contains_iff_mem, length_pos_iff]
  constructor
  · rintro ⟨⟨hlen, hne, -⟩, hbytes⟩
    exact ⟨hne, hlen, fun b hb => ⟨(hbytes b hb).1.1.1, (hbytes b hb).1.1.2, (hbytes b hb).1.2,
      (hbytes b hb).2⟩⟩
  · rintro ⟨hne, hlen, hbytes⟩
    refine ⟨⟨hlen, hne, fun hzero => absurd (hbytes 0 hzero).1 (by decide)⟩, fun b hb => ?_⟩
    obtain ⟨h1, h2, h3, h4⟩ := hbytes b hb
    exact ⟨⟨⟨h1, h2⟩, h3⟩, h4⟩

theorem validateSortedNames_ok {nameField field reason : String} {previous : Option String}
    {names : List String}
    {u : Unit} : validateSortedNames nameField field reason previous names = .ok u ↔
      (∀ name ∈ names, IsName name) ∧ (previous.toList ++ names).IsChain fun a b =>
        utf8 a < utf8 b := by
  induction names generalizing previous with
  | nil => cases previous <;> simp [validateSortedNames, validateEach]
  | cons name names ih =>
    show (do (do validateAccountName nameField name
                 refuse (notAfter (previous.map utf8) (utf8 name)) field reason)
             validateSortedNames nameField field reason (some name) names) = .ok u ↔ _
    have hafter : ¬notAfter (previous.map utf8) (utf8 name) = true ↔ ∀ a ∈ previous,
      utf8 a < utf8 name := by
      cases previous <;> simp [notAfter]
    simp only [bind_ok, validateAccountName_ok, refuse_ok, ih, hafter, exists_const,
      forall_mem_cons]
    cases previous with
    | none =>
      tauto
    | some a =>
      simp only [Option.toList_some, singleton_append, isChain_cons_cons, Option.mem_def,
        Option.some.injEq, forall_eq']
      tauto

section

variable {text : String} {users : List AccountUser} {user : AccountUser}

theorem ascii_mem_utf8 {c : Char} (hc : c.toNat < 128) (h : c ∈ text.toList) :
    UInt8.ofNat c.toNat ∈ utf8 text := by
  have hbyte : UInt8.ofNat c.toNat ∈ String.utf8EncodeChar c := by
    have hle : c.val.toNat ≤ 127 := Nat.le_of_lt_succ hc
    rw [String.utf8EncodeChar, if_pos hle]
    exact mem_singleton_self _
  rw [← String.ofList_toList (s := text), utf8_ofList]
  exact mem_flatMap.mpr ⟨c, h, hbyte⟩

def decimal (n : Nat) : List Char := (Numeral.print 10 n).map fun b => Char.ofNat b.toNat

def passwdFields (user : AccountUser) : List (List Char) :=
  [user.name.toList, ['x'], decimal user.uid.toNat, decimal user.gid.toNat, [], [], []]

def passwdLine (user : AccountUser) : List Char := [':'].intercalate (passwdFields user)

def passwdFile (users : List AccountUser) :
    String := String.ofList (['\n'].intercalate (users.map passwdLine ++ [[]]))

theorem digit_char {b : UInt8} (h : Numeral.isDigit 10 b = true) :
    (Char.ofNat b.toNat).toNat = b.toNat ∧ 48 ≤ b.toNat ∧ b.toNat < 58 := by
  simp only [Numeral.isDigit, Bool.and_eq_true, decide_eq_true_eq] at h
  have hall : ∀ n < 58, (Char.ofNat n).toNat = n := by decide
  exact ⟨hall _ h.2, h.1, h.2⟩

theorem decimal_digit {c : Char} {n : Nat} (h : c ∈ decimal n) : 48 ≤ c.toNat ∧ c.toNat < 58 := by
  obtain ⟨b, hb, rfl⟩ := mem_map.mp h
  obtain ⟨hchar, hlo, hhi⟩ := digit_char (Numeral.isDigit_print (by decide) (by decide) b hb)
  omega

theorem utf8_decimal (n : Nat) : utf8 (String.ofList (decimal n)) = Numeral.print 10 n := by
  rw [utf8_ofList_ascii fun c hc => lt_trans (decimal_digit hc).2 (by decide), decimal, map_map]
  conv_rhs => rw [← map_id (Numeral.print 10 n)]
  refine map_congr_left fun b hb => ?_
  obtain ⟨hchar, -, -⟩ := digit_char (Numeral.isDigit_print (by decide) (by decide) b hb)
  show UInt8.ofNat (Char.ofNat b.toNat).toNat = b
  rw [hchar, UInt8.ofNat_toNat]

theorem parseAccountId_decimal (id : UInt32) (field : String) :
    parseAccountId (String.ofList (decimal id.toNat)) field = .ok id := by
  have hvalue : Numeral.value 10 (Numeral.print 10 id.toNat) = id.toNat :=
    Numeral.value_print (by decide) (by decide)
  have hne : Numeral.print 10 id.toNat ≠ [] := by
    rw [← length_pos_iff, Numeral.length_print (by decide)]
    omega
  have hdigits : (Numeral.print 10 id.toNat).all (fun b => 48 ≤ b && b ≤ 57) = true := by
    refine all_eq_true.mpr fun b hb => ?_
    obtain ⟨-, hlo, hhi⟩ := digit_char (Numeral.isDigit_print (by decide) (by decide) b hb)
    simp only [Bool.and_eq_true, decide_eq_true_eq, UInt8.le_iff_toNat_le]
    exact ⟨hlo, Nat.le_of_lt_succ hhi⟩
  unfold parseAccountId
  simp only [utf8_decimal, bind_ok, refuse_ok, pure_ok]
  change ∃ _, _ ∧ ∃ _, ¬Numeral.value 10 (Numeral.print 10 id.toNat) ≥ 2 ^ 32 ∧
    UInt32.ofNat (Numeral.value 10 (Numeral.print 10 id.toNat)) = id
  rw [hvalue]
  exact ⟨(), not_or.mpr ⟨hne, not_not.mpr hdigits⟩, (), not_le.mpr id.toNat_lt, UInt32.ofNat_toNat⟩

theorem IsName.not_mem (h : IsName text) {c : Char} (hc : c.toNat ≤ 32 ∨ c = ':') :
    c ∉ text.toList := by
  intro hmem
  have hascii : c.toNat < 128 := by
    rcases hc with hc | rfl
    · omega
    · decide
  obtain ⟨hlow, hcolon, -⟩ := h.2.2 _ (ascii_mem_utf8 hascii hmem)
  rcases hc with hc | rfl
  · rw [UInt8.lt_iff_toNat_lt, UInt8.toNat_ofNat'] at hlow
    have : (32 : UInt8).toNat = 32 := rfl
    omega
  · exact hcolon rfl

theorem colon_not_mem_fields (h : IsName user.name) : ∀ field ∈ passwdFields user, ':' ∉ field := by
  have hdecimal : ∀ n, ':' ∉ decimal n := fun n hmem => absurd (decimal_digit hmem).2 (by decide)
  simp only [passwdFields, forall_mem_cons]
  exact ⟨h.not_mem (.inr rfl), by decide, hdecimal _, hdecimal _, by simp⟩

theorem parseUser_passwdLine (h : IsName user.name) :
    parseUser (String.ofList (passwdLine user)) = .ok user := by
  have hfields : splitText ':' (String.ofList (passwdLine user)) =
    (passwdFields user).map String.ofList := by
    rw [splitText, String.toList_ofList, passwdLine,
      splitOn_intercalate _ (colon_not_mem_fields h) (by simp [passwdFields])]
  unfold parseUser
  rw [hfields]
  simp only [passwdFields, map_cons, map_nil, String.ofList_toList, bind_ok, validateAccountName_ok,
    parseAccountId_decimal, pure_ok, Except.ok.injEq, exists_eq_left', exists_const]
  exact ⟨h, trivial⟩

/-- Lines that hold no line feed and do not end in a carriage return are the lines of their text. -/
theorem lines_intercalate {parts : List (List Char)} (hfeed : ∀ line ∈ parts, '\n' ∉ line)
    (hreturn : ∀ line ∈ parts, line.getLast? ≠ some '\x0d') :
    lines (String.ofList (['\n'].intercalate (parts ++ [[]]))) = parts.map String.ofList := by
  have hsplit : (['\n'].intercalate (parts ++ [[]])).splitOn '\n' = parts ++ [[]] := by
    refine splitOn_intercalate _ (fun line hline => ?_) (by simp)
    rcases mem_append.mp hline with hline | hline
    · exact hfeed line hline
    · rw [mem_singleton.mp hline]
      exact not_mem_nil
  have hkept : parts.map (fun line =>
    if line.getLast? = some '\x0d' then line.dropLast else line) = parts := by
    conv_rhs => rw [← map_id parts]
    exact map_congr_left fun line hline => if_neg (hreturn line hline)
  unfold lines
  dsimp only
  rw [String.toList_ofList, hsplit, dropLast_concat, hkept]
  simp

theorem passwdLine_eq (user : AccountUser) : passwdLine user =
    user.name.toList ++ ([':', 'x', ':'] ++
      (decimal user.uid.toNat ++ (':' :: (decimal user.gid.toNat ++ [':', ':', ':'])))) := by
  simp [passwdLine, passwdFields, List.intercalate, List.intersperse]

theorem length_decimal (id : UInt32) : (decimal id.toNat).length ≤ 10 := by
  rw [decimal, length_map, Numeral.length_print (by decide)]
  exact Nat.log_lt_of_lt_pow' (by decide) (lt_trans id.toNat_lt (by decide))

theorem passwdLine_feed (h : IsName user.name) : '\n' ∉ passwdLine user := by
  have hdecimal : ∀ n, '\n' ∉ decimal n := fun n hmem => absurd (decimal_digit hmem).1 (by decide)
  rw [passwdLine_eq]
  simp only [mem_append, mem_cons, not_mem_nil, hdecimal, h.not_mem (c := '\n') (.inl (by decide))]
  decide

theorem passwdLine_return : (passwdLine user).getLast? ≠ some '\x0d' := by
  rw [passwdLine_eq]
  simp only [getLast?_append, getLast?_cons, getLast?_nil]
  simp

theorem passwdLine_length (h : IsName user.name) :
    (utf8 (String.ofList (passwdLine user))).length ≤ MAX_ACCOUNT_LINE_BYTES := by
  have hchar : ∀ c, (String.utf8EncodeChar c).length ≤ 4 := fun c => by
    rw [String.utf8EncodeChar]
    split_ifs <;> simp
  have hchars : ∀ chars : List Char, (chars.flatMap String.utf8EncodeChar).length ≤
    4 * chars.length := by
    intro chars
    induction chars with
    | nil => exact le_rfl
    | cons c chars ih =>
      have := hchar c
      rw [flatMap_cons, length_append, length_cons]
      omega
  have hname : (user.name.toList.flatMap String.utf8EncodeChar).length ≤ 256 := by
    rw [← utf8_ofList, String.ofList_toList]
    exact h.2.1
  have huid := length_decimal user.uid
  have hgid := length_decimal user.gid
  rw [utf8_ofList, passwdLine_eq, flatMap_append, length_append]
  refine (Nat.add_le_add hname (hchars _)).trans ?_
  simp only [length_append, length_cons, length_nil, MAX_ACCOUNT_LINE_BYTES]
  omega

theorem accountLines_passwdFile (hnames : ∀ user ∈ users, IsName user.name)
    (hplain : ∀ user ∈ users, user.name.toList.head? ≠ some '#') :
    accountLines (passwdFile users) = .ok (users.map fun user =>
      String.ofList (passwdLine user)) := by
  have hlines : lines (passwdFile users) = users.map fun user =>
    String.ofList (passwdLine user) := by
    rw [passwdFile, lines_intercalate, map_map]
    · rfl
    · simpa using fun user huser => passwdLine_feed (hnames user huser)
    · simpa using fun user _ => passwdLine_return
  unfold accountLines
  simp only [hlines, bind_ok, refuse_ok, pure_ok, any_eq_true, mem_map, decide_eq_true_eq,
    not_exists, not_and, not_lt]
  refine ⟨(), ?_, filter_eq_self.mpr ?_⟩
  · rintro _ ⟨user, huser, rfl⟩
    exact passwdLine_length (hnames user huser)
  · rintro _ hline
    obtain ⟨user, huser, rfl⟩ := mem_map.mp hline
    have hne : user.name.toList ≠ [] := by
      rintro hnil
      have := (hnames user huser).1
      rw [← String.ofList_toList (s := user.name), hnil] at this
      exact absurd this (by decide)
    obtain ⟨c, chars, hchars⟩ := exists_cons_of_ne_nil hne
    have hhash := hplain user huser
    rw [hchars] at hhash
    rw [passwdLine_eq, hchars]
    simpa using hhash

/-- Users whose names are valid and in order are the accounts of a passwd file, unless one of them
would read as a comment. -/
theorem accountDatabaseFromFiles_passwdFile (hcount : users.length ≤ MAX_ACCOUNT_USERS)
    (hnames : ∀ user ∈ users, IsName user.name)
    (hsorted : users.IsChain fun a b => utf8 a.name < utf8 b.name)
    (hplain : ∀ user ∈ users, user.name.toList.head? ≠ some '#') :
    accountDatabaseFromFiles (passwdFile users) "" = .ok ⟨ACCOUNT_DB_SCHEMA, users, []⟩ := by
  have hparsed : (users.map fun user => String.ofList (passwdLine user)).mapM parseUser =
    .ok users := by
    clear hcount hsorted hplain
    induction users with
    | nil => rfl
    | cons user users ih =>
      obtain ⟨huser, husers⟩ := forall_mem_cons.mp hnames
      rw [map_cons, mapM_cons, parseUser_passwdLine huser, ih husers]
      rfl
  have horder : users.insertionSort (fun a b => utf8 a.name ≤ utf8 b.name) = users := by
    refine List.Pairwise.insertionSort_eq ?_
    exact (isChain_iff_pairwise.mp hsorted).imp List.le_of_lt
  have hvalid : (⟨ACCOUNT_DB_SCHEMA, users, []⟩ : AccountDatabase).validate = .ok () := by
    unfold AccountDatabase.validate
    simp only [bind_ok, refuse_ok, validateCount_ok, validateSortedNames_ok,
      Option.toList_none, nil_append, isChain_map, forall_mem_map]
    exact ⟨(), not_not.mpr rfl, (), hcount, (), by decide, (), ⟨hnames, hsorted⟩, rfl⟩
  have hgroup : accountLines "" = .ok [] := by decide +kernel
  unfold accountDatabaseFromFiles
  simp only [bind_ok, pure_ok]
  refine ⟨_, accountLines_passwdFile hnames hplain, users, hparsed, [], hgroup, [], rfl, (), ?_, ?_⟩
  · rw [horder]
    exact hvalid
  · rw [horder]
    rfl

end

end PocketVm.Protocol
