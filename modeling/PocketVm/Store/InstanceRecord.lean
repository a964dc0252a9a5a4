import PocketVm.Store.Overlay
import PocketVm.Store.Records

/-!
# The records of instances

`create_instance` bounds the number of arguments, the reference, the command and the record as a
whole. `Instance::decode` bounds each argument as well.
-/

namespace PocketVm.Store

open Wire Wire.Reader Checked List Conc Fallible

namespace InstanceOutcome

def decode (tag : UInt8) (value : Nat) : Except StoreError InstanceOutcome :=
  if tag = 0 then .ok unknown
  else if tag = 1 then
    if value < 256 then .ok (exited (UInt8.ofNat value))
    else .error (.invalidMetadata .instance "exit code out of range")
  else if tag = 2 then .ok (signalled (UInt16.ofNat value))
  else .error (.invalidMetadata .instance ("invalid instance outcome " ++ toString tag.toNat))

theorem decode_encode (outcome : InstanceOutcome) :
    decode outcome.encode.1 outcome.encode.2 = .ok outcome := by
  cases outcome with
  | unknown => rfl
  | exited code => simp [decode, encode, code.toNat_lt]
  | signalled signal => simp [decode, encode]

theorem encode_lt (outcome : InstanceOutcome) : outcome.encode.2 < 256 ^ 2 := by
  cases outcome with
  | unknown => decide
  | exited code => exact code.toNat_lt.trans (by decide)
  | signalled signal => exact signal.toNat_lt

end InstanceOutcome

namespace Instance

section
variable (host : Host)

/-- The fields, with the outcome as it is written: it is decoded at the end of the record. -/
def fields : RecordReader ((InstanceOutcome → Instance) × UInt8 × Nat) := do
  let id ← readId
  let name ← readText MAX_INSTANCE_NAME_BYTES
  let generationId ← readId
  let retainedId ← readId
  let imageReference ← readText MAX_INSTANCE_COMMAND_BYTES
  let argvLen ← readU16
  let argv ← times (readText MAX_INSTANCE_COMMAND_BYTES) argvLen
  let command ← readText MAX_INSTANCE_COMMAND_BYTES
  let createdUnix ← readU64
  let finishedUnix ← readU64
  let tag ← readU8
  let value ← readU16
  return (fun outcome =>
    ⟨id, name, generationId, retainedId, imageReference, argv, command, createdUnix, finishedUnix,
      outcome⟩, tag, value)

def decode (bytes : Bytes) : Except StoreError Instance := (do
  let (instanceOf, tag, value) ← decodeFields host.sha256 bytes INSTANCE_MAGIC .instance fields
  let outcome ← InstanceOutcome.decode tag value
  let i := instanceOf outcome
  stop (deriveId host i.name ≠ i.id)
    (.invalidMetadata .instance "instance ID does not match its name")
  stop (i.encode host ≠ bytes) (.invalidMetadata .instance "instance record is not canonical")
  return i).mapError (contextualize .instance)

end

variable {host : Host} {i : Instance}

/-- What `create_instance` sees to. -/
structure Accepted (host : Host) (i : Instance) : Prop where
  id : deriveId host i.name = i.id
  name : (utf8 i.name).length ≤ MAX_INSTANCE_NAME_BYTES
  reference : (utf8 i.imageReference).length ≤ MAX_INSTANCE_COMMAND_BYTES
  argv : i.argv.length ≤ MAX_INSTANCE_ARGV
  command : (utf8 i.command).length ≤ MAX_INSTANCE_COMMAND_BYTES
  size : (i.encode host).length ≤ MAX_METADATA_BYTES

theorem takes_fields (h : i.Accepted host)
    (hargs : ∀ a ∈ i.argv, (utf8 a).length ≤ MAX_INSTANCE_COMMAND_BYTES) :
    Takes fields (i.id.asBytes ++ (putText i.name ++ (i.generationId.asBytes ++ (i.retainedId.asBytes ++
      (putText i.imageReference ++ (counted 2 putText i.argv ++ (putText i.command ++ (putU64 i.createdUnix ++
        (putU64 i.finishedUnix ++ ([i.outcome.encode.1] ++ putU16 i.outcome.encode.2))))))))))
      (fun outcome => { i with outcome }, i.outcome.encode) := by
  have hargv : i.argv.length < 256 ^ 2 := h.argv.trans_lt (by decide)
  refine (takes_readId i.id).bind ((takes_readText h.name (by decide)).bind
    ((takes_readId i.generationId).bind ?_))
  refine (takes_readId i.retainedId).bind ((takes_readText h.reference (by decide)).bind ?_)
  rw [counted, append_assoc]
  refine (takes_readU16 hargv).bind ((Takes.times fun a ha => takes_readText (hargs a ha) (by decide)).bind ?_)
  refine (takes_readText h.command (by decide)).bind ((takes_readU64 i.createdUnix).bind ?_)
  refine (takes_readU64 i.finishedUnix).bind ((takes_readU8 i.outcome.encode.1).bind ?_)
  exact (takes_readU16 i.outcome.encode_lt).bind_last Takes.pure

theorem gives_readText (maximum : Nat) :
    Gives (fun text => (utf8 text).length ≤ maximum) (readText maximum) := by
  have hbytes : Gives (fun bytes => bytes.length ≤ maximum) (readBytes maximum) :=
    .bind (.any _) fun length _ => .bind (.accept fun _ hle => stop_ok.mp hle) fun _ hle =>
      fun rest bytes rest' hread => (Gives.take _ _ rest bytes rest' hread).trans_le
        (Nat.not_lt.mp hle)
  refine hbytes.bind fun bytes hle => .accept fun text htext => ?_
  obtain ⟨_, heq⟩ := Option.dite_none_right_eq_some.mp (require_ok.mp htext)
  cases heq
  exact hle

theorem decodeFields_gives {α : Type} {P : α → Prop} {a : α} {reader : RecordReader α}
    (h : Gives P reader)
    {bytes magic : Bytes} {kind : MetadataKind}
    (hfields : decodeFields host.sha256 bytes magic kind reader = .ok a) :
    P a := by
  unfold decodeFields at hfields
  simp only [bind_ok, pure_ok] at hfields
  obtain ⟨_, -, ⟨_, rest⟩, hread, rfl⟩ := hfields
  have hgives := Gives.bind (.any (readHeader magic kind)) fun _ _ => h.bind fun _ ha =>
    Gives.bind (.any (finish (StoreError.invalidMetadata .store "trailing bytes in canonical record"))) fun _ _ => .pure ha
  exact hgives _ _ _ hread

theorem gives_fields : Gives (fun read => ∀ outcome, ∀ a ∈ (read.1 outcome).argv,
    (utf8 a).length ≤ MAX_INSTANCE_COMMAND_BYTES) fields :=
  .bind (.any _) fun _ _ => .bind (.any _) fun _ _ => .bind (.any _) fun _ _ =>
    .bind (.any _) fun _ _ =>
    .bind (.any _) fun _ _ => .bind (.any _) fun n _ => .bind ((gives_readText _).times n)
      fun _ hargv =>
    .bind (.any _) fun _ _ => .bind (.any _) fun _ _ => .bind (.any _) fun _ _ =>
      .bind (.any _) fun _ _ =>
    .bind (.any _) fun _ _ => .pure fun _ => hargv

/-- An accepted instance is read back exactly if the decoder's own bound holds. -/
theorem decode_encode_iff (h : i.Accepted host) : decode host (i.encode host) = .ok i ↔
    ∀ a ∈ i.argv, (utf8 a).length ≤ MAX_INSTANCE_COMMAND_BYTES := by
  rw [decode, mapError_ok]
  simp only [bind_ok, stop_ok, pure_ok, not_not]
  constructor
  · rintro ⟨⟨instanceOf, tag, value⟩, hfields, outcome, -, -, -, -, -, rfl⟩
    exact decodeFields_gives gives_fields hfields outcome
  · intro hargs
    have hsize := h.size
    simp only [encode, append_assoc] at hsize ⊢
    have hfields := decodeFields_finishRecord .instance (by decide +kernel)
      (takes_fields h hargs) hsize
    exact ⟨_, hfields, i.outcome, i.outcome.decode_encode, (), h.id, (), rfl, rfl⟩

end Instance

section
variable (host : Host) (name : String) (generationId : GenerationId) (retainedId : RetainedCowId)
  (retain : RetainRequest) (created finished : UInt64) (outcome : InstanceOutcome)

theorem yields_createInstance :
    Yields (fun i => i.Accepted host ∧ i = ⟨Instance.deriveId host name, name,
      generationId, retainedId, retain.imageReference, retain.argv, retain.command, created,
        finished, outcome⟩)
    (createInstance host name generationId retainedId retain created finished outcome) := by
  refine .bind (yields_ofExcept fun _ h => h) fun _ hname => .bind yields_require fun _ hargv =>
    .bind yields_require fun _ htexts =>
      yields_withRoots (.bind (.bind (yields_ofExcept fun _ h => stop_ok.mp h) fun _ hrecord =>
      .mono (fun _ _ _ _ => Nat.not_lt.mp hrecord) (.any _)) fun _ hrecord =>
        .bind (.any _) fun result _ => ?_)
  have hsize : (utf8 name).length ≤ MAX_INSTANCE_NAME_BYTES := by
    unfold validateInstanceName at hname
    split at hname
    · cases hname
    · next h => exact Nat.not_lt.mp (not_or.mp h).2
  split
  · exact .bind (.any _) fun _ _ => .pure ⟨⟨rfl, hsize, htexts.1, hargv, htexts.2, hrecord⟩, rfl⟩
  · exact .bind (.any _) fun _ _ => .throw _
  · exact .bind (.any _) fun _ _ => .throw _

/-- The instance that `create_instance` returns is read back exactly if no argument is longer than
the command may be. -/
theorem created_instance_read_back_iff :
    Yields (fun i => Instance.decode host (i.encode host) = .ok i ↔
      ∀ a ∈ retain.argv, (utf8 a).length ≤ MAX_INSTANCE_COMMAND_BYTES)
    (createInstance host name generationId retainedId retain created finished outcome) := by
  refine Prog.Yields.mono (fun r h i hr => ?_)
    (yields_createInstance host name generationId retainedId retain created finished outcome)
  obtain ⟨haccepted, rfl⟩ := h i hr
  exact Instance.decode_encode_iff haccepted

end

namespace Sample

variable (argument : String)

def withArgument : RetainRequest := ⟨"run", "image", [argument], "z", false⟩

def instanceOf : Instance :=
  ⟨Instance.deriveId (host true) "run", "run", ⟨0⟩, ⟨0⟩, "image", [argument], "z", 0, 0, .unknown⟩

variable {argument}

theorem instanceOf_accepted (h : (utf8 argument).length ≤ 4097) :
    (instanceOf argument).Accepted (host true) := by
  have hsmall : INSTANCE_MAGIC.length = 8 ∧ (utf8 "run").length = 3 ∧ (utf8 "image").length = 5 ∧
    (utf8 "z").length = 1 := by
    decide +kernel
  refine ⟨rfl, hsmall.2.1.trans_le (by decide), hsmall.2.2.1.trans_le (by decide),
    Nat.le_add_left 1 1023, hsmall.2.2.2.trans_le (by decide), ?_⟩
  simp only [Instance.encode, finishRecord, startRecord, counted, putText, putBytes, putU16, putU64,
    HashId.asBytes, length_asBytes, length_append, length_beBytes, length_cons, length_nil,
      flatMap_cons, flatMap_nil, instanceOf, hsmall,
    CHECKSUM_BYTES, MAX_METADATA_BYTES]
  omega

theorem write_instanceOf (h : (utf8 argument).length ≤ 4097) :
    writeInstance (host true) (instanceOf argument) = ask "create regular file"
      (.temp (.write .instances)) := by
  unfold writeInstance
  have hstop : stop (((instanceOf argument).encode (host true)).length > MAX_METADATA_BYTES)
      (StoreError.metadataTooLarge .store MAX_METADATA_BYTES) = .ok () :=
    stop_ok.mpr (Nat.not_lt.mpr (instanceOf_accepted h).size)
  rw [hstop]
  rfl

end Sample

/-- One argument of 4097 letters: there are answers under which the instance is returned, but its
record is not read back. -/
theorem long_argument_not_read_back :
    ¬Yields (fun i => Instance.decode (Sample.host true) (i.encode (Sample.host true)) = .ok i)
      (createInstance (Sample.host true) "run" ⟨0⟩ ⟨0⟩ (Sample.withArgument (String.ofList (replicate 4097 'z'))) 0 0
        .unknown) := by
  have hlength : (utf8 (String.ofList (replicate 4097 'z'))).length = 4097 := by
    rw [utf8_ofList_ascii fun c hc => by rw [eq_of_mem_replicate hc]; decide, length_map, length_replicate]
  generalize String.ofList (replicate 4097 'z') = argument at hlength
  intro h
  have hcreate : createInstance (Sample.host true) "run" ⟨0⟩ ⟨0⟩
    (Sample.withArgument argument) 0 0 .unknown = (do
      ofExcept (validateInstanceName "run")
      require _ _
      require _ _
      withRoots .exclusive do
        let t ← writeInstance (Sample.host true) (Sample.instanceOf argument)
        _) := rfl
  rw [hcreate, Sample.write_instanceOf hlength.le] at h
  have hread := h (.ok ()) (.ok ()) (.ok ⟨.instances, 0⟩) (.ok ()) (.ok ()) (.ok ()) _ rfl
  have hargs := (Instance.decode_encode_iff (Sample.instanceOf_accepted hlength.le)).mp hread argument (mem_singleton_self _)
  rw [hlength] at hargs
  exact absurd hargs (by decide)

end PocketVm.Store
