import PhxSql.Lib.Wire
import PhxSql.Proto.Codec

/-!
# The messages in the wire format

The fields of the messages of `phxbinlogsvr/proto` under their numbers. They show that the laws of
`Codecs` can be met, and concrete runs use them. A message whose numbers are outside the range of
their C++ types is not a message of the program and is not serialised.
-/

set_option autoImplicit false

namespace PhxSql.Proto

open PhxSql.Lib

/-! ## Fields of the messages -/

def EventData.fields (m : EventData) : List WireField :=
  [{ num := 1, value := .bytes m.gtid }, { num := 2, value := .bytes m.data }] ++
    (optUint 3 m.checksum ++ (optUint 4 m.instanceId ++
      (optBytes 5 m.masterData ++ optBytes 6 m.eventDataFile)))

def EventData.ofFields (fs : List WireField) : Option EventData :=
  match bytesField 1 fs, bytesField 2 fs with
  | some gtid, some data =>
    some
      { gtid := gtid
        data := data
        checksum := (uintField 3 fs).getD 0
        instanceId := (uintField 4 fs).getD 0
        masterData := (bytesField 5 fs).getD []
        eventDataFile := (bytesField 6 fs).getD [] }
  | _, _ => none

def EventDataInfo.fields (m : EventDataInfo) : List WireField :=
  [{ num := 1, value := .bytes m.gtid }, { num := 2, value := .bytes m.fileName },
    { num := 3, value := .varint m.offset }] ++ (optUint 4 m.checksum ++ optUint 5 m.instanceId)

def EventDataInfo.ofFields (fs : List WireField) : Option EventDataInfo :=
  match bytesField 1 fs, bytesField 2 fs, uintField 3 fs with
  | some gtid, some fileName, some offset =>
    some
      { gtid := gtid
        fileName := fileName
        offset := offset
        checksum := (uintField 4 fs).getD 0
        instanceId := (uintField 5 fs).getD 0 }
  | _, _, _ => none

def UserInfo.fields (m : UserInfo) : List WireField :=
  [{ num := 1, value := .bytes m.username }, { num := 2, value := .bytes m.pwd }]

def UserInfo.ofFields (fs : List WireField) : Option UserInfo :=
  match bytesField 1 fs, bytesField 2 fs with
  | some username, some pwd => some { username := username, pwd := pwd }
  | _, _ => none

def PaxosEventData.fields (m : PaxosEventData) : List WireField :=
  { num := 1, value := .bytes m.currentGtid } :: (optBytes 2 m.eventGtid ++
    ({ num := 3, value := .varint m.svrid } :: (optBytes 4 m.buffer ++ optUint 5 m.checksum)))

def PaxosEventData.ofFields (fs : List WireField) : Option PaxosEventData :=
  match bytesField 1 fs, uintField 3 fs with
  | some currentGtid, some svrid =>
    some
      { currentGtid := currentGtid
        eventGtid := (bytesField 2 fs).getD []
        -- A `uint32` field keeps the low bits of the number on the wire.
        svrid := svrid % 2 ^ 32
        buffer := (bytesField 4 fs).getD []
        checksum := (uintField 5 fs).getD 0 }
  | _, _ => none

/-! ## Messages in messages -/

section Repeated

variable {M : Type}

/-- A repeated field of messages. -/
def repeatedFields (num : ℕ) (fields : M → List WireField) (ms : List M) : List WireField :=
  ms.map fun m => { num := num, value := .bytes (encode (fields m)) }

def ofRepeated (num : ℕ) (ofFields : List WireField → Option M) (fs : List WireField) :
    Option (List M) :=
  (bytesFields num fs).mapM fun b => (decode b).bind ofFields

@[simp] theorem bytesFields_repeatedFields (num num' : ℕ) (fields : M → List WireField)
    (ms : List M) :
    bytesFields num (repeatedFields num' fields ms) =
      if num' = num then ms.map fun m => encode (fields m) else [] := by
  induction ms with
  | nil => simp [repeatedFields]
  | cons m ms ih =>
    simp only [repeatedFields, List.map_cons] at ih ⊢
    rw [bytesFields_cons_bytes, ih]
    split <;> simp

@[simp] theorem uintFields_repeatedFields (num num' : ℕ) (fields : M → List WireField)
    (ms : List M) : uintFields num (repeatedFields num' fields ms) = [] := by
  induction ms with
  | nil => rfl
  | cons m ms ih =>
    simp only [repeatedFields, List.map_cons] at ih ⊢
    rw [uintFields_cons_bytes, ih]

/-- The messages of a repeated field are read back one by one. -/
theorem mapM_decode_encode {fields : M → List WireField}
    {ofFields : List WireField → Option M} {ms : List M}
    (h : ∀ m ∈ ms, ofFields (fields m) = some m)
    (hvalid : ∀ m ∈ ms, ∀ f ∈ fields m, f.valid = true) :
    (ms.map fun m => encode (fields m)).mapM (fun b => (decode b).bind ofFields) = some ms := by
  induction ms with
  | nil => rfl
  | cons m ms ih =>
    have hm : (decode (encode (fields m))).bind ofFields = some m := by
      rw [decode_encode (hvalid m List.mem_cons_self), Option.bind_some]
      exact h m List.mem_cons_self
    have hms := ih (fun m' hm' => h m' (List.mem_cons_of_mem _ hm'))
      fun m' hm' => hvalid m' (List.mem_cons_of_mem _ hm')
    simp only [List.map_cons, List.mapM_cons, hm, hms]
    rfl

end Repeated

def infoListFields (l : List EventDataInfo) : List WireField :=
  repeatedFields 1 EventDataInfo.fields l

def infoListOfFields (fs : List WireField) : Option (List EventDataInfo) :=
  ofRepeated 1 EventDataInfo.ofFields fs

def MasterInfo.fields (m : MasterInfo) : List WireField :=
  (m.port.toList.map fun port => { num := 2, value := .varint port }) ++
    (optUint 3 m.version ++ (optUint 4 m.svrId ++ (optUint 5 m.updateTime ++
      (optUint 6 m.expireTime ++ (optUint 7 m.lease ++ (optUint 8 m.instanceId ++
        (optBytes 9 m.exportIp ++ (optUint 10 m.exportPort ++
          (repeatedFields 11 UserInfo.fields m.adminUserinfo ++
            repeatedFields 12 UserInfo.fields m.replicaUserinfo)))))))))

def MasterInfo.ofFields (fs : List WireField) : Option MasterInfo :=
  match uintField 2 fs, ofRepeated 11 UserInfo.ofFields fs, ofRepeated 12 UserInfo.ofFields fs with
  | some port, some adminUserinfo, some replicaUserinfo =>
    some
      { port := some (port % 2 ^ 32)
        version := (uintField 3 fs).getD 0
        svrId := (uintField 4 fs).getD 0 % 2 ^ 32
        updateTime := (uintField 5 fs).getD 0 % 2 ^ 32
        expireTime := (uintField 6 fs).getD 0 % 2 ^ 32
        lease := (uintField 7 fs).getD 0 % 2 ^ 32
        instanceId := (uintField 8 fs).getD 0
        exportIp := (bytesField 9 fs).getD []
        exportPort := (uintField 10 fs).getD 0 % 2 ^ 32
        adminUserinfo := adminUserinfo
        replicaUserinfo := replicaUserinfo }
  | _, _, _ => none

/-! ## Fields of a message are read back -/

theorem EventData.ofFields_fields (m : EventData) : EventData.ofFields m.fields = some m := by
  simp [EventData.ofFields, EventData.fields, bytesField, uintField, getLast?_optional_uint,
    getLast?_optional_bytes]

theorem EventDataInfo.ofFields_fields (m : EventDataInfo) :
    EventDataInfo.ofFields m.fields = some m := by
  simp [EventDataInfo.ofFields, EventDataInfo.fields, bytesField, uintField,
    getLast?_optional_uint]

theorem UserInfo.ofFields_fields (m : UserInfo) : UserInfo.ofFields m.fields = some m := by
  simp [UserInfo.ofFields, UserInfo.fields, bytesField]

theorem PaxosEventData.ofFields_fields {m : PaxosEventData} (h : m.svrid < 2 ^ 32) :
    PaxosEventData.ofFields m.fields = some m := by
  obtain ⟨currentGtid, eventGtid, svrid, buffer, checksum⟩ := m
  simp only at h
  simp [PaxosEventData.ofFields, PaxosEventData.fields, bytesField, uintField,
    getLast?_optional_uint, getLast?_optional_bytes]
  omega

/-- The numbers that C++ stores in 32 bits. -/
def MasterInfo.inRange (m : MasterInfo) : Bool :=
  decide (m.port.getD 0 < 2 ^ 32 ∧ m.svrId < 2 ^ 32 ∧ m.updateTime < 2 ^ 32 ∧
    m.expireTime < 2 ^ 32 ∧ m.lease < 2 ^ 32 ∧ m.exportPort < 2 ^ 32) &&
  (m.adminUserinfo ++ m.replicaUserinfo).all fun u => u.fields.all WireField.valid

theorem MasterInfo.ofFields_fields {m : MasterInfo} (hport : m.port.isSome = true)
    (h : m.inRange = true) : MasterInfo.ofFields m.fields = some m := by
  obtain ⟨port, hp⟩ := Option.isSome_iff_exists.mp hport
  simp only [MasterInfo.inRange, Bool.and_eq_true, decide_eq_true_eq, List.all_eq_true,
    List.mem_append, hp, Option.getD_some] at h
  obtain ⟨⟨h₁, h₂, h₃, h₄, h₅, h₆⟩, husers⟩ := h
  have husersRead : ∀ us : List UserInfo, (∀ u ∈ us, ∀ f ∈ u.fields, f.valid = true) →
      (us.map fun u => encode u.fields).mapM (fun b => (decode b).bind UserInfo.ofFields) =
        some us :=
    fun us hus => mapM_decode_encode (fun u _ => u.ofFields_fields) hus
  have hadmin := husersRead m.adminUserinfo fun u hu => husers u (.inl hu)
  have hreplica := husersRead m.replicaUserinfo fun u hu => husers u (.inr hu)
  obtain ⟨port', version, svrId, updateTime, expireTime, lease, instanceId, exportIp, exportPort,
    adminUserinfo, replicaUserinfo⟩ := m
  cases hp
  simp only at h₁ h₂ h₃ h₄ h₅ h₆ hadmin hreplica
  simp [MasterInfo.ofFields, MasterInfo.fields, ofRepeated, bytesField, uintField,
    getLast?_optional_uint, getLast?_optional_bytes, hadmin, hreplica]
  omega

theorem infoListOfFields_fields {l : List EventDataInfo}
    (h : (l.all fun i => i.fields.all WireField.valid) = true) :
    infoListOfFields (infoListFields l) = some l := by
  simp only [List.all_eq_true] at h
  have hl := mapM_decode_encode (fun i _ => i.ofFields_fields) h
  simpa [infoListOfFields, infoListFields, ofRepeated] using hl

/-! ## The codecs -/

/-- The codec of a message with these fields; `inRange` bounds what the wire format does not. -/
def wireCodec {M : Type} {initialized : M → Prop} (fields : M → List WireField)
    (ofFields : List WireField → Option M) (inRange : M → Bool)
    (h : ∀ m, initialized m → inRange m = true → ofFields (fields m) = some m) :
    Codec M initialized where
  serialize m :=
    if inRange m ∧ (∀ f ∈ fields m, f.valid = true) ∧ (encode (fields m)).length < 2 ^ 31 then
      some (encode (fields m))
    else none
  parse b := (decode b).bind ofFields
  parse_serialize := by
    intro m b hinit hser
    split at hser
    · rename_i hok
      cases hser
      rw [decode_encode hok.2.1, Option.bind_some]
      exact h m hinit hok.1
    · cases hser
  length_lt := by
    intro m b hser
    split at hser
    · rename_i hok
      cases hser
      exact hok.2.2
    · cases hser

/-- Protobuf, for the messages of the program. -/
def wireCodecs : Codecs where
  eventData := wireCodec EventData.fields EventData.ofFields (fun _ => true)
    fun m _ _ => m.ofFields_fields
  eventDataInfoList := wireCodec infoListFields infoListOfFields
    (fun l => l.all fun i => i.fields.all WireField.valid) fun _ _ h => infoListOfFields_fields h
  masterInfo := wireCodec MasterInfo.fields MasterInfo.ofFields MasterInfo.inRange
    fun _ hport h => MasterInfo.ofFields_fields hport h
  paxosEventData := wireCodec PaxosEventData.fields PaxosEventData.ofFields
    (fun m => decide (m.svrid < 2 ^ 32))
    fun _ _ h => PaxosEventData.ofFields_fields (of_decide_eq_true h)

end PhxSql.Proto
