import PhxSql.Store.Segments

/-!
# Adding an event when input and output fail

`AddEvent` with the outcome of every call it makes as an input: a `write` stores all bytes or only
the first ones, and a `Put` succeeds or fails. A short `write` leaves its bytes in the file and the
position behind them; an entry of the index that does not serialise counts as a `Put` that fails.
The results of `CheckAndSwitchFile` are not looked at, so that only the record and its index entry
make `AddEvent` fail.

With outcomes that are all good the functions are those of the store without errors
(`addEventIo_working`).
-/

set_option autoImplicit false

namespace PhxSql.Store

open PhxSql.Proto PhxSql.Lib PhxSql.Gtid

/-! ## Outcomes -/

/-- The outcome of a `write`. -/
inductive WriteOutcome
  | complete
  | short (stored : Nat)
  deriving DecidableEq, Repr

/-- The number of bytes a `write` of this length stored, if it is fewer. -/
def WriteOutcome.failedAt (len : Nat) : WriteOutcome → Option Nat
  | .complete => none
  | .short stored => if stored < len then some stored else none

/-- The outcomes of a file switch: the `Put` of the UUID table, the footer and the header. -/
structure SwitchIo where
  flush : Bool := true
  footer : WriteOutcome := .complete
  header : WriteOutcome := .complete
  deriving DecidableEq, Repr

/-- The outcomes of a call of `AddEvent`: the file switch of `CheckPointDone`, the record of the
event, the `Put` of its index entry, and the file switch after it. -/
structure AddIo where
  checkPointDone : SwitchIo := {}
  record : WriteOutcome := .complete
  put : Bool := true
  switch : SwitchIo := {}
  deriving DecidableEq, Repr

/-! ## The functions -/

/-- A `write` that stores these bytes and fails. -/
def storePart (d : Disk) (st : Storage) (part : Bytes) : Disk × Storage :=
  if part.isEmpty then (d, st)
  else
    (d.insert st.path (writeAt (content d st.path) st.offset part),
      { st with offset := st.offset + part.length })

variable (cx : Codecs)

/-- The bytes a `write` of a record stored, if it is not all of them. -/
def failedRecord (data : EventData) (outcome : WriteOutcome) : Option Bytes :=
  match cx.eventData.serialize data with
  | none => none
  | some bytes => (outcome.failedAt (frame bytes).length).map fun stored => (frame bytes).take stored

/-- `StorageFileManager::WriteData`. -/
def writeEventIo (d : Disk) (m : StorageFileManager) (data : EventData) (outcome : WriteOutcome) :
    RetCode × Disk × StorageFileManager :=
  match failedRecord cx data outcome with
  | none => (.ok, writeEvent cx d m data)
  | some part =>
    (.fileFail, (storePart d m.writer part).1, { m with writer := (storePart d m.writer part).2 })

/-- `EventStorage::GetFileHeader`, which fails if the UUID table is not put into the index; an empty
table is not put there. -/
def getFileHeaderIo (master : MasterInfo) (s : EventStorage) (flush : Bool) :
    RetCode × EventData × EventStorage :=
  if !flush && !(serializeToEventInfoList s.uuidHandler).isEmpty then (.fileFail, {}, s)
  else getFileHeader cx master s

/-- `EventStorage::SwitchNewFile` with a footer. -/
def switchNewFileIo (s : EventStorage) (header : EventData) (io : SwitchIo) :
    RetCode × EventStorage :=
  let footed := writeEventIo cx s.disk s.manager header io.footer
  -- Without a whole footer the old file stays the one that is written to.
  if footed.1 ≠ .ok then (footed.1, { s with disk := footed.2.1, manager := footed.2.2 })
  else
    let opened := switchNewWriteFile footed.2.1 footed.2.2 header.instanceId
    let headed := writeEventIo cx opened.1 opened.2 header io.header
    (headed.1,
      { s with
        disk := headed.2.1
        manager := headed.2.2
        checkpointId := if headed.1 = .ok then header.instanceId else s.checkpointId })

/-- `EventStorage::CheckAndSwitchFile`. -/
def checkAndSwitchFileIo (maxSize : Nat) (master : MasterInfo) (s : EventStorage) (io : SwitchIo) :
    EventStorage :=
  if maxSize < s.manager.writer.offset then
    let header := getFileHeaderIo cx master s io.flush
    if header.1 = .ok then (switchNewFileIo cx header.2.2 header.2.1 io).2 else header.2.2
  else s

/-- `EventStorage::RealCheckGTID` with `CheckPointDone`. -/
def realCheckGTIDIo (maxSize : Nat) (master : MasterInfo) (s : EventStorage) (gtid : Bytes)
    (io : SwitchIo) : Option EventDataInfo × EventStorage :=
  match s.checkpointData.find? gtid with
  | none =>
    (none,
      if s.checkpointData.entries.isEmpty then s
      else { checkAndSwitchFileIo cx maxSize master s io with checkpointData := .empty })
  | some info => (some info, s)

/-- The position of an event: that of the record read back at start, or the one it is written at. -/
def eventPlace (found : Option EventDataInfo) (s : EventStorage) : Storage :=
  match found with
  | none => s.manager.writer
  | some info => { path := info.fileName, offset := info.offset }

/-- `EventStorage::AddEvent`. -/
def addEventIo (maxSize : Nat) (master : MasterInfo) (s : EventStorage) (gtid : Bytes)
    (data : EventData) (switchFile : Bool) (io : AddIo) : RetCode × EventStorage :=
  if data.instanceId ≤ s.lastInstanceID then (.eventExist, s)
  else
    let checked := realCheckGTIDIo cx maxSize master s gtid io.checkPointDone
    let s := checked.2
    let written := if checked.1.isNone then writeEventIo cx s.disk s.manager data io.record
      else (.ok, s.disk, s.manager)
    if written.1 ≠ .ok then (written.1, { s with disk := written.2.1, manager := written.2.2 })
    else
      let info := dataInfo (eventPlace checked.1 s) data
      -- The UUID table has the event before its index entry is put, and keeps it if the `Put` fails.
      let s := { s with
        disk := written.2.1
        manager := written.2.2
        uuidHandler := updateEventUUIDInfoByGTID s.uuidHandler gtid info }
      if !io.put then (.fileFail, s)
      else
        let s := { s with index := s.index.insert gtid (.info info) }
        -- The result of `CheckAndSwitchFile` is dropped.
        if checked.1.isNone ∧ switchFile then
          (.ok, checkAndSwitchFileIo cx maxSize master s io.switch)
        else (.ok, s)

variable {cx}

/-! ## Good outcomes -/

theorem writeEventIo_of_none {data : EventData} {outcome : WriteOutcome}
    (h : failedRecord cx data outcome = none) (d : Disk) (m : StorageFileManager) :
    writeEventIo cx d m data outcome = (.ok, writeEvent cx d m data) := by
  rw [writeEventIo, h]

theorem failedRecord_complete (data : EventData) : failedRecord cx data .complete = none := by
  unfold failedRecord
  cases cx.eventData.serialize data with
  | none => rfl
  | some bytes => rfl

@[simp] theorem writeEventIo_complete (d : Disk) (m : StorageFileManager) (data : EventData) :
    writeEventIo cx d m data .complete = (.ok, writeEvent cx d m data) :=
  writeEventIo_of_none (failedRecord_complete data) d m

@[simp] theorem getFileHeaderIo_true (master : MasterInfo) (s : EventStorage) :
    getFileHeaderIo cx master s true = getFileHeader cx master s := by
  simp [getFileHeaderIo]

@[simp] theorem switchNewFileIo_working (s : EventStorage) (header : EventData) :
    switchNewFileIo cx s header {} = (.ok, switchNewFile cx s header true) := by
  simp [switchNewFileIo, switchNewFile]

@[simp] theorem checkAndSwitchFileIo_working (maxSize : Nat) (master : MasterInfo)
    (s : EventStorage) :
    checkAndSwitchFileIo cx maxSize master s {} = checkAndSwitchFile cx maxSize master s := by
  simp [checkAndSwitchFileIo, checkAndSwitchFile]

/-- `CheckPointDone` is not looked at if it has nothing to do. -/
theorem realCheckGTIDIo_eq {s : EventStorage} {gtid : Bytes} {io : SwitchIo}
    (h : io = {} ∨ s.checkpointData.entries.isEmpty ∨ s.checkpointData.find? gtid ≠ none)
    (maxSize : Nat) (master : MasterInfo) :
    realCheckGTIDIo cx maxSize master s gtid io = realCheckGTID cx maxSize master s gtid := by
  unfold realCheckGTIDIo realCheckGTID checkPointDone
  cases hfound : s.checkpointData.find? gtid with
  | some info => rfl
  | none =>
    by_cases hempty : s.checkpointData.entries.isEmpty
    · simp only [hempty, if_true]
    · rcases h with rfl | h | h
      · simp only [checkAndSwitchFileIo_working]
      · exact absurd h hempty
      · exact absurd hfound h

/-- Without errors `AddEvent` is that of the store. -/
theorem addEventIo_working (maxSize : Nat) (master : MasterInfo) (s : EventStorage) (gtid : Bytes)
    (data : EventData) (switchFile : Bool) :
    addEventIo cx maxSize master s gtid data switchFile {} =
      addEvent cx maxSize master s gtid data switchFile := by
  unfold addEventIo addEvent
  rw [realCheckGTIDIo_eq (.inl rfl)]
  cases hchecked : realCheckGTID cx maxSize master s gtid with
  | mk found s' =>
    cases found with
    | none => simp [eventPlace]
    | some info => simp [eventPlace]

/-! ## What a failed call leaves -/

variable (cx) in
/-- The store when `AddEvent` comes to the `Put` of the index entry: the record is written, unless
it was read back at start, and the UUID table has the event. -/
def beforePut (found : Option EventDataInfo) (s : EventStorage) (gtid : Bytes) (data : EventData) :
    EventStorage :=
  let written := if found.isNone then writeEvent cx s.disk s.manager data
    else (s.disk, s.manager)
  { s with
    disk := written.1
    manager := written.2
    uuidHandler := updateEventUUIDInfoByGTID s.uuidHandler gtid
      (dataInfo (eventPlace found s) data) }

variable (cx) in
/-- The store after the `Put`. -/
def afterPut (found : Option EventDataInfo) (s : EventStorage) (gtid : Bytes) (data : EventData) :
    EventStorage :=
  { beforePut cx found s gtid data with
    index := s.index.insert gtid (.info (dataInfo (eventPlace found s) data)) }

section Added

variable {maxSize : Nat} {master : MasterInfo} {s s' : EventStorage} {gtid : Bytes}
  {data : EventData} {found : Option EventDataInfo}

/-- Adding an event without errors, in terms of its steps. -/
theorem addEvent_eq (hid : s.lastInstanceID < data.instanceId)
    (hcheck : realCheckGTID cx maxSize master s gtid = (found, s')) (switchFile : Bool) :
    addEvent cx maxSize master s gtid data switchFile =
      (.ok, if found.isNone ∧ switchFile then
          checkAndSwitchFile cx maxSize master (afterPut cx found s' gtid data)
        else afterPut cx found s' gtid data) := by
  rw [addEvent, if_neg (Nat.not_le.mpr hid), hcheck]
  cases found with
  | none =>
    cases switchFile with
    | true => simp [afterPut, beforePut, eventPlace]
    | false => simp [afterPut, beforePut, eventPlace]
  | some info => simp [afterPut, beforePut, eventPlace]

/-- The record is cut off: the bytes that arrived stay in the file. -/
theorem addEventIo_short {io : AddIo} {part : Bytes} {switchFile : Bool}
    (hid : s.lastInstanceID < data.instanceId)
    (hcheck : realCheckGTIDIo cx maxSize master s gtid io.checkPointDone = (none, s'))
    (hpart : failedRecord cx data io.record = some part) :
    addEventIo cx maxSize master s gtid data switchFile io =
      (.fileFail, { s' with
        disk := (storePart s'.disk s'.manager.writer part).1
        manager := { s'.manager with
          writer := (storePart s'.disk s'.manager.writer part).2 } }) := by
  rw [addEventIo, if_neg (Nat.not_le.mpr hid), hcheck]
  simp [writeEventIo, hpart]

/-- The event is written and in the UUID table; the index entry is put, or not. -/
theorem addEventIo_written {io : AddIo} (hid : s.lastInstanceID < data.instanceId)
    (hcheck : realCheckGTIDIo cx maxSize master s gtid io.checkPointDone = (found, s'))
    (hwhole : found = none → failedRecord cx data io.record = none) :
    (io.put = false → addEventIo cx maxSize master s gtid data true io =
        (.fileFail, beforePut cx found s' gtid data)) ∧
      (io.put = true → (addEventIo cx maxSize master s gtid data true io).1 = .ok) := by
  rw [addEventIo, if_neg (Nat.not_le.mpr hid), hcheck]
  cases found with
  | none =>
    have hwrite := writeEventIo_of_none (hwhole rfl) s'.disk s'.manager
    constructor
    · intro hput
      simp [hwrite, hput, beforePut]
    · intro hput
      simp [hwrite, hput]
  | some info =>
    constructor
    · intro hput
      simp [hput, beforePut]
    · intro hput
      simp [hput]

end Added

/-! ## The UUID table and the preloaded places -/

/-- Nothing is switched while the file is not full. -/
theorem checkAndSwitchFile_of_le {maxSize : Nat} {s : EventStorage}
    (h : s.manager.writer.offset ≤ maxSize) (master : MasterInfo) :
    checkAndSwitchFile cx maxSize master s = s :=
  if_neg (Nat.not_lt.mpr h)

/-- `CheckAndSwitchFile` changes the files and the index. -/
theorem checkAndSwitchFile_uuidHandler (maxSize : Nat) (master : MasterInfo) (s : EventStorage) :
    (checkAndSwitchFile cx maxSize master s).uuidHandler = s.uuidHandler := by
  have hheader : (getFileHeader cx master s).2.2.uuidHandler = s.uuidHandler := by
    rcases getFileHeader_index master s with h | h
    · rw [h]
    · rw [h]
  simp only [checkAndSwitchFile]
  split
  · split
    · exact hheader
    · exact hheader
  · rfl

theorem realCheckGTID_uuidHandler (maxSize : Nat) (master : MasterInfo) (s : EventStorage)
    (gtid : Bytes) : (realCheckGTID cx maxSize master s gtid).2.uuidHandler = s.uuidHandler := by
  unfold realCheckGTID checkPointDone
  split
  · split
    · rfl
    · exact checkAndSwitchFile_uuidHandler maxSize master s
  · rfl

theorem realCheckGTID_fst (maxSize : Nat) (master : MasterInfo) (s : EventStorage) (gtid : Bytes) :
    (realCheckGTID cx maxSize master s gtid).1 = s.checkpointData.find? gtid := by
  unfold realCheckGTID
  cases s.checkpointData.find? gtid with
  | none => rfl
  | some info => rfl

/-- After an event that was not read back at start no places are kept. -/
theorem realCheckGTID_none {maxSize : Nat} {master : MasterInfo} {s s' : EventStorage}
    {gtid : Bytes} (h : realCheckGTID cx maxSize master s gtid = (none, s')) :
    s.checkpointData.find? gtid = none ∧ s'.checkpointData = .empty := by
  unfold realCheckGTID at h
  cases hfound : s.checkpointData.find? gtid with
  | some info => simp [hfound] at h
  | none =>
    refine ⟨rfl, ?_⟩
    simp only [hfound, Prod.mk.injEq, true_and] at h
    rw [← h, checkPointDone]
    split
    · rename_i hempty
      exact SortedMap.ext_entries (List.isEmpty_iff.mp hempty)
    · rfl

/-- Without kept places `RealCheckGTID` changes nothing. -/
theorem realCheckGTID_of_empty {s : EventStorage} (h : s.checkpointData = .empty) (maxSize : Nat)
    (master : MasterInfo) (gtid : Bytes) :
    realCheckGTID cx maxSize master s gtid = (none, s) := by
  simp [realCheckGTID, checkPointDone, h]

end PhxSql.Store
