import PhxSql.Store.FailingIo
import PhxSql.Store.Recovery

/-!
# What a crash leaves of an event

The writes of `AddEvent`, made in full, are what it does to the directory (`addEvent_disk`). For a
new event they are its record alone or, if the file is full after it, its record, a footer, a new
file and the header in it. A crash that lets only a part of a record arrive leaves the file as it
was with that part at the place of the record (`crashed_record`).
-/

set_option autoImplicit false

namespace PhxSql.Store

open PhxSql.Proto PhxSql.Lib PhxSql.Gtid

variable {cx : Codecs}

/-! ## All writes -/

theorem applyAll_recordWrites (role : RecordRole) (d : Disk) (m : StorageFileManager)
    (data : EventData) :
    diskWrites.applyAll d (recordWrites cx role m.writer data) = (writeEvent cx d m data).1 := by
  unfold recordWrites writeEvent
  cases cx.eventData.serialize data with
  | none => rfl
  | some bytes => rfl

theorem path_writeEvent (d : Disk) (m : StorageFileManager) (data : EventData) :
    (writeEvent cx d m data).2.writer.path = m.writer.path := by
  unfold writeEvent
  cases cx.eventData.serialize data with
  | none => rfl
  | some bytes => rfl

theorem applyAll_createWrites (d : Disk) (m : StorageFileManager) (id : Nat) :
    diskWrites.applyAll d (createWrites m.writer (genFileName id)) =
      (switchNewWriteFile d m id).1 := by
  simp only [createWrites, switchNewWriteFile, setFileWritePos, Bool.false_eq_true, if_false]
  split
  · rfl
  · rfl

theorem applyAll_switchWrites (s : EventStorage) (header : EventData) :
    diskWrites.applyAll s.disk (switchWrites cx s.manager.writer header) =
      (switchNewFile cx s header true).disk := by
  -- The footer moves the offset of the writer, not its path, and only the path decides.
  have hcreate : createWrites s.manager.writer (genFileName header.instanceId) =
      createWrites (writeEvent cx s.disk s.manager header).2.writer
        (genFileName header.instanceId) := by
    rw [createWrites, createWrites, path_writeEvent]
  rw [switchWrites, diskWrites.applyAll_append, diskWrites.applyAll_append, applyAll_recordWrites,
    hcreate, applyAll_createWrites]
  exact applyAll_recordWrites .header _
    (switchNewWriteFile (writeEvent cx s.disk s.manager header).1
      (writeEvent cx s.disk s.manager header).2 header.instanceId).2 header

theorem applyAll_checkAndSwitchWrites (maxSize : Nat) (master : MasterInfo) (s : EventStorage) :
    diskWrites.applyAll s.disk (checkAndSwitchWrites cx maxSize master s) =
      (checkAndSwitchFile cx maxSize master s).disk := by
  -- Making the header flushes the UUID table into the index and writes no file.
  have hkept : (getFileHeader cx master s).2.2.disk = s.disk ∧
      (getFileHeader cx master s).2.2.manager = s.manager := by
    rcases getFileHeader_index master s with h | h
    · rw [h]
      exact ⟨rfl, rfl⟩
    · rw [h]
      exact ⟨rfl, rfl⟩
  simp only [checkAndSwitchWrites, checkAndSwitchFile]
  split
  · split
    · rw [← applyAll_switchWrites, hkept.1, hkept.2]
    · exact hkept.1.symm
  · rfl

theorem applyAll_realCheckWrites (maxSize : Nat) (master : MasterInfo) (s : EventStorage)
    (gtid : Bytes) :
    diskWrites.applyAll s.disk (realCheckWrites cx maxSize master s gtid) =
      (realCheckGTID cx maxSize master s gtid).2.disk := by
  unfold realCheckWrites realCheckGTID checkPointDone
  cases hfound : s.checkpointData.find? gtid with
  | some info => simp
  | none =>
    by_cases hempty : s.checkpointData.entries = []
    · simp [hempty]
    · simp [hempty, applyAll_checkAndSwitchWrites]

/-- An event whose instance id is not above the last one is not written. -/
theorem addEventWrites_of_le {s : EventStorage} {data : EventData}
    (h : data.instanceId ≤ s.lastInstanceID) (maxSize : Nat) (master : MasterInfo) (gtid : Bytes) :
    addEventWrites cx maxSize master s gtid data = [] :=
  if_pos h

/-- The writes, made in full, are what `AddEvent` does to the directory. -/
theorem addEvent_disk (maxSize : Nat) (master : MasterInfo) (s : EventStorage) (gtid : Bytes)
    (data : EventData) :
    diskWrites.applyAll s.disk (addEventWrites cx maxSize master s gtid data) =
      (addEvent cx maxSize master s gtid data true).2.disk := by
  by_cases hid : data.instanceId ≤ s.lastInstanceID
  · rw [addEventWrites_of_le hid, addEvent_of_le hid]
    rfl
  · have hchecked := @applyAll_realCheckWrites cx maxSize master s gtid
    cases hcheck : realCheckGTID cx maxSize master s gtid with
    | mk found s' =>
      rw [hcheck] at hchecked
      rw [addEventWrites, if_neg hid, addEvent_eq (Nat.lt_of_not_le hid) hcheck]
      simp only [hcheck, diskWrites.applyAll_append, hchecked]
      cases found with
      | some info => rfl
      | none =>
        simp only [Option.isNone_none, if_true, and_self, diskWrites.applyAll_append,
          applyAll_recordWrites]
        exact applyAll_checkAndSwitchWrites maxSize master (recordEvent cx s' gtid data)

/-! ## The writes of a new event -/

/-- `CheckPointDone` does not switch files if there is room in the newest one. -/
theorem realCheckGTID_room {maxSize : Nat} {s : EventStorage} {gtid : Bytes}
    (hnew : s.checkpointData.find? gtid = none)
    (hroom : s.checkpointData ≠ .empty → s.manager.writer.offset ≤ maxSize) (master : MasterInfo) :
    realCheckGTID cx maxSize master s gtid = (none, { s with checkpointData := .empty }) := by
  by_cases hempty : s.checkpointData = .empty
  · rw [realCheckGTID_of_empty hempty, ← hempty]
  · have hentries : s.checkpointData.entries.isEmpty = false := by
      rw [List.isEmpty_eq_false_iff]
      exact fun h => hempty (SortedMap.ext_entries h)
    simp only [realCheckGTID, hnew, checkPointDone, hentries, Bool.false_eq_true, if_false,
      checkAndSwitchFile_of_le (hroom hempty)]

/-- The store that records a new event when there is room for it. -/
theorem addEvent_room {maxSize : Nat} {s : EventStorage} {gtid : Bytes} {data : EventData}
    (hid : s.lastInstanceID < data.instanceId) (hnew : s.checkpointData.find? gtid = none)
    (hroom : s.checkpointData ≠ .empty → s.manager.writer.offset ≤ maxSize) (master : MasterInfo) :
    addEvent cx maxSize master s gtid data true =
      (.ok, checkAndSwitchFile cx maxSize master
        (recordEvent cx { s with checkpointData := .empty } gtid data)) := by
  rw [addEvent_eq hid (realCheckGTID_room hnew hroom master)]
  rfl

/-- An event that was read back at start is not written again. -/
theorem addEventWrites_found {s : EventStorage} {gtid : Bytes}
    (hfound : (s.checkpointData.find? gtid).isSome = true) (maxSize : Nat) (master : MasterInfo)
    (data : EventData) : addEventWrites cx maxSize master s gtid data = [] := by
  obtain ⟨info, hinfo⟩ := Option.isSome_iff_exists.mp hfound
  simp [addEventWrites, realCheckWrites, realCheckGTID, hinfo]

theorem addEventWrites_room {maxSize : Nat} {s : EventStorage} {gtid : Bytes} {data : EventData}
    (hid : s.lastInstanceID < data.instanceId) (hnew : s.checkpointData.find? gtid = none)
    (hroom : s.checkpointData ≠ .empty → s.manager.writer.offset ≤ maxSize) (master : MasterInfo) :
    addEventWrites cx maxSize master s gtid data =
      recordWrites cx .event s.manager.writer data ++
        checkAndSwitchWrites cx maxSize master
          (recordEvent cx { s with checkpointData := .empty } gtid data) := by
  have hdone : realCheckWrites cx maxSize master s gtid = [] := by
    unfold realCheckWrites
    split
    · rename_i h
      have hne : s.checkpointData ≠ .empty := fun hempty => h.2 (by rw [hempty]; rfl)
      rw [checkAndSwitchWrites, if_neg (Nat.not_lt.mpr (hroom hne))]
    · rfl
  rw [addEventWrites, if_neg (Nat.not_le.mpr hid), hdone, realCheckGTID_room hnew hroom]
  rfl

theorem recordWrites_eq {data : EventData} (h : (cx.eventData.serialize data).isSome = true)
    (role : RecordRole) (st : Storage) :
    recordWrites cx role st data = [.record role st.path st.offset (frame (recordBytes cx data))] := by
  obtain ⟨bytes, hbytes⟩ := Option.isSome_iff_exists.mp h
  rw [recordWrites, recordBytes, hbytes, Option.getD_some]

/-- The places that a process keeps from its start are not part of a header. -/
theorem getFileHeader_places (master : MasterInfo) (s : EventStorage)
    (places : SortedMap Bytes EventDataInfo byteRank) :
    getFileHeader cx master { s with checkpointData := places } =
      ((getFileHeader cx master s).1, (getFileHeader cx master s).2.1,
        { (getFileHeader cx master s).2.2 with checkpointData := places }) := by
  simp only [getFileHeader]
  generalize serializeToBuffer cx s.uuidHandler s.index = buffer
  by_cases hok : buffer.1 = .ok
  · simp only [if_pos hok]
    cases cx.masterInfo.serialize master with
    | none => rfl
    | some masterData => rfl
  · simp only [if_neg hok]

/-- The writes of an event at `st` after which the file is full; `header` are the bytes of the
record that is the footer and the header. -/
def eventAndSwitch (st : Storage) (event header newFile : Bytes) : List DiskWrite :=
  [.record .event st.path st.offset (frame event),
    .record .footer st.path (st.offset + (frame event).length) (frame header),
    .create newFile,
    .record .header newFile 0 (frame header)]

section NewEvent

variable {maxSize : Nat} {s : EventStorage} {gtid : Bytes} {data : EventData} {master : MasterInfo}

theorem writer_recordEvent (hser : (cx.eventData.serialize data).isSome = true) :
    (recordEvent cx s gtid data).manager.writer =
      { path := s.manager.writer.path
        offset := s.manager.writer.offset + (frame (recordBytes cx data)).length } := by
  obtain ⟨bytes, hbytes⟩ := Option.isSome_iff_exists.mp hser
  simp only [recordEvent, writeEvent, hbytes, writeData, recordBytes, Option.getD_some]

theorem disk_recordEvent (hser : (cx.eventData.serialize data).isSome = true) :
    (recordEvent cx s gtid data).disk =
      s.disk.insert s.manager.writer.path
        (writeAt (content s.disk s.manager.writer.path) s.manager.writer.offset
          (frame (recordBytes cx data))) := by
  obtain ⟨bytes, hbytes⟩ := Option.isSome_iff_exists.mp hser
  simp only [recordEvent, writeEvent, hbytes, writeData, recordBytes, Option.getD_some]

theorem fileList_recordEvent :
    (recordEvent cx s gtid data).manager.fileList = s.manager.fileList := by
  simp only [recordEvent, writeEvent]
  cases cx.eventData.serialize data with
  | none => rfl
  | some bytes => rfl

/-- The file is not full after the event. -/
theorem addEventWrites_plain (hid : s.lastInstanceID < data.instanceId)
    (hnew : s.checkpointData.find? gtid = none)
    (hroom : s.checkpointData ≠ .empty → s.manager.writer.offset ≤ maxSize)
    (hser : (cx.eventData.serialize data).isSome = true)
    (hfits : s.manager.writer.offset + (frame (recordBytes cx data)).length ≤ maxSize) :
    addEventWrites cx maxSize master s gtid data =
      [.record .event s.manager.writer.path s.manager.writer.offset
        (frame (recordBytes cx data))] := by
  have hnot : ¬ maxSize <
      (recordEvent cx { s with checkpointData := .empty } gtid data).manager.writer.offset := by
    rw [writer_recordEvent hser]
    exact Nat.not_lt.mpr hfits
  rw [addEventWrites_room hid hnew hroom, recordWrites_eq hser, checkAndSwitchWrites, if_neg hnot]
  rfl

/-- The file is full after the event. -/
theorem addEventWrites_full (hid : s.lastInstanceID < data.instanceId)
    (hnew : s.checkpointData.find? gtid = none)
    (hroom : s.checkpointData ≠ .empty → s.manager.writer.offset ≤ maxSize)
    (hser : (cx.eventData.serialize data).isSome = true)
    (hfull : maxSize < s.manager.writer.offset + (frame (recordBytes cx data)).length)
    {header : EventData} {s' : EventStorage}
    (hmade : getFileHeader cx master (recordEvent cx { s with checkpointData := .empty } gtid data) =
      (.ok, header, s'))
    (hheader : (cx.eventData.serialize header).isSome = true)
    (hpath : s.manager.writer.path ≠ genFileName data.instanceId) :
    addEventWrites cx maxSize master s gtid data =
      eventAndSwitch s.manager.writer (recordBytes cx data) (recordBytes cx header)
        (genFileName data.instanceId) := by
  have hinstance : header.instanceId = data.instanceId := by
    have h := (@getFileHeader_record cx master _ (by rw [hmade])).2.1
    rw [hmade] at h
    exact h
  rw [addEventWrites_room hid hnew hroom, recordWrites_eq hser, checkAndSwitchWrites,
    writer_recordEvent hser, if_pos hfull]
  simp only [hmade, if_true, switchWrites, recordWrites_eq hheader, createWrites, hinstance, hpath,
    ne_eq, not_false_eq_true]
  rfl

end NewEvent

/-! ## Cuts -/

/-- The units in which a write arrives: the bytes of a record, a file as a whole. -/
def DiskWrite.size : DiskWrite → Nat
  | .create _ => 1
  | .record _ _ _ bytes => bytes.length

/-- Each write and the number of its units that arrive before a crash after `k` writes and `t` units
of the next one. -/
def arrivals : List DiskWrite → Nat → Nat → List (DiskWrite × Nat)
  | [], _, _ => []
  | w :: ws, 0, t => (w, min t w.size) :: ws.map fun w => (w, 0)
  | w :: ws, k + 1, t => (w, w.size) :: arrivals ws k t

/-- Whether a write is of a record in this role. -/
def DiskWrite.hasRole (role : RecordRole) : DiskWrite → Bool
  | .create _ => false
  | .record role' _ _ _ => role' = role

/-- A record in this role has arrived in part. -/
def Begun (role : RecordRole) (ws : List DiskWrite) (k t : Nat) : Prop :=
  ∃ a ∈ arrivals ws k t, a.1.hasRole role = true ∧ 0 < a.2

/-- A record in this role has arrived as a whole. -/
def Complete (role : RecordRole) (ws : List DiskWrite) (k t : Nat) : Prop :=
  ∃ a ∈ arrivals ws k t, a.1.hasRole role = true ∧ a.2 = a.1.size

instance (role : RecordRole) (ws : List DiskWrite) (k t : Nat) : Decidable (Begun role ws k t) :=
  inferInstanceAs (Decidable (∃ a ∈ arrivals ws k t, _))

instance (role : RecordRole) (ws : List DiskWrite) (k t : Nat) : Decidable (Complete role ws k t) :=
  inferInstanceAs (Decidable (∃ a ∈ arrivals ws k t, _))

theorem writeAt_nil {c : Bytes} {offset : Nat} (h : offset ≤ c.length) : writeAt c offset [] = c := by
  simp [writeAt, List.rightpad, h]

theorem insert_content {d : Disk} {path c : Bytes} (h : d.find? path = some c) :
    d.insert path c = d := by
  obtain ⟨path', hmem, hrank⟩ := SortedMap.find?_eq_some_iff.mp h
  rw [byteRank_inj.mp hrank] at hmem
  exact SortedMap.insert_of_mem hmem

/-- A crash during the write of one record. -/
theorem crashed_record {d : Disk} {path c : Bytes} (hfind : d.find? path = some c) {offset : Nat}
    (hoffset : offset ≤ c.length) (role : RecordRole) (bytes : Bytes) (k t : Nat) :
    diskWrites.crashed d [.record role path offset bytes] k t =
      d.insert path (writeAt c offset (bytes.take (if k = 0 then t else bytes.length))) := by
  have hc : content d path = c := by rw [content, hfind, Option.getD_some]
  cases k with
  | zero =>
    by_cases ht : t = 0
    · -- Nothing arrived, and writing nothing leaves the file as it is.
      rw [WriteModel.crashed]
      simp [ht, writeAt_nil hoffset, insert_content hfind]
    · rw [WriteModel.crashed]
      simp [ht, diskWrites, hc]
  | succ k =>
    rw [diskWrites.crashed_of_length_le d (by simp)]
    simp [diskWrites, hc]

/-- A crash in the last write of which everything arrived. -/
theorem crashed_last {d : Disk} {ws : List DiskWrite} {role : RecordRole} {path bytes : Bytes}
    {offset t : Nat} (ht : bytes.length ≤ t) (hpos : 0 < t) :
    diskWrites.crashed d (ws ++ [.record role path offset bytes]) ws.length t =
      diskWrites.applyAll d (ws ++ [.record role path offset bytes]) := by
  rw [diskWrites.crashed_append_right d _ (Nat.le_refl _), diskWrites.applyAll_append, Nat.sub_self]
  simp [WriteModel.crashed, diskWrites, Nat.ne_of_gt hpos, List.take_of_length_le ht]

section Switch

variable {st : Storage} {event header newFile : Bytes}

theorem complete_footer_iff (k t : Nat) :
    Complete .footer (eventAndSwitch st event header newFile) k t ↔
      1 < k ∨ (k = 1 ∧ (frame header).length ≤ t) := by
  simp only [Complete, eventAndSwitch]
  match k with
  | 0 => simp [arrivals, DiskWrite.hasRole, DiskWrite.size]; omega
  | 1 => simp [arrivals, DiskWrite.hasRole, DiskWrite.size]
  | k + 2 => simp [arrivals, DiskWrite.hasRole, DiskWrite.size]

theorem begun_footer_iff (k t : Nat) :
    Begun .footer (eventAndSwitch st event header newFile) k t ↔ 1 < k ∨ (k = 1 ∧ 0 < t) := by
  simp only [Begun, eventAndSwitch]
  match k with
  | 0 => simp [arrivals, DiskWrite.hasRole, DiskWrite.size]
  | 1 => simp [arrivals, DiskWrite.hasRole, DiskWrite.size]
  | k + 2 => simp [arrivals, DiskWrite.hasRole, DiskWrite.size]

theorem complete_header_iff (k t : Nat) :
    Complete .header (eventAndSwitch st event header newFile) k t ↔
      3 < k ∨ (k = 3 ∧ (frame header).length ≤ t) := by
  simp only [Complete, eventAndSwitch]
  match k with
  | 0 => simp [arrivals, DiskWrite.hasRole, DiskWrite.size]; omega
  | 1 => simp [arrivals, DiskWrite.hasRole, DiskWrite.size]; omega
  | 2 => simp [arrivals, DiskWrite.hasRole, DiskWrite.size]; omega
  | 3 => simp [arrivals, DiskWrite.hasRole, DiskWrite.size]
  | k + 4 => simp [arrivals, DiskWrite.hasRole, DiskWrite.size]

/-- A crash after a complete header leaves what all writes leave. -/
theorem crashed_of_complete_header {k t : Nat}
    (h : Complete .header (eventAndSwitch st event header newFile) k t) (d : Disk) :
    diskWrites.crashed d (eventAndSwitch st event header newFile) k t =
      diskWrites.applyAll d (eventAndSwitch st event header newFile) := by
  rcases (complete_header_iff k t).mp h with hk | ⟨rfl, ht⟩
  · exact diskWrites.crashed_of_length_le d hk t
  · -- The header is the last of the four writes.
    have hpos : 0 < t := by
      rw [length_frame] at ht
      omega
    exact @crashed_last d [_, _, _] _ _ _ _ _ ht hpos

/-- A crash in the record of the event. -/
theorem crashed_eventAndSwitch_zero (d : Disk) (t : Nat) :
    diskWrites.crashed d (eventAndSwitch st event header newFile) 0 t =
      diskWrites.crashed d [.record .event st.path st.offset (frame event)] 0 t := by
  show diskWrites.crashed d ([_] ++ _) 0 t = _
  rw [diskWrites.crashed_append_left d _ (by simp)]

/-- A crash in the footer. -/
theorem crashed_eventAndSwitch_one (d : Disk) (t : Nat) :
    diskWrites.crashed d (eventAndSwitch st event header newFile) 1 t =
      diskWrites.crashed
        (diskWrites.applyAll d [.record .event st.path st.offset (frame event)])
        [.record .footer st.path (st.offset + (frame event).length) (frame header)] 0 t := by
  show diskWrites.crashed d ([_] ++ ([_] ++ _)) 1 t = _
  rw [diskWrites.crashed_append_right d _ (by simp), diskWrites.crashed_append_left _ _ (by simp)]
  rfl

end Switch

end PhxSql.Store
