import PhxSql.Lib.Crash
import PhxSql.Master.MasterStorage
import PhxSql.Store.EventStorage

/-!
# Crash and restart of the event store

The writes `AddEvent` makes to the data directory, in the order in which it makes them, and what a
new process does with the directory that a crash leaves: `GetNewestCheckPoint` looks for the newest
file that begins with a header, and `InitCheckPointDataFile` reads that file, drops its last record
and keeps the places of the others, so that executing their instances again does not write them
twice.

`addEvent_disk` says that the writes, made in full, are what `addEvent` does to the directory. The
marker file of a checkpoint that is being transferred is taken to be absent.
-/

set_option autoImplicit false

namespace PhxSql.Store

open PhxSql.Proto PhxSql.Lib PhxSql.Gtid

/-! ## The writes of an event -/

inductive RecordRole
  | event
  | footer
  | header
  deriving DecidableEq, Repr

/-- A change of the directory that the file system makes in one call. -/
inductive DiskWrite
  | create (path : Bytes)
  | record (role : RecordRole) (path : Bytes) (offset : Nat) (bytes : Bytes)
  deriving DecidableEq, Repr

/-- `open` creates a file or does not; of a `write` any number of bytes may arrive. -/
def diskWrites : WriteModel Disk DiskWrite where
  apply d w := match w with
    | .create path => createFile d path
    | .record _ path offset bytes => d.insert path (writeAt (content d path) offset bytes)
  torn w t := match w with
    | .create path => .create path
    | .record role path offset bytes => .record role path offset (bytes.take t)

variable (cx : Codecs)

/-- The writes of `StorageFileManager::WriteData`. -/
def recordWrites (role : RecordRole) (st : Storage) (data : EventData) : List DiskWrite :=
  match cx.eventData.serialize data with
  | none => []
  | some bytes => [.record role st.path st.offset (frame bytes)]

/-- The writes of `StorageFileManager::SwitchNewWriteFile`. -/
def createWrites (st : Storage) (path : Bytes) : List DiskWrite :=
  if st.path ≠ path then [.create path] else []

/-- The writes of `EventStorage::SwitchNewFile` with a footer. -/
def switchWrites (st : Storage) (header : EventData) : List DiskWrite :=
  recordWrites cx .footer st header ++ (createWrites st (genFileName header.instanceId) ++
    recordWrites cx .header { path := genFileName header.instanceId } header)

/-- The writes of `EventStorage::CheckAndSwitchFile`. -/
def checkAndSwitchWrites (maxSize : Nat) (master : MasterInfo) (s : EventStorage) :
    List DiskWrite :=
  if maxSize < s.manager.writer.offset then
    let header := getFileHeader cx master s
    if header.1 = .ok then switchWrites cx s.manager.writer header.2.1 else []
  else []

/-- The writes of `EventStorage::RealCheckGTID`, which are those of `CheckPointDone`. -/
def realCheckWrites (maxSize : Nat) (master : MasterInfo) (s : EventStorage) (gtid : Bytes) :
    List DiskWrite :=
  if (s.checkpointData.find? gtid).isNone ∧ s.checkpointData.entries ≠ [] then
    checkAndSwitchWrites cx maxSize master s
  else []

/-- The store after an event has been written at the end of the newest file and recorded, before the
size of the file is looked at. -/
def recordEvent (s : EventStorage) (gtid : Bytes) (data : EventData) : EventStorage :=
  let written := writeEvent cx s.disk s.manager data
  let info := dataInfo s.manager.writer data
  { s with
    disk := written.1
    manager := written.2
    uuidHandler := updateEventUUIDInfoByGTID s.uuidHandler gtid info
    index := s.index.insert gtid (.info info) }

/-- The writes of `EventStorage::AddEvent` with `switch_file`. -/
def addEventWrites (maxSize : Nat) (master : MasterInfo) (s : EventStorage) (gtid : Bytes)
    (data : EventData) : List DiskWrite :=
  if data.instanceId ≤ s.lastInstanceID then []
  else
    let checked := realCheckGTID cx maxSize master s gtid
    realCheckWrites cx maxSize master s gtid ++
      if checked.1.isNone then
        recordWrites cx .event checked.2.manager.writer data ++
          checkAndSwitchWrites cx maxSize master (recordEvent cx checked.2 gtid data)
      else []

/-! ## Restart -/

/-- What `CheckPointManager::GetNewestCheckPoint` gives. -/
structure CheckPoint where
  ret : RetCode := .dataEmpty
  data : EventData := {}
  master : MasterInfo := {}
  info : EventDataInfo := {}
  disk : Disk

/-- The loop of `CheckPointManager::GetNewestCheckPoint`. A read that finds nothing in a file goes
on to the next one and the loop then comes back to the same file, so that it does not end; `none`
stands for more rounds than the given number. -/
def getNewestCheckPointLoop : Nat → Disk → StorageFileManager → Option CheckPoint
  | 0, _, _ => none
  | rounds + 1, d, m =>
    let read := readEvent cx d m
    if read.ret = .ok ∧ read.data.gtid = [] ∧ read.data.masterData ≠ [] then
      match cx.masterInfo.parse read.data.masterData with
      | some master =>
        some { ret := .ok, data := read.data, master := master, info := read.info, disk := read.disk }
      | none => some { disk := read.disk }
    else
      let opened := getPreReadFile read.disk read.manager
      if opened.1 = .ok then getNewestCheckPointLoop rounds opened.2.1 opened.2.2
      else some { disk := opened.2.1 }

/-- `CheckPointManager::GetNewestCheckPoint`. -/
def getNewestCheckPoint (d : Disk) : Option CheckPoint :=
  let m := newManager d true
  let opened := openNewestFile d m
  if opened.1 = .ok then
    getNewestCheckPointLoop cx (m.fileList.keys.length + 1) opened.2.1 opened.2.2
  else some { disk := opened.2.1 }

/-- The loop of `EventStorage::InitCheckPointDataFile`; `last` is `last_data_info`. A record takes
bytes, so the number of bytes in the directory is fuel enough. -/
def initCheckPointLoop : Nat → EventStorage → EventDataInfo → RetCode × EventStorage
  | 0, s, _ => (.dataEmpty, s)
  | fuel + 1, s, last =>
    let read := readEvent cx s.disk s.manager
    let s := { s with disk := read.disk, manager := read.manager }
    if read.ret = .ok then
      -- A record is kept when the next one has been read, so that the last one is not.
      let preloaded := if last.gtid ≠ [] then s.checkpointData.insert last.gtid last
        else s.checkpointData
      initCheckPointLoop fuel { s with checkpointData := preloaded } read.info
    else if last.offset = 0 then
      -- There is nothing but the header, which stays.
      if read.ret = .dataEmpty then
        let opened := setWritePos s.disk s.manager read.info true
        (.ok, { s with disk := opened.1, manager := opened.2 })
      else (read.ret, s)
    else
      -- The file is cut at the last record, which is written again when its instance is executed.
      let opened := setWritePos s.disk s.manager last true
      (.ok, { s with disk := opened.1, manager := opened.2 })

/-- `EventStorage::InitCheckPointDataFile`. -/
def initCheckPointDataFile (s : EventStorage) (file : Bytes) : RetCode × EventStorage :=
  if file = [] then
    let opened := switchNewWriteFile s.disk s.manager 0
    (.ok, { s with disk := opened.1, manager := opened.2 })
  else
    let opened := setReadPos s.disk s.manager { fileName := file }
    initCheckPointLoop cx (diskSize s.disk + 1)
      { s with disk := opened.1, manager := opened.2, checkpointData := .empty } {}

/-- `EventStorage::LoadFromCheckPoint`. -/
def EventStorage.loadFromCheckPoint (s : EventStorage) (checkpointData : EventData)
    (file : Bytes) : RetCode × EventStorage :=
  let loaded := loadUUIDFromCheckPoint cx s.uuidHandler checkpointData
  if loaded.1 = .ok then
    let inited := initCheckPointDataFile cx { s with uuidHandler := loaded.2 } file
    if inited.1 = .ok ∧ checkpointData.eventDataFile ≠ [] then
      (.ok, { inited.2 with checkpointId := checkpointData.instanceId })
    else inited
  else (loaded.1, { s with uuidHandler := loaded.2 })

/-- `StorageManager`: the event store and the master record of a process. -/
structure StorageManager where
  eventStorage : EventStorage
  master : MasterInfo

/-- The constructor of `StorageManager`, which calls `StorageManager::LoadFromCheckPoint`, on a
directory and an index that another process has left; `none` if it does not return or its assertion
fails. -/
def StorageManager.loadFromCheckPoint (d : Disk) (index : EventIndex)
    (now leaseTime extLeaseTime : Nat) : Option StorageManager :=
  match getNewestCheckPoint cx d with
  | none => none
  | some found =>
    let s : EventStorage := { disk := found.disk, manager := newManager d true, index := index }
    let loaded := s.loadFromCheckPoint cx found.data found.info.fileName
    if loaded.1 = .ok then
      some
        { eventStorage := loaded.2
          master := Master.loadFromCheckPoint now leaseTime extLeaseTime {} found.master }
    else none

end PhxSql.Store
