import PhxSql.Store.EventIndex
import PhxSql.Store.StorageFileManager

/-!
# The event store

`EventStorage` appends events to the newest file, keeps the index and the UUID table in step, and
starts a new file when the newest one has grown past a limit: it ends the old file with a footer and
begins the new one with a header, which is the same record. The record carries the UUID table, the
master record and the instance id of the last event, and has an empty GTID.

The functions are those of the source under its lock, without input and output errors. `master` is
the record of `MasterStorage` at the time of the call and `maxSize` is `GetMaxEventFileSize`.
-/

set_option autoImplicit false

namespace PhxSql.Store

open PhxSql.Proto PhxSql.Lib PhxSql.Gtid

structure EventStorage where
  disk : Disk := .empty
  manager : StorageFileManager := {}
  index : EventIndex := .empty
  uuidHandler : EventUUIDHandler := {}
  checkpointData : SortedMap Bytes EventDataInfo byteRank := .empty
  checkpointId : Nat := 2 ^ 64 - 1

/-- `EventStorage::GetLastInstanceID`. -/
def EventStorage.lastInstanceID (s : EventStorage) : Nat :=
  s.uuidHandler.newestInfo.instanceId

variable (cx : Codecs)

/-! ## Adding events -/

/-- `EventStorage::GetFileHeader`. -/
def getFileHeader (master : MasterInfo) (s : EventStorage) : RetCode × EventData × EventStorage :=
  -- The table is in the index even if the master record then does not serialise.
  let buffer := serializeToBuffer cx s.uuidHandler s.index
  let s' := { s with index := buffer.2.2 }
  if buffer.1 = .ok then
    match cx.masterInfo.serialize master with
    | none => (.bufferFail, {}, s')
    | some masterData =>
      (.ok,
        { gtid := []
          data := buffer.2.1
          instanceId := s.lastInstanceID
          eventDataFile := s.manager.writer.path
          masterData := masterData },
        s')
  else (buffer.1, {}, s')

/-- `EventStorage::SwitchNewFile`. -/
def switchNewFile (s : EventStorage) (header : EventData) (writeFooter : Bool) : EventStorage :=
  let footed := if writeFooter then writeEvent cx s.disk s.manager header else (s.disk, s.manager)
  let opened := switchNewWriteFile footed.1 footed.2 header.instanceId
  let headed := writeEvent cx opened.1 opened.2 header
  { s with disk := headed.1, manager := headed.2, checkpointId := header.instanceId }

/-- `EventStorage::CheckAndSwitchFile` with its default argument. -/
def checkAndSwitchFile (maxSize : Nat) (master : MasterInfo) (s : EventStorage) : EventStorage :=
  if maxSize < s.manager.writer.offset then
    let header := getFileHeader cx master s
    if header.1 = .ok then switchNewFile cx header.2.2 header.2.1 true else header.2.2
  else s

/-- `EventStorage::CheckPointDone`. -/
def checkPointDone (maxSize : Nat) (master : MasterInfo) (s : EventStorage) : EventStorage :=
  if s.checkpointData.entries.isEmpty then s
  else { checkAndSwitchFile cx maxSize master s with checkpointData := .empty }

/-- `EventStorage::RealCheckGTID`: the place of an event that a restarted process has read back, or
none after the last of them. -/
def realCheckGTID (maxSize : Nat) (master : MasterInfo) (s : EventStorage) (gtid : Bytes) :
    Option EventDataInfo × EventStorage :=
  match s.checkpointData.find? gtid with
  | none => (none, checkPointDone cx maxSize master s)
  | some info => (some info, s)

/-- `EventStorage::AddEvent`. -/
def addEvent (maxSize : Nat) (master : MasterInfo) (s : EventStorage) (gtid : Bytes)
    (data : EventData) (switchFile : Bool) : RetCode × EventStorage :=
  if data.instanceId ≤ s.lastInstanceID then (.eventExist, s)
  else
    let checked := realCheckGTID cx maxSize master s gtid
    let s := checked.2
    -- An event that was read back at start is in its file already; it is not written again, and
    -- the file is not switched after it.
    let written := if checked.1.isNone then writeEvent cx s.disk s.manager data
      else (s.disk, s.manager)
    let place : Storage := match checked.1 with
      | none => s.manager.writer
      | some info => { path := info.fileName, offset := info.offset }
    let info := dataInfo place data
    let s := { s with
      disk := written.1
      manager := written.2
      uuidHandler := updateEventUUIDInfoByGTID s.uuidHandler gtid info
      index := s.index.insert gtid (.info info) }
    if checked.1.isNone ∧ switchFile then (.ok, checkAndSwitchFile cx maxSize master s)
    else (.ok, s)

/-! ## Lookups -/

/-- `EventStorage::RealGetGTIDInfo` and `RealGetLowerBoundGTIDInfo`: the UUID table first, then the
index. -/
def realGetGTIDInfo (s : EventStorage) (gtid : Bytes) (lowerBound : Bool) :
    RetCode × EventDataInfo :=
  let indexed : RetCode × EventDataInfo :=
    match getGTIDIndex s.index gtid lowerBound with
    | (.ok, info) => (.ok, info)
    | (.dataNotFound, info) => (.dataEmpty, info)
    | (.dataError, info) => (.fileFail, info)
  match getLastestGTIDEventByGTID s.uuidHandler gtid with
  | some info => if info.gtid = gtid then (.ok, info) else indexed
  | none => indexed

/-- `EventStorage::CheckGtidInData`. It makes managers of its own, so that only the directory can
change: a file that is looked at is created if it does not exist. -/
def checkGtidInData (d : Disk) (gtid : Bytes) (info : EventDataInfo) : RetCode × Disk :=
  if gtid = [] ∨ info.gtid = [] ∨ info.fileName = [] then
    -- Everything from the start is there if the oldest file is the first one.
    let opened := openOldestFile d (newManager d true)
    if opened.1 ≠ .ok then (opened.1, opened.2.1)
    else if opened.2.2.reader.path = genFileName 0 then (.ok, opened.2.1)
    else (.dataEmpty, opened.2.1)
  else
    let opened := setReadPos d (newManager d false) info
    let read := readEvent cx opened.1 opened.2
    if read.ret ≠ .ok then (read.ret, read.disk)
    else
      let parsed := parseEventList read.data.data
      if parsed.1 ≠ .ok then (parsed.1, read.disk)
      else if gtid ∈ parsed.2.map Prod.snd then (.ok, read.disk)
      else (.dataEmpty, read.disk)

/-- `EventStorage::GetGTIDInfo` with `lower_bound`. -/
def getLowerBoundGTIDInfo (s : EventStorage) (gtid : Bytes) :
    RetCode × EventDataInfo × EventStorage :=
  let found := realGetGTIDInfo s gtid true
  if found.1 = .ok then
    let checked := checkGtidInData cx s.disk gtid found.2
    (checked.1, found.2, { s with disk := checked.2 })
  else (found.1, found.2, s)

/-- The loop of `EventStorage::GetLastGtid`; `best` is `max_data_info`, absent until a GTID of the
list has been found. -/
def getLastGtidLoop (s : EventStorage) : List Bytes → Option EventDataInfo →
    Option EventDataInfo × EventStorage
  | [], best => (best, s)
  | gtid :: gtids, best =>
    let maxInfo := best.getD {}
    -- A GTID of the UUID of the best one with a smaller number is passed over without a lookup.
    if maxInfo.gtid ≠ [] ∧ (parseGTID maxInfo.gtid).1 = (parseGTID gtid).1 ∧
        (parseGTID gtid).2 < (parseGTID maxInfo.gtid).2 then
      getLastGtidLoop s gtids best
    else
      let found := realGetGTIDInfo s gtid true
      if found.1 = .ok ∧ maxInfo.instanceId < found.2.instanceId then
        let checked := checkGtidInData cx s.disk gtid found.2
        let s := { s with disk := checked.2 }
        getLastGtidLoop s gtids (if checked.1 = .ok then some found.2 else best)
      else getLastGtidLoop s gtids best

/-- `EventStorage::GetLastGtid`. -/
def getLastGtid (s : EventStorage) (gtids : List Bytes) : RetCode × Bytes × EventStorage :=
  if gtids.isEmpty then
    let checked := checkGtidInData cx s.disk [] {}
    (if checked.1 = .ok then .ok else .dataEmpty, [], { s with disk := checked.2 })
  else
    let found := getLastGtidLoop cx s gtids none
    match found.1 with
    | none => (.dataEmpty, [], found.2)
    | some info => (.ok, info.gtid, found.2)

/-! ## Reading the events -/

/-- `EventStorage::ReSet`. -/
def reSet (s : EventStorage) (gtid : Bytes) : RetCode × EventStorage :=
  if gtid = [] then
    let opened := openOldestFile s.disk s.manager
    (opened.1, { s with disk := opened.2.1, manager := opened.2.2 })
  else
    let found := realGetGTIDInfo s gtid true
    if found.1 = .dataEmpty then (.gtidFail, s)
    else if found.1 = .ok then
      let opened := setReadPos s.disk s.manager found.2
      (.ok, { s with disk := opened.1, manager := opened.2 })
    else (.fileFail, s)

/-- `EventManager::SignUpGTID` on the GTIDs a replica sends. -/
def signUpGTID (s : EventStorage) (gtids : List Bytes) : RetCode × EventStorage :=
  let found := getLastGtid cx s gtids
  if found.1 ≠ .ok then (found.1, found.2.2) else reSet found.2.2 found.2.1

/-- The loop of `EventStorage::GetEvent` without waiting: headers and footers are skipped. A record
takes bytes, so the number of bytes in the directory is fuel enough. -/
def getEventLoop : Nat → EventStorage → RetCode × EventData × EventStorage
  | 0, s => (.dataEmpty, {}, s)
  | fuel + 1, s =>
    let read := readEvent cx s.disk s.manager
    let s := { s with disk := read.disk, manager := read.manager }
    if read.ret = .ok ∧ read.data.gtid = [] then getEventLoop fuel s
    else (read.ret, read.data, s)

/-- The number of bytes in the directory. -/
def diskSize (d : Disk) : Nat :=
  (d.entries.map fun e => e.2.length).sum

/-- `EventStorage::GetEvent` without waiting. -/
def getEvent (s : EventStorage) : RetCode × EventData × EventStorage :=
  getEventLoop cx (diskSize s.disk + 1) s

/-! ## Starting -/

/-- A new process on an empty directory: `InitCheckPointDataFile` opens the first file. -/
def emptyStorage : EventStorage :=
  let opened := switchNewWriteFile .empty {} 0
  { disk := opened.1, manager := opened.2 }

end PhxSql.Store
