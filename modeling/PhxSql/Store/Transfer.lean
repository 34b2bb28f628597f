import PhxSql.Store.FailingIo
import PhxSql.Store.Recovery

/-!
# Transfer of a checkpoint

A node that is too far behind gets the event files of another one, without the newest. It restarts
with an empty directory and reads the files record by record: the first header opens a file, events
are added to it, and a footer ends it and opens the next one, so that later headers need nothing.
The node then starts from the last footer.

A restarted `EventStorage` has no file open for writing until a header was read, and a `write`
without an open file stores nothing and fails.
-/

set_option autoImplicit false

namespace PhxSql.Store

open PhxSql.Proto PhxSql.Lib PhxSql.Gtid

/-! ## The files that are sent -/

/-- `CheckPointManager::GetFile`. -/
def getFile (d : Disk) : List Bytes :=
  (getAllFiles d).keys.dropLast

/-- The directory the files arrive in. -/
def sentFiles (d : Disk) : Disk :=
  d.filterKeys fun f => decide (f ∈ getFile d)

/-! ## Loading them -/

/-- The local variables of `LoadFromCheckPointFileList` and the store it fills; `headerFile` is the
file name in `headerdatainfo`, and `rets` are the codes that `SwitchNewFile` and `AddEvent` have
returned. -/
structure Transfer where
  storage : EventStorage := {}
  curFooter : EventData := {}
  curFileName : Bytes := []
  headerFile : Bytes := []
  master : MasterInfo := {}
  rets : List RetCode := []

/-- What a `write` does at a position: without an open file it stores nothing. -/
def writeOutcome (st : Storage) : WriteOutcome :=
  if st.path.isEmpty then .short 0 else .complete

variable (cx : Codecs)

/-- The body of the loop of `LoadFromCheckPointFileList` on a record and the file it was read from.
-/
def loadRecord (maxSize : Nat) (t : Transfer) (fileName : Bytes) (data : EventData) :
    RetCode × Transfer :=
  if data.gtid = [] then
    if fileName ≠ t.curFileName then
      -- A header. Only the first one opens a file.
      if t.curFooter.eventDataFile = [] then
        (.ok, { t with
          storage := switchNewFile cx t.storage data false
          curFileName := fileName
          rets := t.rets ++ [.ok] })
      else (.ok, { t with curFileName := fileName })
    else
      let switched := switchNewFileIo cx t.storage data
        { footer := writeOutcome t.storage.manager.writer }
      (.ok, { t with
        storage := switched.2
        curFooter := data
        headerFile := switched.2.manager.writer.path
        rets := t.rets ++ [switched.1] })
  else
    let added := addEventIo cx maxSize {} t.storage data.gtid data false
      { record := writeOutcome t.storage.manager.writer }
    (added.1, { t with storage := added.2, rets := t.rets ++ [added.1] })

/-- `CheckPointManager::GetMasterInfoFromHeader`. -/
def getMasterInfoFromHeader (data : EventData) : Option MasterInfo :=
  if data.gtid = [] ∧ data.masterData ≠ [] then cx.masterInfo.parse data.masterData else none

/-- What `LoadFromCheckPointFileList` does at the end of the files. -/
def loadEnd (t : Transfer) : RetCode × Transfer :=
  match getMasterInfoFromHeader cx t.curFooter with
  | some master => (.ok, { t with master := master })
  | none => (.dataEmpty, t)

/-- The loop of `LoadFromCheckPointFileList`. A record takes bytes, so the number of bytes in the
directory is fuel enough. -/
def loadLoop (maxSize : Nat) : Nat → Disk → StorageFileManager → Transfer → RetCode × Transfer
  | 0, _, _, t => (.svrFail, t)
  | fuel + 1, d, m, t =>
    let read := readEvent cx d m
    if read.ret = .ok then
      let loaded := loadRecord cx maxSize t read.info.fileName read.data
      if loaded.1 = .ok then loadLoop maxSize fuel read.disk read.manager loaded.2 else loaded
    else if read.ret = .dataEmpty then loadEnd cx t
    else (read.ret, t)

/-- `CheckPointManager::LoadFromCheckPointFileList` after `EventStorage::Restart` on an empty
directory; `d` is the directory the files have arrived in. -/
def loadFromCheckPointFileList (maxSize : Nat) (d : Disk) : RetCode × Transfer :=
  let opened := openOldestFile d (newManager d true)
  if opened.1 ≠ .ok then (opened.1, {})
  else loadLoop cx maxSize (diskSize d + 1) opened.2.1 opened.2.2 {}

/-- `StorageManager::LoadFromCheckPoint` of a fresh node that has received these files; `none` if
one of the assertions fails. -/
def StorageManager.loadTransferred (maxSize now leaseTime extLeaseTime : Nat) (d : Disk) :
    Option StorageManager :=
  let loaded := loadFromCheckPointFileList cx maxSize d
  if loaded.1 = .ok then
    let started := loaded.2.storage.loadFromCheckPoint cx loaded.2.curFooter loaded.2.headerFile
    if started.1 = .ok then
      some
        { eventStorage := started.2
          master := Master.loadFromCheckPoint now leaseTime extLeaseTime {} loaded.2.master }
    else none
  else none

end PhxSql.Store
