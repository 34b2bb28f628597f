import PhxSql.Store.EventStorage

/-!
# Checkpoint deletion

`CheckPointManager::RealMakeCheckPoint` looks up the GTIDs that all members have executed, takes the
newest file one of them lies in, and deletes files before it: `EventStorage::DelCheckPointFile`
drops the index entries of their events and takes them off the file list, and then the files are
removed from the directory. It selects the files from a listing of the directory, not from the file
list.
-/

set_option autoImplicit false

namespace PhxSql.Store

open PhxSql.Proto PhxSql.Lib PhxSql.Gtid

variable (cx : Codecs)

/-- The body of the file loop of `EventStorage::DelCheckPointFile`: the manager `m` is its own, and
the files of the loop differ, so that each one is opened anew. -/
def delFile (m : StorageFileManager) (s : EventStorage) (f : Bytes) : EventStorage :=
  let opened := setReadPos s.disk m { fileName := f }
  let records := recordsFrom cx ((content s.disk f).length + 1) opened.1 opened.2
  { s with
    disk := opened.1
    index := records.foldl (fun index r => if r.gtid ≠ [] then index.erase r.gtid else index) s.index
    manager := removeFile s.manager f }

/-- `EventStorage::DelCheckPointFile`: the files it selects and the store without them. -/
def delCheckPointFile (s : EventStorage) (maxFileName : Bytes) (maxNum minTime : Nat)
    (fileTime : Bytes → Nat) : List Bytes × EventStorage :=
  let m := newManager s.disk true
  let files := delCheckPointFileList m.fileList maxFileName maxNum minTime fileTime
  (files, files.foldl (delFile cx m) s)

/-- The GTID loop of `CheckPointManager::RealMakeCheckPoint`: the newest file a GTID lies in. -/
def maxCheckFile : List Bytes → Bytes → EventStorage → Bytes × EventStorage
  | [], maxFileName, s => (maxFileName, s)
  | gtid :: gtids, maxFileName, s =>
    let found := getLowerBoundGTIDInfo cx s gtid
    maxCheckFile gtids
      (if found.1 = .ok ∧ fileLess maxFileName found.2.1.fileName then found.2.1.fileName
        else maxFileName)
      found.2.2

/-- `CheckPointManager::RealMakeCheckPoint`: the files it removes and the store after it. `minTime`
is the time before which a file may be removed, `maxNum` is `GetMaxDeleteCheckPointFileNum`. -/
def realMakeCheckPoint (gtids : List Bytes) (maxNum minTime : Nat) (fileTime : Bytes → Nat)
    (s : EventStorage) : List Bytes × EventStorage :=
  let found := maxCheckFile cx gtids [] s
  if found.1 = [] then ([], found.2)
  else
    let deleted := delCheckPointFile cx found.2 found.1 maxNum minTime fileTime
    (deleted.1, { deleted.2 with disk := deleted.1.foldl SortedMap.erase deleted.2.disk })

end PhxSql.Store
