import PhxSql.Store.Storage
import PhxSql.Proto.Codec

/-!
# The event files of a directory

`StorageFileManager` and `EventFileManager`: the ordered list of event files, one file open for
reading and one for writing. A file is named after an instance id, and the list is ordered by that
id. The list is kept in memory; a manager made for a single lookup reads it from the directory, or
leaves it empty.
-/

set_option autoImplicit false

namespace PhxSql.Store

open PhxSql.Proto PhxSql.Lib

/-! ## File names -/

/-- `EVENT_PATH_PREF`, the text `EVENTDATA`. -/
def eventPathPref : Bytes := [69, 86, 69, 78, 84, 68, 65, 84, 65]

def dash : UInt8 := 45

/-- `StorageFileManager::GenFileName`. -/
def genFileName (instanceId : Nat) : Bytes :=
  eventPathPref ++ dash :: decimal instanceId

/-- `StorageFileManager::GetFileInstanceID`: some bytes other than a dash, a dash, a number. -/
def getFileInstanceID (fileName : Bytes) : Nat :=
  let stem := fileName.takeWhile fun b => b ≠ dash
  if stem.isEmpty then 0
  else
    match fileName.drop stem.length with
    | [] => 0
    | _ :: rest => (scanUnsigned 64 rest).getD 0

/-- The order of `StorageFileManager::FileCmp`: by instance id, the empty name first. -/
def fileRank (fileName : Bytes) : Nat :=
  if fileName.isEmpty then 0 else getFileInstanceID fileName + 1

/-- `StorageFileManager::FileCmp(file1, file2) < 0`. -/
def fileLess (file1 file2 : Bytes) : Bool :=
  if file1.isEmpty then true
  else if file2.isEmpty then false
  else decide (getFileInstanceID file1 < getFileInstanceID file2)

/-- `std::set` of file names. -/
abbrev FileSet := SortedMap Bytes Unit fileRank

/-- `StorageFileManager::GetAllFiles`. -/
def getAllFiles (d : Disk) : FileSet :=
  (d.keys.filter fun f => eventPathPref.isPrefixOf f).foldl (fun fs f => fs.insertNew f ()) .empty

/-! ## The manager -/

structure StorageFileManager where
  fileList : FileSet := .empty
  writer : Storage := {}
  reader : Storage := {}

/-- A manager made for a single lookup; `readFileList` says whether it lists the directory. -/
def newManager (d : Disk) (readFileList : Bool) : StorageFileManager :=
  { fileList := if readFileList then getAllFiles d else .empty }

/-- The files `GetNextReadFile` opens one after another. -/
def filesAfter (fs : FileSet) (path : Bytes) : List Bytes :=
  if fs.contains path then fs.keys.filter fun f => decide (fileRank path < fileRank f) else []

/-- The file `GetPreReadFile` opens. -/
def fileBefore (fs : FileSet) (path : Bytes) : Option Bytes :=
  if fs.contains path then (fs.keys.filter fun f => decide (fileRank f < fileRank path)).getLast?
  else none

/-- `StorageFileManager::OpenOldestFile`. -/
def openOldestFile (d : Disk) (m : StorageFileManager) : RetCode × Disk × StorageFileManager :=
  match m.fileList.keys.head? with
  | none => (.noFiles, d, m)
  | some f => (.ok, (reOpenRead d f).1, { m with reader := (reOpenRead d f).2 })

/-- `StorageFileManager::OpenNewestFile`. -/
def openNewestFile (d : Disk) (m : StorageFileManager) : RetCode × Disk × StorageFileManager :=
  match m.fileList.keys.getLast? with
  | none => (.noFiles, d, m)
  | some f => (.ok, (reOpenRead d f).1, { m with reader := (reOpenRead d f).2 })

/-- `StorageFileManager::GetPreReadFile`. -/
def getPreReadFile (d : Disk) (m : StorageFileManager) : RetCode × Disk × StorageFileManager :=
  match fileBefore m.fileList m.reader.path with
  | none => (.noFiles, d, m)
  | some f => (.ok, (reOpenRead d f).1, { m with reader := (reOpenRead d f).2 })

/-- `StorageFileManager::SwitchNewWriteFile`. -/
def switchNewWriteFile (d : Disk) (m : StorageFileManager) (instanceId : Nat) :
    Disk × StorageFileManager :=
  let f := genFileName instanceId
  let opened := setFileWritePos d m.writer f 0 false
  (opened.1, { m with fileList := m.fileList.insertNew f (), writer := opened.2 })

/-- `StorageFileManager::SetReadPos`. -/
def setReadPos (d : Disk) (m : StorageFileManager) (info : EventDataInfo) :
    Disk × StorageFileManager :=
  let opened := setFileReadPos d m.reader info.fileName info.offset
  (opened.1, { m with reader := opened.2 })

/-- `StorageFileManager::SetWritePos`. -/
def setWritePos (d : Disk) (m : StorageFileManager) (info : EventDataInfo) (trunc : Bool) :
    Disk × StorageFileManager :=
  let opened := setFileWritePos d m.writer info.fileName info.offset trunc
  (opened.1, { m with writer := opened.2 })

/-- `StorageFileManager::RemoveFile`. -/
def removeFile (m : StorageFileManager) (fileName : Bytes) : StorageFileManager :=
  { m with fileList := m.fileList.erase fileName }

/-- The selection loop of `StorageFileManager::DelCheckPointFile` over the files that are left;
`num` is the number of files in the list and `del` what has been selected. -/
def selectDelFiles (maxId num maxNum minTime : Nat) (fileTime : Bytes → Nat) :
    List Bytes → List Bytes → List Bytes
  | [], del => del
  | f :: fs, del =>
    if num < del.length + 3 then del
    else
      let del := if getFileInstanceID f < maxId ∧ fileTime f ≤ minTime then del ++ [f] else del
      if maxNum ≤ del.length then del
      else selectDelFiles maxId num maxNum minTime fileTime fs del

/-- `StorageFileManager::DelCheckPointFile`: the files it selects. The list it erases them from is
that of a manager that is dropped afterwards. -/
def delCheckPointFileList (fs : FileSet) (maxFileName : Bytes) (maxNum minTime : Nat)
    (fileTime : Bytes → Nat) : List Bytes :=
  selectDelFiles (getFileInstanceID maxFileName) fs.keys.length maxNum minTime fileTime fs.keys []

/-! ## Records -/

/-- What a read gives: the record bytes, the position they were read at, and the state after it. -/
structure ReadResult where
  data : Option Bytes
  pos : Storage
  disk : Disk
  reader : Storage

/-- The loop of `StorageFileManager::ReadData` over the files that follow. -/
def readNext (d : Disk) (st : Storage) : List Bytes → ReadResult
  | [] => { data := (readData d st).1, pos := st, disk := d, reader := (readData d st).2 }
  | f :: fs =>
    match readData d st with
    | (some data, st') => { data := some data, pos := st, disk := d, reader := st' }
    | (none, _) => readNext (reOpenRead d f).1 (reOpenRead d f).2 fs

/-- `CopyDataToDataInfo` on the position of a record. -/
def dataInfo (pos : Storage) (data : EventData) : EventDataInfo :=
  { gtid := data.gtid
    fileName := pos.path
    offset := pos.offset
    checksum := data.checksum
    instanceId := data.instanceId }

/-- What reading an event gives: the code, the event and its position, and the state after it. -/
structure EventRead where
  ret : RetCode
  data : EventData
  info : EventDataInfo
  disk : Disk
  manager : StorageFileManager

variable (cx : Codecs)

/-- A read that found these bytes. -/
def parseRead (m : StorageFileManager) (r : ReadResult) : EventRead :=
  let place : EventDataInfo := { fileName := r.pos.path, offset := r.pos.offset }
  let m := { m with reader := r.reader }
  match r.data with
  | none => { ret := .dataEmpty, data := {}, info := place, disk := r.disk, manager := m }
  | some bytes =>
    match cx.eventData.parse bytes with
    | none => { ret := .dataErr, data := {}, info := place, disk := r.disk, manager := m }
    | some data =>
      { ret := .ok, data := data, info := dataInfo r.pos data, disk := r.disk, manager := m }

/-- `EventFileManager::ReadData`, which goes on to the next file at the end of one. -/
def readEvent (d : Disk) (m : StorageFileManager) : EventRead :=
  parseRead cx m (readNext d m.reader (filesAfter m.fileList m.reader.path))

/-- `EventFileManager::ReadDataFromFile`, which stays in the file. -/
def readEventFromFile (d : Disk) (m : StorageFileManager) : EventRead :=
  parseRead cx m (readNext d m.reader [])

/-- The records a loop of `ReadDataFromFile` gives up to the end of the file or a record that does
not parse. A record takes bytes, so the length of the file is fuel enough. -/
def recordsFrom : Nat → Disk → StorageFileManager → List EventData
  | 0, _, _ => []
  | fuel + 1, d, m =>
    let read := readEventFromFile cx d m
    if read.ret = .ok then read.data :: recordsFrom fuel read.disk read.manager else []

/-- `StorageFileManager::WriteData`: a message that does not serialise is not written, and the code
returned for it is that of success. -/
def writeEvent (d : Disk) (m : StorageFileManager) (data : EventData) : Disk × StorageFileManager :=
  match cx.eventData.serialize data with
  | none => (d, m)
  | some bytes =>
    let written := writeData d m.writer bytes
    (written.1, { m with writer := written.2 })

/-! ## Lemmas about names -/

theorem genFileName_ne_nil (n : Nat) : genFileName n ≠ [] := by
  simp [genFileName, eventPathPref]

theorem getFileInstanceID_genFileName {n : Nat} (h : n < 2 ^ 64) :
    getFileInstanceID (genFileName n) = n := by
  have hall : ∀ b ∈ eventPathPref, decide (b ≠ dash) = true := by simp [eventPathPref, dash]
  have htake : (eventPathPref ++ dash :: decimal n).takeWhile (fun b => decide (b ≠ dash)) =
      eventPathPref := by
    rw [List.takeWhile_append_of_pos hall, List.takeWhile_cons_of_neg (by simp), List.append_nil]
  have hscan : scanUnsigned 64 (decimal n) = some n := by
    have hs := @scanUnsigned_decimal 64 n h [] (by simp)
    rwa [List.append_nil] at hs
  simp only [getFileInstanceID, genFileName, htake, List.drop_left, hscan, Option.getD_some]
  rfl

theorem fileRank_genFileName {n : Nat} (h : n < 2 ^ 64) : fileRank (genFileName n) = n + 1 := by
  have hne : (genFileName n).isEmpty = false := by simpa using genFileName_ne_nil n
  simp only [fileRank, hne, Bool.false_eq_true, if_false, getFileInstanceID_genFileName h]

theorem genFileName_inj {m n : Nat} : genFileName m = genFileName n ↔ m = n := by
  constructor
  · intro h
    have htail : decimal m = decimal n := by
      have h' := List.append_cancel_left h
      exact (List.cons.inj h').2
    exact decimal_injective htail
  · rintro rfl
    rfl

/-- The order of names is the order of their ranks, if the second name is not empty. -/
theorem fileLess_iff {f g : Bytes} (hg : g ≠ []) :
    fileLess f g = true ↔ fileRank f < fileRank g := by
  have hg' : g.isEmpty = false := by simpa using hg
  unfold fileLess fileRank
  by_cases hf : f.isEmpty
  · simp [hf, hg']
  · simp [hf, hg']

/-! ## Listing the directory -/

/-- The names of event files. -/
def FileName (f : Bytes) : Prop :=
  ∃ n, n < 2 ^ 64 ∧ f = genFileName n

theorem FileName.eq_of_fileRank_eq {f g : Bytes} (hf : FileName f) (hg : FileName g)
    (hrank : fileRank f = fileRank g) : f = g := by
  obtain ⟨n, hn, rfl⟩ := hf
  obtain ⟨m, hm, rfl⟩ := hg
  rw [fileRank_genFileName hn, fileRank_genFileName hm] at hrank
  rw [Nat.succ.inj hrank]

/-- The files of a listing are in the directory. -/
theorem contains_of_mem_getAllFiles {d : Disk} {f : Bytes} (h : f ∈ (getAllFiles d).keys) :
    ∃ bs, d.find? f = some bs := by
  have hfold : ∀ (names : List Bytes) (fs : FileSet),
      (∀ g ∈ fs.keys, ∃ bs, d.find? g = some bs) → (∀ g ∈ names, ∃ bs, d.find? g = some bs) →
      ∀ g ∈ (names.foldl (fun fs f => fs.insertNew f ()) fs).keys, ∃ bs, d.find? g = some bs := by
    intro names
    induction names with
    | nil =>
      intro fs hfs _ g hg
      exact hfs g hg
    | cons name names ih =>
      intro fs hfs hnames
      apply ih
      · intro g hg
        obtain ⟨e, he, rfl⟩ := List.mem_map.mp hg
        rcases SortedMap.mem_insertNew.mp he with he | ⟨rfl, -⟩
        · exact hfs e.1 (List.mem_map_of_mem he)
        · exact hnames name List.mem_cons_self
      · intro g hg
        exact hnames g (List.mem_cons_of_mem _ hg)
  apply hfold _ .empty _ _ f h
  · intro g hg
    cases hg
  · intro g hg
    obtain ⟨e, he, rfl⟩ := List.mem_map.mp (List.mem_filter.mp hg).1
    exact ⟨e.2, SortedMap.find?_eq_some_iff.mpr ⟨e.1, he, rfl⟩⟩

/-- The listing of a directory of event files has all of them. -/
theorem mem_getAllFiles {d : Disk} (hnamed : ∀ f bs, d.find? f = some bs → FileName f) {f : Bytes} :
    f ∈ (getAllFiles d).keys ↔ ∃ bs, d.find? f = some bs := by
  refine ⟨contains_of_mem_getAllFiles, ?_⟩
  -- A name that is not inserted has the rank of one that was, and so is that one.
  have hfold : ∀ (names : List Bytes) (fs : FileSet), (∀ g ∈ names, FileName g) →
      (∀ g ∈ fs.keys, FileName g) → ∀ g, FileName g → (g ∈ names ∨ g ∈ fs.keys) →
      g ∈ (names.foldl (fun fs f => fs.insertNew f ()) fs).keys := by
    intro names
    induction names with
    | nil =>
      intro fs _ _ g _ hg
      simpa using hg
    | cons name names ih =>
      intro fs hnames hkeys g hg hmem
      have hname := hnames name List.mem_cons_self
      rw [List.foldl_cons]
      apply ih _ (fun g' hg' => hnames g' (List.mem_cons_of_mem _ hg')) _ g hg
      · rcases hmem with hmem | hmem
        · rcases List.mem_cons.mp hmem with rfl | hmem
          · right
            cases hold : fs.contains g with
            | true =>
              obtain ⟨e, he, hrank⟩ := SortedMap.contains_iff.mp hold
              have hsame := (hkeys e.1 (List.mem_map_of_mem he)).eq_of_fileRank_eq hg hrank
              rw [← hsame]
              exact List.mem_map_of_mem (SortedMap.mem_insertNew.mpr (.inl he))
            | false =>
              exact List.mem_map.mpr
                ⟨(g, ()), SortedMap.mem_insertNew.mpr (.inr ⟨rfl, hold⟩), rfl⟩
          · exact .inl hmem
        · obtain ⟨e, he, rfl⟩ := List.mem_map.mp hmem
          exact .inr (List.mem_map_of_mem (SortedMap.mem_insertNew.mpr (.inl he)))
      · intro g' hg'
        obtain ⟨e, he, rfl⟩ := List.mem_map.mp hg'
        rcases SortedMap.mem_insertNew.mp he with he | ⟨rfl, -⟩
        · exact hkeys e.1 (List.mem_map_of_mem he)
        · exact hname
  rintro ⟨bs, hbs⟩
  have hmem : ∀ g ∈ d.keys, FileName g := by
    intro g hg
    obtain ⟨e, he, rfl⟩ := List.mem_map.mp hg
    exact hnamed e.1 e.2 (SortedMap.find?_eq_some_iff.mpr ⟨e.1, he, rfl⟩)
  have hname := hnamed f bs hbs
  apply hfold _ .empty (fun g hg => hmem g (List.mem_filter.mp hg).1) _ f hname
  · obtain ⟨g, hg, hrank⟩ := SortedMap.find?_eq_some_iff.mp hbs
    rw [byteRank_inj.mp hrank] at hg
    obtain ⟨n, -, hfn⟩ := hname
    refine .inl (List.mem_filter.mpr ⟨List.mem_map_of_mem hg, ?_⟩)
    rw [hfn]
    exact List.isPrefixOf_iff_prefix.mpr (List.prefix_append _ _)
  · intro g hg
    cases hg

theorem pairwise_keys (fs : FileSet) : fs.keys.Pairwise fun f g => fileRank f < fileRank g :=
  List.pairwise_map.mpr fs.sorted

theorem contains_of_mem_keys {fs : FileSet} {f : Bytes} (h : f ∈ fs.keys) :
    fs.contains f = true := by
  obtain ⟨e, he, rfl⟩ := List.mem_map.mp h
  exact SortedMap.contains_iff.mpr ⟨e, he, rfl⟩

/-- The files of a list before and behind one of them, by their ranks. -/
theorem fileRank_of_keys {fs : FileSet} {older newer : List Bytes} {f : Bytes}
    (h : fs.keys = older ++ f :: newer) :
    (∀ g ∈ older, fileRank g < fileRank f) ∧ ∀ g ∈ newer, fileRank f < fileRank g := by
  have hsorted := pairwise_keys fs
  rw [h, List.pairwise_append, List.pairwise_cons] at hsorted
  exact ⟨fun g hg => hsorted.2.2 g hg f List.mem_cons_self, hsorted.2.1.1⟩

theorem filesAfter_of_keys {fs : FileSet} {older newer : List Bytes} {f : Bytes}
    (h : fs.keys = older ++ f :: newer) : filesAfter fs f = newer := by
  obtain ⟨holder, hnewer⟩ := fileRank_of_keys h
  have hbefore : older.filter (fun g => decide (fileRank f < fileRank g)) = [] := by
    rw [List.filter_eq_nil_iff]
    intro g hg
    simpa using (holder g hg).le
  rw [filesAfter, if_pos (contains_of_mem_keys (by simp [h])), h, List.filter_append, hbefore,
    List.nil_append, List.filter_cons_of_neg (by simp), List.filter_eq_self]
  intro g hg
  simpa using hnewer g hg

theorem fileBefore_of_keys {fs : FileSet} {older newer : List Bytes} {f : Bytes}
    (h : fs.keys = older ++ f :: newer) : fileBefore fs f = older.getLast? := by
  obtain ⟨holder, hnewer⟩ := fileRank_of_keys h
  have hbefore : older.filter (fun g => decide (fileRank g < fileRank f)) = older := by
    rw [List.filter_eq_self]
    intro g hg
    simpa using holder g hg
  have hbehind : (f :: newer).filter (fun g => decide (fileRank g < fileRank f)) = [] := by
    rw [List.filter_eq_nil_iff]
    intro g hg
    rcases List.mem_cons.mp hg with rfl | hg
    · simp
    · simpa using (hnewer g hg).le
  rw [fileBefore, if_pos (contains_of_mem_keys (by simp [h])), h, List.filter_append, hbefore,
    hbehind, List.append_nil]

end PhxSql.Store
