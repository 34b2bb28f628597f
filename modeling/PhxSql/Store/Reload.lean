import PhxSql.Store.Reading
import PhxSql.Store.Recovery

/-!
# What a new process reads back

A crash leaves whole files and a newest file whose last bytes may be a part of a record. A new
process takes the first record of the newest file, if it is a header, and reads the records after it
up to the first one that is cut off. It keeps their places, and it cuts the file before the last of
them, which is written again. If there is no file but the first one, which has no header, it starts
with nothing and writes over what is there.
-/

set_option autoImplicit false

namespace PhxSql.Store

open PhxSql.Proto PhxSql.Lib PhxSql.Gtid

variable {cx : Codecs}

/-! ## Reading a file that is cut off -/

/-- A record is read, whatever follows it. -/
theorem readEvent_record {d : Disk} {m : StorageFileManager} {pre : List EventData} {r : EventData}
    {rest : Bytes} (hc : content d m.reader.path = segmentBytes cx (pre ++ [r]) ++ rest)
    (ho : m.reader.offset = (segmentBytes cx pre).length)
    (hser : (cx.eventData.serialize r).isSome = true) :
    readEvent cx d m =
      { ret := .ok, data := r, info := dataInfo m.reader r, disk := d,
        manager := { m with
          reader := { m.reader with offset := (segmentBytes cx (pre ++ [r])).length } } } := by
  have hbytes : content d m.reader.path =
      segmentBytes cx pre ++ (frame (recordBytes cx r) ++ rest) := by
    rw [hc, segmentBytes_append, segmentBytes_cons, segmentBytes_nil, List.append_nil,
      List.append_assoc]
  have hread := readData_of_content m.reader hbytes ho (length_recordBytes_le cx r)
  have hend : m.reader.offset + (8 + (recordBytes cx r).length) =
      (segmentBytes cx (pre ++ [r])).length := by
    rw [ho, segmentBytes_append, segmentBytes_cons, segmentBytes_nil, List.append_nil,
      List.length_append, length_frame]
  rw [hend] at hread
  have hnext : ∀ fs, readNext d m.reader fs =
      { data := some (recordBytes cx r), pos := m.reader, disk := d,
        reader := { m.reader with offset := (segmentBytes cx (pre ++ [r])).length } } := by
    intro fs
    cases fs with
    | nil => simp only [readNext, hread]
    | cons f fs => simp only [readNext, hread]
  simp only [readEvent, hnext, parseRead, parse_recordBytes hser]

/-- Nothing is read after the last whole record of the newest file. -/
theorem readEvent_tail {d : Disk} {m : StorageFileManager} {rs : List EventData} {tail : Bytes}
    (hc : content d m.reader.path = segmentBytes cx rs ++ tail)
    (ho : m.reader.offset = (segmentBytes cx rs).length)
    (htail : readFrame maxRecordLen tail = none)
    (hlast : filesAfter m.fileList m.reader.path = []) :
    readEvent cx d m =
      { ret := .dataEmpty, data := {},
        info := { fileName := m.reader.path, offset := (segmentBytes cx rs).length },
        disk := d, manager := m } := by
  have hread : readData d m.reader = (none, m.reader) := by
    simp only [readData, hc, ho, List.drop_left, htail]
  simp only [readEvent, hlast, readNext, hread, parseRead, ho]

/-! ## `InitCheckPointDataFile` -/

/-- The records that stay in the newest file: all but the last one, or a header alone. -/
def reloaded (rs : List EventData) : List EventData :=
  if rs.length ≤ 1 then rs else rs.dropLast

theorem reloaded_cons (header : EventData) (events : List EventData) :
    reloaded (header :: events) = header :: events.dropLast := by
  cases events with
  | nil => rfl
  | cons e events => rfl

variable (cx) in
/-- What `InitCheckPointDataFile` has done with a file: it is cut off after these records and open
for writing there. -/
structure Reloaded (s s' : EventStorage) (path : Bytes) (kept : List EventData) : Prop where
  disk : s'.disk = s.disk.insert path (segmentBytes cx kept)
  fileList : s'.manager.fileList = s.manager.fileList
  writer : s'.manager.writer = { path := path, offset := (segmentBytes cx kept).length }
  uuidHandler : s'.uuidHandler = s.uuidHandler
  checkpointId : s'.checkpointId = s.checkpointId

theorem truncateTo_append (a b : Bytes) : truncateTo (a ++ b) a.length = a := by
  simp [truncateTo, List.rightpad]

/-- Opening a file for writing behind some of its records cuts off the others. -/
theorem setWritePos_cut {d : Disk} {m : StorageFileManager} {path : Bytes} {kept : List EventData}
    {rest : Bytes} (hfile : d.find? path = some (segmentBytes cx kept ++ rest))
    {info : EventDataInfo} (hpath : info.fileName = path)
    (hoffset : info.offset = (segmentBytes cx kept).length) :
    setWritePos d m info true =
      (d.insert path (segmentBytes cx kept),
        { m with writer := { path := path, offset := (segmentBytes cx kept).length } }) := by
  have hc : content d path = segmentBytes cx kept ++ rest := by
    rw [content, hfile, Option.getD_some]
  have hopen : (if m.writer.path ≠ path then createFile d path else d) = d := by
    split
    · exact createFile_of_find? hfile
    · rfl
  simp only [setWritePos, setFileWritePos, hpath, hoffset, hopen, if_true, hc, truncateTo_append]

/-- The loop of `InitCheckPointDataFile` after it has read the record `r`. -/
theorem initCheckPointLoop_eq {tail : Bytes} (htail : readFrame maxRecordLen tail = none)
    (rest : List EventData) :
    ∀ {fuel : Nat} {s : EventStorage} {pre : List EventData} {r : EventData},
      rest.length < fuel →
      s.disk.find? s.manager.reader.path = some (segmentBytes cx (pre ++ r :: rest) ++ tail) →
      s.manager.reader.offset = (segmentBytes cx (pre ++ [r])).length →
      filesAfter s.manager.fileList s.manager.reader.path = [] →
      (∀ x ∈ rest, (cx.eventData.serialize x).isSome = true) →
      ∃ s', initCheckPointLoop cx fuel s
          (dataInfo { path := s.manager.reader.path, offset := (segmentBytes cx pre).length } r) =
          (.ok, s') ∧
        Reloaded cx s s' s.manager.reader.path (reloaded (pre ++ r :: rest)) ∧
        ∀ gtid, (s'.checkpointData.find? gtid).isSome = true ↔
          (s.checkpointData.find? gtid).isSome = true ∨
            ∃ x ∈ (r :: rest).dropLast, x.gtid ≠ [] ∧ x.gtid = gtid := by
  induction rest with
  | nil =>
    intro fuel s pre r hfuel hfile ho hlast _
    obtain ⟨fuel, rfl⟩ := Nat.exists_eq_succ_of_ne_zero (Nat.ne_of_gt hfuel)
    have hc : content s.disk s.manager.reader.path = segmentBytes cx (pre ++ [r]) ++ tail := by
      rw [content, hfile, Option.getD_some]
    have hread := readEvent_tail hc ho htail hlast
    have hempty : RetCode.dataEmpty ≠ RetCode.ok := by decide
    simp only [initCheckPointLoop, hread, if_neg hempty, if_true, dataInfo]
    cases pre with
    | nil =>
      -- The only record is the header, which stays.
      have hcut := @setWritePos_cut cx s.disk s.manager s.manager.reader.path [r] tail hfile
        { fileName := s.manager.reader.path, offset := (segmentBytes cx [r]).length } rfl rfl
      simp only [segmentBytes_nil, List.length_nil, if_true, List.nil_append, hcut]
      refine ⟨_, rfl, ⟨rfl, rfl, rfl, rfl, rfl⟩, ?_⟩
      intro gtid
      simp
    | cons a pre =>
      have hoffset : (segmentBytes cx (a :: pre)).length ≠ 0 := by
        have hle := @length_le_segmentBytes cx (a :: pre)
        rw [List.length_cons] at hle
        omega
      have hfile' : s.disk.find? s.manager.reader.path =
          some (segmentBytes cx (a :: pre) ++ (segmentBytes cx [r] ++ tail)) := by
        rw [hfile, segmentBytes_append, List.append_assoc]
      have hcut := @setWritePos_cut cx s.disk s.manager s.manager.reader.path (a :: pre) _ hfile'
        (dataInfo { path := s.manager.reader.path, offset := (segmentBytes cx (a :: pre)).length } r)
        rfl rfl
      have hkept : reloaded (a :: pre ++ [r]) = a :: pre := by
        rw [reloaded, if_neg (by simp), List.dropLast_concat]
      simp only [dataInfo] at hcut
      simp only [hoffset, if_false, hcut, hkept]
      refine ⟨_, rfl, ⟨rfl, rfl, rfl, rfl, rfl⟩, ?_⟩
      intro gtid
      simp
  | cons e rest ih =>
    intro fuel s pre r hfuel hfile ho hlast hser
    obtain ⟨fuel, rfl⟩ := Nat.exists_eq_succ_of_ne_zero (Nat.ne_zero_of_lt hfuel)
    have hsplit : pre ++ r :: e :: rest = (pre ++ [r]) ++ [e] ++ rest := by simp
    have hc : content s.disk s.manager.reader.path =
        segmentBytes cx ((pre ++ [r]) ++ [e]) ++ (segmentBytes cx rest ++ tail) := by
      rw [content, hfile, Option.getD_some, hsplit, segmentBytes_append, List.append_assoc]
    have hread := readEvent_record hc ho (hser e List.mem_cons_self)
    have hwhere : s.manager.reader =
        ⟨s.manager.reader.path, (segmentBytes cx (pre ++ [r])).length⟩ := by
      rw [← ho]
    simp only [initCheckPointLoop, hread, if_true]
    -- The record before is kept, unless it is the header.
    obtain ⟨s', hloop, hrel, hfind⟩ := @ih fuel
      { s with
        manager := { s.manager with reader := { s.manager.reader with
          offset := (segmentBytes cx (pre ++ [r] ++ [e])).length } }
        checkpointData :=
          if r.gtid ≠ [] then s.checkpointData.insert r.gtid
            (dataInfo ⟨s.manager.reader.path, (segmentBytes cx pre).length⟩ r)
          else s.checkpointData }
      (pre ++ [r]) e (by simp at hfuel; omega) (by rw [hfile]; simp) rfl hlast
      (fun x hx => hser x (List.mem_cons_of_mem _ hx))
    refine ⟨s', ?_, ?_, ?_⟩
    · rw [← hloop]
      simp only [← hwhere]
      rfl
    · rw [show pre ++ r :: e :: rest = pre ++ [r] ++ e :: rest by simp]
      exact ⟨hrel.disk, hrel.fileList, hrel.writer, hrel.uuidHandler, hrel.checkpointId⟩
    · intro gtid
      rw [hfind gtid, List.dropLast_cons_cons]
      by_cases hgtid : r.gtid = []
      · simp [hgtid]
      · by_cases heq : gtid = r.gtid
        · simp [hgtid, heq]
        · have hne : byteRank gtid ≠ byteRank r.gtid := fun hrank => heq (byteRank_inj.mp hrank)
          simp [hgtid, SortedMap.find?_insert_of_ne hne, Ne.symm heq]

/-! ## The files of a directory -/

/-- The directory has no other files than those of the segments. -/
def NoOthers (d : Disk) (segs : List Segment) : Prop :=
  ∀ f bs, d.find? f = some bs → ∃ g ∈ segs, f = g.file

/-- The listing depends on the names only. -/
theorem FilesRep.getAllFiles_eq {d d' : Disk} {fs : FileSet} {segs : List Segment}
    (h : FilesRep cx d fs segs) (honly : NoOthers d segs)
    (hsame : ∀ f, (d'.find? f).isSome = (d.find? f).isSome) : getAllFiles d' = fs := by
  have hd' : ∀ f bs, d'.find? f = some bs → ∃ g ∈ segs, f = g.file := by
    intro f bs hf
    have hsome : (d.find? f).isSome = true := by
      rw [← hsame f, hf]
      rfl
    obtain ⟨bs', hbs'⟩ := Option.isSome_iff_exists.mp hsome
    exact honly f bs' hbs'
  have hkeys : (getAllFiles d').keys = segs.map Segment.file := by
    apply SortedMap.keys_eq_of_mem
    · rw [← h.keys]
      exact pairwise_keys fs
    · intro f
      rw [mem_getAllFiles fun f bs hf => by
        obtain ⟨g, hg, rfl⟩ := hd' f bs hf
        exact ⟨g.id, h.small g hg, rfl⟩]
      constructor
      · rintro ⟨bs, hbs⟩
        obtain ⟨g, hg, rfl⟩ := hd' f bs hbs
        exact List.mem_map_of_mem hg
      · intro hf
        obtain ⟨g, hg, rfl⟩ := List.mem_map.mp hf
        apply Option.isSome_iff_exists.mp
        rw [hsame, h.contents g hg]
        rfl
  -- A set of names has nothing but its names.
  apply SortedMap.ext_mem
  have hmem : ∀ (fs : FileSet) (e : Bytes × Unit), e ∈ fs.entries ↔ e.1 ∈ fs.keys := by
    intro fs e
    constructor
    · exact fun he => List.mem_map_of_mem he
    · intro he
      obtain ⟨e', he', heq⟩ := List.mem_map.mp he
      rwa [show e = e' from Prod.ext heq.symm rfl]
  intro e
  rw [hmem, hmem, hkeys, h.keys]

theorem length_le_diskSize {d : Disk} {f bs : Bytes} (h : d.find? f = some bs) :
    bs.length ≤ diskSize d := by
  obtain ⟨f', hmem, -⟩ := SortedMap.find?_eq_some_iff.mp h
  apply List.single_le_sum (by simp)
  exact List.mem_map.mpr ⟨(f', bs), hmem, rfl⟩

/-! ## Starting from a header -/

/-- `InitCheckPointDataFile` on a newest file with a header. -/
theorem initCheckPointDataFile_headed {s : EventStorage} {path : Bytes} {header : EventData}
    {events : List EventData} {tail : Bytes}
    (hfile : s.disk.find? path = some (segmentBytes cx (header :: events) ++ tail))
    (hpath : path ≠ []) (hreader : s.manager.reader.path ≠ path)
    (hlast : filesAfter s.manager.fileList path = [])
    (hser : ∀ r ∈ header :: events, (cx.eventData.serialize r).isSome = true)
    (htail : readFrame maxRecordLen tail = none) (hgtid : header.gtid = []) :
    ∃ s', initCheckPointDataFile cx s path = (.ok, s') ∧
      Reloaded cx s s' path (header :: events.dropLast) ∧
      ∀ gtid, (s'.checkpointData.find? gtid).isSome = true ↔
        ∃ x ∈ events.dropLast, x.gtid ≠ [] ∧ x.gtid = gtid := by
  have hopen : setReadPos s.disk s.manager { fileName := path } =
      (s.disk, { s.manager with reader := { path := path } }) := by
    simp only [setReadPos, setFileReadPos, reOpenRead, hreader, ne_eq, not_false_eq_true, if_true,
      createFile_of_find? hfile]
  have hc : content s.disk path =
      segmentBytes cx ([] ++ [header]) ++ (segmentBytes cx events ++ tail) := by
    rw [content, hfile, Option.getD_some, List.nil_append, ← List.append_assoc,
      ← segmentBytes_append]
    rfl
  have hread := @readEvent_record cx s.disk { s.manager with reader := { path := path } } [] header
    _ hc rfl (hser header List.mem_cons_self)
  -- Every record takes bytes of the file.
  have hfuel : events.length < diskSize s.disk := by
    have hsize := length_le_diskSize hfile
    have hlen := @length_le_segmentBytes cx (header :: events)
    rw [List.length_append] at hsize
    rw [List.length_cons] at hlen
    omega
  obtain ⟨s', hloop, hrel, hfind⟩ := @initCheckPointLoop_eq cx tail htail events (diskSize s.disk)
    { s with
      manager := { s.manager with
        reader := { path := path, offset := (segmentBytes cx ([] ++ [header])).length } }
      checkpointData := .empty }
    [] header hfuel hfile rfl hlast fun x hx => hser x (List.mem_cons_of_mem _ hx)
  have hkept : reloaded ([] ++ header :: events) = header :: events.dropLast :=
    reloaded_cons header events
  rw [hkept] at hrel
  refine ⟨s', ?_, ⟨hrel.disk, hrel.fileList, hrel.writer, hrel.uuidHandler, hrel.checkpointId⟩, ?_⟩
  · rw [← hloop]
    simp only [initCheckPointDataFile, hpath, if_false, hopen, initCheckPointLoop, hread, if_true,
      ne_eq, not_true]
    rfl
  · intro gtid
    rw [hfind]
    cases events with
    | nil => simp
    | cons e events => simp [hgtid]

variable (cx) in
/-- A header from which a process can start: its table and master record are there. -/
structure Loadable (header : EventData) (table : List EventDataInfo) (master : MasterInfo) :
    Prop where
  gtid : header.gtid = []
  eventDataFile : header.eventDataFile ≠ []
  data : header.data ≠ []
  masterData : header.masterData ≠ []
  table : cx.eventDataInfoList.parse header.data = some table
  master : cx.masterInfo.parse header.masterData = some master

theorem find?_insert_isSome {d : Disk} {f : Bytes} (h : (d.find? f).isSome = true) (bs : Bytes)
    (f' : Bytes) : ((d.insert f bs).find? f').isSome = (d.find? f').isSome := by
  by_cases hf : f' = f
  · rw [hf, SortedMap.find?_insert_self, h]
    rfl
  · rw [SortedMap.find?_insert_of_ne (by simpa using hf)]

/-- A process starts from the header of the newest file, whatever follows its records. -/
theorem loadFromCheckPoint_headed {d : Disk} {fs : FileSet} {segs : List Segment} {g : Segment}
    (h : FilesRep cx d fs (segs ++ [g])) (honly : NoOthers d (segs ++ [g])) {header : EventData}
    {events : List EventData} {tail : Bytes}
    (hser : ∀ r ∈ header :: events, (cx.eventData.serialize r).isSome = true)
    (htail : readFrame maxRecordLen tail = none) {table : List EventDataInfo} {master : MasterInfo}
    (hheader : Loadable cx header table master) (index : EventIndex)
    (now leaseTime extLeaseTime : Nat) :
    ∃ s, StorageManager.loadFromCheckPoint cx
        (d.insert g.file (segmentBytes cx (header :: events) ++ tail)) index now leaseTime
        extLeaseTime =
        some { eventStorage := s
               master := Master.loadFromCheckPoint now leaseTime extLeaseTime {} master } ∧
      s.disk = d.insert g.file (segmentBytes cx (header :: events.dropLast)) ∧
      s.manager.fileList = fs ∧
      s.manager.writer =
        { path := g.file, offset := (segmentBytes cx (header :: events.dropLast)).length } ∧
      s.uuidHandler = parseFromEventInfoList {} table ∧ s.checkpointId = header.instanceId ∧
      ∀ gtid, (s.checkpointData.find? gtid).isSome = true ↔
        ∃ x ∈ events.dropLast, x.gtid ≠ [] ∧ x.gtid = gtid := by
  have hg : g ∈ segs ++ [g] := by simp
  have hsome : (d.find? g.file).isSome = true := by rw [h.contents g hg]; rfl
  -- The listing of the directory is the list of the files.
  have hlisting := h.getAllFiles_eq honly (find?_insert_isSome hsome
    (segmentBytes cx (header :: events) ++ tail))
  generalize hd' : d.insert g.file (segmentBytes cx (header :: events) ++ tail) = d' at hlisting ⊢
  have hfile : d'.find? g.file = some (segmentBytes cx (header :: events) ++ tail) := by
    rw [← hd', SortedMap.find?_insert_self]
  have hnewest : fs.keys.getLast? = some g.file := by
    rw [h.keys, List.map_append, List.map_singleton, List.getLast?_concat]
  have hc : content d' g.file =
      segmentBytes cx ([] ++ [header]) ++ (segmentBytes cx events ++ tail) := by
    rw [content, hfile, Option.getD_some, List.nil_append, ← List.append_assoc,
      ← segmentBytes_append]
    rfl
  have hread := @readEvent_record cx d' { fileList := fs, reader := { path := g.file } } [] header _
    hc rfl (hser header List.mem_cons_self)
  have hfound : getNewestCheckPoint cx d' =
      some { ret := .ok, data := header, master := master,
             info := dataInfo { path := g.file } header, disk := d' } := by
    simp only [getNewestCheckPoint, newManager, if_true, hlisting, openNewestFile, hnewest,
      reOpenRead, createFile_of_find? hfile, getNewestCheckPointLoop, hread, hheader.gtid,
      hheader.masterData, hheader.master, ne_eq, not_false_eq_true, and_self]
  have hdata : header.data.isEmpty = false := List.isEmpty_eq_false_iff.mpr hheader.data
  have hlast : filesAfter fs g.file = [] := h.filesAfter_eq
  have hname : g.file ≠ [] := genFileName_ne_nil g.id
  obtain ⟨s', hinit, hrel, hfind⟩ := @initCheckPointDataFile_headed cx
    { disk := d', manager := newManager d' true, index := index,
      uuidHandler := parseFromEventInfoList {} table } g.file header events tail hfile hname
    hname.symm (by rw [newManager, if_pos rfl, hlisting]; exact hlast) hser htail hheader.gtid
  refine ⟨{ s' with checkpointId := header.instanceId }, ?_, ?_, ?_, hrel.writer, hrel.uuidHandler,
    rfl, hfind⟩
  · have hfileName : (dataInfo { path := g.file } header).fileName = g.file := rfl
    simp only [StorageManager.loadFromCheckPoint, hfound, hfileName,
      EventStorage.loadFromCheckPoint, loadUUIDFromCheckPoint, hdata, Bool.false_eq_true, if_false,
      hheader.table, if_true, hinit, hheader.eventDataFile, ne_eq, not_false_eq_true, and_self]
  · have hdisk : s'.disk = d'.insert g.file (segmentBytes cx (header :: events.dropLast)) :=
      hrel.disk
    show s'.disk = _
    rw [hdisk, ← hd', SortedMap.insert_insert]
  · have hfiles : s'.manager.fileList = (newManager d' true).fileList := hrel.fileList
    show s'.manager.fileList = fs
    rw [hfiles, newManager, if_pos rfl, hlisting]

/-! ## Starting from nothing -/

/-- The directory of a process that has not switched files: the first file with these bytes. -/
def firstFile (bs : Bytes) : Disk :=
  emptyStorage.disk.insert (genFileName 0) bs

theorem find?_firstFile (bs : Bytes) : (firstFile bs).find? (genFileName 0) = some bs :=
  SortedMap.find?_insert_self ..

theorem keys_firstFile (bs : Bytes) : (firstFile bs).keys = [genFileName 0] := rfl

theorem getAllFiles_firstFile (bs : Bytes) :
    getAllFiles (firstFile bs) = emptyStorage.manager.fileList := by
  rw [getAllFiles, keys_firstFile]
  rfl

/-- Without a header in the first file a process starts with nothing and writes over the file. -/
theorem loadFromCheckPoint_first {bs : Bytes}
    (hfirst : ∀ bytes r, readFrame maxRecordLen bs = some bytes →
      cx.eventData.parse bytes = some r → r.gtid ≠ [])
    (index : EventIndex) (now leaseTime extLeaseTime : Nat) :
    StorageManager.loadFromCheckPoint cx (firstFile bs) index now leaseTime extLeaseTime =
      some { eventStorage := { emptyStorage with disk := firstFile bs, index := index }
             master := {} } := by
  have hlisting := getAllFiles_firstFile bs
  have hopen : createFile (firstFile bs) (genFileName 0) = firstFile bs :=
    createFile_of_find? (find?_firstFile bs)
  have hnewest : emptyStorage.manager.fileList.keys.getLast? = some (genFileName 0) := rfl
  have hafter : filesAfter emptyStorage.manager.fileList (genFileName 0) = [] := by decide +kernel
  have hbefore : fileBefore emptyStorage.manager.fileList (genFileName 0) = none := by
    decide +kernel
  have hcontent : content (firstFile bs) (genFileName 0) = bs := by
    rw [content, find?_firstFile, Option.getD_some]
  have hfound : getNewestCheckPoint cx (firstFile bs) = some { disk := firstFile bs } := by
    simp only [getNewestCheckPoint, newManager, if_true, hlisting, openNewestFile, hnewest,
      reOpenRead, hopen, getNewestCheckPointLoop, readEvent, hafter, readNext, readData, hcontent,
      List.drop_zero]
    -- The file is read once, and no file comes before it.
    cases hframe : readFrame maxRecordLen bs with
    | none => simp [parseRead, getPreReadFile, hbefore]
    | some bytes =>
      cases hparse : cx.eventData.parse bytes with
      | none => simp [parseRead, hparse, getPreReadFile, hbefore]
      | some r =>
        have hgtid := hfirst bytes r hframe hparse
        simp [parseRead, hparse, hgtid, getPreReadFile, hbefore]
  have hswitch : switchNewWriteFile (firstFile bs) (newManager (firstFile bs) true) 0 =
      (firstFile bs, emptyStorage.manager) := by
    simp only [switchNewWriteFile, setFileWritePos, newManager, hlisting, hopen]
    rfl
  simp only [StorageManager.loadFromCheckPoint, hfound, EventStorage.loadFromCheckPoint,
    loadUUIDFromCheckPoint, List.isEmpty_nil, if_true, initCheckPointDataFile, hswitch]
  rfl

end PhxSql.Store
