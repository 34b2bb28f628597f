import PhxSql.Store.LoadFiles
import PhxSql.Store.Reload
import PhxSql.Store.Representation

/-!
# A node that starts from the files of another one

After the files are loaded, the node reads the UUID table of the last footer and looks at the file
that the footer has opened, which holds nothing but a header (`initCheckPointDataFile_header`). It
then holds the events of the files it got and the state that their last footer records, exactly if
the first record it got is a header. That fails while the donor still has its first file, which has
no header.
-/

set_option autoImplicit false

namespace PhxSql.Store

open PhxSql.Proto PhxSql.Lib PhxSql.Gtid

variable {cx : Codecs}

/-! ## A file with a header only -/

/-- At the start of the last file there is its header. -/
theorem readEvent_header {d : Disk} {m : StorageFileManager} {segs : List Segment} {g : Segment}
    (h : FilesRep cx d m.fileList (segs ++ [g])) {header : EventData} (hrecords : g.records = [header])
    (hreader : m.reader = { path := g.file }) :
    readEvent cx d m =
      { ret := .ok, data := header, info := dataInfo { path := g.file } header, disk := d,
        manager := { m with reader := g.endPos cx } } := by
  have hg : g ∈ segs ++ [g] := by simp
  have hser := h.serialized g hg header (by simp [hrecords])
  have hc : content d m.reader.path = segmentBytes cx ([] ++ [header]) ++ [] := by
    rw [hreader, h.content_eq hg, hrecords, List.nil_append, List.append_nil]
  have ho : m.reader.offset = (segmentBytes cx []).length := by
    rw [hreader]
    rfl
  rw [readEvent_record hc ho hser, hreader, Segment.endPos, hrecords]
  rfl

/-- After it there is nothing. -/
theorem readEvent_end {d : Disk} {m : StorageFileManager} {segs : List Segment} {g : Segment}
    (h : FilesRep cx d m.fileList (segs ++ [g])) (hreader : m.reader = g.endPos cx) :
    readEvent cx d m =
      { ret := .dataEmpty, data := {},
        info := { fileName := g.file, offset := (segmentBytes cx g.records).length }, disk := d,
        manager := { m with reader := g.endPos cx } } := by
  have hc : content d m.reader.path = segmentBytes cx g.records ++ [] := by
    rw [hreader, List.append_nil]
    exact h.content_eq (by simp)
  have hlast : filesAfter m.fileList m.reader.path = [] := by
    rw [hreader]
    exact h.filesAfter_eq
  have hstays : { m with reader := g.endPos cx } = m := by rw [← hreader]
  rw [readEvent_tail hc (by rw [hreader]; rfl) (readFrame_nil _) hlast, hstays, hreader]
  rfl

/-- A file that is open for writing and holds a header only stays as it is. -/
theorem initCheckPointDataFile_header {s : EventStorage} {segs : List Segment} {g : Segment}
    (h : FilesRep cx s.disk s.manager.fileList (segs ++ [g]))
    (hwriter : s.manager.writer = g.endPos cx) {header : EventData}
    (hrecords : g.records = [header]) (hgtid : header.gtid = []) :
    initCheckPointDataFile cx s g.file =
      (.ok, { s with
        manager := { s.manager with reader := g.endPos cx }, checkpointData := .empty }) := by
  have hg : g ∈ segs ++ [g] := by simp
  have hopen : setReadPos s.disk s.manager { fileName := g.file } =
      (s.disk, { s.manager with reader := { path := g.file } }) := by
    simp only [setReadPos, setFileReadPos, reOpenRead, createFile_of_find? (h.contents g hg)]
    split
    · rfl
    · rename_i hpath
      rw [not_not.mp hpath]
  -- The truncation at the end of the file keeps its content.
  have hkeep : setWritePos s.disk { s.manager with reader := g.endPos cx }
      { fileName := g.file, offset := (segmentBytes cx g.records).length } true =
      (s.disk, { s.manager with reader := g.endPos cx }) := by
    have hcontent := h.content_eq hg
    have hsame : s.disk.insert g.file (truncateTo (segmentBytes cx g.records)
        (segmentBytes cx g.records).length) = s.disk := by
      apply SortedMap.insert_of_mem
      obtain ⟨f, hmem, hrank⟩ := SortedMap.find?_eq_some_iff.mp (h.contents g hg)
      rw [byteRank_inj.mp hrank] at hmem
      simpa [truncateTo, List.rightpad] using hmem
    simp only [setWritePos, setFileWritePos, hwriter, Segment.endPos, ne_eq, not_true, if_false,
      if_true, hcontent, hsame]
  have hsize : 1 ≤ diskSize s.disk := by
    have hlen := (@atRecords_start cx _ segs [] g rfl).length_le h
    simpa [hrecords] using hlen
  obtain ⟨n, hn⟩ := Nat.exists_eq_add_of_le' hsize
  have hfirst := @readEvent_header cx s.disk { s.manager with reader := { path := g.file } } segs g h
    header hrecords rfl
  have hsecond := @readEvent_end cx s.disk { s.manager with reader := g.endPos cx } segs g h rfl
  have hname : g.file ≠ [] := genFileName_ne_nil g.id
  simp only [initCheckPointDataFile, hname, if_false, hopen, hn, initCheckPointLoop, hfirst, hsecond,
    if_true, dataInfo, ne_eq, not_true, reduceCtorEq, hgtid, hkeep]

/-! ## The closed files of a donor -/

/-- The events in the files are in the order of their instance ids. -/
theorem HistoryInv.eventsOf_ids {h : History} {segs : List Segment} (hinv : HistoryInv cx h segs) :
    (eventsOf segs).Pairwise fun r r' => r.instanceId < r'.instanceId := by
  rw [← @map_data_placedEvents cx, hinv.placed, List.pairwise_map]
  exact hinv.ids.filter _

theorem mem_eventsOf {segs : List Segment} {r : EventData} :
    r ∈ eventsOf segs ↔ r.gtid ≠ [] ∧ ∃ g ∈ segs, r ∈ g.records := by
  simp only [eventsOf, List.mem_filter, List.mem_flatMap, decide_eq_true_eq]
  exact and_comm

/-- If the first record is a header, all closed files have one. -/
theorem DonorInv.headed {h : History} {init : List Segment} {g : Segment}
    (hd : DonorInv cx h (init ++ [g]))
    (hfirst : ∀ r, (init.flatMap Segment.records).head? = some r → r.gtid = []) :
    ∀ g' ∈ init, HeadedFile cx g' := by
  obtain ⟨init', o, heq, hclosed, -⟩ := hd.shape
  obtain ⟨rfl, -⟩ := List.append_inj' heq rfl
  intro g' hg'
  obtain ⟨head, events, newest, footer, hrecords, hhead, hevents, hfooter⟩ := hclosed g' hg'
  rcases hhead with ⟨rfl, hid⟩ | ⟨header, rfl, hheader, hid⟩
  · -- A file without a header is the first one, and its first record is an event.
    exfalso
    have hids := (List.pairwise_append.mp hd.inv.rep.files.ids).1
    cases init with
    | nil => cases hg'
    | cons a init =>
      rcases List.mem_cons.mp hg' with rfl | hmem
      · cases events with
        | nil =>
          apply hevents newest (by simp)
          apply hfirst
          simp [hrecords]
        | cons e events =>
          apply hevents e (by simp)
          apply hfirst
          simp [hrecords]
      · have hlt := (List.pairwise_cons.mp hids).1 g' hmem
        omega
  · exact ⟨header, events, newest, footer, hrecords, hheader, hid, hevents, hfooter⟩

theorem DonorInv.sendable {h : History} {init : List Segment} {g : Segment}
    (hd : DonorInv cx h (init ++ [g]))
    (hfirst : ∀ r, (init.flatMap Segment.records).head? = some r → r.gtid = []) :
    Sendable cx init where
  headed := hd.headed hfirst
  serialized := fun g' hg' => hd.inv.rep.files.serialized g' (List.mem_append_left _ hg')
  ids := by
    have hids := hd.inv.eventsOf_ids
    rw [eventsOf_append] at hids
    exact (List.pairwise_append.mp hids).1
  small := by
    intro r hr
    obtain ⟨hgtid, g', hg', hr⟩ := mem_eventsOf.mp hr
    obtain ⟨x, hx, rfl, -⟩ := hd.inv.accepted_of_record (List.mem_append_left _ hg') hr hgtid
    exact Nat.lt_of_le_of_lt (hd.inv.le_lastInstanceID hx) hd.inv.rep.small
  above := by
    intro g' hg' r hr hgtid
    obtain ⟨x, hx, rfl, hpath⟩ := hd.inv.accepted_of_record (List.mem_append_left _ hg') hr hgtid
    exact hd.inv.above x hx g'.id hpath
  files := by
    refine (List.pairwise_append.mp hd.inv.rep.files.ids).1.imp ?_
    intro a b hlt heq
    have hid := Segment.file_inj.mp heq
    omega

/-! ## What the node starts with -/

/-- The end of the last file: the master record of its footer is taken. -/
theorem Between.loadEnd_eq {t : Transfer} {segs : List Segment} {footer newest : EventData}
    (h : Between cx t segs footer newest) :
    ∃ master, cx.masterInfo.parse footer.masterData = some master ∧ 0 < master.version ∧
      loadEnd cx t = (.ok, { t with master := master }) := by
  obtain ⟨master, hport, hversion, hser⟩ := h.footerOf.master
  have hparse := cx.masterInfo.parse_serialize hport hser
  refine ⟨master, hparse, hversion, ?_⟩
  simp only [loadEnd, getMasterInfoFromHeader, h.curFooter, h.footerOf.gtid, h.footerOf.masterData,
    ne_eq, not_false_eq_true, and_self, if_true, hparse]

/-- The event store starts from the last footer: the files stay, and the table is that of the
footer. -/
theorem Between.loadFromCheckPoint_eq {t : Transfer} {segs : List Segment}
    {footer newest : EventData} (h : Between cx t segs footer newest) :
    ∃ table s, cx.eventDataInfoList.parse footer.data = some table ∧ TableOf table newest ∧
      t.storage.loadFromCheckPoint cx t.curFooter t.headerFile = (.ok, s) ∧
      s.disk = t.storage.disk ∧ s.manager.fileList = t.storage.manager.fileList ∧
      s.uuidHandler = parseFromEventInfoList t.storage.uuidHandler table ∧
      s.checkpointId = footer.instanceId := by
  obtain ⟨table, hser, htable⟩ := h.footerOf.table
  have hparse := cx.eventDataInfoList.parse_serialize trivial hser
  have hdata : footer.data.isEmpty = false := List.isEmpty_eq_false_iff.mpr h.footerOf.data
  have hinit := @initCheckPointDataFile_header cx { t.storage with
    uuidHandler := parseFromEventInfoList t.storage.uuidHandler table } segs _ h.filling.files
    h.filling.writer footer rfl h.footerOf.gtid
  have hfile : Segment.file { id := footer.instanceId, records := [footer] } =
      genFileName footer.instanceId := rfl
  rw [hfile] at hinit
  refine ⟨table, { t.storage with
    uuidHandler := parseFromEventInfoList t.storage.uuidHandler table
    manager := { t.storage.manager with
      reader := Segment.endPos cx { id := footer.instanceId, records := [footer] } }
    checkpointData := .empty
    checkpointId := footer.instanceId }, hparse, htable, ?_, rfl, rfl, rfl, rfl⟩
  simp only [EventStorage.loadFromCheckPoint, loadUUIDFromCheckPoint, h.curFooter, h.headerFile,
    hdata, Bool.false_eq_true, if_false, hparse, if_true, hinit, h.footerOf.eventDataFile, ne_eq,
    not_false_eq_true, and_self]

/-! ## The transfer -/

variable (cx) in
/-- The records of the files that `GetFile` exports. -/
def exportedRecords (d : Disk) : List EventData :=
  (getFile d).flatMap (fileRecords cx d)

/-- The state a footer records: a UUID table, its newest event, and a master record. -/
structure RecordedState where
  footer : EventData
  table : List EventDataInfo
  newest : EventDataInfo
  master : MasterInfo

variable (cx) in
/-- The last of some records is a footer that records this state. -/
structure Records (records : List EventData) (st : RecordedState) : Prop where
  last : records.getLast? = some st.footer
  footer : st.footer.gtid = []
  table : cx.eventDataInfoList.parse st.footer.data = some st.table
  newest : st.newest ∈ st.table ∧ ∀ i ∈ st.table, i.instanceId ≤ st.newest.instanceId
  master : cx.masterInfo.parse st.footer.masterData = some st.master

variable (cx) in
/-- A node with the events of some records and this state. The expire time of the master is counted
anew on every node. -/
structure Reproduces (expireTime : Nat) (records : List EventData) (st : RecordedState)
    (m : StorageManager) : Prop where
  events : storedEvents cx m.eventStorage = records.filter fun r => r.gtid ≠ []
  uuids : ∀ uuid, m.eventStorage.uuidHandler.mapUuid.find? uuid =
    st.table.find? fun i => getUUIDByGTID i.gtid = uuid
  newest : m.eventStorage.uuidHandler.newestInfo.gtid = st.newest.gtid ∧
    m.eventStorage.uuidHandler.newestInfo.checksum = st.newest.checksum ∧
    m.eventStorage.uuidHandler.newestInfo.instanceId = st.newest.instanceId
  master : m.master = { st.master with expireTime := expireTime }
  checkpointId : m.eventStorage.checkpointId = st.footer.instanceId

variable (cx) in
/-- The files that this directory exports load without a failed call, and the node that is made from
them has their events and the state that their last footer records. -/
def TransferReproduces (maxSize now leaseTime extLeaseTime : Nat) (d : Disk) : Prop :=
  (∀ ret ∈ (loadFromCheckPointFileList cx maxSize (sentFiles d)).2.rets, ret = .ok) ∧
    ∃ m st, StorageManager.loadTransferred cx maxSize now leaseTime extLeaseTime (sentFiles d) =
        some m ∧ Records cx (exportedRecords cx d) st ∧
      Reproduces cx ((now + leaseTime + extLeaseTime) % 2 ^ 32) (exportedRecords cx d) st m

/-- What the node loads are the closed files of the donor. -/
theorem DonorInv.load_eq {h : History} {init : List Segment} {g : Segment}
    (hd : DonorInv cx h (init ++ [g])) (htwo : 2 ≤ (getAllFiles h.store.disk).keys.length)
    (maxSize : Nat) :
    loadFromCheckPointFileList cx maxSize (sentFiles h.store.disk) =
        loadRecords cx maxSize (init.flatMap Segment.rows) {} ∧
      exportedRecords cx h.store.disk = init.flatMap Segment.records := by
  have hne : (getFile h.store.disk).map (segmentOf cx h.store.disk) ≠ [] := by
    intro hnil
    have hlen := congrArg List.length (List.map_eq_nil_iff.mp hnil)
    rw [getFile, List.length_dropLast, List.length_nil] at hlen
    omega
  have hrows := hd.rows_sent
  constructor
  · rw [loadFromCheckPointFileList_eq hd.inv.rep.files.sent hne, hrows]
  · rw [← map_snd_rows, ← hrows, map_snd_rows, List.flatMap_map]
    rfl

/-- An event as the first record is not written anywhere. -/
theorem loadRecord_first_event {r : EventData} (hgtid : r.gtid ≠ [])
    (hser : (cx.eventData.serialize r).isSome = true) (hid : 0 < r.instanceId) (maxSize : Nat)
    (f : Bytes) : (loadRecord cx maxSize {} f r).1 = .fileFail := by
  obtain ⟨bytes, hbytes⟩ := Option.isSome_iff_exists.mp hser
  have hshort : failedRecord cx r (.short 0) = some [] := by
    have hlen : 0 < (frame bytes).length := by
      rw [length_frame]
      omega
    simp only [failedRecord, hbytes, WriteOutcome.failedAt, if_pos hlen, Option.map_some,
      List.take_zero]
  have hadd := @addEventIo_short cx maxSize {} {} {} r.gtid r { record := .short 0 } [] false hid
    rfl hshort
  have houtcome : writeOutcome ({} : Transfer).storage.manager.writer = .short 0 := rfl
  simp only [loadRecord, hgtid, if_false, houtcome]
  rw [hadd]

/-- Files that begin with an event do not load. -/
theorem DonorInv.load_fails {h : History} {init : List Segment} {g : Segment}
    (hd : DonorInv cx h (init ++ [g])) {r : EventData}
    (hr : (init.flatMap Segment.records).head? = some r) (hgtid : r.gtid ≠ []) (maxSize : Nat) :
    (loadRecords cx maxSize (init.flatMap Segment.rows) {}).1 ≠ .ok := by
  rw [← map_snd_rows, List.head?_map] at hr
  cases hrows : init.flatMap Segment.rows with
  | nil =>
    rw [hrows] at hr
    cases hr
  | cons row rows =>
    rw [hrows, List.head?_cons, Option.map_some] at hr
    cases hr
    -- The event is in one of the files, so that its instance id is above that of the file.
    have hmem : row ∈ init.flatMap Segment.rows := by simp [hrows]
    obtain ⟨g', hg', hrow⟩ := List.mem_flatMap.mp hmem
    obtain ⟨r, hr, rfl⟩ := List.mem_map.mp hrow
    have hlisted : g' ∈ init ++ [g] := List.mem_append_left _ hg'
    obtain ⟨x, hx, rfl, hpath⟩ := hd.inv.accepted_of_record hlisted hr hgtid
    have hid := hd.inv.above x hx g'.id hpath
    have hfail := loadRecord_first_event hgtid (hd.inv.rep.files.serialized g' hlisted _ hr)
      (Nat.lt_of_le_of_lt (Nat.zero_le _) hid) maxSize g'.file
    simp only [loadRecords, hfail, reduceCtorEq, if_false, ne_eq, not_false_eq_true]

/-- Files that begin with a header are reproduced. -/
theorem DonorInv.reproduces {h : History} {init : List Segment} {g : Segment}
    (hd : DonorInv cx h (init ++ [g])) (htwo : 2 ≤ (getAllFiles h.store.disk).keys.length)
    {r : EventData} (hr : (init.flatMap Segment.records).head? = some r) (hgtid : r.gtid = [])
    (maxSize now leaseTime extLeaseTime : Nat) :
    TransferReproduces cx maxSize now leaseTime extLeaseTime h.store.disk := by
  obtain ⟨hload, hrecords⟩ := hd.load_eq htwo maxSize
  have hne : init ≠ [] := by
    rintro rfl
    cases hr
  have hsendable := hd.sendable fun r' hr' => by
    cases hr.symm.trans hr'
    exact hgtid
  obtain ⟨t, segs, footer, newest, hrun, hb, hevents, hlast⟩ := hsendable.load hne
    (fun g' hg' => hd.inv.rep.files.small g' (List.mem_append_left _ hg')) maxSize
  obtain ⟨master, hmaster, hversion, hend⟩ := hb.loadEnd_eq
  obtain ⟨table, s, hparse, htable, hstart, hdisk, hlist, huuid, hid⟩ := hb.loadFromCheckPoint_eq
  obtain ⟨place, hplace⟩ := hb.newest_eq
  obtain ⟨place', hplace'⟩ := htable.placed
  have hloaded : loadFromCheckPointFileList cx maxSize (sentFiles h.store.disk) =
      (.ok, { t with master := master }) := by
    rw [hload, hrun, hend]
  have hnewest : s.uuidHandler.newestInfo = dataInfo place newest := by
    rw [huuid, ← hplace]
    apply newestInfo_parseFromEventInfoList
    rw [hplace]
    exact htable.max
  refine ⟨?_, ⟨s, Master.loadFromCheckPoint now leaseTime extLeaseTime {} master⟩,
    ⟨footer, table, dataInfo place' newest, master⟩, ?_, ?_, ?_⟩
  · rw [hloaded]
    exact hb.filling.rets
  · simp only [StorageManager.loadTransferred, hloaded, if_true, hstart]
  · exact ⟨hrecords ▸ hlast, hb.footerOf.gtid, hparse, ⟨hplace', htable.max⟩, hmaster⟩
  · refine ⟨?_, ?_, ?_, ?_, hid⟩
    · -- The file that the last footer has opened has no event.
      have hfiles := hb.filling.files
      rw [← hdisk, ← hlist] at hfiles
      have hopened : eventsOf [{ id := footer.instanceId, records := [footer] }] = [] := by
        simp [eventsOf, hb.footerOf.gtid]
      show storedEvents cx s = _
      rw [hfiles.storedEvents_eq, eventsOf_append, hopened, List.append_nil, hevents, hrecords,
        eventsOf]
    · intro uuid
      show s.uuidHandler.mapUuid.find? uuid = _
      rw [huuid]
      exact find?_parseFromEventInfoList _ uuid table htable.uuids
    · show s.uuidHandler.newestInfo.gtid = _ ∧ s.uuidHandler.newestInfo.checksum = _ ∧
        s.uuidHandler.newestInfo.instanceId = _
      rw [hnewest]
      exact ⟨rfl, rfl, rfl⟩
    · simp only [Master.loadFromCheckPoint, hversion, if_true]

/-- The transfer of a checkpoint reproduces a donor exactly if the first record it exports is a
header. -/
theorem transfer_reproduces_donor_iff {h : History}
    (hr : Transition.ReachableBy (historySystem cx) (DonorStep cx) h)
    (htwo : 2 ≤ (getAllFiles h.store.disk).keys.length)
    (maxSize now leaseTime extLeaseTime : Nat) :
    TransferReproduces cx maxSize now leaseTime extLeaseTime h.store.disk ↔
      ∃ header, (exportedRecords cx h.store.disk).head? = some header ∧ header.gtid = [] := by
  obtain ⟨segs, hd⟩ := donorInv_of_reachable hr
  obtain ⟨init, g, rfl, -⟩ := id hd.shape
  obtain ⟨hload, hrecords⟩ := hd.load_eq htwo maxSize
  rw [hrecords]
  constructor
  · rintro ⟨-, m, st, hm, hst, -⟩
    have hne : init.flatMap Segment.records ≠ [] := by
      intro hnil
      have hlast := hst.last
      rw [hrecords, hnil] at hlast
      cases hlast
    obtain ⟨r, hhead⟩ := Option.isSome_iff_exists.mp (List.isSome_head?.mpr hne)
    refine ⟨r, hhead, ?_⟩
    -- An event before any header is refused, since no file is open for writing.
    by_contra hgtid
    have hfail := hd.load_fails hhead hgtid maxSize
    rw [← hload] at hfail
    simp only [StorageManager.loadTransferred, hfail, if_false] at hm
    cases hm
  · rintro ⟨header, hhead, hgtid⟩
    exact hd.reproduces htwo hhead hgtid maxSize now leaseTime extLeaseTime

/-! ### Donors with and without their first file -/

def donorMaster : MasterInfo :=
  { port := some 6000, version := 1, svrId := 7, lease := 60 }

/-- With a file size of 0 every event ends its file. -/
def donorAdd (n : Nat) : StoreAction :=
  .addEvent 0 donorMaster (sampleEvent n)

/-- One event, in the first file. -/
def firstFileDonor : History :=
  [donorAdd 1].foldl (historyStep wireCodecs) {}

/-- Three events in three files, of which the first is deleted. -/
def trimmedDonor : History :=
  [donorAdd 1, donorAdd 2, donorAdd 3, sampleDelete 2].foldl (historyStep wireCodecs) {}

/-- The header of the file switch after an event. -/
def donorHeader (h : History) (n : Nat) : EventData :=
  (getFileHeader wireCodecs donorMaster
    (afterPut wireCodecs none h.store (sampleEvent n).gtid (sampleEvent n))).2.1

theorem donorStep_donorAdd {h : History} {n : Nat} (hadd : Addable wireCodecs (donorAdd n))
    (hser : (wireCodecs.eventData.serialize (donorHeader h n)).isSome = true)
    (hdata : (donorHeader h n).data ≠ []) (hmaster : (donorHeader h n).masterData ≠ []) :
    DonorStep wireCodecs h (donorAdd n) :=
  ⟨hadd, rfl, by decide, fun _ => ⟨hser, hdata, hmaster⟩⟩

theorem addable_donorAdd {n : Nat} (hgtid : (sampleEvent n).gtid ≠ []) (hn : n < 2 ^ 64)
    (hser : (wireCodecs.eventData.serialize (sampleEvent n)).isSome = true) :
    Addable wireCodecs (donorAdd n) :=
  ⟨hgtid, hn, hser⟩

theorem firstFileDonor_reachable :
    Transition.ReachableBy (historySystem wireCodecs) (DonorStep wireCodecs) firstFileDonor :=
  Transition.ReachableBy.init.step (show DonorStep wireCodecs (historySystem wireCodecs).init
    (donorAdd 1) from donorStep_donorAdd (addable_donorAdd (by decide) (by decide) (by decide))
      (by decide +kernel) (by decide +kernel) (by decide +kernel)) rfl

theorem trimmedDonor_reachable :
    Transition.ReachableBy (historySystem wireCodecs) (DonorStep wireCodecs) trimmedDonor := by
  have h₂ := firstFileDonor_reachable.step (show DonorStep wireCodecs _ (donorAdd 2) from
    donorStep_donorAdd (addable_donorAdd (by decide) (by decide) (by decide))
      (by decide +kernel) (by decide +kernel) (by decide +kernel)) rfl
  have h₃ := h₂.step (show DonorStep wireCodecs _ (donorAdd 3) from
    donorStep_donorAdd (addable_donorAdd (by decide) (by decide) (by decide))
      (by decide +kernel) (by decide +kernel) (by decide +kernel)) rfl
  exact h₃.step (show DonorStep wireCodecs _ (sampleDelete 2) from ⟨trivial, trivial⟩) rfl

/-- The transfer from a donor that has deleted its first file. -/
theorem transfer_reproduces_trimmedDonor :
    2 ≤ (getAllFiles trimmedDonor.store.disk).keys.length ∧
      TransferReproduces wireCodecs 0 100 10 5 trimmedDonor.store.disk := by
  have htwo : 2 ≤ (getAllFiles trimmedDonor.store.disk).keys.length := by decide +kernel
  have hfirst : (exportedRecords wireCodecs trimmedDonor.store.disk).head?.map EventData.gtid =
      some [] := by decide +kernel
  refine ⟨htwo, (transfer_reproduces_donor_iff trimmedDonor_reachable htwo 0 100 10 5).mpr ?_⟩
  exact Option.map_eq_some_iff.mp hfirst

/-- A donor that still has its first file: the event at its start cannot be added, and the assertion
on the code that is returned fails. -/
theorem transfer_of_first_file_fails :
    Transition.ReachableBy (historySystem wireCodecs) (DonorStep wireCodecs) firstFileDonor ∧
      2 ≤ (getAllFiles firstFileDonor.store.disk).keys.length ∧
      (loadFromCheckPointFileList wireCodecs 0 (sentFiles firstFileDonor.store.disk)).1 =
        .fileFail ∧
      ¬ TransferReproduces wireCodecs 0 100 10 5 firstFileDonor.store.disk := by
  refine ⟨firstFileDonor_reachable, by decide +kernel, by decide +kernel, ?_⟩
  rintro ⟨-, m, st, hm, -⟩
  have hnone : (StorageManager.loadTransferred wireCodecs 0 100 10 5
      (sentFiles firstFileDonor.store.disk)).isSome = false := by decide +kernel
  rw [hm] at hnone
  cases hnone

end PhxSql.Store
