import PhxSql.Store.FailingIo
import PhxSql.Store.History

/-!
# What the files of a run look like

The first file of a history begins with an event, since `InitCheckPointDataFile` opens it without a
header; every other file begins with the header that `SwitchNewFile` writes. Every file but the
newest ends with a footer, which comes right after the event that filled the file and carries the
UUID table with that event as its newest one. Files that a lookup has created again after they were
deleted are empty and not newer than the newest file.

The steps are those of a store that has a master when events are added, where the header of a file
switch serialises and its two embedded messages are not empty.
-/

set_option autoImplicit false

namespace PhxSql.Store

open PhxSql.Proto PhxSql.Lib PhxSql.Gtid

variable (cx : Codecs)

/-! ## Headers, footers and tables -/

/-- What stands before the events of a file: nothing in the first one, in the others a header. -/
def HeadOf (g : Segment) (head : List EventData) : Prop :=
  (head = [] ∧ g.id = 0) ∨
    ∃ header : EventData, head = [header] ∧ header.gtid = [] ∧ header.instanceId = g.id

/-- A table with one place for each UUID and this event as the newest one. -/
structure TableOf (table : List EventDataInfo) (newest : EventData) : Prop where
  uuids : table.Pairwise fun i j => getUUIDByGTID i.gtid ≠ getUUIDByGTID j.gtid
  placed : ∃ place, dataInfo place newest ∈ table
  max : ∀ i ∈ table, i.instanceId ≤ newest.instanceId

/-- A footer that follows this event. -/
structure FooterOf (footer newest : EventData) : Prop where
  gtid : footer.gtid = []
  instanceId : footer.instanceId = newest.instanceId
  eventDataFile : footer.eventDataFile ≠ []
  table : ∃ table, cx.eventDataInfoList.serialize table = some footer.data ∧ TableOf table newest
  data : footer.data ≠ []
  master : ∃ master : MasterInfo, master.port.isSome = true ∧ 0 < master.version ∧
    cx.masterInfo.serialize master = some footer.masterData
  masterData : footer.masterData ≠ []

/-- A file that is still written to. -/
def OpenFile (g : Segment) : Prop :=
  ∃ head events, g.records = head ++ events ∧ HeadOf g head ∧ ∀ r ∈ events, r.gtid ≠ []

/-- A file that ends with a footer. -/
def ClosedFile (g : Segment) : Prop :=
  ∃ head events newest footer, g.records = head ++ (events ++ [newest]) ++ [footer] ∧
    HeadOf g head ∧ (∀ r ∈ events ++ [newest], r.gtid ≠ []) ∧ FooterOf cx footer newest

/-- All files but the newest are closed. -/
def FileShape (segs : List Segment) : Prop :=
  ∃ init g, segs = init ++ [g] ∧ (∀ g' ∈ init, ClosedFile cx g') ∧ OpenFile g

/-- What the state machine ensures about an event it adds, and what protobuf ensures about the
header of a file switch after it: a message that has a field set takes at least one byte. An event
is accepted from the master only, and `SetMaster` has set the port of its record and counted its
version up. -/
def DonorStep (h : History) (a : StoreAction) : Prop :=
  Addable cx a ∧ match a with
    | .addEvent _ master data =>
      master.port.isSome = true ∧ 0 < master.version ∧
        let made := getFileHeader cx master (afterPut cx none h.store data.gtid data)
        (made.1 = .ok → (cx.eventData.serialize made.2.1).isSome = true ∧
          made.2.1.data ≠ [] ∧ made.2.1.masterData ≠ [])
    | _ => True

variable {cx}

/-! ## The segments are determined by the files -/

variable (cx) in
/-- The segment a file holds. -/
def segmentOf (d : Disk) (f : Bytes) : Segment where
  id := getFileInstanceID f
  records := fileRecords cx d f

theorem FilesRep.eq_map {d : Disk} {fs : FileSet} {segs : List Segment}
    (h : FilesRep cx d fs segs) : segs = fs.keys.map (segmentOf cx d) := by
  have hone : ∀ g ∈ segs, (segmentOf cx d ∘ Segment.file) g = id g := by
    intro g hg
    have hid : getFileInstanceID g.file = g.id := getFileInstanceID_genFileName (h.small g hg)
    simp only [Function.comp, segmentOf, h.fileRecords_eq hg, hid]
    rfl
  rw [h.keys, List.map_map, List.map_congr_left hone, List.map_id]

/-- A directory and a file list have one list of segments. -/
theorem FilesRep.unique {d : Disk} {fs : FileSet} {segs segs' : List Segment}
    (h : FilesRep cx d fs segs) (h' : FilesRep cx d fs segs') : segs = segs' :=
  h.eq_map.trans h'.eq_map.symm

/-! ## The table of a footer -/

/-- The UUID table of a store has one place for each UUID, and the newest event is in it. -/
theorem HistoryInv.tableOf {h : History} {segs : List Segment} (hinv : HistoryInv cx h segs)
    {x : AcceptedEvent} (hx : h.accepted.getLast? = some x) :
    TableOf (serializeToEventInfoList h.store.uuidHandler) x.data := by
  -- An entry of the table is the last accepted event of its UUID.
  have hentry : ∀ e ∈ h.store.uuidHandler.mapUuid.entries,
      ∃ y ∈ h.accepted, getUUIDByGTID y.data.gtid = e.1 ∧ e.2 = y.info := by
    intro e he
    have hfind : h.store.uuidHandler.mapUuid.find? e.1 = some e.2 :=
      SortedMap.find?_eq_some_iff.mpr ⟨e.1, he, rfl⟩
    rw [hinv.uuid, Option.map_eq_some_iff] at hfind
    obtain ⟨y, hy, hinfo⟩ := hfind
    obtain ⟨hmem, huuid⟩ := List.mem_filter.mp (List.mem_of_getLast? hy)
    exact ⟨y, hmem, of_decide_eq_true huuid, hinfo.symm⟩
  refine ⟨?_, ⟨x.place, ?_⟩, ?_⟩
  · rw [serializeToEventInfoList, List.pairwise_map]
    refine h.store.uuidHandler.mapUuid.sorted.imp_of_mem ?_
    intro a b ha hb hlt heq
    obtain ⟨y, -, hy, hyinfo⟩ := hentry a ha
    obtain ⟨z, -, hz, hzinfo⟩ := hentry b hb
    have hkeys : a.1 = b.1 := by
      rw [← hy, ← hz]
      rw [hyinfo, hzinfo] at heq
      exact heq
    rw [hkeys] at hlt
    exact lt_irrefl _ hlt
  · have hlast : (h.accepted.filter fun y =>
        getUUIDByGTID y.data.gtid = getUUIDByGTID x.data.gtid).getLast? = some x := by
      obtain ⟨init, hinit⟩ := List.getLast?_eq_some_iff.mp hx
      rw [hinit, List.filter_append, List.filter_cons_of_pos (by simp), List.filter_nil,
        List.getLast?_concat]
    have hfind := hinv.uuid (getUUIDByGTID x.data.gtid)
    rw [hlast, Option.map_some] at hfind
    obtain ⟨k, hk, -⟩ := SortedMap.find?_eq_some_iff.mp hfind
    exact List.mem_map.mpr ⟨(k, x.info), hk, rfl⟩
  · intro i hi
    obtain ⟨e, he, rfl⟩ := List.mem_map.mp hi
    obtain ⟨y, hy, -, hinfo⟩ := hentry e he
    have hle := hinv.le_lastInstanceID hy
    rw [EventStorage.lastInstanceID, hinv.newest, hx] at hle
    rw [hinfo]
    exact hle

/-! ## Adding an event -/

theorem OpenFile.add {g : Segment} (hg : OpenFile g) {data : EventData} (hgtid : data.gtid ≠ [])
    (hser : (cx.eventData.serialize data).isSome = true) : OpenFile (g.add cx data) := by
  obtain ⟨head, events, hrecords, hhead, hevents⟩ := hg
  refine ⟨head, events ++ [data], ?_, ?_, ?_⟩
  · rw [Segment.add, if_pos hser, hrecords, List.append_assoc]
  · simpa only [HeadOf, Segment.add_id] using hhead
  · intro r hr
    rcases List.mem_append.mp hr with hr | hr
    · exact hevents r hr
    · rw [List.mem_singleton.mp hr]
      exact hgtid

/-- A footer closes the file to which its event was added. -/
theorem OpenFile.close {g : Segment} (hg : OpenFile g) {data footer : EventData}
    (hgtid : data.gtid ≠ []) (hser : (cx.eventData.serialize data).isSome = true)
    (hfooter : FooterOf cx footer data)
    (hfser : (cx.eventData.serialize footer).isSome = true) :
    ClosedFile cx ((g.add cx data).add cx footer) := by
  obtain ⟨head, events, hrecords, hhead, hevents⟩ := hg
  refine ⟨head, events, data, footer, ?_, ?_, ?_, hfooter⟩
  · rw [Segment.add, if_pos hfser, Segment.add, if_pos hser, hrecords, List.append_assoc]
  · simpa only [HeadOf, Segment.add_id] using hhead
  · intro r hr
    rcases List.mem_append.mp hr with hr | hr
    · exact hevents r hr
    · rw [List.mem_singleton.mp hr]
      exact hgtid

/-- A new file has a header. -/
theorem openFile_new {header : EventData} (hgtid : header.gtid = [])
    (hser : (cx.eventData.serialize header).isSome = true) :
    OpenFile (Segment.add cx { id := header.instanceId } header) := by
  refine ⟨[header], [], ?_, .inr ⟨header, rfl, hgtid, by simp⟩, by simp⟩
  rw [Segment.add, if_pos hser]
  rfl

/-- `CheckAndSwitchFile` leaves the files or writes the header it has made. -/
theorem checkAndSwitchFile_cases (maxSize : Nat) (master : MasterInfo) (s : EventStorage) :
    ((checkAndSwitchFile cx maxSize master s).disk = s.disk ∧
        (checkAndSwitchFile cx maxSize master s).manager = s.manager) ∨
      ((getFileHeader cx master s).1 = .ok ∧ checkAndSwitchFile cx maxSize master s =
        switchNewFile cx (getFileHeader cx master s).2.2 (getFileHeader cx master s).2.1 true) := by
  simp only [checkAndSwitchFile]
  split
  · split
    · rename_i hok
      exact .inr ⟨hok, rfl⟩
    · left
      rcases getFileHeader_index master s with hkept | hkept
      · rw [hkept]
        exact ⟨rfl, rfl⟩
      · rw [hkept]
        exact ⟨rfl, rfl⟩
  · exact .inl ⟨rfl, rfl⟩

/-- The footer that is written after an event. -/
theorem footerOf_getFileHeader {master : MasterInfo} {s : EventStorage} {data : EventData}
    (hok : (getFileHeader cx master s).1 = .ok) (hport : master.port.isSome = true)
    (hversion : 0 < master.version)
    (hlast : s.lastInstanceID = data.instanceId) (hwriter : s.manager.writer.path ≠ [])
    (htable : TableOf (serializeToEventInfoList s.uuidHandler) data)
    (hdata : (getFileHeader cx master s).2.1.data ≠ [])
    (hmaster : (getFileHeader cx master s).2.1.masterData ≠ []) :
    FooterOf cx (getFileHeader cx master s).2.1 data := by
  obtain ⟨table, masterData, hser, hmser, hmade⟩ := getFileHeader_ok hok
  rw [hmade] at hdata hmaster ⊢
  exact ⟨rfl, hlast, hwriter, ⟨_, hser, htable⟩, hdata, ⟨master, hport, hversion, hmser⟩,
    hmaster⟩

/-- Adding an event keeps the shape of the files. -/
theorem FileShape.added {h : History} {segs segs' : List Segment} (hinv : HistoryInv cx h segs)
    (hshape : FileShape cx segs) {maxSize : Nat} {master : MasterInfo} {data : EventData}
    (hok : DonorStep cx h (.addEvent maxSize master data))
    (hid : h.store.lastInstanceID < data.instanceId)
    (htable : TableOf (serializeToEventInfoList
      (updateEventUUIDInfoByGTID h.store.uuidHandler data.gtid
        (dataInfo h.store.manager.writer data))) data)
    (hrep' : FilesRep cx (addEvent cx maxSize master h.store data.gtid data true).2.disk
      (addEvent cx maxSize master h.store data.gtid data true).2.manager.fileList segs') :
    FileShape cx segs' := by
  obtain ⟨⟨hgtid, hsmall, hser⟩, hport, hversion, hheader⟩ := hok
  obtain ⟨init, g, rfl, hclosed, hopen⟩ := hshape
  obtain ⟨init₀, g₀, heq, hw, hle⟩ := hinv.rep.writer
  obtain ⟨rfl, hg⟩ := List.append_inj' heq rfl
  cases hg
  obtain ⟨hfiles, hw', -⟩ := hinv.rep.files.write hw data
  rw [addEvent_eq hid (realCheckGTID_of_empty hinv.rep.preloaded maxSize master data.gtid),
    if_pos ⟨Option.isNone_none, rfl⟩] at hrep'
  rcases checkAndSwitchFile_cases maxSize master (afterPut cx none h.store data.gtid data) with
    ⟨hdisk, hmanager⟩ | ⟨hmade, hswitched⟩
  · -- The event stays the last record of its file.
    rw [hdisk, hmanager] at hrep'
    rw [hrep'.unique hfiles]
    exact ⟨init, g.add cx data, rfl, hclosed, hopen.add hgtid hser⟩
  · -- The footer closes the file, and the header opens the next one.
    obtain ⟨hhgtid, hinst, hkept⟩ := getFileHeader_record hmade
    obtain ⟨hhser, hhdata, hhmaster⟩ := hheader hmade
    have hlt : (g.add cx data).id <
        (getFileHeader cx master (afterPut cx none h.store data.gtid data)).2.1.instanceId := by
      rw [hinst, Segment.add_id]
      exact Nat.lt_of_le_of_lt hle hid
    have hfooter := footerOf_getFileHeader hmade hport hversion rfl
      (by
        show (writeEvent cx h.store.disk h.store.manager data).2.writer.path ≠ []
        rw [hw']
        exact genFileName_ne_nil _)
      htable hhdata hhmaster
    rw [hswitched, hkept] at hrep'
    have hswitch := (@switchNewFile_rep cx { afterPut cx none h.store data.gtid data with
      index := flushEventUUIDInfo (afterPut cx none h.store data.gtid data).uuidHandler
        (afterPut cx none h.store data.gtid data).index } init (g.add cx data) hfiles hw' _ hlt
      (hinst ▸ hsmall)).1
    rw [hrep'.unique hswitch]
    refine ⟨_, _, rfl, ?_, openFile_new hhgtid hhser⟩
    intro g' hg'
    rcases List.mem_append.mp hg' with hg' | hg'
    · exact hclosed g' hg'
    · rw [List.mem_singleton.mp hg']
      exact hopen.close hgtid hser hfooter hhser

/-- Deletion keeps the newest file, and closed files stay closed. -/
theorem FileShape.filter {segs : List Segment} (hshape : FileShape cx segs) {files : List Bytes}
    (hlast : ∀ g, segs.getLast? = some g → g.file ∉ files) :
    FileShape cx (segs.filter fun g => g.file ∉ files) := by
  obtain ⟨init, g, rfl, hclosed, hopen⟩ := hshape
  refine ⟨init.filter fun g => g.file ∉ files, g, ?_, ?_, hopen⟩
  · rw [List.filter_append, List.filter_cons_of_pos, List.filter_nil]
    simpa using hlast g List.getLast?_concat
  · intro g' hg'
    exact hclosed g' (List.mem_filter.mp hg').1

/-! ## Runs -/

variable (cx) in
/-- What holds of a donor in every run. -/
structure DonorInv (h : History) (segs : List Segment) : Prop where
  inv : HistoryInv cx h segs
  shape : FileShape cx segs
  known : ∀ f bs, h.store.disk.find? f = some bs → KnownFile segs f

/-- A file that an operation opens is not newer than the newest one. -/
theorem HistoryInv.known_of_opens {h : History} {segs : List Segment} (hinv : HistoryInv cx h segs)
    {a : StoreAction} {f : Bytes} (hf : a.opens h.store f) : KnownFile segs f := by
  rcases hf with ⟨gtid, -, hf⟩ | hf
  · exact hinv.known_of_found hf
  · rw [hinv.rep.files.keys] at hf
    obtain ⟨g, hg, rfl⟩ := List.mem_map.mp hf
    exact ⟨g.id, rfl, g, hg, Nat.le_refl _⟩

theorem DonorInv.looked {h : History} {segs : List Segment} (hd : DonorInv cx h segs)
    {a : StoreAction} {s' : EventStorage} (hl : Looked (a.opens h.store) h.store s')
    {f bs : Bytes} (hf : s'.disk.find? f = some bs) : KnownFile segs f := by
  rcases hl.disk.find? f with hsame | hopen
  · exact hd.known f bs (hsame.symm.trans hf)
  · exact hd.inv.known_of_opens hopen

theorem DonorInv.step {h : History} {segs : List Segment} (hd : DonorInv cx h segs)
    {a : StoreAction} (hok : DonorStep cx h a) :
    ∃ segs', DonorInv cx (historyStep cx h a) segs' := by
  obtain ⟨segs', hstep⟩ := stepped_of_step hd.inv a hok.1
  have hinv' := hd.inv.stepped hok.1 hstep
  refine ⟨segs', hinv', ?_, ?_⟩
  · -- Only adding an event and deleting files change the segments.
    generalize hh' : historyStep cx h a = h' at hstep hinv'
    cases hstep with
    | rejected => exact hd.shape
    | looked hl => exact hd.shape
    | deleted hdel => exact hd.shape.filter hdel.last
    | @added maxSize master data s' segs' hid hframe hrep happ =>
      have hstore : (addEvent cx maxSize master h.store data.gtid data true).2 = s' :=
        congrArg History.store hh'
      have htable := hinv'.tableOf List.getLast?_concat
      rw [hframe.uuidHandler] at htable
      apply hd.shape.added hd.inv hok hid htable
      rw [hstore]
      exact hrep.files
  · intro f bs hf
    generalize historyStep cx h a = h' at hstep hinv' hf
    cases hstep with
    | rejected => exact hd.known f bs hf
    | looked hl => exact hd.looked hl hf
    | deleted hdel =>
      rcases hdel.stays f with hsame | hgone | hopen
      · exact (hd.known f bs (hsame.symm.trans hf)).mono (hdel.ids_le hd.inv.rep)
      · rw [hdel.gone f hgone] at hf
        cases hf
      · exact (hd.inv.known_of_opens hopen).mono (hdel.ids_le hd.inv.rep)
    | added hid hframe hrep happ =>
      by_cases hlisted : f ∈ segs'.map Segment.file
      · obtain ⟨g, hg, rfl⟩ := List.mem_map.mp hlisted
        exact ⟨g.id, rfl, g, hg, Nat.le_refl _⟩
      · have hsame := hframe.disk f (by rw [hrep.files.keys]; exact hlisted)
        exact (hd.known f bs (hsame.symm.trans hf)).mono happ.ids_le

theorem donorInv_empty : DonorInv cx {} [{ id := 0 }] where
  inv := historyInv_empty
  shape := ⟨[], { id := 0 }, rfl, by simp, [], [], rfl, .inl ⟨rfl, rfl⟩, by simp⟩
  known := by
    intro f bs hf
    obtain ⟨n, -, rfl⟩ := (@storeRep_empty cx).files.named f bs hf
    by_cases hn : n = 0
    · exact ⟨n, rfl, { id := 0 }, List.mem_singleton_self _, Nat.le_of_eq hn⟩
    · -- No other file has been created.
      have hnone : emptyStorage.disk.find? (genFileName n) = none := by
        show (createFile .empty (genFileName 0)).find? (genFileName n) = none
        rw [find?_createFile_of_ne fun heq => hn (genFileName_inj.mp heq)]
        rfl
      rw [hnone] at hf
      cases hf

theorem donorInv_of_reachable {h : History}
    (hr : Transition.ReachableBy (historySystem cx) (DonorStep cx) h) :
    ∃ segs, DonorInv cx h segs := by
  induction hr with
  | init => exact ⟨_, donorInv_empty⟩
  | step _ hok hs ih =>
    obtain ⟨segs, hd⟩ := ih
    cases hs
    exact hd.step hok

end PhxSql.Store
