import PhxSql.Proto.Wire
import PhxSql.Store.SentFiles

/-!
# What a fresh node makes of the files it gets

The loop of `LoadFromCheckPointFileList` sees the records of the sent files one after another
(`loadLoop_eq`). If the first one is a header, it opens a file; from then on every event is added at
the end of the open file, every footer ends it and opens the next one, and the node ends with the
events of the sent files and the state of the last footer. If the first record is an event, there is
no open file and adding it fails; without any record there is no footer to start from.
-/

set_option autoImplicit false

namespace PhxSql.Store

open PhxSql.Proto PhxSql.Lib PhxSql.Gtid

variable (cx : Codecs)

/-! ## The records one after another -/

/-- The loop of `LoadFromCheckPointFileList` on the rows it reads. -/
def loadRecords (maxSize : Nat) : List (Bytes × EventData) → Transfer → RetCode × Transfer
  | [], t => loadEnd cx t
  | row :: rows, t =>
    let loaded := loadRecord cx maxSize t row.1 row.2
    if loaded.1 = .ok then loadRecords maxSize rows loaded.2 else loaded

variable {cx}

theorem loadLoop_eq {d : Disk} {fs : FileSet} {segs : List Segment} (h : FilesRep cx d fs segs)
    (maxSize : Nat) (rows : List (Bytes × EventData)) :
    ∀ (fuel : Nat) (m : StorageFileManager) (t : Transfer), m.fileList = fs →
      AtRows cx segs m.reader rows → rows.length < fuel →
      loadLoop cx maxSize fuel d m t = loadRecords cx maxSize rows t := by
  induction rows with
  | nil =>
    intro fuel m t hfs hat hfuel
    cases fuel with
    | zero => exact absurd hfuel (Nat.not_lt_zero _)
    | succ fuel =>
      obtain ⟨info, rd, -, hread⟩ := readEvent_nil (m := m) (hfs ▸ h) hat.records
      simp only [loadLoop, hread, loadRecords]
      rfl
  | cons row rows ih =>
    intro fuel m t hfs hat hfuel
    cases fuel with
    | zero => exact absurd hfuel (Nat.not_lt_zero _)
    | succ fuel =>
      obtain ⟨info, rd, hat', hname, hread⟩ := readEvent_row (m := m) (hfs ▸ h) hat
      simp only [loadLoop, hread, if_true, loadRecords, hname]
      split
      · exact ih fuel _ _ hfs hat' (Nat.lt_of_succ_lt_succ hfuel)
      · rfl

/-- Loading the files of a directory. -/
theorem loadFromCheckPointFileList_eq {d : Disk} {segs : List Segment}
    (h : FilesRep cx d (getAllFiles d) segs) (hne : segs ≠ []) (maxSize : Nat) :
    loadFromCheckPointFileList cx maxSize d =
      loadRecords cx maxSize (segs.flatMap Segment.rows) {} := by
  cases segs with
  | nil => exact absurd rfl hne
  | cons g after =>
    have hhead : (newManager d true).fileList.keys.head? = some g.file := by
      show (getAllFiles d).keys.head? = some g.file
      rw [h.keys]
      rfl
    have hopen : createFile d g.file = d := createFile_of_find? (h.contents g List.mem_cons_self)
    have hopened : openOldestFile d (newManager d true) =
        (.ok, d, { newManager d true with reader := { path := g.file } }) := by
      simp only [openOldestFile, hhead, reOpenRead, hopen]
    have hat := @atRows_start cx (g :: after) [] after g rfl
    have hlen : ((g :: after).flatMap Segment.rows).length ≤ diskSize d := by
      have hrecords := hat.records.length_le h
      rwa [List.length_map] at hrecords
    simp only [loadFromCheckPointFileList, hopened, ne_eq, not_true, if_false]
    exact loadLoop_eq h maxSize _ _ _ _ rfl hat (Nat.lt_succ_of_le hlen)

/-! ## A file that is being filled -/

variable (cx) in
/-- The node writes at the end of the last of these segments, and no call has failed. -/
structure Filling (t : Transfer) (segs : List Segment) (g : Segment) : Prop where
  files : FilesRep cx t.storage.disk t.storage.manager.fileList (segs ++ [g])
  writer : t.storage.manager.writer = g.endPos cx
  preloaded : t.storage.checkpointData = .empty
  rets : ∀ ret ∈ t.rets, ret = .ok

/-- An open file is written to. -/
theorem Filling.writeOutcome_eq {t : Transfer} {segs : List Segment} {g : Segment}
    (h : Filling cx t segs g) : writeOutcome t.storage.manager.writer = .complete := by
  have hpath : g.file.isEmpty = false := List.isEmpty_eq_false_iff.mpr (genFileName_ne_nil g.id)
  rw [h.writer, writeOutcome, Segment.endPos, hpath]
  rfl

/-- An event is added at the end of the open file. -/
theorem Filling.event {t : Transfer} {segs : List Segment} {g : Segment} (h : Filling cx t segs g)
    {data : EventData} (hgtid : data.gtid ≠ [])
    (hser : (cx.eventData.serialize data).isSome = true)
    (hid : t.storage.lastInstanceID < data.instanceId) (maxSize : Nat) (f : Bytes) :
    ∃ t', loadRecord cx maxSize t f data = (.ok, t') ∧
      Filling cx t' segs { g with records := g.records ++ [data] } ∧
      t'.curFooter = t.curFooter ∧ t'.curFileName = t.curFileName ∧
      ∃ place, t'.storage.uuidHandler.newestInfo = dataInfo place data := by
  obtain ⟨hfiles, hw, -⟩ := h.files.write h.writer data
  have hadd : g.add cx data = { g with records := g.records ++ [data] } := by
    rw [Segment.add, if_pos hser]
  rw [hadd] at hfiles hw
  -- The file is open, so the write succeeds, and `switch_file` is false.
  have hadded : addEventIo cx maxSize {} t.storage data.gtid data false
      { record := writeOutcome t.storage.manager.writer } =
      (.ok, afterPut cx none t.storage data.gtid data) := by
    rw [h.writeOutcome_eq]
    refine (addEventIo_working maxSize {} t.storage data.gtid data false).trans ?_
    rw [addEvent_eq hid (realCheckGTID_of_empty h.preloaded maxSize {} data.gtid),
      if_neg (by simp)]
  refine ⟨{ t with
    storage := afterPut cx none t.storage data.gtid data
    rets := t.rets ++ [.ok] }, ?_, ⟨hfiles, hw, h.preloaded, ?_⟩, rfl, rfl,
    t.storage.manager.writer, rfl⟩
  · simp only [loadRecord, hgtid, if_false, hadded]
  · intro ret hret
    rcases List.mem_append.mp hret with hret | hret
    · exact h.rets ret hret
    · exact List.mem_singleton.mp hret

/-- Events in order are added one after another. -/
theorem Filling.events {segs : List Segment} (maxSize : Nat) (f : Bytes)
    (rows : List (Bytes × EventData)) (events : List EventData) :
    ∀ {t : Transfer} {g : Segment}, Filling cx t segs g →
      (∀ r ∈ events, r.gtid ≠ [] ∧ (cx.eventData.serialize r).isSome = true ∧
        t.storage.lastInstanceID < r.instanceId) →
      events.Pairwise (fun r r' => r.instanceId < r'.instanceId) →
      ∃ t', loadRecords cx maxSize (events.map (fun r => (f, r)) ++ rows) t =
          loadRecords cx maxSize rows t' ∧
        Filling cx t' segs { g with records := g.records ++ events } ∧
        t'.curFooter = t.curFooter ∧ t'.curFileName = t.curFileName ∧
        (events = [] → t' = t) ∧
        ∀ r, events.getLast? = some r →
          ∃ place, t'.storage.uuidHandler.newestInfo = dataInfo place r := by
  induction events with
  | nil =>
    intro t g h _ _
    refine ⟨t, rfl, ?_, rfl, rfl, fun _ => rfl, fun r hr => by cases hr⟩
    rw [List.append_nil]
    exact h
  | cons r events ih =>
    intro t g h hevents hids
    obtain ⟨hgtid, hser, hid⟩ := hevents r List.mem_cons_self
    obtain ⟨hlt, hids⟩ := List.pairwise_cons.mp hids
    obtain ⟨t₁, hload, h₁, hfooter₁, hname₁, place, hnewest₁⟩ := h.event hgtid hser hid maxSize f
    -- The event that was added is the newest one, and the ids of the others are above its id.
    have hlast : t₁.storage.lastInstanceID = r.instanceId := by
      rw [EventStorage.lastInstanceID, hnewest₁]
      rfl
    obtain ⟨t₂, hload₂, h₂, hfooter₂, hname₂, hsame₂, hnewest₂⟩ := ih h₁
      (fun r' hr' => by
        obtain ⟨hgtid', hser', -⟩ := hevents r' (List.mem_cons_of_mem _ hr')
        exact ⟨hgtid', hser', hlast ▸ hlt r' hr'⟩) hids
    refine ⟨t₂, ?_, ?_, hfooter₂.trans hfooter₁, hname₂.trans hname₁, ⟨?_, ?_⟩⟩
    · simp only [List.map_cons, List.cons_append, loadRecords, hload, if_true]
      exact hload₂
    · simpa using h₂
    · intro hnil
      cases hnil
    · intro r' hr'
      cases events with
      | nil =>
        cases hr'
        rw [hsame₂ rfl]
        exact ⟨place, hnewest₁⟩
      | cons r'' events => exact hnewest₂ r' hr'

/-- A footer ends the open file and opens the next one. -/
theorem Filling.footer {t : Transfer} {segs : List Segment} {g : Segment} (h : Filling cx t segs g)
    {footer : EventData} (hgtid : footer.gtid = [])
    (hser : (cx.eventData.serialize footer).isSome = true) (hlt : g.id < footer.instanceId)
    (hsmall : footer.instanceId < 2 ^ 64) {f : Bytes} (hname : t.curFileName = f) (maxSize : Nat) :
    ∃ t', loadRecord cx maxSize t f footer = (.ok, t') ∧
      Filling cx t' (segs ++ [{ g with records := g.records ++ [footer] }])
        { id := footer.instanceId, records := [footer] } ∧
      t'.curFooter = footer ∧ t'.curFileName = f ∧ t'.headerFile = genFileName footer.instanceId ∧
      t'.storage.uuidHandler = t.storage.uuidHandler := by
  have hadd : ∀ g : Segment, g.add cx footer = { g with records := g.records ++ [footer] } := by
    intro g
    rw [Segment.add, if_pos hser]
  obtain ⟨hfiles, hw, -⟩ := switchNewFile_rep h.files h.writer hlt hsmall
  rw [hadd, hadd] at hfiles
  rw [hadd] at hw
  have hswitched : switchNewFileIo cx t.storage footer
      { footer := writeOutcome t.storage.manager.writer } =
      (.ok, switchNewFile cx t.storage footer true) := by
    rw [h.writeOutcome_eq]
    exact switchNewFileIo_working t.storage footer
  refine ⟨{ t with
    storage := switchNewFile cx t.storage footer true
    curFooter := footer
    headerFile := (switchNewFile cx t.storage footer true).manager.writer.path
    rets := t.rets ++ [.ok] }, ?_, ⟨hfiles, hw, h.preloaded, ?_⟩, rfl, hname, ?_, rfl⟩
  · simp only [loadRecord, hgtid, if_true, hname, ne_eq, not_true, if_false, hswitched]
  · intro ret hret
    rcases List.mem_append.mp hret with hret | hret
    · exact h.rets ret hret
    · exact List.mem_singleton.mp hret
  · show (switchNewFile cx t.storage footer true).manager.writer.path = _
    rw [hw]
    rfl

/-- The first header opens a file. -/
theorem filling_header {header : EventData} (hgtid : header.gtid = [])
    (hser : (cx.eventData.serialize header).isSome = true) (hsmall : header.instanceId < 2 ^ 64)
    {f : Bytes} (hf : f ≠ []) (maxSize : Nat) :
    ∃ t', loadRecord cx maxSize {} f header = (.ok, t') ∧
      Filling cx t' [] { id := header.instanceId, records := [header] } ∧ t'.curFileName = f ∧
      t'.storage.uuidHandler = {} := by
  have hempty : FilesRep cx ({} : Transfer).storage.disk
      ({} : Transfer).storage.manager.fileList [] :=
    ⟨.nil, by simp, by simp, rfl, by simp, fun f _ => rfl, fun f bs h => by cases h⟩
  obtain ⟨hnew, hwnew, -⟩ := hempty.switch hsmall (by simp) (genFileName_ne_nil _).symm
  obtain ⟨hfiles, hw, -⟩ := @FilesRep.write cx _ _ [] _ hnew hwnew header
  have hadd : Segment.add cx { id := header.instanceId } header =
      { id := header.instanceId, records := [header] } := by
    rw [Segment.add, if_pos hser]
    rfl
  rw [hadd] at hfiles hw
  refine ⟨{ storage := switchNewFile cx {} header false, curFileName := f, rets := [.ok] }, ?_,
    ⟨hfiles, hw, rfl, ?_⟩, rfl, rfl⟩
  · simp [loadRecord, hgtid, hf]
  · intro ret hret
    exact List.mem_singleton.mp hret

/-! ## Whole files -/

variable (cx) in
/-- A closed file with a header. -/
def HeadedFile (g : Segment) : Prop :=
  ∃ header events newest footer, g.records = header :: (events ++ [newest]) ++ [footer] ∧
    header.gtid = [] ∧ header.instanceId = g.id ∧ (∀ r ∈ events ++ [newest], r.gtid ≠ []) ∧
    FooterOf cx footer newest

variable (cx) in
/-- Files of one history that all have headers. -/
structure Sendable (segs : List Segment) : Prop where
  headed : ∀ g ∈ segs, HeadedFile cx g
  serialized : ∀ g ∈ segs, ∀ r ∈ g.records, (cx.eventData.serialize r).isSome = true
  ids : (eventsOf segs).Pairwise fun r r' => r.instanceId < r'.instanceId
  small : ∀ r ∈ eventsOf segs, r.instanceId < 2 ^ 64
  above : ∀ g ∈ segs, ∀ r ∈ g.records, r.gtid ≠ [] → g.id < r.instanceId
  files : segs.Pairwise fun g g' => g.file ≠ g'.file

theorem eventsOf_cons (g : Segment) (segs : List Segment) :
    eventsOf (g :: segs) = eventsOf [g] ++ eventsOf segs :=
  eventsOf_append [g] segs

theorem Sendable.tail {g : Segment} {segs : List Segment} (h : Sendable cx (g :: segs)) :
    Sendable cx segs where
  headed := fun g' hg' => h.headed g' (List.mem_cons_of_mem _ hg')
  serialized := fun g' hg' => h.serialized g' (List.mem_cons_of_mem _ hg')
  ids := by
    have hids := h.ids
    rw [eventsOf_cons] at hids
    exact (List.pairwise_append.mp hids).2.1
  small := by
    intro r hr
    apply h.small
    rw [eventsOf_cons]
    exact List.mem_append_right _ hr
  above := fun g' hg' => h.above g' (List.mem_cons_of_mem _ hg')
  files := (List.pairwise_cons.mp h.files).2

/-- The events between two records with an empty GTID. -/
theorem eventsOf_framed {id : Nat} {header footer : EventData} {events : List EventData}
    (hheader : header.gtid = []) (hevents : ∀ r ∈ events, r.gtid ≠ [])
    (hfooter : footer.gtid = []) :
    eventsOf [{ id := id, records := header :: events ++ [footer] }] = events := by
  have hall : events.filter (fun r => decide (r.gtid ≠ [])) = events := by
    rw [List.filter_eq_self]
    intro r hr
    exact decide_eq_true (hevents r hr)
  simp only [eventsOf, List.flatMap_singleton, List.filter_append, List.filter_cons, hall, hheader,
    hfooter, List.filter_nil, ne_eq, not_true, decide_false, Bool.false_eq_true, if_false,
    List.append_nil]

variable (cx) in
/-- Between two files: the last footer has been read, and the file it has opened holds it as its
header. -/
structure Between (t : Transfer) (segs : List Segment) (footer newest : EventData) : Prop where
  filling : Filling cx t segs { id := footer.instanceId, records := [footer] }
  curFooter : t.curFooter = footer
  headerFile : t.headerFile = genFileName footer.instanceId
  newest_eq : ∃ place, t.storage.uuidHandler.newestInfo = dataInfo place newest
  footerOf : FooterOf cx footer newest

/-- The events and the footer of a file fill the open file and close it. -/
theorem Filling.body {t : Transfer} {segs : List Segment} {g : Segment} (h : Filling cx t segs g)
    {f : Bytes} (hname : t.curFileName = f) {events : List EventData} {newest footer : EventData}
    (hevents : ∀ r ∈ events ++ [newest], r.gtid ≠ [] ∧
      (cx.eventData.serialize r).isSome = true ∧ t.storage.lastInstanceID < r.instanceId)
    (hids : (events ++ [newest]).Pairwise fun r r' => r.instanceId < r'.instanceId)
    (hfooter : FooterOf cx footer newest) (hser : (cx.eventData.serialize footer).isSome = true)
    (hlt : g.id < newest.instanceId) (hsmall : newest.instanceId < 2 ^ 64) (maxSize : Nat)
    (rows : List (Bytes × EventData)) :
    ∃ t', loadRecords cx maxSize
        ((events ++ [newest]).map (fun r => (f, r)) ++ (f, footer) :: rows) t =
          loadRecords cx maxSize rows t' ∧
      Between cx t' (segs ++ [{ g with records := g.records ++ (events ++ [newest]) ++ [footer] }])
        footer newest ∧ t'.curFileName = f := by
  obtain ⟨t₁, hload₁, h₁, -, hname₁, -, hnewest₁⟩ :=
    Filling.events maxSize f ((f, footer) :: rows) (events ++ [newest]) h hevents hids
  obtain ⟨place, hplace⟩ := hnewest₁ newest List.getLast?_concat
  obtain ⟨t₂, hload₂, h₂, hfooter₂, hname₂, hheader₂, huuid₂⟩ := h₁.footer hfooter.gtid hser
    (hfooter.instanceId ▸ hlt) (hfooter.instanceId ▸ hsmall) (hname₁.trans hname) maxSize
  refine ⟨t₂, ?_, ⟨h₂, hfooter₂, hheader₂, ⟨place, ?_⟩, hfooter⟩, hname₂⟩
  · rw [hload₁]
    simp only [loadRecords, hload₂, if_true]
  · rw [huuid₂]
    exact hplace

/-- A header after the first one needs nothing, since the footer before it has opened a file. -/
theorem Between.header {t : Transfer} {segs : List Segment} {footer newest : EventData}
    (h : Between cx t segs footer newest) {header : EventData} (hgtid : header.gtid = [])
    {f : Bytes} (hf : f ≠ t.curFileName) (maxSize : Nat) :
    loadRecord cx maxSize t f header = (.ok, { t with curFileName := f }) ∧
      Between cx { t with curFileName := f } segs footer newest := by
  have hopened : t.curFooter.eventDataFile ≠ [] := by
    rw [h.curFooter]
    exact h.footerOf.eventDataFile
  refine ⟨?_, ⟨⟨h.filling.files, h.filling.writer, h.filling.preloaded, h.filling.rets⟩,
    h.curFooter, h.headerFile, h.newest_eq, h.footerOf⟩⟩
  simp only [loadRecord, hgtid, if_true, hf, ne_eq, not_false_eq_true, hopened, if_false]

theorem Between.lastInstanceID_eq {t : Transfer} {segs : List Segment} {footer newest : EventData}
    (h : Between cx t segs footer newest) : t.storage.lastInstanceID = newest.instanceId := by
  obtain ⟨place, hplace⟩ := h.newest_eq
  rw [EventStorage.lastInstanceID, hplace]
  rfl

/-- What the records after the header of a file do, if the file they go to began before them. -/
theorem Sendable.body {g : Segment} {gs : List Segment} (hs : Sendable cx (g :: gs))
    {header newest footer : EventData} {events : List EventData}
    (hrecords : g.records = header :: (events ++ [newest]) ++ [footer])
    (hheader : header.gtid = []) (hevents : ∀ r ∈ events ++ [newest], r.gtid ≠ [])
    (hfooter : FooterOf cx footer newest) {t : Transfer} {segs : List Segment} {o : Segment}
    (h : Filling cx t segs o) (hname : t.curFileName = g.file)
    (hlast : ∀ r ∈ eventsOf [g], t.storage.lastInstanceID < r.instanceId)
    (hlt : ∀ r ∈ eventsOf [g], o.id < r.instanceId) (horecords : eventsOf [o] = [])
    (maxSize : Nat) (rows : List (Bytes × EventData)) :
    ∃ t' segs', loadRecords cx maxSize
        ((events ++ [newest]).map (fun r => (g.file, r)) ++ (g.file, footer) :: rows) t =
          loadRecords cx maxSize rows t' ∧
      Between cx t' segs' footer newest ∧ t'.curFileName = g.file ∧
      eventsOf segs' = eventsOf segs ++ eventsOf [g] := by
  have hg : eventsOf [g] = events ++ [newest] := by
    have hframed := @eventsOf_framed g.id header footer _ hheader hevents hfooter.gtid
    rwa [← hrecords] at hframed
  have hser : ∀ r ∈ g.records, (cx.eventData.serialize r).isSome = true :=
    hs.serialized g List.mem_cons_self
  have hids := hs.ids
  rw [eventsOf_cons, hg] at hids
  have hnewest : newest ∈ eventsOf [g] := by simp [hg]
  obtain ⟨t', hload, hb, hname'⟩ := h.body hname
    (fun r hr => ⟨hevents r hr, hser r (by rw [hrecords]; simp at hr ⊢; tauto), hlast r (hg ▸ hr)⟩)
    (List.pairwise_append.mp hids).1 hfooter (hser footer (by simp [hrecords])) (hlt newest hnewest)
    (hs.small newest (by rw [eventsOf_cons]; exact List.mem_append_left _ hnewest)) maxSize rows
  refine ⟨t', _, hload, hb, hname', ?_⟩
  -- The file has received the events of the donor's file and its footer.
  have hall : (events ++ [newest]).filter (fun r => decide (r.gtid ≠ [])) = events ++ [newest] := by
    rw [List.filter_eq_self]
    intro r hr
    exact decide_eq_true (hevents r hr)
  rw [eventsOf_append, hg]
  congr 1
  have hempty : o.records.filter (fun r => decide (r.gtid ≠ [])) = [] := by
    simpa only [eventsOf, List.flatMap_singleton] using horecords
  simp only [eventsOf, List.flatMap_singleton, List.filter_append, hempty, List.nil_append,
    List.filter_cons, List.filter_nil, hfooter.gtid, ne_eq, not_true, decide_false,
    Bool.false_eq_true, if_false, List.append_nil]
  simpa only [List.filter_append, List.filter_cons, List.filter_nil, ne_eq] using hall

/-- Later files have newer events. -/
theorem Sendable.newer {g : Segment} {gs : List Segment} (hs : Sendable cx (g :: gs))
    {e : EventData} (he : e ∈ eventsOf [g]) : ∀ r ∈ eventsOf gs, e.instanceId < r.instanceId := by
  have hids := hs.ids
  rw [eventsOf_cons] at hids
  intro r hr
  exact (List.pairwise_append.mp hids).2.2 e he r hr

theorem mem_eventsOf_headed {g : Segment} {header newest footer : EventData}
    {events : List EventData} (hrecords : g.records = header :: (events ++ [newest]) ++ [footer])
    (hgtid : newest.gtid ≠ []) : newest ∈ eventsOf [g] := by
  simp [eventsOf, hrecords, hgtid]

theorem flatMap_rows_headed {g : Segment} {header newest footer : EventData}
    {events : List EventData} (hrecords : g.records = header :: (events ++ [newest]) ++ [footer])
    {gs : List Segment} :
    (g :: gs).flatMap Segment.rows = (g.file, header) ::
      ((events ++ [newest]).map (fun r => (g.file, r)) ++
        (g.file, footer) :: gs.flatMap Segment.rows) := by
  simp [Segment.rows, hrecords]

/-- The last element after a list that ends with a given one. -/
theorem getLast?_cons_concat {α : Type} (a b : α) (l l' : List α) :
    (a :: (l ++ [b] ++ l')).getLast? = (b :: l').getLast? := by
  rw [← List.cons_append, ← List.cons_append, List.append_assoc, List.getLast?_append,
    List.singleton_append, List.getLast?_cons]
  rfl

/-- The files after the first one. -/
theorem Between.files (maxSize : Nat) (gs : List Segment) :
    ∀ {t : Transfer} {segs : List Segment} {footer newest : EventData},
      Between cx t segs footer newest → Sendable cx gs → (∀ g ∈ gs, g.file ≠ t.curFileName) →
      (∀ r ∈ eventsOf gs, newest.instanceId < r.instanceId) →
      ∃ t' segs' footer' newest', loadRecords cx maxSize (gs.flatMap Segment.rows) t = loadEnd cx t' ∧
        Between cx t' segs' footer' newest' ∧ eventsOf segs' = eventsOf segs ++ eventsOf gs ∧
        (footer :: gs.flatMap Segment.records).getLast? = some footer' := by
  induction gs with
  | nil =>
    intro t segs footer newest h _ _ _
    exact ⟨t, segs, footer, newest, rfl, h, (List.append_nil _).symm, rfl⟩
  | cons g gs ih =>
    intro t segs footer newest h hs hnames hnewer
    obtain ⟨header, events, newest₁, footer₁, hrecords, hheader, -, hevents, hfooter₁⟩ :=
      hs.headed g List.mem_cons_self
    obtain ⟨hfiles, -⟩ := List.pairwise_cons.mp hs.files
    obtain ⟨hload, hb⟩ := h.header hheader (hnames g List.mem_cons_self) maxSize
    have hfirst : ∀ r ∈ eventsOf [g], newest.instanceId < r.instanceId := by
      intro r hr
      apply hnewer
      rw [eventsOf_cons]
      exact List.mem_append_left _ hr
    have hopened : eventsOf [{ id := footer.instanceId, records := [footer] }] = [] := by
      simp [eventsOf, h.footerOf.gtid]
    obtain ⟨t₁, segs₁, hload₁, hb₁, hname₁, hevents₁⟩ := hs.body hrecords hheader hevents hfooter₁
      hb.filling rfl (fun r hr => hb.lastInstanceID_eq ▸ hfirst r hr)
      (fun r hr => h.footerOf.instanceId ▸ hfirst r hr) hopened maxSize (gs.flatMap Segment.rows)
    -- The next file has another name and newer events.
    have hnewer₁ := hs.newer (mem_eventsOf_headed hrecords (hevents newest₁ (by simp)))
    obtain ⟨t₂, segs₂, footer₂, newest₂, hload₂, hb₂, hevents₂, hlast₂⟩ :=
      ih hb₁ hs.tail (fun g' hg' => hname₁ ▸ (hfiles g' hg').symm) hnewer₁
    refine ⟨t₂, segs₂, footer₂, newest₂, ?_, hb₂, ?_, ?_⟩
    · rw [flatMap_rows_headed hrecords, loadRecords]
      simp only [hload, if_true]
      rw [hload₁, hload₂]
    · rw [hevents₂, hevents₁, List.append_assoc, ← eventsOf_cons]
    · rw [← hlast₂, List.flatMap_cons, hrecords]
      exact getLast?_cons_concat footer footer₁ _ _

/-- All files, from an empty store. -/
theorem Sendable.load {gs : List Segment} (hs : Sendable cx gs) (hne : gs ≠ [])
    (hids : ∀ g ∈ gs, g.id < 2 ^ 64) (maxSize : Nat) :
    ∃ t segs footer newest, loadRecords cx maxSize (gs.flatMap Segment.rows) {} = loadEnd cx t ∧
      Between cx t segs footer newest ∧ eventsOf segs = eventsOf gs ∧
      (gs.flatMap Segment.records).getLast? = some footer := by
  cases gs with
  | nil => exact absurd rfl hne
  | cons g gs =>
    obtain ⟨header, events, newest, footer, hrecords, hheader, hid, hevents, hfooter⟩ :=
      hs.headed g List.mem_cons_self
    obtain ⟨hfiles, -⟩ := List.pairwise_cons.mp hs.files
    obtain ⟨t₀, hload₀, h₀, hname₀, huuid₀⟩ := @filling_header cx header hheader
      (hs.serialized g List.mem_cons_self header (by simp [hrecords]))
      (hid ▸ hids g List.mem_cons_self) g.file (genFileName_ne_nil _) maxSize
    have hlt : ∀ r ∈ eventsOf [g], g.id < r.instanceId := by
      intro r hr
      simp only [eventsOf, List.flatMap_singleton, List.mem_filter, decide_eq_true_eq] at hr
      exact hs.above g List.mem_cons_self r hr.1 hr.2
    have hopened : eventsOf [{ id := header.instanceId, records := [header] }] = [] := by
      simp [eventsOf, hheader]
    -- The first header is not loaded into the UUID table, so every event is new to the store.
    have hlast : t₀.storage.lastInstanceID = 0 := by
      rw [EventStorage.lastInstanceID, huuid₀]
    obtain ⟨t₁, segs₁, hload₁, hb₁, hname₁, hevents₁⟩ := hs.body hrecords hheader hevents hfooter
      h₀ hname₀ (fun r hr => hlast ▸ Nat.lt_of_le_of_lt (Nat.zero_le _) (hlt r hr))
      (fun r hr => hid ▸ hlt r hr) hopened maxSize (gs.flatMap Segment.rows)
    have hnewer := hs.newer (mem_eventsOf_headed hrecords (hevents newest (by simp)))
    obtain ⟨t₂, segs₂, footer₂, newest₂, hload₂, hb₂, hevents₂, hlast₂⟩ :=
      hb₁.files maxSize gs hs.tail (fun g' hg' => hname₁ ▸ (hfiles g' hg').symm) hnewer
    refine ⟨t₂, segs₂, footer₂, newest₂, ?_, hb₂, ?_, ?_⟩
    · rw [flatMap_rows_headed hrecords, loadRecords]
      simp only [hload₀, if_true]
      rw [hload₁, hload₂]
    · rw [hevents₂, hevents₁, eventsOf_cons g gs]
      rfl
    · rw [← hlast₂, List.flatMap_cons, hrecords, List.cons_append, List.cons_append]
      exact getLast?_cons_concat header footer _ _

end PhxSql.Store
