import PhxSql.Store.EventStorage

/-!
# The files as a list of segments

The abstract form of the store is a list of segments, oldest first: the instance id a file is named
after and the records it holds. `FilesRep` says that a directory and a file list hold exactly these
segments; every file that is not listed is empty. Each operation on files is described once by what
it does to the segments: a record is added to the last one, a new one is opened, or some are
removed.

`Appended` is what adding an event does to the segments, with or without a switch to a new file.
-/

set_option autoImplicit false

namespace PhxSql.Store

open PhxSql.Proto PhxSql.Lib PhxSql.Gtid

/-! ## Segments -/

/-- An event file: the instance id it is named after and its records. -/
structure Segment where
  id : Nat
  records : List EventData := []
  deriving DecidableEq, Repr

/-- The name of the file of a segment. -/
def Segment.file (g : Segment) : Bytes :=
  genFileName g.id

/-- The records of all segments that are events: headers and footers have an empty GTID. -/
def eventsOf (segs : List Segment) : List EventData :=
  (segs.flatMap Segment.records).filter fun r => r.gtid ≠ []

@[simp] theorem eventsOf_append (segs segs' : List Segment) :
    eventsOf (segs ++ segs') = eventsOf segs ++ eventsOf segs' := by
  simp [eventsOf]

variable (cx : Codecs)

/-- The bytes of a record. -/
def recordBytes (r : EventData) : Bytes :=
  (cx.eventData.serialize r).getD []

/-- The bytes of a file with these records. -/
def segmentBytes (rs : List EventData) : Bytes :=
  frames (rs.map (recordBytes cx))

/-- The segment with one more record, if the record serialises. -/
def Segment.add (g : Segment) (r : EventData) : Segment :=
  if (cx.eventData.serialize r).isSome then { g with records := g.records ++ [r] } else g

/-- The position at the end of a segment. -/
def Segment.endPos (g : Segment) : Storage :=
  { path := g.file, offset := (segmentBytes cx g.records).length }

@[simp] theorem segmentBytes_nil : segmentBytes cx [] = [] := rfl

@[simp] theorem segmentBytes_append (rs rs' : List EventData) :
    segmentBytes cx (rs ++ rs') = segmentBytes cx rs ++ segmentBytes cx rs' := by
  simp [segmentBytes]

@[simp] theorem segmentBytes_cons (r : EventData) (rs : List EventData) :
    segmentBytes cx (r :: rs) = frame (recordBytes cx r) ++ segmentBytes cx rs := by
  simp [segmentBytes]

@[simp] theorem Segment.add_id (g : Segment) (r : EventData) : (g.add cx r).id = g.id := by
  unfold Segment.add
  split <;> rfl

@[simp] theorem Segment.add_file (g : Segment) (r : EventData) : (g.add cx r).file = g.file := by
  simp [Segment.file]

theorem length_recordBytes_le (r : EventData) : (recordBytes cx r).length ≤ maxRecordLen := by
  unfold recordBytes maxRecordLen
  cases h : cx.eventData.serialize r with
  | none => simp
  | some b =>
    have hlt := cx.eventData.length_lt h
    rw [Option.getD_some]
    omega

/-- A directory and a file list that hold exactly these segments. -/
structure FilesRep (d : Disk) (fs : FileSet) (segs : List Segment) : Prop where
  ids : segs.Pairwise fun g g' => g.id < g'.id
  small : ∀ g ∈ segs, g.id < 2 ^ 64
  serialized : ∀ g ∈ segs, ∀ r ∈ g.records, (cx.eventData.serialize r).isSome = true
  keys : fs.keys = segs.map Segment.file
  contents : ∀ g ∈ segs, d.find? g.file = some (segmentBytes cx g.records)
  unlisted : ∀ f, (∀ g ∈ segs, f ≠ g.file) → content d f = []
  named : ∀ f bs, d.find? f = some bs → ∃ n, n < 2 ^ 64 ∧ f = genFileName n

variable {cx}

theorem Segment.file_inj {g g' : Segment} : g.file = g'.file ↔ g.id = g'.id :=
  genFileName_inj

theorem FilesRep.content_eq {d : Disk} {fs : FileSet} {segs : List Segment}
    (h : FilesRep cx d fs segs) {g : Segment} (hg : g ∈ segs) :
    content d g.file = segmentBytes cx g.records := by
  rw [content, h.contents g hg, Option.getD_some]

/-- Before the last segment, file names differ from that of the last one. -/
theorem FilesRep.file_ne_last {d : Disk} {fs : FileSet} {segs : List Segment} {g : Segment}
    (h : FilesRep cx d fs (segs ++ [g])) {g' : Segment} (hg' : g' ∈ segs) : g'.file ≠ g.file := by
  intro hfile
  have hlt := (List.pairwise_append.mp h.ids).2.2 g' hg' g (List.mem_singleton_self g)
  have hid := Segment.file_inj.mp hfile
  omega

/-! ## What the file operations do to segments -/

/-- Replacing the content of the last file replaces the last segment. -/
theorem FilesRep.setLast {d : Disk} {fs : FileSet} {segs : List Segment} {g : Segment}
    (h : FilesRep cx d fs (segs ++ [g])) {rs : List EventData}
    (hrs : ∀ r ∈ rs, (cx.eventData.serialize r).isSome = true) :
    FilesRep cx (d.insert g.file (segmentBytes cx rs)) fs (segs ++ [{ g with records := rs }]) := by
  have hg : g ∈ segs ++ [g] := List.mem_append_right _ (List.mem_singleton_self g)
  refine {
    ids := ?ids, small := ?small, serialized := ?serialized, keys := ?keys,
    contents := ?contents, unlisted := ?unlisted, named := ?named }
  case ids =>
    have hids := List.pairwise_append.mp h.ids
    refine List.pairwise_append.mpr ⟨hids.1, List.pairwise_singleton .., ?_⟩
    intro a ha b hb
    rw [List.mem_singleton.mp hb]
    exact hids.2.2 a ha g (List.mem_singleton_self g)
  case small =>
    intro a ha
    rcases List.mem_append.mp ha with ha | ha
    · exact h.small a (List.mem_append_left _ ha)
    · rw [List.mem_singleton.mp ha]
      exact h.small g hg
  case serialized =>
    intro a ha x hx
    rcases List.mem_append.mp ha with ha | ha
    · exact h.serialized a (List.mem_append_left _ ha) x hx
    · rw [List.mem_singleton.mp ha] at hx
      exact hrs x hx
  case keys =>
    rw [h.keys]
    simp [Segment.file]
  case contents =>
    -- The other files have other names, so the write does not reach them.
    intro a ha
    rcases List.mem_append.mp ha with ha | ha
    · rw [SortedMap.find?_insert_of_ne (by simpa using h.file_ne_last ha)]
      exact h.contents a (List.mem_append_left _ ha)
    · rw [List.mem_singleton.mp ha]
      exact SortedMap.find?_insert_self ..
  case unlisted =>
    intro f hf
    have hne : f ≠ g.file := hf { g with records := rs } (by simp)
    rw [content_insert_of_ne _ hne]
    apply h.unlisted
    intro a ha
    rcases List.mem_append.mp ha with ha | ha
    · exact hf a (List.mem_append_left _ ha)
    · rw [List.mem_singleton.mp ha]
      exact hne
  case named =>
    intro f bs hf
    by_cases hne : f = g.file
    · exact ⟨g.id, h.small g hg, hne⟩
    · rw [SortedMap.find?_insert_of_ne (by simpa using hne)] at hf
      exact h.named f bs hf

/-- Writing a record at the end of the last segment adds it there. -/
theorem FilesRep.write {d : Disk} {m : StorageFileManager} {segs : List Segment} {g : Segment}
    (h : FilesRep cx d m.fileList (segs ++ [g])) (hw : m.writer = g.endPos cx) (r : EventData) :
    FilesRep cx (writeEvent cx d m r).1 (writeEvent cx d m r).2.fileList (segs ++ [g.add cx r]) ∧
      (writeEvent cx d m r).2.writer = (g.add cx r).endPos cx ∧
      (writeEvent cx d m r).2.reader = m.reader := by
  have hg : g ∈ segs ++ [g] := List.mem_append_right _ (List.mem_singleton_self g)
  cases hser : cx.eventData.serialize r with
  | none =>
    have hadd : g.add cx r = g := by simp [Segment.add, hser]
    simp only [writeEvent, hser, hadd]
    exact ⟨h, hw, trivial⟩
  | some b =>
    have hrb : recordBytes cx r = b := by simp [recordBytes, hser]
    have hadd : g.add cx r = { g with records := g.records ++ [r] } := by simp [Segment.add, hser]
    have hcont := h.content_eq hg
    have hnew : writeAt (content d g.file) (segmentBytes cx g.records).length (frame b) =
        segmentBytes cx (g.records ++ [r]) := by
      rw [hcont, writeAt_length, segmentBytes_append, segmentBytes_cons, hrb, segmentBytes_nil,
        List.append_nil]
    simp only [writeEvent, hser, writeData, hw, Segment.endPos, hnew, hadd]
    refine ⟨h.setLast fun x hx => ?_, ?_, trivial⟩
    · rcases List.mem_append.mp hx with hx | hx
      · exact h.serialized g hg x hx
      · rw [List.mem_singleton.mp hx, hser]
        rfl
    · simp [Segment.file, hrb]

theorem fileRank_file {d : Disk} {fs : FileSet} {segs : List Segment} (h : FilesRep cx d fs segs)
    {g : Segment} (hg : g ∈ segs) : fileRank g.file = g.id + 1 :=
  fileRank_genFileName (h.small g hg)

/-- Inserting a name of a larger id puts it at the end of the list. -/
theorem keys_insertNew {fs : FileSet} {id : Nat} (hid : id < 2 ^ 64)
    (h : ∀ f ∈ fs.keys, fileRank f < id + 1) :
    (fs.insertNew (genFileName id) ()).keys = fs.keys ++ [genFileName id] := by
  have hrank : fileRank (genFileName id) = id + 1 := fileRank_genFileName hid
  have hlt : ∀ e ∈ fs.entries, fileRank e.1 < id + 1 := fun e he =>
    h e.1 (List.mem_map_of_mem he)
  have hnot : fs.contains (genFileName id) = false := by
    rw [Bool.eq_false_iff, ne_eq, SortedMap.contains_iff]
    rintro ⟨e, he, heq⟩
    have := hlt e he
    omega
  rw [SortedMap.insertNew, hnot, if_neg Bool.false_ne_true, SortedMap.keys,
    SortedMap.entries_insert_of_lt () (by rwa [hrank])]
  simp [SortedMap.keys]

/-- Switching to a file of a larger id opens a new, empty segment. -/
theorem FilesRep.switch {d : Disk} {m : StorageFileManager} {segs : List Segment}
    (h : FilesRep cx d m.fileList segs) {id : Nat} (hid : id < 2 ^ 64)
    (hlast : ∀ g ∈ segs, g.id < id) (hpath : m.writer.path ≠ genFileName id) :
    FilesRep cx (switchNewWriteFile d m id).1 (switchNewWriteFile d m id).2.fileList
        (segs ++ [{ id := id }]) ∧
      (switchNewWriteFile d m id).2.writer = Segment.endPos cx { id := id } ∧
      (switchNewWriteFile d m id).2.reader = m.reader := by
  have hdisk : (switchNewWriteFile d m id).1 = createFile d (genFileName id) := by
    simp [switchNewWriteFile, setFileWritePos, hpath]
  have hunlisted : ∀ g ∈ segs, genFileName id ≠ g.file := by
    intro g hg hfile
    have hlt := hlast g hg
    have heq : id = g.id := genFileName_inj.mp hfile
    omega
  rw [hdisk]
  refine ⟨{
    ids := ?ids, small := ?small, serialized := ?serialized, keys := ?keys,
    contents := ?contents, unlisted := ?unlisted, named := ?named }, rfl, rfl⟩
  case ids =>
    refine List.pairwise_append.mpr ⟨h.ids, List.pairwise_singleton .., ?_⟩
    intro a ha b hb
    rw [List.mem_singleton.mp hb]
    exact hlast a ha
  case small =>
    intro g hg
    rcases List.mem_append.mp hg with hg | hg
    · exact h.small g hg
    · rw [List.mem_singleton.mp hg]
      exact hid
  case serialized =>
    intro g hg r hr
    rcases List.mem_append.mp hg with hg | hg
    · exact h.serialized g hg r hr
    · rw [List.mem_singleton.mp hg] at hr
      cases hr
  case keys =>
    -- The list is ordered by the numbers in the names, and the new one is the largest.
    show (m.fileList.insertNew (genFileName id) ()).keys = _
    rw [keys_insertNew hid, h.keys]
    · simp [Segment.file]
    · intro f hf
      rw [h.keys] at hf
      obtain ⟨g, hg, rfl⟩ := List.mem_map.mp hf
      have := hlast g hg
      rw [fileRank_file h hg]
      omega
  case contents =>
    -- A file of the new name may be there already, unlisted and therefore empty.
    intro g hg
    rcases List.mem_append.mp hg with hg | hg
    · rw [find?_createFile_of_ne (hunlisted g hg).symm]
      exact h.contents g hg
    · rw [List.mem_singleton.mp hg]
      show (createFile d (genFileName id)).find? (genFileName id) = _
      rw [find?_createFile_self, h.unlisted _ hunlisted]
      rfl
  case unlisted =>
    intro f hf
    rw [content_createFile]
    exact h.unlisted f fun g hg => hf g (List.mem_append_left _ hg)
  case named =>
    intro f bs hf
    by_cases hne : f = genFileName id
    · exact ⟨id, hid, hne⟩
    · rw [find?_createFile_of_ne hne] at hf
      exact h.named f bs hf

/-! ## Adding an event -/

theorem find?_writeEvent {d : Disk} {m : StorageFileManager} {f : Bytes} (r : EventData)
    (hf : f ≠ m.writer.path) : (writeEvent cx d m r).1.find? f = d.find? f := by
  unfold writeEvent
  cases cx.eventData.serialize r with
  | none => rfl
  | some bytes => exact SortedMap.find?_insert_of_ne (by simpa using hf)

theorem find?_switchNewWriteFile {d : Disk} {m : StorageFileManager} {id : Nat} {f : Bytes}
    (hf : f ≠ genFileName id) : (switchNewWriteFile d m id).1.find? f = d.find? f := by
  simp only [switchNewWriteFile, setFileWritePos, Bool.false_eq_true, if_false]
  split
  · exact find?_createFile_of_ne hf
  · rfl

variable (cx) in
/-- What adding an event does to the segments: it is added to the last one, and then possibly the
record of a footer and header, with an empty GTID, ends the last segment and begins a new one. -/
inductive Appended (data : EventData) : List Segment → List Segment → Prop
  | plain (segs : List Segment) (g : Segment) :
      Appended data (segs ++ [g]) (segs ++ [g.add cx data])
  | switched (segs : List Segment) (g : Segment) (header : EventData) (hgtid : header.gtid = []) :
      Appended data (segs ++ [g])
        (segs ++ [(g.add cx data).add cx header] ++
          [Segment.add cx { id := data.instanceId } header])

variable (cx) in
/-- A store without preloaded events whose files are these segments and that writes at the end of
the last one. -/
structure StoreRep (s : EventStorage) (segs : List Segment) : Prop where
  files : FilesRep cx s.disk s.manager.fileList segs
  writer : ∃ init g, segs = init ++ [g] ∧ s.manager.writer = g.endPos cx ∧ g.id ≤ s.lastInstanceID
  preloaded : s.checkpointData = .empty
  small : s.lastInstanceID < 2 ^ 64

theorem eventsOf_singleton_add (g : Segment) {r : EventData} (hgtid : r.gtid = []) :
    eventsOf [g.add cx r] = eventsOf [g] := by
  unfold Segment.add
  split
  · simp [eventsOf, hgtid]
  · rfl

/-- The events of the segments after an event was added. -/
theorem Appended.eventsOf_eq {data : EventData} {segs segs' : List Segment}
    (h : Appended cx data segs segs') (hgtid : data.gtid ≠ []) :
    eventsOf segs' = eventsOf segs ++
      if (cx.eventData.serialize data).isSome then [data] else [] := by
  have hadd : ∀ g : Segment, eventsOf [g.add cx data] = eventsOf [g] ++
      if (cx.eventData.serialize data).isSome then [data] else [] := by
    intro g
    unfold Segment.add
    split
    · simp [eventsOf, hgtid]
    · simp
  cases h with
  | plain segs g => rw [eventsOf_append, eventsOf_append, hadd, List.append_assoc]
  | switched segs g header hheader =>
    rw [eventsOf_append, eventsOf_append, eventsOf_append, eventsOf_singleton_add _ hheader,
      eventsOf_singleton_add _ hheader, hadd]
    simp [eventsOf]

/-- A header has the UUID table and the master record in it and goes with the table in the index. -/
theorem getFileHeader_ok {master : MasterInfo} {s : EventStorage}
    (h : (getFileHeader cx master s).1 = .ok) :
    ∃ table masterData,
      cx.eventDataInfoList.serialize (serializeToEventInfoList s.uuidHandler) = some table ∧
      cx.masterInfo.serialize master = some masterData ∧
      getFileHeader cx master s =
        (.ok,
          { gtid := []
            data := table
            instanceId := s.lastInstanceID
            eventDataFile := s.manager.writer.path
            masterData := masterData },
          { s with index := flushEventUUIDInfo s.uuidHandler s.index }) := by
  unfold getFileHeader serializeToBuffer at h ⊢
  cases hlist : cx.eventDataInfoList.serialize (serializeToEventInfoList s.uuidHandler) with
  | none =>
    by_cases hempty : (serializeToEventInfoList s.uuidHandler).isEmpty
    · simp [hlist, hempty] at h
    · simp [hlist, hempty] at h
  | some table =>
    cases hmaster : cx.masterInfo.serialize master with
    | none => simp [hlist, hmaster] at h
    | some masterData => exact ⟨table, masterData, rfl, rfl, rfl⟩

theorem getFileHeader_record {master : MasterInfo} {s : EventStorage}
    (h : (getFileHeader cx master s).1 = .ok) :
    (getFileHeader cx master s).2.1.gtid = [] ∧
      (getFileHeader cx master s).2.1.instanceId = s.lastInstanceID ∧
      (getFileHeader cx master s).2.2 =
        { s with index := flushEventUUIDInfo s.uuidHandler s.index } := by
  obtain ⟨table, masterData, -, -, hmade⟩ := getFileHeader_ok h
  rw [hmade]
  exact ⟨rfl, rfl, rfl⟩

/-- Without a header the index gets at most the UUID table. -/
theorem getFileHeader_index (master : MasterInfo) (s : EventStorage) :
    (getFileHeader cx master s).2.2 = s ∨
      (getFileHeader cx master s).2.2 =
        { s with index := flushEventUUIDInfo s.uuidHandler s.index } := by
  unfold getFileHeader serializeToBuffer
  cases cx.eventDataInfoList.serialize (serializeToEventInfoList s.uuidHandler) with
  | none =>
    left
    by_cases hempty : (serializeToEventInfoList s.uuidHandler).isEmpty
    · simp [hempty]
    · simp [hempty]
  | some b =>
    right
    cases cx.masterInfo.serialize master with
    | none => rfl
    | some b' => rfl

variable (cx) in
/-- What `CheckAndSwitchFile` leaves as it is; in the directory it changes listed files only. -/
structure SwitchFrame (s s' : EventStorage) : Prop where
  disk : ∀ f, f ∉ s'.manager.fileList.keys → s'.disk.find? f = s.disk.find? f
  uuidHandler : s'.uuidHandler = s.uuidHandler
  checkpointData : s'.checkpointData = s.checkpointData
  reader : s'.manager.reader = s.manager.reader
  index : s'.index = s.index ∨ s'.index = flushEventUUIDInfo s.uuidHandler s.index

/-- Switching to a new file adds the footer to the last segment and opens a new one with the header.
-/
theorem switchNewFile_rep {s : EventStorage} {init : List Segment} {g : Segment}
    (hfiles : FilesRep cx s.disk s.manager.fileList (init ++ [g]))
    (hw : s.manager.writer = g.endPos cx) {header : EventData} (hlt : g.id < header.instanceId)
    (hsmall : header.instanceId < 2 ^ 64) :
    FilesRep cx (switchNewFile cx s header true).disk
        (switchNewFile cx s header true).manager.fileList
        (init ++ [g.add cx header] ++ [Segment.add cx { id := header.instanceId } header]) ∧
      (switchNewFile cx s header true).manager.writer =
        (Segment.add cx { id := header.instanceId } header).endPos cx ∧
      (switchNewFile cx s header true).manager.reader = s.manager.reader ∧
      ∀ f, f ∉ (switchNewFile cx s header true).manager.fileList.keys →
        (switchNewFile cx s header true).disk.find? f = s.disk.find? f := by
  -- The record is written twice, at the end of the old file and at the start of the new one.
  obtain ⟨hfoot, hwfoot, hrfoot⟩ := hfiles.write hw header
  have hids : ∀ a ∈ init ++ [g.add cx header], a.id < header.instanceId := by
    intro a ha
    rcases List.mem_append.mp ha with ha | ha
    · have := (List.pairwise_append.mp hfiles.ids).2.2 a ha g (List.mem_singleton_self g)
      omega
    · rw [List.mem_singleton.mp ha, Segment.add_id]
      exact hlt
  have hpath : (writeEvent cx s.disk s.manager header).2.writer.path ≠
      genFileName header.instanceId := by
    rw [hwfoot]
    intro heq
    have hid : (g.add cx header).id = header.instanceId := genFileName_inj.mp heq
    rw [Segment.add_id] at hid
    omega
  obtain ⟨hnew, hwnew, hrnew⟩ := hfoot.switch hsmall hids hpath
  obtain ⟨hhead, hwhead, hrhead⟩ := hnew.write hwnew header
  simp only [switchNewFile, if_true]
  refine ⟨hhead, hwhead, hrhead.trans (hrnew.trans hrfoot), ?_⟩
  intro f hf
  rw [hhead.keys] at hf
  simp only [List.map_append, List.map_cons, List.map_nil, List.mem_append, List.mem_singleton,
    Segment.add_file, not_or] at hf
  rw [find?_writeEvent _ (by rw [hwnew]; exact hf.2), find?_switchNewWriteFile hf.2,
    find?_writeEvent _ (by rw [hw]; exact hf.1.2)]

/-- `CheckAndSwitchFile` leaves the segments or ends the last one and opens a new one. -/
theorem checkAndSwitchFile_rep {s : EventStorage} {init : List Segment} {g : Segment}
    (hfiles : FilesRep cx s.disk s.manager.fileList (init ++ [g]))
    (hw : s.manager.writer = g.endPos cx) (hlt : g.id < s.lastInstanceID)
    (hsmall : s.lastInstanceID < 2 ^ 64) (maxSize : Nat) (master : MasterInfo) :
    SwitchFrame s (checkAndSwitchFile cx maxSize master s) ∧
    ∃ init' g', FilesRep cx (checkAndSwitchFile cx maxSize master s).disk
        (checkAndSwitchFile cx maxSize master s).manager.fileList (init' ++ [g']) ∧
      (checkAndSwitchFile cx maxSize master s).manager.writer = g'.endPos cx ∧
      g'.id ≤ s.lastInstanceID ∧
      (init' ++ [g'] = init ++ [g] ∨ ∃ header : EventData, header.gtid = [] ∧
        init' ++ [g'] = init ++ [g.add cx header] ++
          [Segment.add cx { id := s.lastInstanceID } header]) := by
  unfold checkAndSwitchFile
  by_cases hsize : maxSize < s.manager.writer.offset
  · rw [if_pos hsize]
    by_cases hret : (getFileHeader cx master s).1 = .ok
    · obtain ⟨hgtid, hinst, hkept⟩ := getFileHeader_record hret
      simp only [hret, if_true, hkept]
      generalize (getFileHeader cx master s).2.1 = header at hgtid hinst
      obtain ⟨hrep, hwrep, hreader, hdisk⟩ := @switchNewFile_rep cx
        { s with index := flushEventUUIDInfo s.uuidHandler s.index } init g hfiles hw header
        (hinst ▸ hlt) (hinst ▸ hsmall)
      rw [hinst] at hrep hwrep
      exact ⟨⟨hdisk, rfl, rfl, hreader, .inr rfl⟩, _, _, hrep, hwrep, by simp,
        .inr ⟨header, hgtid, rfl⟩⟩
    · -- A header that cannot be made leaves the files, but the UUID table may be flushed.
      simp only [hret, if_false]
      rcases getFileHeader_index master s with hkept | hkept
      · rw [hkept]
        exact ⟨⟨fun _ _ => rfl, rfl, rfl, rfl, .inl rfl⟩, init, g, hfiles, hw, hlt.le, .inl rfl⟩
      · rw [hkept]
        exact ⟨⟨fun _ _ => rfl, rfl, rfl, rfl, .inr rfl⟩, init, g, hfiles, hw, hlt.le, .inl rfl⟩
  · rw [if_neg hsize]
    exact ⟨⟨fun _ _ => rfl, rfl, rfl, rfl, .inl rfl⟩, init, g, hfiles, hw, hlt.le, .inl rfl⟩

variable (cx) in
/-- What adding an event does to the rest of the store, for an event that was written at `place`. -/
structure AddFrame (s s' : EventStorage) (gtid : Bytes) (data : EventData) (place : Storage) :
    Prop where
  disk : ∀ f, f ∉ s'.manager.fileList.keys → s'.disk.find? f = s.disk.find? f
  uuidHandler : s'.uuidHandler =
    updateEventUUIDInfoByGTID s.uuidHandler gtid (dataInfo place data)
  checkpointData : s'.checkpointData = s.checkpointData
  reader : s'.manager.reader = s.manager.reader
  index : s'.index = s.index.insert gtid (.info (dataInfo place data)) ∨
    s'.index = flushEventUUIDInfo s'.uuidHandler
      (s.index.insert gtid (.info (dataInfo place data)))

/-- An event whose instance id is not above the last one is not added. -/
theorem addEvent_of_le {s : EventStorage} {data : EventData}
    (h : data.instanceId ≤ s.lastInstanceID) (maxSize : Nat) (master : MasterInfo) (gtid : Bytes)
    (switchFile : Bool) :
    addEvent cx maxSize master s gtid data switchFile = (.eventExist, s) :=
  if_pos h

/-- Adding an event with a larger instance id succeeds and appends it to the segments. -/
theorem addEvent_rep {s : EventStorage} {segs : List Segment} (h : StoreRep cx s segs)
    {data : EventData} (hid : s.lastInstanceID < data.instanceId) (hsmall : data.instanceId < 2 ^ 64)
    (maxSize : Nat) (master : MasterInfo) (gtid : Bytes) :
    (addEvent cx maxSize master s gtid data true).1 = .ok ∧
      AddFrame s (addEvent cx maxSize master s gtid data true).2 gtid data s.manager.writer ∧
      ∃ segs', StoreRep cx (addEvent cx maxSize master s gtid data true).2 segs' ∧
        Appended cx data segs segs' := by
  obtain ⟨init, g, rfl, hw, hg⟩ := h.writer
  have hcheck : realCheckGTID cx maxSize master s gtid = (none, s) := by
    simp [realCheckGTID, checkPointDone, h.preloaded]
  obtain ⟨hfiles, hw', hr'⟩ := h.files.write hw data
  -- The store after the event is written and recorded, before the size of the file is checked.
  let s₁ : EventStorage := { s with
    disk := (writeEvent cx s.disk s.manager data).1
    manager := (writeEvent cx s.disk s.manager data).2
    uuidHandler := updateEventUUIDInfoByGTID s.uuidHandler gtid (dataInfo s.manager.writer data)
    index := s.index.insert gtid (.info (dataInfo s.manager.writer data)) }
  have hadd : addEvent cx maxSize master s gtid data true =
      (.ok, checkAndSwitchFile cx maxSize master s₁) := by
    rw [addEvent, if_neg (Nat.not_le.mpr hid)]
    simp only [hcheck]
    rfl
  have hlast : s₁.lastInstanceID = data.instanceId := rfl
  have hlt : (g.add cx data).id < s₁.lastInstanceID := by
    rw [hlast, Segment.add_id]
    omega
  obtain ⟨hframe, init', g', hrep, hwrep, hgrep, hsegs⟩ :=
    checkAndSwitchFile_rep hfiles hw' hlt (hlast ▸ hsmall) maxSize master (s := s₁)
  rw [hadd]
  have hlast' : (checkAndSwitchFile cx maxSize master s₁).lastInstanceID = data.instanceId := by
    rw [EventStorage.lastInstanceID, hframe.uuidHandler]
    rfl
  refine ⟨rfl, ⟨?_, hframe.uuidHandler, hframe.checkpointData, hframe.reader.trans hr', ?_⟩,
    init' ++ [g'], ⟨hrep, ⟨init', g', rfl, hwrep, ?_⟩, ?_, ?_⟩, ?_⟩
  · intro f hf
    have hne : f ≠ g.file := by
      rw [hrep.keys] at hf
      rintro rfl
      apply hf
      rcases hsegs with hsame | ⟨header, -, hnew⟩
      · rw [hsame]
        simp
      · rw [hnew]
        simp
    rw [hframe.disk f hf]
    exact find?_writeEvent data (by rw [hw]; exact hne)
  · rcases hframe.index with hi | hi
    · exact .inl hi
    · refine .inr ?_
      rw [hframe.uuidHandler]
      exact hi
  · rw [hlast', ← hlast]
    exact hgrep
  · exact hframe.checkpointData.trans h.preloaded
  · rw [hlast']
    exact hsmall
  · rcases hsegs with hsame | ⟨header, hgtid, hnew⟩
    · rw [hsame]
      exact .plain init g
    · rw [hnew, hlast]
      exact .switched init g header hgtid

/-- The store of a new process on an empty directory. -/
theorem storeRep_empty : StoreRep cx emptyStorage [{ id := 0 }] where
  files := by
    have hempty : FilesRep cx (.empty : Disk) (.empty : FileSet) [] :=
      ⟨.nil, by simp, by simp, rfl, by simp, fun f _ => rfl, fun f bs h => by simp at h⟩
    exact (hempty.switch (m := {}) (by decide) (by simp) (genFileName_ne_nil 0).symm).1
  writer := ⟨[], { id := 0 }, rfl, rfl, Nat.le_refl _⟩
  preloaded := rfl
  small := by decide

/-! ## Reading a segment back -/

variable (cx) in
/-- The records in a file. -/
def fileRecords (d : Disk) (f : Bytes) : List EventData :=
  recordsFrom cx ((content d f).length + 1) d { reader := { path := f } }

variable (cx) in
/-- The records in the listed files, in the order of the files. -/
def storedRecords (s : EventStorage) : List EventData :=
  s.manager.fileList.keys.flatMap (fileRecords cx s.disk)

variable (cx) in
/-- The events in the listed files, in the order of the files. -/
def storedEvents (s : EventStorage) : List EventData :=
  (s.manager.fileList.keys.flatMap (fileRecords cx s.disk)).filter fun r => r.gtid ≠ []

/-- A record is read at its place, and the position after it is that of the next one. -/
theorem readNext_of_place {d : Disk} {path : Bytes} {pre post : List EventData} {r : EventData}
    (hc : content d path = segmentBytes cx (pre ++ r :: post)) (fs : List Bytes) :
    readNext d { path := path, offset := (segmentBytes cx pre).length } fs =
      { data := some (recordBytes cx r)
        pos := { path := path, offset := (segmentBytes cx pre).length }
        disk := d
        reader := { path := path, offset := (segmentBytes cx (pre ++ [r])).length } } := by
  have hread := readData_of_content { path := path, offset := (segmentBytes cx pre).length }
    (hc.trans (by rw [segmentBytes_append, segmentBytes_cons])) rfl (length_recordBytes_le cx r)
  cases fs with
  | nil => simp [readNext, hread]
  | cons f fs => simp [readNext, hread]

theorem parse_recordBytes {r : EventData} (h : (cx.eventData.serialize r).isSome = true) :
    cx.eventData.parse (recordBytes cx r) = some r := by
  obtain ⟨b, hb⟩ := Option.isSome_iff_exists.mp h
  rw [recordBytes, hb, Option.getD_some]
  exact cx.eventData.parse_serialize trivial hb

/-- At the end of a segment reading in the file finds nothing. -/
theorem readEventFromFile_at_end {d : Disk} {m : StorageFileManager} {rs : List EventData}
    (hc : content d m.reader.path = segmentBytes cx rs)
    (ho : m.reader.offset = (segmentBytes cx rs).length) :
    (readEventFromFile cx d m).ret = .dataEmpty := by
  have hread : readData d m.reader = (none, m.reader) := readData_at_end (by rw [ho, hc])
  simp [readEventFromFile, readNext, hread, parseRead]

/-- Reading a file from a place in it gives the records from there on. -/
theorem recordsFrom_segment {d : Disk} {path : Bytes} (fuel : Nat) :
    ∀ (pre post : List EventData),
      content d path = segmentBytes cx (pre ++ post) →
      (∀ r ∈ post, (cx.eventData.serialize r).isSome = true) → post.length < fuel →
      recordsFrom cx fuel d
        { reader := { path := path, offset := (segmentBytes cx pre).length } } = post := by
  induction fuel with
  | zero => intro pre post _ _ hfuel; omega
  | succ fuel ih =>
    intro pre post hc hser hfuel
    cases post with
    | nil =>
      have hend := readEventFromFile_at_end
        (m := { reader := { path := path, offset := (segmentBytes cx pre).length } })
        (by rw [hc, List.append_nil]) rfl
      simp [recordsFrom, hend]
    | cons r post =>
      have hr := hser r List.mem_cons_self
      have hread := readNext_of_place hc []
      have ih' := ih (pre ++ [r]) post (by rw [hc, List.append_assoc]; rfl)
        (fun x hx => hser x (List.mem_cons_of_mem _ hx)) (by simp at hfuel; omega)
      simp only [recordsFrom, readEventFromFile, hread, parseRead, parse_recordBytes hr, if_true,
        ih']

theorem length_le_segmentBytes (rs : List EventData) :
    rs.length ≤ (segmentBytes cx rs).length := by
  induction rs with
  | nil => simp
  | cons r rs ih =>
    rw [segmentBytes_cons, List.length_append, length_frame, List.length_cons]
    omega

/-- The records in the file of a segment are those of the segment. -/
theorem FilesRep.fileRecords_eq {d : Disk} {fs : FileSet} {segs : List Segment}
    (h : FilesRep cx d fs segs) {g : Segment} (hg : g ∈ segs) :
    fileRecords cx d g.file = g.records := by
  have hc := h.content_eq hg
  apply recordsFrom_segment _ [] g.records hc (h.serialized g hg)
  rw [hc]
  exact Nat.lt_succ_of_le (length_le_segmentBytes g.records)

/-- A file that is not listed has no records. -/
theorem FilesRep.fileRecords_unlisted {d : Disk} {fs : FileSet} {segs : List Segment}
    (h : FilesRep cx d fs segs) {f : Bytes} (hf : ∀ g ∈ segs, f ≠ g.file) :
    fileRecords cx d f = [] := by
  apply recordsFrom_segment _ [] [] (h.unlisted f hf) (by simp)
  exact Nat.succ_pos _

/-- A record in a file is one of the segment of that file. -/
theorem FilesRep.segment_of_mem {d : Disk} {fs : FileSet} {segs : List Segment}
    (h : FilesRep cx d fs segs) {f : Bytes} {r : EventData} (hr : r ∈ fileRecords cx d f) :
    ∃ g ∈ segs, f = g.file ∧ r ∈ g.records := by
  by_cases hlisted : ∃ g ∈ segs, f = g.file
  · obtain ⟨g, hg, rfl⟩ := hlisted
    rw [h.fileRecords_eq hg] at hr
    exact ⟨g, hg, rfl, hr⟩
  · rw [h.fileRecords_unlisted fun g hg heq => hlisted ⟨g, hg, heq⟩] at hr
    cases hr

/-- The records in the files of a store are those of its segments. -/
theorem FilesRep.storedRecords_eq {s : EventStorage} {segs : List Segment}
    (h : FilesRep cx s.disk s.manager.fileList segs) :
    storedRecords cx s = segs.flatMap Segment.records := by
  unfold storedRecords
  rw [h.keys, List.flatMap_map]
  apply List.flatMap_congr
  intro g hg
  exact h.fileRecords_eq hg

/-- The events in the files of a store are those of its segments. -/
theorem FilesRep.storedEvents_eq {s : EventStorage} {segs : List Segment}
    (h : FilesRep cx s.disk s.manager.fileList segs) : storedEvents cx s = eventsOf segs := by
  show (storedRecords cx s).filter _ = _
  rw [h.storedRecords_eq, eventsOf]

end PhxSql.Store
