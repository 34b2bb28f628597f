import PhxSql.Store.History
import PhxSql.Proto.Wire

/-!
# The representation of the store

For events with distinct canonical GTIDs the index is exact: it has an entry for every accepted
event that was not in a removed file, with the place it can be read at, the UUID table, and nothing
else. Together with `HistoryInv` this relates the four structures of the store (files, file list,
index, UUID table) to the accepted events in every run.
-/

set_option autoImplicit false

namespace PhxSql.Store

open PhxSql.Proto PhxSql.Lib PhxSql.Gtid

/-- The accepted events that were not in a removed file. -/
def History.kept (h : History) : List AcceptedEvent :=
  h.accepted.filter fun x => x.place.path ∉ h.deleted

theorem History.mem_kept {h : History} {x : AcceptedEvent} :
    x ∈ h.kept ↔ x ∈ h.accepted ∧ x.place.path ∉ h.deleted := by
  simp [History.kept]

variable (cx : Codecs)

/-- An event that is added has a canonical GTID that was not accepted before; `uint64` bounds its
id, and protobuf serialises it. -/
def NewCanonical (h : History) : StoreAction → Prop
  | .addEvent _ _ data =>
    Canonical data.gtid ∧ data.gtid ∉ h.accepted.map (fun x => x.data.gtid) ∧
      data.instanceId < 2 ^ 64 ∧ (cx.eventData.serialize data).isSome = true
  | _ => True

variable {cx}

theorem addable_of_newCanonical {h : History} {a : StoreAction} (ha : NewCanonical cx h a) :
    Addable cx a := by
  cases a with
  | addEvent maxSize master data => exact ⟨ha.1.ne_nil, ha.2.2.1, ha.2.2.2⟩
  | makeCheckPoint => trivial
  | getGTIDInfo => trivial
  | getLastGtid => trivial
  | reSet => trivial

/-! ## The index -/

/-- The entries of the index are those of the kept events and the UUID table. -/
structure IndexInv (h : History) : Prop where
  canonical : ∀ x ∈ h.accepted, Canonical x.data.gtid
  distinct : (h.accepted.map fun x => x.data.gtid).Nodup
  sound : ∀ e ∈ h.store.index.entries, (∃ l, e = (getKeyForUUID, .infoList l)) ∨
    ∃ x ∈ h.kept, e = (x.data.gtid, .info x.info)
  complete : ∀ x ∈ h.kept, (x.data.gtid, .info x.info) ∈ h.store.index.entries

theorem parseGTID_getKeyForUUID : parseGTID getKeyForUUID = (getKeyForUUID, 0) := by
  decide

/-- The key of the UUID table is no UUID. -/
theorem getKeyForUUID_ne_genUUID (sid : Bytes) : getKeyForUUID ≠ genUUID sid := by
  intro heq
  have hg : (103 : UInt8) ∉ genUUID sid := not_mem_genUUID (by unfold NotUuidByte; decide) sid
  rw [← heq] at hg
  exact hg (by decide)

/-- The key of the UUID table is no GTID. -/
theorem gtidRank_ne_key {gtid : Bytes} (h : Canonical gtid) :
    gtidRank gtid ≠ gtidRank getKeyForUUID := by
  obtain ⟨sid, n, -, hn, rfl⟩ := h
  intro hrank
  simp only [gtidRank, EmbeddingLike.apply_eq_iff_eq, Prod.mk.injEq, byteRank_inj,
    parseGTID_getKeyForUUID, parseGTID_genUUID hn] at hrank
  exact getKeyForUUID_ne_genUUID sid hrank.1.symm

theorem IndexInv.eq_of_gtid_eq {h : History} (hi : IndexInv h) {x y : AcceptedEvent}
    (hx : x ∈ h.accepted) (hy : y ∈ h.accepted) (hgtid : x.data.gtid = y.data.gtid) : x = y :=
  List.inj_on_of_nodup_map hi.distinct hx hy hgtid

/-- Events with different GTIDs have different keys. -/
theorem IndexInv.eq_of_gtidRank_eq {h : History} (hi : IndexInv h) {x y : AcceptedEvent}
    (hx : x ∈ h.accepted) (hy : y ∈ h.accepted)
    (hrank : gtidRank x.data.gtid = gtidRank y.data.gtid) : x = y :=
  hi.eq_of_gtid_eq hx hy ((hi.canonical x hx).eq_of_gtidRank_eq (hi.canonical y hy) hrank)

/-- An event in the file of a segment is placed there. -/
theorem exists_placed {segs : List Segment} {g : Segment} (hg : g ∈ segs) {r : EventData}
    (hr : r ∈ g.records) (hgtid : r.gtid ≠ []) :
    ∃ x ∈ placedEvents cx segs, x.data = r ∧ x.place.path = g.file := by
  have hmap := @map_data_placedFrom cx g.file g.records 0
  rw [← hmap] at hr
  obtain ⟨x, hx, rfl⟩ := List.mem_map.mp hr
  refine ⟨x, List.mem_filter.mpr ⟨?_, by simpa using hgtid⟩, rfl, path_of_mem_placedFrom hx⟩
  exact List.mem_flatMap.mpr ⟨g, hg, hx⟩

/-- A placed event is a record of a segment. -/
theorem placed_segment {segs : List Segment} {x : AcceptedEvent} (hx : x ∈ placedEvents cx segs) :
    ∃ g ∈ segs, ∃ pre post, g.records = pre ++ x.data :: post ∧
      x.place = { path := g.file, offset := (segmentBytes cx pre).length } := by
  obtain ⟨g, hg, hx⟩ := List.mem_flatMap.mp (List.mem_filter.mp hx).1
  obtain ⟨pre, post, hrecords, hplace⟩ := mem_placedFrom hx
  rw [Nat.zero_add] at hplace
  exact ⟨g, hg, pre, post, hrecords, hplace⟩

theorem HistoryInv.placed_eq_kept {h : History} {segs : List Segment} (hinv : HistoryInv cx h segs) :
    placedEvents cx segs = h.kept :=
  hinv.placed

/-- An event in a file was accepted and put there. -/
theorem HistoryInv.accepted_of_record {h : History} {segs : List Segment}
    (hinv : HistoryInv cx h segs) {g : Segment} (hg : g ∈ segs) {r : EventData}
    (hr : r ∈ g.records) (hgtid : r.gtid ≠ []) :
    ∃ x ∈ h.accepted, x.data = r ∧ x.place.path = g.file := by
  obtain ⟨x, hx, hdata, hpath⟩ := @exists_placed cx segs g hg r hr hgtid
  rw [hinv.placed_eq_kept] at hx
  exact ⟨x, (History.mem_kept.mp hx).1, hdata, hpath⟩

/-- Lookups leave the index. -/
theorem IndexInv.looked {names : Bytes → Prop} {h : History} (hi : IndexInv h) {s' : EventStorage}
    (hl : Looked names h.store s') : IndexInv { h with store := s' } where
  canonical := hi.canonical
  distinct := hi.distinct
  sound := by
    rw [hl.index]
    exact hi.sound
  complete := by
    rw [hl.index]
    exact hi.complete

/-- Deletion removes the entries of the events in the removed files and no others. -/
theorem IndexInv.deleted {names : Bytes → Prop} {h : History} {segs : List Segment}
    (hi : IndexInv h) (hinv : HistoryInv cx h segs) {s' : EventStorage} {files : List Bytes}
    (hd : Deleted cx names h.store s' segs files) :
    IndexInv { h with store := s', deleted := h.deleted ++ files } := by
  have hkept : ∀ x, x ∈ History.kept { h with store := s', deleted := h.deleted ++ files } ↔
      x ∈ h.kept ∧ x.place.path ∉ files := by
    intro x
    simp only [History.mem_kept, List.mem_append, not_or, and_assoc]
  refine ⟨hi.canonical, hi.distinct, ?_, ?_⟩
  · intro e he
    obtain ⟨he, hdrop⟩ := (hd.index e).mp he
    rcases hi.sound e he with huuid | ⟨x, hx, rfl⟩
    · exact .inl huuid
    · refine .inr ⟨x, (hkept x).mpr ⟨hx, ?_⟩, rfl⟩
      -- Otherwise the entry of the event would have been dropped with its file.
      intro hfile
      rw [← hinv.placed_eq_kept] at hx
      obtain ⟨g, hg, pre, post, hrecords, hplace⟩ := placed_segment hx
      have hgtid : x.data.gtid ≠ [] := by simpa using (List.mem_filter.mp hx).2
      have hmem : x.data ∈ g.records := by
        rw [hrecords]
        simp
      rw [hplace] at hfile
      exact hdrop g hg hfile x.data hmem hgtid rfl
  · intro x hx
    obtain ⟨hx, hfile⟩ := (hkept x).mp hx
    refine (hd.index _).mpr ⟨hi.complete x hx, ?_⟩
    intro g hg hgfile r hr hgtid hrank
    obtain ⟨y, hy, rfl, hpath⟩ := @exists_placed cx segs g hg r hr hgtid
    rw [hinv.placed_eq_kept] at hy
    have hxy := hi.eq_of_gtidRank_eq (History.mem_kept.mp hx).1 (History.mem_kept.mp hy).1 hrank
    rw [hxy, hpath] at hfile
    exact hfile hgfile

/-- What an addition leaves in the index. -/
theorem AddFrame.mem_index_of {s s' : EventStorage} {gtid : Bytes} {data : EventData}
    {place : Storage} (h : AddFrame s s' gtid data place) {e : Bytes × IndexValue}
    (he : e = (gtid, .info (dataInfo place data)) ∨
      (e ∈ s.index.entries ∧ gtidRank e.1 ≠ gtidRank gtid))
    (hkey : gtidRank e.1 ≠ gtidRank getKeyForUUID) : e ∈ s'.index.entries := by
  have hinsert : e ∈ (s.index.insert gtid (.info (dataInfo place data))).entries :=
    SortedMap.mem_insert.mpr he
  rcases h.index with hindex | hindex
  · rw [hindex]
    exact hinsert
  · rw [hindex, flushEventUUIDInfo]
    split
    · exact hinsert
    · exact SortedMap.mem_insert.mpr (.inr ⟨hinsert, hkey⟩)

/-- An addition of a new canonical GTID adds its entry. -/
theorem IndexInv.added {h : History} {segs : List Segment} (hi : IndexInv h)
    (hinv : HistoryInv cx h segs) {data : EventData} (hcanon : Canonical data.gtid)
    (hnew : data.gtid ∉ h.accepted.map (fun x => x.data.gtid)) {s' : EventStorage}
    (hframe : AddFrame h.store s' data.gtid data h.store.manager.writer) :
    IndexInv { h with
      store := s'
      accepted := h.accepted ++ [{ place := h.store.manager.writer, data := data }] } := by
  have hkept : History.kept { h with
      store := s'
      accepted := h.accepted ++ [{ place := h.store.manager.writer, data := data }] } =
        h.kept ++ [{ place := h.store.manager.writer, data := data }] := by
    simp only [History.kept, List.filter_append]
    rw [List.filter_cons_of_pos (by simpa using hinv.writer_not_deleted), List.filter_nil]
  -- The comparison of the index is exact on canonical GTIDs, so the new entry replaces none.
  have hne : ∀ x ∈ h.accepted, gtidRank x.data.gtid ≠ gtidRank data.gtid := by
    intro x hx hrank
    apply hnew
    rw [← (hi.canonical x hx).eq_of_gtidRank_eq hcanon hrank]
    exact List.mem_map_of_mem hx
  refine ⟨?_, ?_, ?_, ?_⟩
  · intro x hx
    rcases List.mem_append.mp hx with hx | hx
    · exact hi.canonical x hx
    · rw [List.mem_singleton.mp hx]
      exact hcanon
  · rw [List.map_append, List.nodup_append]
    refine ⟨hi.distinct, List.nodup_singleton _, ?_⟩
    rintro a ha b hb rfl
    simp only [List.map_cons, List.map_nil, List.mem_singleton] at hb
    exact hnew (hb ▸ ha)
  · intro e he
    rw [hkept]
    rcases hframe.mem_index he with rfl | ⟨he, -⟩ | huuid
    · exact .inr ⟨_, List.mem_append_right _ (List.mem_singleton_self _), rfl⟩
    · rcases hi.sound e he with huuid | ⟨x, hx, rfl⟩
      · exact .inl huuid
      · exact .inr ⟨x, List.mem_append_left _ hx, rfl⟩
    · exact .inl huuid
  · intro x hx
    rw [hkept] at hx
    rcases List.mem_append.mp hx with hx | hx
    · have hacc := (History.mem_kept.mp hx).1
      exact hframe.mem_index_of (.inr ⟨hi.complete x hx, hne x hacc⟩)
        (gtidRank_ne_key (hi.canonical x hacc))
    · rw [List.mem_singleton.mp hx]
      exact hframe.mem_index_of (.inl rfl) (gtidRank_ne_key hcanon)

theorem IndexInv.stepped {h h' : History} {segs segs' : List Segment} (hi : IndexInv h)
    (hinv : HistoryInv cx h segs) {a : StoreAction} (ha : NewCanonical cx h a)
    (hs : Stepped cx h segs a h' segs') : IndexInv h' := by
  cases hs with
  | rejected => exact hi
  | looked hl => exact hi.looked hl
  | deleted hd => exact hi.deleted hinv hd
  | added hid hframe hrep happ => exact hi.added hinv ha.1 ha.2.1 hframe

theorem indexInv_empty : IndexInv {} where
  canonical := by simp
  distinct := List.nodup_nil
  sound := by
    intro e he
    cases he
  complete := by
    intro x hx
    cases hx

theorem indexInv_of_reachable {h : History}
    (hr : Transition.ReachableBy (historySystem cx) (NewCanonical cx) h) :
    ∃ segs, HistoryInv cx h segs ∧ IndexInv h := by
  apply historyInv_of_reachable (fun _ _ ha => addable_of_newCanonical ha) indexInv_empty _ hr
  intro h h' segs segs' a hinv hi ha hs
  exact hi.stepped hinv ha hs

/-! ## The four structures -/

/-- The index has an entry for a kept event, and reading at its place gives the event. -/
theorem IndexInv.read {h : History} {segs : List Segment} (hi : IndexInv h)
    (hinv : HistoryInv cx h segs) {x : AcceptedEvent} (hx : x ∈ h.kept) :
    h.store.index.find? x.data.gtid = some (.info x.info) ∧
      x.info.fileName ∈ h.store.manager.fileList.keys ∧
      (readEventFromFile cx h.store.disk
        { reader := { path := x.info.fileName, offset := x.info.offset } }).ret = .ok ∧
      (readEventFromFile cx h.store.disk
        { reader := { path := x.info.fileName, offset := x.info.offset } }).data = x.data := by
  have hfind : h.store.index.find? x.data.gtid = some (.info x.info) :=
    SortedMap.find?_eq_some_iff.mpr ⟨_, hi.complete x hx, rfl⟩
  rw [← hinv.placed_eq_kept] at hx
  obtain ⟨g, hg, pre, post, hrecords, hplace⟩ := placed_segment hx
  have hpath : x.info.fileName = g.file := by
    rw [AcceptedEvent.info, hplace]
    rfl
  have hoffset : x.info.offset = (segmentBytes cx pre).length := by
    rw [AcceptedEvent.info, hplace]
    rfl
  have hser : (cx.eventData.serialize x.data).isSome = true := by
    apply hinv.rep.files.serialized g hg
    rw [hrecords]
    simp
  have hc : content h.store.disk g.file = segmentBytes cx (pre ++ x.data :: post) := by
    rw [hinv.rep.files.content_eq hg, hrecords]
  refine ⟨hfind, ?_, ?_⟩
  · rw [hpath, hinv.rep.files.keys]
    exact List.mem_map_of_mem hg
  · rw [hpath, hoffset]
    simp only [readEventFromFile, readNext_of_place hc, parseRead, parse_recordBytes hser]
    exact ⟨trivial, trivial⟩

/-- The index has no entry for an event of a removed file. -/
theorem IndexInv.find?_deleted {h : History} (hi : IndexInv h) {x : AcceptedEvent}
    (hx : x ∈ h.accepted) (hdel : x.place.path ∈ h.deleted) :
    h.store.index.find? x.data.gtid = none := by
  rw [SortedMap.find?_eq_none_iff]
  intro e he hrank
  rcases hi.sound e he with ⟨l, rfl⟩ | ⟨y, hy, rfl⟩
  · exact gtidRank_ne_key (hi.canonical x hx) hrank.symm
  · obtain ⟨hyacc, hykept⟩ := History.mem_kept.mp hy
    rw [hi.eq_of_gtidRank_eq hyacc hx hrank] at hykept
    exact hykept hdel

/-- A file named after an id holds only events with larger ids. -/
theorem HistoryInv.lt_of_mem_fileRecords {h : History} {segs : List Segment}
    (hinv : HistoryInv cx h segs) {n : Nat} (hn : genFileName n ∈ h.store.manager.fileList.keys)
    {r : EventData} (hr : r ∈ fileRecords cx h.store.disk (genFileName n)) (hgtid : r.gtid ≠ []) :
    n < r.instanceId := by
  rw [hinv.rep.files.keys] at hn
  obtain ⟨g, hg, hfile⟩ := List.mem_map.mp hn
  rw [← hfile, hinv.rep.files.fileRecords_eq hg] at hr
  obtain ⟨x, hx, rfl, hpath⟩ := @exists_placed cx segs g hg r hr hgtid
  rw [hinv.placed_eq_kept] at hx
  exact hinv.above x (History.mem_kept.mp hx).1 n (hpath.trans hfile)

/-- In every run with distinct canonical GTIDs the files hold the kept events in the order of
acceptance, the index has their places and nothing of removed files, the UUID table and the newest
event are those of the accepted events, and a file holds only events after the id in its name. -/
theorem store_representation (cx : Codecs) (h : History)
    (hr : Transition.ReachableBy (historySystem cx) (NewCanonical cx) h) :
    storedEvents cx h.store = h.kept.map AcceptedEvent.data ∧
      (∀ x ∈ h.kept, ∃ info, h.store.index.find? x.data.gtid = some (.info info) ∧
        info.fileName ∈ h.store.manager.fileList.keys ∧
        (readEventFromFile cx h.store.disk
          { reader := { path := info.fileName, offset := info.offset } }).ret = .ok ∧
        (readEventFromFile cx h.store.disk
          { reader := { path := info.fileName, offset := info.offset } }).data = x.data) ∧
      (∀ x ∈ h.accepted, x.place.path ∈ h.deleted →
        h.store.index.find? x.data.gtid = none) ∧
      (∀ uuid, h.store.uuidHandler.mapUuid.find? uuid =
        (h.accepted.filter fun x => getUUIDByGTID x.data.gtid = uuid).getLast?.map
          AcceptedEvent.info) ∧
      h.store.uuidHandler.newestInfo = h.accepted.getLast?.elim {} AcceptedEvent.info ∧
      (∀ n, genFileName n ∈ h.store.manager.fileList.keys →
        ∀ r ∈ fileRecords cx h.store.disk (genFileName n), r.gtid ≠ [] → n < r.instanceId) := by
  obtain ⟨segs, hinv, hi⟩ := indexInv_of_reachable hr
  refine ⟨?_, ?_, ?_, hinv.uuid, hinv.newest, ?_⟩
  · rw [hinv.rep.files.storedEvents_eq, ← map_data_placedEvents, hinv.placed_eq_kept]
  · intro x hx
    exact ⟨x.info, hi.read hinv hx⟩
  · intro x hx hdel
    exact hi.find?_deleted hx hdel
  · intro n hn r hr' hgtid
    exact hinv.lt_of_mem_fileRecords hn hr' hgtid

/-! ### A run with file switches and a deletion -/

/-- A binlog event that carries a GTID. -/
def gtidEvent (sid : Bytes) (gno : Nat) : Bytes :=
  [0, 0, 0, 0, 33, 1, 0, 0, 0, 44, 0, 0, 0, 0, 0, 0, 0, 0, 0, 0] ++ sid ++ leBytes 8 gno

def sampleSid : Bytes := List.replicate 16 170

def sampleGtid (n : Nat) : Bytes :=
  genGTID (genUUID sampleSid) n

def sampleEvent (n : Nat) : EventData :=
  { gtid := sampleGtid n, data := gtidEvent sampleSid n, checksum := n, instanceId := n }

/-- With a file size of 0 every event ends its file. -/
def sampleAdd (n : Nat) : StoreAction :=
  .addEvent 0 {} (sampleEvent n)

def sampleDelete (n : Nat) : StoreAction :=
  .makeCheckPoint [sampleGtid n] 10 0 fun _ => 0

/-- Three events in three files, and a checkpoint in the second file. -/
def sampleRun : List StoreAction :=
  [sampleAdd 1, sampleAdd 2, sampleAdd 3, sampleDelete 2]

def sampleHistory : History :=
  sampleRun.foldl (historyStep wireCodecs) {}

theorem canonical_sampleGtid {n : Nat} (hn : n < 2 ^ 64) : Canonical (sampleGtid n) :=
  ⟨sampleSid, n, rfl, hn, rfl⟩

theorem sampleRun_reachable :
    Transition.ReachableBy (historySystem wireCodecs) (NewCanonical wireCodecs) sampleHistory := by
  have h₁ := Transition.ReachableBy.init.step
    (show NewCanonical wireCodecs (historySystem wireCodecs).init (sampleAdd 1) from
      ⟨canonical_sampleGtid (by decide), by decide, by decide, by decide⟩) rfl
  have h₂ := h₁.step (show NewCanonical wireCodecs _ (sampleAdd 2) from
    ⟨canonical_sampleGtid (by decide), by decide, by decide, by decide⟩) rfl
  have h₃ := h₂.step (show NewCanonical wireCodecs _ (sampleAdd 3) from
    ⟨canonical_sampleGtid (by decide), by decide, by decide, by decide⟩) rfl
  exact h₃.step (show NewCanonical wireCodecs _ (sampleDelete 2) from trivial) rfl

theorem store_representation_sampleRun :
    sampleHistory.deleted = [genFileName 0] ∧
      storedEvents wireCodecs sampleHistory.store =
        sampleHistory.kept.map AcceptedEvent.data :=
  ⟨by decide +kernel, (store_representation wireCodecs sampleHistory sampleRun_reachable).1⟩

end PhxSql.Store
