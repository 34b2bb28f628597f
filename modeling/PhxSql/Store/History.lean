import PhxSql.Lib.Transition
import PhxSql.Store.Deletion

/-!
# Runs of the event store

A store together with its history: the events it has accepted, each with the place it was written
at, and the files that checkpoint deletion has removed. `historySystem` runs any sequence of
additions, checkpoint deletions, lookups and repositionings from the empty directory. `HistoryInv`
says that the files hold exactly the accepted events that were not in a removed file, that the UUID
table is made of the accepted events, and that nothing names a file newer than the newest one.
-/

set_option autoImplicit false

namespace PhxSql.Store

open PhxSql.Proto PhxSql.Lib PhxSql.Gtid

/-! ## Placed events -/

/-- An event and the place it was written at. -/
structure AcceptedEvent where
  place : Storage
  data : EventData
  deriving DecidableEq, Repr

/-- The place of an event as the index and the UUID table keep it. -/
def AcceptedEvent.info (x : AcceptedEvent) : EventDataInfo :=
  dataInfo x.place x.data

section Placed

variable (cx : Codecs)

/-- Records of a file from an offset on, with their places. -/
def placedFrom (file : Bytes) : Nat → List EventData → List AcceptedEvent
  | _, [] => []
  | offset, r :: rs =>
    { place := { path := file, offset := offset }, data := r } ::
      placedFrom file (offset + (frame (recordBytes cx r)).length) rs

/-- The events of the segments with their places. -/
def placedEvents (segs : List Segment) : List AcceptedEvent :=
  (segs.flatMap fun g => placedFrom cx g.file 0 g.records).filter fun x => x.data.gtid ≠ []

variable {cx}

theorem placedFrom_append (file : Bytes) (rs rs' : List EventData) :
    ∀ offset, placedFrom cx file offset (rs ++ rs') =
      placedFrom cx file offset rs ++
        placedFrom cx file (offset + (segmentBytes cx rs).length) rs' := by
  induction rs with
  | nil =>
    intro offset
    rfl
  | cons r rs ih =>
    intro offset
    simp only [List.cons_append, placedFrom, ih, segmentBytes_cons, List.length_append,
      Nat.add_assoc]

theorem mem_placedFrom {file : Bytes} {rs : List EventData} {x : AcceptedEvent} :
    ∀ {offset : Nat}, x ∈ placedFrom cx file offset rs →
      ∃ pre post, rs = pre ++ x.data :: post ∧
        x.place = { path := file, offset := offset + (segmentBytes cx pre).length } := by
  induction rs with
  | nil =>
    intro offset hx
    cases hx
  | cons r rs ih =>
    intro offset hx
    rcases List.mem_cons.mp hx with rfl | hx
    · exact ⟨[], rs, rfl, rfl⟩
    · obtain ⟨pre, post, hrs, hplace⟩ := ih hx
      refine ⟨r :: pre, post, by rw [hrs]; rfl, ?_⟩
      rw [hplace, segmentBytes_cons, List.length_append, Nat.add_assoc]

theorem map_data_placedFrom (file : Bytes) (rs : List EventData) :
    ∀ offset, (placedFrom cx file offset rs).map AcceptedEvent.data = rs := by
  induction rs with
  | nil =>
    intro offset
    rfl
  | cons r rs ih =>
    intro offset
    simp only [placedFrom, List.map_cons, ih]

theorem path_of_mem_placedFrom {file : Bytes} {rs : List EventData} {x : AcceptedEvent}
    {offset : Nat} (h : x ∈ placedFrom cx file offset rs) : x.place.path = file := by
  obtain ⟨pre, post, -, hplace⟩ := mem_placedFrom h
  rw [hplace]

@[simp] theorem placedEvents_append (segs segs' : List Segment) :
    placedEvents cx (segs ++ segs') = placedEvents cx segs ++ placedEvents cx segs' := by
  simp [placedEvents]

/-- The events of the segments without their places. -/
theorem map_data_placedEvents (segs : List Segment) :
    (placedEvents cx segs).map AcceptedEvent.data = eventsOf segs := by
  induction segs with
  | nil => rfl
  | cons g segs ih =>
    have hg : (placedEvents cx [g]).map AcceptedEvent.data = eventsOf [g] := by
      have hdata := @map_data_placedFrom cx g.file g.records 0
      simp only [placedEvents, eventsOf, List.flatMap_cons, List.flatMap_nil, List.append_nil]
      rw [← hdata, List.filter_map]
      simp only [hdata]
      rfl
    rw [← List.singleton_append, placedEvents_append, eventsOf_append, List.map_append, hg, ih]

/-- Removing the segments of some files removes the events placed there. -/
theorem placedEvents_filter (files : List Bytes) (segs : List Segment) :
    placedEvents cx (segs.filter fun g => g.file ∉ files) =
      (placedEvents cx segs).filter fun x => x.place.path ∉ files := by
  induction segs with
  | nil => rfl
  | cons g segs ih =>
    have hpath : ∀ x ∈ placedEvents cx [g], x.place.path = g.file := by
      intro x hx
      simp only [placedEvents, List.flatMap_cons, List.flatMap_nil, List.append_nil] at hx
      exact path_of_mem_placedFrom (List.mem_filter.mp hx).1
    have hcons : placedEvents cx (g :: segs) = placedEvents cx [g] ++ placedEvents cx segs :=
      placedEvents_append [g] segs
    rw [hcons, List.filter_append, ← ih]
    by_cases hg : g.file ∈ files
    · have hnone : (placedEvents cx [g]).filter (fun x => x.place.path ∉ files) = [] := by
        rw [List.filter_eq_nil_iff]
        intro x hx
        simpa [hpath x hx] using hg
      rw [hnone, List.filter_cons_of_neg (by simpa using hg), List.nil_append]
    · have hall : (placedEvents cx [g]).filter (fun x => x.place.path ∉ files) =
          placedEvents cx [g] := by
        rw [List.filter_eq_self]
        intro x hx
        simpa [hpath x hx] using hg
      rw [hall, List.filter_cons_of_pos (by simpa using hg)]
      exact placedEvents_append [g] _

theorem placedEvents_singleton_add {g : Segment} {r : EventData}
    (hser : (cx.eventData.serialize r).isSome = true) (hgtid : r.gtid ≠ []) :
    placedEvents cx [g.add cx r] =
      placedEvents cx [g] ++ [{ place := g.endPos cx, data := r }] := by
  have hadd : g.add cx r = { g with records := g.records ++ [r] } := by
    simp [Segment.add, hser]
  rw [hadd]
  simp [placedEvents, placedFrom_append, placedFrom, hgtid, Segment.endPos, Segment.file]

theorem placedEvents_singleton_header {g : Segment} {r : EventData} (hgtid : r.gtid = []) :
    placedEvents cx [g.add cx r] = placedEvents cx [g] := by
  unfold Segment.add
  split
  · simp [placedEvents, placedFrom_append, placedFrom, hgtid, Segment.file]
  · rfl

/-- An added event is placed at the end of the last segment. -/
theorem Appended.placedEvents_eq {data : EventData} {segs segs' : List Segment}
    (h : Appended cx data segs segs') (hser : (cx.eventData.serialize data).isSome = true)
    (hgtid : data.gtid ≠ []) {g : Segment} (hlast : segs.getLast? = some g) :
    placedEvents cx segs' =
      placedEvents cx segs ++ [{ place := g.endPos cx, data := data }] := by
  have hnew : ∀ id, placedEvents cx [({ id := id } : Segment)] = [] := fun id => rfl
  cases h with
  | plain segs g' =>
    rw [List.getLast?_concat] at hlast
    cases hlast
    rw [placedEvents_append, placedEvents_append, placedEvents_singleton_add hser hgtid,
      List.append_assoc]
  | switched segs g' header hheader =>
    rw [List.getLast?_concat] at hlast
    cases hlast
    rw [placedEvents_append, placedEvents_append, placedEvents_append,
      placedEvents_singleton_header hheader, placedEvents_singleton_header hheader, hnew,
      placedEvents_singleton_add hser hgtid, List.append_nil, List.append_assoc]

end Placed

/-! ## Runs -/

/-- A store and its history. -/
structure History where
  store : EventStorage := emptyStorage
  accepted : List AcceptedEvent := []
  deleted : List Bytes := []

/-- The operations on a store. `getGTIDInfo` is `GetGTIDInfo` with `lower_bound`; a sign-up is a
`getLastGtid` followed by a `reSet`. -/
inductive StoreAction
  | addEvent (maxSize : Nat) (master : MasterInfo) (data : EventData)
  | makeCheckPoint (gtids : List Bytes) (maxNum minTime : Nat) (fileTime : Bytes → Nat)
  | getGTIDInfo (gtid : Bytes)
  | getLastGtid (gtids : List Bytes)
  | reSet (gtid : Bytes)

/-- The GTIDs an operation looks up. -/
def StoreAction.lookups : StoreAction → List Bytes
  | .addEvent .. => []
  | .makeCheckPoint gtids .. => gtids
  | .getGTIDInfo gtid => [gtid]
  | .getLastGtid gtids => gtids
  | .reSet gtid => [gtid]

variable (cx : Codecs)

def historyStep (h : History) : StoreAction → History
  | .addEvent maxSize master data =>
    let added := addEvent cx maxSize master h.store data.gtid data true
    { h with
      store := added.2
      accepted := if added.1 = .ok then
          h.accepted ++ [{ place := h.store.manager.writer, data := data }]
        else h.accepted }
  | .makeCheckPoint gtids maxNum minTime fileTime =>
    let made := realMakeCheckPoint cx gtids maxNum minTime fileTime h.store
    { h with store := made.2, deleted := h.deleted ++ made.1 }
  | .getGTIDInfo gtid => { h with store := (getLowerBoundGTIDInfo cx h.store gtid).2.2 }
  | .getLastGtid gtids => { h with store := (getLastGtid cx h.store gtids).2.2 }
  | .reSet gtid => { h with store := (reSet h.store gtid).2 }

def historySystem : Transition.System History StoreAction where
  init := {}
  step h a := some (historyStep cx h a)

/-- What the state machine ensures about an event it adds, and that protobuf serialises it. -/
def Addable : StoreAction → Prop
  | .addEvent _ _ data =>
    data.gtid ≠ [] ∧ data.instanceId < 2 ^ 64 ∧ (cx.eventData.serialize data).isSome = true
  | _ => True

variable {cx}

/-! ## The invariant -/

variable (cx) in
/-- What holds of a store and its history in every run. -/
structure HistoryInv (h : History) (segs : List Segment) : Prop where
  rep : StoreRep cx h.store segs
  placed : placedEvents cx segs = h.accepted.filter fun x => x.place.path ∉ h.deleted
  uuid : ∀ uuid, h.store.uuidHandler.mapUuid.find? uuid =
    (h.accepted.filter fun x => getUUIDByGTID x.data.gtid = uuid).getLast?.map AcceptedEvent.info
  newest : h.store.uuidHandler.newestInfo = h.accepted.getLast?.elim {} AcceptedEvent.info
  indexed : ∀ e ∈ h.store.index.entries, ∀ i, e.2 = .info i → KnownFile segs i.fileName
  known : ∀ x ∈ h.accepted, KnownFile segs x.place.path
  above : ∀ x ∈ h.accepted, ∀ n, x.place.path = genFileName n → n < x.data.instanceId
  gtids : ∀ x ∈ h.accepted, x.data.gtid ≠ []
  ids : h.accepted.Pairwise fun x y => x.data.instanceId < y.data.instanceId
  removed : ∀ f ∈ h.deleted, ∃ n, f = genFileName n ∧ ∃ g ∈ segs, n < g.id
  listed : ∀ g ∈ segs, g.file ∉ h.deleted
  first : ∀ x, h.accepted.head? = some x → x.place.path = genFileName 0
  fresh : h.accepted = [] → h.store.manager.writer.path = genFileName 0

theorem KnownFile.mono {segs segs' : List Segment}
    (h : ∀ g ∈ segs, ∃ g' ∈ segs', g.id ≤ g'.id) {f : Bytes} (hf : KnownFile segs f) :
    KnownFile segs' f := by
  obtain ⟨n, rfl, g, hg, hle⟩ := hf
  obtain ⟨g', hg', hle'⟩ := h g hg
  exact ⟨n, rfl, g', hg', Nat.le_trans hle hle'⟩

/-- Adding an event keeps the ids of the segments. -/
theorem Appended.ids_le {data : EventData} {segs segs' : List Segment}
    (h : Appended cx data segs segs') : ∀ g ∈ segs, ∃ g' ∈ segs', g.id ≤ g'.id := by
  intro g hg
  cases h with
  | plain segs g₀ =>
    rcases List.mem_append.mp hg with hg | hg
    · exact ⟨g, List.mem_append_left _ hg, Nat.le_refl _⟩
    · rw [List.mem_singleton.mp hg]
      exact ⟨g₀.add cx data, by simp, by simp⟩
  | switched segs g₀ header _ =>
    rcases List.mem_append.mp hg with hg | hg
    · exact ⟨g, by simp [hg], Nat.le_refl _⟩
    · rw [List.mem_singleton.mp hg]
      exact ⟨(g₀.add cx data).add cx header, by simp, by simp⟩

/-- The ids of the segments after an addition. -/
theorem Appended.mem_ids {data : EventData} {segs segs' : List Segment}
    (h : Appended cx data segs segs') {g' : Segment} (hg' : g' ∈ segs') :
    (∃ g ∈ segs, g'.id = g.id) ∨ g'.id = data.instanceId := by
  cases h with
  | plain segs g₀ =>
    rcases List.mem_append.mp hg' with hg' | hg'
    · exact .inl ⟨g', List.mem_append_left _ hg', rfl⟩
    · rw [List.mem_singleton.mp hg']
      exact .inl ⟨g₀, by simp, by simp⟩
  | switched segs g₀ header _ =>
    rcases List.mem_append.mp hg' with hg' | hg'
    · rcases List.mem_append.mp hg' with hg' | hg'
      · exact .inl ⟨g', List.mem_append_left _ hg', rfl⟩
      · rw [List.mem_singleton.mp hg']
        exact .inl ⟨g₀, by simp, by simp⟩
    · rw [List.mem_singleton.mp hg']
      exact .inr (by simp)

/-- Deletion keeps the last segment, which has the largest id. -/
theorem Deleted.ids_le {names : Bytes → Prop} {s s' : EventStorage} {segs : List Segment}
    {files : List Bytes} (hrep : StoreRep cx s segs) (h : Deleted cx names s s' segs files) :
    ∀ g ∈ segs, ∃ g' ∈ segs.filter (fun g => g.file ∉ files), g.id ≤ g'.id := by
  intro g hg
  cases hlast : segs.getLast? with
  | none =>
    rw [List.getLast?_eq_none_iff.mp hlast] at hg
    cases hg
  | some g' =>
    refine ⟨g', List.mem_filter.mpr ⟨List.mem_of_getLast? hlast, ?_⟩, hrep.files.le_getLast? hlast hg⟩
    simpa using h.last g' hlast

/-- A place that a lookup finds comes from the UUID table or the index. -/
theorem Found.cases {s : EventStorage} {gtid f : Bytes} (h : Found s gtid f) :
    (∃ info, s.uuidHandler.mapUuid.find? (getUUIDByGTID gtid) = some info ∧ info.gtid = gtid ∧
      info.fileName = f) ∨
    ∃ e ∈ s.index.entries, ∃ info, e.2 = .info info ∧ info.fileName = f := by
  obtain ⟨info, hfound, rfl⟩ := h
  rcases realGetGTIDInfo_ok hfound with ⟨huuid, hgtid⟩ | ⟨e, he, hval⟩
  · exact .inl ⟨info, huuid, hgtid, rfl⟩
  · exact .inr ⟨e, he, info, hval, rfl⟩

/-- Lookups find known files only. -/
theorem HistoryInv.known_of_found {h : History} {segs : List Segment} (hinv : HistoryInv cx h segs)
    {gtid f : Bytes} (hf : Found h.store gtid f) : KnownFile segs f := by
  rcases hf.cases with ⟨info, hinfo, -, rfl⟩ | ⟨e, he, info, hval, rfl⟩
  · rw [hinv.uuid, Option.map_eq_some_iff] at hinfo
    obtain ⟨x, hx, rfl⟩ := hinfo
    exact hinv.known x (List.mem_filter.mp (List.mem_of_getLast? hx)).1
  · exact hinv.indexed e he info hval

/-- Lookups keep the invariant. -/
theorem HistoryInv.looked {names : Bytes → Prop} {h : History} {segs : List Segment}
    (hinv : HistoryInv cx h segs) (hnames : ∀ f, names f → FileName f) {s' : EventStorage}
    (hl : Looked names h.store s') : HistoryInv cx { h with store := s' } segs where
  rep := hinv.rep.looked hnames hl
  placed := hinv.placed
  uuid := by
    rw [hl.uuidHandler]
    exact hinv.uuid
  newest := by
    rw [hl.uuidHandler]
    exact hinv.newest
  indexed := by
    rw [hl.index]
    exact hinv.indexed
  known := hinv.known
  above := hinv.above
  gtids := hinv.gtids
  ids := hinv.ids
  removed := hinv.removed
  listed := hinv.listed
  first := hinv.first
  fresh := by
    rw [hl.writer]
    exact hinv.fresh

/-- Checkpoint deletion keeps the invariant. -/
theorem HistoryInv.deleted {names : Bytes → Prop} {h : History} {segs : List Segment}
    (hinv : HistoryInv cx h segs) {s' : EventStorage} {files : List Bytes}
    (hd : Deleted cx names h.store s' segs files) :
    HistoryInv cx { h with store := s', deleted := h.deleted ++ files }
      (segs.filter fun g => g.file ∉ files) := by
  have hle := hd.ids_le hinv.rep
  refine {
    rep := hd.rep, placed := ?placed, uuid := ?uuid, newest := ?newest, indexed := ?indexed,
    known := ?known, above := hinv.above, gtids := hinv.gtids, ids := hinv.ids,
    removed := ?removed, listed := ?listed, first := hinv.first, fresh := ?fresh }
  case placed =>
    rw [placedEvents_filter, hinv.placed, List.filter_filter]
    apply List.filter_congr
    intro x _
    by_cases hx : x.place.path ∈ files
    · simp [hx]
    · simp [hx]
  case uuid =>
    rw [hd.uuidHandler]
    exact hinv.uuid
  case newest =>
    rw [hd.uuidHandler]
    exact hinv.newest
  case indexed =>
    intro e he i hi
    exact (hinv.indexed e ((hd.index e).mp he).1 i hi).mono hle
  case known =>
    -- An accepted event stays known when its file is removed: the newest file is kept.
    intro x hx
    exact (hinv.known x hx).mono hle
  case removed =>
    intro f hf
    have hold : ∃ n, f = genFileName n ∧ ∃ g ∈ segs, n < g.id := by
      rcases List.mem_append.mp hf with hf | hf
      · exact hinv.removed f hf
      · exact hd.old f hf
    obtain ⟨n, hfn, g, hg, hlt⟩ := hold
    obtain ⟨g', hg', hle'⟩ := hle g hg
    exact ⟨n, hfn, g', hg', Nat.lt_of_lt_of_le hlt hle'⟩
  case listed =>
    intro g hg hmem
    obtain ⟨hg, hnot⟩ := List.mem_filter.mp hg
    rcases List.mem_append.mp hmem with hmem | hmem
    · exact hinv.listed g hg hmem
    · simp [hmem] at hnot
  case fresh =>
    rw [hd.writer]
    exact hinv.fresh

/-- The segment a store writes to. -/
theorem StoreRep.getLast? {s : EventStorage} {segs : List Segment} (h : StoreRep cx s segs) :
    ∃ g, segs.getLast? = some g ∧ s.manager.writer = g.endPos cx ∧ g.id ≤ s.lastInstanceID := by
  obtain ⟨init, g, rfl, hw, hle⟩ := h.writer
  exact ⟨g, List.getLast?_concat, hw, hle⟩

/-- The ids of accepted events are not above the last one. -/
theorem HistoryInv.le_lastInstanceID {h : History} {segs : List Segment}
    (hinv : HistoryInv cx h segs) {x : AcceptedEvent} (hx : x ∈ h.accepted) :
    x.data.instanceId ≤ h.store.lastInstanceID := by
  have hne : h.accepted ≠ [] := List.ne_nil_of_mem hx
  obtain ⟨y, hy⟩ := Option.isSome_iff_exists.mp (List.getLast?_isSome.mpr hne)
  have hlast : h.store.lastInstanceID = y.data.instanceId := by
    rw [EventStorage.lastInstanceID, hinv.newest, hy]
    rfl
  obtain ⟨init, hinit⟩ := List.getLast?_eq_some_iff.mp hy
  rw [hlast]
  rw [hinit] at hx
  rcases List.mem_append.mp hx with hx | hx
  · have hids := hinv.ids
    rw [hinit] at hids
    exact Nat.le_of_lt ((List.pairwise_append.mp hids).2.2 x hx y (List.mem_singleton_self y))
  · rw [List.mem_singleton.mp hx]

/-- An index entry after an addition is the new one, an old one, or the UUID table. -/
theorem AddFrame.mem_index {s s' : EventStorage} {gtid : Bytes} {data : EventData} {place : Storage}
    (h : AddFrame s s' gtid data place) {e : Bytes × IndexValue} (he : e ∈ s'.index.entries) :
    e = (gtid, .info (dataInfo place data)) ∨
      (e ∈ s.index.entries ∧ gtidRank e.1 ≠ gtidRank gtid) ∨
      ∃ l, e = (getKeyForUUID, .infoList l) := by
  have hinsert : ∀ e ∈ (s.index.insert gtid (.info (dataInfo place data))).entries,
      e = (gtid, .info (dataInfo place data)) ∨
        (e ∈ s.index.entries ∧ gtidRank e.1 ≠ gtidRank gtid) := by
    intro e he
    exact SortedMap.mem_insert.mp he
  rcases h.index with hindex | hindex
  · rw [hindex] at he
    rcases hinsert e he with he | he
    · exact .inl he
    · exact .inr (.inl he)
  · rw [hindex, flushEventUUIDInfo] at he
    split at he
    · rcases hinsert e he with he | he
      · exact .inl he
      · exact .inr (.inl he)
    · rcases SortedMap.mem_insert.mp he with he | ⟨he, -⟩
      · exact .inr (.inr ⟨_, he⟩)
      · rcases hinsert e he with he | he
        · exact .inl he
        · exact .inr (.inl he)

/-- The file that is written to has not been removed. -/
theorem HistoryInv.writer_not_deleted {h : History} {segs : List Segment}
    (hinv : HistoryInv cx h segs) : h.store.manager.writer.path ∉ h.deleted := by
  obtain ⟨g, hlast, hw, -⟩ := hinv.rep.getLast?
  rw [hw]
  exact hinv.listed g (List.mem_of_getLast? hlast)

/-- Adding an event with a larger instance id keeps the invariant. -/
theorem HistoryInv.added {h : History} {segs segs' : List Segment} (hinv : HistoryInv cx h segs)
    {data : EventData} (hgtid : data.gtid ≠ [])
    (hser : (cx.eventData.serialize data).isSome = true)
    (hid : h.store.lastInstanceID < data.instanceId) {s' : EventStorage}
    (hframe : AddFrame h.store s' data.gtid data h.store.manager.writer)
    (hrep : StoreRep cx s' segs') (happ : Appended cx data segs segs') :
    HistoryInv cx
      { h with
        store := s'
        accepted := h.accepted ++ [{ place := h.store.manager.writer, data := data }] } segs' := by
  have hle := happ.ids_le
  obtain ⟨g, hlast, hw, hgle⟩ := hinv.rep.getLast?
  have hg : g ∈ segs := List.mem_of_getLast? hlast
  have hpath : h.store.manager.writer.path = genFileName g.id := by
    rw [hw]
    rfl
  have hnew : KnownFile segs h.store.manager.writer.path := ⟨g.id, hpath, g, hg, Nat.le_refl _⟩
  refine {
    rep := hrep, placed := ?placed, uuid := ?uuid, newest := ?newest, indexed := ?indexed,
    known := ?known, above := ?above, gtids := ?gtids, ids := ?ids, removed := ?removed,
    listed := ?listed, first := ?first, fresh := ?fresh }
  case placed =>
    rw [happ.placedEvents_eq hser hgtid hlast, hinv.placed, ← hw, List.filter_append,
      List.filter_cons_of_pos (by simpa using hinv.writer_not_deleted), List.filter_nil]
  case uuid =>
    -- The table has one entry for a UUID, that of its last accepted event.
    intro uuid
    rw [hframe.uuidHandler, find?_mapUuid_update, List.filter_append]
    by_cases huuid : getUUIDByGTID data.gtid = uuid
    · rw [if_pos huuid, List.filter_cons_of_pos (by simpa using huuid), List.filter_nil,
        List.getLast?_concat]
      rfl
    · rw [if_neg huuid, List.filter_cons_of_neg (by simpa using huuid), List.filter_nil,
        List.append_nil]
      exact hinv.uuid uuid
  case newest =>
    rw [hframe.uuidHandler, List.getLast?_concat]
    rfl
  case indexed =>
    intro e he i hi
    rcases hframe.mem_index he with rfl | ⟨he, -⟩ | ⟨l, rfl⟩
    · cases hi
      exact hnew.mono hle
    · exact (hinv.indexed e he i hi).mono hle
    · cases hi
  case known =>
    intro x hx
    rcases List.mem_append.mp hx with hx | hx
    · exact (hinv.known x hx).mono hle
    · rw [List.mem_singleton.mp hx]
      exact hnew.mono hle
  case above =>
    -- The file that is written to is named by an id not above the last one.
    intro x hx n hn
    rcases List.mem_append.mp hx with hx | hx
    · exact hinv.above x hx n hn
    · rw [List.mem_singleton.mp hx] at hn ⊢
      have hid' := genFileName_inj.mp (hpath.symm.trans hn)
      simp only
      omega
  case gtids =>
    intro x hx
    rcases List.mem_append.mp hx with hx | hx
    · exact hinv.gtids x hx
    · rw [List.mem_singleton.mp hx]
      exact hgtid
  case ids =>
    refine List.pairwise_append.mpr ⟨hinv.ids, List.pairwise_singleton .., ?_⟩
    intro x hx y hy
    rw [List.mem_singleton.mp hy]
    exact Nat.lt_of_le_of_lt (hinv.le_lastInstanceID hx) hid
  case removed =>
    intro f hf
    obtain ⟨n, hn, g', hg', hlt⟩ := hinv.removed f hf
    obtain ⟨g'', hg'', hle''⟩ := hle g' hg'
    exact ⟨n, hn, g'', hg'', Nat.lt_of_lt_of_le hlt hle''⟩
  case listed =>
    intro g' hg' hmem
    -- A new file is named by the id of the event, and every removed file has a smaller id.
    rcases happ.mem_ids hg' with ⟨g'', hg'', hid'⟩ | hid'
    · exact hinv.listed g'' hg'' (by rwa [Segment.file, ← hid'])
    · obtain ⟨n, hn, g'', hg'', hlt⟩ := hinv.removed _ hmem
      have hle'' := hinv.rep.files.le_getLast? hlast hg''
      have hn' : g'.id = n := genFileName_inj.mp hn
      omega
  case first =>
    intro x hx
    cases hacc : h.accepted with
    | nil =>
      rw [hacc] at hx
      cases hx
      exact hinv.fresh hacc
    | cons y ys =>
      rw [hacc] at hx
      exact hinv.first x (hacc ▸ hx)
  case fresh =>
    simp

theorem historyInv_empty : HistoryInv cx {} [{ id := 0 }] where
  rep := storeRep_empty
  placed := rfl
  uuid := fun uuid => rfl
  newest := rfl
  indexed := by
    intro e he
    cases he
  known := by simp
  above := by simp
  gtids := by simp
  ids := .nil
  removed := by simp
  listed := by simp
  first := by simp
  fresh := fun _ => rfl

/-! ## Steps -/

/-- The files a lookup of an operation may open: one it finds, or the oldest listed one. -/
def StoreAction.opens (a : StoreAction) (s : EventStorage) (f : Bytes) : Prop :=
  FoundIn s a.lookups f ∨ f ∈ s.manager.fileList.keys

variable (cx) in
/-- What an operation does to a store with these segments. -/
inductive Stepped (h : History) (segs : List Segment) :
    StoreAction → History → List Segment → Prop
  | rejected (a : StoreAction) : Stepped h segs a h segs
  | looked {a : StoreAction} {s' : EventStorage} (hl : Looked (a.opens h.store) h.store s') :
      Stepped h segs a { h with store := s' } segs
  | deleted {a : StoreAction} {s' : EventStorage} {files : List Bytes}
      (hd : Deleted cx (a.opens h.store) h.store s' segs files) :
      Stepped h segs a { h with store := s', deleted := h.deleted ++ files }
        (segs.filter fun g => g.file ∉ files)
  | added {maxSize : Nat} {master : MasterInfo} {data : EventData} {s' : EventStorage}
      {segs' : List Segment} (hid : h.store.lastInstanceID < data.instanceId)
      (hframe : AddFrame h.store s' data.gtid data h.store.manager.writer)
      (hrep : StoreRep cx s' segs') (happ : Appended cx data segs segs') :
      Stepped h segs (.addEvent maxSize master data)
        { h with
          store := s'
          accepted := h.accepted ++ [{ place := h.store.manager.writer, data := data }] } segs'

theorem Deleted.mono {names names' : Bytes → Prop} (himp : ∀ f, names f → names' f)
    {s s' : EventStorage} {segs : List Segment} {files : List Bytes}
    (h : Deleted cx names s s' segs files) : Deleted cx names' s s' segs files :=
  { h with
    stays := fun f => by
      rcases h.stays f with hf | hf | hf
      · exact .inl hf
      · exact .inr (.inl hf)
      · exact .inr (.inr (himp f hf)) }

theorem stepped_of_step {h : History} {segs : List Segment} (hinv : HistoryInv cx h segs)
    (a : StoreAction) (hok : Addable cx a) :
    ∃ segs', Stepped cx h segs a (historyStep cx h a) segs' := by
  cases a with
  | addEvent maxSize master data =>
    simp only [historyStep]
    by_cases hid : data.instanceId ≤ h.store.lastInstanceID
    · rw [addEvent_of_le hid]
      exact ⟨segs, .rejected _⟩
    · obtain ⟨hret, hframe, segs', hrep, happ⟩ := addEvent_rep hinv.rep (Nat.lt_of_not_le hid)
        hok.2.1 maxSize master data.gtid
      rw [hret, if_pos rfl]
      exact ⟨segs', .added (Nat.lt_of_not_le hid) hframe hrep happ⟩
  | makeCheckPoint gtids maxNum minTime fileTime =>
    have hd := realMakeCheckPoint_deleted hinv.rep (fun gtid f hf => hinv.known_of_found hf) gtids
      maxNum minTime fileTime
    exact ⟨_, .deleted (hd.mono fun f hf => .inl hf)⟩
  | getGTIDInfo gtid =>
    refine ⟨segs, .looked ((getLowerBoundGTIDInfo_looked h.store gtid).mono ?_)⟩
    intro f hf
    exact .inl (foundIn_head [] hf)
  | getLastGtid gtids =>
    exact ⟨segs, .looked ((getLastGtid_looked h.store gtids).mono fun f hf => .inl hf)⟩
  | reSet gtid =>
    refine ⟨segs, .looked ((reSet_looked h.store gtid).mono ?_)⟩
    rintro f (hf | hf)
    · exact .inl (foundIn_head [] hf)
    · exact .inr hf

theorem HistoryInv.fileName_of_opens {h : History} {segs : List Segment}
    (hinv : HistoryInv cx h segs) {a : StoreAction} {f : Bytes} (hf : a.opens h.store f) :
    FileName f := by
  rcases hf with ⟨gtid, -, hf⟩ | hf
  · exact hinv.rep.fileName_of_known (hinv.known_of_found hf)
  · rw [hinv.rep.files.keys] at hf
    obtain ⟨g, hg, rfl⟩ := List.mem_map.mp hf
    exact ⟨g.id, hinv.rep.files.small g hg, rfl⟩

/-- Every operation keeps the invariant. -/
theorem HistoryInv.stepped {h h' : History} {segs segs' : List Segment}
    (hinv : HistoryInv cx h segs) {a : StoreAction} (hok : Addable cx a)
    (hs : Stepped cx h segs a h' segs') : HistoryInv cx h' segs' := by
  cases hs with
  | rejected => exact hinv
  | looked hl => exact hinv.looked (fun f hf => hinv.fileName_of_opens hf) hl
  | deleted hd => exact hinv.deleted hd
  | added hid hframe hrep happ => exact hinv.added hok.1 hok.2.2 hid hframe hrep happ

/-- The invariant rule for runs of the store: what every operation keeps where the invariant holds,
holds with it in every state reached. -/
theorem historyInv_of_reachable {ok : History → StoreAction → Prop}
    (hok : ∀ h a, ok h a → Addable cx a) {Extra : History → Prop} (hinit : Extra {})
    (hstep : ∀ {h h' : History} {segs segs' : List Segment} {a : StoreAction},
      HistoryInv cx h segs → Extra h → ok h a → Stepped cx h segs a h' segs' → Extra h')
    {h : History} (hr : Transition.ReachableBy (historySystem cx) ok h) :
    ∃ segs, HistoryInv cx h segs ∧ Extra h := by
  induction hr with
  | init => exact ⟨_, historyInv_empty, hinit⟩
  | @step h h' a _ ha hs ih =>
    obtain ⟨segs, hinv, hextra⟩ := ih
    cases hs
    obtain ⟨segs', hs⟩ := stepped_of_step hinv a (hok h a ha)
    exact ⟨segs', hinv.stepped (hok h a ha) hs, hstep hinv hextra ha hs⟩

end PhxSql.Store
