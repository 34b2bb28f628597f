import PhxSql.Paxos.ReplicatedLog
import PhxSql.Store.FailingIo
import PhxSql.Store.Reload
import Mathlib.Data.List.Find

/-!
# Memory and headers of a replica in the state of the log

What a replica keeps in memory follows from the log: the master record without its expiry, the
newest event and the last event of every UUID. Executing an instance keeps the two in step whatever
the files are, so this also holds of a process that executes instances again after a crash. The
header of a file holds both parts of the memory, and a process that starts from it has them again.
-/

set_option autoImplicit false

namespace PhxSql.Paxos

open PhxSql.Proto PhxSql.Store PhxSql.Lib PhxSql.Gtid

/-! ## The value an instance saves -/

variable (cx : Codecs)

/-- The value of an instance that passes the checks of `EventExecuter::SMExecute`. -/
def savedValue (e : Entry) (master : MasterInfo) (newest : EventDataInfo) : Option PaxosEventData :=
  match e.sm with
  | .event => (eventVerdict master newest (cx.paxosEventData.parse e.value)).toOption
  | .master => none

/-- The value that a replica hands to `SaveEvents`. -/
def Replica.saved (e : Entry) (r : Replica) : Option PaxosEventData :=
  savedValue cx e r.master r.store.uuidHandler.newestInfo

/-- The value that the log saves unless its instance id is not new. -/
def ReplicatedLog.saved (e : Entry) (l : ReplicatedLog) : Option PaxosEventData :=
  savedValue cx e l.master l.newest

variable {cx}

section Saved

variable {e : Entry} {r : Replica} {l : ReplicatedLog} {data : PaxosEventData}

theorem savedValue_eq_some {master : MasterInfo} {newest : EventDataInfo}
    (h : savedValue cx e master newest = some data) :
    e.sm = .event ∧ eventVerdict master newest (cx.paxosEventData.parse e.value) = .ok data := by
  cases hsm : e.sm with
  | master => simp [savedValue, hsm] at h
  | event =>
    simp only [savedValue, hsm] at h
    cases hv : eventVerdict master newest (cx.paxosEventData.parse e.value) with
    | error code =>
      rw [hv] at h
      cases h
    | ok data' =>
      rw [hv] at h
      cases h
      exact ⟨rfl, rfl⟩

theorem savedValue_eq_none {master : MasterInfo} {newest : EventDataInfo}
    (h : savedValue cx e master newest = none) :
    e.sm = .master ∨ e.sm = .event ∧
      ∃ code, eventVerdict master newest (cx.paxosEventData.parse e.value) = .error code := by
  cases hsm : e.sm with
  | master => exact .inl rfl
  | event =>
    simp only [savedValue, hsm] at h
    cases hv : eventVerdict master newest (cx.paxosEventData.parse e.value) with
    | error code => exact .inr ⟨rfl, code, rfl⟩
    | ok data =>
      rw [hv] at h
      cases h

theorem execute_of_not_saved (h : r.saved cx e = none) (env : LocalEnv) (i : Nat) :
    (execute cx env i e r).2.store = r.store := by
  rcases savedValue_eq_none h with hsm | ⟨hsm, code, hv⟩
  · simp only [execute, hsm]
  · simp only [execute, hsm, eventSMExecute, hv]

theorem execute_of_saved (h : r.saved cx e = some data) (env : LocalEnv) (i : Nat) :
    (execute cx env i e r).2 =
      { r with store := (addEvent cx env.maxEventFileSize r.master r.store data.eventGtid
        (savedEvent e.instanceId.toNat data) true).2 } := by
  obtain ⟨hsm, hv⟩ := savedValue_eq_some h
  simp only [execute, hsm, eventSMExecute, hv]

theorem ReplicatedLog.execute_of_not_saved (h : l.saved cx e = none) :
    (l.execute cx e).2.accepted = l.accepted := by
  rcases savedValue_eq_none h with hsm | ⟨hsm, code, hv⟩
  · simp only [ReplicatedLog.execute, hsm]
  · simp only [ReplicatedLog.execute, hsm, hv]

theorem ReplicatedLog.execute_of_saved (h : l.saved cx e = some data) :
    l.execute cx e = l.save e.instanceId.toNat data := by
  obtain ⟨hsm, hv⟩ := savedValue_eq_some h
  simp only [ReplicatedLog.execute, hsm, hv]

/-- Only a value with a GTID is saved. -/
theorem gtid_ne_nil_of_saved {master : MasterInfo} {newest : EventDataInfo}
    (h : savedValue cx e master newest = some data) : data.eventGtid ≠ [] := by
  obtain ⟨-, hv⟩ := savedValue_eq_some h
  exact (carriesEvent_iff.mp (eventVerdict_ok_iff.mp hv).2.1).2

end Saved

/-! ## The order of the log -/

/-- The accepted events have GTIDs and increasing, positive instance ids. -/
structure Ordered (l : ReplicatedLog) : Prop where
  ids : l.accepted.Pairwise fun x y => x.instanceId < y.instanceId
  positive : ∀ x ∈ l.accepted, 0 < x.instanceId
  gtids : ∀ x ∈ l.accepted, x.gtid ≠ []

/-- The last accepted event of a UUID, without its place. -/
def ReplicatedLog.lastOf (l : ReplicatedLog) (uuid : Bytes) : Option EventDataInfo :=
  (l.accepted.filter fun x => getUUIDByGTID x.gtid = uuid).getLast?.map (dataInfo {})

theorem ordered_empty : Ordered {} :=
  ⟨.nil, by simp, by simp⟩

theorem Ordered.le_newest {l : ReplicatedLog} (h : Ordered l) {x : EventData}
    (hx : x ∈ l.accepted) : x.instanceId ≤ l.newest.instanceId := by
  obtain ⟨master, accepted⟩ := l
  rcases List.eq_nil_or_concat' accepted with rfl | ⟨init, y, rfl⟩
  · cases hx
  · rw [ReplicatedLog.newest_save]
    rcases List.mem_append.mp hx with hx | hx
    · exact ((List.pairwise_append.mp h.ids).2.2 x hx y (List.mem_singleton_self y)).le
    · rw [List.mem_singleton.mp hx]
      exact Nat.le_refl _

/-- Saving an event keeps the order. -/
theorem Ordered.add {l : ReplicatedLog} (h : Ordered l) {x : EventData} (hgtid : x.gtid ≠ [])
    (hid : l.newest.instanceId < x.instanceId) :
    Ordered { l with accepted := l.accepted ++ [x] } := by
  refine ⟨?_, ?_, ?_⟩
  · refine List.pairwise_append.mpr ⟨h.ids, List.pairwise_singleton .., ?_⟩
    intro y hy z hz
    rw [List.mem_singleton.mp hz]
    exact Nat.lt_of_le_of_lt (h.le_newest hy) hid
  · intro y hy
    rcases List.mem_append.mp hy with hy | hy
    · exact h.positive y hy
    · rw [List.mem_singleton.mp hy]
      exact Nat.zero_lt_of_lt hid
  · intro y hy
    rcases List.mem_append.mp hy with hy | hy
    · exact h.gtids y hy
    · rw [List.mem_singleton.mp hy]
      exact hgtid

/-- What an instance does to the log: it leaves the accepted events or adds one. -/
theorem ReplicatedLog.execute_cases (e : Entry) (l : ReplicatedLog) :
    (l.execute cx e).2.accepted = l.accepted ∨
      ∃ data, l.saved cx e = some data ∧ l.newest.instanceId < e.instanceId.toNat ∧
        (l.execute cx e).2 =
          { l with accepted := l.accepted ++ [savedEvent e.instanceId.toNat data] } := by
  cases hsaved : l.saved cx e with
  | none => exact .inl (execute_of_not_saved hsaved)
  | some data =>
    rw [execute_of_saved hsaved, ReplicatedLog.save]
    by_cases hid : e.instanceId.toNat ≤ l.newest.instanceId
    · rw [if_pos hid]
      exact .inl rfl
    · rw [if_neg hid]
      exact .inr ⟨data, rfl, Nat.lt_of_not_le hid, rfl⟩

theorem Ordered.execute {l : ReplicatedLog} (h : Ordered l) (e : Entry) :
    Ordered (l.execute cx e).2 := by
  rcases @ReplicatedLog.execute_cases cx e l with hsame | ⟨data, hsaved, hid, hnext⟩
  · exact ⟨hsame ▸ h.ids, hsame ▸ h.positive, hsame ▸ h.gtids⟩
  · rw [hnext]
    exact h.add (gtid_ne_nil_of_saved hsaved) hid

theorem ordered_executeAll (es : List Entry) : Ordered (ReplicatedLog.executeAll cx es).2 := by
  induction es using List.reverseRecOn with
  | nil => exact ordered_empty
  | append_singleton es e ih =>
    rw [ReplicatedLog.executeAll_concat]
    exact ih.execute e

/-! ## Memory -/

/-- A UUID table with the newest event of the log and the last one of every UUID. -/
structure TableAgrees (h : EventUUIDHandler) (l : ReplicatedLog) : Prop where
  newest : unplaced h.newestInfo = l.newest
  last : ∀ uuid, (h.mapUuid.find? uuid).map unplaced = l.lastOf uuid

/-- A replica whose memory is in the state of the log. -/
structure Agrees (r : Replica) (l : ReplicatedLog) : Prop where
  master : Master.erase r.master = l.master
  table : TableAgrees r.store.uuidHandler l

theorem agrees_empty {s : EventStorage} (h : s.uuidHandler = {}) : Agrees { store := s } {} :=
  ⟨rfl, by rw [h]; rfl, fun uuid => by rw [h]; rfl⟩

theorem TableAgrees.update {h : EventUUIDHandler} {l : ReplicatedLog} (htable : TableAgrees h l)
    (place : Storage) (x : EventData) :
    TableAgrees (updateEventUUIDInfoByGTID h x.gtid (dataInfo place x))
      { l with accepted := l.accepted ++ [x] } := by
  refine ⟨?_, ?_⟩
  · rw [ReplicatedLog.newest_save]
    rfl
  · intro uuid
    rw [find?_mapUuid_update, ReplicatedLog.lastOf, List.filter_append]
    by_cases huuid : getUUIDByGTID x.gtid = uuid
    · rw [if_pos huuid, List.filter_cons_of_pos (by simpa using huuid), List.filter_nil,
        List.getLast?_concat]
      rfl
    · rw [if_neg huuid, List.filter_cons_of_neg (by simpa using huuid), List.filter_nil,
        List.append_nil, htable.last uuid]
      rfl

/-- Adding an event puts it into the UUID table, wherever it is written. -/
theorem addEvent_uuidHandler {s : EventStorage} {data : EventData}
    (hid : s.lastInstanceID < data.instanceId) (maxSize : Nat) (master : MasterInfo)
    (gtid : Bytes) :
    ∃ place, (addEvent cx maxSize master s gtid data true).2.uuidHandler =
      updateEventUUIDInfoByGTID s.uuidHandler gtid (dataInfo place data) := by
  have hkept := @realCheckGTID_uuidHandler cx maxSize master s gtid
  cases hcheck : realCheckGTID cx maxSize master s gtid with
  | mk found s' =>
    rw [hcheck] at hkept
    refine ⟨eventPlace found s', ?_⟩
    rw [addEvent_eq hid hcheck]
    split
    · rw [checkAndSwitchFile_uuidHandler, ← hkept]
      rfl
    · rw [← hkept]
      rfl

theorem Agrees.saved_eq {r : Replica} {l : ReplicatedLog} (h : Agrees r l) (e : Entry) :
    r.saved cx e = l.saved cx e := by
  simp only [Replica.saved, ReplicatedLog.saved, savedValue,
    eventVerdict_of_log h.master h.table.newest]

theorem Agrees.lastInstanceID {r : Replica} {l : ReplicatedLog} (h : Agrees r l) :
    r.store.lastInstanceID = l.newest.instanceId := by
  rw [← h.table.newest]
  rfl

/-- Executing an instance keeps memory and log in step. -/
theorem Agrees.execute {r : Replica} {l : ReplicatedLog} (h : Agrees r l) (env : LocalEnv) (i : Nat)
    (e : Entry) : Agrees (Paxos.execute cx env i e r).2 (l.execute cx e).2 := by
  cases hsm : e.sm with
  | master =>
    -- The clock and the lease of the replica show in the expiry only, which `erase` takes away.
    have hm : Master.erase r.master = Master.erase l.master := by
      rw [← h.master]
      rfl
    have hmaster := (Master.smExecute_erase_congr (env.now i) (env.extLeaseTime i) env.engineSvrID
      0 0 0 e.instanceId.toNat (cx.masterInfo.parse e.value) hm).2
    simp only [Paxos.execute, ReplicatedLog.execute, hsm]
    exact ⟨hmaster, h.table.newest, h.table.last⟩
  | event =>
    simp only [Paxos.execute, ReplicatedLog.execute, hsm, eventSMExecute,
      eventVerdict_of_log h.master h.table.newest]
    cases hv : eventVerdict l.master l.newest (cx.paxosEventData.parse e.value) with
    | error code => exact h
    | ok data =>
      simp only [ReplicatedLog.save, ← h.lastInstanceID]
      by_cases hid : e.instanceId.toNat ≤ r.store.lastInstanceID
      · rw [if_pos hid, addEvent_of_le hid]
        exact h
      · -- Whether the event is in the file already decides its place only.
        rw [if_neg hid]
        obtain ⟨place, hplace⟩ := @addEvent_uuidHandler cx r.store
          (savedEvent e.instanceId.toNat data) (Nat.lt_of_not_le hid) env.maxEventFileSize r.master
          data.eventGtid
        refine ⟨h.master, ?_⟩
        show TableAgrees (addEvent _ _ _ _ _ _ _).2.uuidHandler _
        rw [hplace]
        exact h.table.update place (savedEvent e.instanceId.toNat data)

theorem Agrees.executeFrom (env : LocalEnv) (es : List Entry) :
    ∀ {r : Replica} {l : ReplicatedLog} (i : Nat), Agrees r l →
      Agrees (Paxos.executeFrom cx env i es r).2 (l.executeFrom cx es).2 := by
  induction es with
  | nil =>
    intro r l i h
    exact h
  | cons e es ih =>
    intro r l i h
    exact ih (i + 1) (h.execute env i e)

/-- A replica that executes instances without a crash. -/
theorem executeAll_agrees (env : LocalEnv) (es : List Entry) :
    Agrees (executeAll cx env es).2 (ReplicatedLog.executeAll cx es).2 :=
  (agrees_empty rfl).executeFrom env es 0

/-! ## Headers -/

/-- An entry of the table is an accepted event of its UUID. -/
theorem TableAgrees.entry {h : EventUUIDHandler} {l : ReplicatedLog} (htable : TableAgrees h l)
    {e : Bytes × EventDataInfo} (he : e ∈ h.mapUuid.entries) :
    ∃ x ∈ l.accepted, getUUIDByGTID x.gtid = e.1 ∧ unplaced e.2 = dataInfo {} x := by
  have hfind : h.mapUuid.find? e.1 = some e.2 := SortedMap.find?_eq_some_iff.mpr ⟨e.1, he, rfl⟩
  have hlast := htable.last e.1
  rw [hfind, Option.map_some, ReplicatedLog.lastOf, eq_comm, Option.map_eq_some_iff] at hlast
  obtain ⟨x, hx, hinfo⟩ := hlast
  obtain ⟨hmem, huuid⟩ := List.mem_filter.mp (List.mem_of_getLast? hx)
  exact ⟨x, hmem, of_decide_eq_true huuid, hinfo.symm⟩

theorem TableAgrees.uuid {h : EventUUIDHandler} {l : ReplicatedLog} (htable : TableAgrees h l)
    {e : Bytes × EventDataInfo} (he : e ∈ h.mapUuid.entries) : getUUIDByGTID e.2.gtid = e.1 := by
  obtain ⟨x, -, hx, hinfo⟩ := htable.entry he
  rw [← hx]
  exact congrArg (fun i => getUUIDByGTID i.gtid) hinfo

/-- Every UUID has its entry after a load. -/
theorem TableAgrees.find?_reload {h : EventUUIDHandler} {l : ReplicatedLog}
    (htable : TableAgrees h l) (uuid : Bytes) :
    (parseFromEventInfoList {} (serializeToEventInfoList h)).mapUuid.find? uuid =
      h.mapUuid.find? uuid := by
  rw [mapUuid_reload fun e he => (htable.uuid he).symm]

/-- The newest event is found again: no other accepted event has its instance id or a larger one. -/
theorem TableAgrees.newest_reload {h : EventUUIDHandler} {l : ReplicatedLog}
    (htable : TableAgrees h l) (hordered : Ordered l) :
    unplaced (parseFromEventInfoList {} (serializeToEventInfoList h)).newestInfo = l.newest := by
  obtain ⟨hfrom, hle⟩ :=
    le_newestInfo_parseFromEventInfoList {} (serializeToEventInfoList h)
  obtain ⟨master, accepted⟩ := l
  rcases List.eq_nil_or_concat' accepted with rfl | ⟨init, x, rfl⟩
  · -- No entry without an event.
    have hempty : serializeToEventInfoList h = [] := by
      rw [serializeToEventInfoList, List.map_eq_nil_iff, List.eq_nil_iff_forall_not_mem]
      intro e he
      obtain ⟨x, hx, -⟩ := htable.entry he
      cases hx
    rw [hempty]
    rfl
  · rw [ReplicatedLog.newest_save]
    have hlast := htable.last (getUUIDByGTID x.gtid)
    rw [ReplicatedLog.lastOf, List.filter_append, List.filter_cons_of_pos (by simp),
      List.filter_nil, List.getLast?_concat, Option.map_some, Option.map_eq_some_iff] at hlast
    obtain ⟨info, hinfo, hplace⟩ := hlast
    obtain ⟨uuid, hmem, -⟩ := SortedMap.find?_eq_some_iff.mp hinfo
    have hx := hle info (List.mem_map_of_mem hmem)
    have hid : info.instanceId = x.instanceId := congrArg EventDataInfo.instanceId hplace
    have hpos := hordered.positive x (by simp)
    rcases hfrom with hfrom | hfrom
    · -- The loaded table cannot have kept the id 0 of an empty one.
      rw [hfrom] at hx
      change info.instanceId ≤ 0 at hx
      omega
    · obtain ⟨e, he, heq⟩ := List.mem_map.mp hfrom
      obtain ⟨y, hy, -, hyplace⟩ := htable.entry he
      rw [heq] at hyplace
      rcases List.mem_append.mp hy with hy | hy
      · have hlt := (List.pairwise_append.mp hordered.ids).2.2 y hy x (List.mem_singleton_self x)
        have hyid := congrArg EventDataInfo.instanceId hyplace
        simp only [unplaced, dataInfo] at hyid
        omega
      · rw [hyplace, List.mem_singleton.mp hy]

/-- Loading the table of a log gives the table of the log. -/
theorem TableAgrees.reload {h : EventUUIDHandler} {l : ReplicatedLog} (htable : TableAgrees h l)
    (hordered : Ordered l) :
    TableAgrees (parseFromEventInfoList {} (serializeToEventInfoList h)) l := by
  refine ⟨htable.newest_reload hordered, ?_⟩
  intro uuid
  rw [htable.find?_reload, htable.last]

variable (cx) in
/-- A header that holds the memory of the log. -/
structure HeaderOf (header : EventData) (l : ReplicatedLog) : Prop where
  instanceId : header.instanceId = l.newest.instanceId
  loads : ∃ table master, Loadable cx header table master ∧ 0 < master.version ∧
    Master.erase master = l.master ∧ TableAgrees (parseFromEventInfoList {} table) l

/-- The header that a replica in the state of the log makes. -/
theorem headerOf_getFileHeader {master : MasterInfo} {s s' : EventStorage} {header : EventData}
    (hmade : getFileHeader cx master s = (.ok, header, s')) {l : ReplicatedLog}
    (hordered : Ordered l) (hmaster : Master.erase master = l.master)
    (htable : TableAgrees s.uuidHandler l) (hpath : s.manager.writer.path ≠ [])
    (hport : master.port.isSome = true) (hversion : 0 < master.version) (hdata : header.data ≠ [])
    (hmasterData : header.masterData ≠ []) : HeaderOf cx header l := by
  obtain ⟨table, masterData, hlist, hserialized, hheader⟩ :=
    @getFileHeader_ok cx master s (by rw [hmade])
  rw [hmade] at hheader
  obtain rfl : header = _ := congrArg (fun made => made.2.1) hheader
  refine ⟨?_, serializeToEventInfoList s.uuidHandler, master, ?_, hversion, hmaster,
    htable.reload hordered⟩
  · rw [← htable.newest]
    rfl
  · exact ⟨rfl, hpath, hdata, hmasterData, cx.eventDataInfoList.parse_serialize trivial hlist,
      cx.masterInfo.parse_serialize hport hserialized⟩

/-- A process that loads a header has the memory of the log. -/
theorem erase_loadFromCheckPoint {master : MasterInfo} (hversion : 0 < master.version)
    (now leaseTime extLeaseTime : Nat) :
    Master.erase (Master.loadFromCheckPoint now leaseTime extLeaseTime {} master) =
      Master.erase master := by
  rw [Master.loadFromCheckPoint, if_pos hversion]
  rfl

end PhxSql.Paxos
