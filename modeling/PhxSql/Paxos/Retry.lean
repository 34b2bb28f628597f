import PhxSql.Paxos.Executer
import PhxSql.Proto.Wire
import PhxSql.Store.FailingIo

/-!
# Executing an instance again after a failure

`ExecuterBase::Execute` returns false if `SMExecute` returns a negative code, and the same instance
is then executed again. The only negative code `AddEvent` returns is `FILE_FAIL`, for a record that
was cut off or an index entry that was not put. A record that was cut off leaves its bytes in front
of the one that is written next. After a failed `Put` the newest event is already the new one, so
that the second execution finds it there and returns `EVENT_EXIST`: neither the index entry nor a
file switch is made up for.
-/

set_option autoImplicit false

namespace PhxSql.Paxos

open PhxSql.Proto PhxSql.Store PhxSql.Lib PhxSql.Gtid

variable (cx : Codecs)

/-- `EventExecuter::SMExecute` with the outcomes of its input and output. -/
def eventSMExecuteIo (maxSize instanceId : Nat) (value : Bytes) (r : Replica) (io : AddIo) :
    RetCode × EventStorage :=
  match eventVerdict r.master r.store.uuidHandler.newestInfo (cx.paxosEventData.parse value) with
  | .error code => (code, r.store)
  | .ok data =>
    addEventIo cx maxSize r.master r.store data.eventGtid (savedEvent instanceId data) true io

/-- The same readable records, index, UUID table and newest event. -/
structure SameStore (s s' : EventStorage) : Prop where
  records : storedRecords cx s = storedRecords cx s'
  index : s.index = s'.index
  uuidHandler : s.uuidHandler = s'.uuidHandler

/-- If the execution fails, executing the instance again without errors leaves the store that the
first execution would have left without errors. -/
def FailureInvisible (maxSize instanceId : Nat) (value : Bytes) (r : Replica) (io : AddIo) : Prop :=
  (eventSMExecuteIo cx maxSize instanceId value r io).1.value < 0 →
    SameStore cx
      (eventSMExecute cx maxSize instanceId value
        { r with store := (eventSMExecuteIo cx maxSize instanceId value r io).2 }).2
      (eventSMExecute cx maxSize instanceId value r).2

/-- `CheckPointDone` has nothing to do or meets no error. -/
def CheckPointDoneWorks (s : EventStorage) (gtid : Bytes) (io : AddIo) : Prop :=
  io.checkPointDone = {} ∨ s.checkpointData.entries.isEmpty ∨ s.checkpointData.find? gtid ≠ none

/-- The failures of `AddEvent` that the second execution makes up for: the record was cut off before
its first byte; or the `Put` failed, but the index already had the entry and no file switch was due.
-/
structure Recoverable (maxSize : Nat) (master : MasterInfo) (s : EventStorage) (gtid : Bytes)
    (data : EventData) (io : AddIo) : Prop where
  checkPointDone : CheckPointDoneWorks s gtid io
  record : s.checkpointData.find? gtid = none →
    ∀ part, failedRecord cx data io.record = some part → part = []
  entry : io.put = false →
    (s.checkpointData.find? gtid = none → failedRecord cx data io.record = none) →
    (gtid, IndexValue.info (dataInfo
      (eventPlace (s.checkpointData.find? gtid) (realCheckGTID cx maxSize master s gtid).2) data)) ∈
      (realCheckGTID cx maxSize master s gtid).2.index.entries
  switch : io.put = false → s.checkpointData.find? gtid = none →
    failedRecord cx data io.record = none →
    (writeEvent cx (realCheckGTID cx maxSize master s gtid).2.disk
      (realCheckGTID cx maxSize master s gtid).2.manager data).2.writer.offset ≤ maxSize

/-- A store that appends to the newest of its files, where the header of a file switch serialises.
While places of events are kept from the start, one of these events has been executed. -/
structure Appendable (maxSize : Nat) (master : MasterInfo) (s : EventStorage) (gtid : Bytes)
    (data : EventData) : Prop where
  files : s.checkpointData.find? gtid = none → ∃ init g,
    FilesRep cx s.disk s.manager.fileList (init ++ [g]) ∧ s.manager.writer = g.endPos cx ∧
    g.id ≤ s.lastInstanceID ∧ (s.checkpointData.entries.isEmpty ∨ g.id < s.lastInstanceID)
  header : let added := afterPut cx none (realCheckGTID cx maxSize master s gtid).2 gtid data
    maxSize < added.manager.writer.offset → (getFileHeader cx master added).1 = .ok ∧
      (cx.eventData.serialize (getFileHeader cx master added).2.1).isSome = true

variable {cx}

/-! ## The second execution -/

/-- An instance that is not above the last event changes nothing. -/
theorem eventSMExecute_of_le {instanceId : Nat} {r : Replica}
    (h : instanceId ≤ r.store.lastInstanceID) (maxSize : Nat) (value : Bytes) :
    (eventSMExecute cx maxSize instanceId value r).2 = r.store := by
  unfold eventSMExecute
  split
  · rfl
  · rename_i data _
    rw [addEvent_of_le (show (savedEvent instanceId data).instanceId ≤ _ from h)]

theorem eventSMExecute_of_ok {maxSize instanceId : Nat} {value : Bytes} {r : Replica}
    {data : PaxosEventData} {s : EventStorage}
    (hs : s.uuidHandler = r.store.uuidHandler)
    (hdata : eventVerdict r.master r.store.uuidHandler.newestInfo (cx.paxosEventData.parse value) =
      .ok data) :
    eventSMExecute cx maxSize instanceId value { r with store := s } =
      addEvent cx maxSize r.master s data.eventGtid (savedEvent instanceId data) true := by
  simp only [eventSMExecute, hs, hdata]

/-- The newest event after an event was added. -/
theorem newestInfo_addEvent {maxSize : Nat} {master : MasterInfo} {s s' : EventStorage}
    {gtid : Bytes} {data : EventData} {found : Option EventDataInfo}
    (hid : s.lastInstanceID < data.instanceId)
    (hcheck : realCheckGTID cx maxSize master s gtid = (found, s')) :
    (addEvent cx maxSize master s gtid data true).2.uuidHandler.newestInfo =
      dataInfo (eventPlace found s') data := by
  rw [addEvent_eq hid hcheck]
  cases found with
  | none =>
    simp only [Option.isNone_none, and_self, if_true, checkAndSwitchFile_uuidHandler]
    rfl
  | some info => rfl

section Execution

variable {maxSize instanceId : Nat} {value : Bytes} {r : Replica} {io : AddIo}
  {data : PaxosEventData} {found : Option EventDataInfo} {s' : EventStorage}

/-- A record that was cut off is made up for if and only if nothing of it was stored: otherwise the
event ends up at a later position. -/
theorem sameStore_of_short {part : Bytes} (hid : r.store.lastInstanceID < instanceId)
    (hdata : eventVerdict r.master r.store.uuidHandler.newestInfo (cx.paxosEventData.parse value) =
      .ok data)
    (hcheck : realCheckGTID cx maxSize r.master r.store data.eventGtid = (none, s')) :
    SameStore cx
      (eventSMExecute cx maxSize instanceId value { r with store := { s' with
        disk := (storePart s'.disk s'.manager.writer part).1
        manager := { s'.manager with
          writer := (storePart s'.disk s'.manager.writer part).2 } } }).2
      (eventSMExecute cx maxSize instanceId value r).2 ↔ part = [] := by
  have hempty := (realCheckGTID_none hcheck).2
  have huuid : s'.uuidHandler = r.store.uuidHandler := by
    have h := @realCheckGTID_uuidHandler cx maxSize r.master r.store data.eventGtid
    rwa [hcheck] at h
  have hlast : s'.lastInstanceID < instanceId := by
    rw [EventStorage.lastInstanceID, huuid]
    exact hid
  have hfirst := @eventSMExecute_of_ok cx maxSize instanceId value r data r.store rfl hdata
  constructor
  · -- The positions in the newest event differ by the number of bytes that were stored.
    intro hsame
    have hnewest := congrArg EventUUIDHandler.newestInfo hsame.uuidHandler
    rw [eventSMExecute_of_ok (by exact huuid) hdata, hfirst,
      newestInfo_addEvent (by exact hlast)
        (realCheckGTID_of_empty (by exact hempty) maxSize r.master data.eventGtid),
      newestInfo_addEvent hid hcheck] at hnewest
    have hoffset := congrArg EventDataInfo.offset hnewest
    cases part with
    | nil => rfl
    | cons b part => simp [dataInfo, eventPlace, storePart] at hoffset
  · -- `CheckPointDone` has cleared the kept places, and the second execution goes on from there.
    rintro rfl
    have hstored : storePart s'.disk s'.manager.writer [] = (s'.disk, s'.manager.writer) := rfl
    simp only [hstored]
    rw [eventSMExecute_of_ok huuid hdata, hfirst, addEvent_eq hid hcheck,
      addEvent_eq hlast (realCheckGTID_of_empty hempty maxSize r.master data.eventGtid)]
    exact ⟨rfl, rfl, rfl⟩

/-- After a failed `Put` the second execution changes nothing. -/
theorem eventSMExecute_beforePut (found : Option EventDataInfo) (s' : EventStorage) :
    (eventSMExecute cx maxSize instanceId value { r with
      store := beforePut cx found s' data.eventGtid (savedEvent instanceId data) }).2 =
      beforePut cx found s' data.eventGtid (savedEvent instanceId data) :=
  eventSMExecute_of_le (Nat.le_refl _) maxSize value

variable (cx) in
/-- Without a file switch a failed `Put` is made up for if and only if the index had the entry. -/
theorem sameStore_afterPut_iff {gtid : Bytes} {saved : EventData} :
    SameStore cx (beforePut cx found s' gtid saved) (afterPut cx found s' gtid saved) ↔
      (gtid, IndexValue.info (dataInfo (eventPlace found s') saved)) ∈ s'.index.entries := by
  constructor
  · intro hsame
    have hindex : s'.index = s'.index.insert gtid (.info (dataInfo (eventPlace found s') saved)) :=
      hsame.index
    rw [hindex]
    exact SortedMap.mem_insert.mpr (.inl rfl)
  · intro hmem
    refine ⟨rfl, ?_, rfl⟩
    show s'.index = s'.index.insert gtid _
    rw [SortedMap.insert_of_mem hmem]

/-- A file switch adds a footer and a header to the records. -/
theorem not_sameStore_of_switch {master : MasterInfo} {gtid : Bytes} {saved : EventData}
    {segs : List Segment} (hrep : StoreRep cx s' segs) (hid : s'.lastInstanceID < saved.instanceId)
    (hsmall : saved.instanceId < 2 ^ 64)
    (hfull : maxSize < (afterPut cx none s' gtid saved).manager.writer.offset)
    (hheader : (getFileHeader cx master (afterPut cx none s' gtid saved)).1 = .ok ∧
      (cx.eventData.serialize
        (getFileHeader cx master (afterPut cx none s' gtid saved)).2.1).isSome = true) :
    ¬ SameStore cx (beforePut cx none s' gtid saved)
      (checkAndSwitchFile cx maxSize master (afterPut cx none s' gtid saved)) := by
  intro hsame
  obtain ⟨init, g, rfl, hw, hg⟩ := hrep.writer
  obtain ⟨hret, hser⟩ := hheader
  obtain ⟨-, hinst, hkept⟩ := getFileHeader_record hret
  obtain ⟨hfiles, hw', -⟩ := hrep.files.write hw saved
  have hlt : (g.add cx saved).id < (afterPut cx none s' gtid saved).lastInstanceID := by
    rw [Segment.add_id]
    exact Nat.lt_of_le_of_lt hg hid
  have hrecords := hsame.records
  rw [checkAndSwitchFile, if_pos hfull] at hrecords
  simp only [hret, if_true, hkept] at hrecords
  generalize (getFileHeader cx master (afterPut cx none s' gtid saved)).2.1 = header
    at hinst hser hrecords
  rw [← hinst] at hlt
  have hswitched := (@switchNewFile_rep cx { afterPut cx none s' gtid saved with
    index := flushEventUUIDInfo (afterPut cx none s' gtid saved).uuidHandler
      (afterPut cx none s' gtid saved).index } init (g.add cx saved) hfiles hw' header hlt
    (hinst ▸ hsmall)).1
  -- The numbers of records differ by two, whatever the header holds.
  have hbefore : storedRecords cx (beforePut cx none s' gtid saved) =
      (init ++ [g.add cx saved]).flatMap Segment.records :=
    FilesRep.storedRecords_eq (by exact hfiles)
  rw [hbefore, hswitched.storedRecords_eq] at hrecords
  have hlength := congrArg List.length hrecords
  have hfoot : ((g.add cx saved).add cx header).records.length =
      (g.add cx saved).records.length + 1 := by
    rw [Segment.add, if_pos hser, List.length_append]
    rfl
  simp only [List.flatMap_append, List.flatMap_singleton, List.length_append, hfoot] at hlength
  omega

/-- Once `RealCheckGTID` has returned, no places are kept. -/
theorem storeRep_realCheckGTID {s : EventStorage} {gtid : Bytes} {saved : EventData}
    {master : MasterInfo} (happ : Appendable cx maxSize master s gtid saved)
    (hsmall : s.lastInstanceID < 2 ^ 64)
    (hcheck : realCheckGTID cx maxSize master s gtid = (none, s')) :
    ∃ segs, StoreRep cx s' segs := by
  obtain ⟨hfind, hempty⟩ := realCheckGTID_none hcheck
  obtain ⟨init, g, hfiles, hw, hle, hopen⟩ := happ.files hfind
  simp only [realCheckGTID, hfind, checkPointDone, Prod.mk.injEq, true_and] at hcheck
  by_cases hkept : s.checkpointData.entries.isEmpty
  · rw [if_pos hkept] at hcheck
    subst hcheck
    exact ⟨_, hfiles, ⟨init, g, rfl, hw, hle⟩, hempty, hsmall⟩
  · rw [if_neg hkept] at hcheck
    subst hcheck
    have hlt := hopen.resolve_left hkept
    obtain ⟨hframe, init', g', hrep, hw', hle', -⟩ :=
      checkAndSwitchFile_rep hfiles hw hlt hsmall maxSize master
    have hlast : (checkAndSwitchFile cx maxSize master s).lastInstanceID = s.lastInstanceID := by
      rw [EventStorage.lastInstanceID, hframe.uuidHandler]
      rfl
    refine ⟨_, hrep, ⟨init', g', rfl, hw', ?_⟩, rfl, ?_⟩
    · exact hlast ▸ hle'
    · exact hlast ▸ hsmall

/-! ## The three ways an execution can go -/

theorem eventSMExecuteIo_of_ok
    (hdata : eventVerdict r.master r.store.uuidHandler.newestInfo (cx.paxosEventData.parse value) =
      .ok data) :
    eventSMExecuteIo cx maxSize instanceId value r io =
      addEventIo cx maxSize r.master r.store data.eventGtid (savedEvent instanceId data) true io := by
  simp only [eventSMExecuteIo, hdata]

/-- The record was cut off. -/
theorem failureInvisible_short {part : Bytes} (hid : r.store.lastInstanceID < instanceId)
    (hdata : eventVerdict r.master r.store.uuidHandler.newestInfo (cx.paxosEventData.parse value) =
      .ok data)
    (hworks : CheckPointDoneWorks r.store data.eventGtid io)
    (hcheck : realCheckGTID cx maxSize r.master r.store data.eventGtid = (none, s'))
    (hpart : failedRecord cx (savedEvent instanceId data) io.record = some part) :
    FailureInvisible cx maxSize instanceId value r io ↔ part = [] := by
  have hcheckIo := (realCheckGTIDIo_eq hworks maxSize r.master).trans hcheck
  have hfailed := (eventSMExecuteIo_of_ok hdata).trans
    (addEventIo_short (hid : _ < (savedEvent instanceId data).instanceId) hcheckIo hpart)
  rw [FailureInvisible, hfailed]
  have hneg : RetCode.fileFail.value < 0 := by decide
  rw [forall_prop_of_true hneg]
  exact sameStore_of_short hid hdata hcheck

/-- The record was written and its index entry was not put. -/
theorem failureInvisible_put (hid : r.store.lastInstanceID < instanceId)
    (hdata : eventVerdict r.master r.store.uuidHandler.newestInfo (cx.paxosEventData.parse value) =
      .ok data)
    (hworks : CheckPointDoneWorks r.store data.eventGtid io)
    (hcheck : realCheckGTID cx maxSize r.master r.store data.eventGtid = (found, s'))
    (hwhole : found = none → failedRecord cx (savedEvent instanceId data) io.record = none)
    (hput : io.put = false) :
    FailureInvisible cx maxSize instanceId value r io ↔
      SameStore cx (beforePut cx found s' data.eventGtid (savedEvent instanceId data))
        (if found.isNone ∧ true then checkAndSwitchFile cx maxSize r.master
            (afterPut cx found s' data.eventGtid (savedEvent instanceId data))
          else afterPut cx found s' data.eventGtid (savedEvent instanceId data)) := by
  have hcheckIo := (realCheckGTIDIo_eq hworks maxSize r.master).trans hcheck
  have hfailed := (eventSMExecuteIo_of_ok hdata).trans
    ((addEventIo_written (hid : _ < (savedEvent instanceId data).instanceId) hcheckIo hwhole).1
      hput)
  have hfirst : eventSMExecute cx maxSize instanceId value r = _ :=
    (@eventSMExecute_of_ok cx maxSize instanceId value r data r.store rfl hdata).trans
      (addEvent_eq (hid : _ < (savedEvent instanceId data).instanceId) hcheck true)
  rw [FailureInvisible, hfailed, hfirst, eventSMExecute_beforePut]
  have hneg : RetCode.fileFail.value < 0 := by decide
  rw [forall_prop_of_true hneg]

/-- Nothing failed. -/
theorem failureInvisible_of_put (hid : r.store.lastInstanceID < instanceId)
    (hdata : eventVerdict r.master r.store.uuidHandler.newestInfo (cx.paxosEventData.parse value) =
      .ok data)
    (hworks : CheckPointDoneWorks r.store data.eventGtid io)
    (hcheck : realCheckGTID cx maxSize r.master r.store data.eventGtid = (found, s'))
    (hwhole : found = none → failedRecord cx (savedEvent instanceId data) io.record = none)
    (hput : io.put = true) : FailureInvisible cx maxSize instanceId value r io := by
  have hcheckIo := (realCheckGTIDIo_eq hworks maxSize r.master).trans hcheck
  intro hneg
  rw [eventSMExecuteIo_of_ok hdata,
    (addEventIo_written (hid : _ < (savedEvent instanceId data).instanceId) hcheckIo hwhole).2
      hput] at hneg
  cases hneg

end Execution

/-! ## Failed executions -/

/-- No code that `SMExecute` returns before it saves an event is negative. -/
theorem eventVerdict_error_value {master : MasterInfo} {newest : EventDataInfo}
    {parsed : Option PaxosEventData} {code : RetCode}
    (h : eventVerdict master newest parsed = .error code) : 0 ≤ code.value := by
  have hcheck : ∀ data, 0 ≤ (checkEvent master newest data).value := by
    intro data
    unfold checkEvent
    split
    · decide
    · split
      · split
        · decide
        · decide
      · split
        · decide
        · decide
  cases parsed with
  | none =>
    cases h
    decide
  | some data =>
    simp only [eventVerdict] at h
    split at h
    · cases h
      decide
    · split at h
      · cases h
      · cases h
        exact hcheck data

/-- An execution that does not add an event does not fail. -/
theorem failureInvisible_of_rejected {maxSize instanceId : Nat} {value : Bytes} {r : Replica}
    {io : AddIo}
    (h : ∀ data, eventVerdict r.master r.store.uuidHandler.newestInfo
      (cx.paxosEventData.parse value) = .ok data → instanceId ≤ r.store.lastInstanceID) :
    FailureInvisible cx maxSize instanceId value r io := by
  intro hneg
  exfalso
  unfold eventSMExecuteIo at hneg
  cases hverdict : eventVerdict r.master r.store.uuidHandler.newestInfo
      (cx.paxosEventData.parse value) with
  | ok data =>
    have hle : (savedEvent instanceId data).instanceId ≤ r.store.lastInstanceID := h data hverdict
    simp only [hverdict, addEventIo, if_pos hle] at hneg
    cases hneg
  | error code =>
    simp only [hverdict] at hneg
    have hnonneg := eventVerdict_error_value hverdict
    omega

section Accepted

variable {maxSize instanceId : Nat} {value : Bytes} {r : Replica} {io : AddIo}
  {data : PaxosEventData}

/-- What `RealCheckGTID` gives, as a pair. -/
theorem realCheckGTID_eq (maxSize : Nat) (master : MasterInfo) (s : EventStorage) (gtid : Bytes) :
    realCheckGTID cx maxSize master s gtid =
      (s.checkpointData.find? gtid, (realCheckGTID cx maxSize master s gtid).2) :=
  Prod.ext (realCheckGTID_fst maxSize master s gtid) rfl

theorem failureInvisible_of_recoverable (hid : r.store.lastInstanceID < instanceId)
    (hdata : eventVerdict r.master r.store.uuidHandler.newestInfo (cx.paxosEventData.parse value) =
      .ok data)
    (h : Recoverable cx maxSize r.master r.store data.eventGtid (savedEvent instanceId data) io) :
    FailureInvisible cx maxSize instanceId value r io := by
  have hcheck := @realCheckGTID_eq cx maxSize r.master r.store data.eventGtid
  by_cases hwhole : r.store.checkpointData.find? data.eventGtid = none →
      failedRecord cx (savedEvent instanceId data) io.record = none
  · cases hput : io.put with
    | true => exact failureInvisible_of_put hid hdata h.checkPointDone hcheck hwhole hput
    | false =>
      rw [failureInvisible_put hid hdata h.checkPointDone hcheck hwhole hput]
      have hentry := (sameStore_afterPut_iff cx).mpr (h.entry hput hwhole)
      cases hfind : r.store.checkpointData.find? data.eventGtid with
      | some info =>
        rw [hfind] at hentry
        exact hentry
      | none =>
        have hroom := h.switch hput hfind (hwhole hfind)
        rw [hfind] at hentry
        rw [if_pos ⟨Option.isNone_none, rfl⟩, checkAndSwitchFile_of_le (by exact hroom)]
        exact hentry
  · -- The record was cut off.
    obtain ⟨hfind, hfail⟩ := Classical.not_imp.mp hwhole
    obtain ⟨part, hpart⟩ := Option.ne_none_iff_exists'.mp hfail
    rw [hfind] at hcheck
    rw [failureInvisible_short hid hdata h.checkPointDone hcheck hpart]
    exact h.record hfind part hpart

theorem recoverable_of_failureInvisible (hid : r.store.lastInstanceID < instanceId)
    (hsmall : instanceId < 2 ^ 64)
    (hdata : eventVerdict r.master r.store.uuidHandler.newestInfo (cx.paxosEventData.parse value) =
      .ok data)
    (hworks : CheckPointDoneWorks r.store data.eventGtid io)
    (happ : Appendable cx maxSize r.master r.store data.eventGtid (savedEvent instanceId data))
    (h : FailureInvisible cx maxSize instanceId value r io) :
    Recoverable cx maxSize r.master r.store data.eventGtid (savedEvent instanceId data) io := by
  have hcheck := @realCheckGTID_eq cx maxSize r.master r.store data.eventGtid
  -- A file that is full would have been switched, which adds records.
  have hroom : io.put = false → r.store.checkpointData.find? data.eventGtid = none →
      failedRecord cx (savedEvent instanceId data) io.record = none →
      (afterPut cx none (realCheckGTID cx maxSize r.master r.store data.eventGtid).2
        data.eventGtid (savedEvent instanceId data)).manager.writer.offset ≤ maxSize := by
    intro hput hfind hwhole
    rw [hfind] at hcheck
    have hsame := (failureInvisible_put hid hdata hworks hcheck (fun _ => hwhole) hput).mp h
    obtain ⟨segs, hrep⟩ := storeRep_realCheckGTID happ (Nat.lt_trans hid hsmall) hcheck
    by_contra hfull
    have hfull := Nat.not_le.mp hfull
    refine not_sameStore_of_switch hrep ?_ hsmall hfull (happ.header hfull) hsame
    rw [EventStorage.lastInstanceID, realCheckGTID_uuidHandler]
    exact hid
  refine ⟨hworks, ?_, ?_, hroom⟩
  · intro hfind part hpart
    rw [hfind] at hcheck
    exact (failureInvisible_short hid hdata hworks hcheck hpart).mp h
  · intro hput hwhole
    have hsame := (failureInvisible_put hid hdata hworks hcheck hwhole hput).mp h
    apply (sameStore_afterPut_iff cx).mp
    cases hfind : r.store.checkpointData.find? data.eventGtid with
    | some info =>
      rw [hfind] at hsame
      exact hsame
    | none =>
      rw [hfind, if_pos ⟨Option.isNone_none, rfl⟩,
        checkAndSwitchFile_of_le (hroom hput hfind (hwhole hfind))] at hsame
      exact hsame

end Accepted

/-- A failed execution is made up for by the next one if the failure is recoverable, whatever the
state of the store and the outcomes of the calls. For a store that appends to the newest of its
files there are no others. -/
theorem failed_addEvent_invisible_iff (cx : Codecs) (maxSize : Nat) (instanceId : UInt64)
    (value : Bytes) (r : Replica) (io : AddIo) :
    ((∀ data, eventVerdict r.master r.store.uuidHandler.newestInfo
        (cx.paxosEventData.parse value) = .ok data →
      r.store.lastInstanceID < instanceId.toNat →
        Recoverable cx maxSize r.master r.store data.eventGtid
          (savedEvent instanceId.toNat data) io) →
      FailureInvisible cx maxSize instanceId.toNat value r io) ∧
    (∀ data, eventVerdict r.master r.store.uuidHandler.newestInfo
        (cx.paxosEventData.parse value) = .ok data →
      r.store.lastInstanceID < instanceId.toNat →
      CheckPointDoneWorks r.store data.eventGtid io →
      Appendable cx maxSize r.master r.store data.eventGtid (savedEvent instanceId.toNat data) →
        (FailureInvisible cx maxSize instanceId.toNat value r io ↔
          Recoverable cx maxSize r.master r.store data.eventGtid
            (savedEvent instanceId.toNat data) io)) := by
  constructor
  · intro h
    by_cases hadded : ∃ data, eventVerdict r.master r.store.uuidHandler.newestInfo
        (cx.paxosEventData.parse value) = .ok data ∧ r.store.lastInstanceID < instanceId.toNat
    · obtain ⟨data, hdata, hid⟩ := hadded
      exact failureInvisible_of_recoverable hid hdata (h data hdata hid)
    · apply failureInvisible_of_rejected
      intro data hdata
      exact Nat.not_lt.mp fun hid => hadded ⟨data, hdata, hid⟩
  · intro data hdata hid hworks happ
    refine ⟨fun h => ?_, fun h => failureInvisible_of_recoverable hid hdata h⟩
    exact recoverable_of_failureInvisible hid instanceId.toNat_lt hdata hworks happ h

/-- A replica with a master and an empty store. -/
def freshReplica : Replica where
  master := { port := some 0, svrId := 1 }

/-- The first event. -/
def firstEvent : PaxosEventData where
  eventGtid := [97, 58, 49]
  svrid := 1
  buffer := [1]
  checksum := 1

/-- The value that carries it. -/
def firstValue : Bytes :=
  (wireCodecs.paxosEventData.serialize firstEvent).getD []

theorem eventVerdict_firstValue :
    eventVerdict freshReplica.master freshReplica.store.uuidHandler.newestInfo
      (wireCodecs.paxosEventData.parse firstValue) = .ok firstEvent := by
  decide +kernel

theorem recoverable_firstEvent :
    Recoverable wireCodecs 1000 freshReplica.master freshReplica.store firstEvent.eventGtid
      (savedEvent (1 : UInt64).toNat firstEvent) { record := .short 0 } where
  checkPointDone := .inl rfl
  record := by
    intro _ part hpart
    have hnothing : failedRecord wireCodecs (savedEvent (1 : UInt64).toNat firstEvent) (.short 0) =
        some [] := by decide +kernel
    rw [hnothing, Option.some.injEq] at hpart
    exact hpart.symm
  entry := fun hput => by cases hput
  switch := fun hput => by cases hput

theorem appendable_firstEvent :
    Appendable wireCodecs 1000 freshReplica.master freshReplica.store firstEvent.eventGtid
      (savedEvent (1 : UInt64).toNat firstEvent) where
  files := fun _ =>
    ⟨[], { id := 0 }, storeRep_empty.files, rfl, Nat.le_refl 0, .inl rfl⟩
  header := fun hfull => absurd hfull (by decide +kernel)

/-- Nothing of the record is stored, and the second execution makes up for it. -/
theorem failed_addEvent_invisible_first :
    FailureInvisible wireCodecs 1000 (1 : UInt64).toNat firstValue freshReplica
        { record := .short 0 } ∧
      (eventSMExecuteIo wireCodecs 1000 (1 : UInt64).toNat firstValue freshReplica
        { record := .short 0 }).1 = .fileFail :=
  ⟨((failed_addEvent_invisible_iff wireCodecs 1000 1 firstValue freshReplica
      { record := .short 0 }).2 firstEvent eventVerdict_firstValue (by decide)
      (.inl rfl) appendable_firstEvent).mpr recoverable_firstEvent, by decide +kernel⟩

/-- Three bytes of the record are stored: the event that is then written behind them is not read
back. A `Put` fails: the event stays without an index entry, although the second execution reports
that it is there. -/
theorem failed_addEvent_leaves_trace :
    ¬ FailureInvisible wireCodecs 1000 1 firstValue freshReplica { record := .short 3 } ∧
      ¬ FailureInvisible wireCodecs 1000 1 firstValue freshReplica { put := false } ∧
      (eventSMExecute wireCodecs 1000 1 firstValue { freshReplica with
        store := (eventSMExecuteIo wireCodecs 1000 1 firstValue freshReplica
          { put := false }).2 }).1 = .eventExist := by
  refine ⟨fun h => ?_, fun h => ?_, by decide +kernel⟩
  · have hrecords := (h (by decide +kernel)).records
    exact absurd hrecords (by decide +kernel)
  · have hindex := congrArg SortedMap.entries (h (by decide +kernel)).index
    exact absurd hindex (by decide +kernel)

end PhxSql.Paxos
