import PhxSql.Gtid.GtidHandler
import PhxSql.Lib.SortedMap
import PhxSql.Proto.Codec
import Mathlib.Data.List.Induction

/-!
# The GTID index and the UUID table

`EventIndex` is a LevelDB whose comparator parses its keys as GTIDs; it maps the GTID of an event to
the place of the event, and one key of its own to the UUID table. `EventUUIDHandler` keeps the last
event of each UUID and the last event of all.
-/

set_option autoImplicit false

namespace PhxSql.Store

open PhxSql.Proto PhxSql.Lib PhxSql.Gtid

/-! ## The index -/

/-- What the index stores: the place of an event, or the UUID table. -/
inductive IndexValue
  | info (i : EventDataInfo)
  | infoList (l : List EventDataInfo)
  deriving DecidableEq, Repr

abbrev EventIndex := SortedMap Bytes IndexValue gtidRank

inductive EventIndexStatus
  | ok
  | dataNotFound
  | dataError
  deriving DecidableEq, Repr

/-- `EventIndex::GetGTIDIndex` for an `EventDataInfo`: the first entry at or after the key, if it
has the key itself or, for a lower bound, the same UUID. The UUID table does not parse as a place.
-/
def getGTIDIndex (index : EventIndex) (gtid : Bytes) (lowerBound : Bool) :
    EventIndexStatus × EventDataInfo :=
  match index.lowerBound gtid with
  | none => (.dataNotFound, {})
  | some (key, value) =>
    if key = gtid ∨ (lowerBound ∧ getUUIDByGTID key = getUUIDByGTID gtid) then
      match value with
      | .info i => (.ok, i)
      | .infoList _ => (.dataError, {})
    else (.dataNotFound, {})

/-! ## The UUID table -/

structure EventUUIDHandler where
  mapUuid : SortedMap Bytes EventDataInfo byteRank := .empty
  newestInfo : EventDataInfo := {}

/-- `EventUUIDHandler::UpdateEventUUIDInfoByGTID`. -/
def updateEventUUIDInfoByGTID (h : EventUUIDHandler) (gtid : Bytes) (info : EventDataInfo) :
    EventUUIDHandler :=
  { mapUuid := h.mapUuid.insert (getUUIDByGTID gtid) info, newestInfo := info }

/-- `EventUUIDHandler::GetLastestGTIDEventByGTID`. -/
def getLastestGTIDEventByGTID (h : EventUUIDHandler) (gtid : Bytes) : Option EventDataInfo :=
  h.mapUuid.find? (getUUIDByGTID gtid)

/-- `EventUUIDHandler::GetLastestGTIDByUUID`. -/
def getLastestGTIDByUUID (h : EventUUIDHandler) (uuid : Bytes) : Bytes :=
  (h.mapUuid.find? uuid).elim [] EventDataInfo.gtid

/-- `EventUUIDHandler::GetLastestGTIDByGTID`. -/
def getLastestGTIDByGTID (h : EventUUIDHandler) (gtid : Bytes) : Bytes :=
  getLastestGTIDByUUID h (getUUIDByGTID gtid)

/-- `EventUUIDHandler::GetKeyForUUID`, the text `gtid_uuid`. -/
def getKeyForUUID : Bytes := [103, 116, 105, 100, 95, 117, 117, 105, 100]

/-- `EventUUIDHandler::SerializeToEventInfoList`. -/
def serializeToEventInfoList (h : EventUUIDHandler) : List EventDataInfo :=
  h.mapUuid.entries.map Prod.snd

/-- `EventUUIDHandler::FlushEventUUIDInfo`. -/
def flushEventUUIDInfo (h : EventUUIDHandler) (index : EventIndex) : EventIndex :=
  let list := serializeToEventInfoList h
  if list.isEmpty then index else index.insert getKeyForUUID (.infoList list)

/-- `EventUUIDHandler::ParseFromEventInfoList`. -/
def parseFromEventInfoList (h : EventUUIDHandler) (list : List EventDataInfo) : EventUUIDHandler :=
  list.foldl
    (fun h info =>
      { mapUuid := h.mapUuid.insert (getUUIDByGTID info.gtid) info
        newestInfo :=
          if h.newestInfo.instanceId < info.instanceId then info else h.newestInfo })
    { h with mapUuid := .empty }

variable (cx : Codecs)

/-- `EventUUIDHandler::SerializeToBuffer`. The table is serialised twice, first for the index, so
that nothing is put there if it does not serialise. -/
def serializeToBuffer (h : EventUUIDHandler) (index : EventIndex) :
    RetCode × Bytes × EventIndex :=
  match cx.eventDataInfoList.serialize (serializeToEventInfoList h) with
  | none =>
    (if (serializeToEventInfoList h).isEmpty then .bufferFail else .fileFail, [], index)
  | some bytes => (.ok, bytes, flushEventUUIDInfo h index)

/-- `EventUUIDHandler::LoadFromCheckPoint`. -/
def loadUUIDFromCheckPoint (h : EventUUIDHandler) (checkpointData : EventData) :
    RetCode × EventUUIDHandler :=
  if checkpointData.data.isEmpty then (.ok, h)
  else
    match cx.eventDataInfoList.parse checkpointData.data with
    | none => (.bufferFail, h)
    | some list => (.ok, parseFromEventInfoList h list)

/-! ## The UUID table after an update and after a load -/

/-- The UUID table after an addition. -/
theorem find?_mapUuid_update (h : EventUUIDHandler) (gtid : Bytes) (info : EventDataInfo)
    (uuid : Bytes) :
    (updateEventUUIDInfoByGTID h gtid info).mapUuid.find? uuid =
      if getUUIDByGTID gtid = uuid then some info else h.mapUuid.find? uuid := by
  unfold updateEventUUIDInfoByGTID
  by_cases huuid : getUUIDByGTID gtid = uuid
  · rw [if_pos huuid, ← huuid]
    exact SortedMap.find?_insert_self ..
  · rw [if_neg huuid]
    apply SortedMap.find?_insert_of_ne
    intro hrank
    exact huuid (byteRank_inj.mp hrank).symm

theorem parseFromEventInfoList_concat (h : EventUUIDHandler) (table : List EventDataInfo)
    (info : EventDataInfo) :
    parseFromEventInfoList h (table ++ [info]) =
      { mapUuid := (parseFromEventInfoList h table).mapUuid.insert (getUUIDByGTID info.gtid) info
        newestInfo :=
          if (parseFromEventInfoList h table).newestInfo.instanceId < info.instanceId then info
          else (parseFromEventInfoList h table).newestInfo } := by
  rw [parseFromEventInfoList, List.foldl_append]
  rfl

theorem mapUuid_parseFromEventInfoList (h : EventUUIDHandler) (table : List EventDataInfo) :
    (parseFromEventInfoList h table).mapUuid =
      table.foldl (fun m i => m.insert (getUUIDByGTID i.gtid) i) .empty := by
  induction table using List.reverseRecOn with
  | nil => rfl
  | append_singleton table info ih =>
    rw [parseFromEventInfoList_concat, ih, List.foldl_append]
    rfl

/-- A table whose keys are the UUIDs of its places is loaded as it was written. -/
theorem mapUuid_reload {h : EventUUIDHandler}
    (hkeys : ∀ e ∈ h.mapUuid.entries, e.1 = getUUIDByGTID e.2.gtid) (h₀ : EventUUIDHandler) :
    (parseFromEventInfoList h₀ (serializeToEventInfoList h)).mapUuid = h.mapUuid := by
  have hfold : ∀ (l : List (Bytes × EventDataInfo)) (m : SortedMap Bytes EventDataInfo byteRank),
      (∀ e ∈ l, e.1 = getUUIDByGTID e.2.gtid) →
        (l.map Prod.snd).foldl (fun m i => m.insert (getUUIDByGTID i.gtid) i) m =
          l.foldl (fun m e => m.insert e.1 e.2) m := by
    intro l
    induction l with
    | nil =>
      intro m _
      rfl
    | cons e l ih =>
      intro m hl
      rw [List.map_cons, List.foldl_cons, List.foldl_cons, ← hl e List.mem_cons_self]
      exact ih _ fun e' he' => hl e' (List.mem_cons_of_mem _ he')
  rw [mapUuid_parseFromEventInfoList, serializeToEventInfoList, hfold _ _ hkeys,
    SortedMap.foldl_insert_entries]

/-- A table with one place for each UUID is loaded as it is. -/
theorem find?_parseFromEventInfoList (h : EventUUIDHandler) (uuid : Bytes)
    (table : List EventDataInfo) :
    table.Pairwise (fun i j => getUUIDByGTID i.gtid ≠ getUUIDByGTID j.gtid) →
      (parseFromEventInfoList h table).mapUuid.find? uuid =
        table.find? fun i => getUUIDByGTID i.gtid = uuid := by
  induction table using List.reverseRecOn with
  | nil =>
    intro _
    rfl
  | append_singleton table info ih =>
    intro huuids
    obtain ⟨hbefore, -, hlast⟩ := List.pairwise_append.mp huuids
    rw [parseFromEventInfoList_concat, List.find?_append]
    by_cases huuid : getUUIDByGTID info.gtid = uuid
    · -- No place before has this UUID.
      have hnone : table.find? (fun i => getUUIDByGTID i.gtid = uuid) = none := by
        rw [List.find?_eq_none]
        intro i hi heq
        apply hlast i hi info (List.mem_singleton_self _)
        rw [of_decide_eq_true heq, huuid]
      rw [hnone, ← huuid, SortedMap.find?_insert_self]
      simp
    · have hne : byteRank uuid ≠ byteRank (getUUIDByGTID info.gtid) := fun heq =>
        huuid (byteRank_inj.mp heq).symm
      rw [SortedMap.find?_insert_of_ne hne, ih hbefore]
      simp [huuid]

/-- Places that are not newer leave the newest one. -/
theorem newestInfo_parseFromEventInfoList (h : EventUUIDHandler) (table : List EventDataInfo) :
    (∀ i ∈ table, i.instanceId ≤ h.newestInfo.instanceId) →
      (parseFromEventInfoList h table).newestInfo = h.newestInfo := by
  induction table using List.reverseRecOn with
  | nil =>
    intro _
    rfl
  | append_singleton table info ih =>
    intro hle
    rw [parseFromEventInfoList_concat, ih fun i hi => hle i (List.mem_append_left _ hi)]
    apply if_neg
    exact Nat.not_lt.mpr (hle info (by simp))

/-- The newest place of a loaded table is the one before or one of the table, and none is newer. -/
theorem le_newestInfo_parseFromEventInfoList (h : EventUUIDHandler) (table : List EventDataInfo) :
    ((parseFromEventInfoList h table).newestInfo = h.newestInfo ∨
        (parseFromEventInfoList h table).newestInfo ∈ table) ∧
      ∀ i ∈ table, i.instanceId ≤ (parseFromEventInfoList h table).newestInfo.instanceId := by
  induction table using List.reverseRecOn with
  | nil => exact ⟨.inl rfl, by simp⟩
  | append_singleton table info ih =>
    obtain ⟨hfrom, hle⟩ := ih
    rw [parseFromEventInfoList_concat]
    by_cases hnewer :
        (parseFromEventInfoList h table).newestInfo.instanceId < info.instanceId
    · simp only [if_pos hnewer]
      refine ⟨.inr (by simp), ?_⟩
      intro i hi
      rcases List.mem_append.mp hi with hi | hi
      · exact (hle i hi).trans hnewer.le
      · rw [List.mem_singleton.mp hi]
    · simp only [if_neg hnewer]
      refine ⟨hfrom.imp id fun hmem => List.mem_append_left _ hmem, ?_⟩
      intro i hi
      rcases List.mem_append.mp hi with hi | hi
      · exact hle i hi
      · rw [List.mem_singleton.mp hi]
        exact Nat.not_lt.mp hnewer

end PhxSql.Store
