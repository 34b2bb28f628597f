import PhxSql.Proto.Wire
import PhxSql.Store.EventIndex

/-!
# The UUID table in a header

A file header holds the UUID table as `SerializeToBuffer` writes it: the places, without their keys
and without `newest_info_`. A process that starts from the header derives both again: the key of a
place is the UUID of its GTID, and `newest_info_` is the place with the largest instance id, where
an empty table counts as 0. Updates come with increasing instance ids, so the last one has the
largest id of all, and the table is restored (`snapshot_restores_table`) unless its only place has
the id 0. `AddEvent` adds no event with the id 0.
-/

set_option autoImplicit false

namespace PhxSql.Store

open PhxSql.Proto PhxSql.Lib PhxSql.Gtid

/-- The table after updates, each with the GTID it is made with. -/
def updateAll (updates : List (Bytes × EventDataInfo)) : EventUUIDHandler :=
  updates.foldl (fun h u => updateEventUUIDInfoByGTID h u.1 u.2) {}

/-- Updates as the store makes them: canonical GTIDs, which the places repeat, with increasing
instance ids. -/
structure UpdateRun (updates : List (Bytes × EventDataInfo)) : Prop where
  canonical : ∀ u ∈ updates, Canonical u.1
  gtid : ∀ u ∈ updates, u.2.gtid = u.1
  increasing : updates.Pairwise fun u w => u.2.instanceId < w.2.instanceId

theorem updateAll_concat (updates : List (Bytes × EventDataInfo)) (u : Bytes × EventDataInfo) :
    updateAll (updates ++ [u]) = updateEventUUIDInfoByGTID (updateAll updates) u.1 u.2 := by
  rw [updateAll, List.foldl_append]
  rfl

theorem newestInfo_updateAll_concat (updates : List (Bytes × EventDataInfo))
    (u : Bytes × EventDataInfo) : (updateAll (updates ++ [u])).newestInfo = u.2 := by
  rw [updateAll_concat]
  rfl

/-- Every place of the table comes from an update and stands under the UUID of its GTID. -/
theorem mem_mapUuid_updateAll {updates : List (Bytes × EventDataInfo)}
    (hgtid : ∀ u ∈ updates, u.2.gtid = u.1) :
    ∀ e ∈ (updateAll updates).mapUuid.entries,
      e.1 = getUUIDByGTID e.2.gtid ∧ e.2 ∈ updates.map Prod.snd := by
  induction updates using List.reverseRecOn with
  | nil =>
    intro e he
    cases he
  | append_singleton updates u ih =>
    intro e he
    rw [updateAll_concat] at he
    rcases SortedMap.mem_insert.mp he with rfl | ⟨he, -⟩
    · rw [hgtid u (by simp)]
      exact ⟨rfl, by simp⟩
    · obtain ⟨hkey, hmem⟩ := ih (fun w hw => hgtid w (List.mem_append_left _ hw)) e he
      exact ⟨hkey, by simp [hmem]⟩

/-! ## What a load derives again -/

/-- The newest place is found again, unless it is the only one and has the id 0. -/
theorem newestInfo_reload {updates : List (Bytes × EventDataInfo)} (hrun : UpdateRun updates)
    (hfirst : ∀ u, updates = [u] → 0 < u.2.instanceId) :
    (parseFromEventInfoList {} (serializeToEventInfoList (updateAll updates))).newestInfo =
      (updateAll updates).newestInfo := by
  obtain ⟨hfrom, hle⟩ :=
    le_newestInfo_parseFromEventInfoList {} (serializeToEventInfoList (updateAll updates))
  rcases List.eq_nil_or_concat' updates with rfl | ⟨before, u, rfl⟩
  · rfl
  · rw [newestInfo_updateAll_concat]
    have hbefore := (List.pairwise_append.mp hrun.increasing).2.2
    have hlast : u.2 ∈ serializeToEventInfoList (updateAll (before ++ [u])) := by
      rw [updateAll_concat]
      exact List.mem_map.mpr ⟨(getUUIDByGTID u.1, u.2), SortedMap.mem_insert.mpr (.inl rfl), rfl⟩
    have hmax := hle u.2 hlast
    rcases hfrom with hempty | hmem
    · -- A fresh table stays only before places with the id 0: one place, the last one.
      rw [hempty] at hmax
      have hzero : u.2.instanceId = 0 := Nat.le_zero.mp hmax
      cases before with
      | nil =>
        have hpos := hfirst u rfl
        omega
      | cons w before =>
        have hlt := hbefore w List.mem_cons_self u (List.mem_singleton_self u)
        omega
    · -- Every other place is older than the last one.
      obtain ⟨e, he, heq⟩ := List.mem_map.mp hmem
      obtain ⟨-, hupdate⟩ := mem_mapUuid_updateAll hrun.gtid e he
      rw [heq, List.map_append, List.mem_append] at hupdate
      rcases hupdate with hold | hnew
      · obtain ⟨w, hw, hinfo⟩ := List.mem_map.mp hold
        have hlt := hbefore w hw u (List.mem_singleton_self u)
        rw [hinfo] at hlt
        omega
      · exact List.mem_singleton.mp hnew

/-! ## The round trip -/

section Snapshot

variable (cx : Codecs)

/-- A header snapshot restores the UUID table: the bytes `SerializeToBuffer` gives, loaded into a
fresh handler, make the same table with the same newest place, unless the only update had the
instance id 0. An empty buffer parses to an empty table. -/
theorem snapshot_restores_table (hparse : cx.eventDataInfoList.parse [] = some [])
    (updates : List (Bytes × EventDataInfo)) (hrun : UpdateRun updates)
    (hfirst : ∀ u, updates = [u] → 0 < u.2.instanceId) (index index' : EventIndex) (bytes : Bytes)
    (hserialized : serializeToBuffer cx (updateAll updates) index = (.ok, bytes, index'))
    (checkpointData : EventData) (hdata : checkpointData.data = bytes) :
    loadUUIDFromCheckPoint cx {} checkpointData = (.ok, updateAll updates) := by
  have hlossless :
      cx.eventDataInfoList.parse bytes = some (serializeToEventInfoList (updateAll updates)) := by
    unfold serializeToBuffer at hserialized
    split at hserialized
    · split at hserialized <;> cases hserialized
    · rename_i bytes' hbytes
      cases hserialized
      exact cx.eventDataInfoList.parse_serialize trivial hbytes
  have hloaded : parseFromEventInfoList {} (serializeToEventInfoList (updateAll updates)) =
      updateAll updates := by
    have hmap := mapUuid_reload (fun e he => (mem_mapUuid_updateAll hrun.gtid e he).1) {}
    have hnewest := newestInfo_reload hrun hfirst
    generalize parseFromEventInfoList {} (serializeToEventInfoList (updateAll updates)) = loaded
      at hmap hnewest
    cases loaded
    simp only at hmap hnewest
    rw [hmap, hnewest]
  unfold loadUUIDFromCheckPoint
  rw [hdata]
  split
  · -- No bytes: the table is empty, as the fresh one is.
    rename_i hempty
    rw [List.isEmpty_iff.mp hempty, hparse, Option.some.injEq] at hlossless
    rw [← hlossless] at hloaded
    rw [← hloaded]
    rfl
  · rw [hlossless]
    simp only [hloaded]

end Snapshot

/-- An update with the GTID number of a UUID of 16 equal bytes. -/
def sampleUpdate (b : UInt8) (n instanceId : Nat) : Bytes × EventDataInfo :=
  (genGTID (genUUID (List.replicate 16 b)) n,
    { gtid := genGTID (genUUID (List.replicate 16 b)) n, checksum := 7, instanceId := instanceId })

theorem canonical_sampleUpdate (b : UInt8) (n instanceId : Nat) (hn : n < 2 ^ 64) :
    Canonical (sampleUpdate b n instanceId).1 :=
  ⟨List.replicate 16 b, n, List.length_replicate, hn, rfl⟩

/-- The updates of two UUIDs, the first of which comes back. -/
def twoUuids : List (Bytes × EventDataInfo) :=
  [sampleUpdate 171 1 3, sampleUpdate 18 1 4, sampleUpdate 171 2 6]

theorem updateRun_twoUuids : UpdateRun twoUuids where
  canonical := by
    simp only [twoUuids, List.forall_mem_cons]
    exact ⟨canonical_sampleUpdate 171 1 3 (by decide), canonical_sampleUpdate 18 1 4 (by decide),
      canonical_sampleUpdate 171 2 6 (by decide), by simp⟩
  gtid := by decide +kernel
  increasing := by decide +kernel

theorem snapshot_restores_twoUuids :
    loadUUIDFromCheckPoint wireCodecs {}
        { data := (serializeToBuffer wireCodecs (updateAll twoUuids) .empty).2.1 } =
      (.ok, updateAll twoUuids) := by
  have hok : (serializeToBuffer wireCodecs (updateAll twoUuids) .empty).1 = .ok := by
    decide +kernel
  refine snapshot_restores_table wireCodecs (by decide +kernel) twoUuids updateRun_twoUuids ?_
    .empty (serializeToBuffer wireCodecs (updateAll twoUuids) .empty).2.2 _ ?_ _ rfl
  · intro u hu
    cases hu
  · rw [← hok]

/-- One update with the instance id 0. -/
def zeroUpdate : List (Bytes × EventDataInfo) :=
  [sampleUpdate 171 1 0]

/-- A table whose only place has the instance id 0 is loaded without a newest place. -/
theorem snapshot_loses_zero :
    UpdateRun zeroUpdate ∧
    (serializeToBuffer wireCodecs (updateAll zeroUpdate) .empty).1 = .ok ∧
    (loadUUIDFromCheckPoint wireCodecs {}
        { data := (serializeToBuffer wireCodecs (updateAll zeroUpdate) .empty).2.1 }).1 = .ok ∧
    (loadUUIDFromCheckPoint wireCodecs {}
        { data := (serializeToBuffer wireCodecs (updateAll zeroUpdate) .empty).2.1 }).2.newestInfo ≠
      (updateAll zeroUpdate).newestInfo := by
  refine ⟨?_, by decide +kernel, by decide +kernel, by decide +kernel⟩
  refine { canonical := ?canonical, gtid := by decide +kernel, increasing := by decide +kernel }
  case canonical =>
    simp only [zeroUpdate, List.forall_mem_cons]
    exact ⟨canonical_sampleUpdate 171 1 0 (by decide), by simp⟩

end PhxSql.Store
