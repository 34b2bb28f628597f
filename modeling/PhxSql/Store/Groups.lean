import PhxSql.Store.Representation
import Mathlib.Data.List.Pairwise

/-!
# Groups of transactions

An event holds the binlog events of a group of transactions, and its GTID is that of the last of
them. When the groups of a UUID have increasing numbers, the lower bound of the index leads from the
GTID of any transaction to the event that holds it, and `CheckGtidInData` confirms it.
-/

set_option autoImplicit false

namespace PhxSql.Store

open PhxSql.Proto PhxSql.Lib PhxSql.Gtid

/-! ## Groups -/

/-- The GTIDs of the transactions of an event. -/
def groupGtids (r : EventData) : List Bytes :=
  ((parseEventList r.data).2.map Prod.snd).filter fun gtid => gtid ≠ []

/-- The transactions of an event are those of one UUID from a first to a last number. -/
structure IsGroup (r : EventData) (sid : Bytes) (first last : Nat) : Prop where
  sid_length : sid.length = 16
  le : first ≤ last
  lt : last < 2 ^ 64
  gtid : r.gtid = genGTID (genUUID sid) last
  parsed : (parseEventList r.data).1 = .ok
  gtids : groupGtids r = (List.range' first (last + 1 - first)).map (genGTID (genUUID sid))

theorem IsGroup.mem_groupGtids {r : EventData} {sid : Bytes} {first last : Nat}
    (h : IsGroup r sid first last) {gtid : Bytes} :
    gtid ∈ groupGtids r ↔ ∃ n, first ≤ n ∧ n ≤ last ∧ gtid = genGTID (genUUID sid) n := by
  have hle := h.le
  rw [h.gtids, List.mem_map]
  constructor
  · rintro ⟨n, hn, rfl⟩
    obtain ⟨hfirst, hlast⟩ := List.mem_range'_1.mp hn
    exact ⟨n, hfirst, by omega, rfl⟩
  · rintro ⟨n, hfirst, hlast, rfl⟩
    exact ⟨n, List.mem_range'_1.mpr ⟨hfirst, by omega⟩, rfl⟩

theorem IsGroup.parse {r : EventData} {sid : Bytes} {first last : Nat}
    (h : IsGroup r sid first last) : parseGTID r.gtid = (genUUID sid, last) := by
  rw [h.gtid, parseGTID_genUUID h.lt]

theorem IsGroup.canonical {r : EventData} {sid : Bytes} {first last : Nat}
    (h : IsGroup r sid first last) : Canonical r.gtid :=
  ⟨sid, last, h.sid_length, h.lt, h.gtid⟩

/-- The last transaction gives the event its GTID. -/
theorem IsGroup.gtid_mem {r : EventData} {sid : Bytes} {first last : Nat}
    (h : IsGroup r sid first last) : r.gtid ∈ groupGtids r :=
  h.mem_groupGtids.mpr ⟨last, h.le, Nat.le_refl _, h.gtid⟩

/-- A transaction of a group has the UUID of the group and a number in its range. -/
theorem IsGroup.parse_of_mem {r : EventData} {sid : Bytes} {first last : Nat}
    (h : IsGroup r sid first last) {gtid : Bytes} (hmem : gtid ∈ groupGtids r) :
    (parseGTID gtid).1 = (parseGTID r.gtid).1 ∧ first ≤ (parseGTID gtid).2 ∧
      (parseGTID gtid).2 ≤ (parseGTID r.gtid).2 := by
  obtain ⟨n, hfirst, hlast, rfl⟩ := h.mem_groupGtids.mp hmem
  rw [h.parse, parseGTID_genUUID (Nat.lt_of_le_of_lt hlast h.lt)]
  exact ⟨rfl, hfirst, hlast⟩

/-- A GTID of the decoded events that is not empty is one of the group. -/
theorem mem_groupGtids_iff {r : EventData} {gtid : Bytes} (hgtid : gtid ≠ []) :
    gtid ∈ groupGtids r ↔ gtid ∈ (parseEventList r.data).2.map Prod.snd := by
  rw [groupGtids, List.mem_filter]
  exact and_iff_left (by simpa using hgtid)

/-! ## Runs with groups -/

variable (cx : Codecs)

/-- An event that is added holds a group of transactions that are newer than those of its UUID
before it; `uint64` bounds its id, and protobuf serialises it. -/
def GroupAdd (h : History) : StoreAction → Prop
  | .addEvent _ _ data =>
    (∃ sid first last, IsGroup data sid first last ∧
      ∀ x ∈ h.accepted, (parseGTID x.data.gtid).1 = genUUID sid →
        (parseGTID x.data.gtid).2 < first) ∧
      data.instanceId < 2 ^ 64 ∧ (cx.eventData.serialize data).isSome = true
  | _ => True

variable {cx}

theorem newCanonical_of_groupAdd {h : History} {a : StoreAction} (ha : GroupAdd cx h a) :
    NewCanonical cx h a := by
  cases a with
  | addEvent maxSize master data =>
    obtain ⟨⟨sid, first, last, hgroup, hnew⟩, hid, hser⟩ := ha
    refine ⟨hgroup.canonical, ?_, hid, hser⟩
    intro hmem
    -- The last number of the group is not below its first one, which is new.
    obtain ⟨x, hx, hgtid⟩ := List.mem_map.mp hmem
    have hparse : parseGTID x.data.gtid = (genUUID sid, last) := hgtid ▸ hgroup.parse
    have hlt := hnew x hx (by rw [hparse])
    rw [hparse] at hlt
    exact absurd hlt (Nat.not_lt_of_le hgroup.le)
  | makeCheckPoint => trivial
  | getGTIDInfo => trivial
  | getLastGtid => trivial
  | reSet => trivial

/-- The transactions of the second event are newer than those of the first one, if they have one
UUID. -/
def Older (x y : AcceptedEvent) : Prop :=
  (parseGTID x.data.gtid).1 = (parseGTID y.data.gtid).1 →
    ∀ gtid ∈ groupGtids y.data, (parseGTID x.data.gtid).2 < (parseGTID gtid).2

variable (cx) in
/-- A run in which the accepted events are groups in order. -/
structure Grouped (h : History) (segs : List Segment) : Prop where
  inv : HistoryInv cx h segs
  index : IndexInv h
  groups : ∀ x ∈ h.accepted, ∃ sid first last, IsGroup x.data sid first last
  ordered : h.accepted.Pairwise Older

theorem Grouped.looked {names : Bytes → Prop} {h : History} {segs : List Segment}
    (hg : Grouped cx h segs) (hnames : ∀ f, names f → FileName f) {s' : EventStorage}
    (hl : Looked names h.store s') : Grouped cx { h with store := s' } segs :=
  ⟨hg.inv.looked hnames hl, hg.index.looked hl, hg.groups, hg.ordered⟩

theorem Grouped.stepped {h h' : History} {segs segs' : List Segment} (hg : Grouped cx h segs)
    {a : StoreAction} (ha : GroupAdd cx h a) (hs : Stepped cx h segs a h' segs') :
    Grouped cx h' segs' := by
  have hcanon := newCanonical_of_groupAdd ha
  have hinv := hg.inv.stepped (addable_of_newCanonical hcanon) hs
  have hindex := hg.index.stepped hg.inv hcanon hs
  cases hs with
  | rejected => exact hg
  | looked => exact ⟨hinv, hindex, hg.groups, hg.ordered⟩
  | deleted => exact ⟨hinv, hindex, hg.groups, hg.ordered⟩
  | added =>
    obtain ⟨⟨sid, first, last, hgroup, hnew⟩, -⟩ := ha
    refine ⟨hinv, hindex, ?_, ?_⟩
    · intro x hx
      rcases List.mem_append.mp hx with hx | hx
      · exact hg.groups x hx
      · rw [List.mem_singleton.mp hx]
        exact ⟨sid, first, last, hgroup⟩
    · refine List.pairwise_append.mpr ⟨hg.ordered, List.pairwise_singleton .., ?_⟩
      intro x hx y hy huuid gtid hgtid
      rw [List.mem_singleton.mp hy] at huuid hgtid
      have hlt := hnew x hx (huuid.trans (by rw [hgroup.parse]))
      exact Nat.lt_of_lt_of_le hlt (hgroup.parse_of_mem hgtid).2.1

theorem grouped_empty : Grouped cx {} [{ id := 0 }] := by
  refine ⟨historyInv_empty, indexInv_empty, ?_, .nil⟩
  intro x hx
  cases hx

theorem grouped_of_reachable {h : History}
    (hr : Transition.ReachableBy (historySystem cx) (GroupAdd cx) h) :
    ∃ segs, Grouped cx h segs := by
  induction hr with
  | init => exact ⟨_, grouped_empty⟩
  | @step h h' a _ ha hs ih =>
    obtain ⟨segs, hg⟩ := ih
    cases hs
    obtain ⟨segs', hstep⟩ := stepped_of_step hg.inv a
      (addable_of_newCanonical (newCanonical_of_groupAdd ha))
    exact ⟨segs', hg.stepped ha hstep⟩

section Lookups

variable {h : History} {segs : List Segment} (hg : Grouped cx h segs)

include hg

/-- Of two accepted events one is older than the other. -/
theorem Grouped.older_or {x y : AcceptedEvent} (hx : x ∈ h.accepted) (hy : y ∈ h.accepted) :
    x = y ∨ (x.data.instanceId < y.data.instanceId ∧ Older x y) ∨
      (y.data.instanceId < x.data.instanceId ∧ Older y x) := by
  have hsymm : Std.Symm fun x y : AcceptedEvent =>
      (x.data.instanceId < y.data.instanceId ∧ Older x y) ∨
        (y.data.instanceId < x.data.instanceId ∧ Older y x) := ⟨fun _ _ h => h.symm⟩
  have hpair : h.accepted.Pairwise fun x y =>
      (x.data.instanceId < y.data.instanceId ∧ Older x y) ∨
        (y.data.instanceId < x.data.instanceId ∧ Older y x) :=
    (hg.inv.ids.and hg.ordered).imp .inl
  by_cases hne : x = y
  · exact .inl hne
  · exact .inr (hpair.forall hx hy hne)

/-- An event whose number is between that of a transaction and that of its event is that event. -/
theorem Grouped.eq_of_between {x y : AcceptedEvent} (hx : x ∈ h.accepted) (hy : y ∈ h.accepted)
    {gtid : Bytes} (hgtid : gtid ∈ groupGtids x.data)
    (huuid : (parseGTID y.data.gtid).1 = (parseGTID gtid).1)
    (hle : (parseGTID gtid).2 ≤ (parseGTID y.data.gtid).2)
    (hle' : (parseGTID y.data.gtid).2 ≤ (parseGTID x.data.gtid).2) : y = x := by
  obtain ⟨_, _, _, hgroup⟩ := hg.groups x hx
  obtain ⟨_, _, _, hgroup'⟩ := hg.groups y hy
  have huuid' := huuid.trans (hgroup.parse_of_mem hgtid).1
  rcases hg.older_or hy hx with heq | ⟨-, hold⟩ | ⟨-, hold⟩
  · exact heq
  · exact absurd hle (Nat.not_le_of_lt (hold huuid' gtid hgtid))
  · exact absurd hle' (Nat.not_le_of_lt (hold huuid'.symm _ hgroup'.gtid_mem))

/-- A lookup leads from the GTID of a transaction to the event that holds it. -/
theorem Grouped.realGetGTIDInfo_eq {x : AcceptedEvent} (hx : x ∈ h.kept) {gtid : Bytes}
    (hgtid : gtid ∈ groupGtids x.data) : realGetGTIDInfo h.store gtid true = (.ok, x.info) := by
  have hacc := (History.mem_kept.mp hx).1
  obtain ⟨sid, first, last, hgroup⟩ := hg.groups x hacc
  obtain ⟨huuid, -, hle⟩ := hgroup.parse_of_mem hgtid
  -- The entry of the event bounds the lower bound from above, so it has the UUID and a number
  -- between that of the transaction and that of the event.
  have hindexed : getGTIDIndex h.store.index gtid true = (.ok, x.info) := by
    cases hlower : h.store.index.lowerBound gtid with
    | none =>
      have hlt := SortedMap.lowerBound_eq_none_iff.mp hlower _ (hg.index.complete x hx)
      exact absurd (gtidRank_le huuid hle) (not_le_of_gt hlt)
    | some e =>
      obtain ⟨he, hge, hmin⟩ := SortedMap.lowerBound_eq_some_iff.mp hlower
      have hbound := hmin _ (hg.index.complete x hx) (gtidRank_le huuid hle)
      obtain ⟨huuid', hge', hle'⟩ := gtidRank_between huuid hge hbound
      rcases hg.index.sound e he with ⟨l, rfl⟩ | ⟨y, hy, rfl⟩
      · -- The key of the UUID table has no UUID of a group.
        rw [parseGTID_getKeyForUUID, huuid, hgroup.parse] at huuid'
        exact absurd huuid' (getKeyForUUID_ne_genUUID sid)
      · have hxy := hg.eq_of_between hacc (History.mem_kept.mp hy).1 hgtid huuid' hge' hle'
        subst hxy
        simp only [getGTIDIndex, hlower, getUUIDByGTID_eq, huuid', and_self, or_true, if_true]
  simp only [realGetGTIDInfo, hindexed, getLastestGTIDEventByGTID]
  split
  · rename_i info hinfo
    split
    · -- The GTID is the last one of its UUID: the table has the place.
      rename_i heq
      rw [hg.inv.uuid, Option.map_eq_some_iff] at hinfo
      obtain ⟨y, hy, rfl⟩ := hinfo
      have hyacc := (List.mem_filter.mp (List.mem_of_getLast? hy)).1
      have hygtid : y.data.gtid = gtid := heq
      have hxy := hg.eq_of_between hacc hyacc hgtid (by rw [hygtid]) (by rw [hygtid])
        (by rw [hygtid]; exact hle)
      rw [hxy]
    · rfl
  · rfl

/-- A place a lookup returns is that of an accepted event. -/
theorem Grouped.exists_of_realGetGTIDInfo {gtid : Bytes} {info : EventDataInfo}
    (hfound : realGetGTIDInfo h.store gtid true = (.ok, info)) :
    ∃ x ∈ h.accepted, info = x.info := by
  rcases realGetGTIDInfo_ok hfound with ⟨huuid, -⟩ | ⟨e, he, hval⟩
  · rw [hg.inv.uuid, Option.map_eq_some_iff] at huuid
    obtain ⟨x, hx, rfl⟩ := huuid
    exact ⟨x, (List.mem_filter.mp (List.mem_of_getLast? hx)).1, rfl⟩
  · rcases hg.index.sound e he with ⟨l, rfl⟩ | ⟨x, hx, rfl⟩
    · cases hval
    · cases hval
      exact ⟨x, (History.mem_kept.mp hx).1, rfl⟩

theorem Grouped.info_ne_nil {x : AcceptedEvent} (hx : x ∈ h.accepted) :
    x.info.gtid ≠ [] ∧ x.info.fileName ≠ [] := by
  refine ⟨hg.inv.gtids x hx, ?_⟩
  obtain ⟨n, hfile, -⟩ := hg.inv.known x hx
  have hinfo : x.info.fileName = genFileName n := hfile
  rw [hinfo]
  simp [genFileName]

/-- At the place of an event in the files, `CheckGtidInData` confirms the transactions it holds. -/
theorem Grouped.checkGtidInData_kept {x : AcceptedEvent} (hx : x ∈ h.kept) {gtid : Bytes}
    (hgtid : gtid ≠ []) :
    checkGtidInData cx h.store.disk gtid x.info =
      (if gtid ∈ groupGtids x.data then .ok else .dataEmpty, h.store.disk) := by
  have hacc := (History.mem_kept.mp hx).1
  obtain ⟨sid, first, last, hgroup⟩ := hg.groups x hacc
  obtain ⟨hne, hfile⟩ := hg.info_ne_nil hacc
  obtain ⟨-, hkey, hret, hdata⟩ := hg.index.read hg.inv hx
  have hopen : createFile h.store.disk x.info.fileName = h.store.disk := by
    rw [hg.inv.rep.files.keys] at hkey
    obtain ⟨g, hmem, hg'⟩ := List.mem_map.mp hkey
    rw [← hg']
    exact createFile_of_find? (hg.inv.rep.files.contents g hmem)
  rw [checkGtidInData_of_ne _ hgtid hne hfile]
  simp only [hopen, hret, hdata, hgroup.parsed, ne_eq, not_true, if_false,
    ← mem_groupGtids_iff hgtid]

/-- A file that was removed is empty if it was created again, so that `CheckGtidInData` finds
nothing there. -/
theorem Grouped.checkGtidInData_removed {x : AcceptedEvent} (hx : x ∈ h.accepted)
    (hdel : x.place.path ∈ h.deleted) {gtid : Bytes} (hgtid : gtid ≠ []) :
    (checkGtidInData cx h.store.disk gtid x.info).1 = .dataEmpty := by
  obtain ⟨hne, hfile⟩ := hg.info_ne_nil hx
  have hempty : content h.store.disk x.info.fileName = [] := by
    apply hg.inv.rep.files.unlisted
    rintro g hmem heq
    exact hg.inv.listed g hmem (heq ▸ hdel)
  have hread : readData (createFile h.store.disk x.info.fileName)
      { path := x.info.fileName, offset := x.info.offset } =
        (none, { path := x.info.fileName, offset := x.info.offset }) := by
    simp [readData, hempty, readFrame]
  rw [checkGtidInData_of_ne _ hgtid hne hfile]
  simp [readEventFromFile, readNext, hread, parseRead]

/-- A transaction that a lookup finds and `CheckGtidInData` confirms is in an event of the files. -/
theorem Grouped.mem_of_confirmed {gtid : Bytes} (hgtid : gtid ≠ []) {info : EventDataInfo}
    (hfound : realGetGTIDInfo h.store gtid true = (.ok, info))
    (hcheck : (checkGtidInData cx h.store.disk gtid info).1 = .ok) :
    ∃ x ∈ h.kept, info = x.info ∧ gtid ∈ groupGtids x.data := by
  obtain ⟨x, hx, rfl⟩ := hg.exists_of_realGetGTIDInfo hfound
  by_cases hdel : x.place.path ∈ h.deleted
  · rw [hg.checkGtidInData_removed hx hdel hgtid] at hcheck
    cases hcheck
  · have hkept := History.mem_kept.mpr ⟨hx, hdel⟩
    rw [hg.checkGtidInData_kept hkept hgtid] at hcheck
    refine ⟨x, hkept, rfl, ?_⟩
    by_contra hnot
    rw [if_neg hnot] at hcheck
    cases hcheck

/-- The same for the lookup of a checkpoint. -/
theorem Grouped.confirmed_of_getLowerBoundGTIDInfo {gtid : Bytes} (hgtid : gtid ≠ [])
    (hok : (getLowerBoundGTIDInfo cx h.store gtid).1 = .ok) :
    ∃ x ∈ h.kept, (getLowerBoundGTIDInfo cx h.store gtid).2.1 = x.info ∧
      gtid ∈ groupGtids x.data := by
  simp only [getLowerBoundGTIDInfo] at hok ⊢
  split at hok
  · rename_i hfound
    rw [if_pos hfound]
    exact hg.mem_of_confirmed hgtid (Prod.ext hfound rfl) hok
  · rename_i hnot
    exact absurd hok hnot

end Lookups

/-! ### Groups of one transaction -/

theorem isGroup_sampleEvent {n : Nat} (hlt : n < 2 ^ 64)
    (hparsed : (parseEventList (sampleEvent n).data).1 = .ok)
    (hgtids : groupGtids (sampleEvent n) = [sampleGtid n]) :
    IsGroup (sampleEvent n) sampleSid n n := by
  refine ⟨rfl, Nat.le_refl _, hlt, rfl, hparsed, ?_⟩
  rw [hgtids, Nat.add_sub_cancel_left]
  rfl

/-- Three groups of one transaction each. -/
def threeHistory : History :=
  [sampleAdd 1, sampleAdd 2, sampleAdd 3].foldl (historyStep wireCodecs) {}

end PhxSql.Store
