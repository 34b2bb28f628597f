import PhxSql.Gtid.GtidSet
import PhxSql.Store.Groups
import PhxSql.Store.Reading

/-!
# The sign-up of a replica with a GTID set

From the last GTIDs of the intervals of the set, `GetLastGtid` takes the one that lies furthest in
the files, and the events are sent from its group on. So an accepted replica gets every group from
there on (`signUp_from_furthest`). It does not get a group it lacks that is older than that
position, which a set with a hole can have (`signUp_skips_hole`).
-/

set_option autoImplicit false

namespace PhxSql.Store

open PhxSql.Proto PhxSql.Lib PhxSql.Gtid

variable (cx : Codecs)

/-- `ReplicationSlave::DealWithGTIDCommand`. -/
def dealWithGTIDCommand (s : EventStorage) (buffer : Bytes) : RetCode × EventStorage :=
  let parsed := parsePreviousGTIDCommand buffer
  if parsed.1 ≠ .ok then (parsed.1, s) else signUpGTID cx s (parsed.2.map Prod.snd)

variable {cx}

theorem dealWithGTIDCommand_encode (s : EventStorage) (c : DumpCommand) :
    dealWithGTIDCommand cx s c.encode = signUpGTID cx s c.set.lastGtids := by
  obtain ⟨texts, hparse, hmap⟩ := parsePreviousGTIDCommand_encode c
  simp only [dealWithGTIDCommand, hparse, hmap, ne_eq, not_true, if_false]

/-! ## The furthest group -/

/-- The place is that of the newest event in the files that holds one of these transactions. -/
structure Furthest (h : History) (gtids : List Bytes) (best : Option EventDataInfo) : Prop where
  le : ∀ y ∈ h.kept, ∀ gtid ∈ gtids, gtid ∈ groupGtids y.data →
    y.data.instanceId ≤ (best.getD {}).instanceId
  found : ∀ info, best = some info →
    ∃ x ∈ h.kept, info = x.info ∧ ∃ gtid ∈ gtids, gtid ∈ groupGtids x.data

theorem furthest_nil (h : History) : Furthest h [] none where
  le := by
    intro y _ gtid hgtid
    cases hgtid
  found := by
    intro info hinfo
    cases hinfo

/-- A GTID whose event is not newer than the furthest one changes nothing. -/
theorem Furthest.skip {h : History} {gtids : List Bytes} {best : Option EventDataInfo}
    (hf : Furthest h gtids best) {gtid : Bytes}
    (hle : ∀ y ∈ h.kept, gtid ∈ groupGtids y.data →
      y.data.instanceId ≤ (best.getD {}).instanceId) : Furthest h (gtids ++ [gtid]) best where
  le := by
    intro y hy gtid' hgtid' hmem
    rcases List.mem_append.mp hgtid' with hgtid' | hgtid'
    · exact hf.le y hy gtid' hgtid' hmem
    · rw [List.mem_singleton.mp hgtid'] at hmem
      exact hle y hy hmem
  found := by
    intro info hinfo
    obtain ⟨x, hx, hplace, gtid', hgtid', hmem⟩ := hf.found info hinfo
    exact ⟨x, hx, hplace, gtid', List.mem_append_left _ hgtid', hmem⟩

/-- A GTID whose event is newer gives the furthest one. -/
theorem Furthest.take {h : History} {gtids : List Bytes} {best : Option EventDataInfo}
    (hf : Furthest h gtids best) {gtid : Bytes} {x : AcceptedEvent} (hx : x ∈ h.kept)
    (hgtid : gtid ∈ groupGtids x.data) (hlt : (best.getD {}).instanceId < x.info.instanceId)
    (hle : ∀ y ∈ h.kept, gtid ∈ groupGtids y.data → y.data.instanceId ≤ x.data.instanceId) :
    Furthest h (gtids ++ [gtid]) (some x.info) where
  le := by
    intro y hy gtid' hgtid' hmem
    rcases List.mem_append.mp hgtid' with hgtid' | hgtid'
    · exact Nat.le_trans (hf.le y hy gtid' hgtid' hmem) (Nat.le_of_lt hlt)
    · rw [List.mem_singleton.mp hgtid'] at hmem
      exact hle y hy hmem
  found := by
    rintro info ⟨⟩
    exact ⟨x, hx, rfl, gtid, by simp, hgtid⟩

section Loop

variable {h : History} {segs : List Segment} (hg : Grouped cx h segs)

include hg

/-- A smaller number of the same UUID is in no newer event. -/
theorem Grouped.le_of_smaller {x y : AcceptedEvent} (hx : x ∈ h.accepted) (hy : y ∈ h.accepted)
    {gtid : Bytes} (hgtid : gtid ∈ groupGtids y.data)
    (huuid : (parseGTID x.data.gtid).1 = (parseGTID gtid).1)
    (hlt : (parseGTID gtid).2 < (parseGTID x.data.gtid).2) :
    y.data.instanceId ≤ x.data.instanceId := by
  obtain ⟨_, _, _, hgroup⟩ := hg.groups y hy
  rcases hg.older_or hx hy with rfl | ⟨-, hold⟩ | ⟨hid, -⟩
  · exact Nat.le_refl _
  · have hgt := hold (huuid.trans (hgroup.parse_of_mem hgtid).1) gtid hgtid
    exact absurd hlt (Nat.not_lt_of_le (Nat.le_of_lt hgt))
  · exact Nat.le_of_lt hid

/-- One round of the loop of `GetLastGtid`. -/
theorem Grouped.getLastGtidLoop_cons (gtids : List Bytes) {gtid : Bytes} (hne : gtid ≠ [])
    {seen : List Bytes} {best : Option EventDataInfo} (hf : Furthest h seen best) :
    ∃ d best', getLastGtidLoop cx h.store (gtid :: gtids) best =
        getLastGtidLoop cx { h.store with disk := d } gtids best' ∧
      Furthest h (seen ++ [gtid]) best' ∧
      Looked (Found h.store gtid) h.store { h.store with disk := d } := by
  have hrefl : Looked (Found h.store gtid) h.store { h.store with disk := h.store.disk } :=
    .refl _ _
  simp only [getLastGtidLoop]
  split
  · -- The GTID has a smaller number than the furthest one of its UUID.
    rename_i hsmall
    obtain ⟨hbest, huuid, hlt⟩ := hsmall
    refine ⟨h.store.disk, best, rfl, hf.skip ?_, hrefl⟩
    intro y hy hmem
    cases hsome : best with
    | none =>
      rw [hsome] at hbest
      exact absurd rfl hbest
    | some info =>
      obtain ⟨x, hx, rfl, -⟩ := hf.found info hsome
      rw [hsome] at huuid hlt
      exact hg.le_of_smaller (History.mem_kept.mp hx).1 (History.mem_kept.mp hy).1 hmem huuid hlt
  · split
    · -- The lookup finds a newer event.
      rename_i hnew
      obtain ⟨hret, hlt⟩ := hnew
      have hfound : realGetGTIDInfo h.store gtid true =
          (.ok, (realGetGTIDInfo h.store gtid true).2) := Prod.ext hret rfl
      refine ⟨_, _, rfl, ?_, @looked_check cx _ _ _ rfl hret⟩
      split
      · rename_i hcheck
        obtain ⟨x, hx, hplace, hmem⟩ := hg.mem_of_confirmed hne hfound hcheck
        rw [hplace] at hlt ⊢
        refine hf.take hx hmem hlt ?_
        intro y hy hmem'
        have hsame := hg.realGetGTIDInfo_eq hy hmem'
        rw [hg.realGetGTIDInfo_eq hx hmem] at hsame
        have hid : x.info.instanceId = y.info.instanceId := by rw [(Prod.mk.inj hsame).2]
        exact Nat.le_of_eq hid.symm
      · rename_i hcheck
        -- It does not hold the GTID, so no event in the files does.
        refine hf.skip ?_
        intro y hy hmem
        rw [hg.realGetGTIDInfo_eq hy hmem, hg.checkGtidInData_kept hy hne, if_pos hmem] at hcheck
        exact absurd rfl hcheck
    · rename_i hold
      refine ⟨h.store.disk, best, rfl, hf.skip ?_, hrefl⟩
      intro y hy hmem
      rw [hg.realGetGTIDInfo_eq hy hmem] at hold
      exact Nat.le_of_not_lt fun hlt => hold ⟨rfl, hlt⟩

end Loop

/-- The loop of `GetLastGtid` gives the furthest group. -/
theorem getLastGtidLoop_furthest {segs : List Segment} (gtids : List Bytes) :
    ∀ (h : History) (seen : List Bytes) (best : Option EventDataInfo), Grouped cx h segs →
      (∀ gtid ∈ gtids, gtid ≠ []) → Furthest h seen best →
      Furthest h (seen ++ gtids) (getLastGtidLoop cx h.store gtids best).1 := by
  induction gtids with
  | nil =>
    intro h seen best _ _ hf
    rw [List.append_nil]
    exact hf
  | cons gtid gtids ih =>
    intro h seen best hg hne hf
    obtain ⟨d, best', hloop, hf', hl⟩ := hg.getLastGtidLoop_cons gtids (hne gtid List.mem_cons_self) hf
    have hg' := hg.looked
      (fun f hfound => hg.inv.rep.fileName_of_known (hg.inv.known_of_found hfound)) hl
    have hrest := ih { h with store := { h.store with disk := d } } (seen ++ [gtid]) best' hg'
      (fun gtid' hgtid' => hne gtid' (List.mem_cons_of_mem _ hgtid')) ⟨hf'.le, hf'.found⟩
    rw [hloop]
    rw [List.append_assoc, List.singleton_append] at hrest
    exact ⟨hrest.le, hrest.found⟩

/-! ## The events after the sign-up -/

theorem map_data_filter_placedFrom (file : Bytes) (offset : Nat) (rs : List EventData) :
    ((placedFrom cx file offset rs).filter fun x => x.data.gtid ≠ []).map AcceptedEvent.data =
      rs.filter fun r => r.gtid ≠ [] := by
  have hdata := @map_data_placedFrom cx file rs offset
  conv_rhs => rw [← hdata, List.filter_map]
  rfl

/-- From the place of an event the files hold it and the events after it. -/
theorem exists_placed_split {segs : List Segment} {x : AcceptedEvent}
    (hx : x ∈ placedEvents cx segs) :
    ∃ before after rest, placedEvents cx segs = before ++ x :: after ∧
      AtRecords cx segs x.place rest ∧
      rest.filter (fun r => r.gtid ≠ []) = (x :: after).map AcceptedEvent.data := by
  obtain ⟨hx, hgtid⟩ := List.mem_filter.mp hx
  have hne : x.data.gtid ≠ [] := by simpa using hgtid
  obtain ⟨g, hg, hfrom⟩ := List.mem_flatMap.mp hx
  obtain ⟨sb, sa, rfl⟩ := List.append_of_mem hg
  obtain ⟨pre, post, hrecords, hplace⟩ := mem_placedFrom hfrom
  rw [Nat.zero_add] at hplace
  have hself : x = ⟨⟨g.file, (segmentBytes cx pre).length⟩, x.data⟩ := by rw [← hplace]
  have hfile : placedFrom cx g.file 0 g.records = placedFrom cx g.file 0 pre ++
      x :: placedFrom cx g.file
        ((segmentBytes cx pre).length + (frame (recordBytes cx x.data)).length) post := by
    rw [hrecords, placedFrom_append, Nat.zero_add, placedFrom, ← hself]
  -- The events before are those of the files before and of the records before it in its file.
  have hsplit : placedEvents cx (sb ++ g :: sa) =
      (placedEvents cx sb ++ (placedFrom cx g.file 0 pre).filter fun x => x.data.gtid ≠ []) ++
        x :: (((placedFrom cx g.file ((segmentBytes cx pre).length +
          (frame (recordBytes cx x.data)).length) post).filter fun x => x.data.gtid ≠ []) ++
            placedEvents cx sa) := by
    simp only [placedEvents, List.flatMap_append, List.flatMap_cons, List.filter_append, hfile,
      List.append_assoc, List.cons_append]
    rw [List.filter_cons_of_pos (by simpa using hne), List.filter_append]
  refine ⟨_, _, x.data :: post ++ sa.flatMap Segment.records, hsplit,
    ⟨sb, g, sa, pre, x.data :: post, rfl, hrecords, hplace, rfl⟩, ?_⟩
  rw [List.map_cons, List.map_append, map_data_filter_placedFrom, map_data_placedEvents, eventsOf,
    List.cons_append, List.filter_cons_of_pos (by simpa using hne), List.filter_append]

/-- The stored events are those that were accepted and not deleted, in the order of their
acceptance. -/
theorem HistoryInv.storedEvents_eq {h : History} {segs : List Segment} (hinv : HistoryInv cx h segs) :
    storedEvents cx h.store = h.kept.map AcceptedEvent.data := by
  rw [hinv.rep.files.storedEvents_eq, ← @map_data_placedEvents cx, hinv.placed_eq_kept]

/-- Repositioning to a place in the files that the lookup gives. -/
theorem HistoryInv.reSet_of_found {h : History} {segs : List Segment} (hinv : HistoryInv cx h segs)
    {x : AcceptedEvent} (hx : x ∈ h.kept) {gtid : Bytes} (hgtid : gtid ≠ [])
    (hfound : realGetGTIDInfo h.store gtid true = (.ok, x.info)) :
    reSet h.store gtid = (.ok, h.store.withReader x.place) := by
  have hopen : createFile h.store.disk x.place.path = h.store.disk := by
    rw [← hinv.placed_eq_kept] at hx
    obtain ⟨g, hmem, _, _, -, hplace⟩ := placed_segment hx
    rw [hplace]
    exact createFile_of_find? (hinv.rep.files.contents g hmem)
  have hpos : setFileReadPos h.store.disk h.store.manager.reader x.place.path x.place.offset =
      (h.store.disk, x.place) := by
    unfold setFileReadPos
    split
    · simp only [reOpenRead, hopen]
    · rename_i hpath
      rw [not_not.mp hpath]
  have hinfo : setReadPos h.store.disk h.store.manager x.info =
      (h.store.disk, { h.store.manager with reader := x.place }) := by
    have hplace : x.info.fileName = x.place.path ∧ x.info.offset = x.place.offset := ⟨rfl, rfl⟩
    rw [setReadPos, hplace.1, hplace.2, hpos]
  simp only [reSet, hgtid, if_false, hfound, reduceCtorEq, if_true, hinfo,
    EventStorage.withReader]

/-- Repositioning to an event in the files. -/
theorem Grouped.reSet_kept {h : History} {segs : List Segment} (hg : Grouped cx h segs)
    {x : AcceptedEvent} (hx : x ∈ h.kept) :
    reSet h.store x.data.gtid = (.ok, h.store.withReader x.place) := by
  have hacc := (History.mem_kept.mp hx).1
  obtain ⟨_, _, _, hgroup⟩ := hg.groups x hacc
  exact hg.inv.reSet_of_found hx (hg.inv.gtids x hacc)
    (hg.realGetGTIDInfo_eq hx hgroup.gtid_mem)

theorem ne_nil_of_mem_lastGtids {S : GtidSet} {gtid : Bytes} (h : gtid ∈ S.lastGtids) :
    gtid ≠ [] := by
  obtain ⟨e, -, h⟩ := List.mem_flatMap.mp h
  obtain ⟨iv, -, rfl⟩ := List.mem_map.mp h
  simp [genGTID]

/-- The groups a replica gets after an accepted sign-up. -/
theorem Grouped.getEvents_signUp {h : History} {segs : List Segment} (hg : Grouped cx h segs)
    {gtids : List Bytes} (hnil : gtids ≠ []) (hne : ∀ gtid ∈ gtids, gtid ≠ [])
    (hok : (signUpGTID cx h.store gtids).1 = .ok) :
    ∃ before x after, h.kept = before ++ x :: after ∧
      (∃ gtid ∈ gtids, gtid ∈ groupGtids x.data) ∧
      (∀ y ∈ after, ∀ gtid ∈ gtids, gtid ∉ groupGtids y.data) ∧
      ∀ n, getEvents cx n (signUpGTID cx h.store gtids).2 =
        ((x :: after).map AcceptedEvent.data).take n := by
  have hloop := getLastGtidLoop_furthest gtids h [] none hg hne (furthest_nil h)
  have hl := @getLastGtidLoop_looked cx gtids h.store none
  rw [List.nil_append] at hloop
  have hempty : gtids.isEmpty = false := by simpa using hnil
  cases hbest : (getLastGtidLoop cx h.store gtids none).1 with
  | none =>
    simp [signUpGTID, getLastGtid, hempty, hbest] at hok
  | some info =>
    rw [hbest] at hloop
    obtain ⟨x, hx, rfl, hcontains⟩ := hloop.found info rfl
    have hg' := hg.looked (fun f hf => by
      obtain ⟨gtid, -, hfound⟩ := hf
      exact hg.inv.rep.fileName_of_known (hg.inv.known_of_found hfound)) hl
    have hsign : signUpGTID cx h.store gtids =
        reSet (getLastGtidLoop cx h.store gtids none).2 x.data.gtid := by
      simp only [signUpGTID, getLastGtid, hempty, Bool.false_eq_true, if_false, hbest, ne_eq,
        not_true]
      rfl
    obtain ⟨before, after, rest, hkept, hat, hrest⟩ :=
      exists_placed_split (hg.inv.placed_eq_kept ▸ hx)
    rw [hg.inv.placed_eq_kept] at hkept
    refine ⟨before, x, after, hkept, hcontains, ?_, ?_⟩
    · -- The events after this one are newer, and no newer one holds a GTID of the list.
      intro y hy gtid hgtid hmem
      have hykept : y ∈ h.kept := by simp [hkept, hy]
      have hids : h.kept.Pairwise fun x y => x.data.instanceId < y.data.instanceId :=
        hg.inv.ids.filter _
      rw [hkept] at hids
      have hlt := (List.pairwise_cons.mp (List.pairwise_append.mp hids).2.1).1 y hy
      exact absurd (hloop.le y hykept gtid hgtid hmem) (Nat.not_le_of_lt hlt)
    · intro n
      rw [hsign, hg'.reSet_kept hx]
      have hget := getEvents_eq n
        ((getLastGtidLoop cx h.store gtids none).2.withReader x.place) rest hg'.inv.rep.files hat
      rw [hget, hrest]

/-- In every run with groups in order: if a replica with a GTID set is accepted, it gets exactly the
stored groups from the newest one on that holds the last GTID of an interval of its set. So it gets
every stored group with a transaction it lacks that is not older than that one. -/
theorem signUp_from_furthest (cx : Codecs) (h : History)
    (hr : Transition.ReachableBy (historySystem cx) (GroupAdd cx) h) (c : DumpCommand)
    (hset : c.set.lastGtids ≠ [])
    (hok : (dealWithGTIDCommand cx h.store c.encode).1 = .ok) :
    ∃ before r after, storedEvents cx h.store = before ++ r :: after ∧
      (∃ gtid ∈ c.set.lastGtids, gtid ∈ groupGtids r) ∧
      (∀ r' ∈ after, ∀ gtid ∈ c.set.lastGtids, gtid ∉ groupGtids r') ∧
      (∀ n, getEvents cx n (dealWithGTIDCommand cx h.store c.encode).2 = (r :: after).take n) ∧
      ∀ r' ∈ storedEvents cx h.store, (∃ gtid ∈ groupGtids r', ¬c.set.Contains gtid) →
        r.instanceId ≤ r'.instanceId →
        r' ∈ getEvents cx (storedEvents cx h.store).length
          (dealWithGTIDCommand cx h.store c.encode).2 := by
  obtain ⟨segs, hg⟩ := grouped_of_reachable hr
  rw [dealWithGTIDCommand_encode] at hok ⊢
  obtain ⟨before, x, after, hkept, hcontains, hafter, hget⟩ :=
    hg.getEvents_signUp hset (fun gtid hgtid => ne_nil_of_mem_lastGtids hgtid) hok
  have hstored : storedEvents cx h.store =
      before.map AcceptedEvent.data ++ x.data :: after.map AcceptedEvent.data := by
    rw [hg.inv.storedEvents_eq, hkept, List.map_append, List.map_cons]
  have hids : (before ++ x :: after).Pairwise fun x y => x.data.instanceId < y.data.instanceId :=
    hkept ▸ hg.inv.ids.filter _
  refine ⟨before.map AcceptedEvent.data, x.data, after.map AcceptedEvent.data, hstored, hcontains,
    ?_, hget, ?_⟩
  · intro r' hr'
    obtain ⟨y, hy, rfl⟩ := List.mem_map.mp hr'
    exact hafter y hy
  · intro r' hr' _ hle
    rw [hstored] at hr'
    rcases List.mem_append.mp hr' with hold | hnew
    · -- A group before the position is older.
      obtain ⟨y, hy, rfl⟩ := List.mem_map.mp hold
      have hlt := (List.pairwise_append.mp hids).2.2 y hy x List.mem_cons_self
      exact absurd hle (Nat.not_le_of_lt hlt)
    · have hlen : (x.data :: after.map AcceptedEvent.data).length ≤
          (storedEvents cx h.store).length := by
        rw [hstored, List.length_append]
        exact Nat.le_add_left _ _
      rw [hget, List.map_cons, List.take_of_length_le hlen]
      exact hnew

/-! ### A set with a hole -/

/-- Once `GetEvent` finds no event, more calls return nothing new. -/
theorem getEvents_subset (m : Nat) :
    ∀ (n : Nat) (s : EventStorage), (getEvents cx m s).length < m →
      getEvents cx n s ⊆ getEvents cx m s := by
  induction m with
  | zero =>
    intro n s hlt
    exact absurd hlt (Nat.not_lt_zero _)
  | succ m ih =>
    intro n s hlt
    cases n with
    | zero => simp [getEvents]
    | succ n =>
      simp only [getEvents] at hlt ⊢
      split
      · rename_i hret
        rw [if_pos hret, List.length_cons] at hlt
        exact List.cons_subset_cons _ (ih n _ (Nat.lt_of_succ_lt_succ hlt))
      · exact List.nil_subset _

theorem threeHistory_reachable :
    Transition.ReachableBy (historySystem wireCodecs) (GroupAdd wireCodecs) threeHistory := by
  have h₁ := Transition.ReachableBy.init.step
    (show GroupAdd wireCodecs (historySystem wireCodecs).init (sampleAdd 1) from
      ⟨⟨_, _, _, isGroup_sampleEvent (by decide) (by decide) (by decide), by decide⟩, by decide,
        by decide⟩) rfl
  have h₂ := h₁.step (show GroupAdd wireCodecs _ (sampleAdd 2) from
    ⟨⟨_, _, _, isGroup_sampleEvent (by decide) (by decide) (by decide), by decide +kernel⟩,
      by decide, by decide⟩) rfl
  simp only [threeHistory, List.foldl_cons, List.foldl_nil]
  exact h₂.step (show GroupAdd wireCodecs _ (sampleAdd 3) from
    ⟨⟨_, _, _, isGroup_sampleEvent (by decide) (by decide) (by decide), by decide +kernel⟩,
      by decide, by decide⟩) rfl

theorem length_sampleSid : sampleSid.length = 16 := rfl

theorem length_noHeader : (List.replicate 6 0 : Bytes).length = 6 := rfl

theorem length_noName : ([] : Bytes).length < 2 ^ 32 := by
  decide

theorem length_noPosition : (List.replicate 8 0 : Bytes).length = 8 := rfl

/-- A replica with the transactions of these intervals of one server. -/
def sampleCommand (intervals : List (Nat × Nat))
    (ordered : ∀ iv ∈ intervals, iv.1 ≤ iv.2 ∧ iv.2 + 1 < 2 ^ 64)
    (small : (GtidSet.encode [⟨sampleSid, intervals, length_sampleSid, ordered⟩]).length <
      2 ^ 32) :
    DumpCommand where
  header := List.replicate 6 0
  name := []
  position := List.replicate 8 0
  set := [⟨sampleSid, intervals, length_sampleSid, ordered⟩]
  header_length := length_noHeader
  name_length := length_noName
  position_length := length_noPosition
  set_length := small

/-- The replica has the first and the third transaction. -/
def holeCommand : DumpCommand :=
  sampleCommand [(1, 1), (3, 3)] (by decide) (by decide)

/-- It is accepted, and never gets the second one. -/
theorem signUp_skips_hole :
    ∃ h, Transition.ReachableBy (historySystem wireCodecs) (GroupAdd wireCodecs) h ∧
      holeCommand.set.lastGtids ≠ [] ∧
      (dealWithGTIDCommand wireCodecs h.store holeCommand.encode).1 = .ok ∧
      ∃ r ∈ storedEvents wireCodecs h.store,
        (∃ gtid ∈ groupGtids r, ¬holeCommand.set.Contains gtid) ∧
        ∀ n, r ∉ getEvents wireCodecs n
          (dealWithGTIDCommand wireCodecs h.store holeCommand.encode).2 := by
  refine ⟨threeHistory, threeHistory_reachable, by decide, by decide +kernel, sampleEvent 2,
    by decide +kernel, ⟨sampleGtid 2, by decide, ?_⟩, ?_⟩
  · rintro ⟨e, he, iv, hiv, n, hfirst, hlast, hgtid⟩
    rw [List.mem_singleton.mp he] at hiv hgtid
    have hn : n = 1 ∨ n = 3 := by
      rcases List.mem_cons.mp hiv with rfl | hiv
      · exact .inl (Nat.le_antisymm hlast hfirst)
      · rw [List.mem_singleton.mp hiv] at hfirst hlast
        exact .inr (Nat.le_antisymm hlast hfirst)
    rcases hn with rfl | rfl
    · exact absurd hgtid (by decide)
    · exact absurd hgtid (by decide)
  · intro n hmem
    have hshort : getEvents wireCodecs 2
        (dealWithGTIDCommand wireCodecs threeHistory.store holeCommand.encode).2 =
          [sampleEvent 3] := by decide +kernel
    have hsub := getEvents_subset 2 n
      (dealWithGTIDCommand wireCodecs threeHistory.store holeCommand.encode).2
      (by rw [hshort]; decide) hmem
    rw [hshort] at hsub
    exact absurd hsub (by decide)

theorem firstTwo_ordered : ∀ iv ∈ [(1, 2)], iv.1 ≤ iv.2 ∧ iv.2 + 1 < 2 ^ 64 := by
  decide

/-- A replica with the first two transactions. -/
def firstTwoCommand : DumpCommand :=
  sampleCommand [(1, 2)] firstTwo_ordered (by decide)

theorem signUp_from_furthest_three :
    (dealWithGTIDCommand wireCodecs threeHistory.store firstTwoCommand.encode).1 = .ok ∧
      ∃ before r after, storedEvents wireCodecs threeHistory.store = before ++ r :: after ∧
        (∃ gtid ∈ firstTwoCommand.set.lastGtids, gtid ∈ groupGtids r) ∧
        ∀ n, getEvents wireCodecs n
          (dealWithGTIDCommand wireCodecs threeHistory.store firstTwoCommand.encode).2 =
            (r :: after).take n := by
  have hok : (dealWithGTIDCommand wireCodecs threeHistory.store firstTwoCommand.encode).1 = .ok := by
    decide +kernel
  obtain ⟨before, r, after, hstored, hcontains, -, hget, -⟩ :=
    signUp_from_furthest wireCodecs threeHistory threeHistory_reachable firstTwoCommand (by decide)
      hok
  exact ⟨hok, before, r, after, hstored, hcontains, hget⟩

end PhxSql.Store
