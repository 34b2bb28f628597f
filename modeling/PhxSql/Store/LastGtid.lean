import PhxSql.Store.SignUp

/-!
# What `GetLastGtid` answers

`GetLastGtid` goes through a list of GTIDs with a maximum: it passes over a GTID with a smaller
number than the maximum of its UUID, looks the others up in the UUID table and the index, both of
which may name files that were deleted, and reads the group at the place it finds.
`getLastGtid_reference` says that all this amounts to the plain definition: the answer is the newest
group in the files that holds a GTID of the list, in whatever order the list is given.
-/

set_option autoImplicit false

namespace PhxSql.Store

open PhxSql.Proto PhxSql.Lib PhxSql.Gtid

variable {cx : Codecs}

/-! ## The reference -/

/-- The group holds a GTID of the list. -/
def HoldsOneOf (gtids : List Bytes) (r : EventData) : Prop :=
  ∃ gtid ∈ gtids, gtid ∈ groupGtids r

/-- The group with the largest instance id among those that hold a GTID of the list. -/
structure LastGroup (groups : List EventData) (gtids : List Bytes) (r : EventData) : Prop where
  mem : r ∈ groups
  holds : HoldsOneOf gtids r
  largest : ∀ r' ∈ groups, HoldsOneOf gtids r' → r'.instanceId ≤ r.instanceId

theorem holdsOneOf_perm {gtids gtids' : List Bytes} (h : gtids.Perm gtids') {r : EventData} :
    HoldsOneOf gtids r ↔ HoldsOneOf gtids' r := by
  constructor
  · rintro ⟨gtid, hgtid, hmem⟩
    exact ⟨gtid, h.mem_iff.mp hgtid, hmem⟩
  · rintro ⟨gtid, hgtid, hmem⟩
    exact ⟨gtid, h.mem_iff.mpr hgtid, hmem⟩

/-- The reference does not depend on the order of the list. -/
theorem LastGroup.perm {groups : List EventData} {gtids gtids' : List Bytes} {r : EventData}
    (h : LastGroup groups gtids r) (hperm : gtids.Perm gtids') : LastGroup groups gtids' r where
  mem := h.mem
  holds := (holdsOneOf_perm hperm).mp h.holds
  largest := fun r' hr' hholds => h.largest r' hr' ((holdsOneOf_perm hperm).mpr hholds)

/-- There is at most one such group if no two groups have one instance id. -/
theorem LastGroup.unique {groups : List EventData} {gtids : List Bytes} {r r' : EventData}
    (hids : groups.Pairwise fun r r' => r.instanceId < r'.instanceId) (h : LastGroup groups gtids r)
    (h' : LastGroup groups gtids r') : r = r' := by
  have heq : r.instanceId = r'.instanceId :=
    Nat.le_antisymm (h'.largest r h.mem h.holds) (h.largest r' h'.mem h'.holds)
  have hsymm : Std.Symm fun r r' : EventData => r.instanceId ≠ r'.instanceId :=
    ⟨fun _ _ hne => hne.symm⟩
  have hne : groups.Pairwise fun r r' => r.instanceId ≠ r'.instanceId :=
    hids.imp fun hlt => Nat.ne_of_lt hlt
  by_contra hnot
  exact hne.forall h.mem h'.mem hnot heq

/-! ## The code -/

section Answer

variable {h : History} {segs : List Segment} (hg : Grouped cx h segs)

include hg

/-- The first file has number 0, so that instance ids are positive. -/
theorem Grouped.instanceId_pos {x : AcceptedEvent} (hx : x ∈ h.accepted) : 0 < x.data.instanceId := by
  obtain ⟨n, hfile, -⟩ := hg.inv.known x hx
  exact Nat.lt_of_le_of_lt (Nat.zero_le n) (hg.inv.above x hx n hfile)

theorem Grouped.stored_ids :
    (storedEvents cx h.store).Pairwise fun r r' => r.instanceId < r'.instanceId := by
  rw [hg.inv.storedEvents_eq]
  exact List.Pairwise.map AcceptedEvent.data (fun _ _ hlt => hlt) (hg.inv.ids.filter _)

/-- The answer to a list that is not empty: the GTID of the last group, or none. -/
theorem Grouped.getLastGtid_cases {gtids : List Bytes} (hnil : gtids ≠ [])
    (hne : ∀ gtid ∈ gtids, gtid ≠ []) :
    (∃ r, LastGroup (storedEvents cx h.store) gtids r ∧ (getLastGtid cx h.store gtids).1 = .ok ∧
        (getLastGtid cx h.store gtids).2.1 = r.gtid) ∨
      ((∀ r ∈ storedEvents cx h.store, ¬HoldsOneOf gtids r) ∧
        (getLastGtid cx h.store gtids).1 = .dataEmpty ∧
        (getLastGtid cx h.store gtids).2.1 = []) := by
  have hloop := getLastGtidLoop_furthest gtids h [] none hg hne (furthest_nil h)
  rw [List.nil_append] at hloop
  have hempty : gtids.isEmpty = false := by simpa using hnil
  have hstored := hg.inv.storedEvents_eq
  simp only [getLastGtid, hempty, Bool.false_eq_true, if_false]
  cases hbest : (getLastGtidLoop cx h.store gtids none).1 with
  | none =>
    -- A group that holds a GTID of the list would have instance id 0.
    refine .inr ⟨?_, rfl, rfl⟩
    rintro r hr ⟨gtid, hgtid, hmem⟩
    rw [hstored] at hr
    obtain ⟨y, hy, rfl⟩ := List.mem_map.mp hr
    have hle := hloop.le y hy gtid hgtid hmem
    rw [hbest] at hle
    exact absurd (hg.instanceId_pos (History.mem_kept.mp hy).1) (Nat.not_lt_of_le hle)
  | some info =>
    obtain ⟨x, hx, rfl, hholds⟩ := hloop.found info hbest
    refine .inl ⟨x.data, ⟨?_, hholds, ?_⟩, rfl, rfl⟩
    · rw [hstored]
      exact List.mem_map_of_mem hx
    · rintro r hr ⟨gtid, hgtid, hmem⟩
      rw [hstored] at hr
      obtain ⟨y, hy, rfl⟩ := List.mem_map.mp hr
      have hle := hloop.le y hy gtid hgtid hmem
      rw [hbest] at hle
      exact hle

end Answer

/-- In every run with groups in order, and for every list of canonical GTIDs that is not empty: the
answer is OK exactly if a stored group holds one of them, it is then the GTID of the newest such
group, and it is the same for every order of the list. -/
theorem getLastGtid_reference (cx : Codecs) (h : History)
    (hr : Transition.ReachableBy (historySystem cx) (GroupAdd cx) h) (gtids : List Bytes)
    (hnil : gtids ≠ []) (hcanon : ∀ gtid ∈ gtids, Canonical gtid) :
    ((getLastGtid cx h.store gtids).1 = .ok ↔
        ∃ r ∈ storedEvents cx h.store, HoldsOneOf gtids r) ∧
      ((getLastGtid cx h.store gtids).1 = .ok →
        ∃ r, LastGroup (storedEvents cx h.store) gtids r ∧
          (getLastGtid cx h.store gtids).2.1 = r.gtid) ∧
      ∀ gtids', gtids.Perm gtids' →
        (getLastGtid cx h.store gtids').1 = (getLastGtid cx h.store gtids).1 ∧
          (getLastGtid cx h.store gtids').2.1 = (getLastGtid cx h.store gtids).2.1 := by
  obtain ⟨segs, hg⟩ := grouped_of_reachable hr
  have hne : ∀ gtid ∈ gtids, gtid ≠ [] := fun gtid hgtid => (hcanon gtid hgtid).ne_nil
  refine ⟨?_, ?_, ?_⟩
  · rcases hg.getLastGtid_cases hnil hne with ⟨r, hlast, hret, -⟩ | ⟨hnone, hret, -⟩
    · exact iff_of_true hret ⟨r, hlast.mem, hlast.holds⟩
    · refine iff_of_false (by rw [hret]; decide) ?_
      rintro ⟨r, hr, hholds⟩
      exact hnone r hr hholds
  · intro hok
    rcases hg.getLastGtid_cases hnil hne with ⟨r, hlast, -, hgtid⟩ | ⟨-, hret, -⟩
    · exact ⟨r, hlast, hgtid⟩
    · rw [hret] at hok
      cases hok
  · -- The newest group that holds one of the GTIDs does not depend on their order.
    intro gtids' hperm
    have hnil' : gtids' ≠ [] := fun heq => hnil (by rw [heq] at hperm; exact hperm.eq_nil)
    have hne' : ∀ gtid ∈ gtids', gtid ≠ [] := fun gtid hgtid => hne gtid (hperm.mem_iff.mpr hgtid)
    rcases hg.getLastGtid_cases hnil hne with ⟨r, hlast, hret, hgtid⟩ | ⟨hnone, hret, hgtid⟩
    · rcases hg.getLastGtid_cases hnil' hne' with ⟨r', hlast', hret', hgtid'⟩ | ⟨hnone', -⟩
      · have heq := (hlast.perm hperm).unique hg.stored_ids hlast'
        rw [hret, hret', hgtid, hgtid', heq]
        exact ⟨rfl, rfl⟩
      · exact absurd (hlast.perm hperm).holds (hnone' r hlast.mem)
    · rcases hg.getLastGtid_cases hnil' hne' with ⟨r', hlast', -⟩ | ⟨-, hret', hgtid'⟩
      · exact absurd (hlast'.perm hperm.symm).holds (hnone r' hlast'.mem)
      · rw [hret, hret', hgtid, hgtid']
        exact ⟨rfl, rfl⟩

/-- Three groups in three files, the first of which is deleted. -/
def cutHistory : History :=
  historyStep wireCodecs threeHistory (.makeCheckPoint [sampleGtid 2] 10 0 fun _ => 0)

/-- The first group is gone, and the last one is the answer for both orders of the list. -/
theorem getLastGtid_cutHistory :
    storedEvents wireCodecs cutHistory.store = [sampleEvent 2, sampleEvent 3] ∧
      ∃ r, LastGroup (storedEvents wireCodecs cutHistory.store) [sampleGtid 3, sampleGtid 1] r ∧
        (getLastGtid wireCodecs cutHistory.store [sampleGtid 1, sampleGtid 3]).2.1 = r.gtid := by
  have hcanon : ∀ gtid ∈ [sampleGtid 3, sampleGtid 1], Canonical gtid := by
    simp only [List.forall_mem_cons, List.not_mem_nil, false_implies, implies_true, and_true]
    exact ⟨⟨sampleSid, 3, rfl, by decide, rfl⟩, ⟨sampleSid, 1, rfl, by decide, rfl⟩⟩
  have hreach : Transition.ReachableBy (historySystem wireCodecs) (GroupAdd wireCodecs) cutHistory :=
    threeHistory_reachable.step
      (show GroupAdd wireCodecs _ (.makeCheckPoint [sampleGtid 2] 10 0 fun _ => 0) from trivial) rfl
  obtain ⟨-, hlast, hperm⟩ := getLastGtid_reference wireCodecs cutHistory hreach
    [sampleGtid 3, sampleGtid 1] (by decide) hcanon
  obtain ⟨r, hr, hgtid⟩ := hlast (by decide +kernel)
  refine ⟨by decide +kernel, r, hr, ?_⟩
  rw [(hperm _ (.swap _ _ [])).2, hgtid]

end PhxSql.Store
