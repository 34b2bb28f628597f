import PhxSql.Binlog.Truncation

/-!
# The transactions of one UUID in a binlog

What a truncation does to the numbers of the server's own transactions. Where all surplus is in the
newest indexed file, a truncation that returns 0 leaves exactly the numbers up to the last known one
(`binlogNumbers_truncateWhileInit`). One that fails has left the numbers as they were, or has cut
them in the same way, and the index is the old one (`binlogNumbers_failed`).
-/

set_option autoImplicit false

namespace PhxSql.Binlog

open PhxSql.Proto PhxSql.Gtid

/-! ## Numbers -/

/-- The GTIDs of some events. -/
def gtids (events : List BinlogEvent) : List (Bytes × Nat) :=
  events.filterMap fun e =>
    match e with
    | .gtid sid gno => some (sid, gno)
    | _ => none

/-- The numbers of the transactions of a UUID. -/
def numbersOf (uuid : Bytes) (gs : List (Bytes × Nat)) : List Nat :=
  (gs.filter fun g => g.1 = uuid).map Prod.snd

/-- The transactions of a UUID in the indexed files. -/
def binlogNumbers (uuid : Bytes) (st : BinlogState) : List Nat :=
  numbersOf uuid (gtids (allEvents st.files st.index))

variable {uuid : Bytes} {last : Nat}

@[simp] theorem gtids_append (events events' : List BinlogEvent) :
    gtids (events ++ events') = gtids events ++ gtids events' :=
  List.filterMap_append

@[simp] theorem numbersOf_append (gs gs' : List (Bytes × Nat)) :
    numbersOf uuid (gs ++ gs') = numbersOf uuid gs ++ numbersOf uuid gs' := by
  simp [numbersOf]

theorem mem_numbersOf {gs : List (Bytes × Nat)} {k : Nat} :
    k ∈ numbersOf uuid gs ↔ (uuid, k) ∈ gs := by
  simp [numbersOf]

theorem mem_gtids {events : List BinlogEvent} {sid : Bytes} {gno : Nat} :
    (sid, gno) ∈ gtids events ↔ BinlogEvent.gtid sid gno ∈ events := by
  rw [gtids, List.mem_filterMap]
  constructor
  · rintro ⟨e, he, heq⟩
    cases e with
    | gtid sid' gno' =>
      cases heq
      exact he
    | _ => cases heq
  · intro he
    exact ⟨_, he, rfl⟩

theorem gtids_eq_nil {events : List BinlogEvent} (h : hasGtid events = false) : gtids events = [] := by
  rw [hasGtid, List.any_eq_false] at h
  rw [List.eq_nil_iff_forall_not_mem]
  rintro ⟨sid, gno⟩ hmem
  exact h _ (mem_gtids.mp hmem) rfl

/-- Surplus is a number above the last known one. -/
theorem hasSurplus_eq_false_iff {events : List BinlogEvent} :
    hasSurplus uuid last events = false ↔ ∀ k ∈ numbersOf uuid (gtids events), k ≤ last := by
  rw [hasSurplus, List.any_eq_false]
  constructor
  · intro h k hk
    have hno := h _ (mem_gtids.mp (mem_numbersOf.mp hk))
    simpa [isSurplus] using hno
  · intro h e he hsurplus
    cases e with
    | gtid sid gno =>
      obtain ⟨rfl, hlt⟩ := of_decide_eq_true hsurplus
      exact Nat.not_le.mpr hlt (h gno (mem_numbersOf.mpr (mem_gtids.mpr he)))
    | _ => cases hsurplus

/-- The events before the first surplus one have the numbers before the first surplus one. -/
theorem numbersOf_committed (events : List BinlogEvent) :
    numbersOf uuid (gtids (committed uuid last events)) =
      (numbersOf uuid (gtids events)).takeWhile fun k => k ≤ last := by
  induction events with
  | nil => rfl
  | cons e events ih =>
    rw [committed] at ih ⊢
    cases e with
    | gtid sid gno =>
      by_cases hsid : sid = uuid
      · subst hsid
        by_cases hle : gno ≤ last
        · have hkept : isSurplus sid last (.gtid sid gno) = false := by
            simpa [isSurplus] using hle
          rw [List.takeWhile_cons_of_pos (by simp [hkept])]
          have hstep := congrArg (gno :: ·) ih
          simpa [numbersOf, gtids, List.takeWhile_cons, hle] using hstep
        · have hcut : isSurplus sid last (.gtid sid gno) = true := by
            simpa [isSurplus] using hle
          rw [List.takeWhile_cons_of_neg (by simp [hcut])]
          simp [numbersOf, gtids, hle]
      · have hkept : isSurplus uuid last (.gtid sid gno) = false := by
          simp [isSurplus, hsid]
        rw [List.takeWhile_cons_of_pos (by simp [hkept])]
        simpa [numbersOf, gtids, hsid] using ih
    | _ => exact ih

/-! ## Files that are cut -/

/-- Every file is as it was or has been cut at its first surplus. -/
def CutFiles (uuid : Bytes) (last : Nat) (files files' : Bytes → List BinlogEvent) : Prop :=
  ∀ name, files' name = files name ∨ files' name = committed uuid last (files name)

theorem CutFiles.refl (files : Bytes → List BinlogEvent) : CutFiles uuid last files files :=
  fun _ => .inl rfl

theorem CutFiles.trans {files files' files'' : Bytes → List BinlogEvent}
    (h : CutFiles uuid last files files') (h' : CutFiles uuid last files' files'') :
    CutFiles uuid last files files'' := by
  intro name
  rcases h' name with h' | h'
  · rw [h']
    exact h name
  · -- A file that is cut twice is cut once.
    right
    rcases h name with h | h
    · rw [h', h]
    · rw [h', h, committed_eq_self (hasSurplus_committed _)]

theorem CutFiles.wellFormed {files files' : Bytes → List BinlogEvent}
    (h : CutFiles uuid last files files') {name : Bytes} (hfile : WellFormed (files name)) :
    WellFormed (files' name) := by
  rcases h name with h | h
  · rwa [h]
  · rw [h]
    exact hfile.committed

theorem CutFiles.eq_of_hasSurplus {files files' : Bytes → List BinlogEvent}
    (h : CutFiles uuid last files files') {name : Bytes}
    (hno : hasSurplus uuid last (files name) = false) : files' name = files name := by
  rcases h name with h | h
  · exact h
  · rw [h, committed_eq_self hno]

theorem truncateOne_cut (io : FileIo) (name : Bytes) (st : BinlogState) :
    CutFiles uuid last st.files (truncateOne uuid (last + 1) io name st).2.files := by
  rw [truncateOne]
  split
  · exact .refl _
  · simp only [scanEvents_eq]
    split
    · exact .refl _
    · split
      · intro n
        by_cases hn : n = name
        · subst hn
          exact .inr (Function.update_self ..)
        · exact .inl (Function.update_of_ne hn ..)
      · exact .refl _

theorem truncateLoop_cut (names : List Bytes) :
    ∀ (io : Nat → FileIo) (ret : Int) (st : BinlogState),
      CutFiles uuid last st.files (truncateLoop uuid (last + 1) io names ret st).2.2.files ∧
        (truncateLoop uuid (last + 1) io names ret st).2.2.index = st.index := by
  induction names with
  | nil =>
    intro io ret st
    exact ⟨.refl _, rfl⟩
  | cons name names ih =>
    intro io ret st
    have hone := @truncateOne_cut uuid last (io 0) name st
    have hindex := @truncateOne_index uuid (last + 1) (io 0) name st
    simp only [truncateLoop]
    split
    · exact ⟨hone, hindex⟩
    · obtain ⟨hcut, hkept⟩ := ih (fun i => io (i + 1)) (truncateOne uuid (last + 1) (io 0) name st).1
        (truncateOne uuid (last + 1) (io 0) name st).2
      exact ⟨hone.trans hcut, hkept.trans hindex⟩

theorem secondPass_cut (io : FileIo) (names : List Bytes) (st : BinlogState) :
    CutFiles uuid last st.files (secondPass uuid (last + 1) io names st).files := by
  rw [secondPass]
  split
  · split
    · exact .refl _
    · exact truncateOne_cut io _ st
  · exact .refl _

/-- Whatever a truncation returns, files have been cut at their first surplus; only a truncation that
returns 0 has another index. -/
theorem truncateWhileInit_cut (env : InitEnv) (uuid : Bytes) (st : BinlogState) :
    CutFiles uuid (lastKnown env uuid) st.files (truncateWhileInit env uuid st).2.files ∧
      ((truncateWhileInit env uuid st).1 ≠ 0 → (truncateWhileInit env uuid st).2.index = st.index) := by
  have hsame : CutFiles uuid (lastKnown env uuid) st.files st.files := .refl _
  rw [truncateWhileInit]
  split
  · exact ⟨hsame, fun _ => rfl⟩
  · split
    · exact ⟨hsame, fun _ => rfl⟩
    · split
      · exact ⟨hsame, fun _ => rfl⟩
      · next gno hfirst =>
        cases firstSurplus_eq hfirst
        split
        · exact ⟨hsame, fun _ => rfl⟩
        · split
          · exact ⟨hsame, fun _ => rfl⟩
          · next before name after hsplit =>
            obtain ⟨hloop, hindex⟩ := @truncateLoop_cut uuid (lastKnown env uuid) (name :: after)
              env.firstPass 0 st
            have hcut : CutFiles uuid (lastKnown env uuid) st.files
                (truncateByGtid env uuid (lastKnown env uuid + 1) before (name :: after) st).2.2.files :=
              hloop.trans (secondPass_cut _ _ _)
            have hkept : (truncateByGtid env uuid (lastKnown env uuid + 1) before (name :: after)
                st).2.2.index = st.index :=
              (secondPass_index ..).trans hindex
            simp only
            split
            · exact ⟨hcut, fun _ => hkept⟩
            · split
              · split
                · exact ⟨hcut, fun hne => absurd rfl hne⟩
                · exact ⟨hcut, fun _ => hkept⟩
              · exact ⟨hcut, fun hne => absurd rfl hne⟩

/-! ## Surplus in the newest file -/

/-- All surplus is in the last indexed file. -/
def SurplusNewest (uuid : Bytes) (last : Nat) (st : BinlogState) : Prop :=
  ∀ before x, st.index = before ++ [x] → hasSurplus uuid last (allEvents st.files before) = false

/-- What is before the newest file stays. -/
theorem SurplusNewest.allEvents_eq {st : BinlogState} {files' : Bytes → List BinlogEvent}
    (h : SurplusNewest uuid last st) (hcut : CutFiles uuid last st.files files')
    {before : List Bytes} {x : Bytes} (hindex : st.index = before ++ [x]) :
    allEvents files' before = allEvents st.files before := by
  apply allEvents_congr
  intro name hname
  exact hcut.eq_of_hasSurplus (hasSurplus_allEvents_eq_false.mp (h before x hindex) name hname)

theorem SurplusNewest.before {st : BinlogState} (h : SurplusNewest uuid last st)
    {before after : List Bytes} {x : Bytes} (hindex : st.index = before ++ x :: after) :
    hasSurplus uuid last (allEvents st.files before) = false := by
  -- The newest file is this one or a later one.
  rcases List.eq_nil_or_concat' after with rfl | ⟨mid, y, rfl⟩
  · exact h before x hindex
  · have hlong := h (before ++ x :: mid) y (by simp [hindex])
    rw [allEvents_append, hasSurplus_append, Bool.or_eq_false_iff] at hlong
    exact hlong.1

/-- Numbers that are all known, before others of which some may not be. -/
theorem takeWhile_known {older newer : List BinlogEvent} (h : hasSurplus uuid last older = false) :
    (numbersOf uuid (gtids (older ++ newer))).takeWhile (fun k => k ≤ last) =
      numbersOf uuid (gtids older) ++ (numbersOf uuid (gtids newer)).takeWhile fun k => k ≤ last := by
  rw [gtids_append, numbersOf_append, List.takeWhile_append_of_pos]
  intro k hk
  exact decide_eq_true (hasSurplus_eq_false_iff.mp h k hk)

/-- A truncation that fails leaves the numbers as they were or cuts them at the first surplus. -/
theorem binlogNumbers_failed {st st' : BinlogState} (h : SurplusNewest uuid last st)
    (hindex : st'.index = st.index) (hcut : CutFiles uuid last st.files st'.files) :
    binlogNumbers uuid st' = binlogNumbers uuid st ∨
      binlogNumbers uuid st' = (binlogNumbers uuid st).takeWhile fun k => k ≤ last := by
  rw [binlogNumbers, binlogNumbers, hindex]
  rcases List.eq_nil_or_concat' st.index with hnil | ⟨before, x, hsplit⟩
  · rw [hnil]
    exact .inl rfl
  · rw [hsplit, allEvents_append, allEvents_append, h.allEvents_eq hcut hsplit,
      takeWhile_known (h before x hsplit), ← numbersOf_committed, gtids_append, gtids_append,
      numbersOf_append, numbersOf_append]
    simp only [allEvents, List.flatMap_cons, List.flatMap_nil, List.append_nil]
    rcases hcut x with hx | hx
    · rw [hx]
      exact .inl rfl
    · rw [hx]
      exact .inr rfl

/-- The second pass leaves files without surplus. -/
theorem secondPass_files {io : FileIo} {names : List Bytes} {st : BinlogState}
    (h : ∀ name ∈ names, hasSurplus uuid last (st.files name) = false) :
    (secondPass uuid (last + 1) io names st).files = st.files := by
  rw [secondPass]
  split
  · split
    · rfl
    · next older name rest hsplit =>
      have hmem : name ∈ names := by
        rw [(splitAtLast_eq_some_iff.mp hsplit).1]
        simp
      simp only [truncateOne, scanEvents_eq, h name hmem, if_true]
      split <;> rfl
  · rfl

theorem keptNames_eq (st : BinlogState) (x : Bytes) (after : List Bytes) :
    ∃ tail, keptNames uuid last st x after = x :: tail ∧ tail.Sublist after := by
  rw [keptNames]
  split
  · exact ⟨[], rfl, List.nil_sublist _⟩
  · exact ⟨after, rfl, List.Sublist.refl _⟩

/-- A truncation that returns 0 leaves the numbers up to the last known one. -/
theorem binlogNumbers_truncateWhileInit {env : InitEnv} {st st' : BinlogState} (huuid : uuid ≠ [])
    (hindex : st.index.Nodup) (hfiles : ∀ name ∈ st.index, WellFormed (st.files name))
    (h : SurplusNewest uuid (lastKnown env uuid) st)
    (hret : truncateWhileInit env uuid st = (0, st')) :
    st'.index.Sublist st.index ∧
      binlogNumbers uuid st' =
        (binlogNumbers uuid st).takeWhile fun k => k ≤ lastKnown env uuid := by
  have hgtid : ∀ name ∈ st.index, isGtidInBinlogFile (st.files name) = hasGtid (st.files name) :=
    fun name hname => (hfiles name hname).isGtidInBinlogFile
  have hcases := truncateWhileInit_cases huuid hindex hgtid hret
  rw [splitAtLast_congr hgtid] at hcases
  generalize lastKnown env uuid = last at hcases h ⊢
  rcases hcases with ⟨hnone, rfl⟩ | ⟨before, x, after, hsome, rfl⟩
  · -- No GTID event in any file.
    have hempty := gtids_eq_nil (hasGtid_allEvents_eq_false.mpr (splitAtLast_eq_none_iff.mp hnone))
    rw [binlogNumbers, hempty]
    exact ⟨List.Sublist.refl _, rfl⟩
  · obtain ⟨hsplit, -, hafter⟩ := splitAtLast_eq_some_iff.mp hsome
    have hnodup := hindex
    rw [hsplit, List.nodup_append, List.nodup_cons] at hnodup
    obtain ⟨-, ⟨hxafter, -⟩, hdisjoint⟩ := hnodup
    have hxbefore : x ∉ before := fun hx => hdisjoint x hx x List.mem_cons_self rfl
    have hold := h.before hsplit
    have hrest : gtids (allEvents st.files after) = [] :=
      gtids_eq_nil (hasGtid_allEvents_eq_false.mpr hafter)
    -- What the second pass reads has no surplus.
    have hnames : ∀ name ∈ before ++ keptNames uuid last st x after,
        hasSurplus uuid last ((truncatedState uuid last x st).files name) = false := by
      intro name hname
      by_cases hx : name = x
      · subst hx
        simp only [truncatedState, Function.update_self]
        exact hasSurplus_committed _
      · simp only [truncatedState, Function.update_of_ne hx]
        rcases List.mem_append.mp hname with hname | hname
        · exact hasSurplus_allEvents_eq_false.mp hold name hname
        · refine hasSurplus_eq_false_of_hasGtid (hafter name ?_)
          rw [keptNames] at hname
          split at hname
          · exact absurd (List.mem_singleton.mp hname) hx
          · exact (List.mem_cons.mp hname).resolve_left hx
    obtain ⟨tail, htail, hsub⟩ := @keptNames_eq uuid last st x after
    have htailGtids : gtids (allEvents st.files tail) = [] :=
      gtids_eq_nil (hasGtid_allEvents_eq_false.mpr fun name hname => hafter name (hsub.subset hname))
    refine ⟨?_, ?_⟩
    · simp only [hsplit, htail]
      exact (List.Sublist.refl before).append (hsub.cons_cons x)
    · simp only [binlogNumbers, secondPass_files hnames]
      rw [hsplit, allEvents_append, allEvents_append, takeWhile_known hold, htail, allEvents_cons,
        allEvents_cons]
      simp only [truncatedState, Function.update_self, allEvents_update_of_not_mem hxbefore,
        allEvents_update_of_not_mem fun hx => hxafter (hsub.subset hx), gtids_append, htailGtids,
        hrest, List.append_nil, numbersOf_append, numbersOf_committed]

end PhxSql.Binlog
