import Mathlib.Data.List.TakeWhile
import PhxSql.Binlog.BinlogGtidState

/-!
# What the truncation keeps

After a successful truncation the indexed files should hold no transaction of the server's own UUID
beyond the last number phxbinlogsvr knows, everything before the first such transaction, and the
last GTID in them should be the recorded one (`KeepsCommitted`).

Only the newest file with GTID events is truncated, and one earlier file if nothing but surplus was
in it. So surplus in older files stays, and the recorded GTID is missing where two files lose all
their GTID events and a third has some. `TruncationCovers` says which layouts of files are handled;
for the others the truncation returns 0 all the same.
-/

set_option autoImplicit false

namespace PhxSql.Binlog

open PhxSql.Proto PhxSql.Gtid

/-! ## Events -/

/-- A transaction of the UUID with a number above the last known one. -/
def isSurplus (uuid : Bytes) (last : Nat) : BinlogEvent → Bool
  | .gtid sid n => decide (sid = uuid ∧ last < n)
  | _ => false

/-- The events before the first surplus transaction. -/
def committed (uuid : Bytes) (last : Nat) (events : List BinlogEvent) : List BinlogEvent :=
  events.takeWhile fun e => !isSurplus uuid last e

/-- The GTID recorded after reading some events. -/
def lastGtidFrom (gtid : Bytes) (events : List BinlogEvent) : Bytes :=
  events.foldl
    (fun gtid e =>
      match e with
      | .gtid sid n => genGTID sid n
      | _ => gtid) gtid

/-- A binlog file starts with a format description and the previous GTIDs. -/
def WellFormed (events : List BinlogEvent) : Prop :=
  ∃ rest, events = .formatDescription :: .previousGtids :: rest

/-- The events hold a GTID event. -/
def hasGtid (events : List BinlogEvent) : Bool :=
  events.any BinlogEvent.isGtid

/-- The events hold a surplus transaction. -/
def hasSurplus (uuid : Bytes) (last : Nat) (events : List BinlogEvent) : Bool :=
  events.any (isSurplus uuid last)

variable {uuid : Bytes} {last : Nat}

theorem isGtid_of_isSurplus {e : BinlogEvent} (h : isSurplus uuid last e = true) :
    e.isGtid = true := by
  cases e with
  | gtid => rfl
  | _ => cases h

theorem hasSurplus_eq_false_of_hasGtid {events : List BinlogEvent} (h : hasGtid events = false) :
    hasSurplus uuid last events = false := by
  rw [hasGtid, List.any_eq_false] at h
  rw [hasSurplus, List.any_eq_false]
  exact fun e he hs => h e he (isGtid_of_isSurplus hs)

theorem committed_eq_self {events : List BinlogEvent} (h : hasSurplus uuid last events = false) :
    committed uuid last events = events := by
  rw [hasSurplus, List.any_eq_false] at h
  rw [committed, List.takeWhile_eq_self_iff]
  intro e he
  simpa using h e he

theorem hasSurplus_committed (events : List BinlogEvent) :
    hasSurplus uuid last (committed uuid last events) = false := by
  rw [hasSurplus, List.any_eq_false]
  intro e he
  have := List.mem_takeWhile_imp he
  simpa using this

theorem committed_append {events : List BinlogEvent} (h : hasSurplus uuid last events = false)
    (events' : List BinlogEvent) :
    committed uuid last (events ++ events') = events ++ committed uuid last events' := by
  rw [hasSurplus, List.any_eq_false] at h
  rw [committed, List.takeWhile_append_of_pos]
  · rfl
  · intro e he
    simpa using h e he

theorem committed_append_of_hasSurplus {events : List BinlogEvent}
    (h : hasSurplus uuid last events = true) (events' : List BinlogEvent) :
    committed uuid last (events ++ events') = committed uuid last events := by
  induction events with
  | nil => cases h
  | cons e events ih =>
    simp only [committed, List.cons_append, List.takeWhile_cons] at ih ⊢
    by_cases he : isSurplus uuid last e = true
    · simp [he]
    · have hrest : hasSurplus uuid last events = true := by
        simpa [hasSurplus, he] using h
      simp [he, ih hrest]

theorem genGTID_ne_nil (sid : Bytes) (n : Nat) : genGTID sid n ≠ [] := by
  simp [genGTID]

theorem lastGtidFrom_append (gtid : Bytes) (events events' : List BinlogEvent) :
    lastGtidFrom gtid (events ++ events') = lastGtidFrom (lastGtidFrom gtid events) events' :=
  List.foldl_append

/-- Events without a GTID leave the recorded one. -/
theorem lastGtidFrom_of_hasGtid_eq_false (gtid : Bytes) {events : List BinlogEvent}
    (h : hasGtid events = false) : lastGtidFrom gtid events = gtid := by
  induction events generalizing gtid with
  | nil => rfl
  | cons e events ih =>
    simp only [hasGtid, List.any_cons, Bool.or_eq_false_iff] at h
    cases e with
    | gtid => cases h.1
    | _ => exact ih gtid h.2

/-- With a GTID among the events, what was recorded before does not matter. -/
theorem lastGtidFrom_of_hasGtid {events : List BinlogEvent} (h : hasGtid events = true) :
    ∃ gtid, gtid ≠ [] ∧ ∀ start, lastGtidFrom start events = gtid := by
  induction events with
  | nil => cases h
  | cons e events ih =>
    by_cases hrest : hasGtid events = true
    · obtain ⟨gtid, hne, hall⟩ := ih hrest
      exact ⟨gtid, hne, fun start => hall _⟩
    · rw [Bool.not_eq_true] at hrest
      have he : e.isGtid = true := by
        rw [hasGtid, List.any_cons] at h
        rw [hasGtid] at hrest
        simpa [hrest] using h
      cases e with
      | gtid sid n =>
        refine ⟨genGTID sid n, genGTID_ne_nil sid n, fun start => ?_⟩
        exact lastGtidFrom_of_hasGtid_eq_false (genGTID sid n) hrest
      | _ => cases he

theorem lastGtidFrom_append_of_no_gtid (gtid : Bytes) (events : List BinlogEvent)
    {events' : List BinlogEvent} (h : hasGtid events' = false) :
    lastGtidFrom gtid (events ++ events') = lastGtidFrom gtid events := by
  rw [lastGtidFrom_append, lastGtidFrom_of_hasGtid_eq_false _ h]

theorem lastGtidFrom_append_of_gtid (gtid : Bytes) (events : List BinlogEvent)
    {events' : List BinlogEvent} (h : hasGtid events' = true) :
    lastGtidFrom gtid (events ++ events') = lastGtidFrom [] events' := by
  obtain ⟨text, -, hall⟩ := lastGtidFrom_of_hasGtid h
  rw [lastGtidFrom_append, hall, hall]

theorem lastGtidFrom_eq_nil_iff (events : List BinlogEvent) :
    lastGtidFrom [] events = [] ↔ hasGtid events = false := by
  refine ⟨fun h => ?_, lastGtidFrom_of_hasGtid_eq_false []⟩
  rw [← Bool.not_eq_true]
  intro hgtid
  obtain ⟨text, hne, hall⟩ := lastGtidFrom_of_hasGtid hgtid
  exact hne (by rw [← hall [], h])

theorem scanEvents_eq (events : List BinlogEvent) : ∀ gtid : Bytes,
    scanEvents uuid (last + 1) events gtid =
      (committed uuid last events, hasSurplus uuid last events,
        lastGtidFrom gtid (committed uuid last events)) := by
  induction events with
  | nil => exact fun gtid => rfl
  | cons e events ih =>
    intro gtid
    cases e with
    | gtid sid n =>
      by_cases hs : sid = uuid ∧ last < n
      · simp [scanEvents, committed, hasSurplus, isSurplus, hs, lastGtidFrom, Nat.succ_le_of_lt hs.2]
      · have hs' : ¬ (sid = uuid ∧ last + 1 ≤ n) := hs
        have hsur : isSurplus uuid last (.gtid sid n) = false := by simpa [isSurplus] using hs
        simp only [scanEvents, if_neg hs', ih, committed, List.takeWhile_cons, hsur, Bool.not_false,
          if_true, hasSurplus, List.any_cons, Bool.false_or]
        rfl
    | formatDescription => simp only [scanEvents, ih]; rfl
    | previousGtids => simp only [scanEvents, ih]; rfl
    | other data => simp only [scanEvents, ih]; rfl

/-- In a well-formed file the GTID events are what `read_gtids_from_binlog` looks for. -/
theorem WellFormed.isGtidInBinlogFile {events : List BinlogEvent} (h : WellFormed events) :
    isGtidInBinlogFile events = hasGtid events := by
  obtain ⟨rest, rfl⟩ := h
  simp [Binlog.isGtidInBinlogFile, hasGtid, BinlogEvent.isGtid]

theorem WellFormed.committed {events : List BinlogEvent} (h : WellFormed events) :
    WellFormed (committed uuid last events) := by
  obtain ⟨rest, rfl⟩ := h
  exact ⟨Binlog.committed uuid last rest, rfl⟩

/-! ## Files -/

/-- The events of all files of a list, one file after the other. -/
def allEvents (files : Bytes → List BinlogEvent) (names : List Bytes) : List BinlogEvent :=
  names.flatMap files

theorem hasGtid_append (events events' : List BinlogEvent) :
    hasGtid (events ++ events') = (hasGtid events || hasGtid events') :=
  List.any_append

theorem hasGtid_allEvents_eq_false {files : Bytes → List BinlogEvent} {names : List Bytes} :
    hasGtid (allEvents files names) = false ↔ ∀ name ∈ names, hasGtid (files name) = false := by
  simp only [hasGtid, allEvents, List.any_flatMap, List.any_eq_false, Bool.not_eq_true]

theorem hasSurplus_allEvents_eq_false {files : Bytes → List BinlogEvent} {names : List Bytes} :
    hasSurplus uuid last (allEvents files names) = false ↔
      ∀ name ∈ names, hasSurplus uuid last (files name) = false := by
  simp only [hasSurplus, allEvents, List.any_flatMap, List.any_eq_false, Bool.not_eq_true]

theorem allEvents_append (files : Bytes → List BinlogEvent) (names names' : List Bytes) :
    allEvents files (names ++ names') = allEvents files names ++ allEvents files names' :=
  List.flatMap_append

theorem allEvents_congr {files files' : Bytes → List BinlogEvent} {names : List Bytes}
    (h : ∀ name ∈ names, files name = files' name) : allEvents files names = allEvents files' names :=
  List.flatMap_congr h

theorem splitAtLast_eq_none_iff {p : Bytes → Bool} {names : List Bytes} :
    splitAtLast p names = none ↔ ∀ n ∈ names, p n = false := by
  induction names with
  | nil => simp [splitAtLast]
  | cons n names ih =>
    rw [List.forall_mem_cons, ← ih]
    cases hrest : splitAtLast p names with
    | some found => simp [splitAtLast, hrest]
    | none => simp [splitAtLast, hrest]

theorem splitAtLast_eq_some_iff {p : Bytes → Bool} {names before after : List Bytes} {name : Bytes} :
    splitAtLast p names = some (before, name, after) ↔
      names = before ++ name :: after ∧ p name = true ∧ ∀ n ∈ after, p n = false := by
  constructor
  · intro h
    induction names generalizing before with
    | nil => cases h
    | cons n names ih =>
      unfold splitAtLast at h
      split at h
      · next before' found after' hrest =>
        cases h
        obtain ⟨rfl, hfound, hafter⟩ := ih hrest
        exact ⟨rfl, hfound, hafter⟩
      · next hrest =>
        split at h
        · next hn =>
          cases h
          exact ⟨rfl, hn, splitAtLast_eq_none_iff.mp hrest⟩
        · cases h
  · rintro ⟨rfl, hname, hafter⟩
    induction before with
    | nil => simp [splitAtLast, splitAtLast_eq_none_iff.mpr hafter, hname]
    | cons n before ih => rw [List.cons_append, splitAtLast, ih]

theorem splitAtLast_congr {p q : Bytes → Bool} {names : List Bytes} (h : ∀ n ∈ names, p n = q n) :
    splitAtLast p names = splitAtLast q names := by
  induction names with
  | nil => rfl
  | cons n names ih =>
    obtain ⟨hn, hnames⟩ := List.forall_mem_cons.mp h
    simp only [splitAtLast, ih hnames, hn]

/-! ## The passes -/

/-- A file after `truncate_one` has truncated it; a file without surplus stays as it is. -/
def truncatedState (uuid : Bytes) (last : Nat) (name : Bytes) (st : BinlogState) : BinlogState :=
  { st with
    files := Function.update st.files name (committed uuid last (st.files name))
    lastGtidInBinlog := lastGtidFrom st.lastGtidInBinlog (committed uuid last (st.files name)) }

/-- What `truncate_one` does if it does not fail, and what it needs for that. -/
theorem truncateOne_eq (io : FileIo) (name : Bytes) (st : BinlogState) (hopen : io.opened = true)
    (htrunc : hasSurplus uuid last (st.files name) = true → io.truncated = true) :
    truncateOne uuid (last + 1) io name st =
      (if hasSurplus uuid last (st.files name) then 0 else 1, truncatedState uuid last name st) := by
  simp only [truncateOne, hopen, Bool.true_eq_false, if_false, scanEvents_eq, truncatedState]
  cases hsurplus : hasSurplus uuid last (st.files name) with
  | true => simp [htrunc hsurplus]
  | false =>
    rw [committed_eq_self hsurplus, Function.update_eq_self]
    simp

/-- A negative code means that the file could not be opened or truncated. -/
theorem truncateOne_neg {io : FileIo} {name : Bytes} {st : BinlogState}
    (h : io.opened = false ∨ (hasSurplus uuid last (st.files name) = true ∧ io.truncated = false)) :
    (truncateOne uuid (last + 1) io name st).1 = -1 ∧
      (truncateOne uuid (last + 1) io name st).2.files = st.files ∧
      (io.opened = false → (truncateOne uuid (last + 1) io name st).2 = st) := by
  unfold truncateOne
  by_cases hopen : io.opened = false
  · simp [hopen]
  · obtain ⟨hsurplus, htrunc⟩ := h.resolve_left hopen
    simp [hopen, scanEvents_eq, hsurplus, htrunc]

/-- Without a failure the loop goes through files without GTID events and changes nothing. -/
theorem truncateLoop_of_no_gtid (names : List Bytes) :
    ∀ (io : Nat → FileIo) (ret : Int) (st : BinlogState),
      (∀ name ∈ names, hasGtid (st.files name) = false) → 0 ≤ ret →
      0 ≤ (truncateLoop uuid (last + 1) io names ret st).1 →
      (truncateLoop uuid (last + 1) io names ret st).2 = (names, st) := by
  induction names with
  | nil => exact fun _ _ _ _ _ _ => rfl
  | cons name names ih =>
    intro io ret st hnone hret h
    have hfile := hnone name List.mem_cons_self
    have hsurplus : hasSurplus uuid last (st.files name) = false :=
      hasSurplus_eq_false_of_hasGtid hfile
    unfold truncateLoop at h ⊢
    by_cases hopen : (io 0).opened = true
    · have hsame : truncatedState uuid last name st = st := by
        simp only [truncatedState, committed_eq_self hsurplus, Function.update_eq_self,
          lastGtidFrom_of_hasGtid_eq_false _ hfile]
      have hone := @truncateOne_eq uuid last (io 0) name st hopen (by simp [hsurplus])
      rw [hsurplus, hsame] at hone
      simp only [hone, Bool.false_eq_true, if_false, Int.reduceLE] at h ⊢
      rw [ih _ _ _ (fun n hn => hnone n (List.mem_cons_of_mem _ hn)) (by omega) h]
    · have hneg := (@truncateOne_neg uuid last (io 0) name st (.inl (by simpa using hopen))).1
      simp [hneg] at h

/-- The first pass over the newest file with GTID events and the files after it. -/
theorem truncateLoop_newest {io : Nat → FileIo} {name : Bytes} {after : List Bytes} {st : BinlogState}
    (hne : name ∉ after) (hafter : ∀ n ∈ after, hasGtid (st.files n) = false)
    (h : 0 ≤ (truncateLoop uuid (last + 1) io (name :: after) 0 st).1) :
    (truncateLoop uuid (last + 1) io (name :: after) 0 st).2 =
      (if hasSurplus uuid last (st.files name) then [name] else name :: after,
        truncatedState uuid last name st) := by
  unfold truncateLoop at h ⊢
  by_cases hio : (io 0).opened = true ∧
      (hasSurplus uuid last (st.files name) = true → (io 0).truncated = true)
  · have hone := truncateOne_eq (io 0) name st hio.1 hio.2
    cases hsurplus : hasSurplus uuid last (st.files name) with
    | true =>
      simp only [hone, hsurplus, if_true] at h ⊢
      rfl
    | false =>
      have hrest : ∀ n ∈ after, hasGtid ((truncatedState uuid last name st).files n) = false := by
        intro n hn
        have hother : n ≠ name := fun heq => hne (heq ▸ hn)
        simpa [truncatedState, Function.update_of_ne hother] using hafter n hn
      simp only [hone, hsurplus, Bool.false_eq_true, if_false, Int.reduceLE] at h ⊢
      rw [truncateLoop_of_no_gtid after _ _ _ hrest (by decide) h]
  · have hneg := (@truncateOne_neg uuid last (io 0) name st (by
      by_cases hopen : (io 0).opened = true
      · right
        simpa [hopen] using hio
      · left
        simpa using hopen)).1
    simp [hneg] at h

/-! ## The condition -/

/-- The last number of the UUID that phxbinlogsvr knows, 0 where it knows none. -/
def lastKnown (env : InitEnv) (uuid : Bytes) : Nat :=
  (getLastGtidInBinlogsvr env uuid).2.getD 0

/-- The indexed files hold no surplus transaction and everything before the first one, and the last
GTID in them is the recorded one. -/
structure KeepsCommitted (uuid : Bytes) (last : Nat) (st st' : BinlogState) : Prop where
  noSurplus : ∀ name ∈ st'.index, ∀ e ∈ st'.files name, isSurplus uuid last e = false
  kept : committed uuid last (allEvents st.files st.index) <+: allEvents st'.files st'.index
  recorded : st'.lastGtidInBinlog = lastGtidFrom [] (allEvents st'.files st'.index)

/-- The second pass is enough: the newest earlier file with a GTID event can be opened, no file
before it has surplus, and if it has surplus itself it can be truncated and keeps a GTID event
unless there is none before it. -/
def SecondPassCovers (io : FileIo) (uuid : Bytes) (last : Nat) (files : Bytes → List BinlogEvent)
    (before : List Bytes) : Prop :=
  match splitAtLast (fun name => hasGtid (files name)) before with
  | none => True
  | some (older, name, _) =>
    io.opened = true ∧ (∀ n ∈ older, hasSurplus uuid last (files n) = false) ∧
      (hasSurplus uuid last (files name) = true → io.truncated = true ∧
        (hasGtid (committed uuid last (files name)) = false →
          ∀ n ∈ older, hasGtid (files n) = false))

/-- The layouts of files that are handled: all surplus is in the newest file with a GTID event,
behind a GTID event that is kept; or that file keeps no GTID event, and the second pass is enough.
-/
def TruncationCovers (env : InitEnv) (uuid : Bytes) (last : Nat) (st : BinlogState) : Prop :=
  match splitAtLast (fun name => hasGtid (st.files name)) st.index with
  | none => True
  | some (before, name, _) =>
    if hasGtid (committed uuid last (st.files name)) then
      ∀ n ∈ before, hasSurplus uuid last (st.files n) = false
    else SecondPassCovers env.secondPass uuid last st.files before

/-! ## The proof -/

theorem hasSurplus_append (events events' : List BinlogEvent) :
    hasSurplus uuid last (events ++ events') =
      (hasSurplus uuid last events || hasSurplus uuid last events') :=
  List.any_append

/-- The form that every successful truncation has: the files before some file stay, that file is
truncated, and the files after it keep no GTID event. -/
theorem keepsCommitted_iff {st st' : BinlogState} {older file rest tail : List BinlogEvent}
    (hbefore : allEvents st.files st.index = older ++ (file ++ rest))
    (hafter : allEvents st'.files st'.index = older ++ (committed uuid last file ++ tail))
    (htail : hasGtid tail = false)
    (hrest : hasSurplus uuid last file = true ∨ committed uuid last rest = tail) :
    KeepsCommitted uuid last st st' ↔
      hasSurplus uuid last older = false ∧
        st'.lastGtidInBinlog = lastGtidFrom [] (older ++ committed uuid last file) := by
  have hsurplus : (∀ name ∈ st'.index, ∀ e ∈ st'.files name, isSurplus uuid last e = false) ↔
      hasSurplus uuid last older = false := by
    have hall : (∀ name ∈ st'.index, ∀ e ∈ st'.files name, isSurplus uuid last e = false) ↔
        hasSurplus uuid last (allEvents st'.files st'.index) = false := by
      rw [hasSurplus_allEvents_eq_false]
      simp [hasSurplus]
    rw [hall, hafter, hasSurplus_append, hasSurplus_append, hasSurplus_committed,
      hasSurplus_eq_false_of_hasGtid htail]
    simp
  have hlast : lastGtidFrom [] (allEvents st'.files st'.index) =
      lastGtidFrom [] (older ++ committed uuid last file) := by
    rw [hafter, ← List.append_assoc, lastGtidFrom_append_of_no_gtid _ _ htail]
  constructor
  · rintro ⟨hno, -, hrecorded⟩
    exact ⟨hsurplus.mp hno, hrecorded.trans hlast⟩
  · rintro ⟨hno, hrecorded⟩
    refine ⟨hsurplus.mpr hno, ?_, hrecorded.trans hlast.symm⟩
    rw [hbefore, hafter, committed_append hno, List.prefix_append_right_inj]
    -- The first surplus is in this file, or what is behind it was cut off in the same way.
    by_cases hfile : hasSurplus uuid last file = true
    · rw [committed_append_of_hasSurplus hfile]
      exact List.prefix_append _ _
    · have hsame := hrest.resolve_left hfile
      rw [Bool.not_eq_true] at hfile
      have heq : committed uuid last (file ++ rest) = committed uuid last file ++ tail := by
        rw [committed_append hfile, committed_eq_self hfile, hsame]
      exact heq ▸ List.prefix_refl _

theorem allEvents_update_of_not_mem {files : Bytes → List BinlogEvent} {name : Bytes}
    {events : List BinlogEvent} {names : List Bytes} (h : name ∉ names) :
    allEvents (Function.update files name events) names = allEvents files names := by
  apply allEvents_congr
  intro n hn
  have hne : n ≠ name := fun heq => h (heq ▸ hn)
  rw [Function.update_of_ne hne]

theorem allEvents_cons (files : Bytes → List BinlogEvent) (name : Bytes) (names : List Bytes) :
    allEvents files (name :: names) = files name ++ allEvents files names :=
  List.flatMap_cons

/-- The passes leave the index to `generate_new_index_file`. -/
theorem truncateOne_index (gno : Nat) (io : FileIo) (name : Bytes) (st : BinlogState) :
    (truncateOne uuid gno io name st).2.index = st.index := by
  unfold truncateOne
  split
  · rfl
  · simp only
    split
    · rfl
    · split
      · rfl
      · rfl

theorem secondPass_index (gno : Nat) (io : FileIo) (names : List Bytes) (st : BinlogState) :
    (secondPass uuid gno io names st).index = st.index := by
  unfold secondPass
  split
  · split
    · rfl
    · exact truncateOne_index gno io _ st
  · rfl

/-- The number from which on is truncated is that after the last known one. -/
theorem firstSurplus_eq {env : InitEnv} {gno : Nat}
    (h : firstSurplus env (getLastGtidInBinlogsvr env uuid).2 = some gno) :
    gno = lastKnown env uuid + 1 := by
  unfold firstSurplus at h
  unfold lastKnown
  split at h
  · cases h
  · split at h
    · next hnone =>
      rw [hnone]
      exact (Option.some.inj h).symm
    · next last hsome =>
      rw [hsome]
      split at h
      · exact (Option.some.inj h).symm
      · cases h

/-- The names that the first pass leaves after the files before it. -/
def keptNames (uuid : Bytes) (last : Nat) (st : BinlogState) (name : Bytes) (after : List Bytes) :
    List Bytes :=
  if hasSurplus uuid last (st.files name) then [name] else name :: after

/-- A truncation that returns 0 has found no file with a GTID event, or it has truncated the newest
one and made the second pass over the names that are left. -/
theorem truncateWhileInit_cases {env : InitEnv} {st st' : BinlogState} (huuid : uuid ≠ [])
    (hindex : st.index.Nodup)
    (hgtid : ∀ name ∈ st.index, isGtidInBinlogFile (st.files name) = hasGtid (st.files name))
    (hret : truncateWhileInit env uuid st = (0, st')) :
    (splitAtLast (fun name => isGtidInBinlogFile (st.files name)) st.index = none ∧ st' = st) ∨
    ∃ before name after,
      splitAtLast (fun name => isGtidInBinlogFile (st.files name)) st.index =
        some (before, name, after) ∧
      st' = { secondPass uuid (lastKnown env uuid + 1) env.secondPass
          (before ++ keptNames uuid (lastKnown env uuid) st name after)
          (truncatedState uuid (lastKnown env uuid) name st) with
        index := before ++ keptNames uuid (lastKnown env uuid) st name after } := by
  have hfail : ∀ {ret : Int} {s : BinlogState}, ret ≠ 0 → (ret, s) ≠ (0, st') := by
    intro ret s hne heq
    exact hne (congrArg Prod.fst heq)
  unfold truncateWhileInit at hret
  rw [if_neg huuid] at hret
  split at hret
  · exact absurd hret (hfail (by decide))
  · split at hret
    · exact absurd hret (hfail (by decide))
    · next gno hfirst =>
      cases firstSurplus_eq hfirst
      split at hret
      · exact absurd hret (hfail (by decide))
      · split at hret
        · next hnone => exact .inl ⟨hnone, (congrArg Prod.snd hret).symm⟩
        · next before name after hsome =>
          refine .inr ⟨before, name, after, hsome, ?_⟩
          obtain ⟨hsplit, -, hafter⟩ := splitAtLast_eq_some_iff.mp hsome
          have hnodup := hindex
          rw [hsplit, List.nodup_append, List.nodup_cons] at hnodup
          by_cases hloop : 0 ≤ (truncateLoop uuid (lastKnown env uuid + 1) env.firstPass
              (name :: after) 0 st).1
          · have hstate := truncateLoop_newest hnodup.2.1.1
              (fun n hn => (hgtid n (by rw [hsplit]; simp [hn])).symm.trans (hafter n hn)) hloop
            have hdone : truncateByGtid env uuid (lastKnown env uuid + 1) before (name :: after) st =
                (0, before ++ keptNames uuid (lastKnown env uuid) st name after,
                  secondPass uuid (lastKnown env uuid + 1) env.secondPass
                    (before ++ keptNames uuid (lastKnown env uuid) st name after)
                    (truncatedState uuid (lastKnown env uuid) name st)) := by
              simp only [truncateByGtid, if_pos hloop, hstate, keptNames]
            simp only [hdone, ne_eq, not_true_eq_false, if_false] at hret
            split at hret
            · split at hret
              · exact (congrArg Prod.snd hret).symm
              · exact absurd hret (hfail (by decide))
            · next hsame =>
              -- As many names as before are the names that were there before.
              have hnames : before ++ keptNames uuid (lastKnown env uuid) st name after =
                  st.index := by
                unfold keptNames at hsame ⊢
                rw [hsplit] at hsame ⊢
                split at hsame
                · next hsur =>
                  have hnil : after = [] := by
                    simpa using hsame
                  rw [if_pos hsur, hnil]
                · next hsur => rw [if_neg hsur]
              rw [hnames] at hret ⊢
              obtain ⟨-, rfl⟩ := Prod.mk.inj hret
              have hkept := @secondPass_index uuid (lastKnown env uuid + 1) env.secondPass st.index
                (truncatedState uuid (lastKnown env uuid) name st)
              exact (congrArg (fun index => { secondPass uuid (lastKnown env uuid + 1) env.secondPass
                st.index (truncatedState uuid (lastKnown env uuid) name st) with
                  index := index }) hkept)
          · have hcode : (truncateByGtid env uuid (lastKnown env uuid + 1) before (name :: after)
                st).1 ≠ 0 := by
              simp only [truncateByGtid, if_neg hloop]
              omega
            simp only [hcode, ne_eq, not_false_eq_true, if_true] at hret
            exact absurd hret (hfail (by decide))

/-- The second pass, if a GTID event is left in a file before the truncated one. -/
theorem secondPass_eq {io : FileIo} {before older mid : List Bytes} {x y : Bytes} {st : BinlogState}
    (hlast : (truncatedState uuid last x st).lastGtidInBinlog = [])
    (hgtid : ∀ name ∈ before, isGtidInBinlogFile (st.files name) = hasGtid (st.files name))
    (hx : x ∉ before) (hnone : isGtidInBinlogFile (committed uuid last (st.files x)) = false)
    (hsplit : splitAtLast (fun name => hasGtid (st.files name)) before = some (older, y, mid)) :
    secondPass uuid (last + 1) io (before ++ [x]) (truncatedState uuid last x st) =
      (truncateOne uuid (last + 1) io y (truncatedState uuid last x st)).2 := by
  obtain ⟨hbefore, hy, hmid⟩ := splitAtLast_eq_some_iff.mp hsplit
  have hsame : ∀ name ∈ before,
      isGtidInBinlogFile ((truncatedState uuid last x st).files name) = hasGtid (st.files name) := by
    intro name hname
    have hne : name ≠ x := fun heq => hx (heq ▸ hname)
    simpa [truncatedState, Function.update_of_ne hne] using hgtid name hname
  -- The truncated file has no GTID event left, so the search goes on to the one before.
  have hsplit' : splitAtLast
      (fun name => isGtidInBinlogFile ((truncatedState uuid last x st).files name)) (before ++ [x]) =
        some (older, y, mid ++ [x]) := by
    refine splitAtLast_eq_some_iff.mpr ⟨by rw [hbefore]; simp, ?_, ?_⟩
    · rw [hsame y (by rw [hbefore]; simp)]
      exact hy
    · intro n hn
      rcases List.mem_append.mp hn with hn | hn
      · rw [hsame n (by rw [hbefore]; simp [hn])]
        exact hmid n hn
      · rw [List.mem_singleton.mp hn]
        simpa [truncatedState] using hnone
  rw [secondPass, if_pos hlast, hsplit']

/-- The second pass, if there is none. -/
theorem secondPass_eq_self {io : FileIo} {before : List Bytes} {x : Bytes} {st : BinlogState}
    (hgtid : ∀ name ∈ before, isGtidInBinlogFile (st.files name) = hasGtid (st.files name))
    (hx : x ∉ before) (hnone : isGtidInBinlogFile (committed uuid last (st.files x)) = false)
    (hsplit : splitAtLast (fun name => hasGtid (st.files name)) before = none) :
    secondPass uuid (last + 1) io (before ++ [x]) (truncatedState uuid last x st) =
      truncatedState uuid last x st := by
  have hsplit' : splitAtLast
      (fun name => isGtidInBinlogFile ((truncatedState uuid last x st).files name)) (before ++ [x]) =
        none := by
    refine splitAtLast_eq_none_iff.mpr fun n hn => ?_
    rcases List.mem_append.mp hn with hn | hn
    · have hne : n ≠ x := fun heq => hx (heq ▸ hn)
      have hn' := splitAtLast_eq_none_iff.mp hsplit n hn
      simpa [truncatedState, Function.update_of_ne hne, hgtid n hn] using hn'
    · rw [List.mem_singleton.mp hn]
      simpa [truncatedState] using hnone
  rw [secondPass, hsplit']
  split <;> rfl

/-- The newest file with a GTID event keeps one. -/
theorem keepsCommitted_of_first_pass {st : BinlogState} {before after : List Bytes} {x : Bytes}
    (hstart : st.lastGtidInBinlog = []) (hindex : st.index = before ++ x :: after)
    (hbefore : x ∉ before) (hafter : x ∉ after)
    (hnone : ∀ n ∈ after, hasGtid (st.files n) = false) :
    KeepsCommitted uuid last st { truncatedState uuid last x st with
        index := before ++ keptNames uuid last st x after } ↔
      hasSurplus uuid last (allEvents st.files before) = false ∧
        lastGtidFrom [] (committed uuid last (st.files x)) =
          lastGtidFrom [] (allEvents st.files before ++ committed uuid last (st.files x)) := by
  have hrest : hasGtid (allEvents st.files after) = false := hasGtid_allEvents_eq_false.mpr hnone
  -- The loop stops at a file it has cut; otherwise the files after it stay, and have no GTIDs.
  let tailNames := if hasSurplus uuid last (st.files x) then [] else after
  have hkept : keptNames uuid last st x after = x :: tailNames := by
    unfold keptNames tailNames
    split <;> rfl
  have htail : x ∉ tailNames ∧ hasGtid (allEvents st.files tailNames) = false := by
    unfold tailNames
    split
    · exact ⟨List.not_mem_nil, rfl⟩
    · exact ⟨hafter, hrest⟩
  have hcut : hasSurplus uuid last (st.files x) = true ∨
      committed uuid last (allEvents st.files after) = allEvents st.files tailNames := by
    unfold tailNames
    split
    · next hsur => exact .inl hsur
    · exact .inr (committed_eq_self (hasSurplus_eq_false_of_hasGtid hrest))
  have hiff := @keepsCommitted_iff uuid last st
    { truncatedState uuid last x st with index := before ++ keptNames uuid last st x after }
    (allEvents st.files before) (st.files x) (allEvents st.files after)
    (allEvents st.files tailNames) (by rw [hindex, allEvents_append, allEvents_cons]) (by
      simp only [truncatedState, hkept, allEvents_append, allEvents_cons, Function.update_self,
        allEvents_update_of_not_mem hbefore, allEvents_update_of_not_mem htail.1]) htail.2 hcut
  simpa only [truncatedState, hstart] using hiff

/-- Both passes truncate a file. -/
theorem keepsCommitted_of_second_pass {st : BinlogState} {older mid after : List Bytes} {x y : Bytes}
    (hindex : st.index = older ++ y :: (mid ++ x :: after)) (hnodup : st.index.Nodup)
    (hmid : ∀ n ∈ mid, hasGtid (st.files n) = false)
    (hsur : hasSurplus uuid last (st.files x) = true)
    (hnone : hasGtid (committed uuid last (st.files x)) = false)
    (hstart : (truncatedState uuid last x st).lastGtidInBinlog = []) :
    KeepsCommitted uuid last st
        { truncatedState uuid last y (truncatedState uuid last x st) with
          index := older ++ y :: mid ++ [x] } ↔
      hasSurplus uuid last (allEvents st.files older) = false ∧
        lastGtidFrom [] (committed uuid last (st.files y)) =
          lastGtidFrom [] (allEvents st.files older ++ committed uuid last (st.files y)) := by
  rw [hindex, List.nodup_append, List.nodup_cons, List.nodup_append, List.nodup_cons] at hnodup
  obtain ⟨-, ⟨hy, -, -, hmidx⟩, holder⟩ := hnodup
  have hyx : y ≠ x := fun heq => hy (by simp [heq])
  have hymid : y ∉ mid := fun h => hy (List.mem_append_left _ h)
  have hxmid : x ∉ mid := fun h => hmidx x h x List.mem_cons_self rfl
  have hyolder : y ∉ older := fun h => holder y h y List.mem_cons_self rfl
  have hxolder : x ∉ older := fun h => holder x h x (by simp) rfl
  have hrest : hasGtid (allEvents st.files mid) = false := hasGtid_allEvents_eq_false.mpr hmid
  -- The file of the second pass takes the part of the newest one; what follows it has no GTIDs.
  have hiff := @keepsCommitted_iff uuid last st
    { truncatedState uuid last y (truncatedState uuid last x st) with
      index := older ++ y :: mid ++ [x] }
    (allEvents st.files older) (st.files y) (allEvents st.files (mid ++ x :: after))
    (allEvents st.files mid ++ committed uuid last (st.files x))
    (by rw [hindex, allEvents_append, allEvents_cons]) (by
      simp only [truncatedState, List.append_assoc, List.cons_append, allEvents_append,
        allEvents_cons, Function.update_self, Function.update_of_ne hyx, Function.update_of_ne hyx.symm,
        allEvents_update_of_not_mem hyolder, allEvents_update_of_not_mem hxolder,
        allEvents_update_of_not_mem hymid, allEvents_update_of_not_mem hxmid]
      simp [allEvents]) (by rw [hasGtid_append, hrest, hnone]; rfl)
    (.inr (by
      rw [allEvents_append, committed_append (hasSurplus_eq_false_of_hasGtid hrest), allEvents_cons,
        committed_append_of_hasSurplus hsur]))
  have hfiles : (truncatedState uuid last x st).files y = st.files y := by
    simp [truncatedState, Function.update_of_ne hyx]
  have hlast : (truncatedState uuid last y (truncatedState uuid last x st)).lastGtidInBinlog =
      lastGtidFrom [] (committed uuid last (st.files y)) := by
    rw [← hfiles, ← hstart]
    rfl
  rw [hiff]
  simp only [hlast]

/-- A second pass that fails leaves the surplus, or the GTID it should have recorded. -/
theorem not_keepsCommitted_of_failed_second_pass {io : FileIo} {st st' : BinlogState}
    {names : List Bytes} {x y : Bytes} (hyx : y ≠ x) (hy : y ∈ names)
    (hgtid : hasGtid (st.files y) = true)
    (hstart : (truncatedState uuid last x st).lastGtidInBinlog = [])
    (hio : ¬ (io.opened = true ∧ (hasSurplus uuid last (st.files y) = true → io.truncated = true)))
    (hst' : st' = { (truncateOne uuid (last + 1) io y (truncatedState uuid last x st)).2 with
      index := names }) : ¬ KeepsCommitted uuid last st st' := by
  have hfile : (truncatedState uuid last x st).files y = st.files y := by
    simp [truncatedState, Function.update_of_ne hyx]
  have hneg := @truncateOne_neg uuid last io y (truncatedState uuid last x st) (by
    rw [hfile]
    by_cases hopen : io.opened = true
    · right
      simpa [hopen] using hio
    · left
      simpa using hopen)
  obtain ⟨-, hfiles, hsame⟩ := hneg
  have hfiles' : st'.files y = st.files y := by
    rw [hst']
    exact (congrFun hfiles y).trans hfile
  have hindex : y ∈ st'.index := by
    rw [hst']
    exact hy
  rintro ⟨hno, -, hrecorded⟩
  by_cases hopen : io.opened = true
  · -- The file was not truncated and still has surplus.
    have hsur : hasSurplus uuid last (st.files y) = true := by
      by_contra hsur
      exact hio ⟨hopen, fun h => absurd h hsur⟩
    obtain ⟨e, he, hes⟩ := List.any_eq_true.mp hsur
    rw [hno y hindex e (hfiles' ▸ he)] at hes
    cases hes
  · -- The file was not read, and nothing is recorded although it has a GTID event.
    rw [hst', hsame (by simpa using hopen)] at hrecorded
    have hempty := (lastGtidFrom_eq_nil_iff _).mp (hrecorded.symm.trans hstart)
    have hy' := hasGtid_allEvents_eq_false.mp hempty y hy
    rw [hfile, hgtid] at hy'
    cases hy'

/-- The condition of the second pass, where it works. -/
theorem secondPassCovers_iff {io : FileIo} {files : Bytes → List BinlogEvent}
    {before older mid : List Bytes} {y : Bytes}
    (hsplit : splitAtLast (fun name => hasGtid (files name)) before = some (older, y, mid))
    (hio : io.opened = true ∧ (hasSurplus uuid last (files y) = true → io.truncated = true)) :
    SecondPassCovers io uuid last files before ↔
      hasSurplus uuid last (allEvents files older) = false ∧
        lastGtidFrom [] (committed uuid last (files y)) =
          lastGtidFrom [] (allEvents files older ++ committed uuid last (files y)) := by
  obtain ⟨-, hy, -⟩ := splitAtLast_eq_some_iff.mp hsplit
  have hlast : lastGtidFrom [] (committed uuid last (files y)) =
      lastGtidFrom [] (allEvents files older ++ committed uuid last (files y)) ↔
      (hasGtid (committed uuid last (files y)) = false →
        ∀ n ∈ older, hasGtid (files n) = false) := by
    rw [← hasGtid_allEvents_eq_false]
    cases hgtid : hasGtid (committed uuid last (files y)) with
    | true => simp [lastGtidFrom_append_of_gtid _ _ hgtid]
    | false =>
      rw [lastGtidFrom_append_of_no_gtid _ _ hgtid, lastGtidFrom_of_hasGtid_eq_false _ hgtid,
        eq_comm, lastGtidFrom_eq_nil_iff]
      simp
  -- A file with a GTID that has none after the cut has been cut.
  have hsurplus : hasGtid (committed uuid last (files y)) = false →
      hasSurplus uuid last (files y) = true := by
    intro hgtid
    by_contra hsur
    rw [Bool.not_eq_true] at hsur
    rw [committed_eq_self hsur] at hgtid
    simp [hgtid] at hy
  unfold SecondPassCovers
  rw [hsplit, hlast, hasSurplus_allEvents_eq_false]
  constructor
  · rintro ⟨-, holder, hkept⟩
    exact ⟨holder, fun hgtid => (hkept (hsurplus hgtid)).2 hgtid⟩
  · rintro ⟨holder, hkept⟩
    exact ⟨hio.1, holder, fun hsur => ⟨hio.2 hsur, hkept⟩⟩

/-- A truncation that returns 0 keeps exactly the committed transactions for exactly the layouts of
files that are handled. -/
theorem truncation_keeps_committed_iff (env : InitEnv) (uuid : Bytes) (st st' : BinlogState)
    (huuid : uuid ≠ []) (hstart : st.lastGtidInBinlog = []) (hindex : st.index.Nodup)
    (hfiles : ∀ name ∈ st.index, WellFormed (st.files name))
    (hret : truncateWhileInit env uuid st = (0, st')) :
    KeepsCommitted uuid (lastKnown env uuid) st st' ↔
      TruncationCovers env uuid (lastKnown env uuid) st := by
  have hgtid : ∀ name ∈ st.index, isGtidInBinlogFile (st.files name) = hasGtid (st.files name) :=
    fun name hname => (hfiles name hname).isGtidInBinlogFile
  have hcases := truncateWhileInit_cases huuid hindex hgtid hret
  rw [splitAtLast_congr hgtid] at hcases
  generalize lastKnown env uuid = last at hcases ⊢
  unfold TruncationCovers
  rcases hcases with ⟨hnone, rfl⟩ | ⟨before, x, after, hsome, rfl⟩
  · -- No GTID event in any file.
    have hempty : hasGtid (allEvents st'.files st'.index) = false :=
      hasGtid_allEvents_eq_false.mpr (splitAtLast_eq_none_iff.mp hnone)
    have hno : hasSurplus uuid last (allEvents st'.files st'.index) = false :=
      hasSurplus_eq_false_of_hasGtid hempty
    simp only [hnone, iff_true]
    refine ⟨?_, ?_, ?_⟩
    · intro name hname e he
      have hfile := hasSurplus_allEvents_eq_false.mp hno name hname
      simpa using List.any_eq_false.mp hfile e he
    · have heq := committed_eq_self hno
      exact heq.symm ▸ List.prefix_refl _
    · rw [hstart, lastGtidFrom_of_hasGtid_eq_false _ hempty]
  · obtain ⟨hsplit, hx, hafter⟩ := splitAtLast_eq_some_iff.mp hsome
    have hnodup := hindex
    rw [hsplit, List.nodup_append, List.nodup_cons] at hnodup
    have hxafter : x ∉ after := hnodup.2.1.1
    have hxbefore : x ∉ before := fun h => hnodup.2.2 x h x List.mem_cons_self rfl
    have hbefore : ∀ n ∈ before, isGtidInBinlogFile (st.files n) = hasGtid (st.files n) :=
      fun n hn => hgtid n (by rw [hsplit]; exact List.mem_append_left _ hn)
    have hlast : (truncatedState uuid last x st).lastGtidInBinlog =
        lastGtidFrom [] (committed uuid last (st.files x)) := by
      simp only [truncatedState, hstart]
    have hfirst := @keepsCommitted_of_first_pass uuid last st before after x hstart hsplit hxbefore
      hxafter hafter
    simp only [hsome]
    cases hkeeps : hasGtid (committed uuid last (st.files x)) with
    | true =>
      have hsecond : ∀ names, secondPass uuid (last + 1) env.secondPass names
          (truncatedState uuid last x st) = truncatedState uuid last x st := by
        intro names
        rw [secondPass, if_neg]
        rw [hlast, lastGtidFrom_eq_nil_iff, hkeeps]
        simp
      rw [hsecond, hfirst, lastGtidFrom_append_of_gtid _ _ hkeeps, hasSurplus_allEvents_eq_false]
      simp
    | false =>
      -- The newest file lost all its GTID events, so it has surplus.
      have hsur : hasSurplus uuid last (st.files x) = true := by
        by_contra hno
        rw [Bool.not_eq_true] at hno
        rw [committed_eq_self hno] at hkeeps
        simp [hkeeps] at hx
      have hkept : keptNames uuid last st x after = [x] := by
        simp [keptNames, hsur]
      have hempty : (truncatedState uuid last x st).lastGtidInBinlog = [] := by
        rw [hlast, lastGtidFrom_eq_nil_iff, hkeeps]
      have hcut : isGtidInBinlogFile (committed uuid last (st.files x)) = false := by
        rw [(hfiles x (by rw [hsplit]; simp)).committed.isGtidInBinlogFile, hkeeps]
      rw [hkept] at hfirst ⊢
      simp only [Bool.false_eq_true, if_false]
      cases hback : splitAtLast (fun name => hasGtid (st.files name)) before with
      | none =>
        have hnone := hasGtid_allEvents_eq_false.mpr (splitAtLast_eq_none_iff.mp hback)
        rw [secondPass_eq_self hbefore hxbefore hcut hback, hfirst]
        simp only [SecondPassCovers, hback, iff_true]
        refine ⟨hasSurplus_eq_false_of_hasGtid hnone, ?_⟩
        rw [lastGtidFrom_append, lastGtidFrom_of_hasGtid_eq_false _ hnone]
      | some found =>
        obtain ⟨older, y, mid⟩ := found
        obtain ⟨rfl, hy, hmid⟩ := splitAtLast_eq_some_iff.mp hback
        have hyx : y ≠ x := fun heq => hxbefore (by simp [heq])
        have hyfile : (truncatedState uuid last x st).files y = st.files y := by
          simp [truncatedState, Function.update_of_ne hyx]
        rw [secondPass_eq hempty hbefore hxbefore hcut hback]
        by_cases hio : env.secondPass.opened = true ∧
            (hasSurplus uuid last (st.files y) = true → env.secondPass.truncated = true)
        · have hone := truncateOne_eq env.secondPass y (truncatedState uuid last x st) hio.1
            (by rw [hyfile]; exact hio.2)
          have hsplit' : st.index = older ++ y :: (mid ++ x :: after) := by
            rw [hsplit]
            simp
          rw [hone, secondPassCovers_iff hback hio]
          exact keepsCommitted_of_second_pass hsplit' hindex hmid hsur hkeeps hempty
        · refine iff_of_false ?_ ?_
          · exact not_keepsCommitted_of_failed_second_pass hyx (by simp) hy hempty hio rfl
          · intro hcovers
            unfold SecondPassCovers at hcovers
            rw [hback] at hcovers
            exact hio ⟨hcovers.1, fun h => (hcovers.2.2 h).1⟩

/-! ## Files with one transaction each -/

/-- A file with one transaction. -/
def oneTransaction (sid : Bytes) (gno : Nat) : List BinlogEvent :=
  [.formatDescription, .previousGtids, .gtid sid gno, .other [1]]

/-- The files `a`, `b` and `c` with the transactions 1, 2 and 3 of the UUID `uu`. -/
def threeFiles : BinlogState where
  files name := oneTransaction [117, 117] (name.headD 0 - 96).toNat
  index := [[97], [98], [99]]

/-- With 2 as the last known number, the third transaction is removed. -/
theorem truncation_of_one_surplus :
    ∃ st', truncateWhileInit { answer := some 2 } [117, 117] threeFiles = (0, st') ∧
      KeepsCommitted [117, 117] 2 threeFiles st' := by
  refine ⟨_, rfl, ?_⟩
  apply (truncation_keeps_committed_iff { answer := some 2 } [117, 117] threeFiles _ (by decide) rfl
    (by decide) (fun name _ => ⟨_, rfl⟩) rfl).mpr
  refine ⟨rfl, by decide, ?_⟩
  intro hsurplus
  exact absurd hsurplus (by decide)

/-- With none known, the first transaction stays: only the two newest files are truncated. -/
theorem truncation_leaves_surplus :
    ∃ st', truncateWhileInit {} [117, 117] threeFiles = (0, st') ∧ [97] ∈ st'.index ∧
      .gtid [117, 117] 1 ∈ st'.files [97] :=
  ⟨_, rfl, by decide, by decide⟩

end PhxSql.Binlog
