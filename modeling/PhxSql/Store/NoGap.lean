import Mathlib.Data.List.TakeWhile
import PhxSql.Store.Deletion

/-!
# Gaps left by checkpoint deletion

`StorageFileManager::DelCheckPointFile` goes through the listed files from the oldest one on and
takes each file that is older than the given one and was not changed after the given time. A file it
does not take does not end the pass: it ends at the end of the list, or when a limit on the number
of files is reached. So it takes the oldest files, with none left out among them, exactly if no file
that may be taken stands behind one that may not, or a limit is reached before the first such file
(`NoHole`). Then the events that are left are the last ones, and readers of the files that are left
open the same files as before.
-/

set_option autoImplicit false

namespace PhxSql.Store

open PhxSql.Proto PhxSql.Lib PhxSql.Gtid

/-! ## Filtered lists -/

/-- The first chosen elements of a list are its first elements exactly if there are no more than the
leading chosen ones, or no element is chosen after these. -/
theorem take_filter_isPrefix_iff {α : Type} (p : α → Bool) (l : List α) (k : Nat) :
    (l.filter p).take k <+: l ↔
      (∀ x ∈ l.dropWhile p, p x = false) ∨ k ≤ (l.takeWhile p).length := by
  have hsplit : l.filter p = l.takeWhile p ++ (l.dropWhile p).filter p := by
    conv_lhs => rw [← @List.takeWhile_append_dropWhile _ p l]
    rw [List.filter_append, List.filter_eq_self.mpr fun x hx => List.mem_takeWhile_imp hx]
  have hstart : ∀ n, (l.takeWhile p).take n <+: l := by
    intro n
    have hwhile : l.takeWhile p <+: l := List.takeWhile_prefix p
    have htake := List.take_prefix n (l.takeWhile p)
    exact htake.trans hwhile
  rw [hsplit]
  constructor
  · intro hpre
    by_contra hnot
    obtain ⟨hchosen, hlong⟩ := not_or.mp hnot
    have hlong := Nat.lt_of_not_le hlong
    -- The first element that is left out is followed by a chosen one.
    conv_rhs at hpre => rw [← @List.takeWhile_append_dropWhile _ p l]
    rw [List.take_append, List.take_of_length_le (Nat.le_of_lt hlong),
      List.prefix_append_right_inj] at hpre
    cases hdrop : l.dropWhile p with
    | nil => exact hchosen (by simp [hdrop])
    | cons x rest =>
      have hx : p x = false := by
        have := List.head?_dropWhile_not p l
        simpa [hdrop] using this
      cases hfilter : (l.dropWhile p).filter p with
      | nil => exact hchosen fun y hy => by simpa using List.filter_eq_nil_iff.mp hfilter y hy
      | cons y ys =>
        have hy : p y = true := (List.mem_filter.mp (hfilter ▸ List.mem_cons_self)).2
        obtain ⟨n, hn⟩ : ∃ n, k - (l.takeWhile p).length = n + 1 := ⟨_, (Nat.succ_pred (by omega)).symm⟩
        rw [hfilter, hn, hdrop, List.take_succ_cons] at hpre
        rw [(List.cons_prefix_cons.mp hpre).1, hx] at hy
        cases hy
  · rintro (hnone | hshort)
    · have hnil : (l.dropWhile p).filter p = [] :=
        List.filter_eq_nil_iff.mpr fun x hx => by simp [hnone x hx]
      rw [hnil, List.append_nil]
      exact hstart k
    · rw [List.take_append_of_le_length hshort]
      exact hstart k

/-! ## The selection as a filter -/

/-- The file is older than the given one and was not changed after the given time. -/
def deletable (maxFileName : Bytes) (minTime : Nat) (fileTime : Bytes → Nat) (f : Bytes) : Bool :=
  decide (getFileInstanceID f < getFileInstanceID maxFileName ∧ fileTime f ≤ minTime)

/-- Below its limits the loop takes every file that may be taken. -/
theorem selectDelFiles_eq (maxFileName : Bytes) (num maxNum minTime : Nat) (fileTime : Bytes → Nat)
    (fs : List Bytes) :
    ∀ del : List Bytes, del.length < maxNum →
      selectDelFiles (getFileInstanceID maxFileName) num maxNum minTime fileTime fs del =
        del ++ (fs.filter (deletable maxFileName minTime fileTime)).take
          (min (num - 2 - del.length) (maxNum - del.length)) := by
  induction fs with
  | nil =>
    intro del _
    simp [selectDelFiles]
  | cons f fs ih =>
    intro del hmax
    by_cases hnum : num < del.length + 3
    · -- Two files would be left: the loop ends.
      have hzero : min (num - 2 - del.length) (maxNum - del.length) = 0 := by omega
      simp [selectDelFiles, hnum, hzero]
    · by_cases hf : getFileInstanceID f < getFileInstanceID maxFileName ∧ fileTime f ≤ minTime
      · have hpos : min (num - 2 - del.length) (maxNum - del.length) =
            min (num - 2 - (del ++ [f]).length) (maxNum - (del ++ [f]).length) + 1 := by
          simp only [List.length_append, List.length_singleton]
          omega
        rw [selectDelFiles, if_neg hnum, if_pos hf,
          List.filter_cons_of_pos (by simpa [deletable] using hf), hpos, List.take_succ_cons]
        by_cases hstop : maxNum ≤ (del ++ [f]).length
        · have hzero : maxNum - (del ++ [f]).length = 0 := by omega
          simp only [hstop, if_true, hzero, Nat.min_zero, List.take_zero]
        · simp only [hstop, if_false]
          rw [ih _ (Nat.lt_of_not_le hstop), List.append_assoc, List.singleton_append]
      · rw [selectDelFiles, if_neg hnum, if_neg hf,
          List.filter_cons_of_neg (by simpa [deletable] using hf)]
        simp only [Nat.not_le.mpr hmax, if_false]
        exact ih del hmax

/-- No file that may be taken stands behind one that may not, or one of the limits, two files that
stay and `MaxDeleteCheckPointFileNum` files that are taken, is reached before the first one that may
not. -/
def NoHole (fs : FileSet) (maxFileName : Bytes) (maxNum minTime : Nat) (fileTime : Bytes → Nat) :
    Prop :=
  let p := deletable maxFileName minTime fileTime
  (∀ f ∈ fs.keys.dropWhile p, p f = false) ∨ fs.keys.length < (fs.keys.takeWhile p).length + 3 ∨
    maxNum ≤ (fs.keys.takeWhile p).length

instance (fs : FileSet) (maxFileName : Bytes) (maxNum minTime : Nat) (fileTime : Bytes → Nat) :
    Decidable (NoHole fs maxFileName maxNum minTime fileTime) := by
  unfold NoHole
  infer_instance

theorem delCheckPointFileList_isPrefix_iff (fs : FileSet) (maxFileName : Bytes)
    (maxNum minTime : Nat) (fileTime : Bytes → Nat) :
    delCheckPointFileList fs maxFileName maxNum minTime fileTime <+: fs.keys ↔
      NoHole fs maxFileName maxNum minTime fileTime := by
  unfold delCheckPointFileList NoHole
  cases maxNum with
  | zero =>
    -- The limit is checked after the first file, so this file is taken if it may be.
    refine ⟨fun _ => .inr (.inr (Nat.zero_le _)), fun _ => ?_⟩
    cases fs.keys with
    | nil => exact List.nil_prefix
    | cons f rest =>
      simp only [selectDelFiles, Nat.zero_le, if_true]
      split
      · exact List.nil_prefix
      · split
        · exact List.cons_prefix_cons.mpr ⟨rfl, List.nil_prefix⟩
        · exact List.nil_prefix
  | succ maxNum =>
    rw [selectDelFiles_eq maxFileName _ _ _ _ _ [] (Nat.succ_pos maxNum), List.nil_append,
      take_filter_isPrefix_iff]
    refine or_congr_right ?_
    simp only [List.length_nil]
    omega

/-! ## What is left -/

/-- Files that are taken from the list and removed from the directory. -/
def unlinkFiles (s : EventStorage) (files : List Bytes) : EventStorage :=
  { s with
    disk := files.foldl SortedMap.erase s.disk
    manager := { s.manager with fileList := files.foldl SortedMap.erase s.manager.fileList } }

/-- Erasing the first files leaves the others. -/
theorem keys_foldl_erase (del : List Bytes) :
    ∀ {fs : FileSet} {rest : List Bytes}, fs.keys = del ++ rest →
      (del.foldl SortedMap.erase fs).keys = rest := by
  induction del with
  | nil =>
    intro fs rest h
    exact h
  | cons f del ih =>
    intro fs rest h
    refine ih ?_
    have hsorted := pairwise_keys fs
    rw [h, List.cons_append, List.pairwise_cons] at hsorted
    rw [keys_erase, h, List.cons_append, List.filter_cons_of_neg (by simp), List.filter_eq_self]
    intro f' hf'
    have hlt := hsorted.1 f' hf'
    simp only [decide_eq_true_eq]
    omega

/-- Readers of the files that are left open the same files as before. -/
theorem filesAfter_foldl_erase {fs : FileSet} {del rest : List Bytes} (h : fs.keys = del ++ rest)
    {f : Bytes} (hf : f ∈ rest) :
    filesAfter (del.foldl SortedMap.erase fs) f = filesAfter fs f := by
  obtain ⟨older, newer, rfl⟩ := List.append_of_mem hf
  rw [filesAfter_of_keys (keys_foldl_erase del h)]
  -- The files that are gone were before this one.
  exact (filesAfter_of_keys (h.trans (List.append_assoc del older _).symm)).symm

/-- The events that are left are the last ones. -/
theorem storedEvents_unlinkFiles (cx : Codecs) {s : EventStorage} {del rest : List Bytes}
    (h : s.manager.fileList.keys = del ++ rest) :
    storedEvents cx (unlinkFiles s del) <:+ storedEvents cx s := by
  have hsorted := pairwise_keys s.manager.fileList
  rw [h, List.pairwise_append] at hsorted
  have hrecords : rest.flatMap (fileRecords cx (unlinkFiles s del).disk) =
      rest.flatMap (fileRecords cx s.disk) := by
    apply List.flatMap_congr
    intro f hf
    have hcontent : content (unlinkFiles s del).disk f = content s.disk f := by
      simp only [unlinkFiles, content]
      rw [find?_foldl_erase, if_neg]
      intro hdel
      exact Nat.lt_irrefl _ (hsorted.2.2 f hdel f hf)
    unfold fileRecords
    rw [hcontent]
    exact recordsFrom_congr _ rfl hcontent
  refine ⟨(del.flatMap (fileRecords cx s.disk)).filter fun r => r.gtid ≠ [], ?_⟩
  simp only [storedEvents]
  rw [show (unlinkFiles s del).manager.fileList.keys = rest from keys_foldl_erase del h, hrecords, h,
    List.flatMap_append, List.filter_append]

/-- `DelCheckPointFile` and the removal of the files amount to `unlinkFiles`, index entries aside.
-/
theorem delCheckPointFile_eq_unlinkFiles (cx : Codecs) {s : EventStorage}
    (hnamed : ∀ f bs, s.disk.find? f = some bs → FileName f) (maxFileName : Bytes)
    (maxNum minTime : Nat) (fileTime : Bytes → Nat) :
    let deleted := delCheckPointFile cx s maxFileName maxNum minTime fileTime
    deleted.1 = delCheckPointFileList (getAllFiles s.disk) maxFileName maxNum minTime fileTime ∧
      { deleted.2 with disk := deleted.1.foldl SortedMap.erase deleted.2.disk } =
        { unlinkFiles s deleted.1 with index := deleted.2.index } := by
  intro deleted
  refine ⟨rfl, ?_⟩
  have hsub := (delCheckPointFileList_spec (getAllFiles s.disk) maxFileName maxNum minTime fileTime).1
  have hfiles : ∀ f ∈ deleted.1, FileName f ∧ ∃ bs, s.disk.find? f = some bs := by
    intro f hf
    obtain ⟨bs, hbs⟩ := contains_of_mem_getAllFiles (hsub.subset hf)
    exact ⟨hnamed f bs hbs, bs, hbs⟩
  have hfold : deleted.2 = deleted.1.foldl (delFile cx { fileList := getAllFiles s.disk }) s := rfl
  rw [foldl_delFile deleted.1 (getAllFiles s.disk) s hfiles] at hfold
  rw [hfold]
  rfl

/-- The deletion leaves no gap exactly if `NoHole` holds: the files it takes are the oldest ones,
the events that are left are the last ones, and no reader of a file that is left jumps over a file
that is gone. -/
theorem delCheckPointFile_no_gap_iff (fs : FileSet) (maxFileName : Bytes) (maxNum minTime : Nat)
    (fileTime : Bytes → Nat) :
    let del := delCheckPointFileList fs maxFileName maxNum minTime fileTime
    (del <+: fs.keys ∧
        (∀ (cx : Codecs) (s : EventStorage), s.manager.fileList = fs →
          storedEvents cx (unlinkFiles s del) <:+ storedEvents cx s) ∧
        ∀ f ∈ fs.keys, f ∉ del →
          filesAfter (del.foldl SortedMap.erase fs) f = filesAfter fs f) ↔
      NoHole fs maxFileName maxNum minTime fileTime := by
  intro del
  rw [← delCheckPointFileList_isPrefix_iff]
  refine ⟨And.left, fun hpre => ⟨hpre, ?_, ?_⟩⟩
  · rintro cx s rfl
    obtain ⟨rest, hrest⟩ := hpre
    exact storedEvents_unlinkFiles cx hrest.symm
  · intro f hf hdel
    obtain ⟨rest, hrest⟩ := hpre
    rw [← hrest] at hf
    exact filesAfter_foldl_erase hrest.symm ((List.mem_append.mp hf).resolve_left hdel)

/-- Five files, of which the oldest was changed last: it stays, the three after it are taken, and a
reader of the oldest file goes on with the newest. -/
theorem delCheckPointFile_leaves_gap :
    let fs : FileSet := [1, 2, 3, 4, 5].foldl (fun fs n => fs.insert (genFileName n) ()) .empty
    let fileTime := fun f => if f = genFileName 1 then 20 else 10
    let del := delCheckPointFileList fs (genFileName 5) 10 15 fileTime
    del = [2, 3, 4].map genFileName ∧ ¬ del <+: fs.keys ∧
      filesAfter fs (genFileName 1) = [2, 3, 4, 5].map genFileName ∧
      filesAfter (del.foldl SortedMap.erase fs) (genFileName 1) = [genFileName 5] := by
  decide +kernel

end PhxSql.Store
