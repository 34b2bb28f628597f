import PhxSql.Store.CheckPointManager

/-!
# What lookups change

A lookup reads records through managers of its own. The only thing it can change is the directory: a
file is opened with `O_CREAT`, so that looking into a file that was deleted creates it, empty.
`Touched` says which files can have been created, and `Looked` that the rest of the store is as
before.
-/

set_option autoImplicit false

namespace PhxSql.Store

open PhxSql.Proto PhxSql.Lib PhxSql.Gtid

variable {cx : Codecs}

/-! ## Directories -/

/-- The second directory is the first one with some of these files created where they were missing.
-/
inductive Touched (names : Bytes → Prop) (d : Disk) : Disk → Prop
  | refl : Touched names d d
  | create {d' : Disk} {f : Bytes} : Touched names d d' → names f → Touched names d (createFile d' f)

theorem Touched.trans {names : Bytes → Prop} {d d' d'' : Disk} (h : Touched names d d')
    (h' : Touched names d' d'') : Touched names d d'' := by
  induction h' with
  | refl => exact h
  | create _ hf ih => exact .create ih hf

theorem Touched.mono {names names' : Bytes → Prop} (himp : ∀ f, names f → names' f) {d d' : Disk}
    (h : Touched names d d') : Touched names' d d' := by
  induction h with
  | refl => exact .refl
  | create _ hf ih => exact .create ih (himp _ hf)

/-- A file of the new directory was there before or is one of the created ones. -/
theorem Touched.find? {names : Bytes → Prop} {d d' : Disk} (h : Touched names d d') (f : Bytes) :
    d'.find? f = d.find? f ∨ names f := by
  induction h with
  | refl => exact .inl rfl
  | @create d' g _ hg ih =>
    by_cases hne : f = g
    · exact .inr (hne ▸ hg)
    · rw [find?_createFile_of_ne hne]
      exact ih

theorem parseRead_disk (m : StorageFileManager) (r : ReadResult) :
    (parseRead cx m r).disk = r.disk := by
  simp only [parseRead]
  split
  · rfl
  · split
    · rfl
    · rfl

/-- Opening the oldest file of a listing of the directory changes nothing in it. -/
theorem openOldestFile_disk (d : Disk) : (openOldestFile d (newManager d true)).2.1 = d := by
  unfold openOldestFile
  cases hhead : (newManager d true).fileList.keys.head? with
  | none => rfl
  | some f =>
    obtain ⟨bs, hbs⟩ := contains_of_mem_getAllFiles (List.mem_of_head? hhead)
    exact createFile_of_find? hbs

/-- Without a GTID, `CheckGtidInData` asks whether the first file is the oldest of the directory. -/
theorem checkGtidInData_nil (d : Disk) (info : EventDataInfo) :
    checkGtidInData cx d [] info =
      (if (getAllFiles d).keys.head? = some (genFileName 0) then .ok
        else if (getAllFiles d).keys.head? = none then .noFiles else .dataEmpty, d) := by
  have hdisk := openOldestFile_disk d
  simp only [checkGtidInData, true_or, if_true, hdisk]
  unfold openOldestFile
  simp only [newManager, if_true]
  cases (getAllFiles d).keys.head? with
  | none => simp
  | some f =>
    by_cases hf : f = genFileName 0
    · simp [hf, reOpenRead]
    · simp [hf, reOpenRead]

/-- With a GTID and a place, `CheckGtidInData` reads the record at the place. -/
theorem checkGtidInData_of_ne (d : Disk) {gtid : Bytes} {info : EventDataInfo} (hgtid : gtid ≠ [])
    (hinfo : info.gtid ≠ []) (hfile : info.fileName ≠ []) :
    checkGtidInData cx d gtid info =
      (let read := readEventFromFile cx (createFile d info.fileName)
          { reader := { path := info.fileName, offset := info.offset } }
        let parsed := parseEventList read.data.data
        if read.ret ≠ .ok then read.ret
        else if parsed.1 ≠ .ok then parsed.1
        else if gtid ∈ parsed.2.map Prod.snd then .ok
        else .dataEmpty,
        createFile d info.fileName) := by
  have hread : readEvent cx (setReadPos d (newManager d false) info).1
      (setReadPos d (newManager d false) info).2 =
        readEventFromFile cx (createFile d info.fileName)
          { reader := { path := info.fileName, offset := info.offset } } := by
    simp [readEvent, readEventFromFile, setReadPos, setFileReadPos, newManager, hfile.symm,
      filesAfter, SortedMap.contains, SortedMap.findPair?, reOpenRead]
  have hdisk : (readEventFromFile cx (createFile d info.fileName)
      { reader := { path := info.fileName, offset := info.offset } }).disk =
        createFile d info.fileName := by
    rw [readEventFromFile, parseRead_disk]
    rfl
  simp only [checkGtidInData, hgtid, hinfo, hfile, or_self, if_false, hread, hdisk]
  split
  · rfl
  · split
    · rfl
    · split
      · rfl
      · rfl

/-- `CheckGtidInData` opens at most the file it was given. -/
theorem checkGtidInData_touched (d : Disk) (gtid : Bytes) (info : EventDataInfo) :
    Touched (fun f => f = info.fileName) d (checkGtidInData cx d gtid info).2 := by
  by_cases hempty : gtid = [] ∨ info.gtid = [] ∨ info.fileName = []
  · have hdisk : (checkGtidInData cx d gtid info).2 = d := by
      have hopen := openOldestFile_disk d
      simp only [checkGtidInData, if_pos hempty, hopen]
      split
      · rfl
      · split
        · rfl
        · rfl
    rw [hdisk]
    exact .refl
  · simp only [not_or] at hempty
    rw [checkGtidInData_of_ne d hempty.1 hempty.2.1 hempty.2.2]
    exact .create .refl rfl

/-! ## Stores -/

/-- A lookup of this GTID finds an event in this file. -/
def Found (s : EventStorage) (gtid f : Bytes) : Prop :=
  ∃ info, realGetGTIDInfo s gtid true = (.ok, info) ∧ info.fileName = f

/-- A place that a lookup returns is the last one of the UUID, if that is the GTID, or is in the
index. -/
theorem realGetGTIDInfo_ok {s : EventStorage} {gtid : Bytes} {info : EventDataInfo}
    (h : realGetGTIDInfo s gtid true = (.ok, info)) :
    (s.uuidHandler.mapUuid.find? (getUUIDByGTID gtid) = some info ∧ info.gtid = gtid) ∨
      ∃ e ∈ s.index.entries, e.2 = .info info := by
  -- `lower_bound` may return the entry of another GTID, so nothing is said about the key.
  have hindex : ∀ info', getGTIDIndex s.index gtid true = (.ok, info') →
      ∃ e ∈ s.index.entries, e.2 = .info info' := by
    intro info' hinfo
    unfold getGTIDIndex at hinfo
    split at hinfo
    · cases hinfo
    · rename_i key value hlower
      split at hinfo
      · split at hinfo
        · cases hinfo
          exact ⟨_, (SortedMap.lowerBound_eq_some_iff.mp hlower).1, rfl⟩
        · cases hinfo
      · cases hinfo
  simp only [realGetGTIDInfo, getLastestGTIDEventByGTID] at h
  by_cases hlatest : ∃ info', s.uuidHandler.mapUuid.find? (getUUIDByGTID gtid) = some info' ∧
      info'.gtid = gtid
  · obtain ⟨info', huuid, hgtid⟩ := hlatest
    simp only [huuid, hgtid, if_true] at h
    cases h
    exact .inl ⟨huuid, hgtid⟩
  · -- The table does not have this GTID, so what is found comes from the index.
    right
    generalize hfound : getGTIDIndex s.index gtid true = found at h
    obtain ⟨code, info'⟩ := found
    have hcode : code = .ok ∧ info' = info := by
      split at h
      · rename_i info'' huuid
        rw [if_neg fun hgtid => hlatest ⟨info'', huuid, hgtid⟩] at h
        cases code <;> cases h
        exact ⟨rfl, rfl⟩
      · cases code <;> cases h
        exact ⟨rfl, rfl⟩
    rw [hcode.1, hcode.2] at hfound
    exact hindex info hfound

/-- The second store is the first one after lookups that opened some of these files. -/
structure Looked (names : Bytes → Prop) (s s' : EventStorage) : Prop where
  disk : Touched names s.disk s'.disk
  index : s'.index = s.index
  uuidHandler : s'.uuidHandler = s.uuidHandler
  checkpointData : s'.checkpointData = s.checkpointData
  fileList : s'.manager.fileList = s.manager.fileList
  writer : s'.manager.writer = s.manager.writer

theorem Looked.refl (names : Bytes → Prop) (s : EventStorage) : Looked names s s :=
  ⟨.refl, rfl, rfl, rfl, rfl, rfl⟩

theorem Looked.trans {names : Bytes → Prop} {s s' s'' : EventStorage} (h : Looked names s s')
    (h' : Looked names s' s'') : Looked names s s'' where
  disk := h.disk.trans h'.disk
  index := h'.index.trans h.index
  uuidHandler := h'.uuidHandler.trans h.uuidHandler
  checkpointData := h'.checkpointData.trans h.checkpointData
  fileList := h'.fileList.trans h.fileList
  writer := h'.writer.trans h.writer

theorem Looked.mono {names names' : Bytes → Prop} (himp : ∀ f, names f → names' f)
    {s s' : EventStorage} (h : Looked names s s') : Looked names' s s' :=
  { h with disk := h.disk.mono himp }

/-- Lookups find the same before and after lookups. -/
theorem Looked.realGetGTIDInfo_eq {names : Bytes → Prop} {s s' : EventStorage}
    (h : Looked names s s') (gtid : Bytes) (lowerBound : Bool) :
    realGetGTIDInfo s' gtid lowerBound = realGetGTIDInfo s gtid lowerBound := by
  simp only [realGetGTIDInfo, h.index, h.uuidHandler]

theorem Looked.found_iff {names : Bytes → Prop} {s s' : EventStorage} (h : Looked names s s')
    (gtid f : Bytes) : Found s' gtid f ↔ Found s gtid f := by
  simp only [Found, h.realGetGTIDInfo_eq]

/-- Checking a place that was found. -/
theorem looked_check {s : EventStorage} {gtid : Bytes} {found : RetCode × EventDataInfo}
    (hfound : realGetGTIDInfo s gtid true = found) (hok : found.1 = .ok) :
    Looked (Found s gtid) s { s with disk := (checkGtidInData cx s.disk gtid found.2).2 } := by
  refine ⟨(checkGtidInData_touched s.disk gtid found.2).mono ?_, rfl, rfl, rfl, rfl, rfl⟩
  rintro f rfl
  obtain ⟨ret, info⟩ := found
  cases hok
  exact ⟨info, hfound, rfl⟩

theorem getLowerBoundGTIDInfo_looked (s : EventStorage) (gtid : Bytes) :
    Looked (Found s gtid) s (getLowerBoundGTIDInfo cx s gtid).2.2 := by
  simp only [getLowerBoundGTIDInfo]
  split
  · rename_i hok
    exact looked_check rfl hok
  · exact .refl _ s

/-- The place a lookup returns was found. -/
theorem found_of_getLowerBoundGTIDInfo {s : EventStorage} {gtid : Bytes}
    (h : (getLowerBoundGTIDInfo cx s gtid).1 = .ok) :
    Found s gtid (getLowerBoundGTIDInfo cx s gtid).2.1.fileName := by
  simp only [getLowerBoundGTIDInfo] at h ⊢
  split at h
  · rename_i hok
    rw [if_pos hok]
    exact ⟨(realGetGTIDInfo s gtid true).2, Prod.ext hok rfl, rfl⟩
  · rename_i hne
    exact absurd h hne

/-- The files a lookup of one of these GTIDs may open. -/
def FoundIn (s : EventStorage) (gtids : List Bytes) (f : Bytes) : Prop :=
  ∃ gtid ∈ gtids, Found s gtid f

theorem Looked.foundIn_tail {names : Bytes → Prop} {s s' : EventStorage} (h : Looked names s s')
    {gtid : Bytes} {gtids : List Bytes} {f : Bytes} (hf : FoundIn s' gtids f) :
    FoundIn s (gtid :: gtids) f := by
  obtain ⟨gtid', hmem, hfound⟩ := hf
  exact ⟨gtid', List.mem_cons_of_mem _ hmem, (h.found_iff gtid' f).mp hfound⟩

theorem foundIn_head {s : EventStorage} {gtid : Bytes} (gtids : List Bytes) {f : Bytes}
    (hf : Found s gtid f) : FoundIn s (gtid :: gtids) f :=
  ⟨gtid, List.mem_cons_self, hf⟩

theorem getLastGtidLoop_looked (gtids : List Bytes) :
    ∀ (s : EventStorage) (best : Option EventDataInfo),
      Looked (FoundIn s gtids) s (getLastGtidLoop cx s gtids best).2 := by
  induction gtids with
  | nil =>
    intro s best
    exact .refl _ s
  | cons gtid gtids ih =>
    intro s best
    have hskip : ∀ best', Looked (FoundIn s (gtid :: gtids)) s
        (getLastGtidLoop cx s gtids best').2 := by
      intro best'
      refine (ih s best').mono ?_
      rintro f ⟨gtid', hmem, hfound⟩
      exact ⟨gtid', List.mem_cons_of_mem _ hmem, hfound⟩
    simp only [getLastGtidLoop]
    split
    · exact hskip best
    · split
      · -- The rest of the list is looked up in the directory that this lookup leaves.
        rename_i hok
        have hlook : Looked (Found s gtid) s _ := @looked_check cx _ _ _ rfl hok.1
        refine (hlook.mono fun f hf => foundIn_head gtids hf).trans ?_
        exact (ih _ _).mono fun f hf => hlook.foundIn_tail hf
      · exact hskip best

theorem getLastGtid_looked (s : EventStorage) (gtids : List Bytes) :
    Looked (FoundIn s gtids) s (getLastGtid cx s gtids).2.2 := by
  simp only [getLastGtid]
  split
  · -- The empty list opens the oldest file of a listing, which exists.
    rw [checkGtidInData_nil]
    exact .refl _ s
  · split
    · exact getLastGtidLoop_looked gtids s none
    · exact getLastGtidLoop_looked gtids s none

/-- Repositioning opens the oldest listed file or the file it has found. -/
theorem reSet_looked (s : EventStorage) (gtid : Bytes) :
    Looked (fun f => Found s gtid f ∨ f ∈ s.manager.fileList.keys) s (reSet s gtid).2 := by
  simp only [reSet]
  split
  · simp only [openOldestFile]
    split
    · exact .refl _ s
    · rename_i f hhead
      exact ⟨.create .refl (.inr (List.mem_of_head? hhead)), rfl, rfl, rfl, rfl, rfl⟩
  · split
    · exact .refl _ s
    · split
      · rename_i hok
        have hfound : Found s gtid (realGetGTIDInfo s gtid true).2.fileName :=
          ⟨_, Prod.ext hok rfl, rfl⟩
        refine ⟨?_, rfl, rfl, rfl, rfl, rfl⟩
        simp only [setReadPos, setFileReadPos]
        split
        · exact .create .refl (.inl hfound)
        · exact .refl
      · exact .refl _ s

/-- `RealMakeCheckPoint` takes the file of a GTID it has found, if any. -/
theorem maxCheckFile_spec (gtids : List Bytes) :
    ∀ (maxFileName : Bytes) (s : EventStorage),
      Looked (FoundIn s gtids) s (maxCheckFile cx gtids maxFileName s).2 ∧
        ((maxCheckFile cx gtids maxFileName s).1 = maxFileName ∨
          FoundIn s gtids (maxCheckFile cx gtids maxFileName s).1) := by
  induction gtids with
  | nil =>
    intro maxFileName s
    exact ⟨.refl _ s, .inl rfl⟩
  | cons gtid gtids ih =>
    intro maxFileName s
    have hlook := @getLowerBoundGTIDInfo_looked cx s gtid
    simp only [maxCheckFile]
    split
    · rename_i hok
      obtain ⟨hrest, hname⟩ := ih (getLowerBoundGTIDInfo cx s gtid).2.1.fileName
        (getLowerBoundGTIDInfo cx s gtid).2.2
      refine ⟨(hlook.mono fun f hf => foundIn_head gtids hf).trans
        (hrest.mono fun f hf => hlook.foundIn_tail hf), .inr ?_⟩
      -- A later GTID has replaced the file of this one, or none has.
      rcases hname with hname | hname
      · rw [hname]
        exact foundIn_head gtids (found_of_getLowerBoundGTIDInfo hok.1)
      · exact hlook.foundIn_tail hname
    · obtain ⟨hrest, hname⟩ := ih maxFileName (getLowerBoundGTIDInfo cx s gtid).2.2
      refine ⟨(hlook.mono fun f hf => foundIn_head gtids hf).trans
        (hrest.mono fun f hf => hlook.foundIn_tail hf), ?_⟩
      rcases hname with hname | hname
      · exact .inl hname
      · exact .inr (hlook.foundIn_tail hname)

end PhxSql.Store
