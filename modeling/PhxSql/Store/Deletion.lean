import PhxSql.Store.Lookup
import PhxSql.Store.Segments

/-!
# Deletion of segments

What checkpoint deletion does to the segments: those whose files are selected are removed, and with
them the index entries of their events. The selection leaves at least two files of the listing, and
it takes only files with a smaller id than the file that was given to it.
-/

set_option autoImplicit false

namespace PhxSql.Store

open PhxSql.Proto PhxSql.Lib PhxSql.Gtid

variable {cx : Codecs}

/-! ## Creating and removing files -/

/-- Creating a file that is not listed leaves the segments. -/
theorem FilesRep.createFile {d : Disk} {fs : FileSet} {segs : List Segment}
    (h : FilesRep cx d fs segs) {f : Bytes} (hf : FileName f) :
    FilesRep cx (Store.createFile d f) fs segs := by
  refine { h with contents := ?_, unlisted := ?_, named := ?_ }
  · intro g hg
    by_cases hne : g.file = f
    · rw [← hne, find?_createFile_self, content, h.contents g hg, Option.getD_some]
    · rw [find?_createFile_of_ne hne]
      exact h.contents g hg
  · intro f' hf'
    rw [content_createFile]
    exact h.unlisted f' hf'
  · intro f' bs hbs
    by_cases hne : f' = f
    · exact hne ▸ hf
    · rw [find?_createFile_of_ne hne] at hbs
      exact h.named f' bs hbs

theorem FilesRep.touched {names : Bytes → Prop} (hnames : ∀ f, names f → FileName f) {d d' : Disk}
    {fs : FileSet} {segs : List Segment} (h : FilesRep cx d fs segs) (ht : Touched names d d') :
    FilesRep cx d' fs segs := by
  induction ht with
  | refl => exact h
  | create _ hf ih => exact ih.createFile (hnames _ hf)

theorem keys_erase (fs : FileSet) (f : Bytes) :
    (fs.erase f).keys = fs.keys.filter fun f' => decide (fileRank f' ≠ fileRank f) := by
  simp only [SortedMap.keys, SortedMap.erase, List.filter_map]
  rfl

theorem keys_erase_file {fs : FileSet} {segs : List Segment} (hkeys : fs.keys = segs.map Segment.file)
    (hsmall : ∀ g ∈ segs, g.id < 2 ^ 64) {n : Nat} (hn : n < 2 ^ 64) :
    (fs.erase (genFileName n)).keys =
      (segs.filter fun g => g.file ≠ genFileName n).map Segment.file := by
  rw [keys_erase, hkeys, List.filter_map]
  congr 1
  apply List.filter_congr
  intro g hg
  have hrank : fileRank g.file = g.id + 1 := fileRank_genFileName (hsmall g hg)
  have hiff : g.file = genFileName n ↔ g.id = n := genFileName_inj
  simp only [Function.comp_apply, hrank, fileRank_genFileName hn, ne_eq, hiff, decide_eq_decide]
  omega

/-- Removing a file from the directory and the list removes its segment. -/
theorem FilesRep.remove {d : Disk} {fs : FileSet} {segs : List Segment} (h : FilesRep cx d fs segs)
    {f : Bytes} (hf : FileName f) :
    FilesRep cx (d.erase f) (fs.erase f) (segs.filter fun g => g.file ≠ f) := by
  obtain ⟨n, hn, rfl⟩ := hf
  have hmem : ∀ g, g ∈ segs.filter (fun g => g.file ≠ genFileName n) ↔
      g ∈ segs ∧ g.file ≠ genFileName n := by
    intro g
    simp
  refine ⟨h.ids.filter _, ?_, ?_, keys_erase_file h.keys h.small hn, ?_, ?_, ?_⟩
  · intro g hg
    exact h.small g ((hmem g).mp hg).1
  · intro g hg
    exact h.serialized g ((hmem g).mp hg).1
  · intro g hg
    obtain ⟨hg, hne⟩ := (hmem g).mp hg
    rw [SortedMap.find?_erase_of_ne (by simpa using hne)]
    exact h.contents g hg
  · intro f hf
    by_cases hfn : f = genFileName n
    · rw [content, SortedMap.find?_erase_of_eq (by rw [hfn]), Option.getD_none]
    · rw [content, SortedMap.find?_erase_of_ne (by simpa using hfn)]
      apply h.unlisted
      intro g hg heq
      by_cases hgn : g.file = genFileName n
      · exact hfn (heq.trans hgn)
      · exact hf g ((hmem g).mpr ⟨hg, hgn⟩) heq
  · intro f bs hbs
    obtain ⟨f', hmem', hrank⟩ := SortedMap.find?_eq_some_iff.mp hbs
    exact h.named f bs (SortedMap.find?_eq_some_iff.mpr
      ⟨f', (SortedMap.mem_erase.mp hmem').1, hrank⟩)

/-- The same for several files. -/
theorem FilesRep.removeAll (files : List Bytes) :
    ∀ {d : Disk} {fs : FileSet} {segs : List Segment}, FilesRep cx d fs segs →
      (∀ f ∈ files, FileName f) →
      FilesRep cx (files.foldl SortedMap.erase d) (files.foldl SortedMap.erase fs)
        (segs.filter fun g => g.file ∉ files) := by
  induction files with
  | nil =>
    intro d fs segs h _
    simpa using h
  | cons f files ih =>
    intro d fs segs h hfiles
    have hrest := ih (h.remove (hfiles f List.mem_cons_self))
      fun f' hf' => hfiles f' (List.mem_cons_of_mem _ hf')
    simp only [List.foldl_cons]
    convert hrest using 1
    rw [List.filter_filter]
    apply List.filter_congr
    intro g _
    by_cases hg : g.file = f
    · simp [hg]
    · simp [hg]

/-! ## The selection -/

/-- What the selection loop adds to the files it has selected. -/
theorem selectDelFiles_spec (maxId num maxNum minTime : Nat) (fileTime : Bytes → Nat)
    (fs : List Bytes) :
    ∀ del : List Bytes, ∃ chosen,
      selectDelFiles maxId num maxNum minTime fileTime fs del = del ++ chosen ∧
      chosen.Sublist fs ∧ (∀ f ∈ chosen, getFileInstanceID f < maxId) ∧
      (chosen = [] ∨ del.length + chosen.length + 2 ≤ num) := by
  induction fs with
  | nil =>
    intro del
    exact ⟨[], by simp [selectDelFiles], List.Sublist.refl _, by simp, .inl rfl⟩
  | cons f fs ih =>
    intro del
    have hnone : ∃ chosen, del = del ++ chosen ∧ chosen.Sublist (f :: fs) ∧
        (∀ f ∈ chosen, getFileInstanceID f < maxId) ∧
        (chosen = [] ∨ del.length + chosen.length + 2 ≤ num) :=
      ⟨[], by simp, List.nil_sublist _, by simp, .inl rfl⟩
    simp only [selectDelFiles]
    split
    · exact hnone
    · -- The count of files that would be left is checked before each file.
      rename_i hnum
      by_cases hsel : getFileInstanceID f < maxId ∧ fileTime f ≤ minTime
      · rw [if_pos hsel]
        split
        · refine ⟨[f], rfl, ?_, ?_, .inr ?_⟩
          · simp
          · simpa using hsel.1
          · simp only [List.length_singleton]
            omega
        · obtain ⟨chosen, heq, hsub, hlt, hlen⟩ := ih (del ++ [f])
          refine ⟨f :: chosen, ?_, hsub.cons_cons f, ?_, .inr ?_⟩
          · rw [heq, List.append_assoc]
            rfl
          · intro f' hf'
            rcases List.mem_cons.mp hf' with rfl | hf'
            · exact hsel.1
            · exact hlt f' hf'
          · simp only [List.length_append, List.length_singleton] at hlen
            simp only [List.length_cons]
            rcases hlen with rfl | hlen
            · simp only [List.length_nil]
              omega
            · omega
      · rw [if_neg hsel]
        split
        · exact hnone
        · obtain ⟨chosen, heq, hsub, hlt, hlen⟩ := ih del
          exact ⟨chosen, heq, hsub.cons f, hlt, hlen⟩

/-- The files that are selected are listed, are older than the given one, and leave two. -/
theorem delCheckPointFileList_spec (fs : FileSet) (maxFileName : Bytes) (maxNum minTime : Nat)
    (fileTime : Bytes → Nat) :
    (delCheckPointFileList fs maxFileName maxNum minTime fileTime).Sublist fs.keys ∧
      (∀ f ∈ delCheckPointFileList fs maxFileName maxNum minTime fileTime,
        getFileInstanceID f < getFileInstanceID maxFileName) ∧
      (delCheckPointFileList fs maxFileName maxNum minTime fileTime = [] ∨
        (delCheckPointFileList fs maxFileName maxNum minTime fileTime).length + 2 ≤
          fs.keys.length) := by
  obtain ⟨chosen, heq, hsub, hlt, hlen⟩ := selectDelFiles_spec (getFileInstanceID maxFileName)
    fs.keys.length maxNum minTime fileTime fs.keys []
  rw [List.nil_append] at heq
  simp only [delCheckPointFileList, heq]
  refine ⟨hsub, hlt, ?_⟩
  simpa using hlen

/-! ## The index entries -/

/-- The index without the events among these records. -/
def dropEvents (index : EventIndex) (records : List EventData) : EventIndex :=
  records.foldl (fun index r => if r.gtid ≠ [] then index.erase r.gtid else index) index

theorem mem_dropEvents (records : List EventData) :
    ∀ (index : EventIndex) (e : Bytes × IndexValue),
      e ∈ (dropEvents index records).entries ↔
        e ∈ index.entries ∧ ∀ r ∈ records, r.gtid ≠ [] → gtidRank e.1 ≠ gtidRank r.gtid := by
  induction records with
  | nil => simp [dropEvents]
  | cons r records ih =>
    intro index e
    have hstep : dropEvents index (r :: records) =
        dropEvents (if r.gtid ≠ [] then index.erase r.gtid else index) records := rfl
    rw [hstep, ih, List.forall_mem_cons]
    by_cases hr : r.gtid = []
    · simp [hr]
    · simp only [ne_eq, hr, not_false_eq_true, if_true, SortedMap.mem_erase, forall_const]
      rw [and_assoc]

/-- Reading a file depends on the content of that file and on nothing else. -/
theorem recordsFrom_congr (fuel : Nat) :
    ∀ {d d' : Disk} {m m' : StorageFileManager}, m.reader = m'.reader →
      content d m.reader.path = content d' m.reader.path →
      recordsFrom cx fuel d m = recordsFrom cx fuel d' m' := by
  induction fuel with
  | zero =>
    intro d d' m m' _ _
    rfl
  | succ fuel ih =>
    intro d d' m m' hreader hcontent
    have hread : ∀ r r' : ReadResult, r.data = r'.data → r.reader = r'.reader →
        (parseRead cx m r).ret = (parseRead cx m' r').ret ∧
        (parseRead cx m r).data = (parseRead cx m' r').data ∧
        (parseRead cx m r).manager.reader = r.reader ∧
        (parseRead cx m' r').manager.reader = r.reader := by
      intro r r' hdata hr
      simp only [parseRead, ← hdata, ← hr]
      split
      · exact ⟨rfl, rfl, rfl, rfl⟩
      · split
        · exact ⟨rfl, rfl, rfl, rfl⟩
        · exact ⟨rfl, rfl, rfl, rfl⟩
    have hsame : readData d m.reader = readData d' m.reader := by
      simp only [readData, hcontent]
    have hpath : (readData d' m.reader).2.path = m.reader.path := by
      unfold readData
      split <;> rfl
    obtain ⟨hret, hdata, hnext, hnext'⟩ := hread (readNext d m.reader []) (readNext d' m.reader [])
      (congrArg Prod.fst hsame) (congrArg Prod.snd hsame)
    -- The next record is read from the same place of both.
    have hrest := @ih (readNext d m.reader []).disk (readNext d' m.reader []).disk _ _
      (hnext.trans hnext'.symm) (by
        rw [hnext]
        simpa only [readNext, hsame, hpath] using hcontent)
    simp only [recordsFrom, readEventFromFile, ← hreader, parseRead_disk, hret, hdata, hrest]

/-- Deleting a file of the directory. -/
theorem delFile_eq {s : EventStorage} {f bs : Bytes} (hf : FileName f)
    (hbs : s.disk.find? f = some bs) (fs : FileSet) :
    delFile cx { fileList := fs } s f =
      { s with
        index := dropEvents s.index (fileRecords cx s.disk f)
        manager := removeFile s.manager f } := by
  obtain ⟨n, -, rfl⟩ := hf
  have hpath : ([] : Bytes) ≠ genFileName n := (genFileName_ne_nil n).symm
  have hopen : setReadPos s.disk { fileList := fs } { fileName := genFileName n } =
      (s.disk, { fileList := fs, reader := { path := genFileName n } }) := by
    simp [setReadPos, setFileReadPos, hpath, reOpenRead, createFile_of_find? hbs]
  have hrecords : recordsFrom cx ((content s.disk (genFileName n)).length + 1) s.disk
      { fileList := fs, reader := { path := genFileName n } } =
        fileRecords cx s.disk (genFileName n) :=
    recordsFrom_congr _ rfl rfl
  simp only [delFile, hopen, hrecords]
  rfl

/-- Deleting several files of the directory. -/
theorem foldl_delFile (files : List Bytes) (fs : FileSet) :
    ∀ s : EventStorage, (∀ f ∈ files, FileName f ∧ ∃ bs, s.disk.find? f = some bs) →
      files.foldl (delFile cx { fileList := fs }) s =
        { s with
          index := dropEvents s.index (files.flatMap (fileRecords cx s.disk))
          manager := { s.manager with fileList := files.foldl SortedMap.erase s.manager.fileList } } := by
  induction files with
  | nil =>
    intro s _
    rfl
  | cons f files ih =>
    intro s hfiles
    obtain ⟨hf, bs, hbs⟩ := hfiles f List.mem_cons_self
    rw [List.foldl_cons, delFile_eq hf hbs, ih]
    · simp only [removeFile, dropEvents, List.flatMap_cons, List.foldl_append, List.foldl_cons]
    · intro f' hf'
      exact hfiles f' (List.mem_cons_of_mem _ hf')

/-! ## The whole deletion -/

/-- The files that are not newer than every segment. -/
def KnownFile (segs : List Segment) (f : Bytes) : Prop :=
  ∃ n, f = genFileName n ∧ ∃ g ∈ segs, n ≤ g.id

theorem StoreRep.fileName_of_known {s : EventStorage} {segs : List Segment}
    (h : StoreRep cx s segs) {f : Bytes} (hf : KnownFile segs f) : FileName f := by
  obtain ⟨n, rfl, g, hg, hle⟩ := hf
  exact ⟨n, Nat.lt_of_le_of_lt hle (h.files.small g hg), rfl⟩

/-- Lookups leave the segments. -/
theorem StoreRep.looked {names : Bytes → Prop} {s s' : EventStorage} {segs : List Segment}
    (h : StoreRep cx s segs) (hnames : ∀ f, names f → FileName f) (hl : Looked names s s') :
    StoreRep cx s' segs where
  files := by
    rw [hl.fileList]
    exact h.files.touched hnames hl.disk
  writer := by
    rw [hl.writer, EventStorage.lastInstanceID, hl.uuidHandler]
    exact h.writer
  preloaded := hl.checkpointData.trans h.preloaded
  small := by
    rw [EventStorage.lastInstanceID, hl.uuidHandler]
    exact h.small

variable (cx) in
/-- The second store is the first one without the segments of these files. `names` are files that
may have been created before the deletion. -/
structure Deleted (names : Bytes → Prop) (s s' : EventStorage) (segs : List Segment)
    (files : List Bytes) : Prop where
  rep : StoreRep cx s' (segs.filter fun g => g.file ∉ files)
  last : ∀ g, segs.getLast? = some g → g.file ∉ files
  old : ∀ f ∈ files, ∃ n, f = genFileName n ∧ ∃ g ∈ segs, n < g.id
  index : ∀ e, e ∈ s'.index.entries ↔ e ∈ s.index.entries ∧
    ∀ g ∈ segs, g.file ∈ files → ∀ r ∈ g.records, r.gtid ≠ [] → gtidRank e.1 ≠ gtidRank r.gtid
  uuidHandler : s'.uuidHandler = s.uuidHandler
  writer : s'.manager.writer = s.manager.writer
  gone : ∀ f ∈ files, s'.disk.find? f = none
  stays : ∀ f, s'.disk.find? f = s.disk.find? f ∨ f ∈ files ∨ names f

theorem deleted_nil {names : Bytes → Prop} {s s' : EventStorage} {segs : List Segment}
    (h : StoreRep cx s segs) (hnames : ∀ f, names f → FileName f) (hl : Looked names s s') :
    Deleted cx names s s' segs [] where
  rep := by simpa using h.looked hnames hl
  last := by simp
  old := by simp
  index := by simp [hl.index]
  uuidHandler := hl.uuidHandler
  writer := hl.writer
  gone := by simp
  stays := by
    intro f
    rcases hl.disk.find? f with hf | hf
    · exact .inl hf
    · exact .inr (.inr hf)

theorem find?_foldl_erase (files : List Bytes) :
    ∀ (d : Disk) (f : Bytes), (files.foldl SortedMap.erase d).find? f =
      if f ∈ files then none else d.find? f := by
  induction files with
  | nil =>
    intro d f
    simp
  | cons f' files ih =>
    intro d f
    rw [List.foldl_cons, ih]
    by_cases hf : f = f'
    · simp [hf, SortedMap.find?_erase_of_eq]
    · rw [SortedMap.find?_erase_of_ne (by simpa using hf)]
      simp [hf]

/-- The last segment has the largest id. -/
theorem FilesRep.le_getLast? {d : Disk} {fs : FileSet} {segs : List Segment}
    (h : FilesRep cx d fs segs) {g g' : Segment} (hlast : segs.getLast? = some g) (hg' : g' ∈ segs) :
    g'.id ≤ g.id := by
  obtain ⟨init, rfl⟩ := List.getLast?_eq_some_iff.mp hlast
  rcases List.mem_append.mp hg' with hg' | hg'
  · have := (List.pairwise_append.mp h.ids).2.2 g' hg' g (List.mem_singleton_self g)
    omega
  · rw [List.mem_singleton.mp hg']

theorem getFileInstanceID_known {s : EventStorage} {segs : List Segment} (h : StoreRep cx s segs)
    {f : Bytes} (hf : KnownFile segs f) : ∃ g ∈ segs, getFileInstanceID f ≤ g.id := by
  obtain ⟨n, rfl, g, hg, hle⟩ := hf
  rw [getFileInstanceID_genFileName (Nat.lt_of_le_of_lt hle (h.files.small g hg))]
  exact ⟨g, hg, hle⟩

/-- The records of some files are those of their segments. -/
theorem FilesRep.forall_fileRecords_iff {d : Disk} {fs : FileSet} {segs : List Segment}
    (h : FilesRep cx d fs segs) (files : List Bytes) {P : EventData → Prop} :
    (∀ r ∈ files.flatMap (fileRecords cx d), P r) ↔
      ∀ g ∈ segs, g.file ∈ files → ∀ r ∈ g.records, P r := by
  constructor
  · intro hall g hg hgf r hr
    refine hall r (List.mem_flatMap.mpr ⟨g.file, hgf, ?_⟩)
    rw [h.fileRecords_eq hg]
    exact hr
  · intro hall r hr
    obtain ⟨f, hf, hr⟩ := List.mem_flatMap.mp hr
    obtain ⟨g, hg, rfl, hmem⟩ := h.segment_of_mem hr
    exact hall g hg hf r hmem

/-- `DelCheckPointFile` and the removal of the files, for a known file. -/
theorem delCheckPointFile_deleted {s : EventStorage} {segs : List Segment} (h : StoreRep cx s segs)
    {maxFileName : Bytes} (hmax : KnownFile segs maxFileName) (maxNum minTime : Nat)
    (fileTime : Bytes → Nat) :
    Deleted cx (fun _ => False) s
      { (delCheckPointFile cx s maxFileName maxNum minTime fileTime).2 with
        disk := (delCheckPointFile cx s maxFileName maxNum minTime fileTime).1.foldl SortedMap.erase
          (delCheckPointFile cx s maxFileName maxNum minTime fileTime).2.disk }
      segs (delCheckPointFile cx s maxFileName maxNum minTime fileTime).1 := by
  obtain ⟨g₀, hg₀, hmaxle⟩ := getFileInstanceID_known h hmax
  obtain ⟨hsub, hlt, -⟩ := delCheckPointFileList_spec (getAllFiles s.disk) maxFileName maxNum minTime
    fileTime
  simp only [delCheckPointFile, newManager, if_true]
  generalize hfiles : delCheckPointFileList (getAllFiles s.disk) maxFileName maxNum minTime
    fileTime = files at hsub hlt ⊢
  have hold : ∀ f ∈ files, ∃ n, n < 2 ^ 64 ∧ f = genFileName n ∧ ∃ bs, s.disk.find? f = some bs := by
    intro f hf
    obtain ⟨bs, hbs⟩ := contains_of_mem_getAllFiles (hsub.subset hf)
    obtain ⟨n, hn, hfn⟩ := h.files.named f bs hbs
    exact ⟨n, hn, hfn, bs, hbs⟩
  have hname : ∀ f ∈ files, FileName f := by
    intro f hf
    obtain ⟨n, hn, hfn, -⟩ := hold f hf
    exact ⟨n, hn, hfn⟩
  have hids : ∀ n, n < 2 ^ 64 → genFileName n ∈ files → n < g₀.id := by
    intro n hn hf
    have := hlt _ hf
    rw [getFileInstanceID_genFileName hn] at this
    omega
  rw [foldl_delFile files (getAllFiles s.disk) s fun f hf => by
    obtain ⟨n, hn, hfn, hbs⟩ := hold f hf
    exact ⟨⟨n, hn, hfn⟩, hbs⟩]
  -- Only files older than a known one are removed, and no known file is newer than the last one.
  have hlast : ∀ g, segs.getLast? = some g → g.file ∉ files := by
    intro g hg hmem
    have hle := h.files.le_getLast? hg hg₀
    have := hids g.id (h.files.small g (List.mem_of_getLast? hg)) hmem
    omega
  refine {
    rep := ⟨h.files.removeAll files hname, ?writer, h.preloaded, h.small⟩
    last := hlast, old := ?old, index := ?index, uuidHandler := rfl, writer := rfl
    gone := ?gone, stays := ?stays }
  case writer =>
    obtain ⟨init, g, rfl, hw, hle⟩ := h.writer
    refine ⟨init.filter fun g => g.file ∉ files, g, ?_, hw, hle⟩
    rw [List.filter_append, List.filter_cons_of_pos, List.filter_nil]
    simpa using hlast g List.getLast?_concat
  case old =>
    intro f hf
    obtain ⟨n, hn, rfl, -⟩ := hold f hf
    exact ⟨n, rfl, g₀, hg₀, hids n hn hf⟩
  case index =>
    intro e
    rw [mem_dropEvents]
    exact and_congr_right fun _ => h.files.forall_fileRecords_iff files
  case gone =>
    intro f hf
    simp only
    rw [find?_foldl_erase, if_pos hf]
  case stays =>
    intro f
    simp only
    rw [find?_foldl_erase]
    by_cases hf : f ∈ files
    · exact .inr (.inl hf)
    · rw [if_neg hf]
      exact .inl rfl

/-- What `RealMakeCheckPoint` does to the segments, if lookups find known files only. -/
theorem realMakeCheckPoint_deleted {s : EventStorage} {segs : List Segment} (h : StoreRep cx s segs)
    (hfound : ∀ gtid f, Found s gtid f → KnownFile segs f) (gtids : List Bytes)
    (maxNum minTime : Nat) (fileTime : Bytes → Nat) :
    Deleted cx (FoundIn s gtids) s (realMakeCheckPoint cx gtids maxNum minTime fileTime s).2 segs
      (realMakeCheckPoint cx gtids maxNum minTime fileTime s).1 := by
  have hknown : ∀ f, FoundIn s gtids f → KnownFile segs f := by
    rintro f ⟨gtid, -, hf⟩
    exact hfound gtid f hf
  have hnames : ∀ f, FoundIn s gtids f → FileName f := fun f hf =>
    h.fileName_of_known (hknown f hf)
  obtain ⟨hlook, hname⟩ := @maxCheckFile_spec cx gtids [] s
  simp only [realMakeCheckPoint]
  split
  · exact deleted_nil h hnames hlook
  · rename_i hne
    have hmax : KnownFile segs (maxCheckFile cx gtids [] s).1 := by
      rcases hname with hname | hname
      · exact absurd hname hne
      · exact hknown _ hname
    have hrep := h.looked hnames hlook
    have hdel := delCheckPointFile_deleted hrep hmax maxNum minTime fileTime
    refine ⟨hdel.rep, hdel.last, hdel.old, ?_, hdel.uuidHandler.trans hlook.uuidHandler,
      hdel.writer.trans hlook.writer, hdel.gone, ?_⟩
    · intro e
      rw [hdel.index, hlook.index]
    · intro f
      rcases hdel.stays f with hf | hf | hf
      · rcases hlook.disk.find? f with hf' | hf'
        · exact .inl (hf.trans hf')
        · exact .inr (.inr hf')
      · exact .inr (.inl hf)
      · exact hf.elim

end PhxSql.Store
