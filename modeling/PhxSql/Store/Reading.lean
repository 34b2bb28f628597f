import PhxSql.Store.Segments
import Mathlib.Algebra.Order.BigOperators.Group.List

/-!
# Reading through the files

A read position in the files of some segments stands before a row of records: the rest of its file
and the records of the files after it. `readEvent` returns the first of them and `getEvent` the
first one that is an event, so repeated calls return the events from the position on, in order.
-/

set_option autoImplicit false

namespace PhxSql.Store

open PhxSql.Proto PhxSql.Lib PhxSql.Gtid

variable (cx : Codecs)

/-- The records that follow a read position. -/
def AtRecords (segs : List Segment) (st : Storage) (rest : List EventData) : Prop :=
  ∃ before g after pre post, segs = before ++ g :: after ∧ g.records = pre ++ post ∧
    st = { path := g.file, offset := (segmentBytes cx pre).length } ∧
    rest = post ++ after.flatMap Segment.records

/-- The records of a segment with the file they are in. -/
def Segment.rows (g : Segment) : List (Bytes × EventData) :=
  g.records.map fun r => (g.file, r)

/-- The records that follow a read position with the files they are in. -/
def AtRows (segs : List Segment) (st : Storage) (rows : List (Bytes × EventData)) : Prop :=
  ∃ before g after pre post, segs = before ++ g :: after ∧ g.records = pre ++ post ∧
    st = { path := g.file, offset := (segmentBytes cx pre).length } ∧
    rows = post.map (fun r => (g.file, r)) ++ after.flatMap Segment.rows

variable {cx}

theorem map_snd_rows (segs : List Segment) :
    (segs.flatMap Segment.rows).map Prod.snd = segs.flatMap Segment.records := by
  rw [List.map_flatMap]
  apply List.flatMap_congr
  intro g _
  simp [Segment.rows]

/-- A position before records stands before rows with these records. -/
theorem AtRecords.rows {segs : List Segment} {st : Storage} {rest : List EventData}
    (h : AtRecords cx segs st rest) : ∃ rows, AtRows cx segs st rows ∧ rows.map Prod.snd = rest := by
  obtain ⟨before, g, after, pre, post, hsegs, hrecords, hst, rfl⟩ := h
  refine ⟨_, ⟨before, g, after, pre, post, hsegs, hrecords, hst, rfl⟩, ?_⟩
  simp [map_snd_rows]

theorem AtRows.records {segs : List Segment} {st : Storage} {rows : List (Bytes × EventData)}
    (h : AtRows cx segs st rows) : AtRecords cx segs st (rows.map Prod.snd) := by
  obtain ⟨before, g, after, pre, post, hsegs, hrecords, hst, rfl⟩ := h
  refine ⟨before, g, after, pre, post, hsegs, hrecords, hst, ?_⟩
  simp [map_snd_rows]

theorem atRows_start {segs before after : List Segment} {g : Segment}
    (h : segs = before ++ g :: after) :
    AtRows cx segs { path := g.file } ((g :: after).flatMap Segment.rows) :=
  ⟨before, g, after, [], g.records, h, rfl, rfl, by simp [Segment.rows]⟩

/-- The start of a file stands before its records. -/
theorem atRecords_start {segs before after : List Segment} {g : Segment}
    (h : segs = before ++ g :: after) :
    AtRecords cx segs { path := g.file } ((g :: after).flatMap Segment.records) :=
  ⟨before, g, after, [], g.records, h, rfl, rfl, by simp⟩

/-- The files after that of a segment are those of the segments after it. -/
theorem FilesRep.filesAfter_eq {d : Disk} {fs : FileSet} {before after : List Segment} {g : Segment}
    (h : FilesRep cx d fs (before ++ g :: after)) :
    filesAfter fs g.file = after.map Segment.file := by
  apply filesAfter_of_keys
  rw [h.keys, List.map_append, List.map_cons]

/-! ## One record -/

/-- At the end of the records there is nothing to read. -/
theorem readNext_nil {d : Disk} {fs : FileSet} {segs : List Segment} (h : FilesRep cx d fs segs)
    (after : List Segment) :
    ∀ (before : List Segment) (g : Segment), segs = before ++ g :: after →
      after.flatMap Segment.records = [] →
      ∃ pos rd, AtRecords cx segs rd [] ∧
        readNext d { path := g.file, offset := (segmentBytes cx g.records).length }
          (after.map Segment.file) = { data := none, pos := pos, disk := d, reader := rd } := by
  have hend : ∀ g ∈ segs, readData d { path := g.file, offset := (segmentBytes cx g.records).length } =
      (none, { path := g.file, offset := (segmentBytes cx g.records).length }) := by
    intro g hg
    apply readData_at_end
    rw [h.content_eq hg]
  induction after with
  | nil =>
    intro before g hsegs _
    have hend := hend g (by simp [hsegs])
    refine ⟨{ path := g.file, offset := (segmentBytes cx g.records).length }, _,
      ⟨before, g, [], g.records, [], hsegs, by simp, rfl, by simp⟩, ?_⟩
    simp only [List.map_nil, readNext, hend]
  | cons g' after ih =>
    intro before g hsegs hempty
    -- The reader goes on to the next file, which is empty as well.
    have hend := hend g (by simp [hsegs])
    simp only [List.flatMap_cons, List.append_eq_nil_iff] at hempty
    have hopen : createFile d g'.file = d := createFile_of_find? (h.contents g' (by simp [hsegs]))
    obtain ⟨pos, rd, hat, hread⟩ := ih (before ++ [g]) g' (by simp [hsegs]) hempty.2
    rw [hempty.1] at hread
    refine ⟨pos, rd, hat, ?_⟩
    simp only [List.map_cons, readNext, hend, reOpenRead, hopen]
    exact hread

/-- The next record is read, if need be in one of the next files. -/
theorem readNext_cons {d : Disk} {fs : FileSet} {segs : List Segment} (h : FilesRep cx d fs segs)
    (after : List Segment) :
    ∀ (before : List Segment) (g : Segment) (pre post : List EventData)
      {row : Bytes × EventData} {rows : List (Bytes × EventData)},
      segs = before ++ g :: after → g.records = pre ++ post →
      post.map (fun r => (g.file, r)) ++ after.flatMap Segment.rows = row :: rows →
      ∃ pos rd, AtRows cx segs rd rows ∧ pos.path = row.1 ∧
        readNext d { path := g.file, offset := (segmentBytes cx pre).length }
          (after.map Segment.file) =
            { data := some (recordBytes cx row.2), pos := pos, disk := d, reader := rd } := by
  induction after with
  | nil =>
    intro before g pre post row rows hsegs hrecords hrows
    rw [List.flatMap_nil, List.append_nil] at hrows
    obtain ⟨r, post, rfl, rfl, rfl⟩ := List.map_eq_cons_iff.mp hrows
    have hc : content d g.file = segmentBytes cx (pre ++ r :: post) := by
      rw [h.content_eq (by simp [hsegs]), hrecords]
    refine ⟨{ path := g.file, offset := (segmentBytes cx pre).length }, _,
      ⟨before, g, [], pre ++ [r], post, hsegs, by simp [hrecords], rfl, by simp⟩, rfl, ?_⟩
    exact readNext_of_place hc _
  | cons g' after ih =>
    intro before g pre post row rows hsegs hrecords hrows
    cases post with
    | cons r post =>
      -- The record is in the file of the position.
      obtain ⟨rfl, hrows'⟩ := List.cons.inj hrows
      have hc : content d g.file = segmentBytes cx (pre ++ r :: post) := by
        rw [h.content_eq (by simp [hsegs]), hrecords]
      refine ⟨{ path := g.file, offset := (segmentBytes cx pre).length }, _,
        ⟨before, g, g' :: after, pre ++ [r], post, hsegs, by simp [hrecords], rfl, hrows'.symm⟩,
        rfl, ?_⟩
      exact readNext_of_place hc _
    | nil =>
      -- The file is at its end, and the next one is opened.
      rw [List.append_nil] at hrecords
      have hend : readData d { path := g.file, offset := (segmentBytes cx pre).length } =
          (none, { path := g.file, offset := (segmentBytes cx pre).length }) := by
        apply readData_at_end
        rw [h.content_eq (by simp [hsegs]), hrecords]
      have hopen : createFile d g'.file = d :=
        createFile_of_find? (h.contents g' (by simp [hsegs]))
      obtain ⟨pos, rd, hat, hpath, hread⟩ := ih (before ++ [g]) g' [] g'.records
        (by simp [hsegs]) rfl (by simpa [Segment.rows] using hrows)
      refine ⟨pos, rd, hat, hpath, ?_⟩
      simp only [List.map_cons, readNext, hend, reOpenRead, hopen]
      exact hread

theorem AtRecords.serialized {d : Disk} {fs : FileSet} {segs : List Segment}
    (h : FilesRep cx d fs segs) {st : Storage} {rest : List EventData}
    (hat : AtRecords cx segs st rest) {r : EventData} (hr : r ∈ rest) :
    (cx.eventData.serialize r).isSome = true := by
  obtain ⟨before, g, after, pre, post, rfl, hrecords, -, rfl⟩ := hat
  rcases List.mem_append.mp hr with hr | hr
  · apply h.serialized g (by simp)
    rw [hrecords]
    exact List.mem_append_right _ hr
  · obtain ⟨g', hg', hr⟩ := List.mem_flatMap.mp hr
    exact h.serialized g' (by simp [hg']) r hr

/-- Reading at a position gives its first record and the file it is in. -/
theorem readEvent_row {d : Disk} {m : StorageFileManager} {segs : List Segment}
    (h : FilesRep cx d m.fileList segs) {row : Bytes × EventData} {rows : List (Bytes × EventData)}
    (hat : AtRows cx segs m.reader (row :: rows)) :
    ∃ info rd, AtRows cx segs rd rows ∧ info.fileName = row.1 ∧
      readEvent cx d m =
        { ret := .ok, data := row.2, info := info, disk := d, manager := { m with reader := rd } } := by
  have hser := hat.records.serialized h (List.mem_map_of_mem List.mem_cons_self)
  obtain ⟨before, g, after, pre, post, hsegs, hrecords, hst, hrows⟩ := hat
  have hfiles : filesAfter m.fileList g.file = after.map Segment.file := by
    rw [hsegs] at h
    exact h.filesAfter_eq
  obtain ⟨pos, rd, hat', hpath, hread⟩ :=
    readNext_cons h after before g pre post hsegs hrecords hrows.symm
  refine ⟨dataInfo pos row.2, rd, hat', hpath, ?_⟩
  simp only [readEvent, hst, hfiles, hread, parseRead, parse_recordBytes hser]

/-- Reading at a position gives its first record. -/
theorem readEvent_cons {d : Disk} {m : StorageFileManager} {segs : List Segment}
    (h : FilesRep cx d m.fileList segs) {r : EventData} {rest : List EventData}
    (hat : AtRecords cx segs m.reader (r :: rest)) :
    ∃ info rd, AtRecords cx segs rd rest ∧
      readEvent cx d m =
        { ret := .ok, data := r, info := info, disk := d, manager := { m with reader := rd } } := by
  obtain ⟨rows, hrows, hrest⟩ := hat.rows
  obtain ⟨row, rows, rfl, rfl, rfl⟩ := List.map_eq_cons_iff.mp hrest
  obtain ⟨info, rd, hat', -, hread⟩ := readEvent_row h hrows
  exact ⟨info, rd, hat'.records, hread⟩

theorem readEvent_nil {d : Disk} {m : StorageFileManager} {segs : List Segment}
    (h : FilesRep cx d m.fileList segs) (hat : AtRecords cx segs m.reader []) :
    ∃ info rd, AtRecords cx segs rd [] ∧
      readEvent cx d m =
        { ret := .dataEmpty, data := {}, info := info, disk := d,
          manager := { m with reader := rd } } := by
  obtain ⟨before, g, after, pre, post, hsegs, hrecords, hst, hrest⟩ := hat
  obtain ⟨hpost, hafter⟩ := List.append_eq_nil_iff.mp hrest.symm
  rw [hpost, List.append_nil] at hrecords
  have hfiles : filesAfter m.fileList g.file = after.map Segment.file := by
    rw [hsegs] at h
    exact h.filesAfter_eq
  obtain ⟨pos, rd, hat', hread⟩ := readNext_nil h after before g hsegs hafter
  rw [hrecords] at hread
  refine ⟨{ fileName := pos.path, offset := pos.offset }, rd, hat', ?_⟩
  simp only [readEvent, hst, hfiles, hread, parseRead]

/-! ## Events -/

/-- The store with another read position. -/
def EventStorage.withReader (s : EventStorage) (st : Storage) : EventStorage :=
  { s with manager := { s.manager with reader := st } }

/-- One header or footer is skipped. -/
theorem getEventLoop_header {segs : List Segment} {header : EventData} (hheader : header.gtid = [])
    {rest : List EventData} {s : EventStorage} (h : FilesRep cx s.disk s.manager.fileList segs)
    (hat : AtRecords cx segs s.manager.reader (header :: rest)) (fuel : Nat) :
    ∃ rd, AtRecords cx segs rd rest ∧
      getEventLoop cx (fuel + 1) s = getEventLoop cx fuel (s.withReader rd) := by
  obtain ⟨info, rd, hat', hread⟩ := readEvent_cons h hat
  refine ⟨rd, hat', ?_⟩
  simp only [getEventLoop, hread, hheader, and_self, if_true]
  rfl

/-- Headers and footers are skipped up to the next event. -/
theorem getEventLoop_cons {segs : List Segment} (headers : List EventData)
    (hheaders : ∀ x ∈ headers, x.gtid = []) {r : EventData} (hr : r.gtid ≠ [])
    {rest : List EventData} :
    ∀ (fuel : Nat) (s : EventStorage), FilesRep cx s.disk s.manager.fileList segs →
      AtRecords cx segs s.manager.reader (headers ++ r :: rest) → headers.length < fuel →
      ∃ rd, AtRecords cx segs rd rest ∧ getEventLoop cx fuel s = (.ok, r, s.withReader rd) := by
  induction headers with
  | nil =>
    intro fuel s h hat hfuel
    obtain ⟨info, rd, hat', hread⟩ := readEvent_cons h hat
    cases fuel with
    | zero => exact absurd hfuel (Nat.not_lt_zero _)
    | succ fuel =>
      refine ⟨rd, hat', ?_⟩
      simp only [getEventLoop, hread, hr, and_false, if_false]
      rfl
  | cons header headers ih =>
    intro fuel s h hat hfuel
    cases fuel with
    | zero => exact absurd hfuel (Nat.not_lt_zero _)
    | succ fuel =>
      obtain ⟨rd, hat', hskip⟩ := getEventLoop_header (hheaders header List.mem_cons_self) h hat fuel
      obtain ⟨rd', hat'', hloop⟩ := ih (fun x hx => hheaders x (List.mem_cons_of_mem _ hx)) fuel
        (s.withReader rd) h hat' (Nat.lt_of_succ_lt_succ hfuel)
      exact ⟨rd', hat'', hskip.trans hloop⟩

/-- After headers and footers only there is nothing to return. -/
theorem getEventLoop_nil {segs : List Segment} (headers : List EventData)
    (hheaders : ∀ x ∈ headers, x.gtid = []) :
    ∀ (fuel : Nat) (s : EventStorage), FilesRep cx s.disk s.manager.fileList segs →
      AtRecords cx segs s.manager.reader headers → headers.length < fuel →
      ∃ rd, AtRecords cx segs rd [] ∧
        getEventLoop cx fuel s = (.dataEmpty, {}, s.withReader rd) := by
  induction headers with
  | nil =>
    intro fuel s h hat hfuel
    obtain ⟨info, rd, hat', hread⟩ := readEvent_nil h hat
    cases fuel with
    | zero => exact absurd hfuel (Nat.not_lt_zero _)
    | succ fuel =>
      refine ⟨rd, hat', ?_⟩
      simp only [getEventLoop, hread, reduceCtorEq, false_and, if_false]
      rfl
  | cons header headers ih =>
    intro fuel s h hat hfuel
    cases fuel with
    | zero => exact absurd hfuel (Nat.not_lt_zero _)
    | succ fuel =>
      obtain ⟨rd, hat', hskip⟩ := getEventLoop_header (hheaders header List.mem_cons_self) h hat fuel
      obtain ⟨rd', hat'', hloop⟩ := ih (fun x hx => hheaders x (List.mem_cons_of_mem _ hx)) fuel
        (s.withReader rd) h hat' (Nat.lt_of_succ_lt_succ hfuel)
      exact ⟨rd', hat'', hskip.trans hloop⟩

/-- The records in the files are not more than the bytes in the directory. -/
theorem FilesRep.length_records_le {d : Disk} {fs : FileSet} {segs : List Segment}
    (h : FilesRep cx d fs segs) : (segs.flatMap Segment.records).length ≤ diskSize d := by
  have hrecords : (segs.flatMap Segment.records).length ≤
      ((segs.map fun g => (g.file, segmentBytes cx g.records)).map fun e => e.2.length).sum := by
    clear h
    induction segs with
    | nil => simp
    | cons g segs ih =>
      have hg := @length_le_segmentBytes cx g.records
      simp only [List.flatMap_cons, List.length_append, List.map_cons, List.sum_cons]
      omega
  -- The files of the segments are different entries of the directory.
  have hsub : (segs.map fun g => (g.file, segmentBytes cx g.records)).Subperm d.entries := by
    apply List.subperm_of_subset
    · have hids : (segs.map fun g => (g.file, segmentBytes cx g.records)).Pairwise
          fun a b => a.1 ≠ b.1 := by
        rw [List.pairwise_map]
        refine h.ids.imp ?_
        intro g g' hlt heq
        have hid := Segment.file_inj.mp heq
        omega
      exact hids.imp fun hne heq => hne (congrArg Prod.fst heq)
    · intro e he
      obtain ⟨g, hg, rfl⟩ := List.mem_map.mp he
      obtain ⟨f, hmem, hrank⟩ := SortedMap.find?_eq_some_iff.mp (h.contents g hg)
      rw [byteRank_inj.mp hrank] at hmem
      exact hmem
  obtain ⟨l, hperm, hl⟩ := hsub
  refine Nat.le_trans hrecords ?_
  rw [← (hperm.map fun e => e.2.length).sum_eq]
  exact (hl.map fun e => e.2.length).sum_le_sum (by simp)

theorem AtRecords.length_le {d : Disk} {fs : FileSet} {segs : List Segment}
    (h : FilesRep cx d fs segs) {st : Storage} {rest : List EventData}
    (hat : AtRecords cx segs st rest) : rest.length ≤ diskSize d := by
  refine Nat.le_trans ?_ h.length_records_le
  obtain ⟨before, g, after, pre, post, rfl, hrecords, -, rfl⟩ := hat
  simp only [List.flatMap_append, List.flatMap_cons, List.length_append, hrecords]
  omega

/-- The records before the first event. -/
theorem exists_headers (rest : List EventData) :
    (∀ x ∈ rest, x.gtid = []) ∨ ∃ headers r rest', rest = headers ++ r :: rest' ∧
      (∀ x ∈ headers, x.gtid = []) ∧ r.gtid ≠ [] := by
  induction rest with
  | nil => exact .inl (by simp)
  | cons x rest ih =>
    by_cases hx : x.gtid = []
    · rcases ih with hall | ⟨headers, r, rest', rfl, hheaders, hr⟩
      · exact .inl (by simpa [hx] using hall)
      · exact .inr ⟨x :: headers, r, rest', rfl, by simpa [hx] using hheaders, hr⟩
    · exact .inr ⟨[], x, rest, rfl, by simp, hx⟩

variable (cx) in
/-- The events that `n` calls of `GetEvent` return, up to the first one that finds none. -/
def getEvents : Nat → EventStorage → List EventData
  | 0, _ => []
  | n + 1, s =>
    let got := getEvent cx s
    if got.1 = .ok then got.2.1 :: getEvents n got.2.2 else []

/-- A call of `GetEvent` returns the next event, or nothing if there is none. -/
theorem getEvent_spec {segs : List Segment} {s : EventStorage} {rest : List EventData}
    (h : FilesRep cx s.disk s.manager.fileList segs) (hat : AtRecords cx segs s.manager.reader rest) :
    ∃ rd rest', AtRecords cx segs rd rest' ∧
      match rest.filter (fun r => r.gtid ≠ []) with
      | [] => rest' = [] ∧ getEvent cx s = (.dataEmpty, {}, s.withReader rd)
      | r :: events => rest'.filter (fun r => r.gtid ≠ []) = events ∧
          getEvent cx s = (.ok, r, s.withReader rd) := by
  have hlen := hat.length_le h
  have hnone : ∀ headers : List EventData, (∀ x ∈ headers, x.gtid = []) →
      headers.filter (fun r => decide (r.gtid ≠ [])) = [] := by
    intro headers hheaders
    rw [List.filter_eq_nil_iff]
    intro x hx
    simp [hheaders x hx]
  rcases exists_headers rest with hall | ⟨headers, r, rest', rfl, hheaders, hr⟩
  · obtain ⟨rd, hat', hget⟩ := getEventLoop_nil rest hall (diskSize s.disk + 1) s h hat
      (Nat.lt_succ_of_le hlen)
    refine ⟨rd, [], hat', ?_⟩
    rw [hnone rest hall]
    exact ⟨rfl, hget⟩
  · simp only [List.length_append, List.length_cons] at hlen
    obtain ⟨rd, hat', hget⟩ := getEventLoop_cons headers hheaders hr (diskSize s.disk + 1) s h hat
      (by omega)
    refine ⟨rd, rest', hat', ?_⟩
    rw [List.filter_append, hnone headers hheaders, List.nil_append,
      List.filter_cons_of_pos (by simpa using hr)]
    exact ⟨rfl, hget⟩

/-- Calls of `GetEvent` return the events from the read position on. -/
theorem getEvents_eq {segs : List Segment} (n : Nat) :
    ∀ (s : EventStorage) (rest : List EventData), FilesRep cx s.disk s.manager.fileList segs →
      AtRecords cx segs s.manager.reader rest →
      getEvents cx n s = (rest.filter fun r => r.gtid ≠ []).take n := by
  induction n with
  | zero =>
    intro s rest _ _
    simp [getEvents]
  | succ n ih =>
    intro s rest h hat
    obtain ⟨rd, rest', hat', hgot⟩ := getEvent_spec h hat
    cases hevents : rest.filter (fun r => decide (r.gtid ≠ [])) with
    | nil =>
      rw [hevents] at hgot
      simp [getEvents, hgot.2]
    | cons r events =>
      rw [hevents] at hgot
      have hrest := ih (s.withReader rd) rest' h hat'
      rw [hgot.1] at hrest
      rw [List.take_succ_cons, ← hrest]
      simp [getEvents, hgot.2]

end PhxSql.Store
