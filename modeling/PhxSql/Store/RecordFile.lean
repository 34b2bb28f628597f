import PhxSql.Store.Storage

/-!
# Reading a record file that is cut off and grows

`Storage::WriteData` appends records to a file, and `Storage::ReadData` is called again and again on
what is in the file so far: a crash, or a writer that is not done, can leave any number of the first
bytes. The calls return the records that lie wholly in these bytes, then nothing, and they leave the
offset behind the last whole record, so that reading goes on in step when more bytes arrive.
-/

set_option autoImplicit false

namespace PhxSql.Store

open PhxSql.Proto PhxSql.Lib

/-- `Storage::WriteData` for one record after another. -/
def writeRecords (d : Disk) (st : Storage) (ps : List Bytes) : Disk × Storage :=
  ps.foldl (fun written p => writeData written.1 written.2 p) (d, st)

/-- `read`: the bytes from the offset on, as many as are asked for and there, and the offset behind
them. -/
def readFd (d : Disk) (st : Storage) (len : Nat) : Bytes × Storage :=
  let bs := ((content d st.path).drop st.offset).take len
  (bs, { st with offset := st.offset + bs.length })

/-- `Storage::FixOffSet`. -/
def fixOffSet (st : Storage) (offset : Nat) : Storage :=
  { st with offset := offset }

/-- `Storage::ReadData` read by read, with the offset it goes back to where a read fails. -/
def readDataByReads (d : Disk) (st : Storage) : Option Bytes × Storage :=
  let preOffset := st.offset
  let lenRead := readFd d st 8
  if lenRead.1.length ≠ 8 then
    if lenRead.1.length = 0 then
      -- Nothing behind the offset: it has not moved.
      (none, lenRead.2)
    else
      (none, fixOffSet lenRead.2 preOffset)
  else
    let len := leValue lenRead.1
    if maxRecordLen < len then
      (none, fixOffSet lenRead.2 preOffset)
    else
      let dataRead := readFd d lenRead.2 len
      if dataRead.1.length ≠ len then
        (none, fixOffSet dataRead.2 preOffset)
      else
        (some dataRead.1, dataRead.2)

/-- What a number of calls of `Storage::ReadData` return, and the open file after them. -/
def readCalls (d : Disk) : Nat → Storage → List (Option Bytes) × Storage
  | 0, st => ([], st)
  | calls + 1, st =>
    let read := readDataByReads d st
    let rest := readCalls d calls read.2
    (read.1 :: rest.1, rest.2)

/-- Records one after another, then `DATA_EMPTY` for the calls that are left. -/
def answers (ps : List Bytes) (calls : Nat) : List (Option Bytes) :=
  (ps.take calls).map some ++ List.replicate (calls - ps.length) none

/-! ## Writing -/

theorem content_writeRecords {path : Bytes} (ps : List Bytes) :
    ∀ {d : Disk} {st : Storage}, st.path = path → st.offset = (content d path).length →
      content (writeRecords d st ps).1 path = content d path ++ frames ps := by
  induction ps with
  | nil =>
    intro d st _ _
    exact (List.append_nil _).symm
  | cons p ps ih =>
    rintro d st rfl ho
    have hwrite := content_writeData d st p ho
    have hnext := @ih (writeData d st p).1 (writeData d st p).2 rfl
      (by rw [hwrite, List.length_append, ← ho]; rfl)
    rw [frames_cons, ← List.append_assoc, ← hwrite]
    exact hnext

/-! ## Reading -/

/-- Every failed read goes back to the start of the record, so the calls of `read` amount to one
read of a whole record. -/
theorem readDataByReads_eq (d : Disk) (st : Storage) : readDataByReads d st = readData d st := by
  have hrest : ∀ len, (content d st.path).drop (st.offset + len) =
      ((content d st.path).drop st.offset).drop len := fun len => List.drop_drop.symm
  unfold readDataByReads readData readFrame readFd fixOffSet
  simp only [hrest]
  generalize (content d st.path).drop st.offset = bs
  by_cases h8 : bs.length < 8
  · -- The length field is cut off, or there is nothing.
    have hshort : min 8 bs.length ≠ 8 := by omega
    simp only [List.length_take, hshort, h8, ne_eq, not_false_eq_true, if_true]
    split
    · next h0 => rw [h0, Nat.add_zero]
    · rfl
  · have hfull : min 8 bs.length = 8 := by omega
    simp only [List.length_take, List.length_drop, hfull, h8, ne_eq, not_true_eq_false, if_false]
    generalize leValue _ = len
    by_cases hlimit : maxRecordLen < len
    · simp only [hlimit, if_true]
    · by_cases hcut : bs.length < 8 + len
      · -- The record is cut off.
        have hdata : min len (bs.length - 8) ≠ len := by omega
        simp only [hlimit, hcut, hdata, not_false_eq_true, if_true, if_false]
      · have hdata : min len (bs.length - 8) = len := by omega
        simp only [hlimit, hcut, hdata, not_true_eq_false, if_false, List.length_take,
          List.length_drop, Nat.add_assoc]

/-- A call where nothing can be read returns nothing and leaves the offset, and so do further calls.
-/
theorem readCalls_of_none {d : Disk} {st : Storage}
    (h : readFrame maxRecordLen ((content d st.path).drop st.offset) = none) (calls : Nat) :
    readCalls d calls st = (List.replicate calls none, st) := by
  have hread : readDataByReads d st = (none, st) := by simp [readDataByReads_eq, readData, h]
  induction calls with
  | zero => rfl
  | succ calls ih => simp only [readCalls, hread, ih, List.replicate_succ]

/-- Calls on a file of records with a rest that cannot be read, from behind the records `done`. -/
theorem readCalls_records {d : Disk} {path tail : Bytes} (htail : readFrame maxRecordLen tail = none)
    (calls : Nat) :
    ∀ (done ps : List Bytes), (∀ p ∈ ps, p.length ≤ maxRecordLen) →
      content d path = frames (done ++ ps) ++ tail →
      readCalls d calls { path := path, offset := (frames done).length } =
        (answers ps calls,
          { path := path, offset := (frames (done ++ ps.take calls)).length }) := by
  induction calls with
  | zero =>
    intro done ps _ _
    simp [readCalls, answers]
  | succ calls ih =>
    intro done ps hps hc
    cases ps with
    | nil =>
      have hdrop : (content d path).drop (frames done).length = tail := by
        rw [hc, List.append_nil, List.drop_left]
      rw [readCalls_of_none (by simpa [hdrop] using htail)]
      simp [answers]
    | cons p ps =>
      have hnext : content d path = frames done ++ (frame p ++ (frames ps ++ tail)) := by
        rw [hc]
        simp
      have hread := readData_of_content { path := path, offset := (frames done).length }
        hnext rfl (hps p List.mem_cons_self)
      have hlen : (frames done).length + (8 + p.length) = (frames (done ++ [p])).length := by
        simp
      -- The record that was read goes over to those behind the reader.
      have hrest := ih (done ++ [p]) ps (fun q hq => hps q (List.mem_cons_of_mem p hq))
        (hc.trans (by simp))
      simp only [readCalls, readDataByReads_eq, hread, hlen, hrest]
      simp [answers]

/-- A file of records of which the first `n` bytes are there, and all of them later: any number of
calls on the first bytes returns the whole records and then nothing, and any number of calls
after that returns the records that are left. -/
theorem torn_file_read (path : Bytes) (d₀ d d' : Disk) (ps : List Bytes) (n : Nat)
    (hempty : content d₀ path = []) (hps : ∀ p ∈ ps, p.length ≤ maxRecordLen)
    (hd : content d path = (content (writeRecords d₀ { path := path } ps).1 path).take n)
    (hd' : content d' path = content (writeRecords d₀ { path := path } ps).1 path)
    (calls calls' : Nat) :
    let read := readCalls d calls { path := path }
    let read' := readCalls d' calls' read.2
    read.1 = answers (whole ps n) calls ∧
      read.2 = { path := path, offset := (frames ((whole ps n).take calls)).length } ∧
      read'.1 = answers (ps.drop (min calls (whole ps n).length)) calls' ∧
      read'.2 = { path := path,
                  offset := (frames (ps.take (min calls (whole ps n).length + calls'))).length } := by
  have hfull : content (writeRecords d₀ { path := path } ps).1 path = frames ps := by
    rw [content_writeRecords ps rfl (by rw [hempty]; rfl), hempty, List.nil_append]
  rw [hfull] at hd hd'
  obtain ⟨tail, htail, hnone⟩ := take_frames (by decide) hps n
  obtain ⟨rest, hrest⟩ := exists_eq_whole_append ps n
  generalize whole ps n = ws at htail hrest ⊢
  have hfirst := readCalls_records hnone calls [] ws
    (fun p hp => hps p (by rw [hrest]; exact List.mem_append_left _ hp)) (hd.trans htail)
  simp only [List.nil_append] at hfirst
  -- What was read is the start of the records, and the second reader is behind it.
  have hstart : ws.take calls = ps.take (min calls ws.length) := by
    rw [hrest, List.take_append_of_le_length (Nat.min_le_right ..), ← List.take_take,
      List.take_length]
  have hsecond := readCalls_records (readFrame_nil maxRecordLen) calls'
    (ps.take (min calls ws.length)) (ps.drop (min calls ws.length))
    (fun p hp => hps p (List.mem_of_mem_drop hp))
    (by rw [List.take_append_drop, List.append_nil]; exact hd')
  have hjoin : ps.take (min calls ws.length) ++ (ps.drop (min calls ws.length)).take calls' =
      ps.take (min calls ws.length + calls') := List.take_add.symm
  rw [hjoin] at hsecond
  have hst : (readCalls d calls { path := path }).2 =
      { path := path, offset := (frames (ps.take (min calls ws.length))).length } := by
    rw [← hstart]
    exact congrArg Prod.snd hfirst
  refine ⟨congrArg Prod.fst hfirst, congrArg Prod.snd hfirst, ?_, ?_⟩
  · rw [hst]
    exact congrArg Prod.fst hsecond
  · rw [hst]
    exact congrArg Prod.snd hsecond

/-- Three records, the second one empty, with the third cut off behind its length: two records are
read, the third call gives nothing, and the third record is read when the file is whole. -/
theorem torn_file_read_three :
    let ps : List Bytes := [[7, 8], [], [9]]
    let cut : Disk := SortedMap.empty.insert [102] ((frames ps).take 26)
    let full : Disk := SortedMap.empty.insert [102] (frames ps)
    let read := readCalls cut 3 { path := [102] }
    read = ([some [7, 8], some [], none], { path := [102], offset := 18 }) ∧
      (readCalls full 2 read.2).1 = [some [9], none] := by
  intro ps cut full read
  have hread := torn_file_read [102] SortedMap.empty cut full ps 26 rfl (by decide) (by decide)
    (by decide) 3 2
  have hwhole : whole ps 26 = [[7, 8], []] := by decide
  rw [hwhole] at hread
  exact ⟨Prod.ext hread.1 hread.2.1, hread.2.2.1⟩

end PhxSql.Store
