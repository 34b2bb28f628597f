import PhxSql.Lib.Framing
import PhxSql.Lib.SortedMap
import PhxSql.Proto.Messages

/-!
# Files of records

`Storage` is a file of the data directory that is open for reading or for writing. The directory is
a finite map from names to contents, and an open file is its name and the offset. Opening a file
creates it if it does not exist, also when it is opened for reading.

Without input and output errors `WriteData` always succeeds; `ReadData` gives a record or
`DATA_EMPTY`, which is `none` here.
-/

set_option autoImplicit false

namespace PhxSql.Store

open PhxSql.Proto PhxSql.Lib

/-- The data directory. -/
abbrev Disk := SortedMap Bytes Bytes byteRank

/-- The content of a file, empty if there is no such file. -/
def content (d : Disk) (path : Bytes) : Bytes :=
  (d.find? path).getD []

/-- An open file; the empty path stands for no file. -/
structure Storage where
  path : Bytes := []
  offset : Nat := 0
  deriving DecidableEq, Repr

/-- `open` with `O_CREAT`. -/
def createFile (d : Disk) (path : Bytes) : Disk :=
  d.insertNew path []

/-- `Storage::ReOpen` of a file for reading. -/
def reOpenRead (d : Disk) (path : Bytes) : Disk × Storage :=
  (createFile d path, { path := path, offset := 0 })

/-- `Storage::SetFileReadPos`. -/
def setFileReadPos (d : Disk) (st : Storage) (path : Bytes) (offset : Nat) : Disk × Storage :=
  if st.path ≠ path then
    ((reOpenRead d path).1, { path := path, offset := offset })
  else
    (d, { st with offset := offset })

/-- `ftruncate`. -/
def truncateTo (bs : Bytes) (len : Nat) : Bytes :=
  (bs.take len).rightpad len 0

/-- `Storage::SetFileWritePos`. -/
def setFileWritePos (d : Disk) (st : Storage) (path : Bytes) (offset : Nat) (trunc : Bool) :
    Disk × Storage :=
  let d := if st.path ≠ path then createFile d path else d
  let d := if trunc then d.insert path (truncateTo (content d path) offset) else d
  (d, { path := path, offset := offset })

/-- `write` at an offset. -/
def writeAt (bs : Bytes) (offset : Nat) (data : Bytes) : Bytes :=
  (bs.take offset).rightpad offset 0 ++ data ++ bs.drop (offset + data.length)

/-- `Storage::WriteData`. -/
def writeData (d : Disk) (st : Storage) (data : Bytes) : Disk × Storage :=
  (d.insert st.path (writeAt (content d st.path) st.offset (frame data)),
    { st with offset := st.offset + (frame data).length })

/-- The largest record length `Storage::ReadData` takes for valid. -/
def maxRecordLen : Nat := 10000000000

/-- `Storage::ReadData`. -/
def readData (d : Disk) (st : Storage) : Option Bytes × Storage :=
  match readFrame maxRecordLen ((content d st.path).drop st.offset) with
  | some data => (some data, { st with offset := st.offset + (8 + data.length) })
  | none => (none, st)

/-! ## Contents -/

@[simp] theorem content_insert_self (d : Disk) (path bs : Bytes) :
    content (d.insert path bs) path = bs := by
  simp [content]

theorem content_insert_of_ne {d : Disk} {path path' : Bytes} (bs : Bytes) (h : path' ≠ path) :
    content (d.insert path bs) path' = content d path' := by
  rw [content, SortedMap.find?_insert_of_ne (by simpa using h), content]

theorem contains_iff_find? {d : Disk} {path : Bytes} :
    d.contains path = true ↔ ∃ bs, d.find? path = some bs := by
  simp only [SortedMap.contains_iff, SortedMap.find?_eq_some_iff]
  constructor
  · rintro ⟨⟨p, bs⟩, hmem, hrank⟩
    exact ⟨bs, p, hmem, hrank⟩
  · rintro ⟨bs, p, hmem, hrank⟩
    exact ⟨(p, bs), hmem, hrank⟩

theorem createFile_of_find? {d : Disk} {path bs : Bytes} (h : d.find? path = some bs) :
    createFile d path = d := by
  rw [createFile, SortedMap.insertNew, if_pos (contains_iff_find?.mpr ⟨bs, h⟩)]

theorem find?_createFile_of_ne {d : Disk} {path path' : Bytes} (h : path' ≠ path) :
    (createFile d path).find? path' = d.find? path' := by
  unfold createFile SortedMap.insertNew
  split
  · rfl
  · exact SortedMap.find?_insert_of_ne (by simpa using h)

/-- Creating a file that exists changes nothing; a new file is empty. -/
theorem find?_createFile_self (d : Disk) (path : Bytes) :
    (createFile d path).find? path = some (content d path) := by
  unfold createFile SortedMap.insertNew
  split
  · rename_i h
    obtain ⟨bs, hbs⟩ := contains_iff_find?.mp h
    rw [content, hbs, Option.getD_some]
  · rename_i h
    have hnone : d.find? path = none := by
      rw [Option.eq_none_iff_forall_ne_some]
      exact fun bs hbs => h (contains_iff_find?.mpr ⟨bs, hbs⟩)
    simp [content, hnone]

@[simp] theorem content_createFile (d : Disk) (path path' : Bytes) :
    content (createFile d path) path' = content d path' := by
  rcases eq_or_ne path' path with rfl | hne
  · rw [content, find?_createFile_self, Option.getD_some]
  · rw [content, find?_createFile_of_ne hne, content]

/-! ## Reading and writing records -/

/-- Writing at the end appends. -/
theorem writeAt_length (bs data : Bytes) : writeAt bs bs.length data = bs ++ data := by
  simp [writeAt, List.rightpad]

/-- Writing a part of a byte string at its place brings no bytes but those of the string. -/
theorem writeAt_take {before part after : Bytes} {stored : Nat} (h : before.length ≤ stored)
    (n : Nat) :
    writeAt ((before ++ (part ++ after)).take stored) before.length (part.take n) =
      (before ++ (part ++ after)).take (max stored (before.length + min n part.length)) := by
  have hhead : ((before ++ (part ++ after)).take stored).take before.length = before := by
    rw [List.take_take, Nat.min_eq_left h, List.take_left]
  have hpart : before ++ part.take n =
      (before ++ (part ++ after)).take (before.length + min n part.length) := by
    rw [List.take_append, List.take_of_length_le (Nat.le_add_right ..), Nat.add_sub_cancel_left,
      List.take_append_of_le_length (Nat.min_le_right ..), List.take_eq_take_min]
  have hpad : before.rightpad before.length 0 = before := by simp [List.rightpad]
  rw [writeAt, hhead, hpad, hpart, List.length_take]
  generalize before ++ (part ++ after) = all
  generalize before.length + min n part.length = m
  rcases Nat.le_total m stored with hm | hm
  · -- Bytes behind the part stay.
    rw [Nat.max_eq_left hm, show all.take m = (all.take stored).take m by
      rw [List.take_take, Nat.min_eq_left hm], List.take_append_drop]
  · rw [Nat.max_eq_right hm, List.drop_eq_nil_of_le (by rw [List.length_take]; omega),
      List.append_nil]

theorem content_writeData (d : Disk) (st : Storage) (data : Bytes)
    (h : st.offset = (content d st.path).length) :
    content (writeData d st data).1 st.path = content d st.path ++ frame data := by
  rw [writeData, content_insert_self, h, writeAt_length]

/-- A record between others is read at its offset. -/
theorem readData_of_content {d : Disk} (st : Storage) {before data rest : Bytes}
    (hc : content d st.path = before ++ (frame data ++ rest)) (ho : st.offset = before.length)
    (hlen : data.length ≤ maxRecordLen) :
    readData d st = (some data, { st with offset := st.offset + (8 + data.length) }) := by
  have hdrop : (content d st.path).drop st.offset = frame data ++ rest := by
    rw [hc, ho, List.drop_left]
  simp only [readData, hdrop, readFrame_frame hlen (by decide)]

/-- At the end of a file there is nothing to read. -/
theorem readData_at_end {d : Disk} {st : Storage} (ho : st.offset = (content d st.path).length) :
    readData d st = (none, st) := by
  simp [readData, ho]

end PhxSql.Store
