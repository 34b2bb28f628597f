import PhxSql.Proto.Wire
import PhxSql.Store.Recovery

/-!
# The search for the newest checkpoint

At start-up `GetNewestCheckPoint` goes through the event files from the newest one back, looking for
a file that begins with a header. It reads with `ReadData`, which at a file without a readable
record goes on to the next newer file, so that `GetPreReadFile` comes back to the file where the
read began. The search goes on only where that file is the newest one.

`searchBack` is the search as a recursion over the files; `getNewestCheckPointLoop_eq` says that the
loop computes it, and never ends where it has no value. `newest_found_iff` gives the directories
for which the search ends with the right result.
-/

set_option autoImplicit false

namespace PhxSql.Store

open PhxSql.Proto PhxSql.Lib

/-! ## First records -/

/-- What a file begins with: nothing that `ReadData` takes for a record, a header, a header whose
`master_data` does not parse, or another record, which also may not parse. -/
inductive FirstRecord
  | unreadable
  | other
  | badHeader
  | header (data : EventData) (master : MasterInfo)
  deriving DecidableEq

variable (cx : Codecs)

/-- The first record of a file with the given content. -/
def firstRecord (bs : Bytes) : FirstRecord :=
  match readFrame maxRecordLen bs with
  | none => .unreadable
  | some bytes =>
    match cx.eventData.parse bytes with
    | none => .other
    | some data =>
      if data.gtid = [] ∧ data.masterData ≠ [] then
        match cx.masterInfo.parse data.masterData with
        | none => .badHeader
        | some master => .header data master
      else .other

/-- The search ends at this record. -/
def FirstRecord.stops : FirstRecord → Bool
  | .unreadable | .other => false
  | .badHeader | .header _ _ => true

/-! ## The function -/

/-- `CheckPointManager::GetNewestCheckPoint` without a marker file, in at most the given number of
rounds. The call is given with the messages that the caller passes and the directory; `running` says
that another operation on checkpoints has not ended. -/
def newestCheckPoint (rounds : Nat) (running : Bool) (call : CheckPoint) : Option CheckPoint :=
  if running then some { call with ret := .svrFail }
  else
    let opened := openNewestFile call.disk (newManager call.disk true)
    if opened.1 = .ok then getNewestCheckPointLoop cx rounds opened.2.1 opened.2.2
    -- `NO_FILES`: the messages are not cleared.
    else some { call with ret := .dataEmpty }

/-- The start-up makes the call with empty messages. -/
theorem getNewestCheckPoint_eq (d : Disk) :
    getNewestCheckPoint cx d =
      newestCheckPoint cx ((getAllFiles d).keys.length + 1) false { disk := d } := by
  simp only [getNewestCheckPoint, newestCheckPoint, newManager, openNewestFile, if_true,
    Bool.false_eq_true, if_false]
  cases (getAllFiles d).keys.getLast? <;> rfl

/-- The result at a header. -/
def foundAt (d : Disk) (f : Bytes) (data : EventData) (master : MasterInfo) : CheckPoint :=
  { ret := .ok, data := data, master := master, info := dataInfo { path := f } data, disk := d }

/-- The search from a file back, over the file and the older ones; none where it does not end. -/
def searchBack (d : Disk) : Bool → List Bytes → Option CheckPoint
  | _, [] => some { disk := d }
  | newest, f :: back =>
    match firstRecord cx (content d f) with
    | .header data master => some (foundAt d f data master)
    | .badHeader => some { disk := d }
    | .other => searchBack d false back
    | .unreadable => if newest then searchBack d false back else none

/-! ## One read -/

/-- The file at which a read that begins at the start of a file ends. -/
def readEnd (d : Disk) : Bytes → List Bytes → Bytes
  | f, [] => f
  | f, g :: newer =>
    if (readFrame maxRecordLen (content d f)).isSome then f else readEnd d g newer

variable {cx} {d : Disk}

theorem reOpenRead_of_find? {f bs : Bytes} (h : d.find? f = some bs) :
    reOpenRead d f = (d, { path := f }) := by
  rw [reOpenRead, createFile_of_find? h]

theorem readData_start (f : Bytes) :
    (readData d { path := f }).1 = readFrame maxRecordLen (content d f) ∧
      (readData d { path := f }).2.path = f := by
  rw [readData, List.drop_zero]
  split
  · rename_i data hdata
    exact ⟨hdata.symm, rfl⟩
  · rename_i hnone
    exact ⟨hnone.symm, rfl⟩

theorem readNext_start (newer : List Bytes) : ∀ (f : Bytes),
    (∀ g ∈ newer, ∃ bs, d.find? g = some bs) →
    ∃ reader : Storage, reader.path = readEnd d f newer ∧
      readNext d { path := f } newer =
        { data := readFrame maxRecordLen (content d (readEnd d f newer))
          pos := { path := readEnd d f newer }
          disk := d
          reader := reader } := by
  induction newer with
  | nil =>
    intro f _
    obtain ⟨hdata, hpath⟩ := readData_start (d := d) f
    exact ⟨_, hpath, by rw [readNext, hdata]; rfl⟩
  | cons g newer ih =>
    intro f hfiles
    obtain ⟨hdata, hpath⟩ := readData_start (d := d) f
    obtain ⟨bs, hbs⟩ := hfiles g List.mem_cons_self
    rw [readNext, readEnd]
    generalize readData d { path := f } = read at hdata hpath
    obtain ⟨data, st⟩ := read
    cases data with
    | some data =>
      rw [← hdata]
      exact ⟨st, hpath, by simp [← hdata]⟩
    | none =>
      rw [← hdata, reOpenRead_of_find? hbs]
      exact ih g fun g' hg' => hfiles g' (List.mem_cons_of_mem _ hg')

theorem mem_keys_of_fileBefore {fs : FileSet} {f g : Bytes} (h : fileBefore fs f = some g) :
    g ∈ fs.keys := by
  unfold fileBefore at h
  split at h
  · exact (List.mem_filter.mp (List.mem_of_getLast? h)).1
  · cases h

/-- The part of a round after the read: the search goes on at the file before the one where the read
has ended. -/
def goBack (cx : Codecs) (rounds : Nat) (d : Disk) (m : StorageFileManager) (g : Bytes) :
    Option CheckPoint :=
  match fileBefore m.fileList g with
  | none => some { disk := d }
  | some p => getNewestCheckPointLoop cx rounds d { m with reader := { path := p } }

/-- One round from the start of a file. -/
theorem getNewestCheckPointLoop_succ {m : StorageFileManager} {older newer : List Bytes} {f : Bytes}
    (hfiles : ∀ g ∈ m.fileList.keys, ∃ bs, d.find? g = some bs)
    (hkeys : m.fileList.keys = older ++ f :: newer) (rounds : Nat) :
    getNewestCheckPointLoop cx (rounds + 1) d { m with reader := { path := f } } =
      match firstRecord cx (content d (readEnd d f newer)) with
      | .header data master => some (foundAt d (readEnd d f newer) data master)
      | .badHeader => some { disk := d }
      | .other | .unreadable => goBack cx rounds d m (readEnd d f newer) := by
  obtain ⟨reader, hreader, hread⟩ := readNext_start (d := d) newer f
    fun g hg => hfiles g (by rw [hkeys]; simp [hg])
  have hback : ∀ reader : Storage, reader.path = readEnd d f newer →
      (let opened := getPreReadFile d { m with reader := reader }
        if opened.1 = .ok then getNewestCheckPointLoop cx rounds opened.2.1 opened.2.2
        else some { disk := opened.2.1 }) = goBack cx rounds d m (readEnd d f newer) := by
    intro reader hreader
    simp only [getPreReadFile, goBack, hreader]
    cases hbefore : fileBefore m.fileList (readEnd d f newer) with
    | none => rfl
    | some p =>
      obtain ⟨bs, hbs⟩ := hfiles p (mem_keys_of_fileBefore hbefore)
      simp only [reOpenRead_of_find? hbs, if_true]
  have hback := hback reader hreader
  generalize readEnd d f newer = g at *
  simp only [getNewestCheckPointLoop, readEvent, filesAfter_of_keys hkeys, hread, parseRead,
    firstRecord]
  cases hframe : readFrame maxRecordLen (content d g) with
  | none => simpa using hback
  | some bytes =>
    cases hparse : cx.eventData.parse bytes with
    | none => simpa [hparse] using hback
    | some data =>
      simp only [hparse, true_and]
      by_cases hheader : data.gtid = [] ∧ data.masterData ≠ []
      · simp only [if_pos hheader]
        cases cx.masterInfo.parse data.masterData <;> rfl
      · simp only [if_neg hheader]
        exact hback

/-! ## The loop -/

theorem firstRecord_eq_unreadable_iff {bs : Bytes} :
    firstRecord cx bs = .unreadable ↔ readFrame maxRecordLen bs = none := by
  unfold firstRecord
  constructor
  · intro h
    split at h
    · assumption
    · split at h
      · cases h
      · split at h
        · split at h <;> cases h
        · cases h
  · intro h
    rw [h]

theorem readEnd_of_readable {f : Bytes} (h : firstRecord cx (content d f) ≠ .unreadable)
    (newer : List Bytes) : readEnd d f newer = f := by
  rw [Ne, firstRecord_eq_unreadable_iff] at h
  cases newer with
  | nil => rfl
  | cons g newer => exact if_pos (Option.isSome_iff_ne_none.mpr h)

theorem readEnd_of_unreadable {f : Bytes} (h : firstRecord cx (content d f) = .unreadable)
    (g : Bytes) (newer : List Bytes) : readEnd d f (g :: newer) = readEnd d g newer := by
  rw [firstRecord_eq_unreadable_iff] at h
  rw [readEnd, h]
  rfl

variable (cx d) in
/-- The files newer than the one where the search stands: it has passed the nearest of them, and a
read that begins there also ends there. -/
def Passed : List Bytes → Prop
  | [] => True
  | g :: newer => readEnd d g newer = g ∧ (firstRecord cx (content d g)).stops = false

section Loop

variable {m : StorageFileManager} (hfiles : ∀ g ∈ m.fileList.keys, ∃ bs, d.find? g = some bs)

include hfiles

/-- The search does not get past a file without a readable record: the read goes on to the next
newer file, and the search comes back. -/
theorem getNewestCheckPointLoop_stuck {older newer : List Bytes} {f g : Bytes}
    (hkeys : m.fileList.keys = older ++ f :: g :: newer) (hpassed : Passed cx d (g :: newer))
    (hunreadable : firstRecord cx (content d f) = .unreadable) (rounds : Nat) :
    getNewestCheckPointLoop cx rounds d { m with reader := { path := f } } = none := by
  have hend : readEnd d f (g :: newer) = g :=
    (readEnd_of_unreadable hunreadable g newer).trans hpassed.1
  have hbefore : fileBefore m.fileList g = some f := by
    rw [@fileBefore_of_keys _ (older ++ [f]) newer g (by simp [hkeys]), List.getLast?_concat]
  have hback : ∀ rounds, goBack cx rounds d m g =
      getNewestCheckPointLoop cx rounds d { m with reader := { path := f } } := by
    intro rounds
    rw [goBack, hbefore]
  have hstops := hpassed.2
  induction rounds with
  | zero => rfl
  | succ rounds ih =>
    rw [getNewestCheckPointLoop_succ hfiles hkeys, hend]
    cases hfirst : firstRecord cx (content d g) with
    | unreadable => exact (hback rounds).trans ih
    | other => exact (hback rounds).trans ih
    | badHeader => simp [hfirst, FirstRecord.stops] at hstops
    | header data master => simp [hfirst, FirstRecord.stops] at hstops

/-- A round at a file, if the search over the older files is right. -/
theorem getNewestCheckPointLoop_round {back newer : List Bytes} {f : Bytes}
    (hkeys : m.fileList.keys = back.reverse ++ f :: newer) (hpassed : Passed cx d newer)
    {rounds : Nat}
    (hback : Passed cx d (f :: newer) → goBack cx rounds d m f = searchBack cx d false back) :
    getNewestCheckPointLoop cx (rounds + 1) d { m with reader := { path := f } } =
      searchBack cx d newer.isEmpty (f :: back) := by
  -- The read ends where it began, unless there is nothing to read and a newer file.
  by_cases hend : readEnd d f newer = f
  · rw [getNewestCheckPointLoop_succ hfiles hkeys, hend, searchBack]
    cases hfirst : firstRecord cx (content d f) with
    | header data master => rfl
    | badHeader => rfl
    | other => exact hback ⟨hend, by rw [hfirst]; rfl⟩
    | unreadable =>
      cases newer with
      | nil => exact hback ⟨hend, by rw [hfirst]; rfl⟩
      | cons g newer =>
        have hsame := (readEnd_of_unreadable hfirst g newer).symm.trans hend
        have hranks := (fileRank_of_keys hkeys).2 g List.mem_cons_self
        rw [hpassed.1] at hsame
        rw [hsame] at hranks
        exact absurd hranks (Nat.lt_irrefl _)
  · have hfirst : firstRecord cx (content d f) = .unreadable := by
      by_contra hreadable
      exact hend (readEnd_of_readable hreadable newer)
    cases newer with
    | nil => exact absurd rfl hend
    | cons g newer =>
      rw [getNewestCheckPointLoop_stuck hfiles hkeys hpassed hfirst, searchBack, hfirst]
      rfl

/-- With a round for every file the loop computes `searchBack`. -/
theorem getNewestCheckPointLoop_eq (back : List Bytes) : ∀ (f : Bytes) (newer : List Bytes),
    m.fileList.keys = back.reverse ++ f :: newer → Passed cx d newer →
    ∀ rounds, back.length ≤ rounds →
      getNewestCheckPointLoop cx (rounds + 1) d { m with reader := { path := f } } =
        searchBack cx d newer.isEmpty (f :: back) := by
  induction back with
  | nil =>
    intro f newer hkeys hpassed rounds _
    refine getNewestCheckPointLoop_round hfiles hkeys hpassed fun _ => ?_
    rw [goBack, fileBefore_of_keys hkeys]
    rfl
  | cons p back ih =>
    intro f newer hkeys hpassed rounds hrounds
    refine getNewestCheckPointLoop_round hfiles hkeys hpassed fun hpassed' => ?_
    obtain ⟨rounds, rfl⟩ : ∃ r, rounds = r + 1 := ⟨rounds - 1, by simp at hrounds; omega⟩
    rw [goBack, fileBefore_of_keys hkeys, List.getLast?_reverse, List.head?_cons]
    rw [List.reverse_cons, List.append_assoc] at hkeys
    exact ih p (f :: newer) hkeys hpassed' rounds (by simpa using hrounds)

end Loop

/-- More rounds do not change the result. -/
theorem getNewestCheckPointLoop_mono {rounds rounds' : Nat} (hle : rounds ≤ rounds') :
    ∀ {d : Disk} {m : StorageFileManager} {c : CheckPoint},
      getNewestCheckPointLoop cx rounds d m = some c →
      getNewestCheckPointLoop cx rounds' d m = some c := by
  induction rounds generalizing rounds' with
  | zero => exact fun h => nomatch h
  | succ rounds ih =>
    obtain ⟨rounds', rfl⟩ : ∃ r, rounds' = r + 1 := ⟨rounds' - 1, by omega⟩
    intro d m c h
    simp only [getNewestCheckPointLoop] at h ⊢
    split
    · rename_i hheader
      rw [if_pos hheader] at h
      exact h
    · rename_i hheader
      rw [if_neg hheader] at h
      split
      · rename_i hopened
        rw [if_pos hopened] at h
        exact ih (by omega) h
      · rename_i hopened
        rw [if_neg hopened] at h
        exact h

variable (cx) in
/-- The whole call: with enough rounds it gives what `searchBack` gives, and with no number of
rounds anything else. -/
theorem newestCheckPoint_eq (call : CheckPoint) (hsome : (getAllFiles call.disk).keys ≠ []) :
    (∀ rounds, (getAllFiles call.disk).keys.length ≤ rounds →
      newestCheckPoint cx rounds false call =
        searchBack cx call.disk true (getAllFiles call.disk).keys.reverse) ∧
    ∀ rounds c, newestCheckPoint cx rounds false call = some c →
      searchBack cx call.disk true (getAllFiles call.disk).keys.reverse = some c := by
  obtain ⟨older, f, hkeys⟩ : ∃ older f, (getAllFiles call.disk).keys = older ++ [f] :=
    ⟨_, _, (List.dropLast_append_getLast hsome).symm⟩
  have hfiles : ∀ g ∈ (getAllFiles call.disk).keys, ∃ bs, call.disk.find? g = some bs :=
    fun g hg => contains_of_mem_getAllFiles hg
  obtain ⟨bs, hbs⟩ := hfiles f (by simp [hkeys])
  -- The call opens the newest file, and the loop begins there.
  have hcall : ∀ rounds, newestCheckPoint cx rounds false call =
      getNewestCheckPointLoop cx rounds call.disk
        { newManager call.disk true with reader := { path := f } } := by
    intro rounds
    simp only [newestCheckPoint, openNewestFile, newManager, if_true, hkeys, List.getLast?_concat,
      reOpenRead_of_find? hbs, Bool.false_eq_true, if_false]
  have hsearch : ∀ rounds, (getAllFiles call.disk).keys.length ≤ rounds →
      newestCheckPoint cx rounds false call =
        searchBack cx call.disk true (getAllFiles call.disk).keys.reverse := by
    intro rounds hrounds
    rw [hkeys, List.length_append, List.length_singleton] at hrounds
    obtain ⟨rounds, rfl⟩ : ∃ r, rounds = r + 1 := ⟨rounds - 1, by omega⟩
    rw [hcall, hkeys, List.reverse_append]
    exact @getNewestCheckPointLoop_eq cx call.disk (newManager call.disk true) hfiles older.reverse f
      [] (by rw [List.reverse_reverse]; exact hkeys) trivial rounds (by simp; omega)
  refine ⟨hsearch, ?_⟩
  intro rounds c hc
  rw [← hsearch (max rounds (getAllFiles call.disk).keys.length) (Nat.le_max_right _ _), hcall]
  rw [hcall] at hc
  exact getNewestCheckPointLoop_mono (Nat.le_max_left _ _) hc

/-! ## The right result -/

variable (cx d) in
/-- The right result for these files. If a file begins with a header, and no newer file with a
header or with one whose `master_data` does not parse, it is the header of this file; and if behind
every file with a header there is one of the second kind, or there is no header, it is `DATA_EMPTY`
with empty messages. -/
structure RightResult (files : List Bytes) (c : CheckPoint) : Prop where
  found : ∀ f ∈ files, ∀ data master, firstRecord cx (content d f) = .header data master →
    (∀ g ∈ files, fileRank f < fileRank g → (firstRecord cx (content d g)).stops = false) →
    c = foundAt d f data master
  empty : (∀ f ∈ files, ∀ data master, firstRecord cx (content d f) = .header data master →
      ∃ g ∈ files, fileRank f < fileRank g ∧ firstRecord cx (content d g) = .badHeader) →
    c = { disk := d }

variable (cx d) in
/-- A file without a readable record keeps the search from ending: there is a newer file, or the
file need not be the newest one, and the search does not end before it. -/
def Blocked (newest : Bool) (files : List Bytes) : Prop :=
  ∃ f ∈ files, firstRecord cx (content d f) = .unreadable ∧
    (newest = true → ∃ g ∈ files, fileRank f < fileRank g) ∧
    ∀ g ∈ files, fileRank f < fileRank g → (firstRecord cx (content d g)).stops = false

theorem rightResult_nil_iff {c : CheckPoint} : RightResult cx d [] c ↔ c = { disk := d } := by
  constructor
  · intro h
    exact h.empty fun f hf => (List.not_mem_nil hf).elim
  · rintro rfl
    exact ⟨fun f hf => (List.not_mem_nil hf).elim, fun _ => rfl⟩

section Cons

variable {f : Bytes} {back : List Bytes} {c : CheckPoint}

/-- A file at which the search does not end leaves the right result to the older files. -/
theorem rightResult_cons_iff (hstops : (firstRecord cx (content d f)).stops = false) :
    RightResult cx d (f :: back) c ↔ RightResult cx d back c := by
  constructor
  · intro h
    constructor
    · intro f' hf' data master hheader hnewer
      refine h.found f' (List.mem_cons_of_mem _ hf') data master hheader fun g hg hlt => ?_
      rcases List.mem_cons.mp hg with rfl | hg
      · exact hstops
      · exact hnewer g hg hlt
    · intro hbad
      refine h.empty fun f' hf' data master hheader => ?_
      rcases List.mem_cons.mp hf' with rfl | hf'
      · rw [hheader] at hstops
        cases hstops
      · obtain ⟨g, hg, hlt, hfirst⟩ := hbad f' hf' data master hheader
        exact ⟨g, List.mem_cons_of_mem _ hg, hlt, hfirst⟩
  · intro h
    constructor
    · intro f' hf' data master hheader hnewer
      rcases List.mem_cons.mp hf' with rfl | hf'
      · rw [hheader] at hstops
        cases hstops
      · exact h.found f' hf' data master hheader fun g hg => hnewer g (List.mem_cons_of_mem _ hg)
    · intro hbad
      refine h.empty fun f' hf' data master hheader => ?_
      obtain ⟨g, hg, hlt, hfirst⟩ := hbad f' (List.mem_cons_of_mem _ hf') data master hheader
      rcases List.mem_cons.mp hg with rfl | hg
      · rw [hfirst] at hstops
        cases hstops
      · exact ⟨g, hg, hlt, hfirst⟩

variable (hnewest : ∀ g ∈ back, fileRank g < fileRank f)

include hnewest

theorem not_newer_of_mem {g : Bytes} (hg : g ∈ f :: back) : ¬fileRank f < fileRank g := by
  rcases List.mem_cons.mp hg with rfl | hg
  · exact Nat.lt_irrefl _
  · exact Nat.not_lt.mpr (hnewest g hg).le

theorem rightResult_header_iff {data : EventData} {master : MasterInfo}
    (hfirst : firstRecord cx (content d f) = .header data master) :
    RightResult cx d (f :: back) c ↔ c = foundAt d f data master := by
  constructor
  · intro h
    refine h.found f List.mem_cons_self data master hfirst fun g hg hlt => ?_
    exact absurd hlt (not_newer_of_mem hnewest hg)
  · rintro rfl
    constructor
    · intro f' hf' data' master' hheader hnewer
      rcases List.mem_cons.mp hf' with rfl | hf'
      · rw [hfirst] at hheader
        cases hheader
        rfl
      · have hstops := hnewer f List.mem_cons_self (hnewest f' hf')
        rw [hfirst] at hstops
        cases hstops
    · intro hbad
      obtain ⟨g, hg, hlt, -⟩ := hbad f List.mem_cons_self data master hfirst
      exact absurd hlt (not_newer_of_mem hnewest hg)

theorem rightResult_badHeader_iff (hfirst : firstRecord cx (content d f) = .badHeader) :
    RightResult cx d (f :: back) c ↔ c = { disk := d } := by
  constructor
  · intro h
    refine h.empty fun f' hf' data master hheader => ?_
    rcases List.mem_cons.mp hf' with rfl | hf'
    · rw [hfirst] at hheader
      cases hheader
    · exact ⟨f, List.mem_cons_self, hnewest f' hf', hfirst⟩
  · rintro rfl
    constructor
    · intro f' hf' data master hheader hnewer
      rcases List.mem_cons.mp hf' with rfl | hf'
      · rw [hfirst] at hheader
        cases hheader
      · have hstops := hnewer f List.mem_cons_self (hnewest f' hf')
        rw [hfirst] at hstops
        cases hstops
    · exact fun _ => rfl

/-- A file at which the search ends keeps no older file from being passed. -/
theorem not_blocked_of_stops (newest : Bool)
    (hstops : (firstRecord cx (content d f)).stops = true) : ¬Blocked cx d newest (f :: back) := by
  rintro ⟨f', hf', hunreadable, -, hnewer⟩
  rcases List.mem_cons.mp hf' with rfl | hf'
  · rw [hunreadable] at hstops
    cases hstops
  · rw [hnewer f List.mem_cons_self (hnewest f' hf')] at hstops
    cases hstops

theorem blocked_cons_iff {newest : Bool} (hstops : (firstRecord cx (content d f)).stops = false)
    (hpass : firstRecord cx (content d f) = .unreadable → newest = true) :
    Blocked cx d newest (f :: back) ↔ Blocked cx d false back := by
  constructor
  · rintro ⟨f', hf', hunreadable, hnewer, hpassed⟩
    rcases List.mem_cons.mp hf' with rfl | hf'
    · obtain ⟨g, hg, hlt⟩ := hnewer (hpass hunreadable)
      exact absurd hlt (not_newer_of_mem hnewest hg)
    · exact ⟨f', hf', hunreadable, nofun, fun g hg => hpassed g (List.mem_cons_of_mem _ hg)⟩
  · rintro ⟨f', hf', hunreadable, -, hpassed⟩
    refine ⟨f', List.mem_cons_of_mem _ hf', hunreadable,
      fun _ => ⟨f, List.mem_cons_self, hnewest f' hf'⟩, fun g hg hlt => ?_⟩
    rcases List.mem_cons.mp hg with rfl | hg
    · exact hstops
    · exact hpassed g hg hlt

end Cons

/-- Over files from the newest one back, `searchBack` has no value where a file keeps it from
ending, and otherwise the one right result. -/
theorem searchBack_spec (files : List Bytes) : ∀ (newest : Bool),
    files.Pairwise (fun f g => fileRank g < fileRank f) →
    (searchBack cx d newest files = none ↔ Blocked cx d newest files) ∧
      ∀ c, searchBack cx d newest files = some c → ∀ c', RightResult cx d files c' ↔ c' = c := by
  induction files with
  | nil =>
    intro newest _
    refine ⟨iff_of_false (nomatch ·) ?_, ?_⟩
    · rintro ⟨f, hf, -⟩
      exact (List.not_mem_nil hf).elim
    rintro c hc c'
    cases hc
    exact rightResult_nil_iff
  | cons f back ih =>
    intro newest hsorted
    obtain ⟨hnewest, hsorted⟩ := List.pairwise_cons.mp hsorted
    obtain ⟨ihnone, ihsome⟩ := ih false hsorted
    rw [searchBack]
    cases hfirst : firstRecord cx (content d f) with
    | header data master =>
      have hstops : (firstRecord cx (content d f)).stops = true := by rw [hfirst]; rfl
      refine ⟨iff_of_false (nomatch ·) (not_blocked_of_stops hnewest newest hstops), ?_⟩
      rintro c hc c'
      cases hc
      exact rightResult_header_iff hnewest hfirst
    | badHeader =>
      have hstops : (firstRecord cx (content d f)).stops = true := by rw [hfirst]; rfl
      refine ⟨iff_of_false (nomatch ·) (not_blocked_of_stops hnewest newest hstops), ?_⟩
      rintro c hc c'
      cases hc
      exact rightResult_badHeader_iff hnewest hfirst
    | other =>
      have hstops : (firstRecord cx (content d f)).stops = false := by rw [hfirst]; rfl
      rw [blocked_cons_iff hnewest hstops (by simp [hfirst])]
      refine ⟨ihnone, fun c hc c' => ?_⟩
      rw [rightResult_cons_iff hstops]
      exact ihsome c hc c'
    | unreadable =>
      have hstops : (firstRecord cx (content d f)).stops = false := by rw [hfirst]; rfl
      cases newest with
      | true =>
        rw [blocked_cons_iff hnewest hstops fun _ => rfl]
        refine ⟨ihnone, fun c hc c' => ?_⟩
        rw [rightResult_cons_iff hstops]
        exact ihsome c hc c'
      | false =>
        refine ⟨iff_of_true rfl ⟨f, List.mem_cons_self, hfirst, nofun, fun g hg hlt => ?_⟩,
          fun c hc => nomatch hc⟩
        exact absurd hlt (not_newer_of_mem hnewest hg)

/-- The codes of a right result. -/
theorem RightResult.ret_eq {files : List Bytes} {c : CheckPoint}
    (hsorted : files.Pairwise fun f g => fileRank g < fileRank f) (h : RightResult cx d files c) :
    c.ret = .ok ∨ c.ret = .dataEmpty := by
  induction files with
  | nil =>
    rw [rightResult_nil_iff.mp h]
    exact .inr rfl
  | cons f back ih =>
    obtain ⟨hnewest, hsorted⟩ := List.pairwise_cons.mp hsorted
    cases hfirst : firstRecord cx (content d f) with
    | header data master =>
      rw [(rightResult_header_iff hnewest hfirst).mp h]
      exact .inl rfl
    | badHeader =>
      rw [(rightResult_badHeader_iff hnewest hfirst).mp h]
      exact .inr rfl
    | other => exact ih hsorted ((rightResult_cons_iff (by rw [hfirst]; rfl)).mp h)
    | unreadable => exact ih hsorted ((rightResult_cons_iff (by rw [hfirst]; rfl)).mp h)

variable (cx) in
/-- `GetNewestCheckPoint` ends, with the right result for the event files of the directory. -/
def FindsNewest (running : Bool) (call : CheckPoint) : Prop :=
  ∃ rounds c, newestCheckPoint cx rounds running call = some c ∧
    RightResult cx call.disk (getAllFiles call.disk).keys c

theorem rightResult_reverse_iff {files : List Bytes} {c : CheckPoint} :
    RightResult cx d files.reverse c ↔ RightResult cx d files c := by
  constructor
  · intro h
    exact ⟨by simpa using h.found, by simpa using h.empty⟩
  · intro h
    exact ⟨by simpa using h.found, by simpa using h.empty⟩

theorem blocked_reverse_iff {files : List Bytes} :
    Blocked cx d true files.reverse ↔
      ∃ f ∈ files, firstRecord cx (content d f) = .unreadable ∧
        (∃ g ∈ files, fileRank f < fileRank g) ∧
        ∀ g ∈ files, fileRank f < fileRank g → (firstRecord cx (content d g)).stops = false := by
  simp only [Blocked, List.mem_reverse, forall_const]

/-- Without event files the messages stay as the caller passes them. -/
theorem findsNewest_of_noFiles {call : CheckPoint} (hnone : (getAllFiles call.disk).keys = []) :
    FindsNewest cx false call ↔ call.data = {} ∧ call.master = {} ∧ call.info = {} := by
  have hcall : ∀ rounds, newestCheckPoint cx rounds false call =
      some { call with ret := .dataEmpty } := by
    intro rounds
    simp only [newestCheckPoint, openNewestFile, newManager, if_true, hnone, List.getLast?_nil,
      Bool.false_eq_true, if_false, reduceCtorEq]
  have hright : RightResult cx call.disk [] { call with ret := .dataEmpty } ↔
      call.data = {} ∧ call.master = {} ∧ call.info = {} := by
    rw [rightResult_nil_iff, CheckPoint.mk.injEq]
    simp
  rw [FindsNewest, hnone]
  constructor
  · rintro ⟨rounds, c, hc, h⟩
    rw [hcall, Option.some.injEq] at hc
    rw [← hc, hright] at h
    exact h
  · intro hempty
    exact ⟨0, _, hcall 0, hright.mpr hempty⟩

/-- With event files the right result is found unless one of them keeps the search from ending. -/
theorem findsNewest_of_files {call : CheckPoint} (hsome : (getAllFiles call.disk).keys ≠ []) :
    FindsNewest cx false call ↔
      ¬Blocked cx call.disk true (getAllFiles call.disk).keys.reverse := by
  have hsorted := List.pairwise_reverse.mpr (pairwise_keys (getAllFiles call.disk))
  obtain ⟨henough, hresult⟩ := newestCheckPoint_eq cx call hsome
  obtain ⟨hnone, hright⟩ := @searchBack_spec cx call.disk _ true hsorted
  rw [← hnone]
  constructor
  · rintro ⟨rounds, c, hc, -⟩ hblocked
    rw [hresult rounds c hc] at hblocked
    cases hblocked
  · intro hends
    obtain ⟨c, hc⟩ := Option.ne_none_iff_exists'.mp hends
    refine ⟨_, c, (henough _ (Nat.le_refl _)).trans hc, ?_⟩
    exact rightResult_reverse_iff.mp ((hright c hc c).mpr rfl)

variable (cx) in
/-- `GetNewestCheckPoint` ends with the right result if and only if no other operation is running,
the messages are empty if there is no event file, and every event file without a readable record is
the newest one or older than a file with a header, also one whose `master_data` does not parse. -/
theorem newest_found_iff (running : Bool) (call : CheckPoint) :
    FindsNewest cx running call ↔
      running = false ∧
      ((getAllFiles call.disk).keys = [] →
        call.data = {} ∧ call.master = {} ∧ call.info = {}) ∧
      ∀ f ∈ (getAllFiles call.disk).keys, ∀ g ∈ (getAllFiles call.disk).keys,
        fileRank f < fileRank g → firstRecord cx (content call.disk f) = .unreadable →
        ∃ h ∈ (getAllFiles call.disk).keys, fileRank f < fileRank h ∧
          (firstRecord cx (content call.disk h)).stops = true := by
  cases running with
  | true =>
    refine iff_of_false ?_ (by simp)
    rintro ⟨rounds, c, hc, hright⟩
    cases hc
    have hsorted := List.pairwise_reverse.mpr (pairwise_keys (getAllFiles call.disk))
    rcases (rightResult_reverse_iff.mpr hright).ret_eq hsorted with hret | hret <;> cases hret
  | false =>
    by_cases hnone : (getAllFiles call.disk).keys = []
    · rw [findsNewest_of_noFiles hnone, hnone]
      simp
    · rw [findsNewest_of_files hnone, blocked_reverse_iff]
      constructor
      · intro hfree
        refine ⟨rfl, fun h => absurd h hnone, fun f hf g hg hlt hunreadable => ?_⟩
        by_contra hpassed
        refine hfree ⟨f, hf, hunreadable, ⟨g, hg, hlt⟩, fun h hh hlt' => ?_⟩
        rw [← Bool.not_eq_true]
        exact fun hstops => hpassed ⟨h, hh, hlt', hstops⟩
      · rintro ⟨-, -, hall⟩ ⟨f, hf, hunreadable, ⟨g, hg, hlt⟩, hpassed⟩
        obtain ⟨h, hh, hlt', hstops⟩ := hall f hf g hg hlt hunreadable
        rw [hpassed h hh hlt'] at hstops
        cases hstops

/-- A record with a header of the checkpoint at instance 1. -/
def headerRecord : Bytes :=
  let master : MasterInfo := { port := some 3306 }
  let data : EventData :=
    { instanceId := 1, masterData := (wireCodecs.masterInfo.serialize master).getD [] }
  frame ((wireCodecs.eventData.serialize data).getD [])

/-- A file with a header and two newer files without a byte. -/
def twoEmptyFiles : Disk :=
  ((SortedMap.empty.insert (genFileName 1) headerRecord).insert (genFileName 2) []).insert
    (genFileName 3) []

/-- The search does not end although there is a header, and without event files the messages of the
caller are not cleared. -/
theorem newest_search_hangs :
    ((firstRecord wireCodecs (content twoEmptyFiles (genFileName 1))).stops = true ∧
      getNewestCheckPoint wireCodecs twoEmptyFiles = none ∧
      ¬FindsNewest wireCodecs false { disk := twoEmptyFiles }) ∧
    ¬FindsNewest wireCodecs false { data := { instanceId := 1 }, disk := .empty } := by
  have hkeys : (getAllFiles twoEmptyFiles).keys = [genFileName 1, genFileName 2, genFileName 3] := by
    decide +kernel
  have hsome : (getAllFiles ({ disk := twoEmptyFiles } : CheckPoint).disk).keys ≠ [] := by
    rw [hkeys]
    simp
  have hblocked : Blocked wireCodecs twoEmptyFiles true (getAllFiles twoEmptyFiles).keys.reverse := by
    rw [blocked_reverse_iff, hkeys]
    refine ⟨genFileName 2, by simp, by decide +kernel,
      ⟨genFileName 3, by simp, by decide +kernel⟩, ?_⟩
    decide +kernel
  have hnever : ¬FindsNewest wireCodecs false { disk := twoEmptyFiles } := by
    rw [findsNewest_of_files hsome]
    exact not_not.mpr hblocked
  refine ⟨⟨by decide +kernel, ?_, hnever⟩, ?_⟩
  · have hsorted := List.pairwise_reverse.mpr (pairwise_keys (getAllFiles twoEmptyFiles))
    rw [getNewestCheckPoint_eq, (newestCheckPoint_eq wireCodecs _ hsome).1 _ (Nat.le_succ _)]
    exact (searchBack_spec _ true hsorted).1.mpr hblocked
  · rw [findsNewest_of_noFiles (by decide +kernel)]
    rintro ⟨hdata, -⟩
    cases hdata

end PhxSql.Store
