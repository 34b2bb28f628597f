import PhxSql.Gtid.GtidSet
import PhxSql.Lib.SortedMap

/-!
# The GTIDs all members have executed

`MonitorComm::ParseMaxGTIDList` reads the text of `gtid_executed` and keeps the last GTID of each
UUID; a UUID with several intervals is an error. `MasterMonitor::GetGlobalMySQLMaxGTIDList` asks
every member and gives, for each UUID that all of them have, the smallest of their last GTIDs.
-/

set_option autoImplicit false

namespace PhxSql.Monitor

open PhxSql.Proto PhxSql.Lib PhxSql.Gtid

/-! ## The text of one member -/

/-- The body of `MonitorComm::ParseMaxGTIDList` for one item: the digits at its end, unless there is
a second colon before them. -/
def parseMaxGTID (val : Bytes) : Option Bytes :=
  let uuid := val.takeWhile fun b => b ≠ colon
  let rest := val.drop uuid.length
  let digits := (rest.reverse.takeWhile isDigit).reverse
  let before := (rest.reverse.dropWhile isDigit).reverse
  -- `before` starts with the colon after the UUID. The number is computed in `size_t`.
  if before.tail.contains colon then none else some (genGTID uuid (digitsValue digits % 2 ^ 64))

/-- The end of an item, before the rest of the items. -/
def endItem (val : Bytes) (rest : RetCode × List Bytes) : RetCode × List Bytes :=
  if val.isEmpty then rest
  else
    match parseMaxGTID val with
    | none => (.gtidFail, [])
    | some gtid => (rest.1, gtid :: rest.2)

/-- The loop of `MonitorComm::ParseMaxGTIDList`; `val` is the item so far. -/
def parseMaxGTIDLoop : Bytes → Bytes → RetCode × List Bytes
  | [], val => endItem val (.ok, [])
  | c :: cs, val =>
    if c = 10 then parseMaxGTIDLoop cs val
    else if c = 44 then endItem val (parseMaxGTIDLoop cs [])
    else parseMaxGTIDLoop cs (val ++ [c])

/-- `MonitorComm::ParseMaxGTIDList`. -/
def parseMaxGTIDList (gtidStr : Bytes) : RetCode × List Bytes :=
  parseMaxGTIDLoop gtidStr []

/-- `MonitorComm::GetMySQLMaxGTIDList` on the answer of MySQL to the query for `gtid_executed`. -/
def getMySQLMaxGTIDList (answer : RetCode × Bytes) : RetCode × List Bytes :=
  if answer.1 ≠ .ok then (answer.1, []) else parseMaxGTIDList answer.2

/-! ## All members -/

abbrev GtidRes := SortedMap Bytes (List Nat) byteRank

/-- The body of the GTID loop of `MasterMonitor::GetGlobalMySQLMaxGTIDList`. -/
def addGTID (gtidRes : GtidRes) (gtid : Bytes) : GtidRes :=
  let parsed := parseGTID gtid
  gtidRes.insert parsed.1 ((gtidRes.find? parsed.1).getD [] ++ [parsed.2])

/-- The member loop of `MasterMonitor::GetGlobalMySQLMaxGTIDList`, which ends at the first member
without an answer. -/
def collectGTIDs : List (RetCode × Bytes) → GtidRes → RetCode × GtidRes
  | [], gtidRes => (.ok, gtidRes)
  | answer :: answers, gtidRes =>
    let got := getMySQLMaxGTIDList answer
    if got.1 ≠ .ok then (got.1, gtidRes) else collectGTIDs answers (got.2.foldl addGTID gtidRes)

/-- The smallest number of a list. -/
def minGTID (list : List Nat) : Nat :=
  list.foldl min (2 ^ 64 - 1)

/-- `MasterMonitor::GetGlobalMySQLMaxGTIDList` on the answers of the members. -/
def getGlobalMySQLMaxGTIDList (answers : List (RetCode × Bytes)) : RetCode × List Bytes :=
  let collected := collectGTIDs answers .empty
  if collected.1 ≠ .ok then (collected.1, [])
  else
    (.ok, collected.2.entries.filterMap fun e =>
      if e.2.length ≠ answers.length then none else some (genGTID e.1 (minGTID e.2)))

/-! ## Reading a set with one interval for each UUID -/

/-- A UUID and intervals as MySQL prints them, each interval after a colon. -/
def entryText (uuid : Bytes) (ivs : List (Nat × Nat)) : Bytes :=
  uuid ++ ivs.flatMap fun iv => colon :: intervalText iv

/-- What stands before the last number of an interval. -/
def intervalHead (iv : Nat × Nat) : Bytes :=
  if iv.1 = iv.2 then [] else decimal iv.1 ++ [45]

theorem intervalText_eq (iv : Nat × Nat) : intervalText iv = intervalHead iv ++ decimal iv.2 := by
  unfold intervalText intervalHead
  split
  · rename_i heq
    rw [heq, List.nil_append]
  · rw [List.append_assoc]
    rfl

theorem colon_not_mem_intervalHead (iv : Nat × Nat) : colon ∉ intervalHead iv := by
  unfold intervalHead
  split
  · exact List.not_mem_nil
  · simp only [List.mem_append, List.mem_singleton, not_or]
    exact ⟨not_mem_decimal rfl _, by decide⟩

/-- The byte before the last number is a colon or a dash. -/
theorem head?_reverse_intervalHead (as : Bytes) (iv : Nat × Nat) :
    ∀ b, (as ++ colon :: intervalHead iv).reverse.head? = some b → isDigit b = false := by
  intro b hb
  unfold intervalHead at hb
  split at hb
  · obtain rfl : colon = b := by simpa using hb
    rfl
  · obtain rfl : (45 : UInt8) = b := by simpa using hb
    rfl

/-- The digits at the end of a text whose other part does not end with a digit. -/
theorem reverse_takeWhile_isDigit {before digits : Bytes} (hdigits : ∀ b ∈ digits, isDigit b = true)
    (h : ∀ b, before.reverse.head? = some b → isDigit b = false) :
    (before ++ digits).reverse.takeWhile isDigit = digits.reverse ∧
      (before ++ digits).reverse.dropWhile isDigit = before.reverse := by
  have hall : ∀ b ∈ digits.reverse, isDigit b = true := fun b hb =>
    hdigits b (List.mem_reverse.mp hb)
  rw [List.reverse_append, List.takeWhile_append_of_pos hall, List.dropWhile_append_of_pos hall]
  cases hrev : before.reverse with
  | nil => simp
  | cons b bs =>
    have hb := h b (by rw [hrev]; rfl)
    rw [List.takeWhile_cons_of_neg (by simp [hb]), List.dropWhile_cons_of_neg (by simp [hb]),
      List.append_nil]
    exact ⟨rfl, rfl⟩

theorem takeWhile_entryText {uuid : Bytes} (huuid : colon ∉ uuid) (ivs : List (Nat × Nat)) :
    (entryText uuid ivs).takeWhile (fun b => decide (b ≠ colon)) = uuid := by
  have hall : ∀ b ∈ uuid, decide (b ≠ colon) = true := by
    intro b hb
    rw [decide_eq_true_eq]
    rintro rfl
    exact huuid hb
  rw [entryText, List.takeWhile_append_of_pos hall]
  cases ivs with
  | nil => simp
  | cons iv ivs =>
    rw [List.flatMap_cons, List.cons_append, List.takeWhile_cons_of_neg (by simp), List.append_nil]

/-- An item gives the last GTID of its last interval, unless there is an interval before it. -/
theorem parseMaxGTID_entryText {uuid : Bytes} (huuid : colon ∉ uuid) (init : List (Nat × Nat))
    {last : Nat × Nat} (hlast : last.2 < 2 ^ 64) :
    parseMaxGTID (entryText uuid (init ++ [last])) =
      if init = [] then some (genGTID uuid last.2) else none := by
  have htake := takeWhile_entryText huuid (init ++ [last])
  have hdrop : (entryText uuid (init ++ [last])).drop uuid.length =
      (init.flatMap (fun iv => colon :: intervalText iv) ++ colon :: intervalHead last) ++
        decimal last.2 := by
    simp [entryText, intervalText_eq last]
  obtain ⟨hdigits, hbefore⟩ := reverse_takeWhile_isDigit
    (fun _ hb => isDigit_of_mem_decimal (n := last.2) hb)
    (head?_reverse_intervalHead (init.flatMap fun iv => colon :: intervalText iv) last)
  simp only [parseMaxGTID, htake, hdrop, hdigits, hbefore, List.reverse_reverse,
    digitsValue_decimal, Nat.mod_eq_of_lt hlast]
  cases init with
  | nil =>
    have hcolon := colon_not_mem_intervalHead last
    simp [hcolon]
  | cons iv init =>
    -- The colon of the last interval stands behind that of the first one.
    simp

/-- An item with one interval gives its last GTID. -/
theorem parseMaxGTID_text {e : SidIntervals} {k : Nat} (hivs : e.intervals = [(1, k)]) :
    parseMaxGTID e.text = some (genGTID e.uuid k) := by
  have hk : k < 2 ^ 64 := by
    have := (e.ordered (1, k) (by simp [hivs])).2
    omega
  have htext : e.text = entryText e.uuid ([] ++ [(1, k)]) := by
    rw [SidIntervals.text, hivs]
    rfl
  have huuid : colon ∉ e.uuid := colon_not_mem_genUUID _
  rw [htext, parseMaxGTID_entryText huuid [] hk, if_pos rfl]

/-- No byte is a comma or a line end. -/
def Plain (val : Bytes) : Prop :=
  (10 : UInt8) ∉ val ∧ (44 : UInt8) ∉ val

theorem parseMaxGTIDLoop_append (item : Bytes) (hitem : Plain item) (cs : Bytes) :
    ∀ val, parseMaxGTIDLoop (item ++ cs) val = parseMaxGTIDLoop cs (val ++ item) := by
  induction item with
  | nil => simp
  | cons c item ih =>
    intro val
    obtain ⟨hline, hcomma⟩ := hitem
    simp only [List.mem_cons, not_or] at hline hcomma
    rw [List.cons_append, parseMaxGTIDLoop, if_neg (fun h => hline.1 h.symm),
      if_neg (fun h => hcomma.1 h.symm), ih ⟨hline.2, hcomma.2⟩, List.append_assoc]
    rfl

/-- A byte that is no digit, colon or dash is not in the text of an interval. -/
theorem not_mem_intervalText {b : UInt8} (hdigit : isDigit b = false) (hdash : b ≠ 45)
    (iv : Nat × Nat) : b ∉ intervalText iv := by
  unfold intervalText
  split
  · exact not_mem_decimal hdigit _
  · simp only [List.mem_append, List.mem_cons, not_or]
    exact ⟨not_mem_decimal hdigit _, hdash, not_mem_decimal hdigit _⟩

theorem plain_entryText {uuid : Bytes} (huuid : Plain uuid) (ivs : List (Nat × Nat)) :
    Plain (entryText uuid ivs) := by
  have hmem : ∀ b : UInt8, b ∉ uuid → isDigit b = false → b ≠ colon → b ≠ 45 →
      b ∉ entryText uuid ivs := by
    intro b hb hdigit hcolon hdash
    simp only [entryText, List.mem_append, List.mem_flatMap, List.mem_cons, not_or, not_exists,
      not_and]
    exact ⟨hb, fun iv _ => ⟨hcolon, not_mem_intervalText hdigit hdash iv⟩⟩
  exact ⟨hmem 10 huuid.1 rfl (by decide) (by decide), hmem 44 huuid.2 rfl (by decide) (by decide)⟩

theorem plain_text (e : SidIntervals) : Plain e.text := by
  refine plain_entryText ⟨?_, ?_⟩ e.intervals
  · exact not_mem_genUUID (by unfold NotUuidByte; decide) _
  · exact not_mem_genUUID (by unfold NotUuidByte; decide) _

/-- The last number of a server id. -/
def lastNumber (e : SidIntervals) : Nat :=
  (e.intervals.getLast?.map Prod.snd).getD 0

/-- Every server id has the numbers from 1 to a last one. -/
def OneInterval (S : GtidSet) : Prop :=
  ∀ e ∈ S, e.intervals = [(1, lastNumber e)]

/-- The last GTIDs of a set with one interval for each UUID. -/
theorem parseMaxGTIDList_text {S : GtidSet} (hone : OneInterval S) :
    parseMaxGTIDList S.text = (.ok, S.map fun e => genGTID e.uuid (lastNumber e)) := by
  have hend : ∀ e : SidIntervals, e.intervals = [(1, lastNumber e)] → ∀ rest,
      endItem e.text rest = (rest.1, genGTID e.uuid (lastNumber e) :: rest.2) := by
    intro e he rest
    have hne : e.text.isEmpty = false := by simp [SidIntervals.text, he]
    simp only [endItem, hne, Bool.false_eq_true, if_false, parseMaxGTID_text he]
  -- After an item the rest of the text starts with a comma, if there is one.
  have hloop : ∀ (S : GtidSet) (e : SidIntervals), OneInterval (e :: S) →
      parseMaxGTIDLoop (List.flatMap (fun e : SidIntervals => 44 :: 10 :: e.text) S) e.text =
        (.ok, (e :: S).map fun e => genGTID e.uuid (lastNumber e)) := by
    intro S
    induction S with
    | nil =>
      intro e he
      rw [List.flatMap_nil, parseMaxGTIDLoop, hend e (he e List.mem_cons_self)]
      rfl
    | cons e' S ih =>
      intro e he
      have he' : OneInterval (e' :: S) := fun x hx => he x (List.mem_cons_of_mem e hx)
      rw [List.flatMap_cons, List.cons_append, List.cons_append, parseMaxGTIDLoop,
        if_neg (by decide), if_pos rfl, parseMaxGTIDLoop, if_pos rfl,
        parseMaxGTIDLoop_append _ (plain_text e'), List.nil_append,
        ih e' he', hend e (he e List.mem_cons_self)]
      rfl
  cases S with
  | nil => rfl
  | cons e S =>
    rw [parseMaxGTIDList, GtidSet.text, parseMaxGTIDLoop_append _ (plain_text e),
      List.nil_append]
    exact hloop S e hone

/-! ## The smallest of the last GTIDs -/

/-- The last numbers of a UUID in a set: at most one, if the set is in normal form. -/
def lastNumbers (uuid : Bytes) (S : GtidSet) : List Nat :=
  (S.filter fun e => e.uuid = uuid).map lastNumber

theorem find?_addGTID (gtidRes : GtidRes) (e : SidIntervals) {n : Nat} (hn : n < 2 ^ 64)
    (uuid : Bytes) :
    ((addGTID gtidRes (genGTID e.uuid n)).find? uuid).getD [] =
      (gtidRes.find? uuid).getD [] ++ if e.uuid = uuid then [n] else [] := by
  have hparse : parseGTID (genGTID e.uuid n) = (e.uuid, n) := parseGTID_genUUID hn
  simp only [addGTID, hparse]
  by_cases huuid : e.uuid = uuid
  · rw [if_pos huuid, ← huuid, SortedMap.find?_insert_self, Option.getD_some]
  · rw [if_neg huuid, List.append_nil, SortedMap.find?_insert_of_ne]
    intro hrank
    exact huuid (byteRank_inj.mp hrank).symm

theorem lastNumber_lt {e : SidIntervals} (h : e.intervals = [(1, lastNumber e)]) :
    lastNumber e < 2 ^ 64 := by
  have hmem : (1, lastNumber e) ∈ e.intervals := by
    rw [h]
    exact List.mem_singleton_self _
  have := (e.ordered _ hmem).2
  omega

/-- What one member adds. -/
theorem find?_foldl_addGTID {S : GtidSet} (hone : OneInterval S) (uuid : Bytes) :
    ∀ gtidRes : GtidRes,
      (((S.map fun e => genGTID e.uuid (lastNumber e)).foldl addGTID gtidRes).find? uuid).getD [] =
        (gtidRes.find? uuid).getD [] ++ lastNumbers uuid S := by
  induction S with
  | nil => simp [lastNumbers]
  | cons e S ih =>
    intro gtidRes
    have he := lastNumber_lt (hone e List.mem_cons_self)
    have hsplit : lastNumbers uuid (e :: S) =
        (if e.uuid = uuid then [lastNumber e] else []) ++ lastNumbers uuid S := by
      by_cases huuid : e.uuid = uuid
      · simp [lastNumbers, huuid]
      · simp [lastNumbers, huuid]
    rw [List.map_cons, List.foldl_cons, ih (fun x hx => hone x (List.mem_cons_of_mem _ hx)),
      find?_addGTID gtidRes e he, hsplit, List.append_assoc]

/-- What all members add. -/
theorem collectGTIDs_text (sets : List GtidSet) (hone : ∀ S ∈ sets, OneInterval S) :
    ∀ gtidRes : GtidRes, ∃ gtidRes',
      collectGTIDs (sets.map fun S => (.ok, S.text)) gtidRes = (.ok, gtidRes') ∧
      ∀ uuid, (gtidRes'.find? uuid).getD [] =
        (gtidRes.find? uuid).getD [] ++ sets.flatMap (lastNumbers uuid) := by
  induction sets with
  | nil =>
    intro gtidRes
    exact ⟨gtidRes, rfl, by simp⟩
  | cons S sets ih =>
    intro gtidRes
    have hS := hone S List.mem_cons_self
    obtain ⟨gtidRes', hcollect, hfind⟩ := ih (fun S' hS' => hone S' (List.mem_cons_of_mem _ hS'))
      ((S.map fun e => genGTID e.uuid (lastNumber e)).foldl addGTID gtidRes)
    refine ⟨gtidRes', ?_, ?_⟩
    · simp only [List.map_cons, collectGTIDs, getMySQLMaxGTIDList, ne_eq, not_true, if_false,
        parseMaxGTIDList_text hS]
      exact hcollect
    · intro uuid
      rw [hfind, find?_foldl_addGTID hS, List.flatMap_cons, List.append_assoc]

theorem minGTID_le {list : List Nat} {n : Nat} (h : n ∈ list) : minGTID list ≤ n := by
  have hfold : ∀ (list : List Nat) (m : Nat),
      list.foldl min m ≤ m ∧ ∀ n ∈ list, list.foldl min m ≤ n := by
    intro list
    induction list with
    | nil => simp
    | cons a list ih =>
      intro m
      obtain ⟨hinit, hmem⟩ := ih (min m a)
      refine ⟨Nat.le_trans hinit (Nat.min_le_left m a), ?_⟩
      intro n hn
      rcases List.mem_cons.mp hn with rfl | hn
      · exact Nat.le_trans hinit (Nat.min_le_right m n)
      · exact hmem n hn
  exact (hfold list _).2 n h

/-- If each member gives at most one number, and there are as many as members, each gives one. -/
theorem lastNumbers_ne_nil {uuid : Bytes} {sets : List GtidSet}
    (hone : ∀ S ∈ sets, (lastNumbers uuid S).length ≤ 1)
    (hlen : sets.length ≤ (sets.flatMap (lastNumbers uuid)).length) :
    ∀ S ∈ sets, lastNumbers uuid S ≠ [] := by
  induction sets with
  | nil => simp
  | cons S sets ih =>
    have hS := hone S List.mem_cons_self
    have hone' := fun S' hS' => hone S' (List.mem_cons_of_mem S hS')
    have hbound : (sets.flatMap (lastNumbers uuid)).length ≤ sets.length := by
      clear ih hlen hone hS
      induction sets with
      | nil => simp
      | cons S' sets ih =>
        have hS' := hone' S' List.mem_cons_self
        have := ih fun S'' hS'' => hone' S'' (List.mem_cons_of_mem _ hS'')
        simp only [List.flatMap_cons, List.length_append, List.length_cons]
        omega
    simp only [List.flatMap_cons, List.length_append, List.length_cons] at hlen
    intro S' hS'
    rcases List.mem_cons.mp hS' with rfl | hS'
    · intro hnil
      rw [hnil, List.length_nil] at hlen
      omega
    · exact ih hone' (by omega) S' hS'

theorem length_lastNumbers_le {S : GtidSet} (hnormal : S.Normal) (uuid : Bytes) :
    (lastNumbers uuid S).length ≤ 1 := by
  have hpair : (S.filter fun e => e.uuid = uuid).Pairwise fun e e' => e.uuid ≠ e'.uuid :=
    hnormal.uuids.filter _
  rw [lastNumbers, List.length_map]
  match hf : S.filter fun e => e.uuid = uuid with
  | [] => simp [hf]
  | [e] => simp [hf]
  | e :: e' :: rest =>
    have hmem : ∀ x ∈ S.filter (fun e => e.uuid = uuid), x.uuid = uuid := by
      intro x hx
      simpa using (List.mem_filter.mp hx).2
    rw [hf] at hpair hmem
    refine absurd ?_ ((List.pairwise_cons.mp hpair).1 e' List.mem_cons_self)
    rw [hmem e (by simp), hmem e' (by simp)]

/-- Each GTID of the list is at or before the last GTID of its UUID at every member. -/
theorem getGlobalMySQLMaxGTIDList_text (sets : List GtidSet) (hnormal : ∀ S ∈ sets, S.Normal)
    (hone : ∀ S ∈ sets, OneInterval S) :
    ∃ gtids, getGlobalMySQLMaxGTIDList (sets.map fun S => (.ok, S.text)) = (.ok, gtids) ∧
      ∀ gtid ∈ gtids, ∃ uuid n, gtid = genGTID uuid n ∧
        ∀ S ∈ sets, ∃ e ∈ S, e.uuid = uuid ∧ n ≤ lastNumber e := by
  obtain ⟨gtidRes, hcollect, hfind⟩ := collectGTIDs_text sets hone .empty
  refine ⟨_, by simp only [getGlobalMySQLMaxGTIDList, hcollect, ne_eq, not_true, if_false]; rfl, ?_⟩
  intro gtid hgtid
  obtain ⟨⟨uuid, list⟩, hentry, hsome⟩ := List.mem_filterMap.mp hgtid
  simp only [List.length_map, Option.ite_none_left_eq_some, not_not, Option.some.injEq] at hsome
  obtain ⟨hlen, rfl⟩ := hsome
  have hlist : list = sets.flatMap (lastNumbers uuid) := by
    have hget : gtidRes.find? uuid = some list :=
      SortedMap.find?_eq_some_iff.mpr ⟨uuid, hentry, rfl⟩
    have h := hfind uuid
    rw [hget, Option.getD_some] at h
    exact h
  refine ⟨uuid, minGTID list, rfl, ?_⟩
  intro S hS
  have hne := lastNumbers_ne_nil (fun S' hS' => length_lastNumbers_le (hnormal S' hS') uuid)
    (by rw [← hlist, hlen]) S hS
  obtain ⟨n, hn⟩ := List.exists_mem_of_ne_nil _ hne
  obtain ⟨e, he, rfl⟩ := List.mem_map.mp hn
  obtain ⟨heS, huuid⟩ := List.mem_filter.mp he
  refine ⟨e, heS, by simpa using huuid, minGTID_le ?_⟩
  rw [hlist]
  exact List.mem_flatMap.mpr ⟨S, hS, hn⟩

end PhxSql.Monitor
