import PhxSql.Monitor.MasterMonitor

/-!
# Reading the text of a GTID set

MySQL prints a GTID set as entries with commas between them: a UUID of 36 bytes and its intervals,
each a number or two numbers with a dash. Line ends may stand anywhere, since the reader drops them.
`ParseMaxGTIDList` accepts such a text exactly if every entry has one interval
(`parseMaxGTIDList_printed`).

The reader looks for the last number of an entry with an unsigned index that runs backwards.
`scanBack` is that loop with its index, so that an index that passes 0 is an outcome of its own;
`parseMaxGTID_of_found` says what the loop computes where it stops.
-/

set_option autoImplicit false

namespace PhxSql.Monitor

open PhxSql.Proto PhxSql.Lib PhxSql.Gtid

/-! ## The text of a set -/

/-- A hexadecimal digit of either case, or a dash. -/
def isUuidByte (b : UInt8) : Bool :=
  isDigit b || decide (65 ≤ b.toNat ∧ b.toNat ≤ 70) || decide (97 ≤ b.toNat ∧ b.toNat ≤ 102) ||
    decide (b = 45)

/-- An entry of a printed set; an interval is given by its first and last number. -/
structure PrintedEntry where
  uuid : Bytes
  intervals : List (Nat × Nat)
  uuid_length : uuid.length = 36
  uuid_bytes : ∀ b ∈ uuid, isUuidByte b = true
  nonempty : intervals ≠ []
  bounds : ∀ iv ∈ intervals, 1 ≤ iv.1 ∧ iv.1 ≤ iv.2 ∧ iv.2 < 2 ^ 63

def PrintedEntry.text (e : PrintedEntry) : Bytes :=
  entryText e.uuid e.intervals

/-- The entries with commas between them. -/
def printed : List PrintedEntry → Bytes
  | [] => []
  | e :: S => e.text ++ S.flatMap fun e => 44 :: e.text

/-- A text of a set, with line ends at any places. -/
def IsTextOf (text : Bytes) (S : List PrintedEntry) : Prop :=
  text.filter (fun b => b ≠ 10) = printed S

/-- The GTID of the end of the last interval. -/
def PrintedEntry.lastGtid (e : PrintedEntry) : Bytes :=
  genGTID e.uuid (e.intervals.getLast e.nonempty).2

theorem PrintedEntry.not_mem_uuid (e : PrintedEntry) {b : UInt8} (hb : isUuidByte b = false) :
    b ∉ e.uuid := by
  intro hmem
  rw [e.uuid_bytes b hmem] at hb
  cases hb

theorem PrintedEntry.colon_not_mem (e : PrintedEntry) : colon ∉ e.uuid :=
  e.not_mem_uuid rfl

theorem PrintedEntry.plain (e : PrintedEntry) : Plain e.text :=
  plain_entryText ⟨e.not_mem_uuid rfl, e.not_mem_uuid rfl⟩ e.intervals

/-! ## One entry -/

theorem PrintedEntry.parseMaxGTID_eq (e : PrintedEntry) :
    parseMaxGTID e.text = if e.intervals.length = 1 then some e.lastGtid else none := by
  have hsplit := List.dropLast_append_getLast e.nonempty
  have hlast : (e.intervals.getLast e.nonempty).2 < 2 ^ 64 := by
    have := (e.bounds _ (List.getLast_mem e.nonempty)).2.2
    omega
  have hparse := parseMaxGTID_entryText e.colon_not_mem e.intervals.dropLast hlast
  rw [hsplit] at hparse
  have hone : e.intervals.dropLast = [] ↔ e.intervals.length = 1 := by
    have hpos := List.length_pos_iff.mpr e.nonempty
    rw [← List.length_eq_zero_iff, List.length_dropLast]
    omega
  rw [PrintedEntry.text, hparse]
  exact if_congr hone rfl rfl

theorem PrintedEntry.text_ne_nil (e : PrintedEntry) : e.text.isEmpty = false := by
  have hlen : 36 ≤ e.text.length := by
    rw [PrintedEntry.text, entryText, List.length_append, e.uuid_length]
    omega
  rw [List.isEmpty_eq_false_iff]
  rintro hnil
  rw [hnil] at hlen
  cases hlen

/-- The end of an entry: it is listed, or the whole text is an error. -/
theorem endItem_text (e : PrintedEntry) (rest : RetCode × List Bytes) :
    endItem e.text rest =
      if e.intervals.length = 1 then (rest.1, e.lastGtid :: rest.2) else (.gtidFail, []) := by
  rw [endItem, e.text_ne_nil, e.parseMaxGTID_eq]
  by_cases hone : e.intervals.length = 1
  · simp only [hone, if_true, Bool.false_eq_true, if_false]
  · simp only [hone, if_false, Bool.false_eq_true]

/-! ## All entries -/

/-- Line ends are dropped wherever they stand. -/
theorem parseMaxGTIDLoop_filter (cs : Bytes) :
    ∀ val, parseMaxGTIDLoop cs val = parseMaxGTIDLoop (cs.filter fun b => b ≠ 10) val := by
  induction cs with
  | nil =>
    intro val
    rfl
  | cons c cs ih =>
    intro val
    by_cases hline : c = 10
    · rw [parseMaxGTIDLoop, if_pos hline, List.filter_cons_of_neg (by simp [hline]), ih]
    · rw [List.filter_cons_of_pos (by simp [hline]), parseMaxGTIDLoop, parseMaxGTIDLoop,
        if_neg hline, if_neg hline, ih, ih]

/-- The first entry is ended by the comma behind it or by the end of the text. -/
theorem parseMaxGTIDList_cons (e : PrintedEntry) (S : List PrintedEntry) :
    parseMaxGTIDList (printed (e :: S)) = endItem e.text (parseMaxGTIDList (printed S)) := by
  rw [parseMaxGTIDList, printed, parseMaxGTIDLoop_append _ e.plain, List.nil_append]
  cases S with
  | nil => rfl
  | cons e' S =>
    rw [List.flatMap_cons, List.cons_append, parseMaxGTIDLoop, if_neg (by decide), if_pos rfl]
    rfl

/-- The result on a printed set: the last GTIDs if every entry has one interval. -/
theorem parseMaxGTIDList_cases (S : List PrintedEntry) :
    ((∀ e ∈ S, e.intervals.length = 1) ∧
      parseMaxGTIDList (printed S) = (.ok, S.map PrintedEntry.lastGtid)) ∨
    ((∃ e ∈ S, 2 ≤ e.intervals.length) ∧ (parseMaxGTIDList (printed S)).1 = .gtidFail) := by
  induction S with
  | nil => exact .inl ⟨fun e he => absurd he List.not_mem_nil, rfl⟩
  | cons e S ih =>
    -- An entry of several intervals fails the whole text, whatever follows it.
    rw [parseMaxGTIDList_cons, endItem_text]
    by_cases hone : e.intervals.length = 1
    · rw [if_pos hone]
      rcases ih with ⟨hall, hlist⟩ | ⟨⟨e', he', htwo⟩, hfail⟩
      · left
        rw [hlist]
        exact ⟨List.forall_mem_cons.mpr ⟨hone, hall⟩, rfl⟩
      · exact .inr ⟨⟨e', List.mem_cons_of_mem _ he', htwo⟩, hfail⟩
    · right
      rw [if_neg hone]
      have hpos := List.length_pos_iff.mpr e.nonempty
      exact ⟨⟨e, List.mem_cons_self, by omega⟩, rfl⟩

theorem parseMaxGTIDList_of_text {text : Bytes} {S : List PrintedEntry} (h : IsTextOf text S) :
    parseMaxGTIDList text = parseMaxGTIDList (printed S) := by
  rw [parseMaxGTIDList, parseMaxGTIDLoop_filter, h, parseMaxGTIDList]

/-! ## The index that runs backwards -/

/-- How the scan for the last number ends: at a byte that is no digit, in front of the bytes behind
the UUID, or with an index below 0. -/
inductive ScanEnd
  | found (j : Nat)
  | passed
  | underflow
  deriving DecidableEq, Repr

/-- The outer loop over `j` of `MonitorComm::ParseMaxGTIDList`, from the given index. -/
def scanBack (val : Bytes) (uuidLen : Nat) : Nat → ScanEnd
  | 0 =>
    if 0 < uuidLen then .passed
    else if isDigit (val.getD 0 0) then .underflow else .found 0
  | j + 1 =>
    if j + 1 < uuidLen then .passed
    else if isDigit (val.getD (j + 1) 0) then scanBack val uuidLen j else .found (j + 1)

/-- The scan of an item, from its last byte. -/
def scanItem (val : Bytes) : ScanEnd :=
  scanBack val (val.takeWhile fun b => b ≠ colon).length (val.length - 1)

/-- Where the scan stops: behind the UUID, at a byte that is no digit and before digits only. -/
theorem scanBack_found {val : Bytes} {uuidLen j : Nat} (n : Nat) :
    scanBack val uuidLen n = .found j →
      uuidLen ≤ j ∧ j ≤ n ∧ isDigit (val.getD j 0) = false ∧
        ∀ k, j < k → k ≤ n → isDigit (val.getD k 0) = true := by
  induction n with
  | zero =>
    intro h
    rw [scanBack] at h
    split at h
    · cases h
    · rename_i hlen
      split at h
      · cases h
      · rename_i hdigit
        cases h
        exact ⟨by omega, Nat.le_refl _, by simpa using hdigit, fun k hk hk' => by omega⟩
  | succ n ih =>
    intro h
    rw [scanBack] at h
    split at h
    · cases h
    · rename_i hlen
      split at h
      · rename_i hdigit
        obtain ⟨hle, hjn, hj, hall⟩ := ih h
        refine ⟨hle, Nat.le_succ_of_le hjn, hj, ?_⟩
        intro k hjk hk
        rcases Nat.lt_or_eq_of_le hk with hlt | rfl
        · exact hall k hjk (by omega)
        · exact hdigit
      · rename_i hdigit
        cases h
        exact ⟨by omega, Nat.le_refl _, by simpa using hdigit, fun k hk hk' => by omega⟩

/-- The scan stops if the byte behind the UUID is no digit. -/
theorem scanBack_stops {val : Bytes} {uuidLen : Nat} (hstop : isDigit (val.getD uuidLen 0) = false)
    (n : Nat) : uuidLen ≤ n → ∃ j, scanBack val uuidLen n = .found j := by
  induction n with
  | zero =>
    intro hle
    obtain rfl := Nat.le_zero.mp hle
    exact ⟨0, by rw [scanBack, if_neg (Nat.lt_irrefl 0), hstop]; rfl⟩
  | succ n ih =>
    intro hle
    rw [scanBack, if_neg (by omega)]
    by_cases hdigit : isDigit (val.getD (n + 1) 0) = true
    · rw [if_pos hdigit]
      apply ih
      rcases Nat.lt_or_eq_of_le hle with hlt | heq
      · omega
      · rw [heq, hdigit] at hstop
        cases hstop
    · exact ⟨n + 1, if_neg hdigit⟩

/-- What the loops compute where the scan stops: the number from the digits behind it, unless a
colon stands between the one behind the UUID and the place of the scan. -/
theorem parseMaxGTID_of_found {val : Bytes} {j : Nat} (hne : val ≠ [])
    (h : scanItem val = .found j) :
    parseMaxGTID val =
      if colon ∈ (val.take (j + 1)).drop ((val.takeWhile fun b => b ≠ colon).length + 1) then none
      else some (genGTID (val.takeWhile fun b => b ≠ colon)
        (digitsValue (val.drop (j + 1)) % 2 ^ 64)) := by
  obtain ⟨hle, hj, hstop, hall⟩ := scanBack_found _ h
  have hpos := List.length_pos_iff.mpr hne
  generalize hlen : (val.takeWhile fun b => b ≠ colon).length = uuidLen at hle
  -- Behind the UUID: first what ends at the place of the scan, then digits only.
  have hdrop : val.drop uuidLen = (val.take (j + 1)).drop uuidLen ++ val.drop (j + 1) := by
    have hsplit := List.take_append_drop (j + 1) val
    conv_lhs => rw [← hsplit]
    exact List.drop_append_of_le_length (by rw [List.length_take]; omega)
  have hdigits : ∀ b ∈ val.drop (j + 1), isDigit b = true := by
    intro b hb
    obtain ⟨i, hi, rfl⟩ := List.mem_drop_iff_getElem.mp hb
    have hlt : j + 1 + i < val.length := by omega
    have hdigit := hall (j + 1 + i) (by omega) (by omega)
    rwa [List.getD_eq_getElem?_getD, List.getElem?_eq_getElem hlt, Option.getD_some] at hdigit
  have hlast : ∀ b, ((val.take (j + 1)).drop uuidLen).reverse.head? = some b →
      isDigit b = false := by
    intro b hb
    have hget : ((val.take (j + 1)).drop uuidLen).getLast? = val[j]? := by
      rw [List.getLast?_drop, if_neg (by rw [List.length_take]; omega), List.getLast?_take]
      simp [List.getElem?_eq_getElem (show j < val.length by omega)]
    rw [List.head?_reverse, hget] at hb
    rwa [List.getD_eq_getElem?_getD, hb] at hstop
  obtain ⟨htake, hbefore⟩ := reverse_takeWhile_isDigit hdigits hlast
  simp only [parseMaxGTID, hlen, hdrop, htake, hbefore, List.reverse_reverse, List.tail_drop,
    List.contains_iff_mem]

/-- The scan of a printed entry stops behind its UUID. -/
theorem scanItem_text (e : PrintedEntry) : ∃ j, scanItem e.text = .found j ∧ 36 ≤ j := by
  have huuid : (e.text.takeWhile fun b => b ≠ colon).length = 36 := by
    rw [PrintedEntry.text, takeWhile_entryText e.colon_not_mem, e.uuid_length]
  obtain ⟨iv, ivs, hivs⟩ := List.exists_cons_of_ne_nil e.nonempty
  have htext : e.text = e.uuid ++ colon :: (intervalText iv ++
      ivs.flatMap fun iv => colon :: intervalText iv) := by
    rw [PrintedEntry.text, entryText, hivs, List.flatMap_cons, List.cons_append]
  -- The colon behind the UUID stops the scan at the latest.
  have hcolon : e.text.getD 36 0 = colon := by
    rw [htext, ← e.uuid_length]
    simp
  have hlen : 36 ≤ e.text.length - 1 := by
    rw [htext, List.length_append, e.uuid_length, List.length_cons]
    omega
  obtain ⟨j, hj⟩ := scanBack_stops (by rw [hcolon]; rfl) (e.text.length - 1) hlen
  refine ⟨j, ?_, (scanBack_found _ hj).1⟩
  rw [scanItem, huuid, hj]

/-- The reader accepts the text of a set exactly if every entry has one interval, and then lists the
GTIDs of their ends in order; otherwise some entry has several and the result is an error. The index
that runs backwards stops behind the UUID in every entry. -/
theorem parseMaxGTIDList_printed {text : Bytes} {S : List PrintedEntry} (h : IsTextOf text S) :
    ((parseMaxGTIDList text).1 = .ok ↔ ∀ e ∈ S, e.intervals.length = 1) ∧
    ((parseMaxGTIDList text).1 = .ok →
      (parseMaxGTIDList text).2 = S.map PrintedEntry.lastGtid) ∧
    ((parseMaxGTIDList text).1 = .gtidFail ↔ ∃ e ∈ S, 2 ≤ e.intervals.length) ∧
    ∀ e ∈ S, ∃ j, scanItem e.text = .found j ∧ 36 ≤ j := by
  rw [parseMaxGTIDList_of_text h]
  rcases parseMaxGTIDList_cases S with ⟨hall, hlist⟩ | ⟨⟨e, he, htwo⟩, hfail⟩
  · rw [hlist]
    refine ⟨iff_of_true rfl hall, fun _ => rfl, iff_of_false (by simp) ?_,
      fun e _ => scanItem_text e⟩
    rintro ⟨e, he, htwo⟩
    have hone := hall e he
    omega
  · rw [hfail]
    refine ⟨iff_of_false (by simp) ?_, fun hok => absurd hok (by simp),
      iff_of_true rfl ⟨e, he, htwo⟩, fun e _ => scanItem_text e⟩
    intro hall
    have hone := hall e he
    omega

/-- An entry with the number 7 and one with the numbers from 1 to 12. -/
def sampleEntries : List PrintedEntry :=
  [{ uuid := List.replicate 36 97, intervals := [(7, 7)], uuid_length := rfl,
     uuid_bytes := by decide +kernel, nonempty := by decide, bounds := by decide },
   { uuid := List.replicate 36 98, intervals := [(1, 12)], uuid_length := rfl,
     uuid_bytes := by decide +kernel, nonempty := by decide, bounds := by decide }]

/-- Both entries on lines of their own. -/
def sampleText : Bytes :=
  List.replicate 36 97 ++ [58, 55, 44, 10] ++ List.replicate 36 98 ++ [58, 49, 45, 49, 50, 10]

theorem parseMaxGTIDList_sampleText :
    IsTextOf sampleText sampleEntries ∧
      (parseMaxGTIDList sampleText).2 = sampleEntries.map PrintedEntry.lastGtid :=
  have htext : IsTextOf sampleText sampleEntries := by
    unfold IsTextOf
    decide +kernel
  ⟨htext, (parseMaxGTIDList_printed htext).2.1
    ((parseMaxGTIDList_printed htext).1.mpr (by decide))⟩

end PhxSql.Monitor
