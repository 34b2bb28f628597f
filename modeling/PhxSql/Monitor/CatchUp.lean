import PhxSql.Monitor.PrintedSet

/-!
# The test before a promotion

A node starts its MySQL as a master, or claims the mastership, only after MySQL has executed the
newest GTID of the log. `IsGTIDCompleted` compares that GTID with the ends of the intervals that
`ParseMaxGTIDList` gives for the text of `gtid_executed`. The ends say nothing about the begins: a
set with one interval that does not begin at 1 passes the test although its first numbers are
missing (`catchUp_misses_begin`), and this is the only way to pass it with a missing GTID
(`catchUp_sound_iff`).

A node that is the master already renews its lease without the test; this is not a claim.
-/

set_option autoImplicit false

namespace PhxSql.Monitor

open PhxSql.Proto PhxSql.Lib PhxSql.Gtid

/-! ## The test -/

/-- `MasterMonitor::IsGTIDCompleted`. -/
def isGTIDCompleted (excuteGtidList : List Bytes) (maxGtid : Bytes) : Bool :=
  if maxGtid = [] then true
  else
    -- The loop returns at the first entry with the UUID and a number that is large enough.
    excuteGtidList.any fun gtid =>
      decide ((parseGTID gtid).1 = (parseGTID maxGtid).1) &&
        decide ((parseGTID maxGtid).2 ≤ (parseGTID gtid).2)

/-! ## The checks of the agent -/

/-- What the checks do to MySQL and to the log. -/
inductive AgentCall
  /-- `MasterMonitor::MasterStart`: MySQL takes writes. -/
  | masterStart
  /-- `SlaveMonitor::SlaveStart` on the address that the master exports. -/
  | slaveStart (ip : Bytes) (port : Nat)
  | checkSlaveRunningStatus
  | slaveCheckRelayLog
  /-- `MasterAgent::SetMaster`: the node proposes itself. -/
  | setMaster
  deriving DecidableEq, Repr

/-- What the checks read: the master of the log, the answer of MySQL for `gtid_executed`, the newest
GTID of the log, and the codes of the calls whose code matters. -/
structure AgentView where
  isMaster : Bool
  answer : RetCode × Bytes
  newestGtid : Bytes
  masterInfo : RetCode × MasterInfo
  enginePort : Nat
  healthy : Bool
  slaveStatus : Int
  relayLog : Int

def mysqlFail : Int := -2600

/-- The start of MySQL in `AgentMonitor::CheckMasterInit`. -/
def startCalls (v : AgentView) : List AgentCall :=
  if v.masterInfo.1 ≠ .ok then []
  else if v.masterInfo.2.exportIp.isEmpty then [.masterStart]
  else
    [.slaveStart v.masterInfo.2.exportIp
      (if v.masterInfo.2.exportPort = 0 then v.enginePort else v.masterInfo.2.exportPort)]

/-- `AgentMonitor::CheckMasterInit`: its calls and its code. -/
def checkMasterInit (v : AgentView) : List AgentCall × Int :=
  if v.isMaster then
    let got := getMySQLMaxGTIDList v.answer
    if got.1 ≠ .ok then ([], got.1.value)
    -- The code of the start is kept in a variable of the inner block, so it is not returned.
    else if isGTIDCompleted got.2 v.newestGtid then (startCalls v, 0)
    else ([.checkSlaveRunningStatus], if v.slaveStatus = 0 then 1 else v.slaveStatus)
  else
    ([.slaveCheckRelayLog], if v.relayLog = mysqlFail then v.relayLog else 0)

/-- `AgentMonitor::IsGTIDCompleted`. -/
def agentIsGTIDCompleted (v : AgentView) : RetCode :=
  let got := getMySQLMaxGTIDList v.answer
  if got.1 ≠ .ok then .svrFail
  else if isGTIDCompleted got.2 v.newestGtid then .ok
  else .dataEmpty

/-- `AgentMonitor::CheckMasterTimeOut`: its calls and its code. -/
def checkMasterTimeOut (v : AgentView) : List AgentCall × Int :=
  -- The master renews its lease without the test.
  let ret := if v.isMaster then .ok else agentIsGTIDCompleted v
  if ret.value < 0 then ([], ret.value)
  else if v.healthy = false then ([], RetCode.svrFail.value)
  else if ret = .ok then ([.setMaster], 0)
  else ([.checkSlaveRunningStatus], v.slaveStatus)

/-- MySQL is started as a master, or the node, which is not the master, claims the mastership. -/
def Promotes (v : AgentView) : Prop :=
  .masterStart ∈ (checkMasterInit v).1 ∨
    (v.isMaster = false ∧ .setMaster ∈ (checkMasterTimeOut v).1)

/-- A node is promoted only after the test. -/
theorem isGTIDCompleted_of_promotes {v : AgentView} (h : Promotes v) :
    (getMySQLMaxGTIDList v.answer).1 = .ok ∧
      isGTIDCompleted (getMySQLMaxGTIDList v.answer).2 v.newestGtid = true := by
  rcases h with hinit | ⟨hmaster, htimeout⟩
  · simp only [checkMasterInit] at hinit
    split at hinit
    · split at hinit
      · cases hinit
      · rename_i hok
        split at hinit
        · rename_i hcompleted
          exact ⟨not_not.mp hok, hcompleted⟩
        · simp at hinit
    · simp at hinit
  · simp only [checkMasterTimeOut, hmaster, Bool.false_eq_true, if_false,
      agentIsGTIDCompleted] at htimeout
    by_cases hok : (getMySQLMaxGTIDList v.answer).1 = .ok
    · refine ⟨hok, ?_⟩
      by_contra hcompleted
      -- The code is then `DATA_EMPTY`, which is neither negative nor `OK`.
      simp only [hok, ne_eq, not_true, if_false, hcompleted] at htimeout
      split at htimeout
      · cases htimeout
      · split at htimeout
        · cases htimeout
        · simp at htimeout
    · simp [hok, RetCode.value] at htimeout

/-! ## What MySQL has executed -/

/-- The GTIDs of a printed set. -/
def Executed (S : List PrintedEntry) (gtid : Bytes) : Prop :=
  ∃ e ∈ S, ∃ iv ∈ e.intervals, ∃ n, iv.1 ≤ n ∧ n ≤ iv.2 ∧ gtid = genGTID e.uuid n

/-- MySQL prints each UUID once. -/
def EachUuidOnce (S : List PrintedEntry) : Prop :=
  S.Pairwise fun e e' => e.uuid ≠ e'.uuid

/-- If all GTIDs of the UUID of `gtid` up to its number are in the log, and the test passes or a
node with this answer of MySQL and this newest GTID is promoted, MySQL has executed all of them. -/
def CatchUpSound (S : List PrintedEntry) (text gtid : Bytes) : Prop :=
  ∀ log : List Bytes,
    (∀ n, 1 ≤ n → n ≤ (parseGTID gtid).2 → genGTID (parseGTID gtid).1 n ∈ log) →
    (isGTIDCompleted (parseMaxGTIDList text).2 gtid = true ∨
      ∃ v : AgentView, v.answer = (.ok, text) ∧ v.newestGtid = gtid ∧ Promotes v) →
    ∀ n, 1 ≤ n → n ≤ (parseGTID gtid).2 → Executed S (genGTID (parseGTID gtid).1 n)

/-- An interval of the UUID of `gtid` that ends at or after its number begins at 1. -/
def BeginsAtOne (S : List PrintedEntry) (gtid : Bytes) : Prop :=
  ∀ e ∈ S, e.uuid = (parseGTID gtid).1 → ∀ iv ∈ e.intervals,
    1 ≤ (parseGTID gtid).2 → (parseGTID gtid).2 ≤ iv.2 → iv.1 = 1

theorem PrintedEntry.parseGTID_lastGtid (e : PrintedEntry) :
    parseGTID e.lastGtid = (e.uuid, (e.intervals.getLast e.nonempty).2) := by
  have hlast := (e.bounds _ (List.getLast_mem e.nonempty)).2.2
  exact parseGTID_genGTID e.colon_not_mem (by omega)

/-- The test on the last GTIDs of the entries. -/
theorem isGTIDCompleted_iff {S : List PrintedEntry} {gtid : Bytes} (hne : gtid ≠ []) :
    isGTIDCompleted (S.map PrintedEntry.lastGtid) gtid = true ↔
      ∃ e ∈ S, e.uuid = (parseGTID gtid).1 ∧
        (parseGTID gtid).2 ≤ (e.intervals.getLast e.nonempty).2 := by
  rw [isGTIDCompleted, if_neg hne, List.any_map, List.any_eq_true]
  simp only [Function.comp, PrintedEntry.parseGTID_lastGtid, Bool.and_eq_true, decide_eq_true_eq]

theorem eq_of_uuid_eq {S : List PrintedEntry} (h : EachUuidOnce S) {e e' : PrintedEntry}
    (he : e ∈ S) (he' : e' ∈ S) (huuid : e.uuid = e'.uuid) : e = e' := by
  have hsymm : Std.Symm fun e e' : PrintedEntry => e.uuid ≠ e'.uuid := ⟨fun _ _ h => h.symm⟩
  by_contra hne
  exact h.forall he he' hne huuid

/-- The only interval of an entry is its last one. -/
theorem PrintedEntry.eq_getLast {e : PrintedEntry} (hone : e.intervals.length = 1) {iv : Nat × Nat}
    (hiv : iv ∈ e.intervals) : iv = e.intervals.getLast e.nonempty := by
  obtain ⟨iv', hivs⟩ := List.length_eq_one_iff.mp hone
  simp only [hivs, List.mem_singleton, List.getLast_singleton] at hiv ⊢
  exact hiv

/-- The test is sound for a set that MySQL prints and a canonical GTID exactly if the interval that
passes it begins at 1. -/
theorem catchUp_sound_iff {S : List PrintedEntry} {text gtid : Bytes} (htext : IsTextOf text S)
    (honce : EachUuidOnce S) (hok : (parseMaxGTIDList text).1 = .ok) (hgtid : Canonical gtid) :
    CatchUpSound S text gtid ↔ BeginsAtOne S gtid := by
  obtain ⟨hone, hlist, -, -⟩ := parseMaxGTIDList_printed htext
  rw [CatchUpSound, hlist hok]
  constructor
  · intro hsound e he huuid iv hiv hpos hle
    have hlast := PrintedEntry.eq_getLast (hone.mp hok e he) hiv
    -- The test passes by this entry, so the set has the number 1 of its UUID.
    obtain ⟨e', he', iv', hiv', n, hfirst, -, heq⟩ := hsound
      ((List.range ((parseGTID gtid).2 + 1)).map (genGTID (parseGTID gtid).1))
      (fun n _ hn => List.mem_map.mpr ⟨n, List.mem_range.mpr (by omega), rfl⟩)
      (.inl ((isGTIDCompleted_iff hgtid.ne_nil).mpr ⟨e, he, huuid, hlast ▸ hle⟩)) 1
      (Nat.le_refl 1) hpos
    rw [← huuid] at heq
    -- The interval that has it is the only one of the only entry with this UUID.
    obtain ⟨huuid', rfl⟩ := genGTID_inj e.colon_not_mem e'.colon_not_mem heq
    obtain rfl := eq_of_uuid_eq honce he he' huuid'
    obtain rfl : iv' = iv := (PrintedEntry.eq_getLast (hone.mp hok e he) hiv').trans hlast.symm
    have hbound := (e.bounds _ hiv').1
    omega
  · intro hbegins log _ hpassed n hpos hle
    -- A promotion implies the test, so there is one case.
    have hcompleted : isGTIDCompleted (S.map PrintedEntry.lastGtid) gtid = true := by
      rcases hpassed with hpassed | ⟨v, hanswer, rfl, hpromotes⟩
      · exact hpassed
      · have hpassed := (isGTIDCompleted_of_promotes hpromotes).2
        rw [hanswer, getMySQLMaxGTIDList, if_neg (not_not.mpr rfl), hlist hok] at hpassed
        exact hpassed
    obtain ⟨e, he, huuid, hlast⟩ := (isGTIDCompleted_iff hgtid.ne_nil).mp hcompleted
    have hiv := List.getLast_mem e.nonempty
    have hfirst := hbegins e he huuid _ hiv (by omega) hlast
    exact ⟨e, he, _, hiv, n, by omega, by omega, by rw [huuid]⟩

/-! ## A set that begins late -/

/-- The UUID `11111111-1111-1111-1111-111111111111`. -/
def sampleUuid : Bytes :=
  genUUID (List.replicate 16 17)

/-- The numbers from `first` to 10 of that UUID. -/
def upToTen (first : Nat) (hfirst : 1 ≤ first ∧ first ≤ 10) : List PrintedEntry :=
  [{ uuid := sampleUuid, intervals := [(first, 10)], uuid_length := by decide +kernel,
     uuid_bytes := by decide +kernel, nonempty := by simp,
     bounds := by simp [hfirst.1, hfirst.2] }]

theorem canonical_sample : Canonical (genGTID sampleUuid 8) :=
  ⟨List.replicate 16 17, 8, rfl, by decide, rfl⟩

/-- The test is sound on the set of the numbers from 1 to 10. -/
theorem catchUp_sound_upToTen :
    CatchUpSound (upToTen 1 (by decide)) (printed (upToTen 1 (by decide)))
      (genGTID sampleUuid 8) := by
  refine (catchUp_sound_iff ?_ (List.pairwise_singleton _ _) ?_ canonical_sample).mpr ?_
  · unfold IsTextOf
    decide +kernel
  · decide +kernel
  · intro e he _ iv hiv _ _
    obtain rfl := List.mem_singleton.mp he
    rw [List.mem_singleton.mp hiv]

/-- A master whose MySQL has the numbers from 5 to 10, while the log ends with the number 8. -/
def lateView : AgentView where
  isMaster := true
  answer := (.ok, printed (upToTen 5 (by decide)))
  newestGtid := genGTID sampleUuid 8
  masterInfo := (.ok, {})
  enginePort := 3306
  healthy := true
  slaveStatus := 0
  relayLog := 0

/-- MySQL is started as a master although it misses the number 1. -/
theorem catchUp_misses_begin :
    (parseMaxGTIDList (printed (upToTen 5 (by decide)))).1 = .ok ∧
      isGTIDCompleted (parseMaxGTIDList (printed (upToTen 5 (by decide)))).2
        (genGTID sampleUuid 8) = true ∧
      (checkMasterInit lateView).1 = [.masterStart] ∧
      ¬ Executed (upToTen 5 (by decide)) (genGTID sampleUuid 1) := by
  refine ⟨by decide +kernel, by decide +kernel, by decide +kernel, ?_⟩
  rintro ⟨e, he, iv, hiv, n, hfirst, -, heq⟩
  obtain rfl := List.mem_singleton.mp he
  rw [List.mem_singleton.mp hiv] at hfirst
  obtain ⟨-, rfl⟩ := genGTID_inj (colon_not_mem_genUUID _) (colon_not_mem_genUUID _) heq
  omega

end PhxSql.Monitor
