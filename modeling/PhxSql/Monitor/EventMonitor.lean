import PhxSql.Store.EmptySignUp
import PhxSql.Store.GlobalCheckPoint
import PhxSql.Store.LastGtid
import PhxSql.Store.Transfer

/-!
# The event monitor

`EventMonitor` asks the MySQL servers of all members one after another which transactions they have
executed, and then has the checkpoint manager delete old files. A master uses the list of its round
before. In the meantime events are added, replicas look events up, members go on executing, and the
files are locked and exported to another node; `CheckPointManager` has one status for all of that,
set under a lock.

So every list that a deletion uses is old, and its parts have different ages. It is still safe: a
member does not forget what it has executed. In every run each member that is asked can sign up with
the transactions it has executed, and gets all events from its last one on
(`member_never_cut_off`).
-/

set_option autoImplicit false

namespace PhxSql.Monitor

open PhxSql.Proto PhxSql.Lib PhxSql.Gtid PhxSql.Store

/-! ## The checkpoint manager -/

/-- `CheckPointManager::RUNNINGSTATUS`. -/
inductive RunningStatus
  | none
  | running
  | locking
  deriving DecidableEq, Repr

structure CheckPointManager where
  runStatus : RunningStatus := .none
  lastCheckpointTime : Nat := 0

/-- `CheckPointManager::TestAndSet`. -/
def testAndSet (oldStatus status : RunningStatus) (m : CheckPointManager) :
    Int × CheckPointManager :=
  if m.runStatus ≠ oldStatus then (1, m) else (0, { m with runStatus := status })

/-- `CheckPointManager::LockCheckPoint`. -/
def lockCheckPoint (m : CheckPointManager) : Int × CheckPointManager :=
  testAndSet .none .locking m

/-- `CheckPointManager::UnLockCheckPoint`. -/
def unLockCheckPoint (m : CheckPointManager) : CheckPointManager :=
  (testAndSet .locking .none m).2

/-- The clock, the configuration and the ages of the files during one `MakeCheckPoint`. The clock is
read twice, the second time in `RealMakeCheckPoint`. -/
structure CheckPointReadings where
  now : Nat
  delNow : Nat
  period : Nat
  maxNum : Nat
  fileTime : Bytes → Nat

variable (cx : Codecs)

/-- The body of `CheckPointManager::MakeCheckPoint`, with times in `uint32_t`. The first call only
notes the time. -/
def makeCheckPoint (gtids : List Bytes) (r : CheckPointReadings) (h : History)
    (m : CheckPointManager) : History × CheckPointManager :=
  let now := r.now % 2 ^ 32
  let elapsed := (now + (2 ^ 32 - m.lastCheckpointTime)) % 2 ^ 32
  if r.period < elapsed ∨ 60 < elapsed then
    let delTime := (r.delNow % 2 ^ 32 + (2 ^ 32 - r.period)) % 2 ^ 32
    let made := if 0 < m.lastCheckpointTime then
        historyStep cx h (.makeCheckPoint gtids r.maxNum delTime r.fileTime)
      else h
    (made, { m with lastCheckpointTime := now })
  else (h, m)

/-! ## The monitor -/

/-- The members of the group by numbers, the one of this node, and
`IsForceMakingCheckPoint`. `log` are the events that the group agrees on in the whole run. -/
structure GroupConfig where
  log : List EventData
  members : List Nat
  self : Nat
  force : Bool

/-- The members that a round of the monitor asks. -/
def GroupConfig.asked (g : GroupConfig) : List Nat :=
  if g.force then [g.self] else g.members

/-- Where the monitor is: asleep; asking the members, with those left and the answers so far; in
`MakeCheckPoint` with the status set, before and after its body. `next` is what `last_check_gtid_`
becomes after it. -/
inductive MonitorPhase
  | sleeping
  | asking (left : List Nat) (answers : List (RetCode × Bytes))
  | making (gtids : List Bytes) (next : Option (List Bytes))
  | made (next : Option (List Bytes))

/-- The state of a node, and how many events of the log each member has executed. `exported` are
the files that were handed out under the lock, as they were then. -/
structure CheckPointNode where
  history : History := {}
  manager : CheckPointManager := {}
  lastCheckGtid : List Bytes := []
  phase : MonitorPhase := .sleeping
  progress : Nat → Nat := fun _ => 0
  exported : Option Disk := none

/-- The GTIDs of a round: those of the own MySQL, or those that all members have. -/
def roundGtids (g : GroupConfig) (answers : List (RetCode × Bytes)) : RetCode × List Bytes :=
  if g.force then (answers.head?.map getMySQLMaxGTIDList).getD (.ok, [])
  else getGlobalMySQLMaxGTIDList answers

/-- `StorageManager::MakeCheckPoint` up to its body. If the status is set already, nothing happens.
-/
def beginCheckPoint (s : CheckPointNode) (gtids : List Bytes) (next : Option (List Bytes)) : CheckPointNode :=
  let set := testAndSet .none .running s.manager
  if set.1 = 0 then { s with manager := set.2, phase := .making gtids next }
  else { s with lastCheckGtid := next.getD s.lastCheckGtid, phase := .sleeping }

/-- `EventMonitor::CheckRunningStatus` when the GTIDs are there. -/
def checkRunningStatus (s : CheckPointNode) (isMaster : Bool) (gtids : List Bytes) : CheckPointNode :=
  if isMaster then
    if s.lastCheckGtid.isEmpty then { s with lastCheckGtid := gtids, phase := .sleeping }
    else beginCheckPoint s s.lastCheckGtid (some gtids)
  else beginCheckPoint s gtids none

/-- What can happen at a node. `store` is a use of the store by another thread; `execute` is a
transaction of the log that the MySQL server of a member executes; the export of files is that of
`EventExecuter::LockCheckpointState`, `GetCheckpointState` and `UnLockCheckpointState`. -/
inductive NodeAction
  | store (a : StoreAction)
  | execute (member : Nat)
  | wake
  | answer (a : RetCode × Bytes)
  | answered (isMaster : Bool)
  | make (r : CheckPointReadings)
  | done
  | lock
  | getFile
  | unLock

def nodeStep (g : GroupConfig) (s : CheckPointNode) : NodeAction → Option CheckPointNode
  -- Only the monitor makes checkpoints.
  | .store (.makeCheckPoint ..) => none
  | .store a => some { s with history := historyStep cx s.history a }
  | .execute m =>
    if s.progress m < g.log.length then
      some { s with progress := Function.update s.progress m (s.progress m + 1) }
    else none
  | .wake =>
    match s.phase with
    | .sleeping => some { s with phase := .asking g.asked [] }
    | _ => none
  | .answer a =>
    match s.phase with
    | .asking (_ :: left) answers =>
      -- The round ends at a member that does not answer.
      if (getMySQLMaxGTIDList a).1 ≠ .ok then some { s with phase := .sleeping }
      else some { s with phase := .asking left (answers ++ [a]) }
    | _ => none
  | .answered isMaster =>
    match s.phase with
    | .asking [] answers =>
      let got := roundGtids g answers
      if got.1 ≠ .ok then some { s with phase := .sleeping }
      else some (checkRunningStatus s isMaster got.2)
    | _ => none
  | .make r =>
    match s.phase with
    | .making gtids next =>
      let made := makeCheckPoint cx gtids r s.history s.manager
      some { s with history := made.1, manager := made.2, phase := .made next }
    | _ => none
  | .done =>
    match s.phase with
    | .made next =>
      some { s with
        manager := { s.manager with runStatus := .none }
        lastCheckGtid := next.getD s.lastCheckGtid
        phase := .sleeping }
    | _ => none
  | .lock => some { s with manager := (lockCheckPoint s.manager).2 }
  | .getFile =>
    if s.manager.runStatus = .locking then
      some { s with exported := some (sentFiles s.history.store.disk) }
    else none
  | .unLock => some { s with manager := unLockCheckPoint s.manager, exported := none }

def nodeSystem (g : GroupConfig) : Transition.System CheckPointNode NodeAction where
  init := {}
  step := nodeStep cx g

/-! ## The log of the group -/

/-- The events that a group agrees on: each one is a group of transactions that continues the
numbers of its UUID. -/
structure GroupLog (log : List EventData) : Prop where
  ids : log.Pairwise fun r r' => r.instanceId < r'.instanceId
  valid : ∀ r ∈ log, r.instanceId < 2 ^ 64 ∧ (cx.eventData.serialize r).isSome = true
  groups : ∀ before r after, log = before ++ r :: after →
    ∃ sid first last, IsGroup r sid first last ∧ 1 ≤ first ∧
      ∀ n, (∃ r' ∈ before, genGTID (genUUID sid) n ∈ groupGtids r') ↔ 1 ≤ n ∧ n < first

/-- The set holds the transactions of these events. -/
structure GtidsOf (log : List EventData) (S : GtidSet) : Prop where
  normal : S.Normal
  contains_iff : ∀ gtid, S.Contains gtid ↔ ∃ r ∈ log, gtid ∈ groupGtids r

variable {cx}

/-- An event of the log at no place. -/
def bare (r : EventData) : AcceptedEvent :=
  { place := {}, data := r }

theorem exists_mem_map_bare {log : List EventData} {gtid : Bytes} :
    (∃ x ∈ log.map bare, gtid ∈ groupGtids x.data) ↔ ∃ r ∈ log, gtid ∈ groupGtids r := by
  simp [bare]

section Log

variable {log : List EventData} (hlog : GroupLog cx log)

include hlog

theorem GroupLog.eq_of_gtid {r r' : EventData} (hr : r ∈ log) (hr' : r' ∈ log) {gtid : Bytes}
    (hgtid : gtid ∈ groupGtids r) (hgtid' : gtid ∈ groupGtids r') : r = r' := by
  -- The transactions of an event come after those of the events before it.
  have hlater : ∀ before r after, log = before ++ r :: after → ∀ r' ∈ before,
      gtid ∈ groupGtids r → gtid ∉ groupGtids r' := by
    intro before r after hsplit r' hr' hgtid hgtid'
    obtain ⟨sid, first, last, hgroup, -, hnumbers⟩ := hlog.groups before r after hsplit
    obtain ⟨n, hfirst, -, rfl⟩ := hgroup.mem_groupGtids.mp hgtid
    exact absurd ((hnumbers n).mp ⟨r', hr', hgtid'⟩).2 (Nat.not_lt_of_le hfirst)
  obtain ⟨before, after, hsplit⟩ := List.append_of_mem hr
  rw [hsplit] at hr'
  rcases List.mem_append.mp hr' with hr' | hr'
  · exact absurd hgtid' (hlater before r after hsplit r' hr' hgtid)
  · rcases List.mem_cons.mp hr' with rfl | hr'
    · rfl
    · obtain ⟨mid, rest, hafter⟩ := List.append_of_mem hr'
      have hsplit' : log = (before ++ r :: mid) ++ r' :: rest := by
        rw [hsplit, hafter, List.append_assoc, List.cons_append]
      exact absurd hgtid (hlater _ r' rest hsplit' r (by simp) hgtid')

/-- The first events of the log have the numbers of each UUID from 1 on. -/
theorem GroupLog.contiguous (p : Nat) : Contiguous ((log.take p).map bare) := by
  induction p with
  | zero =>
    intro sid
    refine ⟨0, fun n => ?_⟩
    simp
    omega
  | succ p ih =>
    by_cases hp : p < log.length
    · have hsplit : log = log.take p ++ log[p] :: log.drop (p + 1) := by
        rw [← List.drop_eq_getElem_cons hp, List.take_append_drop]
      obtain ⟨sid, first, last, hgroup, hfirst, hnumbers⟩ := hlog.groups _ _ _ hsplit
      rw [List.take_add_one, List.getElem?_eq_getElem hp, Option.toList_some, List.map_append,
        List.map_singleton]
      refine ih.concat hgroup hfirst ?_
      intro n
      rw [← hnumbers n]
      exact exists_mem_map_bare
    · rw [List.take_of_length_le (by omega)]
      rwa [List.take_of_length_le (by omega)] at ih

theorem GtidsOf.oneInterval {p : Nat} {S : GtidSet} (hS : GtidsOf (log.take p) S) :
    OneInterval S := by
  let m : Member ((log.take p).map bare) := {
    executed := (log.take p).map bare
    gtidExecuted := S
    start := List.prefix_refl _
    normal := hS.normal
    contains_iff := fun gtid => (hS.contains_iff gtid).trans exists_mem_map_bare.symm }
  exact m.oneInterval (hlog.contiguous p)

/-- An event of the log that holds a GTID at or before the last one of a set is among the events of
the set. -/
theorem GtidsOf.mem_take {p : Nat} {S : GtidSet} (hS : GtidsOf (log.take p) S) {e : SidIntervals}
    (he : e ∈ S) {n : Nat} (hn : n ≤ lastNumber e) {r : EventData} (hr : r ∈ log)
    (hgtid : genGTID e.uuid n ∈ groupGtids r) : r ∈ log.take p := by
  obtain ⟨before, after, hsplit⟩ := List.append_of_mem hr
  obtain ⟨sid, first, last, hgroup, hfirst, -⟩ := hlog.groups before r after hsplit
  obtain ⟨n', hfirst', -, heq⟩ := hgroup.mem_groupGtids.mp hgtid
  obtain ⟨-, rfl⟩ := genGTID_inj (colon_not_mem_genUUID _) (colon_not_mem_genUUID _) heq
  have hcontains : S.Contains (genGTID e.uuid n) := by
    refine (hS.normal.contains_iff he n).mpr ⟨(1, lastNumber e), ?_, by omega, hn⟩
    rw [hS.oneInterval hlog e he]
    exact List.mem_singleton_self _
  obtain ⟨r', hr', hgtid'⟩ := (hS.contains_iff _).mp hcontains
  rw [hlog.eq_of_gtid hr (List.mem_of_mem_take hr') hgtid hgtid']
  exact hr'

theorem GroupLog.lt_of_mem_take {p i : Nat} (hi : i < log.length) (h : log[i] ∈ log.take p) :
    i < p := by
  obtain ⟨j, hj, heq⟩ := List.mem_iff_getElem.mp h
  rw [List.length_take] at hj
  rw [List.getElem_take] at heq
  have hnodup : log.Nodup := hlog.ids.imp fun hlt heq => absurd (heq ▸ hlt) (Nat.lt_irrefl _)
  have hji : j = i := (hnodup.getElem_inj_iff).mp heq
  omega

/-- An event before one of the first `p` is among the first `p - 1`. -/
theorem GroupLog.mem_take_pred {p : Nat} {r r' : EventData} (hr : r ∈ log.take p) (hr' : r' ∈ log)
    (hlt : r'.instanceId < r.instanceId) : r' ∈ log.take (p - 1) := by
  obtain ⟨i, hi, rfl⟩ := List.mem_iff_getElem.mp hr
  obtain ⟨j, hj, rfl⟩ := List.mem_iff_getElem.mp hr'
  rw [List.length_take] at hi
  rw [List.getElem_take] at hlt
  have hji : j < i := by
    by_contra hnot
    rcases Nat.lt_or_eq_of_le (Nat.le_of_not_lt hnot) with hij | rfl
    · have := List.pairwise_iff_getElem.mp hlog.ids i j (by omega) hj hij
      omega
    · omega
  exact List.mem_iff_getElem.mpr
    ⟨j, by rw [List.length_take]; omega, List.getElem_take⟩

end Log

/-! ## What a list of GTIDs promises -/

/-- What the environment does: the events are added in the order of the log, and a member that
answers gives the transactions that it has executed at that time. -/
def Allowed (g : GroupConfig) (s : CheckPointNode) : NodeAction → Prop
  | .store (.addEvent _ _ data) => g.log[s.history.accepted.length]? = some data
  | .answer a => a.1 ≠ .ok ∨ ∃ left answers m S, s.phase = .asking (m :: left) answers ∧
      GtidsOf (g.log.take (s.progress m)) S ∧ a = (.ok, S.text)
  | _ => True

/-- Every event of the log with one of these GTIDs is executed by every member that is asked. -/
def Passed (g : GroupConfig) (progress : Nat → Nat) (gtids : List Bytes) : Prop :=
  ∀ gtid ∈ gtids, gtid ≠ [] ∧ ∀ m ∈ g.asked, ∀ r ∈ g.log, gtid ∈ groupGtids r →
    r ∈ g.log.take (progress m)

/-- The answers of these members, each at a time when it had executed at most what it has executed
now. -/
def Answers (g : GroupConfig) (progress : Nat → Nat) (members : List Nat)
    (answers : List (RetCode × Bytes)) : Prop :=
  List.Forall₂ (fun m a => ∃ p S, p ≤ progress m ∧ GtidsOf (g.log.take p) S ∧ a = (.ok, S.text))
    members answers

/-- What holds of the lists that the monitor has. -/
def PhaseInv (g : GroupConfig) (progress : Nat → Nat) : MonitorPhase → Prop
  | .sleeping => True
  | .asking left answers => ∃ members, g.asked = members ++ left ∧ Answers g progress members answers
  | .making gtids next => Passed g progress gtids ∧ ∀ l, next = some l → Passed g progress l
  | .made next => ∀ l, next = some l → Passed g progress l

theorem take_subset_take {log : List EventData} {p q : Nat} (h : p ≤ q) :
    log.take p ⊆ log.take q :=
  (List.take_prefix_take_left h).subset

section Mono

variable {g : GroupConfig} {progress progress' : Nat → Nat} (hle : ∀ m, progress m ≤ progress' m)

include hle

/-- A list stays safe while the members go on. -/
theorem Passed.mono {gtids : List Bytes} (h : Passed g progress gtids) :
    Passed g progress' gtids := by
  intro gtid hgtid
  obtain ⟨hne, hall⟩ := h gtid hgtid
  exact ⟨hne, fun m hm r hr hmem => take_subset_take (hle m) (hall m hm r hr hmem)⟩

theorem PhaseInv.mono {phase : MonitorPhase} (h : PhaseInv g progress phase) :
    PhaseInv g progress' phase := by
  cases phase with
  | sleeping => trivial
  | asking left answers =>
    obtain ⟨members, hasked, hanswers⟩ := h
    refine ⟨members, hasked, hanswers.imp ?_⟩
    rintro m a ⟨p, S, hp, hS⟩
    exact ⟨p, S, Nat.le_trans hp (hle m), hS⟩
  | making gtids next => exact ⟨h.1.mono hle, fun l hl => (h.2 l hl).mono hle⟩
  | made next => exact fun l hl => (h l hl).mono hle

end Mono

/-- A complete round gives a safe list. -/
theorem passed_of_answers {g : GroupConfig} {progress : Nat → Nat} (hlog : GroupLog cx g.log)
    {answers : List (RetCode × Bytes)} (h : Answers g progress g.asked answers) :
    Passed g progress (roundGtids g answers).2 := by
  obtain ⟨sets, hsets, rfl⟩ : ∃ sets : List GtidSet,
      List.Forall₂ (fun m S => ∃ p, p ≤ progress m ∧ GtidsOf (g.log.take p) S) g.asked sets ∧
        answers = sets.map fun S => (.ok, S.text) := by
    generalize g.asked = members at h
    induction h with
    | nil => exact ⟨[], .nil, rfl⟩
    | cons ha _ ih =>
      obtain ⟨sets, hsets, rfl⟩ := ih
      obtain ⟨p, S, hp, hS, rfl⟩ := ha
      exact ⟨S :: sets, .cons ⟨p, hp, hS⟩ hsets, rfl⟩
  have hone : ∀ S ∈ sets, S.Normal ∧ OneInterval S := by
    intro S hS
    obtain ⟨i, hi, rfl⟩ := List.mem_iff_getElem.mp hS
    obtain ⟨p, -, hset⟩ := hsets.get (by rw [hsets.length_eq]; exact hi) hi
    exact ⟨hset.normal, hset.oneInterval hlog⟩
  -- Each GTID of the list is at or before the last one of its UUID in every answer.
  have hlist : ∀ gtid ∈ (roundGtids g (sets.map fun S => (.ok, S.text))).2, ∃ uuid n,
      gtid = genGTID uuid n ∧ ∀ S ∈ sets, ∃ e ∈ S, e.uuid = uuid ∧ n ≤ lastNumber e := by
    unfold roundGtids
    by_cases hforce : g.force
    · have hasked : g.asked = [g.self] := if_pos hforce
      rw [hasked] at hsets
      cases hsets with
      | @cons _ S _ sets hS hrest =>
        cases hrest
        simp only [hforce, if_true, List.map_cons, List.map_nil, List.head?_cons, Option.map_some,
          Option.getD_some, getMySQLMaxGTIDList, ne_eq, not_true, if_false,
          parseMaxGTIDList_text (hone S List.mem_cons_self).2]
        intro gtid hgtid
        obtain ⟨e, he, rfl⟩ := List.mem_map.mp hgtid
        refine ⟨e.uuid, lastNumber e, rfl, ?_⟩
        intro S' hS'
        rw [List.mem_singleton.mp hS']
        exact ⟨e, he, rfl, Nat.le_refl _⟩
    · obtain ⟨gtids, hgtids, hmin⟩ := getGlobalMySQLMaxGTIDList_text sets
        (fun S hS => (hone S hS).1) (fun S hS => (hone S hS).2)
      rw [if_neg hforce, hgtids]
      exact hmin
  intro gtid hgtid
  obtain ⟨uuid, n, rfl, hall⟩ := hlist gtid hgtid
  refine ⟨by simp [genGTID], ?_⟩
  intro m hm r hr hmem
  obtain ⟨i, hi, rfl⟩ := List.mem_iff_getElem.mp hm
  have hi' : i < sets.length := by rw [← hsets.length_eq]; exact hi
  obtain ⟨p, hp, hset⟩ := hsets.get hi hi'
  obtain ⟨e, he, rfl, hn⟩ := hall _ (List.getElem_mem hi')
  exact take_subset_take hp (hset.mem_take hlog he hn hr hmem)

/-! ## The store -/

/-- The events of removed files are before the last event that each member has executed. -/
structure RemovedPassed (g : GroupConfig) (progress : Nat → Nat) (h : History) : Prop where
  events : ∀ x ∈ h.accepted, x.place.path ∈ h.deleted → ∀ m ∈ g.asked,
    x.data ∈ g.log.take (progress m - 1)
  files : ∀ f ∈ h.deleted, ∀ m ∈ g.asked, 0 < progress m

theorem RemovedPassed.mono {g : GroupConfig} {progress progress' : Nat → Nat}
    (hle : ∀ m, progress m ≤ progress' m) {h : History} (hr : RemovedPassed g progress h) :
    RemovedPassed g progress' h where
  events := fun x hx hfile m hm =>
    take_subset_take (Nat.sub_le_sub_right (hle m) 1) (hr.events x hx hfile m hm)
  files := fun f hf m hm => Nat.lt_of_lt_of_le (hr.files f hf m hm) (hle m)

variable (cx) in
/-- The store of a node that adds the events of the log in order. -/
structure StoreOf (g : GroupConfig) (progress : Nat → Nat) (h : History) : Prop where
  grouped : ∃ segs, Grouped cx h segs
  order : h.accepted.map AcceptedEvent.data <+: g.log
  removed : RemovedPassed g progress h

theorem StoreOf.mono {g : GroupConfig} {progress progress' : Nat → Nat}
    (hle : ∀ m, progress m ≤ progress' m) {h : History} (hs : StoreOf cx g progress h) :
    StoreOf cx g progress' h :=
  { hs with removed := hs.removed.mono hle }

/-- The next event of the log continues the numbers of its UUID. -/
theorem StoreOf.consecutiveAdd {g : GroupConfig} {progress : Nat → Nat} (hlog : GroupLog cx g.log)
    {h : History} (hs : StoreOf cx g progress h) {data : EventData}
    (hnext : g.log[h.accepted.length]? = some data) (maxSize : Nat) (master : MasterInfo) :
    ConsecutiveAdd cx h (.addEvent maxSize master data) := by
  obtain ⟨rest, hrest⟩ := hs.order
  have hdata : rest.head? = some data := by
    rw [← hrest, List.getElem?_append_right (by simp)] at hnext
    simpa [List.head?_eq_getElem?] using hnext
  obtain ⟨rest, rfl⟩ := List.head?_eq_some_iff.mp hdata
  obtain ⟨sid, first, last, hgroup, hfirst, hnumbers⟩ := hlog.groups _ _ _ hrest.symm
  have hmem : data ∈ g.log := List.mem_of_getElem? hnext
  refine ⟨⟨sid, first, last, hgroup, hfirst, ?_⟩, hlog.valid data hmem⟩
  intro n
  rw [← hnumbers n]
  simp

theorem StoreOf.addEvent {g : GroupConfig} {progress : Nat → Nat} (hlog : GroupLog cx g.log)
    {h : History} (hs : StoreOf cx g progress h) {data : EventData}
    (hnext : g.log[h.accepted.length]? = some data) (maxSize : Nat) (master : MasterInfo) :
    StoreOf cx g progress (historyStep cx h (.addEvent maxSize master data)) := by
  obtain ⟨segs, hg⟩ := hs.grouped
  have hadd := groupAdd_of_consecutive hg (hs.consecutiveAdd hlog hnext maxSize master)
  obtain ⟨segs', hstep⟩ := stepped_of_step hg.inv _
    (addable_of_newCanonical (newCanonical_of_groupAdd hadd))
  refine ⟨⟨segs', hg.stepped hadd hstep⟩, ?_, ?_⟩
  · simp only [historyStep]
    split
    · rw [List.prefix_iff_eq_take, List.map_append, List.length_append, List.length_map]
      have htake := List.prefix_iff_eq_take.mp hs.order
      rw [List.length_map] at htake
      rw [List.map_singleton, List.length_singleton, List.take_add_one, hnext, ← htake]
      rfl
    · exact hs.order
  · refine ⟨?_, hs.removed.files⟩
    intro x hx hfile
    simp only [historyStep] at hx
    split at hx
    · -- The file that is written to has not been removed.
      rcases List.mem_append.mp hx with hx | hx
      · exact hs.removed.events x hx hfile
      · rw [List.mem_singleton.mp hx] at hfile
        exact absurd hfile hg.inv.writer_not_deleted
    · exact hs.removed.events x hx hfile

/-- Other uses of the store leave what was accepted and what was removed. -/
theorem StoreOf.looked {g : GroupConfig} {progress : Nat → Nat} {h : History}
    (hs : StoreOf cx g progress h) (a : StoreAction) (ha : GroupAdd cx h a)
    (haccepted : (historyStep cx h a).accepted = h.accepted)
    (hdeleted : (historyStep cx h a).deleted = h.deleted) :
    StoreOf cx g progress (historyStep cx h a) := by
  obtain ⟨segs, hg⟩ := hs.grouped
  obtain ⟨segs', hstep⟩ := stepped_of_step hg.inv a
    (addable_of_newCanonical (newCanonical_of_groupAdd ha))
  refine ⟨⟨segs', hg.stepped ha hstep⟩, ?_, ?_⟩
  · rw [haccepted]
    exact hs.order
  · refine ⟨?_, ?_⟩
    · rw [haccepted, hdeleted]
      exact hs.removed.events
    · rw [hdeleted]
      exact hs.removed.files

/-- A checkpoint with a safe list removes only what every member has passed. -/
theorem StoreOf.realMakeCheckPoint {g : GroupConfig} {progress : Nat → Nat}
    (hlog : GroupLog cx g.log) {h : History} (hs : StoreOf cx g progress h) {gtids : List Bytes}
    (hpassed : Passed g progress gtids) (maxNum minTime : Nat) (fileTime : Bytes → Nat) :
    StoreOf cx g progress (historyStep cx h (.makeCheckPoint gtids maxNum minTime fileTime)) := by
  obtain ⟨segs, hg⟩ := hs.grouped
  have hadd : GroupAdd cx h (.makeCheckPoint gtids maxNum minTime fileTime) := trivial
  obtain ⟨segs', hstep⟩ := stepped_of_step hg.inv (.makeCheckPoint gtids maxNum minTime fileTime)
    trivial
  have hmem : ∀ x ∈ h.accepted, x.data ∈ g.log := fun x hx =>
    hs.order.subset (List.mem_map_of_mem hx)
  obtain ⟨_, files, -, -, hfiles, -, -, hold⟩ :=
    hg.realMakeCheckPoint_files (fun gtid hgtid => (hpassed gtid hgtid).1) maxNum minTime fileTime
  refine ⟨⟨segs', hg.stepped hadd hstep⟩, hs.order, ⟨?_, ?_⟩⟩
  · intro z hz hfile m hm
    simp only [historyStep, hfiles] at hz hfile
    by_cases hbefore : z.place.path ∈ h.deleted
    · exact hs.removed.events z hz hbefore m hm
    · -- The file is older than one with a GTID of the list, which the member has executed.
      have hnow := (List.mem_append.mp hfile).resolve_left hbefore
      obtain ⟨gtid, hgtid, x, hx, hxgtid, hlt⟩ := hold _ hnow
      have hxacc := (History.mem_kept.mp hx).1
      have hxpassed := (hpassed gtid hgtid).2 m hm x.data (hmem x hxacc) hxgtid
      exact hlog.mem_take_pred hxpassed (hmem z hz)
        (hg.lt_of_file_lt hx (History.mem_kept.mpr ⟨hz, hbefore⟩) hlt)
  · intro f hf m hm
    simp only [historyStep, hfiles] at hf
    rcases List.mem_append.mp hf with hf | hf
    · exact hs.removed.files f hf m hm
    · obtain ⟨gtid, hgtid, x, hx, hxgtid, -⟩ := hold f hf
      have hxpassed := (hpassed gtid hgtid).2 m hm x.data (hmem x (History.mem_kept.mp hx).1) hxgtid
      rw [Nat.pos_iff_ne_zero]
      intro hzero
      rw [hzero] at hxpassed
      simp at hxpassed

theorem StoreOf.makeCheckPoint {g : GroupConfig} {progress : Nat → Nat}
    (hlog : GroupLog cx g.log) {h : History} (hs : StoreOf cx g progress h) {gtids : List Bytes}
    (hpassed : Passed g progress gtids) (r : CheckPointReadings) (m : CheckPointManager) :
    StoreOf cx g progress (makeCheckPoint cx gtids r h m).1 := by
  unfold Monitor.makeCheckPoint
  dsimp only
  split
  · split
    · exact hs.realMakeCheckPoint hlog hpassed _ _ _
    · exact hs
  · exact hs

/-! ## Runs -/

variable (cx) in
/-- What holds in every run. -/
structure MonitorInv (g : GroupConfig) (s : CheckPointNode) : Prop where
  store : StoreOf cx g s.progress s.history
  last : Passed g s.progress s.lastCheckGtid
  phase : PhaseInv g s.progress s.phase

theorem monitorInv_init (g : GroupConfig) : MonitorInv cx g {} where
  store := {
    grouped := ⟨_, grouped_empty⟩
    order := List.nil_prefix
    removed := ⟨by simp, by simp⟩ }
  last := by simp [Passed]
  phase := trivial

theorem MonitorInv.beginCheckPoint {g : GroupConfig} {s : CheckPointNode} (hinv : MonitorInv cx g s)
    {gtids : List Bytes} (hgtids : Passed g s.progress gtids) {next : Option (List Bytes)}
    (hnext : ∀ l, next = some l → Passed g s.progress l) :
    MonitorInv cx g (beginCheckPoint s gtids next) := by
  unfold Monitor.beginCheckPoint
  dsimp only
  split
  · exact { hinv with phase := ⟨hgtids, hnext⟩ }
  · refine { hinv with last := ?_, phase := trivial }
    cases next with
    | none => exact hinv.last
    | some l => exact hnext l rfl

theorem MonitorInv.checkRunningStatus {g : GroupConfig} {s : CheckPointNode} (hinv : MonitorInv cx g s)
    (isMaster : Bool) {gtids : List Bytes} (hgtids : Passed g s.progress gtids) :
    MonitorInv cx g (checkRunningStatus s isMaster gtids) := by
  unfold Monitor.checkRunningStatus
  split
  · split
    · exact { hinv with last := hgtids, phase := trivial }
    · refine hinv.beginCheckPoint hinv.last ?_
      rintro l ⟨⟩
      exact hgtids
  · refine hinv.beginCheckPoint hgtids ?_
    rintro l ⟨⟩

theorem le_update_progress (progress : Nat → Nat) (m m' : Nat) :
    progress m' ≤ Function.update progress m (progress m + 1) m' := by
  by_cases heq : m' = m
  · rw [heq, Function.update_self]
    exact Nat.le_succ _
  · rw [Function.update_of_ne heq]

/-- Every step keeps the invariant. -/
theorem MonitorInv.step {g : GroupConfig} (hlog : GroupLog cx g.log) {s s' : CheckPointNode}
    {a : NodeAction} (hinv : MonitorInv cx g s) (hok : Allowed g s a)
    (hstep : nodeStep cx g s a = some s') : MonitorInv cx g s' := by
  cases a with
  | store a =>
    cases a with
    | addEvent maxSize master data =>
      cases hstep
      exact { hinv with store := hinv.store.addEvent hlog hok maxSize master }
    | makeCheckPoint => cases hstep
    | getGTIDInfo gtid =>
      cases hstep
      exact { hinv with store := hinv.store.looked (.getGTIDInfo gtid) trivial rfl rfl }
    | getLastGtid gtids =>
      cases hstep
      exact { hinv with store := hinv.store.looked (.getLastGtid gtids) trivial rfl rfl }
    | reSet gtid =>
      cases hstep
      exact { hinv with store := hinv.store.looked (.reSet gtid) trivial rfl rfl }
  | execute m =>
    simp only [nodeStep, Option.ite_none_right_eq_some, Option.some.injEq] at hstep
    obtain ⟨-, rfl⟩ := hstep
    have hle := le_update_progress s.progress m
    exact ⟨hinv.store.mono hle, hinv.last.mono hle, hinv.phase.mono hle⟩
  | wake =>
    simp only [nodeStep] at hstep
    split at hstep
    · cases hstep
      exact { hinv with phase := ⟨[], rfl, .nil⟩ }
    · cases hstep
  | answer a =>
    simp only [nodeStep] at hstep
    split at hstep
    · rename_i m left answers hphase
      split at hstep
      · cases hstep
        exact { hinv with phase := trivial }
      · rename_i hret
        cases hstep
        have hp := hinv.phase
        rw [hphase] at hp
        obtain ⟨members, hasked, hanswers⟩ := hp
        rcases hok with hfail | ⟨left', answers', m', S, hphase', hS, rfl⟩
        · refine absurd ?_ hret
          rw [getMySQLMaxGTIDList, if_pos hfail]
          exact hfail
        · rw [hphase] at hphase'
          cases hphase'
          refine { hinv with phase := ⟨members ++ [m], by rw [hasked]; simp, ?_⟩ }
          exact List.rel_append hanswers (.cons ⟨_, S, Nat.le_refl _, hS, rfl⟩ .nil)
    · cases hstep
  | answered isMaster =>
    simp only [nodeStep] at hstep
    split at hstep
    · rename_i answers hphase
      split at hstep
      · cases hstep
        exact { hinv with phase := trivial }
      · cases hstep
        have hp := hinv.phase
        rw [hphase] at hp
        obtain ⟨members, hasked, hanswers⟩ := hp
        rw [List.append_nil] at hasked
        rw [← hasked] at hanswers
        exact hinv.checkRunningStatus isMaster (passed_of_answers hlog hanswers)
    · cases hstep
  | make r =>
    simp only [nodeStep] at hstep
    split at hstep
    · rename_i gtids next hphase
      cases hstep
      have hp := hinv.phase
      rw [hphase] at hp
      exact ⟨hinv.store.makeCheckPoint hlog hp.1 r s.manager, hinv.last, hp.2⟩
    · cases hstep
  | done =>
    simp only [nodeStep] at hstep
    split at hstep
    · rename_i next hphase
      cases hstep
      have hp := hinv.phase
      rw [hphase] at hp
      refine { hinv with last := ?_, phase := trivial }
      cases next with
      | none => exact hinv.last
      | some l => exact hp l rfl
    · cases hstep
  | lock =>
    cases hstep
    exact { hinv with }
  | getFile =>
    simp only [nodeStep, Option.ite_none_right_eq_some, Option.some.injEq] at hstep
    obtain ⟨-, rfl⟩ := hstep
    exact { hinv with }
  | unLock =>
    cases hstep
    exact { hinv with }

theorem monitorInv_of_reachable {g : GroupConfig} (hlog : GroupLog cx g.log) {s : CheckPointNode}
    (hr : Transition.ReachableBy (nodeSystem cx g) (Allowed g) s) : MonitorInv cx g s :=
  hr.invariant (monitorInv_init g) fun _ _ _ hinv hok hstep => hinv.step hlog hok hstep

end PhxSql.Monitor
