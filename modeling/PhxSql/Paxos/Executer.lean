import PhxSql.Master.MasterStorage
import PhxSql.Store.EventStorage

/-!
# The two state machines of a replica

`EventExecuter::SMExecute` and `MasterExecuter::SMExecute` on the state of one replica: the master
record and the event store. A chosen instance is an id, the state machine it is for, and its value.
What a replica has of its own (server id, file size limit, clock, random lease extension) is a
`LocalEnv`; clock and extension are given for each step.
-/

set_option autoImplicit false

namespace PhxSql.Paxos

open PhxSql.Proto PhxSql.Store

/-- The state of a replica. -/
structure Replica where
  master : MasterInfo := {}
  store : EventStorage := emptyStorage

/-- `EVENT_PAXOS_SMID` or `MASTER_PAXOS_SMID`. -/
inductive StateMachine
  | event
  | master
  deriving DecidableEq, Repr

/-- A chosen instance. -/
structure Entry where
  instanceId : UInt64
  sm : StateMachine
  value : Bytes
  deriving DecidableEq, Repr

/-- What differs between replicas; clock and extension are those of the step with that number. -/
structure LocalEnv where
  engineSvrID : Nat
  maxEventFileSize : Nat
  now : Nat → Nat
  extLeaseTime : Nat → Nat

/-- A `char` of the value as `uint64`; `char` is signed. -/
def charValue (b : UInt8) : Nat :=
  if b.toNat < 128 then b.toNat else 2 ^ 64 - 256 + b.toNat

/-- `Utils::GetCheckSum`. -/
def getCheckSum (oldChecksum : Nat) (value : Bytes) : Nat :=
  value.foldl (fun checksum b => (checksum * 257 + charValue b) % 2 ^ 64) oldChecksum

/-- The record `EventManager::SaveEvents` stores for a value. -/
def savedEvent (instanceId : Nat) (data : PaxosEventData) : EventData :=
  { gtid := data.eventGtid
    data := data.buffer
    checksum := data.checksum
    instanceId := instanceId }

/-- Whether a value carries an event. -/
def carriesEvent (data : PaxosEventData) : Bool :=
  !(data.buffer.isEmpty || data.eventGtid.isEmpty)

variable (cx : Codecs)

/-- The checks `EventExecuter::SMExecute` makes on a value that carries an event, up to
`SaveEvents`: the sender is the master, the value follows the newest event, and the checksum
continues its own. -/
def checkEvent (master : MasterInfo) (newest : EventDataInfo) (data : PaxosEventData) : RetCode :=
  -- `check_timeout` is false: an event of a master whose lease is over passes.
  if !Master.checkMasterBySvrID 0 master data.svrid false then .masterConflict
  else if newest.gtid ≠ [] ∧ data.currentGtid ≠ newest.gtid then
    if data.eventGtid = newest.gtid then .eventExist else .gtidConflict
  else if getCheckSum newest.checksum data.buffer ≠ data.checksum then .bufferFail
  else .ok

/-- What `EventExecuter::SMExecute` decides before it saves an event: the code it returns without
saving, or the value to save. -/
def eventVerdict (master : MasterInfo) (newest : EventDataInfo) (parsed : Option PaxosEventData) :
    Except RetCode PaxosEventData :=
  match parsed with
  | none => .error .paxosBufferFail
  | some data =>
    -- An empty value is passed over with the code of success.
    if !carriesEvent data then .error .ok
    else if checkEvent master newest data = .ok then .ok data
    else .error (checkEvent master newest data)

/-- `EventExecuter::SMExecute`. -/
def eventSMExecute (maxSize instanceId : Nat) (value : Bytes) (r : Replica) :
    RetCode × EventStorage :=
  match eventVerdict r.master r.store.uuidHandler.newestInfo (cx.paxosEventData.parse value) with
  | .error code => (code, r.store)
  | .ok data =>
    addEvent cx maxSize r.master r.store data.eventGtid (savedEvent instanceId data) true

/-- One chosen instance at the step with number `i`. -/
def execute (env : LocalEnv) (i : Nat) (e : Entry) (r : Replica) : RetCode × Replica :=
  match e.sm with
  | .event =>
    let executed := eventSMExecute cx env.maxEventFileSize e.instanceId.toNat e.value r
    (executed.1, { r with store := executed.2 })
  | .master =>
    let executed := Master.smExecute (env.now i) (env.extLeaseTime i) env.engineSvrID
      e.instanceId.toNat (cx.masterInfo.parse e.value) r.master
    (executed.1, { r with master := executed.2 })

/-- The codes and the last state of executing instances one after another, from step `i` on. -/
def executeFrom (env : LocalEnv) : Nat → List Entry → Replica → List RetCode × Replica
  | _, [], r => ([], r)
  | i, e :: es, r =>
    let executed := execute cx env i e r
    let rest := executeFrom env (i + 1) es executed.2
    (executed.1 :: rest.1, rest.2)

/-- A new replica that executes these instances. -/
def executeAll (env : LocalEnv) (es : List Entry) : List RetCode × Replica :=
  executeFrom cx env 0 es {}

variable {cx}

/-! ## Decisions -/

/-- The decision depends on the master record without its expiry and on the GTID and checksum of the
newest event. -/
theorem eventVerdict_congr {m m' : MasterInfo} {newest newest' : EventDataInfo}
    (hm : Master.erase m = Master.erase m') (hgtid : newest.gtid = newest'.gtid)
    (hsum : newest.checksum = newest'.checksum) (parsed : Option PaxosEventData) :
    eventVerdict m newest parsed = eventVerdict m' newest' parsed := by
  have hsvr : m.svrId = m'.svrId := by simpa [Master.erase] using congrArg MasterInfo.svrId hm
  have hmaster : ∀ svrid, Master.checkMasterBySvrID 0 m svrid false =
      Master.checkMasterBySvrID 0 m' svrid false := by
    intro svrid
    simp [Master.checkMasterBySvrID, hsvr]
  have hcheck : ∀ data, checkEvent m newest data = checkEvent m' newest' data := by
    intro data
    simp only [checkEvent, hmaster, hgtid, hsum]
  cases parsed with
  | none => rfl
  | some data => simp only [eventVerdict, hcheck]

/-- A value is saved only if it carries an event and passes the checks. -/
theorem eventVerdict_ok_iff {master : MasterInfo} {newest : EventDataInfo}
    {parsed : Option PaxosEventData} {data : PaxosEventData} :
    eventVerdict master newest parsed = .ok data ↔
      parsed = some data ∧ carriesEvent data = true ∧ checkEvent master newest data = .ok := by
  cases parsed with
  | none => simp [eventVerdict]
  | some data' =>
    simp only [eventVerdict, Option.some.injEq]
    constructor
    · intro h
      split at h
      · cases h
      · rename_i hcarries
        split at h
        · rename_i hcheck
          cases h
          exact ⟨rfl, by simpa using hcarries, hcheck⟩
        · cases h
    · rintro ⟨rfl, hcarries, hcheck⟩
      simp [hcarries, hcheck]

theorem carriesEvent_iff {data : PaxosEventData} :
    carriesEvent data = true ↔ data.buffer ≠ [] ∧ data.eventGtid ≠ [] := by
  simp [carriesEvent]

/-- What a value that passes the checks satisfies. -/
theorem checkEvent_ok_iff {master : MasterInfo} {newest : EventDataInfo} {data : PaxosEventData} :
    checkEvent master newest data = .ok ↔
      (0 < master.svrId ∧ master.svrId = data.svrid) ∧
      (newest.gtid = [] ∨ data.currentGtid = newest.gtid) ∧
      getCheckSum newest.checksum data.buffer = data.checksum := by
  rw [← @Master.checkMasterBySvrID_false 0]
  unfold checkEvent
  cases hmaster : Master.checkMasterBySvrID 0 master data.svrid false with
  | false => simp
  | true =>
    simp only [Bool.not_true, Bool.false_eq_true, if_false, true_and]
    by_cases hgtid : newest.gtid = []
    · by_cases hsum : getCheckSum newest.checksum data.buffer = data.checksum
      · simp [hgtid, hsum]
      · simp [hgtid, hsum]
    · by_cases hcur : data.currentGtid = newest.gtid
      · by_cases hsum : getCheckSum newest.checksum data.buffer = data.checksum
        · simp [hcur, hsum]
        · simp [hcur, hsum]
      · by_cases hev : data.eventGtid = newest.gtid
        · simp [hgtid, hcur, hev]
        · simp [hgtid, hcur, hev]

/-- `EVENT_EXIST` from the checks means that the value carries the newest event. -/
theorem checkEvent_eq_eventExist {master : MasterInfo} {newest : EventDataInfo}
    {data : PaxosEventData} (h : checkEvent master newest data = .eventExist) :
    newest.gtid ≠ [] ∧ data.eventGtid = newest.gtid := by
  unfold checkEvent at h
  split at h
  · cases h
  · split at h
    · rename_i hne
      split at h
      · rename_i hev
        exact ⟨hne.1, hev⟩
      · cases h
    · split at h
      · cases h
      · cases h

end PhxSql.Paxos
