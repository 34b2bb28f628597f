import PhxSql.Paxos.Executer
import PhxSql.Store.Segments

/-!
# The replicated log

What all replicas agree on has no clock, no files and no index: the master record without its expiry
and the accepted events in order. `ReplicatedLog.execute` executes a chosen instance on it. A
replica refines the replicated log: it returns the same code for every instance, and its files, its
newest event and its master record are those of the log. Two replicas that execute the same
instances refine the same log, whatever their clocks, random extensions, server ids and file sizes
are.
-/

set_option autoImplicit false

namespace PhxSql.Paxos

open PhxSql.Proto PhxSql.Store PhxSql.Lib

/-! ## The log -/

structure ReplicatedLog where
  master : MasterInfo := {}
  accepted : List EventData := []
  deriving DecidableEq, Repr

/-- The newest event, without a place. -/
def ReplicatedLog.newest (l : ReplicatedLog) : EventDataInfo :=
  l.accepted.getLast?.elim {} (dataInfo {})

/-- Accepts an event unless its instance id is not new. -/
def ReplicatedLog.save (l : ReplicatedLog) (instanceId : Nat) (data : PaxosEventData) :
    RetCode × ReplicatedLog :=
  if instanceId ≤ l.newest.instanceId then (.eventExist, l)
  else (.ok, { l with accepted := l.accepted ++ [savedEvent instanceId data] })

variable (cx : Codecs)

/-- One chosen instance. -/
def ReplicatedLog.execute (e : Entry) (l : ReplicatedLog) : RetCode × ReplicatedLog :=
  match e.sm with
  | .event =>
    match eventVerdict l.master l.newest (cx.paxosEventData.parse e.value) with
    | .error code => (code, l)
    | .ok data => l.save e.instanceId.toNat data
  | .master =>
    -- Clock, extension and server id go into the expiry only.
    let executed := Master.smExecute 0 0 0 e.instanceId.toNat (cx.masterInfo.parse e.value) l.master
    (executed.1, { l with master := Master.erase executed.2 })

/-- The codes and the last state of executing instances one after another. -/
def ReplicatedLog.executeFrom : List Entry → ReplicatedLog → List RetCode × ReplicatedLog
  | [], l => ([], l)
  | e :: es, l =>
    let executed := l.execute cx e
    let rest := executeFrom es executed.2
    (executed.1 :: rest.1, rest.2)

/-- The empty log after these instances. -/
def ReplicatedLog.executeAll (es : List Entry) : List RetCode × ReplicatedLog :=
  ReplicatedLog.executeFrom cx es {}

variable {cx}

@[simp] theorem ReplicatedLog.newest_save (m : MasterInfo) (accepted : List EventData)
    (r : EventData) :
    ReplicatedLog.newest { master := m, accepted := accepted ++ [r] } = dataInfo {} r := by
  simp [ReplicatedLog.newest]

theorem ReplicatedLog.executeFrom_append (es es' : List Entry) :
    ∀ l : ReplicatedLog, (executeFrom cx (es ++ es') l).2 =
      (executeFrom cx es' (executeFrom cx es l).2).2 := by
  induction es with
  | nil => intro l; rfl
  | cons e es ih =>
    intro l
    exact ih (l.execute cx e).2

theorem ReplicatedLog.executeAll_concat (es : List Entry) (e : Entry) :
    (executeAll cx (es ++ [e])).2 = ((executeAll cx es).2.execute cx e).2 :=
  executeFrom_append es [e] {}

/-! ## Refinement -/

/-- What the executers read of the newest event. -/
def unplaced (info : EventDataInfo) : EventDataInfo :=
  { gtid := info.gtid, checksum := info.checksum, instanceId := info.instanceId }

variable (cx) in
/-- The accepted events that reach the files: an event that does not serialise is not written. -/
def ReplicatedLog.written (l : ReplicatedLog) : List EventData :=
  l.accepted.filter fun r => (cx.eventData.serialize r).isSome

/-- The master record without its expiry and the newest event without its place decide. -/
theorem eventVerdict_of_log {m : MasterInfo} {newest : EventDataInfo} {l : ReplicatedLog}
    (hm : Master.erase m = l.master) (hn : unplaced newest = l.newest)
    (parsed : Option PaxosEventData) :
    eventVerdict m newest parsed = eventVerdict l.master l.newest parsed := by
  apply eventVerdict_congr
  · rw [← hm]
    rfl
  · rw [← hn]
    rfl
  · rw [← hn]
    rfl

variable (cx) in
/-- A replica in the state of the log. -/
structure Refines (r : Replica) (l : ReplicatedLog) : Prop where
  master : Master.erase r.master = l.master
  newest : unplaced r.store.uuidHandler.newestInfo = l.newest
  files : ∃ segs, StoreRep cx r.store segs ∧ eventsOf segs = l.written cx
  gtids : ∀ x ∈ l.accepted, x.gtid ≠ []

theorem refines_empty : Refines cx {} {} :=
  ⟨rfl, rfl, ⟨_, storeRep_empty, rfl⟩, by simp⟩

theorem Refines.lastInstanceID {r : Replica} {l : ReplicatedLog} (h : Refines cx r l) :
    r.store.lastInstanceID = l.newest.instanceId := by
  rw [← h.newest]
  rfl

/-- A refining replica has the events of the log in its files. -/
theorem Refines.storedEvents_eq {r : Replica} {l : ReplicatedLog} (h : Refines cx r l) :
    storedEvents cx r.store = l.written cx := by
  obtain ⟨segs, hrep, hevents⟩ := h.files
  rw [hrep.files.storedEvents_eq, hevents]

/-- A refining replica decides as the log does. -/
theorem Refines.eventVerdict_eq {r : Replica} {l : ReplicatedLog} (h : Refines cx r l)
    (parsed : Option PaxosEventData) :
    eventVerdict r.master r.store.uuidHandler.newestInfo parsed =
      eventVerdict l.master l.newest parsed :=
  eventVerdict_of_log h.master h.newest parsed

/-- Saving an event keeps the refinement. -/
theorem Refines.save {r : Replica} {l : ReplicatedLog} (h : Refines cx r l)
    {instanceId : Nat} (hsmall : instanceId < 2 ^ 64) {data : PaxosEventData}
    (hgtid : data.eventGtid ≠ []) (maxSize : Nat) :
    (addEvent cx maxSize r.master r.store data.eventGtid (savedEvent instanceId data) true).1 =
        (l.save instanceId data).1 ∧
      Refines cx { r with store := (addEvent cx maxSize r.master r.store data.eventGtid
        (savedEvent instanceId data) true).2 } (l.save instanceId data).2 := by
  unfold ReplicatedLog.save
  rw [← h.lastInstanceID]
  by_cases hid : instanceId ≤ r.store.lastInstanceID
  · rw [if_pos hid, addEvent_of_le hid]
    exact ⟨rfl, h⟩
  · rw [if_neg hid]
    obtain ⟨segs, hrep, hevents⟩ := h.files
    have hid' : r.store.lastInstanceID < (savedEvent instanceId data).instanceId :=
      Nat.lt_of_not_le hid
    obtain ⟨hret, hframe, segs', hrep', happ⟩ :=
      addEvent_rep hrep hid' hsmall maxSize r.master data.eventGtid
    refine ⟨hret, h.master, ?_, ⟨segs', hrep', ?_⟩, ?_⟩
    · rw [ReplicatedLog.newest_save]
      simp only [hframe.uuidHandler]
      rfl
    · -- A switch of files adds records without a GTID, which are no events.
      rw [happ.eventsOf_eq hgtid, hevents]
      simp [ReplicatedLog.written, List.filter_append, List.filter_cons]
    · intro x hx
      rcases List.mem_append.mp hx with hx | hx
      · exact h.gtids x hx
      · rw [List.mem_singleton.mp hx]
        exact hgtid

/-- One instance: the replica returns the code of the log and refines its next state. -/
theorem Refines.execute {r : Replica} {l : ReplicatedLog} (h : Refines cx r l) (env : LocalEnv)
    (i : Nat) (e : Entry) :
    (Paxos.execute cx env i e r).1 = (l.execute cx e).1 ∧
      Refines cx (Paxos.execute cx env i e r).2 (l.execute cx e).2 := by
  unfold Paxos.execute ReplicatedLog.execute
  cases e.sm with
  | event =>
    simp only [eventSMExecute, h.eventVerdict_eq]
    cases hv : eventVerdict l.master l.newest (cx.paxosEventData.parse e.value) with
    | error code => exact ⟨rfl, h⟩
    | ok data =>
      obtain ⟨-, hcarries, -⟩ := eventVerdict_ok_iff.mp hv
      exact h.save e.instanceId.toNat_lt (carriesEvent_iff.mp hcarries).2 env.maxEventFileSize
  | master =>
    have hm : Master.erase r.master = Master.erase l.master := by
      rw [← h.master]
      rfl
    obtain ⟨hret, hmaster⟩ := Master.smExecute_erase_congr (env.now i) (env.extLeaseTime i)
      env.engineSvrID 0 0 0 e.instanceId.toNat (cx.masterInfo.parse e.value) hm
    exact ⟨hret, hmaster, h.newest, h.files, h.gtids⟩

/-- A whole run. -/
theorem Refines.executeFrom (env : LocalEnv) (es : List Entry) :
    ∀ {r : Replica} {l : ReplicatedLog} (i : Nat), Refines cx r l →
      (Paxos.executeFrom cx env i es r).1 = (l.executeFrom cx es).1 ∧
        Refines cx (Paxos.executeFrom cx env i es r).2 (l.executeFrom cx es).2 := by
  induction es with
  | nil =>
    intro r l i h
    exact ⟨rfl, h⟩
  | cons e es ih =>
    intro r l i h
    obtain ⟨hret, hnext⟩ := h.execute env i e
    obtain ⟨hrets, hlast⟩ := ih (i + 1) hnext
    simp only [Paxos.executeFrom, ReplicatedLog.executeFrom]
    exact ⟨by rw [hret, hrets], hlast⟩

theorem executeAll_refines (env : LocalEnv) (es : List Entry) :
    (executeAll cx env es).1 = (ReplicatedLog.executeAll cx es).1 ∧
      Refines cx (executeAll cx env es).2 (ReplicatedLog.executeAll cx es).2 :=
  refines_empty.executeFrom env es 0

/-- Two replicas that execute the same instances return the same codes, store the same events and
have the same master record up to its expiry. -/
theorem replicas_agree (cx : Codecs) (env env' : LocalEnv) (es : List Entry) :
    (executeAll cx env es).1 = (executeAll cx env' es).1 ∧
      storedEvents cx (executeAll cx env es).2.store =
        storedEvents cx (executeAll cx env' es).2.store ∧
      Master.erase (executeAll cx env es).2.master =
        Master.erase (executeAll cx env' es).2.master := by
  obtain ⟨hcodes, h⟩ := executeAll_refines env es
  obtain ⟨hcodes', h'⟩ := executeAll_refines env' es
  refine ⟨?_, ?_, ?_⟩
  · rw [hcodes, hcodes']
  · rw [h.storedEvents_eq, h'.storedEvents_eq]
  · rw [h.master, h'.master]

end PhxSql.Paxos
