import PhxSql.Gtid.EventSplit
import PhxSql.Paxos.Executer
import PhxSql.Store.History

/-!
# Sending the events to a replica

After a sign-up has put the reader at an event, `ReplicationTransfer` takes batches of events from
the store, splits them into binlog events and sends these. It keeps a checksum over all bytes it has
taken, in the way in which `SMExecute` has computed the checksums of the events, and compares it
with the stored checksum of the event that its last GTID leads to. A checksum of 0 means that there
is none yet: the next batch has one event, whose stored checksum is taken.

A batch takes its events one by one, and the lookup comes later, so that instances are executed in
between. The steps of the system are those of the source between two releases of a lock.
-/

set_option autoImplicit false

namespace PhxSql.Repl

open PhxSql.Proto PhxSql.Lib PhxSql.Gtid PhxSql.Store PhxSql.Paxos

/-- The local variables of `EventManager::GetEvents`; `done` says that its loop has ended. -/
structure Batch where
  wantNum : Nat
  getNum : Nat := 0
  data : Bytes := []
  done : Bool := false
  deriving DecidableEq, Repr

/-- `ReplicationTransfer` with the batch it is taking, if any. -/
structure ReplicationTransfer where
  checksum : Nat := 0
  batch : Option Batch := none
  deriving DecidableEq, Repr

/-- `GtidHandler::GetEventHeaderSize`. -/
def getEventHeaderSize : Nat := 1

/-- The events of `GtidHandler::ParseEventList` with `need_charset`: a zero byte stands before each.
-/
def withCharset (events : List (Bytes × Bytes)) : List Bytes :=
  events.map fun e => 0 :: e.1

/-- What `ReplicationTransfer::CountCheckSum` has found and computed: the code of the lookup, the
stored checksum, and `checksum_` after it. -/
structure CheckSumCount where
  found : RetCode
  stored : Nat
  checksum : Nat
  deriving DecidableEq, Repr

/-- `ReplicationTransfer::CountCheckSum` up to its assertions. -/
def countCheckSum (s : EventStorage) (checksum : Nat) (eventList : List Bytes) (maxGtid : Bytes) :
    CheckSumCount :=
  let found := realGetGTIDInfo s maxGtid false
  { found := found.1
    stored := found.2.checksum
    checksum :=
      if checksum = 0 then found.2.checksum
      else eventList.foldl (fun sum e => getCheckSum sum (e.drop getEventHeaderSize)) checksum }

/-- The assertions of `CountCheckSum`, where `checksum` was there before. It asserts nothing when it
takes the stored checksum. -/
def CheckSumCount.Asserted (checksum : Nat) (c : CheckSumCount) : Prop :=
  checksum = 0 ∨ (c.found = .ok ∧ c.checksum = c.stored)

instance (checksum : Nat) (c : CheckSumCount) : Decidable (c.Asserted checksum) :=
  inferInstanceAs (Decidable (_ ∨ _))

/-- The start of `ReplicationTransfer::GetEvents`; `pushLimit` is `GetMaxEventCountToPush`. -/
def startBatch (checksum pushLimit : Nat) : Batch :=
  let wantNum := if checksum = 0 then 1 else pushLimit
  { wantNum := wantNum, done := decide (wantNum = 0) }

/-- What the loop of `EventManager::GetEvents` does with an event. -/
def Batch.add (b : Batch) (data : EventData) : Batch :=
  { b with
    getNum := b.getNum + 1
    data := b.data ++ data.data
    done := decide (b.wantNum ≤ b.getNum + 1) }

/-- What becomes of a transfer with the result of a `GetEvent`. If there is no event, the batch
ends; an empty one is given up, and `Process` starts another. Another code ends the transfer. -/
def takeEvent (checksum : Nat) (b : Batch) (ret : RetCode) (data : EventData) :
    Option ReplicationTransfer :=
  if ret = .ok then some { checksum := checksum, batch := some (b.add data) }
  else if ret = .dataEmpty then
    some { checksum := checksum, batch := if b.getNum = 0 then none else some { b with done := true } }
  else none

/-- `CountCheckSum` on the events of a batch. -/
def Batch.count (b : Batch) (s : EventStorage) (checksum : Nat) : CheckSumCount :=
  let parsed := (parseEventList b.data).2
  countCheckSum s checksum (withCharset parsed) (maxGtid parsed)

/-! ## The system -/

/-- A replica with the history of its store, and the transfer to the MySQL server that has signed
up. -/
structure ReplState where
  master : MasterInfo := {}
  history : History := {}
  transfer : Option ReplicationTransfer := none

/-- `SMExecute` of a chosen instance; `SignUpGTID` for a new `ReplicationTransfer`; the start of a
batch; a `GetEvent` for it; and `CountCheckSum` at its end. -/
inductive ReplAction
  | execute (env : LocalEnv) (i : Nat) (e : Entry)
  | signUp (gtids : List Bytes)
  | start (pushLimit : Nat)
  | getEvent
  | count

def ReplState.replica (σ : ReplState) : Replica :=
  { master := σ.master, store := σ.history.store }

variable (cx : Codecs)

/-- What `EventExecuter::SMExecute` decides about an instance. -/
def ReplState.verdict (σ : ReplState) (e : Entry) : Except RetCode PaxosEventData :=
  eventVerdict σ.master σ.history.store.uuidHandler.newestInfo (cx.paxosEventData.parse e.value)

/-- The execution of an instance, with the history of the store. -/
def executeStep (env : LocalEnv) (i : Nat) (e : Entry) (σ : ReplState) : ReplState :=
  match e.sm with
  | .event =>
    match σ.verdict cx e with
    | .error _ => σ
    | .ok data =>
      { σ with
        history := historyStep cx σ.history
          (.addEvent env.maxEventFileSize σ.master (savedEvent e.instanceId.toNat data)) }
  | .master => { σ with master := (execute cx env i e σ.replica).2.master }

/-- A sign-up: `GetLastGtid` and, if it finds a position, `ReSet` for a new `ReplicationTransfer`.
-/
def signUpStep (gtids : List Bytes) (σ : ReplState) : ReplState :=
  let found := getLastGtid cx σ.history.store gtids
  let looked := historyStep cx σ.history (.getLastGtid gtids)
  if found.1 ≠ .ok then { σ with history := looked, transfer := none }
  else
    { σ with
      history := historyStep cx looked (.reSet found.2.1)
      transfer := if (reSet looked.store found.2.1).1 = .ok then some {} else none }

def replStep (σ : ReplState) : ReplAction → Option ReplState
  | .execute env i e => some (executeStep cx env i e σ)
  | .signUp gtids => some (signUpStep cx gtids σ)
  | .start pushLimit =>
    match σ.transfer with
    | some { checksum, batch := none } =>
      some { σ with
        transfer := some { checksum := checksum, batch := some (startBatch checksum pushLimit) } }
    | _ => none
  | .getEvent =>
    match σ.transfer with
    | some { checksum, batch := some b } =>
      if b.done then none
      else
        let got := Store.getEvent cx σ.history.store
        some
          { σ with
            history := { σ.history with store := got.2.2 }
            transfer := takeEvent checksum b got.1 got.2.1 }
    | _ => none
  | .count =>
    match σ.transfer with
    | some { checksum, batch := some b } =>
      let counted := b.count σ.history.store checksum
      if b.done ∧ counted.Asserted checksum then
        -- A buffer that does not parse ends the transfer, after the count.
        some { σ with
          transfer := if (parseEventList b.data).1 = .ok then some { checksum := counted.checksum }
            else none }
      else none
    | _ => none

variable {cx}

/-- The execution of an instance is that of `Paxos.execute` on the replica. -/
theorem replica_executeStep (env : LocalEnv) (i : Nat) (e : Entry) (σ : ReplState) :
    (executeStep cx env i e σ).replica = (execute cx env i e σ.replica).2 := by
  cases hsm : e.sm with
  | event =>
    simp only [executeStep, execute, hsm, eventSMExecute]
    cases hverdict : σ.verdict cx e with
    | error code =>
      have hsame : eventVerdict σ.replica.master σ.replica.store.uuidHandler.newestInfo
          (cx.paxosEventData.parse e.value) = .error code := hverdict
      rw [hsame]
    | ok data =>
      have hsame : eventVerdict σ.replica.master σ.replica.store.uuidHandler.newestInfo
          (cx.paxosEventData.parse e.value) = .ok data := hverdict
      rw [hsame]
      rfl
  | master =>
    simp only [executeStep, execute, hsm]
    rfl

/-- The sign-up is that of `EventManager::SignUpGTID` on the store. -/
theorem store_signUpStep (gtids : List Bytes) (σ : ReplState) :
    (signUpStep cx gtids σ).history.store = (signUpGTID cx σ.history.store gtids).2 ∧
      (signUpStep cx gtids σ).transfer =
        if (signUpGTID cx σ.history.store gtids).1 = .ok then some {} else none := by
  by_cases hfound : (getLastGtid cx σ.history.store gtids).1 = .ok
  · simp only [signUpStep, signUpGTID, hfound, ne_eq, not_true, if_false]
    exact ⟨rfl, rfl⟩
  · simp only [signUpStep, signUpGTID, hfound, ne_eq, not_false_eq_true, if_true, if_false]
    exact ⟨rfl, trivial⟩

end PhxSql.Repl
