import PhxSql.Gtid.EventSplit
import PhxSql.Paxos.Executer
import PhxSql.Proto.Wire

/-!
# The way of a transaction group to paxos

A MySQL server that accepts writes hands every group of transactions to the phxsync plugin when the
group is in the binlog and before it is committed. The plugin sends the bytes of the group, with the
GTID of the group before it, to the phxbinlogsvr of its machine (`PhxBinlogClient::SendBinLog`),
which proposes them (`EventAgent::SendValue`). The plugin repeats the call as long as it gets a
negative code. `EVENT_EXIST` counts as success, and every other code ends the server.
-/

set_option autoImplicit false

namespace PhxSql.Commit

open PhxSql.Proto PhxSql.Lib PhxSql.Gtid PhxSql.Paxos

/-! ## The request -/

/-- The message `BinLogBuffer` of the RPC protocol. -/
structure BinLogBuffer where
  oldgtid : Bytes := []
  newgtid : Bytes := []
  eventbuffer : Bytes := []
  deriving DecidableEq, Repr

def BinLogBuffer.fields (m : BinLogBuffer) : List WireField :=
  [{ num := 1, value := .bytes m.oldgtid }, { num := 2, value := .bytes m.newgtid },
    { num := 3, value := .bytes m.eventbuffer }]

def BinLogBuffer.ofFields (fs : List WireField) : Option BinLogBuffer :=
  match bytesField 1 fs, bytesField 2 fs, bytesField 3 fs with
  | some oldgtid, some newgtid, some eventbuffer =>
    some { oldgtid := oldgtid, newgtid := newgtid, eventbuffer := eventbuffer }
  | _, _, _ => none

theorem BinLogBuffer.ofFields_fields (m : BinLogBuffer) :
    BinLogBuffer.ofFields m.fields = some m := by
  simp [BinLogBuffer.ofFields, BinLogBuffer.fields, bytesField]

/-- The message types on the way of a group. -/
structure SendCodecs extends Codecs where
  binLogBuffer : Codec BinLogBuffer fun _ => True

/-- Protobuf, for these messages. -/
def wireSendCodecs : SendCodecs where
  toCodecs := wireCodecs
  binLogBuffer := wireCodec BinLogBuffer.fields BinLogBuffer.ofFields (fun _ => true)
    fun m _ _ => m.ofFields_fields

/-! ## The calls -/

/-- `GTID_EVENT_FAIL`. -/
def gtidEventFail : Int := 502

/-- `DATA_TOO_LARGE`. -/
def dataTooLarge : Int := 504

/-- `PAXOS_FAIL`. -/
def paxosFail : Int := -2500

variable (cx : SendCodecs)

/-- `EventAgent::SendValue` of the node `own` up to the proposal: the code that it returns without
one, or the value. -/
def sendValue (now own : Nat) (r : Replica) (oldGtid newGtid value : Bytes) : Except Int Bytes :=
  if newGtid = [] ∨ value = [] then .error gtidEventFail
  else if !Master.isMaster now own r.master then .error RetCode.masterConflict.value
  else
    let data : PaxosEventData :=
      { eventGtid := newGtid
        svrid := own
        currentGtid := oldGtid
        buffer := value
        checksum := getCheckSum r.store.uuidHandler.newestInfo.checksum value }
    match cx.paxosEventData.serialize data with
    | none => .error RetCode.paxosBufferFail.value
    | some sendBuffer => .ok sendBuffer

/-- `DataManager::SendEvent`. -/
def sendEvent (now own : Nat) (r : Replica) (oldgtid newgtid eventBuffer : Bytes) :
    Except Int Bytes :=
  if eventBuffer = [] then .error RetCode.bufferFail.value
  else sendValue cx now own r oldgtid newgtid eventBuffer

/-- `PhxBinlogSvrLogic::SendBinLog`. -/
def svrSendBinLog (now own : Nat) (r : Replica) (reqBuffer : Bytes) : Except Int Bytes :=
  if reqBuffer = [] then .error RetCode.bufferFail.value
  else
    match cx.binLogBuffer.parse reqBuffer with
    | none => .error RetCode.bufferFail.value
    | some req => sendEvent cx now own r req.oldgtid req.newgtid req.eventbuffer

/-- `PhxBinlogClient::SendBinLog(oldgtid, event_buffer)` up to the call: the code that it returns
without one, or the request. -/
def clientSendBinLog (oldgtid eventBuffer : Bytes) : Except Int Bytes :=
  let parsed := parseEventList eventBuffer
  if parsed.1 ≠ .ok then .error RetCode.bufferFail.value
  else
    match cx.binLogBuffer.serialize
        { oldgtid := oldgtid, newgtid := maxGtid parsed.2, eventbuffer := eventBuffer } with
    | none => .error RetCode.bufferFail.value
    | some reqBuffer => .ok reqBuffer

/-- The call, on a replica of the node `own`. -/
def sendBinLog (now own : Nat) (r : Replica) (oldgtid eventBuffer : Bytes) : Except Int Bytes :=
  match clientSendBinLog cx oldgtid eventBuffer with
  | .error ret => .error ret
  | .ok reqBuffer => svrSendBinLog cx now own r reqBuffer

/-- What `Node::Propose` gives. -/
inductive Proposal
  | chosen (result : Int)
  | valueTooLarge
  | failed
  deriving DecidableEq, Repr

/-- `PaxosAgent::Send`: the code of the state machine is that of the call. -/
def paxosSend : Proposal → Int
  | .chosen result => result
  | .valueTooLarge => dataTooLarge
  | .failed => paxosFail

/-- What the loop of `repl_phx_report_binlog_to_binlogsvr` leaves with, if it does not send again. -/
def loopCode (ret : Int) : Option Int :=
  let ret := if ret = RetCode.eventExist.value then 0 else ret
  if 0 ≤ ret then some ret else none

variable {cx}

/-- A value is proposed only on a node that is the master, and with its checksum. -/
theorem sendValue_ok {now own : Nat} {r : Replica} {oldGtid newGtid value sendBuffer : Bytes}
    (h : sendValue cx now own r oldGtid newGtid value = .ok sendBuffer) :
    newGtid ≠ [] ∧ value ≠ [] ∧ Master.isMaster now own r.master = true ∧
      cx.paxosEventData.parse sendBuffer = some
        { eventGtid := newGtid
          svrid := own
          currentGtid := oldGtid
          buffer := value
          checksum := getCheckSum r.store.uuidHandler.newestInfo.checksum value } := by
  simp only [sendValue] at h
  split at h
  · cases h
  · rename_i hne
    split at h
    · cases h
    · rename_i hmaster
      split at h
      · cases h
      · rename_i hser
        cases h
        exact ⟨fun hgtid => hne (.inl hgtid), fun hvalue => hne (.inr hvalue), by simpa using hmaster,
          cx.paxosEventData.parse_serialize trivial hser⟩

/-- The server reads the request that the client wrote. -/
theorem svrSendBinLog_client {now own : Nat} {r : Replica} {oldgtid eventBuffer reqBuffer : Bytes}
    (h : clientSendBinLog cx oldgtid eventBuffer = .ok reqBuffer) (hne : reqBuffer ≠ []) :
    svrSendBinLog cx now own r reqBuffer =
      sendEvent cx now own r oldgtid (maxGtid (parseEventList eventBuffer).2) eventBuffer := by
  simp only [clientSendBinLog] at h
  split at h
  · cases h
  · split at h
    · cases h
    · rename_i hser
      cases h
      rw [svrSendBinLog, if_neg hne, cx.binLogBuffer.parse_serialize trivial hser]

/-- The value that is proposed for a group. -/
theorem sendBinLog_ok {now own : Nat} {r : Replica} {oldgtid eventBuffer value : Bytes}
    (h : sendBinLog cx now own r oldgtid eventBuffer = .ok value) :
    ∃ data, cx.paxosEventData.parse value = some data ∧ carriesEvent data = true ∧
      data.eventGtid = maxGtid (parseEventList eventBuffer).2 ∧ data.currentGtid = oldgtid ∧
      data.buffer = eventBuffer ∧ data.svrid = own := by
  unfold sendBinLog at h
  split at h
  · cases h
  · rename_i reqBuffer hreq
    by_cases hempty : reqBuffer = []
    · rw [svrSendBinLog, if_pos hempty] at h
      cases h
    · rw [svrSendBinLog_client hreq hempty, sendEvent] at h
      split at h
      · cases h
      · obtain ⟨hgtid, hvalue, -, hparse⟩ := sendValue_ok h
        exact ⟨_, hparse, carriesEvent_iff.mpr ⟨hvalue, hgtid⟩, rfl, rfl, rfl, rfl⟩

/-- A call that proposes nothing does not end the loop with success. -/
theorem loopCode_sendBinLog {now own : Nat} {r : Replica} {oldgtid eventBuffer : Bytes} {ret : Int}
    (h : sendBinLog cx now own r oldgtid eventBuffer = .error ret) : loopCode ret ≠ some 0 := by
  have hcodes : ret ∈ [RetCode.bufferFail.value, gtidEventFail, RetCode.masterConflict.value,
      RetCode.paxosBufferFail.value] := by
    simp only [sendBinLog, clientSendBinLog, svrSendBinLog, sendEvent, sendValue] at h
    split at h
    · rename_i hclient
      split at hclient
      · cases hclient
        cases h
        simp
      · split at hclient <;> cases hclient
        cases h
        simp
    · repeat' split at h
      all_goals
        cases h
        try simp
  simp only [List.mem_cons, List.not_mem_nil, or_false] at hcodes
  rcases hcodes with rfl | rfl | rfl | rfl <;> decide

/-- Neither does a call that fails. -/
theorem loopCode_fail {ret : Int} (h : ret < 0 ∨ ret = dataTooLarge) : loopCode ret ≠ some 0 := by
  rcases h with hneg | rfl
  · have hne : ret ≠ RetCode.eventExist.value := by
      rintro rfl
      exact absurd hneg (by decide)
    simp [loopCode, hne, Int.not_le.mpr hneg]
  · decide

/-- The loop ends with success after `OK` and after `EVENT_EXIST`. -/
theorem loopCode_eq_zero {ret : RetCode} (h : loopCode ret.value = some 0) :
    ret = .ok ∨ ret = .eventExist := by
  revert h
  cases ret with
  | ok => exact fun _ => .inl rfl
  | eventExist => exact fun _ => .inr rfl
  | _ => decide

end PhxSql.Commit
