import Mathlib.Data.Fintype.Card
import Mathlib.Data.List.FinRange
import PhxSql.Gtid.GtidHandler

/-!
# Reads from all members

`PhxBinlogClient::GetGlobalMaster` and `GetGlobalLastSendGtid` ask every member and combine the
answers. `PhxBinlogStub_PhxRPC::RpcCallWithIPList` runs the calls side by side: every answer starts
as a failure, an answer that arrives replaces it, and when more than half of the calls have
succeeded the others are closed. The client functions then go through the answers in the order of
the member list.

Both functions are one loop over the answers (`collectAnswers`) with their own way to decode an
answer and to keep the best one. Protobuf's parser for the answer is a parameter.
-/

set_option autoImplicit false

namespace PhxSql.Client

open PhxSql.Proto PhxSql.Gtid

/-! ## The calls -/

/-- A call that gets a connection to its member and then returns. -/
structure Completion (n : Nat) where
  index : Fin n
  value : Bytes
  ret : Int

/-- The calls that return, in the order in which they do. Each member is called once. -/
structure RpcRun (n : Nat) where
  completions : List (Completion n)
  once : (completions.map Completion.index).Nodup

/-- The variables of `RpcCallWithIPList` that the calls share. -/
structure RpcState (n : Nat) where
  responses : Fin n → Bytes × Int := fun _ => ([], -202)
  successCount : Nat := 0
  closed : Bool := false

/-- A call returns. After `Close` no call does. -/
def rpcComplete {n : Nat} (st : RpcState n) (c : Completion n) : RpcState n :=
  if st.closed then st
  else
    let responses := Function.update st.responses c.index (c.value, c.ret)
    if c.ret = 0 then
      let successCount := st.successCount + 1
      { responses := responses
        successCount := successCount
        closed := decide (n < successCount * 2 % 2 ^ 64) }
    else
      { st with responses := responses }

/-- `PhxBinlogStub_PhxRPC::RpcCallWithIPList`: the answers, by place in the member list. It returns
0 in every case. -/
def rpcCallWithIPList {n : Nat} (run : RpcRun n) : Fin n → Bytes × Int :=
  (run.completions.foldl rpcComplete {}).responses

/-! ## Combining the answers -/

/-- The variables of the loop over the answers. -/
structure Collected (α : Type) where
  ret : Int := 0
  okNum : Nat := 0
  found : α

/-- The body of the loop over the answers. -/
def collectAnswer {n : Nat} {α β : Type} (decode : Fin n → Bytes → Option β) (keep : α → β → α)
    (responses : Fin n → Bytes × Int) (c : Collected α) (i : Fin n) : Collected α :=
  if (responses i).2 ≠ 0 then
    { c with ret := (responses i).2 }
  else
    match decode i (responses i).1 with
    | none => { c with ret := RetCode.bufferFail.value }
    | some answer =>
      { c with okNum := (c.okNum + 1) % 2 ^ 32, found := keep c.found answer }

def collectAnswers {n : Nat} {α β : Type} (decode : Fin n → Bytes → Option β) (keep : α → β → α)
    (responses : Fin n → Bytes × Int) (found : α) : Collected α :=
  (List.finRange n).foldl (collectAnswer decode keep responses) { found := found }

/-- `(ok_num << 1) >= iplist.size()`. -/
def enoughAnswers (n okNum : Nat) : Prop :=
  n ≤ okNum * 2 % 2 ^ 32

instance (n okNum : Nat) : Decidable (enoughAnswers n okNum) :=
  inferInstanceAs (Decidable (n ≤ okNum * 2 % 2 ^ 32))

/-! ## The client -/

/-- The message `MasterInfo` of the RPC protocol. -/
structure RpcMasterInfo where
  ip : Bytes
  expireTime : Nat
  version : Nat
  updateTime : Nat := 0
  currentTime : Nat := 0
  deriving DecidableEq, Repr

/-- What `GetGlobalMaster` gives to its caller, who also passes the values to start from. -/
structure GlobalMaster where
  ip : Bytes := []
  expireTime : Nat := 0
  version : Nat := 0
  deriving DecidableEq, Repr

variable (parse : Bytes → Option RpcMasterInfo)

/-- `PhxBinlogClient::DecodeMasterInfo`; `now` are the times its two clock reads give. -/
def decodeMasterInfo (now : Nat × Nat) (buffer : Bytes) : Option GlobalMaster :=
  (parse buffer).map fun info =>
    let deltaTime :=
      if info.currentTime ≠ 0 then (info.expireTime + 2 ^ 32 - info.currentTime) % 2 ^ 32
      else (info.expireTime + 2 ^ 32 - now.1 % 2 ^ 32) % 2 ^ 32
    { ip := info.ip
      expireTime :=
        if info.updateTime = 0 then info.expireTime else (now.2 + deltaTime) % 2 ^ 32
      version := info.version }

/-- The answer with the larger version stays, and for one version that with the earlier time. -/
def newerMaster (found answer : GlobalMaster) : GlobalMaster :=
  if found.version < answer.version ∨
      (answer.version = found.version ∧ answer.expireTime < found.expireTime) then answer
  else found

/-- `PhxBinlogClient::GetGlobalMaster` on the answers of the members. -/
def getGlobalMaster {n : Nat} (now : Fin n → Nat × Nat) (responses : Fin n → Bytes × Int)
    (requireMajority : Bool) (found : GlobalMaster) : Int × GlobalMaster :=
  let c := collectAnswers (fun i => decodeMasterInfo parse (now i)) newerMaster responses found
  if (requireMajority = false ∧ 0 < c.okNum) ∨ enoughAnswers n c.okNum then
    (RetCode.ok.value, c.found)
  else
    -- The loop that reports the failures sets the code once more.
    ((List.finRange n).foldl
      (fun ret i => if (responses i).2 ≠ 0 then (responses i).2 else ret) c.ret, c.found)

/-- The later of two GTIDs by `GTIDCmp`. -/
def laterGtid (found answer : Bytes) : Bytes :=
  if gtidRank found < gtidRank answer then answer else found

/-- `PhxBinlogClient::GetGlobalLastSendGtid` on the answers of the members. -/
def getGlobalLastSendGtid {n : Nat} (responses : Fin n → Bytes × Int) (lastSendGtid : Bytes) :
    Int × Bytes :=
  let c := collectAnswers (fun _ => some) laterGtid responses lastSendGtid
  if enoughAnswers n c.okNum then (RetCode.ok.value, c.found) else (c.ret, c.found)

end PhxSql.Client
