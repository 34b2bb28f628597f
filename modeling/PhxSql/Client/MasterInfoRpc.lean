import PhxSql.Client.PhxBinlogClient
import PhxSql.Master.MasterStorage
import PhxSql.Proto.Wire
import PhxSql.Proxy.InetText

/-!
# Asking for the master

A binlog server answers `GetMasterInfoFromLocal` from its own record and `GetMasterInfoFromGlobal`
from the answers of all members, which it asks itself. Both answers are the message `MasterInfo` of
the RPC protocol. The version of a record has 64 bits and that of an answer 32.
-/

set_option autoImplicit false

namespace PhxSql.Client

open PhxSql.Proto PhxSql.Lib PhxSql.Master PhxSql.Proxy

/-- `MASTER_PREPARING`. -/
def masterPreparing : Int := -1003

/-- `Utils::GetIP`. -/
def getIP (svrid : Nat) : Bytes :=
  dotted ([2 ^ 24, 2 ^ 16, 2 ^ 8, 1].map fun unit => UInt8.ofNat (svrid / unit))

/-- `MasterManager::GetMasterInfo(ip, update_time, expire_time, version)` and
`PhxBinlogSvrLogic::RealGetLocalMasterInfo`; `changing` is the answer of `IsMasterChanging`. A node
that its own record names does not answer while it is not ready. -/
def realGetLocalMasterInfo (now own : Nat) (changing : Bool) (master : MasterInfo) :
    Except Int RpcMasterInfo :=
  if isMaster now own master ∧ changing then .error masterPreparing
  else
    .ok
      { ip := getIP master.svrId
        expireTime := master.expireTime
        version := master.version % 2 ^ 32
        updateTime := master.updateTime
        currentTime := now % 2 ^ 32 }

/-- `PhxBinlogSvrLogic::RealGetMasterInfo` on what `GetGlobalMaster` gives. The times of update and
of answering are not passed on. -/
def realGetMasterInfo (result : Int × GlobalMaster) : Except Int RpcMasterInfo :=
  if result.1 = 0 then
    .ok { ip := result.2.ip, expireTime := result.2.expireTime, version := result.2.version }
  else .error result.1

section Calls

variable (codec : Codec RpcMasterInfo fun _ => True)

/-- What an RPC gives to its caller: `GetMasterInfoFromLocal` and `GetMasterInfoFromGlobal` of
`PhxBinlogSvrLogic` on the message or the code of the function they call. -/
def answerOf (result : Except Int RpcMasterInfo) : Bytes × Int :=
  match result with
  | .error ret => ([], ret)
  | .ok info =>
    match codec.serialize info with
    | some buffer => (buffer, 0)
    | none => ([], RetCode.bufferFail.value)

/-- `PhxBinlogClient::GetMaster` on the answer of the binlog server; none where it fails. -/
def getMaster (now : Nat × Nat) (answer : Bytes × Int) : Option GlobalMaster :=
  if answer.2 = 0 then decodeMasterInfo codec.parse now answer.1 else none

variable {codec}

/-- A successful answer parses to the message it was made from. -/
theorem parse_answerOf {result : Except Int RpcMasterInfo}
    (h : (answerOf codec result).2 = 0) (hret : ∀ ret, result = .error ret → ret ≠ 0) :
    ∃ info, result = .ok info ∧ codec.parse (answerOf codec result).1 = some info := by
  cases result with
  | error ret => exact absurd h (hret ret rfl)
  | ok info =>
    cases hser : codec.serialize info with
    | none =>
      simp only [answerOf, hser] at h
      exact absurd h (by decide)
    | some buffer =>
      refine ⟨info, rfl, ?_⟩
      simp only [answerOf, hser]
      exact codec.parse_serialize trivial hser

/-- What a proxy reads from the answer of its binlog server is what this one found. -/
theorem getMaster_answerOf {now : Nat × Nat} {result : Int × GlobalMaster} {heard : GlobalMaster}
    (h : getMaster codec now (answerOf codec (realGetMasterInfo result)) = some heard) :
    result.1 = 0 ∧ heard = result.2 := by
  simp only [getMaster, Option.ite_none_right_eq_some] at h
  obtain ⟨hanswer, hdecode⟩ := h
  obtain ⟨info, hinfo, hparse⟩ := parse_answerOf hanswer (by
    intro ret herr hzero
    simp only [realGetMasterInfo] at herr
    split at herr
    · cases herr
    · next hne => exact hne (by cases herr; exact hzero))
  simp only [realGetMasterInfo] at hinfo
  split at hinfo
  · next hzero =>
    cases hinfo
    -- No time of update was set, so the expiry is taken as it is.
    simp only [decodeMasterInfo, hparse, Option.map_some, if_true, Option.some.injEq] at hdecode
    exact ⟨hzero, hdecode.symm⟩
  · cases hinfo

end Calls

/-! ## The message on the wire -/

def RpcMasterInfo.fields (m : RpcMasterInfo) : List WireField :=
  [{ num := 1, value := .bytes m.ip }, { num := 2, value := .varint m.expireTime },
    { num := 3, value := .varint m.version }] ++ (optUint 4 m.updateTime ++ optUint 5 m.currentTime)

def RpcMasterInfo.ofFields (fs : List WireField) : Option RpcMasterInfo :=
  match bytesField 1 fs, uintField 2 fs, uintField 3 fs with
  | some ip, some expireTime, some version =>
    some
      { ip := ip
        expireTime := expireTime % 2 ^ 32
        version := version % 2 ^ 32
        updateTime := (uintField 4 fs).getD 0 % 2 ^ 32
        currentTime := (uintField 5 fs).getD 0 % 2 ^ 32 }
  | _, _, _ => none

/-- The numbers that C++ stores in 32 bits. -/
def RpcMasterInfo.inRange (m : RpcMasterInfo) : Bool :=
  decide (m.expireTime < 2 ^ 32 ∧ m.version < 2 ^ 32 ∧ m.updateTime < 2 ^ 32 ∧
    m.currentTime < 2 ^ 32)

theorem RpcMasterInfo.ofFields_fields {m : RpcMasterInfo} (h : m.inRange = true) :
    RpcMasterInfo.ofFields m.fields = some m := by
  obtain ⟨h₁, h₂, h₃, h₄⟩ := of_decide_eq_true h
  obtain ⟨ip, expireTime, version, updateTime, currentTime⟩ := m
  simp only at h₁ h₂ h₃ h₄
  simp [RpcMasterInfo.ofFields, RpcMasterInfo.fields, bytesField, uintField,
    getLast?_optional_uint]
  omega

theorem RpcMasterInfo.read_fields (m : RpcMasterInfo) (_ : True) (h : m.inRange = true) :
    RpcMasterInfo.ofFields m.fields = some m :=
  RpcMasterInfo.ofFields_fields h

/-- Protobuf, for the answers. -/
def rpcCodec : Codec RpcMasterInfo fun _ => True :=
  wireCodec RpcMasterInfo.fields RpcMasterInfo.ofFields RpcMasterInfo.inRange
    RpcMasterInfo.read_fields

end PhxSql.Client
