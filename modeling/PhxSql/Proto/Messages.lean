import Mathlib.Algebra.Group.Nat.Defs
import Mathlib.Data.List.Basic

/-!
# Messages and return codes

The protobuf messages of `phxbinlogsvr/proto` and the return codes of `errordef.h`. A C++ string is
a byte string. Integer fields are natural numbers; the range of their C++ type is stated where a
computation could leave it. The `required` field `port` of `MasterInfo` is an option because a
default-constructed message lacks it and then does not parse; an `optional` field has its default
value where the C++ getter would return it.
-/

set_option autoImplicit false

namespace PhxSql.Proto

/-- A C++ `std::string`. -/
abbrev Bytes := List UInt8

instance : LawfulBEq Bytes :=
  inferInstanceAs (LawfulBEq (List UInt8))

structure UserInfo where
  username : Bytes
  pwd : Bytes
  deriving DecidableEq, Repr

structure MasterInfo where
  port : Option Nat := none
  version : Nat := 0
  svrId : Nat := 0
  updateTime : Nat := 0
  expireTime : Nat := 0
  lease : Nat := 0
  instanceId : Nat := 0
  exportIp : Bytes := []
  exportPort : Nat := 0
  adminUserinfo : List UserInfo := []
  replicaUserinfo : List UserInfo := []
  deriving DecidableEq, Repr

/-- A record of an event file: an event, or a header or footer, which has an empty `gtid`. -/
structure EventData where
  gtid : Bytes := []
  data : Bytes := []
  checksum : Nat := 0
  instanceId : Nat := 0
  masterData : Bytes := []
  eventDataFile : Bytes := []
  deriving DecidableEq, Repr

/-- Where an event is stored, with the fields the executers read. -/
structure EventDataInfo where
  gtid : Bytes := []
  fileName : Bytes := []
  offset : Nat := 0
  checksum : Nat := 0
  instanceId : Nat := 0
  deriving DecidableEq, Repr

/-- The value the event state machine executes. -/
structure PaxosEventData where
  currentGtid : Bytes := []
  eventGtid : Bytes := []
  svrid : Nat := 0
  buffer : Bytes := []
  checksum : Nat := 0
  deriving DecidableEq, Repr

/-- The return codes of `errordef.h` that the modelled functions return. -/
inductive RetCode
  | ok
  | dataEmpty
  | fileFail
  | svrFail
  | paxosBufferFail
  | bufferFail
  | gtidFail
  | gtidConflict
  | eventParseFail
  | masterConflict
  | eventExist
  | masterVersionConflict
  | dataErr
  | fileForbidden
  | noFiles
  | reqInvalid
  | socketFail
  | svrIdConfit
  deriving DecidableEq, Repr

/-- The numeric value of a return code. -/
def RetCode.value : RetCode → Int
  | .ok => 0
  | .dataEmpty => 1
  | .fileFail => -2001
  | .svrFail => -1
  | .paxosBufferFail => 400
  | .bufferFail => 500
  | .gtidFail => 501
  | .gtidConflict => 503
  | .eventParseFail => 1000
  | .masterConflict => 2000
  | .eventExist => 3000
  | .masterVersionConflict => 4000
  | .dataErr => 5003
  | .fileForbidden => 8001
  | .noFiles => 8002
  | .reqInvalid => 202
  | .socketFail => -3000
  | .svrIdConfit => 2002

end PhxSql.Proto
