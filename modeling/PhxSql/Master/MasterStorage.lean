import PhxSql.Proto.Messages

/-!
# The master record of one node

`MasterStorage`, the parts of `MasterManager` and `MasterAgent` that compute on a `MasterInfo`, and
`MasterExecuter`. The clock (`time(NULL)`), the node's own server id and the value of
`GetExtLeaseTime` are arguments. `time(NULL)` is a 64-bit time and `expire_time`, `update_time` and
`lease` are `uint32` fields, so a stored time is taken modulo `2 ^ 32` and a comparison with the
clock is not.

The record of two nodes that executed the same values differs in `expire_time` only. `erase` forgets
that field, and the lemmas at the end say that no decision of `setMaster` depends on it.
-/

set_option autoImplicit false

namespace PhxSql.Master

open PhxSql.Proto

/-- `MasterStorage::IsTimeOut`. -/
def isTimeOut (now : Nat) (info : MasterInfo) : Bool :=
  decide (info.expireTime < now)

/-- `MasterStorage::SetMaster` on the stored record `master`. -/
def setMaster (master info : MasterInfo) : RetCode × MasterInfo :=
  -- A record that names no server gives way to any message.
  if master.svrId = 0 ∨ (master.instanceId < info.instanceId ∧ master.version ≤ info.version) then
    (.ok, { info with version := (info.version + 1) % 2 ^ 64 })
  else
    (.masterVersionConflict, master)

/-- `MasterStorage::CheckMasterBySvrID`. -/
def checkMasterBySvrID (now : Nat) (master : MasterInfo) (svrid : Nat) (checkTimeout : Bool) : Bool :=
  if 0 < master.svrId then
    master.svrId == svrid && (!checkTimeout || (checkTimeout && !isTimeOut now master))
  else
    false

/-- `MasterStorage::LoadFromCheckPoint`. -/
def loadFromCheckPoint (now leaseTime extLeaseTime : Nat) (master info : MasterInfo) : MasterInfo :=
  if 0 < info.version then
    { info with expireTime := (now + leaseTime + extLeaseTime) % 2 ^ 32 }
  else
    master

/-- `MasterManager::IsMaster()`: the node `own` holds an unexpired record that names it. -/
def isMaster (now own : Nat) (master : MasterInfo) : Bool :=
  checkMasterBySvrID now master own true

/-- `MasterManager::IsMaster(info)`, on a copy of the record. -/
def isMasterInfo (now own : Nat) (info : MasterInfo) : Bool :=
  info.svrId == own && !isTimeOut now info

/-- `MasterManager::GenMasterInfoByLocal`. -/
def genMasterInfoByLocal (port svrId : Nat) (master : MasterInfo) : MasterInfo :=
  { master with port := some port, svrId := svrId }

/-- The first half of `MasterAgent::SetMaster(master_ip, export_ip, port)`: the message built from
the local record before the lease check. `SetExportIP` passes an address, the monitor passes none.
-/
def setMasterInfo (port own : Nat) (exportAddr : Option (Bytes × Nat)) (master : MasterInfo) :
    MasterInfo :=
  match exportAddr with
  | some (ip, exportPort) =>
    { genMasterInfoByLocal port own master with exportIp := ip, exportPort := exportPort }
  | none => genMasterInfoByLocal port own master

/-- `MasterManager::SetMySqlAdminInfo`; `created` is the result of creating the account in MySQL. -/
def setMySqlAdminInfo (now own : Nat) (created : RetCode) (user : UserInfo) (info : MasterInfo) :
    RetCode × MasterInfo :=
  if !isMasterInfo now own info then (.masterConflict, info)
  else if created = .ok then
    (.ok, { info with adminUserinfo := info.adminUserinfo ++ [user] })
  else (created, info)

/-- `MasterManager::SetMySqlReplicaInfo`. -/
def setMySqlReplicaInfo (now own : Nat) (created : RetCode) (user : UserInfo) (info : MasterInfo) :
    RetCode × MasterInfo :=
  if !isMasterInfo now own info then (.masterConflict, info)
  else if created = .ok then
    (.ok, { info with replicaUserinfo := info.replicaUserinfo ++ [user] })
  else (created, info)

/-- The lease check at the head of `MasterAgent::SetMaster(info)`. -/
def leaseCheck (now own : Nat) (master info : MasterInfo) : Bool :=
  isTimeOut now info || isMaster now own master

/-- The fields `MasterAgent::SetMaster(info)` sets before it sends the message. -/
def stamp (now leaseTime : Nat) (info : MasterInfo) : MasterInfo :=
  { info with updateTime := now % 2 ^ 32, lease := leaseTime, expireTime := 0 }

/-- What the other side parses from a sent message: a message without its required field `port` does
not parse. -/
def received (info : MasterInfo) : Option MasterInfo :=
  if info.port.isSome then some info else none

/-- The record `MasterExecuter::SMExecute` hands to `SetMaster`: the instance id is set, and the
expiry of a new set is computed from the sender's time at the node it names and from the local time
and a random extension at every other node. -/
def executedInfo (now rand own instanceId : Nat) (info : MasterInfo) : MasterInfo :=
  { info with
    instanceId := instanceId
    expireTime :=
      if info.expireTime = 0 then
        if info.svrId = own then (info.updateTime + info.lease) % 2 ^ 32
        else (now + info.lease + rand) % 2 ^ 32
      else info.expireTime }

/-- `MasterExecuter::SMExecute` after parsing. -/
def executeMasterInfo (now rand own instanceId : Nat) (master info : MasterInfo) :
    RetCode × MasterInfo :=
  setMaster master (executedInfo now rand own instanceId info)

/-- `MasterExecuter::SMExecute` on what the paxos value parses to. -/
def smExecute (now rand own instanceId : Nat) (parsed : Option MasterInfo) (master : MasterInfo) :
    RetCode × MasterInfo :=
  match parsed with
  | none => (.bufferFail, master)
  | some info => executeMasterInfo now rand own instanceId master info

/-! ## The record without its expiry -/

/-- The record with `expire_time` forgotten. -/
def erase (info : MasterInfo) : MasterInfo :=
  { info with expireTime := 0 }

@[simp] theorem erase_svrId (m : MasterInfo) : (erase m).svrId = m.svrId := rfl
@[simp] theorem erase_version (m : MasterInfo) : (erase m).version = m.version := rfl
@[simp] theorem erase_instanceId (m : MasterInfo) : (erase m).instanceId = m.instanceId := rfl
@[simp] theorem erase_updateTime (m : MasterInfo) : (erase m).updateTime = m.updateTime := rfl
@[simp] theorem erase_lease (m : MasterInfo) : (erase m).lease = m.lease := rfl
@[simp] theorem erase_adminUserinfo (m : MasterInfo) :
    (erase m).adminUserinfo = m.adminUserinfo := rfl
@[simp] theorem erase_replicaUserinfo (m : MasterInfo) :
    (erase m).replicaUserinfo = m.replicaUserinfo := rfl
@[simp] theorem erase_erase (m : MasterInfo) : erase (erase m) = erase m := rfl
@[simp] theorem erase_default : erase {} = {} := rfl

/-- The test `setMaster` makes. -/
def Accepts (master info : MasterInfo) : Prop :=
  master.svrId = 0 ∨ (master.instanceId < info.instanceId ∧ master.version ≤ info.version)

instance (master info : MasterInfo) : Decidable (Accepts master info) := by
  unfold Accepts
  infer_instance

/-- The record `setMaster` stores when it accepts. -/
def bump (info : MasterInfo) : MasterInfo :=
  { info with version := (info.version + 1) % 2 ^ 64 }

theorem setMaster_of_accepts {master info : MasterInfo} (h : Accepts master info) :
    setMaster master info = (.ok, bump info) :=
  if_pos h

theorem setMaster_of_not_accepts {master info : MasterInfo} (h : ¬ Accepts master info) :
    setMaster master info = (.masterVersionConflict, master) :=
  if_neg h

theorem erase_bump (info : MasterInfo) : erase (bump info) = bump (erase info) := rfl

theorem accepts_erase_iff {m m' info info' : MasterInfo} (hm : erase m = erase m')
    (hi : erase info = erase info') : Accepts m info ↔ Accepts m' info' := by
  have h1 := congrArg MasterInfo.svrId hm
  have h2 := congrArg MasterInfo.instanceId hm
  have h3 := congrArg MasterInfo.version hm
  have h4 := congrArg MasterInfo.instanceId hi
  have h5 := congrArg MasterInfo.version hi
  simp only [erase_svrId, erase_instanceId, erase_version] at h1 h2 h3 h4 h5
  simp only [Accepts, h1, h2, h3, h4, h5]

/-- `setMaster` decides without looking at an expiry. -/
theorem setMaster_erase_congr {m m' info info' : MasterInfo} (hm : erase m = erase m')
    (hi : erase info = erase info') :
    (setMaster m info).1 = (setMaster m' info').1 ∧
      erase (setMaster m info).2 = erase (setMaster m' info').2 := by
  -- Both sides accept or both refuse, since the test reads ids and versions only.
  by_cases h : Accepts m info
  · have h' := (accepts_erase_iff hm hi).mp h
    rw [setMaster_of_accepts h, setMaster_of_accepts h']
    exact ⟨rfl, by rw [erase_bump, erase_bump, hi]⟩
  · have h' := fun hc => h ((accepts_erase_iff hm hi).mpr hc)
    rw [setMaster_of_not_accepts h, setMaster_of_not_accepts h']
    exact ⟨rfl, hm⟩

/-- The executed record is the same on every node, apart from its expiry. -/
theorem erase_executedInfo (now rand own now' rand' own' instanceId : Nat) (info : MasterInfo) :
    erase (executedInfo now rand own instanceId info) =
      erase (executedInfo now' rand' own' instanceId info) := rfl

/-- Two nodes with the same record up to the expiry decide alike on the same value. -/
theorem smExecute_erase_congr (now rand own now' rand' own' instanceId : Nat)
    (parsed : Option MasterInfo) {m m' : MasterInfo} (hm : erase m = erase m') :
    (smExecute now rand own instanceId parsed m).1 =
        (smExecute now' rand' own' instanceId parsed m').1 ∧
      erase (smExecute now rand own instanceId parsed m).2 =
        erase (smExecute now' rand' own' instanceId parsed m').2 := by
  cases parsed with
  | none => exact ⟨rfl, hm⟩
  | some info => exact setMaster_erase_congr hm (erase_executedInfo ..)

theorem checkMasterBySvrID_false {now : Nat} {master : MasterInfo} {svrid : Nat} :
    checkMasterBySvrID now master svrid false = true ↔ 0 < master.svrId ∧ master.svrId = svrid := by
  unfold checkMasterBySvrID
  split <;> simp_all

theorem isMaster_iff {now own : Nat} {master : MasterInfo} :
    isMaster now own master = true ↔
      0 < master.svrId ∧ master.svrId = own ∧ now ≤ master.expireTime := by
  unfold isMaster checkMasterBySvrID isTimeOut
  split <;> simp_all

theorem isMasterInfo_iff {now own : Nat} {info : MasterInfo} :
    isMasterInfo now own info = true ↔ info.svrId = own ∧ now ≤ info.expireTime := by
  simp [isMasterInfo, isTimeOut]

end PhxSql.Master
