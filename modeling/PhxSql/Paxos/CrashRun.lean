import PhxSql.Lib.Transition
import PhxSql.Paxos.ReplicatedLog
import PhxSql.Proto.Wire
import PhxSql.Store.Recovery

/-!
# Runs of a replica with crashes

A process executes a fixed sequence of chosen instances, one after another. A crash can come between
two instances or at any point of the writes of the next one; it leaves the directory as it is then,
and the new process loads the newest checkpoint and executes again every instance after it. The
state is that of the process and the number of instances it has executed.

Nothing that a restart computes depends on the index, so a crash may leave any index.
-/

set_option autoImplicit false

namespace PhxSql.Paxos

open PhxSql.Proto PhxSql.Store PhxSql.Lib PhxSql.Lib.Transition

/-- What the processes of one replica have in common. -/
structure CrashConfig where
  engineSvrID : Nat
  maxEventFileSize : Nat
  leaseTime : Nat
  extLeaseTime : Nat

/-- The configuration, and the clock and random extension of one step. -/
def CrashConfig.localEnv (cfg : CrashConfig) (now rand : Nat) : LocalEnv where
  engineSvrID := cfg.engineSvrID
  maxEventFileSize := cfg.maxEventFileSize
  now := fun _ => now
  extLeaseTime := fun _ => rand

/-- A running process and the number of instances it has executed. -/
structure Process where
  replica : Replica := {}
  executed : Nat := 0

inductive ProcessAction
  /-- The next instance is executed. -/
  | execute (now rand : Nat)
  /-- The process dies after `k` writes of the next instance and `t` bytes of the write after them, and
  a new one is started at the time `now`. -/
  | crash (k t : Nat) (index : EventIndex) (now : Nat)

variable (cx : Codecs)

/-- The writes that executing an instance makes. -/
def entryWrites (maxSize : Nat) (e : Entry) (r : Replica) : List DiskWrite :=
  match e.sm with
  | .event =>
    match eventVerdict r.master r.store.uuidHandler.newestInfo (cx.paxosEventData.parse e.value) with
    | .error _ => []
    | .ok data =>
      addEventWrites cx maxSize r.master r.store data.eventGtid
        (savedEvent e.instanceId.toNat data)
  | .master => []

/-- The writes of the instance a process executes next. -/
def Process.writes (cfg : CrashConfig) (es : List Entry) (p : Process) : List DiskWrite :=
  match es[p.executed]? with
  | none => []
  | some e => entryWrites cx cfg.maxEventFileSize e p.replica

/-- The directory that a crash leaves. -/
def Process.crashedDisk (cfg : CrashConfig) (es : List Entry) (p : Process) (k t : Nat) : Disk :=
  diskWrites.crashed p.replica.store.disk (p.writes cx cfg es) k t

/-- The number of instances that are not executed again: those up to `GetCheckpointInstanceID`, none
if it is `-1`. -/
def replayStart (es : List Entry) (checkpointId : Nat) : Nat :=
  if checkpointId = 2 ^ 64 - 1 then 0
  else es.countP fun e => e.instanceId.toNat ≤ checkpointId

/-- A new process on a directory and an index. -/
def restart (cfg : CrashConfig) (es : List Entry) (now : Nat) (index : EventIndex) (d : Disk) :
    Option Process :=
  (StorageManager.loadFromCheckPoint cx d index now cfg.leaseTime cfg.extLeaseTime).map fun m =>
    { replica := { master := m.master, store := m.eventStorage }
      executed := replayStart es m.eventStorage.checkpointId }

/-- The runs of a replica that executes these instances. -/
def crashSystem (cfg : CrashConfig) (es : List Entry) : System Process ProcessAction where
  init := {}
  step p a := match a with
    | .execute now rand =>
      es[p.executed]?.map fun e =>
        { replica := (execute cx (cfg.localEnv now rand) 0 e p.replica).2
          executed := p.executed + 1 }
    | .crash k t index now => restart cx cfg es now index (p.crashedDisk cx cfg es k t)

/-- The same stored events, newest GTID and checksum, last GTID for every UUID, and master. -/
structure SameState (r r' : Replica) : Prop where
  events : storedEvents cx r.store = storedEvents cx r'.store
  newest : r.store.uuidHandler.newestInfo.gtid = r'.store.uuidHandler.newestInfo.gtid ∧
    r.store.uuidHandler.newestInfo.checksum = r'.store.uuidHandler.newestInfo.checksum
  last : ∀ uuid, (r.store.uuidHandler.mapUuid.find? uuid).map EventDataInfo.gtid =
    (r'.store.uuidHandler.mapUuid.find? uuid).map EventDataInfo.gtid
  master : r.master.svrId = r'.master.svrId ∧ r.master.version = r'.master.version

end PhxSql.Paxos
