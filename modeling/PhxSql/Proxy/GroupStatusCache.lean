import Mathlib.Logic.Function.Basic
import PhxSql.Client.PhxBinlogClient

/-!
# The proxy's view of the group

`GroupStatusCache` holds the master, with its expiry and version, and the members of the group as
the proxy last heard of them. A thread of its own asks for both again and again; every connection
asks the cache for the master when it is opened and at every buffer of its client.
-/

set_option autoImplicit false

namespace PhxSql.Proxy

open PhxSql.Proto PhxSql.Client

/-! ## Configuration -/

/-- The two ports of the proxy. -/
inductive PortKind
  | master
  | slave
  deriving DecidableEq, Repr

/-- What `PHXSqlProxyConfig` reads; a port that is not configured is 0. -/
structure ProxyConfig where
  svrIp : Bytes
  svrPort : Nat
  slavePort : Nat := 0
  masterProxyPort : Nat := 0
  slaveProxyPort : Nat := 0
  mysqlPort : Nat
  onlyProxy : Bool := false
  masterEnableReadPort : Bool := false
  tryBestIfBinlogsvrDead : Bool := false
  proxyProtocol : Bool := false
  specifiedMasterIP : Bytes := []

structure WorkerConfig where
  listenIp : Bytes
  port : Nat
  proxyPort : Nat

/-- `PHXSqlProxyConfig::ReadMasterWorkerConfig` and `ReadSlaveWorkerConfig`. -/
def ProxyConfig.workerConfig (cfg : ProxyConfig) : PortKind → WorkerConfig
  | .master =>
    { listenIp := cfg.svrIp
      port := cfg.svrPort
      proxyPort := if cfg.masterProxyPort = 0 then cfg.svrPort + 2 else cfg.masterProxyPort }
  | .slave =>
    let port := if cfg.slavePort = 0 then cfg.svrPort + 1 else cfg.slavePort
    { listenIp := cfg.svrIp
      port := port
      proxyPort := if cfg.slaveProxyPort = 0 then port + 2 else cfg.slaveProxyPort }

/-- The address the proxy listens on is that of both ports. -/
@[simp] theorem ProxyConfig.listenIp_workerConfig (cfg : ProxyConfig) (kind : PortKind) :
    (cfg.workerConfig kind).listenIp = cfg.svrIp := by
  cases kind <;> rfl

/-! ## The cache -/

structure MasterStatus where
  masterIp : Bytes := []
  expiredTime : Nat := 0
  version : Nat := 0

structure GroupStatusCache where
  masterStatus : MasterStatus := {}
  membership : List Bytes := []
  lastFailure : Bytes → Nat := fun _ => 0

/-- `GroupStatusCache::IsMasterValid`. -/
def isMasterValid (masterIp : Bytes) (expiredTime now : Nat) : Bool :=
  decide (masterIp ≠ [] ∧ ¬ expiredTime < now % 2 ^ 32)

/-- `GroupStatusCache::GetMaster`. -/
def GroupStatusCache.getMaster (cfg : ProxyConfig) (now : Nat) (c : GroupStatusCache) :
    Option Bytes :=
  if cfg.specifiedMasterIP ≠ [] then some cfg.specifiedMasterIP
  else if isMasterValid c.masterStatus.masterIp c.masterStatus.expiredTime now then
    some c.masterStatus.masterIp
  else none

/-- The master that `UpdateMasterStatus` hears of: from the binlog server of this machine, or from
those of the others if that one is dead, unless they name this machine. -/
def heardMaster (cfg : ProxyConfig) (c : GroupStatusCache) (answer global : Option GlobalMaster) :
    Option GlobalMaster :=
  match answer with
  | some heard => some heard
  | none =>
    if cfg.tryBestIfBinlogsvrDead = false ∨ c.membership = [] then none
    else global.bind fun heard => if heard.ip = cfg.svrIp then none else some heard

/-- `GroupStatusCache::UpdateMasterStatus`; the arguments are what `GetMaster` and `GetGlobalMaster`
give, none where they fail. -/
def GroupStatusCache.updateMasterStatus (cfg : ProxyConfig) (now : Nat)
    (answer global : Option GlobalMaster) (c : GroupStatusCache) : GroupStatusCache :=
  if cfg.specifiedMasterIP ≠ [] then c
  else
    match heardMaster cfg c answer global with
    | none => c
    | some heard =>
      if isMasterValid heard.ip heard.expireTime now = false then c
      else if heard.version < c.masterStatus.version then c
      -- At the same version an earlier expiry replaces a later one, not the other way round.
      else if c.masterStatus.version < heard.version ∨
          heard.expireTime < c.masterStatus.expiredTime then
        { c with masterStatus := ⟨heard.ip, heard.expireTime, heard.version⟩ }
      else c

/-- `GroupStatusCache::UpdateMembership`; none where `GetMemberList` fails. -/
def GroupStatusCache.updateMembership (answer : Option (List Bytes)) (c : GroupStatusCache) :
    GroupStatusCache :=
  match answer with
  | none => c
  | some members => if members = [] then c else { c with membership := members }

/-- `GroupStatusCache::IsMember`. -/
def GroupStatusCache.isMember (ip : Bytes) (c : GroupStatusCache) : Bool :=
  c.membership.contains ip

/-- The loop of `GroupStatusCache::GetSlave`: the slave chosen so far and the time of its last
failure. -/
def chooseSlave (lastFailure : Bytes → Nat) (masterIp : Bytes) :
    List Bytes → Bytes × Nat → Bytes
  | [], chosen => chosen.1
  | ip :: ips, chosen =>
    if ip ≠ masterIp ∧ (chosen.1 = [] ∨ lastFailure ip < chosen.2) then
      chooseSlave lastFailure masterIp ips (ip, lastFailure ip)
    else chooseSlave lastFailure masterIp ips chosen

/-- `GroupStatusCache::GetSlave`. -/
def GroupStatusCache.getSlave (masterIp : Bytes) (c : GroupStatusCache) : Option Bytes :=
  let slave := chooseSlave c.lastFailure masterIp c.membership ([], 0)
  if slave ≠ [] then some slave else none

/-- `GroupStatusCache::MarkFailure` at a time. -/
def GroupStatusCache.markFailure (ip : Bytes) (time : Nat) (c : GroupStatusCache) :
    GroupStatusCache :=
  { c with lastFailure := Function.update c.lastFailure ip time }

/-! ## The chosen slave -/

theorem chooseSlave_ne {lastFailure : Bytes → Nat} {masterIp : Bytes} (ips : List Bytes) :
    ∀ chosen : Bytes × Nat, chosen.1 = [] ∨ chosen.1 ≠ masterIp →
      chooseSlave lastFailure masterIp ips chosen = [] ∨
        chooseSlave lastFailure masterIp ips chosen ≠ masterIp := by
  induction ips with
  | nil => exact fun chosen h => h
  | cons ip ips ih =>
    intro chosen h
    unfold chooseSlave
    split
    · next hip => exact ih _ (.inr hip.1)
    · exact ih _ h

/-- The slave is not the master. -/
theorem GroupStatusCache.getSlave_ne {c : GroupStatusCache} {masterIp slave : Bytes}
    (h : c.getSlave masterIp = some slave) : slave ≠ masterIp := by
  simp only [getSlave] at h
  split at h
  · next hne =>
    cases h
    exact (chooseSlave_ne c.membership ([], 0) (.inl rfl)).resolve_left hne
  · cases h

end PhxSql.Proxy
