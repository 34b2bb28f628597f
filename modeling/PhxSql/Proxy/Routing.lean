import PhxSql.Proxy.IORoutine

/-!
# Where a client's buffers go while the master changes

A connection keeps the destination that was chosen when it was opened; the channel compares it with
the cached master at every buffer. The channel of the master port translates the loopback address to
the address of this machine before it compares, so it passes on a buffer only to the cached master.
The channel of the slave port compares the loopback address as it is: a connection to the MySQL of
this machine goes on when this machine has become the master (`Misrouted`), and only then.
-/

set_option autoImplicit false

namespace PhxSql.Proxy

open PhxSql.Proto PhxSql.Client PhxSql.Lib

variable (cfg : ProxyConfig) (filter : Bool → Bytes → Bytes → Bool)

/-! ## Destinations -/

/-- The machine a connection goes to. -/
def Connection.destNode (conn : Connection) : Bytes :=
  if conn.channel.connectDest = loopback then cfg.svrIp else conn.channel.connectDest

/-- The master as the cache tells it. -/
def ProxyState.cachedMaster (s : ProxyState) : Option Bytes :=
  s.cache.getMaster cfg s.now

/-- The next buffer of the client is passed on. -/
def ProxyState.Forwards (s : ProxyState) (conn : Connection) (buf : Bytes) : Prop :=
  (checkClientBuffer cfg filter s.now s.cache conn.kind conn.channel buf).isSome = true

instance (s : ProxyState) (conn : Connection) (buf : Bytes) :
    Decidable (s.Forwards cfg filter conn buf) :=
  inferInstanceAs (Decidable (_ = true))

/-- The request filter has nothing against the buffer on a connection of the slave port. -/
def FilterPasses (ch : IOChannel) (buf : Bytes) : Prop :=
  ∃ named, namedChannel ch buf = some named ∧
    (named.connectPort ≠ cfg.mysqlPort ∨ filter false named.dbName buf = true)

/-- The connection goes to the MySQL of this machine, this machine is the cached master under an
address that is not the loopback address, and the filter lets the buffer pass. -/
def Misrouted (s : ProxyState) (conn : Connection) (buf : Bytes) : Prop :=
  conn.channel.connectDest = loopback ∧ s.cachedMaster cfg = some cfg.svrIp ∧ cfg.svrIp ≠ loopback ∧
    FilterPasses cfg filter conn.channel buf

variable {cfg filter}

theorem namedChannel_connectDest {ch named : IOChannel} {buf : Bytes}
    (h : namedChannel ch buf = some named) : named.connectDest = ch.connectDest := by
  unfold namedChannel at h
  split at h
  · obtain ⟨db, -, rfl⟩ := Option.map_eq_some_iff.mp h
    rfl
  · cases h
    rfl

/-- A buffer is passed on if the database can be read and the channel agrees. -/
theorem forwards_iff {s : ProxyState} {conn : Connection} {buf : Bytes} :
    s.Forwards cfg filter conn buf ↔ ∃ named, namedChannel conn.channel buf = some named ∧
      canExecute cfg filter s.now s.cache conn.kind named buf = true := by
  unfold ProxyState.Forwards checkClientBuffer
  cases namedChannel conn.channel buf with
  | none => simp
  | some named =>
    by_cases hcan : canExecute cfg filter s.now s.cache conn.kind named buf
    · simp [hcan]
    · simp [hcan]

/-- The channel of the master port passes on to the cached master only. -/
theorem forwards_master {s : ProxyState} {conn : Connection} {buf : Bytes}
    (hkind : conn.kind = .master) (h : s.Forwards cfg filter conn buf) :
    s.cachedMaster cfg = some (conn.destNode cfg) := by
  obtain ⟨named, hnamed, hcan⟩ := forwards_iff.mp h
  have hdest := namedChannel_connectDest hnamed
  simp only [canExecute, hkind] at hcan
  cases hmaster : s.cache.getMaster cfg s.now with
  | none => simp [hmaster] at hcan
  | some masterIp =>
    rw [ProxyState.cachedMaster, hmaster, Connection.destNode, ← hdest]
    simp only [hmaster, Bool.and_eq_true, ProxyConfig.listenIp_workerConfig] at hcan
    split at hcan
    · next hlocal => rw [if_pos hlocal, of_decide_eq_true hcan.1]
    · next hlocal => rw [if_neg hlocal, of_decide_eq_true hcan.1]

/-- The channel of the slave port looks at the address of the connection as it is. -/
theorem forwards_slave_iff {s : ProxyState} {conn : Connection} {buf : Bytes}
    (hkind : conn.kind = .slave) (hread : cfg.masterEnableReadPort = false) :
    s.Forwards cfg filter conn buf ↔
      (∃ masterIp, s.cachedMaster cfg = some masterIp ∧ masterIp ≠ conn.channel.connectDest) ∧
        FilterPasses cfg filter conn.channel buf := by
  rw [forwards_iff, FilterPasses]
  simp only [canExecute, hkind, hread, true_and, ProxyState.cachedMaster]
  cases s.cache.getMaster cfg s.now with
  | none => simp
  | some masterIp =>
    dsimp only
    constructor
    · rintro ⟨named, hnamed, hcan⟩
      have hdest := namedChannel_connectDest hnamed
      split at hcan
      · cases hcan
      · next hne =>
        refine ⟨⟨masterIp, rfl, ?_⟩, named, hnamed, by simpa using hcan⟩
        exact fun heq => hne (heq.trans hdest.symm)
    · rintro ⟨⟨_, heq, hne⟩, named, hnamed, hpasses⟩
      cases heq
      have hdest := namedChannel_connectDest hnamed
      refine ⟨named, hnamed, ?_⟩
      rw [if_neg fun heq => hne (heq.trans hdest)]
      simpa using hpasses

/-- On the slave port a buffer goes to the cached master exactly in the case `Misrouted`. -/
theorem forwards_slave_to_master_iff {s : ProxyState} {conn : Connection} {buf : Bytes}
    (hkind : conn.kind = .slave) (hread : cfg.masterEnableReadPort = false) :
    (s.Forwards cfg filter conn buf → s.cachedMaster cfg ≠ some (conn.destNode cfg)) ↔
      ¬ Misrouted cfg filter s conn buf := by
  rw [forwards_slave_iff hkind hread]
  constructor
  · rintro hsafe ⟨hlocal, hmaster, hip, hpasses⟩
    refine hsafe ⟨⟨cfg.svrIp, hmaster, fun heq => hip (heq.trans hlocal)⟩, hpasses⟩ ?_
    rw [hmaster, Connection.destNode, if_pos hlocal]
  · rintro hnot ⟨⟨masterIp, hmaster, hne⟩, hpasses⟩ hdest
    rw [hmaster, Option.some.injEq, Connection.destNode] at hdest
    -- Only the loopback address differs from the machine it stands for.
    split at hdest
    · next hlocal =>
      refine hnot ⟨hlocal, hdest ▸ hmaster, fun hip => hne ?_, hpasses⟩
      rw [hdest, hip, hlocal]
    · exact hne hdest

/-! ## How a connection was opened -/

/-- What the router of the slave port knew when it chose the destination. -/
def OpenedSlave (cfg : ProxyConfig) (conn : Connection) : Prop :=
  (conn.openedWith = some cfg.svrIp ∧ conn.destIp ≠ cfg.svrIp) ∨
    (∃ masterIp, conn.openedWith = some masterIp ∧ masterIp ≠ cfg.svrIp) ∧
      conn.channel.connectDest = loopback

theorem peerAddress_loopback {inetPton : Bytes → Bool} {peer : Bytes}
    (h : peerAddress inetPton loopback = some peer) : peer = loopback := by
  unfold peerAddress at h
  split at h
  · exact (Option.some.inj h).symm
  · split at h
    · exact (Option.some.inj h).symm
    · cases h

/-- The invariant of the connection: a connection of the slave port was opened to another machine,
or to this one while it was not the cached master. -/
def ConnectionInv (cfg : ProxyConfig) (s : ProxyState) : Prop :=
  ∀ conn, s.connection = some conn → conn.kind = .slave → OpenedSlave cfg conn

/-- The router of the slave port opens a connection in this way. -/
theorem openedSlave_of_connect {inetPton : Bytes → Bool} {s : ProxyState}
    (honly : cfg.onlyProxy = false) (hread : cfg.masterEnableReadPort = false) {connected : Bool}
    {destIp peer : Bytes} {destPort : Nat}
    (hdest : connectDest cfg s.now s.cache .slave connected = some (destIp, destPort))
    (hpeer : peerAddress inetPton destIp = some peer) :
    OpenedSlave cfg
      { kind := .slave
        destIp := destIp
        channel := { connectDest := peer, connectPort := destPort }
        openedWith := s.cache.getMaster cfg s.now } := by
  cases connected with
  | false => simp [connectDest] at hdest
  | true =>
    simp only [connectDest, honly, Bool.false_eq_true, if_false, if_true, getDestEndpoint, hread,
      and_true, ProxyConfig.listenIp_workerConfig] at hdest
    cases hmaster : s.cache.getMaster cfg s.now with
    | none => simp [hmaster] at hdest
    | some masterIp =>
      simp only [hmaster] at hdest
      split at hdest
      · next hlocal =>
        -- This machine is the master: the destination is one of the other members.
        obtain ⟨slave, hslave, heq⟩ := Option.map_eq_some_iff.mp hdest
        cases heq
        refine .inl ⟨by rw [hlocal], ?_⟩
        exact hlocal ▸ GroupStatusCache.getSlave_ne hslave
      · next hother =>
        cases hdest
        exact .inr ⟨⟨masterIp, rfl, hother⟩, peerAddress_loopback hpeer⟩

/-- Ending a connection leaves none. -/
@[simp] theorem endConnection_connection (s : ProxyState) (conn : Connection) (time : Nat) :
    (endConnection s conn time).connection = none := rfl

theorem checkClientBuffer_connectDest {now : Nat} {c : GroupStatusCache} {kind : PortKind}
    {ch ch' : IOChannel} {buf : Bytes} (h : checkClientBuffer cfg filter now c kind ch buf = some ch') :
    ch'.connectDest = ch.connectDest := by
  obtain ⟨named, hnamed, hcan⟩ := Option.bind_eq_some_iff.mp h
  split at hcan
  · cases hcan
    exact namedChannel_connectDest hnamed
  · cases hcan

/-- Every step keeps the invariant. -/
theorem connectionInv_step {inetPton : Bytes → Bool} (honly : cfg.onlyProxy = false)
    (hread : cfg.masterEnableReadPort = false) {s s' : ProxyState} {a : ProxyAction}
    (h : ConnectionInv cfg s) (hs : proxyStep cfg inetPton filter s a = some s') :
    ConnectionInv cfg s' := by
  have hended : ∀ (conn : Connection) (time : Nat), ConnectionInv cfg (endConnection s conn time) := by
    intro conn time conn' hconn'
    cases hconn'
  cases a with
  | clock now =>
    cases hs
    exact h
  | updateMasterStatus answer global =>
    cases hs
    exact h
  | updateMembership answer =>
    cases hs
    exact h
  | markFailure ip time =>
    cases hs
    exact h
  | connect kind connected =>
    cases hconn : s.connection with
    | some conn => simp [proxyStep, hconn] at hs
    | none =>
      simp only [proxyStep, hconn] at hs
      split at hs
      · cases hs
        exact h
      · next destIp destPort hdest =>
        split at hs
        · cases hs
          exact h
        · next peer hpeer =>
          cases hs
          intro conn' hconn' hkind
          cases hconn'
          cases hkind
          -- `openedWith` is the master by which the destination was just chosen.
          exact openedSlave_of_connect honly hread hdest hpeer
  | clientBuffer buf written time =>
    obtain ⟨conn, hconn, rfl⟩ := Option.map_eq_some_iff.mp hs
    split
    · exact hended conn time
    · next channel hcheck =>
      split
      · intro conn' hconn' hkind
        cases hconn'
        -- A buffer can change the database of the channel, not its address.
        have hopened := h conn hconn hkind
        unfold OpenedSlave at hopened ⊢
        rw [checkClientBuffer_connectDest hcheck]
        exact hopened
      · exact hended conn time
  | serverBuffer size =>
    obtain ⟨conn, hconn, rfl⟩ := Option.map_eq_some_iff.mp hs
    intro conn' hconn' hkind
    cases hconn'
    exact h conn hconn hkind
  | close time =>
    obtain ⟨conn, -, rfl⟩ := Option.map_eq_some_iff.mp hs
    exact hended conn time

theorem connectionInv_of_reachable {inetPton : Bytes → Bool} (honly : cfg.onlyProxy = false)
    (hread : cfg.masterEnableReadPort = false) {s : ProxyState}
    (hr : Transition.Reachable (proxySystem cfg inetPton filter) s) : ConnectionInv cfg s := by
  apply hr.invariant
  · intro conn hconn
    cases hconn
  · intro s a s' h _ hs
    exact connectionInv_step honly hread h hs

/-! ## Over the life of a connection -/

/-- In every history of the cache and of a connection: the master port passes a buffer on only to
the cached master; on the slave port a buffer goes to another machine than the cached master exactly
if it is not `Misrouted`, which does not happen as long as the cached master is the one the
connection was opened with. -/
theorem proxy_routing_iff (cfg : ProxyConfig) (inetPton : Bytes → Bool)
    (filter : Bool → Bytes → Bytes → Bool) (honly : cfg.onlyProxy = false) {s : ProxyState}
    (hr : Transition.Reachable (proxySystem cfg inetPton filter) s) {conn : Connection}
    (hconn : s.connection = some conn) (buf : Bytes) :
    (conn.kind = .master → s.Forwards cfg filter conn buf →
        s.cachedMaster cfg = some (conn.destNode cfg)) ∧
      (conn.kind = .slave → cfg.masterEnableReadPort = false →
        ((s.Forwards cfg filter conn buf → s.cachedMaster cfg ≠ some (conn.destNode cfg)) ↔
          ¬ Misrouted cfg filter s conn buf) ∧
        (s.cachedMaster cfg = conn.openedWith →
          (conn.openedWith = some cfg.svrIp → conn.channel.connectDest ≠ loopback) →
          ¬ Misrouted cfg filter s conn buf)) := by
  refine ⟨fun hkind h => forwards_master hkind h, fun hkind hread => ⟨?_, ?_⟩⟩
  · exact forwards_slave_to_master_iff hkind hread
  · rintro hsame hother ⟨hlocal, hmaster, -, -⟩
    have hinv := connectionInv_of_reachable honly hread hr
    obtain ⟨hopened, -⟩ | ⟨⟨masterIp, hopened, hne⟩, -⟩ := hinv conn hconn hkind
    · exact hother hopened hlocal
    · rw [hsame, hopened, Option.some.injEq] at hmaster
      exact hne hmaster

/-! ## Two machines -/

/-- A proxy at `10.0.0.1`. -/
def sampleConfig : ProxyConfig :=
  { svrIp := [49, 48, 46, 48, 46, 48, 46, 49], svrPort := 54321, mysqlPort := 11111 }

/-- `10.0.0.2`. -/
def otherIp : Bytes :=
  [49, 48, 46, 48, 46, 48, 46, 50]

/-- The other machine is the master when a client connects to the slave port. -/
def openRun : List ProxyAction :=
  [.updateMasterStatus (some ⟨otherIp, 100, 1⟩) none, .connect .slave true]

/-- Then this machine becomes the master. -/
def takeoverRun : List ProxyAction :=
  openRun ++ [.updateMasterStatus (some ⟨sampleConfig.svrIp, 120, 2⟩) none]

/-- A `COM_QUERY`. -/
def sampleQuery : Bytes :=
  [7, 0, 0, 0, 3, 83, 69, 76, 69, 67, 84]

/-- Before the takeover the connection to the MySQL of this machine is not to the master, and the
buffer is passed on. -/
theorem proxy_routing_before_takeover :
    ∃ s conn, Transition.run (proxySystem sampleConfig (fun _ => true) fun _ _ _ => true) {} openRun =
        some s ∧ s.connection = some conn ∧
      s.Forwards sampleConfig (fun _ _ _ => true) conn sampleQuery ∧
      s.cachedMaster sampleConfig ≠ some (conn.destNode sampleConfig) := by
  refine ⟨_, _, rfl, rfl, by decide, ?_⟩
  have hr := @Transition.reachable_of_run _ _
    (proxySystem sampleConfig (fun _ => true) fun _ _ _ => true) openRun _ rfl
  have hrouting := (proxy_routing_iff sampleConfig (fun _ => true) (fun _ _ _ => true) rfl hr rfl
    sampleQuery).2 rfl rfl
  exact hrouting.1.mpr (hrouting.2 (by decide) (by decide)) (by decide)

/-- After it the same connection is to the cached master, and buffers of the client are still passed
on. -/
theorem proxy_routing_after_takeover :
    ∃ s conn, Transition.run (proxySystem sampleConfig (fun _ => true) fun _ _ _ => true) {}
        takeoverRun = some s ∧ s.connection = some conn ∧ conn.kind = .slave ∧
      s.Forwards sampleConfig (fun _ _ _ => true) conn sampleQuery ∧
      s.cachedMaster sampleConfig = some (conn.destNode sampleConfig) := by
  exact ⟨_, _, rfl, rfl, rfl, by decide, by decide⟩

end PhxSql.Proxy
